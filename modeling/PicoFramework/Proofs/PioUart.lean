import PicoFramework.Spec.PioUart
import PicoFramework.Spec.ServoBus

/-! What becomes of the echo of a packet. The receiver has room for nine bytes, eight in its FIFO and
one that it holds, and nothing is read while a packet goes out. -/

namespace Pico.PioUart

open Lib.Power Lib.Amid

/-- The bytes that the receiver can have before any is read. -/
def RX_ROOM : ℕ := 9

namespace UartBoard

/-- What the receiver has, and is about to have. -/
def pending (b : UartBoard) : Bytes :=
  b.rxFifo ++ b.held.toList ++ (b.incoming.map Prod.fst).toList

/-- What the receiver's state always is. -/
structure Sound (b : UartBoard) : Prop where
  fifo : b.rxFifo.length ≤ PIO_FIFO_WORDS
  full : b.held.isSome → b.rxFifo.length = PIO_FIFO_WORDS
  takes : b.missed = false → b.incoming.isSome → b.held = none
  due : ∀ x ∈ b.incoming, b.now ≤ x.2 ∧ x.2 ≤ b.now + b.frameUs

/-- A packet is sent, of which `done` has been handed to the transmitter; of what the receiver has
had, `popped` has been read. -/
structure Sends (packet done popped : Bytes) (b : UartBoard) : Prop where
  sound : b.Sound
  whole : b.packet = packet.length
  handed : done <+: packet
  line : b.sent ++ b.osr.toList ++ b.txFifo = done
  answered : b.answer ≠ [] → b.sent = packet
  missed : b.answer = [] → b.missed = false
  late : popped ≠ [] → b.sent = packet
  echo : b.sent.take RX_ROOM <+: popped ++ b.pending
  silent : b.answer = [] → popped ++ b.pending = b.sent.take RX_ROOM
  exact : packet.length ≤ RX_ROOM → b.missed = false → popped ++ b.pending = b.sent ++ b.answer

end UartBoard

section events

variable {packet done popped : Bytes} {b : UartBoard}

namespace UartBoard

theorem react_cases {P : UartBoard → Prop} (b : UartBoard) (e : UartEvent) (same : P b)
    (elapses : b.idleUs < b.latencyUs → (∀ x ∈ b.incoming, b.now < x.2) →
      P { b with now := b.now + 1, idleUs := b.idleUs + 1 })
    (stalls : b.osr = none → b.txFifo = [] → P { b with stalled := true })
    (pulls : b.osr = none → b.txFifo ≠ [] →
      P { b with osr := b.txFifo.head?, txFifo := b.txFifo.tail })
    (shifts : ∀ byte, b.osr = some byte → b.incoming = none → b.held = none →
      P ({ b with osr := none, sent := b.sent ++ [byte] }.take byte))
    (loses : ∀ byte, b.osr = some byte → b.incoming = none → b.held.isSome →
      P { b with osr := none, sent := b.sent ++ [byte] })
    (stores : ∀ x, b.incoming = some x → b.held = none → b.rxFifo.length < PIO_FIFO_WORDS →
      P { b with incoming := none, rxFifo := b.rxFifo ++ [x.1] })
    (holds : ∀ x, b.incoming = some x → b.held = none → PIO_FIFO_WORDS ≤ b.rxFifo.length →
      P { b with incoming := none, held := some x.1 })
    (drops : ∀ x, b.incoming = some x → b.held.isSome → P { b with incoming := none })
    (answers : ∀ byte, b.sent.length = b.packet → b.incoming = none → b.held = none →
      P ({ b with answer := b.answer ++ [byte] }.take byte))
    (misses : ∀ byte instead, b.sent.length = b.packet → b.incoming = none → b.held.isSome →
      P (Option.elim instead { b with answer := b.answer ++ [byte], missed := true }
        { b with answer := b.answer ++ [byte], missed := true }.take)) : P (b.react e) := by
  cases e with
  | elapse =>
    simp only [UartBoard.react, UartBoard.elapse]
    split
    · next h => exact elapses h.1 h.2
    · exact same
  | pull =>
    simp only [UartBoard.react, UartBoard.pull]
    split
    · exact same
    · next hosr =>
      rw [Option.not_isSome_iff_eq_none] at hosr
      split
      · next hfifo => exact stalls hosr hfifo
      · next hfifo => exact pulls hosr hfifo
  | shift =>
    simp only [UartBoard.react, UartBoard.shift]
    split
    · exact same
    · next hincoming =>
      rw [Option.not_isSome_iff_eq_none] at hincoming
      cases hosr : b.osr with
      | none => exact same
      | some byte =>
        simp only [Option.elim]
        split
        · next hheld => exact loses byte hosr hincoming hheld
        · next hheld => exact shifts byte hosr hincoming (Option.not_isSome_iff_eq_none.mp hheld)
  | arrive =>
    simp only [UartBoard.react, UartBoard.arrive]
    cases hincoming : b.incoming with
    | none => exact same
    | some x =>
      simp only [Option.elim, UartBoard.push]
      split
      · next hheld => exact drops x hincoming hheld
      · next hheld =>
        rw [Option.not_isSome_iff_eq_none] at hheld
        split
        · next hroom => exact stores x hincoming hheld hroom
        · next hroom => exact holds x hincoming hheld (not_lt.mp hroom)
  | answer byte instead =>
    simp only [UartBoard.react, UartBoard.answerWith]
    split
    · next hover =>
      split
      · next hheld => exact misses byte instead hover.1 hover.2.2 hheld
      · next hheld =>
        exact answers byte hover.1 hover.2.2 (Option.not_isSome_iff_eq_none.mp hheld)
    · exact same

theorem elapse_cases (b : UartBoard) : b.elapse = b ∨
    (b.idleUs < b.latencyUs ∧ ∀ x ∈ b.incoming, b.now < x.2) ∧
      b.elapse = { b with now := b.now + 1, idleUs := b.idleUs + 1 } := by
  unfold elapse
  split
  · next h => exact Or.inr ⟨h, rfl⟩
  · exact Or.inl rfl

theorem Sound.elapse (h : b.Sound) : b.elapse.Sound := by
  obtain hsame | ⟨⟨-, hdue⟩, hstep⟩ := b.elapse_cases
  · rw [hsame]
    exact h
  · rw [hstep]
    refine ⟨h.fifo, h.full, h.takes, fun x hx => ⟨hdue x hx, ?_⟩⟩
    have hle := (h.due x hx).2
    dsimp only
    omega

theorem Sends.elapse (h : b.Sends packet done popped) : b.elapse.Sends packet done popped := by
  have hsound := h.sound.elapse
  obtain hsame | ⟨-, hstep⟩ := b.elapse_cases
  · rw [hsame]
    exact h
  · rw [hstep] at hsound ⊢
    exact { h with sound := hsound }

theorem Sends.transmitter (h : b.Sends packet done popped) {osr : Option UInt8} {txFifo : Bytes}
    {stalled : Bool} {done' : Bytes} (hline : b.sent ++ osr.toList ++ txFifo = done')
    (hdone : done' <+: packet) : Sends packet done' popped
      { b with osr := osr, txFifo := txFifo, stalled := stalled } :=
  { h with sound := ⟨h.sound.fifo, h.sound.full, h.sound.takes, h.sound.due⟩
           line := hline, handed := hdone }

theorem Sends.pull (h : b.Sends packet done popped) : b.pull.Sends packet done popped := by
  have hline := h.line
  unfold UartBoard.pull
  split
  · exact h
  · next hosr =>
    split
    · exact h.transmitter hline h.handed
    · next hfifo =>
      rw [Option.not_isSome_iff_eq_none] at hosr
      refine h.transmitter ?_ h.handed
      obtain ⟨byte, rest, hcons⟩ := List.exists_cons_of_ne_nil hfifo
      rw [hosr, hcons] at hline
      rw [hcons, ← hline]
      simp

theorem Sends.sending (h : b.Sends packet done popped) {byte : UInt8} (hosr : b.osr = some byte) :
    b.sent ++ [byte] <+: packet ∧ b.answer = [] ∧ popped = [] := by
  have hbegins : b.sent ++ [byte] <+: packet := by
    refine List.IsPrefix.trans ?_ h.handed
    rw [← h.line, hosr]
    exact List.prefix_append _ _
  have hne : b.sent ≠ packet := by
    intro hsent
    have hlen := hbegins.length_le
    rw [hsent, List.length_append] at hlen
    exact absurd hlen (by simp)
  exact ⟨hbegins, not_not.mp fun hanswer => hne (h.answered hanswer),
    not_not.mp fun hpopped => hne (h.late hpopped)⟩

theorem pending_take (b : UartBoard) (byte : UInt8) (h : b.incoming = none) :
    (b.take byte).pending = b.pending ++ [byte] := by
  unfold pending UartBoard.take
  rw [h]
  simp

theorem Sound.take (h : b.Sound) (byte : UInt8) (hheld : b.missed = false → b.held = none) :
    (b.take byte).Sound := by
  refine ⟨h.fifo, h.full, fun hmissed _ => hheld hmissed, fun x hx => ?_⟩
  obtain rfl := Option.some.inj hx
  exact ⟨Nat.le_add_right _ _, le_rfl⟩

theorem Sound.room (h : b.Sound) (hheld : b.held.isSome) : RX_ROOM ≤ b.pending.length := by
  obtain ⟨byte, hbyte⟩ := Option.isSome_iff_exists.mp hheld
  have hfull := h.full hheld
  unfold pending
  rw [hbyte, List.length_append, List.length_append, hfull]
  exact Nat.le_add_right _ _

theorem Sound.held_eq (h : b.Sound) (hempty : b.rxFifo = []) : b.held = none := by
  rw [← Option.not_isSome_iff_eq_none]
  intro hheld
  have hfull := h.full hheld
  rw [hempty] at hfull
  cases hfull

theorem pending_of_none (hheld : b.held = none) (hincoming : b.incoming = none) :
    b.pending = b.rxFifo := by
  unfold pending
  rw [hheld, hincoming]
  simp

theorem Sends.shift (h : b.Sends packet done popped) : b.shift.Sends packet done popped := by
  unfold UartBoard.shift
  split
  · exact h
  next hincoming =>
  rw [Option.not_isSome_iff_eq_none] at hincoming
  cases hosr : b.osr with
  | none => exact h
  | some byte =>
    obtain ⟨hbegins, hanswer, rfl⟩ := h.sending hosr
    have hline : b.sent ++ [byte] ++ (none : Option UInt8).toList ++ b.txFifo = done := by
      rw [← h.line, hosr]
      simp
    have hpending : b.pending = b.sent.take RX_ROOM := h.silent hanswer
    have hmissed := h.missed hanswer
    have hlen := congrArg List.length hpending
    rw [List.length_take] at hlen
    simp only [Option.elim]
    split
    · next hheld =>
      -- nine bytes are there, and it is not one of them
      have hroom := h.sound.room hheld
      have htake : (b.sent ++ [byte]).take RX_ROOM = b.sent.take RX_ROOM :=
        List.take_append_of_le_length (by omega)
      have hlong := hbegins.length_le
      rw [List.length_append] at hlong
      exact { h with
        sound := ⟨h.sound.fifo, h.sound.full, h.sound.takes, h.sound.due⟩
        line := hline
        answered := fun hne => absurd hanswer hne
        late := fun hne => absurd rfl hne
        echo := by rw [htake]; exact h.echo
        silent := fun _ => by rw [htake]; exact hpending
        exact := fun hshort => by simp only [List.length_singleton] at hlong; omega }
    · next hheld =>
      rw [Option.not_isSome_iff_eq_none] at hheld
      have hfifo := h.sound.fifo
      rw [pending_of_none hheld hincoming] at hlen
      have hshort : b.sent.length < RX_ROOM := by
        simp only [RX_ROOM, PIO_FIFO_WORDS] at hlen hfifo ⊢
        omega
      rw [List.take_of_length_le hshort.le] at hpending
      have htake : (b.sent ++ [byte]).take RX_ROOM = b.sent ++ [byte] :=
        List.take_of_length_le (by rw [List.length_append]; exact hshort)
      have hafter : ({ b with osr := none, sent := b.sent ++ [byte] }.take byte).pending =
          b.sent ++ [byte] :=
        (pending_take { b with osr := none, sent := b.sent ++ [byte] } byte hincoming).trans
          (congrArg (· ++ [byte]) hpending)
      have hsound : Sound { b with osr := none, sent := b.sent ++ [byte] } :=
        ⟨h.sound.fifo, h.sound.full, h.sound.takes, h.sound.due⟩
      exact { h with
        sound := hsound.take byte fun _ => hheld
        line := hline
        answered := fun hne => absurd hanswer hne
        late := fun hne => absurd rfl hne
        echo := by rw [hafter]; exact htake.symm ▸ List.prefix_refl _
        silent := fun _ => by rw [hafter]; exact htake.symm
        exact := fun _ _ => by
          rw [hafter]
          simp [UartBoard.take, hanswer] }

theorem Sound.arrive (h : b.Sound) : b.arrive.Sound := by
  unfold UartBoard.arrive
  cases hincoming : b.incoming with
  | none => exact h
  | some x =>
    simp only [Option.elim, UartBoard.push]
    split_ifs with hheld hroom
    · exact ⟨h.fifo, h.full, fun _ hsome => absurd hsome Bool.false_ne_true, fun _ hx => nomatch hx⟩
    · refine ⟨?_, fun hsome => absurd hsome hheld, fun _ hsome => absurd hsome Bool.false_ne_true,
        fun _ hx => nomatch hx⟩
      rw [List.length_append]
      exact hroom
    · exact ⟨h.fifo, fun _ => le_antisymm h.fifo (not_lt.mp hroom),
        fun _ hsome => absurd hsome Bool.false_ne_true, fun _ hx => nomatch hx⟩

theorem pending_arrive (h : b.held = none) : b.arrive.pending = b.pending := by
  unfold UartBoard.arrive
  cases hincoming : b.incoming with
  | none => rfl
  | some x =>
    simp only [Option.elim, UartBoard.push]
    unfold pending
    rw [h, hincoming]
    split_ifs with hheld hroom
    · exact absurd hheld Bool.false_ne_true
    · simp
    · simp

theorem pending_arrive_held (h : b.Sound) (hheld : b.held.isSome) :
    b.arrive.pending <+: b.pending ∧ RX_ROOM ≤ b.arrive.pending.length := by
  have hroom := h.room hheld
  unfold UartBoard.arrive
  cases hincoming : b.incoming with
  | none => exact ⟨List.prefix_refl _, hroom⟩
  | some x =>
    have hpush : ({ b with incoming := none }.push x.1) = { b with incoming := none } := if_pos hheld
    have hkept : Sound { b with incoming := none } :=
      ⟨h.fifo, h.full, fun _ hsome => absurd hsome Bool.false_ne_true, fun _ hx => nomatch hx⟩
    simp only [Option.elim]
    rw [hpush]
    refine ⟨?_, hkept.room hheld⟩
    unfold pending
    rw [hincoming]
    simp

theorem Sends.received (h : b.Sends packet done popped) {b' : UartBoard} (hsound : b'.Sound)
    (hrest : b'.packet = b.packet ∧ b'.sent = b.sent ∧ b'.osr = b.osr ∧ b'.txFifo = b.txFifo ∧
      b'.answer = b.answer ∧ b'.missed = b.missed)
    (hpending : b'.pending = b.pending ∨
      b.missed = true ∧ b'.pending <+: b.pending ∧ RX_ROOM ≤ b'.pending.length) :
    b'.Sends packet done popped := by
  obtain ⟨hpacket, hsent, hosr, hfifo, hanswer, hmissed⟩ := hrest
  have hlost : b.missed = false → b'.pending = b.pending := by
    intro hnot
    refine hpending.resolve_right fun hlost => ?_
    rw [hnot] at hlost
    exact Bool.false_ne_true hlost.1
  constructor
  · exact hsound
  · rw [hpacket]
    exact h.whole
  · exact h.handed
  · rw [hsent, hosr, hfifo]
    exact h.line
  · rw [hanswer, hsent]
    exact h.answered
  · rw [hanswer, hmissed]
    exact h.missed
  · rw [hsent]
    exact h.late
  · rw [hsent]
    obtain hsame | ⟨-, hbegins, hlong⟩ := hpending
    · rw [hsame]
      exact h.echo
    · refine List.prefix_of_prefix_length_le h.echo ((List.prefix_append_right_inj _).mpr hbegins) ?_
      rw [List.length_take, List.length_append]
      omega
  · rw [hanswer, hsent]
    intro hsilent
    rw [hlost (h.missed hsilent)]
    exact h.silent hsilent
  · rw [hmissed, hsent, hanswer]
    intro hshort hnot
    rw [hlost hnot]
    exact h.exact hshort hnot

theorem Sends.arrive (h : b.Sends packet done popped) : b.arrive.Sends packet done popped := by
  refine h.received h.sound.arrive ?_ ?_
  · unfold UartBoard.arrive
    cases b.incoming with
    | none => exact ⟨rfl, rfl, rfl, rfl, rfl, rfl⟩
    | some x =>
      simp only [Option.elim, UartBoard.push]
      split_ifs <;> exact ⟨rfl, rfl, rfl, rfl, rfl, rfl⟩
  · cases hheld : b.held with
    | none => exact Or.inl (pending_arrive hheld)
    | some byte =>
      cases hincoming : b.incoming with
      | none =>
        refine Or.inl ?_
        unfold UartBoard.arrive
        rw [hincoming]
        rfl
      | some x =>
        refine Or.inr ⟨?_, pending_arrive_held h.sound (by rw [hheld]; rfl)⟩
        cases hmissed : b.missed with
        | true => rfl
        | false =>
          have hnone := h.sound.takes hmissed (by rw [hincoming]; rfl)
          rw [hheld] at hnone
          cases hnone

theorem Sends.sent_within (h : b.Sends packet done popped) : b.sent <+: packet := by
  refine List.IsPrefix.trans ?_ h.handed
  rw [← h.line, List.append_assoc]
  exact List.prefix_append _ _

theorem Sends.sent_eq (h : b.Sends packet done popped) (hlen : b.sent.length = b.packet) :
    b.sent = packet :=
  h.sent_within.eq_of_length (hlen.trans h.whole)

theorem Sends.answerWith (h : b.Sends packet done popped) (byte : UInt8) (instead : Option UInt8) :
    (b.answerWith byte instead).Sends packet done popped := by
  unfold UartBoard.answerWith
  split
  · next hover =>
    obtain ⟨hlen, hosr, hincoming⟩ := hover
    have hsent := h.sent_eq hlen
    have hanswered : b.answer ++ [byte] ≠ [] := by simp
    -- what the answer adds comes after all that was there
    have hadd : ∀ b' : UartBoard, b'.Sound → b'.packet = b.packet → b'.sent = b.sent →
        b'.osr = b.osr → b'.txFifo = b.txFifo → b'.answer = b.answer ++ [byte] →
        b.pending <+: b'.pending →
        (b'.missed = false → b.missed = false ∧ b'.pending = b.pending ++ [byte]) →
        b'.Sends packet done popped := by
      intro b' hsound hpacket hsent' hosr' hfifo hanswer hmore hexact
      constructor
      · exact hsound
      · rw [hpacket]
        exact h.whole
      · exact h.handed
      · rw [hsent', hosr', hfifo]
        exact h.line
      · intro _
        rw [hsent', hsent]
      · intro hnone
        rw [hanswer] at hnone
        exact absurd hnone hanswered
      · intro _
        rw [hsent', hsent]
      · rw [hsent']
        exact h.echo.trans ((List.prefix_append_right_inj _).mpr hmore)
      · intro hnone
        rw [hanswer] at hnone
        exact absurd hnone hanswered
      · intro hshort hnot
        obtain ⟨hnot', hpending⟩ := hexact hnot
        rw [hpending, hsent', hanswer, ← List.append_assoc, h.exact hshort hnot', List.append_assoc]
    split
    · next hheld =>
      cases instead with
      | none =>
        exact hadd _ ⟨h.sound.fifo, h.sound.full, fun hnot => absurd hnot.symm Bool.false_ne_true,
          h.sound.due⟩ rfl rfl rfl rfl rfl (List.prefix_refl _)
          fun hnot => absurd hnot.symm Bool.false_ne_true
      | some other =>
        have hsound : Sound { b with answer := b.answer ++ [byte], missed := true } :=
          ⟨h.sound.fifo, h.sound.full, fun hnot => absurd hnot.symm Bool.false_ne_true, h.sound.due⟩
        refine hadd _ (hsound.take other fun hnot => absurd hnot.symm Bool.false_ne_true) rfl rfl rfl
          rfl rfl ?_ fun hnot => absurd hnot.symm Bool.false_ne_true
        have hpending := pending_take { b with answer := b.answer ++ [byte], missed := true } other
          hincoming
        simp only [Option.elim]
        rw [hpending]
        exact List.prefix_append _ _
    · next hheld =>
      rw [Option.not_isSome_iff_eq_none] at hheld
      have hsound : Sound { b with answer := b.answer ++ [byte] } :=
        ⟨h.sound.fifo, h.sound.full, h.sound.takes, h.sound.due⟩
      have hpending := pending_take { b with answer := b.answer ++ [byte] } byte hincoming
      refine hadd _ (hsound.take byte fun _ => hheld) rfl rfl rfl rfl rfl ?_ fun hnot =>
        ⟨hnot, hpending⟩
      rw [hpending]
      exact List.prefix_append _ _
  · exact h

theorem Sends.react (h : b.Sends packet done popped) (e : UartEvent) :
    (b.react e).Sends packet done popped := by
  cases e with
  | elapse => exact h.elapse
  | pull => exact h.pull
  | shift => exact h.shift
  | arrive => exact h.arrive
  | answer byte instead => exact h.answerWith byte instead

theorem Sends.accessed (h : b.Sends packet done popped) : b.accessed.Sends packet done popped :=
  { h with sound := ⟨h.sound.fifo, h.sound.full, h.sound.takes, h.sound.due⟩ }

/-- How long things take does not change. -/
def Timed (frameUs latencyUs : ℕ) (b : UartBoard) : Prop :=
  b.frameUs = frameUs ∧ b.latencyUs = latencyUs

theorem Timed.react {frameUs latencyUs : ℕ} (h : b.Timed frameUs latencyUs) (e : UartEvent) :
    (b.react e).Timed frameUs latencyUs := by
  apply react_cases (P := Timed frameUs latencyUs) b e
  case misses =>
    intro byte instead _ _ _
    cases instead <;> exact h
  all_goals
    intros
    exact h

theorem rxFifo_react (b : UartBoard) (e : UartEvent) : b.rxFifo <+: (b.react e).rxFifo := by
  apply react_cases (P := fun b' => b.rxFifo <+: b'.rxFifo) b e
  case stores =>
    intro x _ _ _
    exact List.prefix_append _ _
  case misses =>
    intro byte instead _ _ _
    cases instead <;> exact List.prefix_refl _
  all_goals
    intros
    exact List.prefix_refl _

theorem rxFifo_ne_nil (h : b.rxFifo ≠ []) (e : UartEvent) : (b.react e).rxFifo ≠ [] := by
  intro hnil
  have hbegins := rxFifo_react b e
  rw [hnil] at hbegins
  exact h (List.prefix_nil.mp hbegins)

theorem sent_react (b : UartBoard) (e : UartEvent) : b.sent <+: (b.react e).sent := by
  apply react_cases (P := fun b' => b.sent <+: b'.sent) b e
  case shifts | loses =>
    intros
    exact List.prefix_append _ _
  case misses =>
    intro byte instead _ _ _
    cases instead <;> exact List.prefix_refl _
  all_goals
    intros
    exact List.prefix_refl _

end UartBoard

end events

section driver

variable {packet done popped : Bytes} {frameUs latencyUs start : ℕ} {b : UartBoard}

theorem access_along {α : Type} {f : UartBoard → α × UartBoard} {P : UartBoard → Prop}
    {Q : α → UartBoard → Prop} (hreact : ∀ b e, P b → P (b.react e))
    (h : ∀ b, P b → Q (f b.accessed).1 (f b.accessed).2) :
    Along (uartAccess f) P Q fun _ => True :=
  Along.access hreact (fun _ _ => trivial) h

theorem look_along {α : Type} {f : UartBoard → α} {P : UartBoard → Prop}
    {Q : α → UartBoard → Prop} (hreact : ∀ b e, P b → P (b.react e))
    (h : ∀ b, P b → Q (f b.accessed) b.accessed) : Along (uartLook f) P Q fun _ => True :=
  access_along hreact h

theorem change_along {f : UartBoard → UartBoard} {P Q : UartBoard → Prop}
    (hreact : ∀ b e, P b → P (b.react e)) (h : ∀ b, P b → Q (f b.accessed)) :
    Along (uartChange f) P (fun _ => Q) fun _ => True :=
  access_along hreact h

theorem untilLook_along {test : UartBoard → Bool} {P Q : UartBoard → Prop}
    (hreact : ∀ b e, P b → P (b.react e)) (haccessed : ∀ b : UartBoard, P b → P b.accessed)
    (htest : ∀ b : UartBoard, P b.accessed → test b.accessed = true → Q b.accessed) :
    Along (untilDone (uartLook test)) P (fun _ => Q) fun _ => True := by
  refine Along.untilDone (look_along hreact fun b h => ?_) fun _ _ => trivial
  split
  · next hdone => exact htest b (haccessed b h) hdone
  · exact haccessed b h

namespace UartBoard

/-- Nothing is sent or comes in, before a packet of `n` bytes. -/
structure Rests (n frameUs latencyUs : ℕ) (b : UartBoard) : Prop where
  sound : b.Sound
  timed : b.Timed frameUs latencyUs
  txFifo : b.txFifo = []
  osr : b.osr = none
  incoming : b.incoming = none
  held : b.held = none
  sent : b.sent = []
  answer : b.answer = []
  missed : b.missed = false
  packet : b.packet = n

theorem Rests.react {n : ℕ} (h : b.Rests n frameUs latencyUs) (hn : n ≠ 0) (e : UartEvent) :
    (b.react e).Rests n frameUs latencyUs := by
  have htimed := h.timed.react e
  cases e with
  | elapse =>
    have hsound := h.sound.elapse
    simp only [UartBoard.react] at htimed ⊢
    obtain hsame | ⟨-, hstep⟩ := b.elapse_cases
    · rw [hsame]
      exact h
    · rw [hstep] at hsound htimed ⊢
      exact { h with sound := hsound, timed := htimed }
  | pull =>
    simp only [UartBoard.react, UartBoard.pull, h.osr, h.txFifo, Option.isSome_none,
      Bool.false_eq_true, if_false, if_true]
    exact { h with
      sound := ⟨h.sound.fifo, h.sound.full, h.sound.takes, h.sound.due⟩
      txFifo := rfl
      osr := rfl }
  | shift =>
    simp only [UartBoard.react, UartBoard.shift, h.osr, h.incoming]
    exact h
  | arrive =>
    simp only [UartBoard.react, UartBoard.arrive, h.incoming]
    exact h
  | answer byte instead =>
    have hover : ¬(b.sent.length = b.packet ∧ b.osr = none ∧ b.incoming = none) := by
      rw [h.sent, h.packet]
      exact fun hover => hn hover.1.symm
    simp only [UartBoard.react, UartBoard.answerWith]
    rw [if_neg hover]
    exact h

theorem quietBoard_rests (n frameUs latencyUs : ℕ) :
    (quietBoard n frameUs latencyUs).Rests n frameUs latencyUs := by
  constructor
  · refine ⟨Nat.zero_le _, fun hsome => absurd hsome Bool.false_ne_true, fun _ _ => rfl,
      fun x hx => ?_⟩
    cases hx
  · exact ⟨rfl, rfl⟩
  · rfl
  · rfl
  · rfl
  · rfl
  · rfl
  · rfl
  · rfl
  · rfl

theorem Rests.clearRx {n : ℕ} (h : b.Rests n frameUs latencyUs) (hn : n = packet.length) :
    b.accessed.clearRx.Sends packet [] [] := by
  have hheld : b.accessed.held = none := h.held
  have hincoming : b.accessed.incoming = none := h.incoming
  have hpending : b.accessed.clearRx.pending = [] := by
    unfold pending UartBoard.clearRx
    rw [hheld, hincoming]
    rfl
  constructor
  · refine ⟨?_, fun hsome => absurd hsome Bool.false_ne_true, fun _ _ => rfl, h.sound.due⟩
    simp only [UartBoard.clearRx, hheld]
    exact Nat.zero_le _
  · exact h.packet.trans hn
  · exact List.nil_prefix
  · simp [UartBoard.clearRx, UartBoard.accessed, h.sent, h.osr, h.txFifo]
  · exact fun hanswer => absurd h.answer hanswer
  · exact fun _ => h.missed
  · exact fun hpopped => absurd rfl hpopped
  · simp [UartBoard.clearRx, UartBoard.accessed, h.sent]
  · intro _
    rw [hpending]
    simp [UartBoard.clearRx, UartBoard.accessed, h.sent]
  · intro _ _
    rw [hpending]
    simp [UartBoard.clearRx, UartBoard.accessed, h.sent, h.answer]

/-- The packet goes out. -/
structure Going (packet done popped : Bytes) (frameUs latencyUs : ℕ) (b : UartBoard) : Prop where
  sends : b.Sends packet done popped
  timed : b.Timed frameUs latencyUs

theorem Going.react (h : b.Going packet done popped frameUs latencyUs) (e : UartEvent) :
    (b.react e).Going packet done popped frameUs latencyUs :=
  ⟨h.sends.react e, h.timed.react e⟩

theorem Going.accessed (h : b.Going packet done popped frameUs latencyUs) :
    b.accessed.Going packet done popped frameUs latencyUs :=
  ⟨h.sends.accessed, h.timed⟩

theorem Going.put (h : b.Going packet done popped frameUs latencyUs) {byte : UInt8}
    (hdone : done ++ [byte] <+: packet) :
    (b.put byte).Going packet (done ++ [byte]) popped frameUs latencyUs := by
  refine ⟨h.sends.transmitter ?_ hdone, h.timed⟩
  rw [← List.append_assoc, h.sends.line]

end UartBoard

theorem pioSmPutBlocking_along {byte : UInt8} (hdone : done ++ [byte] <+: packet) :
    Along (pioSmPutBlocking byte) (UartBoard.Going packet done popped frameUs latencyUs)
      (fun _ => UartBoard.Going packet (done ++ [byte]) popped frameUs latencyUs)
      fun _ => True := by
  unfold pioSmPutBlocking
  refine Along.bind (Q := fun _ => UartBoard.Going packet done popped frameUs latencyUs)
    (untilLook_along (fun b e h => h.react e) (fun b h => h.accessed) fun b h _ => h) fun _ => ?_
  exact change_along (fun b e h => h.react e) fun b h => h.accessed.put hdone

theorem putAll_along {data : Bytes} (hdone : done ++ data <+: packet) :
    Along (putAll data) (UartBoard.Going packet done popped frameUs latencyUs)
      (fun _ => UartBoard.Going packet (done ++ data) popped frameUs latencyUs)
      fun _ => True := by
  induction data generalizing done with
  | nil =>
    rw [List.append_nil]
    exact Along.pure fun _ h => h
  | cons byte rest ih =>
    have hassoc : done ++ byte :: rest = done ++ [byte] ++ rest := by simp
    rw [hassoc] at hdone ⊢
    refine Along.bind (pioSmPutBlocking_along ?_) fun _ => ih hdone
    exact (List.prefix_append _ _).trans hdone

namespace UartBoard

/-- The flag tells that everything is out. -/
def Honest (b : UartBoard) : Prop := b.stalled = true → b.osr = none ∧ b.txFifo = []

theorem Honest.react (h : b.Honest) (e : UartEvent) : (b.react e).Honest := by
  apply react_cases (P := Honest) b e
  case stalls => exact fun hosr hfifo _ => ⟨hosr, hfifo⟩
  case pulls => exact fun _ hfifo hstalled => absurd (h hstalled).2 hfifo
  case shifts | loses =>
    intro byte _ _ _ hstalled
    exact ⟨rfl, (h hstalled).2⟩
  case misses =>
    intro byte instead _ _ _
    cases instead <;> exact h
  all_goals
    intros
    exact h

/-- The packet is out. -/
structure Out (packet popped : Bytes) (frameUs latencyUs : ℕ) (b : UartBoard) : Prop where
  going : b.Going packet packet popped frameUs latencyUs
  sent : b.sent = packet

theorem Out.react (h : b.Out packet popped frameUs latencyUs) (e : UartEvent) :
    (b.react e).Out packet popped frameUs latencyUs := by
  have hgoing := h.going.react e
  have hmore := sent_react b e
  rw [h.sent] at hmore
  exact ⟨hgoing, hgoing.sends.sent_within.eq_of_length
    (le_antisymm hgoing.sends.sent_within.length_le hmore.length_le)⟩

theorem Out.accessed (h : b.Out packet popped frameUs latencyUs) :
    b.accessed.Out packet popped frameUs latencyUs :=
  ⟨h.going.accessed, h.sent⟩

theorem Going.out (h : b.Going packet packet popped frameUs latencyUs) (hhonest : b.Honest)
    (hstalled : b.stalled = true) : b.Out packet popped frameUs latencyUs := by
  obtain ⟨hosr, hfifo⟩ := hhonest hstalled
  have hline := h.sends.line
  rw [hosr, hfifo] at hline
  simp only [Option.toList_none, List.append_nil] at hline
  exact ⟨h, hline⟩

theorem Sound.rxByte (h : b.Sound) (hne : b.rxFifo ≠ []) : b.rxByte.2.Sound := by
  refine ⟨?_, fun hsome => absurd hsome Bool.false_ne_true, fun _ _ => rfl, h.due⟩
  obtain ⟨byte, rest, hcons⟩ := List.exists_cons_of_ne_nil hne
  have hfifo := h.fifo
  rw [hcons, List.length_cons] at hfifo
  simp only [UartBoard.rxByte, hcons, List.tail_cons, List.length_append]
  cases b.held with
  | none => exact Nat.le_of_succ_le hfifo
  | some held => exact hfifo

theorem pending_rxByte (hne : b.rxFifo ≠ []) : b.pending = b.rxByte.1 :: b.rxByte.2.pending := by
  obtain ⟨byte, rest, hcons⟩ := List.exists_cons_of_ne_nil hne
  simp [pending, UartBoard.rxByte, hcons]

theorem Out.rxByte (h : b.Out packet popped frameUs latencyUs) (hne : b.rxFifo ≠ []) :
    b.rxByte.2.Out packet (popped ++ [b.rxByte.1]) frameUs latencyUs := by
  have hsends := h.going.sends
  have hpending : popped ++ b.pending = popped ++ [b.rxByte.1] ++ b.rxByte.2.pending := by
    rw [pending_rxByte hne, List.append_assoc]
    rfl
  refine ⟨⟨?_, h.going.timed⟩, h.sent⟩
  exact { hsends with
    sound := hsends.sound.rxByte hne
    late := fun _ => h.sent
    echo := hpending ▸ hsends.echo
    silent := fun hanswer => hpending ▸ hsends.silent hanswer
    exact := fun hshort hnot => hpending ▸ hsends.exact hshort hnot }

/-- The receiver has a byte by some time. -/
def Due (byUs : ℕ) (b : UartBoard) : Prop := b.rxFifo = [] → ∃ x ∈ b.incoming, x.2 ≤ byUs

theorem Due.react {byUs : ℕ} (h : b.Due byUs) (hsound : b.Sound) (e : UartEvent) :
    (b.react e).Due byUs := by
  by_cases hempty : b.rxFifo = []
  · obtain ⟨x, hx, -⟩ := h hempty
    have hheld := hsound.held_eq hempty
    have hbusy : b.incoming ≠ none := fun hnone => by
      rw [hnone] at hx
      cases hx
    apply react_cases (P := Due byUs) b e
    case shifts | loses =>
      intro byte _ hincoming _
      exact absurd hincoming hbusy
    case stores => exact fun y _ _ _ hnil => absurd hnil (by simp)
    case holds =>
      intro y _ _ hfull
      rw [hempty] at hfull
      cases hfull
    case drops =>
      intro y _ hsome
      rw [hheld] at hsome
      cases hsome
    case answers => exact fun byte _ hincoming _ => absurd hincoming hbusy
    case misses => exact fun byte instead _ hincoming _ => absurd hincoming hbusy
    all_goals
      intros
      exact h
  · exact fun hnil => absurd hnil (rxFifo_ne_nil hempty e)

/-- As long as the echo of a packet of nine bytes or less has not been read, the next byte of it
takes no more than a frame. -/
theorem Out.due (h : b.Out packet popped frameUs latencyUs) (hshort : packet.length ≤ RX_ROOM)
    (hmore : popped.length < packet.length) : b.Due (b.now + frameUs) := by
  intro hempty
  have hsends := h.going.sends
  have hheld := hsends.sound.held_eq hempty
  have hecho := hsends.echo.length_le
  rw [h.sent, List.take_of_length_le hshort, List.length_append] at hecho
  cases hincoming : b.incoming with
  | none =>
    rw [pending_of_none hheld hincoming, hempty] at hecho
    exact absurd hmore (not_lt.mpr hecho)
  | some x =>
    have hdue := (hsends.sound.due x hincoming).2
    rw [h.going.timed.1] at hdue
    exact ⟨x, rfl, hdue⟩

/-- The processor last looked at the time `atUs` or before. -/
def Since (atUs latencyUs : ℕ) (b : UartBoard) : Prop :=
  b.now ≤ atUs + b.idleUs ∧ b.idleUs ≤ latencyUs

theorem Since.react {atUs : ℕ} (h : b.Since atUs latencyUs) (htimed : b.Timed frameUs latencyUs)
    (e : UartEvent) : (b.react e).Since atUs latencyUs := by
  apply react_cases (P := Since atUs latencyUs) b e
  case elapses =>
    intro hidle _
    rw [htimed.2] at hidle
    exact ⟨Nat.add_le_add_right h.1 1, hidle⟩
  case misses =>
    intro byte instead _ _ _
    cases instead <;> exact h
  all_goals
    intros
    exact h

end UartBoard

theorem awaitRx_along (p : Prop) (byUs : ℕ) {deadline : ℕ} :
    Along (awaitRx deadline)
      (fun b => b.Out packet popped frameUs latencyUs ∧ (p → b.Due byUs))
      (fun came b => b.Out packet popped frameUs latencyUs ∧
        if came then b.rxFifo ≠ [] else p → deadline ≤ byUs + latencyUs) fun _ => True := by
  have hreact : ∀ (b : UartBoard) (e : UartEvent),
      b.Out packet popped frameUs latencyUs ∧ (p → b.Due byUs) →
      (b.react e).Out packet popped frameUs latencyUs ∧ (p → (b.react e).Due byUs) :=
    fun b e h => ⟨h.1.react e, fun hp => (h.2 hp).react h.1.going.sends.sound e⟩
  unfold awaitRx
  refine Along.untilSome (Along.bind (Q := fun isEmpty b =>
    (b.Out packet popped frameUs latencyUs ∧ (p → b.Due byUs)) ∧
      if isEmpty then p → b.Since byUs latencyUs else b.rxFifo ≠ []) ?_ fun isEmpty => ?_)
    fun _ _ => trivial
  · refine look_along hreact fun b h => ⟨⟨h.1.accessed, h.2⟩, ?_⟩
    cases hfifo : b.accessed.rxFifo with
    | nil =>
      intro hp
      obtain ⟨x, hx, hdue⟩ := h.2 hp hfifo
      exact ⟨(h.1.going.sends.sound.due x hx).1.trans hdue, Nat.zero_le _⟩
    | cons byte rest => exact List.cons_ne_nil _ _
  cases isEmpty with
  | false => exact Along.pure fun b h => ⟨h.1.1, h.2⟩
  | true =>
    refine Along.bind (Q := fun now b =>
      (b.Out packet popped frameUs latencyUs ∧ (p → b.Due byUs)) ∧
        (p → now ≤ byUs + latencyUs)) ?_ fun now => Along.pure fun b h => ?_
    · refine look_along (fun b e h => ⟨hreact b e h.1, fun hp =>
        (h.2 hp).react h.1.1.going.timed e⟩) fun b h => ⟨⟨h.1.1.accessed, h.1.2⟩, fun hp => ?_⟩
      exact (h.2 hp).1.trans (Nat.add_le_add_left (h.2 hp).2 _)
    · by_cases hlate : deadline ≤ now
      · rw [if_pos hlate]
        exact ⟨h.1.1, fun hp => hlate.trans (h.2 hp)⟩
      · rw [if_neg hlate]
        exact h.1

theorem rxByte_along :
    Along rxByte (fun b => b.Out packet popped frameUs latencyUs ∧ b.rxFifo ≠ [])
      (fun byte => UartBoard.Out packet (popped ++ [byte]) frameUs latencyUs) fun _ => True :=
  access_along (fun _ e h => ⟨h.1.react e, UartBoard.rxFifo_ne_nil h.2 e⟩)
    fun _ h => h.1.accessed.rxByte h.2

/-- As many bytes have been read as were sent, or one of them took too long. -/
def UartBoard.Echoed (packet : Bytes) (frameUs latencyUs echoTimeoutUs : ℕ)
    (result : HalfDuplexUartResult) (b : UartBoard) : Prop :=
  if result = .ok then
    ∃ popped, popped.length = packet.length ∧ b.Out packet popped frameUs latencyUs
  else packet.length ≤ RX_ROOM → echoTimeoutUs ≤ frameUs + latencyUs

theorem discardEcho_along {echoTimeoutUs n : ℕ} (hn : popped.length + n = packet.length) :
    Along (discardEcho echoTimeoutUs n) (UartBoard.Out packet popped frameUs latencyUs)
      (UartBoard.Echoed packet frameUs latencyUs echoTimeoutUs) fun _ => True := by
  induction n generalizing popped with
  | zero => exact Along.pure fun b h => ⟨popped, hn, h⟩
  | succ n ih =>
    unfold discardEcho
    refine Along.bind (Q := fun start b => b.Out packet popped frameUs latencyUs ∧
      (packet.length ≤ RX_ROOM → b.Due (start + frameUs))) ?_ fun start => ?_
    · exact look_along (fun b e h => h.react e) fun b h =>
        ⟨h.accessed, fun hshort => h.accessed.due hshort (by omega)⟩
    refine Along.bind (awaitRx_along (packet.length ≤ RX_ROOM) (start + frameUs)) fun came => ?_
    cases came with
    | true =>
      refine Along.bind rxByte_along fun byte => ih ?_
      rw [List.length_append, List.length_singleton]
      omega
    | false =>
      refine Along.bind (Q := fun _ _ => packet.length ≤ RX_ROOM →
        start + echoTimeoutUs ≤ start + frameUs + latencyUs) ?_ fun _ => Along.pure fun b h => ?_
      · exact change_along (P := fun b => b.Out packet popped frameUs latencyUs ∧
          (packet.length ≤ RX_ROOM → start + echoTimeoutUs ≤ start + frameUs + latencyUs))
          (fun b e h => ⟨h.1.react e, h.2⟩) fun b h => h.2
      · intro hshort
        have hlate := h hshort
        omega

/-- What a write leaves, by what becomes of the echo. -/
def UartBoard.Written (echo : HalfDuplexUartEcho) (packet : Bytes)
    (frameUs latencyUs echoTimeoutUs : ℕ) (result : HalfDuplexUartResult) (b : UartBoard) : Prop :=
  match echo with
  | .keep => result = .ok ∧ b.Out packet [] frameUs latencyUs
  | .discard => b.Echoed packet frameUs latencyUs echoTimeoutUs result

def echoTimeoutUs (bus : HalfDuplexUart) : ℕ :=
  (halfDuplexUartFrameTimeUs bus.baudrate 2 + 100).toNat

theorem halfDuplexUartWrite_along {bus : HalfDuplexUart} (hready : bus.initialised = true)
    (hpacket : packet ≠ []) :
    Along (halfDuplexUartWrite bus packet) (UartBoard.Rests packet.length frameUs latencyUs)
      (UartBoard.Written bus.echo packet frameUs latencyUs (echoTimeoutUs bus)) fun _ => True := by
  have hlen : packet.length ≠ 0 := fun hzero => hpacket (List.eq_nil_of_length_eq_zero hzero)
  unfold halfDuplexUartWrite
  rw [hready, if_neg (by decide), if_neg hpacket]
  refine Along.bind (Q := fun _ => UartBoard.Going packet [] [] frameUs latencyUs) ?_ fun _ => ?_
  · exact change_along (fun b e h => h.react hlen e) fun b h => ⟨h.clearRx rfl, h.timed⟩
  refine Along.bind (putAll_along (List.prefix_refl _)) fun _ => ?_
  rw [List.nil_append]
  refine Along.bind (Q := fun _ b => b.Going packet packet [] frameUs latencyUs ∧ b.Honest)
    ?_ fun _ => ?_
  · refine change_along (fun b e h => h.react e) fun b h => ⟨⟨?_, h.timed⟩, fun hstalled => ?_⟩
    · exact h.accessed.sends.transmitter h.sends.line h.sends.handed
    · exact absurd hstalled Bool.false_ne_true
  refine Along.bind (Q := fun _ => UartBoard.Out packet [] frameUs latencyUs) ?_ fun _ => ?_
  · exact untilLook_along (fun b e h => ⟨h.1.react e, h.2.react e⟩)
      (fun b h => ⟨h.1.accessed, h.2⟩) fun b h hstalled => h.1.out h.2 hstalled
  refine Along.ite (fun hkeep => ?_) fun hdiscard => ?_
  · refine Along.pure fun b h => ?_
    rw [hkeep]
    exact ⟨rfl, h⟩
  · have hecho : bus.echo = .discard := by
      cases hcase : bus.echo with
      | discard => rfl
      | keep => exact absurd hcase hdiscard
    rw [hecho]
    exact discardEcho_along (Nat.zero_add _)

theorem UartBoard.Out.all (h : b.Out packet popped frameUs latencyUs)
    (hshort : packet.length ≤ RX_ROOM) (hnot : b.missed = false) :
    popped ++ b.pending = packet ++ b.answer := by
  rw [h.going.sends.exact hshort hnot, h.sent]

/-- A packet of nine bytes or less is sent whole and its echo is taken away whole, so that the
answer, as far as it has come, is all that the receiver has; and if the processor is never away for
too long, that does not fail. Of a longer one the echo is cut to nine bytes: the call can only
succeed by taking bytes of the answer for it. -/
theorem uart_echo_taken (bus : HalfDuplexUart) (packet : Bytes) (s : Course UartBoard UartEvent)
    (frameUs latencyUs : ℕ) (result : HalfDuplexUartResult) (hready : bus.initialised = true)
    (hecho : bus.echo = .discard) (hpacket : packet ≠ [])
    (hs : s.state.Rests packet.length frameUs latencyUs)
    (hresult : ((halfDuplexUartWrite bus packet).run.run s).1 = some result) :
    let b := ((halfDuplexUartWrite bus packet).run.run s).2.state
    (result = .ok → b.sent = packet) ∧
      (packet.length ≤ RX_ROOM → frameUs + latencyUs < echoTimeoutUs bus → result = .ok) ∧
      (packet.length ≤ RX_ROOM → result = .ok → b.missed = false → b.pending = b.answer) ∧
      (RX_ROOM < packet.length → result = .ok → b.answer ≠ []) := by
  intro b
  have hwritten := (halfDuplexUartWrite_along hready hpacket).returns hs hresult
  rw [hecho] at hwritten
  change b.Echoed packet frameUs latencyUs (echoTimeoutUs bus) result at hwritten
  by_cases hok : result = .ok
  · obtain ⟨popped, hlen, hout⟩ := (if_pos hok).mp hwritten
    refine ⟨fun _ => hout.sent, fun _ _ => hok, fun hshort _ hnot => ?_, fun hlong _ hsilent => ?_⟩
    · exact (List.append_inj (hout.all hshort hnot) hlen).2
    · have hroom := congrArg List.length (hout.going.sends.silent hsilent)
      rw [List.length_append, List.length_take, hlen] at hroom
      omega
  · refine ⟨fun h => absurd h hok, fun hshort hquick => ?_, fun _ h => absurd h hok,
      fun _ h => absurd h hok⟩
    have hslow := (if_neg hok).mp hwritten hshort
    omega

/-- Three bytes go out and come back, and the answer is left; of ten bytes nine come back, and a
byte of the answer is taken for the last. -/
theorem uart_echo_taken_three_and_ten :
    let bus : HalfDuplexUart := ⟨1000000, .discard, ⟨1, 0, 1000000, 0⟩, true⟩
    let s : Course UartBoard UartEvent := ⟨quietBoard 3 10 5, List.replicate 8 [] ++
      [[.pull, .shift, .arrive, .pull, .shift, .arrive, .pull, .shift, .pull], [],
        [.arrive, .answer 0xAA none]] ++ List.replicate 7 []⟩
    let ten : Bytes := [0, 1, 2, 3, 4, 5, 6, 7, 8, 9]
    let s' : Course UartBoard UartEvent := ⟨quietBoard 10 10 5,
      List.replicate 26 [.pull, .shift, .arrive] ++ [[.answer 0xAA none, .arrive]] ++
        List.replicate 26 []⟩
    let b := ((halfDuplexUartWrite bus [1, 2, 3]).run.run s).2.state
    let b' := ((halfDuplexUartWrite bus ten).run.run s').2.state
    (((halfDuplexUartWrite bus [1, 2, 3]).run.run s).1 = some .ok ∧ b.sent = [1, 2, 3] ∧
      b.answer = [0xAA] ∧ b.pending = [0xAA]) ∧
    ((halfDuplexUartWrite bus ten).run.run s').1 = some .ok ∧ b'.sent = ten ∧ b'.answer ≠ [] := by
  intro bus s ten s' b b'
  have hok : ((halfDuplexUartWrite bus [1, 2, 3]).run.run s).1 = some .ok := by decide +kernel
  have htaken := uart_echo_taken bus [1, 2, 3] s 10 5 .ok rfl rfl (by decide)
    (UartBoard.quietBoard_rests 3 10 5) hok
  have hok' : ((halfDuplexUartWrite bus ten).run.run s').1 = some .ok := by decide +kernel
  have htaken' := uart_echo_taken bus ten s' 10 5 .ok rfl rfl (by decide)
    (UartBoard.quietBoard_rests 10 10 5) hok'
  have hanswer : b.answer = [0xAA] := by decide +kernel
  have hpending : b.pending = b.answer := htaken.2.2.1 (by decide) rfl (by decide +kernel)
  exact ⟨⟨hok, htaken.1 rfl, hanswer, hpending.trans hanswer⟩, hok', htaken'.1 rfl,
    htaken'.2.2.2 (by decide) rfl⟩

/-- An echo that is kept is cut to nine bytes as well, and the call succeeds all the same. -/
theorem uart_echo_kept (bus : HalfDuplexUart) (packet : Bytes) (s : Course UartBoard UartEvent)
    (frameUs latencyUs : ℕ) (result : HalfDuplexUartResult) (hready : bus.initialised = true)
    (hecho : bus.echo = .keep) (hpacket : packet ≠ [])
    (hs : s.state.Rests packet.length frameUs latencyUs)
    (hresult : ((halfDuplexUartWrite bus packet).run.run s).1 = some result) :
    let b := ((halfDuplexUartWrite bus packet).run.run s).2.state
    result = .ok ∧ b.sent = packet ∧ packet.take RX_ROOM <+: b.pending ∧
      (b.answer = [] → b.pending = packet.take RX_ROOM) ∧
      (packet.length ≤ RX_ROOM → b.missed = false → b.pending = packet ++ b.answer) := by
  intro b
  have hwritten := (halfDuplexUartWrite_along hready hpacket).returns hs hresult
  rw [hecho] at hwritten
  obtain ⟨hok, hout⟩ : result = .ok ∧ b.Out packet [] frameUs latencyUs := hwritten
  have hbegins := hout.going.sends.echo
  have hsilent := hout.going.sends.silent
  rw [hout.sent, List.nil_append] at hbegins hsilent
  exact ⟨hok, hout.sent, hbegins, hsilent, fun hshort hnot => hout.all hshort hnot⟩

/-- Three bytes are there with the answer behind them; of ten bytes the last is lost. -/
theorem uart_echo_kept_three_and_ten :
    let bus : HalfDuplexUart := ⟨1000000, .keep, ⟨1, 0, 1000000, 0⟩, true⟩
    let s : Course UartBoard UartEvent := ⟨quietBoard 3 10 5, List.replicate 8 [] ++
      [[.pull, .shift, .arrive, .pull, .shift, .arrive, .pull, .shift, .pull, .arrive,
        .answer 0xAA none]]⟩
    let ten : Bytes := [0, 1, 2, 3, 4, 5, 6, 7, 8, 9]
    let s' : Course UartBoard UartEvent :=
      ⟨quietBoard 10 10 5, List.replicate 26 [.pull, .shift, .arrive]⟩
    let b := ((halfDuplexUartWrite bus [1, 2, 3]).run.run s).2.state
    let b' := ((halfDuplexUartWrite bus ten).run.run s').2.state
    (((halfDuplexUartWrite bus [1, 2, 3]).run.run s).1 = some .ok ∧ b.sent = [1, 2, 3] ∧
      b.pending = [1, 2, 3] ++ [0xAA]) ∧
    ((halfDuplexUartWrite bus ten).run.run s').1 = some .ok ∧ b'.sent = ten ∧
      b'.pending = [0, 1, 2, 3, 4, 5, 6, 7, 8] := by
  intro bus s ten s' b b'
  have hok : ((halfDuplexUartWrite bus [1, 2, 3]).run.run s).1 = some .ok := by decide +kernel
  have hkept := uart_echo_kept bus [1, 2, 3] s 10 5 .ok rfl rfl (by decide)
    (UartBoard.quietBoard_rests 3 10 5) hok
  have hok' : ((halfDuplexUartWrite bus ten).run.run s').1 = some .ok := by decide +kernel
  have hkept' := uart_echo_kept bus ten s' 10 5 .ok rfl rfl (by decide)
    (UartBoard.quietBoard_rests 10 10 5) hok'
  have hanswer : b.answer = [0xAA] := by decide +kernel
  have hpending : b.pending = [1, 2, 3] ++ b.answer :=
    hkept.2.2.2.2 (by decide) (by decide +kernel)
  rw [hanswer] at hpending
  exact ⟨⟨hok, hkept.2.1, hpending⟩, hok', hkept'.2.1, hkept'.2.2.2.1 (by decide +kernel)⟩

section reads

theorem readBytes_along {interByteTimeoutUs n deadline : ℕ} :
    Along (readBytes interByteTimeoutUs n deadline)
      (UartBoard.Out packet popped frameUs latencyUs)
      (fun bytes b => bytes.length ≤ n ∧ b.Out packet (popped ++ bytes) frameUs latencyUs)
      fun _ => True := by
  induction n generalizing popped deadline with
  | zero => exact Along.pure fun b h => ⟨le_rfl, by rwa [List.append_nil]⟩
  | succ n ih =>
    unfold readBytes
    refine Along.bind ((awaitRx_along False 0).pre fun b h => ⟨h, False.elim⟩)
      fun came => ?_
    cases came with
    | true =>
      refine Along.bind rxByte_along fun byte => ?_
      refine Along.bind (Q := fun _ => UartBoard.Out packet (popped ++ [byte]) frameUs latencyUs)
        (look_along (fun b e h => h.react e) fun b h => h.accessed) fun now => ?_
      refine Along.bind ih fun rest => Along.pure fun b h => ⟨Nat.succ_le_succ h.1, ?_⟩
      rw [List.append_assoc] at h
      exact h.2
    | false =>
      refine Along.pure fun b h => ⟨Nat.zero_le _, ?_⟩
      rw [List.append_nil]
      exact h.1

theorem halfDuplexUartReadExact_along {bus : HalfDuplexUart} {len timeoutUs : ℕ}
    (hready : bus.initialised = true) :
    Along (halfDuplexUartReadExact bus len timeoutUs)
      (UartBoard.Out packet popped frameUs latencyUs)
      (fun r b => (r.1 = .ok ↔ r.2.length = len) ∧ r.2.length ≤ len ∧
        b.Out packet (popped ++ r.2) frameUs latencyUs) fun _ => True := by
  unfold halfDuplexUartReadExact
  rw [hready, if_neg (by decide)]
  refine Along.ite (fun hzero => ?_) fun hlen => ?_
  · refine Along.pure fun b h => ⟨by simp [hzero], Nat.zero_le _, ?_⟩
    rw [List.append_nil]
    exact h
  refine Along.bind (Q := fun r b => (r.1 = if r.2 = [] then .errTimeout else .ok) ∧
    r.2.length ≤ len ∧ b.Out packet (popped ++ r.2) frameUs latencyUs) ?_ fun r => ?_
  · unfold halfDuplexUartRead
    rw [hready, if_neg (by decide), if_neg hlen]
    refine Along.bind (Q := fun _ => UartBoard.Out packet popped frameUs latencyUs)
      (look_along (fun b e h => h.react e) fun b h => h.accessed) fun now => ?_
    exact Along.bind readBytes_along fun buffer => Along.pure fun b h => ⟨rfl, h⟩
  · refine Along.pure fun b h => ⟨?_, h.2⟩
    by_cases hnil : r.2 = []
    · have hresult := h.1
      rw [if_pos hnil] at hresult
      simp [hresult, hnil, Ne.symm hlen]
    · have hresult := h.1
      rw [if_neg hnil] at hresult
      simp [hresult]

/-- An answer to a packet of nine bytes or less is given back as it came: the bytes read are its
first, and the rest of it is still to be read. The call succeeds exactly when it has as many as were
asked for. -/
theorem uart_answer_read (bus : HalfDuplexUart) (tx : Bytes) (rxLen timeoutUs : ℕ)
    (s : Course UartBoard UartEvent) (frameUs latencyUs : ℕ)
    (r : HalfDuplexUartResult × Bytes) (hready : bus.initialised = true)
    (hecho : bus.echo = .discard) (htx : tx ≠ []) (hshort : tx.length ≤ RX_ROOM)
    (hquick : frameUs + latencyUs < echoTimeoutUs bus)
    (hs : s.state.Rests tx.length frameUs latencyUs)
    (hr : ((halfDuplexUartTransfer bus tx rxLen timeoutUs).run.run s).1 = some r) :
    let b := ((halfDuplexUartTransfer bus tx rxLen timeoutUs).run.run s).2.state
    b.sent = tx ∧ (r.1 = .ok ↔ r.2.length = rxLen) ∧ r.2.length ≤ rxLen ∧
      (b.missed = false → r.2 ++ b.pending = b.answer) := by
  intro b
  have halong : Along (halfDuplexUartTransfer bus tx rxLen timeoutUs)
      (UartBoard.Rests tx.length frameUs latencyUs)
      (fun r b => ∃ popped, popped.length = tx.length ∧ (r.1 = .ok ↔ r.2.length = rxLen) ∧
        r.2.length ≤ rxLen ∧ b.Out tx (popped ++ r.2) frameUs latencyUs) fun _ => True := by
    unfold halfDuplexUartTransfer
    refine Along.bind (halfDuplexUartWrite_along hready htx) fun sent => ?_
    rw [hecho]
    refine Along.ite (fun hfailed => ?_) fun hsent => ?_
    · refine Along.given (p := False) (fun b h => ?_) False.elim
      have hslow := (if_neg hfailed).mp h hshort
      omega
    · rw [not_not] at hsent
      intro s' hs'
      obtain ⟨popped, hlen, hout⟩ := (if_pos hsent).mp hs'
      exact wp_mono (halfDuplexUartReadExact_along hready s' hout)
        (fun r t h => ⟨popped, hlen, h⟩) fun _ h => h
  obtain ⟨popped, hlen, hresult, hbound, hout⟩ := halong.returns hs hr
  refine ⟨hout.sent, hresult, hbound, fun hnot => ?_⟩
  have hall := hout.all hshort hnot
  rw [List.append_assoc] at hall
  exact (List.append_inj hall hlen).2

/-- A byte is sent, and the byte that answers it is read. -/
theorem uart_answer_read_one :
    let bus : HalfDuplexUart := ⟨1000000, .discard, ⟨1, 0, 1000000, 0⟩, true⟩
    let s : Course UartBoard UartEvent := ⟨quietBoard 1 10 5, [[], [], [], [],
      [.pull, .shift, .pull], [], [.arrive], [], [.answer 0xAA none], [.arrive], [], []]⟩
    let b := ((halfDuplexUartTransfer bus [0x55] 1 1000).run.run s).2.state
    ((halfDuplexUartTransfer bus [0x55] 1 1000).run.run s).1 = some (.ok, [0xAA]) ∧
      b.sent = [0x55] ∧ (b.missed = false → [0xAA] ++ b.pending = b.answer) := by
  intro bus s b
  have hok : ((halfDuplexUartTransfer bus [0x55] 1 1000).run.run s).1 = some (.ok, [0xAA]) := by
    decide +kernel
  have hread := uart_answer_read bus [0x55] 1 1000 s 10 5 (.ok, [0xAA]) rfl rfl (by decide)
    (by decide) (by decide) (UartBoard.quietBoard_rests 1 10 5) hok
  exact ⟨hok, hread.1, hread.2.2.2⟩

end reads

section refinement

variable {L : Line (Course UartBoard UartEvent)} {w : ServoWorld (Course UartBoard UartEvent)}
  {room : ℕ}

end refinement

end driver

end Pico.PioUart
