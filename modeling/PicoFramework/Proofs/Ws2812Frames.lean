import Mathlib.Data.List.GetD
import PicoFramework.Spec.Ws2812

/-! What a strip shows. Whatever the hardware does between two accesses of the driver, the words on
the wire are those of the frames that were begun, whole and in order; and each frame is begun when
the words before it have been in the FIFO for as long as the strip takes to latch. -/

namespace Pico

open Lib.Power Lib.Amid

/-- An order is found by its name, in whatever case, and by nothing else. -/
theorem ws2812OrderFromName_eq_some_iff (name : CString) (order : Ws2812Order) :
    ws2812OrderFromName name = some order ↔
      ∃ text ∈ ws2812OrderName order, name.bytes.map Ws2812Order.upper = text.bytes := by
  unfold ws2812OrderFromName
  constructor
  · intro h
    obtain ⟨x, hfind, rfl⟩ := Option.map_eq_some_iff.mp h
    have hname : ∀ y ∈ orderNames, ws2812OrderName y.1 = some y.2 := by decide
    have htext := List.find?_some hfind
    exact ⟨x.2, hname x (List.mem_of_find?_eq_some hfind), of_decide_eq_true htext⟩
  · rintro ⟨text, hname, htext⟩
    have hfind : ∀ y ∈ orderNames, orderNames.find? (fun x => y.2.bytes = x.2.bytes) = some y := by
      decide
    have hmem : (order, text) ∈ orderNames := by
      cases order <;> cases hname <;> decide
    rw [htext, hfind (order, text) hmem]
    rfl

section purpose

/-- What a call changes of the look of the strip. -/
def Ws2812Look.after (strip : Ws2812Look) : Ws2812Call → Ws2812Look
  | .setPixel index color => { strip with pixels := strip.pixels.set index.toNat color }
  | .fill color => { strip with pixels := List.replicate strip.pixels.length color }
  | .clear => { strip with pixels := List.replicate strip.pixels.length WS2812_COLOR_BLACK }
  | .setBrightness brightness => { strip with brightness := brightness }
  | .setGamma table => { strip with gammaTable := table }
  | .setOrder order => { strip with order := order }
  | _ => strip

def Ws2812Call.shows : Ws2812Call → Bool
  | .showAsync => true
  | .show => true
  | _ => false

def Ws2812Look.shown (strip : Ws2812Look) (call : Ws2812Call) : List (List UInt32) :=
  if call.shows then [strip.picture] else []

/-- The pictures of the strip at the calls that are to show it. -/
def Ws2812Look.pictures (strip : Ws2812Look) : List Ws2812Call → List (List UInt32)
  | [] => []
  | call :: calls => strip.shown call ++ (strip.after call).pictures calls

/-- The pictures at those of them that were answered with `ok`. -/
def Ws2812Look.accepted (strip : Ws2812Look) :
    List (Ws2812Call × Ws2812Result) → List (List UInt32)
  | [] => []
  | (call, result) :: calls =>
      (if result = .ok then strip.shown call else []) ++ (strip.after call).accepted calls

theorem Ws2812Look.accepted_sublist (strip : Ws2812Look) (calls : List Ws2812Call)
    (results : List Ws2812Result) :
    (strip.accepted (calls.zip results)).Sublist (strip.pictures calls) := by
  induction calls generalizing strip results with
  | nil => exact List.nil_sublist _
  | cons call calls ih =>
    cases results with
    | nil => exact List.nil_sublist _
    | cons result results =>
      refine List.Sublist.append ?_ (ih (strip.after call) results)
      split
      · exact List.Sublist.refl _
      · exact List.nil_sublist _

end purpose

section invariants

/-- The frame was begun when the words before it had been in the log for the latch time. -/
def Ws2812Frame.After (f : Ws2812Frame) (log : List (ℕ × UInt32)) : Prop :=
  f.before ≤ log.length ∧ ∀ w ∈ log.take f.before, w.1 + WS2812_RESET_US ≤ f.begun

theorem Ws2812Frame.After.append {f : Ws2812Frame} {log : List (ℕ × UInt32)} (h : f.After log)
    (more : List (ℕ × UInt32)) : f.After (log ++ more) := by
  constructor
  · rw [List.length_append]
    exact h.1.trans (Nat.le_add_right _ _)
  · rw [List.take_append_of_le_length h.1]
    exact h.2

/-- The words that have gone over the wire, that are in the FIFO, and that are still owed to it are
those of the frames. -/
structure Ws2812Board.Traced (b : Ws2812Board) : Prop where
  line : b.trace.sent.map Prod.snd ++ b.fifo = b.trace.queued.map Prod.snd
  whole : b.trace.queued.map Prod.snd ++ b.trace.owed = b.trace.frames.flatMap Ws2812Frame.words
  queuedBy : ∀ w ∈ b.trace.queued, w.1 ≤ b.now
  sentBy : ∀ w ∈ b.trace.sent, w.1 ≤ b.now
  places : ∀ i f, b.trace.frames[i]? = some f →
    f.before = ((b.trace.frames.take i).flatMap Ws2812Frame.words).length
  gaps : ∀ f ∈ b.trace.frames, f.After b.trace.queued
  drained : b.strip.dmaChannel = none → ∀ f ∈ b.trace.frames, f.After b.trace.sent

/-- What the channel is to move are the words that are owed, and the deadline is one of the words
that have gone into the FIFO. -/
structure Ws2812Board.Fed (b : Ws2812Board) : Prop where
  initialised : b.strip.initialised = true
  sized : b.strip.dmaChannel ≠ none → b.strip.pixels.length ≤ b.strip.wireBuffer.length
  owed : b.strip.dmaChannel ≠ none →
    b.trace.owed = (b.strip.wireBuffer.drop b.dmaAt).take b.dmaLeft
  room : b.dmaAt + b.dmaLeft ≤ b.strip.wireBuffer.length
  byHand : b.strip.dmaChannel = none → b.dmaLeft = 0
  latched : b.strip.dmaChannel ≠ none → b.strip.latchReadyUs ≠ 0 →
    b.dmaLeft = 0 ∧ ∀ w ∈ b.trace.queued, w.1 + WS2812_RESET_US ≤ b.strip.latchReadyUs

/-- The strip may be sent a frame. -/
structure Ws2812Board.Ready (b : Ws2812Board) : Prop where
  idle : b.dmaLeft = 0
  owed : b.trace.owed = []
  queued : ∀ w ∈ b.trace.queued, w.1 + WS2812_RESET_US ≤ b.now
  sent : b.strip.dmaChannel = none →
    b.fifo = [] ∧ ∀ w ∈ b.trace.sent, w.1 + WS2812_RESET_US ≤ b.now

/-- The frames begun so far, on a strip with this channel. -/
structure Ws2812Board.Held (dma : Option ℕ) (frames : List (List UInt32)) (b : Ws2812Board) :
    Prop where
  traced : b.Traced
  fed : b.Fed
  channel : b.strip.dmaChannel = dma
  frames : b.trace.frames.map Ws2812Frame.words = frames

/-- The same with the look of the strip. -/
structure Ws2812Board.Shows (dma : Option ℕ) (strip : Ws2812Look) (frames : List (List UInt32))
    (b : Ws2812Board) : Prop where
  held : b.Held dma frames
  look : b.strip.toWs2812Look = strip

/-- A strip without a channel is left ready by every call. -/
def Ws2812Board.Rests (b : Ws2812Board) : Prop := b.strip.dmaChannel = none → b.Ready

end invariants

section events

variable {b : Ws2812Board} {dma : Option ℕ} {strip : Ws2812Look} {frames : List (List UInt32)}

theorem Ws2812Board.react_strip (b : Ws2812Board) (e : Ws2812Event) :
    (b.react e).strip = b.strip := by
  cases e with
  | elapse us => rfl
  | transfer =>
    simp only [Ws2812Board.react, Ws2812Board.put]
    split <;> rfl
  | pull => rfl
  | stall =>
    simp only [Ws2812Board.react]
    split <;> rfl

theorem Ws2812Board.react_frames (b : Ws2812Board) (e : Ws2812Event) :
    (b.react e).trace.frames = b.trace.frames := by
  cases e with
  | elapse us => rfl
  | transfer =>
    simp only [Ws2812Board.react, Ws2812Board.put]
    split <;> rfl
  | pull => rfl
  | stall =>
    simp only [Ws2812Board.react]
    split <;> rfl

theorem Ws2812Board.Traced.put (h : b.Traced) {word : UInt32} {rest : List UInt32}
    (howed : b.trace.owed = word :: rest) : (b.put word).Traced where
  line := by
    simp only [Ws2812Board.put, List.map_append, List.map_cons, List.map_nil, ← List.append_assoc]
    rw [h.line]
  whole := by
    have hwhole := h.whole
    rw [howed] at hwhole
    simp only [Ws2812Board.put, howed, List.tail_cons, List.map_append, List.map_cons,
      List.map_nil, List.append_assoc, List.cons_append, List.nil_append]
    exact hwhole
  queuedBy w hw := by
    rcases List.mem_append.mp hw with hw | hw
    · exact h.queuedBy w hw
    · exact (congrArg Prod.fst (List.mem_singleton.mp hw)).le
  sentBy := h.sentBy
  places := h.places
  gaps f hf := (h.gaps f hf).append _
  drained := h.drained

theorem Ws2812Board.Traced.pull (h : b.Traced) : (b.react .pull).Traced where
  line := by
    have hline := h.line
    cases hfifo : b.fifo with
    | nil =>
      rw [hfifo] at hline
      simpa [Ws2812Board.react, hfifo] using hline
    | cons word fifo =>
      rw [hfifo] at hline
      simpa [Ws2812Board.react, hfifo] using hline
  whole := h.whole
  queuedBy := h.queuedBy
  sentBy w hw := by
    rcases List.mem_append.mp hw with hw | hw
    · exact h.sentBy w hw
    · obtain ⟨word, -, rfl⟩ := List.mem_map.mp hw
      exact le_refl _
  places := h.places
  gaps := h.gaps
  drained hchannel f hf := (h.drained hchannel f hf).append _

theorem Ws2812Board.Traced.elapse (h : b.Traced) (us : ℕ) : (b.react (.elapse us)).Traced where
  line := h.line
  whole := h.whole
  queuedBy w hw := (h.queuedBy w hw).trans (Nat.le_add_right _ _)
  sentBy w hw := (h.sentBy w hw).trans (Nat.le_add_right _ _)
  places := h.places
  gaps := h.gaps
  drained := h.drained

theorem Ws2812Board.Fed.next (h : b.Fed) (hleft : 0 < b.dmaLeft) :
    b.strip.dmaChannel ≠ none ∧ b.trace.owed = b.strip.wireBuffer.getD b.dmaAt 0 ::
      (b.strip.wireBuffer.drop (b.dmaAt + 1)).take (b.dmaLeft - 1) := by
  have hchannel : b.strip.dmaChannel ≠ none := by
    intro hnone
    have := h.byHand hnone
    omega
  have hat : b.dmaAt < b.strip.wireBuffer.length := by
    have := h.room
    omega
  refine ⟨hchannel, ?_⟩
  rw [h.owed hchannel, List.drop_eq_getElem_cons hat, List.getD_eq_getElem _ _ hat]
  obtain ⟨left, hleft⟩ := Nat.exists_eq_succ_of_ne_zero hleft.ne'
  rw [hleft]
  rfl

theorem Ws2812Board.Fed.transfer (h : b.Fed) : (b.react .transfer).Fed := by
  by_cases hmove : 0 < b.dmaLeft ∧ b.fifo.length < WS2812_FIFO_WORDS
  · obtain ⟨hchannel, howed⟩ := h.next hmove.1
    have hroom := h.room
    simp only [Ws2812Board.react, if_pos hmove]
    exact
      { initialised := h.initialised
        sized := h.sized
        owed := fun _ => by
          change b.trace.owed.tail = _
          rw [howed]
          rfl
        room := by
          change b.dmaAt + 1 + (b.dmaLeft - 1) ≤ b.strip.wireBuffer.length
          omega
        byHand := fun hnone => absurd hnone hchannel
        latched := fun _ hlatch => by
          have := (h.latched hchannel hlatch).1
          omega }
  · simp only [Ws2812Board.react, if_neg hmove]
    exact h

theorem Ws2812Board.Traced.transfer (h : b.Traced) (hfed : b.Fed) :
    (b.react .transfer).Traced := by
  by_cases hmove : 0 < b.dmaLeft ∧ b.fifo.length < WS2812_FIFO_WORDS
  · have hput := h.put (hfed.next hmove.1).2
    simp only [Ws2812Board.react, if_pos hmove]
    exact ⟨hput.line, hput.whole, hput.queuedBy, hput.sentBy, hput.places, hput.gaps,
      hput.drained⟩
  · simp only [Ws2812Board.react, if_neg hmove]
    exact h

theorem Ws2812Board.Held.react (h : b.Held dma frames) (e : Ws2812Event) :
    (b.react e).Held dma frames := by
  obtain ⟨htraced, hfed, hchannel, hframes⟩ := h
  refine ⟨?_, ?_, by rwa [b.react_strip], by rwa [b.react_frames]⟩
  · cases e with
    | elapse us => exact htraced.elapse us
    | transfer => exact htraced.transfer hfed
    | pull => exact htraced.pull
    | stall =>
      simp only [Ws2812Board.react]
      split
      · exact ⟨htraced.line, htraced.whole, htraced.queuedBy, htraced.sentBy, htraced.places,
          htraced.gaps, htraced.drained⟩
      · exact htraced
  · cases e with
    | elapse us => exact ⟨hfed.initialised, hfed.sized, hfed.owed, hfed.room, hfed.byHand, hfed.latched⟩
    | transfer => exact hfed.transfer
    | pull => exact ⟨hfed.initialised, hfed.sized, hfed.owed, hfed.room, hfed.byHand, hfed.latched⟩
    | stall =>
      simp only [Ws2812Board.react]
      split
      · exact ⟨hfed.initialised, hfed.sized, hfed.owed, hfed.room, hfed.byHand, hfed.latched⟩
      · exact hfed

theorem Ws2812Board.Held.foldl (h : b.Held dma frames) (events : List Ws2812Event) :
    (events.foldl Ws2812Board.react b).Held dma frames := by
  induction events generalizing b with
  | nil => exact h
  | cons e events ih => exact ih (h.react e)

theorem Ws2812Board.Shows.react (h : b.Shows dma strip frames) (e : Ws2812Event) :
    (b.react e).Shows dma strip frames :=
  ⟨h.held.react e, by rw [b.react_strip]; exact h.look⟩

theorem Ws2812Board.Ready.react (h : b.Ready) (e : Ws2812Event) : (b.react e).Ready := by
  cases e with
  | elapse us =>
    exact
      { idle := h.idle
        owed := h.owed
        queued := fun w hw => (h.queued w hw).trans (Nat.le_add_right _ _)
        sent := fun hchannel => ⟨(h.sent hchannel).1,
          fun w hw => ((h.sent hchannel).2 w hw).trans (Nat.le_add_right _ _)⟩ }
  | transfer =>
    have hmove : ¬(0 < b.dmaLeft ∧ b.fifo.length < WS2812_FIFO_WORDS) := by
      rw [h.idle]
      exact fun hmove => absurd hmove.1 (lt_irrefl 0)
    simp only [Ws2812Board.react, if_neg hmove]
    exact h
  | pull =>
    refine ⟨h.idle, h.owed, h.queued, fun hchannel => ?_⟩
    obtain ⟨hfifo, hsent⟩ := h.sent hchannel
    simpa [Ws2812Board.react, hfifo] using hsent
  | stall =>
    simp only [Ws2812Board.react]
    split
    · exact ⟨h.idle, h.owed, h.queued, h.sent⟩
    · exact h

theorem Ws2812Board.Rests.react (h : b.Rests) (e : Ws2812Event) : (b.react e).Rests := by
  intro hchannel
  rw [b.react_strip] at hchannel
  exact (h hchannel).react e

end events

section steps

variable {b : Ws2812Board} {dma : Option ℕ} {strip : Ws2812Look} {frames : List (List UInt32)}

/-- The driver changes the strip, and what it owes stays what it owes. -/
theorem Ws2812Board.Held.store (h : b.Held dma frames) (strip' : Ws2812Strip)
    (hinit : strip'.initialised = b.strip.initialised)
    (hchannel : strip'.dmaChannel = b.strip.dmaChannel)
    (hpixels : strip'.pixels.length = b.strip.pixels.length)
    (hsize : strip'.wireBuffer.length = b.strip.wireBuffer.length)
    (howed : (strip'.wireBuffer.drop b.dmaAt).take b.dmaLeft =
      (b.strip.wireBuffer.drop b.dmaAt).take b.dmaLeft)
    (hlatch : b.strip.dmaChannel ≠ none → strip'.latchReadyUs ≠ 0 →
      b.dmaLeft = 0 ∧ ∀ w ∈ b.trace.queued, w.1 + WS2812_RESET_US ≤ strip'.latchReadyUs) :
    Ws2812Board.Held dma frames { b with strip := strip' } where
  traced :=
    { line := h.traced.line
      whole := h.traced.whole
      queuedBy := h.traced.queuedBy
      sentBy := h.traced.sentBy
      places := h.traced.places
      gaps := h.traced.gaps
      drained := fun hnone => h.traced.drained (hchannel ▸ hnone) }
  fed :=
    { initialised := hinit.trans h.fed.initialised
      sized := fun hsome => by
        change strip'.pixels.length ≤ strip'.wireBuffer.length
        rw [hpixels, hsize]
        exact h.fed.sized (hchannel ▸ hsome)
      owed := fun hsome => (h.fed.owed (hchannel ▸ hsome)).trans howed.symm
      room := hsize ▸ h.fed.room
      byHand := fun hnone => h.fed.byHand (hchannel ▸ hnone)
      latched := fun hsome hne => hlatch (hchannel ▸ hsome) hne }
  channel := hchannel.trans h.channel
  frames := h.frames

theorem Ws2812Board.Held.clearStall (h : b.Held dma frames) : b.clearStall.Held dma frames where
  traced := ⟨h.traced.line, h.traced.whole, h.traced.queuedBy, h.traced.sentBy,
    h.traced.places, h.traced.gaps, h.traced.drained⟩
  fed := ⟨h.fed.initialised, h.fed.sized, h.fed.owed, h.fed.room, h.fed.byHand, h.fed.latched⟩
  channel := h.channel
  frames := h.frames

theorem Ws2812Board.Ready.store (h : b.Ready) {strip' : Ws2812Strip}
    (hchannel : strip'.dmaChannel = b.strip.dmaChannel) :
    Ws2812Board.Ready { b with strip := strip' } :=
  ⟨h.idle, h.owed, h.queued, fun hnone => h.sent (hchannel ▸ hnone)⟩

theorem Ws2812Board.Rests.store (h : b.Rests) {strip' : Ws2812Strip}
    (hchannel : strip'.dmaChannel = b.strip.dmaChannel) :
    Ws2812Board.Rests { b with strip := strip' } :=
  fun hnone => (h (hchannel ▸ hnone)).store hchannel

theorem getElem?_concat_some {α : Type} {l : List α} {x y : α} {i : ℕ}
    (h : (l ++ [x])[i]? = some y) : (i < l.length ∧ l[i]? = some y) ∨ (i = l.length ∧ y = x) := by
  rcases Nat.lt_or_ge i l.length with hi | hi
  · rw [List.getElem?_append_left hi] at h
    exact .inl ⟨hi, h⟩
  · rw [List.getElem?_append_right hi, List.getElem?_singleton] at h
    split at h
    · next hzero => exact .inr ⟨by omega, (Option.some.inj h).symm⟩
    · cases h

theorem Ws2812Board.Ready.begin (hready : b.Ready) (h : b.Shows dma strip frames) :
    b.begin.Traced ∧ b.begin.trace.frames.map Ws2812Frame.words = frames ++ [strip.picture] := by
  obtain ⟨⟨htraced, hfed, hchannel, hframes⟩, hlook⟩ := h
  refine ⟨?_, ?_⟩
  · have hlast : Ws2812Frame.After ⟨b.strip.picture, b.now, b.trace.queued.length⟩ b.trace.queued :=
      ⟨le_refl _, by rw [List.take_length]; exact hready.queued⟩
    exact
      { line := htraced.line
        whole := by
          have hwhole := htraced.whole
          rw [hready.owed, List.append_nil] at hwhole
          simp only [Ws2812Board.begin, hwhole, List.flatMap_append, List.flatMap_cons,
            List.flatMap_nil, List.append_nil]
        queuedBy := htraced.queuedBy
        sentBy := htraced.sentBy
        places := fun i f hf => by
          rcases getElem?_concat_some hf with ⟨hi, hf⟩ | ⟨rfl, rfl⟩
          · simp only [Ws2812Board.begin, List.take_append_of_le_length hi.le]
            exact htraced.places i f hf
          · have hwords := congrArg List.length htraced.whole
            rw [hready.owed, List.append_nil, List.length_map] at hwords
            simp only [Ws2812Board.begin, List.take_left']
            exact hwords
        gaps := fun f hf => by
          rcases List.mem_append.mp hf with hf | hf
          · exact htraced.gaps f hf
          · rw [List.mem_singleton.mp hf]
            exact hlast
        drained := fun hnone f hf => by
          obtain ⟨hfifo, hsent⟩ := hready.sent hnone
          have hlength : b.trace.sent.length = b.trace.queued.length := by
            have hline := congrArg List.length htraced.line
            simpa [hfifo] using hline
          rcases List.mem_append.mp hf with hf | hf
          · exact htraced.drained hnone f hf
          · rw [List.mem_singleton.mp hf]
            refine ⟨hlength.ge, ?_⟩
            change ∀ w ∈ b.trace.sent.take b.trace.queued.length, _
            rw [← hlength, List.take_length]
            exact hsent }
  · change (b.trace.frames ++ [_]).map Ws2812Frame.words = _
    rw [List.map_append, hframes, ← hlook]
    rfl

end steps

section driver

variable {dma : Option ℕ} {look : Ws2812Look} {frames : List (List UInt32)} {quiet : Bool}
  {P : Ws2812Board → Prop} {C : Ws2812Board → Prop}

theorem look_along {α : Type} {f : Ws2812Board → α} {Q : α → Ws2812Board → Prop}
    (hreact : ∀ b e, P b → P (b.react e)) (hC : ∀ b, P b → C b) (h : ∀ b, P b → Q (f b) b) :
    Along (ws2812Look f) P Q C :=
  Along.look hreact hC h

theorem change_along {f : Ws2812Board → Ws2812Board} {Q : Ws2812Board → Prop}
    (hreact : ∀ b e, P b → P (b.react e)) (hC : ∀ b, P b → C b) (h : ∀ b, P b → Q (f b)) :
    Along (ws2812Change f) P (fun _ => Q) C :=
  Along.change hreact hC h

theorem store_along {f : Ws2812Strip → Ws2812Strip} {Q : Ws2812Board → Prop}
    (hreact : ∀ b e, P b → P (b.react e)) (hC : ∀ b, P b → C b)
    (h : ∀ b, P b → Q { b with strip := f b.strip }) :
    Along (ws2812Store f) P (fun _ => Q) C :=
  change_along hreact hC h

theorem strip_along (hreact : ∀ b e, P b → P (b.react e)) (hP : ∀ b, P b → b.Shows dma look frames)
    (hC : ∀ b, P b → C b) :
    Along ws2812Strip P (fun strip b => P b ∧ strip.initialised = true ∧ strip.dmaChannel = dma ∧
      strip.toWs2812Look = look) C :=
  look_along hreact hC fun b h =>
    ⟨h, (hP b h).held.fed.initialised, (hP b h).held.channel, (hP b h).look⟩

/-- The machine has been seen to be quiet for the latch time. -/
structure Ws2812Board.Quiet (b : Ws2812Board) : Prop where
  idle : b.dmaLeft = 0
  stalled : b.stalled = true
  recorded : b.strip.latchReadyUs ≠ 0
  elapsed : b.strip.latchReadyUs ≤ b.now

theorem Ws2812Board.react_idle {b : Ws2812Board} (h : b.dmaLeft = 0) (e : Ws2812Event) :
    (b.react e).dmaLeft = 0 := by
  cases e with
  | elapse us => exact h
  | transfer => simp [Ws2812Board.react, h]
  | pull => exact h
  | stall =>
    simp only [Ws2812Board.react]
    split <;> exact h

theorem Ws2812Board.react_stalled {b : Ws2812Board} (h : b.stalled = true) (e : Ws2812Event) :
    (b.react e).stalled = true := by
  cases e with
  | elapse us => exact h
  | transfer =>
    simp only [Ws2812Board.react, Ws2812Board.put]
    split <;> exact h
  | pull => exact h
  | stall =>
    simp only [Ws2812Board.react]
    split
    · rfl
    · exact h

theorem Ws2812Board.react_now (b : Ws2812Board) (e : Ws2812Event) : b.now ≤ (b.react e).now := by
  cases e with
  | elapse us => exact Nat.le_add_right _ _
  | transfer =>
    simp only [Ws2812Board.react, Ws2812Board.put]
    split <;> exact le_refl _
  | pull => exact le_refl _
  | stall =>
    simp only [Ws2812Board.react]
    split <;> exact le_refl _

theorem Ws2812Board.Quiet.react {b : Ws2812Board} (h : b.Quiet) (e : Ws2812Event) :
    (b.react e).Quiet where
  idle := react_idle h.idle e
  stalled := react_stalled h.stalled e
  recorded := by rw [b.react_strip]; exact h.recorded
  elapsed := by rw [b.react_strip]; exact h.elapsed.trans (b.react_now e)

/-- Between calls. -/
def Ws2812Board.Between (dma : Option ℕ) (look : Ws2812Look) (frames : List (List UInt32))
    (b : Ws2812Board) : Prop := b.Shows dma look frames ∧ b.Rests

/-- Between calls, on a board that may be known to be quiet. -/
def Ws2812Board.Waits (dma : Option ℕ) (look : Ws2812Look) (frames : List (List UInt32))
    (quiet : Bool) (b : Ws2812Board) : Prop :=
  b.Between dma look frames ∧ (quiet = true → b.Quiet)

theorem Ws2812Board.Between.react {b : Ws2812Board} (h : b.Between dma look frames)
    (e : Ws2812Event) : (b.react e).Between dma look frames :=
  ⟨h.1.react e, h.2.react e⟩

theorem Ws2812Board.Waits.react {b : Ws2812Board} (h : b.Waits dma look frames quiet)
    (e : Ws2812Event) : (b.react e).Waits dma look frames quiet :=
  ⟨h.1.react e, fun hquiet => (h.2 hquiet).react e⟩

theorem Ws2812Board.Waits.held {b : Ws2812Board} (h : b.Waits dma look frames quiet) :
    b.Held dma frames := h.1.1.held

theorem Ws2812Board.Quiet.ready {b : Ws2812Board} (h : b.Quiet)
    (hbetween : b.Between dma look frames) : b.Ready := by
  by_cases hchannel : b.strip.dmaChannel = none
  · exact hbetween.2 hchannel
  · have hfed := hbetween.1.held.fed
    exact
      { idle := h.idle
        owed := by rw [hfed.owed hchannel, h.idle, List.take_zero]
        queued := fun w hw =>
          ((hfed.latched hchannel h.recorded).2 w hw).trans h.elapsed
        sent := fun hnone => absurd hnone hchannel }

theorem dmaChannelIsBusy_along {strip : Ws2812Strip} (hchannel : strip.dmaChannel = dma) :
    Along (dmaChannelIsBusy strip) (Ws2812Board.Waits dma look frames quiet)
      (fun feeding b => b.Waits dma look frames quiet ∧ (feeding = false → b.dmaLeft = 0) ∧
        (quiet = true → feeding = false))
      (Ws2812Board.Held dma frames) := by
  unfold dmaChannelIsBusy
  refine Along.ite (fun _ => ?_) fun hnone => ?_
  · refine look_along (fun b e h => h.react e) (fun b h => h.held) fun b h => ⟨h, ?_, ?_⟩
    · intro hfeeding
      have := of_decide_eq_false hfeeding
      omega
    · intro hquiet
      rw [(h.2 hquiet).idle]
      rfl
  · refine Along.pure fun b h => ⟨h, fun _ => ?_, fun _ => rfl⟩
    refine h.held.fed.byHand ?_
    rw [h.held.channel, ← hchannel]
    simpa using hnone

/-- Everything has gone into the FIFO, and the machine has run dry. -/
structure Ws2812Board.Dry (dma : Option ℕ) (look : Ws2812Look) (frames : List (List UInt32))
    (quiet : Bool) (b : Ws2812Board) : Prop where
  waits : b.Waits dma look frames quiet
  idle : b.dmaLeft = 0
  stalled : b.stalled = true

theorem Ws2812Board.Dry.react {b : Ws2812Board} (h : b.Dry dma look frames quiet)
    (e : Ws2812Event) : (b.react e).Dry dma look frames quiet :=
  ⟨h.waits.react e, react_idle h.idle e, react_stalled h.stalled e⟩

theorem Ws2812Board.Dry.record {b : Ws2812Board} (h : b.Dry dma look frames quiet)
    (hlatch : b.strip.latchReadyUs = 0) :
    Ws2812Board.Dry dma look frames quiet
      { b with strip := { b.strip with latchReadyUs := b.now + WS2812_RESET_US } } := by
  obtain ⟨⟨⟨⟨hheld, hlook⟩, hrests⟩, hquiet⟩, hidle, hstalled⟩ := h
  refine ⟨⟨⟨⟨hheld.store _ rfl rfl rfl rfl rfl fun _ _ => ⟨hidle, fun w hw => ?_⟩, hlook⟩,
    hrests.store rfl⟩, fun hq => absurd hlatch (hquiet hq).recorded⟩, hidle, hstalled⟩
  exact Nat.add_le_add_right (hheld.traced.queuedBy w hw) _

theorem recordLatch_along :
    Along recordLatch (Ws2812Board.Dry dma look frames quiet)
      (fun _ b => b.Dry dma look frames quiet ∧ b.strip.latchReadyUs ≠ 0)
      (Ws2812Board.Held dma frames) := by
  have hcut : ∀ b, Ws2812Board.Dry dma look frames quiet b → b.Held dma frames :=
    fun b h => h.waits.held
  refine Along.bind (Q := fun latch b =>
    b.Dry dma look frames quiet ∧ latch = b.strip.latchReadyUs) ?_ fun latch => ?_
  · exact look_along (fun b e h => h.react e) hcut fun b h => ⟨h, rfl⟩
  · refine Along.ite (fun hzero => ?_) fun hne => ?_
    · refine change_along (fun b e h => ⟨h.1.react e, by rw [b.react_strip]; exact h.2⟩)
        (fun b h => hcut b h.1) fun b h => ⟨h.1.record (h.2 ▸ hzero), ?_⟩
      exact Nat.ne_of_gt (Nat.add_pos_right _ (by decide))
    · exact Along.pure fun b h => ⟨h.1, h.2 ▸ hne⟩

theorem isBusy_along :
    Along ws2812IsBusy (Ws2812Board.Waits dma look frames quiet)
      (fun busy b => b.Waits dma look frames quiet ∧ (busy = false → b.Quiet) ∧
        (quiet = true → busy = false))
      (Ws2812Board.Held dma frames) := by
  refine (strip_along (fun b e h => h.react e) (fun b h => h.1.1) fun b h => h.held).bind
    fun strip => ?_
  refine Along.given (fun b h => h.2) fun hstrip => ?_
  rw [hstrip.1]
  refine ((dmaChannelIsBusy_along hstrip.2.1).pre fun b h => h.1).bind fun feeding => ?_
  refine Along.ite (fun hfeeding => ?_) fun hfeeding => ?_
  · refine Along.pure fun b h => ⟨h.1, by simp, fun hquiet => ?_⟩
    exact absurd (h.2.2 hquiet) (by simp [hfeeding])
  refine Along.bind (Q := fun stalled b => b.Waits dma look frames quiet ∧ b.dmaLeft = 0 ∧
    (stalled = true → b.stalled = true) ∧ (quiet = true → stalled = true)) ?_ fun stalled => ?_
  · refine Along.pre (P := fun b => b.Waits dma look frames quiet ∧ b.dmaLeft = 0) ?_
      fun b h => ⟨h.1, h.2.1 (by simpa using hfeeding)⟩
    refine look_along (fun b e h => ⟨h.1.react e, Ws2812Board.react_idle h.2 e⟩)
      (fun b h => h.1.held) fun b h => ⟨h.1, h.2, fun hs => hs, fun hquiet => ?_⟩
    exact (h.1.2 hquiet).stalled
  refine Along.ite (fun hrunning => ?_) fun hstalled => ?_
  · refine Along.pure fun b h => ⟨h.1, by simp, fun hquiet => ?_⟩
    have := h.2.2.2 hquiet
    simp [this] at hrunning
  have hstalled : stalled = true := by simpa using hstalled
  refine (recordLatch_along.pre fun b h => ⟨h.1, h.2.1, h.2.2.1 hstalled⟩).bind fun _ => ?_
  refine look_along (fun b e h => ⟨h.1.react e, by rw [b.react_strip]; exact h.2⟩)
    (fun b h => h.1.waits.held) fun b h => ⟨h.1.waits, fun hready => ?_, fun hquiet => ?_⟩
  · exact ⟨h.1.idle, h.1.stalled, h.2, not_lt.mp (of_decide_eq_false hready)⟩
  · exact decide_eq_false (not_lt.mpr (h.1.waits.2 hquiet).elapsed)

theorem wait_along :
    Along ws2812Wait (Ws2812Board.Between dma look frames)
      (fun _ b => b.Between dma look frames ∧ b.Quiet) (Ws2812Board.Held dma frames) := by
  refine Along.untilDone ?_ fun b h => h.1.held
  refine ((@isBusy_along dma look frames false).pre fun b h => ⟨h, fun hq => by cases hq⟩).bind fun busy => ?_
  refine Along.pure fun b h => ?_
  cases busy with
  | true => exact h.1.1
  | false => exact ⟨h.1.1, h.2.1 rfl⟩

theorem picture_drop (look : Ws2812Look) {i : ℕ} (hi : i < look.pixels.length) :
    look.picture.drop i = encodePixel look i :: look.picture.drop (i + 1) := by
  have hlength : i < look.picture.length := by simpa [Ws2812Look.picture] using hi
  rw [List.drop_eq_getElem_cons hlength]
  simp [Ws2812Look.picture]

theorem picture_take (look : Ws2812Look) {i : ℕ} (hi : i < look.pixels.length) :
    look.picture.take (i + 1) = look.picture.take i ++ [encodePixel look i] := by
  have hlength : i < look.picture.length := by simpa [Ws2812Look.picture] using hi
  rw [List.take_add_one, List.getElem?_eq_getElem hlength]
  simp [Ws2812Look.picture]

/-- A board that is ready, with the first words of the picture in the wire buffer. -/
structure Ws2812Board.Filled (dma : Option ℕ) (look : Ws2812Look) (frames : List (List UInt32))
    (n : ℕ) (b : Ws2812Board) : Prop where
  shows : b.Shows dma look frames
  ready : b.Ready
  filled : b.strip.wireBuffer.take n = look.picture.take n

theorem Ws2812Board.Filled.react {b : Ws2812Board} {n : ℕ} (h : b.Filled dma look frames n)
    (e : Ws2812Event) : (b.react e).Filled dma look frames n :=
  ⟨h.shows.react e, h.ready.react e, by rw [b.react_strip]; exact h.filled⟩

theorem Ws2812Board.Filled.fill {b : Ws2812Board} {i : ℕ} (hdma : dma ≠ none)
    (h : b.Filled dma look frames i) (hi : i < look.pixels.length) :
    Ws2812Board.Filled dma look frames (i + 1)
      { b with strip := { b.strip with
          wireBuffer := b.strip.wireBuffer.set i (encodePixel b.strip.toWs2812Look i) } } := by
  obtain ⟨⟨hheld, hlook⟩, hready, hfilled⟩ := h
  have hroom : i < b.strip.wireBuffer.length := by
    refine lt_of_lt_of_le ?_ (hheld.fed.sized (hheld.channel ▸ hdma))
    rwa [show b.strip.pixels = look.pixels from congrArg Ws2812Look.pixels hlook]
  refine ⟨⟨hheld.store { b.strip with
    wireBuffer := b.strip.wireBuffer.set i (encodePixel b.strip.toWs2812Look i) }
    rfl rfl rfl List.length_set ?_ hheld.fed.latched, hlook⟩, hready.store rfl, ?_⟩
  · rw [hready.idle, List.take_zero, List.take_zero]
  · change (b.strip.wireBuffer.set i (encodePixel b.strip.toWs2812Look i)).take (i + 1) = _
    rw [picture_take look hi, ← hfilled, List.take_add_one, List.take_set_of_le (le_refl i),
      List.getElem?_set_self hroom, hlook]
    rfl

theorem Ws2812Board.Filled.clearStall {b : Ws2812Board} {n : ℕ} (h : b.Filled dma look frames n) :
    b.clearStall.Filled dma look frames n where
  shows := ⟨h.shows.held.clearStall, h.shows.look⟩
  ready := ⟨h.ready.idle, h.ready.owed, h.ready.queued, h.ready.sent⟩
  filled := h.filled

theorem Ws2812Board.Filled.clearLatch {b : Ws2812Board} {n : ℕ} (h : b.Filled dma look frames n) :
    Ws2812Board.Filled dma look frames n
      { b with strip := { b.strip with latchReadyUs := 0 } } where
  shows := ⟨h.shows.held.store { b.strip with latchReadyUs := 0 } rfl rfl rfl rfl rfl
    fun _ hne => absurd rfl hne, h.shows.look⟩
  ready := h.ready.store rfl
  filled := h.filled

theorem fillWireBuffer_along (hdma : dma ≠ none) :
    Along (fillWireBuffer look.pixels.length) (Ws2812Board.Filled dma look frames 0)
      (fun _ => Ws2812Board.Filled dma look frames look.pixels.length)
      (Ws2812Board.Held dma frames) := by
  have hloop : Along (fillWireBuffer look.pixels.length) (Ws2812Board.Filled dma look frames 0)
      (fun _ => Ws2812Board.Filled dma look frames (0 + look.pixels.length))
      (Ws2812Board.Held dma frames) :=
    Along.countFrom fun i _ hi => store_along (fun b e h => h.react e)
      (fun b h => h.shows.held) fun b h => h.fill hdma (by omega)
  rwa [Nat.zero_add] at hloop

theorem Ws2812Board.Filled.start {b : Ws2812Board} (hdma : dma ≠ none)
    (h : b.Filled dma look frames look.pixels.length) (hlatch : b.strip.latchReadyUs = 0) :
    Ws2812Board.Between dma look (frames ++ [look.picture])
      (b.transferNow look.pixels.length) := by
  obtain ⟨htraced, hframes⟩ := h.ready.begin h.shows
  obtain ⟨⟨⟨-, hfed, hchannel, -⟩, hlook⟩, hready, hfilled⟩ := h
  have hsome : b.strip.dmaChannel ≠ none := hchannel ▸ hdma
  have hpixels : b.strip.pixels = look.pixels := congrArg Ws2812Look.pixels hlook
  have hsized := hfed.sized hsome
  rw [hpixels] at hsized
  refine ⟨⟨⟨?_, ?_, hchannel, hframes⟩, hlook⟩, fun hnone => absurd hnone hsome⟩
  · exact ⟨htraced.line, htraced.whole, htraced.queuedBy, htraced.sentBy, htraced.places,
      htraced.gaps, htraced.drained⟩
  · exact
      { initialised := hfed.initialised
        sized := hfed.sized
        owed := fun _ => by
          change b.strip.picture = (b.strip.wireBuffer.drop 0).take look.pixels.length
          rw [hlook, List.drop_zero, hfilled, List.take_of_length_le]
          simp [Ws2812Look.picture]
        room := by
          change 0 + look.pixels.length ≤ b.strip.wireBuffer.length
          rwa [Nat.zero_add]
        byHand := fun hnone => absurd hnone hsome
        latched := fun _ hne => absurd hlatch hne }

theorem showAsync_along :
    Along ws2812ShowAsync (Ws2812Board.Waits dma look frames quiet)
      (fun result b =>
        (result = .ok ∧ dma ≠ none ∧ b.Between dma look (frames ++ [look.picture])) ∨
        (result ≠ .ok ∧ b.Between dma look frames ∧
          (dma ≠ none → result = .errBusy ∧ quiet = false)))
      (Ws2812Board.Held dma frames) := by
  refine (strip_along (fun b e h => h.react e) (fun b h => h.1.1) fun b h => h.held).bind
    fun strip => ?_
  refine Along.given (fun b h => h.2) fun hstrip => ?_
  obtain ⟨hinit, hchannel, hlook⟩ := hstrip
  rw [hinit]
  refine Along.ite (fun hfalse => absurd hfalse (by decide)) fun _ => ?_
  refine Along.ite (fun hnone => ?_) fun hsome => ?_
  · refine Along.pure fun b h => .inr ⟨by decide, h.1.1, fun hdma => ?_⟩
    rw [← hchannel] at hdma
    exact absurd (Option.isNone_iff_eq_none.mp hnone) hdma
  have hdma : dma ≠ none := by
    rw [← hchannel]
    exact fun h => hsome (Option.isNone_iff_eq_none.mpr h)
  refine (isBusy_along.pre fun b h => h.1).bind fun busy => ?_
  refine Along.ite (fun hbusy => ?_) fun hready => ?_
  · refine Along.pure fun b h => .inr ⟨by decide, h.1.1, fun _ => ⟨rfl, ?_⟩⟩
    cases quiet with
    | true => exact absurd (h.2.2 rfl) (by simp [hbusy])
    | false => rfl
  rw [show strip.pixels = look.pixels from congrArg Ws2812Look.pixels hlook]
  refine Along.bind (Along.pre (@fillWireBuffer_along dma look frames hdma)
    fun b h => ⟨h.1.1.1, (h.2.1 (by simpa using hready)).ready h.1.1, ?_⟩) fun _ => ?_
  · rw [List.take_zero, List.take_zero]
  refine Along.bind (Q := fun _ => Ws2812Board.Filled dma look frames look.pixels.length) ?_
    fun _ => ?_
  · exact change_along (fun b e h => h.react e) (fun b h => h.shows.held) fun b h => h.clearStall
  refine Along.bind (Q := fun _ b => b.Filled dma look frames look.pixels.length ∧
    b.strip.latchReadyUs = 0) ?_ fun _ => ?_
  · exact store_along (fun b e h => h.react e) (fun b h => h.shows.held)
      fun b h => ⟨h.clearLatch, rfl⟩
  refine Along.bind (Q := fun _ => Ws2812Board.Between dma look (frames ++ [look.picture])) ?_
    fun _ => ?_
  · refine change_along (fun b e h => ⟨h.1.react e, by rw [b.react_strip]; exact h.2⟩)
      (fun b h => h.1.shows.held) fun b h => h.1.start hdma h.2
  · exact Along.pure fun b h => .inl ⟨rfl, hdma, h⟩

end driver

section byHand

variable {look : Ws2812Look} {frames : List (List UInt32)} {b : Ws2812Board}

theorem Ws2812Board.react_owed (h : b.dmaLeft = 0) (e : Ws2812Event) :
    (b.react e).trace.owed = b.trace.owed := by
  cases e with
  | elapse us => rfl
  | transfer => simp [Ws2812Board.react, h]
  | pull => rfl
  | stall =>
    simp only [Ws2812Board.react]
    split <;> rfl

theorem Ws2812Board.react_queued (h : b.dmaLeft = 0) (e : Ws2812Event) :
    (b.react e).trace.queued = b.trace.queued := by
  cases e with
  | elapse us => rfl
  | transfer => simp [Ws2812Board.react, h]
  | pull => rfl
  | stall =>
    simp only [Ws2812Board.react]
    split <;> rfl

theorem Ws2812Board.react_empty (h : b.dmaLeft = 0) (hfifo : b.fifo = []) (e : Ws2812Event) :
    (b.react e).fifo = [] ∧ (b.react e).trace.sent = b.trace.sent := by
  cases e with
  | elapse us => exact ⟨hfifo, rfl⟩
  | transfer => simp [Ws2812Board.react, h, hfifo]
  | pull => simp [Ws2812Board.react, hfifo]
  | stall =>
    simp only [Ws2812Board.react]
    split <;> exact ⟨hfifo, rfl⟩

/-- The words of the picture from `n` on are still to be pushed. -/
structure Ws2812Board.Pushing (look : Ws2812Look) (frames : List (List UInt32)) (n : ℕ)
    (b : Ws2812Board) : Prop where
  shows : b.Shows none look frames
  owed : b.trace.owed = look.picture.drop n

theorem Ws2812Board.Shows.idle (h : b.Shows none look frames) : b.dmaLeft = 0 :=
  h.held.fed.byHand h.held.channel

theorem Ws2812Board.Pushing.react {n : ℕ} (h : b.Pushing look frames n) (e : Ws2812Event) :
    (b.react e).Pushing look frames n :=
  ⟨h.shows.react e, by rw [Ws2812Board.react_owed h.shows.idle]; exact h.owed⟩

theorem Ws2812Board.Pushing.put {n : ℕ} (h : b.Pushing look frames n)
    (hn : n < look.pixels.length) :
    (b.put (encodePixel look n)).Pushing look frames (n + 1) := by
  obtain ⟨⟨⟨htraced, hfed, hchannel, hframes⟩, hlook⟩, howed⟩ := h
  rw [picture_drop look hn] at howed
  refine ⟨⟨⟨htraced.put howed, ?_, hchannel, hframes⟩, hlook⟩, ?_⟩
  · exact
      { initialised := hfed.initialised
        sized := hfed.sized
        owed := fun hsome => absurd hchannel hsome
        room := hfed.room
        byHand := hfed.byHand
        latched := fun hsome => absurd hchannel hsome }
  · change b.trace.owed.tail = _
    rw [howed]
    rfl

theorem pioSmPutBlocking_along {n : ℕ} (hn : n < look.pixels.length) :
    Along (pioSmPutBlocking (encodePixel look n)) (Ws2812Board.Pushing look frames n)
      (fun _ => Ws2812Board.Pushing look frames (n + 1)) (Ws2812Board.Held none frames) := by
  have hcut : ∀ b, Ws2812Board.Pushing look frames n b → b.Held none frames :=
    fun b h => h.shows.held
  refine Along.bind (Along.untilLook (Q := Ws2812Board.Pushing look frames n)
    (fun b e h => h.react e) hcut fun b h _ => h) fun _ => ?_
  exact change_along (fun b e h => h.react e) hcut fun b h => h.put hn

theorem pushFrame_along :
    Along (pushFrame look.pixels.length) (Ws2812Board.Pushing look frames 0)
      (fun _ => Ws2812Board.Pushing look frames look.pixels.length)
      (Ws2812Board.Held none frames) := by
  have hloop : Along (pushFrame look.pixels.length) (Ws2812Board.Pushing look frames 0)
      (fun _ => Ws2812Board.Pushing look frames (0 + look.pixels.length))
      (Ws2812Board.Held none frames) := by
    refine Along.countFrom fun i _ hi => ?_
    refine (strip_along (fun b e h => h.react e) (fun b h => h.shows) fun b h => h.shows.held).bind
      fun strip => ?_
    refine Along.given (fun b h => h.2.2.2) fun hlook => ?_
    rw [hlook]
    exact (pioSmPutBlocking_along (by omega)).pre fun b h => h.1
  rwa [Nat.zero_add] at hloop

/-- The whole frame is in the FIFO, and the flag is raised only when it is out again. -/
structure Ws2812Board.Pushed (look : Ws2812Look) (frames : List (List UInt32))
    (b : Ws2812Board) : Prop where
  shows : b.Shows none look frames
  owed : b.trace.owed = []
  stalled : b.stalled = true → b.fifo = []

theorem Ws2812Board.Pushed.react (h : b.Pushed look frames) (e : Ws2812Event) :
    (b.react e).Pushed look frames := by
  have hidle := h.shows.idle
  refine ⟨h.shows.react e, by rw [Ws2812Board.react_owed hidle]; exact h.owed, fun hstalled => ?_⟩
  cases e with
  | elapse us => exact h.stalled hstalled
  | transfer =>
    simp only [Ws2812Board.react, hidle, lt_irrefl, false_and, if_false] at hstalled ⊢
    exact h.stalled hstalled
  | pull =>
    change b.fifo.tail = []
    rw [h.stalled hstalled]
    rfl
  | stall =>
    by_cases hempty : b.fifo = []
    · exact (Ws2812Board.react_empty hidle hempty .stall).1
    · have hfalse : b.fifo.isEmpty ≠ true := fun h => hempty (List.isEmpty_iff.mp h)
      simp only [Ws2812Board.react, if_neg hfalse] at hstalled ⊢
      exact h.stalled hstalled

/-- Everything has gone out by `start`. -/
structure Ws2812Board.Out (look : Ws2812Look) (frames : List (List UInt32)) (start : ℕ)
    (b : Ws2812Board) : Prop where
  shows : b.Shows none look frames
  owed : b.trace.owed = []
  fifo : b.fifo = []
  queued : ∀ w ∈ b.trace.queued, w.1 ≤ start
  sent : ∀ w ∈ b.trace.sent, w.1 ≤ start

theorem Ws2812Board.Out.react {start : ℕ} (h : b.Out look frames start) (e : Ws2812Event) :
    (b.react e).Out look frames start := by
  have hidle := h.shows.idle
  obtain ⟨hfifo, hsent⟩ := Ws2812Board.react_empty hidle h.fifo e
  exact ⟨h.shows.react e, by rw [Ws2812Board.react_owed hidle]; exact h.owed, hfifo,
    by rw [Ws2812Board.react_queued hidle]; exact h.queued, by rw [hsent]; exact h.sent⟩

theorem Ws2812Board.Out.between {start : ℕ} (h : b.Out look frames start)
    (hnow : start + WS2812_RESET_US ≤ b.now) : b.Between none look frames := by
  refine ⟨h.shows, fun _ => ⟨h.shows.idle, h.owed, fun w hw => ?_, fun _ => ⟨h.fifo, fun w hw => ?_⟩⟩⟩
  · exact (Nat.add_le_add_right (h.queued w hw) _).trans hnow
  · exact (Nat.add_le_add_right (h.sent w hw) _).trans hnow

theorem sleepUs_along :
    Along (sleepUs WS2812_RESET_US) (fun b => b.Pushed look frames ∧ b.fifo = [])
      (fun _ => Ws2812Board.Between none look frames) (Ws2812Board.Held none frames) := by
  refine Along.bind (Q := Ws2812Board.Out look frames) ?_ fun start => ?_
  · refine look_along (fun b e h => ⟨h.1.react e,
      (Ws2812Board.react_empty h.1.shows.idle h.2 e).1⟩) (fun b h => h.1.shows.held) fun b h => ?_
    have htraced := h.1.shows.held.traced
    exact ⟨h.1.shows, h.1.owed, h.2, htraced.queuedBy, htraced.sentBy⟩
  · exact Along.untilLook (fun b e h => h.react e) (fun b h => h.shows.held)
      fun b h hnow => h.between (of_decide_eq_true hnow)

end byHand

section calls

variable {dma : Option ℕ} {look : Ws2812Look} {frames : List (List UInt32)}

theorem showFrame_along (hdma : dma ≠ none) :
    Along showFrame (Ws2812Board.Between dma look frames)
      (fun _ => Ws2812Board.Between dma look (frames ++ [look.picture]))
      (Ws2812Board.Held dma frames) := by
  refine ((@showAsync_along dma look frames false).pre fun b h => ⟨h, fun hq => by cases hq⟩).bind
    fun result => ?_
  refine Along.ite (fun hbusy => ?_) fun hbusy => ?_
  · refine Along.bind ((@wait_along dma look frames).pre fun b h => ?_) fun _ => ?_
    · rcases h with h | h
      · exact absurd (h.1.symm.trans hbusy) (by decide)
      · exact h.2.1
    refine ((@showAsync_along dma look frames true).pre fun b h => ⟨h.1, fun _ => h.2⟩).bind
      fun result => ?_
    refine Along.pure fun b h => ?_
    rcases h with h | h
    · exact h.2.2
    · exact absurd (h.2.2 hdma).2 (by decide)
  · refine Along.pure fun b h => ?_
    rcases h with h | h
    · exact h.2.2
    · exact absurd (h.2.2 hdma).1 hbusy

theorem Ws2812Board.Between.begin {b : Ws2812Board} (h : b.Between none look frames) :
    b.begin.Pushing look (frames ++ [look.picture]) 0 := by
  obtain ⟨hshows, hrests⟩ := h
  obtain ⟨htraced, hframes⟩ := (hrests hshows.held.channel).begin hshows
  obtain ⟨⟨-, hfed, hchannel, -⟩, hlook⟩ := hshows
  refine ⟨⟨⟨htraced, ?_, hchannel, hframes⟩, hlook⟩, congrArg Ws2812Look.picture hlook⟩
  exact
    { initialised := hfed.initialised
      sized := hfed.sized
      owed := fun hsome => absurd hchannel hsome
      room := hfed.room
      byHand := hfed.byHand
      latched := fun hsome => absurd hchannel hsome }

theorem show_along :
    Along ws2812Show (Ws2812Board.Between dma look frames)
      (fun _ => Ws2812Board.Between dma look (frames ++ [look.picture]))
      (fun b => b.Held dma frames ∨ b.Held dma (frames ++ [look.picture])) := by
  refine (strip_along (fun b e h => h.react e) (fun b h => h.1) fun b h => .inl h.1.held).bind
    fun strip => ?_
  refine Along.given (fun b h => h.2) fun hstrip => ?_
  obtain ⟨hinit, hchannel, hlook⟩ := hstrip
  rw [hinit]
  refine Along.ite (fun hfalse => absurd hfalse (by decide)) fun _ => ?_
  refine Along.ite (fun hsome => ?_) fun hnone => ?_
  · have hdma : dma ≠ none := by
      rw [← hchannel]
      exact Option.isSome_iff_ne_none.mp hsome
    refine ((showFrame_along hdma).mono (fun b h => h.1) (fun _ _ h => h) fun b h => .inl h).bind
      fun _ => ?_
    exact wait_along.mono (fun b h => h) (fun _ b h => h.1) fun b h => .inr h
  · have hdma : dma = none := by
      rw [← hchannel]
      exact Option.not_isSome_iff_eq_none.mp hnone
    subst hdma
    rw [show strip.pixels = look.pixels from congrArg Ws2812Look.pixels hlook]
    have hheld : ∀ (b : Ws2812Board), b.Held none (frames ++ [look.picture]) →
        b.Held none frames ∨ b.Held none (frames ++ [look.picture]) := fun b h => .inr h
    refine Along.bind (Q := fun _ => Ws2812Board.Pushing look (frames ++ [look.picture]) 0) ?_
      fun _ => ?_
    · exact change_along (fun b e h => ⟨h.1.react e, h.2⟩) (fun b h => .inl h.1.1.held)
        fun b h => h.1.begin
    refine (pushFrame_along.mono (fun b h => h) (fun _ _ h => h) hheld).bind fun _ => ?_
    refine Along.bind (Q := fun _ => Ws2812Board.Pushed look (frames ++ [look.picture])) ?_
      fun _ => ?_
    · refine change_along (fun b e h => h.react e) (fun b h => hheld b h.shows.held) fun b h => ?_
      refine ⟨⟨h.shows.held.clearStall, h.shows.look⟩, ?_, fun hstalled => by cases hstalled⟩
      change b.trace.owed = []
      rw [h.owed, List.drop_eq_nil_iff]
      simp [Ws2812Look.picture]
    refine Along.bind (Q := fun _ b => b.Pushed look (frames ++ [look.picture]) ∧ b.fifo = []) ?_
      fun _ => ?_
    · exact Along.untilLook (fun b e h => h.react e) (fun b h => hheld b h.shows.held)
        fun b h hstalled => ⟨h, h.stalled hstalled⟩
    exact sleepUs_along.mono (fun b h => h) (fun _ _ h => h) hheld

theorem Ws2812Board.Between.restyle {b : Ws2812Board} (h : b.Between dma look frames)
    {look' : Ws2812Look} (hlength : look'.pixels.length = look.pixels.length) :
    Ws2812Board.Between dma look' frames
      { b with strip := { b.strip with toWs2812Look := look' } } := by
  obtain ⟨⟨hheld, hlook⟩, hrests⟩ := h
  refine ⟨⟨hheld.store { b.strip with toWs2812Look := look' } rfl rfl ?_ rfl rfl
    hheld.fed.latched, rfl⟩, hrests.store rfl⟩
  change look'.pixels.length = b.strip.pixels.length
  rw [hlength, ← hlook]

theorem setter_along {f : Ws2812Strip → Ws2812Strip} {look' : Ws2812Look}
    (hf : ∀ strip : Ws2812Strip, strip.toWs2812Look = look →
      f strip = { strip with toWs2812Look := look' })
    (hlength : look'.pixels.length = look.pixels.length) :
    Along (ws2812Store f) (Ws2812Board.Between dma look frames)
      (fun _ => Ws2812Board.Between dma look' frames) (Ws2812Board.Held dma frames) := by
  refine store_along (fun b e h => h.react e) (fun b h => h.1.held) fun b h => ?_
  rw [hf b.strip h.1.look]
  exact h.restyle hlength

theorem initialised_along {Q : Ws2812Board → Prop} {f : Ws2812Strip → Ws2812Driver Unit}
    (hf : ∀ strip : Ws2812Strip, strip.initialised = true → strip.toWs2812Look = look →
      Along (f strip) (Ws2812Board.Between dma look frames) (fun _ => Q)
        (Ws2812Board.Held dma frames)) :
    Along (ws2812Strip >>= f) (Ws2812Board.Between dma look frames) (fun _ => Q)
      (Ws2812Board.Held dma frames) := by
  refine (strip_along (fun b e h => h.react e) (fun b h => h.1) fun b h => h.1.held).bind
    fun strip => ?_
  exact Along.given (fun b h => h.2) fun hstrip => (hf strip hstrip.1 hstrip.2.2).pre
    fun b h => h.1

theorem setPixel_along (index : UInt16) (color : Ws2812Color) :
    Along (ws2812SetPixel index color) (Ws2812Board.Between dma look frames)
      (fun _ => Ws2812Board.Between dma (look.after (.setPixel index color)) frames)
      (Ws2812Board.Held dma frames) := by
  refine initialised_along fun strip hinit hlook => ?_
  rw [hinit]
  refine Along.ite (fun hout => ?_) fun _ => ?_
  · refine Along.pure fun b h => ?_
    have hlength : look.pixels.length ≤ index.toNat := by
      rw [← hlook]
      simpa using hout
    have hsame : look.after (.setPixel index color) = look := by
      simp only [Ws2812Look.after, List.set_eq_of_length_le hlength]
    rwa [hsame]
  · exact setter_along (fun strip hlook => by rw [← hlook]; rfl) List.length_set

theorem replicate_set {α : Type} (x : α) (l : List α) {i : ℕ} (hi : i < l.length) :
    (List.replicate i x ++ l.drop i).set i x = List.replicate (i + 1) x ++ l.drop (i + 1) := by
  rw [List.set_append_right _ _ (by simp), List.length_replicate, Nat.sub_self,
    List.drop_eq_getElem_cons hi, List.set_cons_zero, List.replicate_succ', List.append_assoc]
  rfl

theorem fill_along (color : Ws2812Color) :
    Along (ws2812Fill color) (Ws2812Board.Between dma look frames)
      (fun _ => Ws2812Board.Between dma (look.after (.fill color)) frames)
      (Ws2812Board.Held dma frames) := by
  refine initialised_along fun strip hinit hlook => ?_
  rw [hinit, show strip.pixels = look.pixels from congrArg Ws2812Look.pixels hlook]
  refine Along.ite (fun hfalse => absurd hfalse (by decide)) fun _ => ?_
  -- the first pixels are filled, and the others are what they were
  let filled : ℕ → Ws2812Look := fun i =>
    { look with pixels := List.replicate i color ++ look.pixels.drop i }
  refine Along.mono (Along.countFrom (I := fun i => Ws2812Board.Between dma (filled i) frames)
    fun i _ hi => ?_) (fun b h => h) (fun _ b h => ?_) fun b h => h
  · refine setter_along (fun strip hlook => ?_) ?_
    · simp only [filled, ← replicate_set color look.pixels (show i < look.pixels.length by omega)]
      cases strip
      cases hlook
      rfl
    · simp only [filled, List.length_append, List.length_replicate, List.length_drop]
      omega
  · have hall : filled (0 + look.pixels.length) = look.after (.fill color) := by
      simp [filled, Ws2812Look.after]
    rwa [← hall]

theorem checked_along {f : Ws2812Strip → Ws2812Strip} {look' : Ws2812Look}
    (hf : ∀ strip : Ws2812Strip, strip.toWs2812Look = look →
      f strip = { strip with toWs2812Look := look' })
    (hlength : look'.pixels.length = look.pixels.length) :
    Along (ws2812Strip >>= fun strip => if !strip.initialised then pure () else ws2812Store f)
      (Ws2812Board.Between dma look frames) (fun _ => Ws2812Board.Between dma look' frames)
      (Ws2812Board.Held dma frames) := by
  refine initialised_along fun strip hinit _ => ?_
  rw [hinit]
  exact Along.ite (fun hfalse => absurd hfalse (by decide)) fun _ => setter_along hf hlength

/-- What holds of the frames when a call is cut. -/
def Ws2812Board.Partly (dma : Option ℕ) (frames most : List (List UInt32)) (b : Ws2812Board) :
    Prop := ∃ more, more.Sublist most ∧ b.Held dma (frames ++ more)

theorem Ws2812Board.Held.partly {b : Ws2812Board} (h : b.Held dma frames)
    (most : List (List UInt32)) : b.Partly dma frames most :=
  ⟨[], List.nil_sublist _, by rwa [List.append_nil]⟩

theorem unshown_along {α : Type} {x : Ws2812Driver α} {call : Ws2812Call}
    (hshown : look.shown call = [])
    (hx : Along x (Ws2812Board.Between dma look frames)
      (fun _ => Ws2812Board.Between dma (look.after call) frames) (Ws2812Board.Held dma frames)) :
    Along (x >>= fun _ => pure Ws2812Result.ok) (Ws2812Board.Between dma look frames)
      (fun result => Ws2812Board.Between dma (look.after call)
        (frames ++ if result = .ok then look.shown call else []))
      (Ws2812Board.Partly dma frames (look.shown call)) := by
  refine (hx.mono (fun b h => h) (fun _ _ h => h) fun b h => h.partly _).bind fun _ =>
    Along.pure fun b h => ?_
  rwa [hshown, ite_self, List.append_nil]

theorem call_along (call : Ws2812Call) :
    Along (ws2812Call call) (Ws2812Board.Between dma look frames)
      (fun result => Ws2812Board.Between dma (look.after call)
        (frames ++ if result = .ok then look.shown call else []))
      (Ws2812Board.Partly dma frames (look.shown call)) := by
  cases call with
  | setPixel index color => exact unshown_along rfl (setPixel_along index color)
  | fill color => exact unshown_along rfl (fill_along color)
  | clear => exact unshown_along rfl (fill_along WS2812_COLOR_BLACK)
  | setBrightness brightness =>
    exact unshown_along rfl (checked_along (fun strip hlook => by rw [← hlook]; rfl) rfl)
  | setGamma table =>
    exact unshown_along rfl (checked_along (fun strip hlook => by rw [← hlook]; rfl) rfl)
  | setOrder order =>
    exact unshown_along rfl (checked_along (fun strip hlook => by rw [← hlook]; rfl) rfl)
  | isBusy =>
    exact unshown_along rfl ((@isBusy_along dma look frames false).mono
      (fun b h => ⟨h, fun hq => by cases hq⟩) (fun _ b h => h.1.1) fun b h => h)
  | wait => exact unshown_along rfl (wait_along.post fun _ b h => h.1)
  | showAsync =>
    refine (@showAsync_along dma look frames false).mono (fun b h => ⟨h, fun hq => by cases hq⟩)
      (fun result b h => ?_) fun b h => h.partly _
    rcases h with h | h
    · rw [if_pos h.1]
      exact h.2.2
    · rw [if_neg h.1, List.append_nil]
      exact h.2.1
  | «show» =>
    refine Along.bind (show_along.mono (fun b h => h) (fun _ _ h => h) fun b h => ?_) fun _ =>
      Along.pure fun b h => h
    rcases h with h | h
    · exact h.partly _
    · exact ⟨_, List.Sublist.refl _, h⟩

theorem calls_along (calls : List Ws2812Call) :
    Along (ws2812Calls calls) (Ws2812Board.Between dma look frames)
      (fun results => Ws2812Board.Held dma (frames ++ look.accepted (calls.zip results)))
      (Ws2812Board.Partly dma frames (look.pictures calls)) := by
  induction calls generalizing look frames with
  | nil => exact Along.pure fun b h => by simpa [Ws2812Look.accepted] using h.1.held
  | cons call calls ih =>
    refine ((call_along call).mono (fun b h => h) (fun _ _ h => h) fun b h => ?_).bind
      fun result => ?_
    · obtain ⟨more, hmore, hheld⟩ := h
      exact ⟨more, hmore.trans (List.sublist_append_left _ _), hheld⟩
    refine (ih.mono (fun b h => h) (fun _ _ h => h) fun b h => ?_).bind
      fun results => Along.pure fun b h => ?_
    · obtain ⟨more, hmore, hheld⟩ := h
      refine ⟨_, ?_, List.append_assoc .. ▸ hheld⟩
      refine List.Sublist.append ?_ hmore
      split
      · exact List.Sublist.refl _
      · exact List.nil_sublist _
    · rwa [List.append_assoc] at h

end calls

section runs

variable (config : Ws2812Config) (channel now : ℕ) (stalled : Bool) (calls : List Ws2812Call)
  (schedule : List (List Ws2812Event)) (later : List Ws2812Event)

/-- The calls of an application on a strip as it is set up. -/
def Ws2812Config.run : Option (List Ws2812Result) × Course Ws2812Board Ws2812Event :=
  (ws2812Calls calls).run.run ⟨(config.strip channel).board now stalled, schedule⟩

/-- The board at some moment of it. -/
def Ws2812Config.moment : Ws2812Board :=
  later.foldl Ws2812Board.react (config.run channel now stalled calls schedule).2.state

theorem Ws2812Config.between_start :
    ((config.strip channel).board now stalled).Between (config.strip channel).dmaChannel
      (config.strip channel).toWs2812Look [] := by
  refine ⟨⟨⟨⟨rfl, rfl, by simp [Ws2812Strip.board], by simp [Ws2812Strip.board],
    by simp [Ws2812Strip.board], by simp [Ws2812Strip.board], by simp [Ws2812Strip.board]⟩,
    ⟨rfl, fun hsome => ?_, fun _ => rfl, Nat.zero_le _, fun _ => rfl, fun _ hne => absurd rfl hne⟩,
    rfl, rfl⟩, rfl⟩, fun _ => ⟨rfl, rfl, by simp [Ws2812Strip.board],
    fun _ => ⟨rfl, by simp [Ws2812Strip.board]⟩⟩⟩
  cases hbuffer : config.wireBuffer with
  | none => simp [Ws2812Strip.board, Ws2812Config.strip, hbuffer] at hsome
  | some buffer =>
    have hsized := config.sized buffer (by rw [hbuffer]; rfl)
    simpa [Ws2812Strip.board, Ws2812Config.strip, hbuffer] using hsized

theorem Ws2812Config.moment_partly :
    (config.moment channel now stalled calls schedule later).Partly
      (config.strip channel).dmaChannel [] ((config.strip channel).pictures calls) := by
  have hrun : (config.run channel now stalled calls schedule).2.state.Partly
      (config.strip channel).dmaChannel [] ((config.strip channel).pictures calls) :=
    (calls_along calls).reaches
      (fun results b h => ⟨_, Ws2812Look.accepted_sublist _ calls results, h⟩)
      (config.between_start channel now stalled)
  obtain ⟨more, hmore, hheld⟩ := hrun
  exact ⟨more, hmore, hheld.foldl later⟩

/-- At every moment, what has gone over the wire, what is in the FIFO and what is still owed are
the frames that were begun, whole and in order, and these are pictures of the strip at calls that
are to show it. With a channel, what is owed is what the channel has still to move. -/
theorem strip_shows_whole_frames :
    ∃ b, Ws2812Config.moment config channel now stalled calls schedule later = b ∧
      b.trace.sent.map Prod.snd ++ b.fifo ++ b.trace.owed =
        (b.trace.frames.map Ws2812Frame.words).flatten ∧
      (b.trace.frames.map Ws2812Frame.words).Sublist ((config.strip channel).pictures calls) ∧
      (b.strip.dmaChannel ≠ none →
        b.trace.owed = (b.strip.wireBuffer.drop b.dmaAt).take b.dmaLeft) := by
  obtain ⟨more, hmore, hheld⟩ :=
    config.moment_partly channel now stalled calls schedule later
  refine ⟨_, rfl, ?_, ?_, hheld.fed.owed⟩
  · rw [hheld.traced.line, hheld.traced.whole, List.flatMap_def]
  · rw [hheld.frames]
    exact hmore

/-- When the calls have returned, the frames are the pictures at just those calls that were
answered with `ok`, each of them once. -/
theorem strip_shows_accepted_frames {results : List Ws2812Result}
    (hreturned : (config.run channel now stalled calls schedule).1 = some results) :
    (config.moment channel now stalled calls schedule later).trace.frames.map Ws2812Frame.words =
      (config.strip channel).accepted (calls.zip results) := by
  have hrun := (calls_along calls).returns
    (s := ⟨(config.strip channel).board now stalled, schedule⟩)
    (config.between_start channel now stalled) hreturned
  rw [List.nil_append] at hrun
  exact (hrun.foldl later).frames

/-- Two pixels. The strip is busy when they are to be shown again, as the channel has moved nothing;
then one of them is changed, and a call that waits shows it. -/
theorem strip_shows_accepted_frames_three :
    let config : Ws2812Config := ⟨[WS2812_COLOR_BLACK, WS2812_COLOR_BLACK], false, .grb,
      some [0, 0], fun _ h => Option.some.inj h ▸ le_refl 2⟩
    let calls : List Ws2812Call := [.fill (ws2812Rgb 1 2 3), .showAsync, .showAsync,
      .setPixel 1 (ws2812Rgb 4 5 6), .show, .showAsync]
    let schedule : List (List Ws2812Event) := List.replicate 20 [.elapse 300, .stall] ++
      List.replicate 30 [.transfer, .pull, .stall, .elapse 300]
    (config.run 0 0 false calls schedule).1 = some [.ok, .ok, .errBusy, .ok, .ok, .ok] ∧
      (config.moment 0 0 false calls schedule []).trace.frames.map Ws2812Frame.words =
        [[0x02010300, 0x02010300], [0x02010300, 0x05040600], [0x02010300, 0x05040600]] := by
  intro config calls schedule
  have hreturned : (config.run 0 0 false calls schedule).1 =
      some [.ok, .ok, .errBusy, .ok, .ok, .ok] := by decide +kernel
  refine ⟨hreturned, ?_⟩
  exact (strip_shows_accepted_frames config 0 0 false calls schedule [] hreturned).trans (by decide)

/-- A frame is begun when all the words of the frames before it have been in the FIFO for the time
that a strip takes to latch; on a strip without a channel, when they have been on the wire for as
long. -/
theorem strip_latches_between_frames :
    ∃ b, Ws2812Config.moment config channel now stalled calls schedule later = b ∧
      ∀ i f, b.trace.frames[i]? = some f →
        f.before = ((b.trace.frames.take i).flatMap Ws2812Frame.words).length ∧
          f.After b.trace.queued ∧ (b.strip.dmaChannel = none → f.After b.trace.sent) := by
  obtain ⟨more, hmore, hheld⟩ :=
    config.moment_partly channel now stalled calls schedule later
  refine ⟨_, rfl, fun i f hf => ?_⟩
  have hmem : f ∈ (config.moment channel now stalled calls schedule later).trace.frames :=
    List.mem_of_getElem? hf
  exact ⟨hheld.traced.places i f hf, hheld.traced.gaps f hmem,
    fun hnone => hheld.traced.drained hnone f hmem⟩

end runs

end Pico
