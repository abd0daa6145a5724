import PicoFramework.Lib.Run
import PicoFramework.Proofs.MqttSteps
import PicoFramework.Proofs.TcpSteps
import PicoFramework.Spec.Wifi

/-! The budget of attempts. The three clients go by one policy, which counts a failure only after
it has been asked whether the budget is spent: a budget of `n` is spent at the failure after the
`n`-th, and an attempt more is begun before the client gives up. -/

namespace Pico

open Lib.Run

/-- Where a client stands that is after a connection. -/
inductive Phase where
  | underWay
  | waiting
  | gaveUp
deriving DecidableEq

/-- What the three clients have in common: where they stand, their retry state, how many attempts
were begun and how many failed. -/
structure Pursuit where
  phase : Phase
  retry : WifiRetry
  attempts : ℕ
  failures : ℕ

namespace Pursuit

/-- An attempt has failed. -/
structure Fails (p p' : Pursuit) : Prop where
  attempts_eq : p'.attempts = p.attempts
  failures_eq : p'.failures = p.failures + 1
  outcome :
    (p.retry.exhausted = true ∧ p'.phase = .gaveUp ∧ p'.retry = p.retry) ∨
    (p.retry.exhausted = false ∧ p'.phase = .waiting ∧ ∃ now, p'.retry = p.retry.fail now)

/-- No attempt was begun, and none has failed. -/
structure Rests (p p' : Pursuit) : Prop where
  phase_eq : p'.phase = p.phase ∨ p'.phase = .underWay
  retry_eq : p'.retry = p.retry
  attempts_eq : p'.attempts = p.attempts
  failures_eq : p'.failures = p.failures

/-- The pursuit with one more attempt begun. -/
def begun (p : Pursuit) : Pursuit := { p with phase := .underWay, attempts := p.attempts + 1 }

/-- A step of a client: a client that waits may begin an attempt, and one attempt may fail. -/
inductive Step (p : Pursuit) : Pursuit → Prop
  | rests {p' : Pursuit} (h : Rests p p') : Step p p'
  | fails {p' : Pursuit} (h : Fails p p') : Step p p'
  | begins {p' : Pursuit} (hwaiting : p.phase = .waiting) (h : Rests p.begun p') : Step p p'
  | beginsAndFails {p' : Pursuit} (hwaiting : p.phase = .waiting) (h : Fails p.begun p') : Step p p'

/-- No more than `n` attempts begun, and none after the `n`-th failure. -/
def Kept (n : ℕ) (p : Pursuit) : Prop := p.attempts ≤ n ∧ (n ≤ p.failures → p.phase = .gaveUp)

/-- The policy has counted every failure so far, as long as there were no more than `n`. -/
structure Counted (n : ℕ) (p : Pursuit) : Prop where
  limit_eq : p.retry.config.maxAttempts.toNat = n
  begun_le : p.attempts ≤ p.failures + 1
  waiting_le : p.phase = .waiting → p.attempts ≤ p.failures
  counted : p.failures ≤ n → p.retry.attempts.toNat = p.failures ∧ p.phase ≠ .gaveUp

variable {n : ℕ} {p p' : Pursuit}

theorem exhausted_iff (retry : WifiRetry) (hpos : 0 < retry.config.maxAttempts.toNat) :
    retry.exhausted = true ↔ retry.config.maxAttempts.toNat ≤ retry.attempts.toNat := by
  have hne : retry.config.maxAttempts ≠ 0 := by
    rintro hzero
    rw [hzero] at hpos
    exact absurd hpos (by decide)
  unfold WifiRetry.exhausted
  rw [if_neg hne, decide_eq_true_eq]
  exact UInt32.le_iff_toNat_le

theorem Counted.rests (h : Counted n p) (hrests : Rests p p') : Counted n p' := by
  obtain ⟨hphase, hretry, hattempts, hfailures⟩ := hrests
  refine ⟨hretry ▸ h.limit_eq, ?_, ?_, ?_⟩
  · rw [hattempts, hfailures]
    exact h.begun_le
  · rw [hattempts, hfailures]
    intro hwaiting
    rcases hphase with hsame | hunderWay
    · exact h.waiting_le (hsame.symm.trans hwaiting)
    · exact absurd (hwaiting.symm.trans hunderWay) nofun
  · rw [hretry, hfailures]
    intro hle
    refine ⟨(h.counted hle).1, fun hgaveUp => ?_⟩
    rcases hphase with hsame | hunderWay
    · exact (h.counted hle).2 (hsame.symm.trans hgaveUp)
    · exact absurd (hgaveUp.symm.trans hunderWay) nofun

/-- A failure is counted unless the budget is spent, which it is after `n` that were counted. -/
theorem Counted.fails (h : Counted n p) (hpos : 0 < n) (hfails : Fails p p') : Counted n p' := by
  obtain ⟨hattempts, hfailures, houtcome⟩ := hfails
  have hbegun := h.begun_le
  have hexhausted := exhausted_iff p.retry (h.limit_eq.symm ▸ hpos)
  rw [h.limit_eq] at hexhausted
  have hlt : n < 2 ^ 32 := h.limit_eq ▸ UInt32.toNat_lt _
  refine ⟨?_, by omega, fun _ => by omega, fun hle => ?_⟩
  · rcases houtcome with ⟨-, -, hretry⟩ | ⟨-, -, now, hretry⟩
    · rw [hretry]
      exact h.limit_eq
    · rw [hretry]
      exact h.limit_eq
  · obtain ⟨hcount, -⟩ := h.counted (by omega)
    rcases houtcome with ⟨hspent, -, -⟩ | ⟨-, hphase, now, hretry⟩
    · have hspent := hexhausted.mp hspent
      omega
    · rw [hphase, hretry]
      refine ⟨?_, nofun⟩
      change (p.retry.attempts + 1).toNat = _
      rw [UInt32.toNat_add, UInt32.toNat_one, Nat.mod_eq_of_lt (by omega)]
      omega

theorem Counted.begun (h : Counted n p) (hwaiting : p.phase = .waiting) : Counted n p.begun where
  limit_eq := h.limit_eq
  begun_le := Nat.succ_le_succ (h.waiting_le hwaiting)
  waiting_le := nofun
  counted := fun hle => ⟨(h.counted hle).1, nofun⟩

theorem Counted.step (h : Counted n p) (hpos : 0 < n) (hstep : Step p p') :
    Counted n p' ∧ p.failures ≤ p'.failures ∧ p'.failures ≤ p.failures + 1 := by
  cases hstep with
  | rests hrests => exact ⟨h.rests hrests, hrests.failures_eq.ge, by rw [hrests.failures_eq]; omega⟩
  | fails hfails =>
    exact ⟨h.fails hpos hfails, by rw [hfails.failures_eq]; omega, hfails.failures_eq.le⟩
  | begins hwaiting hrests =>
    exact ⟨(h.begun hwaiting).rests hrests, hrests.failures_eq.ge, by
      rw [hrests.failures_eq]
      exact Nat.le_succ _⟩
  | beginsAndFails hwaiting hfails =>
    exact ⟨(h.begun hwaiting).fails hpos hfails, by
      rw [hfails.failures_eq]
      exact Nat.le_succ _, hfails.failures_eq.le⟩

/-- Before the `n`-th failure the budget is kept; at the `n`-th it is not. -/
theorem Counted.kept_of_lt (h : Counted n p) (hlt : p.failures < n) : Kept n p := by
  have hbegun := h.begun_le
  exact ⟨by omega, fun hle => absurd hle (by omega)⟩

theorem Counted.not_kept (h : Counted n p) (heq : p.failures = n) : ¬ Kept n p :=
  fun hkept => (h.counted heq.le).2 (hkept.2 heq.ge)

/-- A pursuit that has a first attempt yet to begin. -/
def start (config : WifiRetryConfig) : Pursuit := ⟨.waiting, wifiRetryInit config, 0, 0⟩

theorem counted_start (config : WifiRetryConfig) :
    Counted config.maxAttempts.toNat (start config) where
  limit_eq := rfl
  begun_le := Nat.zero_le _
  waiting_le := fun _ => le_rfl
  counted := fun _ => ⟨rfl, nofun⟩

section client

variable {σ ι : Type*} {step : σ → ι → σ} {ok : σ → ι → Prop} {view : σ → Pursuit}

/-- A client whose steps are those of a pursuit keeps its budget in the runs with fewer than `n`
failures, and in no others. -/
theorem kept_iff (config : WifiRetryConfig) (hpos : 0 < config.maxAttempts.toNat)
    {inv : σ → Prop}
    (hstep : ∀ s i, ok s i → inv s → inv (step s i) ∧ Step (view s) (view (step s i))) {s : σ}
    (hs : inv s) (hfirst : Step (start config) (view s)) {is : List ι} (h : Meets step ok s is) :
    (∀ pre, pre <+: is → Kept config.maxAttempts.toNat (view (pre.foldl step s))) ↔
      (view (is.foldl step s)).failures < config.maxAttempts.toNat := by
  obtain ⟨hcounted, -, hle⟩ := (counted_start config).step hpos hfirst
  refine h.iff_below (fun t i hi ht => ?_) (fun t (ht : Counted _ (view t) ∧ inv t) => ht.1.kept_of_lt)
    (fun t ht => ht.1.not_kept) ⟨hcounted, hs⟩ (hle.trans hpos)
  obtain ⟨hinv, hnext⟩ := hstep t i hi ht.2
  obtain ⟨hcounted', hmono, hone⟩ := ht.1.step hpos hnext
  exact ⟨⟨hcounted', hinv⟩, hmono, hone⟩

end client

end Pursuit

section wifi

def WifiState.phase : WifiState → Phase
  | .waiting => .waiting
  | .gaveUp => .gaveUp
  | _ => .underWay

/-- The network as a pursuit. -/
def WifiWorld.pursuit (w : WifiWorld) : Pursuit :=
  ⟨w.wifi.state.phase, w.wifi.retry, w.attempts, w.failures⟩

/-- The poll finds no attempt to have succeeded. -/
def WifiUnsuccessful (w : WifiWorld) (a : WifiAnswers) : Prop :=
  w.wifi.state = .connecting → a.link ≠ CYW43_LINK_UP

instance (w : WifiWorld) (a : WifiAnswers) : Decidable (WifiUnsuccessful w a) := by
  unfold WifiUnsuccessful
  infer_instance

def WifiWorld.step (w : WifiWorld) (a : WifiAnswers) : WifiWorld := w.wifiPoll a

variable {w : WifiWorld}

theorem wifi_fails (w : WifiWorld) (now : UInt32) :
    Pursuit.Fails w.pursuit (w.handleFailure now).pursuit ∧
      (w.handleFailure now).wifi.state ≠ .connected := by
  unfold WifiWorld.handleFailure
  dsimp only
  split
  · rename_i hexhausted
    exact ⟨⟨rfl, rfl, .inl ⟨hexhausted, rfl, rfl⟩⟩, nofun⟩
  · rename_i hexhausted
    exact ⟨⟨rfl, rfl, .inr ⟨Bool.not_eq_true _ ▸ hexhausted, rfl, now, rfl⟩⟩, nofun⟩

theorem wifi_step (a : WifiAnswers) (ha : WifiUnsuccessful w a) (hw : w.wifi.state ≠ .connected) :
    (w.step a).wifi.state ≠ .connected ∧ Pursuit.Step w.pursuit (w.step a).pursuit := by
  have hrests : w.wifi.state ≠ .connected ∧ Pursuit.Step w.pursuit w.pursuit :=
    ⟨hw, .rests ⟨.inl rfl, rfl, rfl, rfl⟩⟩
  have hfails : (w.handleFailure a.later).wifi.state ≠ .connected ∧
      Pursuit.Step w.pursuit (w.handleFailure a.later).pursuit :=
    ⟨(wifi_fails w a.later).2, .fails (wifi_fails w a.later).1⟩
  unfold WifiWorld.step WifiWorld.wifiPoll
  split
  · exact hrests
  cases hstate : w.wifi.state with
  | connecting =>
    dsimp only
    rw [if_neg (ha hstate)]
    split
    · exact hfails
    split
    · exact hfails
    · exact hrests
  | connected => exact absurd hstate hw
  | waiting =>
    have hwaiting : w.pursuit.phase = .waiting := congrArg WifiState.phase hstate
    dsimp only
    split
    swap
    · exact hrests
    unfold WifiWorld.beginAttempt
    dsimp only
    cases a.radioOk with
    | true => exact ⟨nofun, .begins hwaiting ⟨.inl rfl, rfl, rfl, rfl⟩⟩
    | false =>
      obtain ⟨⟨hattempts, hfailures, houtcome⟩, hnext⟩ :=
        wifi_fails { w with attempts := w.attempts + 1 } a.later
      exact ⟨hnext, .beginsAndFails hwaiting ⟨hattempts, hfailures, houtcome⟩⟩
  | idle => exact hrests
  | gaveUp => exact hrests

theorem wifi_first {config : WifiConfig} {a : WifiAnswers} (hok : (w.wifiConnect config a).1 = .ok) :
    (w.wifiConnect config a).2.wifi.state ≠ .connected ∧
    Pursuit.Step (.start config.retry) (w.wifiConnect config a).2.pursuit := by
  unfold WifiWorld.wifiConnect WifiWorld.beginAttempt at hok ⊢
  dsimp only at hok ⊢
  split at hok
  · exact absurd hok nofun
  rename_i hinit
  split at hok
  · exact absurd hok nofun
  rename_i hcredentials
  split at hok
  · exact absurd hok nofun
  rename_i hradio
  rw [if_neg hinit, if_neg hcredentials, if_neg hradio]
  exact ⟨nofun, .begins rfl ⟨.inl rfl, rfl, rfl, rfl⟩⟩

end wifi

section mqtt

def MqttState.phase : MqttState → Phase
  | .waiting => .waiting
  | .gaveUp => .gaveUp
  | _ => .underWay

/-- The connection to the broker as a pursuit. -/
def MqttWorld.pursuit (w : MqttWorld) : Pursuit :=
  ⟨w.mqtt.state.phase, w.mqtt.retry, w.attempts, w.failures⟩

/-- The move is no success, and no call that begins or ends the pursuit. -/
def MqttUnsuccessful (w : MqttWorld) (move : MqttMove) : Prop :=
  move.enabled w = true →
    match move with
    | .connect _ _ | .close | .status true _ => False
    | _ => True

instance (w : MqttWorld) : (move : MqttMove) → Decidable (MqttUnsuccessful w move)
  | .connect .. | .close | .poll .. | .dns .. | .status true _ | .status false _
  | .incomingPublish .. | .incomingData .. => by
      unfold MqttUnsuccessful
      infer_instance

variable {w w' : MqttWorld}

theorem mqtt_fails (h : MqttWorld.Fails w w') : Pursuit.Fails w.pursuit w'.pursuit where
  attempts_eq := h.same.attempts_eq
  failures_eq := h.failures_eq
  outcome := by
    rcases h.outcome with ⟨hspent, hstate, hretry⟩ | ⟨hspent, hstate, hretry⟩
    · exact .inl ⟨hspent, congrArg MqttState.phase hstate, hretry⟩
    · exact .inr ⟨hspent, congrArg MqttState.phase hstate, hretry⟩

theorem mqtt_dials (h : MqttWorld.Dials w w') : Pursuit.Rests w.pursuit w'.pursuit where
  phase_eq := .inr (congrArg MqttState.phase h.state_eq)
  retry_eq := h.retry_eq
  attempts_eq := h.same.attempts_eq
  failures_eq := h.failures_eq

theorem mqtt_resolves (h : MqttWorld.Resolves w w') : Pursuit.Rests w.pursuit w'.pursuit where
  phase_eq := .inr (congrArg MqttState.phase h.state_eq)
  retry_eq := h.retry_eq
  attempts_eq := h.same.attempts_eq
  failures_eq := h.failures_eq

theorem mqtt_begins (a : MqttAnswers) {p : Pursuit} (hwaiting : p.phase = .waiting)
    (hretry : w.mqtt.retry = p.retry) (hattempts : w.attempts = p.attempts)
    (hfailures : w.failures = p.failures) : Pursuit.Step p (w.beginAttempt a).pursuit := by
  have hbegun : ∀ {p' : Pursuit}, Pursuit.Rests w.attempting.pursuit p' → p'.phase = .underWay →
      Pursuit.Rests p.begun p' := by
    intro p' h hphase
    refine ⟨.inr hphase, h.retry_eq.trans hretry, h.attempts_eq.trans ?_, h.failures_eq.trans hfailures⟩
    exact congrArg (· + 1) hattempts
  rcases w.beginAttempt_tries a with hfails | hdials | hresolves
  · obtain ⟨hattempts', hfailures', houtcome⟩ := mqtt_fails hfails
    have hsame : w.attempting.pursuit.retry = p.begun.retry := hretry
    rw [hsame] at houtcome
    refine .beginsAndFails hwaiting ⟨hattempts'.trans ?_, hfailures'.trans ?_, houtcome⟩
    · exact congrArg (· + 1) hattempts
    · exact congrArg (· + 1) hfailures
  · exact .begins hwaiting (hbegun (mqtt_dials hdials) (congrArg MqttState.phase hdials.state_eq))
  · exact .begins hwaiting
      (hbegun (mqtt_resolves hresolves) (congrArg MqttState.phase hresolves.state_eq))

theorem mqtt_step (move : MqttMove) (hmove : MqttUnsuccessful w move) :
    Pursuit.Step w.pursuit (w.step move).pursuit := by
  have hrests : Pursuit.Step w.pursuit w.pursuit := .rests ⟨.inl rfl, rfl, rfl, rfl⟩
  unfold MqttWorld.step
  split
  swap
  · exact hrests
  rename_i henabled
  have hunsuccessful := hmove henabled
  cases move with
  | connect config a => exact absurd hunsuccessful id
  | close => exact absurd hunsuccessful id
  | poll a =>
    change Pursuit.Step _ (w.mqttPoll a).pursuit
    unfold MqttWorld.mqttPoll
    split
    · exact hrests
    split
    · rename_i hdue
      exact mqtt_begins a (congrArg MqttState.phase hdue.1) rfl rfl rfl
    · exact hrests
  | dns ip a =>
    rcases MqttWorld.onDns_tries { w with lookups := w.lookups - 1 } a ip with hfails | hdials
    · have hfailed := mqtt_fails hfails
      exact .fails hfailed
    · have hdialed := mqtt_dials hdials
      exact .rests hdialed
  | status accepted a =>
    cases accepted with
    | true => exact absurd hunsuccessful id
    | false =>
      have hfailed := mqtt_fails (MqttWorld.handleFailure_fails { w with link := .disconnected } a.later)
      exact .fails hfailed
  | incomingPublish topic => exact hrests
  | incomingData data last =>
    obtain ⟨hsame, hstate⟩ := w.onIncomingData_unmoved data last
    refine .rests ⟨.inl ?_, hsame.retry_eq, hsame.same.attempts_eq, hsame.failures_eq⟩
    exact congrArg MqttState.phase hstate

theorem mqtt_first {config : MqttConfig} {a : MqttAnswers} (hok : (w.mqttConnect config a).1 = .ok) :
    Pursuit.Step (.start config.retry) (w.mqttConnect config a).2.pursuit := by
  unfold MqttWorld.mqttConnect at hok ⊢
  split at hok
  · exact absurd hok nofun
  rename_i hinit
  split at hok
  · exact absurd hok nofun
  rename_i hconfig
  rw [if_neg hinit, if_neg hconfig]
  exact mqtt_begins a rfl rfl rfl rfl

end mqtt

section tcp

def TcpState.phase : TcpState → Phase
  | .waiting => .waiting
  | .gaveUp => .gaveUp
  | _ => .underWay

/-- A client with what has come of it since it was opened. -/
structure TcpTally where
  world : TcpWorld
  attempts : ℕ
  failures : ℕ

/-- The poll begins an attempt. -/
def TcpWorld.begins (w : TcpWorld) : TcpMove → Bool
  | .poll a _ => w.client.initialised && w.client.state = .waiting && w.client.retry.due a.now
  | _ => false

/-- An attempt has failed between the two: `handle_failure`, which alone does either, has counted
it or given up. -/
def failedBetween (c c' : TcpClient) : Bool :=
  c'.retry.attempts ≠ c.retry.attempts || (c'.state = .gaveUp && c.state ≠ .gaveUp)

def TcpTally.step (t : TcpTally) (move : TcpMove) : TcpTally :=
  let world := t.world.step move
  ⟨world, t.attempts + (if move.enabled t.world && t.world.begins move then 1 else 0),
    t.failures + (if failedBetween t.world.client world.client then 1 else 0)⟩

/-- A client just opened: the first attempt was begun, and is counted if it has failed already. -/
def TcpTally.opened (world : TcpWorld) : TcpTally := ⟨world, 1, world.client.retry.attempts.toNat⟩

def TcpTally.pursuit (t : TcpTally) : Pursuit :=
  ⟨t.world.client.state.phase, t.world.client.retry, t.attempts, t.failures⟩

/-- The move is no success, and no call that begins or ends the pursuit. -/
def TcpUnsuccessful (t : TcpTally) (move : TcpMove) : Prop :=
  move.enabled t.world = true →
    match move with
    | .openClient _ _ | .close _ | .deinit _ | .connected _ false _ _ => False
    | _ => True

instance (t : TcpTally) : (move : TcpMove) → Decidable (TcpUnsuccessful t move)
  | .openClient .. | .close .. | .deinit .. | .poll .. | .write .. | .readBytes .. | .dns ..
  | .connected _ true _ _ | .connected _ false _ _ | .recv .. | .recvClosed .. | .sent ..
  | .error .. | .afterCallback .. => by
      unfold TcpUnsuccessful
      infer_instance

/-- What a step makes of the client when no attempt fails. -/
structure TcpRests (c c' : TcpClient) : Prop where
  phase_eq : c'.state.phase = c.state.phase ∨ c'.state.phase = .underWay
  retry_eq : c'.retry = c.retry
  sessions_eq : c'.sessions = c.sessions

/-- What a failure makes of it. -/
structure TcpFails (c c' : TcpClient) : Prop where
  sessions_eq : c'.sessions = c.sessions
  outcome :
    (c.retry.exhausted = true ∧ c'.state = .gaveUp ∧ c'.retry = c.retry) ∨
    (c.retry.exhausted = false ∧ c'.state = .waiting ∧ ∃ now, c'.retry = c.retry.fail now)

variable {w w' : TcpWorld} {c c' : TcpClient}

/-- A client that never had a connection tries again until the budget is spent. -/
theorem tcp_fails (hsessions : w.client.sessions = 0) (now : UInt32) :
    TcpFails w.client (w.handleFailure now).client := by
  unfold TcpWorld.handleFailure
  dsimp only
  have hnever : ¬ (!(w.setConnected false).client.config.autoReconnect &&
      decide ((w.setConnected false).client.sessions > 0)) = true := by
    change ¬ (_ && decide (w.client.sessions > 0)) = true
    rw [hsessions, Bool.and_eq_true, decide_eq_true_eq]
    exact fun h => absurd h.2 (by decide)
  rw [if_neg hnever]
  split
  · rename_i hexhausted
    exact ⟨rfl, .inl ⟨hexhausted, rfl, rfl⟩⟩
  · rename_i hexhausted
    exact ⟨rfl, .inr ⟨Bool.not_eq_true _ ▸ hexhausted, rfl, now, rfl⟩⟩

theorem TcpRests.then_failure (h : TcpRests w.client w'.client) (hsessions : w.client.sessions = 0)
    (now : UInt32) : TcpFails w.client (w'.handleFailure now).client := by
  obtain ⟨hsame, houtcome⟩ := tcp_fails (h.sessions_eq.trans hsessions) now
  exact ⟨hsame.trans h.sessions_eq, h.retry_eq ▸ houtcome⟩

theorem TcpFails.seen (h : TcpFails c c') (hstate : c.state ≠ .gaveUp) :
    failedBetween c c' = true := by
  unfold failedBetween
  rw [Bool.or_eq_true]
  rcases h.outcome with ⟨-, hgaveUp, -⟩ | ⟨-, -, now, hretry⟩
  · right
    rw [hgaveUp, decide_eq_true hstate]
    rfl
  · left
    rw [hretry, decide_eq_true_eq]
    change c.retry.attempts + 1 ≠ c.retry.attempts
    intro heq
    exact absurd (UInt32.add_eq_left.mp heq) (by decide)

theorem TcpFails.unseen (h : TcpFails c c')
    (hnone : failedBetween c c' = false) : c'.state = .gaveUp ∧ c'.retry = c.retry := by
  rcases h.outcome with ⟨-, hgaveUp, hretry⟩ | ⟨-, -, now, hretry⟩
  · exact ⟨hgaveUp, hretry⟩
  · unfold failedBetween at hnone
    rw [Bool.or_eq_false_iff, decide_eq_false_iff_not, not_not, hretry] at hnone
    exact absurd (UInt32.add_eq_left.mp hnone.1) (by decide)

theorem TcpFails.phase_eq (h : TcpFails c c') :
    (c.retry.exhausted = true ∧ c'.state.phase = .gaveUp ∧ c'.retry = c.retry) ∨
    (c.retry.exhausted = false ∧ c'.state.phase = .waiting ∧
      ∃ now, c'.retry = c.retry.fail now) := by
  rcases h.outcome with ⟨hspent, hstate, hretry⟩ | ⟨hspent, hstate, hretry⟩
  · exact .inl ⟨hspent, congrArg TcpState.phase hstate, hretry⟩
  · exact .inr ⟨hspent, congrArg TcpState.phase hstate, hretry⟩

theorem TcpFails.step (h : TcpFails c c') (attempts failures : ℕ) :
    Pursuit.Step ⟨c.state.phase, c.retry, attempts, failures⟩
      ⟨c'.state.phase, c'.retry, attempts, failures + (if failedBetween c c' then 1 else 0)⟩ := by
  cases hseen : failedBetween c c' with
  | true => exact .fails ⟨rfl, rfl, h.phase_eq⟩
  | false =>
    by_cases hstate : c.state = .gaveUp
    · obtain ⟨hstate', hretry⟩ := h.unseen hseen
      exact .rests ⟨.inl (by rw [hstate, hstate']), hretry, rfl, rfl⟩
    · exact absurd ((h.seen hstate).symm.trans hseen) nofun

theorem phase_gaveUp {state : TcpState} (h : state.phase = .gaveUp) : state = .gaveUp := by
  cases state with
  | gaveUp => rfl
  | idle => exact absurd h nofun
  | resolving => exact absurd h nofun
  | connecting => exact absurd h nofun
  | connected => exact absurd h nofun
  | waiting => exact absurd h nofun

theorem TcpRests.unseen (h : TcpRests c c') : failedBetween c c' = false := by
  unfold failedBetween
  rw [h.retry_eq, Bool.or_eq_false_iff, Bool.and_eq_false_iff]
  refine ⟨decide_eq_false (not_not.mpr rfl), ?_⟩
  by_cases hgaveUp : c'.state = .gaveUp
  · right
    rcases h.phase_eq with hsame | hunderWay
    · have hbefore := phase_gaveUp (hsame.symm.trans (congrArg TcpState.phase hgaveUp))
      exact decide_eq_false (not_not.mpr hbefore)
    · rw [hgaveUp] at hunderWay
      exact absurd hunderWay nofun
  · exact .inl (decide_eq_false hgaveUp)

theorem TcpRests.step (h : TcpRests c c') (attempts failures : ℕ) :
    Pursuit.Step ⟨c.state.phase, c.retry, attempts, failures⟩
      ⟨c'.state.phase, c'.retry, attempts, failures + (if failedBetween c c' then 1 else 0)⟩ := by
  rw [h.unseen]
  exact .rests ⟨h.phase_eq, h.retry_eq, rfl, rfl⟩

/-- A connection is under way. -/
structure TcpDials (c c' : TcpClient) : Prop where
  phase_eq : c'.state.phase = .underWay
  retry_eq : c'.retry = c.retry
  sessions_eq : c'.sessions = c.sessions

theorem TcpDials.rests (h : TcpDials c c') : TcpRests c c' := ⟨.inr h.phase_eq, h.retry_eq, h.sessions_eq⟩

theorem tcp_onDns (hsessions : w.client.sessions = 0) (ip : Option UInt32) (a : LwipAnswers) :
    TcpFails w.client (w.onDns ip a).client ∨ TcpDials w.client (w.onDns ip a).client := by
  obtain ⟨host, ⟨-, heq⟩ | ⟨-, heq | heq⟩⟩ := w.onDns_cases a ip
  · rw [heq]
    have hkept : TcpRests w.client (w.setClient fun c => { c with hostIpv4 := host }).client :=
      ⟨.inl rfl, rfl, rfl⟩
    exact .inl (hkept.then_failure hsessions a.later)
  · rw [heq]
    exact .inr ⟨rfl, rfl, rfl⟩
  · rw [heq]
    have hkept : TcpRests w.client
        ((w.setClient fun c => { c with hostIpv4 := host }).dialing a).released.client :=
      ⟨.inr rfl, rfl, rfl⟩
    exact .inl (hkept.then_failure hsessions a.later)

theorem tcp_beginAttempt (hsessions : w.client.sessions = 0) (a : LwipAnswers) :
    TcpFails w.client (w.beginAttempt a).client ∨ TcpDials w.client (w.beginAttempt a).client := by
  rcases w.beginAttempt_cases a with ⟨ip, -, heq⟩ | ⟨-, heq⟩ | ⟨-, heq⟩
  · rw [heq]
    have hdns := tcp_onDns (w := w.attempted) hsessions (some ip) a
    exact hdns
  · rw [heq]
    exact .inr ⟨rfl, rfl, rfl⟩
  · rw [heq]
    have hfails := tcp_fails (w := w.attempted) hsessions a.later
    exact .inl hfails

theorem tcp_poll (hsessions : w.client.sessions = 0) (a : LwipAnswers) (link : TcpWorld.Link)
    (hbegins : w.begins (.poll a link) = false) :
    TcpRests w.client (w.tcpClientPoll a link).client ∨
      TcpFails w.client (w.tcpClientPoll a link).client := by
  have hrests : TcpRests w.client w.client := ⟨.inl rfl, rfl, rfl⟩
  have htimeout : TcpFails w.client ((w.releasePcb false a.closeOk).2.handleFailure a.later).client := by
    rw [TcpWorld.releasePcb_eq]
    have hkept : TcpRests w.client w.released.client := ⟨.inl rfl, rfl, rfl⟩
    exact hkept.then_failure hsessions a.later
  unfold TcpWorld.tcpClientPoll
  split
  · exact .inl hrests
  rename_i hinit
  cases hstate : w.client.state with
  | resolving =>
    dsimp only
    split
    · exact .inr htimeout
    · exact .inl hrests
  | connecting =>
    dsimp only
    split
    · exact .inr htimeout
    · exact .inl hrests
  | waiting =>
    have hdue : w.client.retry.due a.now = false := by
      rw [Bool.not_eq_true, Bool.not_eq_false'] at hinit
      change (w.client.initialised && decide (w.client.state = .waiting) &&
        w.client.retry.due a.now) = false at hbegins
      rwa [hinit, hstate, decide_eq_true rfl] at hbegins
    dsimp only
    rw [hdue]
    exact .inl hrests
  | connected =>
    obtain ⟨stream, heq⟩ := w.pumpOutput_cases link
    dsimp only
    rw [heq]
    exact .inl ⟨.inl rfl, rfl, rfl⟩
  | idle => exact .inl hrests
  | gaveUp => exact .inl hrests

theorem tcp_carriesOn (hsessions : w.client.sessions = 0) (move : TcpMove)
    (henabled : move.enabled w = true) (hmove : TcpUnsuccessful ⟨w, 0, 0⟩ move)
    (hbegins : w.begins move = false) :
    TcpRests w.client (w.perform move).client ∨ TcpFails w.client (w.perform move).client := by
  have hrests : TcpRests w.client w.client := ⟨.inl rfl, rfl, rfl⟩
  have hunsuccessful := hmove henabled
  cases move with
  | openClient config a => exact absurd hunsuccessful id
  | close a => exact absurd hunsuccessful id
  | deinit a => exact absurd hunsuccessful id
  | poll a link => exact tcp_poll hsessions a link hbegins
  | write data link =>
    obtain ⟨stream, heq⟩ := w.tcpClientWrite_cases link data
    change TcpRests _ (w.tcpClientWrite data link).client ∨ _
    rw [heq]
    exact .inl ⟨.inl rfl, rfl, rfl⟩
  | readBytes length =>
    obtain ⟨stream, heq⟩ := w.tcpClientReadBytes_cases length
    change TcpRests _ (w.tcpClientReadBytes length).client ∨ _
    rw [heq]
    exact .inl ⟨.inl rfl, rfl, rfl⟩
  | dns ip a =>
    have hanswered : ({ w with lookups := w.lookups - 1 } : TcpWorld).client.sessions = 0 := hsessions
    rcases tcp_onDns hanswered ip a with hfails | hdials
    · exact .inr hfails
    · exact .inl hdials.rests
  | connected pcb err a link =>
    cases err with
    | false => exact absurd hunsuccessful id
    | true =>
      have hkept : TcpRests w.client
          ({ w with live := w.live.erase pcb }.setClient fun c => { c with pcb := none }).client :=
        ⟨.inl rfl, rfl, rfl⟩
      exact .inr (hkept.then_failure hsessions a.later)
  | recv pcb p =>
    obtain ⟨stream, heq⟩ := w.onRecv_cases p
    change TcpRests _ (w.onRecv p).2.client ∨ _
    rw [heq]
    exact .inl ⟨.inl rfl, rfl, rfl⟩
  | recvClosed pcb a =>
    change TcpRests _ (w.onRecvClosed a).client ∨ TcpFails _ (w.onRecvClosed a).client
    unfold TcpWorld.onRecvClosed
    rw [TcpWorld.releasePcb_eq]
    dsimp only
    split
    · exact .inl ⟨.inr rfl, rfl, rfl⟩
    · have hkept : TcpRests w.client (w.released.setState .idle).client := ⟨.inr rfl, rfl, rfl⟩
      exact .inr (hkept.then_failure hsessions a.later)
  | sent pcb link =>
    obtain ⟨stream, heq⟩ := w.pumpOutput_cases link
    change TcpRests _ (w.pumpOutput link).client ∨ _
    rw [heq]
    exact .inl ⟨.inl rfl, rfl, rfl⟩
  | error pcb a =>
    change TcpRests _ (w.onError pcb a).client ∨ TcpFails _ (w.onError pcb a).client
    unfold TcpWorld.onError
    dsimp only
    split
    · exact .inl ⟨.inl rfl, rfl, rfl⟩
    · have hkept : TcpRests w.client
          ({ w with live := w.live.erase pcb }.setClient fun c => { c with pcb := none }).client :=
        ⟨.inl rfl, rfl, rfl⟩
      exact .inr (hkept.then_failure hsessions a.later)
  | afterCallback a link =>
    change TcpRests _ (w.afterCallback a link).client ∨ TcpFails _ (w.afterCallback a link).client
    unfold TcpWorld.afterCallback
    cases w.inside with
    | none => exact .inl hrests
    | some callback =>
      cases callback with
      | onClosed =>
        have hfails := tcp_fails (w := { w with inside := none }) hsessions a.later
        exact .inr hfails
      | onConnect =>
        obtain ⟨stream, heq⟩ := TcpWorld.pumpOutput_cases { w with inside := none } link
        dsimp only
        rw [heq]
        exact .inl ⟨.inl rfl, rfl, rfl⟩

theorem tcp_step (t : TcpTally) (move : TcpMove) (hmove : TcpUnsuccessful t move)
    (hsessions : t.world.client.sessions = 0) :
    (t.step move).world.client.sessions = 0 ∧ Pursuit.Step t.pursuit (t.step move).pursuit := by
  obtain ⟨w, attempts, failures⟩ := t
  have hrests : TcpRests w.client w.client := ⟨.inl rfl, rfl, rfl⟩
  cases henabled : move.enabled w with
  | false =>
    have hstep : w.step move = w := if_neg (by rw [henabled]; exact nofun)
    have hrested := hrests.step attempts failures
    unfold TcpTally.step TcpTally.pursuit
    dsimp only
    rw [hstep, henabled]
    exact ⟨hsessions, hrested⟩
  | true =>
    have hstep : w.step move = w.perform move := if_pos henabled
    unfold TcpTally.step TcpTally.pursuit
    dsimp only
    rw [hstep, henabled, Bool.true_and]
    cases hbegins : w.begins move with
    | false =>
      rcases tcp_carriesOn hsessions move henabled hmove hbegins with hrested | hfailed
      · exact ⟨hrested.sessions_eq.trans hsessions, hrested.step attempts failures⟩
      · exact ⟨hfailed.sessions_eq.trans hsessions, hfailed.step attempts failures⟩
    | true =>
      -- only the poll of a client that waits begins an attempt
      obtain ⟨a, link, rfl⟩ : ∃ a link, move = .poll a link := by
        cases move with
        | poll a link => exact ⟨a, link, rfl⟩
        | _ => exact absurd hbegins nofun
      change (w.client.initialised && decide (w.client.state = .waiting) &&
        w.client.retry.due a.now) = true at hbegins
      rw [Bool.and_eq_true, Bool.and_eq_true, decide_eq_true_eq] at hbegins
      obtain ⟨⟨hinit, hwaiting⟩, hdue⟩ := hbegins
      have hpoll : w.perform (.poll a link) = w.beginAttempt a := by
        change w.tcpClientPoll a link = _
        unfold TcpWorld.tcpClientPoll
        rw [hinit, hwaiting, if_neg nofun]
        exact if_pos hdue
      have hphase : w.client.state.phase = .waiting := congrArg TcpState.phase hwaiting
      rw [hpoll]
      rcases tcp_beginAttempt hsessions a with hfailed | hdialed
      · have hseen := hfailed.seen (by rw [hwaiting]; exact nofun)
        rw [hseen]
        exact ⟨hfailed.sessions_eq.trans hsessions, .beginsAndFails hphase ⟨rfl, rfl, hfailed.phase_eq⟩⟩
      · rw [hdialed.rests.unseen]
        exact ⟨hdialed.sessions_eq.trans hsessions,
          .begins hphase ⟨.inr hdialed.phase_eq, hdialed.retry_eq, rfl, rfl⟩⟩

theorem tcp_firstAttempt {config : WifiRetryConfig} (hlimit : 0 < config.maxAttempts.toNat)
    (hsessions : w.client.sessions = 0) (hretry : w.client.retry = wifiRetryInit config)
    (a : LwipAnswers) :
    (w.beginAttempt a).client.sessions = 0 ∧
    Pursuit.Step (.start config) (TcpTally.opened (w.beginAttempt a)).pursuit := by
  rcases tcp_beginAttempt hsessions a with hfailed | hdialed
  · refine ⟨hfailed.sessions_eq.trans hsessions, .beginsAndFails rfl ⟨rfl, ?_, ?_⟩⟩
    · rcases hfailed.outcome with ⟨hspent, -, -⟩ | ⟨-, -, now, hnext⟩
      · rw [hretry] at hspent
        have hle := (Pursuit.exhausted_iff (wifiRetryInit config) hlimit).mp hspent
        exact absurd hle (by change ¬ config.maxAttempts.toNat ≤ 0; omega)
      · change (w.beginAttempt a).client.retry.attempts.toNat = 1
        rw [hnext, hretry]
        rfl
    · have houtcome := hfailed.phase_eq
      rw [hretry] at houtcome
      exact houtcome
  · refine ⟨hdialed.sessions_eq.trans hsessions, .begins rfl ⟨.inr hdialed.phase_eq, ?_, rfl, ?_⟩⟩
    · exact hdialed.retry_eq.trans hretry
    · change (w.beginAttempt a).client.retry.attempts.toNat = 0
      rw [hdialed.retry_eq, hretry]
      rfl

theorem tcp_first {config : TcpClientConfig} {a : LwipAnswers}
    (hlimit : 0 < config.retry.maxAttempts.toNat) (hok : (w.tcpClientOpen config a).1 = .ok) :
    (w.tcpClientOpen config a).2.client.sessions = 0 ∧
    Pursuit.Step (.start config.retry) (TcpTally.opened (w.tcpClientOpen config a).2).pursuit := by
  unfold TcpWorld.tcpClientOpen at hok ⊢
  dsimp only at hok ⊢
  split at hok
  · exact absurd hok nofun
  rename_i hinit
  split at hok
  · exact absurd hok nofun
  rename_i hconfig
  rw [if_neg hinit, if_neg hconfig]
  cases hstream : tcpStreamInit config.rxBuffer config.txBuffer with
  | none =>
    rw [hstream] at hok
    exact absurd hok nofun
  | some stream => exact tcp_firstAttempt hlimit rfl rfl a

end tcp

/-- In a run in which no attempt succeeds, whatever fails and when, a client begins at most as many
attempts as its budget allows and gives up at the failure of the last, as long as the budget is not
reached: in the runs with fewer failures than the budget, and in no others. This holds of all three
clients. -/
theorem clients_keep_budget_iff (wifi : WifiWorld) (mqtt : MqttWorld) (tcp : TcpWorld) :
    (∀ (config : WifiConfig) (a : WifiAnswers) (polls : List WifiAnswers),
      0 < config.retry.maxAttempts.toNat → (wifi.wifiConnect config a).1 = .ok →
      Meets WifiWorld.step WifiUnsuccessful (wifi.wifiConnect config a).2 polls →
      ((∀ pre, pre <+: polls → Pursuit.Kept config.retry.maxAttempts.toNat
          (pre.foldl WifiWorld.step (wifi.wifiConnect config a).2).pursuit) ↔
        (polls.foldl WifiWorld.step (wifi.wifiConnect config a).2).failures <
          config.retry.maxAttempts.toNat)) ∧
    (∀ (config : MqttConfig) (a : MqttAnswers) (moves : List MqttMove),
      0 < config.retry.maxAttempts.toNat → (mqtt.mqttConnect config a).1 = .ok →
      Meets MqttWorld.step MqttUnsuccessful (mqtt.mqttConnect config a).2 moves →
      ((∀ pre, pre <+: moves → Pursuit.Kept config.retry.maxAttempts.toNat
          (pre.foldl MqttWorld.step (mqtt.mqttConnect config a).2).pursuit) ↔
        (moves.foldl MqttWorld.step (mqtt.mqttConnect config a).2).failures <
          config.retry.maxAttempts.toNat)) ∧
    (∀ (config : TcpClientConfig) (a : LwipAnswers) (moves : List TcpMove),
      0 < config.retry.maxAttempts.toNat → (tcp.tcpClientOpen config a).1 = .ok →
      Meets TcpTally.step TcpUnsuccessful (.opened (tcp.tcpClientOpen config a).2) moves →
      ((∀ pre, pre <+: moves → Pursuit.Kept config.retry.maxAttempts.toNat
          (pre.foldl TcpTally.step (.opened (tcp.tcpClientOpen config a).2)).pursuit) ↔
        (moves.foldl TcpTally.step (.opened (tcp.tcpClientOpen config a).2)).failures <
          config.retry.maxAttempts.toNat)) := by
  refine ⟨?_, ?_, ?_⟩
  · intro config a polls hlimit hok hmeets
    obtain ⟨hstate, hfirst⟩ := wifi_first hok
    have hstep : ∀ (w : WifiWorld) (a : WifiAnswers), WifiUnsuccessful w a →
        w.wifi.state ≠ .connected →
        (w.step a).wifi.state ≠ .connected ∧ Pursuit.Step w.pursuit (w.step a).pursuit :=
      fun _ a ha hw => wifi_step a ha hw
    exact Pursuit.kept_iff config.retry hlimit hstep hstate hfirst hmeets
  · intro config a moves hlimit hok hmeets
    have hstep : ∀ (w : MqttWorld) (move : MqttMove), MqttUnsuccessful w move → True →
        True ∧ Pursuit.Step w.pursuit (w.step move).pursuit :=
      fun _ move hmove _ => ⟨trivial, mqtt_step move hmove⟩
    exact Pursuit.kept_iff config.retry hlimit hstep trivial (mqtt_first hok) hmeets
  · intro config a moves hlimit hok hmeets
    obtain ⟨hsessions, hfirst⟩ := tcp_first hlimit hok
    exact Pursuit.kept_iff config.retry hlimit tcp_step hsessions hfirst hmeets

/-- A network that the radio never finds. -/
def lostNetwork (maxAttempts : UInt32) : WifiConfig :=
  ⟨some (cstr "n"), none, none, 0, ⟨0, 0, maxAttempts⟩⟩

def noNetwork : WifiAnswers := ⟨-2, 0, 0, 0, true, 0⟩

/-- With a budget of one attempt: the attempt fails, and the client waits to begin a second. -/
theorem wifi_overruns_budget : ¬ ∀ (config : WifiConfig) (a : WifiAnswers) (polls : List WifiAnswers),
    0 < config.retry.maxAttempts.toNat → ((wifiInit true).2.wifiConnect config a).1 = .ok →
    Meets WifiWorld.step WifiUnsuccessful ((wifiInit true).2.wifiConnect config a).2 polls →
    Pursuit.Kept config.retry.maxAttempts.toNat
      (polls.foldl WifiWorld.step ((wifiInit true).2.wifiConnect config a).2).pursuit := by
  intro hclaim
  have hkept := hclaim (lostNetwork 1) noNetwork [noNetwork] (by decide) (by decide)
    ⟨by decide, trivial⟩
  exact absurd (hkept.2 (by decide)) (by decide)

end Pico
