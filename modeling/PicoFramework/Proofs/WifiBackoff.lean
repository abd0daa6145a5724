import PicoFramework.Spec.WifiRetry

/-! How long a client waits after each failure in a row, and when the wait is over on a counter of
32 bits. -/

namespace Pico

section delay

/-- The wait before the second attempt, the default for zero. -/
def WifiRetryConfig.first (config : WifiRetryConfig) : ℕ :=
  if config.firstDelayMs = 0 then 500 else config.firstDelayMs.toNat

/-- The longest wait, the default for zero. -/
def WifiRetryConfig.ceiling (config : WifiRetryConfig) : ℕ :=
  if config.maxDelayMs = 0 then 30000 else config.maxDelayMs.toNat

/-- The wait after so many failures: doubled each time, up to the ceiling. -/
def WifiRetryConfig.backoff (config : WifiRetryConfig) (failures : ℕ) : ℕ :=
  min (config.first * 2 ^ (failures - 1)) config.ceiling

variable (config : WifiRetryConfig)

theorem WifiRetryConfig.first_pos : 0 < config.first := by
  unfold first
  split
  · decide
  · rename_i hne
    exact Nat.pos_of_ne_zero fun hzero => hne (UInt32.toNat_inj.mp hzero)

theorem WifiRetryConfig.ceiling_pos : 0 < config.ceiling := by
  unfold ceiling
  split
  · decide
  · rename_i hne
    exact Nat.pos_of_ne_zero fun hzero => hne (UInt32.toNat_inj.mp hzero)

theorem WifiRetryConfig.ceiling_lt : config.ceiling < 2 ^ 32 := by
  unfold ceiling
  split
  · decide
  · exact config.maxDelayMs.toNat_lt

theorem overflows_iff (delay : UInt32) :
    delay > 0xFFFFFFFF - delay ↔ 2 ^ 32 ≤ delay.toNat + delay.toNat := by
  have hlt := delay.toNat_lt
  have hle : delay ≤ 0xFFFFFFFF := by
    rw [UInt32.le_iff_toNat_le]
    simp only [UInt32.reduceToNat]
    omega
  rw [gt_iff_lt, UInt32.lt_iff_toNat_lt, UInt32.toNat_sub_of_le _ _ hle]
  simp only [UInt32.reduceToNat]
  omega

theorem doubleDelay_toNat (ceiling delay : UInt32) (n : ℕ) :
    (doubleDelay ceiling n delay).toNat = min (delay.toNat * 2 ^ n) ceiling.toNat := by
  induction n generalizing delay with
  | zero =>
    rw [doubleDelay, pow_zero, mul_one]
    split
    · rename_i hlt
      exact (Nat.min_eq_left hlt.le).symm
    · rename_i hge
      exact (Nat.min_eq_right (not_lt.mp hge)).symm
  | succ n ih =>
    have hceiling := ceiling.toNat_lt
    have hdouble : delay.toNat * 2 ^ (n + 1) = (delay.toNat + delay.toNat) * 2 ^ n := by ring
    have hscale := Nat.le_mul_of_pos_right (delay.toNat + delay.toNat) (Nat.two_pow_pos n)
    simp only [doubleDelay, hdouble, overflows_iff, ge_iff_le, UInt32.le_iff_toNat_le]
    by_cases hstop : ceiling.toNat ≤ delay.toNat ∨ 2 ^ 32 ≤ delay.toNat + delay.toNat
    · rw [if_pos hstop, Nat.min_eq_right (by omega)]
    · have hsum : (delay + delay).toNat = delay.toNat + delay.toNat := by
        rw [UInt32.toNat_add, Nat.mod_eq_of_lt (by omega)]
      rw [if_neg hstop, ih, hsum]

theorem wifiRetryDelayForAttempt_toNat {attempt : UInt32} (hattempt : attempt ≠ 0) :
    (wifiRetryDelayForAttempt config attempt).toNat = config.backoff attempt.toNat := by
  unfold wifiRetryDelayForAttempt WifiRetryConfig.backoff WifiRetryConfig.first
    WifiRetryConfig.ceiling
  rw [if_neg hattempt]
  dsimp only
  rw [doubleDelay_toNat]
  by_cases hfirst : config.firstDelayMs = 0 <;> by_cases hmax : config.maxDelayMs = 0 <;>
    simp [hfirst, hmax, WIFI_RETRY_DEFAULT_FIRST_DELAY_MS, WIFI_RETRY_DEFAULT_MAX_DELAY_MS]

end delay

section failures

theorem foldl_fail (config : WifiRetryConfig) (times : List UInt32) :
    let retry := times.foldl WifiRetry.fail (wifiRetryInit config)
    retry.config = (wifiRetryInit config).config ∧ retry.attempts = UInt32.ofNat times.length := by
  induction times using List.reverseRecOn with
  | nil => exact ⟨rfl, rfl⟩
  | append_singleton times t ih =>
    rw [List.foldl_append, List.foldl_cons, List.foldl_nil, List.length_append]
    refine ⟨ih.1, ?_⟩
    change _ + 1 = _
    rw [ih.2, List.length_singleton, UInt32.ofNat_add, UInt32.ofNat_one]

/-- A success forgets the failures before it. -/
theorem reset_foldl_fail (config : WifiRetryConfig) (times : List UInt32) :
    (times.foldl WifiRetry.fail (wifiRetryInit config)).reset = wifiRetryInit config := by
  have hconfig := (foldl_fail config times).1
  unfold WifiRetry.reset
  rw [hconfig]
  rfl

theorem wifiRetryDelayForAttempt_init (config : WifiRetryConfig) (attempt : UInt32) :
    wifiRetryDelayForAttempt (wifiRetryInit config).config attempt =
      wifiRetryDelayForAttempt config attempt := by
  unfold wifiRetryDelayForAttempt wifiRetryInit
  by_cases hfirst : config.firstDelayMs = 0 <;> by_cases hmax : config.maxDelayMs = 0 <;>
    simp [hfirst, hmax, WIFI_RETRY_DEFAULT_FIRST_DELAY_MS, WIFI_RETRY_DEFAULT_MAX_DELAY_MS]

theorem due_iff (t delay e : UInt32) (he : e.toNat < 2 ^ 31) :
    t + e - (t + delay) < 0x80000000 ↔ delay.toNat ≤ e.toNat ∨ e.toNat + 2 ^ 31 < delay.toNat := by
  have hdelay := delay.toNat_lt
  have hsame : t + e - (t + delay) = e - delay := by grind
  rw [hsame, UInt32.lt_iff_toNat_lt, UInt32.toNat_sub]
  simp only [UInt32.reduceToNat]
  omega

theorem fail_due (config : WifiRetryConfig) (earlier : List UInt32) (t e : UInt32) :
    ((earlier ++ [t]).foldl WifiRetry.fail (wifiRetryInit config)).due (t + e) =
      decide (t + e - (t + wifiRetryDelayForAttempt config (UInt32.ofNat (earlier.length + 1))) <
        0x80000000) := by
  obtain ⟨hconfig, hattempts⟩ := foldl_fail config earlier
  rw [List.foldl_append, List.foldl_cons, List.foldl_nil, WifiRetry.fail, WifiRetry.due, hconfig,
    hattempts, wifiRetryDelayForAttempt_init, UInt32.ofNat_add, UInt32.ofNat_one]
  rfl

/-- The number of failures, which the client counts in 32 bits, has not come round in a way that
shows. -/
def CountsWell (config : WifiRetryConfig) (failures : ℕ) : Prop :=
  failures < 2 ^ 32 ∨
    (failures % 2 ^ 32 ≠ 0 ∧ config.ceiling ≤ config.first * 2 ^ (failures % 2 ^ 32 - 1))

theorem backoff_many (config : WifiRetryConfig) {failures : ℕ} (h : 2 ^ 32 ≤ failures) :
    config.backoff failures = config.ceiling := by
  have hpow : 2 ^ 32 ≤ 2 ^ (failures - 1) := Nat.pow_le_pow_right (by decide) (by omega)
  have hscale := Nat.le_mul_of_pos_left (2 ^ (failures - 1)) config.first_pos
  have hceiling := config.ceiling_lt
  exact Nat.min_eq_right (by omega)

theorem delayForAttempt_eq_iff (config : WifiRetryConfig) {failures : ℕ} (hpos : 0 < failures) :
    (wifiRetryDelayForAttempt config (UInt32.ofNat failures)).toNat = config.backoff failures ↔
      CountsWell config failures := by
  have hcount : (UInt32.ofNat failures).toNat = failures % 2 ^ 32 := UInt32.toNat_ofNat'
  by_cases hsmall : failures < 2 ^ 32
  · have hne : UInt32.ofNat failures ≠ 0 := by
      intro hzero
      rw [hzero, UInt32.toNat_zero, Nat.mod_eq_of_lt hsmall] at hcount
      omega
    rw [wifiRetryDelayForAttempt_toNat config hne, hcount, Nat.mod_eq_of_lt hsmall]
    exact iff_of_true rfl (.inl hsmall)
  · rw [backoff_many config (not_lt.mp hsmall), CountsWell, or_iff_right hsmall]
    by_cases hzero : failures % 2 ^ 32 = 0
    · have hnone : UInt32.ofNat failures = 0 := UInt32.toNat_inj.mp (hcount.trans hzero)
      have hceiling := config.ceiling_pos
      rw [hnone, wifiRetryDelayForAttempt, if_pos rfl, UInt32.toNat_zero]
      exact iff_of_false hceiling.ne fun h => h.1 hzero
    · have hne : UInt32.ofNat failures ≠ 0 := by
        intro hnone
        rw [hnone, UInt32.toNat_zero] at hcount
        exact hzero hcount.symm
      rw [wifiRetryDelayForAttempt_toNat config hne, hcount, WifiRetryConfig.backoff,
        min_eq_right_iff, and_iff_right hzero]

end failures

/-- The backoff and its deadline across counter wrap. After any run of failures the delay is the
first one doubled up to the ceiling, and the next attempt is due when it has passed and not before:
when and only when the delay is at most half of what the counter holds, and the count of the
failures has not come round. -/
theorem wifiRetry_backoff_iff (config : WifiRetryConfig) (earlier : List UInt32) (t : UInt32) :
    let failures := earlier.length + 1
    let retry := (earlier ++ [t]).foldl WifiRetry.fail (wifiRetryInit config)
    ((wifiRetryDelayForAttempt config (UInt32.ofNat failures)).toNat =
          min (config.first * 2 ^ (failures - 1)) config.ceiling ∧
        ∀ e : UInt32, e.toNat < 2 ^ 31 →
          (retry.due (t + e) = true ↔
            min (config.first * 2 ^ (failures - 1)) config.ceiling ≤ e.toNat)) ↔
      CountsWell config failures ∧
        (config.first * 2 ^ (failures - 1) ≤ 2 ^ 31 ∨ config.ceiling ≤ 2 ^ 31) := by
  intro failures retry
  have hcounts := delayForAttempt_eq_iff config (show 0 < failures from Nat.succ_pos _)
  have hbackoff : config.backoff failures = min (config.first * 2 ^ (failures - 1)) config.ceiling :=
    rfl
  have hpos : 0 < config.backoff failures :=
    lt_min (Nat.mul_pos config.first_pos (Nat.two_pow_pos _)) config.ceiling_pos
  rw [← hbackoff, ← hcounts, ← min_le_iff, ← hbackoff]
  apply and_congr_right
  intro hdelay
  have hdue : ∀ e : UInt32, e.toNat < 2 ^ 31 → (retry.due (t + e) = true ↔
      config.backoff failures ≤ e.toNat ∨ e.toNat + 2 ^ 31 < config.backoff failures) := by
    intro e he
    rw [fail_due, decide_eq_true_iff, due_iff t _ e he, hdelay]
  constructor
  · intro h
    have hatOnce := (hdue 0 (by decide)).symm.trans (h 0 (by decide))
    rw [UInt32.toNat_zero] at hatOnce
    omega
  · intro hhalf e he
    rw [hdue e he]
    omega

/-- A first delay of 3 000 000 000 ms, under five weeks, is over as soon as it has begun. -/
theorem wifiRetry_due_at_once :
    ¬ ∀ (config : WifiRetryConfig) (earlier : List UInt32) (t e : UInt32), e.toNat < 2 ^ 31 →
      (((earlier ++ [t]).foldl WifiRetry.fail (wifiRetryInit config)).due (t + e) = true ↔
        min (config.first * 2 ^ earlier.length) config.ceiling ≤ e.toNat) := by
  intro h
  have hdue := h ⟨3000000000, 4000000000, 0⟩ [] 0 0 (by decide)
  exact absurd hdue (by decide)

end Pico
