import Mathlib.Tactic

/-! `wifi_policy.c`: when to try again, as far as a TCP client goes by it. -/

namespace Pico

def WIFI_RETRY_DEFAULT_FIRST_DELAY_MS : UInt32 := 500
def WIFI_RETRY_DEFAULT_MAX_DELAY_MS : UInt32 := 30000

structure WifiRetryConfig where
  firstDelayMs : UInt32
  maxDelayMs : UInt32
  maxAttempts : UInt32
deriving DecidableEq

structure WifiRetry where
  config : WifiRetryConfig
  attempts : UInt32
  nextAttemptMs : UInt32
  waiting : Bool
deriving DecidableEq

/-- The loop of `wifi_retry_delay_for_attempt`. -/
def doubleDelay (ceiling : UInt32) : ℕ → UInt32 → UInt32
  | 0, delay => if delay < ceiling then delay else ceiling
  | n + 1, delay =>
      if delay ≥ ceiling ∨ delay > 0xFFFFFFFF - delay then ceiling
      else doubleDelay ceiling n (delay + delay)

def wifiRetryDelayForAttempt (config : WifiRetryConfig) (attempt : UInt32) : UInt32 :=
  if attempt = 0 then 0
  else
    let first :=
      if config.firstDelayMs ≠ 0 then config.firstDelayMs else WIFI_RETRY_DEFAULT_FIRST_DELAY_MS
    let ceiling :=
      if config.maxDelayMs ≠ 0 then config.maxDelayMs else WIFI_RETRY_DEFAULT_MAX_DELAY_MS
    doubleDelay ceiling (attempt.toNat - 1) first

def wifiRetryInit (config : WifiRetryConfig) : WifiRetry where
  config :=
    { config with
      firstDelayMs :=
        if config.firstDelayMs = 0 then WIFI_RETRY_DEFAULT_FIRST_DELAY_MS else config.firstDelayMs
      maxDelayMs :=
        if config.maxDelayMs = 0 then WIFI_RETRY_DEFAULT_MAX_DELAY_MS else config.maxDelayMs }
  attempts := 0
  nextAttemptMs := 0
  waiting := false

namespace WifiRetry

def reset (retry : WifiRetry) : WifiRetry :=
  { retry with attempts := 0, nextAttemptMs := 0, waiting := false }

def fail (retry : WifiRetry) (nowMs : UInt32) : WifiRetry :=
  let attempts := retry.attempts + 1
  let delay := wifiRetryDelayForAttempt retry.config attempts
  { retry with attempts := attempts, nextAttemptMs := nowMs + delay, waiting := true }

/-- The difference is compared as a signed one, so that a counter may wrap. -/
def due (retry : WifiRetry) (nowMs : UInt32) : Bool :=
  if !retry.waiting then true else nowMs - retry.nextAttemptMs < 0x80000000

def exhausted (retry : WifiRetry) : Bool :=
  if retry.config.maxAttempts = 0 then false else retry.attempts ≥ retry.config.maxAttempts

end WifiRetry

end Pico
