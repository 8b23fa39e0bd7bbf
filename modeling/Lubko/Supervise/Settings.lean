import Lubko.Lib.PyStr
import Mathlib.Algebra.Order.Ring.Rat

/-!
# Settings of the supervisor

`Settings` of `supervisor.py` and the checks of `__post_init__`, in the source's order and with its
messages. The timing values are rationals, so `math.isfinite` has nothing left to refuse.
-/

namespace Lubko.Supervise

open Lubko.Lib

/-- `Settings`. -/
structure Settings where
  pollIntervalSeconds : ℚ := 1
  backoffBaseSeconds : ℚ := 2
  backoffMaxSeconds : ℚ := 120
  stableWindowSeconds : ℚ := 30
  stopGraceSeconds : ℚ := 5
  identityTimeoutSeconds : ℚ := 5
  postgresTimeoutSeconds : ℚ := 2
  lockTimeoutSeconds : ℚ := 5
  probeTimeoutSeconds : ℚ := 15
  readinessIntervalSeconds : ℚ := 5
  noProgressGraceSeconds : ℚ := 60
  noProgressRequiredProbes : ℤ := 3

namespace Settings

/-- `__post_init__`. -/
def postInit (s : Settings) : Except PyStr Unit := do
  raiseIf (s.pollIntervalSeconds ≤ 0) "LUBKO_SUPERVISOR_POLL_SECONDS must be positive"
  raiseIf (s.backoffBaseSeconds ≤ 0 || s.backoffMaxSeconds < s.backoffBaseSeconds)
    "LUBKO_SUPERVISOR backoff settings are invalid"
  raiseIf (s.stableWindowSeconds ≤ 0) "LUBKO_SUPERVISOR_STABLE_WINDOW_SECONDS must be positive"
  raiseIf (s.stopGraceSeconds ≤ 0) "LUBKO_SUPERVISOR_STOP_GRACE_SECONDS must be positive"
  raiseIf (s.identityTimeoutSeconds ≤ 0)
    "LUBKO_SUPERVISOR_IDENTITY_TIMEOUT_SECONDS must be positive"
  raiseIf (s.postgresTimeoutSeconds ≤ 0 || s.lockTimeoutSeconds ≤ 0)
    "LUBKO_SUPERVISOR database timeout settings must be positive"
  raiseIf (s.probeTimeoutSeconds ≤ 0 || s.readinessIntervalSeconds ≤ 0)
    "LUBKO_SUPERVISOR readiness probe settings must be positive"
  raiseIf (s.noProgressGraceSeconds ≤ 0)
    "LUBKO_SUPERVISOR_NO_PROGRESS_GRACE_SECONDS must be positive"
  raiseIf (s.noProgressRequiredProbes < 1)
    "LUBKO_SUPERVISOR_NO_PROGRESS_REQUIRED_PROBES must be at least one"

/-- What accepted settings keep. -/
structure Accepted (s : Settings) : Prop where
  backoffBase_pos : 0 < s.backoffBaseSeconds
  backoffBase_le : s.backoffBaseSeconds ≤ s.backoffMaxSeconds
  readinessInterval_pos : 0 < s.readinessIntervalSeconds
  noProgressGrace_pos : 0 < s.noProgressGraceSeconds
  noProgressRequired_pos : 1 ≤ s.noProgressRequiredProbes

theorem accepted_of_postInit {s : Settings} (h : s.postInit = .ok ()) : s.Accepted := by
  simp only [postInit, except_bind_eq_ok, raiseIf_eq_ok, Bool.or_eq_false_iff,
    decide_eq_false_iff_not, not_le, not_lt, exists_const] at h
  obtain ⟨-, ⟨hbase, hmax⟩, -, -, -, -, ⟨-, hinterval⟩, hgrace, hprobes⟩ := h
  exact ⟨hbase, hmax, hinterval, hgrace, hprobes⟩

theorem default_postInit : ({} : Settings).postInit = .ok () := by decide +kernel

end Settings

end Lubko.Supervise
