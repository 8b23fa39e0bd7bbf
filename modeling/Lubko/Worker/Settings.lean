import Lubko.Worker.Types

/-!
# Runtime settings

`Settings` and the checks of `__post_init__`, in the source's order and with its messages. The
timing values are rationals, so `_validate_finite_timing` has nothing left to refuse.
-/

namespace Lubko.Worker

open Lubko.Lib

/-- `Settings`. -/
structure Settings where
  workerId : PyStr
  pollIntervalSeconds : ℚ
  processPollIntervalSeconds : ℚ
  cancelGraceSeconds : ℚ
  server : PyStr
  workerIncarnation : PyStr
  leaseDurationSeconds : ℚ := 30
  leaseRefreshIntervalSeconds : ℚ := 5
  leaseRecoveryIntervalSeconds : ℚ := 10
  outputPublicationIntervalSeconds : ℚ := 1
  healthPublishIntervalSeconds : ℚ := 1
  claimBatchLimit : ℤ := 8
  leaseSafetyMarginSeconds : ℚ := 5
  dbOperationTimeoutSeconds : ℚ := 15
  gcRetentionSeconds : ℚ := 3600
  gcIntervalSeconds : ℚ := 60
  gcBatchLimit : ℤ := 100
  outputSpoolMaxBytes : ℤ := 4 * 1024 * 1024
  spawnDeadlineSeconds : ℚ := 30

/-- `MAX_GC_BATCH_LIMIT`. -/
def MAX_GC_BATCH_LIMIT : ℤ := 100

namespace Settings

/-- `_validate_lease_timing`. -/
def validateLeaseTiming (s : Settings) : Except PyStr Unit := do
  raiseIf (s.leaseDurationSeconds ≤ 0) "LUBKO_LEASE_DURATION_SECONDS must be positive"
  raiseIf (s.leaseRefreshIntervalSeconds ≤ 0)
    "LUBKO_LEASE_REFRESH_INTERVAL_SECONDS must be positive"
  raiseIf (s.leaseRecoveryIntervalSeconds ≤ 0)
    "LUBKO_LEASE_RECOVERY_INTERVAL_SECONDS must be positive"
  raiseIf (s.leaseRefreshIntervalSeconds ≥ s.leaseDurationSeconds)
    ("LUBKO_LEASE_REFRESH_INTERVAL_SECONDS must be smaller than LUBKO_LEASE_DURATION_SECONDS so a " ++
      "healthy worker's lease never expires between heartbeats" : String)
  raiseIf (s.leaseSafetyMarginSeconds < 0 || s.leaseSafetyMarginSeconds ≥ s.leaseDurationSeconds)
    ("LUBKO_LEASE_SAFETY_MARGIN_SECONDS must be non-negative and smaller than " ++
      "LUBKO_LEASE_DURATION_SECONDS" : String)
  raiseIf (s.dbOperationTimeoutSeconds ≥
      s.leaseDurationSeconds - s.leaseSafetyMarginSeconds - s.leaseRefreshIntervalSeconds)
    ("LUBKO_DB_OPERATION_TIMEOUT_SECONDS must be smaller than LUBKO_LEASE_DURATION_SECONDS - " ++
      "LUBKO_LEASE_SAFETY_MARGIN_SECONDS - LUBKO_LEASE_REFRESH_INTERVAL_SECONDS so a hung " ++
      "established database operation can never block past the local lease-safety deadline" : String)

/-- `_validate_output_and_gc`. -/
def validateOutputAndGc (s : Settings) : Except PyStr Unit := do
  raiseIf (s.outputPublicationIntervalSeconds ≤ 0)
    "LUBKO_OUTPUT_PUBLICATION_INTERVAL_SECONDS must be positive"
  raiseIf (s.healthPublishIntervalSeconds ≤ 0)
    "LUBKO_HEALTH_PUBLISH_INTERVAL_SECONDS must be positive"
  raiseIf (s.claimBatchLimit ≤ 0) "LUBKO_CLAIM_BATCH_LIMIT must be positive"
  raiseIf (s.dbOperationTimeoutSeconds ≤ 0) "LUBKO_DB_OPERATION_TIMEOUT_SECONDS must be positive"
  raiseIf (s.gcRetentionSeconds < 0) "LUBKO_GC_RETENTION_SECONDS must be non-negative"
  raiseIf (s.gcIntervalSeconds ≤ 0) "LUBKO_GC_INTERVAL_SECONDS must be positive"
  raiseIf (s.gcBatchLimit ≤ 0) "LUBKO_GC_BATCH_LIMIT must be positive"
  raiseIf (s.gcBatchLimit > MAX_GC_BATCH_LIMIT)
    "LUBKO_GC_BATCH_LIMIT must be <= 100 so GC row-lock cardinality stays constant-bounded"

/-- `_validate_spool`. -/
def validateSpool (s : Settings) : Except PyStr Unit :=
  raiseIf (s.outputSpoolMaxBytes ≤ 0) "LUBKO_OUTPUT_SPOOL_MAX_BYTES must be positive"

/-- `__post_init__`. -/
def postInit (s : Settings) : Except PyStr Unit := do
  raiseIf s.server.isEmpty
    ("a non-empty 'server' setting in the worker configuration file is required; every daemon " ++
      "owns exactly one configured server and refuses to start without it" : String)
  s.validateLeaseTiming
  s.validateOutputAndGc
  s.validateSpool

/-- The defaults for a server named `alpha`. -/
def alpha : Settings where
  workerId := "worker"
  pollIntervalSeconds := 1
  processPollIntervalSeconds := 1 / 10
  cancelGraceSeconds := 5
  server := "alpha"
  workerIncarnation := "token"

theorem alpha_postInit : alpha.postInit = .ok () := by decide +kernel

end Settings

end Lubko.Worker
