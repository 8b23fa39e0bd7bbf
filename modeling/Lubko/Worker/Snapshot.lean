import Lubko.Deploy.Prepare
import Lubko.Lib.Rounding
import Lubko.Worker.Settings

/-!
# Health snapshots on the disk

`_build_health` of `worker.py` makes a snapshot of a worker, `write_worker_health` of `health.py`
writes it to the file of the incarnation, and `_read_health_file` reads such a file.

**Writing.** `to_dict` replaces a number that is not finite; the keys are sorted by `json.dump`.

**Reading.** Every field has a decoder of its own, with its own bounds and defaults, and the decoders
run in the order of the constructor's arguments. `_read_health_file` handles `TypeError`,
`ValueError` and `KeyError` of `from_dict`, and of `json.loads` the `ValueError`.
-/

namespace Lubko.Deploy

open Lubko.Lib

/-! ## Floats -/

/-- `math.isfinite`. -/
def PyFloat.isFinite : PyFloat → Bool
  | .finite _ => true
  | _ => false

/-- `-x`. -/
def PyFloat.neg : PyFloat → PyFloat
  | .finite q => .finite (-q)
  | .infinite negative => .infinite !negative
  | .nan => .nan

/-- `x - y`. -/
def PyFloat.sub (x y : PyFloat) : PyFloat := x.add y.neg

/-- `x < y`. -/
def PyFloat.less : PyFloat → PyFloat → Bool
  | .nan, _ | _, .nan => false
  | .infinite a, .infinite b => a && !b
  | .infinite a, .finite _ => a
  | .finite _, .infinite b => !b
  | .finite p, .finite q => p < q

/-- `x == y`. -/
def PyFloat.same (x y : PyFloat) : Bool := x ≠ .nan && x = y

/-- The float of a literal without a sign. -/
def PyFloat.ofUnsigned : List Char → PyFloat
  | 'N' :: _ => .nan
  | 'I' :: _ => .infinite false
  | t => (roundBinary64 (literalValue t)).elim (.infinite false) .finite

/-- The float `json.loads` makes of a literal. -/
def PyFloat.ofLiteral : List Char → PyFloat
  | '-' :: t => (PyFloat.ofUnsigned t).neg
  | t => PyFloat.ofUnsigned t

end Lubko.Deploy

namespace Lubko.Worker.Snapshot

open Lubko.Lib

open Lubko.Supervise (Fields Joined orNull strictFiniteFloat validIncarnationToken)

open Lubko.Deploy (PyFloat Moment)

/-- What the standard library makes of values: `repr` of a float and of a decoded value, and
`UUID(text)`, where `none` is a `ValueError`. -/
structure Builtins where
  floatRepr : ℚ → List Char
  repr : Json → PyStr
  UUID : PyStr → Option Uuid

/-- A call that returns or raises. -/
abbrev Outcome (α : Type) := Except (PyError Empty) α

/-! ## Snapshots -/

/-- `WORKER_HEALTH_SCHEMA_VERSION`. -/
def WORKER_HEALTH_SCHEMA_VERSION : ℤ := 1

/-- `_LEGACY_RICH_WORKER_HEALTH_SCHEMA_VERSION`. -/
def LEGACY_RICH_WORKER_HEALTH_SCHEMA_VERSION : ℤ := 3

/-- `_READABLE_WORKER_HEALTH_SCHEMA_VERSIONS`. -/
def READABLE_WORKER_HEALTH_SCHEMA_VERSIONS : List ℤ :=
  [WORKER_HEALTH_SCHEMA_VERSION, LEGACY_RICH_WORKER_HEALTH_SCHEMA_VERSION]

/-- `WORKER_HEALTH_OBSERVABILITY_VERSION`. -/
def WORKER_HEALTH_OBSERVABILITY_VERSION : ℤ := 3

/-- `WorkerHealth`. -/
structure WorkerHealth where
  schemaVersion : ℤ
  workerId : PyStr
  workerIncarnation : PyStr
  pid : ℤ
  startTimeTicks : ℤ
  startedAt : PyFloat
  publishedAt : PyFloat
  alive : Bool
  dbConnected : Bool
  dbConnectedAt : Option PyFloat
  dbErrorAt : Option PyFloat
  activeJobs : ℤ
  stoppingJobs : ℤ
  completedJobs : ℤ
  oldestActiveJobAgeSeconds : Option PyFloat
  leaseSafetyMarginSeconds : PyFloat
  minLeaseSafetyRemainingSeconds : Option PyFloat
  dbOperationDeadlineSeconds : PyFloat
  dbLastActivityAt : Option PyFloat
  dbDeadlineBreachedAt : Option PyFloat
  dbDeadlineBreachCount : ℤ
  captureStreamsOpen : ℤ
  spoolHeldBytes : ℤ
  scanBatchLimit : ℤ
  lastScanBatchSize : ℤ
  lastCancellationScanAt : Option PyFloat
  lastRecoveryAt : Option PyFloat
  lastGcAt : Option PyFloat
  cancellationScanOverdue : Bool
  recoveryOverdue : Bool
  gcOverdue : Bool
  gcBatchLimit : ℤ
  gcBatchBoundHit : Bool
  cancellationBatchLimit : ℤ
  cancellationBatchBoundHit : Bool
  recoveryBatchLimit : ℤ
  recoveryBatchBoundHit : Bool
  shuttingDown : Bool
  oldestActiveJobId : Option PyStr := none

/-! ## Writing -/

/-- `_finite_or_zero`. -/
def finiteOrZero (value : PyFloat) : PyFloat := if value.isFinite then value else .finite 0

/-- `_finite_or_none`. -/
def finiteOrNone (value : Option PyFloat) : Option PyFloat := value.filter PyFloat.isFinite

section ToDict

variable (floatRepr : ℚ → List Char)

/-- A float as JSON. -/
def number (x : PyFloat) : Json := .float (x.literal floatRepr)

/-- An optional float as JSON. -/
def optionalNumber (x : Option PyFloat) : Json := orNull (number floatRepr) (finiteOrNone x)

/-- `WorkerHealth.to_dict`. -/
def WorkerHealth.toDict (h : WorkerHealth) : List (PyStr × Json) :=
  [entry "schema_version" (.int h.schemaVersion),
    entry "observability_version" (.int WORKER_HEALTH_OBSERVABILITY_VERSION),
    entry "worker_id" (.str h.workerId), entry "worker_incarnation" (.str h.workerIncarnation),
    entry "pid" (.int h.pid), entry "start_time_ticks" (.int h.startTimeTicks),
    entry "started_at" (number floatRepr (finiteOrZero h.startedAt)),
    entry "published_at" (number floatRepr (finiteOrZero h.publishedAt)),
    entry "alive" (.bool h.alive), entry "db_connected" (.bool h.dbConnected),
    entry "db_connected_at" (optionalNumber floatRepr h.dbConnectedAt),
    entry "db_error_at" (optionalNumber floatRepr h.dbErrorAt),
    entry "active_jobs" (.int h.activeJobs), entry "stopping_jobs" (.int h.stoppingJobs),
    entry "completed_jobs" (.int h.completedJobs),
    entry "oldest_active_job_age_seconds" (optionalNumber floatRepr h.oldestActiveJobAgeSeconds),
    entry "lease_safety_margin_seconds"
      (number floatRepr (finiteOrZero h.leaseSafetyMarginSeconds)),
    entry "min_lease_safety_remaining_seconds"
      (optionalNumber floatRepr h.minLeaseSafetyRemainingSeconds),
    entry "db_operation_deadline_seconds"
      (number floatRepr (finiteOrZero h.dbOperationDeadlineSeconds)),
    entry "db_last_activity_at" (optionalNumber floatRepr h.dbLastActivityAt),
    entry "db_deadline_breached_at" (optionalNumber floatRepr h.dbDeadlineBreachedAt),
    entry "db_deadline_breach_count" (.int h.dbDeadlineBreachCount),
    entry "capture_streams_open" (.int h.captureStreamsOpen),
    entry "spool_held_bytes" (.int h.spoolHeldBytes),
    entry "scan_batch_limit" (.int h.scanBatchLimit),
    entry "last_scan_batch_size" (.int h.lastScanBatchSize),
    entry "last_cancellation_scan_at" (optionalNumber floatRepr h.lastCancellationScanAt),
    entry "last_recovery_at" (optionalNumber floatRepr h.lastRecoveryAt),
    entry "last_gc_at" (optionalNumber floatRepr h.lastGcAt),
    entry "cancellation_scan_overdue" (.bool h.cancellationScanOverdue),
    entry "recovery_overdue" (.bool h.recoveryOverdue), entry "gc_overdue" (.bool h.gcOverdue),
    entry "gc_batch_limit" (.int h.gcBatchLimit),
    entry "gc_batch_bound_hit" (.bool h.gcBatchBoundHit),
    entry "cancellation_batch_limit" (.int h.cancellationBatchLimit),
    entry "cancellation_batch_bound_hit" (.bool h.cancellationBatchBoundHit),
    entry "recovery_batch_limit" (.int h.recoveryBatchLimit),
    entry "recovery_batch_bound_hit" (.bool h.recoveryBatchBoundHit),
    entry "shutting_down" (.bool h.shuttingDown),
    entry "oldest_active_job_id" (orNull .str h.oldestActiveJobId)]

/-- The text `write_worker_health` leaves in the file. -/
def WorkerHealth.fileText (h : WorkerHealth) : List Char :=
  dumps (Json.obj (h.toDict floatRepr)).sortKeys ++ ['\n']

end ToDict

section Functions

variable (b : Builtins)

/-- `validate_incarnation_token`. -/
def validateIncarnationToken (token : PyStr) : Outcome Unit :=
  if token = [] then .error (.valueError "incarnation token must not be empty")
  else if validIncarnationToken token then .ok ()
  else .error (.valueError
    (PyStr.ofString "incarnation token contains unsafe characters: " ++ b.repr (.str token)))

/-- An `OSError`, and whether its `errno` is that of an exhausted storage. -/
structure OsFailure where
  capacity : Bool
  text : PyStr

/-- What the file system answers: to `mkdir` and `mkstemp`, and to the write and the rename. -/
structure Storage where
  create : Option OsFailure
  publish : Option OsFailure

/-- A write that failed: dropped when the storage is exhausted. -/
def OsFailure.dropped (f : OsFailure) : Outcome Bool :=
  if f.capacity then .ok false else .error (.osError f.text)

/-- `write_worker_health`: what it returns, and the file of the incarnation behind it. -/
def writeWorkerHealth (storage : Storage) (health : WorkerHealth) (before : FileBytes) :
    Outcome Bool × FileBytes :=
  match validateIncarnationToken b health.workerIncarnation with
  | .error exc => (.error exc, before)
  | .ok () =>
    match storage.create, storage.publish with
    | some f, _ => (f.dropped, before)
    | none, some f => (f.dropped, before)
    | none, none => (.ok true, .bytes (utf8Encode (health.fileText b.floatRepr)))

/-! ## Field decoders -/

/-- `f"{field} {what}, got {value!r}"`. -/
def gotMessage (field : String) (what : PyStr) (value : Json) : PyStr :=
  PyStr.ofString field ++ PyStr.ofString " " ++ what ++ PyStr.ofString ", got " ++ b.repr value

/-- `must be >= {minimum}`, for an integer. -/
def atLeast (minimum : ℤ) : PyStr :=
  PyStr.ofString "must be >= " ++ (intText minimum).map CodePoint.ofChar

/-- `_required_json_int`. -/
def requiredJsonInt (value : Json) (field : String) (minimum : ℤ) : Outcome ℤ :=
  match value with
  | .int n =>
    if n < minimum then .error (.valueError (gotMessage b field (atLeast minimum) value))
    else .ok n
  | _ => .error (.typeError (gotMessage b field "must be a JSON integer" value))

/-- `_coerce_str`. -/
def coerceStr (value : Json) (field : String) : Outcome PyStr :=
  match value with
  | .null => .ok []
  | .str s => .ok s
  | _ => .error (.typeError (gotMessage b field "must be a string" value))

/-- `_required_nonempty_str`. -/
def requiredNonemptyStr (value : Json) (field : String) : Outcome PyStr :=
  match value with
  | .null => .error (.valueError (PyStr.ofString field ++ PyStr.ofString " is required"))
  | _ => do
    let result ← coerceStr b value field
    if result = [] then
      throw (.valueError (PyStr.ofString field ++ PyStr.ofString " must not be empty"))
    return result

/-- `_optional_uuid_str`. -/
def optionalUuidStr (value : Json) (field : String) : Outcome (Option PyStr) :=
  match value with
  | .null => .ok none
  | _ => do
    let text ← requiredNonemptyStr b value field
    match b.UUID text with
    | some u => return some u.text
    | none => throw (.valueError (gotMessage b field "must be a UUID" value))

/-- `_coerce_incarnation_token`. -/
def coerceIncarnationToken (value : Json) (field : String) : Outcome PyStr := do
  let token ← coerceStr b value field
  validateIncarnationToken b token
  return token

/-- `_coerce_float`. -/
def coerceFloat (value : Json) (field : String) : Outcome (Option PyFloat) :=
  match value with
  | .null => .ok none
  | .int _ =>
    -- `float` raises on an integer beyond the largest float
    match strictFiniteFloat value with
    | some q => .ok (some (.finite q))
    | none => .error .overflowError
  | .float literal => .ok (some (.ofLiteral literal))
  | _ => .error (.typeError (gotMessage b field "must be a number" value))

/-- `_optional_json_int_zero`, with a minimum of zero as all calls have it. -/
def optionalJsonIntZero (value : Json) (field : String) : Outcome ℤ :=
  match value with
  | .null => .ok 0
  | .int n =>
    if n < 0 then .error (.valueError (gotMessage b field (atLeast 0) value)) else .ok n
  | _ => .error (.typeError (gotMessage b field "must be an integer" value))

/-- `_strict_bool`. -/
def strictBool (data : Fields) (field : String) : Outcome Bool :=
  match data field with
  | none => .ok false
  | some (.bool flag) => .ok flag
  | some value => .error (.typeError (gotMessage b field "must be a boolean" value))

/-- `_required_finite_float`. -/
def requiredFiniteFloat (value : Json) (field : String) (minimum minimumExclusive : Option ℚ) :
    Outcome PyFloat :=
  match value with
  | .null => .error (.valueError (PyStr.ofString field ++ PyStr.ofString " is required"))
  | _ => do
    match ← coerceFloat b value field with
    | some (.finite q) =>
      if minimum.any (q < ·) then
        throw (.valueError (gotMessage b field (PyStr.ofString "must be >= " ++
          ((minimum.map b.floatRepr).getD []).map CodePoint.ofChar) value))
      if minimumExclusive.any (q ≤ ·) then
        throw (.valueError (gotMessage b field (PyStr.ofString "must be > " ++
          ((minimumExclusive.map b.floatRepr).getD []).map CodePoint.ofChar) value))
      return .finite q
    | _ => throw (.valueError (gotMessage b field "must be a finite timestamp" value))

/-- `_optional_finite_float`. -/
def optionalFiniteFloat (value : Json) (field : String) (minimum : Option ℚ) :
    Outcome (Option PyFloat) := do
  match ← coerceFloat b value field with
  | none => return none
  | some (.finite q) =>
    if minimum.any (q < ·) then
      throw (.valueError (gotMessage b field (PyStr.ofString "must be >= " ++
        ((minimum.map b.floatRepr).getD []).map CodePoint.ofChar) value))
    return some (.finite q)
  | some _ => throw (.valueError (gotMessage b "timestamp" "must be finite" value))

/-! ## Reading -/

/-- `version == _LEGACY_RICH_WORKER_HEALTH_SCHEMA_VERSION or observability_raw is not None`. -/
def richObservability (version : ℤ) (data : Fields) : Bool :=
  version = LEGACY_RICH_WORKER_HEALTH_SCHEMA_VERSION ||
    match data.get "observability_version" with
    | .null => false
    | _ => true

/-- `data.get(key, default if not rich_observability else None)`. -/
def legacyDefault (rich : Bool) (data : Fields) (key : String) (default : Json) : Json :=
  (data key).getD (if rich then .null else default)

/-- The check of `observability_version`, when it is not null. -/
def checkObservabilityVersion (data : Fields) : Outcome Unit :=
  match data.get "observability_version" with
  | .null => .ok ()
  | raw => do
    let version ← requiredJsonInt b raw "observability_version" 1
    if version ≠ WORKER_HEALTH_OBSERVABILITY_VERSION then
      throw (.valueError (PyStr.ofString "unsupported worker health observability version: " ++
        (intText version).map CodePoint.ofChar))

/-- `WorkerHealth.from_dict`. -/
def WorkerHealth.fromDict (data : Fields) : Outcome WorkerHealth := do
  let schemaVersion ← requiredJsonInt b (data.get "schema_version") "schema_version" 0
  if schemaVersion ∉ READABLE_WORKER_HEALTH_SCHEMA_VERSIONS then
    throw (.valueError (PyStr.ofString "unsupported worker health schema version: " ++
      (intText schemaVersion).map CodePoint.ofChar))
  checkObservabilityVersion b data
  let rich := richObservability schemaVersion data
  let workerId ← requiredNonemptyStr b (data.get "worker_id") "worker_id"
  let workerIncarnation ←
    coerceIncarnationToken b (data.get "worker_incarnation") "worker_incarnation"
  let pid ← requiredJsonInt b (data.get "pid") "pid" 1
  let startTimeTicks ← requiredJsonInt b (data.get "start_time_ticks") "start_time_ticks" 1
  let startedAt ← requiredFiniteFloat b (data.get "started_at") "started_at" (some 0) none
  let publishedAt ← requiredFiniteFloat b (data.get "published_at") "published_at" (some 0) none
  let alive ← strictBool b data "alive"
  let dbConnected ← strictBool b data "db_connected"
  let dbConnectedAt ←
    optionalFiniteFloat b (data.get "db_connected_at") "db_connected_at" (some 0)
  let dbErrorAt ← optionalFiniteFloat b (data.get "db_error_at") "db_error_at" (some 0)
  let activeJobs ← optionalJsonIntZero b (data.get "active_jobs") "active_jobs"
  let stoppingJobs ← optionalJsonIntZero b (data.get "stopping_jobs") "stopping_jobs"
  let completedJobs ← optionalJsonIntZero b (data.get "completed_jobs") "completed_jobs"
  let oldestActiveJobAgeSeconds ← optionalFiniteFloat b (data.get "oldest_active_job_age_seconds")
    "oldest_active_job_age_seconds" (some 0)
  let leaseSafetyMarginSeconds ← requiredFiniteFloat b
    (legacyDefault rich data "lease_safety_margin_seconds" (.float "0.0".toList))
    "lease_safety_margin_seconds" (some 0) none
  let minLeaseSafetyRemainingSeconds ← optionalFiniteFloat b
    (data.get "min_lease_safety_remaining_seconds") "min_lease_safety_remaining_seconds" none
  let dbOperationDeadlineSeconds ← requiredFiniteFloat b
    (legacyDefault rich data "db_operation_deadline_seconds" (.float "1.0".toList))
    "db_operation_deadline_seconds" none (some 0)
  let dbLastActivityAt ←
    optionalFiniteFloat b (data.get "db_last_activity_at") "db_last_activity_at" (some 0)
  let dbDeadlineBreachedAt ←
    optionalFiniteFloat b (data.get "db_deadline_breached_at") "db_deadline_breached_at" (some 0)
  let dbDeadlineBreachCount ←
    optionalJsonIntZero b (data.get "db_deadline_breach_count") "db_deadline_breach_count"
  let captureStreamsOpen ←
    optionalJsonIntZero b (data.get "capture_streams_open") "capture_streams_open"
  let spoolHeldBytes ← optionalJsonIntZero b (data.get "spool_held_bytes") "spool_held_bytes"
  let scanBatchLimit ← requiredJsonInt b (legacyDefault rich data "scan_batch_limit" (.int 1))
    "scan_batch_limit" 1
  let lastScanBatchSize ←
    optionalJsonIntZero b (data.get "last_scan_batch_size") "last_scan_batch_size"
  let lastCancellationScanAt ← optionalFiniteFloat b (data.get "last_cancellation_scan_at")
    "last_cancellation_scan_at" (some 0)
  let lastRecoveryAt ←
    optionalFiniteFloat b (data.get "last_recovery_at") "last_recovery_at" (some 0)
  let lastGcAt ← optionalFiniteFloat b (data.get "last_gc_at") "last_gc_at" (some 0)
  let cancellationScanOverdue ← strictBool b data "cancellation_scan_overdue"
  let recoveryOverdue ← strictBool b data "recovery_overdue"
  let gcOverdue ← strictBool b data "gc_overdue"
  let gcBatchLimit ← requiredJsonInt b (legacyDefault rich data "gc_batch_limit" (.int 1))
    "gc_batch_limit" 1
  let gcBatchBoundHit ← strictBool b data "gc_batch_bound_hit"
  let cancellationBatchLimit ← requiredJsonInt b
    (legacyDefault rich data "cancellation_batch_limit" (.int 1)) "cancellation_batch_limit" 1
  let cancellationBatchBoundHit ← strictBool b data "cancellation_batch_bound_hit"
  let recoveryBatchLimit ← requiredJsonInt b
    (legacyDefault rich data "recovery_batch_limit" (.int 1)) "recovery_batch_limit" 1
  let recoveryBatchBoundHit ← strictBool b data "recovery_batch_bound_hit"
  let shuttingDown ← strictBool b data "shutting_down"
  let oldestActiveJobId ←
    optionalUuidStr b (data.get "oldest_active_job_id") "oldest_active_job_id"
  return { schemaVersion, workerId, workerIncarnation, pid, startTimeTicks, startedAt, publishedAt,
           alive, dbConnected, dbConnectedAt, dbErrorAt, activeJobs, stoppingJobs, completedJobs,
           oldestActiveJobAgeSeconds, leaseSafetyMarginSeconds, minLeaseSafetyRemainingSeconds,
           dbOperationDeadlineSeconds, dbLastActivityAt, dbDeadlineBreachedAt,
           dbDeadlineBreachCount, captureStreamsOpen, spoolHeldBytes, scanBatchLimit,
           lastScanBatchSize, lastCancellationScanAt, lastRecoveryAt, lastGcAt,
           cancellationScanOverdue, recoveryOverdue, gcOverdue, gcBatchLimit, gcBatchBoundHit,
           cancellationBatchLimit, cancellationBatchBoundHit, recoveryBatchLimit,
           recoveryBatchBoundHit, shuttingDown, oldestActiveJobId }

/-- `isinstance(exc, (TypeError, ValueError, KeyError))`. -/
def typeValueOrKeyError (exc : PyError Empty) : Bool :=
  exc.isTypeError || exc.isValueError || exc.isKeyError

/-- `return WorkerHealth.from_dict(data)`, and `None` for the exceptions that are handled. -/
def healthOrNone : Outcome WorkerHealth → Outcome (Option WorkerHealth)
  | .ok h => .ok (some h)
  | .error exc => if typeValueOrKeyError exc then .ok none else .error exc

/-- `_read_health_file`. -/
def readHealthFile (py : Interpreter) : FileBytes → Outcome (Option WorkerHealth) :=
  JsonReader.run
    { missing := fun _ => .ok none
      refused := fun _ => .ok none
      handled := PyError.isValueError
      invalid := .ok none
      accept := fun
        | .obj members => healthOrNone (WorkerHealth.fromDict b (memberOf members))
        | _ => .ok none }
    py utf8

end Functions

/-! ## Building -/

/-- `GC_PASS_TIMEOUT_SECONDS`. -/
def GC_PASS_TIMEOUT_SECONDS : ℚ := 5

/-- `CANCEL_DISCOVERY_LIMIT`. -/
def CANCEL_DISCOVERY_LIMIT : ℤ := 100

/-- `LEASE_RECOVERY_LIMIT`. -/
def LEASE_RECOVERY_LIMIT : ℤ := 100

/-- `_GcSnapshot`. -/
structure GcSnapshot where
  lastGcAt : Option Moment
  nextGcAt : ℚ
  batchBoundHit : Bool

/-- What `_build_health` reads of a `Supervisor` whose settings were accepted. -/
structure Supervisor where
  settings : Settings
  pid : ℕ
  /-- What `proc_start_ticks` returned for it. -/
  procStartTicks : Option ℕ
  connected : Bool
  startedAt : Moment
  dbConnectedAt : Option Moment
  dbErrorAt : Option Moment
  active : List (Uuid × ActiveJob)
  completedCount : ℕ
  lastDbActivityAt : Option Moment
  dbDeadlineBreachedAt : Option Moment
  dbDeadlineBreachCount : ℕ
  lastClaimBatch : ℕ
  lastCancellationScanAt : Option Moment
  lastRecoveryAt : Option Moment
  gcRunner : Option GcSnapshot
  nextCancelScanAt : ℚ
  nextRecoveryAt : ℚ
  cancellationBatchBoundHit : Bool
  recoveryBatchBoundHit : Bool
  accepted : settings.postInit = .ok ()
  /-- The worker id comes from the environment or from the host name. -/
  workerIdText : Joined settings.workerId
  leaseFloat : settings.leaseDurationSeconds ≤ maxFloat
  pid_pos : 0 < pid

/-- The clocks when a snapshot is built. The monotonic one counts nanoseconds in 64 bits, does not go
back, and was read before for every job. -/
structure Supervisor.Instant (s : Supervisor) where
  nowMono : ℚ
  nowWall : Moment
  bounded : nowMono ≤ 2 ^ 63
  claimed : ∀ e ∈ s.active, e.2.claimedAt ≤ nowMono
  heartbeat : ∀ e ∈ s.active, 0 ≤ e.2.lastHeartbeatAt ∧ e.2.lastHeartbeatAt ≤ nowMono

/-- `proc_start_ticks(os.getpid()) or 0`. -/
def Supervisor.startTimeTicks (s : Supervisor) : ℕ := s.procStartTicks.getD 0

/-- `_gc_snapshot`. -/
def Supervisor.gcSnapshot (s : Supervisor) : GcSnapshot := s.gcRunner.getD ⟨none, 0, false⟩

/-- `_scan_schedule_overdue`. -/
def scanScheduleOverdue (nowMono scheduledAt : ℚ)
    (dbOperationTimeoutSeconds processPollIntervalSeconds : ℚ) : Bool :=
  if scheduledAt ≤ 0 then false
  else
    let latenessBudget := PyFloat.rounded (dbOperationTimeoutSeconds + processPollIntervalSeconds)
    ((PyFloat.finite scheduledAt).add latenessBudget).less (.finite nowMono)

/-- The variables of the loop of `_collect_health_aggregates`. -/
structure JobAggregates where
  stopping : ℕ := 0
  oldestAge : Option PyFloat := none
  oldestJobId : Option PyStr := none
  minLeaseSafetyRemaining : Option PyFloat := none
  captureOpen : ℕ := 0
  spoolHeld : ℕ := 0

/-- The oldest job is replaced by an older one, and by one of its age with a smaller text. -/
def JobAggregates.replaces (agg : JobAggregates) (age : PyFloat) (candidateId : PyStr) : Bool :=
  match agg.oldestAge with
  | none => true
  | some oldest => oldest.less age ||
      age.same oldest && agg.oldestJobId.all fun id => PyStr.before candidateId id

/-- The age of a job that was claimed. -/
def JobAggregates.addAge (nowMono : ℚ) (agg : JobAggregates) (jobId : Uuid) (job : ActiveJob) :
    JobAggregates :=
  if 0 < job.claimedAt then
    let age := (PyFloat.finite nowMono).sub (.finite job.claimedAt)
    if agg.replaces age jobId.text then
      { agg with oldestAge := some age, oldestJobId := some jobId.text }
    else agg
  else agg

/-- The lease safety that is left of a job with a live lease. -/
def JobAggregates.addLease (settings : Settings) (nowMono : ℚ) (agg : JobAggregates)
    (job : ActiveJob) : JobAggregates :=
  if !job.completed && !job.termSent && 0 < job.lastHeartbeatAt then
    let remaining := (((PyFloat.finite job.lastHeartbeatAt).add
      (.finite settings.leaseDurationSeconds)).sub (.finite settings.leaseSafetyMarginSeconds)).sub
        (.finite nowMono)
    if agg.minLeaseSafetyRemaining.all fun least => remaining.less least then
      { agg with minLeaseSafetyRemaining := some remaining }
    else agg
  else agg

/-- One stream of a job. -/
def JobAggregates.addStream (agg : JobAggregates) (stream : OutputStream) : JobAggregates :=
  { agg with
    captureOpen := agg.captureOpen + if stream.fd.isSome && !stream.eof then 1 else 0
    spoolHeld := agg.spoolHeld + (stream.data.length + stream.pending.length) }

/-- One turn of the loop. -/
def JobAggregates.addJob (settings : Settings) (nowMono : ℚ) (agg : JobAggregates)
    (e : Uuid × ActiveJob) : JobAggregates :=
  let stopped := e.2.termSent || e.2.killSent || e.2.stopStarted.isSome
  let agg := { agg with stopping := agg.stopping + if stopped then 1 else 0 }
  (((agg.addAge nowMono e.1 e.2).addLease settings nowMono e.2).addStream e.2.stdout).addStream
    e.2.stderr

/-- The loop of `_collect_health_aggregates`. -/
def Supervisor.jobAggregates (s : Supervisor) (nowMono : ℚ) : JobAggregates :=
  s.active.foldl (JobAggregates.addJob s.settings nowMono) {}

/-- `_build_health`. -/
def Supervisor.buildHealth (s : Supervisor) (now : s.Instant) (alive shuttingDown : Bool) :
    WorkerHealth :=
  let agg := s.jobAggregates now.nowMono
  let wall (x : Option Moment) : Option PyFloat := x.map fun m : Moment => .finite m
  let overdue (scheduledAt timeout : ℚ) : Bool := scanScheduleOverdue now.nowMono scheduledAt timeout
    s.settings.processPollIntervalSeconds
  { schemaVersion := WORKER_HEALTH_SCHEMA_VERSION
    workerId := s.settings.workerId
    workerIncarnation := s.settings.workerIncarnation
    pid := s.pid
    startTimeTicks := s.startTimeTicks
    startedAt := .finite s.startedAt
    publishedAt := .finite now.nowWall
    alive
    dbConnected := s.connected
    dbConnectedAt := wall s.dbConnectedAt
    dbErrorAt := wall s.dbErrorAt
    activeJobs := s.active.length
    stoppingJobs := agg.stopping
    completedJobs := s.completedCount
    oldestActiveJobAgeSeconds := agg.oldestAge
    leaseSafetyMarginSeconds := .finite s.settings.leaseSafetyMarginSeconds
    minLeaseSafetyRemainingSeconds := agg.minLeaseSafetyRemaining
    dbOperationDeadlineSeconds := .finite s.settings.dbOperationTimeoutSeconds
    dbLastActivityAt := wall s.lastDbActivityAt
    dbDeadlineBreachedAt := wall s.dbDeadlineBreachedAt
    dbDeadlineBreachCount := s.dbDeadlineBreachCount
    captureStreamsOpen := agg.captureOpen
    spoolHeldBytes := agg.spoolHeld
    scanBatchLimit := s.settings.claimBatchLimit
    lastScanBatchSize := s.lastClaimBatch
    lastCancellationScanAt := wall s.lastCancellationScanAt
    lastRecoveryAt := wall s.lastRecoveryAt
    lastGcAt := wall s.gcSnapshot.lastGcAt
    cancellationScanOverdue :=
      overdue s.nextCancelScanAt s.settings.dbOperationTimeoutSeconds
    recoveryOverdue := overdue s.nextRecoveryAt s.settings.dbOperationTimeoutSeconds
    gcOverdue := overdue s.gcSnapshot.nextGcAt GC_PASS_TIMEOUT_SECONDS
    gcBatchLimit := s.settings.gcBatchLimit
    gcBatchBoundHit := s.gcSnapshot.batchBoundHit
    cancellationBatchLimit := CANCEL_DISCOVERY_LIMIT
    cancellationBatchBoundHit := s.cancellationBatchBoundHit
    recoveryBatchLimit := LEASE_RECOVERY_LIMIT
    recoveryBatchBoundHit := s.recoveryBatchBoundHit
    shuttingDown
    oldestActiveJobId := agg.oldestJobId }

end Lubko.Worker.Snapshot
