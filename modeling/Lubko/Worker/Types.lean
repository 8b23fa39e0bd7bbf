import Lubko.Lib.PyStr
import Lubko.Lib.Uuid
import Mathlib.Data.Rat.Defs
import Mathlib.Algebra.Order.Ring.Rat

/-!
# The worker's records

The data types of `worker.py` that several parts of the model share: the capture state of one
output stream, the active job, the handles of a gated start, and the way a stop is requested.
Monotonic times are exact rationals. Handles of the operating system (`Popen`, descriptors)
are represented by the numbers the code keeps beside them.
-/

namespace Lubko.Worker

open Lubko.Lib

/-- `JobResult.status`: the three statuses the worker finalizes a job with. -/
inductive FinalStatus where
  | succeeded
  | failed
  | cancelled
  deriving DecidableEq

def FinalStatus.text : FinalStatus → PyStr
  | .succeeded => "succeeded"
  | .failed => "failed"
  | .cancelled => "cancelled"

/-- `JobResult`. -/
structure JobResult where
  status : FinalStatus
  exitCode : ℤ
  stdout : PyStr
  stderr : PyStr
  cancellationNote : Option PyStr

/-- `Job`: a claimed job. -/
structure Job where
  id : Uuid
  cwd : PyStr
  process : List PyStr

/-- `OutputStream`: per-stream capture and publication state. `spoolStart` is the logical offset
of the first byte of `data`. -/
structure OutputStream where
  data : List UInt8 := []
  fd : Option ℕ := none
  eof : Bool := false
  pending : List UInt8 := []
  spoolStart : ℕ := 0
  publishedSize : ℕ := 0
  publishedAt : ℚ := 0
  archivedUpto : ℕ := 0
  lastChunk : Option Uuid := none
  sequence : ℕ := 0
  tailText : PyStr := []
  tailStart : ℕ := 0
  tailEnd : ℕ := 0

/-- The `STOP_REASON_*` constants. -/
inductive StopReason where
  | cancel
  | shutdown
  | lease
  | rowLost
  | persist
  | quarantine
  | spool
  deriving DecidableEq

/-- `_stop_note`. -/
def stopNote : StopReason → PyStr
  | .cancel => "cancelled by request: sent SIGTERM to process group"
  | .shutdown => "cancelled: worker shutting down; sent SIGTERM to process group"
  | .lease => "terminated because its lease could not be refreshed during a database outage"
  | .rowLost => ("terminated because its job row was recovered while the daemon was unable to " ++
      "reach the database" : String)
  | .persist => "terminated because its process identity could not be recorded"
  | .spool => ("terminated because its local stdout/stderr capture buffer was unavailable or " ++
      "exceeded the configured safe bound" : String)
  | .quarantine => "stopped"

/-- `ActiveJob`: one running job of the supervisor registry. -/
structure ActiveJob where
  id : Uuid
  cwd : PyStr
  process : List PyStr
  pid : ℕ
  pgid : ℕ
  startedMono : ℚ
  claimedAt : ℚ
  version : ℤ
  stdout : OutputStream := {}
  stderr : OutputStream := {}
  completed : Bool := false
  returncode : Option ℤ := none
  cancelRequested : Bool := false
  termSent : Bool := false
  killSent : Bool := false
  stopStarted : Option ℚ := none
  stopReason : Option StopReason := none
  cancellationNote : Option PyStr := none
  leaseEvicted : Bool := false
  rowLost : Bool := false
  spoolEvicted : Bool := false
  finalized : Bool := false
  quarantined : Bool := false
  quarantinePending : Bool := false
  lastHeartbeatAt : ℚ := 0
  startTicks : ℤ := 0
  ownedMembers : List (ℕ × ℤ) := []

/-- A job just spawned, with this identifier. -/
def ActiveJob.spawned (id : Uuid) : ActiveJob where
  id
  cwd := "/"
  process := ["sleep", "60"]
  pid := 7
  pgid := 7
  startedMono := 20
  claimedAt := 1
  version := 1
  startTicks := 5

/-- `request_stop`: the signal goes out once, and the first reason is kept. -/
def requestStop (now : ℚ) (reason : StopReason) (job : ActiveJob) : ActiveJob :=
  if job.termSent then job
  else { job with
    termSent := true
    stopStarted := some now
    stopReason := some reason
    cancellationNote := some (stopNote reason) }

@[simp] theorem requestStop_id (now : ℚ) (r : StopReason) (job : ActiveJob) :
    (requestStop now r job).id = job.id := by
  unfold requestStop
  split_ifs <;> rfl

@[simp] theorem requestStop_lastHeartbeatAt (now : ℚ) (r : StopReason) (job : ActiveJob) :
    (requestStop now r job).lastHeartbeatAt = job.lastHeartbeatAt := by
  unfold requestStop
  split_ifs <;> rfl

@[simp] theorem requestStop_completed (now : ℚ) (r : StopReason) (job : ActiveJob) :
    (requestStop now r job).completed = job.completed := by
  unfold requestStop
  split_ifs <;> rfl

@[simp] theorem requestStop_rowLost (now : ℚ) (r : StopReason) (job : ActiveJob) :
    (requestStop now r job).rowLost = job.rowLost := by
  unfold requestStop
  split_ifs <;> rfl

@[simp] theorem requestStop_termSent (now : ℚ) (r : StopReason) (job : ActiveJob) :
    (requestStop now r job).termSent = true := by
  unfold requestStop
  split_ifs with h
  · exact h
  · rfl

/-- `GatedSpawn`: handles and exact identity of one gated start. -/
structure GatedSpawn where
  pid : ℕ
  pgid : ℕ
  stdout : OutputStream
  stderr : OutputStream
  gateFd : ℕ
  stdoutReadFd : Option ℕ
  stderrReadFd : Option ℕ

/-- `_StartAttempt`: a claimed job handed to the spawn pool. -/
structure StartAttempt where
  jobId : Uuid
  claimMono : ℚ
  submittedAt : ℚ

/-- The ways a database call ends when it does not return: a `psycopg.Error` that
`_is_connectivity_error` classifies either way, or `DbOperationDeadlineError`, which is a
`TimeoutError` and no `psycopg.Error`. -/
inductive DbError where
  | deterministic
  | connectivity
  | deadline
  deriving DecidableEq

end Lubko.Worker
