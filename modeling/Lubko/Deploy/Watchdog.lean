import Lubko.Deploy.Terminal
import Lubko.Lib.CrashProgram

/-!
# The rollback watchdog

A forked process polls the mission and rolls it back when it is due. Only the read of the mission is
guarded in the loop, and a rollback attempt swallows two classes of exceptions; any other exception
ends the process.

The code is a program over calls. Each call returns any value or raises any exception. A ledger
notes on the side whether anything was read or written that entitles the watchdog to stop, and
whether the last exception raised is one that no handler around its call names.

* `watchdogMain`, `forkWatchdog` — the loop and the process.
* `watchdog_settles_iff` — the process ends with the mission settled exactly when no such exception
  escapes.
* `refused_connection_abandons` — one that does.
-/

namespace Lubko.Deploy.Watchdog

open Lubko.Lib Lubko.Supervise Lubko.Lifecycle

/-! ## Calls -/

/-- The classes of exceptions that some handler names, and those the calls raise besides. -/
inductive Exc where
  | deployCtlError
  | lockTimeoutError
  | generationLockTimeoutError
  | desiredIntentError
  | workerMetadataError
  | durabilityError
  | connectionRefusedError
  | osError
  | runtimeError
  | typeError
  | valueError
  deriving DecidableEq

inductive Call where
  /-- `_read_state`. -/
  | readState
  | time
  | sleep
  | workerAlive (worker : WorkerMeta)
  | supervisorRunning
  | readStateClient
  | readDesiredClient
  | readStatus
  | childAlive (child : WorkerChild)
  | enterDeployLock
  | leaveDeployLock
  | enterGenerationLock
  | leaveGenerationLock
  | failpoint (name : String)
  /-- `read_rollback_state`, for the facts of the authority gate. -/
  | readRollbackState
  /-- `socket.gethostname`, where the environment names no worker. -/
  | hostname
  | requestRunClient (commit repo uvPath workerId : PyStr)
  | waitForGeneration (generation : ℤ)
  | waitUntilReady (generation : ℤ) (commit : PyStr)
  | writeState (mission : RollbackState)
  | stopWorker (worker : WorkerMeta) (grace : PyFloat)
  | checkout (repo commit : PyStr) (timeout : PyFloat)
  | readMetaStrict
  | writeMeta (worker : WorkerMeta)
  | waitForReleasedWorker (worker : WorkerMeta)
  | checkPostgres
  | spawnGatedPreviousWorker (mission : RollbackState) (previous : WorkerMeta)
  | releaseGate (worker : WorkerMeta)
  | abortGatedCandidate (worker : WorkerMeta)
  | restoreCliAndStartupArtifacts (commit previousCommit : PyStr)
  | cleanupRollbackEvidence (snapshotWasRestored : Bool)

/-- What a call returns; each call reads its own field. -/
structure Value where
  flag : Bool := true
  time : ℚ := 0
  generation : ℤ := 0
  text : PyStr := []
  mission : Option RollbackState := none
  worker : Option WorkerMeta := none
  state : SupervisorState := freshState
  desired : Option SupervisorDesired := none
  status : Option SupervisorStatus := none
  snapshotRestored : Bool := false

inductive Reply where
  | raised (e : Exc)
  | returned (v : Value)

/-- Code of `deployctl.py`. -/
abbrev Code := Prog Call Reply Exc

def perform (c : Call) : Code Value :=
  .call c fun
    | .raised e => .raise e
    | .returned v => .ret v

/-! ## Handlers and locks -/

/-- `except caught`, with what is done then. -/
def handle {α : Type} (caught : List Exc) (body handler : Code α) : Code α :=
  tryCatch body fun e => if e ∈ caught then handler else throw e

/-- `except caught as exc: raise DeployCtlError(msg) from exc`. -/
def asDeployCtlError {α : Type} (caught : Exc) (body : Code α) : Code α :=
  handle [caught] body (throw .deployCtlError)

/-- `with lock():`, which lets go of the lock however the body ends. -/
def withLock {α : Type} (enter leave : Call) (body : Code α) : Code α := do
  let _ ← perform enter
  let result ← tryCatch body fun e => do
    let _ ← perform leave
    throw e
  let _ ← perform leave
  return result

/-! ## Deadlines -/

/-- `time.time() >= deadline`. -/
def reached (now : ℚ) : PyFloat → Bool
  | .finite deadline => decide (deadline ≤ now)
  | .infinite negative => negative
  | .nan => false

/-- `time.time() < deadline`. -/
def before (now : ℚ) : PyFloat → Bool
  | .finite deadline => decide (now < deadline)
  | .infinite negative => !negative
  | .nan => false

/-! ## The rollback decision -/

/-- `_supervised_mission_active`. -/
def supervisedMissionActive (m : RollbackState) : Code Bool := do
  let state := (← perform .readStateClient).state
  match state.child with
  | some child =>
    if state.commit = some m.commit then
      if (← perform (.childAlive child)).flag then
        return decide (m.generation ≤ state.appliedGeneration)
      else return false
    else return false
  | none => return false

/-- `_supervised_confirmation_authority_matches`. -/
def supervisedConfirmationAuthorityMatches (m : RollbackState)
    (desired : Option SupervisorDesired) (status : Option SupervisorStatus) : Bool :=
  match desired, status with
  | some desired, some status =>
    if status.commit ≠ some m.commit then false
    else if desired.generation < m.generation then
      decide (status.appliedGeneration = m.generation)
    else
      decide (desired.commit = m.commit) && decide (m.generation ≤ status.appliedGeneration) &&
        decide (status.appliedGeneration ≤ desired.generation)
  | _, _ => false

/-- `_supervised_mission_authoritative`. -/
def supervisedMissionAuthoritative (m : RollbackState) : Code Bool := do
  let state := (← perform .readStateClient).state
  let desired ← handle [.desiredIntentError]
    (do return some (← perform .readDesiredClient).desired) (return none)
  match desired with
  | none => return false
  | some desired =>
    let status := (← perform .readStatus).status
    return match status with
      | none => false
      | some seen =>
        decide (state.commit = seen.commit) &&
          decide (state.appliedGeneration = seen.appliedGeneration) &&
            supervisedConfirmationAuthorityMatches m desired status

/-- The decision about a mission of the legacy lifecycle: it has no candidate, its deadline has
passed, or its candidate is dead. -/
def legacyRollbackDue (m : RollbackState) : Code Bool := do
  match m.newMeta with
  | none => return true
  | some candidate =>
    if reached (← perform .time).time m.deadline then return true
    else return !(← perform (.workerAlive candidate)).flag

/-- `_pending_mission_rollback_due`. -/
def pendingMissionRollbackDue (m : RollbackState) : Code Bool := do
  if m.supervisorOwned = some false then legacyRollbackDue m
  else if !(← perform .supervisorRunning).flag then return true
  else if !(← supervisedMissionAuthoritative m) then return true
  else if before (← perform .time).time m.deadline then return false
  else
    match (← perform .readStatus).status with
    | none => return true
    | some status =>
      if status.commit ≠ some m.commit ∨ status.appliedGeneration < m.generation ∨
          status.ready ≠ some true ∨ status.holding = true then return true
      else return !(← supervisedMissionActive m)

/-! ## Settlement -/

/-- The worker id of a run request: `LUBKO_WORKER_ID`, or the host name. -/
def workerId (environment : Option PyStr) : Code PyStr := do
  match environment with
  | some id => if id = [] then return (← perform .hostname).text else return id
  | none => return (← perform .hostname).text

/-- `settle_desired`. -/
def settleDesired (environment : Option PyStr) (commit repo uvPath : PyStr) : Code ℤ := do
  let worker ← workerId environment
  let desired ← asDeployCtlError .desiredIntentError do
    return (← perform .readDesiredClient).desired
  let request := asDeployCtlError .generationLockTimeoutError do
    return (← perform (.requestRunClient commit repo uvPath worker)).generation
  let generation ← match desired with
    | some desired => if desired.commit = commit then pure desired.generation else request
    | none => request
  let _ ← perform (.failpoint "mission_confirm")
  if !(← perform (.waitForGeneration generation)).flag then throw .deployCtlError
  else if !(← perform (.waitUntilReady generation commit)).flag then throw .deployCtlError
  else return generation

/-! ## Supervised rollback -/

/-- `_supervised_terminalization_authority_matches`: the supervisor state is read, and the child
looked at, only where nothing else fails. -/
def terminalizationAuthorityMatches (commit : PyStr) (generation : ℤ)
    (desired : Option SupervisorDesired) (status : Option SupervisorStatus) : Code Bool := do
  match desired, status with
  | some intent, some seen =>
    match seen.child with
    | some child =>
      if intent.commit = commit ∧ intent.generation = generation ∧ seen.commit = some commit ∧
          seen.appliedGeneration = generation ∧ seen.ready = some true ∧ seen.holding = false then
        let state := (← perform .readStateClient).state
        if supervisedTerminalizationAuthorityMatches commit generation desired status state true
        then return (← perform (.childAlive child)).flag
        else return false
      else return false
    | none => return false
  | _, _ => return false

/-- `_rollback_locked_body`. -/
def rollbackLockedBody (m : RollbackState) (generation : ℤ) : Code Unit := do
  let desired ← asDeployCtlError .desiredIntentError do
    return (← perform .readDesiredClient).desired
  let status := (← perform .readStatus).status
  if ← terminalizationAuthorityMatches m.previousCommit generation desired status then return ()
  else throw .deployCtlError

/-- The check of `_finalize_supervised_rollback`, made twice. -/
def checkAuthority (m : RollbackState) (generation : ℤ) : Code Unit :=
  asDeployCtlError .generationLockTimeoutError
    (withLock .enterGenerationLock .leaveGenerationLock (rollbackLockedBody m generation))

/-- `_finalize_supervised_rollback`. -/
def finalizeSupervisedRollback (m : RollbackState) (generation : ℤ) : Code Unit := do
  checkAuthority m generation
  let restored ← perform (.restoreCliAndStartupArtifacts m.commit m.previousCommit)
  if restored.flag then
    checkAuthority m generation
    let _ ← perform (.writeState { m with status := .rolledBack })
    let _ ← perform (.cleanupRollbackEvidence restored.snapshotRestored)
  else throw .deployCtlError

/-! ## Legacy rollback -/

/-- `_retire_candidate_locked`. -/
def retireCandidateLocked (m : RollbackState) : Code Bool := do
  match m.newMeta with
  | none => return false
  | some candidate =>
    if (← perform (.stopWorker candidate m.stopGraceSeconds)).flag then
      return !(← perform (.workerAlive candidate)).flag
    else return false

/-- `_durable_previous_worker`: none where the metadata decides nothing. -/
def durablePreviousWorker (m : RollbackState) : Code (Option (Option WorkerMeta)) := do
  let read ← handle [.workerMetadataError]
    (do return some (← perform .readMetaStrict).worker) (return none)
  match read with
  | none => return some none
  | some none => return none
  | some (some current) =>
    if !(← perform (.workerAlive current)).flag then return none
    else if current.state ≠ .running ∨ current.repo ≠ m.repo ∨
        current.gitCommit ≠ some m.previousCommit then return some none
    else
      let previous := m.previousMeta
      if m.previousRetiring = true ∧ current.pid = previous.pid ∧ current.pgid = previous.pgid ∧
          current.sid = previous.sid ∧ current.startTimeTicks = previous.startTimeTicks ∧
            current.token = previous.token then return none
      else return some (some current)

/-- `_clear_previous_restart_obligation`. -/
def clearPreviousRestartObligation (m : RollbackState) : Code Unit := do
  let _ ← perform (.writeState
    { m with previousRestartMeta := none, previousRestartReleased := false })

/-- Whether a worker is still alive after it was stopped, or could not be stopped. -/
def survives (m : RollbackState) (worker : WorkerMeta) : Code Bool := do
  if (← perform (.stopWorker worker m.stopGraceSeconds)).flag then
    return (← perform (.workerAlive worker)).flag
  else return true

/-- `_recover_previous_restart`: none where there is nothing to recover. -/
def recoverPreviousRestart (m : RollbackState) : Code (Option (Option WorkerMeta)) := do
  match m.previousRestartMeta with
  | none => return none
  | some restarted =>
    if m.previousRestartReleased = false then
      let alive := (← perform (.workerAlive restarted)).flag
      let unconverged ← if alive then survives m restarted else pure false
      if unconverged then return some none
      else
        clearPreviousRestartObligation m
        return none
    else
      let alive := (← perform (.workerAlive restarted)).flag
      if alive then
        let stable := (← perform (.waitForReleasedWorker restarted)).flag
        let healthy ← if stable then pure (← perform .checkPostgres).flag else pure false
        if healthy then return some (some restarted)
        else if ← survives m restarted then return some none
        else
          clearPreviousRestartObligation m
          return none
      else
        clearPreviousRestartObligation m
        return none

/-- A durable write that aborts the gated worker where it is not durable. -/
def writeOrAbort (gated : WorkerMeta) (m : RollbackState) : Code Unit :=
  handle [.durabilityError] (do let _ ← perform (.writeState m)) do
    let _ ← perform (.abortGatedCandidate gated)
    throw .durabilityError

/-- `_spawn_previous_worker`. -/
def spawnPreviousWorker (m : RollbackState) (previous : WorkerMeta) :
    Code (Option WorkerMeta) := do
  match (← perform (.spawnGatedPreviousWorker m previous)).worker with
  | none => return none
  | some gated =>
    let prepared :=
      { m with previousRestartMeta := some gated, previousRestartReleased := false }
    writeOrAbort gated prepared
    let released ← handle [.deployCtlError]
      (do let _ ← perform (.releaseGate gated); return true)
      (do
        let _ ← perform (.abortGatedCandidate gated)
        clearPreviousRestartObligation prepared
        return false)
    if released then
      let released := { prepared with previousRestartReleased := true }
      writeOrAbort gated released
      let stable := (← perform (.waitForReleasedWorker gated)).flag
      let healthy ← if stable then pure (← perform .checkPostgres).flag else pure false
      if healthy then return some gated
      else
        let _ ← perform (.abortGatedCandidate gated)
        clearPreviousRestartObligation released
        return none
    else return none

/-- `_restart_previous`. -/
def restartPrevious (m : RollbackState) : Code (Option WorkerMeta) := do
  match ← durablePreviousWorker m with
  | some current => return current
  | none =>
    match ← recoverPreviousRestart m with
    | some restarted => return restarted
    | none =>
      let previous := m.previousMeta
      let reusable ← if m.previousRetiring then pure false
        else pure (← perform (.workerAlive previous)).flag
      if reusable then return some previous
      else
        let alive := (← perform (.workerAlive previous)).flag
        let stopped ← if alive then
            pure (← perform (.stopWorker previous m.stopGraceSeconds)).flag
          else pure true
        if stopped then spawnPreviousWorker m previous else return none

/-- `_restore_previous_locked`. -/
def restorePreviousLocked (m : RollbackState) : Code (Bool × Bool) := do
  if (← perform (.checkout m.repo m.previousCommit m.gitTimeoutSeconds)).flag then
    match ← restartPrevious m with
    | none => return (false, false)
    | some restored =>
      let _ ← perform (.writeMeta restored)
      let artifacts ← perform (.restoreCliAndStartupArtifacts m.commit m.previousCommit)
      return (artifacts.flag, artifacts.snapshotRestored)
  else return (false, false)

/-- `_rollback_legacy_locked`. -/
def rollbackLegacyLocked (m : RollbackState) : Code Bool := do
  if ← retireCandidateLocked m then
    let (success, snapshotRestored) ← restorePreviousLocked m
    if success then
      let _ ← perform (.writeState
        { m with
          status := .rolledBack
          previousRestartMeta := none
          previousRestartReleased := false })
      let _ ← perform (.cleanupRollbackEvidence snapshotRestored)
      return true
    else return false
  else return false

/-! ## The watchdog -/

/-- `authorize_mission_rollback`, on the facts of `_mission_authority_facts`. -/
def authorizeMissionRollback (status : MissionStatus) : Code Bool := do
  let malformed ← handle [.deployCtlError]
    (do let _ ← perform .readRollbackState; return false) (return true)
  return !malformed && (decide (status = .rolledBack) || decide (status = .pending))

/-- `_rollback_locked`. -/
def rollbackLocked (environment : Option PyStr) (m : RollbackState) : Code Bool := do
  if m.status ≠ .pending then return true
  else
    let _ ← perform (.failpoint "mission_rollback")
    if ← authorizeMissionRollback m.status then
      match m.supervisorOwned with
      | none => return false
      | some false => rollbackLegacyLocked m
      | some true =>
        if (← perform .supervisorRunning).flag then
          let settled ← handle [.deployCtlError]
            (do return some (← settleDesired environment m.previousCommit m.repo m.uvPath))
            (return none)
          match settled with
          | none => return false
          | some generation =>
            handle [.deployCtlError]
              (do finalizeSupervisedRollback m generation; return true) (return false)
        else return false
    else return false

/-- `_watchdog_rollback_attempt`. -/
def watchdogRollbackAttempt (environment : Option PyStr) : Code Bool :=
  handle [.deployCtlError, .lockTimeoutError]
    (withLock .enterDeployLock .leaveDeployLock do
      match (← perform .readState).mission with
      | some current =>
        if current.status = .pending then rollbackLocked environment current else return false
      | none => return false)
    (return false)

/-- One turn of the loop of `_watchdog_main`: whether it returns. -/
def watchdogTurn (environment : Option PyStr) : Code Bool := do
  let read ← handle [.deployCtlError]
    (do return some (← perform .readState).mission) (return none)
  match read with
  | none => do
    let _ ← perform .sleep
    return false
  | some none => return true
  | some (some m) =>
    if m.status ≠ .pending then return true
    else
      let shouldRollback ←
        if m.supervisorOwned = some false then legacyRollbackDue m
        else do
          let running := (← perform .supervisorRunning).flag
          if running then pendingMissionRollbackDue m else pure false
      let finished ← if shouldRollback then watchdogRollbackAttempt environment else pure false
      if finished then return true
      else
        let _ ← perform .sleep
        return false

/-- So many turns of `_watchdog_main`: whether it has returned by then. -/
def watchdogMain (environment : Option PyStr) : ℕ → Code Bool
  | 0 => return false
  | turns + 1 => do
    if ← watchdogTurn environment then return true else watchdogMain environment turns

/-- The child of `_fork_watchdog`, in so many turns: whether it has exited by then. It exits in a
`finally`, whatever the loop raises. -/
def forkWatchdog (environment : Option PyStr) (turns : ℕ) : Code Bool :=
  tryCatch (watchdogMain environment turns) fun _ => return true

/-! ## The ledger -/

/-- Where the process is: in the loop, under the deployment lock, or under both locks. -/
inductive Place where
  | loop
  | deployment
  | generation
  deriving DecidableEq

/-- What the handlers around every call of a place name. -/
def Place.caught : Place → List Exc
  | .loop => []
  | .deployment => [.deployCtlError, .lockTimeoutError]
  | .generation => [.deployCtlError, .lockTimeoutError, .generationLockTimeoutError]

/-- What the handler around a call itself names. -/
def Call.near : Call → List Exc
  | .readState | .readRollbackState => [.deployCtlError]
  | .readDesiredClient => [.desiredIntentError]
  | .readMetaStrict => [.workerMetadataError]
  | .requestRunClient .. | .enterGenerationLock => [.generationLockTimeoutError]
  | .enterDeployLock => [.deployCtlError, .lockTimeoutError]
  | _ => []

/-- No handler around a call of this place names the exception. -/
def Place.escapes (p : Place) (near : List Exc) (e : Exc) : Bool :=
  decide (e ∉ p.caught ∧ e ∉ near)

/-- Where a call of a lock leads. -/
def Call.moves : Call → Option Place
  | .enterDeployLock | .leaveGenerationLock => some .deployment
  | .enterGenerationLock => some .generation
  | .leaveDeployLock => some .loop
  | _ => none

/-- A lock that is let go is let go of even where that raises. -/
def Call.leaves : Call → Bool
  | .leaveDeployLock | .leaveGenerationLock => true
  | _ => false

/-- The mission was read as absent or terminal, or was made terminal. -/
def Call.settles (v : Value) : Call → Bool
  | .readState =>
    match v.mission with
    | none => true
    | some m => decide (m.status ≠ .pending)
  | .writeState m => decide (m.status ≠ .pending)
  | _ => false

structure Ledger where
  place : Place
  settled : Bool
  /-- The last exception escapes, and the mission was not settled before. -/
  abandoned : Bool
  deriving DecidableEq

/-- The outcome of a call is any reply. -/
def sem (c : Call) (r : Reply) (l : Ledger) : Reply × Ledger :=
  match r with
  | .raised e =>
    (r, { l with
      place := if c.leaves then c.moves.getD l.place else l.place
      abandoned := !l.settled && l.place.escapes c.near e })
  | .returned v =>
    (r, { l with place := c.moves.getD l.place, settled := l.settled || c.settles v })

/-- The process after it has detached. -/
def start : Ledger where
  place := .loop
  settled := false
  abandoned := false

/-! ## Rules -/

/-- The mission was settled before anything escaped. -/
def Done (l : Ledger) : Prop := l.settled = true ∧ l.abandoned = false

/-- The process is at a place, with nothing settled. -/
def At (p : Place) (abandoned : Bool) (l : Ledger) : Prop :=
  l.place = p ∧ l.settled = false ∧ l.abandoned = abandoned

/-- A state between calls. -/
def Going (p : Place) (l : Ledger) : Prop := Done l ∨ At p false l

/-- A state in which an exception is raised. -/
def Raising (p : Place) (near : List Exc) (e : Exc) (l : Ledger) : Prop :=
  Done l ∨ At p (p.escapes near e) l

/-- Code that runs at a place. Its exceptions are those the handlers name and those that escape,
noted as such, and a result in `T` means that it is done. -/
def Watched {α : Type} (p : Place) (near : List Exc) (T : α → Prop) (code : Code α) : Prop :=
  ∀ l, Going p l →
    code.Safe sem (fun _ => True) (fun a l => Going p l ∧ (T a → Done l)) (Raising p near) l

variable {α β : Type} {p q : Place} {near : List Exc} {c : Call} {l : Ledger} {b : Bool}
  {T : α → Prop} {code : Code α}

theorem escapes_eq_false_iff {e : Exc} : p.escapes near e = false ↔ e ∈ p.caught ∨ e ∈ near := by
  rw [Place.escapes, decide_eq_false_iff_not, not_and_or, not_not, not_not]

theorem Done.sem (h : Done l) (c : Call) (r : Reply) : Done (Watchdog.sem c r l).2 := by
  obtain ⟨hsettled, habandoned⟩ := h
  cases r with
  | raised e =>
    refine ⟨hsettled, ?_⟩
    show (!l.settled && _) = false
    rw [hsettled]
    rfl
  | returned v =>
    refine ⟨?_, habandoned⟩
    show (l.settled || _) = true
    rw [hsettled]
    rfl

/-- Once it is done, all code keeps it so. -/
theorem Done.safe (h : Done l) (code : Code α) :
    code.Safe Watchdog.sem (fun _ => True) (fun _ => Done) (fun _ => Done) l := by
  induction code generalizing l with
  | ret a => exact h
  | raise e => exact h
  | call c k ih => exact ⟨trivial, fun r => ih _ (h.sem c r)⟩

theorem Done.watched (h : Done l) (code : Code α) :
    code.Safe Watchdog.sem (fun _ => True) (fun a l => Going p l ∧ (T a → Done l))
      (Raising p near) l :=
  (h.safe code).mono (fun _ _ hl => ⟨.inl hl, fun _ => hl⟩) fun _ _ => Or.inl

theorem At.not_done (h : At p b l) : ¬ Done l := by
  intro hdone
  have hsettled := h.2.1
  rw [hdone.1] at hsettled
  cases hsettled

theorem At.raised (h : At p b l) (hc : c.leaves = false) (e : Exc) :
    At p (p.escapes c.near e) (sem c (.raised e) l).2 := by
  obtain ⟨rfl, hsettled, -⟩ := h
  refine ⟨?_, hsettled, ?_⟩
  · show (if c.leaves then _ else _) = _
    rw [hc]
    rfl
  · show (!l.settled && _) = _
    rw [hsettled]
    rfl

theorem At.returned (h : At p b l) {v : Value} (hc : c.settles v = false) :
    At (c.moves.getD p) b (sem c (.returned v) l).2 := by
  obtain ⟨rfl, hsettled, habandoned⟩ := h
  refine ⟨rfl, ?_, habandoned⟩
  show (l.settled || c.settles v) = false
  rw [hsettled, hc]
  rfl

/-- A lock is let go of. -/
theorem At.left (h : At q b l) (hc : c.leaves = true ∧ c.moves = some p) (e : Exc) :
    At p (q.escapes c.near e) (sem c (.raised e) l).2 := by
  obtain ⟨rfl, hsettled, -⟩ := h
  refine ⟨?_, hsettled, ?_⟩
  · show (if c.leaves then c.moves.getD l.place else _) = _
    rw [hc.1, hc.2]
    rfl
  · show (!l.settled && _) = _
    rw [hsettled]
    rfl

theorem Call.leaves_of_moves (h : c.moves = none) : c.leaves = false := by
  cases c with
  | leaveDeployLock | leaveGenerationLock => cases h
  | _ => rfl

/-- A call, but of a lock. -/
theorem watched_perform (h : c.moves = none) :
    Watched p c.near (fun v => c.settles v = true) (perform c) := by
  rintro l (hl | hl)
  · exact hl.watched _
  refine ⟨trivial, fun r => ?_⟩
  cases r with
  | raised e => exact .inr (hl.raised (Call.leaves_of_moves h) e)
  | returned v =>
    cases hv : c.settles v with
    | true =>
      have hdone : Done (sem c (.returned v) l).2 := by
        refine ⟨?_, hl.2.2⟩
        show (l.settled || c.settles v) = true
        rw [hv, Bool.or_true]
      exact ⟨.inl hdone, fun _ => hdone⟩
    | false =>
      have hat := hl.returned hv
      rw [h, Option.getD_none] at hat
      exact ⟨.inr hat, fun hno => Bool.noConfusion (hv.symm.trans hno)⟩

/-- A call around which nothing is caught. -/
theorem watched_call (h : c.moves = none) (hnear : c.near = []) :
    Watched p [] (fun v => c.settles v = true) (perform c) := by
  have hcall := watched_perform (p := p) h
  rwa [hnear] at hcall

theorem watched_ret {a : α} (h : ¬ T a) : Watched p near T (pure a) :=
  fun _ hl => ⟨hl, fun ha => absurd ha h⟩

theorem watched_throw {e : Exc} (h : e ∈ p.caught) : Watched p near T (throw e) := by
  rintro l (hl | hl)
  · exact .inl hl
  · have hcaught : p.escapes near e = false := escapes_eq_false_iff.2 (.inl h)
    refine .inr ?_
    rw [hcaught]
    exact hl

theorem Watched.mono {T' : α → Prop} (h : Watched p near T code) (hT : ∀ a, T' a → T a) :
    Watched p near T' code := fun l hl =>
  (h l hl).mono (fun a _ ha => ⟨ha.1, fun ha' => ha.2 (hT a ha')⟩) fun _ _ he => he

/-- Where a result means that it is done, what follows may be any code. -/
theorem Watched.bind {T' : β → Prop} {f : α → Code β} (h : Watched p near T code)
    (hf : ∀ a, T a ∨ Watched p near T' (f a)) : Watched p near T' (code >>= f) := by
  refine fun l hl => Prog.Safe.bind ((h l hl).mono (fun a l ha => ?_) fun _ _ he => he)
  rcases hf a with hT | hf
  · exact (ha.2 hT).watched _
  · exact hf l ha.1

theorem Watched.then {T' : β → Prop} {f : α → Code β} (h : Watched p near T code)
    (hf : ∀ a, Watched p near T' (f a)) : Watched p near T' (code >>= f) :=
  h.bind fun a => .inr (hf a)

/-- A handler that names all that is caught around its body. -/
theorem Watched.handle {caught : List Exc} {handler : Code α} (h : Watched p near T code)
    (hhandler : Watched p [] T handler) (hnear : ∀ e ∈ near, e ∈ caught)
    (hcaught : ∀ e ∈ caught, e ∈ p.caught ∨ e ∈ near) :
    Watched p [] T (handle caught code handler) := by
  refine fun l hl => Prog.Safe.tryCatch ((h l hl).mono (fun _ _ ha => ha) fun e l hl => ?_)
  by_cases he : e ∈ caught
  · rw [if_pos he]
    have hgoing : Going p l := by
      rcases hl with hl | hl
      · exact .inl hl
      · rw [escapes_eq_false_iff.2 (hcaught e he)] at hl
        exact .inr hl
    exact hhandler l hgoing
  · rw [if_neg he]
    have hsame : p.escapes [] e = p.escapes near e := by
      rw [Place.escapes, Place.escapes, decide_eq_decide]
      exact ⟨fun hout => ⟨hout.1, fun hin => he (hnear e hin)⟩,
        fun hout => ⟨hout.1, List.not_mem_nil⟩⟩
    show Raising p [] e l
    rw [Raising, hsame]
    exact hl

/-- A handler of what is caught at the place anyway. -/
theorem Watched.guarded {caught : List Exc} {handler : Code α} (h : Watched p [] T code)
    (hhandler : Watched p [] T handler) (hcaught : ∀ e ∈ caught, e ∈ p.caught) :
    Watched p [] T (Watchdog.handle caught code handler) :=
  h.handle hhandler (fun _ he => absurd he List.not_mem_nil) fun e he => .inl (hcaught e he)

/-- What is caught around a call may be caught at the place anyway. -/
theorem Watched.absorb (h : Watched p near T code) (hnear : ∀ e ∈ near, e ∈ p.caught) :
    Watched p [] T code := by
  refine fun l hl => (h l hl).mono (fun _ _ ha => ha) fun e l he => ?_
  have hsame : p.escapes [] e = p.escapes near e := by
    rw [Place.escapes, Place.escapes, decide_eq_decide]
    exact ⟨fun hout => ⟨hout.1, fun hin => hout.1 (hnear e hin)⟩,
      fun hout => ⟨hout.1, List.not_mem_nil⟩⟩
  rw [Raising, hsame]
  exact he

/-- An exception that is turned into a `DeployCtlError` under a lock. -/
theorem Watched.asDeployCtlError {caught : Exc} (h : Watched p [caught] T code)
    (hp : .deployCtlError ∈ p.caught) : Watched p [] T (asDeployCtlError caught code) :=
  h.handle (watched_throw hp) (fun _ he => he) fun _ he => .inr he

/-- A lock: how it is taken from `p` to `q`, and let go of. -/
structure Locks (p q : Place) (near : List Exc) (enter leave : Call) : Prop where
  enters : enter.moves = some q ∧ enter.near = near ∧ enter.leaves = false
  leaves : leave.leaves = true ∧ leave.moves = some p
  unguarded : leave.near = []
  caught : ∀ e, q.escapes [] e = p.escapes near e
  settles : ∀ v, enter.settles v = false ∧ leave.settles v = false

/-- Code under a lock runs at the place that the lock leads to. -/
theorem Watched.withLock {enter leave : Call} (h : Watched q [] T code)
    (hlock : Locks p q near enter leave) : Watched p near T (withLock enter leave code) := by
  rintro l (hl | hl)
  · exact hl.watched _
  have hleft : ∀ {b : Bool} {l : Ledger}, At q b l → ∀ e,
      Raising p near e (sem leave (.raised e) l).2 := by
    intro b l hl e
    have hat := hl.left hlock.leaves e
    rw [hlock.unguarded, hlock.caught] at hat
    exact .inr hat
  have hreturned : ∀ {b : Bool} {l : Ledger}, At q b l → ∀ v,
      At p b (sem leave (.returned v) l).2 := by
    intro b l hl v
    have hat := hl.returned (hlock.settles v).2
    rwa [hlock.leaves.2] at hat
  refine Prog.Safe.bind ⟨trivial, fun r => ?_⟩
  cases r with
  | raised e =>
    have hat := hl.raised hlock.enters.2.2 e
    rw [hlock.enters.2.1] at hat
    exact .inr hat
  | returned v =>
    have hat := hl.returned (hlock.settles v).1
    rw [hlock.enters.1] at hat
    refine Prog.Safe.bind (Prog.Safe.tryCatch ((h _ (.inr hat)).mono ?_ ?_))
    · rintro a l ⟨hgoing, hT⟩
      rcases hgoing with hdone | hat
      · exact hdone.watched _
      · refine ⟨trivial, fun r => ?_⟩
        cases r with
        | raised e => exact hleft hat e
        | returned v => exact ⟨.inr (hreturned hat v), fun ha => absurd (hT ha) hat.not_done⟩
    · rintro e l (hdone | hat)
      · exact (hdone.safe _).mono (fun a _ ha => ha.watched _) fun _ _ => Or.inl
      · refine ⟨trivial, fun r => ?_⟩
        cases r with
        | raised e' => exact hleft hat e'
        | returned v =>
          have hafter := hreturned hat v
          rw [hlock.caught] at hafter
          exact .inr hafter

theorem lock_deployment : Locks .loop .deployment [.deployCtlError, .lockTimeoutError]
    .enterDeployLock .leaveDeployLock where
  enters := ⟨rfl, rfl, rfl⟩
  leaves := ⟨rfl, rfl⟩
  unguarded := rfl
  caught e := by cases e <;> rfl
  settles _ := ⟨rfl, rfl⟩

theorem lock_generation : Locks .deployment .generation [.generationLockTimeoutError]
    .enterGenerationLock .leaveGenerationLock where
  enters := ⟨rfl, rfl, rfl⟩
  leaves := ⟨rfl, rfl⟩
  unguarded := rfl
  caught e := by cases e <;> rfl
  settles _ := ⟨rfl, rfl⟩

/-! ## The functions -/

/-- Code whose results settle nothing. -/
abbrev Plain {α : Type} (p : Place) (code : Code α) : Prop := Watched p [] (fun _ => False) code

theorem plain_ret (p : Place) (a : α) : Plain p (pure a) := watched_ret not_false

/-- A call around which nothing is caught, and what follows. -/
theorem Plain.call {f : Value → Code β} {T' : β → Prop} (hf : ∀ v, Watched p [] T' (f v))
    (h : c.moves = none) (hnear : c.near = []) : Watched p [] T' (perform c >>= f) :=
  (watched_call h hnear).then hf

/-- A guarded call, one of whose results is kept. -/
theorem plain_guarded {f : Value → α} {caught : List Exc} {handler : Code α} (h : c.moves = none)
    (hnear : c.near = caught) (hhandler : Plain p handler) :
    Plain p (handle caught (do return f (← perform c)) handler) := by
  have hcall : Watched p caught (fun _ => False) (do return f (← perform c)) := by
    rw [← hnear]
    exact (watched_perform h).then fun v => watched_ret not_false
  exact hcall.handle hhandler (fun _ he => he) fun _ he => .inr he

section Decision

variable (m : RollbackState)

theorem plain_supervisedMissionActive : Plain p (supervisedMissionActive m) := by
  refine Plain.call (fun v => ?_) rfl rfl
  dsimp only
  split
  · split
    · refine Plain.call (fun alive => ?_) rfl rfl
      split
      · exact plain_ret p _
      · exact plain_ret p _
    · exact plain_ret p _
  · exact plain_ret p _

theorem plain_supervisedMissionAuthoritative : Plain p (supervisedMissionAuthoritative m) := by
  refine Plain.call (fun v => ?_) rfl rfl
  refine (plain_guarded rfl rfl (plain_ret p none)).then fun desired => ?_
  cases desired with
  | none => exact plain_ret p false
  | some desired => exact Plain.call (fun v => plain_ret p _) rfl rfl

theorem plain_legacyRollbackDue : Plain p (legacyRollbackDue m) := by
  unfold legacyRollbackDue
  split
  · exact plain_ret p true
  · refine Plain.call (fun now => ?_) rfl rfl
    split
    · exact plain_ret p true
    · exact Plain.call (fun v => plain_ret p _) rfl rfl

theorem plain_pendingMissionRollbackDue : Plain p (pendingMissionRollbackDue m) := by
  unfold pendingMissionRollbackDue
  split
  · exact plain_legacyRollbackDue m
  refine Plain.call (fun running => ?_) rfl rfl
  split
  · exact plain_ret p true
  refine (plain_supervisedMissionAuthoritative m).then fun authoritative => ?_
  split
  · exact plain_ret p true
  refine Plain.call (fun now => ?_) rfl rfl
  split
  · exact plain_ret p false
  refine Plain.call (fun seen => ?_) rfl rfl
  split
  · exact plain_ret p true
  · split
    · exact plain_ret p true
    · exact (plain_supervisedMissionActive m).then fun active => plain_ret p _

end Decision

theorem plain_asDeployCtlError {f : Value → α} {caught : Exc} (h : c.moves = none)
    (hnear : c.near = [caught]) (hp : .deployCtlError ∈ p.caught) :
    Plain p (asDeployCtlError caught (do return f (← perform c))) :=
  plain_guarded h hnear (watched_throw hp)

section Settlement

variable (environment : Option PyStr) (commit repo uvPath : PyStr)

theorem plain_workerId : Plain p (workerId environment) := by
  have hhost : Plain p (do return (← perform .hostname).text) :=
    Plain.call (fun v => plain_ret p _) rfl rfl
  unfold workerId
  split
  · split
    · exact hhost
    · exact plain_ret p _
  · exact hhost

theorem plain_settleDesired :
    Plain .deployment (settleDesired environment commit repo uvPath) := by
  refine (plain_workerId environment).then fun worker => ?_
  refine (plain_asDeployCtlError rfl rfl (by decide)).then fun desired => ?_
  have hsettle : ∀ generation : ℤ, Plain .deployment (do
      let _ ← perform (.failpoint "mission_confirm")
      if !(← perform (.waitForGeneration generation)).flag then throw .deployCtlError
      else if !(← perform (.waitUntilReady generation commit)).flag then throw .deployCtlError
      else return generation) := by
    intro generation
    refine Plain.call (fun _ => Plain.call (fun applied => ?_) rfl rfl) rfl rfl
    split
    · exact watched_throw (by decide)
    refine Plain.call (fun ready => ?_) rfl rfl
    split
    · exact watched_throw (by decide)
    · exact plain_ret _ generation
  have hrequest : Plain .deployment (asDeployCtlError .generationLockTimeoutError do
      return (← perform (.requestRunClient commit repo uvPath worker)).generation) :=
    plain_asDeployCtlError rfl rfl (by decide)
  dsimp only
  split
  · split
    · exact hsettle _
    · exact hrequest.then hsettle
  · exact hrequest.then hsettle

end Settlement

section Rollback

variable (m : RollbackState)

theorem plain_terminalizationAuthorityMatches (commit : PyStr) (generation : ℤ)
    (desired : Option SupervisorDesired) (status : Option SupervisorStatus) :
    Plain p (terminalizationAuthorityMatches commit generation desired status) := by
  unfold terminalizationAuthorityMatches
  split
  · split
    · split
      · refine Plain.call (fun state => ?_) rfl rfl
        dsimp only
        split
        · exact Plain.call (fun alive => plain_ret p _) rfl rfl
        · exact plain_ret p false
      · exact plain_ret p false
    · exact plain_ret p false
  · exact plain_ret p false

theorem plain_checkAuthority (generation : ℤ) : Plain .deployment (checkAuthority m generation) := by
  have hbody : Plain .generation (rollbackLockedBody m generation) := by
    refine (plain_asDeployCtlError rfl rfl (by decide)).then fun desired => ?_
    refine Plain.call (fun seen => ?_) rfl rfl
    refine (plain_terminalizationAuthorityMatches _ _ _ _).then fun holds => ?_
    split
    · exact plain_ret _ ()
    · exact watched_throw (by decide)
  exact (hbody.withLock lock_generation).asDeployCtlError (by decide)

/-- A supervised rollback that ends has written the terminal record. -/
theorem watched_finalizeSupervisedRollback (generation : ℤ) :
    Watched .deployment [] (fun _ => True) (finalizeSupervisedRollback m generation) := by
  refine (plain_checkAuthority m generation).then fun _ => ?_
  refine Plain.call (fun restored => ?_) rfl rfl
  split
  · refine (plain_checkAuthority m generation).then fun _ => ?_
    exact (watched_call rfl rfl).bind fun _ => .inl rfl
  · exact watched_throw (by decide)

theorem plain_retireCandidateLocked : Plain p (retireCandidateLocked m) := by
  unfold retireCandidateLocked
  split
  · exact plain_ret p false
  · refine Plain.call (fun stopped => ?_) rfl rfl
    split
    · exact Plain.call (fun alive => plain_ret p _) rfl rfl
    · exact plain_ret p false

theorem plain_durablePreviousWorker : Plain p (durablePreviousWorker m) := by
  refine (plain_guarded rfl rfl (plain_ret p none)).then fun read => ?_
  split
  · exact plain_ret p _
  · exact plain_ret p _
  · refine Plain.call (fun alive => ?_) rfl rfl
    split
    · exact plain_ret p _
    · split
      · exact plain_ret p _
      · dsimp only
        split
        · exact plain_ret p _
        · exact plain_ret p _

theorem plain_clearPreviousRestartObligation : Plain p (clearPreviousRestartObligation m) :=
  Plain.call (fun _ => plain_ret p ()) rfl rfl

theorem plain_survives (worker : WorkerMeta) : Plain p (survives m worker) := by
  refine Plain.call (fun stopped => ?_) rfl rfl
  split
  · exact Plain.call (fun alive => plain_ret p _) rfl rfl
  · exact plain_ret p true

/-- What follows a survivor of a restart: it is held, or its record is cleared. -/
theorem plain_recovered (unconverged : Bool) : Plain p (if unconverged then return some none else do
    clearPreviousRestartObligation m
    return (none : Option (Option WorkerMeta)) : Code (Option (Option WorkerMeta))) := by
  split
  · exact plain_ret p _
  · exact (plain_clearPreviousRestartObligation m).then fun _ => plain_ret p _

theorem plain_recoverPreviousRestart : Plain p (recoverPreviousRestart m) := by
  unfold recoverPreviousRestart
  split
  · exact plain_ret p none
  rename_i restarted _
  split
  · refine Plain.call (fun alive => ?_) rfl rfl
    dsimp only
    split
    · exact (plain_survives m restarted).then (plain_recovered m)
    · exact plain_recovered m false
  refine Plain.call (fun alive => ?_) rfl rfl
  dsimp only
  split
  · have hhealthy : ∀ healthy : Bool, Plain p (if healthy then return some (some restarted)
        else do
          if ← survives m restarted then return some none
          else
            clearPreviousRestartObligation m
            return none) := by
      intro healthy
      split
      · exact plain_ret p _
      · exact (plain_survives m restarted).then (plain_recovered m)
    refine Plain.call (fun stable => ?_) rfl rfl
    split
    · exact Plain.call (fun checked => hhealthy checked.flag) rfl rfl
    · exact hhealthy false
  · exact plain_recovered m false

/-- A write that is not durable goes on escaping when the gated worker has been aborted. -/
theorem plain_writeOrAbort (gated : WorkerMeta) : Plain p (writeOrAbort gated m) := by
  rintro l (hl | hl)
  · exact hl.watched _
  have hwrite := (watched_call (p := p) (c := .writeState m) rfl rfl) l (.inr hl)
  refine Prog.Safe.tryCatch (Prog.Safe.bind (hwrite.mono (fun _ _ ha => ⟨ha.1, False.elim⟩) ?_))
  intro e l he
  by_cases hdurable : e ∈ [Exc.durabilityError]
  · rw [if_pos hdurable]
    rcases he with hdone | hat
    · exact hdone.watched _
    obtain rfl := List.mem_singleton.1 hdurable
    refine Prog.Safe.bind ⟨trivial, fun r => ?_⟩
    cases r with
    | raised e' => exact .inr (hat.raised rfl e')
    | returned v => exact .inr (hat.returned rfl)
  · rw [if_neg hdurable]
    exact he

theorem plain_spawnPreviousWorker (previous : WorkerMeta) :
    Plain .deployment (spawnPreviousWorker m previous) := by
  refine Plain.call (fun spawned => ?_) rfl rfl
  split
  · exact plain_ret _ none
  rename_i gated _
  dsimp only
  refine (plain_writeOrAbort _ gated).then fun _ => ?_
  have hrelease : Plain .deployment (do let _ ← perform (.releaseGate gated); return true) :=
    Plain.call (fun _ => plain_ret _ true) rfl rfl
  have habort : ∀ m : RollbackState, ∀ {β : Type} (result : β), Plain .deployment (do
      let _ ← perform (.abortGatedCandidate gated)
      clearPreviousRestartObligation m
      return result) := fun m _ result =>
    Plain.call (fun _ => (plain_clearPreviousRestartObligation m).then fun _ => plain_ret _ result)
      rfl rfl
  refine (hrelease.guarded (habort _ false) (by decide)).then fun released => ?_
  split
  · refine (plain_writeOrAbort _ gated).then fun _ => ?_
    have hhealthy : ∀ healthy : Bool, Plain .deployment (if healthy then return some gated
        else do
          let _ ← perform (.abortGatedCandidate gated)
          clearPreviousRestartObligation
            { m with previousRestartMeta := some gated, previousRestartReleased := true }
          return none) := by
      intro healthy
      split
      · exact plain_ret _ _
      · exact habort _ none
    refine Plain.call (fun stable => ?_) rfl rfl
    split
    · exact Plain.call (fun checked => hhealthy checked.flag) rfl rfl
    · exact hhealthy false
  · exact plain_ret _ none

theorem plain_restartPrevious : Plain .deployment (restartPrevious m) := by
  refine (plain_durablePreviousWorker m).then fun current => ?_
  split
  · exact plain_ret _ _
  refine (plain_recoverPreviousRestart m).then fun restarted => ?_
  split
  · exact plain_ret _ _
  dsimp only
  have hstopped : ∀ stopped : Bool, Plain .deployment
      (if stopped then spawnPreviousWorker m m.previousMeta else return none) := by
    intro stopped
    split
    · exact plain_spawnPreviousWorker m _
    · exact plain_ret _ none
  have hreusable : ∀ reusable : Bool, Plain .deployment (if reusable then return some m.previousMeta
      else do
        let alive := (← perform (.workerAlive m.previousMeta)).flag
        let stopped ← if alive then
            pure (← perform (.stopWorker m.previousMeta m.stopGraceSeconds)).flag
          else pure true
        if stopped then spawnPreviousWorker m m.previousMeta else return none) := by
    intro reusable
    split
    · exact plain_ret _ _
    refine Plain.call (fun alive => ?_) rfl rfl
    dsimp only
    split
    · exact Plain.call (fun stopped => hstopped stopped.flag) rfl rfl
    · exact hstopped true
  split
  · exact hreusable false
  · exact Plain.call (fun alive => hreusable alive.flag) rfl rfl

theorem plain_restorePreviousLocked : Plain .deployment (restorePreviousLocked m) := by
  refine Plain.call (fun checked => ?_) rfl rfl
  split
  · refine (plain_restartPrevious m).then fun restored => ?_
    split
    · exact plain_ret _ _
    · exact Plain.call (fun _ => Plain.call (fun artifacts => plain_ret _ _) rfl rfl) rfl rfl
  · exact plain_ret _ _

/-- A legacy rollback that returns true has written the terminal record. -/
theorem watched_rollbackLegacyLocked :
    Watched .deployment [] (fun ok => ok = true) (rollbackLegacyLocked m) := by
  refine (plain_retireCandidateLocked m).then fun retired => ?_
  split
  · refine (plain_restorePreviousLocked m).then fun restored => ?_
    split
    split
    · exact (watched_call rfl rfl).bind fun _ => .inl rfl
    · exact watched_ret Bool.false_ne_true
  · exact watched_ret Bool.false_ne_true

theorem plain_authorizeMissionRollback (status : MissionStatus) :
    Plain p (authorizeMissionRollback status) := by
  have hprobe : Watched p [.deployCtlError] (fun _ => False)
      (do let _ ← perform .readRollbackState; return false) :=
    (watched_perform (c := .readRollbackState) rfl).then fun _ => watched_ret not_false
  have hguarded := hprobe.handle (plain_ret p true) (fun _ he => he) fun _ he => .inr he
  exact hguarded.then fun malformed => plain_ret p _

/-- **A rollback of a pending mission that returns true has made it terminal.** -/
theorem watched_rollbackLocked (environment : Option PyStr) (hm : m.status = .pending) :
    Watched .deployment [] (fun ok => ok = true) (rollbackLocked environment m) := by
  have hno : Watched .deployment [] (fun ok => ok = true) (pure false) :=
    watched_ret Bool.false_ne_true
  rw [rollbackLocked, if_neg (not_not.2 hm)]
  refine Plain.call (fun _ => ?_) rfl rfl
  refine (plain_authorizeMissionRollback m.status).then fun authorized => ?_
  split
  · split
    · exact hno
    · exact watched_rollbackLegacyLocked m
    · refine Plain.call (fun running => ?_) rfl rfl
      split
      · have hsettle : Plain .deployment (handle [.deployCtlError]
            (do return some (← settleDesired environment m.previousCommit m.repo m.uvPath))
            (return none)) :=
          ((plain_settleDesired environment m.previousCommit m.repo m.uvPath).then fun generation =>
            plain_ret _ (some generation)).guarded (plain_ret _ none) (by decide)
        refine hsettle.then fun settled => ?_
        split
        · exact hno
        · rename_i generation
          have hfinal : Watched .deployment [] (fun ok => ok = true)
              (do finalizeSupervisedRollback m generation; return true) :=
            (watched_finalizeSupervisedRollback m generation).bind fun _ => .inl trivial
          exact hfinal.guarded hno (by decide)
      · exact hno
  · exact hno

end Rollback

section Loop

variable (environment : Option PyStr)

/-- An attempt that returns true has made the mission terminal. -/
theorem watched_watchdogRollbackAttempt :
    Watched .loop [] (fun ok => ok = true) (watchdogRollbackAttempt environment) := by
  have hread : Watched .deployment [] (fun _ => False) (perform .readState) :=
    ((watched_perform rfl).mono fun _ => False.elim).absorb (by decide)
  have hbody : Watched .deployment [] (fun ok => ok = true) (do
      match (← perform .readState).mission with
      | some current =>
        if current.status = .pending then rollbackLocked environment current else return false
      | none => return false) := by
    refine hread.then fun v => ?_
    split
    · rename_i current _
      by_cases hpending : current.status = .pending
      · rw [if_pos hpending]
        exact watched_rollbackLocked current environment hpending
      · rw [if_neg hpending]
        exact watched_ret Bool.false_ne_true
    · exact watched_ret Bool.false_ne_true
  exact (hbody.withLock lock_deployment).handle (watched_ret Bool.false_ne_true) (fun _ he => he)
    fun _ he => .inr he

/-- What was read settles the mission. -/
def settledBy : Option (Option RollbackState) → Bool
  | none => false
  | some none => true
  | some (some m) => decide (m.status ≠ .pending)

/-- **One turn of the loop**: it returns only when the mission is settled. -/
theorem watched_watchdogTurn :
    Watched .loop [] (fun ended => ended = true) (watchdogTurn environment) := by
  have hread : Watched .loop [] (fun read => settledBy read = true)
      (handle [.deployCtlError] (do return some (← perform .readState).mission) (return none)) := by
    have hbody : Watched .loop [.deployCtlError] (fun read => settledBy read = true)
        (do return some (← perform .readState).mission) := by
      refine (watched_perform (c := .readState) rfl).bind fun v => ?_
      by_cases hv : settledBy (some v.mission) = true
      · refine .inl ?_
        rcases v with ⟨_, _, _, _, _ | m, _⟩
        · rfl
        · exact hv
      · exact .inr (watched_ret hv)
    exact hbody.handle (watched_ret Bool.false_ne_true) (fun _ he => he) fun _ he => .inr he
  have hsleep : Watched .loop [] (fun ended => ended = true)
      (do let _ ← perform .sleep; return false) :=
    Plain.call (fun _ => watched_ret Bool.false_ne_true) rfl rfl
  refine hread.bind fun read => ?_
  cases read with
  | none => exact .inr hsleep
  | some mission =>
    cases mission with
    | none => exact .inl rfl
    | some m =>
      by_cases hpending : m.status = .pending
      · refine .inr ?_
        dsimp only
        rw [if_neg (not_not.2 hpending)]
        have hattempt : ∀ should : Bool, Watched .loop [] (fun ended => ended = true) (do
            let finished ← if should then watchdogRollbackAttempt environment else pure false
            if finished then return true
            else
              let _ ← perform .sleep
              return false) := by
          intro should
          cases should with
          | false => exact hsleep
          | true =>
            refine (watched_watchdogRollbackAttempt environment).bind fun finished => ?_
            cases finished with
            | true => exact .inl rfl
            | false => exact .inr hsleep
        split
        · exact (plain_legacyRollbackDue m).then hattempt
        · refine Plain.call (fun running => ?_) rfl rfl
          split
          · exact (plain_pendingMissionRollbackDue m).then hattempt
          · exact hattempt false
      · exact .inl (decide_eq_true hpending)

/-- The loop returns only when the mission is settled. -/
theorem watched_watchdogMain (turns : ℕ) :
    Watched .loop [] (fun ended => ended = true) (watchdogMain environment turns) := by
  induction turns with
  | zero => exact watched_ret Bool.false_ne_true
  | succ turns ih =>
    refine (watched_watchdogTurn environment).bind fun ended => ?_
    cases ended with
    | true => exact .inl rfl
    | false => exact .inr ih

/-- **When the watchdog abandons a mission**: in every run of any number of turns, with any outcome
of any call, a watchdog that has exited has read the mission as absent or terminal, or made it
terminal, if and only if no exception escaped the handlers before that. -/
theorem watchdog_settles_iff (turns : ℕ) (outcomes : List Reply)
    (h : ((forkWatchdog environment turns).run sem outcomes start).2 = .returned true) :
    ((forkWatchdog environment turns).run sem outcomes start).1.settled = true ↔
      ((forkWatchdog environment turns).run sem outcomes start).1.abandoned = false := by
  have hexit : (forkWatchdog environment turns).Safe sem (fun _ => True)
      (fun ended l => ended = true → Done l ∨ At .loop true l) (fun _ _ => True) start := by
    have hmain := watched_watchdogMain environment turns start (.inr ⟨rfl, rfl, rfl⟩)
    refine Prog.Safe.tryCatch (hmain.mono (fun ended l hl hended => .inl (hl.2 hended)) ?_)
    rintro e l (hdone | hat) -
    · exact .inl hdone
    · refine .inr ?_
      have hescapes : Place.loop.escapes [] e = true :=
        decide_eq_true ⟨List.not_mem_nil, List.not_mem_nil⟩
      rwa [hescapes] at hat
  have hsound := hexit.sound (fun _ _ _ => trivial) (fun _ _ _ => trivial) outcomes
  rcases hsound.2 true h rfl with hdone | hat
  · exact iff_of_true hdone.1 hdone.2
  · refine iff_of_false (fun hno => ?_) fun hno => ?_
    · rw [hat.2.1] at hno
      cases hno
    · rw [hat.2.2] at hno
      cases hno

end Loop

/-- The read fails once, and then finds the mission confirmed. -/
theorem watchdog_settles_confirmed :
    ((forkWatchdog none 2).run sem
      [.raised .deployCtlError, .returned {},
        .returned { mission := some { supervisedMission with status := .confirmed } }]
      start).1.settled = true :=
  (watchdog_settles_iff none 2 _ rfl).2 rfl

/-- The supervisor goes away between the look at its process and the request for its state. The
watchdog exits, and the mission is pending. -/
theorem refused_connection_abandons :
    (forkWatchdog none 1).run sem
      [.returned { mission := some supervisedMission }, .returned {}, .returned {},
        .raised .connectionRefusedError] start =
      ({ place := .loop, settled := false, abandoned := true }, .returned true) := rfl

end Lubko.Deploy.Watchdog
