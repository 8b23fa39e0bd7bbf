import Lubko.Deploy.Terminal
import Lubko.Lib.Guarantee

/-!
# Settling a queue deploy

`_finish_queue_deploy` of `lifecycle.py`, which runs in the detached helper once the row of the job
is durably `succeeded`: the candidate is handed to the supervisor and the maintained CLIs are
activated; when that fails, the helper decides whether the previous commit has to be restored.

Every call of the helper is answered: it returns a value or raises an exception of one of the
classes the helper tells apart. What is in force when the helper decides is part of the answers.

* `completeDeployHandoff_ends` — how the handoff ends, from its steps.
* `restoreAfterHandoffFailure_ends` — what the decision requests.
* `failed_deploy_settled_iff` — exactly when a failed deploy is settled back.
-/

namespace Lubko.Deploy.QueueHandoff

open Lubko.Lib Lubko.Supervise Lubko.Lifecycle

/-! ## Answers -/

/-- The exceptions of the calls, by class. -/
inductive Raised where
  /-- `DeployAbortedError` -/
  | deployAborted
  /-- `LockTimeoutError` -/
  | lockTimeout
  /-- `GenerationLockTimeoutError` -/
  | generationLockTimeout
  /-- `CliError` -/
  | cliError
  /-- `DesiredIntentError` -/
  | desiredIntent
  /-- `OSError`, with `ConnectionRefusedError` -/
  | osError
  /-- another `RuntimeError` -/
  | runtimeError
  | typeError
  | other
  deriving DecidableEq

/-- The reply of the daemon to a deploy request. -/
inductive DaemonReply where
  | generation (n : ℤ)
  /-- The lock timed out, or the request was refused. -/
  | error
  /-- There is no generation in it. -/
  | malformed
  deriving DecidableEq

/-- How a run request is answered. -/
inductive RunAnswer where
  /-- With the token: what `request_run` returns or raises. -/
  | direct (result : Except Raised ℤ)
  /-- Without it: the reply over the socket, or the exception of the socket. -/
  | socket (reply : Except Raised DaemonReply)

/-- `request_run_client`. -/
def requestRunClient : RunAnswer → Except Raised ℤ
  | .direct result => result
  | .socket (.error e) => .error e
  | .socket (.ok (.generation n)) => .ok n
  | .socket (.ok .error) => .error .runtimeError
  | .socket (.ok .malformed) => .error .typeError

/-- What `read_status` answers at each turn of a wait; after the last one the time is up. -/
abbrev Polls := List (Except Raised (Option SupervisorStatus))

/-- `wait_for_generation`. -/
def waitForGeneration (generation : ℤ) : Polls → Except Raised Bool
  | [] => .ok false
  | .error e :: _ => .error e
  | .ok status :: polls =>
    if status.any fun s => generation ≤ s.appliedGeneration then .ok true
    else waitForGeneration generation polls

/-- `wait_until_ready`. -/
def waitUntilReady (generation : ℤ) (commit : Option PyStr) : Polls → Except Raised Bool
  | [] => .ok false
  | .error e :: _ => .error e
  | .ok none :: polls => waitUntilReady generation commit polls
  | .ok (some status) :: polls =>
    if generation ≤ status.appliedGeneration then
      if commit ≠ none ∧ status.commit ≠ commit then .ok false
      else if status.ready = some true then .ok true
      else waitUntilReady generation commit polls
    else waitUntilReady generation commit polls

/-- How `set_current` ends; a failed one leaves some entry. -/
inductive Switch where
  | switched
  | failed (e : Raised) (leaves : Option PyStr)

/-- What is in force: the durable intent, the applied state as the daemon publishes it, and whether
the child it names is alive. -/
structure InForce where
  desired : Option SupervisorDesired
  status : Option SupervisorStatus
  childAlive : Bool

/-- A look at what is in force, under the generation lock. -/
structure Look where
  inForce : InForce
  lock : Except Raised Unit
  /-- The exception of `read_desired_client`. -/
  desiredError : Option Raised
  /-- The exception of `read_status`. -/
  statusError : Option Raised

/-- `CLI_ACTIVATION_ATTEMPTS`. -/
def CLI_ACTIVATION_ATTEMPTS : ℕ := 5

/-- `EXIT_OK` and `EXIT_ERROR`. -/
inductive ExitCode where
  | ok
  | error
  deriving DecidableEq

/-- The answers to one helper. -/
structure Answers where
  /-- `supervisor_running`, before the handoff -/
  supervisorRunning : Bool
  /-- `options.bootstrap or options.direct_spawn` -/
  direct : Bool
  /-- `_deploy_direct` -/
  deployDirect : Except Raised WorkerMeta
  request : RunAnswer
  appliedPolls : Polls
  readyPolls : Polls
  /-- `read_meta` -/
  metadata : Except Raised (Option WorkerMeta)
  workerAlive : Except Raised Bool
  /-- `check_postgres` -/
  postgres : Except Raised Bool
  activation : Fin CLI_ACTIVATION_ATTEMPTS → Switch
  /-- `gc_cli_roots` -/
  collected : Except Raised Unit
  /-- `supervisor_running`, before the decision -/
  stillRunning : Bool
  candidate : Look
  settle : RunAnswer
  settledPolls : Polls
  restoredPolls : Polls
  restore : Look
  /-- `runtime_is_usable`, for the previous commit -/
  usable : Except Raised Bool
  reconciliation : Switch

/-! ## The helper -/

/-- The messages of the deployment log. -/
inductive Entry where
  /-- `queue deploy handoff failed after durable success` -/
  | handoffFailed
  /-- `queue deploy converged after durable success` -/
  | converged
  /-- `... but the maintained CLIs did not; restoring the previous commit` -/
  | clisBehind
  /-- `... without a live supervisor; nothing to restore` -/
  | noSupervisor
  /-- `queue deploy fully converged on commit ...; nothing to restore` -/
  | nothingToRestore
  /-- `... with no known previous commit` -/
  | noPrevious
  /-- `... and restoring the previous commit errored` -/
  | restoreErrored
  /-- `... and the generation lock timed out during restore reconciliation` -/
  | reconciliationTimedOut
  /-- `...; supervisor restored previous commit ... and the maintained CLIs` -/
  | restored
  /-- `... and the previous commit could not be fully restored` -/
  | notRestored
  deriving DecidableEq

/-- What the helper changes: the commit `cli/current` selects, the commit whose run the restoration
requested, and the log. -/
structure World where
  current : Option PyStr
  settling : Option PyStr
  log : List Entry
  deriving DecidableEq

/-- A part of the helper. -/
abbrev Helper (α : Type) := EStateM Raised World α

/-- A call that is answered. -/
def answer {α : Type} : Except Raised α → Helper α
  | .ok a => pure a
  | .error e => throw e

/-- `append_deploy_log`. -/
def appendDeployLog (entry : Entry) : Helper Unit :=
  modify fun w => { w with log := entry :: w.log }

/-- `if not ...: raise DeployAbortedError`. -/
def require (result : Except Raised Bool) : Helper Unit := do
  if ← answer result then return
  else throw .deployAborted

/-- `set_current`. -/
def setCurrent (s : Switch) (commit : PyStr) : Helper Unit :=
  match s with
  | .switched => modify fun w => { w with current := some commit }
  | .failed e leaves => do
    modify fun w => { w with current := leaves }
    throw e

/-- Whether `set_current` raises no `CliError`. -/
def switchSucceeds (s : Switch) (commit : PyStr) : Helper Bool :=
  tryCatch (do setCurrent s commit; return true) fun e =>
    if e = .cliError then return false else throw e

/-- The loop of `_activate_maintained_cli`. -/
def tryActivations (collected : Except Raised Unit) (commit : PyStr) : List Switch → Helper Bool
  | [] => return false
  | s :: switches => do
    if ← switchSucceeds s commit then
      answer collected
      return true
    else tryActivations collected commit switches

/-- `_activate_maintained_cli`. -/
def activateMaintainedCli (a : Answers) (commit : PyStr) : Helper Bool :=
  tryActivations a.collected commit (List.ofFn a.activation)

/-- A run request whose lock timeout is an abort. -/
def requestOrAbort (r : RunAnswer) : Helper ℤ :=
  tryCatch (answer (requestRunClient r)) fun e =>
    if e = .generationLockTimeout then throw .deployAborted else throw e

/-- `meta is None`, `worker_alive(meta)` and the commit of the metadata. -/
def requireWorker (a : Answers) (commit : PyStr) : Helper Unit := do
  match ← answer a.metadata with
  | none => throw .deployAborted
  | some found => do
    require a.workerAlive
    require (.ok (found.gitCommit = some commit))

/-- `_deploy_through_supervisor`. -/
def deployThroughSupervisor (a : Answers) (commit : PyStr) : Helper Unit := do
  let generation ← requestOrAbort a.request
  require (waitForGeneration generation a.appliedPolls)
  require (waitUntilReady generation none a.readyPolls)
  requireWorker a commit
  require a.postgres

/-- The worker of `_complete_deploy_handoff`. -/
def handOver (a : Answers) (commit : PyStr) : Helper Unit := do
  if a.supervisorRunning then deployThroughSupervisor a commit
  else if a.direct then
    let _ ← answer a.deployDirect
    let _ ← requestOrAbort a.request
  else throw .deployAborted

/-- `_complete_deploy_handoff`. -/
def completeDeployHandoff (a : Answers) (commit : PyStr) : Helper ExitCode := do
  handOver a commit
  if ← activateMaintainedCli a commit then return .ok else return .error

/-! ## The decision -/

/-- `SupervisorConvergenceFacts`. -/
structure SupervisorConvergenceFacts where
  targetCommit : PyStr
  minimumGeneration : ℤ
  desiredCommit : PyStr
  desiredGeneration : ℤ
  appliedCommit : Option PyStr
  appliedGeneration : ℤ
  ready : Option Bool
  holding : Bool
  liveChild : Bool

/-- `authorize_supervisor_convergence`. -/
def authorizeSupervisorConvergence (f : SupervisorConvergenceFacts) : Bool :=
  decide (0 ≤ f.minimumGeneration) &&
    decide (f.desiredCommit = f.targetCommit ∧ f.appliedCommit = some f.targetCommit) &&
      decide (f.minimumGeneration ≤ f.desiredGeneration) &&
        decide (f.minimumGeneration ≤ f.appliedGeneration ∧
          f.appliedGeneration ≤ f.desiredGeneration) &&
          decide (f.ready = some true) && !f.holding && f.liveChild

/-- The facts of a look, and what they authorize; without an intent or a status, nothing. -/
def InForce.authorizes (i : InForce) (commit : PyStr) (minimum : SupervisorStatus → ℤ) : Bool :=
  match i.desired, i.status with
  | some desired, some status =>
    authorizeSupervisorConvergence
      { targetCommit := commit
        minimumGeneration := minimum status
        desiredCommit := desired.commit
        desiredGeneration := desired.generation
        appliedCommit := status.commit
        appliedGeneration := status.appliedGeneration
        ready := status.ready
        holding := status.holding
        liveChild := status.child.isSome && i.childAlive }
  | _, _ => false

/-- The reads of `_candidate_convergence_locked` and `_queue_deploy_restore_converged`. -/
def Look.converged (l : Look) (commit : PyStr) (minimum : SupervisorStatus → ℤ) :
    Except Raised Bool :=
  match l.desiredError with
  | some e => if e = .desiredIntent then .ok false else .error e
  | none =>
    match l.statusError with
    | some e => .error e
    | none => .ok (l.inForce.authorizes commit minimum)

/-- `_candidate_convergence_locked`. -/
def candidateConvergenceLocked (l : Look) (commit : PyStr) : Helper Bool := do
  let converged ← answer (l.converged commit SupervisorStatus.appliedGeneration)
  return converged && decide ((← get).current = some commit)

/-- `with generation_lock(): body`, where a timeout has the handler. -/
def underGenerationLock (lock : Except Raised Unit) (body onTimeout : Helper Bool) : Helper Bool :=
  tryCatch (do answer lock; body) fun e =>
    if e = .generationLockTimeout then onTimeout else throw e

/-- `_queue_deploy_candidate_converged`. -/
def queueDeployCandidateConverged (l : Look) (commit : PyStr) : Helper Bool :=
  underGenerationLock l.lock (candidateConvergenceLocked l commit) (return false)

/-- `reconcile_pointer`. -/
def reconcilePointer (usable : Except Raised Bool) (s : Switch) (commit : PyStr) : Helper Bool := do
  if ← answer usable then
    if (← get).current = some commit then return true
    else switchSucceeds s commit
  else return false

/-- The restored authority of `_restore_after_handoff_failure`, and the pointer behind it. -/
def reconcileRestored (a : Answers) (commit : PyStr) (settle : ℤ) : Helper Bool :=
  underGenerationLock a.restore.lock
    (do
      if ← answer (a.restore.converged commit fun _ => settle) then
        reconcilePointer a.usable a.reconciliation commit
      else return false)
    (do
      appendDeployLog .reconciliationTimedOut
      return false)

/-- `restored`: both waits for the settlement. -/
def awaitRestored (a : Answers) (commit : PyStr) (settle : ℤ) : Helper Bool := do
  if ← answer (waitForGeneration settle a.settledPolls) then
    answer (waitUntilReady settle (some commit) a.restoredPolls)
  else return false

/-- The end of `_restore_after_handoff_failure`, once the run is requested. -/
def awaitSettlement (a : Answers) (commit : PyStr) (settle : ℤ) : Helper Unit := do
  let restored ← awaitRestored a commit settle
  let reconciled ← if restored then reconcileRestored a commit settle else pure false
  appendDeployLog (if reconciled then .restored else .notRestored)

/-- The request of `_restore_after_handoff_failure`, and what follows it. -/
def settleBack (a : Answers) (commit : PyStr) : Helper Unit := do
  modify fun w => { w with settling := some commit }
  let settle ← tryCatch (some <$> answer (requestRunClient a.settle)) fun e =>
    if e = .osError ∨ e = .generationLockTimeout then return none else throw e
  match settle with
  | none => appendDeployLog .restoreErrored
  | some settle => awaitSettlement a commit settle

/-- `_restore_after_handoff_failure`. -/
def restoreAfterHandoffFailure (a : Answers) (commit : PyStr) (previous : Option WorkerMeta) :
    Helper Unit := do
  if a.stillRunning then
    if ← queueDeployCandidateConverged a.candidate commit then appendDeployLog .nothingToRestore
    else
      match previous.bind WorkerMeta.gitCommit with
      | none => appendDeployLog .noPrevious
      | some previousCommit => settleBack a previousCommit
  else appendDeployLog .noSupervisor

/-- `_finish_queue_deploy`. -/
def finishQueueDeploy (a : Answers) (commit : PyStr) (previous : Option WorkerMeta) :
    Helper Unit := do
  let exitCode ← tryCatch (some <$> completeDeployHandoff a commit) fun e =>
    if e = .deployAborted then return none else throw e
  match exitCode with
  | some .ok => appendDeployLog .converged
  | some .error => do
    appendDeployLog .clisBehind
    restoreAfterHandoffFailure a commit previous
  | none => do
    appendDeployLog .handoffFailed
    restoreAfterHandoffFailure a commit previous

/-- How the helper process ends. -/
inductive HelperEnd where
  | finished
  /-- `send_helper_error`, behind `LockTimeoutError`, `DeployAbortedError` or `OSError` -/
  | errorSent
  /-- The exception leaves `_run_deploy_helper`. -/
  | died
  deriving DecidableEq

/-- The end of `_run_deploy_helper`, behind the durable success of the row. -/
def runDeployHelper (a : Answers) (commit : PyStr) (previous : Option WorkerMeta) (w : World) :
    HelperEnd × World :=
  match finishQueueDeploy a commit previous w with
  | .ok _ w' => (.finished, w')
  | .error e w' =>
    if e = .lockTimeout ∨ e = .deployAborted ∨ e = .osError then (.errorSent, w') else (.died, w')

/-! ## The steps of the handoff -/

/-- A step: what it answers, and the exceptions that are handled there. -/
structure Step where
  result : Except Raised Bool
  handles : Raised → Bool

/-- No step that is reached raises an exception that is not handled there. -/
def Undisturbed : List Step → Prop
  | [] => True
  | s :: steps => (∀ e, s.result = .error e → s.handles e = true) ∧
      (s.result = .ok true → Undisturbed steps)

/-- Every step succeeds. -/
def AllSucceed (steps : List Step) : Prop := ∀ s ∈ steps, s.result = .ok true

/-- The outcome of the activation: the first attempt that raises no `CliError` decides. -/
def activationOutcome : List Switch → Except Raised Bool
  | [] => .ok false
  | .switched :: _ => .ok true
  | .failed e _ :: switches => if e = .cliError then activationOutcome switches else .error e

/-- `except DeployAbortedError`. -/
def aborted (e : Raised) : Bool := e = .deployAborted

/-- The generation the request was answered with. -/
def Answers.generation (a : Answers) : ℤ := (requestRunClient a.request).toOption.getD 0

/-- The worker of the metadata runs the candidate. -/
def Answers.recordsCommit (a : Answers) (commit : PyStr) : Bool :=
  (a.metadata.toOption.join.bind WorkerMeta.gitCommit) = some commit

/-- The steps of a handoff through the supervisor. -/
def handoffSteps (a : Answers) (commit : PyStr) : List Step :=
  [⟨(requestRunClient a.request).map fun _ => true,
      fun e => e = .deployAborted || e = .generationLockTimeout⟩,
    ⟨waitForGeneration a.generation a.appliedPolls, aborted⟩,
    ⟨waitUntilReady a.generation none a.readyPolls, aborted⟩,
    ⟨a.metadata.map Option.isSome, aborted⟩,
    ⟨a.workerAlive, aborted⟩,
    ⟨.ok (a.recordsCommit commit), aborted⟩,
    ⟨a.postgres, aborted⟩,
    ⟨activationOutcome (List.ofFn a.activation), aborted⟩,
    ⟨a.collected.map fun _ => true, aborted⟩]

/-- How the handoff ends: what it changes is at most the pointer. -/
structure HandoffEnd (steps : List Step) (commit : PyStr) (w : World)
    (r : EStateM.Result Raised World ExitCode) : Prop where
  succeeded : AllSucceed steps → r = .ok .ok { w with current := some commit }
  refused : Undisturbed steps → ¬ AllSucceed steps → ∃ current,
    r = .ok .error { w with current } ∨ r = .error .deployAborted { w with current }
  escaped : ¬ Undisturbed steps → ∃ e current, e ≠ .deployAborted ∧
    r = .error e { w with current }

section Handoff

variable {commit : PyStr} {steps : List Step} {w : World}

theorem allSucceed_cons {s : Step} :
    AllSucceed (s :: steps) ↔ s.result = .ok true ∧ AllSucceed steps := List.forall_mem_cons

/-- A step that does not succeed ends the handoff. -/
theorem HandoffEnd.stop {s : Step} {r : EStateM.Result Raised World ExitCode}
    (hs : s.result ≠ .ok true)
    (hr : ∃ e current, r = .error e { w with current } ∧
      (e = .deployAborted ↔ ∀ e', s.result = .error e' → s.handles e' = true)) :
    HandoffEnd (s :: steps) commit w r := by
  obtain ⟨e, current, rfl, hhandles⟩ := hr
  have hreached : Undisturbed (s :: steps) ↔ ∀ e', s.result = .error e' → s.handles e' = true :=
    ⟨fun h => h.1, fun h => ⟨h, fun hok => absurd hok hs⟩⟩
  refine ⟨fun h => absurd (allSucceed_cons.1 h).1 hs, fun h _ => ?_, fun h => ?_⟩
  · obtain rfl := hhandles.2 (hreached.1 h)
    exact ⟨current, .inr rfl⟩
  · exact ⟨e, current, fun he => h (hreached.2 (hhandles.1 he)), rfl⟩

/-- A step that succeeds leaves the end to the others. -/
theorem HandoffEnd.next {s : Step} {r : EStateM.Result Raised World ExitCode}
    (hs : s.result = .ok true) (h : HandoffEnd steps commit w r) :
    HandoffEnd (s :: steps) commit w r := by
  have hreached : Undisturbed (s :: steps) ↔ Undisturbed steps := by
    refine ⟨fun hu => hu.2 hs, fun hu => ⟨fun e he => ?_, fun _ => hu⟩⟩
    rw [hs] at he
    cases he
  have hall : AllSucceed (s :: steps) ↔ AllSucceed steps := by
    rw [allSucceed_cons]
    exact and_iff_right hs
  exact ⟨fun hsucceed => h.succeeded (hall.1 hsucceed),
    fun hu hnot => h.refused (hreached.1 hu) (mt hall.2 hnot),
    fun hnot => h.escaped (mt hreached.2 hnot)⟩

/-- `if not ...: raise DeployAbortedError`, and the rest. -/
theorem HandoffEnd.require {result : Except Raised Bool} {p : Helper ExitCode}
    (h : result = .ok true → HandoffEnd steps commit w (p w)) :
    HandoffEnd (⟨result, aborted⟩ :: steps) commit w ((require result >>= fun _ => p) w) := by
  cases result with
  | error e =>
    refine .stop nofun ⟨e, w.current, rfl, ?_⟩
    refine ⟨fun he e' he' => ?_, fun hall => of_decide_eq_true (hall e rfl)⟩
    cases he'
    exact decide_eq_true he
  | ok b =>
    cases b with
    | false => exact .stop nofun ⟨.deployAborted, w.current, rfl, fun _ => nofun, fun _ => rfl⟩
    | true => exact .next rfl (h rfl)

/-- The request, whose lock timeout is an abort. -/
theorem HandoffEnd.request {r : RunAnswer} {p : ℤ → Helper ExitCode}
    (h : ∀ g, requestRunClient r = .ok g → HandoffEnd steps commit w (p g w)) :
    HandoffEnd (⟨(requestRunClient r).map fun _ => true,
      fun e => e = .deployAborted || e = .generationLockTimeout⟩ :: steps) commit w
      ((requestOrAbort r >>= p) w) := by
  cases hr : requestRunClient r with
  | ok g =>
    have hrun : requestOrAbort r w = .ok g w := by
      rw [requestOrAbort, hr]
      rfl
    rw [run_bind_ok hrun]
    exact .next rfl (h g hr)
  | error e =>
    have hanswer : (answer (.error e) : Helper ℤ) w = .error e w := rfl
    by_cases htimeout : e = .generationLockTimeout
    · have hrun : requestOrAbort r w = .error .deployAborted w := by
        rw [requestOrAbort, hr, run_tryCatch_error hanswer, if_pos htimeout]
        rfl
      rw [run_bind_error hrun]
      refine .stop nofun ⟨.deployAborted, w.current, rfl, fun _ e' he' => ?_, fun _ => rfl⟩
      cases he'
      simp [htimeout]
    · have hrun : requestOrAbort r w = .error e w := by
        rw [requestOrAbort, hr, run_tryCatch_error hanswer, if_neg htimeout]
        rfl
      rw [run_bind_error hrun]
      refine .stop nofun ⟨e, w.current, rfl, fun he e' he' => ?_, fun hall => ?_⟩
      · cases he'
        simp [he]
      · simpa [htimeout] using hall e rfl

/-- The metadata, its worker and its commit. -/
theorem HandoffEnd.worker {a : Answers} {p : Helper ExitCode}
    (h : HandoffEnd steps commit w (p w)) :
    HandoffEnd (⟨a.metadata.map Option.isSome, aborted⟩ :: ⟨a.workerAlive, aborted⟩ ::
      ⟨.ok (a.recordsCommit commit), aborted⟩ :: steps) commit w
      ((requireWorker a commit >>= fun _ => p) w) := by
  cases hm : a.metadata with
  | error e =>
    have hrun : requireWorker a commit w = .error e w := by
      rw [requireWorker, hm]
      rfl
    rw [run_bind_error hrun]
    refine .stop nofun ⟨e, w.current, rfl, fun he e' he' => ?_, fun hall =>
      of_decide_eq_true (hall e rfl)⟩
    cases he'
    exact decide_eq_true he
  | ok found =>
    cases found with
    | none =>
      have hrun : requireWorker a commit w = .error .deployAborted w := by
        rw [requireWorker, hm]
        rfl
      rw [run_bind_error hrun]
      exact .stop nofun ⟨.deployAborted, w.current, rfl, fun _ => nofun, fun _ => rfl⟩
    | some m =>
      have hrecords : a.recordsCommit commit = decide (m.gitCommit = some commit) := by
        rw [Answers.recordsCommit, hm]
        rfl
      have hprogram : (requireWorker a commit >>= fun _ => p) w =
          (QueueHandoff.require a.workerAlive >>= fun _ =>
            QueueHandoff.require (.ok (m.gitCommit = some commit)) >>= fun _ => p) w := by
        rw [requireWorker, hm]
        show ((QueueHandoff.require a.workerAlive >>= fun _ =>
          QueueHandoff.require (.ok (m.gitCommit = some commit))) >>= fun _ => p) w = _
        rw [bind_assoc]
      rw [hprogram, hrecords]
      exact .next rfl (.require fun _ => .require fun _ => h)

/-- How the attempts at the pointer end. -/
theorem tryActivations_ends (collected : Except Raised Unit) (commit : PyStr)
    (switches : List Switch) (w : World) :
    match activationOutcome switches with
    | .ok true => tryActivations collected commit switches w =
        (answer collected >>= fun _ => return true) { w with current := some commit }
    | .ok false => ∃ current, tryActivations collected commit switches w =
        .ok false { w with current }
    | .error e => ∃ current, tryActivations collected commit switches w =
        .error e { w with current } := by
  induction switches generalizing w with
  | nil => exact ⟨w.current, rfl⟩
  | cons s switches ih =>
    cases s with
    | switched => rfl
    | failed e leaves =>
      have hset : (do setCurrent (.failed e leaves) commit; return true : Helper Bool) w =
          .error e { w with current := leaves } := rfl
      rw [activationOutcome, tryActivations]
      by_cases hcli : e = .cliError
      · have hrun : switchSucceeds (.failed e leaves) commit w =
            .ok false { w with current := leaves } := by
          rw [switchSucceeds, run_tryCatch_error hset, if_pos hcli]
          rfl
        rw [if_pos hcli, run_bind_ok hrun]
        exact ih _
      · have hrun : switchSucceeds (.failed e leaves) commit w =
            .error e { w with current := leaves } := by
          rw [switchSucceeds, run_tryCatch_error hset, if_neg hcli]
          rfl
        rw [if_neg hcli, run_bind_error hrun]
        exact ⟨leaves, rfl⟩

/-- The activation, and the garbage collection behind it. -/
theorem HandoffEnd.activation (a : Answers) :
    HandoffEnd [⟨activationOutcome (List.ofFn a.activation), aborted⟩,
      ⟨a.collected.map fun _ => true, aborted⟩] commit w
      ((activateMaintainedCli a commit >>= fun ok =>
        if ok then return .ok else return .error) w) := by
  have hends := tryActivations_ends a.collected commit (List.ofFn a.activation) w
  rw [activateMaintainedCli]
  cases houtcome : activationOutcome (List.ofFn a.activation) with
  | error e =>
    rw [houtcome] at hends
    obtain ⟨current, hrun⟩ := hends
    rw [run_bind_error hrun]
    refine .stop nofun ⟨e, current, rfl, fun he e' he' => ?_, fun hall =>
      of_decide_eq_true (hall e rfl)⟩
    cases he'
    exact decide_eq_true he
  | ok b =>
    rw [houtcome] at hends
    cases b with
    | false =>
      obtain ⟨current, hrun⟩ := hends
      rw [run_bind_ok hrun]
      have hreached : Undisturbed
          [⟨.ok false, aborted⟩, ⟨a.collected.map fun _ => true, aborted⟩] := ⟨nofun, nofun⟩
      refine ⟨fun h => ?_, fun _ _ => ⟨current, .inl rfl⟩, fun h => absurd hreached h⟩
      cases (allSucceed_cons.1 h).1
    | true =>
      refine .next rfl ?_
      cases hcollected : a.collected with
      | ok u =>
        rw [hcollected] at hends
        rw [run_bind_ok hends]
        exact .next rfl ⟨fun _ => rfl, fun _ h => absurd (fun _ hmem => by cases hmem) h,
          fun h => absurd trivial h⟩
      | error e =>
        rw [hcollected] at hends
        rw [run_bind_error hends]
        refine .stop nofun ⟨e, some commit, rfl, fun he e' he' => ?_, fun hall =>
          of_decide_eq_true (hall e rfl)⟩
        cases he'
        exact decide_eq_true he

/-- **How the handoff ends**, from its steps. -/
theorem completeDeployHandoff_ends (a : Answers) (commit : PyStr) (w : World)
    (hlive : a.supervisorRunning = true) :
    HandoffEnd (handoffSteps a commit) commit w (completeDeployHandoff a commit w) := by
  have hprogram : completeDeployHandoff a commit =
      requestOrAbort a.request >>= fun generation =>
        require (waitForGeneration generation a.appliedPolls) >>= fun _ =>
          require (waitUntilReady generation none a.readyPolls) >>= fun _ =>
            requireWorker a commit >>= fun _ =>
              require a.postgres >>= fun _ =>
                activateMaintainedCli a commit >>= fun ok =>
                  if ok then return .ok else return .error := by
    rw [completeDeployHandoff, handOver, if_pos hlive, deployThroughSupervisor]
    simp only [bind_assoc]
  rw [hprogram]
  refine .request fun g hg => ?_
  have hgeneration : a.generation = g := by
    rw [Answers.generation, hg]
    rfl
  rw [← hgeneration]
  exact .require fun _ => .require fun _ => .worker (.require fun _ => .activation a)

end Handoff

/-! ## The steps of the decision -/

/-- An exception that may be raised, as a step. -/
def raises : Option Raised → Except Raised Bool
  | none => .ok true
  | some e => .error e

/-- The steps of a look at the candidate. -/
def lookSteps (l : Look) : List Step :=
  [⟨l.lock.map fun _ => true, fun e => e = .generationLockTimeout⟩,
    ⟨raises l.desiredError, fun e => e = .desiredIntent || e = .generationLockTimeout⟩,
    ⟨raises l.statusError, fun e => e = .generationLockTimeout⟩]

/-- The intent and the applied state name the commit. -/
def InForce.Names (i : InForce) (commit : PyStr) : Prop :=
  (∃ d, i.desired = some d ∧ d.commit = commit) ∧
    ∃ s, i.status = some s ∧ s.commit = some commit

/-- The candidate has converged: the intent and a ready applied state name it. -/
def InForce.Converged (i : InForce) (commit : PyStr) : Prop :=
  (∃ d, i.desired = some d ∧ d.commit = commit) ∧
    ∃ s, i.status = some s ∧ s.commit = some commit ∧ s.ready = some true

theorem InForce.Converged.names {i : InForce} {commit : PyStr} (h : i.Converged commit) :
    i.Names commit := by
  obtain ⟨hdesired, s, hs, hcommit, -⟩ := h
  exact ⟨hdesired, s, hs, hcommit⟩

/-- What is authorized has converged. -/
theorem InForce.converged_of_authorizes {i : InForce} {commit : PyStr}
    {minimum : SupervisorStatus → ℤ} (h : i.authorizes commit minimum = true) :
    i.Converged commit := by
  rw [InForce.authorizes] at h
  cases hd : i.desired with
  | none =>
    rw [hd] at h
    cases h
  | some d =>
    cases hs : i.status with
    | none =>
      rw [hd, hs] at h
      cases h
    | some status =>
      rw [hd, hs] at h
      simp only [authorizeSupervisorConvergence, Bool.and_eq_true, decide_eq_true_eq] at h
      obtain ⟨⟨⟨⟨⟨⟨-, hdesired, happlied⟩, -⟩, -⟩, hready⟩, -⟩, -⟩ := h
      exact ⟨⟨d, hd, hdesired⟩, status, hs, happlied, hready⟩

section Decision

variable {l : Look} {commit : PyStr} {w : World}

theorem underGenerationLock_error {lock : Except Raised Unit} {body onTimeout : Helper Bool}
    {e : Raised} {w' : World} (h : (do answer lock; body : Helper Bool) w = .error e w') :
    underGenerationLock lock body onTimeout w =
      if e = .generationLockTimeout then onTimeout w' else .error e w' := by
  rw [underGenerationLock, run_tryCatch_error h]
  split_ifs <;> rfl

theorem candidateConvergenceLocked_run : candidateConvergenceLocked l commit w =
    match l.converged commit SupervisorStatus.appliedGeneration with
    | .ok b => .ok (b && decide (w.current = some commit)) w
    | .error e => .error e w := by
  rw [candidateConvergenceLocked]
  cases l.converged commit SupervisorStatus.appliedGeneration <;> rfl

/-- What the check of the candidate returns or raises. -/
theorem queueDeployCandidateConverged_run : queueDeployCandidateConverged l commit w =
    match l.lock, l.converged commit SupervisorStatus.appliedGeneration with
    | .error e, _ => if e = .generationLockTimeout then .ok false w else .error e w
    | .ok _, .error e => if e = .generationLockTimeout then .ok false w else .error e w
    | .ok _, .ok b => .ok (b && decide (w.current = some commit)) w := by
  rw [queueDeployCandidateConverged]
  cases hlock : l.lock with
  | error e => exact underGenerationLock_error rfl
  | ok u =>
    have hbody : (do answer (.ok u); candidateConvergenceLocked l commit : Helper Bool) w =
        candidateConvergenceLocked l commit w := rfl
    rw [candidateConvergenceLocked_run] at hbody
    cases hlook : l.converged commit SupervisorStatus.appliedGeneration with
    | error e =>
      rw [hlook] at hbody
      exact underGenerationLock_error hbody
    | ok b =>
      rw [hlook] at hbody
      exact run_tryCatch_ok hbody _

/-- An exception of the reads, under the lock. -/
theorem converged_error_iff {minimum : SupervisorStatus → ℤ} {e : Raised} :
    l.converged commit minimum = .error e ↔
      l.desiredError = some e ∧ e ≠ .desiredIntent ∨
        l.desiredError = none ∧ l.statusError = some e := by
  rw [Look.converged]
  cases l.desiredError with
  | some e' =>
    by_cases hintent : e' = .desiredIntent
    · simp only [if_pos hintent, reduceCtorEq, Option.some.injEq, false_and, or_false, false_iff]
      rintro ⟨rfl, hne⟩
      exact hne hintent
    · simp only [if_neg hintent, Except.error.injEq, Option.some.injEq, reduceCtorEq, false_and,
        or_false]
      constructor
      · rintro rfl
        exact ⟨rfl, hintent⟩
      · exact fun h => h.1
  | none =>
    cases l.statusError with
    | some e' => simp
    | none => simp

/-- A look whose steps are undisturbed, by its answers. -/
theorem undisturbed_look_iff (commit : PyStr) : Undisturbed (lookSteps l) ↔
    (∀ e, l.lock = .error e → e = .generationLockTimeout) ∧
      ∀ u e, l.lock = .ok u → l.converged commit SupervisorStatus.appliedGeneration = .error e →
        e = .generationLockTimeout := by
  cases hlock : l.lock with
  | error e => simp [lookSteps, Undisturbed, hlock, Except.map]
  | ok u =>
    simp only [converged_error_iff]
    cases hd : l.desiredError with
    | some e => simp [lookSteps, Undisturbed, hlock, Except.map, raises, hd]; tauto
    | none =>
      cases hs : l.statusError with
      | some e => simp [lookSteps, Undisturbed, hlock, Except.map, raises, hd, hs]
      | none => simp [lookSteps, Undisturbed, hlock, Except.map, raises, hd, hs]

theorem converged_of_look {minimum : SupervisorStatus → ℤ}
    (h : l.converged commit minimum = .ok true) : l.inForce.Converged commit := by
  rw [Look.converged] at h
  cases hd : l.desiredError with
  | some e =>
    rw [hd] at h
    simp only at h
    split_ifs at h
    cases h
  | none =>
    cases hs : l.statusError with
    | some e =>
      rw [hd, hs] at h
      cases h
    | none =>
      rw [hd, hs] at h
      exact InForce.converged_of_authorizes (Except.ok.inj h)

/-- A look that is undisturbed decides, and only for a candidate that has converged. -/
theorem queueDeployCandidateConverged_returns (commit : PyStr) (w : World)
    (h : Undisturbed (lookSteps l)) :
    ∃ converged, queueDeployCandidateConverged l commit w = .ok converged w ∧
      (converged = true → l.inForce.Converged commit ∧ w.current = some commit) := by
  obtain ⟨hlock, hreads⟩ := (undisturbed_look_iff commit).1 h
  rw [queueDeployCandidateConverged_run]
  cases hl : l.lock with
  | error e => exact ⟨false, if_pos (hlock e hl), nofun⟩
  | ok u =>
    cases hr : l.converged commit SupervisorStatus.appliedGeneration with
    | error e => exact ⟨false, if_pos (hreads u e hl hr), nofun⟩
    | ok b =>
      refine ⟨_, rfl, fun hb => ?_⟩
      obtain ⟨rfl, hcurrent⟩ := Bool.and_eq_true_iff.1 hb
      exact ⟨converged_of_look hr, of_decide_eq_true hcurrent⟩

/-- A look that is disturbed raises. -/
theorem queueDeployCandidateConverged_raises (commit : PyStr) (w : World)
    (h : ¬ Undisturbed (lookSteps l)) :
    ∃ e, queueDeployCandidateConverged l commit w = .error e w := by
  rw [undisturbed_look_iff commit] at h
  rw [queueDeployCandidateConverged_run]
  cases hl : l.lock with
  | error e =>
    have htimeout : e ≠ .generationLockTimeout := by
      intro htimeout
      refine h ⟨fun e' he' => ?_, fun u e' hu => ?_⟩
      · rw [hl] at he'
        cases he'
        exact htimeout
      · rw [hl] at hu
        cases hu
    exact ⟨e, if_neg htimeout⟩
  | ok u =>
    cases hr : l.converged commit SupervisorStatus.appliedGeneration with
    | error e =>
      have htimeout : e ≠ .generationLockTimeout := by
        intro htimeout
        refine h ⟨fun e' he' => ?_, fun u' e' _ he' => ?_⟩
        · rw [hl] at he'
          cases he'
        · rw [hr] at he'
          cases he'
          exact htimeout
      exact ⟨e, if_neg htimeout⟩
    | ok b =>
      refine absurd ⟨fun e' he' => ?_, fun u' e' _ he' => ?_⟩ h
      · rw [hl] at he'
        cases he'
      · rw [hr] at he'
        cases he'

end Decision

/-! ## The restoration -/

/-- The restoration keeps what it requested, and reports a restored commit only at its end. -/
structure Settling (w w' : World) : Prop where
  settling : w'.settling = w.settling
  unreported : .restored ∉ w.log → .restored ∉ w'.log

instance : Std.Refl Settling := ⟨fun _ => ⟨rfl, id⟩⟩

instance : IsTrans World Settling :=
  ⟨fun _ _ _ h h' => ⟨h'.settling.trans h.settling, fun hw => h'.unreported (h.unreported hw)⟩⟩

section Restoration

variable {commit : PyStr}

theorem answer_settling {α : Type} (r : Except Raised α) : Guarantees Settling (answer r) := by
  cases r with
  | ok a => exact .pure a
  | error e => exact .throw e

theorem appendDeployLog_settling (entry : Entry) (h : entry ≠ .restored) :
    Guarantees Settling (appendDeployLog entry) := by
  refine .modify fun w => ⟨rfl, fun hw hmem => ?_⟩
  rcases List.mem_cons.1 hmem with heq | hmem
  · exact h heq.symm
  · exact hw hmem

theorem switchSucceeds_settling (s : Switch) (commit : PyStr) :
    Guarantees Settling (switchSucceeds s commit) := by
  refine .tryCatch (.bind ?_ fun _ => .pure _) fun e => .ite (.pure _) (.throw _)
  cases s with
  | switched => exact .modify fun w => ⟨rfl, id⟩
  | failed e leaves => exact .bind (.modify fun w => ⟨rfl, id⟩) fun _ => .throw e

theorem reconcilePointer_settling (usable : Except Raised Bool) (s : Switch) (commit : PyStr) :
    Guarantees Settling (reconcilePointer usable s commit) :=
  .bind (answer_settling _) fun _ => .ite
    (.bind .get fun _ => .ite (.pure _) (switchSucceeds_settling s commit)) (.pure _)

theorem underGenerationLock_settling {lock : Except Raised Unit} {body onTimeout : Helper Bool}
    (hbody : Guarantees Settling body) (hlate : Guarantees Settling onTimeout) :
    Guarantees Settling (underGenerationLock lock body onTimeout) :=
  .tryCatch (.bind (answer_settling _) fun _ => hbody) fun _ => .ite hlate (.throw _)

theorem reconcileRestored_settling (a : Answers) (commit : PyStr) (settle : ℤ) :
    Guarantees Settling (reconcileRestored a commit settle) :=
  underGenerationLock_settling
    (.bind (answer_settling _) fun _ => .ite (reconcilePointer_settling _ _ _) (.pure _))
    (.bind (appendDeployLog_settling _ nofun) fun _ => .pure _)

theorem awaitRestored_settling (a : Answers) (commit : PyStr) (settle : ℤ) :
    Guarantees Settling (awaitRestored a commit settle) :=
  .bind (answer_settling _) fun _ => .ite (answer_settling _) (.pure _)

theorem answer_eq_ok {α : Type} {r : Except Raised α} {a : α} {w w' : World} :
    answer r w = .ok a w' ↔ r = .ok a ∧ w' = w := by
  cases r with
  | ok b =>
    constructor
    · intro h
      cases h
      exact ⟨rfl, rfl⟩
    · rintro ⟨h, rfl⟩
      cases h
      rfl
  | error e => exact ⟨fun h => (by cases h), fun h => (by cases h.1)⟩

/-- A pointer that was reconciled selects the commit. -/
theorem reconcilePointer_selects {usable : Except Raised Bool} {s : Switch} {w w' : World}
    (h : reconcilePointer usable s commit w = .ok true w') : w'.current = some commit := by
  obtain ⟨isUsable, w₁, hu, h⟩ := run_bind_eq_ok.1 h
  obtain ⟨-, rfl⟩ := answer_eq_ok.1 hu
  cases isUsable with
  | false => cases h
  | true =>
    rw [if_pos rfl, run_get_bind] at h
    by_cases hcurrent : w₁.current = some commit
    · rw [if_pos hcurrent] at h
      cases h
      exact hcurrent
    · rw [if_neg hcurrent] at h
      cases s with
      | switched =>
        cases h
        rfl
      | failed e leaves =>
        have hset : (do setCurrent (.failed e leaves) commit; return true : Helper Bool) w₁ =
            .error e { w₁ with current := leaves } := rfl
        rw [switchSucceeds, run_tryCatch_error hset] at h
        split_ifs at h
        · cases h
        · cases h

/-- What was reconciled was in force, and the pointer selects it. -/
theorem reconcileRestored_names {a : Answers} {settle : ℤ} {w w' : World}
    (h : reconcileRestored a commit settle w = .ok true w') :
    a.restore.inForce.Names commit ∧ w'.current = some commit := by
  cases hbody : (do
      answer a.restore.lock
      if ← answer (a.restore.converged commit fun _ => settle) then
        reconcilePointer a.usable a.reconciliation commit
      else return false : Helper Bool) w with
  | error e w₁ =>
    rw [reconcileRestored, underGenerationLock_error hbody] at h
    split_ifs at h
    cases h
  | ok b w₁ =>
    rw [reconcileRestored, underGenerationLock, run_tryCatch_ok hbody] at h
    cases h
    obtain ⟨u, w₂, -, hbody⟩ := run_bind_eq_ok.1 hbody
    obtain ⟨converged, w₃, hlook, hbody⟩ := run_bind_eq_ok.1 hbody
    cases converged with
    | false => cases hbody
    | true =>
      exact ⟨(converged_of_look (answer_eq_ok.1 hlook).1).names,
        reconcilePointer_selects hbody⟩

/-- Once the run is requested, the restoration keeps the request, and reports a restored commit
only where everything names it. -/
structure Restoring (a : Answers) (commit : PyStr) (w w' : World) : Prop where
  settling : w'.settling = w.settling
  reported : .restored ∉ w.log → .restored ∈ w'.log →
    a.restore.inForce.Names commit ∧ w'.current = some commit

theorem Settling.restoring {a : Answers} {w w' : World} (h : Settling w w') :
    Restoring a commit w w' :=
  ⟨h.settling, fun hw hmem => absurd hmem (h.unreported hw)⟩

theorem awaitSettlement_restoring (a : Answers) (commit : PyStr) (settle : ℤ) (w : World) :
    Restoring a commit w (after (awaitSettlement a commit settle) w) := by
  have hawait := awaitRestored_settling a commit settle w
  cases hr : awaitRestored a commit settle w with
  | error e w₁ =>
    rw [after, hr] at hawait
    rw [awaitSettlement, after_bind_error hr]
    exact hawait.restoring
  | ok restored w₁ =>
    rw [after, hr] at hawait
    rw [awaitSettlement, after_bind_ok hr]
    cases restored with
    | false =>
      have hlog := appendDeployLog_settling .notRestored (fun h => by cases h) w₁
      exact (IsTrans.trans _ _ _ hawait hlog : Settling w _).restoring
    | true =>
      have hreconcile := reconcileRestored_settling a commit settle w₁
      rw [if_pos rfl]
      cases hc : reconcileRestored a commit settle w₁ with
      | error e w₂ =>
        rw [after, hc] at hreconcile
        rw [after_bind_error hc]
        exact (IsTrans.trans _ _ _ hawait hreconcile : Settling w _).restoring
      | ok reconciled w₂ =>
        rw [after, hc] at hreconcile
        rw [after_bind_ok hc]
        have hboth : Settling w w₂ := IsTrans.trans _ _ _ hawait hreconcile
        cases reconciled with
        | false =>
          have hlog := appendDeployLog_settling .notRestored (fun h => by cases h) w₂
          exact (IsTrans.trans _ _ _ hboth hlog : Settling w _).restoring
        | true =>
          have hnames := reconcileRestored_names hc
          exact ⟨hboth.settling, fun _ _ => hnames⟩

/-- The request of the restoration; `none` is an exception it catches. -/
theorem settleRequest_run (r : RunAnswer) (w : World) :
    (∃ settle, (tryCatch (some <$> answer (requestRunClient r)) fun e =>
      if e = .osError ∨ e = .generationLockTimeout then return none else throw e :
        Helper (Option ℤ)) w = .ok settle w) ∨
    ∃ e, (tryCatch (some <$> answer (requestRunClient r)) fun e =>
      if e = .osError ∨ e = .generationLockTimeout then return none else throw e :
        Helper (Option ℤ)) w = .error e w := by
  cases requestRunClient r with
  | ok settle => exact .inl ⟨some settle, rfl⟩
  | error e =>
    have hrun : (some <$> answer (.error e) : Helper (Option ℤ)) w = .error e w := rfl
    rw [run_tryCatch_error hrun]
    split_ifs
    · exact .inl ⟨none, rfl⟩
    · exact .inr ⟨e, rfl⟩

/-- **What the restoration requests**, whatever it is answered. -/
theorem settleBack_restoring (a : Answers) (commit : PyStr) (w : World) :
    Restoring a commit { w with settling := some commit } (after (settleBack a commit) w) := by
  have hrequested : (modify fun w => { w with settling := some commit } : Helper PUnit) w =
      .ok ⟨⟩ { w with settling := some commit } := rfl
  rw [settleBack, after_bind_ok hrequested]
  rcases settleRequest_run a.settle { w with settling := some commit } with ⟨settle, hr⟩ | ⟨e, hr⟩
  · rw [after_bind_ok hr]
    cases settle with
    | none =>
      have hlog := appendDeployLog_settling .restoreErrored nofun
        { w with settling := some commit }
      exact hlog.restoring
    | some settle => exact awaitSettlement_restoring a commit settle _
  · rw [after_bind_error hr]
    exact ⟨rfl, fun hw hmem => absurd hmem hw⟩

end Restoration

/-! ## A failed deploy -/

/-- A failed deploy is settled back: no exception ends the helper before the decision, a candidate
that has not converged makes it request a run of the previous commit, and where it reports that
commit restored, everything names it. -/
structure SettledBack (a : Answers) (commit previousCommit : PyStr) (m : Helper Unit) (w : World) :
    Prop where
  decided : ∀ e w', m w = .error e w' → w'.settling = some previousCommit
  requested : ¬ (a.candidate.inForce.Converged commit ∧ (after m w).current = some commit) →
    (after m w).settling = some previousCommit
  restored : .restored ∈ (after m w).log →
    a.restore.inForce.Names previousCommit ∧ (after m w).current = some previousCommit

/-- Every exception up to the decision is handled, and a handoff whose steps all succeed leaves the
candidate converged. -/
structure Handled (a : Answers) (commit : PyStr) : Prop where
  handoff : Undisturbed (handoffSteps a commit)
  converged : AllSucceed (handoffSteps a commit) → a.candidate.inForce.Converged commit
  decision : ¬ AllSucceed (handoffSteps a commit) → Undisturbed (lookSteps a.candidate)

section Failed

variable {a : Answers} {commit previousCommit : PyStr} {previous : WorkerMeta} {w : World}

/-- A program that runs another one in a later world settles what that one settles. -/
theorem SettledBack.of_eq {m m' : Helper Unit} {w' : World} (hrun : m w = m' w')
    (h : SettledBack a commit previousCommit m' w') : SettledBack a commit previousCommit m w := by
  have hafter : after m w = after m' w' := by
    rw [after, after, hrun]
  exact ⟨fun e w'' he => h.decided e w'' (hrun ▸ he), hafter ▸ h.requested, hafter ▸ h.restored⟩

/-- The restoration of the previous commit is a settlement. -/
theorem settleBack_settles (hw : .restored ∉ w.log) :
    SettledBack a commit previousCommit (settleBack a previousCommit) w := by
  have h := settleBack_restoring a previousCommit w
  refine ⟨fun e w' he => ?_, fun _ => h.settling, h.reported hw⟩
  have hafter : after (settleBack a previousCommit) w = w' := by rw [after, he]
  rw [← hafter]
  exact h.settling

/-- The decision settles, where its look is undisturbed. -/
theorem restoreAfterHandoffFailure_settles (hstill : a.stillRunning = true)
    (hprevious : previous.gitCommit = some previousCommit) (hw : .restored ∉ w.log)
    (hlook : Undisturbed (lookSteps a.candidate)) :
    SettledBack a commit previousCommit
      (restoreAfterHandoffFailure a commit (some previous)) w := by
  obtain ⟨converged, hrun, hconverged⟩ := queueDeployCandidateConverged_returns commit w hlook
  have hprogram : restoreAfterHandoffFailure a commit (some previous) w =
      (if converged then appendDeployLog .nothingToRestore else settleBack a previousCommit) w := by
    rw [restoreAfterHandoffFailure, if_pos hstill, run_bind_ok hrun, Option.bind_some, hprevious]
  refine .of_eq hprogram ?_
  cases converged with
  | false => exact settleBack_settles hw
  | true =>
    refine ⟨fun e w' he => (by cases he), fun hnot => absurd (hconverged rfl) hnot, fun hmem => ?_⟩
    rcases List.mem_cons.1 hmem with heq | hmem
    · cases heq
    · exact absurd hmem hw

/-- A look that is disturbed ends the helper before the decision. -/
theorem not_settled_of_disturbed (hstill : a.stillRunning = true) (hw : w.settling = none)
    (hlook : ¬ Undisturbed (lookSteps a.candidate)) :
    ¬ SettledBack a commit previousCommit
      (restoreAfterHandoffFailure a commit (some previous)) w := by
  intro h
  obtain ⟨e, hrun⟩ := queueDeployCandidateConverged_raises commit w hlook
  have hraised : restoreAfterHandoffFailure a commit (some previous) w = .error e w := by
    rw [restoreAfterHandoffFailure, if_pos hstill, run_bind_error hrun]
  have hsettling := h.decided e w hraised
  rw [hw] at hsettling
  cases hsettling

/-- The decision is reached, in a world where nothing was requested or reported. -/
theorem finishQueueDeploy_refused (previous : WorkerMeta) (current : Option PyStr)
    (hlive : a.supervisorRunning = true)
    (hsteps : Undisturbed (handoffSteps a commit)) (hnot : ¬ AllSucceed (handoffSteps a commit)) :
    ∃ w', w'.settling = none ∧ .restored ∉ w'.log ∧
      finishQueueDeploy a commit (some previous) ⟨current, none, []⟩ =
        restoreAfterHandoffFailure a commit (some previous) w' := by
  obtain ⟨current', hend⟩ :=
    (completeDeployHandoff_ends a commit ⟨current, none, []⟩ hlive).refused hsteps hnot
  rcases hend with hend | hend
  · refine ⟨⟨current', none, [.clisBehind]⟩, rfl, by simp, ?_⟩
    rw [finishQueueDeploy, run_bind_ok (run_tryCatch_ok (run_map_ok hend some) _)]
    rfl
  · refine ⟨⟨current', none, [.handoffFailed]⟩, rfl, by simp, ?_⟩
    have hcaught : (tryCatch (some <$> completeDeployHandoff a commit) fun e =>
        if e = .deployAborted then return none else throw e : Helper (Option ExitCode))
          ⟨current, none, []⟩ = .ok none ⟨current', none, []⟩ := by
      rw [run_tryCatch_error (run_map_error hend some), if_pos rfl]
      rfl
    rw [finishQueueDeploy, run_bind_ok hcaught]
    rfl

/-- An exception of the handoff that is not handled ends the helper. -/
theorem finishQueueDeploy_escaped (previous : WorkerMeta) (current : Option PyStr)
    (hlive : a.supervisorRunning = true)
    (hsteps : ¬ Undisturbed (handoffSteps a commit)) :
    ∃ e current', finishQueueDeploy a commit (some previous) ⟨current, none, []⟩ =
      .error e ⟨current', none, []⟩ := by
  obtain ⟨e, current', hne, hend⟩ :=
    (completeDeployHandoff_ends a commit ⟨current, none, []⟩ hlive).escaped hsteps
  refine ⟨e, current', ?_⟩
  have hraised : (tryCatch (some <$> completeDeployHandoff a commit) fun e =>
      if e = .deployAborted then return none else throw e : Helper (Option ExitCode))
        ⟨current, none, []⟩ = .error e ⟨current', none, []⟩ := by
    rw [run_tryCatch_error (run_map_error hend some), if_neg hne]
    rfl
  rw [finishQueueDeploy, run_bind_error hraised]

theorem finishQueueDeploy_succeeded (previous : WorkerMeta) (current : Option PyStr)
    (hlive : a.supervisorRunning = true)
    (hall : AllSucceed (handoffSteps a commit)) :
    finishQueueDeploy a commit (some previous) ⟨current, none, []⟩ =
      .ok () ⟨some commit, none, [.converged]⟩ := by
  have hend := (completeDeployHandoff_ends a commit ⟨current, none, []⟩ hlive).succeeded hall
  rw [finishQueueDeploy, run_bind_ok (run_tryCatch_ok (run_map_ok hend some) _)]
  rfl

end Failed

/-- **When a failed queue deploy is settled back.** With a live supervisor and a previous worker
record with a known commit, whatever the steps are answered: the deploy is settled back exactly when
every exception up to the decision is one the helper handles there, and the candidate has converged
where every step of the handoff succeeded. -/
theorem failed_deploy_settled_iff (a : Answers) (commit previousCommit : PyStr)
    (previous : WorkerMeta) (current : Option PyStr) (hlive : a.supervisorRunning = true)
    (hstill : a.stillRunning = true) (hprevious : previous.gitCommit = some previousCommit) :
    SettledBack a commit previousCommit (finishQueueDeploy a commit (some previous))
      ⟨current, none, []⟩ ↔ Handled a commit := by
  by_cases hsteps : Undisturbed (handoffSteps a commit)
  · by_cases hall : AllSucceed (handoffSteps a commit)
    · have hrun := finishQueueDeploy_succeeded previous current hlive hall
      have hafter : after (finishQueueDeploy a commit (some previous)) ⟨current, none, []⟩ =
          ⟨some commit, none, [.converged]⟩ := by rw [after, hrun]
      constructor
      · intro h
        refine ⟨hsteps, fun _ => ?_, fun hnot => absurd hall hnot⟩
        by_contra hconverged
        have hsettling := h.requested fun hc => hconverged hc.1
        rw [hafter] at hsettling
        cases hsettling
      · intro h
        refine ⟨fun e w' he => ?_, fun hnot => ?_, fun hmem => ?_⟩
        · rw [hrun] at he
          cases he
        · rw [hafter] at hnot
          exact absurd ⟨h.converged hall, rfl⟩ hnot
        · rw [hafter] at hmem
          simp at hmem
    · obtain ⟨w', hnone, hlog, hrun⟩ := finishQueueDeploy_refused previous current hlive hsteps hall
      constructor
      · intro h
        refine ⟨hsteps, fun h' => absurd h' hall, fun _ => ?_⟩
        by_contra hlook
        exact not_settled_of_disturbed hstill hnone hlook (.of_eq hrun.symm h)
      · intro h
        exact .of_eq hrun
          (restoreAfterHandoffFailure_settles hstill hprevious hlog (h.decision hall))
  · obtain ⟨e, current', hrun⟩ := finishQueueDeploy_escaped previous current hlive hsteps
    refine ⟨fun h => ?_, fun h => absurd h.handoff hsteps⟩
    have hsettling := h.decided e _ hrun
    cases hsettling

/-- The worker of the previous commit. -/
def previousWorker : WorkerMeta where
  schemaVersion := SCHEMA_VERSION
  state := .running
  pid := some 7
  pgid := some 7
  sid := some 7
  startTimeTicks := some 9
  token := none
  repo := "repo"
  gitCommit := some "c1"
  workerId := none
  logPath := "worker.log"
  startedAt := none
  stoppedAt := none

/-- Nothing is in force yet, and every read of it is answered. -/
def unseen : Look := ⟨⟨none, none, false⟩, .ok (), none, none⟩

/-- A live supervisor that answers the first request as given; the second one is granted, and not
applied in time. -/
def answering (request : RunAnswer) : Answers where
  supervisorRunning := true
  direct := false
  deployDirect := .error .other
  request := request
  appliedPolls := []
  readyPolls := []
  metadata := .ok none
  workerAlive := .ok false
  postgres := .ok false
  activation _ := .switched
  collected := .ok ()
  stillRunning := true
  candidate := unseen
  settle := .socket (.ok (.generation 5))
  settledPolls := []
  restoredPolls := []
  restore := unseen
  usable := .ok true
  reconciliation := .switched

/-- The rule where the helper waits for the lock itself: the timeout is an abort, and the previous
commit is requested. -/
theorem failed_deploy_settled_direct :
    SettledBack (answering (.direct (.error .generationLockTimeout))) "c2" "c1"
      (finishQueueDeploy (answering (.direct (.error .generationLockTimeout))) "c2"
        (some previousWorker)) ⟨some "c1", none, []⟩ := by
  have hhandled : Handled (answering (.direct (.error .generationLockTimeout))) "c2" := by
    refine ⟨⟨fun e he => ?_, nofun⟩, fun hall => ?_, fun _ => ⟨nofun, fun _ => ⟨nofun, fun _ =>
      ⟨nofun, fun _ => trivial⟩⟩⟩⟩
    · cases he
      rfl
    · cases (allSucceed_cons.1 hall).1
  exact (failed_deploy_settled_iff _ _ _ previousWorker _ rfl rfl rfl).2 hhandled

/-- Without the token the same timeout is an error of the daemon, which nothing catches: the helper
dies before the decision, and the previous commit is not requested. -/
theorem socket_timeout_unsettled :
    runDeployHelper (answering (.socket (.ok .error))) "c2" (some previousWorker)
        ⟨some "c1", none, []⟩ = (.died, ⟨some "c1", none, []⟩) ∧
      ¬ SettledBack (answering (.socket (.ok .error))) "c2" "c1"
        (finishQueueDeploy (answering (.socket (.ok .error))) "c2" (some previousWorker))
        ⟨some "c1", none, []⟩ := by
  have hrun : finishQueueDeploy (answering (.socket (.ok .error))) "c2" (some previousWorker)
      ⟨some "c1", none, []⟩ = .error .runtimeError ⟨some "c1", none, []⟩ := rfl
  constructor
  · rw [runDeployHelper, hrun]
    rfl
  · intro h
    have hsettling := h.decided _ _ hrun
    cases hsettling

end Lubko.Deploy.QueueHandoff
