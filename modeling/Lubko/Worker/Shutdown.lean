import Lubko.Worker.Finalize

/-!
# Shutting down

`_shutdown` abandons the pending starts, then stops, drains and finalizes every active job, and ends
by releasing all capture buffers and writing a last health snapshot. The last part stands in a
`finally`, the first stands before its `try`.

The database answers per call: for each abandoned attempt, for the lease refresh of each turn of the
drain, and then as `FinalizeAnswers` says. The system answers per turn of the drain.

Main result: `shutdown_converges_iff`. The shutdown converges exactly when no terminal write for a
pending start raises and no lease refresh of the drain breaches its deadline.
-/

namespace Lubko.Worker

open Lubko.Lib Lubko.Output

/-- What the database and the system answer during one shutdown. -/
structure ShutdownWorld where
  settings : Settings
  /-- The terminal writes for an abandoned attempt. -/
  abandon : Uuid → Outcomes
  /-- How many turns of the drain start before the grace is over. -/
  drainTurns : ℕ
  /-- The lease refresh of a turn. -/
  refresh : ℕ → Except DbError (List Uuid)
  /-- The pass over the capture pipes in a turn. -/
  capture : ℕ → CapturePass
  /-- `proc.poll()`, which a turn may call twice. -/
  poll : ℕ → Fin 2 → Uuid → Option ℤ
  /-- A process found terminal stays so. -/
  poll_stays : ∀ {m n : ℕ} {id : Uuid}, m ≤ n → (poll m 0 id).isSome → (poll n 0 id).isSome
  /-- `_owned_group_alive`, which a turn may call three times. -/
  groupAlive : ℕ → Fin 3 → Uuid → Bool
  /-- `time.monotonic()` in a turn. -/
  now : ℕ → ℚ
  /-- The answers after the drain. -/
  later : ℕ → FinalizeAnswers

/-! ## Observing one job -/

/-- `request_group_reap`. -/
def requestGroupReap (now : ℚ) (job : ActiveJob) : ActiveJob :=
  if job.termSent then job else { job with termSent := true, stopStarted := some now }

/-- `signal_kill`. -/
def signalKill (job : ActiveJob) : ActiveJob :=
  { job with
    killSent := true
    cancellationNote := job.cancellationNote.map
      (· ++ PyStr.ofString "; grace period expired, sent SIGKILL") }

namespace ShutdownWorld

variable (w : ShutdownWorld) (n : ℕ) (id : Uuid)

/-- The poll of `_observe_and_escalate`, which reaps the child. -/
def pollLeader (job : ActiveJob) : ActiveJob :=
  if job.completed then job
  else
    match w.poll n 0 id with
    | some returncode => { job with completed := true, returncode := some returncode }
    | none => job

/-- A group that outlives its leader is told to stop. -/
def reapGroup (job : ActiveJob) : ActiveJob :=
  if job.completed && !job.termSent && w.groupAlive n 0 id then requestGroupReap (w.now n) job
  else job

/-- A stop that outlasted its grace becomes a kill. -/
def escalate (job : ActiveJob) : ActiveJob :=
  match job.stopStarted with
  | some stopStarted =>
    let graceElapsed := w.settings.cancelGraceSeconds ≤ w.now n - stopStarted
    let leaderAlive := (w.poll n 1 id).isNone
    if job.termSent && !job.killSent && graceElapsed && (leaderAlive || w.groupAlive n 1 id) then
      signalKill job
    else job
  | none => job

/-- `_observe_and_escalate`: whether the leader has exited and no group member remains. -/
def observeAndEscalate (job : ActiveJob) : Bool × ActiveJob :=
  let job := w.escalate n id (w.reapGroup n id (w.pollLeader n id job))
  (job.completed && !w.groupAlive n 2 id, job)

/-! ## The drain -/

/-- One stream in `_drain_captures`. -/
def drainCandidate (name : StreamName) (job : ActiveJob) : ActiveJob :=
  let pass := w.capture n
  match (jobStream job name).fd with
  | none => job
  | some fd =>
    match pass.readable with
    | none => if pass.bad fd then isolateBadFd name (w.now n) job else job
    | some readable =>
      if fd ∈ readable then
        (drainActiveStream w.settings.outputSpoolMaxBytes.toNat name (w.now n) (pass.retry fd)
          (pass.read fd) (pass.seam fd) job).1
      else job

end ShutdownWorld

namespace ShutdownState

/-- Replace one job object. -/
def setJob (s : ShutdownState) (id : Uuid) (job : ActiveJob) : ShutdownState :=
  { s with job := fun i => if i = id then job else s.job i }

/-- `_drain_candidates`. -/
def drainCandidates (s : ShutdownState) : List (Uuid × StreamName) :=
  (s.active.filter fun id => !(s.job id).spoolEvicted).flatMap fun id =>
    ([StreamName.stdout, .stderr].filter fun name =>
      (jobStream (s.job id) name).fd.isSome && !(jobStream (s.job id) name).eof).map fun name =>
        (id, name)

variable (w : ShutdownWorld) (n : ℕ)

/-- `_drain_captures`. -/
def drainCaptures (s : ShutdownState) : ShutdownState :=
  s.drainCandidates.foldl
    (fun s (id, name) => s.setJob id (w.drainCandidate n name (s.job id))) s

/-- `_observe_and_escalate` on a tracked job. -/
def observe (id : Uuid) (s : ShutdownState) : Bool × ShutdownState :=
  let (gone, job) := w.observeAndEscalate n id (s.job id)
  (gone, s.setJob id job)

/-- The test of the drain loop, which ends at the first job that is not gone. -/
def allGone : List Uuid → ShutdownState → Bool × ShutdownState
  | [], s => (true, s)
  | id :: ids, s =>
    match observe w n id s with
    | (true, s) => allGone ids s
    | (false, s) => (false, s)

/-- The kill loop of `_drain_active_groups`. -/
def killSurvivors (s : ShutdownState) : ShutdownState :=
  s.active.foldl (fun s id =>
    match observe w n id s with
    | (true, s) => s
    | (false, s) => s.setJob id (signalKill (s.job id))) s

end ShutdownState

/-- The result an attempt that is pending at shutdown is finalized with. -/
def shutdownFailure : JobResult := startFailure "worker shutting down before spawn completed"

namespace Supervise

open ShutdownState

section Drain

variable (w : ShutdownWorld)

/-- The loop of `_drain_active_groups`, with the turns that are left and the number of the next. -/
def drainTurns : ℕ → ℕ → Supervise Unit
  | 0, _ => return ()
  | left + 1, n => do
    modify (drainCaptures w n)
    refreshLeasesQuietly (w.refresh n) (w.now n)
    if ← modifyGet fun s => allGone w n s.active s then return () else drainTurns left (n + 1)

/-- `_drain_active_groups`. Waiting for the leaders changes no job object. -/
def drainActiveGroups : Supervise Bool := do
  drainTurns w w.drainTurns 0
  modify (drainCaptures w w.drainTurns)
  modify (killSurvivors w w.drainTurns)
  modify (drainCaptures w (w.drainTurns + 1))
  let active := (← get).active
  emit (.drained active)
  return active.all fun id => !w.groupAlive (w.drainTurns + 1) 0 id

end Drain

/-! ## Shutdown -/

section Shutdown

variable (w : ShutdownWorld)

/-- `_finalize_immediate`, which does nothing without a connection. -/
def finalizeAbandoned (jobId : Uuid) : Supervise Unit := fun s =>
  if !s.connected then .ok () s
  else
    match finalizeImmediate (w.abandon jobId) jobId shutdownFailure
        { live := 0, retryTerminations := s.retryTerminations } with
    | (.ok (), v) => .ok () { s with retryTerminations := v.retryTerminations }
    | (.error e, v) => .error e { s with retryTerminations := v.retryTerminations }

/-- The loop body of `_cleanup_pending_starts`. -/
def abandonStart (attempt : StartAttempt) : Supervise Unit := do
  modify fun s => { s with
    pendingStarts := s.pendingStarts.filter (·.jobId ≠ attempt.jobId) }
  finalizeAbandoned w attempt.jobId
  emit (.abandoned attempt.jobId)

/-- `_cleanup_pending_starts`. -/
def cleanupPendingStarts : Supervise Unit := do
  (← get).pendingStarts.forM (abandonStart w)

/-- `_discard_db_connection`. -/
def discardDbConnection : Supervise Unit := modify fun s => { s with connected := false }

/-- What the handlers of `_finalize_all_for_shutdown` see of a finalization. -/
def attemptFinalize (id : Uuid) : Supervise (Option DbError) :=
  tryCatch (do finalizeCompletedJobBounded w.settings w.later id; return none)
    fun e => return some e

/-- The loop of `_finalize_all_for_shutdown`: a deadline breach or a lost connection ends it. -/
def finalizeJobs (retainGroups : List ℕ) : List Uuid → Supervise Unit
  | [] => return ()
  | id :: ids => do
    let job ← readJob id
    if job.finalized || job.pgid ∈ retainGroups then finalizeJobs retainGroups ids
    else
      modifyJob id fun job =>
        if !job.completed && job.stopReason.isNone then
          { job with
            stopReason := some .shutdown
            cancellationNote := some (stopNote .shutdown) }
        else job
      match ← attemptFinalize w id with
      | none => finalizeJobs retainGroups ids
      | some .deterministic => finalizeJobs retainGroups ids
      | some _ => discardDbConnection

/-- `_finalize_all_for_shutdown`. -/
def finalizeAllForShutdown (retainGroups : List ℕ) : Supervise Unit := do
  let s ← get
  if !s.connected then return () else finalizeJobs w retainGroups s.active

/-- The stops that `_shutdown_finalize` sends. -/
def stopActive : Supervise Unit :=
  modify fun s => { s with
    job := fun id =>
      if id ∈ s.active ∧ (s.job id).running = true then requestStop (w.now 0) .shutdown (s.job id)
      else s.job id }

/-- `_shutdown_finalize`. The operation deadline of the connection is not modelled. -/
def shutdownFinalize : Supervise Unit := do
  stopActive w
  if ← drainActiveGroups w then
    emit .sentinelWritten
    finalizeAllForShutdown w []
  else
    let s ← get
    let surviving := s.active.filter fun id => w.groupAlive (w.drainTurns + 1) 1 id
    finalizeAllForShutdown w (surviving.map fun id => (s.job id).pgid)

/-- `_cleanup_all_files`. -/
def cleanupAllFiles : Supervise Unit :=
  modify fun s => { s with
    job := fun id => if id ∈ s.active then cleanupJob (s.job id) else s.job id }

/-- The `finally` of `_shutdown`. -/
def convergeLocally : Supervise Unit := do
  cleanupAllFiles
  discardDbConnection
  emit (.health false (← get).connected)

/-- `_shutdown`. -/
def shutdown : Supervise Unit := do
  cleanupPendingStarts w
  emit .poolStopped
  tryFinally (shutdownFinalize w) convergeLocally

end Shutdown

end Supervise

/-! ## Nothing is taken back -/

section Keeps

theorem requestGroupReap_keeps (now : ℚ) (job : ActiveJob) :
    job.Keeps (requestGroupReap now job) where
  termSent h := by rwa [requestGroupReap, if_pos h]
  released h := by
    intro name
    have hname := h name
    unfold requestGroupReap
    split_ifs
    · exact hname
    · cases name <;> exact hname

theorem signalKill_keeps (job : ActiveJob) : job.Keeps (signalKill job) := .of_eq rfl rfl rfl

theorem observeAndEscalate_keeps (w : ShutdownWorld) (n : ℕ) (id : Uuid) (job : ActiveJob) :
    job.Keeps (w.observeAndEscalate n id job).2 := by
  have hpoll : job.Keeps (w.pollLeader n id job) := by
    unfold ShutdownWorld.pollLeader
    split_ifs
    · exact .refl job
    · split <;> exact .of_eq rfl rfl rfl
  have hreap : ∀ job, ActiveJob.Keeps job (w.reapGroup n id job) := by
    intro job
    unfold ShutdownWorld.reapGroup
    split_ifs
    · exact requestGroupReap_keeps _ job
    · exact .refl job
  have hescalate : ∀ job, ActiveJob.Keeps job (w.escalate n id job) := by
    intro job
    simp only [ShutdownWorld.escalate]
    split
    · split_ifs
      · exact signalKill_keeps job
      · exact .refl job
    · exact .refl job
  exact (hpoll.trans (hreap _)).trans (hescalate _)

theorem drainCandidate_keeps (w : ShutdownWorld) (n : ℕ) (name : StreamName) (job : ActiveJob) :
    job.Keeps (w.drainCandidate n name job) := by
  simp only [ShutdownWorld.drainCandidate, isolateBadFd, drainActiveStream]
  split
  · exact .refl job
  · split
    · split_ifs
      · exact .refl job
      · refine .trans ?_ (failClosed_keeps _ _)
        exact setStream_keeps fun h => ⟨rfl, h.eof, h.pending, h.data⟩
      · exact .refl job
    · split_ifs
      · exact .trans (setStream_keeps fun h => drainCaptureStream_released h _ _ _ _ _)
          (failClosed_keeps _ _)
      · exact setStream_keeps fun h => drainCaptureStream_released h _ _ _ _ _
      · exact .refl job

end Keeps

namespace ShutdownState

theorem Keeps.setJob {s : ShutdownState} {id : Uuid} {job : ActiveJob}
    (h : (s.job id).Keeps job) : s.Keeps (s.setJob id job) := by
  refine .of_job fun i => ?_
  split_ifs with hi
  · exact hi ▸ h
  · exact .refl _

theorem Keeps.foldl {α : Type} {f : ShutdownState → α → ShutdownState}
    (hf : ∀ s a, Keeps s (f s a)) (as : List α) (s : ShutdownState) :
    s.Keeps (as.foldl f s) := by
  induction as generalizing s with
  | nil => exact Std.Refl.refl s
  | cons a as ih => exact IsTrans.trans _ _ _ (hf s a) (ih (f s a))

theorem foldl_active {α : Type} {f : ShutdownState → α → ShutdownState}
    (hf : ∀ s a, (f s a).active = s.active) (as : List α) (s : ShutdownState) :
    (as.foldl f s).active = s.active := by
  induction as generalizing s with
  | nil => rfl
  | cons a as ih => exact (ih (f s a)).trans (hf s a)

theorem drainCaptures_keeps (w : ShutdownWorld) (n : ℕ) (s : ShutdownState) :
    s.Keeps (drainCaptures w n s) :=
  Keeps.foldl (fun _ _ => .setJob (drainCandidate_keeps w n _ _)) _ s

theorem observe_keeps (w : ShutdownWorld) (n : ℕ) (id : Uuid) (s : ShutdownState) :
    s.Keeps (observe w n id s).2 :=
  .setJob (observeAndEscalate_keeps w n id _)

theorem allGone_keeps (w : ShutdownWorld) (n : ℕ) (ids : List Uuid) (s : ShutdownState) :
    s.Keeps (allGone w n ids s).2 := by
  induction ids generalizing s with
  | nil => exact Std.Refl.refl s
  | cons id ids ih =>
    have hobserve := observe_keeps w n id s
    rw [allGone]
    split <;> next heq =>
      rw [heq] at hobserve
      first
        | exact IsTrans.trans _ _ _ hobserve (ih _)
        | exact hobserve

theorem killSurvivors_keeps (w : ShutdownWorld) (n : ℕ) (s : ShutdownState) :
    s.Keeps (killSurvivors w n s) := by
  refine Keeps.foldl (fun s id => ?_) _ s
  have hobserve := observe_keeps w n id s
  split <;> next heq =>
    rw [heq] at hobserve
    first
      | exact hobserve
      | exact IsTrans.trans _ _ _ hobserve (.setJob (signalKill_keeps _))

end ShutdownState

namespace Supervise

open ShutdownState

variable (w : ShutdownWorld)

theorem drainTurns_keeps (left n : ℕ) : Guarantees Keeps (drainTurns w left n) := by
  induction left generalizing n with
  | zero => exact .pure _
  | succ left ih =>
    refine .bind (.modify (drainCaptures_keeps w n)) fun _ =>
      .bind (refreshLeasesQuietly_keeps _ _) fun _ =>
      .bind (fun s => allGone_keeps w n s.active s) fun gone => ?_
    split_ifs
    · exact .pure _
    · exact ih (n + 1)

theorem drainActiveGroups_keeps : Guarantees Keeps (drainActiveGroups w) :=
  .bind (drainTurns_keeps w _ _) fun _ => .bind (.modify (drainCaptures_keeps w _)) fun _ =>
    .bind (.modify (killSurvivors_keeps w _)) fun _ =>
    .bind (.modify (drainCaptures_keeps w _)) fun _ => .bind .get fun _ =>
    .bind (emit_keeps _) fun _ => .pure _

theorem discardDbConnection_keeps : Guarantees Keeps discardDbConnection :=
  .modify fun _ => ⟨List.prefix_rfl, fun _ h => h, fun _ h => h, fun _ h => .inl h⟩

theorem finalizeJobs_keeps (retainGroups : List ℕ) (ids : List Uuid) :
    Guarantees Keeps (finalizeJobs w retainGroups ids) := by
  induction ids with
  | nil => exact .pure _
  | cons id ids ih =>
    refine .bind (readJob_keeps id) fun job => ?_
    split_ifs
    · exact ih
    · refine .bind (modifyJob_keeps id fun job => ?_) fun _ => .bind ?_ fun outcome => ?_
      · split_ifs
        · exact .of_eq rfl rfl rfl
        · exact .refl job
      · exact .tryCatch
          (.bind (finalizeCompletedJobBounded_keeps w.settings w.later id) fun _ => .pure _)
          fun _ => .pure _
      · split
        · exact ih
        · exact ih
        · exact discardDbConnection_keeps

theorem finalizeAllForShutdown_keeps (retainGroups : List ℕ) :
    Guarantees Keeps (finalizeAllForShutdown w retainGroups) := by
  refine .bind .get fun s => ?_
  split_ifs
  · exact .pure _
  · exact finalizeJobs_keeps w retainGroups s.active

theorem stopActive_keeps : Guarantees Keeps (stopActive w) := by
  refine .modify fun s => .of_job fun i => ?_
  split_ifs
  · exact requestStop_keeps _ _ _
  · exact .refl _

end Supervise

/-! ## How long the drain runs -/

namespace ShutdownWorld

variable (w : ShutdownWorld) (completed : Uuid → Bool) (ids : List Uuid)

/-- The turn finds these jobs gone, `completed` being what is known before the drain. -/
def GoneAt (n : ℕ) : Prop :=
  ∀ id ∈ ids, (completed id || (w.poll n 0 id).isSome) = true ∧ w.groupAlive n 2 id = false

/-- One of `left` turns from turn `n` on starts and its lease refresh breaches the deadline. -/
def DeadlineTurn (n left : ℕ) : Prop :=
  ∃ m, n ≤ m ∧ m < n + left ∧ (∀ j, n ≤ j → j < m → ¬ w.GoneAt completed ids j) ∧
    w.refresh m = .error .deadline

end ShutdownWorld

section Roster

/-- The registry, the connection, the trace and what is known to have exited are the same. -/
structure ShutdownState.SameRoster (s t : ShutdownState) : Prop where
  active : t.active = s.active
  connected : t.connected = s.connected
  trace : t.trace = s.trace
  completed : ∀ id, (t.job id).completed = (s.job id).completed

theorem setStream_completed (job : ActiveJob) (name : StreamName) (stream : OutputStream) :
    (setStream job name stream).completed = job.completed := by
  cases name <;> rfl

theorem failClosed_completed (now : ℚ) (job : ActiveJob) :
    (failClosed now job).completed = job.completed := by
  rw [failClosed, requestStop_completed]

theorem drainCandidate_completed (w : ShutdownWorld) (n : ℕ) (name : StreamName)
    (job : ActiveJob) : (w.drainCandidate n name job).completed = job.completed := by
  simp only [ShutdownWorld.drainCandidate, isolateBadFd, drainActiveStream]
  split
  · rfl
  · split <;> split_ifs <;> simp only [failClosed_completed, setStream_completed]

theorem applyLeaseRefresh_completed (refreshed : List Uuid) (refreshMono now : ℚ)
    (job : ActiveJob) :
    (applyLeaseRefresh refreshed refreshMono now job).completed = job.completed := by
  unfold applyLeaseRefresh
  split_ifs <;> simp

/-- An observation sees the exit of the leader, once it has happened. -/
theorem observeAndEscalate_completed (w : ShutdownWorld) (n : ℕ) (id : Uuid) (job : ActiveJob) :
    (w.observeAndEscalate n id job).2.completed =
      (job.completed || (w.poll n 0 id).isSome) := by
  have hpoll : (w.pollLeader n id job).completed =
      (job.completed || (w.poll n 0 id).isSome) := by
    unfold ShutdownWorld.pollLeader
    split_ifs with h
    · simp [h]
    · split <;> next heq => simp [heq, h]
  have hreap : ∀ job, (w.reapGroup n id job).completed = job.completed := by
    intro job
    unfold ShutdownWorld.reapGroup requestGroupReap
    split_ifs <;> rfl
  have hescalate : ∀ job, (w.escalate n id job).completed = job.completed := by
    intro job
    simp only [ShutdownWorld.escalate]
    split
    · split_ifs <;> rfl
    · rfl
  exact (hescalate _).trans ((hreap _).trans hpoll)

namespace ShutdownState

theorem SameRoster.refl (s : ShutdownState) : s.SameRoster s := ⟨rfl, rfl, rfl, fun _ => rfl⟩

theorem SameRoster.trans {s t u : ShutdownState} (hst : s.SameRoster t) (htu : t.SameRoster u) :
    s.SameRoster u :=
  ⟨htu.active.trans hst.active, htu.connected.trans hst.connected, htu.trace.trans hst.trace,
    fun id => (htu.completed id).trans (hst.completed id)⟩

theorem drainCaptures_sameRoster (w : ShutdownWorld) (n : ℕ) (s : ShutdownState) :
    s.SameRoster (drainCaptures w n s) := by
  unfold drainCaptures
  generalize s.drainCandidates = candidates
  induction candidates generalizing s with
  | nil => exact .refl s
  | cons c candidates ih =>
    have hone : s.SameRoster (s.setJob c.1 (w.drainCandidate n c.2 (s.job c.1))) := by
      refine ⟨rfl, rfl, rfl, fun i => ?_⟩
      show (if i = c.1 then w.drainCandidate n c.2 (s.job c.1) else s.job i).completed = _
      split_ifs with hi
      · rw [drainCandidate_completed, hi]
      · rfl
    exact hone.trans (ih _)

variable (w : ShutdownWorld)

theorem observe_completed (n : ℕ) (id : Uuid) (s : ShutdownState) (i : Uuid) :
    ((observe w n id s).2.job i).completed =
      if i = id then (s.job id).completed || (w.poll n 0 id).isSome else (s.job i).completed := by
  show (if i = id then (w.observeAndEscalate n id (s.job id)).2 else s.job i).completed = _
  split_ifs
  · exact observeAndEscalate_completed w n id _
  · rfl

/-- What is known to have exited before turn `n` of a drain. -/
structure Observed (completed : Uuid → Bool) (n : ℕ) (s : ShutdownState) : Prop where
  before : ∀ id, completed id = true → (s.job id).completed = true
  since : ∀ id, (s.job id).completed = true → (completed id || (w.poll n 0 id).isSome) = true

variable {w}

theorem Observed.sameRoster {completed : Uuid → Bool} {n : ℕ} {s t : ShutdownState}
    (h : s.Observed w completed n) (hst : s.SameRoster t) : t.Observed w completed n :=
  ⟨fun id hid => (hst.completed id).trans (h.before id hid),
    fun id hid => h.since id ((hst.completed id).symm.trans hid)⟩

theorem Observed.succ {completed : Uuid → Bool} {n : ℕ} {s : ShutdownState}
    (h : s.Observed w completed n) : s.Observed w completed (n + 1) := by
  refine ⟨h.before, fun id hid => ?_⟩
  have hsince := h.since id hid
  rw [Bool.or_eq_true] at hsince ⊢
  exact hsince.imp_right (w.poll_stays n.le_succ)

theorem Observed.observe {completed : Uuid → Bool} {n : ℕ} {s : ShutdownState}
    (h : s.Observed w completed n) (id : Uuid) :
    (ShutdownState.observe w n id s).2.Observed w completed n ∧
      ((ShutdownState.observe w n id s).1 = true ↔
        (completed id || (w.poll n 0 id).isSome) = true ∧ w.groupAlive n 2 id = false) := by
  have hseen : ((s.job id).completed || (w.poll n 0 id).isSome) =
      (completed id || (w.poll n 0 id).isSome) := by
    rw [Bool.eq_iff_iff, Bool.or_eq_true]
    constructor
    · intro hor
      cases hor with
      | inl hjob => exact h.since id hjob
      | inr hpoll => rw [hpoll, Bool.or_true]
    · intro hor
      rw [Bool.or_eq_true] at hor
      exact hor.imp_left (h.before id)
  refine ⟨⟨fun i hi => ?_, fun i hi => ?_⟩, ?_⟩
  · rw [observe_completed]
    split_ifs with hid
    · rw [hseen, ← hid, hi, Bool.true_or]
    · exact h.before i hi
  · rw [observe_completed] at hi
    split_ifs at hi with hid
    · rwa [hseen, ← hid] at hi
    · exact h.since i hi
  · show ((w.observeAndEscalate n id (s.job id)).2.completed && !w.groupAlive n 2 id) = true ↔ _
    rw [observeAndEscalate_completed, hseen, Bool.and_eq_true, Bool.not_eq_true']

/-- The test of the loop succeeds exactly when every job is gone in this turn. -/
theorem Observed.allGone {completed : Uuid → Bool} {n : ℕ} {s : ShutdownState}
    (h : s.Observed w completed n) (ids : List Uuid) :
    (ShutdownState.allGone w n ids s).2.Observed w completed n ∧
      ((ShutdownState.allGone w n ids s).1 = true ↔ w.GoneAt completed ids n) := by
  induction ids generalizing s with
  | nil => exact ⟨h, by simp [ShutdownState.allGone, ShutdownWorld.GoneAt]⟩
  | cons id ids ih =>
    obtain ⟨hobserved, hgone⟩ := h.observe id
    rw [ShutdownState.allGone]
    split
    · next heq =>
      rw [heq] at hobserved hgone
      refine ⟨(ih hobserved).1, (ih hobserved).2.trans ?_⟩
      simp only [ShutdownWorld.GoneAt, List.forall_mem_cons]
      exact ⟨fun hall => ⟨hgone.1 rfl, hall⟩, fun hall => hall.2⟩
    · next heq =>
      rw [heq] at hobserved hgone
      refine ⟨hobserved, ?_⟩
      simp only [ShutdownWorld.GoneAt, List.forall_mem_cons]
      exact ⟨fun hfalse => (by cases hfalse), fun hall => hgone.2 hall.1⟩

theorem allGone_frame (n : ℕ) (ids : List Uuid) (s : ShutdownState) :
    (ShutdownState.allGone w n ids s).2.active = s.active ∧
      (ShutdownState.allGone w n ids s).2.connected = s.connected ∧
      (ShutdownState.allGone w n ids s).2.trace = s.trace := by
  induction ids generalizing s with
  | nil => exact ⟨rfl, rfl, rfl⟩
  | cons id ids ih =>
    rw [ShutdownState.allGone]
    split <;> next heq =>
      have hs := congrArg Prod.snd heq
      subst hs
      first
        | exact ih _
        | exact ⟨rfl, rfl, rfl⟩

theorem deadlineTurn_succ {completed : Uuid → Bool} {ids : List Uuid} {n left : ℕ} :
    w.DeadlineTurn completed ids n (left + 1) ↔
      w.refresh n = .error .deadline ∨
        (¬ w.GoneAt completed ids n ∧ w.DeadlineTurn completed ids (n + 1) left) := by
  constructor
  · intro ⟨m, hnm, hm, hbefore, hdeadline⟩
    by_cases hmn : m = n
    · exact .inl (hmn ▸ hdeadline)
    · refine .inr ⟨hbefore n (Nat.le_refl n) (by omega), m, by omega, by omega, ?_, hdeadline⟩
      exact fun j hj hjm => hbefore j (by omega) hjm
  · intro h
    cases h with
    | inl hdeadline => exact ⟨n, Nat.le_refl n, by omega, fun j hj hjn => by omega, hdeadline⟩
    | inr h =>
      obtain ⟨hgone, m, hnm, hm, hbefore, hdeadline⟩ := h
      refine ⟨m, by omega, by omega, fun j hj hjm => ?_, hdeadline⟩
      by_cases hjn : j = n
      · exact hjn ▸ hgone
      · exact hbefore j (by omega) hjm

theorem killSurvivors_active (w : ShutdownWorld) (n : ℕ) (s : ShutdownState) :
    (killSurvivors w n s).active = s.active := by
  refine foldl_active (fun s id => ?_) s.active s
  split <;> next heq =>
    have hs := congrArg Prod.snd heq
    subst hs
    rfl

end ShutdownState

namespace Supervise

open ShutdownState

theorem refreshLeasesQuietly_deadline {s : ShutdownState} (h : s.connected = true) (now : ℚ) :
    refreshLeasesQuietly (.error .deadline) now s = .error .deadline s := by
  unfold refreshLeasesQuietly
  rw [run_get_bind, if_pos h]
  rfl

/-- Any other answer lets the drain go on. -/
theorem refreshLeasesQuietly_ok {s : ShutdownState} {answer : Except DbError (List Uuid)}
    (h : ¬ (s.connected = true ∧ answer = .error .deadline)) (now : ℚ) :
    ∃ t, refreshLeasesQuietly answer now s = .ok () t ∧ s.SameRoster t := by
  unfold refreshLeasesQuietly
  rw [run_get_bind]
  by_cases hconn : s.connected = true
  · rw [if_pos hconn]
    match answer with
    | .ok refreshed =>
      refine ⟨_, rfl, rfl, rfl, rfl, fun id => ?_⟩
      show (if id ∈ s.active then applyLeaseRefresh refreshed now now (s.job id)
        else s.job id).completed = _
      split_ifs
      · exact applyLeaseRefresh_completed refreshed now now _
      · rfl
    | .error .deterministic => exact ⟨s, rfl, .refl s⟩
    | .error .connectivity => exact ⟨s, rfl, .refl s⟩
    | .error .deadline => exact absurd ⟨hconn, rfl⟩ h
  · rw [if_neg hconn]
    exact ⟨s, rfl, .refl s⟩

/-- The drain loop raises exactly when a turn of it breaches the deadline. -/
theorem drainTurns_run (w : ShutdownWorld) {completed : Uuid → Bool} (left n : ℕ)
    {s : ShutdownState} (h : s.Observed w completed n) :
    (s.connected = true ∧ w.DeadlineTurn completed s.active n left →
      ∃ t, drainTurns w left n s = .error .deadline t ∧ t.trace = s.trace) ∧
    (¬ (s.connected = true ∧ w.DeadlineTurn completed s.active n left) →
      ∃ t, drainTurns w left n s = .ok () t ∧ t.active = s.active) := by
  induction left generalizing n s with
  | zero =>
    refine ⟨fun ⟨_, m, hnm, hm, _⟩ => absurd hm (by omega), fun _ => ⟨s, rfl, rfl⟩⟩
  | succ left ih =>
    rw [deadlineTurn_succ]
    have hdrain := drainCaptures_sameRoster w n s
    rw [drainTurns, run_modify_bind]
    by_cases hdeadline : s.connected = true ∧ w.refresh n = .error .deadline
    · rw [hdeadline.2, run_bind_error
        (refreshLeasesQuietly_deadline (hdrain.connected.trans hdeadline.1) (w.now n))]
      exact ⟨fun _ => ⟨_, rfl, hdrain.trace⟩, fun hno => absurd ⟨hdeadline.1, .inl rfl⟩ hno⟩
    · have hquiet : ¬ ((drainCaptures w n s).connected = true ∧
          w.refresh n = .error .deadline) := by rwa [hdrain.connected]
      obtain ⟨t, hrefresh, hroster⟩ := refreshLeasesQuietly_ok hquiet (w.now n)
      have hst := hdrain.trans hroster
      obtain ⟨hseen, hgone⟩ := (h.sameRoster hst).allGone s.active
      obtain ⟨hactive, hconnected, htrace⟩ := allGone_frame (w := w) n s.active t
      rw [run_bind_ok hrefresh, run_modifyGet_bind, hst.active]
      by_cases hall : w.GoneAt completed s.active n
      · rw [if_pos (hgone.2 hall)]
        refine ⟨fun hyes => ?_, fun _ => ⟨_, rfl, hactive.trans hst.active⟩⟩
        cases hyes.2 with
        | inl hd => exact absurd ⟨hyes.1, hd⟩ hdeadline
        | inr hd => exact absurd hall hd.1
      · rw [if_neg fun hg => hall (hgone.1 hg)]
        obtain ⟨herror, hok⟩ := ih (n + 1) hseen.succ
        rw [hactive, hconnected, htrace, hst.active, hst.connected, hst.trace] at herror
        rw [hactive, hconnected, hst.active, hst.connected] at hok
        refine ⟨fun hyes => herror ⟨hyes.1, ?_⟩, fun hno => hok fun hyes => hno ?_⟩
        · cases hyes.2 with
          | inl hd => exact absurd ⟨hyes.1, hd⟩ hdeadline
          | inr hd => exact hd.2
        · exact ⟨hyes.1, .inr ⟨hall, hyes.2⟩⟩

end Supervise

end Roster

/-! ## Abandoning the pending starts -/

/-- The terminal write for an abandoned attempt raises: it fails and is not deterministic, or it
fails deterministically and the quarantine write that follows fails and is not. -/
def WriteRaises (o : Outcomes) : Prop :=
  (∃ e, o.finish shutdownFailure = .error e ∧ e ≠ .deterministic) ∨
    (o.finish shutdownFailure = .error .deterministic ∧
      ∃ e, o.quarantine = .error e ∧ e ≠ .deterministic)

theorem finalizeImmediate_raises {o : Outcomes} (h : WriteRaises o) (id : Uuid) (v : World) :
    ∃ e v', finalizeImmediate o id shutdownFailure v = (.error e, v') := by
  unfold finalizeImmediate quarantineJob
  cases h with
  | inl hfinish =>
    obtain ⟨e, he, hne⟩ := hfinish
    exact ⟨e, v, by simp [he, hne]⟩
  | inr hboth =>
    obtain ⟨hfinish, e, he, hne⟩ := hboth
    exact ⟨e, v, by simp [hfinish, he, hne]⟩

theorem finalizeImmediate_returns {o : Outcomes} (h : ¬ WriteRaises o) (id : Uuid) (v : World) :
    ∃ v', finalizeImmediate o id shutdownFailure v = (.ok (), v') := by
  unfold finalizeImmediate quarantineJob
  match hfinish : o.finish shutdownFailure with
  | .ok () => exact ⟨v, rfl⟩
  | .error .connectivity => exact absurd (.inl ⟨_, hfinish, by decide⟩) h
  | .error .deadline => exact absurd (.inl ⟨_, hfinish, by decide⟩) h
  | .error .deterministic =>
    match hq : o.quarantine with
    | .ok () => exact ⟨v, rfl⟩
    | .error .deterministic => exact ⟨_, rfl⟩
    | .error .connectivity => exact absurd (.inr ⟨hfinish, _, hq, by decide⟩) h
    | .error .deadline => exact absurd (.inr ⟨hfinish, _, hq, by decide⟩) h

/-- The registry and the connection are the same, and only abandoned attempts were recorded. -/
structure ShutdownState.Abandons (s t : ShutdownState) : Prop where
  active : t.active = s.active
  connected : t.connected = s.connected
  job : t.job = s.job
  trace : ∀ e ∈ t.trace, e ∈ s.trace ∨ ∃ id, e = .abandoned id

namespace ShutdownState

instance : Std.Refl Abandons := ⟨fun _ => ⟨rfl, rfl, rfl, fun _ h => .inl h⟩⟩

instance : IsTrans ShutdownState Abandons where
  trans s t u hst htu := by
    refine ⟨htu.active.trans hst.active, htu.connected.trans hst.connected,
      htu.job.trans hst.job, fun e he => ?_⟩
    cases htu.trace e he with
    | inl h => exact hst.trace e h
    | inr h => exact .inr h

end ShutdownState

namespace Supervise

open ShutdownState

variable (w : ShutdownWorld)

theorem finalizeAbandoned_abandons (id : Uuid) :
    Guarantees Abandons (finalizeAbandoned w id) := by
  intro s
  unfold after finalizeAbandoned
  by_cases hconn : s.connected = true
  · simp only [hconn, Bool.not_true, Bool.false_eq_true, if_false]
    generalize finalizeImmediate (w.abandon id) id shutdownFailure _ = r
    match r with
    | (.ok (), v) => exact ⟨rfl, hconn.symm, rfl, fun _ h => .inl h⟩
    | (.error e, v) => exact ⟨rfl, hconn.symm, rfl, fun _ h => .inl h⟩
  · simp only [Bool.not_eq_true] at hconn
    simp only [hconn, Bool.not_false, if_true]
    exact Std.Refl.refl s

theorem abandonStart_abandons (attempt : StartAttempt) :
    Guarantees Abandons (abandonStart w attempt) := by
  refine .bind (.modify fun s => ⟨rfl, rfl, rfl, fun _ h => .inl h⟩) fun _ =>
    .bind (finalizeAbandoned_abandons w attempt.jobId) fun _ =>
    .modify fun s => ⟨rfl, rfl, rfl, fun e he => ?_⟩
  rw [List.mem_append, List.mem_singleton] at he
  exact he.imp_right fun h => ⟨_, h⟩

theorem cleanupPendingStarts_abandons : Guarantees Abandons (cleanupPendingStarts w) :=
  .bind .get fun _ => .forM fun attempt _ => abandonStart_abandons w attempt

theorem abandonStart_run (attempt : StartAttempt) (s : ShutdownState) :
    (s.connected = true ∧ WriteRaises (w.abandon attempt.jobId) →
      ∃ e t, abandonStart w attempt s = .error e t) ∧
    (¬ (s.connected = true ∧ WriteRaises (w.abandon attempt.jobId)) →
      ∃ t, abandonStart w attempt s = .ok () t) := by
  unfold abandonStart
  rw [run_modify_bind]
  generalize hs : { s with
    pendingStarts := s.pendingStarts.filter (·.jobId ≠ attempt.jobId) } = s'
  have hconnected : s.connected = s'.connected := by rw [← hs]
  rw [hconnected]
  by_cases hconn : s'.connected = true
  · have hrun : finalizeAbandoned w attempt.jobId s' =
        match finalizeImmediate (w.abandon attempt.jobId) attempt.jobId shutdownFailure
          { live := 0, retryTerminations := s'.retryTerminations } with
        | (.ok (), v) => .ok () { s' with retryTerminations := v.retryTerminations }
        | (.error e, v) => .error e { s' with retryTerminations := v.retryTerminations } := by
      rw [finalizeAbandoned, hconn]
      rfl
    refine ⟨fun hyes => ?_, fun hno => ?_⟩
    · obtain ⟨e, v, hraise⟩ := finalizeImmediate_raises hyes.2 attempt.jobId
        { live := 0, retryTerminations := s'.retryTerminations }
      rw [hraise] at hrun
      exact ⟨_, _, run_bind_error hrun _⟩
    · obtain ⟨v, hreturn⟩ := finalizeImmediate_returns (fun h => hno ⟨hconn, h⟩) attempt.jobId
        { live := 0, retryTerminations := s'.retryTerminations }
      rw [hreturn] at hrun
      exact ⟨_, run_bind_ok hrun _⟩
  · have hrun : finalizeAbandoned w attempt.jobId s' = .ok () s' := by
      rw [finalizeAbandoned, if_pos (by simpa using hconn)]
    exact ⟨fun hyes => absurd hyes.1 hconn, fun _ => ⟨_, run_bind_ok hrun _⟩⟩

/-- A pending start whose terminal write raises ends the loop, and only that. -/
theorem forM_abandonStart_run (attempts : List StartAttempt) (s : ShutdownState) :
    (s.connected = true ∧ (∃ a ∈ attempts, WriteRaises (w.abandon a.jobId)) →
      ∃ e t, attempts.forM (abandonStart w) s = .error e t) ∧
    (¬ (s.connected = true ∧ ∃ a ∈ attempts, WriteRaises (w.abandon a.jobId)) →
      ∃ t, attempts.forM (abandonStart w) s = .ok () t) := by
  induction attempts generalizing s with
  | nil => exact ⟨fun hyes => by simp at hyes, fun _ => ⟨s, rfl⟩⟩
  | cons a as ih =>
    obtain ⟨hraise, hreturn⟩ := abandonStart_run w a s
    have hcons : (a :: as).forM (abandonStart w) = abandonStart w a >>= fun _ =>
      as.forM (abandonStart w) := rfl
    rw [hcons, List.exists_mem_cons_iff]
    by_cases hhead : s.connected = true ∧ WriteRaises (w.abandon a.jobId)
    · obtain ⟨e, t, hrun⟩ := hraise hhead
      refine ⟨fun _ => ⟨e, t, run_bind_error hrun _⟩, fun hno => ?_⟩
      exact absurd ⟨hhead.1, .inl hhead.2⟩ hno
    · obtain ⟨t, hrun⟩ := hreturn hhead
      have hconn : t.connected = s.connected := by
        have habandons := abandonStart_abandons w a s
        rw [after, hrun] at habandons
        exact habandons.connected
      rw [run_bind_ok hrun]
      have htail := ih t
      rw [hconn] at htail
      refine ⟨fun hyes => htail.1 ⟨hyes.1, hyes.2.resolve_left fun h => hhead ⟨hyes.1, h⟩⟩,
        fun hno => htail.2 fun hyes => hno ⟨hyes.1, .inr hyes.2⟩⟩

end Supervise

/-! ## Convergence -/

/-- Local ownership has converged from `s` to `t`. -/
structure ShutdownState.Converged (s t : ShutdownState) : Prop where
  /-- Every job that had not exited was told to stop. -/
  stopped : ∀ id ∈ s.active, (s.job id).completed = false → (t.job id).termSent = true
  drained : ∃ ids, .drained ids ∈ t.trace ∧ ∀ id ∈ s.active, id ∈ ids
  released : ∀ id ∈ s.active, (t.job id).Released
  /-- The last thing done was to write a snapshot that is not alive. -/
  health : ∃ dbConnected, t.trace.getLast? = some (.health false dbConnected)

/-- The terminal write for a pending start is made, and raises. -/
def PendingWriteRaises (w : ShutdownWorld) (s : ShutdownState) : Prop :=
  s.connected = true ∧ ∃ attempt ∈ s.pendingStarts, WriteRaises (w.abandon attempt.jobId)

/-- A turn of the drain refreshes the leases, and the refresh breaches its deadline. -/
def DrainDeadline (w : ShutdownWorld) (s : ShutdownState) : Prop :=
  s.connected = true ∧
    w.DeadlineTurn (fun id => (s.job id).completed) s.active 0 w.drainTurns

namespace Supervise

open ShutdownState

variable (w : ShutdownWorld)

/-- `_drain_active_groups` raises exactly when its loop does. -/
theorem drainActiveGroups_run {completed : Uuid → Bool} {s : ShutdownState}
    (h : s.Observed w completed 0) :
    (s.connected = true ∧ w.DeadlineTurn completed s.active 0 w.drainTurns →
      ∃ t, drainActiveGroups w s = .error .deadline t ∧ t.trace = s.trace) ∧
    (¬ (s.connected = true ∧ w.DeadlineTurn completed s.active 0 w.drainTurns) →
      ∃ gone t, drainActiveGroups w s = .ok gone t ∧ .drained s.active ∈ t.trace) := by
  obtain ⟨hraise, hreturn⟩ := drainTurns_run w w.drainTurns 0 h
  refine ⟨fun hyes => ?_, fun hno => ?_⟩
  · obtain ⟨t, hloop, htrace⟩ := hraise hyes
    exact ⟨t, run_bind_error hloop _, htrace⟩
  · obtain ⟨t, hloop, hactive⟩ := hreturn hno
    refine ⟨_, _, run_bind_ok hloop _, List.mem_append_right _ (List.mem_singleton.2 ?_)⟩
    show ShutdownEvent.drained s.active = .drained (drainCaptures w _ (killSurvivors w _ _)).active
    rw [(drainCaptures_sameRoster w _ _).active, killSurvivors_active,
      (drainCaptures_sameRoster w _ _).active, hactive]

/-- The stops of the shutdown change nothing that the drain looks at. -/
theorem stopActive_run (s : ShutdownState) :
    ∃ t, stopActive w s = .ok () t ∧ s.SameRoster t ∧
      ∀ id ∈ s.active, (s.job id).completed = false → (t.job id).termSent = true := by
  refine ⟨_, rfl, ⟨rfl, rfl, rfl, fun id => ?_⟩, fun id hid hcompleted => ?_⟩
  · show (if id ∈ s.active ∧ (s.job id).running = true then requestStop (w.now 0) .shutdown (s.job id)
      else s.job id).completed = _
    split_ifs
    · exact requestStop_completed _ _ _
    · rfl
  · show (if id ∈ s.active ∧ (s.job id).running = true then requestStop (w.now 0) .shutdown (s.job id)
      else s.job id).termSent = true
    split_ifs with hrunning
    · exact requestStop_termSent _ _ _
    · simpa [hid, ActiveJob.running, hcompleted] using hrunning

/-- Whatever `_shutdown_finalize` does, the `finally` releases every buffer and reports the end. -/
theorem convergeLocally_run (s : ShutdownState) :
    ∃ t, convergeLocally s = .ok () t ∧ s.Keeps t ∧ (∀ id ∈ s.active, (t.job id).Released) ∧
      t.trace = s.trace ++ [.health false false] := by
  have hcleanup : Guarantees Keeps cleanupAllFiles := by
    refine .modify fun s => .of_job fun i => ?_
    split_ifs
    · exact cleanupJob_keeps _
    · exact .refl _
  have hkeeps : Guarantees Keeps convergeLocally :=
    .bind hcleanup fun _ => .bind discardDbConnection_keeps fun _ => .bind .get fun _ =>
      emit_keeps _
  refine ⟨_, rfl, hkeeps s, fun id hid => ?_, rfl⟩
  show (if id ∈ s.active then cleanupJob (s.job id) else s.job id).Released
  rw [if_pos hid]
  exact cleanupJob_released _

theorem shutdownFinalize_keeps : Guarantees Keeps (shutdownFinalize w) := by
  refine .bind (stopActive_keeps w) fun _ => .bind (drainActiveGroups_keeps w) fun gone => ?_
  split_ifs
  · exact .bind (emit_keeps _) fun _ => finalizeAllForShutdown_keeps w _
  · exact .bind .get fun s => finalizeAllForShutdown_keeps w _

/-- `_shutdown_finalize` stops every job, and drains them unless a lease refresh breaches its
deadline. -/
theorem shutdownFinalize_run (s : ShutdownState) :
    (DrainDeadline w s → (after (shutdownFinalize w) s).trace = s.trace) ∧
    (¬ DrainDeadline w s → .drained s.active ∈ (after (shutdownFinalize w) s).trace ∧
      ∀ id ∈ s.active, (s.job id).completed = false →
        ((after (shutdownFinalize w) s).job id).termSent = true) := by
  obtain ⟨t, hstop, hroster, hstopped⟩ := stopActive_run w s
  have hobserved : t.Observed w (fun id => (s.job id).completed) 0 := by
    refine ⟨fun id hid => (hroster.completed id).trans hid, fun id hid => ?_⟩
    rw [← hroster.completed id, hid, Bool.true_or]
  obtain ⟨hraise, hreturn⟩ := drainActiveGroups_run w hobserved
  rw [hroster.connected, hroster.active] at hraise hreturn
  unfold shutdownFinalize
  rw [after_bind_ok hstop]
  refine ⟨fun hyes => ?_, fun hno => ?_⟩
  · obtain ⟨u, hdrain, htrace⟩ := hraise hyes
    rw [after_bind_error hdrain, htrace, hroster.trace]
  · obtain ⟨gone, u, hdrain, hmem⟩ := hreturn hno
    have htu : t.Keeps u := by
      have hkeeps := drainActiveGroups_keeps w t
      rwa [after, hdrain] at hkeeps
    have hrest : u.Keeps (after (do
        if gone = true then
          emit .sentinelWritten
          finalizeAllForShutdown w []
        else
          let s ← get
          let surviving := s.active.filter fun id => w.groupAlive (w.drainTurns + 1) 1 id
          finalizeAllForShutdown w (surviving.map fun id => (s.job id).pgid)) u) := by
      refine Guarantees.ite ?_ ?_ u
      · exact .bind (emit_keeps _) fun _ => finalizeAllForShutdown_keeps w _
      · exact .bind .get fun s => finalizeAllForShutdown_keeps w _
    rw [after_bind_ok hdrain]
    refine ⟨hrest.trace.subset hmem, fun id hid hcompleted => ?_⟩
    exact hrest.termSent id (htu.termSent id (hstopped id hid hcompleted))

/-- **Shutdown converges local ownership** exactly when no terminal write for a pending start raises
and no lease refresh of the drain breaches its deadline, whatever else the database answers. -/
theorem shutdown_converges_iff (connected : Bool) (active : List Uuid) (job : Uuid → ActiveJob)
    (pendingStarts : List StartAttempt) (retryTerminations : List Uuid) :
    let s : ShutdownState := { connected, active, job, pendingStarts, retryTerminations }
    s.Converged (after (shutdown w) s) ↔ ¬ PendingWriteRaises w s ∧ ¬ DrainDeadline w s := by
  intro s
  have habandons := cleanupPendingStarts_abandons w s
  obtain ⟨hraise, hreturn⟩ := forM_abandonStart_run w s.pendingStarts s
  have hcleanup : cleanupPendingStarts w s = s.pendingStarts.forM (abandonStart w) s := rfl
  by_cases hpending : PendingWriteRaises w s
  · -- nothing after the first raised write happens
    refine ⟨fun hconverged => ?_, fun hno => absurd hpending hno.1⟩
    obtain ⟨e, t, hrun⟩ := hraise hpending
    rw [← hcleanup] at hrun
    rw [after, hrun] at habandons
    obtain ⟨dbConnected, hhealth⟩ := hconverged.health
    rw [shutdown, after_bind_error hrun] at hhealth
    cases habandons.trace _ (List.mem_of_getLast? hhealth) with
    | inl h => cases h
    | inr h => obtain ⟨id, h⟩ := h; cases h
  · obtain ⟨t, hrun⟩ := hreturn hpending
    rw [← hcleanup] at hrun
    rw [after, hrun] at habandons
    generalize hu : after (shutdownFinalize w) { t with trace := t.trace ++ [.poolStopped] } = u
    obtain ⟨v, hlocal, hkeeps, hreleased, htrace⟩ := convergeLocally_run u
    have hend : after (shutdown w) s = v := by
      rw [shutdown, after_bind_ok hrun]
      show after (tryFinally (shutdownFinalize w) convergeLocally) _ = v
      rw [after_finally, hu, after, hlocal]
    have hdeadline : DrainDeadline w { t with trace := t.trace ++ [.poolStopped] } ↔
        DrainDeadline w s := by
      simp only [DrainDeadline, habandons.connected, habandons.job, habandons.active]
    obtain ⟨hstuck, hdrained⟩ := shutdownFinalize_run w { t with trace := t.trace ++ [.poolStopped] }
    have hfinalize := shutdownFinalize_keeps w { t with trace := t.trace ++ [.poolStopped] }
    rw [hu] at hstuck hdrained hfinalize
    rw [hdeadline] at hstuck hdrained
    rw [hend]
    by_cases hdrain : DrainDeadline w s
    · refine ⟨fun hconverged => ?_, fun hno => absurd hdrain hno.2⟩
      obtain ⟨ids, hmem, -⟩ := hconverged.drained
      rw [htrace, hstuck hdrain] at hmem
      simp only [List.mem_append, List.mem_singleton, reduceCtorEq, or_false] at hmem
      cases habandons.trace _ hmem with
      | inl h => cases h
      | inr h => obtain ⟨id, h⟩ := h; cases h
    · refine ⟨fun _ => ⟨hpending, hdrain⟩, fun _ => ?_⟩
      obtain ⟨hmem, hstopped⟩ := hdrained hdrain
      rw [habandons.active] at hmem
      simp only [habandons.active, habandons.job] at hstopped
      exact {
        stopped := fun id hid hcompleted => hkeeps.termSent id (hstopped id hid hcompleted)
        drained := ⟨s.active, hkeeps.trace.subset hmem, fun _ hid => hid⟩
        released := fun id hid => by
          cases hfinalize.tracked id (habandons.active ▸ hid) with
          | inl hactive => exact hreleased id hactive
          | inr hdone => exact hkeeps.released id hdone
        health := ⟨false, by rw [htrace, List.getLast?_append]; rfl⟩ }

/-- The connection is lost under the terminal write for the first abandoned attempt. -/
def lostConnection : ShutdownWorld where
  settings := .alpha
  abandon := fun _ => { hungPersist with finish := fun _ => .error .connectivity }
  drainTurns := 1
  refresh := fun _ => .ok []
  capture := fun _ => ⟨some [], fun _ => false, fun _ => .blocked, fun _ => none, fun _ => none⟩
  poll := fun _ _ _ => some 0
  poll_stays := fun _ h => h
  groupAlive := fun _ _ _ => false
  now := fun _ => 0
  later := fun _ => {
    now := 0
    finish := .ok none
    quarantine := .ok ()
    publish := fun _ => .ok none
    refresh := .ok []
    groupAlive := fun _ => false
    pass := ⟨some [], fun _ => false, fun _ => .blocked, fun _ => none, fun _ => none⟩
    drainRaises := false }

/-- One job runs and the start of another is pending. -/
def spawningSecond : ShutdownState where
  connected := true
  active := [.ofDigit 1]
  job := .spawned
  pendingStarts := [⟨.ofDigit 2, 1, 4⟩]
  retryTerminations := []

/-- **A pending start takes the whole shutdown down.** The write for it raises outside the `try`: the
running job is not stopped, nothing is drained or released, and no snapshot is written. -/
theorem lost_connection_skips_shutdown :
    let t := after (shutdown lostConnection) spawningSecond
    (t.job (.ofDigit 1)).termSent = false ∧ t.trace.length = 0 ∧ ¬ spawningSecond.Converged t := by
  refine ⟨rfl, rfl, fun h => ?_⟩
  have hstopped := h.stopped (.ofDigit 1) (List.mem_singleton_self _) rfl
  have hrun : ((after (shutdown lostConnection) spawningSecond).job (.ofDigit 1)).termSent = false :=
    rfl
  rw [hrun] at hstopped
  cases hstopped

end Supervise

end Lubko.Worker
