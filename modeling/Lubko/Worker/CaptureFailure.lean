import Lubko.Worker.Shutdown

/-!
# How a capture failure is reported

`_finalize_status` derives the terminal status of a job from its stop reason, and only the first
stop of a job records one. `request_group_reap` is a stop without a reason: a job whose leader has
exited while its group lives on keeps its natural status, and a later stop records nothing.

A step is one call of the supervisor on one job object, from its activation to the terminal write.

* `JobEvent` — the calls that observe a job, stop it, drain it or mark it.
* `ActiveJob.Inv` — a failed capture has stopped the job, and only a group reap has no reason.
* `capture_failure_reported_iff` — a job with a failed capture is reported as succeeded just when
  the capture failed during a group reap, the leader had exited with 0 and no cancellation was
  found.
-/

namespace Lubko.Worker

open Lubko.Lib Lubko.Output

/-- `_finalize_status`. -/
def finalizeStatus (job : ActiveJob) : FinalStatus :=
  match job.stopReason with
  | some .cancel | some .shutdown => .cancelled
  | some .lease | some .rowLost | some .persist | some .quarantine | some .spool => .failed
  | none =>
    if job.cancelRequested then .cancelled
    else if job.returncode = some 0 then .succeeded
    else .failed

/-- What the supervisor does to a job object. -/
inductive JobEvent where
  /-- `_observe_and_escalate`, in a turn of a world. -/
  | observe (w : ShutdownWorld) (n : ℕ)
  /-- `signal_kill` of a survivor. -/
  | kill
  /-- `_discover_cancellations` has found the job. -/
  | discoverCancellation (now : ℚ)
  /-- `_run_recovery` has recovered the row of the job. -/
  | recover (now : ℚ)
  /-- `apply_lease_refresh`. -/
  | refresh (refreshed : List Uuid) (refreshMono now : ℚ)
  | enforceLeaseSafety (settings : Settings) (now : ℚ)
  /-- The stop of `_shutdown_finalize`. -/
  | stopForShutdown (now : ℚ)
  /-- What `_finalize_all_for_shutdown` records before it finalizes. -/
  | finalizeForShutdown
  /-- `_drain_active_stream`. -/
  | drainActive (bound : ℕ) (name : StreamName) (now : ℚ) (retry : Seam) (read : PipeRead)
      (seam : Seam)
  /-- `isolate_bad_fds`. -/
  | isolateBadFd (name : StreamName) (now : ℚ)
  | enforceSpoolBounds (bound : ℕ) (now : ℚ)
  /-- One stream in `_drain_completed_streams`. -/
  | drainCompleted (bound : ℕ) (now : ℚ) (pass : CapturePass) (name : StreamName)
  /-- `_fail_capture_closed`, up to its test of the group. -/
  | failCaptureClosed (now : ℚ)
  /-- `_quarantine_job` after a deterministic failure, and the stop behind it. -/
  | quarantine (done : Bool) (now : ℚ)
  /-- A publication has found no row. -/
  | publicationLost (now : ℚ)
  /-- What publication and cleanup make of a stream. -/
  | settle (name : StreamName) (stream : OutputStream)
  /-- `_finalize_one` has written the terminal row. -/
  | finalize

namespace ActiveJob

/-- `_discover_cancellations`, for a job it has found. -/
def discoverCancellation (now : ℚ) (job : ActiveJob) : ActiveJob :=
  if job.cancelRequested then job else requestStop now .cancel { job with cancelRequested := true }

/-- `_run_recovery` for a recovered job, and `publish_job_output` for one that has no row. -/
def loseRow (now : ℚ) (job : ActiveJob) : ActiveJob :=
  requestStop now .rowLost { job with rowLost := true }

/-- `_shutdown_finalize`, before the drain. -/
def stopForShutdown (now : ℚ) (job : ActiveJob) : ActiveJob :=
  if !job.completed && !job.termSent then requestStop now .shutdown job else job

/-- `_finalize_all_for_shutdown`, before `finalize_completed_job_bounded`. -/
def finalizeForShutdown (job : ActiveJob) : ActiveJob :=
  if !job.completed && job.stopReason.isNone then
    { job with stopReason := some .shutdown, cancellationNote := some (stopNote .shutdown) }
  else job

/-- `_enforce_spool_bounds`. -/
def enforceSpoolBounds (bound : ℕ) (now : ℚ) (job : ActiveJob) : ActiveJob :=
  if !job.completed && bound < spoolUsedBytes job then failClosed now job else job

/-- The handler of a deterministic failure. -/
def quarantineAndStop (done : Bool) (now : ℚ) (job : ActiveJob) : ActiveJob :=
  requestStop now .quarantine
    (if done then { job with quarantined := true } else { job with quarantinePending := true })

def handle (job : ActiveJob) : JobEvent → ActiveJob
  | .observe w n => (w.observeAndEscalate n job.id job).2
  | .kill => signalKill job
  | .discoverCancellation now => job.discoverCancellation now
  | .recover now => job.loseRow now
  | .refresh refreshed refreshMono now => applyLeaseRefresh refreshed refreshMono now job
  | .enforceLeaseSafety settings now => Worker.enforceLeaseSafety settings now job
  | .stopForShutdown now => job.stopForShutdown now
  | .finalizeForShutdown => job.finalizeForShutdown
  | .drainActive bound name now retry read seam =>
    (drainActiveStream bound name now retry read seam job).1
  | .isolateBadFd name now => Output.isolateBadFd name now job
  | .enforceSpoolBounds bound now => job.enforceSpoolBounds bound now
  | .drainCompleted bound now pass name => (drainCompletedStream bound now pass name job).2
  | .failCaptureClosed now => failClosed now job
  | .quarantine done now => job.quarantineAndStop done now
  | .publicationLost now => job.loseRow now
  | .settle name stream => setStream job name stream
  | .finalize => { job with finalized := true }

/-- One event on a job that is still in the registry. -/
def step (job : ActiveJob) (e : JobEvent) : Option ActiveJob :=
  if job.finalized then none else some (job.handle e)

/-- The capture of the job fails in the event. -/
def CaptureFails (job : ActiveJob) : JobEvent → Prop
  | .drainActive bound name _ retry read seam =>
    (drainCaptureStream bound (some (spoolUsedBytes job)) retry read seam (jobStream job name)).1 =
      .error
  | .isolateBadFd name _ => (jobStream job name).fd ≠ none
  | .enforceSpoolBounds bound _ => job.completed = false ∧ bound < spoolUsedBytes job
  | .drainCompleted bound now pass name => (drainCompletedStream bound now pass name job).1 = none
  | .failCaptureClosed _ => True
  | _ => False

/-- The group of the job is being reaped: it was stopped, without a reason. -/
def Reaping (job : ActiveJob) : Prop := job.termSent = true ∧ job.stopReason = none

/-- The capture has failed and nothing says so. -/
def Unreported (job : ActiveJob) : Prop := job.spoolEvicted = true ∧ job.stopReason = none

structure Inv (job : ActiveJob) : Prop where
  evicted : job.spoolEvicted = true → job.termSent = true
  reaping : job.Reaping → job.completed = true

variable {job job' : ActiveJob}

/-! ## What an event leaves of the stop -/

/-- The stop of `job` is the stop of `job'`. -/
structure SameStop (job job' : ActiveJob) : Prop where
  termSent : job'.termSent = job.termSent
  stopReason : job'.stopReason = job.stopReason
  spoolEvicted : job'.spoolEvicted = job.spoolEvicted
  completed : job.completed = true → job'.completed = true

theorem SameStop.refl (job : ActiveJob) : job.SameStop job := ⟨rfl, rfl, rfl, fun h => h⟩

theorem SameStop.trans {a b c : ActiveJob} (hab : a.SameStop b) (hbc : b.SameStop c) :
    a.SameStop c :=
  ⟨hbc.termSent.trans hab.termSent, hbc.stopReason.trans hab.stopReason,
    hbc.spoolEvicted.trans hab.spoolEvicted, fun h => hbc.completed (hab.completed h)⟩

theorem setStream_sameStop (job : ActiveJob) (name : StreamName) (stream : OutputStream) :
    job.SameStop (setStream job name stream) := by
  cases name <;> exact ⟨rfl, rfl, rfl, fun h => h⟩

/-- What one event does to the invariant, and to a failure that is not reported. -/
structure Moves (job : ActiveJob) (fails : Prop) (job' : ActiveJob) : Prop where
  inv : job'.Inv
  unreported : job'.Unreported ↔ job.Unreported ∨ fails ∧ job.Reaping

theorem SameStop.moves (h : job.SameStop job') (hinv : job.Inv) : job.Moves False job' := by
  refine ⟨⟨fun hevicted => ?_, fun hreaping => ?_⟩, ?_⟩
  · rw [h.spoolEvicted] at hevicted
    rw [h.termSent]
    exact hinv.evicted hevicted
  · apply h.completed
    apply hinv.reaping
    rwa [Reaping, ← h.termSent, ← h.stopReason]
  · rw [Unreported, Unreported, h.spoolEvicted, h.stopReason]
    simp

/-- A stop of a job that is marked or not before: only during a reap does it record no reason. -/
theorem requestStop_moves (hinv : job.Inv) (now : ℚ) (reason : StopReason)
    (hterm : job'.termSent = job.termSent) (hreason : job'.stopReason = job.stopReason)
    (hcompleted : job'.completed = job.completed) {fails : Prop}
    (hevicted : job'.spoolEvicted = true ↔ job.spoolEvicted = true ∨ fails) :
    job.Moves fails (requestStop now reason job') := by
  by_cases hsent : job.termSent = true
  · rw [requestStop, if_pos (hterm.trans hsent)]
    refine ⟨⟨fun _ => hterm.trans hsent, fun hreaping => ?_⟩, ?_⟩
    · rw [Reaping, hterm, hreason] at hreaping
      rw [hcompleted]
      exact hinv.reaping hreaping
    · rw [Unreported, Unreported, Reaping, hevicted, hreason, and_iff_right hsent, or_and_right]
  · rw [requestStop, if_neg (by rwa [hterm])]
    refine ⟨⟨fun _ => rfl, fun hreaping => absurd hreaping.2 nofun⟩, ?_⟩
    refine iff_of_false (fun h => absurd h.2 nofun) ?_
    rintro (h | h)
    · exact hsent (hinv.evicted h.1)
    · exact hsent h.2.1

theorem Moves.congr {fails fails' : Prop} (h : job.Moves fails job') (hiff : fails ↔ fails') :
    job.Moves fails' job' :=
  ⟨h.inv, by rw [← hiff]; exact h.unreported⟩

theorem Moves.sameStop {fails : Prop} {job'' : ActiveJob} (h : job.Moves fails job')
    (hsame : job'.SameStop job'') : job.Moves fails job'' := by
  obtain ⟨hinv, hiff⟩ := hsame.moves h.inv
  refine ⟨hinv, ?_⟩
  rw [hiff, h.unreported, false_and, or_false]

/-- The stop of a job whose capture is as it was. -/
theorem stop_moves (hinv : job.Inv) (now : ℚ) (reason : StopReason) (h : job.SameStop job')
    (hcompleted : job'.completed = job.completed) :
    job.Moves False (requestStop now reason job') := by
  refine requestStop_moves hinv now reason h.termSent h.stopReason hcompleted ?_
  rw [h.spoolEvicted, or_false]

theorem failClosed_moves (hinv : job.Inv) (now : ℚ) (h : job.SameStop job')
    (hcompleted : job'.completed = job.completed) : job.Moves True (failClosed now job') := by
  unfold failClosed
  apply requestStop_moves hinv
  · exact h.termSent
  · exact h.stopReason
  · exact hcompleted
  · exact ⟨fun _ => .inr trivial, fun _ => rfl⟩

theorem setStream_moves (hinv : job.Inv) (name : StreamName) (stream : OutputStream) :
    job.Moves False (setStream job name stream) :=
  (setStream_sameStop job name stream).moves hinv

/-- The only stop without a reason is that of a leader that has exited. -/
theorem requestGroupReap_moves (hinv : job.Inv) (now : ℚ) (hcompleted : job.completed = true) :
    job.Moves False (requestGroupReap now job) := by
  unfold requestGroupReap
  split_ifs
  · exact (SameStop.refl job).moves hinv
  · exact ⟨⟨fun _ => rfl, fun _ => hcompleted⟩, by rw [Unreported, Unreported]; simp⟩

theorem observeAndEscalate_moves (hinv : job.Inv) (w : ShutdownWorld) (n : ℕ) (id : Uuid) :
    job.Moves False (w.observeAndEscalate n id job).2 := by
  have hpoll : job.SameStop (w.pollLeader n id job) := by
    unfold ShutdownWorld.pollLeader
    split_ifs
    · exact .refl job
    · split
      · exact ⟨rfl, rfl, rfl, fun _ => rfl⟩
      · exact .refl job
  have hescalate : ∀ job, SameStop job (w.escalate n id job) := by
    intro job
    simp only [ShutdownWorld.escalate]
    split
    · split_ifs
      · exact ⟨rfl, rfl, rfl, fun h => h⟩
      · exact .refl job
    · exact .refl job
  obtain ⟨hpolled, hunreported⟩ := hpoll.moves hinv
  have hreap : job.Moves False (w.reapGroup n id (w.pollLeader n id job)) := by
    unfold ShutdownWorld.reapGroup
    split_ifs with hleft
    · simp only [Bool.and_eq_true, Bool.not_eq_true'] at hleft
      obtain ⟨hinv', hiff⟩ := requestGroupReap_moves hpolled (w.now n) hleft.1.1
      refine ⟨hinv', ?_⟩
      rw [hiff, hunreported]
      simp
    · exact hpoll.moves hinv
  exact hreap.sameStop (hescalate _)

/-- What a cancellation finds in a job is the last word only if nothing stopped it before. -/
theorem discoverCancellation_moves (hinv : job.Inv) (now : ℚ) :
    job.Moves False (job.discoverCancellation now) := by
  unfold discoverCancellation
  split_ifs
  · exact (SameStop.refl job).moves hinv
  · exact stop_moves hinv now .cancel ⟨rfl, rfl, rfl, fun h => h⟩ rfl

theorem loseRow_moves (hinv : job.Inv) (now : ℚ) : job.Moves False (job.loseRow now) :=
  stop_moves hinv now .rowLost ⟨rfl, rfl, rfl, fun h => h⟩ rfl

theorem applyLeaseRefresh_moves (hinv : job.Inv) (refreshed : List Uuid) (refreshMono now : ℚ) :
    job.Moves False (applyLeaseRefresh refreshed refreshMono now job) := by
  unfold applyLeaseRefresh
  split_ifs
  · exact (SameStop.refl job).moves hinv
  · exact SameStop.moves ⟨rfl, rfl, rfl, fun h => h⟩ hinv
  · exact stop_moves hinv now .rowLost ⟨rfl, rfl, rfl, fun h => h⟩ rfl

theorem enforceLeaseSafety_moves (hinv : job.Inv) (settings : Settings) (now : ℚ) :
    job.Moves False (Worker.enforceLeaseSafety settings now job) := by
  unfold Worker.enforceLeaseSafety
  split_ifs
  · exact (SameStop.refl job).moves hinv
  · exact stop_moves hinv now .lease ⟨rfl, rfl, rfl, fun h => h⟩ rfl
  · exact (SameStop.refl job).moves hinv

theorem stopForShutdown_moves (hinv : job.Inv) (now : ℚ) :
    job.Moves False (job.stopForShutdown now) := by
  unfold stopForShutdown
  split_ifs
  · exact stop_moves hinv now .shutdown (.refl job) rfl
  · exact (SameStop.refl job).moves hinv

/-- The shutdown records its reason in a job whose leader is not seen to have exited, and no such
job is being reaped. -/
theorem finalizeForShutdown_moves (hinv : job.Inv) :
    job.Moves False job.finalizeForShutdown := by
  unfold finalizeForShutdown
  split_ifs with hleft
  · simp only [Bool.and_eq_true, Bool.not_eq_true', Option.isNone_iff_eq_none] at hleft
    refine ⟨⟨hinv.evicted, fun h => absurd h.2 nofun⟩, iff_of_false (fun h => absurd h.2 nofun) ?_⟩
    rintro (h | h)
    · have hcompleted := hinv.reaping ⟨hinv.evicted h.1, h.2⟩
      rw [hleft.1] at hcompleted
      cases hcompleted
    · exact h.1
  · exact (SameStop.refl job).moves hinv

theorem quarantineAndStop_moves (hinv : job.Inv) (done : Bool) (now : ℚ) :
    job.Moves False (job.quarantineAndStop done now) := by
  refine stop_moves hinv now .quarantine ?_ ?_ <;> cases done
  · exact ⟨rfl, rfl, rfl, fun h => h⟩
  · exact ⟨rfl, rfl, rfl, fun h => h⟩
  · rfl
  · rfl

/-! ## Where the capture fails -/

theorem drainActiveStream_moves (hinv : job.Inv) (bound : ℕ) (name : StreamName) (now : ℚ)
    (retry : Seam) (read : PipeRead) (seam : Seam) :
    job.Moves (job.CaptureFails (.drainActive bound name now retry read seam))
      (drainActiveStream bound name now retry read seam job).1 := by
  unfold drainActiveStream CaptureFails
  dsimp only
  split_ifs with herror
  · exact (failClosed_moves hinv now (setStream_sameStop ..) (setStream_completed ..)).congr
      (iff_of_true trivial herror)
  · exact (setStream_moves hinv ..).congr (iff_of_false not_false herror)

theorem isolateBadFd_moves (hinv : job.Inv) (name : StreamName) (now : ℚ) :
    job.Moves (job.CaptureFails (.isolateBadFd name now)) (Output.isolateBadFd name now job) := by
  unfold Output.isolateBadFd CaptureFails
  dsimp only
  split_ifs with hfd
  · exact ((SameStop.refl job).moves hinv).congr (iff_of_false not_false fun h => h hfd)
  · exact (failClosed_moves hinv now (setStream_sameStop ..) (setStream_completed ..)).congr
      (iff_of_true trivial hfd)

theorem enforceSpoolBounds_moves (hinv : job.Inv) (bound : ℕ) (now : ℚ) :
    job.Moves (job.CaptureFails (.enforceSpoolBounds bound now))
      (job.enforceSpoolBounds bound now) := by
  unfold enforceSpoolBounds CaptureFails
  split_ifs with hover
  · simp only [Bool.and_eq_true, Bool.not_eq_true', decide_eq_true_eq] at hover
    exact (failClosed_moves hinv now (.refl job) rfl).congr (iff_of_true trivial hover)
  · simp only [Bool.and_eq_true, Bool.not_eq_true', decide_eq_true_eq] at hover
    exact ((SameStop.refl job).moves hinv).congr (iff_of_false not_false hover)

theorem drainCompletedStream_moves (hinv : job.Inv) (bound : ℕ) (now : ℚ) (pass : CapturePass)
    (name : StreamName) :
    job.Moves (job.CaptureFails (.drainCompleted bound now pass name))
      (drainCompletedStream bound now pass name job).2 := by
  unfold CaptureFails drainCompletedStream
  dsimp only
  split
  · exact ((SameStop.refl job).moves hinv).congr (iff_of_false not_false nofun)
  · split_ifs with heof herror
    · exact ((SameStop.refl job).moves hinv).congr (iff_of_false not_false nofun)
    · exact (failClosed_moves hinv now (setStream_sameStop ..) (setStream_completed ..)).congr
        (iff_of_true trivial rfl)
    · exact (setStream_moves hinv ..).congr (iff_of_false not_false nofun)

/-- **What one event does.** -/
theorem handle_moves (hinv : job.Inv) (e : JobEvent) :
    job.Moves (job.CaptureFails e) (job.handle e) := by
  cases e with
  | observe w n => exact observeAndEscalate_moves hinv w n job.id
  | kill => exact SameStop.moves ⟨rfl, rfl, rfl, fun h => h⟩ hinv
  | discoverCancellation now => exact discoverCancellation_moves hinv now
  | recover now => exact loseRow_moves hinv now
  | refresh refreshed refreshMono now =>
    exact applyLeaseRefresh_moves hinv refreshed refreshMono now
  | enforceLeaseSafety settings now => exact enforceLeaseSafety_moves hinv settings now
  | stopForShutdown now => exact stopForShutdown_moves hinv now
  | finalizeForShutdown => exact finalizeForShutdown_moves hinv
  | drainActive bound name now retry read seam =>
    exact drainActiveStream_moves hinv bound name now retry read seam
  | isolateBadFd name now => exact isolateBadFd_moves hinv name now
  | enforceSpoolBounds bound now => exact enforceSpoolBounds_moves hinv bound now
  | drainCompleted bound now pass name => exact drainCompletedStream_moves hinv bound now pass name
  | failCaptureClosed now => exact failClosed_moves hinv now (.refl job) rfl
  | quarantine done now => exact quarantineAndStop_moves hinv done now
  | publicationLost now => exact loseRow_moves hinv now
  | settle name stream => exact setStream_moves hinv name stream
  | finalize => exact SameStop.moves ⟨rfl, rfl, rfl, fun h => h⟩ hinv

/-! ## Runs -/

/-- A job as it is activated. -/
structure Unstopped (job : ActiveJob) : Prop where
  termSent : job.termSent = false
  stopReason : job.stopReason = none
  spoolEvicted : job.spoolEvicted = false

theorem Unstopped.inv (h : job.Unstopped) : job.Inv where
  evicted hevicted := absurd (h.spoolEvicted.symm.trans hevicted) nofun
  reaping hreaping := absurd (h.termSent.symm.trans hreaping.1) nofun

/-- The job an activation tracks has not been stopped. -/
theorem activated_unstopped {o : Outcomes} {jobId : Uuid} {spec : Job} {gated : GatedSpawn}
    {claimMono : ℚ} {version : ℤ} {w w' : World}
    (h : activateGatedJob o jobId spec gated claimMono version w = (.ok (some job), w')) :
    job.Unstopped := by
  unfold activateGatedJob finalizeFailedStart at h
  split at h
  · cases h
  · split at h <;> cases h
  · split at h
    · cases h
      exact ⟨rfl, rfl, rfl⟩
    · split at h <;> cases h

theorem finalizeStatus_succeeded_iff :
    finalizeStatus job = .succeeded ↔
      job.stopReason = none ∧ job.cancelRequested = false ∧ job.returncode = some 0 := by
  unfold finalizeStatus
  cases hreason : job.stopReason with
  | some reason => cases reason <;> simp
  | none =>
    simp only [true_and]
    split_ifs with hcancel hcode
    · simp [hcancel]
    · simp [hcancel, hcode]
    · simp [hcancel, hcode]

/-- **A failed capture is not reported as success**, just when it did not fail during a group reap,
or the job was cancelled, or its leader did not exit with 0. -/
theorem capture_failure_reported_iff (hnew : job.Unstopped) {events : List JobEvent}
    (h : exec step job events = some job') :
    (job'.spoolEvicted = true → finalizeStatus job' ≠ .succeeded) ↔
      Always step (fun m e => m.CaptureFails e → ¬ m.Reaping) job events ∨
        job'.cancelRequested = true ∨ job'.returncode ≠ some 0 := by
  have hhistory : ¬ job'.Unreported ↔ ¬ job.Unreported ∧
      Always step (fun m e => m.CaptureFails e → ¬ m.Reaping) job events := by
    refine exec_iff_always (I := Inv) (P := fun m => ¬ m.Unreported) (fun m e m' hm hstep => ?_)
      hnew.inv h
    unfold step at hstep
    split_ifs at hstep
    obtain rfl := Option.some.inj hstep
    obtain ⟨hinv, hiff⟩ := handle_moves hm e
    refine ⟨hinv, ?_⟩
    rw [hiff, not_or, not_and]
  have hfresh : ¬ job.Unreported := fun h => absurd (hnew.spoolEvicted.symm.trans h.1) nofun
  rw [and_iff_right hfresh] at hhistory
  rw [← hhistory, Ne, finalizeStatus_succeeded_iff, Unreported]
  by_cases hevicted : job'.spoolEvicted = true
  · by_cases hreason : job'.stopReason = none
    · simp only [hevicted, hreason, true_and, not_and, forall_const, not_true_eq_false, and_self,
        false_or]
      cases job'.cancelRequested <;> simp
    · simp [hreason]
  · simp [hevicted]

/-- The leader has exited with 0, and its group is gone a turn later. -/
def leftover : ShutdownWorld := { Supervise.lostConnection with groupAlive := fun n _ _ => n = 0 }

/-- A pipe that cannot be read. -/
def brokenPipe : CapturePass :=
  ⟨some [4], fun _ => false, fun _ => .failed, fun _ => none, fun _ => none⟩

/-- A job with an open pipe. -/
def piped : ActiveJob := { spawned (.ofDigit 1) with stdout := { fd := some 4 } }

/-- The group of a job is reaped, and then its pipe cannot be read. -/
theorem failed_drain_of_reaped_succeeds :
    piped.Unstopped ∧
      ∃ s, exec step piped [.observe leftover 0, .observe leftover 1,
          .drainCompleted 4096 1 brokenPipe .stdout] = some s ∧
        s.completed = true ∧ s.spoolEvicted = true ∧ finalizeStatus s = .succeeded := by
  have hrun : (exec step piped [.observe leftover 0, .observe leftover 1,
      .drainCompleted 4096 1 brokenPipe .stdout]).map
        (fun s => (s.completed, s.spoolEvicted, finalizeStatus s)) =
      some (true, true, .succeeded) := by decide +kernel
  obtain ⟨s, hs, hstate⟩ := Option.map_eq_some_iff.1 hrun
  obtain ⟨hcompleted, hstate⟩ := Prod.mk.inj hstate
  obtain ⟨hevicted, hstatus⟩ := Prod.mk.inj hstate
  exact ⟨⟨rfl, rfl, rfl⟩, s, hs, hcompleted, hevicted, hstatus⟩

/-- A pipe that cannot be read while the job runs fails it. -/
theorem capture_failure_reported_iff_running :
    ∃ s, exec step piped [.drainCompleted 4096 1 brokenPipe .stdout, .observe leftover 1] = some s ∧
      s.spoolEvicted = true ∧ finalizeStatus s ≠ .succeeded := by
  have hrun : (exec step piped [.drainCompleted 4096 1 brokenPipe .stdout,
      .observe leftover 1]).map (·.spoolEvicted) = some true := by decide +kernel
  obtain ⟨s, hs, hevicted⟩ := Option.map_eq_some_iff.1 hrun
  have halways : Always step (fun m e => m.CaptureFails e → ¬ m.Reaping) piped
      [.drainCompleted 4096 1 brokenPipe .stdout, .observe leftover 1] := by
    rw [always_cons]
    refine ⟨fun _ hreaping => absurd hreaping.1 nofun, fun m _ => ?_⟩
    rw [always_cons]
    exact ⟨fun hfails => False.elim hfails, fun m' _ => always_nil m'⟩
  have hreported := (capture_failure_reported_iff ⟨rfl, rfl, rfl⟩ hs).2 (.inl halways)
  exact ⟨s, hs, hevicted, hreported hevicted⟩

end ActiveJob

end Lubko.Worker
