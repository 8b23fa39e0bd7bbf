import Lubko.Worker.Types

/-!
# Activating a gated start

A claimed job's process is spawned behind a gate: the wrapper runs the user's command only after
the worker has written one release byte into the gate pipe. `_activate_gated_job` reads the
wrapper's start ticks, persists the exact identity in the job's row, and only then releases the
gate; whatever fails before that, the wrapper must be aborted and reaped.

The functions are translated over a small world (`World`): how many more polls will find the
wrapper alive, and the trace of what was done to it. Everything the operating system and the
database decide is in `Outcomes`, so a statement about all outcomes is a statement about all
values of that record. The two waiting loops end because a killed wrapper is eventually found
dead: `World.live` is the number of polls until then.

Main result: `activateGatedJob_iff`. The activation ends with a tracked job or a reaped wrapper
exactly when the identity write does not breach its client deadline: `DbOperationDeadlineError`
is no `psycopg.Error`, so the handler that aborts the wrapper does not see it.
-/

namespace Lubko.Worker

open Lubko.Lib

/-! ## The wrapper and what is done to it -/

inductive GateEvent where
  /-- The transaction of `_persist_process` committed with exactly one row updated. -/
  | identityCommitted
  /-- The release byte was written into the gate. -/
  | releaseByte
  /-- The worker's end of the gate was closed. -/
  | gateClosed
  /-- `SIGKILL` went to the wrapper's group. -/
  | groupKilled
  /-- The read ends of the capture pipes were closed. -/
  | captureClosed
  deriving DecidableEq

structure World where
  /-- How many further polls of the wrapper find it running. -/
  live : ℕ
  /-- A poll has found the wrapper terminal, which reaps it. -/
  reaped : Bool := false
  trace : List GateEvent := []
  /-- The jobs kept for a terminalization retry. -/
  retryTerminations : List Uuid := []

/-- What the operating system and the database answer during one activation. -/
structure Outcomes where
  /-- `proc_start_ticks(gated.proc.pid)`. -/
  startTicks : Option ℤ
  /-- `_persist_process`: whether exactly one row was updated, or the exception. -/
  persist : Except DbError Bool
  /-- Whether `os.write` of the release byte succeeds. -/
  releaseWritten : Bool
  /-- The turns of the abort loop that start before its five seconds are over. -/
  abortTurns : ℕ
  /-- The statements of `finish_job`. -/
  finish : JobResult → Except DbError Unit
  /-- The statement of `_quarantine_job`. -/
  quarantine : Except DbError Unit
  /-- `time.monotonic()` at activation. -/
  now : ℚ

namespace World

def emit (e : GateEvent) (w : World) : World := { w with trace := w.trace ++ [e] }

/-- `proc.poll()`: whether the wrapper is terminal; a terminal one is reaped by the poll. -/
def poll (w : World) : Bool × World :=
  match w.live with
  | 0 => (true, { w with reaped := true })
  | n + 1 => (false, { w with live := n })

end World

/-- `EXECUTION_ERROR_EXIT_CODE`. -/
def EXECUTION_ERROR_EXIT_CODE : ℤ := 127

/-- `except psycopg.Error` catches it. -/
def DbError.isPsycopg : DbError → Bool
  | .deterministic => true
  | .connectivity => true
  | .deadline => false

/-! ## Abort and convergence -/

/-- The bounded loop of `abort_gated_start`: kill the group while the wrapper is alive and turns
are left. -/
def abortLoop : ℕ → World → World
  | 0, w => w.poll.2
  | n + 1, w => if w.poll.1 then w.poll.2 else abortLoop n (w.poll.2.emit .groupKilled)

/-- `abort_gated_start`: close the gate without releasing it, kill while turns are left, and
report whether the wrapper is terminal. -/
def abortGatedStart (o : Outcomes) (w : World) : Bool × World :=
  (abortLoop o.abortTurns (w.emit .gateClosed)).poll

/-- The unbounded loop of `await_gated_group_gone`, on the number of polls that still find the
wrapper alive. -/
def awaitLoop : ℕ → World → World
  | 0, w => { w with live := 0, reaped := true }
  | n + 1, w => awaitLoop n (World.emit .groupKilled { w with live := n })

def awaitGatedGroupGone (w : World) : World := (awaitLoop w.live w).emit .captureClosed

/-- `_abort_and_converge`. -/
def abortAndConverge (o : Outcomes) (w : World) : World :=
  match abortGatedStart o w with
  | (true, w) => w.emit .captureClosed
  | (false, w) => awaitGatedGroupGone w

/-! ## Activation -/

/-- `release_gate`. -/
def releaseGate (o : Outcomes) (w : World) : Bool × World :=
  if o.releaseWritten then (true, (w.emit .releaseByte).emit .gateClosed)
  else (false, w.emit .gateClosed)

/-- `_persist_process`. -/
def persistProcess (o : Outcomes) (w : World) : Except DbError Bool × World :=
  match o.persist with
  | .ok true => (.ok true, w.emit .identityCommitted)
  | r => (r, w)

/-- `_pre_release_failure`: the final message when the start failed after convergence, with the
ticks that were persisted. -/
def preReleaseFailure (o : Outcomes) (w : World) :
    Except DbError (Option PyStr × ℤ) × World :=
  match o.startTicks.filter (0 < ·) with
  | some startTicks =>
    match persistProcess o w with
    | (.error e, w) =>
      if e.isPsycopg then
        let w := abortAndConverge o w
        if e = .connectivity then (.error e, w)
        else (.ok (some "unable to record process identity; job not started", 0), w)
      else (.error e, w)
    | (.ok false, w) =>
      (.ok (some "unable to record process identity; job not started", 0), abortAndConverge o w)
    | (.ok true, w) => (.ok (none, startTicks), w)
  | none =>
    (.ok (some "unable to record exact process identity; job not started", 0),
      abortAndConverge o w)

/-- `_quarantine_job`: a deterministic failure is reported, any other exception escapes. -/
def quarantineJob (o : Outcomes) : Except DbError Bool :=
  match o.quarantine with
  | .ok () => .ok true
  | .error e => if e = .deterministic then .ok false else .error e

/-- `_finalize_immediate`: a job whose two terminal writes both failed is kept for a retry. -/
def finalizeImmediate (o : Outcomes) (jobId : Uuid) (result : JobResult) (w : World) :
    Except DbError Unit × World :=
  match o.finish result with
  | .ok () => (.ok (), w)
  | .error e =>
    if e = .deterministic then
      match quarantineJob o with
      | .error e => (.error e, w)
      | .ok true => (.ok (), w)
      | .ok false => (.ok (), { w with retryTerminations := jobId :: w.retryTerminations })
    else (.error e, w)

/-- The result a failed start is finalized with. -/
def startFailure (stderr : PyStr) : JobResult where
  status := .failed
  exitCode := EXECUTION_ERROR_EXIT_CODE
  stdout := ""
  stderr := stderr
  cancellationNote := none

/-- The end of `_activate_gated_job` on a failed start. -/
def finalizeFailedStart (o : Outcomes) (jobId : Uuid) (failure : PyStr) (w : World) :
    Except DbError (Option ActiveJob) × World :=
  match finalizeImmediate o jobId (startFailure failure) w with
  | (.ok (), w) => (.ok none, w)
  | (.error e, w) => (.error e, w)

/-- `_activate_gated_job`. -/
def activateGatedJob (o : Outcomes) (jobId : Uuid) (spec : Job) (gated : GatedSpawn)
    (claimMono : ℚ) (version : ℤ) (w : World) : Except DbError (Option ActiveJob) × World :=
  match preReleaseFailure o w with
  | (.error e, w) => (.error e, w)
  | (.ok (some failure, _), w) => finalizeFailedStart o jobId failure w
  | (.ok (none, startTicks), w) =>
    match releaseGate o w with
    | (true, w) =>
      (.ok (some {
        id := jobId, cwd := spec.cwd, process := spec.process, pid := gated.pid
        pgid := gated.pgid, startedMono := o.now, claimedAt := claimMono, version
        startTicks, ownedMembers := [(gated.pid, startTicks)]
        stdout := { gated.stdout with fd := gated.stdoutReadFd }
        stderr := { gated.stderr with fd := gated.stderrReadFd } }), w)
    | (false, w) =>
      finalizeFailedStart o jobId "unable to release gated start; job not started"
        (abortAndConverge o w)

/-! ## What the activation leaves behind -/

/-- The gate was never released, and the wrapper was aborted and reaped. -/
structure World.Converged (w : World) : Prop where
  unreleased : .releaseByte ∉ w.trace
  closed : .gateClosed ∈ w.trace
  reaped : w.reaped = true

/-- The activation ended with a job that tracks the wrapper and whose identity was committed
before the release, or with a converged wrapper. -/
def ActivatedOrConverged (gated : GatedSpawn) :
    Except DbError (Option ActiveJob) × World → Prop
  | (.ok (some job), w) =>
    job.pid = gated.pid ∧ job.pgid = gated.pgid ∧
      [GateEvent.identityCommitted, .releaseByte].Sublist w.trace
  | (_, w) => w.Converged

section Convergence

theorem World.Converged.emit {w : World} {e : GateEvent} (hw : w.Converged)
    (he : e ≠ .releaseByte) : (w.emit e).Converged where
  unreleased := by simp [World.emit, hw.unreleased, he.symm]
  closed := by simp [World.emit, hw.closed]
  reaped := hw.reaped

/-- A gate closed without release, before the wrapper is known to be gone. -/
structure World.Shut (w : World) : Prop where
  unreleased : .releaseByte ∉ w.trace
  closed : .gateClosed ∈ w.trace

theorem World.Shut.emit {w : World} {e : GateEvent} (hw : w.Shut) (he : e ≠ .releaseByte) :
    (w.emit e).Shut where
  unreleased := by simp [World.emit, hw.unreleased, he.symm]
  closed := by simp [World.emit, hw.closed]

theorem World.Shut.poll {w : World} (hw : w.Shut) :
    w.poll.2.Shut ∧ (w.poll.1 = true → w.poll.2.Converged) := by
  cases hl : w.live with
  | zero =>
    simp only [World.poll, hl]
    exact ⟨⟨hw.unreleased, hw.closed⟩, fun _ => ⟨hw.unreleased, hw.closed, rfl⟩⟩
  | succ n =>
    simp only [World.poll, hl]
    exact ⟨⟨hw.unreleased, hw.closed⟩, fun h => by simp at h⟩

theorem abortLoop_shut {w : World} (hw : w.Shut) (n : ℕ) : (abortLoop n w).Shut := by
  induction n generalizing w with
  | zero => exact hw.poll.1
  | succ n ih =>
    rw [abortLoop]
    split_ifs
    · exact hw.poll.1
    · exact ih (hw.poll.1.emit (by decide))

/-- The blocking loop returns only once the wrapper is reaped. -/
theorem awaitLoop_converged {w : World} (hw : w.Shut) (n : ℕ) : (awaitLoop n w).Converged := by
  induction n generalizing w with
  | zero => exact ⟨hw.unreleased, hw.closed, rfl⟩
  | succ n ih =>
    refine ih (World.Shut.emit (w := { w with live := n }) ?_ (by decide))
    exact ⟨hw.unreleased, hw.closed⟩

/-- **Convergence.** `_abort_and_converge` leaves an unreleased gate closed and the wrapper
reaped. -/
theorem abortAndConverge_converged (o : Outcomes) {w : World} (hw : .releaseByte ∉ w.trace) :
    (abortAndConverge o w).Converged := by
  have hshut : (w.emit .gateClosed).Shut :=
    ⟨by simp [World.emit, hw], by simp [World.emit]⟩
  have habort : (abortGatedStart o w).2.Shut ∧
      ((abortGatedStart o w).1 = true → (abortGatedStart o w).2.Converged) :=
    (abortLoop_shut hshut o.abortTurns).poll
  unfold abortAndConverge
  split <;> rename_i w' heq <;> rw [heq] at habort
  · exact (habort.2 rfl).emit (by decide)
  · exact (awaitLoop_converged habort.1 _).emit (by decide)

/-- Finalizing the row does not touch the wrapper, whatever the database answers. -/
theorem finalizeFailedStart_converged {o : Outcomes} {jobId : Uuid} {failure : PyStr} {w : World}
    (hw : w.Converged) (gated : GatedSpawn) :
    ActivatedOrConverged gated (finalizeFailedStart o jobId failure w) := by
  have hfin : ∃ r, (finalizeImmediate o jobId (startFailure failure) w).1 = r ∧
      (finalizeImmediate o jobId (startFailure failure) w).2.Converged := by
    refine ⟨_, rfl, ?_⟩
    unfold finalizeImmediate
    repeat' split
    all_goals exact ⟨hw.unreleased, hw.closed, hw.reaped⟩
  obtain ⟨r, -, hconv⟩ := hfin
  unfold finalizeFailedStart
  split <;> rename_i h <;> rw [h] at hconv <;> exact hconv

end Convergence

/-! ## The exact condition -/

/-- The identity write is issued, and the client deadline cuts it off. -/
def PersistDeadline (o : Outcomes) : Prop :=
  (∃ t, o.startTicks = some t ∧ 0 < t) ∧ o.persist = .error .deadline

theorem filter_startTicks_eq_some {o : Outcomes} {t : ℤ} :
    o.startTicks.filter (0 < ·) = some t ↔ o.startTicks = some t ∧ 0 < t := by
  simp [Option.filter_eq_some_iff]

/-- **A gated start is activated or converged** on every outcome of reading the start ticks, of
the identity write, of the release and of the terminal writes that follow a failure, except when
the identity write breaches its client deadline. -/
theorem activateGatedJob_iff (o : Outcomes) (jobId : Uuid) (spec : Job) (gated : GatedSpawn)
    (claimMono : ℚ) (version : ℤ) (live : ℕ) :
    ActivatedOrConverged gated
        (activateGatedJob o jobId spec gated claimMono version { live }) ↔
      ¬ PersistDeadline o := by
  have hfresh : GateEvent.releaseByte ∉ ({ live } : World).trace := by simp
  cases hticks : o.startTicks.filter (0 < ·) with
  | none =>
    have hno : ¬ PersistDeadline o := by
      rintro ⟨⟨t, ht⟩, -⟩
      rw [filter_startTicks_eq_some.2 ht] at hticks
      simp at hticks
    simp only [activateGatedJob, preReleaseFailure, hticks, hno, not_false_iff, iff_true]
    exact finalizeFailedStart_converged (abortAndConverge_converged o hfresh) gated
  | some t =>
    have ht := filter_startTicks_eq_some.1 hticks
    simp only [activateGatedJob, preReleaseFailure, hticks]
    match hp : o.persist with
    | .ok true =>
      have hno : ¬ PersistDeadline o := fun h => by simp [PersistDeadline, hp] at h
      simp only [persistProcess, hp, hno, not_false_iff, iff_true]
      have hcommitted : GateEvent.releaseByte ∉
          ((World.emit .identityCommitted { live }).emit .gateClosed).trace := by
        simp [World.emit]
      cases hrel : o.releaseWritten with
      | true =>
        simp only [releaseGate, hrel, if_true]
        exact ⟨rfl, rfl, by simp [World.emit]⟩
      | false =>
        simp only [releaseGate, hrel]
        exact finalizeFailedStart_converged (abortAndConverge_converged o hcommitted) gated
    | .ok false =>
      have hno : ¬ PersistDeadline o := fun h => by simp [PersistDeadline, hp] at h
      simp only [persistProcess, hp, hno, not_false_iff, iff_true]
      exact finalizeFailedStart_converged (abortAndConverge_converged o hfresh) gated
    | .error .deterministic =>
      have hno : ¬ PersistDeadline o := fun h => by simp [PersistDeadline, hp] at h
      simp only [persistProcess, hp, hno, not_false_iff, iff_true, DbError.isPsycopg, if_true]
      exact finalizeFailedStart_converged (abortAndConverge_converged o hfresh) gated
    | .error .connectivity =>
      have hno : ¬ PersistDeadline o := fun h => by simp [PersistDeadline, hp] at h
      simp only [persistProcess, hp, hno, not_false_iff, iff_true, DbError.isPsycopg, if_true]
      exact abortAndConverge_converged o hfresh
    | .error .deadline =>
      -- No handler runs: the gate is still open and the wrapper alive.
      have hyes : PersistDeadline o := ⟨⟨t, ht⟩, hp⟩
      simp only [persistProcess, hp, hyes, not_true, iff_false, DbError.isPsycopg]
      intro h
      simpa using h.reaped

/-- The identity write of a live wrapper hangs until the client deadline. -/
def hungPersist : Outcomes where
  startTicks := some 42
  persist := .error .deadline
  releaseWritten := true
  abortTurns := 250
  finish := fun _ => .ok ()
  quarantine := .ok ()
  now := 0

/-- A wrapper just spawned for the nil job. -/
def spawnedWrapper : GatedSpawn where
  pid := 4242
  pgid := 4242
  stdout := {}
  stderr := {}
  gateFd := 9
  stdoutReadFd := some 10
  stderrReadFd := some 11

/-- **The deadline leaves an untracked wrapper.** The activation raises, no job tracks the
wrapper, and it has neither been aborted nor reaped. -/
theorem hung_persist_leaves_wrapper :
    let r := activateGatedJob hungPersist (.ofDigit 0) ⟨.ofDigit 0, "/", ["true"]⟩ spawnedWrapper 1 4
      { live := 3 }
    r.1 = .error .deadline ∧ r.2.trace = [] ∧ r.2.reaped = false ∧
      ¬ ActivatedOrConverged spawnedWrapper r := by
  refine ⟨rfl, rfl, rfl, fun h => ?_⟩
  simpa using World.Converged.reaped h

end Lubko.Worker
