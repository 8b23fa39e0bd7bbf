import Lubko.Lib.Guarantee
import Lubko.Output.Capture
import Lubko.Worker.GatedStart
import Lubko.Worker.Heartbeat

/-!
# Finalizing a job that has ended

`finalize_completed_job_bounded` drains what is left in the pipes of a job, publishes it, writes the
terminal row and takes the job out of the registry. Every database call may fail, and some failures
raise. The state is explicit: the keys of the registry, the job objects, whether there is a
connection. What the outside answers is a parameter, indexed by a counter of the answers asked for.

Main result: `finalizeCompletedJobBounded_keeps`. Whatever the answers, no stop is taken back, and a
job leaves the registry only with both capture buffers released.
-/

namespace Lubko.Worker

open Lubko.Lib Lubko.Output

/-! ## State and answers -/

/-- What a shutdown has done. -/
inductive ShutdownEvent where
  /-- A pending attempt got its late callback and was cancelled. -/
  | abandoned (jobId : Uuid)
  | poolStopped
  /-- `_drain_active_groups` ran to its end over these jobs. -/
  | drained (ids : List Uuid)
  | sentinelWritten
  /-- `write_worker_health` was called. -/
  | health (alive dbConnected : Bool)

/-- The part of a supervisor that a shutdown works on. -/
structure ShutdownState where
  /-- `conn` is not `None`. -/
  connected : Bool
  /-- The keys of `active`, in order. -/
  active : List Uuid
  /-- The job objects, also of jobs no longer in the registry. -/
  job : Uuid → ActiveJob
  pendingStarts : List StartAttempt
  retryTerminations : List Uuid
  /-- How many answers were asked for. -/
  ticks : ℕ := 0
  trace : List ShutdownEvent := []

/-- What one pass over the capture pipes meets, by descriptor. -/
structure CapturePass where
  /-- `_poll_readable`: the readable descriptors, or `none` when it raises. -/
  readable : Option (List ℕ)
  /-- `_is_bad_fd`. -/
  bad : ℕ → Bool
  read : ℕ → PipeRead
  retry : ℕ → Seam
  seam : ℕ → Seam

/-- How `publish_output` ends when it does not return. -/
inductive PublishError where
  /-- `SpoolCaptureError`. -/
  | capture
  /-- Another `OSError` of this host. -/
  | os
  | db (e : DbError)

/-- What the outside answers when it is asked once during finalization. -/
structure FinalizeAnswers where
  /-- `time.monotonic()`. -/
  now : ℚ
  /-- `finish_job`: the persisted status, `none` when the row is gone. -/
  finish : Except DbError (Option PyStr)
  quarantine : Except DbError Unit
  /-- `publish_output`: the plans it settled, `none` when the row is gone. -/
  publish : ActiveJob → Except PublishError (Option Plans)
  /-- The rows a lease refresh returns. -/
  refresh : Except DbError (List Uuid)
  groupAlive : Uuid → Bool
  pass : CapturePass
  /-- `_drain_completed_streams` raises `SpoolCaptureError`. -/
  drainRaises : Bool

/-- Programs of the supervisor. -/
abbrev Supervise := EStateM DbError ShutdownState

namespace Supervise

def emit (e : ShutdownEvent) : Supervise Unit := modify fun s => { s with trace := s.trace ++ [e] }

/-- Change one job object. -/
def modifyJob (id : Uuid) (f : ActiveJob → ActiveJob) : Supervise Unit :=
  modify fun s => { s with job := fun i => if i = id then f (s.job i) else s.job i }

/-- The job object as it stands. -/
def readJob (id : Uuid) : Supervise ActiveJob := do
  return (← get).job id

/-- `self.active.pop(job.id, None)`. -/
def untrack (id : Uuid) : Supervise Unit :=
  modify fun s => { s with active := s.active.filter (· ≠ id) }

/-- The next answers. -/
def ask (answers : ℕ → FinalizeAnswers) : Supervise FinalizeAnswers :=
  modifyGet fun s => (answers s.ticks, { s with ticks := s.ticks + 1 })

end Supervise

/-! ## Local steps on a job -/

/-- The loop body of `cleanup_job`. -/
def cleanupStream (stream : OutputStream) : OutputStream :=
  { stream with fd := none, eof := true, pending := [], data := [] }

/-- `cleanup_job`. -/
def cleanupJob (job : ActiveJob) : ActiveJob :=
  { job with stdout := cleanupStream job.stdout, stderr := cleanupStream job.stderr }

/-- `_streams_at_eof`. -/
def streamsAtEof (job : ActiveJob) : Bool := job.stdout.eof && job.stderr.eof

/-- One stream in `_drain_completed_streams`: whether it progressed, `none` on an error. -/
def drainCompletedStream (bound : ℕ) (now : ℚ) (pass : CapturePass) (name : StreamName)
    (job : ActiveJob) : Option Bool × ActiveJob :=
  let stream := jobStream job name
  match stream.fd with
  | none => (some false, job)
  | some fd =>
    if stream.eof then (some false, job)
    else
      let (status, stream', _) := drainCaptureStream bound (some (spoolUsedBytes job))
        (pass.retry fd) (pass.read fd) (pass.seam fd) stream
      let drained := setStream job name stream'
      if status = .error then (none, failClosed now drained)
      else (some (status = .eof || stream'.eof || stream.data.length < stream'.data.length), drained)

/-- `_drain_completed_streams`. -/
def drainCompletedStreams (bound : ℕ) (now : ℚ) (pass : CapturePass) (job : ActiveJob) :
    Bool × ActiveJob :=
  match drainCompletedStream bound now pass .stdout job with
  | (none, job) => (false, job)
  | (some progressed, job) =>
    match drainCompletedStream bound now pass .stderr job with
    | (none, job) => (false, job)
    | (some progressed', job) => (progressed || progressed', job)

/-- The stream updates of an acknowledged publication. -/
def settlePlans (plans : Plans) (now : ℚ) (job : ActiveJob) : ActiveJob :=
  { job with
    stdout := settleStream plans now .stdout job.stdout
    stderr := settleStream plans now .stderr job.stderr }

/-- The read end of a stream is closed, and the stream marked at its end. -/
def closeStream (name : StreamName) (job : ActiveJob) : ActiveJob :=
  setStream job name { jobStream job name with fd := none, eof := true }

namespace Supervise

/-! ## Finalization -/

section Finalization

variable (settings : Settings) (answers : ℕ → FinalizeAnswers)

/-- `output_spool_max_bytes`. -/
def spoolBound : ℕ := settings.outputSpoolMaxBytes.toNat

/-- `_quarantine_job`: a deterministic failure is reported, any other exception escapes. -/
def quarantine : Supervise Bool := do
  match (← ask answers).quarantine with
  | .ok () => return true
  | .error e => if e = .deterministic then return false else throw e

/-- What follows a deterministic failure of a job: its row is quarantined, or remembered for that,
and the job is stopped. -/
def quarantineActive (id : Uuid) : Supervise Unit := do
  let done ← quarantine answers
  modifyJob id fun job =>
    if done then { job with quarantined := true } else { job with quarantinePending := true }
  let now := (← ask answers).now
  modifyJob id (requestStop now .quarantine)

/-- `_finalize_one`. -/
def finalizeOne (id : Uuid) : Supervise Bool := do
  if !(← get).connected then return false
  else
    match (← ask answers).finish with
    | .error e =>
      if e = .deterministic then
        quarantineActive answers id
        return false
      else throw e
    | .ok none =>
      modifyJob id fun job => cleanupJob { job with rowLost := true }
      return true
    | .ok (some _) =>
      modifyJob id cleanupJob
      emit (.health true true)
      return true

/-- `job.finalized = True`, and the job leaves the registry. -/
def markFinalized (id : Uuid) : Supervise Unit := do
  modifyJob id fun job => { job with finalized := true }
  untrack id

/-- `_untrack_lost_job`. -/
def untrackLostJob (id : Uuid) : Supervise Unit := do
  modifyJob id cleanupJob
  markFinalized id

/-- The handler of `_fail_capture_closed` around `_finalize_one`. -/
def finalizeOrQuarantine (id : Uuid) : Supervise (Option Bool) :=
  tryCatch (some <$> finalizeOne answers id) fun e =>
    if e = .deterministic then do
      quarantineActive answers id
      return none
    else throw e

/-- `_fail_capture_closed`. -/
def failCaptureClosed (id : Uuid) : Supervise Unit := do
  let now := (← ask answers).now
  modifyJob id (failClosed now)
  let alive := (← ask answers).groupAlive id
  if !((← readJob id).completed && !alive) then return ()
  else if !(← get).connected then untrackLostJob id
  else
    match ← finalizeOrQuarantine answers id with
    | none => return ()
    | some true => markFinalized id
    | some false => untrackLostJob id

/-- What `_publish_bounded` returns. -/
inductive Verdict where
  | ok
  | lost
  | capture
  | quarantine
  deriving DecidableEq

/-- `_publish_bounded`. A deadline breach of the publication is an `OSError`, and quarantines. -/
def publishBounded (id : Uuid) : Supervise Verdict := do
  let answer ← ask answers
  match answer.publish (← readJob id) with
  | .error .capture => return .capture
  | .error (.db .connectivity) => throw .connectivity
  | .error _ =>
    quarantineActive answers id
    return .quarantine
  | .ok none =>
    untrackLostJob id
    return .lost
  | .ok (some plans) =>
    modifyJob id (settlePlans plans answer.now)
    return .ok

/-- `_publish_or_fail`. -/
def publishOrFail (id : Uuid) : Supervise Bool := do
  match ← publishBounded answers id with
  | .capture =>
    failCaptureClosed answers id
    return false
  | verdict => return verdict = .ok

/-- The loop body of `_abandon_open_capture_streams`; false once the job failed closed. -/
def abandonOpenStream (id : Uuid) (name : StreamName) : Supervise Bool := do
  let job ← readJob id
  let stream := jobStream job name
  match stream.fd with
  | none => return true
  | some fd =>
    let room := spoolBound settings - spoolUsedBytes job
    if stream.pending = [] then
      modifyJob id (closeStream name)
      return true
    else if room = 0 then
      failCaptureClosed answers id
      return false
    else
      let limit := some (min room stream.pending.length)
      let seam := (← ask answers).pass.seam fd
      modifyJob id fun job =>
        setStream job name (flushPending limit seam (jobStream job name)).2
      let pending := (jobStream (← readJob id) name).pending
      if !(flushPending limit seam stream).1 || pending ≠ [] then
        failCaptureClosed answers id
        return false
      else
        modifyJob id (closeStream name)
        return true

/-- `_abandon_open_capture_streams`. -/
def abandonOpenCaptureStreams (id : Uuid) : Supervise Bool := do
  let answer ← ask answers
  modifyJob id fun job => (drainCompletedStreams (spoolBound settings) answer.now answer.pass job).2
  if ← abandonOpenStream settings answers id .stdout then
    abandonOpenStream settings answers id .stderr
  else return false

/-- `_refresh_leases_quietly`, with the answer of the refresh. -/
def refreshLeasesQuietly (answer : Except DbError (List Uuid)) (now : ℚ) : Supervise Unit := do
  if (← get).connected then
    match answer with
    | .ok refreshed => modify fun s => { s with
        job := fun i => if i ∈ s.active then applyLeaseRefresh refreshed now now (s.job i)
          else s.job i }
    | .error e => if e.isPsycopg then return () else throw e
  else return ()

/-- What `_bounded_cycle_turn` returns. -/
inductive Turn where
  | eof
  | stop
  | wait

/-- The end of `_bounded_cycle_turn`, after a publication that succeeded. -/
def settleTurn (id : Uuid) (eofDeadline : ℚ) (progressed : Bool) (usedBefore : ℕ) :
    Supervise Turn := do
  let job ← readJob id
  let madeRoom := progressed || spoolUsedBytes job < usedBefore
  let answer ← ask answers
  if streamsAtEof job then return .eof
  else if eofDeadline ≤ answer.now then
    return if ← abandonOpenCaptureStreams settings answers id then .eof else .stop
  else if !madeRoom && spoolBound settings ≤ usedBefore then
    failCaptureClosed answers id
    return .stop
  else
    unless madeRoom do refreshLeasesQuietly answer.refresh answer.now
    return .wait

/-- `_bounded_cycle_turn`. -/
def boundedCycleTurn (id : Uuid) (eofDeadline : ℚ) : Supervise Turn := do
  let answer ← ask answers
  if answer.drainRaises then
    failCaptureClosed answers id
    return .stop
  else
    let drain := drainCompletedStreams (spoolBound settings) answer.now answer.pass
    let progressed := (drain (← readJob id)).1
    modifyJob id fun job => (drain job).2
    let usedBefore := spoolUsedBytes (← readJob id)
    match ← publishBounded answers id with
    | .ok => settleTurn settings answers id eofDeadline progressed usedBefore
    | .capture =>
      failCaptureClosed answers id
      return .stop
    | _ => return .stop

/-- The loop of `_bounded_finalization_cycle`, with the turns that are left. -/
def cycleTurns (id : Uuid) (eofDeadline : ℚ) : ℕ → Supervise Bool
  | 0 => do
    failCaptureClosed answers id
    return false
  | n + 1 => do
    if streamsAtEof (← readJob id) then return true
    else
      match ← boundedCycleTurn settings answers id eofDeadline with
      | .eof => return true
      | .stop => return false
      | .wait => cycleTurns id eofDeadline n

/-- `DETACHED_CAPTURE_EOF_GRACE_SECONDS`. -/
def DETACHED_CAPTURE_EOF_GRACE_SECONDS : ℚ := 5

/-- `_bounded_finalization_cycle`. -/
def boundedFinalizationCycle (id : Uuid) : Supervise Bool := do
  let now := (← ask answers).now
  cycleTurns settings answers id (now + DETACHED_CAPTURE_EOF_GRACE_SECONDS) 100000

/-- `_finalize_one`, and the job leaves the registry when that succeeded. -/
def finalizeAndUntrack (id : Uuid) : Supervise Unit := do
  if ← finalizeOne answers id then markFinalized id else return ()

/-- `finalize_completed_job_bounded`. -/
def finalizeCompletedJobBounded (id : Uuid) : Supervise Unit := do
  if !(← get).connected then return ()
  else if (← readJob id).spoolEvicted then finalizeAndUntrack answers id
  else if ← boundedFinalizationCycle settings answers id then
    if ← publishOrFail answers id then finalizeAndUntrack answers id else return ()
  else return ()

end Finalization

end Supervise

/-! ## What every step keeps -/

/-- No buffer and no descriptor is left. -/
structure OutputStream.Released (stream : OutputStream) : Prop where
  fd : stream.fd = none
  eof : stream.eof = true
  pending : stream.pending = []
  data : stream.data = []

/-- Both capture buffers of the job are released. -/
def ActiveJob.Released (job : ActiveJob) : Prop := ∀ name, (jobStream job name).Released

theorem cleanupStream_released (stream : OutputStream) : (cleanupStream stream).Released :=
  ⟨rfl, rfl, rfl, rfl⟩

/-- `cleanup_job` releases both buffers. -/
theorem cleanupJob_released (job : ActiveJob) : (cleanupJob job).Released := by
  intro name
  cases name with
  | stdout => exact cleanupStream_released job.stdout
  | stderr => exact cleanupStream_released job.stderr

/-- No stop and no release is taken back between two states of a job object. -/
structure ActiveJob.Keeps (job job' : ActiveJob) : Prop where
  termSent : job.termSent = true → job'.termSent = true
  released : job.Released → job'.Released

section Keeps

theorem ActiveJob.Keeps.refl (job : ActiveJob) : job.Keeps job := ⟨fun h => h, fun h => h⟩

theorem ActiveJob.Keeps.trans {a b c : ActiveJob} (hab : a.Keeps b) (hbc : b.Keeps c) :
    a.Keeps c :=
  ⟨fun h => hbc.termSent (hab.termSent h), fun h => hbc.released (hab.released h)⟩

/-- A change outside the streams and `term_sent`. -/
theorem ActiveJob.Keeps.of_eq {job job' : ActiveJob} (hterm : job'.termSent = job.termSent)
    (hout : job'.stdout = job.stdout) (herr : job'.stderr = job.stderr) : job.Keeps job' where
  termSent h := by rw [hterm, h]
  released h := by
    intro name
    cases name with
    | stdout => simpa [jobStream, hout] using h .stdout
    | stderr => simpa [jobStream, herr] using h .stderr

theorem cleanupJob_keeps (job : ActiveJob) : job.Keeps (cleanupJob job) :=
  ⟨fun h => h, fun _ => cleanupJob_released job⟩

theorem requestStop_keeps (now : ℚ) (reason : StopReason) (job : ActiveJob) :
    job.Keeps (requestStop now reason job) where
  termSent _ := requestStop_termSent now reason job
  released h := by
    intro name
    have hname := h name
    unfold requestStop
    split_ifs
    · exact hname
    · cases name <;> exact hname

theorem failClosed_keeps (now : ℚ) (job : ActiveJob) : job.Keeps (failClosed now job) := by
  refine .trans ?_ (requestStop_keeps now .spool _)
  exact .of_eq rfl rfl rfl

theorem setStream_keeps {job : ActiveJob} {name : StreamName} {stream : OutputStream}
    (h : (jobStream job name).Released → stream.Released) :
    job.Keeps (setStream job name stream) where
  termSent hterm := by cases name <;> exact hterm
  released hjob := by
    intro name'
    have hname := h (hjob name)
    have hother := hjob name'
    cases name <;> cases name' <;> first | exact hname | exact hother

theorem closeStream_keeps (name : StreamName) (job : ActiveJob) :
    job.Keeps (closeStream name job) :=
  setStream_keeps fun h => ⟨rfl, rfl, h.pending, h.data⟩

theorem flushPending_keeps (name : StreamName) (limit : Option ℕ) (seam : Seam) (job : ActiveJob) :
    job.Keeps (setStream job name (flushPending limit seam (jobStream job name)).2) :=
  setStream_keeps fun h => by simpa only [flushPending, h.pending, if_true] using h

/-- A stream at its end is left alone. -/
theorem drainCaptureStream_released {stream : OutputStream} (h : stream.Released) (bound : ℕ)
    (used : Option ℕ) (retry : Seam) (read : PipeRead) (seam : Seam) :
    (drainCaptureStream bound used retry read seam stream).2.1.Released := by
  simpa only [drainCaptureStream, h.eof, if_true] using h

theorem drainCompletedStream_keeps (bound : ℕ) (now : ℚ) (pass : CapturePass) (name : StreamName)
    (job : ActiveJob) : job.Keeps (drainCompletedStream bound now pass name job).2 := by
  simp only [drainCompletedStream]
  split
  · exact .refl job
  · split_ifs
    · exact .refl job
    · exact .trans (setStream_keeps fun h => drainCaptureStream_released h _ _ _ _ _)
        (failClosed_keeps now _)
    · exact setStream_keeps fun h => drainCaptureStream_released h _ _ _ _ _

theorem drainCompletedStreams_keeps (bound : ℕ) (now : ℚ) (pass : CapturePass) (job : ActiveJob) :
    job.Keeps (drainCompletedStreams bound now pass job).2 := by
  have hout := drainCompletedStream_keeps bound now pass .stdout job
  have herr := drainCompletedStream_keeps bound now pass .stderr
    (drainCompletedStream bound now pass .stdout job).2
  unfold drainCompletedStreams
  split <;> next heq =>
    rw [heq] at hout herr
    first
      | exact hout
      | split <;> next heq' =>
          rw [heq'] at herr
          exact hout.trans herr

theorem settleStream_released {stream : OutputStream} (h : stream.Released) (plans : Plans) (now : ℚ)
    (name : StreamName) : (settleStream plans now name stream).Released := by
  unfold settleStream
  cases plans name with
  | none => exact h
  | some plan =>
    simp only [trimPublished]
    split_ifs
    · exact ⟨h.fd, h.eof, h.pending, h.data⟩
    · exact ⟨h.fd, h.eof, h.pending, by simp [applyPlan, h.data]⟩

theorem settlePlans_keeps (plans : Plans) (now : ℚ) (job : ActiveJob) :
    job.Keeps (settlePlans plans now job) where
  termSent h := h
  released h := by
    intro name
    cases name with
    | stdout => exact settleStream_released (h .stdout) plans now .stdout
    | stderr => exact settleStream_released (h .stderr) plans now .stderr

theorem applyLeaseRefresh_keeps (refreshed : List Uuid) (refreshMono now : ℚ) (job : ActiveJob) :
    job.Keeps (applyLeaseRefresh refreshed refreshMono now job) := by
  unfold applyLeaseRefresh
  split_ifs
  · exact .refl job
  · exact .of_eq rfl rfl rfl
  · refine .trans ?_ (requestStop_keeps now .rowLost _)
    exact .of_eq rfl rfl rfl

end Keeps

/-! ## The guarantee of every program -/

/-- The trace only grows, no stop and no release is taken back, and a job leaves the registry only
when it is released. -/
structure ShutdownState.Keeps (s t : ShutdownState) : Prop where
  trace : s.trace <+: t.trace
  termSent : ∀ id, (s.job id).termSent = true → (t.job id).termSent = true
  released : ∀ id, (s.job id).Released → (t.job id).Released
  tracked : ∀ id ∈ s.active, id ∈ t.active ∨ (t.job id).Released

namespace ShutdownState

instance : Std.Refl Keeps :=
  ⟨fun _ => ⟨List.prefix_rfl, fun _ h => h, fun _ h => h, fun _ h => .inl h⟩⟩

instance : IsTrans ShutdownState Keeps where
  trans s t u hst htu :=
    { trace := hst.trace.trans htu.trace
      termSent := fun id h => htu.termSent id (hst.termSent id h)
      released := fun id h => htu.released id (hst.released id h)
      tracked := fun id h => by
        cases hst.tracked id h with
        | inl h => exact htu.tracked id h
        | inr h => exact .inr (htu.released id h) }

/-- A change of the job objects that takes nothing back. -/
theorem Keeps.of_job {s : ShutdownState} {job : Uuid → ActiveJob}
    (h : ∀ id, (s.job id).Keeps (job id)) : s.Keeps { s with job } :=
  ⟨List.prefix_rfl, fun id => (h id).termSent, fun id => (h id).released, fun _ h => .inl h⟩

end ShutdownState

namespace Supervise

open ShutdownState

theorem emit_keeps (e : ShutdownEvent) : Guarantees Keeps (emit e) :=
  .modify fun _ => ⟨List.prefix_append _ _, fun _ h => h, fun _ h => h, fun _ h => .inl h⟩

theorem modifyJob_keeps (id : Uuid) {f : ActiveJob → ActiveJob}
    (hf : ∀ job, ActiveJob.Keeps job (f job)) : Guarantees Keeps (modifyJob id f) := by
  refine .modify fun s => .of_job fun i => ?_
  split_ifs
  · exact hf _
  · exact .refl _

theorem readJob_keeps (id : Uuid) : Guarantees Keeps (readJob id) :=
  .bind .get fun _ => .pure _

theorem ask_keeps (answers : ℕ → FinalizeAnswers) : Guarantees Keeps (ask answers) :=
  fun _ => ⟨List.prefix_rfl, fun _ h => h, fun _ h => h, fun _ h => .inl h⟩

section Programs

variable (settings : Settings) (answers : ℕ → FinalizeAnswers)

theorem quarantine_keeps : Guarantees Keeps (quarantine answers) := by
  refine .bind (ask_keeps answers) fun answer => ?_
  split
  · exact .pure _
  · split_ifs
    · exact .pure _
    · exact .throw _

theorem quarantineActive_keeps (id : Uuid) : Guarantees Keeps (quarantineActive answers id) := by
  refine .bind (quarantine_keeps answers) fun done => .bind ?_ fun _ =>
    .bind (ask_keeps answers) fun answer => modifyJob_keeps id (requestStop_keeps _ _)
  refine modifyJob_keeps id fun job => ?_
  cases done <;> exact .of_eq rfl rfl rfl

theorem finalizeOne_keeps (id : Uuid) : Guarantees Keeps (finalizeOne answers id) := by
  refine .bind .get fun s => ?_
  split_ifs
  · exact .pure _
  · refine .bind (ask_keeps answers) fun answer => ?_
    split
    · split_ifs
      · exact .bind (quarantineActive_keeps answers id) fun _ => .pure _
      · exact .throw _
    · refine .bind (modifyJob_keeps id fun job => ?_) fun _ => .pure _
      refine .trans ?_ (cleanupJob_keeps _)
      exact .of_eq rfl rfl rfl
    · exact .bind (modifyJob_keeps id cleanupJob_keeps) fun _ => .bind (emit_keeps _) fun _ => .pure _

/-- A job that `_finalize_one` reports as finalized is released. -/
theorem finalizeOne_released {id : Uuid} {s t : ShutdownState}
    (h : finalizeOne answers id s = .ok true t) : (t.job id).Released := by
  obtain ⟨_, s, hget, h⟩ := run_bind_eq_ok.1 h
  split_ifs at h
  · cases h
  · obtain ⟨answer, s, hask, h⟩ := run_bind_eq_ok.1 h
    match hfinish : answer.finish with
    | .error e =>
      simp only [hfinish] at h
      split_ifs at h
      · obtain ⟨_, s, hq, h⟩ := run_bind_eq_ok.1 h
        cases h
      · cases h
    | .ok none =>
      simp only [hfinish] at h
      cases h
      simp [cleanupJob_released]
    | .ok (some status) =>
      simp only [hfinish] at h
      cases h
      simp [cleanupJob_released]

/-- `_finalize_one` before the job leaves the registry. -/
theorem markFinalized_keeps {id : Uuid} {s : ShutdownState} (h : (s.job id).Released) :
    s.Keeps (after (markFinalized id) s) := by
  have hflag : ∀ job : ActiveJob, job.Keeps { job with finalized := true } :=
    fun _ => .of_eq rfl rfl rfl
  have hmark := modifyJob_keeps id hflag s
  refine ⟨hmark.trace, hmark.termSent, hmark.released, fun i hi => ?_⟩
  by_cases hid : i = id
  · exact .inr (hid ▸ hmark.released id h)
  · exact .inl (List.mem_filter.2 ⟨hi, by simpa using hid⟩)

theorem untrackLostJob_keeps (id : Uuid) : Guarantees Keeps (untrackLostJob id) := by
  refine .bindOk (modifyJob_keeps id cleanupJob_keeps) fun s a t hrun => markFinalized_keeps ?_
  cases hrun
  simp [cleanupJob_released]

theorem finalizeAndUntrack_keeps (id : Uuid) :
    Guarantees Keeps (finalizeAndUntrack answers id) := by
  refine .bindOk (finalizeOne_keeps answers id) fun s finalized t hrun => ?_
  cases finalized with
  | true => exact markFinalized_keeps (finalizeOne_released answers hrun)
  | false => exact Guarantees.pure () t

theorem finalizeOrQuarantine_keeps (id : Uuid) :
    Guarantees Keeps (finalizeOrQuarantine answers id) := by
  refine .tryCatch (.bind (finalizeOne_keeps answers id) fun _ => .pure _) fun e => ?_
  split_ifs
  · exact .bind (quarantineActive_keeps answers id) fun _ => .pure _
  · exact .throw _

theorem finalizeOrQuarantine_released {id : Uuid} {s t : ShutdownState}
    (h : finalizeOrQuarantine answers id s = .ok (some true) t) : (t.job id).Released := by
  change EStateM.tryCatch _ _ s = _ at h
  rw [EStateM.tryCatch] at h
  cases hone : finalizeOne answers id s with
  | ok finalized u =>
    simp only [Functor.map, EStateM.map, hone] at h
    cases h
    exact finalizeOne_released answers hone
  | error e u =>
    simp only [Functor.map, EStateM.map, hone] at h
    split_ifs at h
    · obtain ⟨_, _, _, h⟩ := run_bind_eq_ok.1 h
      cases h
    · cases h

theorem failCaptureClosed_keeps (id : Uuid) : Guarantees Keeps (failCaptureClosed answers id) := by
  refine .bind (ask_keeps answers) fun answer =>
    .bind (modifyJob_keeps id (failClosed_keeps _)) fun _ =>
    .bind (ask_keeps answers) fun answer => .bind (readJob_keeps id) fun job => ?_
  split_ifs
  · exact .pure _
  · refine .bind .get fun s => ?_
    split_ifs
    · exact untrackLostJob_keeps id
    · refine .bindOk (finalizeOrQuarantine_keeps answers id) fun s finalized t hrun => ?_
      match finalized with
      | none => exact Guarantees.pure () t
      | some true => exact markFinalized_keeps (finalizeOrQuarantine_released answers hrun)
      | some false => exact untrackLostJob_keeps id t

theorem publishBounded_keeps (id : Uuid) : Guarantees Keeps (publishBounded answers id) := by
  refine .bind (ask_keeps answers) fun answer => .bind (readJob_keeps id) fun job => ?_
  split
  · exact .pure _
  · exact .throw _
  · exact .bind (quarantineActive_keeps answers id) fun _ => .pure _
  · exact .bind (untrackLostJob_keeps id) fun _ => .pure _
  · exact .bind (modifyJob_keeps id (settlePlans_keeps _ _)) fun _ => .pure _

theorem publishOrFail_keeps (id : Uuid) : Guarantees Keeps (publishOrFail answers id) := by
  refine .bind (publishBounded_keeps answers id) fun verdict => ?_
  cases verdict with
  | capture => exact .bind (failCaptureClosed_keeps answers id) fun _ => .pure _
  | ok => exact .pure _
  | lost => exact .pure _
  | quarantine => exact .pure _

theorem abandonOpenStream_keeps (id : Uuid) (name : StreamName) :
    Guarantees Keeps (abandonOpenStream settings answers id name) := by
  have hfail : Guarantees Keeps (do failCaptureClosed answers id; return false) :=
    .bind (failCaptureClosed_keeps answers id) fun _ => .pure _
  have hclose : Guarantees Keeps (do modifyJob id (closeStream name); return true) :=
    .bind (modifyJob_keeps id (closeStream_keeps name)) fun _ => .pure _
  refine .bind (readJob_keeps id) fun job => ?_
  dsimp only
  split
  · exact .pure _
  · split_ifs
    · exact hclose
    · exact hfail
    · refine .bind (ask_keeps answers) fun answer =>
        .bind (modifyJob_keeps id (flushPending_keeps name _ _)) fun _ =>
        .bind (readJob_keeps id) fun job => ?_
      split_ifs
      · exact hfail
      · exact hclose

theorem abandonOpenCaptureStreams_keeps (id : Uuid) :
    Guarantees Keeps (abandonOpenCaptureStreams settings answers id) := by
  refine .bind (ask_keeps answers) fun answer =>
    .bind (modifyJob_keeps id (drainCompletedStreams_keeps _ _ _)) fun _ =>
    .bind (abandonOpenStream_keeps settings answers id _) fun done => ?_
  split_ifs
  · exact abandonOpenStream_keeps settings answers id _
  · exact .pure _

theorem refreshLeasesQuietly_keeps (answer : Except DbError (List Uuid)) (now : ℚ) :
    Guarantees Keeps (refreshLeasesQuietly answer now) := by
  refine .bind .get fun s => ?_
  split_ifs
  · split
    · refine .modify fun s => .of_job fun i => ?_
      split_ifs
      · exact applyLeaseRefresh_keeps _ _ _ _
      · exact .refl _
    · split_ifs
      · exact .pure _
      · exact .throw _
  · exact .pure _

theorem settleTurn_keeps (id : Uuid) (eofDeadline : ℚ) (progressed : Bool) (usedBefore : ℕ) :
    Guarantees Keeps (settleTurn settings answers id eofDeadline progressed usedBefore) := by
  refine .bind (readJob_keeps id) fun job => .bind (ask_keeps answers) fun answer => ?_
  split_ifs
  · exact .pure _
  · refine .bind (abandonOpenCaptureStreams_keeps settings answers id) fun done => ?_
    split_ifs <;> exact .pure _
  · exact .bind (failCaptureClosed_keeps answers id) fun _ => .pure _
  · exact .pure _
  · exact .bind (refreshLeasesQuietly_keeps _ _) fun _ => .pure _

theorem boundedCycleTurn_keeps (id : Uuid) (eofDeadline : ℚ) :
    Guarantees Keeps (boundedCycleTurn settings answers id eofDeadline) := by
  have hfail : Guarantees Keeps (do failCaptureClosed answers id; return Turn.stop) :=
    .bind (failCaptureClosed_keeps answers id) fun _ => .pure _
  refine .bind (ask_keeps answers) fun answer => ?_
  split_ifs
  · exact hfail
  · refine .bind (readJob_keeps id) fun job =>
      .bind (modifyJob_keeps id (drainCompletedStreams_keeps _ _ _)) fun _ =>
      .bind (readJob_keeps id) fun job => .bind (publishBounded_keeps answers id) fun verdict => ?_
    cases verdict with
    | ok => exact settleTurn_keeps settings answers id _ _ _
    | capture => exact hfail
    | lost => exact .pure _
    | quarantine => exact .pure _

/-- The loop keeps what its turns keep. -/
theorem cycleTurns_keeps (id : Uuid) (eofDeadline : ℚ) (n : ℕ) :
    Guarantees Keeps (cycleTurns settings answers id eofDeadline n) := by
  induction n with
  | zero => exact .bind (failCaptureClosed_keeps answers id) fun _ => .pure _
  | succ n ih =>
    refine .bind (readJob_keeps id) fun job => ?_
    split_ifs
    · exact .pure _
    · refine .bind (boundedCycleTurn_keeps settings answers id eofDeadline) fun turn => ?_
      cases turn with
      | eof => exact .pure _
      | stop => exact .pure _
      | wait => exact ih

theorem boundedFinalizationCycle_keeps (id : Uuid) :
    Guarantees Keeps (boundedFinalizationCycle settings answers id) :=
  .bind (ask_keeps answers) fun _ => cycleTurns_keeps settings answers id _ _

/-- **Finalization releases what it untracks**, whatever the database and the system answer. -/
theorem finalizeCompletedJobBounded_keeps (id : Uuid) :
    Guarantees Keeps (finalizeCompletedJobBounded settings answers id) := by
  refine .bind .get fun s => ?_
  split_ifs
  · exact .pure _
  · refine .bind (readJob_keeps id) fun job => ?_
    split_ifs
    · exact finalizeAndUntrack_keeps answers id
    · refine .bind (boundedFinalizationCycle_keeps settings answers id) fun eof => ?_
      split_ifs
      · refine .bind (publishOrFail_keeps answers id) fun published => ?_
        split_ifs
        · exact finalizeAndUntrack_keeps answers id
        · exact .pure _
      · exact .pure _

end Programs

end Supervise

end Lubko.Worker
