import Lubko.Output.Publish

/-!
# Draining the capture pipes

`drain_capture_stream` moves bytes from a pipe through the stream's `pending` buffer into its spool.
Bytes enter the spool only through `_spool_append`, which may land any prefix of what it is handed,
or raise and land nothing; what did not land stays in `pending`. The spools of both streams of a job
share one bound.

* `drainCaptureStream_moves` — a drain moves bytes from the pipe to the end of the spool, in order
  and within the room it is given, and ends a stream only when nothing is pending.
* `spool_conserves` — over whole runs, what was trimmed, the spool and the pending bytes are the
  bytes read, and the spools stay within the bound.
-/

namespace Lubko.Output

open Lubko.Lib Lubko.Worker

/-! ## One stream -/

/-- `DRAIN_CHUNK`. -/
def DRAIN_CHUNK : ℕ := 65536

/-- What `drain_capture_stream` returns. -/
inductive DrainStatus where
  | ok
  | full
  | eof
  | error
  deriving DecidableEq

/-- How one call of `_spool_append` ends: it lands at most this many bytes, or raises. -/
abbrev Seam := Option ℕ

/-- `os.read`: the bytes the pipe has (none at its end), `BlockingIOError`, or another `OSError`. -/
inductive PipeRead where
  | data (bytes : List UInt8)
  | blocked
  | failed

/-- `_flush_pending`. -/
def flushPending (limit : Option ℕ) (seam : Seam) (stream : OutputStream) : Bool × OutputStream :=
  if stream.pending = [] then (true, stream)
  else
    let data := match limit with
      | none => stream.pending
      | some n => stream.pending.take n
    match seam with
    | none => (false, stream)
    | some n =>
      let landed := min n data.length
      let stream' := { stream with
        data := stream.data ++ data.take landed
        pending := stream.pending.drop landed }
      (!(landed == 0 && stream'.pending.length == stream.pending.length), stream')

/-- `_retry_pending_flush`. -/
def retryPendingFlush (bufferRoom : ℕ) (seam : Seam) (stream : OutputStream) :
    (DrainStatus × ℕ) × OutputStream :=
  if bufferRoom = 0 then ((.full, 0), stream)
  else
    match flushPending (some bufferRoom) seam stream with
    | (false, stream') => ((.error, 0), stream')
    | (true, stream') =>
      if stream'.pending ≠ [] then ((.full, 0), stream')
      else ((.ok, stream.pending.length), stream')

/-- `_finish_capture_stream`. -/
def finishCaptureStream (seam : Seam) (stream : OutputStream) : DrainStatus × OutputStream :=
  let closed := { stream with fd := none }
  if closed.pending = [] then (.eof, { closed with eof := true })
  else
    match flushPending none seam closed with
    | (false, flushed) => (.error, flushed)
    | (true, flushed) =>
      if flushed.pending ≠ [] then (.error, flushed) else (.eof, { flushed with eof := true })

/-- `_read_capture_chunk`; the bytes that were read come with the result. -/
def readCaptureChunk (room : ℕ) (read : PipeRead) (seam : Seam) (stream : OutputStream) :
    DrainStatus × OutputStream × List UInt8 :=
  match stream.fd with
  | none => (.eof, stream, [])
  | some _ =>
    match read with
    | .blocked => (.ok, stream, [])
    | .failed => (.error, stream, [])
    | .data bytes =>
      let data := bytes.take (min room DRAIN_CHUNK)
      if data = [] then
        let (status, stream') := finishCaptureStream seam stream
        (status, stream', [])
      else
        match flushPending none seam { stream with pending := stream.pending ++ data } with
        | (true, stream') => (.ok, stream', data)
        | (false, stream') => (.error, stream', data)

/-- `drain_capture_stream`, with the seam of the retried flush and that of the fresh bytes. -/
def drainCaptureStream (bound : ℕ) (aggregateUsed : Option ℕ) (retry : Seam) (read : PipeRead)
    (seam : Seam) (stream : OutputStream) : DrainStatus × OutputStream × List UInt8 :=
  if stream.eof then (.eof, stream, [])
  else
    let used := aggregateUsed.getD stream.data.length
    let bufferRoom := bound - used
    if stream.pending ≠ [] then
      match retryPendingFlush bufferRoom retry stream with
      | ((.ok, landed), stream') => rest (bound - (used + landed)) stream'
      | ((status, _), stream') => (status, stream', [])
    else rest bufferRoom stream
where
  /-- What follows the retained bytes: the end of the stream, or the next chunk. -/
  rest (bufferRoom : ℕ) (stream : OutputStream) : DrainStatus × OutputStream × List UInt8 :=
    if stream.fd = none then (.eof, { stream with eof := true }, [])
    else if bufferRoom = 0 then (.full, stream, [])
    else readCaptureChunk bufferRoom read seam stream

/-! ## What a drain does to a stream -/

/-- The stream gains `landed` at the end of its spool and `taken` from its pipe; everything between
keeps its order. -/
structure Moves (stream : OutputStream) (landed taken : List UInt8) (stream' : OutputStream) :
    Prop where
  data : stream'.data = stream.data ++ landed
  pending : landed ++ stream'.pending = stream.pending ++ taken

theorem Moves.refl (stream : OutputStream) : Moves stream [] [] stream :=
  ⟨(List.append_nil _).symm, (List.append_nil _).symm⟩

theorem Moves.trans {a b c : OutputStream} {l₁ l₂ t₁ t₂ : List UInt8} (h₁ : Moves a l₁ t₁ b)
    (h₂ : Moves b l₂ t₂ c) : Moves a (l₁ ++ l₂) (t₁ ++ t₂) c := by
  constructor
  · rw [h₂.data, h₁.data, List.append_assoc]
  · rw [List.append_assoc, h₂.pending, ← List.append_assoc, h₁.pending, List.append_assoc]

/-- A flush lands a prefix of the pending bytes within its limit. -/
theorem flushPending_moves (limit : Option ℕ) (seam : Seam) (stream : OutputStream) :
    ∃ landed, Moves stream landed [] (flushPending limit seam stream).2 ∧
      (∀ n ∈ limit, landed.length ≤ n) ∧ (flushPending limit seam stream).2.fd = stream.fd ∧
        (flushPending limit seam stream).2.eof = stream.eof := by
  unfold flushPending
  by_cases hempty : stream.pending = []
  · rw [if_pos hempty]
    exact ⟨[], .refl stream, by simp, rfl, rfl⟩
  rw [if_neg hempty]
  cases seam with
  | none => exact ⟨[], .refl stream, by simp, rfl, rfl⟩
  | some n =>
    cases limit with
    | none =>
      refine ⟨stream.pending.take (min n stream.pending.length), ⟨rfl, ?_⟩, by simp, rfl, rfl⟩
      show stream.pending.take _ ++ stream.pending.drop _ = _
      rw [List.take_append_drop, List.append_nil]
    | some k =>
      refine ⟨(stream.pending.take k).take (min n (stream.pending.take k).length), ⟨rfl, ?_⟩, ?_,
        rfl, rfl⟩
      · show (stream.pending.take k).take _ ++ stream.pending.drop _ = _
        rw [List.take_take, min_eq_left (by simp), List.take_append_drop, List.append_nil]
      · intro m hm
        obtain rfl : k = m := by simpa using hm
        simp

/-- What a drain with this much room leaves: bytes moved in order and within the room, and an end
of the stream only with nothing pending. -/
def Drains (room : ℕ) (stream : OutputStream) (taken : List UInt8) (stream' : OutputStream) : Prop :=
  ∃ landed, Moves stream landed taken stream' ∧ landed.length ≤ room ∧
    (stream'.eof = true → stream'.pending = [])

theorem Drains.refl {stream : OutputStream} (room : ℕ)
    (h : stream.eof = true → stream.pending = []) : Drains room stream [] stream :=
  ⟨[], .refl stream, Nat.zero_le _, h⟩

theorem finishCaptureStream_drains (room : ℕ) (seam : Seam) {stream : OutputStream}
    (hpending : stream.pending = []) :
    Drains room stream [] (finishCaptureStream seam stream).2 := by
  unfold finishCaptureStream
  rw [if_pos hpending]
  exact ⟨[], ⟨(List.append_nil _).symm, (List.append_nil _).symm⟩, Nat.zero_le _, fun _ => hpending⟩

/-- With nothing pending, the fresh bytes are all that can land, and they fit the room. -/
theorem readCaptureChunk_drains (room : ℕ) (read : PipeRead) (seam : Seam) {stream : OutputStream}
    (hpending : stream.pending = []) (heof : stream.eof = false) :
    Drains room stream (readCaptureChunk room read seam stream).2.2
      (readCaptureChunk room read seam stream).2.1 := by
  have hsame : Drains room stream [] stream := Drains.refl room fun _ => hpending
  unfold readCaptureChunk
  cases hfd : stream.fd with
  | none => exact hsame
  | some fd =>
    cases read with
    | blocked => exact hsame
    | failed => exact hsame
    | data bytes =>
      dsimp only
      rw [← hfd]
      by_cases hend : bytes.take (min room DRAIN_CHUNK) = []
      · rw [if_pos hend]
        exact finishCaptureStream_drains room seam hpending
      rw [if_neg hend]
      set data := bytes.take (min room DRAIN_CHUNK) with hdata
      have hroom : data.length ≤ room := by
        rw [hdata, List.length_take]
        omega
      obtain ⟨landed, hmoves, -, -, hkeeps⟩ :=
        flushPending_moves none seam { stream with pending := stream.pending ++ data }
      have htotal : landed ++ (flushPending none seam
          { stream with pending := stream.pending ++ data }).2.pending = data := by
        have h := hmoves.pending
        dsimp only at h
        rw [h, hpending, List.nil_append, List.append_nil]
      have hshort : landed.length ≤ data.length := by
        rw [← htotal, List.length_append]
        exact Nat.le_add_right _ _
      have hdrains : Drains room stream data
          (flushPending none seam { stream with pending := stream.pending ++ data }).2 := by
        refine ⟨landed, ⟨hmoves.data, ?_⟩, hshort.trans hroom, ?_⟩
        · rw [htotal, hpending, List.nil_append]
        · intro h
          rw [hkeeps] at h
          exact absurd h (by simp [heof])
      cases hflush : flushPending none seam { stream with pending := stream.pending ++ data } with
      | mk done stream' =>
        rw [hflush] at hdrains
        cases done <;> exact hdrains

theorem rest_drains (room : ℕ) (read : PipeRead) (seam : Seam) {stream : OutputStream}
    (hpending : stream.pending = []) (heof : stream.eof = false) :
    Drains room stream (drainCaptureStream.rest read seam room stream).2.2
      (drainCaptureStream.rest read seam room stream).2.1 := by
  unfold drainCaptureStream.rest
  by_cases hfd : stream.fd = none
  · rw [if_pos hfd]
    exact ⟨[], ⟨(List.append_nil _).symm, (List.append_nil _).symm⟩, Nat.zero_le _,
      fun _ => hpending⟩
  rw [if_neg hfd]
  by_cases hroom : room = 0
  · rw [if_pos hroom]
    exact Drains.refl room fun _ => hpending
  · rw [if_neg hroom]
    exact readCaptureChunk_drains room read seam hpending heof

/-- **A retried flush** stays within the room, and reports the bytes that landed when all did. -/
theorem retryPendingFlush_spec {room : ℕ} {seam : Seam} {stream stream' : OutputStream}
    {status : DrainStatus} {landed : ℕ}
    (h : retryPendingFlush room seam stream = ((status, landed), stream')) :
    ∃ bytes, Moves stream bytes [] stream' ∧ bytes.length ≤ room ∧ stream'.eof = stream.eof ∧
      (status = .ok → bytes.length = landed ∧ stream'.pending = []) := by
  unfold retryPendingFlush at h
  by_cases hroom : room = 0
  · rw [if_pos hroom] at h
    cases h
    exact ⟨[], .refl stream, Nat.zero_le _, rfl, by simp⟩
  rw [if_neg hroom] at h
  obtain ⟨bytes, hmoves, hlimit, -, heof⟩ := flushPending_moves (some room) seam stream
  have hbytes := hlimit room rfl
  cases hflush : flushPending (some room) seam stream with
  | mk done flushed =>
    rw [hflush] at h hmoves heof
    cases done with
    | false =>
      cases h
      exact ⟨bytes, hmoves, hbytes, heof, by simp⟩
    | true =>
      by_cases hleft : flushed.pending ≠ []
      · simp only [if_pos hleft] at h
        cases h
        exact ⟨bytes, hmoves, hbytes, heof, by simp⟩
      · simp only [if_neg hleft] at h
        cases h
        have hnil : stream'.pending = [] := not_not.1 hleft
        refine ⟨bytes, hmoves, hbytes, heof, fun _ => ⟨?_, hnil⟩⟩
        have hall := hmoves.pending
        rw [hnil, List.append_nil, List.append_nil] at hall
        rw [hall]

/-- **A drain moves bytes in order and within the room.** -/
theorem drainCaptureStream_moves (bound used : ℕ) (retry : Seam) (read : PipeRead) (seam : Seam)
    {stream : OutputStream} (hended : stream.eof = true → stream.pending = []) :
    Drains (bound - used) stream
      (drainCaptureStream bound (some used) retry read seam stream).2.2
      (drainCaptureStream bound (some used) retry read seam stream).2.1 := by
  unfold drainCaptureStream
  by_cases heof : stream.eof = true
  · rw [if_pos heof]
    exact Drains.refl _ hended
  have heof' : stream.eof = false := by simpa using heof
  rw [if_neg heof]
  dsimp only [Option.getD_some]
  by_cases hpending : stream.pending ≠ []
  · rw [if_pos hpending]
    cases hretry : retryPendingFlush (bound - used) retry stream with
    | mk result flushed =>
      obtain ⟨status, landed⟩ := result
      obtain ⟨bytes, hmoves, hroom, hkeeps, hok⟩ := retryPendingFlush_spec hretry
      have hstopped : Drains (bound - used) stream [] flushed := by
        refine ⟨bytes, hmoves, hroom, fun h => ?_⟩
        rw [hkeeps] at h
        exact absurd h heof
      cases status with
      | ok =>
        obtain ⟨hlanded, hnil⟩ := hok rfl
        obtain ⟨more, hmore, hfits, hend⟩ := rest_drains (bound - (used + landed)) read seam hnil
          (hkeeps.trans heof')
        refine ⟨bytes ++ more, hmoves.trans hmore, ?_, hend⟩
        rw [List.length_append]
        omega
      | full => exact hstopped
      | eof => exact hstopped
      | error => exact hstopped
  · rw [if_neg hpending]
    exact rest_drains (bound - used) read seam (not_not.1 hpending) heof'

/-- A flush within the room. -/
theorem flushPending_drains {limit room : ℕ} (hlimit : limit ≤ room) (seam : Seam)
    {stream : OutputStream} (hended : stream.eof = true → stream.pending = []) :
    Drains room stream [] (flushPending (some limit) seam stream).2 := by
  obtain ⟨landed, hmoves, hfits, -, heof⟩ := flushPending_moves (some limit) seam stream
  refine ⟨landed, hmoves, (hfits limit rfl).trans hlimit, fun h => ?_⟩
  rw [heof] at h
  have hnothing := hmoves.pending
  rw [hended h, List.append_nil] at hnothing
  exact (List.append_eq_nil_iff.1 hnothing).2

/-- Closing the read end, and ending a stream with nothing pending, moves nothing. -/
theorem Drains.closed {room : ℕ} {stream stream' : OutputStream} {taken : List UInt8}
    (h : Drains room stream taken stream') (eof : Bool) (heof : eof = true → stream'.pending = []) :
    Drains room stream taken { stream' with fd := none, eof := eof } := by
  obtain ⟨landed, hmoves, hroom, -⟩ := h
  exact ⟨landed, ⟨hmoves.data, hmoves.pending⟩, hroom, heof⟩

/-! ## Both streams of a job -/

/-- `_spool_used_bytes`. -/
def spoolUsedBytes (job : ActiveJob) : ℕ :=
  job.stdout.data.length + job.stderr.data.length

/-- The job is marked and told to stop, as `_fail_capture_closed` does while its group is alive;
otherwise it leaves the registry. -/
def failClosed (now : ℚ) (job : ActiveJob) : ActiveJob :=
  requestStop now .spool { job with spoolEvicted := true }

/-- `_drain_active_stream`, with the bytes that were read. -/
def drainActiveStream (bound : ℕ) (name : StreamName) (now : ℚ) (retry : Seam) (read : PipeRead)
    (seam : Seam) (job : ActiveJob) : ActiveJob × List UInt8 :=
  let (status, stream, taken) := drainCaptureStream bound (some (spoolUsedBytes job)) retry read seam
    (jobStream job name)
  let drained := setStream job name stream
  (if status = .error then failClosed now drained else drained, taken)

/-- The body of the loop of `_abandon_open_capture_streams`. -/
def abandonStream (bound : ℕ) (name : StreamName) (now : ℚ) (seam : Seam) (job : ActiveJob) :
    ActiveJob :=
  let stream := jobStream job name
  if stream.fd = none then job
  else if stream.pending = [] then setStream job name { stream with fd := none, eof := true }
  else
    let room := bound - spoolUsedBytes job
    if room = 0 then failClosed now job
    else
      match flushPending (some (min room stream.pending.length)) seam stream with
      | (false, flushed) => failClosed now (setStream job name flushed)
      | (true, flushed) =>
        -- the descriptor stays open over a suffix that does not fit
        if flushed.pending ≠ [] then failClosed now (setStream job name flushed)
        else setStream job name { flushed with fd := none, eof := true }

/-- `isolate_bad_fds`, for a stream whose descriptor is bad. -/
def isolateBadFd (name : StreamName) (now : ℚ) (job : ActiveJob) : ActiveJob :=
  let stream := jobStream job name
  if stream.fd = none then job
  else failClosed now (setStream job name { stream with fd := none })

/-- A job with, for each stream, every byte read from its pipe and every byte trimmed off its
spool. -/
structure Spool where
  job : ActiveJob
  taken : StreamName → List UInt8
  trimmed : StreamName → List UInt8

inductive SpoolEvent where
  | drain (name : StreamName) (now : ℚ) (retry : Seam) (read : PipeRead) (seam : Seam)
  | flush (name : StreamName) (limit : ℕ) (seam : Seam)
  | abandon (name : StreamName) (now : ℚ) (seam : Seam)
  | isolate (name : StreamName) (now : ℚ)
  /-- A publication is acknowledged, and the head of the spool is trimmed. -/
  | settle (name : StreamName) (plan : StreamPlan) (now : ℚ)

namespace Spool

/-- One event. A flush on its own is bounded by the room the spools have. -/
def step (bound : ℕ) (s : Spool) : SpoolEvent → Option Spool
  | .drain name now retry read seam =>
    let (job, taken) := drainActiveStream bound name now retry read seam s.job
    some { s with job, taken := Function.update s.taken name (s.taken name ++ taken) }
  | .flush name limit seam =>
    if limit ≤ bound - spoolUsedBytes s.job then
      some { s with
        job := setStream s.job name (flushPending (some limit) seam (jobStream s.job name)).2 }
    else none
  | .abandon name now seam => some { s with job := abandonStream bound name now seam s.job }
  | .isolate name now => some { s with job := isolateBadFd name now s.job }
  | .settle name plan now =>
    let stream := applyPlan plan now (jobStream s.job name)
    some { s with
      job := setStream s.job name (trimPublished plan stream)
      trimmed := Function.update s.trimmed name (s.trimmed name ++
        stream.data.take (stream.data.length - (trimPublished plan stream).data.length)) }

/-- A job whose pipes have just been opened. -/
def opened (job : ActiveJob) (out err : ℕ) : Spool where
  job := { job with stdout := { fd := some out }, stderr := { fd := some err } }
  taken _ := []
  trimmed _ := []

/-- **Conservation and bound.** -/
structure Conserves (bound : ℕ) (s : Spool) : Prop where
  bytes : ∀ name, s.trimmed name ++ (jobStream s.job name).data ++ (jobStream s.job name).pending =
    s.taken name
  room : s.job.stdout.data.length + s.job.stderr.data.length ≤ bound
  ended : ∀ name, (jobStream s.job name).eof = true → (jobStream s.job name).pending = []

@[simp] theorem jobStream_failClosed (now : ℚ) (job : ActiveJob) (name : StreamName) :
    jobStream (failClosed now job) name = jobStream job name := by
  unfold failClosed requestStop
  cases name <;> split_ifs <;> rfl

variable {bound : ℕ} {s : Spool}

/-- A drain of one stream keeps the invariant. -/
theorem Conserves.drains (hs : s.Conserves bound) {job : ActiveJob} (name : StreamName)
    {taken : List UInt8}
    (hdrains : Drains (bound - spoolUsedBytes s.job) (jobStream s.job name) taken
      (jobStream job name))
    (hother : ∀ other, other ≠ name → jobStream job other = jobStream s.job other) :
    Conserves bound { s with
      job, taken := Function.update s.taken name (s.taken name ++ taken) } := by
  obtain ⟨landed, hmoves, hroom, hended⟩ := hdrains
  refine ⟨fun x => ?_, ?_, fun x => ?_⟩
  · by_cases hx : x = name
    · subst hx
      dsimp only
      rw [Function.update_self, ← hs.bytes x, hmoves.data]
      simp only [List.append_assoc]
      rw [hmoves.pending]
    · dsimp only
      rw [Function.update_of_ne hx, hother x hx]
      exact hs.bytes x
  · have hsum : spoolUsedBytes job ≤ bound := by
      have hold : spoolUsedBytes s.job ≤ bound := hs.room
      cases name with
      | stdout =>
        have herr : job.stderr = s.job.stderr := hother .stderr (by decide)
        have hout : job.stdout.data = s.job.stdout.data ++ landed := hmoves.data
        rw [spoolUsedBytes] at hold hroom ⊢
        rw [hout, herr, List.length_append]
        omega
      | stderr =>
        have hout : job.stdout = s.job.stdout := hother .stdout (by decide)
        have herr : job.stderr.data = s.job.stderr.data ++ landed := hmoves.data
        rw [spoolUsedBytes] at hold hroom ⊢
        rw [herr, hout, List.length_append]
        omega
    exact hsum
  · by_cases hx : x = name
    · subst hx
      exact hended
    · dsimp only
      rw [hother x hx]
      exact hs.ended x

/-- The same, for an event that reads nothing. -/
theorem Conserves.flushes (hs : s.Conserves bound) {job : ActiveJob} (name : StreamName)
    (hdrains : Drains (bound - spoolUsedBytes s.job) (jobStream s.job name) [] (jobStream job name))
    (hother : ∀ other, other ≠ name → jobStream job other = jobStream s.job other) :
    Conserves bound { s with job } := by
  have h := hs.drains name hdrains hother
  rw [List.append_nil, Function.update_eq_self] at h
  exact h

theorem Conserves.drain (hs : s.Conserves bound) (name : StreamName) (now : ℚ) (retry : Seam)
    (read : PipeRead) (seam : Seam) :
    Conserves bound { s with
      job := (drainActiveStream bound name now retry read seam s.job).1
      taken := Function.update s.taken name (s.taken name ++
        (drainActiveStream bound name now retry read seam s.job).2) } := by
  have hmoves := drainCaptureStream_moves bound (spoolUsedBytes s.job) retry read seam (hs.ended name)
  unfold drainActiveStream
  dsimp only
  split_ifs
  · refine hs.drains name ?_ fun other hother => ?_
    · rw [jobStream_failClosed, jobStream_setStream_self]
      exact hmoves
    · rw [jobStream_failClosed, jobStream_setStream_ne _ hother]
  · refine hs.drains name ?_ fun other hother => jobStream_setStream_ne _ hother _
    rw [jobStream_setStream_self]
    exact hmoves

theorem Conserves.flush (hs : s.Conserves bound) (name : StreamName) {limit : ℕ}
    (hlimit : limit ≤ bound - spoolUsedBytes s.job) (seam : Seam) :
    Conserves bound { s with
      job := setStream s.job name (flushPending (some limit) seam (jobStream s.job name)).2 } := by
  refine hs.flushes name ?_ fun other hother => jobStream_setStream_ne _ hother _
  rw [jobStream_setStream_self]
  exact flushPending_drains hlimit seam (hs.ended name)

theorem Conserves.abandon (hs : s.Conserves bound) (name : StreamName) (now : ℚ) (seam : Seam) :
    Conserves bound { s with job := abandonStream bound name now seam s.job } := by
  have hsame := Drains.refl (bound - spoolUsedBytes s.job) (hs.ended name)
  have hset : ∀ {stream : OutputStream},
      Drains (bound - spoolUsedBytes s.job) (jobStream s.job name) [] stream →
        Conserves bound { s with job := setStream s.job name stream } ∧
          Conserves bound { s with job := failClosed now (setStream s.job name stream) } := by
    intro stream hstream
    refine ⟨hs.flushes name ?_ fun other hother => jobStream_setStream_ne _ hother _,
      hs.flushes name ?_ fun other hother => ?_⟩
    · rw [jobStream_setStream_self]
      exact hstream
    · rw [jobStream_failClosed, jobStream_setStream_self]
      exact hstream
    · rw [jobStream_failClosed, jobStream_setStream_ne _ hother]
  unfold abandonStream
  dsimp only
  by_cases hfd : (jobStream s.job name).fd = none
  · rw [if_pos hfd]
    exact hs
  rw [if_neg hfd]
  by_cases hpending : (jobStream s.job name).pending = []
  · rw [if_pos hpending]
    exact (hset (hsame.closed true fun _ => hpending)).1
  rw [if_neg hpending]
  by_cases hroom : bound - spoolUsedBytes s.job = 0
  · rw [if_pos hroom]
    refine hs.flushes name ?_ fun other _ => jobStream_failClosed _ _ _
    rw [jobStream_failClosed]
    exact hsame
  rw [if_neg hroom]
  have hflush := flushPending_drains
    (Nat.min_le_left (bound - spoolUsedBytes s.job) (jobStream s.job name).pending.length) seam
    (hs.ended name)
  cases hresult : flushPending (some (min (bound - spoolUsedBytes s.job)
      (jobStream s.job name).pending.length)) seam (jobStream s.job name) with
  | mk done flushed =>
    rw [hresult] at hflush
    cases done with
    | false => exact (hset hflush).2
    | true =>
      by_cases hleft : flushed.pending ≠ []
      · simp only [if_pos hleft]
        exact (hset hflush).2
      · simp only [if_neg hleft]
        exact (hset (hflush.closed true fun _ => not_not.1 hleft)).1

theorem Conserves.isolate (hs : s.Conserves bound) (name : StreamName) (now : ℚ) :
    Conserves bound { s with job := isolateBadFd name now s.job } := by
  unfold isolateBadFd
  dsimp only
  split_ifs
  · exact hs
  · refine hs.flushes name ?_ fun other hother => ?_
    · rw [jobStream_failClosed, jobStream_setStream_self]
      exact (Drains.refl _ (hs.ended name)).closed _ (hs.ended name)
    · rw [jobStream_failClosed, jobStream_setStream_ne _ hother]

/-- A trim takes bytes off the head of the spool. -/
theorem trimPublished_data (plan : StreamPlan) (stream : OutputStream) :
    stream.data.take (stream.data.length - (trimPublished plan stream).data.length) ++
        (trimPublished plan stream).data = stream.data := by
  unfold trimPublished
  dsimp only
  split_ifs
  · simp
  · rw [List.length_drop]
    by_cases hlen : ((plan.tailStart : ℤ) - stream.spoolStart).toNat ≤ stream.data.length
    · rw [Nat.sub_sub_self hlen, List.take_append_drop]
    · rw [List.drop_eq_nil_of_le (by omega), List.append_nil]
      exact List.take_of_length_le (by omega)

theorem Conserves.settle (hs : s.Conserves bound) (name : StreamName) (plan : StreamPlan) (now : ℚ) :
    Conserves bound { s with
      job := setStream s.job name (trimPublished plan (applyPlan plan now (jobStream s.job name)))
      trimmed := Function.update s.trimmed name (s.trimmed name ++
        (jobStream s.job name).data.take ((jobStream s.job name).data.length -
          (trimPublished plan (applyPlan plan now (jobStream s.job name))).data.length)) } := by
  have hdata := trimPublished_data plan (applyPlan plan now (jobStream s.job name))
  set trimmed := trimPublished plan (applyPlan plan now (jobStream s.job name)) with htrimmed
  have hpending : trimmed.pending = (jobStream s.job name).pending := by
    rw [htrimmed]
    unfold trimPublished
    dsimp only
    split_ifs <;> rfl
  have heof : trimmed.eof = (jobStream s.job name).eof := by
    rw [htrimmed]
    unfold trimPublished
    dsimp only
    split_ifs <;> rfl
  have hshort : trimmed.data.length ≤ (jobStream s.job name).data.length := by
    have h := congrArg List.length hdata
    rw [List.length_append] at h
    show _ ≤ (applyPlan plan now (jobStream s.job name)).data.length
    omega
  refine ⟨fun x => ?_, ?_, fun x => ?_⟩
  · by_cases hx : x = name
    · subst hx
      dsimp only
      rw [jobStream_setStream_self, Function.update_self, hpending, ← hs.bytes x,
        List.append_assoc (s.trimmed x)]
      exact congrArg (fun d => s.trimmed x ++ d ++ _) hdata
    · dsimp only
      rw [jobStream_setStream_ne _ hx, Function.update_of_ne hx]
      exact hs.bytes x
  · have hroom := hs.room
    cases name with
    | stdout =>
      have hshort' : trimmed.data.length ≤ s.job.stdout.data.length := hshort
      show trimmed.data.length + s.job.stderr.data.length ≤ bound
      omega
    | stderr =>
      have hshort' : trimmed.data.length ≤ s.job.stderr.data.length := hshort
      show s.job.stdout.data.length + trimmed.data.length ≤ bound
      omega
  · by_cases hx : x = name
    · subst hx
      dsimp only
      rw [jobStream_setStream_self, heof, hpending]
      exact hs.ended x
    · dsimp only
      rw [jobStream_setStream_ne _ hx]
      exact hs.ended x

/-- Every event keeps the invariant. -/
theorem Conserves.step {s' : Spool} {e : SpoolEvent} (hs : s.Conserves bound)
    (h : s.step bound e = some s') : s'.Conserves bound := by
  cases e with
  | drain name now retry read seam => exact Option.some.inj h ▸ hs.drain name now retry read seam
  | flush name limit seam =>
    rw [Spool.step] at h
    split_ifs at h with hlimit
    exact Option.some.inj h ▸ hs.flush name hlimit seam
  | abandon name now seam => exact Option.some.inj h ▸ hs.abandon name now seam
  | isolate name now => exact Option.some.inj h ▸ hs.isolate name now
  | settle name plan now => exact Option.some.inj h ▸ hs.settle name plan now

theorem opened_conserves (bound : ℕ) (job : ActiveJob) (out err : ℕ) :
    (opened job out err).Conserves bound := by
  refine ⟨fun name => ?_, Nat.zero_le _, fun name => ?_⟩
  · cases name <;> rfl
  · cases name <;> exact fun _ => rfl

/-- **Capture conserves the bytes and keeps the bound.** After any run of drains, bounded flushes and
trims of the two streams, with any reads and any behaviour of the append: what was trimmed, the spool
and the pending bytes are together the bytes read, the two spools fit the bound, and a stream that
has ended has nothing pending. -/
theorem spool_conserves (bound : ℕ) (job : ActiveJob) (out err : ℕ) {events : List SpoolEvent}
    {s : Spool} (h : exec (step bound) (opened job out err) events = some s) :
    (∀ name, s.trimmed name ++ (jobStream s.job name).data ++ (jobStream s.job name).pending =
        s.taken name) ∧
      s.job.stdout.data.length + s.job.stderr.data.length ≤ bound ∧
      ∀ name, (jobStream s.job name).eof = true → (jobStream s.job name).pending = [] := by
  have hs : s.Conserves bound :=
    exec_invariant (fun _ _ _ hs => hs.step) (opened_conserves bound job out err) h
  exact ⟨hs.bytes, hs.room, hs.ended⟩

/-- A publication whose window starts at this offset. -/
def windowFrom (tailStart : ℕ) : StreamPlan where
  size := 0
  tailText := []
  tailStart
  tailEnd := 0
  archivedUpto := 0
  lastChunk := none
  sequence := 0
  chunks := []
  window := ⟨[], 0, 0, none⟩

/-- Two of three bytes land, the other stream fills the spool, and only a trim lets the third in. -/
def refilled : List SpoolEvent :=
  [.drain .stdout 0 none (.data [1, 2, 3]) (some 2),
    .drain .stderr 0 none (.data [4, 5, 6]) (some 9),
    .drain .stdout 0 (some 9) (.data [7]) (some 9),
    .settle .stdout (windowFrom 1) 0,
    .flush .stdout 1 none,
    .drain .stdout 0 (some 9) (.data [7]) (some 9),
    .settle .stderr (windowFrom 2) 0,
    .drain .stdout 0 none (.data []) none]

theorem spool_conserves_refilled :
    ∃ s, exec (step 4) (opened (.spawned (.ofDigit 0)) 5 6) refilled = some s ∧
      s.trimmed .stdout = [1] ∧ s.job.stdout.data = [2, 3] ∧ s.job.stdout.eof = true ∧
      (∀ name, s.trimmed name ++ (jobStream s.job name).data ++ (jobStream s.job name).pending =
          s.taken name) ∧
        s.job.stdout.data.length + s.job.stderr.data.length ≤ 4 ∧
        ∀ name, (jobStream s.job name).eof = true → (jobStream s.job name).pending = [] := by
  have hrun : (exec (step 4) (opened (.spawned (.ofDigit 0)) 5 6) refilled).any (fun s =>
      decide (s.trimmed .stdout = [1] ∧ s.job.stdout.data = [2, 3] ∧ s.job.stdout.eof = true)) =
        true := by
    decide +kernel
  obtain ⟨s, hs, hend⟩ := (Option.any_eq_true _ _).1 hrun
  obtain ⟨htrimmed, hdata, heof⟩ := of_decide_eq_true hend
  exact ⟨s, hs, htrimmed, hdata, heof, spool_conserves 4 _ 5 6 hs⟩

end Spool

end Lubko.Output
