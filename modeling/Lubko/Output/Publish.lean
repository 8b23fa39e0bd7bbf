import Lubko.Lib.Execution
import Lubko.Output.Plan

/-!
# Publishing captured output

`publish_output` over the life of one job: output is appended to either stream, and publications
plan chunks and a new live tail, write them in one transaction, and then advance the in-memory
state and trim the buffer. The transaction commits and is acknowledged, commits while the worker
observes an error, or does not commit; only an acknowledged commit changes the memory.

The ghost field `captured` holds every byte ever appended to a stream.
-/

namespace Lubko.Output

open Lubko.Lib Lubko.Worker

/-- `getattr(job, name)`. -/
def jobStream (job : ActiveJob) : StreamName → OutputStream
  | .stdout => job.stdout
  | .stderr => job.stderr

def setStream (job : ActiveJob) (name : StreamName) (stream : OutputStream) : ActiveJob :=
  match name with
  | .stdout => { job with stdout := stream }
  | .stderr => { job with stderr := stream }

/-- `_StreamPlan`. -/
structure StreamPlan where
  size : ℕ
  tailText : PyStr
  tailStart : ℕ
  tailEnd : ℕ
  archivedUpto : ℕ
  lastChunk : Option Uuid
  sequence : ℕ
  chunks : List (Uuid × OutputChunk)
  window : OutputWindow

/-- The plans keyed by stream name. -/
abbrev Plans := StreamName → Option StreamPlan

section Planning

variable (job : ActiveJob) (server : PyStr) (force : Bool) (uuid4 : ℕ → Uuid)

/-- The body of the loop of `_plan_streams`; the chunks are planned before the throttle is
looked at. -/
def planStream (name : StreamName) (drawn : ℕ) : Except PlanError (Option StreamPlan × ℕ) := do
  let stream := jobStream job name
  let size := stream.spoolStart + stream.data.length
  let window := outputWindowText stream OUTPUT_TAIL_MAX_BYTES stream.spoolStart
  let plan ← planChunks ⟨job.id, name, server, job.version, uuid4⟩ stream window.2.2 window.2.1 drawn
  if !force && size = stream.publishedSize then return (none, plan.drawn)
  match buildOutputWindowPayload window.1 window.2.1 window.2.2 plan.lastChunk with
  | .error msg => throw (.protocolError msg)
  | .ok payload =>
    return (some {
      size, tailText := window.1, tailStart := window.2.1, tailEnd := window.2.2
      archivedUpto := plan.archivedUpto, lastChunk := plan.lastChunk, sequence := plan.sequence
      chunks := plan.chunks, window := payload }, plan.drawn)

/-- `_plan_streams`. -/
def planStreams : List StreamName → Plans → ℕ → Except PlanError Plans
  | [], plans, _ => return plans
  | name :: names, plans, drawn => do
    let (plan, drawn) ← planStream job server force uuid4 name drawn
    match plan with
    | some plan => planStreams names (Function.update plans name (some plan)) drawn
    | none => planStreams names plans drawn

end Planning

/-- `_full_windows`, for one stream. -/
def fullWindow (job : ActiveJob) (plans : Plans) (name : StreamName) : Except PyStr OutputWindow :=
  match plans name with
  | some plan => .ok plan.window
  | none =>
    let stream := jobStream job name
    buildOutputWindowPayload stream.tailText stream.tailStart stream.tailEnd stream.lastChunk

/-- The rows `publish_output` inserts. -/
def chunkRows (plans : Plans) : List (Uuid × OutputChunk) :=
  [StreamName.stdout, .stderr].flatMap fun name => ((plans name).map (·.chunks)).getD []

/-- `_apply_plan`. -/
def applyPlan (plan : StreamPlan) (now : ℚ) (stream : OutputStream) : OutputStream :=
  { stream with
    publishedSize := plan.size
    publishedAt := now
    tailText := plan.tailText
    tailStart := plan.tailStart
    tailEnd := plan.tailEnd
    archivedUpto := plan.archivedUpto
    lastChunk := plan.lastChunk
    sequence := plan.sequence }

/-- `_trim_published`, for one stream. -/
def trimPublished (plan : StreamPlan) (stream : OutputStream) : OutputStream :=
  let drop : ℤ := plan.tailStart - stream.spoolStart
  if drop ≤ 0 then stream
  else { stream with data := stream.data.drop drop.toNat, spoolStart := plan.tailStart }

/-- The stream after an acknowledged commit. -/
def settleStream (plans : Plans) (now : ℚ) (name : StreamName) (stream : OutputStream) :
    OutputStream :=
  match plans name with
  | some plan => trimPublished plan (applyPlan plan now stream)
  | none => stream

/-! ## Runs of one job -/

/-- How the transaction of a publication ends. -/
inductive Outcome where
  | committed
  /-- It commits, but the worker sees a connectivity error or a deadline breach. -/
  | unacknowledged
  /-- It never commits: nothing to publish, an error, or the root row is gone. -/
  | notCommitted
  deriving DecidableEq

/-- The job in the registry and what its publications have left in the table. -/
structure Publisher where
  job : ActiveJob
  server : PyStr
  chunks : List (Uuid × OutputChunk)
  /-- The `output` section of the root row. -/
  output : Option (OutputWindow × OutputWindow)
  captured : StreamName → List UInt8

inductive PublisherEvent where
  | append (name : StreamName) (bytes : List UInt8)
  | publish (names : List StreamName) (force : Bool) (now : ℚ) (uuid4 : ℕ → Uuid)
      (outcome : Outcome)

namespace Publisher

/-- The rows and windows a publication that reaches its commit writes. Fails when planning raises
or when there is nothing to publish; the identifiers `uuid4` gives are taken to be new. -/
def transaction (s : Publisher) (names : List StreamName) (force : Bool) (uuid4 : ℕ → Uuid) :
    Option (Plans × OutputWindow × OutputWindow) :=
  match planStreams s.job s.server force uuid4 names (fun _ => none) 0 with
  | .error _ => none
  | .ok plans =>
    match fullWindow s.job plans .stdout, fullWindow s.job plans .stderr with
    | .ok stdout, .ok stderr =>
      if (plans .stdout).isSome || (plans .stderr).isSome then some (plans, stdout, stderr)
      else none
    | _, _ => none

/-- The table after the commit. -/
def insert (s : Publisher) (plans : Plans) (output : OutputWindow × OutputWindow) : Publisher :=
  { s with chunks := s.chunks ++ chunkRows plans, output := some output }

/-- The memory after the acknowledgement. -/
def acknowledge (s : Publisher) (plans : Plans) (now : ℚ) : Publisher :=
  let job := setStream s.job .stdout (settleStream plans now .stdout s.job.stdout)
  { s with job := setStream job .stderr (settleStream plans now .stderr s.job.stderr) }

def step (s : Publisher) : PublisherEvent → Option Publisher
  | .append name bytes => some { s with
      job := setStream s.job name
        { jobStream s.job name with data := (jobStream s.job name).data ++ bytes }
      captured := Function.update s.captured name (s.captured name ++ bytes) }
  | .publish names force now uuid4 outcome =>
    match outcome with
    | .notCommitted => some s
    | .unacknowledged => do
      let (plans, output) ← s.transaction names force uuid4
      some (s.insert plans output)
    | .committed => do
      let (plans, output) ← s.transaction names force uuid4
      some ((s.insert plans output).acknowledge plans now)

/-- The committed chunks of one stream of the job, in the order they were inserted. -/
def rowsOf (s : Publisher) (name : StreamName) : List OutputChunk :=
  (s.chunks.map (·.2)).filter fun c => c.thread = s.job.id && c.stream = name

/-! ## Fields -/

end Publisher

@[simp] theorem jobStream_setStream_self (job : ActiveJob) (name : StreamName)
    (stream : OutputStream) : jobStream (setStream job name stream) name = stream := by
  cases name <;> rfl

theorem jobStream_setStream_ne (job : ActiveJob) {name name' : StreamName} (h : name' ≠ name)
    (stream : OutputStream) : jobStream (setStream job name stream) name' = jobStream job name' := by
  cases name <;> cases name' <;> first | rfl | exact absurd rfl h

@[simp] theorem setStream_id (job : ActiveJob) (name : StreamName) (stream : OutputStream) :
    (setStream job name stream).id = job.id := by
  cases name <;> rfl

@[simp] theorem setStream_version (job : ActiveJob) (name : StreamName) (stream : OutputStream) :
    (setStream job name stream).version = job.version := by
  cases name <;> rfl

namespace Publisher

@[simp] theorem jobStream_acknowledge (s : Publisher) (plans : Plans) (now : ℚ)
    (name : StreamName) : jobStream (s.acknowledge plans now).job name =
      settleStream plans now name (jobStream s.job name) := by
  cases name <;> rfl

@[simp] theorem acknowledge_id (s : Publisher) (plans : Plans) (now : ℚ) :
    (s.acknowledge plans now).job.id = s.job.id := by
  simp [acknowledge]

@[simp] theorem acknowledge_version (s : Publisher) (plans : Plans) (now : ℚ) :
    (s.acknowledge plans now).job.version = s.job.version := by
  simp [acknowledge]

/-! ## What a transaction plans -/

/-- The head of the live tail. -/
def head (stream : OutputStream) : ℕ :=
  (outputWindowText stream OUTPUT_TAIL_MAX_BYTES stream.spoolStart).2.1

/-- The logical size of the captured stream. -/
def size (stream : OutputStream) : ℕ := stream.data.length + stream.spoolStart

/-- A publication of these streams replaces the window of this one. -/
def Changed (names : List StreamName) (force : Bool) (name : StreamName) (stream : OutputStream) :
    Prop := name ∈ names ∧ (force = true ∨ size stream ≠ stream.publishedSize)

/-- A publication of the stream has a chunk to archive. -/
def ChunkDue (stream : OutputStream) : Prop :=
  (OUTPUT_CHUNK_MAX_BYTES : ℤ) ≤ archiveTarget (size stream) - stream.archivedUpto ∨
    archiveTarget (size stream) < head stream ∧ stream.archivedUpto < head stream

/-- Where the full-size chunks of a publication of the stream end. -/
def fullEnd (stream : OutputStream) : ℕ :=
  fullSizeEnd stream (archiveTarget (size stream)) (archiveTarget (size stream)) stream.archivedUpto

/-- The window last published for the stream is one `build_output_window_payload` accepts. -/
def StoredWindow (stream : OutputStream) : Prop :=
  stream.tailText.utf8ByteLength ≤ OUTPUT_TAIL_MAX_BYTES ∧ stream.tailStart ≤ stream.tailEnd ∧
    stream.tailEnd - stream.tailStart ≤ OUTPUT_TAIL_MAX_BYTES

/-- What `_plan_streams` plans for a stream of a job. -/
structure PlanFor (job : ActiveJob) (server : PyStr) (name : StreamName) (stream : OutputStream)
    (plan : StreamPlan) : Prop where
  tailStart : plan.tailStart = head stream
  window : (plan.window.tail, plan.window.start, plan.window.stop) =
    outputWindowText stream OUTPUT_TAIL_MAX_BYTES stream.spoolStart
  continues : Continues stream.archivedUpto stream.sequence (plan.chunks.map (·.2))
    plan.archivedUpto plan.sequence
  owned : ∀ c ∈ plan.chunks, c.2.thread = job.id ∧ c.2.stream = name
  stamped : ∀ c ∈ plan.chunks, c.2.server = server
  beyond : archiveTarget (size stream) < head stream → head stream ≤ plan.archivedUpto
  within : head stream ≤ archiveTarget (size stream) → plan.archivedUpto = fullEnd stream
  due : plan.chunks ≠ [] ↔ ChunkDue stream
  stored : ∀ now, StoredWindow (applyPlan plan now stream)

section Planning

variable {job : ActiveJob} {server : PyStr} {force : Bool} {uuid4 : ℕ → Uuid}

theorem planStream_eq_ok {name : StreamName} {drawn drawn' : ℕ} {r : Option StreamPlan}
    (h : planStream job server force uuid4 name drawn = .ok (r, drawn')) :
    match r with
    | some plan => (force = true ∨
        size (jobStream job name) ≠ (jobStream job name).publishedSize) ∧
        PlanFor job server name (jobStream job name) plan
    | none => ¬ (force = true ∨ size (jobStream job name) ≠ (jobStream job name).publishedSize) := by
  unfold planStream at h
  obtain ⟨plan, hplan, hrest⟩ := except_bind_eq_ok.1 h
  obtain ⟨cut, hwindow, -⟩ := outputWindowText_spec (jobStream job name) OUTPUT_TAIL_MAX_BYTES
  have hsize : (outputWindowText (jobStream job name) OUTPUT_TAIL_MAX_BYTES
      (jobStream job name).spoolStart).2.2 = size (jobStream job name) := by
    rw [hwindow]
    rfl
  obtain ⟨⟨hcont, howned, hstamped⟩, hbeyond, hwithin⟩ := planChunks_spec hplan
  have hdue := planChunks_chunks_ne_nil hplan
  rw [hsize] at hbeyond hwithin hdue
  split_ifs at hrest with hskip
  · obtain ⟨rfl, -⟩ := Prod.mk.inj (Except.ok.inj hrest)
    simp only [Bool.and_eq_true, Bool.not_eq_true', decide_eq_true_eq] at hskip
    simp only [size]
    rintro (hforce | hne)
    · simp [hforce] at hskip
    · exact hne (by omega)
  · split at hrest
    next => cases hrest
    next payload hpayload =>
      obtain ⟨rfl, -⟩ := Prod.mk.inj (Except.ok.inj hrest)
      obtain ⟨htext, hle, hspan, rfl⟩ := buildOutputWindowPayload_eq_ok.1 hpayload
      refine ⟨?_, rfl, rfl, hcont, howned, hstamped, hbeyond, hwithin, hdue,
        fun _ => ⟨htext, hle, hspan⟩⟩
      simp only [Bool.and_eq_true, Bool.not_eq_true', decide_eq_true_eq] at hskip
      cases force with
      | true => exact .inl rfl
      | false =>
        refine .inr fun heq => hskip ⟨rfl, ?_⟩
        rw [← heq, size, Nat.add_comm]

theorem planStreams_eq_ok {names : List StreamName} {plans plans' : Plans} {drawn : ℕ}
    (h : planStreams job server force uuid4 names plans drawn = .ok plans') (name : StreamName) :
    (∃ plan, plans' name = some plan ∧ Changed names force name (jobStream job name) ∧
        PlanFor job server name (jobStream job name) plan) ∨
      plans' name = plans name ∧ ¬ Changed names force name (jobStream job name) := by
  induction names generalizing plans drawn with
  | nil =>
    obtain rfl := Except.ok.inj h
    exact .inr ⟨rfl, fun hc => by simp [Changed] at hc⟩
  | cons first names ih =>
    unfold planStreams at h
    obtain ⟨⟨r, drawn'⟩, hfirst, hrest⟩ := except_bind_eq_ok.1 h
    have hplan := planStream_eq_ok hfirst
    cases r with
    | some plan =>
      rcases ih hrest with ⟨plan', hget, ⟨hmem, hchanged⟩, hfor⟩ | ⟨hget, hnot⟩
      · exact .inl ⟨plan', hget, ⟨List.mem_cons_of_mem _ hmem, hchanged⟩, hfor⟩
      · by_cases hname : name = first
        · subst hname
          exact .inl ⟨plan, by rw [hget, Function.update_self], ⟨by simp, hplan.1⟩, hplan.2⟩
        · refine .inr ⟨by rw [hget, Function.update_of_ne hname], fun hc => hnot ⟨?_, hc.2⟩⟩
          exact (List.mem_cons.1 hc.1).resolve_left hname
    | none =>
      rcases ih hrest with ⟨plan', hget, ⟨hmem, hchanged⟩, hfor⟩ | ⟨hget, hnot⟩
      · exact .inl ⟨plan', hget, ⟨List.mem_cons_of_mem _ hmem, hchanged⟩, hfor⟩
      · refine .inr ⟨hget, fun hc => ?_⟩
        rcases List.mem_cons.1 hc.1 with rfl | hmem
        · exact hplan hc.2
        · exact hnot ⟨hmem, hc.2⟩

end Planning

/-- **What a transaction plans**: a plan for each changed stream, and for no other. -/
theorem transaction_eq_some {s : Publisher} {names : List StreamName} {force : Bool}
    {uuid4 : ℕ → Uuid} {plans : Plans} {output : OutputWindow × OutputWindow}
    (h : s.transaction names force uuid4 = some (plans, output)) (name : StreamName) :
    (∃ plan, plans name = some plan ∧ Changed names force name (jobStream s.job name) ∧
        PlanFor s.job s.server name (jobStream s.job name) plan) ∨
      plans name = none ∧ ¬ Changed names force name (jobStream s.job name) := by
  unfold transaction at h
  split at h
  next => cases h
  next plans' hplans =>
    split at h
    next =>
      split_ifs at h
      obtain ⟨rfl, -⟩ := Prod.mk.inj (Option.some.inj h)
      exact planStreams_eq_ok hplans name
    next => cases h

/-- The chunks a transaction plans carry the job and the stream they belong to. -/
theorem owned_of_transaction {s : Publisher} {names : List StreamName} {force : Bool}
    {uuid4 : ℕ → Uuid} {plans : Plans} {output : OutputWindow × OutputWindow}
    (h : s.transaction names force uuid4 = some (plans, output)) (name : StreamName)
    (plan : StreamPlan) (hplan : plans name = some plan) :
    ∀ c ∈ plan.chunks, c.2.thread = s.job.id ∧ c.2.stream = name := by
  rcases transaction_eq_some h name with ⟨plan', hplan', -, hfor⟩ | ⟨hnone, -⟩
  · obtain rfl : plan = plan' := Option.some.inj (hplan.symm.trans hplan')
    exact hfor.owned
  · simp [hnone] at hplan

/-- The rows a transaction inserts name the job and carry the server. -/
theorem stamped_of_transaction {s : Publisher} {names : List StreamName} {force : Bool}
    {uuid4 : ℕ → Uuid} {plans : Plans} {output : OutputWindow × OutputWindow}
    (h : s.transaction names force uuid4 = some (plans, output)) :
    ∀ c ∈ chunkRows plans, c.2.thread = s.job.id ∧ c.2.server = s.server := by
  intro c hc
  obtain ⟨name, -, hc⟩ := List.mem_flatMap.1 hc
  rcases transaction_eq_some h name with ⟨plan, hplan, -, hfor⟩ | ⟨hnone, -⟩
  · rw [hplan] at hc
    exact ⟨(hfor.owned c hc).1, hfor.stamped c hc⟩
  · rw [hnone] at hc
    cases hc

/-- The rows of a stream after a commit. -/
theorem rowsOf_insert {s : Publisher} {plans : Plans} (output : OutputWindow × OutputWindow)
    (hplans : ∀ name plan, plans name = some plan →
      ∀ c ∈ plan.chunks, c.2.thread = s.job.id ∧ c.2.stream = name) (name : StreamName) :
    (s.insert plans output).rowsOf name =
      s.rowsOf name ++ (((plans name).map (·.chunks)).getD []).map (·.2) := by
  have hkeep : ∀ name' (plan : Option StreamPlan), plans name' = plan →
      (((plan.map (·.chunks)).getD []).map (·.2)).filter
        (fun c => c.thread = s.job.id && c.stream = name) =
      if name' = name then ((plan.map (·.chunks)).getD []).map (·.2) else [] := by
    intro name' plan hplan
    cases plan with
    | none => simp
    | some plan =>
      have howned := hplans name' plan hplan
      split_ifs with heq
      · subst heq
        refine List.filter_eq_self.2 fun c hc => ?_
        obtain ⟨r, hr, rfl⟩ := List.mem_map.1 hc
        simp [howned r hr]
      · refine List.filter_eq_nil_iff.2 fun c hc => ?_
        obtain ⟨r, hr, rfl⟩ := List.mem_map.1 hc
        simp [howned r hr, heq]
  simp only [rowsOf, insert, chunkRows, List.flatMap_cons, List.flatMap_nil, List.append_nil,
    List.map_append, List.filter_append, hkeep _ _ rfl]
  cases name <;> simp

end Publisher

end Lubko.Output
