import Lubko.Output.Boundary
import Lubko.Worker.Types

/-!
# Planning a publication

`_plan_streams` and what it calls: the live-tail window of a stream, the immutable chunks to
archive, and the payloads of both with the checks of `protocol.py`. Planning changes no state.
A capture offset is logical; `spoolStart` is the logical offset of the first byte still held.

* `outputWindowText_spec` — the window fits, and its head is a boundary of the buffer.
* `planChunks_spec` — the chunks of a plan continue each other without gap or overlap.
* `planChunks_total` — from a state with `spoolStart ≤ archivedUpto` planning returns.
-/

namespace Lubko.Output

open Lubko.Lib Lubko.Worker

def OUTPUT_TAIL_MAX_BYTES : ℕ := 4000

def OUTPUT_CHUNK_MAX_BYTES : ℕ := 2000

def ARCHIVE_MARGIN_CHARS : ℕ := 2000

/-- `OUTPUT_STREAMS`. -/
inductive StreamName where
  | stdout
  | stderr
  deriving DecidableEq

/-! ## Payloads -/

/-- The mapping of `build_output_window_payload`. -/
structure OutputWindow where
  tail : PyStr
  start : ℕ
  stop : ℕ
  previous : Option Uuid

/-- The mapping of `build_output_chunk_payload`. -/
structure OutputChunk where
  version : ℤ
  server : PyStr
  thread : Uuid
  stream : StreamName
  sequence : ℕ
  start : ℕ
  stop : ℕ
  value : PyStr
  previous : Option Uuid

/-- `_validate_offsets`, for offsets that are not negative. -/
def validateOffsets (start stop : ℕ) : Except PyStr Unit :=
  raiseIf (stop < start)
    ("output window end " ++ toString stop ++ " precedes start " ++ toString start : String)

/-- `build_output_window_payload`. -/
def buildOutputWindowPayload (tail : PyStr) (start stop : ℕ) (previous : Option Uuid) :
    Except PyStr OutputWindow := do
  raiseIf (OUTPUT_TAIL_MAX_BYTES < tail.utf8ByteLength) "output tail must be at most 4000 bytes"
  validateOffsets start stop
  raiseIf (OUTPUT_TAIL_MAX_BYTES < stop - start)
    "output window span must be at most 4000 raw bytes"
  return { tail, start, stop, previous }

/-- `build_output_chunk_payload`, for a known stream name and a sequence that is not negative. -/
def buildOutputChunkPayload (server : PyStr) (thread : Uuid) (stream : StreamName)
    (sequence start stop : ℕ) (value : PyStr) (previous : Option Uuid) (version : ℤ) :
    Except PyStr OutputChunk := do
  raiseIf server.isEmpty "payload server must be a non-empty string"
  raiseIf (version < 1) "payload version must be a positive integer"
  raiseIf (OUTPUT_CHUNK_MAX_BYTES < value.utf8ByteLength)
    "output_chunk.value must be at most 2000 bytes"
  validateOffsets start stop
  raiseIf (OUTPUT_CHUNK_MAX_BYTES < stop - start)
    "output_chunk span must be at most 2000 raw bytes"
  return { version, server, thread, stream, sequence, start, stop, value, previous }

/-! ## The live tail -/

/-- `read_range`. -/
def readRange (stream : OutputStream) (start stop : ℤ) : List UInt8 :=
  pySlice stream.data start stop

/-- The second half of `output_window_text`: read the buffer from three bytes before the candidate
head, align the head forward and shorten the window until its text fits. Returns the physical head
and the text. -/
def alignedWindow (stream : OutputStream) (physicalHead stop : ℤ) (maxChars : ℕ) : ℕ × PyStr :=
  let readFrom : ℤ := max 0 (physicalHead - 3)
  let tail := readRange stream readFrom stop
  let localCandidate := physicalHead - readFrom
  let alignedLocal := alignCodePointStart tail localCandidate
  let alignedPhysical := readFrom.toNat + alignedLocal
  let rawWindow := tail.drop alignedLocal
  let kept := boundedSuffix rawWindow maxChars
  (alignedPhysical + kept.1, kept.2)

/-- `output_window_text`: the text, its start and its end. -/
def outputWindowText (stream : OutputStream) (maxChars base : ℕ) : PyStr × ℕ × ℕ :=
  let size := stream.data.length + base
  let window := min size maxChars
  let start := size - window
  let physicalHead : ℤ := start - base
  let cut := alignedWindow stream physicalHead (size - base) maxChars
  (cut.2, cut.1 + base, size)

/-- `archive_target`. -/
def archiveTarget (size : ℕ) : ℕ :=
  if size ≤ OUTPUT_TAIL_MAX_BYTES then 0 else size - OUTPUT_TAIL_MAX_BYTES + ARCHIVE_MARGIN_CHARS

/-! ## Chunks -/

/-- Why planning does not return: a `ProtocolError`, or a loop that no longer advances. -/
inductive PlanError where
  | protocolError (msg : PyStr)
  | divergence

/-- What identifies the chunks of one stream, and the results `uuid4` will give. -/
structure ChunkSource where
  jobId : Uuid
  name : StreamName
  server : PyStr
  version : ℤ
  uuid4 : ℕ → Uuid

/-- The local variables of `_plan_chunks`; `drawn` counts the calls of `uuid4`. -/
structure ChunkPlan where
  chunks : List (Uuid × OutputChunk)
  archivedUpto : ℕ
  lastChunk : Option Uuid
  sequence : ℕ
  drawn : ℕ

/-- The physical offset at or before `candidate` at which a chunk may end, classified from a
bounded neighborhood of the buffer. -/
def alignedEnd (stream : OutputStream) (candidate : ℤ) : ℕ :=
  let nFrom : ℤ := max 0 (candidate - 3)
  let neighborhood := readRange stream nFrom (candidate + 4)
  nFrom.toNat + alignCodePointEnd neighborhood (candidate - nFrom)

/-- The end and the text of the chunk cut from `chunkStart` at the physical offset `candidate`,
as both loops of `_plan_chunks` compute them. -/
def cutChunk (stream : OutputStream) (chunkStart : ℕ) (candidate : ℤ) : ℕ × PyStr :=
  let chunkEnd := alignedEnd stream candidate + stream.spoolStart
  let chunkBytes :=
    readRange stream (chunkStart - stream.spoolStart) (chunkEnd - stream.spoolStart)
  let value := pgSafeDecode chunkBytes
  if OUTPUT_CHUNK_MAX_BYTES < value.utf8ByteLength then
    let shrunk := boundedPrefix chunkBytes OUTPUT_CHUNK_MAX_BYTES
    (chunkStart + shrunk.1, shrunk.2)
  else (chunkEnd, value)

/-- One iteration of either loop: cut a chunk, build its payload and append it. -/
def emitChunk (source : ChunkSource) (stream : OutputStream) (plan : ChunkPlan) (candidate : ℤ) :
    Except PlanError ChunkPlan :=
  let cut := cutChunk stream plan.archivedUpto candidate
  match buildOutputChunkPayload source.server source.jobId source.name plan.sequence
      plan.archivedUpto cut.1 cut.2 plan.lastChunk source.version with
  | .error msg => .error (.protocolError msg)
  | .ok chunk => .ok {
      chunks := plan.chunks ++ [(source.uuid4 plan.drawn, chunk)]
      archivedUpto := cut.1
      lastChunk := some (source.uuid4 plan.drawn)
      sequence := plan.sequence + 1
      drawn := plan.drawn + 1 }

/-- The loop that emits full-size chunks toward the margin target. -/
def archiveFull (source : ChunkSource) (stream : OutputStream) (target : ℕ) :
    ℕ → ChunkPlan → Except PlanError ChunkPlan
  | fuel, plan =>
    if (OUTPUT_CHUNK_MAX_BYTES : ℤ) ≤ target - plan.archivedUpto then
      match fuel with
      | 0 => .error .divergence
      | fuel + 1 => do
        let plan ← emitChunk source stream plan
          (plan.archivedUpto + OUTPUT_CHUNK_MAX_BYTES - stream.spoolStart)
        archiveFull source stream target fuel plan
    else .ok plan

/-- The loop that closes the gap to a live-tail head beyond the target. -/
def archiveGap (source : ChunkSource) (stream : OutputStream) (tailStart : ℕ) :
    ℕ → ChunkPlan → Except PlanError ChunkPlan
  | fuel, plan =>
    if plan.archivedUpto < tailStart then
      match fuel with
      | 0 => .error .divergence
      | fuel + 1 => do
        let plan ← emitChunk source stream plan (tailStart - stream.spoolStart)
        archiveGap source stream tailStart fuel plan
    else .ok plan

/-- `_plan_chunks`. Each loop gets as much fuel as it has bytes to go, which runs out only when an
iteration does not advance. -/
def planChunks (source : ChunkSource) (stream : OutputStream) (tailEnd tailStart drawn : ℕ) :
    Except PlanError ChunkPlan := do
  let target := archiveTarget tailEnd
  let plan ← archiveFull source stream target target
    { chunks := [], archivedUpto := stream.archivedUpto, lastChunk := stream.lastChunk,
      sequence := stream.sequence, drawn }
  if target < tailStart then archiveGap source stream tailStart tailStart plan else return plan

/-! ## The window -/

/-- What the window of a buffer must satisfy. -/
structure WindowOk (data : List UInt8) (limit : ℕ) (cut : ℕ × PyStr) : Prop where
  le : cut.1 ≤ data.length
  span : data.length - cut.1 ≤ limit
  text : cut.2 = pgSafeDecode (data.drop cut.1)
  fits : cut.2.utf8ByteLength ≤ limit
  boundary : ¬ Splits data cut.1

theorem readRange_drop (stream : OutputStream) (i : ℕ) :
    readRange stream i stream.data.length = stream.data.drop i := by
  rw [readRange, pySlice_natCast, List.take_length]

/-- The window cut at a physical offset, without the reading from three bytes before it. -/
theorem alignedWindow_eq (stream : OutputStream) {n limit : ℕ} (hn : n ≤ stream.data.length) :
    alignedWindow stream n stream.data.length limit =
      (alignCodePointStart stream.data n +
          (boundedSuffix (stream.data.drop (alignCodePointStart stream.data n)) limit).1,
        (boundedSuffix (stream.data.drop (alignCodePointStart stream.data n)) limit).2) := by
  have hfrom : max (0 : ℤ) (n - 3) = ((n - 3 : ℕ) : ℤ) := by omega
  have hlocal : (n : ℤ) - ((n - 3 : ℕ) : ℤ) = ((n - (n - 3) : ℕ) : ℤ) := by omega
  have hctx : ¬ Splits stream.data (n - 3) ∨ n - 3 + 3 ≤ n := by
    by_cases h3 : 3 ≤ n
    · exact .inr (by omega)
    · rw [show n - 3 = 0 by omega]
      exact .inl (not_splits_zero _)
  have halign := (align_window hn (Nat.sub_le n 3) hctx (.inr le_rfl)).2
  rw [List.take_length] at halign
  unfold alignedWindow
  dsimp only
  rw [hfrom, hlocal, readRange_drop, Int.toNat_natCast, List.drop_drop, halign]

/-- The window cut at a physical offset of the buffer. -/
theorem alignedWindow_natCast (stream : OutputStream) {n limit : ℕ} (hn : n ≤ stream.data.length)
    (hspan : stream.data.length - n ≤ limit) :
    WindowOk stream.data limit (alignedWindow stream n stream.data.length limit) := by
  obtain ⟨hsplit, hge, hle⟩ := alignCodePointStart_spec stream.data hn
  rw [alignedWindow_eq stream hn]
  generalize alignCodePointStart stream.data n = head at hsplit hge hle ⊢
  obtain ⟨hkeep, htext, hfit, hboundary⟩ := boundedSuffix_spec (stream.data.drop head) limit
  generalize boundedSuffix (stream.data.drop head) limit = kept at *
  rw [List.length_drop] at hkeep
  rw [List.drop_drop] at htext
  exact ⟨by dsimp only; omega, by dsimp only; omega, htext, hfit, not_splits_add hsplit hboundary⟩

theorem alignedWindow_of_alone (stream : OutputStream) {n limit : ℕ} (hn : n ≤ stream.data.length)
    (halone : ∀ b ∈ stream.data, sequenceLength b ≤ 1) :
    (alignedWindow stream n stream.data.length limit).1 =
      n + (boundedSuffix (stream.data.drop n) limit).1 := by
  rw [alignedWindow_eq stream hn, alignCodePointStart_eq_self hn (not_splits_of_alone halone n)]

/-- The window of a buffer that fits whole: the candidate head is before it. -/
theorem alignedWindow_of_nonpos (stream : OutputStream) {c : ℤ} (hc : c ≤ 0) (stop : ℤ)
    (limit : ℕ) : alignedWindow stream c stop limit = alignedWindow stream (0 : ℕ) stop limit := by
  have hfrom : max (0 : ℤ) (c - 3) = 0 := by omega
  have hfrom' : max (0 : ℤ) (((0 : ℕ) : ℤ) - 3) = 0 := by omega
  have halign : ∀ tail c, c ≤ 0 → alignCodePointStart tail c = 0 := by
    intro tail c hc
    rw [alignCodePointStart, if_pos hc]
  unfold alignedWindow
  dsimp only
  rw [hfrom, hfrom', halign _ _ (by omega), halign _ _ (by omega)]

/-- **The live-tail window** of a buffer at any base fits, lies in the buffer, and its head is a
boundary of it. -/
theorem outputWindowText_base (stream : OutputStream) (maxChars base : ℕ) :
    ∃ cut, outputWindowText stream maxChars base =
        (cut.2, cut.1 + base, stream.data.length + base) ∧ WindowOk stream.data maxChars cut ∧
      cut = alignedWindow stream (stream.data.length - maxChars : ℕ) stream.data.length maxChars := by
  have hstop : ((stream.data.length + base : ℕ) : ℤ) - base = stream.data.length := by omega
  unfold outputWindowText
  dsimp only
  rw [hstop]
  set start := stream.data.length + base - min (stream.data.length + base) maxChars with hstart
  have hcut : alignedWindow stream (start - base) stream.data.length maxChars =
      alignedWindow stream (stream.data.length - maxChars : ℕ) stream.data.length maxChars := by
    by_cases hc : (start : ℤ) - base ≤ 0
    · have hzero : stream.data.length - maxChars = 0 := by omega
      rw [alignedWindow_of_nonpos stream hc, hzero]
    · have hcast : (start : ℤ) - base = ((stream.data.length - maxChars : ℕ) : ℤ) := by omega
      rw [hcast]
  rw [hcut]
  exact ⟨_, rfl, alignedWindow_natCast stream (Nat.sub_le _ _) (by omega), rfl⟩

theorem outputWindowText_spec (stream : OutputStream) (maxChars : ℕ) :
    ∃ cut, outputWindowText stream maxChars stream.spoolStart =
        (cut.2, cut.1 + stream.spoolStart, stream.data.length + stream.spoolStart) ∧
      WindowOk stream.data maxChars cut := by
  obtain ⟨cut, hwindow, hok, -⟩ := outputWindowText_base stream maxChars stream.spoolStart
  exact ⟨cut, hwindow, hok⟩

/-! ## One chunk -/

/-- Chunks that continue each other from offset `a` and sequence `n` to offset `b` and sequence
`m`, without gap or overlap. -/
def Continues : ℕ → ℕ → List OutputChunk → ℕ → ℕ → Prop
  | a, n, [], b, m => a = b ∧ n = m
  | a, n, c :: cs, b, m => c.start = a ∧ c.sequence = n ∧ a ≤ c.stop ∧ Continues c.stop (n + 1) cs b m

theorem Continues.append {a n b m c k : ℕ} {xs ys : List OutputChunk}
    (hxs : Continues a n xs b m) (hys : Continues b m ys c k) : Continues a n (xs ++ ys) c k := by
  induction xs generalizing a n with
  | nil =>
    obtain ⟨rfl, rfl⟩ := hxs
    exact hys
  | cons x xs ih =>
    obtain ⟨hstart, hseq, hle, hrest⟩ := hxs
    exact ⟨hstart, hseq, hle, ih hrest⟩

theorem Continues.le {a n b m : ℕ} {xs : List OutputChunk} (h : Continues a n xs b m) :
    a ≤ b ∧ m = n + xs.length := by
  induction xs generalizing a n with
  | nil =>
    obtain ⟨rfl, rfl⟩ := h
    exact ⟨le_rfl, rfl⟩
  | cons x xs ih =>
    obtain ⟨-, -, hle, hrest⟩ := h
    obtain ⟨hle', hlen⟩ := ih hrest
    refine ⟨hle.trans hle', ?_⟩
    rw [hlen, List.length_cons]
    omega

/-- Every offset of the range is in one of the chunks. -/
theorem Continues.covers {a n b m i : ℕ} {xs : List OutputChunk} (h : Continues a n xs b m)
    (hlo : a ≤ i) (hhi : i < b) : ∃ c ∈ xs, c.start ≤ i ∧ i < c.stop := by
  induction xs generalizing a n with
  | nil =>
    obtain ⟨rfl, -⟩ := h
    omega
  | cons x xs ih =>
    obtain ⟨hstart, -, -, hrest⟩ := h
    by_cases hx : i < x.stop
    · exact ⟨x, by simp, by omega, hx⟩
    · obtain ⟨c, hc, hin⟩ := ih hrest (not_lt.1 hx)
      exact ⟨c, List.mem_cons_of_mem _ hc, hin⟩

/-- The sequence numbers of a continued list are all different, and its ranges do not overlap. -/
theorem Continues.pairwise {a n b m : ℕ} {xs : List OutputChunk} (h : Continues a n xs b m) :
    xs.Pairwise fun c d => c.sequence ≠ d.sequence ∧ (c.stop ≤ d.start ∨ d.stop ≤ c.start) := by
  have hlater : ∀ {a n} {xs : List OutputChunk}, Continues a n xs b m →
      ∀ c ∈ xs, a ≤ c.start ∧ n ≤ c.sequence := by
    intro a n xs h
    induction xs generalizing a n with
    | nil => simp
    | cons x xs ih =>
      obtain ⟨hstart, hseq, hle, hrest⟩ := h
      intro c hc
      rcases List.mem_cons.1 hc with rfl | hc
      · exact ⟨hstart.ge, hseq.ge⟩
      · obtain ⟨h1, h2⟩ := ih hrest c hc
        exact ⟨hle.trans h1, by omega⟩
  induction xs generalizing a n with
  | nil => exact .nil
  | cons x xs ih =>
    obtain ⟨hstart, hseq, hle, hrest⟩ := h
    refine .cons (fun c hc => ?_) (ih hrest)
    obtain ⟨h1, h2⟩ := hlater hrest c hc
    exact ⟨by omega, .inl h1⟩

/-- Every sequence number of the range is taken. -/
theorem Continues.exists_sequence {a n b m k : ℕ} {xs : List OutputChunk}
    (h : Continues a n xs b m) (hlo : n ≤ k) (hhi : k < m) : ∃ c ∈ xs, c.sequence = k := by
  induction xs generalizing a n with
  | nil =>
    obtain ⟨-, rfl⟩ := h
    omega
  | cons x xs ih =>
    obtain ⟨-, hseq, -, hrest⟩ := h
    by_cases hk : k = n
    · exact ⟨x, by simp, hseq.trans hk.symm⟩
    · obtain ⟨c, hc, hck⟩ := ih hrest (by omega)
      exact ⟨c, List.mem_cons_of_mem _ hc, hck⟩

theorem buildOutputChunkPayload_eq_ok {server : PyStr} {thread : Uuid} {stream : StreamName}
    {sequence start stop : ℕ} {value : PyStr} {previous : Option Uuid} {version : ℤ}
    {chunk : OutputChunk} :
    buildOutputChunkPayload server thread stream sequence start stop value previous version =
        .ok chunk ↔
      server ≠ [] ∧ 1 ≤ version ∧ value.utf8ByteLength ≤ OUTPUT_CHUNK_MAX_BYTES ∧ start ≤ stop ∧
        stop - start ≤ OUTPUT_CHUNK_MAX_BYTES ∧
        ⟨version, server, thread, stream, sequence, start, stop, value, previous⟩ = chunk := by
  unfold buildOutputChunkPayload validateOffsets
  simp only [raiseIf_bind_eq_ok, pure, Except.pure, Except.ok.injEq, decide_eq_false_iff_not,
    not_lt, List.isEmpty_eq_false_iff, ne_eq]

theorem buildOutputWindowPayload_eq_ok {tail : PyStr} {start stop : ℕ} {previous : Option Uuid}
    {window : OutputWindow} :
    buildOutputWindowPayload tail start stop previous = .ok window ↔
      tail.utf8ByteLength ≤ OUTPUT_TAIL_MAX_BYTES ∧ start ≤ stop ∧
        stop - start ≤ OUTPUT_TAIL_MAX_BYTES ∧ ⟨tail, start, stop, previous⟩ = window := by
  unfold buildOutputWindowPayload validateOffsets
  simp only [raiseIf_bind_eq_ok, pure, Except.pure, Except.ok.injEq, decide_eq_false_iff_not,
    not_lt]

/-- The plan after one iteration of a planning loop. -/
theorem emitChunk_plan {source : ChunkSource} {stream : OutputStream} {plan plan' : ChunkPlan}
    {candidate : ℤ} (h : emitChunk source stream plan candidate = .ok plan') :
    plan.archivedUpto ≤ (cutChunk stream plan.archivedUpto candidate).1 ∧
      plan' = {
        chunks := plan.chunks ++ [(source.uuid4 plan.drawn, ⟨source.version, source.server,
          source.jobId, source.name, plan.sequence, plan.archivedUpto,
          (cutChunk stream plan.archivedUpto candidate).1,
          (cutChunk stream plan.archivedUpto candidate).2, plan.lastChunk⟩)]
        archivedUpto := (cutChunk stream plan.archivedUpto candidate).1
        lastChunk := some (source.uuid4 plan.drawn)
        sequence := plan.sequence + 1
        drawn := plan.drawn + 1 } := by
  unfold emitChunk at h
  dsimp only at h
  split at h
  next => simp at h
  next chunk hchunk =>
    obtain ⟨-, -, -, hle, -, rfl⟩ := buildOutputChunkPayload_eq_ok.1 hchunk
    exact ⟨hle, (Except.ok.inj h).symm⟩

/-- What one iteration of a planning loop does. -/
theorem emitChunk_eq_ok {source : ChunkSource} {stream : OutputStream} {plan plan' : ChunkPlan}
    {candidate : ℤ} (h : emitChunk source stream plan candidate = .ok plan') :
    plan'.archivedUpto = (cutChunk stream plan.archivedUpto candidate).1 ∧
      plan'.drawn = plan.drawn + 1 ∧ plan'.lastChunk = some (source.uuid4 plan.drawn) ∧
      ∃ chunk, plan'.chunks = plan.chunks ++ [(source.uuid4 plan.drawn, chunk)] ∧
        chunk.thread = source.jobId ∧ chunk.stream = source.name ∧ chunk.server = source.server ∧
        Continues plan.archivedUpto plan.sequence [chunk] plan'.archivedUpto plan'.sequence := by
  obtain ⟨hle, rfl⟩ := emitChunk_plan h
  exact ⟨rfl, rfl, rfl, _, rfl, rfl, rfl, rfl, rfl, rfl, hle, rfl, rfl⟩

/-- The neighborhood shows as much as the buffer would. -/
theorem alignedEnd_eq (stream : OutputStream) {c : ℤ} (hc : c ≤ stream.data.length) :
    alignedEnd stream c = alignCodePointEnd stream.data c := by
  unfold alignedEnd
  dsimp only
  by_cases hneg : c ≤ 0
  · have hfrom : max (0 : ℤ) (c - 3) = 0 := by omega
    rw [hfrom, sub_zero, alignCodePointEnd, alignCodePointEnd, if_pos hneg, if_pos hneg]
    rfl
  · obtain ⟨k, rfl⟩ := Int.eq_ofNat_of_zero_le (by omega : 0 ≤ c)
    have hfrom : max (0 : ℤ) (k - 3) = ((k - 3 : ℕ) : ℤ) := by omega
    have hlocal : (k : ℤ) - ((k - 3 : ℕ) : ℤ) = ((k - (k - 3) : ℕ) : ℤ) := by omega
    have hupto : (k : ℤ) + 4 = ((k + 4 : ℕ) : ℤ) := by omega
    have hctx : ¬ Splits stream.data (k - 3) ∨ k - 3 + 3 ≤ k := by
      by_cases h3 : 3 ≤ k
      · exact .inr (by omega)
      · rw [show k - 3 = 0 by omega]
        exact .inl (not_splits_zero _)
    rw [hfrom, hlocal, hupto, readRange, pySlice_natCast, Int.toNat_natCast]
    exact (align_window (by omega) (Nat.sub_le k 3) hctx (.inl (by omega))).1

theorem alignedEnd_spec (stream : OutputStream) {a c : ℕ} (hc : c ≤ stream.data.length)
    (hac : a + 3 < c ∨ a < c ∧ ¬ Splits stream.data c) :
    a < alignedEnd stream c ∧ alignedEnd stream c ≤ c := by
  rw [alignedEnd_eq stream (by omega)]
  have hle := alignCodePointEnd_le stream.data hc
  have hnear := le_alignCodePointEnd stream.data hc
  refine ⟨?_, hle⟩
  rcases hac with hlt | ⟨hlt, hsplit⟩
  · omega
  · rw [(alignCodePointEnd_eq_self_iff hc).2 hsplit]
    exact hlt

/-- **A cut advances and fits** when the candidate is ahead by more than the alignment can take
back, or is a boundary. `a` and `c` are physical offsets. -/
theorem cutChunk_spec (stream : OutputStream) {a c : ℕ} (hc : c ≤ stream.data.length)
    (hac : a + 3 < c ∨ a < c ∧ ¬ Splits stream.data c) :
    stream.spoolStart + a < (cutChunk stream (stream.spoolStart + a) c).1 ∧
      (cutChunk stream (stream.spoolStart + a) c).1 ≤ stream.spoolStart + c ∧
      (cutChunk stream (stream.spoolStart + a) c).1 - (stream.spoolStart + a) ≤
        OUTPUT_CHUNK_MAX_BYTES ∧
      (cutChunk stream (stream.spoolStart + a) c).2.utf8ByteLength ≤ OUTPUT_CHUNK_MAX_BYTES := by
  obtain ⟨hlt, hle⟩ := alignedEnd_spec stream hc hac
  unfold cutChunk
  dsimp only
  generalize alignedEnd stream c = stop at hlt hle ⊢
  have hbytes : readRange stream ((stream.spoolStart + a : ℕ) - stream.spoolStart)
      ((stop + stream.spoolStart : ℕ) - stream.spoolStart) = (stream.data.take stop).drop a := by
    have ha : ((stream.spoolStart + a : ℕ) : ℤ) - stream.spoolStart = (a : ℕ) := by omega
    have hs : ((stop + stream.spoolStart : ℕ) : ℤ) - stream.spoolStart = (stop : ℕ) := by omega
    rw [ha, hs, readRange, pySlice_natCast]
  have hlen : ((stream.data.take stop).drop a).length = stop - a := by
    rw [List.length_drop, List.length_take]
    omega
  rw [hbytes]
  generalize (stream.data.take stop).drop a = bytes at hlen ⊢
  have hraw := length_le_pgSafeDecode bytes
  split_ifs with hlong
  · -- the text is too long: the range is shortened from its end
    have hne : bytes ≠ [] := by
      rintro rfl
      simp at hlong
    obtain ⟨hpos, hstop, htext, hfit⟩ :=
      boundedPrefix_spec hne (show 4 ≤ OUTPUT_CHUNK_MAX_BYTES by decide)
    have hraw' := length_le_pgSafeDecode (bytes.take (boundedPrefix bytes OUTPUT_CHUNK_MAX_BYTES).1)
    rw [← htext, List.length_take] at hraw'
    exact ⟨by dsimp only; omega, by dsimp only; omega, by dsimp only; omega, hfit⟩
  · exact ⟨by dsimp only; omega, by dsimp only; omega, by dsimp only; omega, not_lt.1 hlong⟩

/-- A range that ends at a boundary and whose text fits is cut whole. -/
theorem cutChunk_of_fits (stream : OutputStream) {a c : ℕ} (hc : c ≤ stream.data.length)
    (hac : a < c) (hsplit : ¬ Splits stream.data c)
    (hfits : (pgSafeDecode ((stream.data.take c).drop a)).utf8ByteLength ≤ OUTPUT_CHUNK_MAX_BYTES) :
    (cutChunk stream (stream.spoolStart + a) c).1 = c + stream.spoolStart := by
  have hend : alignedEnd stream c = c := by
    obtain ⟨hlt, hle⟩ := alignedEnd_spec stream hc (a := c - 1) (.inr ⟨by omega, hsplit⟩)
    omega
  have ha : ((stream.spoolStart + a : ℕ) : ℤ) - stream.spoolStart = (a : ℕ) := by omega
  have hs : ((c + stream.spoolStart : ℕ) : ℤ) - stream.spoolStart = (c : ℕ) := by omega
  unfold cutChunk
  dsimp only
  rw [hend, ha, hs, readRange, pySlice_natCast, if_neg (not_lt.2 hfits)]

/-! ## The two loops -/

/-- The chunks planned so far continue each other from `a` and `n`, and belong to the stream. -/
structure Planned (source : ChunkSource) (a n : ℕ) (plan : ChunkPlan) : Prop where
  continues : Continues a n (plan.chunks.map (·.2)) plan.archivedUpto plan.sequence
  owned : ∀ c ∈ plan.chunks, c.2.thread = source.jobId ∧ c.2.stream = source.name
  stamped : ∀ c ∈ plan.chunks, c.2.server = source.server

section Loops

variable {source : ChunkSource} {stream : OutputStream}

theorem Planned.emitChunk {a n : ℕ} {plan plan' : ChunkPlan} {candidate : ℤ}
    (hplan : Planned source a n plan) (h : emitChunk source stream plan candidate = .ok plan') :
    Planned source a n plan' := by
  obtain ⟨-, -, -, chunk, hchunks, hthread, hstream, hserver, hcont⟩ := emitChunk_eq_ok h
  refine ⟨?_, fun c hc => ?_, fun c hc => ?_⟩
  · rw [hchunks, List.map_append]
    exact hplan.continues.append hcont
  · rw [hchunks, List.mem_append, List.mem_singleton] at hc
    rcases hc with hold | rfl
    · exact hplan.owned c hold
    · exact ⟨hthread, hstream⟩
  · rw [hchunks, List.mem_append, List.mem_singleton] at hc
    rcases hc with hold | rfl
    · exact hplan.stamped c hold
    · exact hserver

/-- Where the full-size chunks end. -/
def fullSizeEnd (stream : OutputStream) (target : ℕ) : ℕ → ℕ → ℕ
  | 0, archived => archived
  | fuel + 1, archived =>
    if (OUTPUT_CHUNK_MAX_BYTES : ℤ) ≤ target - archived then
      fullSizeEnd stream target fuel
        (cutChunk stream archived (archived + OUTPUT_CHUNK_MAX_BYTES - stream.spoolStart)).1
    else archived

theorem archiveFull_eq_ok {target fuel a n : ℕ} {plan plan' : ChunkPlan}
    (h : archiveFull source stream target fuel plan = .ok plan') (hplan : Planned source a n plan) :
    Planned source a n plan' ∧
      plan'.archivedUpto = fullSizeEnd stream target fuel plan.archivedUpto := by
  induction fuel generalizing plan with
  | zero =>
    rw [archiveFull] at h
    split_ifs at h with hlt
    obtain rfl := Except.ok.inj h
    exact ⟨hplan, rfl⟩
  | succ fuel ih =>
    rw [archiveFull] at h
    rw [fullSizeEnd]
    split_ifs at h ⊢ with hlt
    · obtain ⟨next, hnext, hrest⟩ := except_bind_eq_ok.1 h
      rw [← (emitChunk_eq_ok hnext).1]
      exact ih hrest (hplan.emitChunk hnext)
    · obtain rfl := Except.ok.inj h
      exact ⟨hplan, rfl⟩

theorem archiveGap_eq_ok {tailStart fuel a n : ℕ} {plan plan' : ChunkPlan}
    (h : archiveGap source stream tailStart fuel plan = .ok plan')
    (hplan : Planned source a n plan) :
    Planned source a n plan' ∧ tailStart ≤ plan'.archivedUpto := by
  induction fuel generalizing plan with
  | zero =>
    rw [archiveGap] at h
    split_ifs at h with hlt
    obtain rfl := Except.ok.inj h
    exact ⟨hplan, not_lt.1 hlt⟩
  | succ fuel ih =>
    rw [archiveGap] at h
    split_ifs at h with hlt
    · obtain ⟨next, hnext, hrest⟩ := except_bind_eq_ok.1 h
      exact ih hrest (hplan.emitChunk hnext)
    · obtain rfl := Except.ok.inj h
      exact ⟨hplan, not_lt.1 hlt⟩

/-- **What a plan contains.** Its chunks continue the archive, and it ends where the full-size
chunks end, unless the head lies beyond the target: then it reaches the head. -/
theorem planChunks_spec {tailEnd tailStart drawn : ℕ} {plan : ChunkPlan}
    (h : planChunks source stream tailEnd tailStart drawn = .ok plan) :
    Planned source stream.archivedUpto stream.sequence plan ∧
      (archiveTarget tailEnd < tailStart → tailStart ≤ plan.archivedUpto) ∧
      (tailStart ≤ archiveTarget tailEnd → plan.archivedUpto = fullSizeEnd stream
        (archiveTarget tailEnd) (archiveTarget tailEnd) stream.archivedUpto) := by
  unfold planChunks at h
  obtain ⟨full, hfull, hrest⟩ := except_bind_eq_ok.1 h
  obtain ⟨hplan, hend⟩ := archiveFull_eq_ok hfull
    (a := stream.archivedUpto) (n := stream.sequence) ⟨⟨rfl, rfl⟩, by simp, by simp⟩
  split_ifs at hrest with hgap
  · obtain ⟨hplan', hle⟩ := archiveGap_eq_ok hrest hplan
    exact ⟨hplan', fun _ => hle, fun hle' => absurd hgap (not_lt.2 hle')⟩
  · obtain rfl := Except.ok.inj hrest
    exact ⟨hplan, fun hlt => absurd hlt hgap, fun _ => hend⟩

theorem emitChunk_length {plan plan' : ChunkPlan} {candidate : ℤ}
    (h : emitChunk source stream plan candidate = .ok plan') :
    plan'.chunks.length = plan.chunks.length + 1 := by
  obtain ⟨-, -, -, chunk, hchunks, -⟩ := emitChunk_eq_ok h
  rw [hchunks, List.length_append, List.length_singleton]

theorem archiveFull_length {target fuel : ℕ} {plan plan' : ChunkPlan}
    (h : archiveFull source stream target fuel plan = .ok plan') :
    plan.chunks.length ≤ plan'.chunks.length ∧
      ((OUTPUT_CHUNK_MAX_BYTES : ℤ) ≤ target - plan.archivedUpto ∧
          plan.chunks.length < plan'.chunks.length ∨
        ¬ (OUTPUT_CHUNK_MAX_BYTES : ℤ) ≤ target - plan.archivedUpto ∧ plan' = plan) := by
  induction fuel generalizing plan with
  | zero =>
    rw [archiveFull] at h
    split_ifs at h with hlt
    obtain rfl := Except.ok.inj h
    exact ⟨le_rfl, .inr ⟨hlt, rfl⟩⟩
  | succ fuel ih =>
    rw [archiveFull] at h
    split_ifs at h with hlt
    · obtain ⟨next, hnext, hrest⟩ := except_bind_eq_ok.1 h
      have hlen := emitChunk_length hnext
      have hle := (ih hrest).1
      exact ⟨by omega, .inl ⟨hlt, by omega⟩⟩
    · obtain rfl := Except.ok.inj h
      exact ⟨le_rfl, .inr ⟨hlt, rfl⟩⟩

theorem archiveGap_length {tailStart fuel : ℕ} {plan plan' : ChunkPlan}
    (h : archiveGap source stream tailStart fuel plan = .ok plan') :
    plan.chunks.length ≤ plan'.chunks.length ∧
      (plan.archivedUpto < tailStart ∧ plan.chunks.length < plan'.chunks.length ∨
        ¬ plan.archivedUpto < tailStart ∧ plan' = plan) := by
  induction fuel generalizing plan with
  | zero =>
    rw [archiveGap] at h
    split_ifs at h with hlt
    obtain rfl := Except.ok.inj h
    exact ⟨le_rfl, .inr ⟨hlt, rfl⟩⟩
  | succ fuel ih =>
    rw [archiveGap] at h
    split_ifs at h with hlt
    · obtain ⟨next, hnext, hrest⟩ := except_bind_eq_ok.1 h
      have hlen := emitChunk_length hnext
      have hle := (ih hrest).1
      exact ⟨by omega, .inl ⟨hlt, by omega⟩⟩
    · obtain rfl := Except.ok.inj h
      exact ⟨le_rfl, .inr ⟨hlt, rfl⟩⟩

/-- When a plan holds chunks: a full-size chunk fits before the target, or the head lies beyond
both the target and the archive position. -/
theorem planChunks_chunks_ne_nil {tailEnd tailStart drawn : ℕ} {plan : ChunkPlan}
    (h : planChunks source stream tailEnd tailStart drawn = .ok plan) :
    plan.chunks ≠ [] ↔
      (OUTPUT_CHUNK_MAX_BYTES : ℤ) ≤ archiveTarget tailEnd - stream.archivedUpto ∨
        archiveTarget tailEnd < tailStart ∧ stream.archivedUpto < tailStart := by
  unfold planChunks at h
  obtain ⟨full, hfull, hrest⟩ := except_bind_eq_ok.1 h
  rw [← List.length_pos_iff]
  obtain ⟨-, hcase⟩ := archiveFull_length hfull
  dsimp only at hcase hrest
  split_ifs at hrest with hgap
  · obtain ⟨hle, hcase'⟩ := archiveGap_length hrest
    rcases hcase with ⟨hlt, hlen⟩ | ⟨hlt, rfl⟩
    · exact iff_of_true (by omega) (.inl hlt)
    · dsimp only at hle hcase'
      rcases hcase' with ⟨hlt', hlen⟩ | ⟨hlt', rfl⟩
      · exact iff_of_true (by simpa using hlen) (.inr ⟨hgap, hlt'⟩)
      · exact iff_of_false (by simp) (by tauto)
  · obtain rfl := Except.ok.inj hrest
    rcases hcase with ⟨hlt, hlen⟩ | ⟨hlt, rfl⟩
    · exact iff_of_true (by simpa using hlen) (.inl hlt)
    · exact iff_of_false (by simp) (by tauto)

/-! ## Planning returns -/

/-- An iteration whose candidate is ahead emits a chunk and advances. -/
theorem emitChunk_total (hserver : source.server ≠ []) (hversion : 1 ≤ source.version)
    {plan : ChunkPlan} {c : ℕ} (hspool : stream.spoolStart ≤ plan.archivedUpto)
    (hc : c ≤ stream.data.length)
    (hac : plan.archivedUpto - stream.spoolStart + 3 < c ∨
      plan.archivedUpto - stream.spoolStart < c ∧ ¬ Splits stream.data c) :
    ∃ plan', emitChunk source stream plan c = .ok plan' ∧
      plan.archivedUpto < plan'.archivedUpto ∧ plan'.archivedUpto ≤ stream.spoolStart + c := by
  obtain ⟨hlt, hle, hspan, hfit⟩ := cutChunk_spec stream hc hac
  rw [Nat.add_sub_cancel' hspool] at hlt hle hspan hfit
  cases hemit : emitChunk source stream plan c with
  | ok plan' =>
    refine ⟨plan', rfl, ?_⟩
    rw [(emitChunk_eq_ok hemit).1]
    exact ⟨hlt, hle⟩
  | error e =>
    have hchunk : ∃ chunk, buildOutputChunkPayload source.server source.jobId source.name
        plan.sequence plan.archivedUpto (cutChunk stream plan.archivedUpto c).1
        (cutChunk stream plan.archivedUpto c).2 plan.lastChunk source.version = .ok chunk :=
      ⟨_, buildOutputChunkPayload_eq_ok.2 ⟨hserver, hversion, hfit, hlt.le, hspan, rfl⟩⟩
    obtain ⟨chunk, hchunk⟩ := hchunk
    simp [emitChunk, hchunk] at hemit

theorem archiveFull_total (hserver : source.server ≠ []) (hversion : 1 ≤ source.version)
    {target fuel : ℕ} (htarget : target ≤ stream.spoolStart + stream.data.length)
    {plan : ChunkPlan} (hspool : stream.spoolStart ≤ plan.archivedUpto)
    (hfuel : target - plan.archivedUpto ≤ fuel) :
    ∃ plan', archiveFull source stream target fuel plan = .ok plan' ∧
      stream.spoolStart ≤ plan'.archivedUpto := by
  have hsize : OUTPUT_CHUNK_MAX_BYTES = 2000 := rfl
  induction fuel generalizing plan with
  | zero =>
    rw [archiveFull, if_neg (by omega)]
    exact ⟨plan, rfl, hspool⟩
  | succ fuel ih =>
    rw [archiveFull]
    split_ifs with hlt
    · -- the candidate is a full chunk ahead and still inside the buffer
      have hcast : (plan.archivedUpto + OUTPUT_CHUNK_MAX_BYTES - stream.spoolStart : ℤ) =
          ((plan.archivedUpto + OUTPUT_CHUNK_MAX_BYTES - stream.spoolStart : ℕ) : ℤ) := by omega
      obtain ⟨next, hnext, hadv, hle⟩ := emitChunk_total hserver hversion hspool
        (c := plan.archivedUpto + OUTPUT_CHUNK_MAX_BYTES - stream.spoolStart) (by omega)
        (.inl (by omega))
      rw [hcast, hnext]
      exact ih (by omega) (by omega)
    · exact ⟨plan, rfl, hspool⟩

theorem archiveGap_total (hserver : source.server ≠ []) (hversion : 1 ≤ source.version)
    {tailStart fuel : ℕ} (htail : stream.spoolStart ≤ tailStart)
    (hsize : tailStart ≤ stream.spoolStart + stream.data.length)
    (hsplit : ¬ Splits stream.data (tailStart - stream.spoolStart))
    {plan : ChunkPlan} (hspool : stream.spoolStart ≤ plan.archivedUpto)
    (hfuel : tailStart - plan.archivedUpto ≤ fuel) :
    ∃ plan', archiveGap source stream tailStart fuel plan = .ok plan' := by
  induction fuel generalizing plan with
  | zero =>
    rw [archiveGap, if_neg (by omega)]
    exact ⟨plan, rfl⟩
  | succ fuel ih =>
    rw [archiveGap]
    split_ifs with hlt
    · have hcast : (tailStart - stream.spoolStart : ℤ) = ((tailStart - stream.spoolStart : ℕ) : ℤ) := by
        omega
      obtain ⟨next, hnext, hadv, hle⟩ := emitChunk_total hserver hversion hspool
        (c := tailStart - stream.spoolStart) (by omega) (.inr ⟨by omega, hsplit⟩)
      rw [hcast, hnext]
      exact ih (by omega) (by omega)
    · exact ⟨plan, rfl⟩

/-- **Planning returns** whenever no byte before the archive position has been trimmed. -/
theorem planChunks_total (hserver : source.server ≠ []) (hversion : 1 ≤ source.version)
    (hspool : stream.spoolStart ≤ stream.archivedUpto) {tailStart : ℕ}
    (htail : stream.spoolStart ≤ tailStart)
    (hsize : tailStart ≤ stream.spoolStart + stream.data.length)
    (hsplit : ¬ Splits stream.data (tailStart - stream.spoolStart)) (drawn : ℕ) :
    ∃ plan, planChunks source stream (stream.data.length + stream.spoolStart) tailStart drawn =
      .ok plan := by
  have htarget : archiveTarget (stream.data.length + stream.spoolStart) ≤
      stream.spoolStart + stream.data.length := by
    unfold archiveTarget OUTPUT_TAIL_MAX_BYTES ARCHIVE_MARGIN_CHARS
    split_ifs <;> omega
  obtain ⟨full, hfull, hspool'⟩ := archiveFull_total hserver hversion htarget
    (show stream.spoolStart ≤ (⟨[], stream.archivedUpto, stream.lastChunk, stream.sequence,
      drawn⟩ : ChunkPlan).archivedUpto from hspool) (Nat.sub_le _ _)
  simp only [planChunks, hfull, bind, Except.bind]
  split_ifs with hgap
  · exact archiveGap_total hserver hversion htail hsize hsplit hspool' (Nat.sub_le _ _)
  · exact ⟨full, rfl⟩

end Loops

end Lubko.Output
