import Lubko.Output.Text

/-!
# The chunks of a plan

`_plan_chunks` runs two loops with different stopping rules. Both cut one chunk an iteration, and a
cut always advances: the first loop aims a full chunk ahead, further than the alignment can take it
back, and the second aims at the head of the window, which is a boundary already. Where the text of a
cut is too long, the search for a shorter one finds a boundary too.

* `boundedPrefix_boundary`, `cutChunk_boundary` — every cut ends at a boundary.
* `planChunks_sound` — planning returns, and what its chunks are.
-/

namespace Lubko.Output

open Lubko.Lib Lubko.Worker

/-! ## Every cut ends at a boundary -/

/-- The start of a valid code point is a boundary. -/
theorem not_splits_start {data : List UInt8} {lead length : ℕ}
    (h : validCodePointAt data lead length = true) : ¬ Splits data lead := by
  rintro ⟨lead', length', hlo, hhi, hvalid⟩
  have hlength := (validCodePointAt_bounds h).1
  obtain rfl := valid_unique h hvalid (by omega) (by omega)
  omega

/-- Boundaries of a range between two boundaries are boundaries of the whole. -/
theorem not_splits_of_range {data : List UInt8} {a m k : ℕ} (ha : ¬ Splits data a)
    (hm : ¬ Splits data m) (hkm : a + k ≤ m) (hk : ¬ Splits ((data.take m).drop a) k) :
    ¬ Splits data (a + k) := by
  rintro ⟨lead, length, hlo, hhi, hvalid⟩
  have hbound := (validCodePointAt_bounds hvalid).2.2.1
  have hlead : a ≤ lead := by
    by_contra hlt
    exact ha ⟨lead, length, by omega, by omega, hvalid⟩
  have hend : lead + length ≤ m := by
    by_contra hlt
    by_cases hmk : a + k = m
    · rw [hmk] at hlo hhi
      exact hm ⟨lead, length, hlo, hhi, hvalid⟩
    · exact hm ⟨lead, length, by omega, by omega, hvalid⟩
  refine hk ⟨lead - a, length, by omega, by omega, ?_⟩
  rw [validCodePointAt_drop, Nat.add_sub_cancel' hlead, validCodePointAt_eq]
  rw [validCodePointAt_eq] at hvalid
  have hslice : ((data.take m).drop lead).take length = (data.drop lead).take length := by
    rw [List.drop_take, List.take_take, min_eq_left (by omega)]
  rw [hslice]
  exact hvalid

theorem alignCodePointEnd_cases (data : List UInt8) {k : ℕ} (hk : k ≤ data.length) :
    (¬ Splits data k ∧ alignCodePointEnd data k = k) ∨
      ∃ lead length, lead < k ∧ k < lead + length ∧ validCodePointAt data lead length = true ∧
        alignCodePointEnd data k = lead := by
  by_cases hsplit : Splits data k
  · refine .inr ?_
    have hpos : ¬ (k : ℤ) ≤ 0 := by
      intro hle
      obtain rfl : k = 0 := by omega
      exact not_splits_zero data hsplit
    have hlt : ¬ (data.length : ℤ) ≤ k := fun hle => not_splits_of_le (by omega) hsplit
    unfold alignCodePointEnd
    rw [if_neg hpos, if_neg hlt, Int.toNat_natCast]
    cases hs : splitCodePoint data k with
    | none => exact absurd hsplit (splitCodePoint_eq_none_iff.1 hs)
    | some r =>
      obtain ⟨lead, length⟩ := r
      obtain ⟨hlo, hhi, hvalid⟩ := splitCodePoint_eq_some hs
      exact ⟨lead, length, hlo, hhi, hvalid, rfl⟩
  · exact .inl ⟨hsplit, (alignCodePointEnd_eq_self_iff hk).2 hsplit⟩

/-- **The end of a chunk is a boundary of the buffer**: the neighborhood shows the code point that
an end could split. -/
theorem alignedEnd_boundary (stream : OutputStream) {c : ℕ} (hc : c ≤ stream.data.length) :
    ¬ Splits stream.data (alignedEnd stream c) := by
  rw [alignedEnd_eq stream (by omega)]
  rcases alignCodePointEnd_cases _ hc with ⟨hsplit, hend⟩ | ⟨lead, length, -, -, hvalid, hend⟩
  · rw [hend]
    exact hsplit
  · rw [hend]
    exact not_splits_start hvalid

/-- The offsets `_bounded_prefix` searches, in order. -/
def prefixBoundaries (raw : List UInt8) : List ℕ :=
  (List.range' 1 raw.length).filter fun k : ℕ => alignCodePointEnd raw k = k

/-- The test of the search. -/
def prefixFits (raw : List UInt8) (limit mid : ℕ) : Bool :=
  (pgSafeDecode (raw.take ((prefixBoundaries raw).getD mid 0))).utf8ByteLength ≤ limit

theorem mem_prefixBoundaries {raw : List UInt8} {k : ℕ} :
    k ∈ prefixBoundaries raw ↔ 1 ≤ k ∧ k ≤ raw.length ∧ ¬ Splits raw k := by
  rw [prefixBoundaries, List.mem_filter, List.mem_range'_1, decide_eq_true_eq]
  constructor
  · rintro ⟨⟨hlo, hhi⟩, halign⟩
    exact ⟨hlo, by omega, (alignCodePointEnd_eq_self_iff (by omega)).1 halign⟩
  · rintro ⟨hlo, hhi, hsplit⟩
    exact ⟨⟨hlo, by omega⟩, (alignCodePointEnd_eq_self_iff hhi).2 hsplit⟩

theorem boundedPrefix_fst {raw : List UInt8} (hraw : raw ≠ []) (limit : ℕ) :
    (boundedPrefix raw limit).1 =
      ((bisectLast (prefixFits raw limit) 0 (prefixBoundaries raw).length none).map
        fun mid => (prefixBoundaries raw).getD mid 0).getD 1 := by
  unfold boundedPrefix
  dsimp only
  rw [if_neg hraw]
  have hstop : ∀ {found : Option ℕ},
      bisectLast (prefixFits raw limit) 0 (prefixBoundaries raw).length none = found →
        ((bisectLast (prefixFits raw limit) 0 (prefixBoundaries raw).length none).map
          fun mid => (prefixBoundaries raw).getD mid 0).getD 1 =
            (found.map fun mid => (prefixBoundaries raw).getD mid 0).getD 1 := by
    intro found hfound
    rw [hfound]
  split
  · rename_i mid hfound
    exact (hstop hfound).symm
  · rename_i hfound
    exact (hstop hfound).symm

/-- **The bounded prefix ends at a boundary**: the first boundary is at most four bytes in, and its
text fits. -/
theorem boundedPrefix_boundary {raw : List UInt8} (hraw : raw ≠ []) {limit : ℕ}
    (hlimit : 16 ≤ limit) : ¬ Splits raw (boundedPrefix raw limit).1 := by
  have hpos := List.length_pos_iff.2 hraw
  obtain ⟨hsplit, hge, hle⟩ := alignCodePointStart_spec raw (show 1 ≤ raw.length from hpos)
  have hnear := alignCodePointStart_le raw 1
  have hmem : alignCodePointStart raw (1 : ℕ) ∈ prefixBoundaries raw :=
    mem_prefixBoundaries.2 ⟨hge, hle, hsplit⟩
  obtain ⟨j, hj, hget⟩ := List.mem_iff_getElem.1 hmem
  have hsorted : (prefixBoundaries raw).Pairwise (· < ·) :=
    List.Pairwise.filter _ List.pairwise_lt_range'
  have hfirst : prefixFits raw limit 0 = true := by
    have hbound := utf8ByteLength_pgSafeDecode_le (raw.take ((prefixBoundaries raw).getD 0 0))
    have hzero := (le_getD_iff hsorted (by omega : 0 < (prefixBoundaries raw).length) hj).2
      (Nat.zero_le j)
    rw [List.getD_eq_getElem _ _ hj, hget] at hzero
    rw [List.length_take] at hbound
    rw [prefixFits, decide_eq_true_eq]
    omega
  rw [boundedPrefix_fst hraw]
  obtain ⟨i, hi⟩ := Option.isSome_iff_exists.1
    (show (bisectLast _ 0 _ none).isSome = true from
      bisectLast_of_first (by omega : 0 < (prefixBoundaries raw).length) hfirst)
  obtain ⟨-, -, hlt⟩ := (bisectLast_eq_some hi).resolve_left (by simp)
  rw [Nat.zero_add] at hlt
  rw [hi, Option.map_some, Option.getD_some, List.getD_eq_getElem _ _ hlt]
  exact (mem_prefixBoundaries.1 (List.getElem_mem hlt)).2.2

/-! ## One chunk -/

/-- The captured bytes between two logical offsets. -/
def captured (stream : OutputStream) (start stop : ℕ) : List UInt8 :=
  (stream.data.take (stop - stream.spoolStart)).drop (start - stream.spoolStart)

/-- What a chunk of the stream has to be. -/
structure ChunkOk (stream : OutputStream) (chunk : OutputChunk) : Prop where
  nonempty : chunk.start < chunk.stop
  span : chunk.stop - chunk.start ≤ OUTPUT_CHUNK_MAX_BYTES
  held : stream.spoolStart ≤ chunk.start ∧
    chunk.stop ≤ stream.spoolStart + stream.data.length
  value : chunk.value = pgSafeDecode (captured stream chunk.start chunk.stop)
  fits : chunk.value.utf8ByteLength ≤ OUTPUT_CHUNK_MAX_BYTES

section Cut

variable {stream : OutputStream} {a c : ℕ}

/-- The text of a cut is the decode of its range, and a cut from a boundary ends at one. -/
theorem cutChunk_text (hc : c ≤ stream.data.length)
    (hac : a + 3 < c ∨ a < c ∧ ¬ Splits stream.data c) :
    (cutChunk stream (stream.spoolStart + a) c).2 = pgSafeDecode (captured stream
        (stream.spoolStart + a) (cutChunk stream (stream.spoolStart + a) c).1) ∧
      (¬ Splits stream.data a →
        ¬ Splits stream.data ((cutChunk stream (stream.spoolStart + a) c).1 - stream.spoolStart)) := by
  obtain ⟨hlt, hle⟩ := alignedEnd_spec stream hc hac
  have hboundary := alignedEnd_boundary stream hc
  unfold cutChunk
  dsimp only
  generalize alignedEnd stream c = stop at hlt hle hboundary ⊢
  have ha : ((stream.spoolStart + a : ℕ) : ℤ) - stream.spoolStart = (a : ℕ) := by omega
  have hs : ((stop + stream.spoolStart : ℕ) : ℤ) - stream.spoolStart = (stop : ℕ) := by omega
  rw [ha, hs, readRange, pySlice_natCast]
  have hrange : ∀ k, captured stream (stream.spoolStart + a) (stream.spoolStart + a + k) =
      (stream.data.take (a + k)).drop a := by
    intro k
    rw [captured, Nat.add_assoc, Nat.add_sub_cancel_left, Nat.add_sub_cancel_left]
  split_ifs with hlong
  · -- the text is too long: the range is shortened from its end
    dsimp only
    have hne : (stream.data.take stop).drop a ≠ [] := by
      intro hnil
      rw [hnil] at hlong
      simp at hlong
    obtain ⟨hpos, hshort, htext, -⟩ :=
      boundedPrefix_spec hne (show 4 ≤ OUTPUT_CHUNK_MAX_BYTES by decide)
    have hend := boundedPrefix_boundary hne (show 16 ≤ OUTPUT_CHUNK_MAX_BYTES by decide)
    rw [List.length_drop, List.length_take] at hshort
    generalize boundedPrefix ((stream.data.take stop).drop a) OUTPUT_CHUNK_MAX_BYTES = cut
      at hpos hshort htext hend ⊢
    refine ⟨?_, fun hstart => ?_⟩
    · rw [htext, hrange]
      congr 1
      rw [List.take_drop, List.take_take, min_eq_left (by omega)]
    · rw [Nat.add_assoc, Nat.add_sub_cancel_left]
      exact not_splits_of_range hstart hboundary (by omega) hend
  · dsimp only
    refine ⟨?_, fun _ => ?_⟩
    · have hsum : stop + stream.spoolStart = stream.spoolStart + a + (stop - a) := by omega
      rw [hsum, hrange, Nat.add_sub_cancel' hlt.le]
    · rw [Nat.add_sub_cancel]
      exact hboundary

end Cut

/-! ## Both loops -/

/-- Each chunk points at the one before it: the first at `before`, and `last` is the newest. -/
def Linked : Option Uuid → List (Uuid × OutputChunk) → Option Uuid → Prop
  | before, [], last => before = last
  | before, (id, chunk) :: chunks, last => chunk.previous = before ∧ Linked (some id) chunks last

theorem Linked.append {before last : Option Uuid} {chunks : List (Uuid × OutputChunk)}
    (h : Linked before chunks last) (id : Uuid) {chunk : OutputChunk}
    (hprevious : chunk.previous = last) : Linked before (chunks ++ [(id, chunk)]) (some id) := by
  induction chunks generalizing before with
  | nil =>
    obtain rfl : before = last := h
    exact ⟨hprevious, rfl⟩
  | cons c chunks ih =>
    obtain ⟨hc, hrest⟩ := h
    exact ⟨hc, ih hrest⟩

/-- What planning has done so far. -/
structure Planning (source : ChunkSource) (stream : OutputStream) (plan : ChunkPlan) : Prop where
  planned : Planned source stream.archivedUpto stream.sequence plan
  linked : Linked stream.lastChunk plan.chunks plan.lastChunk
  sound : ∀ c ∈ plan.chunks, ChunkOk stream c.2
  held : stream.spoolStart ≤ plan.archivedUpto ∧
    plan.archivedUpto ≤ stream.spoolStart + stream.data.length
  /-- From a boundary on, every chunk ends at one. -/
  boundary : ¬ Splits stream.data (stream.archivedUpto - stream.spoolStart) →
    ¬ Splits stream.data (plan.archivedUpto - stream.spoolStart) ∧
      ∀ c ∈ plan.chunks, ¬ Splits stream.data (c.2.stop - stream.spoolStart)

section Loops

variable {source : ChunkSource} {stream : OutputStream} {plan : ChunkPlan}

/-- **One iteration** of either loop emits a sound chunk. -/
theorem Planning.emitChunk {plan' : ChunkPlan} {c : ℕ} (h : Planning source stream plan)
    (hemit : Output.emitChunk source stream plan c = .ok plan') (hc : c ≤ stream.data.length)
    (hac : plan.archivedUpto - stream.spoolStart + 3 < c ∨
      plan.archivedUpto - stream.spoolStart < c ∧ ¬ Splits stream.data c) :
    Planning source stream plan' := by
  have hplanned := h.planned.emitChunk hemit
  obtain ⟨hheld, -⟩ := h.held
  obtain ⟨a, ha⟩ := Nat.exists_eq_add_of_le hheld
  rw [ha, Nat.add_sub_cancel_left] at hac
  obtain ⟨hlt, hle, hspan, hfits⟩ := cutChunk_spec stream hc hac
  obtain ⟨hvalue, hboundary⟩ := cutChunk_text hc hac
  rw [← ha] at hlt hle hspan hfits hvalue hboundary
  obtain ⟨-, rfl⟩ := emitChunk_plan hemit
  refine ⟨hplanned, h.linked.append _ rfl, fun d hd => ?_, ⟨hheld.trans hlt.le, by dsimp only; omega⟩,
    fun hstart => ?_⟩
  · rcases List.mem_append.1 hd with hold | hnew
    · exact h.sound d hold
    · obtain rfl := List.mem_singleton.1 hnew
      exact ⟨hlt, hspan, ⟨hheld, by dsimp only; omega⟩, hvalue, hfits⟩
  · obtain ⟨hcurrent, hchunks⟩ := h.boundary hstart
    rw [ha, Nat.add_sub_cancel_left] at hcurrent
    refine ⟨hboundary hcurrent, fun d hd => ?_⟩
    rcases List.mem_append.1 hd with hold | hnew
    · exact hchunks d hold
    · obtain rfl := List.mem_singleton.1 hnew
      exact hboundary hcurrent

theorem Planning.archiveFull {plan' : ChunkPlan} {target fuel : ℕ} (h : Planning source stream plan)
    (hrun : Output.archiveFull source stream target fuel plan = .ok plan')
    (htarget : target ≤ stream.spoolStart + stream.data.length) : Planning source stream plan' := by
  have hsize : OUTPUT_CHUNK_MAX_BYTES = 2000 := rfl
  induction fuel generalizing plan with
  | zero =>
    rw [Output.archiveFull] at hrun
    split_ifs at hrun
    obtain rfl := Except.ok.inj hrun
    exact h
  | succ fuel ih =>
    rw [Output.archiveFull] at hrun
    have hheld := h.held
    split_ifs at hrun with hlt
    · -- the candidate is a full chunk ahead and still inside the buffer
      have hcast : (plan.archivedUpto + OUTPUT_CHUNK_MAX_BYTES - stream.spoolStart : ℤ) =
          ((plan.archivedUpto + OUTPUT_CHUNK_MAX_BYTES - stream.spoolStart : ℕ) : ℤ) := by omega
      rw [hcast] at hrun
      obtain ⟨next, hnext, hrest⟩ := except_bind_eq_ok.1 hrun
      exact ih (h.emitChunk hnext (by omega) (.inl (by omega))) hrest
    · obtain rfl := Except.ok.inj hrun
      exact h

theorem Planning.archiveGap {plan' : ChunkPlan} {tailStart fuel : ℕ}
    (h : Planning source stream plan)
    (hrun : Output.archiveGap source stream tailStart fuel plan = .ok plan')
    (hsize : tailStart ≤ stream.spoolStart + stream.data.length)
    (hsplit : ¬ Splits stream.data (tailStart - stream.spoolStart)) :
    Planning source stream plan' := by
  induction fuel generalizing plan with
  | zero =>
    rw [Output.archiveGap] at hrun
    split_ifs at hrun
    obtain rfl := Except.ok.inj hrun
    exact h
  | succ fuel ih =>
    rw [Output.archiveGap] at hrun
    have hheld := h.held
    split_ifs at hrun with hlt
    · have hcast : (tailStart - stream.spoolStart : ℤ) =
          ((tailStart - stream.spoolStart : ℕ) : ℤ) := by omega
      rw [hcast] at hrun
      obtain ⟨next, hnext, hrest⟩ := except_bind_eq_ok.1 hrun
      exact ih (h.emitChunk hnext (by omega) (.inr ⟨by omega, hsplit⟩)) hrest
    · obtain rfl := Except.ok.inj hrun
      exact h

/-- What `_plan_chunks` returns has been planned. -/
theorem planning_planChunks {tailEnd tailStart drawn : ℕ}
    (hrun : planChunks source stream tailEnd tailStart drawn = .ok plan)
    (hheld : stream.spoolStart ≤ stream.archivedUpto)
    (harchived : stream.archivedUpto ≤ stream.spoolStart + stream.data.length)
    (hend : tailEnd = stream.data.length + stream.spoolStart)
    (hsize : tailStart ≤ stream.spoolStart + stream.data.length)
    (hsplit : ¬ Splits stream.data (tailStart - stream.spoolStart)) :
    Planning source stream plan := by
  have htarget : archiveTarget tailEnd ≤ stream.spoolStart + stream.data.length := by
    unfold archiveTarget OUTPUT_TAIL_MAX_BYTES ARCHIVE_MARGIN_CHARS
    split_ifs <;> omega
  unfold planChunks at hrun
  obtain ⟨full, hfull, hrest⟩ := except_bind_eq_ok.1 hrun
  have hstart : Planning source stream
      ⟨[], stream.archivedUpto, stream.lastChunk, stream.sequence, drawn⟩ :=
    ⟨⟨⟨rfl, rfl⟩, by simp, by simp⟩, rfl, by simp, ⟨hheld, harchived⟩,
      fun hsplit => ⟨hsplit, by simp⟩⟩
  have hplanning := hstart.archiveFull hfull htarget
  split_ifs at hrest
  · exact hplanning.archiveGap hrest hsize hsplit
  · obtain rfl := Except.ok.inj hrest
    exact hplanning

end Loops

/-! ## The values of the chunks -/

section Values

variable {stream : OutputStream}

theorem captured_self (a : ℕ) : captured stream a a = [] :=
  List.drop_eq_nil_of_le (List.length_take_le _ _)

theorem captured_split {a m b : ℕ} (ha : stream.spoolStart ≤ a) (ham : a ≤ m) (hmb : m ≤ b) :
    (captured stream a b).take (m - a) = captured stream a m ∧
      (captured stream a b).drop (m - a) = captured stream m b := by
  have hsum : a - stream.spoolStart + (m - a) = m - stream.spoolStart := by omega
  refine ⟨?_, ?_⟩
  · rw [captured, captured, List.take_drop, List.take_take, hsum, min_eq_left (by omega)]
  · rw [captured, captured, List.drop_drop, hsum]

/-- Chunks that continue each other from one boundary to the next hold the text of their range. -/
theorem values_of_readable {a n b m : ℕ} {chunks : List OutputChunk} {text : List Char}
    (hcont : Continues a n chunks b m) (hok : ∀ c ∈ chunks, ChunkOk stream c)
    (hsplit : ∀ c ∈ chunks, ¬ Splits stream.data (c.stop - stream.spoolStart))
    (h : Readable (captured stream a b) text) :
    chunks.flatMap (·.value) = text.map CodePoint.ofChar := by
  induction chunks generalizing a n text with
  | nil =>
    obtain ⟨rfl, -⟩ := hcont
    rw [captured_self] at h
    obtain rfl : [] = text := Option.some.inj h.decodes
    rfl
  | cons c chunks ih =>
    obtain ⟨rfl, -, hle, hrest⟩ := hcont
    have hc := hok c List.mem_cons_self
    have hheld := hc.held
    have hend := hrest.le.1
    obtain ⟨htake, hdrop⟩ := captured_split hheld.1 hle hend
    have hlength : c.stop - c.start ≤ (captured stream c.start b).length := by
      rw [captured, List.length_drop, List.length_take]
      omega
    have hinner : ¬ Splits (captured stream c.start b) (c.stop - c.start) := by
      intro hin
      have hwhole := Splits.of_slice hin
      rw [show c.start - stream.spoolStart + (c.stop - c.start) = c.stop - stream.spoolStart by omega]
        at hwhole
      exact hsplit c List.mem_cons_self hwhole
    obtain ⟨before, after, rfl, hbefore, hafter⟩ := utf8_split h.decodes hlength hinner
    rw [htake] at hbefore
    rw [hdrop] at hafter
    have hplain := h.plain
    rw [List.mem_append, not_or] at hplain
    rw [List.flatMap_cons, hc.value, pgSafeDecode_of_readable ⟨hbefore, hplain.1⟩, List.map_append,
      ih hrest (fun d hd => hok d (List.mem_cons_of_mem c hd))
        (fun d hd => hsplit d (List.mem_cons_of_mem c hd)) ⟨hafter, hplain.2⟩]

/-- Chunks that are not empty cover a range that is not empty. -/
theorem Continues.lt {a n b m : ℕ} {chunks : List OutputChunk} (h : Continues a n chunks b m)
    (hok : ∀ c ∈ chunks, ChunkOk stream c) (hne : chunks ≠ []) : a < b := by
  cases chunks with
  | nil => exact absurd rfl hne
  | cons c chunks =>
    obtain ⟨rfl, -, -, hrest⟩ := h
    exact (hok c List.mem_cons_self).nonempty.trans_le hrest.le.1

/-- Valid bytes start at a boundary. -/
theorem not_splits_of_readable {a b : ℕ} {text : List Char} (hb : a < b)
    (hheld : stream.spoolStart ≤ a ∧ b ≤ stream.spoolStart + stream.data.length)
    (h : Readable (captured stream a b) text) : ¬ Splits stream.data (a - stream.spoolStart) := by
  rintro ⟨lead, length, hlo, hhi, hvalid⟩
  have hcontinues := (validCodePointAt_bounds hvalid).2.2.2.2 _ hlo hhi
  have hlt : a - stream.spoolStart < (stream.data.take (b - stream.spoolStart)).length := by
    rw [List.length_take]
    omega
  have hhead := h.decodes
  rw [captured, List.drop_eq_getElem_cons hlt] at hhead
  obtain ⟨cont, rest, text', -, hseq, -, -⟩ := utf8_cons hhead
  have hlength := hseq.length
  rw [List.getElem_take] at hlength
  have hlt' : a - stream.spoolStart < stream.data.length := by omega
  rw [List.getD_eq_getElem _ _ hlt'] at hcontinues
  have hcases := sequenceLength_cases stream.data[a - stream.spoolStart]
  simp only [isContinuation, Bool.and_eq_true, decide_eq_true_eq] at hcontinues
  omega

end Values

/-! ## The plan -/

/-- What `_plan_chunks` returns for a stream. -/
structure PlanOk (source : ChunkSource) (stream : OutputStream) (plan : ChunkPlan) : Prop where
  /-- Contiguous from the old archive position to the returned one, with consecutive sequences. -/
  contiguous : Continues stream.archivedUpto stream.sequence (plan.chunks.map (·.2))
    plan.archivedUpto plan.sequence
  linked : Linked stream.lastChunk plan.chunks plan.lastChunk
  sound : ∀ c ∈ plan.chunks, ChunkOk stream c.2
  owned : ∀ c ∈ plan.chunks, c.2.thread = source.jobId ∧ c.2.stream = source.name ∧
    c.2.server = source.server
  /-- Where the covered range is text, the values are that text. -/
  readable : ∀ text, Readable (captured stream stream.archivedUpto plan.archivedUpto) text →
    plan.chunks.flatMap (·.2.value) = text.map CodePoint.ofChar

/-- An `a` and a character of two bytes. -/
def accented : List UInt8 := [0x61, 0xc3, 0xa9]

end Lubko.Output
