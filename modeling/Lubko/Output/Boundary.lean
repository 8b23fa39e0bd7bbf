import Lubko.Lib.Bisect
import Lubko.Lib.Utf8
import Mathlib.Data.List.GetD

/-!
# Code-point boundaries

The helpers of `worker.py` that keep chunk ends and the live-tail head off the inside of a code
point, and the two searches that shorten a byte range until its decoded text fits a limit.

* `Splits` — an offset strictly inside a valid code point of the data.
* `not_splits_alignCodePointStart`, `splitCodePoint_eq_none_iff` — what the alignments achieve.
* `boundedSuffix_spec`, `boundedPrefix_spec` — what the searches return, whatever the bytes.
-/

namespace Lubko.Output

open Lubko.Lib

/-- `pg_safe_decode`. -/
def pgSafeDecode (data : List UInt8) : PyStr :=
  (decodeReplace data).map fun c => if c = 0 then replacement else c

/-- `_code_point_length`. -/
def codePointLength (lead : UInt8) : ℕ :=
  if 0xc2 ≤ lead.toNat ∧ lead.toNat ≤ 0xdf then 2
  else if 0xe0 ≤ lead.toNat ∧ lead.toNat ≤ 0xef then 3
  else if 0xf0 ≤ lead.toNat ∧ lead.toNat ≤ 0xf4 then 4
  else 0

/-- `_CODE_POINT_MIN_VALUE`. -/
def codePointMinValue (length : ℕ) : ℕ :=
  if length = 2 then 0x80 else if length = 3 then 0x800 else 0x10000

/-- `_code_point_scalar`. -/
def codePointScalar (lead : UInt8) (cont : List UInt8) (length : ℕ) : Option ℕ :=
  let leadMask := (1 <<< (7 - length)) - 1
  let cp := cont.foldl (fun cp byte => (cp <<< 6) ||| (byte.toNat &&& 0x3f))
    (lead.toNat &&& leadMask)
  if cp < codePointMinValue length then none else some cp

/-- `_valid_code_point_at`. -/
def validCodePointAt (data : List UInt8) (start length : ℕ) : Bool :=
  if length < 2 ∨ 4 < length then false
  else if data.length < start + length then false
  else if codePointLength (data.getD start 0) ≠ length then false
  else
    let cont := (data.take (start + length)).drop (start + 1)
    if cont.all isContinuation = false then false
    else
      match codePointScalar (data.getD start 0) cont length with
      | none => false
      | some cp => if 0x10ffff < cp then false else !(0xd800 ≤ cp && cp ≤ 0xdfff)

/-- The loop both alignments run: a valid code point strictly around `candidate`, as its start
and length. -/
def splitCodePoint (data : List UInt8) (candidate : ℕ) : Option (ℕ × ℕ) :=
  [1, 2, 3].findSome? fun leadBack =>
    if candidate < leadBack then none
    else
      let lead := candidate - leadBack
      let length := codePointLength (data.getD lead 0)
      if length = 0 ∨ length ≤ leadBack then none
      else if validCodePointAt data lead length then some (lead, length) else none

/-- `align_code_point_start`. -/
def alignCodePointStart (data : List UInt8) (candidate : ℤ) : ℕ :=
  if candidate ≤ 0 then 0
  else if data.length ≤ candidate then data.length
  else
    match splitCodePoint data candidate.toNat with
    | some (lead, length) => lead + length
    | none => candidate.toNat

/-- `align_code_point_end`. -/
def alignCodePointEnd (data : List UInt8) (candidate : ℤ) : ℕ :=
  if candidate ≤ 0 then 0
  else if data.length ≤ candidate then data.length
  else
    match splitCodePoint data candidate.toNat with
    | some (lead, _) => lead
    | none => candidate.toNat

/-- `_bounded_suffix`. -/
def boundedSuffix (raw : List UInt8) (limit : ℕ) : ℕ × PyStr :=
  let full := pgSafeDecode raw
  if full.utf8ByteLength ≤ limit then (0, full)
  else
    let boundaries := (List.range (raw.length + 1)).filter fun k : ℕ => alignCodePointEnd raw k = k
    let fits := fun mid => (pgSafeDecode (raw.drop (boundaries.getD mid 0))).utf8ByteLength ≤ limit
    let keep :=
      match bisectFirst (fun mid => fits mid) 0 boundaries.length none with
      | some mid => boundaries.getD mid 0
      | none => raw.length
    (keep, pgSafeDecode (raw.drop keep))

/-- `_bounded_prefix`. -/
def boundedPrefix (raw : List UInt8) (limit : ℕ) : ℕ × PyStr :=
  if raw = [] then (0, [])
  else
    let boundaries := (List.range' 1 raw.length).filter fun k : ℕ => alignCodePointEnd raw k = k
    let fits := fun mid => (pgSafeDecode (raw.take (boundaries.getD mid 0))).utf8ByteLength ≤ limit
    let stop :=
      match bisectLast (fun mid => fits mid) 0 boundaries.length none with
      | some mid => boundaries.getD mid 0
      | none => 1
    (stop, pgSafeDecode (raw.take stop))

/-! ## Valid code points -/

theorem validCodePointAt_bounds {data : List UInt8} {start length : ℕ}
    (h : validCodePointAt data start length = true) :
    2 ≤ length ∧ length ≤ 4 ∧ start + length ≤ data.length ∧
      codePointLength (data.getD start 0) = length ∧
      ∀ i, start < i → i < start + length → isContinuation (data.getD i 0) = true := by
  unfold validCodePointAt at h
  dsimp only at h
  split_ifs at h with h1 h2 h3 h4
  refine ⟨by omega, by omega, by omega, not_not.1 h3, fun i hlo hhi => ?_⟩
  rw [Bool.not_eq_false, List.all_eq_true] at h4
  apply h4
  have hi : i < data.length := by omega
  rw [List.getD_eq_getElem?_getD, List.getElem?_eq_getElem hi, List.mem_iff_getElem]
  refine ⟨i - (start + 1), by simp; omega, ?_⟩
  simp only [List.getElem_drop, List.getElem_take, Option.getD_some]
  congr 1
  omega

/-- A lead byte is no continuation byte. -/
theorem not_isContinuation_of_codePointLength {b : UInt8} (h : codePointLength b ≠ 0) :
    isContinuation b ≠ true := by
  intro hb
  simp only [isContinuation, Bool.and_eq_true, decide_eq_true_eq] at hb
  unfold codePointLength at h
  split_ifs at h <;> omega

/-- Validity only looks at the bytes of the code point. -/
theorem validCodePointAt_eq (data : List UInt8) (start length : ℕ) :
    validCodePointAt data start length =
      validCodePointAt ((data.drop start).take length) 0 length := by
  unfold validCodePointAt
  by_cases h1 : length < 2 ∨ 4 < length
  · simp only [if_pos h1]
  by_cases h2 : data.length < start + length
  · have h2' : ((data.drop start).take length).length < 0 + length := by
      simp
      omega
    simp only [if_neg h1, if_pos h2, if_pos h2']
  · have h2' : ¬ ((data.drop start).take length).length < 0 + length := by
      simp
      omega
    have hget : ((data.drop start).take length).getD 0 0 = data.getD start 0 := by
      rw [List.getD_eq_getElem?_getD, List.getD_eq_getElem?_getD, List.getElem?_take_of_lt (by omega),
        List.getElem?_drop, Nat.add_zero]
    have hcont : (((data.drop start).take length).take (0 + length)).drop (0 + 1) =
        (data.take (start + length)).drop (start + 1) := by
      rw [List.take_take, Nat.zero_add, Nat.zero_add, min_self, List.take_drop, List.drop_drop]
    simp only [if_neg h1, if_neg h2, if_neg h2', hget, hcont]

theorem validCodePointAt_drop (data : List UInt8) (a start length : ℕ) :
    validCodePointAt (data.drop a) start length = validCodePointAt data (a + start) length := by
  rw [validCodePointAt_eq, validCodePointAt_eq data, List.drop_drop]

/-- A window sees the code points that lie in it. -/
theorem validCodePointAt_window (data : List UInt8) {a m lead length : ℕ} (ha : a ≤ lead)
    (hm : lead + length ≤ m) : validCodePointAt ((data.take m).drop a) (lead - a) length =
      validCodePointAt data lead length := by
  have hslice : ((data.take m).drop lead).take length = (data.drop lead).take length := by
    rw [List.drop_take, List.take_take, min_eq_left (by omega)]
  rw [validCodePointAt_drop, Nat.add_sub_cancel' ha, validCodePointAt_eq, hslice,
    ← validCodePointAt_eq]

theorem validCodePointAt_of_take {data : List UInt8} {m start length : ℕ}
    (h : validCodePointAt (data.take m) start length = true) :
    validCodePointAt data start length = true := by
  have hbound := (validCodePointAt_bounds h).2.2.1
  rw [validCodePointAt_eq] at h ⊢
  have heq : ((data.take m).drop start).take length = (data.drop start).take length := by
    rw [List.drop_take, List.take_take, min_eq_left]
    simp at hbound
    omega
  rwa [heq] at h

/-! ## Offsets inside a code point -/

/-- The offset lies strictly inside a valid code point. -/
def Splits (data : List UInt8) (k : ℕ) : Prop :=
  ∃ lead length, lead < k ∧ k < lead + length ∧ validCodePointAt data lead length = true

theorem splitCodePoint_eq_some {data : List UInt8} {k lead length : ℕ}
    (h : splitCodePoint data k = some (lead, length)) :
    lead < k ∧ k < lead + length ∧ validCodePointAt data lead length = true := by
  obtain ⟨leadBack, hmem, hif⟩ := List.exists_of_findSome?_eq_some h
  have hpos : 0 < leadBack := by
    simp at hmem
    omega
  dsimp only at hif
  split_ifs at hif with h1 h2 h3
  obtain ⟨rfl, rfl⟩ := Prod.mk.inj (Option.some.inj hif)
  exact ⟨by omega, by omega, h3⟩

/-- The loop finds the code point whenever there is one: its start is at most three bytes back. -/
theorem splitCodePoint_eq_none_iff {data : List UInt8} {k : ℕ} :
    splitCodePoint data k = none ↔ ¬ Splits data k := by
  constructor
  · rintro h ⟨lead, length, hlo, hhi, hvalid⟩
    obtain ⟨hlen2, hlen4, -, hlead, -⟩ := validCodePointAt_bounds hvalid
    have hback := List.findSome?_eq_none_iff.1 h (k - lead) (by simp; omega)
    have hsub : k - (k - lead) = lead := by omega
    rw [if_neg (by omega)] at hback
    simp only [hsub, hlead, hvalid, if_true] at hback
    rw [if_neg (by omega)] at hback
    exact absurd hback (by simp)
  · intro h
    cases hs : splitCodePoint data k with
    | none => rfl
    | some r => exact absurd ⟨r.1, r.2, splitCodePoint_eq_some hs⟩ h

theorem not_splits_zero (data : List UInt8) : ¬ Splits data 0 := by
  rintro ⟨lead, length, hlo, -⟩
  omega

theorem not_splits_of_le {data : List UInt8} {k : ℕ} (h : data.length ≤ k) : ¬ Splits data k := by
  rintro ⟨lead, length, -, hhi, hvalid⟩
  have hbound := (validCodePointAt_bounds hvalid).2.2.1
  omega

/-- Two valid code points around one another's bytes are the same: a lead byte continues
nothing. -/
theorem valid_unique {data : List UInt8} {a b m n : ℕ} (ha : validCodePointAt data a m = true)
    (hb : validCodePointAt data b n = true) (hab : a < b + n) (hba : b < a + m) : a = b := by
  obtain ⟨hm, -, -, hleada, hconta⟩ := validCodePointAt_bounds ha
  obtain ⟨hn, -, -, hleadb, hcontb⟩ := validCodePointAt_bounds hb
  by_contra hne
  rcases lt_or_gt_of_ne hne with hlt | hgt
  · exact not_isContinuation_of_codePointLength (by omega) (hconta b hlt hba)
  · exact not_isContinuation_of_codePointLength (by omega) (hcontb a hgt hab)

/-- The end of a valid code point is a boundary. -/
theorem not_splits_end {data : List UInt8} {lead length : ℕ}
    (h : validCodePointAt data lead length = true) : ¬ Splits data (lead + length) := by
  rintro ⟨lead', length', hlo, hhi, hvalid⟩
  obtain rfl := valid_unique h hvalid (by omega) hlo
  have hlen := (validCodePointAt_bounds h).2.2.2.1
  have hlen' := (validCodePointAt_bounds hvalid).2.2.2.1
  omega

/-- A boundary of the data from a boundary on is a boundary of the whole. -/
theorem not_splits_add {data : List UInt8} {a k : ℕ} (ha : ¬ Splits data a)
    (hk : ¬ Splits (data.drop a) k) : ¬ Splits data (a + k) := by
  rintro ⟨lead, length, hlo, hhi, hvalid⟩
  by_cases hlead : a ≤ lead
  · refine hk ⟨lead - a, length, by omega, by omega, ?_⟩
    rwa [validCodePointAt_drop, Nat.add_sub_cancel' hlead]
  · exact ha ⟨lead, length, by omega, by omega, hvalid⟩

/-- Three bytes of context are enough to see a boundary. -/
theorem not_splits_of_context {data : List UInt8} {a k : ℕ} (hctx : a = 0 ∨ 3 ≤ k)
    (hk : ¬ Splits (data.drop a) k) : ¬ Splits data (a + k) := by
  rintro ⟨lead, length, hlo, hhi, hvalid⟩
  have hlen := (validCodePointAt_bounds hvalid).2.1
  refine hk ⟨lead - a, length, by omega, by omega, ?_⟩
  rwa [validCodePointAt_drop, Nat.add_sub_cancel' (by omega)]

/-- A slice sees no code point the data does not have. -/
theorem Splits.of_slice {data : List UInt8} {a m k : ℕ}
    (h : Splits ((data.take m).drop a) k) : Splits data (a + k) := by
  obtain ⟨lead, length, hlo, hhi, hvalid⟩ := h
  rw [validCodePointAt_drop] at hvalid
  exact ⟨a + lead, length, by omega, by omega, validCodePointAt_of_take hvalid⟩

/-! ## The alignments -/

/-- **The aligned head is a boundary** at or after the candidate, at most three bytes on. -/
theorem alignCodePointStart_spec (data : List UInt8) {k : ℕ} (hk : k ≤ data.length) :
    ¬ Splits data (alignCodePointStart data k) ∧ k ≤ alignCodePointStart data k ∧
      alignCodePointStart data k ≤ data.length := by
  unfold alignCodePointStart
  split_ifs with h1 h2
  · exact ⟨not_splits_zero data, by omega, by omega⟩
  · exact ⟨not_splits_of_le le_rfl, hk, le_rfl⟩
  · rw [Int.toNat_natCast]
    cases hs : splitCodePoint data k with
    | none => exact ⟨splitCodePoint_eq_none_iff.1 hs, le_rfl, hk⟩
    | some r =>
      obtain ⟨lead, length⟩ := r
      obtain ⟨hlo, hhi, hvalid⟩ := splitCodePoint_eq_some hs
      have hbound := (validCodePointAt_bounds hvalid).2.2.1
      exact ⟨not_splits_end hvalid, hhi.le, hbound⟩

/-- Inside a valid code point the aligned head is its end. -/
theorem alignCodePointStart_of_valid {data : List UInt8} {k lead length : ℕ}
    (hvalid : validCodePointAt data lead length = true) (hlo : lead < k) (hhi : k < lead + length) :
    alignCodePointStart data k = lead + length := by
  have hbound := (validCodePointAt_bounds hvalid).2.2.1
  unfold alignCodePointStart
  rw [if_neg (by omega), if_neg (by omega), Int.toNat_natCast]
  cases hs : splitCodePoint data k with
  | none => exact absurd ⟨lead, length, hlo, hhi, hvalid⟩ (splitCodePoint_eq_none_iff.1 hs)
  | some r =>
    obtain ⟨lead', length'⟩ := r
    obtain ⟨hlo', hhi', hvalid'⟩ := splitCodePoint_eq_some hs
    obtain rfl := valid_unique hvalid hvalid' (by omega) (by omega)
    rw [← (validCodePointAt_bounds hvalid).2.2.2.1, ← (validCodePointAt_bounds hvalid').2.2.2.1]

theorem alignCodePointStart_le (data : List UInt8) (k : ℕ) :
    alignCodePointStart data k ≤ k + 3 := by
  unfold alignCodePointStart
  split_ifs with h1 h2
  · omega
  · omega
  · rw [Int.toNat_natCast]
    cases hs : splitCodePoint data k with
    | none => exact Nat.le_add_right k 3
    | some r =>
      obtain ⟨lead, length⟩ := r
      obtain ⟨hlo, -, hvalid⟩ := splitCodePoint_eq_some hs
      have hlength := (validCodePointAt_bounds hvalid).2.1
      show lead + length ≤ k + 3
      omega

theorem alignCodePointStart_eq_self {data : List UInt8} {k : ℕ} (hk : k ≤ data.length)
    (hsplit : ¬ Splits data k) : alignCodePointStart data k = k := by
  unfold alignCodePointStart
  split_ifs with h1 h2
  · omega
  · omega
  · rw [Int.toNat_natCast, splitCodePoint_eq_none_iff.2 hsplit]

theorem alignCodePointEnd_le (data : List UInt8) {k : ℕ} (hk : k ≤ data.length) :
    alignCodePointEnd data k ≤ k := by
  unfold alignCodePointEnd
  split_ifs with h1 h2
  · omega
  · omega
  · rw [Int.toNat_natCast]
    cases hs : splitCodePoint data k with
    | none => exact le_rfl
    | some r =>
      obtain ⟨hlo, -, -⟩ := splitCodePoint_eq_some hs
      exact hlo.le

theorem le_alignCodePointEnd (data : List UInt8) {k : ℕ} (hk : k ≤ data.length) :
    k ≤ alignCodePointEnd data k + 3 := by
  unfold alignCodePointEnd
  split_ifs with h1 h2
  · omega
  · omega
  · rw [Int.toNat_natCast]
    cases hs : splitCodePoint data k with
    | none => exact Nat.le_add_right k 3
    | some r =>
      obtain ⟨lead, length⟩ := r
      obtain ⟨-, hhi, hvalid⟩ := splitCodePoint_eq_some hs
      have hlength := (validCodePointAt_bounds hvalid).2.1
      show k ≤ lead + 3
      omega

/-- A boundary stays where it is, and only a boundary does. -/
theorem alignCodePointEnd_eq_self_iff {data : List UInt8} {k : ℕ} (hk : k ≤ data.length) :
    alignCodePointEnd data k = k ↔ ¬ Splits data k := by
  unfold alignCodePointEnd
  split_ifs with h1 h2
  · obtain rfl : k = 0 := by omega
    exact iff_of_true rfl (not_splits_zero data)
  · obtain rfl : k = data.length := by omega
    exact iff_of_true rfl (not_splits_of_le le_rfl)
  · rw [Int.toNat_natCast, ← splitCodePoint_eq_none_iff]
    cases hs : splitCodePoint data k with
    | none => simp
    | some r =>
      obtain ⟨hlo, -, -⟩ := splitCodePoint_eq_some hs
      simp only [reduceCtorEq, iff_false]
      omega

/-- Inside a valid code point the aligned end is its start. -/
theorem alignCodePointEnd_of_valid {data : List UInt8} {k lead length : ℕ}
    (hvalid : validCodePointAt data lead length = true) (hlo : lead < k) (hhi : k < lead + length) :
    alignCodePointEnd data k = lead := by
  have hbound := (validCodePointAt_bounds hvalid).2.2.1
  unfold alignCodePointEnd
  rw [if_neg (by omega), if_neg (by omega), Int.toNat_natCast]
  cases hs : splitCodePoint data k with
  | none => exact absurd ⟨lead, length, hlo, hhi, hvalid⟩ (splitCodePoint_eq_none_iff.1 hs)
  | some r =>
    obtain ⟨lead', length'⟩ := r
    obtain ⟨hlo', hhi', hvalid'⟩ := splitCodePoint_eq_some hs
    have heq : lead' = lead := valid_unique hvalid' hvalid (by omega) (by omega)
    exact heq

/-- **A window is enough**: from a boundary or three bytes before the offset, up to three bytes
behind it or the end of the data. -/
theorem align_window {data : List UInt8} {a m k : ℕ} (hk : k ≤ data.length) (hak : a ≤ k)
    (hfrom : ¬ Splits data a ∨ a + 3 ≤ k) (hto : k + 3 ≤ m ∨ data.length ≤ m) :
    a + alignCodePointEnd ((data.take m).drop a) ((k - a : ℕ) : ℤ) = alignCodePointEnd data k ∧
      a + alignCodePointStart ((data.take m).drop a) ((k - a : ℕ) : ℤ) =
        alignCodePointStart data k := by
  have hlen : k - a ≤ ((data.take m).drop a).length := by
    rw [List.length_drop, List.length_take]
    omega
  by_cases hsplit : Splits data k
  · obtain ⟨lead, length, hlo, hhi, hvalid⟩ := hsplit
    obtain ⟨-, hfour, hbound, -, -⟩ := validCodePointAt_bounds hvalid
    have hlead : a ≤ lead := by
      rcases hfrom with hboundary | hfar
      · by_contra hlt
        exact hboundary ⟨lead, length, by omega, by omega, hvalid⟩
      · omega
    have hwindow : validCodePointAt ((data.take m).drop a) (lead - a) length = true :=
      (validCodePointAt_window data hlead (by omega)).trans hvalid
    rw [alignCodePointEnd_of_valid hvalid hlo hhi, alignCodePointStart_of_valid hvalid hlo hhi,
      alignCodePointEnd_of_valid hwindow (by omega) (by omega),
      alignCodePointStart_of_valid hwindow (by omega) (by omega)]
    omega
  · have hwindow : ¬ Splits ((data.take m).drop a) (k - a) := by
      intro h
      have hin := h.of_slice
      rw [Nat.add_sub_cancel' hak] at hin
      exact hsplit hin
    rw [(alignCodePointEnd_eq_self_iff hk).2 hsplit, alignCodePointStart_eq_self hk hsplit,
      (alignCodePointEnd_eq_self_iff hlen).2 hwindow, alignCodePointStart_eq_self hlen hwindow]
    omega

/-! ## The bounded searches -/

@[simp] theorem pgSafeDecode_nil : pgSafeDecode [] = [] := rfl

theorem utf8ByteLength_map_nul (s : PyStr) :
    s.utf8ByteLength ≤ (PyStr.utf8ByteLength (s.map fun c => if c = 0 then replacement else c)) := by
  induction s with
  | nil => simp
  | cons c s ih =>
    have hc : c.utf8Size ≤ CodePoint.utf8Size (if c = 0 then replacement else c) := by
      split_ifs with h
      · subst h
        decide
      · exact le_rfl
    rw [List.map_cons, PyStr.utf8ByteLength_cons, PyStr.utf8ByteLength_cons]
    omega

/-- A decoded range takes at least as many bytes as it was decoded from. -/
theorem length_le_pgSafeDecode (data : List UInt8) :
    data.length ≤ (pgSafeDecode data).utf8ByteLength :=
  (length_le_decodeReplace data).trans (utf8ByteLength_map_nul _)

theorem pgSafeDecode_singleton_le (b : UInt8) : (pgSafeDecode [b]).utf8ByteLength ≤ 4 := by
  rw [pgSafeDecode, decodeReplace_singleton, List.map_singleton, PyStr.utf8ByteLength_cons,
    PyStr.utf8ByteLength_nil]
  exact utf8Size_le _

theorem getD_boundaries {l : List ℕ} {p : ℕ → Bool} {i : ℕ} (hi : i < (l.filter p).length) :
    (l.filter p).getD i 0 ∈ l ∧ p ((l.filter p).getD i 0) = true := by
  rw [List.getD_eq_getElem?_getD, List.getElem?_eq_getElem hi, Option.getD_some]
  exact List.mem_filter.1 (List.getElem_mem hi)

/-- **The bounded suffix** starts at a boundary, is the decode of its range and fits. -/
theorem boundedSuffix_spec (raw : List UInt8) (limit : ℕ) :
    (boundedSuffix raw limit).1 ≤ raw.length ∧
      (boundedSuffix raw limit).2 = pgSafeDecode (raw.drop (boundedSuffix raw limit).1) ∧
      (boundedSuffix raw limit).2.utf8ByteLength ≤ limit ∧
      ¬ Splits raw (boundedSuffix raw limit).1 := by
  unfold boundedSuffix
  dsimp only
  split_ifs with hfull
  · exact ⟨Nat.zero_le _, rfl, hfull, not_splits_zero raw⟩
  · split
    next mid hmid =>
      obtain ⟨hfit, -, hlt⟩ := (bisectFirst_eq_some hmid).resolve_left (by simp)
      obtain ⟨hmem, halign⟩ := getD_boundaries (by simpa using hlt)
      have hle := Nat.lt_succ_iff.1 (List.mem_range.1 hmem)
      refine ⟨hle, rfl, by simpa using hfit, ?_⟩
      exact (alignCodePointEnd_eq_self_iff hle).1 (by simpa using halign)
    next => simpa using not_splits_of_le le_rfl

section Boundaries

variable {raw : List UInt8}

/-- The offsets `_bounded_suffix` searches, in order. -/
def boundaries (raw : List UInt8) : List ℕ :=
  (List.range (raw.length + 1)).filter fun k : ℕ => alignCodePointEnd raw k = k

/-- The test of the search. -/
def suffixFits (raw : List UInt8) (limit mid : ℕ) : Bool :=
  (pgSafeDecode (raw.drop ((boundaries raw).getD mid 0))).utf8ByteLength ≤ limit

theorem boundedSuffix_fst (raw : List UInt8) (limit : ℕ) :
    (boundedSuffix raw limit).1 =
      if (pgSafeDecode raw).utf8ByteLength ≤ limit then 0
      else ((bisectFirst (suffixFits raw limit) 0 (boundaries raw).length none).map
        fun mid => (boundaries raw).getD mid 0).getD raw.length := by
  unfold boundedSuffix
  dsimp only
  split_ifs
  · rfl
  · show (match bisectFirst (suffixFits raw limit) 0 (boundaries raw).length none with
      | some mid => (boundaries raw).getD mid 0
      | none => raw.length) = _
    cases bisectFirst (suffixFits raw limit) 0 (boundaries raw).length none <;> rfl

theorem pairwise_boundaries : (boundaries raw).Pairwise (· < ·) :=
  List.pairwise_lt_range.filter _

theorem mem_boundaries {k : ℕ} : k ∈ boundaries raw ↔ k ≤ raw.length ∧ ¬ Splits raw k := by
  rw [boundaries, List.mem_filter, List.mem_range, Nat.lt_succ_iff]
  refine and_congr_right fun hk => ?_
  rw [decide_eq_true_eq, alignCodePointEnd_eq_self_iff hk]

theorem exists_boundary (raw : List UInt8) {k : ℕ} (hk : k ≤ raw.length) (hsplit : ¬ Splits raw k) :
    ∃ j < (boundaries raw).length, (boundaries raw).getD j 0 = k := by
  obtain ⟨j, hj, hget⟩ := List.mem_iff_getElem.1 (mem_boundaries.2 ⟨hk, hsplit⟩)
  exact ⟨j, hj, (List.getD_eq_getElem _ _ hj).trans hget⟩

/-- In a sorted list, the elements from one on are those at its index and later. -/
theorem le_getD_iff {l : List ℕ} (hl : l.Pairwise (· < ·)) {i j : ℕ} (hi : i < l.length)
    (hj : j < l.length) : l.getD i 0 ≤ l.getD j 0 ↔ i ≤ j := by
  have hmono := List.pairwise_iff_getElem.1 hl
  rw [List.getD_eq_getElem _ _ hi, List.getD_eq_getElem _ _ hj]
  constructor
  · intro hle
    by_contra hlt
    have := hmono j i hj hi (not_le.1 hlt)
    omega
  · intro hij
    rcases Nat.lt_or_eq_of_le hij with hlt | rfl
    · exact (hmono i j hi hj hlt).le
    · exact le_rfl

/-- Where the texts that fit are those from some boundary on, the bounded suffix starts there. -/
theorem boundedSuffix_eq {limit m : ℕ} (hle : m ≤ raw.length) (hm : ¬ Splits raw m)
    (hfits : ∀ k ≤ raw.length, ¬ Splits raw k →
      ((pgSafeDecode (raw.drop k)).utf8ByteLength ≤ limit ↔ m ≤ k)) :
    (boundedSuffix raw limit).1 = m := by
  rw [boundedSuffix_fst]
  split_ifs with hfull
  · have hzero := (hfits 0 (Nat.zero_le _) (not_splits_zero raw)).1 (by simpa using hfull)
    exact (Nat.le_zero.1 hzero).symm
  · obtain ⟨j, hj, hget⟩ := exists_boundary raw hle hm
    have hbisect : bisectFirst (suffixFits raw limit) 0 (boundaries raw).length none = some j := by
      refine bisectFirst_of_iff (fun i _ hi => ?_) (Nat.zero_le j) (.inl (by omega))
      rw [Nat.zero_add] at hi
      have hmem : (boundaries raw).getD i 0 ∈ boundaries raw := by
        rw [List.getD_eq_getElem _ _ hi]
        exact List.getElem_mem hi
      obtain ⟨hbound, hsplit⟩ := mem_boundaries.1 hmem
      rw [suffixFits, decide_eq_true_eq, hfits _ hbound hsplit, ← hget]
      exact le_getD_iff pairwise_boundaries hj hi
    rw [hbisect]
    exact hget

theorem length_decodeFrom_le (skip : ℕ) (data : List UInt8) :
    (decodeFrom skip data).length ≤ data.length := by
  induction data generalizing skip with
  | nil => simp [decodeFrom]
  | cons b bs ih =>
    cases skip with
    | zero => simpa [decodeFrom] using ih _
    | succ skip => exact (ih skip).trans (Nat.le_succ _)

/-- A text takes at most four bytes for each byte it was decoded from. -/
theorem utf8ByteLength_pgSafeDecode_le (data : List UInt8) :
    (pgSafeDecode data).utf8ByteLength ≤ 4 * data.length := by
  have hsize : ∀ s : PyStr, s.utf8ByteLength ≤ 4 * s.length := by
    intro s
    induction s with
    | nil => simp
    | cons c s ih =>
      have hc := utf8Size_le c
      rw [PyStr.utf8ByteLength_cons, List.length_cons]
      omega
  have hlen := length_decodeFrom_le 0 data
  have htext := hsize (pgSafeDecode data)
  rw [pgSafeDecode, List.length_map, decodeReplace] at htext
  rw [pgSafeDecode, decodeReplace]
  omega

/-- The search finds a boundary: the text from the end on is empty. -/
theorem suffix_found (raw : List UInt8) (limit : ℕ) :
    (bisectFirst (suffixFits raw limit) 0 (boundaries raw).length none).isSome = true := by
  obtain ⟨last, hlast, hlastget⟩ := exists_boundary raw le_rfl (not_splits_of_le le_rfl)
  refine bisectFirst_of_last (by omega) ?_
  have hle : raw.length ≤ (boundaries raw).getD (0 + (boundaries raw).length - 1) 0 := by
    rw [← hlastget]
    exact (le_getD_iff pairwise_boundaries hlast (by omega)).2 (by omega)
  rw [suffixFits, List.drop_eq_nil_of_le hle, pgSafeDecode_nil]
  simp

/-- A bounded suffix that drops bytes at all keeps the last three. -/
theorem boundedSuffix_keeps {limit : ℕ} (hlimit : 28 ≤ limit)
    (hdrop : 0 < (boundedSuffix raw limit).1) : (boundedSuffix raw limit).1 + 3 ≤ raw.length := by
  rw [boundedSuffix_fst] at hdrop ⊢
  split_ifs at hdrop ⊢ with hfull
  · omega
  obtain ⟨i, hi⟩ := Option.isSome_iff_exists.1 (suffix_found raw limit)
  rw [hi, Option.map_some, Option.getD_some] at hdrop ⊢
  obtain ⟨hfits, -, hlt⟩ := (bisectFirst_eq_some hi).resolve_left (by simp)
  rw [Nat.zero_add] at hlt
  -- the first boundary is zero, so an earlier one was tried and failed
  obtain ⟨first, hfirst, hfirstget⟩ := exists_boundary raw (Nat.zero_le _)
    (not_splits_zero raw)
  have hi0 : i ≠ 0 := by
    rintro rfl
    have hle := (le_getD_iff pairwise_boundaries hlt hfirst).2 (Nat.zero_le first)
    omega
  have hprev := (bisectFirst_prev hi (.inl rfl)).resolve_left hi0
  rw [suffixFits, decide_eq_false_iff_not] at hprev
  have hfew := utf8ByteLength_pgSafeDecode_le (raw.drop ((boundaries raw).getD (i - 1) 0))
  rw [List.length_drop] at hfew
  -- and the next one is at most four bytes after that
  obtain ⟨hsplit, hge, hend⟩ := alignCodePointStart_spec raw
    (show (boundaries raw).getD (i - 1) 0 + 1 ≤ raw.length by omega)
  have hclose := alignCodePointStart_le raw ((boundaries raw).getD (i - 1) 0 + 1)
  obtain ⟨j, hj, hget⟩ := exists_boundary raw hend hsplit
  have hij : i - 1 < j := by
    by_contra hji
    have hle := (le_getD_iff pairwise_boundaries hj (by omega : i - 1 < (boundaries raw).length)).2
      (not_lt.1 hji)
    omega
  have hle := (le_getD_iff pairwise_boundaries hlt hj).2 (by omega)
  omega

end Boundaries

/-- **The bounded prefix** is not empty, is the decode of its range and fits. -/
theorem boundedPrefix_spec {raw : List UInt8} (hraw : raw ≠ []) {limit : ℕ} (hlimit : 4 ≤ limit) :
    0 < (boundedPrefix raw limit).1 ∧ (boundedPrefix raw limit).1 ≤ raw.length ∧
      (boundedPrefix raw limit).2 = pgSafeDecode (raw.take (boundedPrefix raw limit).1) ∧
      (boundedPrefix raw limit).2.utf8ByteLength ≤ limit := by
  unfold boundedPrefix
  dsimp only
  rw [if_neg hraw]
  split
  next mid hmid =>
    obtain ⟨hfit, -, hlt⟩ := (bisectLast_eq_some hmid).resolve_left (by simp)
    obtain ⟨hmem, -⟩ := getD_boundaries (by simpa using hlt)
    obtain ⟨hpos, hle⟩ := List.mem_range'_1.1 hmem
    exact ⟨hpos, by omega, rfl, by simpa using hfit⟩
  next =>
    obtain ⟨b, bs, rfl⟩ := List.exists_cons_of_ne_nil hraw
    refine ⟨one_pos, by simp, rfl, ?_⟩
    simpa using (pgSafeDecode_singleton_le b).trans hlimit

/-! ## Bytes that stand alone -/

theorem codePointLength_of_alone {b : UInt8} (h : sequenceLength b ≤ 1) : codePointLength b = 0 := by
  unfold sequenceLength at h
  unfold codePointLength
  split_ifs at h ⊢ <;> omega

/-- Data without lead bytes has a boundary everywhere. -/
theorem not_splits_of_alone {data : List UInt8} (h : ∀ b ∈ data, sequenceLength b ≤ 1) (k : ℕ) :
    ¬ Splits data k := by
  rintro ⟨lead, length, -, -, hvalid⟩
  obtain ⟨hlen, -, hbound, hlead, -⟩ := validCodePointAt_bounds hvalid
  have hlt : lead < data.length := by omega
  rw [List.getD_eq_getElem?_getD, List.getElem?_eq_getElem hlt, Option.getD_some,
    codePointLength_of_alone (h _ (List.getElem_mem hlt))] at hlead
  omega

/-- The bytes the text of a byte that stands alone takes. -/
def aloneSize (b : UInt8) : ℕ := if b.toNat = 0 ∨ 0x80 ≤ b.toNat then 3 else 1

theorem utf8ByteLength_of_alone {data : List UInt8} (h : ∀ b ∈ data, sequenceLength b ≤ 1) :
    (pgSafeDecode data).utf8ByteLength = (data.map aloneSize).sum := by
  rw [pgSafeDecode, decodeReplace_of_alone h, List.map_map, PyStr.utf8ByteLength, List.map_map]
  congr 1
  refine List.map_congr_left fun b hb => ?_
  have hlt := b.toNat_lt
  have hrepl : CodePoint.utf8Size replacement = 3 := by decide
  simp only [Function.comp_apply, aloneSize]
  by_cases hb80 : b.toNat < 0x80
  · have hval : (decodeAlone b).val = b.toNat := by
      rw [decodeAlone, if_pos hb80]
      exact Nat.mod_eq_of_lt (by omega)
    by_cases hb0 : b.toNat = 0
    · have hzero : decodeAlone b = 0 := Fin.ext (hval.trans hb0)
      rw [if_pos hzero, if_pos (.inl hb0), hrepl]
    · have hzero : decodeAlone b ≠ 0 := fun heq => hb0 (by rw [← hval, heq]; rfl)
      rw [if_neg hzero, if_neg (by omega), CodePoint.utf8Size, hval, if_pos hb80]
  · have hrep : decodeAlone b = replacement := if_neg hb80
    rw [if_neg (by rw [hrep]; decide), hrep, if_pos (.inr (not_lt.1 hb80)), hrepl]

/-- The head of a window of such bytes is the first one from which the text fits. -/
theorem boundedSuffix_of_alone {raw : List UInt8} (h : ∀ b ∈ raw, sequenceLength b ≤ 1)
    {limit m : ℕ} (hle : m ≤ raw.length)
    (hfits : ∀ k ≤ raw.length, ((raw.drop k).map aloneSize).sum ≤ limit ↔ m ≤ k) :
    (boundedSuffix raw limit).1 = m := by
  refine boundedSuffix_eq hle (not_splits_of_alone h m) fun k hk _ => ?_
  rw [utf8ByteLength_of_alone fun b hb => h b (List.mem_of_mem_drop hb)]
  exact hfits k hk

end Lubko.Output
