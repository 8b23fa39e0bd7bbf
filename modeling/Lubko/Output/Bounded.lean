import Lubko.Lib.Utf8Cut
import Lubko.Output.Alignment

/-!
# How much the bounded searches keep

`_bounded_prefix` and `_bounded_suffix` search the code-point boundaries by bisection. Bisection
finds the last or the first boundary whose text fits when the size of the text grows with the range.

Prefixes grow: behind a boundary the decoder goes on with what it was reading, one replacement
character for all of it, or starts anew. Suffixes do not: a sequence of four bytes cut short after
three decodes to one replacement character, and from its second byte on to two.

* `decodedSize_take_le`, `decodedSize_drop` — the size of the text on both sides of a cut.
* `boundedPrefix_maximal` — the prefix is the longest one that fits.
* `boundedSuffix_maximal_iff` — the suffix is, unless bisection is misled by such a sequence.
-/

namespace Lubko.Output

open Lubko.Lib

/-- The bytes the text of a range takes. -/
def decodedSize (data : List UInt8) : ℕ := (pgSafeDecode data).utf8ByteLength

/-! ## The size of a text, unit by unit -/

/-- The bytes the character of the first unit takes. -/
def unitSize (b : UInt8) (bs : List UInt8) : ℕ :=
  CodePoint.utf8Size (if (decodeUnit b bs).2 = 0 then replacement else (decodeUnit b bs).2)

@[simp] theorem decodedSize_nil : decodedSize [] = 0 := rfl

theorem decodedSize_cons (b : UInt8) (bs : List UInt8) : decodedSize (b :: bs) =
    unitSize b bs + decodedSize (bs.drop ((decodeUnit b bs).1 - 1)) := by
  rw [decodedSize, pgSafeDecode, decodeReplace_cons, List.map_cons, PyStr.utf8ByteLength_cons]
  rfl

theorem unitSize_le (b : UInt8) (bs : List UInt8) : unitSize b bs ≤ 4 := utf8Size_le _

theorem unitSize_replaced {b : UInt8} {bs : List UInt8} (h : (decodeUnit b bs).2 = replacement) :
    unitSize b bs = 3 := by
  rw [unitSize, h]
  decide

/-- Bytes that continue no sequence are replaced one by one. -/
theorem decodedSize_continuations {conts : List UInt8} (h : ∀ c ∈ conts, isContinuation c = true)
    (rest : List UInt8) : decodedSize (conts ++ rest) = 3 * conts.length + decodedSize rest := by
  induction conts with
  | nil => simp
  | cons c conts ih =>
    have hzero := sequenceLength_of_continuation (h c List.mem_cons_self)
    have hunit : decodeUnit c (conts ++ rest) = (1, replacement) := by simp [decodeUnit, hzero]
    have hih := ih fun d hd => h d (List.mem_cons_of_mem c hd)
    rw [List.cons_append, decodedSize_cons, unitSize_replaced (by rw [hunit]), hunit,
      Nat.sub_self, List.drop_zero, hih, List.length_cons]
    omega

/-- Offsets inside a complete sequence behind the first unit. -/
theorem InsideCodePoint.of_drop {data : List UInt8} {n k : ℕ}
    (h : InsideCodePoint (data.drop n) k) : InsideCodePoint data (n + k) := by
  obtain ⟨before, lead, cont, rest, hdata, hseq, hlo, hhi⟩ := h
  have hle : n ≤ data.length := by
    by_contra hlt
    rw [List.drop_eq_nil_of_le (by omega)] at hdata
    have hlength := congrArg List.length hdata
    simp at hlength
  have hlength : (data.take n).length = n := List.length_take_of_le hle
  refine ⟨data.take n ++ before, lead, cont, rest, ?_, hseq, ?_, ?_⟩
  · rw [List.append_assoc, ← hdata, List.take_append_drop]
  · rw [List.length_append, hlength]
    omega
  · rw [List.length_append, hlength]
    omega

/-- The bytes of a complete first unit have no boundary inside. -/
theorem InsideCodePoint.of_unit {b : UInt8} {cont rest : List UInt8} (hseq : IsSequence b cont)
    {k : ℕ} (hpos : 0 < k) (hlt : k < cont.length + 1) :
    InsideCodePoint (b :: (cont ++ rest)) k :=
  ⟨[], b, cont, rest, rfl, hseq, hpos, by rw [List.length_nil]; omega⟩

/-- Boundaries behind the first unit. -/
theorem not_inside_behind {b : UInt8} {bs : List UInt8} {i : ℕ}
    (h : ¬ InsideCodePoint (b :: bs) ((decodeUnit b bs).1 + i)) :
    ¬ InsideCodePoint (bs.drop ((decodeUnit b bs).1 - 1)) i := by
  intro hin
  have hpos := decodeUnit_pos b bs
  have hdrop : (b :: bs).drop (decodeUnit b bs).1 = bs.drop ((decodeUnit b bs).1 - 1) :=
    List.drop_cons hpos
  rw [← hdrop] at hin
  exact h hin.of_drop

/-- A boundary before the end of the first unit is in a sequence cut short. -/
theorem cut_of_not_inside {b : UInt8} {bs : List UInt8} {j : ℕ}
    (h : ¬ InsideCodePoint (b :: bs) (j + 1)) (hlt : j + 1 < (decodeUnit b bs).1) :
    j < (continuationRun b bs).length ∧
      (continuationRun b bs).length + 1 < sequenceLength b ∧
      decodeUnit b bs = ((continuationRun b bs).length + 1, replacement) := by
  rcases decodeUnit_cases b bs with ⟨cont, rest, rfl, hseq, hunit⟩ | ⟨-, hunit⟩ | ⟨hshort, hunit⟩
  · exact absurd (InsideCodePoint.of_unit hseq (Nat.succ_pos j) (by omega)) h
  · rw [hunit] at hlt
    dsimp only at hlt
    omega
  · rw [hunit] at hlt
    dsimp only at hlt
    exact ⟨by omega, hshort, hunit⟩

/-! ## Prefixes -/

/-- **A prefix that ends at a boundary takes no more than the whole.** -/
theorem decodedSize_take_le {data : List UInt8} {k : ℕ} (h : ¬ InsideCodePoint data k) :
    decodedSize (data.take k) ≤ decodedSize data := by
  induction data using unit_induction generalizing k with
  | nil => simp
  | cons b bs ih =>
    cases k with
    | zero => simp
    | succ j =>
      rw [List.take_succ_cons, decodedSize_cons, decodedSize_cons]
      by_cases hbehind : (decodeUnit b bs).1 ≤ j + 1
      · -- the first unit is the same, and the cut is in what follows it
        have hunit : decodeUnit b (bs.take j) = decodeUnit b bs := by
          rw [decodeUnit_take, if_pos hbehind]
        obtain ⟨i, hi⟩ := Nat.exists_eq_add_of_le hbehind
        have hrest : (bs.take j).drop ((decodeUnit b bs).1 - 1) =
            (bs.drop ((decodeUnit b bs).1 - 1)).take i := by
          have hpos := decodeUnit_pos b bs
          rw [List.drop_take]
          congr 1
          omega
        rw [hi] at h
        rw [unitSize, unitSize, hunit, hrest]
        exact Nat.add_le_add_left (ih (not_inside_behind h)) _
      · -- the cut is in a sequence cut short, and so is the sequence
        obtain ⟨-, -, hunit⟩ := cut_of_not_inside h (not_le.1 hbehind)
        have hcut : decodeUnit b (bs.take j) = (j + 1, replacement) := by
          rw [decodeUnit_take, if_neg hbehind]
        have hrest : (bs.take j).drop j = [] := List.drop_eq_nil_of_le (List.length_take_le j bs)
        rw [unitSize_replaced (by rw [hcut]), unitSize_replaced (by rw [hunit]), hcut,
          Nat.add_sub_cancel, hrest, decodedSize_nil]
        omega

/-! ## Suffixes -/

/-- A sequence of four bytes that stops after its third one: the lead, two bytes that continue it,
and no third byte that does. -/
def cutShort (data : List UInt8) (start : ℕ) : Bool :=
  match data.drop start with
  | lead :: b :: c :: rest =>
    sequenceLength lead = 4 && isSecond lead b && isContinuation c &&
      !(rest.head?.any isContinuation)
  | _ => false

theorem cutShort_drop (data : List UInt8) (n start : ℕ) :
    cutShort (data.drop n) start = cutShort data (n + start) := by
  rw [cutShort, cutShort, List.drop_drop]

/-- A unit with two bytes behind its lead, cut short. -/
theorem cutShort_of_run {b : UInt8} {bs : List UInt8}
    (hshort : (continuationRun b bs).length + 1 < sequenceLength b)
    (htwo : 2 ≤ (continuationRun b bs).length) :
    (continuationRun b bs).length = 2 ∧ cutShort (b :: bs) 0 = true := by
  have hcases := sequenceLength_cases b
  have hlength : (continuationRun b bs).length = 2 := by omega
  have hfour : sequenceLength b = 4 := by omega
  refine ⟨hlength, ?_⟩
  rcases bs with _ | ⟨c, _ | ⟨d, ds⟩⟩
  · simp at htwo
  · rw [continuationRun_cons] at htwo
    split_ifs at htwo <;> simp at htwo
  · rw [continuationRun_cons] at hlength
    split_ifs at hlength with hsecond
    · rw [List.takeWhile_cons] at hlength
      split_ifs at hlength with hthird
      · have hend : ds.head?.any isContinuation = false := by
          cases ds with
          | nil => rfl
          | cons e es =>
            rw [List.takeWhile_cons] at hlength
            split_ifs at hlength with hfourth
            · simp at hlength
            · simpa using hfourth
        simp [cutShort, hfour, hsecond, hthird, hend]
      · simp at hlength

/-- **A suffix from a boundary on takes no more than the whole**, unless it starts with the second
byte of a sequence cut short. -/
theorem decodedSize_drop {data : List UInt8} {k : ℕ} (h : ¬ InsideCodePoint data k) :
    decodedSize (data.drop k) ≤ decodedSize data ∨
      ∃ start, k = start + 1 ∧ cutShort data start = true := by
  induction data using unit_induction generalizing k with
  | nil => exact .inl (by simp)
  | cons b bs ih =>
    cases k with
    | zero => exact .inl (by simp)
    | succ j =>
      by_cases hbehind : (decodeUnit b bs).1 ≤ j + 1
      · have hpos := decodeUnit_pos b bs
        obtain ⟨i, hi⟩ := Nat.exists_eq_add_of_le hbehind
        have hdrop : (b :: bs).drop (decodeUnit b bs).1 = bs.drop ((decodeUnit b bs).1 - 1) :=
          List.drop_cons hpos
        rw [hi] at h
        rw [hi, ← List.drop_drop, hdrop]
        rcases ih (not_inside_behind h) with hle | ⟨start, rfl, hcut⟩
        · rw [decodedSize_cons]
          exact .inl (hle.trans (Nat.le_add_left _ _))
        · rw [← hdrop, cutShort_drop] at hcut
          exact .inr ⟨_, (Nat.add_assoc _ _ _).symm, hcut⟩
      · -- what is left of the run is replaced byte by byte
        obtain ⟨hj, hshort, hunit⟩ := cut_of_not_inside h (not_le.1 hbehind)
        obtain ⟨rest, hrest⟩ := continuationRun_prefix b bs
        have hdrop : ∀ i ≤ (continuationRun b bs).length,
            bs.drop i = (continuationRun b bs).drop i ++ rest := fun i hi =>
          (congrArg (List.drop i) hrest).symm.trans (List.drop_append_of_le_length hi)
        have hleft : decodedSize ((b :: bs).drop (j + 1)) =
            3 * ((continuationRun b bs).length - j) + decodedSize rest := by
          have hconts : ∀ c ∈ (continuationRun b bs).drop j, isContinuation c = true :=
            fun c hc => isContinuation_of_mem_run (List.mem_of_mem_drop hc)
          rw [List.drop_succ_cons, hdrop j hj.le, decodedSize_continuations hconts,
            List.length_drop]
        have hwhole : decodedSize (b :: bs) = 3 + decodedSize rest := by
          rw [decodedSize_cons, unitSize_replaced (by rw [hunit]), hunit, Nat.add_sub_cancel,
            hdrop _ le_rfl, List.drop_length, List.nil_append]
        by_cases htwo : 2 ≤ (continuationRun b bs).length
        · obtain ⟨hlength, hcut⟩ := cutShort_of_run hshort htwo
          rcases Nat.eq_zero_or_pos j with rfl | hpos
          · exact .inr ⟨0, rfl, hcut⟩
          · exact .inl (by omega)
        · exact .inl (by omega)

/-! ## The longest prefix -/

/-- The longest range from the start up to a boundary whose text fits. -/
structure GreatestPrefix (raw : List UInt8) (limit : ℕ) (cut : ℕ × PyStr) : Prop where
  pos : 1 ≤ cut.1
  le : cut.1 ≤ raw.length
  boundary : ¬ InsideScalar raw cut.1
  text : cut.2 = pgSafeDecode (raw.take cut.1)
  fits : cut.2.utf8ByteLength ≤ limit
  greatest : ∀ k : ℕ, cut.1 < k → k ≤ raw.length → ¬ InsideScalar raw k →
    limit < (pgSafeDecode (raw.take k)).utf8ByteLength

/-- The prefix a scan of all boundaries finds. -/
def scanPrefix (raw : List UInt8) (limit : ℕ) : ℕ × PyStr :=
  let stop := (List.range' 1 raw.length).foldl (fun stop k : ℕ =>
    if alignCodePointEnd raw k = k ∧ (pgSafeDecode (raw.take k)).utf8ByteLength ≤ limit then k
    else stop) 1
  (stop, pgSafeDecode (raw.take stop))

section Prefix

variable {raw : List UInt8} {limit : ℕ}

/-- The text of the prefix at the first boundary fits any limit of four bytes or more. -/
theorem exists_fitting_prefix (hraw : raw ≠ []) (hlimit : 4 ≤ limit) :
    ∃ k ∈ prefixBoundaries raw, decodedSize (raw.take k) ≤ limit := by
  obtain ⟨b, bs, rfl⟩ := List.exists_cons_of_ne_nil hraw
  have hone : 1 ≤ (b :: bs).length := by simp
  obtain ⟨hsplit, hge, hle⟩ := alignCodePointStart_spec (b :: bs) hone
  refine ⟨alignCodePointStart (b :: bs) (1 : ℕ), mem_prefixBoundaries.2 ⟨hge, hle, hsplit⟩, ?_⟩
  by_cases hinside : Splits (b :: bs) 1
  · -- the first boundary is the end of a code point
    obtain ⟨lead, length, hlo, hhi, hvalid⟩ := hinside
    obtain rfl : lead = 0 := by omega
    rw [alignCodePointStart_of_valid hvalid hlo hhi, Nat.zero_add]
    obtain ⟨-, hbound, c, hc⟩ := validCodePointAt_iff.1 hvalid
    rw [List.drop_zero] at hc
    rw [decodedSize, pgSafeDecode, decodeReplace_of_utf8 hc, List.map_cons, List.map_cons,
      List.map_nil, List.map_nil, PyStr.utf8ByteLength_cons, PyStr.utf8ByteLength_nil]
    exact (utf8Size_le _).trans hlimit
  · rw [alignCodePointStart_eq_self hone hinside]
    exact (pgSafeDecode_singleton_le b).trans hlimit

theorem exists_greatest_prefix (hraw : raw ≠ []) (hlimit : 4 ≤ limit) :
    ∃ m ∈ prefixBoundaries raw, decodedSize (raw.take m) ≤ limit ∧
      ∀ k ∈ prefixBoundaries raw, decodedSize (raw.take k) ≤ limit → k ≤ m := by
  obtain ⟨first, hfirst, hfits⟩ := exists_fitting_prefix hraw hlimit
  have hle : ∀ k ∈ prefixBoundaries raw, k ≤ raw.length :=
    fun k hk => (mem_prefixBoundaries.1 hk).2.1
  have hmem := Nat.findGreatest_spec
    (P := fun k => k ∈ prefixBoundaries raw ∧ decodedSize (raw.take k) ≤ limit)
    (hle first hfirst) ⟨hfirst, hfits⟩
  refine ⟨_, hmem.1, hmem.2, fun k hk hfitsk => ?_⟩
  exact Nat.le_findGreatest (hle k hk) ⟨hk, hfitsk⟩

/-- Up to the longest prefix, all of them fit. -/
theorem prefix_fits_iff {m : ℕ} (hfits : decodedSize (raw.take m) ≤ limit)
    (hmax : ∀ k ∈ prefixBoundaries raw, decodedSize (raw.take k) ≤ limit → k ≤ m) {k : ℕ}
    (hk : k ∈ prefixBoundaries raw) : decodedSize (raw.take k) ≤ limit ↔ k ≤ m := by
  refine ⟨hmax k hk, fun hkm => ?_⟩
  have hinside : ¬ InsideCodePoint (raw.take m) k := by
    intro hin
    have hsplit := hin.splits
    have hslice : Splits ((raw.take m).drop 0) k := hsplit
    have hwhole := hslice.of_slice
    rw [Nat.zero_add] at hwhole
    exact (mem_prefixBoundaries.1 hk).2.2 hwhole
  have hle := decodedSize_take_le hinside
  rw [List.take_take, min_eq_left hkm] at hle
  exact hle.trans hfits

theorem foldl_keep_start {p : ℕ → Prop} [DecidablePred p] {l : List ℕ} (h : ∀ k ∈ l, ¬ p k)
    (start : ℕ) : l.foldl (fun stop k => if p k then k else stop) start = start := by
  induction l with
  | nil => rfl
  | cons x l ih =>
    rw [List.foldl_cons, if_neg (h x List.mem_cons_self)]
    exact ih fun k hk => h k (List.mem_cons_of_mem x hk)

/-- A scan keeps the last element that satisfies its test. -/
theorem foldl_keep_last {p : ℕ → Prop} [DecidablePred p] {l : List ℕ} (hl : l.Pairwise (· < ·))
    {m : ℕ} (hm : m ∈ l) (hp : p m) (hmax : ∀ k ∈ l, p k → k ≤ m) (start : ℕ) :
    l.foldl (fun stop k => if p k then k else stop) start = m := by
  induction l generalizing start with
  | nil => cases hm
  | cons x l ih =>
    obtain ⟨hx, hl⟩ := List.pairwise_cons.1 hl
    rw [List.foldl_cons]
    rcases List.mem_cons.1 hm with rfl | hm
    · have hrest : ∀ k ∈ l, ¬ p k := fun k hk hpk =>
        absurd (hmax k (List.mem_cons_of_mem _ hk) hpk) (not_le.2 (hx k hk))
      rw [if_pos hp]
      exact foldl_keep_start hrest m
    · exact ih hl hm (fun k hk => hmax k (List.mem_cons_of_mem x hk)) _

/-- **The bounded prefix is the longest one that fits**, the one a scan of all boundaries finds. -/
theorem boundedPrefix_maximal (hraw : raw ≠ []) (hlimit : 4 ≤ limit) :
    GreatestPrefix raw limit (boundedPrefix raw limit) ∧
      boundedPrefix raw limit = scanPrefix raw limit := by
  obtain ⟨m, hm, hfits, hmax⟩ := exists_greatest_prefix hraw hlimit
  obtain ⟨hpos, hle, hsplit⟩ := mem_prefixBoundaries.1 hm
  have hsorted : (prefixBoundaries raw).Pairwise (· < ·) :=
    List.Pairwise.filter _ List.pairwise_lt_range'
  obtain ⟨j, hj, hget⟩ := List.mem_iff_getElem.1 hm
  have hgetD : (prefixBoundaries raw).getD j 0 = m := (List.getD_eq_getElem _ _ hj).trans hget
  have hbisect : bisectLast (prefixFits raw limit) 0 (prefixBoundaries raw).length none =
      some j := by
    refine bisectLast_of_iff (fun i _ hi => ?_) (by omega) (.inl (Nat.zero_le j))
    rw [Nat.zero_add] at hi
    have hmem : (prefixBoundaries raw).getD i 0 ∈ prefixBoundaries raw := by
      rw [List.getD_eq_getElem _ _ hi]
      exact List.getElem_mem hi
    rw [prefixFits, decide_eq_true_eq, ← le_getD_iff hsorted hi hj, hgetD]
    exact prefix_fits_iff hfits hmax hmem
  have hstop : (boundedPrefix raw limit).1 = m := by
    rw [boundedPrefix_fst hraw, hbisect]
    exact hgetD
  have hspec := boundedPrefix_spec hraw hlimit
  have htext : (boundedPrefix raw limit).2 = pgSafeDecode (raw.take m) := by
    rw [hspec.2.2.1, hstop]
  constructor
  · refine ⟨hspec.1, hspec.2.1, ?_, hspec.2.2.1, hspec.2.2.2, fun k hlt hk hinside => ?_⟩
    · rw [hstop]
      exact fun h => hsplit (splits_iff_insideScalar.2 h)
    · rw [hstop] at hlt
      by_contra hfitsk
      have hmem : k ∈ prefixBoundaries raw :=
        mem_prefixBoundaries.2 ⟨by omega, hk, fun h => hinside (splits_iff_insideScalar.1 h)⟩
      have hkm := hmax k hmem (not_lt.1 hfitsk)
      omega
  · have hscan : (scanPrefix raw limit).1 = m := by
      have hkept : (alignCodePointEnd raw m = m) ∧
          (pgSafeDecode (raw.take m)).utf8ByteLength ≤ limit :=
        ⟨(alignCodePointEnd_eq_self_iff hle).2 hsplit, hfits⟩
      refine foldl_keep_last List.pairwise_lt_range' (List.mem_of_mem_filter hm) hkept
        (fun k hk hp => ?_) 1
      exact hmax k (List.mem_filter.2 ⟨hk, decide_eq_true hp.1⟩) hp.2
    have hscanText : (scanPrefix raw limit).2 = pgSafeDecode (raw.take m) := by
      rw [← hscan]
      rfl
    exact Prod.ext (hstop.trans hscan.symm) (htext.trans hscanText.symm)

end Prefix

/-- Two characters of two bytes and a byte that is not one: the limit leaves the first. -/
theorem boundedPrefix_maximal_accented :
    GreatestPrefix [0xc3, 0xa9, 0xc3, 0xa9, 0xff] 4
        (boundedPrefix [0xc3, 0xa9, 0xc3, 0xa9, 0xff] 4) ∧
      boundedPrefix [0xc3, 0xa9, 0xc3, 0xa9, 0xff] 4 =
        scanPrefix [0xc3, 0xa9, 0xc3, 0xa9, 0xff] 4 :=
  boundedPrefix_maximal (by simp) le_rfl

/-! ## The longest suffix -/

/-- The longest range from a boundary to the end whose text fits. -/
structure LeastSuffix (raw : List UInt8) (limit : ℕ) (cut : ℕ × PyStr) : Prop where
  le : cut.1 ≤ raw.length
  boundary : ¬ InsideScalar raw cut.1
  text : cut.2 = pgSafeDecode (raw.drop cut.1)
  fits : cut.2.utf8ByteLength ≤ limit
  least : ∀ k : ℕ, k < cut.1 → ¬ InsideScalar raw k →
    limit < (pgSafeDecode (raw.drop k)).utf8ByteLength

/-- The index of the first boundary whose text fits. -/
def firstFit (raw : List UInt8) (limit : ℕ) : ℕ :=
  (boundaries raw).findIdx fun k => decodedSize (raw.drop k) ≤ limit

/-- Bisection is misled: on its way to the first boundary whose text fits it tries the second byte
of a sequence cut short behind that boundary, whose text does not fit. -/
def Misled (raw : List UInt8) (limit : ℕ) : Prop :=
  limit < decodedSize raw ∧
    ∃ i ∈ searchPath (firstFit raw limit) 0 (boundaries raw).length, firstFit raw limit ≤ i ∧
      ∃ start, (boundaries raw).getD i 0 = start + 1 ∧ cutShort raw start = true ∧
        limit < decodedSize (raw.drop (start + 1))

instance (raw : List UInt8) (limit : ℕ) : Decidable (Misled raw limit) :=
  decidable_of_iff (limit < decodedSize raw ∧
    ∃ i ∈ searchPath (firstFit raw limit) 0 (boundaries raw).length, firstFit raw limit ≤ i ∧
      0 < (boundaries raw).getD i 0 ∧ cutShort raw ((boundaries raw).getD i 0 - 1) = true ∧
        limit < decodedSize (raw.drop ((boundaries raw).getD i 0))) <| by
    refine and_congr_right fun _ => exists_congr fun i => and_congr_right fun _ =>
      and_congr_right fun _ => ?_
    constructor
    · intro ⟨hpos, hcut, hsize⟩
      refine ⟨_, (Nat.sub_add_cancel hpos).symm, hcut, ?_⟩
      rwa [Nat.sub_add_cancel hpos]
    · rintro ⟨start, hget, hcut, hsize⟩
      rw [hget]
      exact ⟨Nat.succ_pos start, hcut, hsize⟩

section Suffix

variable {raw : List UInt8} {limit : ℕ}

theorem firstFit_lt (raw : List UInt8) (limit : ℕ) :
    firstFit raw limit < (boundaries raw).length := by
  refine List.findIdx_lt_length_of_exists
    ⟨raw.length, mem_boundaries.2 ⟨le_rfl, not_splits_of_le le_rfl⟩, ?_⟩
  rw [List.drop_length, decodedSize_nil]
  exact decide_eq_true (Nat.zero_le limit)

theorem suffixFits_firstFit (raw : List UInt8) (limit : ℕ) :
    suffixFits raw limit (firstFit raw limit) = true := by
  rw [suffixFits, List.getD_eq_getElem _ _ (firstFit_lt raw limit)]
  exact List.findIdx_getElem (w := firstFit_lt raw limit)

theorem suffixFits_before {i : ℕ} (hi : i < firstFit raw limit) :
    suffixFits raw limit i = false := by
  have hlt : i < (boundaries raw).length := hi.trans (firstFit_lt raw limit)
  have hnot := List.not_of_lt_findIdx hi
  rw [suffixFits, List.getD_eq_getElem _ _ hlt]
  exact hnot

/-- Behind the first boundary whose text fits, only the second byte of a sequence cut short has a
text that does not. -/
theorem suffixFits_behind {i : ℕ} (hi : i < (boundaries raw).length)
    (hge : firstFit raw limit ≤ i) : suffixFits raw limit i = true ∨
      ∃ start, (boundaries raw).getD i 0 = start + 1 ∧ cutShort raw start = true := by
  have hle := (le_getD_iff pairwise_boundaries (firstFit_lt raw limit) hi).2 hge
  have hmem : (boundaries raw).getD i 0 ∈ boundaries raw := by
    rw [List.getD_eq_getElem _ _ hi]
    exact List.getElem_mem hi
  have hsplit := (mem_boundaries.1 hmem).2
  have hfirst : decodedSize (raw.drop ((boundaries raw).getD (firstFit raw limit) 0)) ≤ limit :=
    of_decide_eq_true (suffixFits_firstFit raw limit)
  obtain ⟨d, hd⟩ := Nat.exists_eq_add_of_le hle
  have hinside : ¬ InsideCodePoint
      (raw.drop ((boundaries raw).getD (firstFit raw limit) 0)) d :=
    fun hin => hsplit (hd ▸ hin.of_drop.splits)
  rcases decodedSize_drop hinside with hsize | ⟨start, rfl, hcut⟩
  · rw [List.drop_drop, ← hd] at hsize
    exact .inl (decide_eq_true (hsize.trans hfirst))
  · rw [cutShort_drop] at hcut
    exact .inr ⟨_, hd.trans (Nat.add_assoc _ _ _).symm, hcut⟩

/-- The bounded suffix is the longest one where bisection finds the first boundary that fits. -/
theorem leastSuffix_iff (hfull : limit < decodedSize raw) :
    LeastSuffix raw limit (boundedSuffix raw limit) ↔
      bisectFirst (suffixFits raw limit) 0 (boundaries raw).length none =
        some (firstFit raw limit) := by
  have hfirst := firstFit_lt raw limit
  have hmem : (boundaries raw).getD (firstFit raw limit) 0 ∈ boundaries raw := by
    rw [List.getD_eq_getElem _ _ hfirst]
    exact List.getElem_mem hfirst
  obtain ⟨-, hsplit⟩ := mem_boundaries.1 hmem
  have hfst : (boundedSuffix raw limit).1 =
      ((bisectFirst (suffixFits raw limit) 0 (boundaries raw).length none).map
        fun mid => (boundaries raw).getD mid 0).getD raw.length :=
    (boundedSuffix_fst raw limit).trans (if_neg (not_le.2 hfull))
  have hfits := of_decide_eq_true (suffixFits_firstFit raw limit)
  constructor
  · intro h
    obtain ⟨i, hi⟩ := Option.isSome_iff_exists.1 (suffix_found raw limit)
    obtain ⟨hfit, -, hlt⟩ := (bisectFirst_eq_some hi).resolve_left (by simp)
    rw [Nat.zero_add] at hlt
    rw [hi, Option.map_some, Option.getD_some] at hfst
    have hge : firstFit raw limit ≤ i := by
      by_contra hbefore
      rw [suffixFits_before (not_le.1 hbefore)] at hfit
      cases hfit
    have hle : i ≤ firstFit raw limit := by
      rw [← le_getD_iff pairwise_boundaries hlt hfirst, ← hfst]
      by_contra hbehind
      have hlong := h.least _ (not_le.1 hbehind) fun hin => hsplit (splits_iff_insideScalar.2 hin)
      exact absurd hfits (not_le.2 hlong)
    rw [hi, le_antisymm hle hge]
  · intro h
    obtain ⟨hle, htext, hfit, hboundary⟩ := boundedSuffix_spec raw limit
    rw [h, Option.map_some, Option.getD_some] at hfst
    refine ⟨hle, fun hin => hboundary (splits_iff_insideScalar.2 hin), htext, hfit,
      fun k hk hinside => ?_⟩
    obtain ⟨j, hj, hget⟩ := exists_boundary raw (by omega : k ≤ raw.length)
      fun hin => hinside (splits_iff_insideScalar.1 hin)
    have hbefore : j < firstFit raw limit := by
      by_contra hge
      have hle := (le_getD_iff pairwise_boundaries hfirst hj).2 (not_lt.1 hge)
      omega
    have hlong := of_decide_eq_false (suffixFits_before hbefore)
    rw [hget] at hlong
    exact not_le.1 hlong

/-- **The bounded suffix is the longest one that fits** unless bisection is misled. -/
theorem boundedSuffix_maximal_iff (raw : List UInt8) (limit : ℕ) :
    LeastSuffix raw limit (boundedSuffix raw limit) ↔ ¬ Misled raw limit := by
  by_cases hfull : limit < decodedSize raw
  · rw [leastSuffix_iff hfull, bisectFirst_eq_first_iff (suffixFits_firstFit raw limit)
      (fun i hi => suffixFits_before hi) (Nat.zero_le _) (by simpa using firstFit_lt raw limit)
      (by simp)]
    constructor
    · rintro h ⟨-, i, hi, hge, start, hget, -, hlong⟩
      have hfit := of_decide_eq_true (h i hi hge)
      rw [hget] at hfit
      exact absurd hfit (not_le.2 hlong)
    · intro h i hi hge
      have hlt := (mem_searchPath hi).2
      rw [Nat.zero_add] at hlt
      rcases suffixFits_behind hlt hge with hfit | ⟨start, hget, hcut⟩
      · exact hfit
      · by_contra hnot
        refine h ⟨hfull, i, hi, hge, start, hget, hcut, ?_⟩
        rw [← hget]
        exact not_le.1 (of_decide_eq_false (Bool.eq_false_iff.2 hnot))
  · -- the whole text fits
    refine iff_of_true ?_ fun h => hfull h.1
    have hzero : (boundedSuffix raw limit).1 = 0 :=
      (boundedSuffix_fst raw limit).trans (if_pos (not_lt.1 hfull))
    obtain ⟨hle, htext, hfit, hboundary⟩ := boundedSuffix_spec raw limit
    refine ⟨hle, fun hin => hboundary (splits_iff_insideScalar.2 hin), htext, hfit,
      fun k hk => ?_⟩
    omega

end Suffix

/-- Bisection does not try every sequence cut short that is too long. -/
example : Misled [0x41, 0xf0, 0x90, 0x80, 0x41] 4 ∧
    ¬ Misled [0x41, 0x41, 0x41, 0xf0, 0x90, 0x80] 4 := by decide +kernel

/-- A character and a sequence cut short, then another character: from the sequence on the text
takes four bytes, from its second byte on seven, and bisection tries the second byte first. -/
theorem cut_sequence_misleads_suffix : ¬ LeastSuffix [0x41, 0xf0, 0x90, 0x80, 0x41] 4
    (boundedSuffix [0x41, 0xf0, 0x90, 0x80, 0x41] 4) := by
  intro h
  have hcut : (boundedSuffix [0x41, 0xf0, 0x90, 0x80, 0x41] 4).1 = 3 := by decide +kernel
  have hboundary : ¬ Splits [0x41, 0xf0, 0x90, 0x80, 0x41] 1 :=
    (alignCodePointEnd_eq_self_iff (by decide)).1 (by decide)
  have hlong := h.least 1 (by rw [hcut]; decide)
    fun hin => hboundary (splits_iff_insideScalar.2 hin)
  revert hlong
  decide

end Lubko.Output
