import Lubko.Lib.PyStr
import Mathlib.Algebra.Order.Ring.Int
import Mathlib.Data.List.TakeWhile

/-!
# Python bytes

* `pySlice` — `data[start:stop]`, with Python's reading of negative bounds.
* `decodeReplace` — `data.decode("utf-8", errors="replace")`: every maximal prefix of a well-formed
  sequence that is cut short or followed by a wrong byte becomes one U+FFFD, and so does every
  byte that starts no sequence.

`length_le_decodeReplace`: decoding never loses bytes, a decoded text takes at least as many bytes
in UTF-8 as it was decoded from.
-/

namespace Lubko.Lib

/-! ## Slices -/

/-- A slice bound, normalised to `[0, n]`. -/
def sliceBound (n : ℕ) (i : ℤ) : ℕ :=
  if i < 0 then (i + n).toNat else min i.toNat n

/-- `data[start:stop]`. -/
def pySlice {α : Type*} (data : List α) (start stop : ℤ) : List α :=
  (data.take (sliceBound data.length stop)).drop (sliceBound data.length start)

theorem pySlice_natCast {α : Type*} (data : List α) (start stop : ℕ) :
    pySlice data start stop = (data.take stop).drop start := by
  have hbound : ∀ i : ℕ, sliceBound data.length i = min i data.length := fun i => by
    simp [sliceBound]
  have htake : data.take (min stop data.length) = data.take stop := by
    rw [List.take_eq_take_iff]
    omega
  rw [pySlice, hbound, hbound, htake]
  by_cases h : start ≤ data.length
  · rw [min_eq_left h]
  · rw [min_eq_right (by omega), List.drop_eq_nil_of_le (by simp),
      List.drop_eq_nil_of_le (by simp; omega)]

/-! ## Decoding -/

/-- The replacement character. -/
def replacement : CodePoint := 0xfffd

/-- `0x80 .. 0xBF`. -/
def isContinuation (b : UInt8) : Bool := 0x80 ≤ b.toNat && b.toNat ≤ 0xbf

/-- The length of the sequence a byte starts, `0` when it starts none. -/
def sequenceLength (b : UInt8) : ℕ :=
  if b.toNat < 0x80 then 1
  else if b.toNat < 0xc2 then 0
  else if b.toNat < 0xe0 then 2
  else if b.toNat < 0xf0 then 3
  else if b.toNat < 0xf5 then 4
  else 0

/-- The second byte of a sequence: it excludes overlong forms, surrogates and values above
U+10FFFF. -/
def isSecond (lead b : UInt8) : Bool :=
  isContinuation b &&
    (if lead.toNat = 0xe0 then 0xa0 ≤ b.toNat
     else if lead.toNat = 0xed then b.toNat < 0xa0
     else if lead.toNat = 0xf0 then 0x90 ≤ b.toNat
     else if lead.toNat = 0xf4 then b.toNat < 0x90
     else true)

/-- The bytes after the lead that continue its sequence. -/
def continuationRun (lead : UInt8) : List UInt8 → List UInt8
  | [] => []
  | b :: bs => if isSecond lead b then b :: bs.takeWhile isContinuation else []

/-- The value of a complete sequence. -/
def sequenceValue (lead : UInt8) (cont : List UInt8) : ℕ :=
  let base := if cont.length = 0 then 0 else if cont.length = 1 then 0xc0
    else if cont.length = 2 then 0xe0 else 0xf0
  cont.foldl (fun acc b => acc * 0x40 + (b.toNat - 0x80)) (lead.toNat - base)

/-- One step of the decoder: how many bytes it consumes, and what it emits for them. -/
def decodeUnit (lead : UInt8) (rest : List UInt8) : ℕ × CodePoint :=
  let n := sequenceLength lead
  let cont := continuationRun lead (rest.take (n - 1))
  if n ≠ 0 ∧ cont.length = n - 1 then (n, Fin.ofNat _ (sequenceValue lead cont))
  else (1 + cont.length, replacement)

/-- Decode, ignoring the first `skip` bytes, which belong to a sequence already emitted. -/
def decodeFrom : ℕ → List UInt8 → PyStr
  | _, [] => []
  | 0, b :: bs => (decodeUnit b bs).2 :: decodeFrom ((decodeUnit b bs).1 - 1) bs
  | skip + 1, _ :: bs => decodeFrom skip bs

/-- `data.decode("utf-8", errors="replace")`. -/
def decodeReplace (data : List UInt8) : PyStr := decodeFrom 0 data

/-! ## Encoded size of a decoded text -/

@[simp] theorem continuationRun_nil (lead : UInt8) : continuationRun lead [] = [] := rfl

theorem continuationRun_cons (lead b : UInt8) (bs : List UInt8) :
    continuationRun lead (b :: bs) =
      if isSecond lead b then b :: bs.takeWhile isContinuation else [] := rfl

theorem length_continuationRun_le (lead : UInt8) (bs : List UInt8) :
    (continuationRun lead bs).length ≤ bs.length := by
  cases bs with
  | nil => simp [continuationRun]
  | cons b bs =>
    rw [continuationRun_cons]
    split_ifs
    · simpa using (List.takeWhile_sublist _).length_le
    · simp

theorem continuationRun_cases (lead : UInt8) (bs : List UInt8) :
    continuationRun lead bs = [] ∨ ∃ b tl, continuationRun lead bs = b :: tl ∧
      isSecond lead b = true ∧ ∀ c ∈ tl, isContinuation c = true := by
  cases bs with
  | nil => exact .inl rfl
  | cons b bs =>
    rw [continuationRun_cons]
    split_ifs with h
    · exact .inr ⟨b, _, rfl, h, fun c hc => List.mem_takeWhile_imp hc⟩
    · exact .inl rfl

theorem utf8Size_ofNat {v n : ℕ} (hv : v < 0x110000)
    (h : n ≤ 1 ∨ n ≤ 2 ∧ 0x80 ≤ v ∨ n ≤ 3 ∧ 0x800 ≤ v ∨ n ≤ 4 ∧ 0x10000 ≤ v) :
    n ≤ CodePoint.utf8Size (Fin.ofNat _ v) := by
  have hval : (Fin.ofNat 0x110000 v).val = v := Nat.mod_eq_of_lt hv
  unfold CodePoint.utf8Size
  rw [hval]
  split_ifs <;> omega

theorem isSecond_bounds {lead b : UInt8} (h : isSecond lead b = true) :
    0x80 ≤ b.toNat ∧ b.toNat ≤ 0xbf ∧ (lead.toNat = 0xe0 → 0xa0 ≤ b.toNat) ∧
      (lead.toNat = 0xf0 → 0x90 ≤ b.toNat) ∧ (lead.toNat = 0xf4 → b.toNat < 0x90) := by
  simp only [isSecond, isContinuation, Bool.and_eq_true, decide_eq_true_eq] at h
  obtain ⟨⟨hlo, hhi⟩, hlead⟩ := h
  refine ⟨hlo, hhi, ?_⟩
  split_ifs at hlead <;> simp only [decide_eq_true_eq] at hlead <;> omega

theorem sequenceValue_one (lead b : UInt8) :
    sequenceValue lead [b] = (lead.toNat - 0xc0) * 0x40 + (b.toNat - 0x80) := rfl

theorem sequenceValue_two (lead b c : UInt8) :
    sequenceValue lead [b, c] =
      ((lead.toNat - 0xe0) * 0x40 + (b.toNat - 0x80)) * 0x40 + (c.toNat - 0x80) := rfl

theorem sequenceValue_three (lead b c d : UInt8) :
    sequenceValue lead [b, c, d] = (((lead.toNat - 0xf0) * 0x40 + (b.toNat - 0x80)) * 0x40 +
      (c.toNat - 0x80)) * 0x40 + (d.toNat - 0x80) := rfl

theorem sequenceLength_cases (b : UInt8) : sequenceLength b = 0 ∨
    (sequenceLength b = 1 ∧ b.toNat < 0x80) ∨
    (sequenceLength b = 2 ∧ 0xc2 ≤ b.toNat ∧ b.toNat < 0xe0) ∨
    (sequenceLength b = 3 ∧ 0xe0 ≤ b.toNat ∧ b.toNat < 0xf0) ∨
    (sequenceLength b = 4 ∧ 0xf0 ≤ b.toNat ∧ b.toNat < 0xf5) := by
  unfold sequenceLength
  split_ifs <;> omega

/-- The value of a complete sequence takes as many bytes as the sequence has. -/
theorem sequenceLength_le_utf8Size {lead : UInt8} {bs : List UInt8}
    (hn : sequenceLength lead ≠ 0)
    (hlen : (continuationRun lead bs).length = sequenceLength lead - 1) :
    sequenceLength lead ≤
      CodePoint.utf8Size (Fin.ofNat _ (sequenceValue lead (continuationRun lead bs))) := by
  have hcases := sequenceLength_cases lead
  rcases continuationRun_cases lead bs with hnil | ⟨b, tl, hrun, hsecond, htl⟩
  · have hone : sequenceLength lead = 1 := by
      rw [hnil, List.length_nil] at hlen
      omega
    rw [hone]
    exact CodePoint.utf8Size_pos _
  · rw [hrun] at hlen ⊢
    have hb := isSecond_bounds hsecond
    simp only [isContinuation, Bool.and_eq_true, decide_eq_true_eq] at htl
    -- one case for each number of continuation bytes
    match tl, htl with
    | [], _ =>
      simp only [List.length_cons, List.length_nil] at hlen
      rw [sequenceValue_one]
      apply utf8Size_ofNat <;> omega
    | [c], htl =>
      have hc := htl c (by simp)
      simp only [List.length_cons, List.length_nil] at hlen
      rw [sequenceValue_two]
      apply utf8Size_ofNat <;> omega
    | [c, d], htl =>
      have hc := htl c (by simp)
      have hd := htl d (by simp)
      simp only [List.length_cons, List.length_nil] at hlen
      rw [sequenceValue_three]
      apply utf8Size_ofNat <;> omega
    | _ :: _ :: _ :: _, _ =>
      simp only [List.length_cons] at hlen
      omega

/-- One step emits at least as many bytes as it consumes, and consumes at least one. -/
theorem decodeUnit_size (lead : UInt8) (rest : List UInt8) :
    0 < (decodeUnit lead rest).1 ∧
      (decodeUnit lead rest).1 ≤ CodePoint.utf8Size (decodeUnit lead rest).2 := by
  unfold decodeUnit
  dsimp only
  split_ifs with h
  · exact ⟨by omega, sequenceLength_le_utf8Size h.1 h.2⟩
  · refine ⟨by omega, ?_⟩
    have hrun := length_continuationRun_le lead (rest.take (sequenceLength lead - 1))
    have htake := List.length_take_le (sequenceLength lead - 1) rest
    have hcases := sequenceLength_cases lead
    have hsize : CodePoint.utf8Size replacement = 3 := by decide
    rw [hsize]
    omega

theorem length_le_decodeFrom (skip : ℕ) (data : List UInt8) :
    data.length ≤ skip + (decodeFrom skip data).utf8ByteLength := by
  induction data generalizing skip with
  | nil => simp
  | cons b bs ih =>
    cases skip with
    | zero =>
      have hunit := decodeUnit_size b bs
      have hrest := ih ((decodeUnit b bs).1 - 1)
      simp only [decodeFrom, PyStr.utf8ByteLength_cons, List.length_cons]
      omega
    | succ skip =>
      have hrest := ih skip
      simp only [decodeFrom, List.length_cons]
      omega

/-- **Decoding never loses bytes.** -/
theorem length_le_decodeReplace (data : List UInt8) :
    data.length ≤ (decodeReplace data).utf8ByteLength := by
  simpa [decodeReplace] using length_le_decodeFrom 0 data

theorem utf8Size_le (c : CodePoint) : c.utf8Size ≤ 4 := by
  unfold CodePoint.utf8Size
  split_ifs <;> omega

theorem decodeReplace_singleton (b : UInt8) :
    decodeReplace [b] = [(decodeUnit b []).2] := rfl

/-! ## Bytes that stand alone -/

/-- What a byte decodes to that starts no longer sequence. -/
def decodeAlone (b : UInt8) : CodePoint :=
  if b.toNat < 0x80 then Fin.ofNat _ b.toNat else replacement

theorem decodeUnit_of_alone {b : UInt8} (hb : sequenceLength b ≤ 1) (rest : List UInt8) :
    decodeUnit b rest = (1, decodeAlone b) := by
  rcases sequenceLength_cases b with h | ⟨h, hlt⟩ | h | h | h
  · have hge : ¬ b.toNat < 0x80 := by
      intro hlt
      simp [sequenceLength, hlt] at h
    simp [decodeUnit, h, decodeAlone, hge]
  · simp [decodeUnit, h, decodeAlone, hlt, sequenceValue]
  all_goals omega

/-- Bytes that start no longer sequence are decoded one by one. -/
theorem decodeReplace_of_alone {data : List UInt8} (h : ∀ b ∈ data, sequenceLength b ≤ 1) :
    decodeReplace data = data.map decodeAlone := by
  unfold decodeReplace
  induction data with
  | nil => rfl
  | cons b bs ih =>
    have hunit := decodeUnit_of_alone (h b (by simp)) bs
    have hrest := ih fun c hc => h c (by simp [hc])
    simp [decodeFrom, hunit, hrest]

end Lubko.Lib
