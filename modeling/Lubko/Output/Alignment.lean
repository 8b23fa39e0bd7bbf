import Lubko.Output.Chunks

/-!
# Alignment and the decoder

`_valid_code_point_at` classifies bytes by hand: the range of the lead, the continuation bytes, then
the value against overlong forms, surrogates and the last code point. What it accepts is what strict
decoding reads as one scalar of several bytes, so the two alignments move exactly the offsets inside
such a scalar.

* `validCodePointAt_iff` — the classifier against the strict decoder.
* `alignment` — both alignments, for every offset, and the windows they are evaluated in.
-/

namespace Lubko.Output

open Lubko.Lib Lubko.Worker

/-- Strict decoding reads the bytes `[start, start + length)` as one scalar of several bytes. -/
def IsScalar (data : List UInt8) (start length : ℕ) : Prop :=
  2 ≤ length ∧ start + length ≤ data.length ∧
    ∃ c, utf8 ((data.drop start).take length) = some [c]

/-- The offset lies strictly inside such a range. -/
def InsideScalar (data : List UInt8) (offset : ℤ) : Prop :=
  ∃ start length : ℕ, IsScalar data start length ∧ start < offset ∧ offset < start + length

/-! ## What the classifier accepts -/

theorem sequenceLength_of_codePointLength {lead : UInt8} (h : codePointLength lead ≠ 0) :
    sequenceLength lead = codePointLength lead := by
  unfold sequenceLength
  unfold codePointLength at h ⊢
  split_ifs at h ⊢ <;> omega

/-- The value of an accepted code point: not overlong, no surrogate, and at most the last one. -/
theorem validCodePointAt_value {lead : UInt8} {cont : List UInt8}
    (h : validCodePointAt (lead :: cont) 0 (cont.length + 1) = true) :
    ∃ value, value = cont.foldl (fun acc b => acc * 0x40 + (b.toNat - 0x80))
        (lead.toNat % 2 ^ (7 - (cont.length + 1))) ∧
      codePointMinValue (cont.length + 1) ≤ value ∧ value ≤ 0x10ffff ∧
      (value < 0xd800 ∨ 0xdfff < value) := by
  obtain ⟨-, -, -, -, hcont⟩ := validCodePointAt_bounds h
  have hall : ∀ b ∈ cont, isContinuation b = true := by
    intro b hb
    obtain ⟨i, hi, rfl⟩ := List.mem_iff_getElem.1 hb
    have hnext := hcont (i + 1) (Nat.succ_pos i) (by omega)
    rw [List.getD_cons_succ, List.getD_eq_getElem _ _ hi] at hnext
    exact hnext
  have hmask : lead.toNat &&& ((1 <<< (7 - (cont.length + 1))) - 1) =
      lead.toNat % 2 ^ (7 - (cont.length + 1)) := by
    rw [Nat.shiftLeft_eq, Nat.one_mul]
    exact Nat.and_two_pow_sub_one_eq_mod lead.toNat _
  have hslice : ((lead :: cont).take (0 + (cont.length + 1))).drop (0 + 1) = cont := by
    rw [Nat.zero_add, Nat.zero_add, List.take_succ_cons, List.take_length]
    rfl
  unfold validCodePointAt at h
  rw [hslice] at h
  dsimp only at h
  split_ifs at h with h1 h2 h3 h4
  rw [List.getD_cons_zero, codePointScalar, hmask, scalar_foldl _ hall] at h
  refine ⟨_, rfl, ?_⟩
  generalize cont.foldl (fun acc b => acc * 0x40 + (b.toNat - 0x80))
    (lead.toNat % 2 ^ (7 - (cont.length + 1))) = value at h ⊢
  by_cases hmin : value < codePointMinValue (cont.length + 1)
  · rw [if_pos hmin] at h
    cases h
  · rw [if_neg hmin] at h
    dsimp only at h
    split_ifs at h with hmax
    rw [Bool.not_eq_true', Bool.and_eq_false_iff, decide_eq_false_iff_not,
      decide_eq_false_iff_not] at h
    omega

theorem isContinuation_bounds {b : UInt8} (h : isContinuation b = true) :
    0x80 ≤ b.toNat ∧ b.toNat ≤ 0xbf := by
  simpa only [isContinuation, Bool.and_eq_true, decide_eq_true_eq] using h

/-- The second byte of an accepted code point: the bounds on the value are bounds on it. -/
theorem isSecond_of_value {lead b : UInt8} {tl : List UInt8} (hb : isContinuation b = true)
    (htl : ∀ c ∈ tl, isContinuation c = true) (hlead : codePointLength lead = tl.length + 2)
    {value : ℕ} (hvalue : value = (b :: tl).foldl (fun acc b => acc * 0x40 + (b.toNat - 0x80))
      (lead.toNat % 2 ^ (7 - (tl.length + 2))))
    (hmin : codePointMinValue (tl.length + 2) ≤ value) (hmax : value ≤ 0x10ffff)
    (hsurrogate : value < 0xd800 ∨ 0xdfff < value) : isSecond lead b = true := by
  have hbounds := isContinuation_bounds hb
  rw [isSecond, hb, Bool.true_and]
  unfold codePointLength at hlead
  unfold codePointMinValue at hmin
  rcases tl with _ | ⟨c, _ | ⟨d, _ | ⟨e, tl⟩⟩⟩
  · simp only [List.length_nil] at hlead
    split_ifs at hlead ⊢ <;> simp only [decide_eq_true_eq] <;> omega
  · have hc := isContinuation_bounds (htl c (by simp))
    simp only [List.foldl_cons, List.foldl_nil, List.length_cons, List.length_nil] at *
    norm_num at hvalue hmin
    split_ifs at hlead ⊢ <;> simp only [decide_eq_true_eq] <;> omega
  · have hc := isContinuation_bounds (htl c (by simp))
    have hd := isContinuation_bounds (htl d (by simp))
    simp only [List.foldl_cons, List.foldl_nil, List.length_cons, List.length_nil] at *
    norm_num at hvalue hmin
    split_ifs at hlead ⊢ <;> simp only [decide_eq_true_eq] <;> omega
  · simp only [List.length_cons] at hlead
    split_ifs at hlead <;> omega

/-- An accepted code point is a complete sequence. -/
theorem isSequence_of_valid {lead : UInt8} {cont : List UInt8}
    (h : validCodePointAt (lead :: cont) 0 (cont.length + 1) = true) : IsSequence lead cont := by
  obtain ⟨htwo, -, -, hlead, hcont⟩ := validCodePointAt_bounds h
  obtain ⟨value, hvalue, hmin, hmax, hsurrogate⟩ := validCodePointAt_value h
  rw [List.getD_cons_zero] at hlead
  refine ⟨by rw [sequenceLength_of_codePointLength (by omega), hlead], ?_⟩
  cases cont with
  | nil => simp at htwo
  | cons b tl =>
    have hb : isContinuation b = true := by
      have hnext := hcont 1 one_pos (by simp)
      rwa [List.getD_cons_succ, List.getD_cons_zero] at hnext
    have htl : ∀ c ∈ tl, isContinuation c = true := by
      intro c hc
      obtain ⟨i, hi, rfl⟩ := List.mem_iff_getElem.1 hc
      have hnext := hcont (i + 2) (by omega) (by simp; omega)
      rw [List.getD_cons_succ, List.getD_cons_succ, List.getD_eq_getElem _ _ hi] at hnext
      exact hnext
    have hsecond := isSecond_of_value hb htl hlead hvalue hmin hmax hsurrogate
    rw [continuationRun_cons, if_pos hsecond, List.takeWhile_eq_self_iff.2 htl]

/-- Bytes read as one character are one complete sequence. -/
theorem isSequence_of_utf8 {lead : UInt8} {cont : List UInt8} {c : Char}
    (h : utf8 (lead :: cont) = some [c]) : IsSequence lead cont := by
  obtain ⟨run, rest, text, rfl, hseq, hrest, htext⟩ := utf8_cons h
  obtain rfl : [] = text := (List.cons.inj htext).2
  cases rest with
  | nil =>
    rw [List.append_nil]
    exact hseq
  | cons b bs =>
    obtain ⟨_, _, _, _, _, _, hcons⟩ := utf8_cons hrest
    cases hcons

/-- **The classifier accepts what strict decoding reads as one scalar.** -/
theorem validCodePointAt_iff {data : List UInt8} {start length : ℕ} :
    validCodePointAt data start length = true ↔ IsScalar data start length := by
  constructor
  · intro h
    obtain ⟨htwo, hfour, hbound, -, -⟩ := validCodePointAt_bounds h
    refine ⟨htwo, hbound, ?_⟩
    rw [validCodePointAt_eq] at h
    have hlen : ((data.drop start).take length).length = length := by
      rw [List.length_take, List.length_drop]
      omega
    match hslice : (data.drop start).take length with
    | [] =>
      rw [hslice, List.length_nil] at hlen
      omega
    | lead :: cont =>
      rw [hslice, List.length_cons] at hlen
      rw [hslice, ← hlen] at h
      have hsome := utf8_sequence (isSequence_of_valid h) (show utf8 [] = some [] from rfl)
      rw [List.append_nil] at hsome
      exact ⟨_, hsome⟩
  · rintro ⟨htwo, hbound, c, hc⟩
    rw [validCodePointAt_eq]
    have hlen : ((data.drop start).take length).length = length := by
      rw [List.length_take, List.length_drop]
      omega
    match hslice : (data.drop start).take length with
    | [] =>
      rw [hslice, List.length_nil] at hlen
      omega
    | lead :: cont =>
      rw [hslice] at hc
      rw [hslice, List.length_cons] at hlen
      have hne : cont ≠ [] := by
        rintro rfl
        rw [List.length_nil] at hlen
        omega
      have hvalid := validCodePointAt_sequence (isSequence_of_utf8 hc) hne []
      rw [List.append_nil, hlen] at hvalid
      exact hvalid

/-- The offsets the alignments move. -/
theorem splits_iff_insideScalar {data : List UInt8} {k : ℕ} :
    Splits data k ↔ InsideScalar data k := by
  constructor
  · rintro ⟨lead, length, hlo, hhi, hvalid⟩
    exact ⟨lead, length, validCodePointAt_iff.1 hvalid, by omega, by omega⟩
  · rintro ⟨start, length, hscalar, hlo, hhi⟩
    exact ⟨start, length, by omega, by omega, validCodePointAt_iff.2 hscalar⟩

/-! ## The alignments -/

/-- What both alignments do with an offset. -/
structure Aligned (data : List UInt8) (c : ℤ) : Prop where
  outside : 0 ≤ c → c ≤ data.length → ¬ InsideScalar data c →
    alignCodePointEnd data c = c ∧ alignCodePointStart data c = c
  inside : ∀ start length : ℕ, IsScalar data start length → start < c → c < start + length →
    alignCodePointEnd data c = start ∧ alignCodePointStart data c = start + length
  unique : ∀ start length start' length' : ℕ, IsScalar data start length → start < c →
    c < start + length → IsScalar data start' length' → start' < c → c < start' + length' →
      start = start' ∧ length = length'
  near : 0 ≤ c → c ≤ data.length →
    (alignCodePointEnd data c ≤ c ∧ c ≤ alignCodePointEnd data c + 3) ∧
      c ≤ alignCodePointStart data c ∧ alignCodePointStart data c ≤ c + 3
  /-- Offsets outside the data are clamped into it. -/
  clamped : (c ≤ 0 → alignCodePointEnd data c = 0 ∧ alignCodePointStart data c = 0) ∧
    (data.length ≤ c → alignCodePointEnd data c = data.length ∧
      alignCodePointStart data c = data.length)
  /-- The slice from three bytes before, to four bytes after or to the end, is enough. -/
  window : c ≤ data.length → ∀ stop : ℤ, stop = c + 4 ∨ stop = data.length →
    (max 0 (c - 3)).toNat +
        alignCodePointEnd (pySlice data (max 0 (c - 3)) stop) (c - max 0 (c - 3)) =
      alignCodePointEnd data c ∧
    (max 0 (c - 3)).toNat +
        alignCodePointStart (pySlice data (max 0 (c - 3)) stop) (c - max 0 (c - 3)) =
      alignCodePointStart data c

section Aligned

variable {data : List UInt8} {c : ℤ}

theorem alignCodePointEnd_of_nonpos (hc : c ≤ 0) : alignCodePointEnd data c = 0 := if_pos hc

theorem alignCodePointStart_of_nonpos (hc : c ≤ 0) : alignCodePointStart data c = 0 := if_pos hc

theorem align_of_length_le (hc : data.length ≤ c) :
    alignCodePointEnd data c = data.length ∧ alignCodePointStart data c = data.length := by
  unfold alignCodePointEnd alignCodePointStart
  by_cases hpos : c ≤ 0
  · rw [if_pos hpos, if_pos hpos]
    omega
  · rw [if_neg hpos, if_neg hpos, if_pos hc, if_pos hc]
    exact ⟨rfl, rfl⟩

/-- The slice of an offset at or before the start is aligned at the start too. -/
theorem align_window_of_nonpos (hc : c ≤ 0) (slice : List UInt8) :
    (max 0 (c - 3)).toNat + alignCodePointEnd slice (c - max 0 (c - 3)) =
        alignCodePointEnd data c ∧
      (max 0 (c - 3)).toNat + alignCodePointStart slice (c - max 0 (c - 3)) =
        alignCodePointStart data c := by
  have hfrom : max (0 : ℤ) (c - 3) = 0 := by omega
  rw [hfrom, sub_zero, alignCodePointEnd_of_nonpos hc, alignCodePointEnd_of_nonpos hc,
    alignCodePointStart_of_nonpos hc, alignCodePointStart_of_nonpos hc]
  exact ⟨rfl, rfl⟩

theorem align_neighborhood {k m : ℕ} (hk : k ≤ data.length)
    (hm : m = k + 4 ∨ m = data.length) :
    (max 0 ((k : ℤ) - 3)).toNat +
        alignCodePointEnd (pySlice data (max 0 ((k : ℤ) - 3)) m) (k - max 0 ((k : ℤ) - 3)) =
      alignCodePointEnd data k ∧
    (max 0 ((k : ℤ) - 3)).toNat +
        alignCodePointStart (pySlice data (max 0 ((k : ℤ) - 3)) m) (k - max 0 ((k : ℤ) - 3)) =
      alignCodePointStart data k := by
  have hfrom : max (0 : ℤ) (k - 3) = ((k - 3 : ℕ) : ℤ) := by omega
  have hlocal : (k : ℤ) - ((k - 3 : ℕ) : ℤ) = ((k - (k - 3) : ℕ) : ℤ) := by omega
  have hctx : ¬ Splits data (k - 3) ∨ k - 3 + 3 ≤ k := by
    by_cases h3 : 3 ≤ k
    · exact .inr (by omega)
    · rw [show k - 3 = 0 by omega]
      exact .inl (not_splits_zero data)
  rw [hfrom, hlocal, pySlice_natCast, Int.toNat_natCast]
  exact align_window hk (Nat.sub_le k 3) hctx (by omega)

theorem aligned (data : List UInt8) (c : ℤ) : Aligned data c where
  outside hpos hle hout := by
    obtain ⟨k, rfl⟩ := Int.eq_ofNat_of_zero_le hpos
    have hk : k ≤ data.length := by omega
    have hsplit : ¬ Splits data k := fun h => hout (splits_iff_insideScalar.1 h)
    rw [(alignCodePointEnd_eq_self_iff hk).2 hsplit, alignCodePointStart_eq_self hk hsplit]
    exact ⟨rfl, rfl⟩
  inside start length hscalar hlo hhi := by
    obtain ⟨k, rfl⟩ := Int.eq_ofNat_of_zero_le (by omega : 0 ≤ c)
    have hvalid := validCodePointAt_iff.2 hscalar
    exact ⟨alignCodePointEnd_of_valid hvalid (by omega) (by omega),
      alignCodePointStart_of_valid hvalid (by omega) (by omega)⟩
  unique start length start' length' hscalar hlo hhi hscalar' hlo' hhi' := by
    have hvalid := validCodePointAt_iff.2 hscalar
    have hvalid' := validCodePointAt_iff.2 hscalar'
    obtain rfl := valid_unique hvalid hvalid' (by omega) (by omega)
    have hlength := (validCodePointAt_bounds hvalid).2.2.2.1
    have hlength' := (validCodePointAt_bounds hvalid').2.2.2.1
    exact ⟨rfl, hlength.symm.trans hlength'⟩
  near hpos hle := by
    obtain ⟨k, rfl⟩ := Int.eq_ofNat_of_zero_le hpos
    have hk : k ≤ data.length := by omega
    have hend := alignCodePointEnd_le data hk
    have hback := le_alignCodePointEnd data hk
    have hstart := (alignCodePointStart_spec data hk).2.1
    have hon := alignCodePointStart_le data k
    omega
  clamped :=
    ⟨fun hc => ⟨alignCodePointEnd_of_nonpos hc, alignCodePointStart_of_nonpos hc⟩,
      align_of_length_le⟩
  window hle stop hstop := by
    by_cases hneg : c ≤ 0
    · exact align_window_of_nonpos hneg _
    · obtain ⟨k, rfl⟩ := Int.eq_ofNat_of_zero_le (by omega : 0 ≤ c)
      rcases hstop with rfl | rfl
      · exact align_neighborhood (m := k + 4) (by omega) (.inl rfl)
      · exact align_neighborhood (by omega) (.inr rfl)

end Aligned

/-- The window that `output_window_text` would cut if it aligned the head in the whole buffer. -/
def wholeWindow (stream : OutputStream) (maxChars base : ℕ) : PyStr × ℕ × ℕ :=
  let size := stream.data.length + base
  let start := size - min size maxChars
  let head := alignCodePointStart stream.data ((start : ℤ) - base)
  let kept := boundedSuffix (stream.data.drop head) maxChars
  (kept.2, head + kept.1 + base, size)

theorem outputWindowText_eq (stream : OutputStream) (maxChars base : ℕ) :
    outputWindowText stream maxChars base = wholeWindow stream maxChars base := by
  obtain ⟨cut, hwindow, -, rfl⟩ := outputWindowText_base stream maxChars base
  have hhead : alignCodePointStart stream.data
      (((stream.data.length + base - min (stream.data.length + base) maxChars : ℕ) : ℤ) - base) =
        alignCodePointStart stream.data (stream.data.length - maxChars : ℕ) := by
    by_cases hlong : maxChars ≤ stream.data.length
    · congr 1
      omega
    · rw [alignCodePointStart_of_nonpos (by omega), alignCodePointStart_of_nonpos (by omega)]
  rw [hwindow, alignedWindow_eq stream (Nat.sub_le _ _), wholeWindow]
  dsimp only
  rw [hhead]

/-- **Code-point alignment.** Both alignments move exactly the offsets inside a scalar of several
bytes, and what planning and the live window see of the buffer is enough for them. -/
theorem alignment (stream : OutputStream) (c : ℤ) (maxChars base : ℕ) :
    Aligned stream.data c ∧
      (c ≤ stream.data.length → alignedEnd stream c = alignCodePointEnd stream.data c) ∧
      outputWindowText stream maxChars base = wholeWindow stream maxChars base :=
  ⟨aligned stream.data c, alignedEnd_eq stream, outputWindowText_eq stream maxChars base⟩

end Lubko.Output
