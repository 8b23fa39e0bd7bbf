import Lubko.Lib.JsonFile

/-!
# Valid UTF-8

Bytes that decode strictly are complete sequences one behind the other. Decoding with replacement
then gives the same text, and the text takes as many bytes as it was decoded from.

* `utf8_cons` — the first character of valid bytes, and the bytes behind it.
* `decodeReplace_of_utf8`, `utf8ByteLength_of_utf8` — nothing is replaced.
-/

namespace Lubko.Lib

/-- The bytes of one complete sequence. -/
structure IsSequence (lead : UInt8) (cont : List UInt8) : Prop where
  length : sequenceLength lead = cont.length + 1
  run : continuationRun lead cont = cont

/-- The character of a complete sequence. -/
def sequenceChar (lead : UInt8) (cont : List UInt8) : Char := Char.ofNat (sequenceValue lead cont)

theorem continuationRun_prefix (lead : UInt8) (bs : List UInt8) : continuationRun lead bs <+: bs := by
  cases bs with
  | nil => exact List.nil_prefix
  | cons b bs =>
    rw [continuationRun_cons]
    split_ifs
    · exact List.prefix_cons_inj b |>.2 (List.takeWhile_prefix _)
    · exact List.nil_prefix

/-- Valid bytes start with a complete sequence. -/
theorem utf8_cons {b : UInt8} {bs : List UInt8} {text : List Char} (h : utf8 (b :: bs) = some text) :
    ∃ cont rest text', bs = cont ++ rest ∧ IsSequence b cont ∧ utf8 rest = some text' ∧
      text = sequenceChar b cont :: text' := by
  rw [utf8, decodeStrictFrom] at h
  split_ifs at h with hcomplete
  obtain ⟨hpos, hlength⟩ := hcomplete
  obtain ⟨text', hrest, rfl⟩ := Option.map_eq_some_iff.1 h
  have hprefix := continuationRun_prefix b (bs.take (sequenceLength b - 1))
  have htake := List.length_take_le (sequenceLength b - 1) bs
  have hcont : continuationRun b (bs.take (sequenceLength b - 1)) = bs.take (sequenceLength b - 1) :=
    hprefix.eq_of_length_le (by omega)
  rw [hcont] at hlength
  refine ⟨bs.take (sequenceLength b - 1), bs.drop (sequenceLength b - 1), text',
    (List.take_append_drop _ _).symm, ⟨by omega, hcont⟩, ?_, by rw [hcont]; rfl⟩
  have hskip := decodeStrictFrom_skip (bs.take (sequenceLength b - 1))
    (bs.drop (sequenceLength b - 1))
  rw [List.take_append_drop, hlength] at hskip
  exact hskip.symm.trans hrest

/-- A complete sequence before valid bytes. -/
theorem utf8_sequence {lead : UInt8} {cont rest : List UInt8} {text : List Char}
    (hseq : IsSequence lead cont) (h : utf8 rest = some text) :
    utf8 (lead :: cont ++ rest) = some (sequenceChar lead cont :: text) := by
  rw [utf8, decodeStrictFrom_sequence rest hseq.length hseq.run]
  rw [utf8] at h
  rw [h]
  rfl

/-! ## Values -/

/-- What the bytes of a complete sequence are. -/
theorem IsSequence.cases {lead : UInt8} {cont : List UInt8} (h : IsSequence lead cont) :
    (cont = [] ∧ lead.toNat < 0x80) ∨
      (∃ b, cont = [b] ∧ 0xc2 ≤ lead.toNat ∧ lead.toNat < 0xe0 ∧ isSecond lead b = true) ∨
      (∃ b c, cont = [b, c] ∧ 0xe0 ≤ lead.toNat ∧ lead.toNat < 0xf0 ∧ isSecond lead b = true ∧
        isContinuation c = true) ∨
      ∃ b c d, cont = [b, c, d] ∧ 0xf0 ≤ lead.toNat ∧ lead.toNat < 0xf5 ∧
        isSecond lead b = true ∧ isContinuation c = true ∧ isContinuation d = true := by
  obtain ⟨hlength, hrun⟩ := h
  have hcases := sequenceLength_cases lead
  rcases continuationRun_cases lead cont with hnil | ⟨b, tl, hcons, hsecond, htl⟩
  · rw [hnil] at hrun
    subst hrun
    rw [List.length_nil] at hlength
    exact .inl ⟨rfl, by omega⟩
  · rw [hrun] at hcons
    subst hcons
    -- one case for each number of continuation bytes
    match tl, htl with
    | [], _ =>
      simp only [List.length_cons, List.length_nil] at hlength
      exact .inr (.inl ⟨b, rfl, by omega, by omega, hsecond⟩)
    | [c], htl =>
      simp only [List.length_cons, List.length_nil] at hlength
      exact .inr (.inr (.inl ⟨b, c, rfl, by omega, by omega, hsecond, htl c (by simp)⟩))
    | [c, d], htl =>
      simp only [List.length_cons, List.length_nil] at hlength
      exact .inr (.inr (.inr ⟨b, c, d, rfl, by omega, by omega, hsecond, htl c (by simp),
        htl d (by simp)⟩))
    | _ :: _ :: _ :: _, _ =>
      simp only [List.length_cons] at hlength
      omega

/-- The values of the sequences of each length. -/
theorem IsSequence.bounds {lead : UInt8} {cont : List UInt8} (h : IsSequence lead cont) :
    (sequenceValue lead cont).isValidChar ∧
      (cont.length = 0 ∧ sequenceValue lead cont < 0x80 ∨
        cont.length = 1 ∧ 0x80 ≤ sequenceValue lead cont ∧ sequenceValue lead cont < 0x800 ∨
        cont.length = 2 ∧ 0x800 ≤ sequenceValue lead cont ∧ sequenceValue lead cont < 0x10000 ∨
        cont.length = 3 ∧ 0x10000 ≤ sequenceValue lead cont) := by
  rcases h.cases with ⟨rfl, hlead⟩ | ⟨b, rfl, hlo, hhi, hb⟩ | ⟨b, c, rfl, hlo, hhi, hb, hc⟩ |
    ⟨b, c, d, rfl, hlo, hhi, hb, hc, hd⟩
  · have hvalue : sequenceValue lead [] = lead.toNat := rfl
    rw [hvalue]
    exact ⟨.inl (by omega), .inl ⟨rfl, hlead⟩⟩
  · have hbounds := isSecond_bounds hb
    rw [sequenceValue_one]
    exact ⟨.inl (by omega), .inr (.inl ⟨rfl, by omega, by omega⟩)⟩
  · have hbounds := isSecond_bounds hb
    have hsurrogate : lead.toNat = 0xed → b.toNat < 0xa0 := by
      intro hed
      rw [isSecond, hed, Bool.and_eq_true] at hb
      simpa using hb.2
    simp only [isContinuation, Bool.and_eq_true, decide_eq_true_eq] at hc
    rw [sequenceValue_two]
    refine ⟨?_, .inr (.inr (.inl ⟨rfl, by omega, by omega⟩))⟩
    rw [Nat.isValidChar]
    omega
  · have hbounds := isSecond_bounds hb
    simp only [isContinuation, Bool.and_eq_true, decide_eq_true_eq] at hc hd
    rw [sequenceValue_three]
    exact ⟨.inr ⟨by omega, by omega⟩, .inr (.inr (.inr ⟨rfl, by omega⟩))⟩

theorem IsSequence.value_lt {lead : UInt8} {cont : List UInt8} (h : IsSequence lead cont) :
    sequenceValue lead cont < 0x110000 := by
  rcases h.bounds.1 with hlow | hhigh
  · omega
  · exact hhigh.2

/-- The value of a complete sequence takes as many bytes. -/
theorem IsSequence.utf8Size {lead : UInt8} {cont : List UInt8} (h : IsSequence lead cont) :
    CodePoint.utf8Size (Fin.ofNat _ (sequenceValue lead cont)) = cont.length + 1 := by
  have hval : (Fin.ofNat 0x110000 (sequenceValue lead cont)).val = sequenceValue lead cont :=
    Nat.mod_eq_of_lt h.value_lt
  have hbounds := h.bounds.2
  rw [CodePoint.utf8Size, hval]
  split_ifs <;> omega

/-- The code point of a complete sequence is that of its character. -/
theorem IsSequence.ofChar {lead : UInt8} {cont : List UInt8} (h : IsSequence lead cont) :
    CodePoint.ofChar (sequenceChar lead cont) = Fin.ofNat _ (sequenceValue lead cont) := by
  have htoNat : (sequenceChar lead cont).toNat = sequenceValue lead cont := by
    rw [sequenceChar, Char.ofNat, dif_pos h.bounds.1]
    rfl
  apply Fin.ext
  show (sequenceChar lead cont).toNat = sequenceValue lead cont % 0x110000
  rw [htoNat, Nat.mod_eq_of_lt h.value_lt]

/-! ## Decoding with replacement -/

theorem decodeFrom_skip (bytes rest : List UInt8) :
    decodeFrom bytes.length (bytes ++ rest) = decodeFrom 0 rest := by
  induction bytes with
  | nil => rfl
  | cons b bytes ih => exact ih

/-- A complete sequence is not replaced. -/
theorem decodeReplace_sequence {lead : UInt8} {cont : List UInt8} (h : IsSequence lead cont)
    (rest : List UInt8) : decodeReplace (lead :: cont ++ rest) =
      CodePoint.ofChar (sequenceChar lead cont) :: decodeReplace rest := by
  have hunit : decodeUnit lead (cont ++ rest) =
      (cont.length + 1, Fin.ofNat _ (sequenceValue lead cont)) := by
    unfold decodeUnit
    simp only [h.length, Nat.add_sub_cancel, List.take_left, h.run]
    exact if_pos ⟨Nat.succ_ne_zero _, trivial⟩
  rw [decodeReplace, List.cons_append, decodeFrom, hunit, h.ofChar, Nat.add_sub_cancel,
    decodeFrom_skip]
  rfl

/-- **Nothing is replaced** in valid bytes. -/
theorem decodeReplace_of_utf8 {data : List UInt8} {text : List Char} (h : utf8 data = some text) :
    decodeReplace data = text.map CodePoint.ofChar := by
  induction text generalizing data with
  | nil =>
    cases data with
    | nil => rfl
    | cons b bs =>
      obtain ⟨cont, rest, text', -, -, -, hcons⟩ := utf8_cons h
      cases hcons
  | cons c text ih =>
    cases data with
    | nil => cases h
    | cons b bs =>
      obtain ⟨cont, rest, text', rfl, hseq, hrest, hcons⟩ := utf8_cons h
      obtain ⟨rfl, rfl⟩ := List.cons.inj hcons
      rw [← List.cons_append, decodeReplace_sequence hseq, ih hrest, List.map_cons]

/-- The text of valid bytes takes as many bytes. -/
theorem utf8ByteLength_of_utf8 {data : List UInt8} {text : List Char} (h : utf8 data = some text) :
    PyStr.utf8ByteLength (text.map CodePoint.ofChar) = data.length := by
  induction text generalizing data with
  | nil =>
    cases data with
    | nil => rfl
    | cons b bs =>
      obtain ⟨cont, rest, text', -, -, -, hcons⟩ := utf8_cons h
      cases hcons
  | cons c text ih =>
    cases data with
    | nil => cases h
    | cons b bs =>
      obtain ⟨cont, rest, text', rfl, hseq, hrest, hcons⟩ := utf8_cons h
      obtain ⟨rfl, rfl⟩ := List.cons.inj hcons
      rw [List.map_cons, PyStr.utf8ByteLength_cons, ih hrest, hseq.ofChar, hseq.utf8Size,
        List.length_cons, List.length_append]
      omega

end Lubko.Lib
