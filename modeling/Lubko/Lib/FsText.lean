import Lubko.Lib.Utf8Cut
import Lubko.Lib.Uuid

/-!
# Bytes as text

A name of the file system is bytes. `os.fsdecode` makes a string of it: UTF-8, with every byte that
does not decode as a lone surrogate. Encoding the string strictly gives the name back, and raises
where the name was not valid UTF-8. A digest is written in hexadecimal digits.

* `encode?_fsdecode` — what the strict encoding of a decoded name is.
* `encode?_append` — strings one behind the other.
* `fromHex_toHex` — bytes from their hexadecimal digits.
-/

namespace Lubko.Lib

/-! ## Encoding -/

/-- The bytes of a code point in UTF-8; a surrogate has none. -/
def CodePoint.encode? (c : CodePoint) : Option (List UInt8) :=
  if c.isHigh || c.isLow then none else some (utf8EncodeChar (Char.ofNat c.val))

/-- `text.encode("utf-8")`; `none` is a `UnicodeEncodeError`. -/
def PyStr.encode? : PyStr → Option (List UInt8)
  | [] => some []
  | c :: text => c.encode?.bind fun bytes => (PyStr.encode? text).map (bytes ++ ·)

@[simp] theorem PyStr.encode?_nil : PyStr.encode? [] = some [] := rfl

theorem PyStr.encode?_cons (c : CodePoint) (text : PyStr) : PyStr.encode? (c :: text) =
    c.encode?.bind fun bytes => (PyStr.encode? text).map (bytes ++ ·) := rfl

theorem PyStr.encode?_append (s t : PyStr) : PyStr.encode? (s ++ t) =
    (PyStr.encode? s).bind fun x => (PyStr.encode? t).map (x ++ ·) := by
  induction s with
  | nil => simp
  | cons c s ih =>
    rw [List.cons_append, PyStr.encode?_cons, ih, PyStr.encode?_cons]
    cases c.encode? with
    | none => rfl
    | some x =>
      cases PyStr.encode? s with
      | none => rfl
      | some y =>
        cases PyStr.encode? t with
        | none => rfl
        | some z => simp

/-! ## Decoding -/

/-- Decode with `surrogateescape`, ignoring the first `skip` bytes, which belong to a sequence
already decoded. -/
def fsdecodeFrom : ℕ → List UInt8 → PyStr
  | _, [] => []
  | 0, b :: bs =>
    let n := sequenceLength b
    let cont := continuationRun b (bs.take (n - 1))
    if n ≠ 0 ∧ cont.length = n - 1 then
      Fin.ofNat _ (sequenceValue b cont) :: fsdecodeFrom (n - 1) bs
    else Fin.ofNat _ (0xdc00 + b.toNat) :: fsdecodeFrom 0 bs
  | skip + 1, _ :: bs => fsdecodeFrom skip bs

/-- `os.fsdecode`. -/
def fsdecode (bytes : List UInt8) : PyStr := fsdecodeFrom 0 bytes

theorem fsdecodeFrom_skip (bytes rest : List UInt8) :
    fsdecodeFrom bytes.length (bytes ++ rest) = fsdecodeFrom 0 rest := by
  induction bytes with
  | nil => rfl
  | cons b bytes ih => exact ih

/-- A complete sequence is decoded. -/
theorem fsdecode_sequence {lead : UInt8} {cont : List UInt8} (h : IsSequence lead cont)
    (rest : List UInt8) : fsdecode (lead :: cont ++ rest) =
      Fin.ofNat _ (sequenceValue lead cont) :: fsdecode rest := by
  rw [fsdecode, List.cons_append, fsdecodeFrom]
  simp only [h.length, Nat.add_sub_cancel, List.take_left, h.run, fsdecodeFrom_skip]
  exact if_pos ⟨Nat.succ_ne_zero _, trivial⟩

/-! ## Round trip -/

/-- A complete sequence is the bytes of its character. -/
theorem IsSequence.encodeChar {lead : UInt8} {cont : List UInt8} (h : IsSequence lead cont) :
    utf8EncodeChar (sequenceChar lead cont) = lead :: cont := by
  have htoNat : (sequenceChar lead cont).toNat = sequenceValue lead cont := by
    rw [sequenceChar, Char.ofNat, dif_pos h.bounds.1]
    rfl
  have byte (b : UInt8) (n : ℕ) (hn : n = b.toNat) : UInt8.ofNat n = b := by
    rw [hn, UInt8.ofNat_toNat]
  have hvalid := h.bounds.1
  rw [Nat.isValidChar] at hvalid
  rw [utf8EncodeChar, htoNat]
  rcases h.cases with ⟨rfl, hlead⟩ | ⟨b, rfl, hlo, hhi, hb⟩ | ⟨b, c, rfl, hlo, hhi, hb, hc⟩ |
    ⟨b, c, d, rfl, hlo, hhi, hb, hc, hd⟩
  · have hvalue : sequenceValue lead [] = lead.toNat := rfl
    simp only [hvalue, if_pos hlead]
    rw [byte lead _ rfl]
  · have hbounds := isSecond_bounds hb
    rw [sequenceValue_one] at hvalid ⊢
    rw [if_neg (by omega), if_pos (by omega), byte lead _ (by omega), byte b _ (by omega)]
  · have hbounds := isSecond_bounds hb
    simp only [isContinuation, Bool.and_eq_true, decide_eq_true_eq] at hc
    rw [sequenceValue_two] at hvalid ⊢
    rw [if_neg (by omega), if_neg (by omega), if_pos (by omega), byte lead _ (by omega),
      byte b _ (by omega), byte c _ (by omega)]
  · have hbounds := isSecond_bounds hb
    simp only [isContinuation, Bool.and_eq_true, decide_eq_true_eq] at hc hd
    rw [sequenceValue_three] at hvalid ⊢
    rw [if_neg (by omega), if_neg (by omega), if_neg (by omega), byte lead _ (by omega),
      byte b _ (by omega), byte c _ (by omega), byte d _ (by omega)]

/-- The code point of a complete sequence is no surrogate. -/
theorem IsSequence.encode? {lead : UInt8} {cont : List UInt8} (h : IsSequence lead cont) :
    CodePoint.encode? (Fin.ofNat _ (sequenceValue lead cont)) = some (lead :: cont) := by
  have hval : (Fin.ofNat 0x110000 (sequenceValue lead cont)).val = sequenceValue lead cont :=
    Nat.mod_eq_of_lt h.value_lt
  have hvalid := h.bounds.1
  rw [Nat.isValidChar] at hvalid
  rw [CodePoint.encode?, hval, if_neg, ← h.encodeChar]
  · rfl
  · simp only [CodePoint.isHigh, CodePoint.isLow, Bool.or_eq_true, Bool.and_eq_true,
      decide_eq_true_eq, hval]
    omega

/-- An escaped byte has no encoding. -/
theorem encode?_escaped (b : UInt8) :
    CodePoint.encode? (Fin.ofNat _ (0xdc00 + b.toNat)) = none := by
  have hb := b.toNat_lt
  have hval : (Fin.ofNat 0x110000 (0xdc00 + b.toNat)).val = 0xdc00 + b.toNat :=
    Nat.mod_eq_of_lt (by omega)
  rw [CodePoint.encode?, if_pos]
  simp only [CodePoint.isHigh, CodePoint.isLow, Bool.or_eq_true, Bool.and_eq_true,
    decide_eq_true_eq, hval]
  omega

/-- A byte that starts no complete sequence is escaped, and does not decode strictly. -/
theorem encode?_fsdecode_of_incomplete (b : UInt8) (bs : List UInt8)
    (h : sequenceLength b ≠ 0 →
      (continuationRun b (bs.take (sequenceLength b - 1))).length ≠ sequenceLength b - 1) :
    PyStr.encode? (fsdecode (b :: bs)) = none ∧ utf8 (b :: bs) = none := by
  rw [fsdecode, fsdecodeFrom, utf8, decodeStrictFrom]
  simp only [if_neg (not_and.2 h), PyStr.encode?_cons, encode?_escaped]
  exact ⟨rfl, trivial⟩

/-- **The strict encoding of a decoded name**: its bytes, where they are valid UTF-8. -/
theorem encode?_fsdecode (bytes : List UInt8) :
    PyStr.encode? (fsdecode bytes) = (utf8 bytes).map fun _ => bytes := by
  induction hn : bytes.length using Nat.strong_induction_on generalizing bytes with
  | _ n ih =>
    cases bytes with
    | nil => rfl
    | cons b bs =>
      rcases decodeUnit_cases b bs with ⟨cont, rest, rfl, hseq, -⟩ | ⟨hzero, -⟩ | ⟨hcut, -⟩
      · have hrest := ih rest.length (by
          rw [← hn, List.length_cons, List.length_append]
          omega) rest rfl
        have hutf8 : utf8 (b :: cont ++ rest) =
            (utf8 rest).map fun t => sequenceChar b cont :: t :=
          decodeStrictFrom_sequence rest hseq.length hseq.run
        rw [← List.cons_append, fsdecode_sequence hseq, PyStr.encode?_cons, hseq.encode?, hrest,
          hutf8]
        cases utf8 rest with
        | none => rfl
        | some t => rfl
      · obtain ⟨hencode, hutf8⟩ := encode?_fsdecode_of_incomplete b bs fun h => absurd hzero h
        rw [hencode, hutf8]
        rfl
      · have hrun := continuationRun_take b bs (sequenceLength b - 1)
        obtain ⟨hencode, hutf8⟩ := encode?_fsdecode_of_incomplete b bs fun _ => by
          rw [hrun, List.length_take]
          omega
        rw [hencode, hutf8]
        rfl

theorem encode?_fsdecode_eq_some {bytes x : List UInt8}
    (h : PyStr.encode? (fsdecode bytes) = some x) : x = bytes := by
  rw [encode?_fsdecode] at h
  obtain ⟨t, -, rfl⟩ := Option.map_eq_some_iff.1 h
  rfl

/-! ## Hexadecimal digits -/

/-- The value of a hexadecimal digit. -/
def CodePoint.hexDigit? (c : CodePoint) : Option ℕ :=
  if 0x30 ≤ c.val ∧ c.val ≤ 0x39 then some (c.val - 0x30)
  else if 0x61 ≤ c.val ∧ c.val ≤ 0x66 then some (c.val - 0x57)
  else if 0x41 ≤ c.val ∧ c.val ≤ 0x46 then some (c.val - 0x37)
  else none

/-- The white space that `bytes.fromhex` skips between two bytes. -/
def CodePoint.isAsciiSpace (c : CodePoint) : Bool :=
  (0x09 ≤ c.val && c.val ≤ 0x0d) || c.val = 0x20

/-- `bytes.fromhex`; `none` is a `ValueError`. -/
def fromHex : PyStr → Option (List UInt8)
  | [] => some []
  | [c] => if c.isAsciiSpace then some [] else none
  | c :: d :: text =>
    if c.isAsciiSpace then fromHex (d :: text)
    else c.hexDigit?.bind fun high => d.hexDigit?.bind fun low =>
      (fromHex text).map (UInt8.ofNat (0x10 * high + low) :: ·)

/-- `data.hex()`. -/
def toHex (data : List UInt8) : PyStr :=
  data.flatMap fun b => [Uuid.hexDigit (Fin.ofNat 16 (b.toNat / 0x10)),
    Uuid.hexDigit (Fin.ofNat 16 b.toNat)]

theorem hexDigit?_hexDigit (d : Fin 16) : (Uuid.hexDigit d).hexDigit? = some d.val := by
  revert d
  decide

theorem isAsciiSpace_hexDigit (d : Fin 16) : (Uuid.hexDigit d).isAsciiSpace = false := by
  revert d
  decide

/-- **Bytes are read back from their digits.** -/
theorem fromHex_toHex (data : List UInt8) : fromHex (toHex data) = some data := by
  induction data with
  | nil => rfl
  | cons b data ih =>
    have hb := b.toNat_lt
    have hbyte : UInt8.ofNat (0x10 * (Fin.ofNat 16 (b.toNat / 0x10)).val +
        (Fin.ofNat 16 b.toNat).val) = b := by
      have hvalue : 0x10 * (b.toNat / 0x10 % 16) + b.toNat % 16 = b.toNat := by omega
      calc UInt8.ofNat _ = UInt8.ofNat b.toNat := congrArg UInt8.ofNat hvalue
        _ = b := UInt8.ofNat_toNat
    rw [toHex, List.flatMap_cons, List.cons_append, List.cons_append, List.nil_append, fromHex,
      isAsciiSpace_hexDigit, if_neg Bool.false_ne_true, hexDigit?_hexDigit, hexDigit?_hexDigit,
      Option.bind_some, Option.bind_some, hbyte, ← toHex, ih, Option.map_some]

end Lubko.Lib
