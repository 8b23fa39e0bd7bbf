import Mathlib.Algebra.GroupWithZero.Nat
import Mathlib.Data.List.Basic

/-!
# Python strings

A Python `str` is a sequence of code points, and unlike a Lean `String` it may hold surrogates,
paired or not. Lean string literals are read as Python ones through a coercion.
-/

namespace Lubko.Lib

/-- A code point, surrogates included. -/
abbrev CodePoint := Fin 0x110000

instance CodePoint.instNeZero : NeZero (0x110000 : ℕ) := ⟨by decide⟩

/-- A Python `str`. -/
abbrev PyStr := List CodePoint

instance PyStr.instLawfulBEq : LawfulBEq PyStr := inferInstance

theorem char_toNat_lt (c : Char) : c.toNat < 0x110000 := by
  rcases c.valid with h | ⟨-, h⟩
  · have hlt : c.toNat < 0xd800 := h
    omega
  · exact h

/-- The code point of a Lean character. -/
def CodePoint.ofChar (c : Char) : CodePoint := ⟨c.toNat, char_toNat_lt c⟩

/-- A Lean string as a Python one. -/
def PyStr.ofString (s : String) : PyStr := s.toList.map CodePoint.ofChar

instance : Coe String PyStr := ⟨PyStr.ofString⟩

/-- The number of bytes a code point takes in UTF-8. -/
def CodePoint.utf8Size (c : CodePoint) : ℕ :=
  if c.val < 0x80 then 1 else if c.val < 0x800 then 2 else if c.val < 0x10000 then 3 else 4

theorem CodePoint.utf8Size_pos (c : CodePoint) : 0 < c.utf8Size := by
  unfold CodePoint.utf8Size
  split_ifs <;> omega

/-- `len(text.encode("utf-8"))`, for a text without surrogates. -/
def PyStr.utf8ByteLength (s : PyStr) : ℕ := (s.map CodePoint.utf8Size).sum

@[simp] theorem PyStr.utf8ByteLength_nil : PyStr.utf8ByteLength [] = 0 := rfl

@[simp] theorem PyStr.utf8ByteLength_cons (c : CodePoint) (s : PyStr) :
    PyStr.utf8ByteLength (c :: s) = c.utf8Size + PyStr.utf8ByteLength s := by
  simp [PyStr.utf8ByteLength]

/-- `str.lower`, on the ASCII letters. -/
def PyStr.lower (s : PyStr) : PyStr :=
  s.map fun c => if 0x41 ≤ c.val ∧ c.val ≤ 0x5a then c + 0x20 else c

/-- `str.isspace`, on one code point. -/
def CodePoint.isSpace (c : CodePoint) : Bool :=
  (0x09 ≤ c.val && c.val ≤ 0x0d) || (0x1c ≤ c.val && c.val ≤ 0x20) || c.val = 0x85 ||
    c.val = 0xa0 || c.val = 0x1680 || (0x2000 ≤ c.val && c.val ≤ 0x200a) || c.val = 0x2028 ||
    c.val = 0x2029 || c.val = 0x202f || c.val = 0x205f || c.val = 0x3000

/-- `str.strip`. -/
def PyStr.strip (s : PyStr) : PyStr :=
  ((s.dropWhile CodePoint.isSpace).reverse.dropWhile CodePoint.isSpace).reverse

/-! ## Refusals -/

theorem except_bind_eq_ok {ε α β : Type} {x : Except ε α} {f : α → Except ε β} {b : β} :
    (x >>= f) = .ok b ↔ ∃ a, x = .ok a ∧ f a = .ok b := by
  cases x with
  | error e => simp [bind, Except.bind]
  | ok a => simp [bind, Except.bind]

/-- `if refused: raise ...(msg)`. -/
def raiseIf (refused : Bool) (msg : PyStr) : Except PyStr Unit :=
  if refused then .error msg else .ok ()

theorem raiseIf_eq_ok {refused : Bool} {msg : PyStr} {u : Unit} :
    raiseIf refused msg = .ok u ↔ refused = false := by
  cases refused with
  | false => simp [raiseIf]
  | true => simp [raiseIf]

theorem raiseIf_bind_eq_ok {α : Type} {refused : Bool} {msg : PyStr} {f : Unit → Except PyStr α}
    {a : α} : (raiseIf refused msg >>= f) = .ok a ↔ refused = false ∧ f () = .ok a := by
  cases refused with
  | false => simp [raiseIf, bind, Except.bind]
  | true => simp [raiseIf, bind, Except.bind]

end Lubko.Lib
