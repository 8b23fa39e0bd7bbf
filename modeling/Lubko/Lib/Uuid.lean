import Lubko.Lib.PyStr

/-!
# UUIDs and their canonical text

A UUID is its 32 hexadecimal digits. `Uuid.text` is the canonical form `str(uuid)` gives:
lower-case digits in groups of 8, 4, 4, 4 and 12. It is injective and its own lower case.
-/

namespace Lubko.Lib

instance Uuid.instNeZero : NeZero (16 : ℕ) := ⟨by decide⟩

/-- A UUID, as its hexadecimal digits from the most significant one. -/
structure Uuid where
  digits : List (Fin 16)
  length_eq : digits.length = 32
  deriving DecidableEq

namespace Uuid

theorem digits_injective : Function.Injective digits := by
  intro a b h
  cases a
  cases b
  congr

/-- The UUID whose digits are all zero but the last. -/
def ofDigit (d : Fin 16) : Uuid := ⟨List.replicate 31 0 ++ [d], by simp⟩

/-- The lower-case hexadecimal digit. -/
def hexDigit (d : Fin 16) : CodePoint :=
  if d.val < 10 then ⟨0x30 + d.val, by omega⟩ else ⟨0x57 + d.val, by omega⟩

/-- `str(uuid)`. -/
def text (u : Uuid) : PyStr :=
  let h := u.digits.map hexDigit
  h.take 8 ++ [0x2d] ++ (h.drop 8).take 4 ++ [0x2d] ++ (h.drop 12).take 4 ++ [0x2d] ++
    (h.drop 16).take 4 ++ [0x2d] ++ h.drop 20

theorem hexDigit_injective : Function.Injective hexDigit := by
  have h : ∀ a b : Fin 16, hexDigit a = hexDigit b → a = b := by decide
  exact fun a b => h a b

theorem hexDigit_ne_dash (d : Fin 16) : hexDigit d ≠ 0x2d := by
  revert d
  decide

theorem hexDigit_not_upper (d : Fin 16) :
    ¬ (0x41 ≤ (hexDigit d).val ∧ (hexDigit d).val ≤ 0x5a) := by
  revert d
  decide

/-- The canonical text is made of digits and dashes. -/
theorem mem_text {u : Uuid} {c : CodePoint} (hc : c ∈ u.text) : (∃ d, c = hexDigit d) ∨ c = 0x2d := by
  simp only [text, List.mem_append, List.mem_singleton] at hc
  rcases hc with (((((((h | h) | h) | h) | h) | h) | h) | h) | h
  all_goals first
    | exact .inr h
    | obtain ⟨d, -, rfl⟩ := List.mem_map.1 (List.mem_of_mem_take h); exact .inl ⟨d, rfl⟩
    | obtain ⟨d, -, rfl⟩ := List.mem_map.1 (List.mem_of_mem_drop (List.mem_of_mem_take h))
      exact .inl ⟨d, rfl⟩
    | obtain ⟨d, -, rfl⟩ := List.mem_map.1 (List.mem_of_mem_drop h); exact .inl ⟨d, rfl⟩

/-- The canonical text is in lower case. -/
theorem lower_text (u : Uuid) : u.text.lower = u.text := by
  refine List.map_congr_left ?_ |>.trans (List.map_id _)
  intro c hc
  cases mem_text hc with
  | inl hdigit =>
    obtain ⟨d, rfl⟩ := hdigit
    rw [if_neg (hexDigit_not_upper d), id]
  | inr hdash =>
    subst hdash
    decide

/-- Dropping the dashes gives the digits back. -/
theorem filter_text (u : Uuid) : u.text.filter (· ≠ 0x2d) = u.digits.map hexDigit := by
  have hhex : ∀ c ∈ u.digits.map hexDigit, c ≠ 0x2d := by
    intro c hc
    obtain ⟨d, -, rfl⟩ := List.mem_map.1 hc
    exact hexDigit_ne_dash d
  unfold text
  generalize u.digits.map hexDigit = a at hhex ⊢
  have htake (l : List CodePoint) (n : ℕ) (hl : ∀ c ∈ l, c ≠ 0x2d) :
      (l.take n).filter (· ≠ 0x2d) = l.take n :=
    List.filter_eq_self.2 fun c hc => by simpa using hl c (List.mem_of_mem_take hc)
  have hdrop (n : ℕ) : ∀ c ∈ a.drop n, c ≠ 0x2d := fun c hc => hhex c (List.mem_of_mem_drop hc)
  have hjoin (n m : ℕ) : (a.drop n).take m ++ a.drop (n + m) = a.drop n := by
    rw [← List.drop_drop, List.take_append_drop]
  have hlast : (a.drop 20).filter (· ≠ 0x2d) = a.drop 20 :=
    List.filter_eq_self.2 fun c hc => by simpa using hdrop 20 c hc
  have hdash : [(0x2d : CodePoint)].filter (· ≠ 0x2d) = [] := by decide
  simp only [List.filter_append, htake a 8 hhex, htake _ 4 (hdrop _), hlast, hdash,
    List.nil_append, List.append_assoc]
  rw [hjoin 16 4, hjoin 12 4, hjoin 8 4, List.take_append_drop]

theorem text_injective : Function.Injective text := by
  intro u v h
  have hmap : u.digits.map hexDigit = v.digits.map hexDigit := by
    rw [← filter_text, ← filter_text, h]
  have hdig := List.map_injective_iff.2 hexDigit_injective hmap
  cases u
  cases v
  cases hdig
  rfl

/-! ## Reading a text -/

/-- The value of a lower-case hexadecimal digit. -/
def digit? (c : CodePoint) : Option (Fin 16) := (List.finRange 16).find? fun d => hexDigit d = c

/-- `UUID(text)`, for a text of hexadecimal digits and dashes. -/
def ofText (s : PyStr) : Option Uuid :=
  ((s.lower.filter (· ≠ 0x2d)).mapM digit?).bind fun ds =>
    if h : ds.length = 32 then some ⟨ds, h⟩ else none

theorem digit?_hexDigit : ∀ d, digit? (hexDigit d) = some d := by decide

/-- The canonical text is read back. -/
theorem ofText_text (u : Uuid) : ofText u.text = some u := by
  have hdigits : (u.digits.map hexDigit).mapM digit? = some u.digits := by
    induction u.digits with
    | nil => rfl
    | cons d ds ih => rw [List.map_cons, List.mapM_cons, digit?_hexDigit, ih]; rfl
  rw [ofText, lower_text, filter_text, hdigits, Option.bind_some, dif_pos u.length_eq]

end Uuid

end Lubko.Lib
