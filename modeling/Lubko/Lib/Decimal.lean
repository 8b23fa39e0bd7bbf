import Lubko.Lib.Json

/-!
# The order of decimal texts

Of two numbers in decimal, without leading zeros, the one with fewer digits is less; with as many
digits, the one whose text comes first.

* `before_digits` — texts of one length are ordered as the numbers they stand for.
* `lt_iff_shortlex` — the order of natural numbers, read off their texts.
-/

namespace Lubko.Lib

/-! ## Digits -/

/-- The value of a digit. -/
def digitValue (c : Char) : ℕ := c.toNat - '0'.toNat

theorem isDigit_bounds {c : Char} (h : c.isDigit = true) : 48 ≤ c.toNat ∧ c.toNat ≤ 57 := by
  simp only [Char.isDigit, Bool.and_eq_true, decide_eq_true_eq] at h
  exact h

theorem digitValue_lt {c : Char} (h : c.isDigit = true) : digitValue c < 10 := by
  have hbounds := isDigit_bounds h
  show c.toNat - 48 < 10
  omega

theorem digitValue_injective {c d : Char} (hc : c.isDigit = true) (hd : d.isDigit = true)
    (h : digitValue c = digitValue d) : c = d := by
  have hc' := isDigit_bounds hc
  have hd' := isDigit_bounds hd
  change c.toNat - 48 = d.toNat - 48 at h
  apply Char.toNat_inj.1
  omega

/-- The order of two digits is the order of their code points. -/
theorem ofChar_lt_iff {c d : Char} (hc : c.isDigit = true) (hd : d.isDigit = true) :
    CodePoint.ofChar c < CodePoint.ofChar d ↔ digitValue c < digitValue d := by
  have hc' := isDigit_bounds hc
  have hd' := isDigit_bounds hd
  show c.toNat < d.toNat ↔ c.toNat - 48 < d.toNat - 48
  omega

/-! ## Texts of digits -/

/-- The number a text of digits stands for. -/
def decimalValue (cs : List Char) : ℕ := Nat.ofDigitChars 10 cs 0

@[simp] theorem decimalValue_nil : decimalValue [] = 0 := Nat.ofDigitChars_nil

theorem decimalValue_cons (c : Char) (cs : List Char) :
    decimalValue (c :: cs) = 10 ^ cs.length * digitValue c + decimalValue cs := by
  rw [decimalValue, Nat.ofDigitChars_cons, Nat.ofDigitChars_eq_ofDigitChars_zero, Nat.mul_zero,
    Nat.zero_add]
  rfl

theorem decimalValue_lt {cs : List Char} (h : ∀ c ∈ cs, c.isDigit = true) :
    decimalValue cs < 10 ^ cs.length := by
  induction cs with
  | nil => simp
  | cons c cs ih =>
    rw [List.forall_mem_cons] at h
    have hdigit := digitValue_lt h.1
    have hrest := ih h.2
    calc decimalValue (c :: cs) = 10 ^ cs.length * digitValue c + decimalValue cs :=
          decimalValue_cons c cs
      _ < 10 ^ cs.length * digitValue c + 10 ^ cs.length := Nat.add_lt_add_left hrest _
      _ = 10 ^ cs.length * (digitValue c + 1) := (Nat.mul_succ _ _).symm
      _ ≤ 10 ^ cs.length * 10 := Nat.mul_le_mul_left _ hdigit
      _ = 10 ^ (c :: cs).length := by rw [List.length_cons, pow_succ]

/-- A greater first digit outweighs the rest. -/
theorem decimalValue_lt_of_head {c d : Char} {cs ds : List Char} (hlength : cs.length = ds.length)
    (hcs : ∀ c ∈ cs, c.isDigit = true) (h : digitValue c < digitValue d) :
    decimalValue (c :: cs) < decimalValue (d :: ds) := by
  have hrest := decimalValue_lt hcs
  calc decimalValue (c :: cs) = 10 ^ cs.length * digitValue c + decimalValue cs :=
        decimalValue_cons c cs
    _ < 10 ^ cs.length * digitValue c + 10 ^ cs.length := Nat.add_lt_add_left hrest _
    _ = 10 ^ cs.length * (digitValue c + 1) := (Nat.mul_succ _ _).symm
    _ ≤ 10 ^ cs.length * digitValue d := Nat.mul_le_mul_left _ h
    _ ≤ 10 ^ ds.length * digitValue d + decimalValue ds := by
      rw [hlength]
      exact Nat.le_add_right _ _
    _ = decimalValue (d :: ds) := (decimalValue_cons d ds).symm

/-- **Texts of one length are ordered as their numbers.** -/
theorem before_digits {cs ds : List Char} (hlength : cs.length = ds.length)
    (hcs : ∀ c ∈ cs, c.isDigit = true) (hds : ∀ d ∈ ds, d.isDigit = true) :
    PyStr.before (cs.map CodePoint.ofChar) (ds.map CodePoint.ofChar) = true ↔
      decimalValue cs ≤ decimalValue ds := by
  induction cs generalizing ds with
  | nil => simp [PyStr.before]
  | cons c cs ih =>
    cases ds with
    | nil => cases hlength
    | cons d ds =>
      have hlength' : cs.length = ds.length := Nat.succ.inj hlength
      rw [List.forall_mem_cons] at hcs hds
      rw [List.map_cons, List.map_cons, PyStr.before]
      rcases lt_trichotomy (digitValue c) (digitValue d) with hlt | heq | hgt
      · have hvalue := decimalValue_lt_of_head hlength' hcs.2 hlt
        have hpoint := (ofChar_lt_iff hcs.1 hds.1).2 hlt
        rw [if_neg hpoint.ne]
        simp [hpoint, hvalue.le]
      · obtain rfl := digitValue_injective hcs.1 hds.1 heq
        rw [if_pos rfl, ih hlength' hcs.2 hds.2, decimalValue_cons, decimalValue_cons, hlength']
        omega
      · have hvalue := decimalValue_lt_of_head hlength'.symm hds.2 hgt
        have hpoint := (ofChar_lt_iff hds.1 hcs.1).2 hgt
        rw [if_neg hpoint.ne']
        simp [hpoint.le, hvalue.not_ge]

/-! ## Numbers -/

/-- The decimal text of a number. -/
def decimalText (n : ℕ) : PyStr := (Nat.toDigits 10 n).map CodePoint.ofChar

theorem decimalValue_toDigits (n : ℕ) : decimalValue (Nat.toDigits 10 n) = n :=
  Nat.ofDigitChars_ten_toDigits

theorem length_decimalText_le_iff {n k : ℕ} (hk : 0 < k) :
    (decimalText n).length ≤ k ↔ n < 10 ^ k := by
  rw [decimalText, List.length_map]
  exact Nat.length_toDigits_le_iff (by decide) hk

theorem length_decimalText_pos (n : ℕ) : 0 < (decimalText n).length := by
  rw [decimalText, List.length_map]
  exact Nat.length_toDigits_pos

theorem decimalText_injective : Function.Injective decimalText := by
  intro m n h
  have hchars : Function.Injective CodePoint.ofChar := by
    intro c d hcd
    have hval : (CodePoint.ofChar c).val = (CodePoint.ofChar d).val := by rw [hcd]
    exact Char.toNat_inj.1 hval
  rw [← decimalValue_toDigits m, ← decimalValue_toDigits n,
    List.map_injective_iff.2 hchars h]

/-- **The order of two numbers is read off their texts**: by length, then character by character. -/
theorem lt_iff_shortlex (m n : ℕ) : m < n ↔
    (decimalText m).length < (decimalText n).length ∨
      (decimalText m).length = (decimalText n).length ∧ decimalText m ≠ decimalText n ∧
        PyStr.before (decimalText m) (decimalText n) = true := by
  have hbefore : (decimalText m).length = (decimalText n).length →
      (PyStr.before (decimalText m) (decimalText n) = true ↔ m ≤ n) := by
    intro hlength
    rw [decimalText, decimalText, List.length_map, List.length_map] at hlength
    have horder := before_digits hlength (fun c hc => isDigit_of_mem_toDigits hc)
      (fun d hd => isDigit_of_mem_toDigits hd)
    rw [decimalValue_toDigits, decimalValue_toDigits] at horder
    exact horder
  rcases lt_trichotomy (decimalText m).length (decimalText n).length with hlt | heq | hgt
  · -- the shorter text is below the power of ten that the longer one reaches
    have hm := (length_decimalText_le_iff (length_decimalText_pos m)).1 le_rfl
    have hn := (length_decimalText_le_iff (n := n) (length_decimalText_pos m)).not.1 hlt.not_ge
    exact iff_of_true (hm.trans_le (not_lt.1 hn)) (.inl hlt)
  · simp only [heq, lt_self_iff_false, true_and, false_or, hbefore heq]
    rw [Ne, decimalText_injective.eq_iff]
    omega
  · have hn := (length_decimalText_le_iff (length_decimalText_pos n)).1 le_rfl
    have hm := (length_decimalText_le_iff (n := m) (length_decimalText_pos n)).not.1 hgt.not_ge
    refine iff_of_false ?_ ?_
    · omega
    · omega

end Lubko.Lib
