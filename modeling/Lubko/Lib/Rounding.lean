import Lubko.Lib.JsonFile

/-!
# Which numbers round to a float

`roundBinary64` on the numbers that are not negative: a sum stays finite while it keeps below the
middle between the largest float and the power of two that follows it.

* `roundBinary64_le_maxFloat` — the numbers that round to a float.
-/

namespace Lubko.Lib

/-- The largest float. -/
def maxFloat : ℚ := 2 ^ (1024 : ℤ) - 2 ^ (971 : ℤ)

theorem roundEven_le (q : ℚ) : (roundEven q : ℚ) ≤ q + 1 / 2 := by
  have hq := Int.floor_add_fract q
  have hfract := Int.fract_nonneg q
  rw [roundEven]
  split_ifs with hbelow habove heven
  · linarith
  · push_cast
    linarith
  · linarith
  -- the middle, rounded up to the even neighbour
  · push_cast
    linarith

theorem roundBinary64_nonneg {q r : ℚ} (h : roundBinary64 q = some r) (hq : 0 ≤ q) : 0 ≤ r := by
  rw [roundBinary64] at h
  split_ifs at h
  obtain rfl := Option.some.inj h
  have hulp : (0 : ℚ) ≤ 2 ^ max (Int.log 2 q - 52) (-1074) := by positivity
  have hround : 0 ≤ roundEven (q / 2 ^ max (Int.log 2 q - 52) (-1074)) :=
    (Int.floor_nonneg.2 (div_nonneg hq hulp)).trans (floor_le_roundEven _)
  exact mul_nonneg (Int.cast_nonneg hround) hulp

theorem roundBinary64_zero : roundBinary64 0 = some 0 := by
  simp [roundBinary64, roundEven]

/-- The powers of two around the largest float, in units of half its last place. -/
theorem powers_around_maxFloat : (2 : ℚ) ^ (1024 : ℤ) = 2 ^ 54 * 2 ^ (970 : ℤ) ∧
    (2 : ℚ) ^ (1023 : ℤ) = 2 ^ 53 * 2 ^ (970 : ℤ) ∧ (2 : ℚ) ^ (971 : ℤ) = 2 * 2 ^ (970 : ℤ) := by
  refine ⟨?_, ?_, ?_⟩
  · rw [← zpow_natCast (2 : ℚ) 54, ← zpow_add₀ two_ne_zero]
    rfl
  · rw [← zpow_natCast (2 : ℚ) 53, ← zpow_add₀ two_ne_zero]
    rfl
  · rw [← zpow_one_add₀ two_ne_zero]
    rfl

theorem maxFloat_nonneg : 0 ≤ maxFloat :=
  sub_nonneg.2 (zpow_le_zpow_right₀ one_le_two (by decide))

/-- In the last binade a number below the middle rounds down to the largest float. -/
theorem rounded_le_maxFloat_top {q : ℚ} (h : q < maxFloat + 2 ^ (970 : ℤ)) :
    roundEven (q / 2 ^ (971 : ℤ)) * (2 : ℚ) ^ (971 : ℤ) ≤ maxFloat := by
  obtain ⟨htop, -, hulp⟩ := powers_around_maxFloat
  have hunit : (0 : ℚ) < 2 ^ (970 : ℤ) := by positivity
  have hquot : q / 2 ^ (971 : ℤ) < 2 ^ 53 - 1 / 2 := by
    rw [div_lt_iff₀ (by positivity)]
    rw [maxFloat, htop, hulp] at h
    rw [hulp]
    linarith
  have hround : roundEven (q / 2 ^ (971 : ℤ)) < 2 ^ 53 := by
    have hle := roundEven_le (q / 2 ^ (971 : ℤ))
    exact_mod_cast show (roundEven (q / 2 ^ (971 : ℤ)) : ℚ) < 2 ^ 53 by linarith
  have hcast : (roundEven (q / 2 ^ (971 : ℤ)) : ℚ) ≤ 2 ^ 53 - 1 := by
    exact_mod_cast Int.le_sub_one_of_lt hround
  calc roundEven (q / 2 ^ (971 : ℤ)) * (2 : ℚ) ^ (971 : ℤ)
      ≤ (2 ^ 53 - 1) * 2 ^ (971 : ℤ) := by gcongr
    _ = maxFloat := by
      rw [maxFloat, htop, hulp]
      ring

/-- Below the last binade rounding adds half a last place at most. -/
theorem rounded_le_maxFloat_below {q : ℚ} {e : ℤ} (h : q < 2 ^ (1023 : ℤ)) (he : e ≤ 970) :
    roundEven (q / 2 ^ e) * (2 : ℚ) ^ e ≤ maxFloat := by
  obtain ⟨htop, hbinade, hulp⟩ := powers_around_maxFloat
  have hunit : (0 : ℚ) < 2 ^ (970 : ℤ) := by positivity
  have hpos : (0 : ℚ) < 2 ^ e := by positivity
  have hplace : (2 : ℚ) ^ e ≤ 2 ^ (970 : ℤ) := zpow_le_zpow_right₀ one_le_two he
  calc roundEven (q / 2 ^ e) * (2 : ℚ) ^ e ≤ (q / 2 ^ e + 1 / 2) * 2 ^ e := by
        gcongr
        exact roundEven_le _
    _ = q + 2 ^ e / 2 := by field_simp
    _ ≤ maxFloat := by
      rw [maxFloat, htop, hulp]
      rw [hbinade] at h
      generalize (2 : ℚ) ^ (970 : ℤ) = unit at *
      linarith

/-- **Which numbers round to a float**: those below the middle behind the largest one. -/
theorem roundBinary64_le_maxFloat {q : ℚ} (hq : 0 ≤ q) (h : q < maxFloat + 2 ^ (970 : ℤ)) :
    ∃ r, roundBinary64 q = some r ∧ 0 ≤ r ∧ r ≤ maxFloat := by
  have hmax : maxFloat < 2 ^ (1024 : ℤ) := sub_lt_self _ (by positivity)
  have hmiddle : maxFloat + 2 ^ (970 : ℤ) < 2 ^ (1024 : ℤ) := by
    have hunit : (0 : ℚ) < 2 ^ (970 : ℤ) := by positivity
    rw [maxFloat, powers_around_maxFloat.2.2]
    generalize (2 : ℚ) ^ (970 : ℤ) = unit at *
    linarith
  have hle : roundEven (q / 2 ^ max (Int.log 2 q - 52) (-1074)) *
      (2 : ℚ) ^ max (Int.log 2 q - 52) (-1074) ≤ maxFloat := by
    by_cases hbelow : q < 2 ^ (1023 : ℤ)
    · refine rounded_le_maxFloat_below hbelow ?_
      rcases hq.eq_or_lt with hzero | hpos
      · rw [← hzero, Int.log_zero_right]
        decide
      · have hlog : Int.log 2 q < 1023 :=
          (Int.lt_zpow_iff_log_lt one_lt_two hpos).1 (by rw [Nat.cast_ofNat]; exact hbelow)
        omega
    · have hbinade := not_lt.1 hbelow
      have hpos : 0 < q := lt_of_lt_of_le (by positivity) hbinade
      have hlog : Int.log 2 q = 1023 := by
        have hlow : 1023 ≤ Int.log 2 q :=
          (Int.zpow_le_iff_le_log one_lt_two hpos).1 (by rw [Nat.cast_ofNat]; exact hbinade)
        have hhigh : Int.log 2 q < 1024 :=
          (Int.lt_zpow_iff_log_lt one_lt_two hpos).1 (by rw [Nat.cast_ofNat]; exact h.trans hmiddle)
        omega
      rw [hlog, show max (1023 - 52 : ℤ) (-1074) = 971 from rfl]
      exact rounded_le_maxFloat_top h
  have hsome : roundBinary64 q = some (roundEven (q / 2 ^ max (Int.log 2 q - 52) (-1074)) *
      (2 : ℚ) ^ max (Int.log 2 q - 52) (-1074)) := by
    rw [roundBinary64]
    exact if_pos (hle.trans_lt hmax)
  exact ⟨_, hsome, roundBinary64_nonneg hsome hq, hle⟩

end Lubko.Lib
