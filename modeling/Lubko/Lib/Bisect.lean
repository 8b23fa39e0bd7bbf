import Mathlib.Order.Basic
import Mathlib.Tactic.Common

/-!
# Binary search over a range of indices

The two loops `while lo <= hi` that keep the last index at which a predicate was seen to hold,
moving left (`bisectFirst`) or right (`bisectLast`) after a success. The range is `[lo, lo + len)`.
Whatever the predicate, an index they return satisfies it; `bisectFirst_of_iff`: on a predicate
that holds exactly from some index on, `bisectFirst` returns that index, and `bisectLast_of_iff` is
its mirror image. On other predicates `bisectFirst` finds the first index where it holds when it
holds wherever the search looks behind that index, and only then (`bisectFirst_eq_first_iff`).
-/

namespace Lubko.Lib

/-- Search to the left after a success. -/
def bisectFirst (p : ℕ → Bool) (lo len : ℕ) (found : Option ℕ) : Option ℕ :=
  if len = 0 then found
  else
    let mid := lo + (len - 1) / 2
    if p mid then bisectFirst p lo ((len - 1) / 2) (some mid)
    else bisectFirst p (mid + 1) (len - 1 - (len - 1) / 2) found
termination_by len
decreasing_by all_goals omega

/-- Search to the right after a success. -/
def bisectLast (p : ℕ → Bool) (lo len : ℕ) (found : Option ℕ) : Option ℕ :=
  if len = 0 then found
  else
    let mid := lo + (len - 1) / 2
    if p mid then bisectLast p (mid + 1) (len - 1 - (len - 1) / 2) (some mid)
    else bisectLast p lo ((len - 1) / 2) found
termination_by len
decreasing_by all_goals omega

theorem bisectFirst_eq_some {p : ℕ → Bool} {lo len i : ℕ} {found : Option ℕ}
    (h : bisectFirst p lo len found = some i) :
    found = some i ∨ p i = true ∧ lo ≤ i ∧ i < lo + len := by
  induction lo, len, found using bisectFirst.induct p with
  | case1 lo found =>
    rw [bisectFirst] at h
    exact .inl (by simpa using h)
  | case2 lo len found hlen mid hp ih =>
    rw [bisectFirst, if_neg hlen] at h
    simp only [mid] at hp ih
    rw [if_pos hp] at h
    rcases ih h with hmid | ⟨hpi, hlo, hhi⟩
    · obtain rfl := Option.some.inj hmid
      exact .inr ⟨hp, by omega, by omega⟩
    · exact .inr ⟨hpi, hlo, by omega⟩
  | case3 lo len found hlen mid hp ih =>
    rw [bisectFirst, if_neg hlen] at h
    simp only [mid] at hp ih
    rw [if_neg hp] at h
    rcases ih h with hfound | ⟨hpi, hlo, hhi⟩
    · exact .inl hfound
    · exact .inr ⟨hpi, by omega, by omega⟩

theorem bisectFirst_of_found {p : ℕ → Bool} {lo len : ℕ} {found : Option ℕ}
    (h : found.isSome = true) : (bisectFirst p lo len found).isSome = true := by
  induction lo, len, found using bisectFirst.induct p with
  | case1 lo found =>
    rw [bisectFirst, if_pos rfl]
    exact h
  | case2 lo len found hlen mid hp ih =>
    rw [bisectFirst, if_neg hlen, if_pos hp]
    exact ih rfl
  | case3 lo len found hlen mid hp ih =>
    rw [bisectFirst, if_neg hlen, if_neg hp]
    exact ih h

/-- A predicate that holds at the last index is seen to hold somewhere. -/
theorem bisectFirst_of_last {p : ℕ → Bool} {lo len : ℕ} {found : Option ℕ} (hlen : 0 < len)
    (h : p (lo + len - 1) = true) : (bisectFirst p lo len found).isSome = true := by
  induction lo, len, found using bisectFirst.induct p with
  | case1 lo found => omega
  | case2 lo len found hlen' mid hp ih =>
    rw [bisectFirst, if_neg hlen', if_pos hp]
    exact bisectFirst_of_found rfl
  | case3 lo len found hlen' mid hp ih =>
    rw [bisectFirst, if_neg hlen', if_neg hp]
    have hne : mid ≠ lo + len - 1 := fun heq => hp (heq ▸ h)
    have hend : mid + 1 + (len - 1 - (len - 1) / 2) - 1 = lo + len - 1 := by omega
    refine ih (by omega) ?_
    rw [hend]
    exact h

/-- The index before a result was tried and failed, unless the result is the first one. -/
theorem bisectFirst_prev {p : ℕ → Bool} {lo len i : ℕ} {found : Option ℕ}
    (h : bisectFirst p lo len found = some i) (hfound : found = none ∨ found = some (lo + len)) :
    i = lo ∨ p (i - 1) = false := by
  induction lo, len, found using bisectFirst.induct p with
  | case1 lo found =>
    rw [bisectFirst, if_pos rfl] at h
    rcases hfound with hnone | hsome
    · rw [hnone] at h
      cases h
    · rw [hsome] at h
      exact .inl (Option.some.inj h).symm
  | case2 lo len found hlen mid hp ih =>
    rw [bisectFirst, if_neg hlen, if_pos hp] at h
    exact ih h (.inr rfl)
  | case3 lo len found hlen mid hp ih =>
    rw [bisectFirst, if_neg hlen, if_neg hp] at h
    have hend : mid + 1 + (len - 1 - (len - 1) / 2) = lo + len := by omega
    rcases ih h (by rw [hend]; exact hfound) with heq | hprev
    · rw [heq, Nat.add_sub_cancel]
      exact .inr (Bool.eq_false_iff.2 hp)
    · exact .inr hprev

theorem bisectLast_eq_some {p : ℕ → Bool} {lo len i : ℕ} {found : Option ℕ}
    (h : bisectLast p lo len found = some i) :
    found = some i ∨ p i = true ∧ lo ≤ i ∧ i < lo + len := by
  induction lo, len, found using bisectLast.induct p with
  | case1 lo found =>
    rw [bisectLast] at h
    exact .inl (by simpa using h)
  | case2 lo len found hlen mid hp ih =>
    rw [bisectLast, if_neg hlen] at h
    simp only [mid] at hp ih
    rw [if_pos hp] at h
    rcases ih h with hmid | ⟨hpi, hlo, hhi⟩
    · obtain rfl := Option.some.inj hmid
      exact .inr ⟨hp, by omega, by omega⟩
    · exact .inr ⟨hpi, by omega, by omega⟩
  | case3 lo len found hlen mid hp ih =>
    rw [bisectLast, if_neg hlen] at h
    simp only [mid] at hp ih
    rw [if_neg hp] at h
    rcases ih h with hfound | ⟨hpi, hlo, hhi⟩
    · exact .inl hfound
    · exact .inr ⟨hpi, hlo, by omega⟩

theorem bisectLast_of_found {p : ℕ → Bool} {lo len : ℕ} {found : Option ℕ}
    (h : found.isSome = true) : (bisectLast p lo len found).isSome = true := by
  induction lo, len, found using bisectLast.induct p with
  | case1 lo found =>
    rw [bisectLast, if_pos rfl]
    exact h
  | case2 lo len found hlen mid hp ih =>
    rw [bisectLast, if_neg hlen, if_pos hp]
    exact ih rfl
  | case3 lo len found hlen mid hp ih =>
    rw [bisectLast, if_neg hlen, if_neg hp]
    exact ih h

/-- A predicate that holds at the first index is seen to hold somewhere. -/
theorem bisectLast_of_first {p : ℕ → Bool} {lo len : ℕ} {found : Option ℕ} (hlen : 0 < len)
    (h : p lo = true) : (bisectLast p lo len found).isSome = true := by
  induction lo, len, found using bisectLast.induct p with
  | case1 lo found => omega
  | case2 lo len found hlen' mid hp ih =>
    rw [bisectLast, if_neg hlen', if_pos hp]
    exact bisectLast_of_found rfl
  | case3 lo len found hlen' mid hp ih =>
    rw [bisectLast, if_neg hlen', if_neg hp]
    have hne : mid ≠ lo := fun heq => hp (heq ▸ h)
    exact ih (by omega) h

/-- **Exact on a threshold.** -/
theorem bisectFirst_of_iff {p : ℕ → Bool} {m lo len : ℕ} {found : Option ℕ}
    (hp : ∀ i, lo ≤ i → i < lo + len → (p i = true ↔ m ≤ i)) (hlo : lo ≤ m)
    (hhi : m < lo + len ∨ found = some m) : bisectFirst p lo len found = some m := by
  induction lo, len, found using bisectFirst.induct p with
  | case1 lo found =>
    rw [bisectFirst, if_pos rfl]
    rcases hhi with h | h
    · omega
    · exact h
  | case2 lo len found hlen mid hpm ih =>
    rw [bisectFirst, if_neg hlen]
    simp only [mid] at hpm ih
    rw [if_pos hpm]
    have hm := (hp (lo + (len - 1) / 2) (by omega) (by omega)).1 hpm
    refine ih (fun i h1 h2 => hp i h1 (by omega)) hlo ?_
    by_cases heq : m = lo + (len - 1) / 2
    · exact .inr (by rw [heq])
    · exact .inl (by omega)
  | case3 lo len found hlen mid hpm ih =>
    rw [bisectFirst, if_neg hlen]
    simp only [mid] at hpm ih
    rw [if_neg hpm]
    have hm : ¬ m ≤ lo + (len - 1) / 2 :=
      fun hle => hpm ((hp (lo + (len - 1) / 2) (by omega) (by omega)).2 hle)
    refine ih (fun i h1 h2 => hp i (by omega) (by omega)) (by omega) ?_
    rcases hhi with h | h
    · exact .inl (by omega)
    · exact .inr h

/-- **Exact on a threshold**, the other way round. -/
theorem bisectLast_of_iff {p : ℕ → Bool} {m lo len : ℕ} {found : Option ℕ}
    (hp : ∀ i, lo ≤ i → i < lo + len → (p i = true ↔ i ≤ m)) (hhi : m < lo + len)
    (hlo : lo ≤ m ∨ found = some m) : bisectLast p lo len found = some m := by
  induction lo, len, found using bisectLast.induct p with
  | case1 lo found =>
    rw [bisectLast, if_pos rfl]
    rcases hlo with h | h
    · omega
    · exact h
  | case2 lo len found hlen mid hpm ih =>
    rw [bisectLast, if_neg hlen]
    simp only [mid] at hpm ih
    rw [if_pos hpm]
    have hm := (hp (lo + (len - 1) / 2) (by omega) (by omega)).1 hpm
    refine ih (fun i h1 h2 => hp i (by omega) (by omega)) (by omega) ?_
    by_cases heq : m = lo + (len - 1) / 2
    · exact .inr (by rw [heq])
    · exact .inl (by omega)
  | case3 lo len found hlen mid hpm ih =>
    rw [bisectLast, if_neg hlen]
    simp only [mid] at hpm ih
    rw [if_neg hpm]
    have hm : ¬ lo + (len - 1) / 2 ≤ m :=
      fun hle => hpm ((hp (lo + (len - 1) / 2) (by omega) (by omega)).2 hle)
    exact ih (fun i h1 h2 => hp i h1 (by omega)) (by omega) hlo

/-! ## Predicates that are no threshold -/

/-- The indices a search of `[lo, lo + len)` tries on its way to `target`. -/
def searchPath (target lo len : ℕ) : List ℕ :=
  if len = 0 then []
  else
    let mid := lo + (len - 1) / 2
    mid :: (if target ≤ mid then searchPath target lo ((len - 1) / 2)
      else searchPath target (mid + 1) (len - 1 - (len - 1) / 2))
termination_by len
decreasing_by all_goals omega

theorem searchPath_of_ne_zero {target lo len : ℕ} (hlen : len ≠ 0) : searchPath target lo len =
    (lo + (len - 1) / 2) :: (if target ≤ lo + (len - 1) / 2
      then searchPath target lo ((len - 1) / 2)
      else searchPath target (lo + (len - 1) / 2 + 1) (len - 1 - (len - 1) / 2)) := by
  rw [searchPath, if_neg hlen]

theorem mem_searchPath {target lo len i : ℕ} (h : i ∈ searchPath target lo len) :
    lo ≤ i ∧ i < lo + len := by
  induction lo, len using searchPath.induct target with
  | case1 lo => simp [searchPath] at h
  | case2 lo len hlen mid hleft hright =>
    rw [searchPath_of_ne_zero hlen] at h
    simp only [mid] at hleft hright
    rcases List.mem_cons.1 h with rfl | hmem
    · omega
    · split_ifs at hmem
      · have hbounds := hleft hmem
        omega
      · have hbounds := hright hmem
        omega

theorem bisectFirst_of_false {p : ℕ → Bool} {lo len : ℕ} {found : Option ℕ}
    (hp : ∀ i, lo ≤ i → i < lo + len → p i = false) : bisectFirst p lo len found = found := by
  induction lo, len, found using bisectFirst.induct p with
  | case1 lo found => rw [bisectFirst, if_pos rfl]
  | case2 lo len found hlen mid hpm ih =>
    simp only [mid] at hpm
    rw [hp _ (by omega) (by omega)] at hpm
    cases hpm
  | case3 lo len found hlen mid hpm ih =>
    rw [bisectFirst, if_neg hlen]
    simp only [mid] at hpm ih
    rw [if_neg hpm]
    exact ih fun i h1 h2 => hp i (by omega) (by omega)

/-- **The first index is found** exactly when every index behind it that the search tries on its way
satisfies the predicate too: after a failure the search never comes back. -/
theorem bisectFirst_eq_first_iff {p : ℕ → Bool} {target lo len : ℕ} {found : Option ℕ}
    (hp : p target = true) (hbefore : ∀ i, i < target → p i = false) (hlo : lo ≤ target)
    (hhi : target < lo + len) (hfound : found ≠ some target) :
    bisectFirst p lo len found = some target ↔
      ∀ i ∈ searchPath target lo len, target ≤ i → p i = true := by
  induction lo, len, found using bisectFirst.induct p with
  | case1 lo found => omega
  | case2 lo len found hlen mid hpm ih =>
    simp only [mid] at hpm ih
    have hle : target ≤ lo + (len - 1) / 2 := by
      by_contra hlt
      rw [hbefore _ (by omega)] at hpm
      cases hpm
    rw [bisectFirst, if_neg hlen, if_pos hpm, searchPath_of_ne_zero hlen, if_pos hle,
      List.forall_mem_cons]
    rcases Nat.eq_or_lt_of_le hle with heq | hlt
    · rw [← heq, bisectFirst_of_false fun i _ hi => hbefore i (by omega)]
      refine iff_of_true rfl ⟨fun _ => hp, fun i hi hge => ?_⟩
      have hbounds := mem_searchPath hi
      omega
    · rw [ih hlo hlt fun h => Nat.ne_of_gt hlt (Option.some.inj h)]
      exact (and_iff_right fun _ => hpm).symm
  | case3 lo len found hlen mid hpm ih =>
    simp only [mid] at hpm ih
    rw [bisectFirst, if_neg hlen, if_neg hpm, searchPath_of_ne_zero hlen, List.forall_mem_cons]
    by_cases hle : target ≤ lo + (len - 1) / 2
    · refine iff_of_false (fun h => ?_) fun h => hpm (h.1 hle)
      rcases bisectFirst_eq_some h with hnone | ⟨-, hge, -⟩
      · exact hfound hnone
      · omega
    · rw [if_neg hle, ih (by omega) (by omega) hfound]
      exact (and_iff_right fun h => absurd h hle).symm

end Lubko.Lib
