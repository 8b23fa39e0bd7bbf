import Mathlib.Data.List.Basic

/-!
# The first occurrence of a list in a list

`str.find` over any alphabet. What stands before the first place where an occurrence can start is
skipped.

* `find_skip` — a part in which no occurrence starts is skipped.
* `find_skip_first`, `find_skip_second` — a part lacks the first or the second element of what is
  looked for.
* `find_singleton_append` — the first occurrence of one element.
-/

namespace Lubko.Lib

variable {α : Type*} [DecidableEq α]

/-- The index of the first occurrence. -/
def find (sub : List α) : List α → Option ℕ
  | [] => if sub = [] then some 0 else none
  | c :: s => if sub.isPrefixOf (c :: s) then some 0 else (find sub s).map (· + 1)

theorem find_cons_here {sub s : List α} {c : α} (h : sub <+: c :: s) :
    find sub (c :: s) = some 0 := by
  rw [find, if_pos (List.isPrefixOf_iff_prefix.2 h)]

theorem find_cons_later {sub s : List α} {c : α} (h : ¬ sub <+: c :: s) :
    find sub (c :: s) = (find sub s).map (· + 1) := by
  rw [find, if_neg (fun h' => h (List.isPrefixOf_iff_prefix.1 h'))]

/-- **A part in which no occurrence starts is skipped.** -/
theorem find_skip {sub p t : List α}
    (h : ∀ q c r, p = q ++ c :: r → ¬ sub <+: c :: (r ++ t)) :
    find sub (p ++ t) = (find sub t).map (· + p.length) := by
  induction p with
  | nil => simp
  | cons c p ih =>
    have hrest : ∀ q d r, p = q ++ d :: r → ¬ sub <+: d :: (r ++ t) := by
      intro q d r hp
      exact h (c :: q) d r (by rw [hp, List.cons_append])
    rw [List.cons_append, find_cons_later (h [] c p rfl), ih hrest, Option.map_map]
    rfl

/-- A part without the first element of an occurrence. -/
theorem find_skip_first {x : α} {sub p t : List α} (h : x ∉ p) :
    find (x :: sub) (p ++ t) = (find (x :: sub) t).map (· + p.length) := by
  apply find_skip
  intro q c r hp hstart
  have hx : x = c := (List.cons_prefix_cons.1 hstart).1
  apply h
  rw [hp, hx]
  simp

/-- A part without the second element of an occurrence, which does not follow it either. -/
theorem find_skip_second {a x : α} {sub p t : List α} (h : x ∉ p) (ht : t.head? ≠ some x) :
    find (a :: x :: sub) (p ++ t) = (find (a :: x :: sub) t).map (· + p.length) := by
  apply find_skip
  intro q c r hp hstart
  have hsecond : x :: sub <+: r ++ t := (List.cons_prefix_cons.1 hstart).2
  cases r with
  | nil =>
    obtain ⟨s, hs⟩ := hsecond
    rw [List.nil_append] at hs
    rw [← hs] at ht
    exact ht rfl
  | cons d r =>
    have hx : x = d := (List.cons_prefix_cons.1 hsecond).1
    apply h
    rw [hp, hx]
    simp

theorem find_prefix {x : α} {sub t : List α} : find (x :: sub) (x :: sub ++ t) = some 0 :=
  find_cons_here (List.prefix_append _ t)

/-- Without an element of it there is no occurrence. -/
theorem find_eq_none {x : α} {sub s : List α} (hx : x ∈ sub) (h : x ∉ s) : find sub s = none := by
  induction s with
  | nil =>
    rw [find, if_neg]
    intro hsub
    rw [hsub] at hx
    cases hx
  | cons c s ih =>
    rw [find_cons_later, ih fun hmem => h (List.mem_cons_of_mem c hmem), Option.map_none]
    intro hstart
    exact h (hstart.subset hx)

/-! ## One element -/

theorem find_singleton_append {x : α} {p t : List α} (h : x ∉ p) :
    find [x] (p ++ x :: t) = some p.length := by
  have hhead : find [x] (x :: t) = some 0 := find_cons_here (List.prefix_append [x] t)
  rw [find_skip_first h, hhead, Option.map_some, Nat.zero_add]

/-- What follows the first occurrence of an element. -/
def after? (x : α) (s : List α) : Option (List α) := (find [x] s).map fun i => s.drop (i + 1)

theorem after?_of_not_mem {x : α} {s : List α} (h : x ∉ s) : after? x s = none := by
  rw [after?, find_eq_none (List.mem_singleton_self x) h, Option.map_none]

theorem after?_first {x : α} {p t : List α} (h : x ∉ p) : after? x (p ++ x :: t) = some t := by
  rw [after?, find_singleton_append h, Option.map_some, ← List.singleton_append,
    ← List.append_assoc, List.drop_left' (by simp)]

/-- **Past one more occurrence**: what follows the first one is longer, or starts there. -/
theorem after?_append (x : α) (s t : List α) :
    after? x (s ++ x :: t) = some ((after? x s).elim t (· ++ x :: t)) := by
  by_cases h : x ∈ s
  · obtain ⟨p, r, rfl, hp⟩ := List.eq_append_cons_of_mem h
    rw [List.append_assoc, List.cons_append, after?_first hp, after?_first hp]
    rfl
  · rw [after?_of_not_mem h, after?_first h]
    rfl

end Lubko.Lib
