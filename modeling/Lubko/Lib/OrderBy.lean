import Mathlib.Data.List.Lex
import Mathlib.Data.List.Perm.Basic
import Mathlib.Order.Lattice

/-!
# `ORDER BY`

Sort keys are total preorders: a collation may hold different texts equal. Keys are composed the way
an `ORDER BY` list is: one key after another, with `NULL` last.

* `orderBy_eq_of_perm` — the order of the rows before sorting does not matter when the keys tell all
  rows apart.
-/

namespace Lubko.Lib

/-- A sort key. -/
structure SortKey (α : Type*) where
  le : α → α → Bool
  trans : ∀ a b c, le a b = true → le b c = true → le a c = true
  total : ∀ a b, (le a b || le b a) = true

namespace SortKey

variable {α β : Type*}

/-- The order of a linearly ordered type. -/
def ofLinear [LinearOrder α] : SortKey α where
  le a b := a ≤ b
  trans a b c := by
    simp only [decide_eq_true_eq]
    exact le_trans
  total a b := by
    simp only [Bool.or_eq_true, decide_eq_true_eq]
    exact le_total a b

/-- The key of an expression over the row. -/
def on (o : SortKey β) (f : α → β) : SortKey α where
  le a b := o.le (f a) (f b)
  trans a b c := o.trans (f a) (f b) (f c)
  total a b := o.total (f a) (f b)

/-- An ascending key: `NULL` comes last. -/
def nullsLast (o : SortKey α) : SortKey (Option α) where
  le
    | some a, some b => o.le a b
    | _, none => true
    | none, some _ => false
  trans a b c := by
    intro hab hbc
    cases a with
    | none =>
      cases b with
      | none => exact hbc
      | some b => cases hab
    | some a =>
      cases c with
      | none => rfl
      | some c =>
        cases b with
        | none => cases hbc
        | some b => exact o.trans a b c hab hbc
  total a b := by
    cases a with
    | none => cases b <;> rfl
    | some a =>
      cases b with
      | none => rfl
      | some b => exact o.total a b

/-- A second key for the rows the first one holds equal. -/
def thenBy (o p : SortKey α) : SortKey α where
  le a b := o.le a b && (!o.le b a || p.le a b)
  trans a b c := by
    simp only [Bool.and_eq_true, Bool.or_eq_true, Bool.not_eq_true']
    intro hab hbc
    refine ⟨o.trans a b c hab.1 hbc.1, ?_⟩
    by_cases hca : o.le c a = true
    · have hba := o.trans b c a hbc.1 hca
      have hcb := o.trans c a b hca hab.1
      right
      exact p.trans a b c (hab.2.resolve_left (by simp [hba])) (hbc.2.resolve_left (by simp [hcb]))
    · left
      simpa using hca
  total a b := by
    have ho := o.total a b
    have hp := p.total a b
    cases hab : o.le a b with
    | false =>
      rw [hab, Bool.false_or] at ho
      simp [ho]
    | true =>
      cases hba : o.le b a with
      | false => rfl
      | true => simpa using hp

/-- Rows that two keys hold equal. -/
theorem thenBy_equal {o p : SortKey α} {a b : α} (hab : (o.thenBy p).le a b = true)
    (hba : (o.thenBy p).le b a = true) : p.le a b = true ∧ p.le b a = true := by
  simp only [thenBy, Bool.and_eq_true, Bool.or_eq_true, Bool.not_eq_true'] at hab hba
  constructor
  · exact hab.2.resolve_left (by simp [hba.1])
  · exact hba.2.resolve_left (by simp [hab.1])

theorem ofLinear_equal [LinearOrder α] {a b : α} (hab : (ofLinear (α := α)).le a b = true)
    (hba : (ofLinear (α := α)).le b a = true) : a = b := by
  simp only [ofLinear, decide_eq_true_eq] at hab hba
  exact le_antisymm hab hba

/-- `ORDER BY`. -/
def orderBy (o : SortKey α) (rows : List α) : List α := rows.mergeSort o.le

/-- **Sorting forgets the order of the rows.** -/
theorem orderBy_eq_of_perm (o : SortKey α) {rows rows' : List α} (hperm : rows.Perm rows')
    (hequal : ∀ a ∈ rows, ∀ b ∈ rows', o.le a b = true → o.le b a = true → a = b) :
    o.orderBy rows = o.orderBy rows' := by
  have hsorted := (rows.mergeSort_perm o.le).trans (hperm.trans (rows'.mergeSort_perm o.le).symm)
  refine List.Perm.eq_of_pairwise ?_ (List.pairwise_mergeSort o.trans o.total rows)
    (List.pairwise_mergeSort o.trans o.total rows') hsorted
  intro a b ha hb
  exact hequal a (List.mem_mergeSort.1 ha) b (List.mem_mergeSort.1 hb)

end SortKey

end Lubko.Lib
