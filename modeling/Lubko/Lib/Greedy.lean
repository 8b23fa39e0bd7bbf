import Mathlib.Data.List.Basic
import Mathlib.Order.Lattice
import Mathlib.Tactic.Common

/-!
# Filling a budget greedily

A list is offered to a budget from its head on: an element is kept when it is eligible and fits what
is left, and dropped otherwise, and the search goes on behind a dropped one. On a list ordered by a
key, smaller elements of a smaller key may be kept behind a dropped one.

* `perm_kept_dropped`, `mem_kept_iff`, `mem_dropped_iff` — what becomes of the elements.
* `overtaken_iff` — exactly when an element is kept behind an eligible one of a greater key that is
  not.
-/

namespace Lubko.Lib.Greedy

variable {α β κ : Type*}

section Offer

variable (takes : β → α → Bool) (add : β → α → β)

/-- The budget used by the elements kept. -/
def spent (b : β) (l : List α) : β := l.foldl (fun b a => if takes b a then add b a else b) b

/-- The elements that are kept, in order. -/
def kept : β → List α → List α
  | _, [] => []
  | b, a :: l => if takes b a then a :: kept (add b a) l else kept b l

/-- The elements that are dropped, in order. -/
def dropped : β → List α → List α
  | _, [] => []
  | b, a :: l => if takes b a then dropped (add b a) l else a :: dropped b l

end Offer

section

variable {takes : β → α → Bool} {add : β → α → β} {b : β} {a : α} {l : List α}

@[simp] theorem spent_nil : spent takes add b [] = b := rfl

theorem spent_cons : spent takes add b (a :: l) =
    spent takes add (if takes b a then add b a else b) l := rfl

theorem spent_append (before after : List α) : spent takes add b (before ++ after) =
    spent takes add (spent takes add b before) after :=
  List.foldl_append

theorem kept_of_takes (h : takes b a = true) :
    kept takes add b (a :: l) = a :: kept takes add (add b a) l := if_pos h

theorem kept_of_not_takes (h : takes b a = false) :
    kept takes add b (a :: l) = kept takes add b l := if_neg (Bool.eq_false_iff.1 h)

theorem dropped_of_takes (h : takes b a = true) :
    dropped takes add b (a :: l) = dropped takes add (add b a) l := if_pos h

theorem dropped_of_not_takes (h : takes b a = false) :
    dropped takes add b (a :: l) = a :: dropped takes add b l := if_neg (Bool.eq_false_iff.1 h)

/-- **Every element is kept or dropped.** -/
theorem perm_kept_dropped : (kept takes add b l ++ dropped takes add b l).Perm l := by
  induction l generalizing b with
  | nil => exact List.Perm.refl []
  | cons a l ih =>
    cases h : takes b a with
    | true =>
      rw [kept_of_takes h, dropped_of_takes h]
      exact ih.cons a
    | false =>
      rw [kept_of_not_takes h, dropped_of_not_takes h]
      exact List.perm_middle.trans (ih.cons a)

/-- An element is kept where the budget used before it leaves room. -/
theorem mem_kept_iff : a ∈ kept takes add b l ↔
    ∃ before after, l = before ++ a :: after ∧ takes (spent takes add b before) a = true := by
  induction l generalizing b with
  | nil => simp [kept]
  | cons x l ih =>
    have hstep : a ∈ kept takes add b (x :: l) ↔ (a = x ∧ takes b x = true) ∨
        a ∈ kept takes add (if takes b x then add b x else b) l := by
      cases h : takes b x with
      | true => simp [kept_of_takes h]
      | false => simp [kept_of_not_takes h]
    rw [hstep, ih]
    constructor
    · rintro (⟨rfl, htakes⟩ | ⟨before, after, rfl, htakes⟩)
      · exact ⟨[], l, rfl, htakes⟩
      · exact ⟨x :: before, after, rfl, htakes⟩
    · rintro ⟨before, after, hsplit, htakes⟩
      rcases List.cons_eq_append_iff.1 hsplit with ⟨rfl, hcons⟩ | ⟨before', rfl, rfl⟩
      · obtain ⟨rfl, rfl⟩ := List.cons.inj hcons
        exact .inl ⟨rfl, htakes⟩
      · exact .inr ⟨before', after, rfl, htakes⟩

/-- An element is dropped where it does not. -/
theorem mem_dropped_iff : a ∈ dropped takes add b l ↔
    ∃ before after, l = before ++ a :: after ∧ takes (spent takes add b before) a = false := by
  induction l generalizing b with
  | nil => simp [dropped]
  | cons x l ih =>
    have hstep : a ∈ dropped takes add b (x :: l) ↔ (a = x ∧ takes b x = false) ∨
        a ∈ dropped takes add (if takes b x then add b x else b) l := by
      cases h : takes b x with
      | true => simp [dropped_of_takes h]
      | false => simp [dropped_of_not_takes h]
    rw [hstep, ih]
    constructor
    · rintro (⟨rfl, htakes⟩ | ⟨before, after, rfl, htakes⟩)
      · exact ⟨[], l, rfl, htakes⟩
      · exact ⟨x :: before, after, rfl, htakes⟩
    · rintro ⟨before, after, hsplit, htakes⟩
      rcases List.cons_eq_append_iff.1 hsplit with ⟨rfl, hcons⟩ | ⟨before', rfl, rfl⟩
      · obtain ⟨rfl, rfl⟩ := List.cons.inj hcons
        exact .inl ⟨rfl, htakes⟩
      · exact .inr ⟨before', after, rfl, htakes⟩

/-- What is dropped leaves the budget as it was. -/
theorem spent_of_not_takes (h : ∀ a ∈ l, takes b a = false) : spent takes add b l = b := by
  induction l with
  | nil => rfl
  | cons a l ih =>
    have hhead := h a List.mem_cons_self
    rw [spent_cons, if_neg (Bool.eq_false_iff.1 hhead)]
    exact ih fun x hx => h x (List.mem_cons_of_mem a hx)

theorem le_spent [Preorder β] (hadd : ∀ b a, b ≤ add b a) : b ≤ spent takes add b l := by
  induction l generalizing b with
  | nil => exact le_rfl
  | cons a l ih =>
    rw [spent_cons]
    split_ifs
    · exact (hadd b a).trans ih
    · exact ih

/-- The first element that fits the budget is kept. -/
theorem exists_kept (f : β → α → β) (h : ∃ a ∈ l, takes b a = true) :
    ∃ a ∈ l, a ∈ kept takes f b l := by
  induction l with
  | nil =>
    obtain ⟨a, ha, -⟩ := h
    cases ha
  | cons x l ih =>
    cases hx : takes b x with
    | true =>
      rw [kept_of_takes hx]
      exact ⟨x, List.mem_cons_self, List.mem_cons_self⟩
    | false =>
      obtain ⟨a, ha, htakes⟩ := h
      have hne : a ≠ x := by
        rintro rfl
        rw [hx] at htakes
        cases htakes
      obtain ⟨k, hk, hkept⟩ := ih ⟨a, (List.mem_cons.1 ha).resolve_left hne, htakes⟩
      rw [kept_of_not_takes hx]
      exact ⟨k, List.mem_cons_of_mem x hk, hkept⟩

theorem kept_append (before after : List α) : kept takes add b (before ++ after) =
    kept takes add b before ++ kept takes add (spent takes add b before) after := by
  induction before generalizing b with
  | nil => rfl
  | cons a before ih =>
    rw [List.cons_append, spent_cons]
    cases h : takes b a with
    | true =>
      rw [kept_of_takes h, kept_of_takes h, ih, List.cons_append]
      rfl
    | false =>
      rw [kept_of_not_takes h, kept_of_not_takes h, ih]
      rfl

end

/-! ## Ordered lists -/

section Ordered

variable [LinearOrder κ] (key : α → κ) (eligible : α → Bool) (fits : β → α → Bool)
  (add : β → α → β)

/-- An eligible element that does not fit, and an eligible one of a smaller key that fits what is
left when all elements of a key at least as great have been offered. -/
def Overtaken (b : β) (l : List α) : Prop :=
  ∃ before d after, l = before ++ d :: after ∧ eligible d = true ∧
    fits (spent (fun b a => eligible a && fits b a) add b before) d = false ∧
    ∃ k ∈ after, eligible k = true ∧ key k < key d ∧
      fits (spent (fun b a => eligible a && fits b a) add b
        (l.filter fun a => key d ≤ key a)) k = true

variable {key eligible fits add} {l : List α}

theorem filter_append_of_sorted (hl : l.Pairwise fun a b => key b ≤ key a) (t : κ) :
    l.filter (fun a => t ≤ key a) ++ l.filter (fun a => key a < t) = l := by
  induction l with
  | nil => rfl
  | cons a l ih =>
    obtain ⟨ha, hl⟩ := List.pairwise_cons.1 hl
    by_cases h : t ≤ key a
    · rw [List.filter_cons_of_pos (by simpa using h), List.filter_cons_of_neg (by simpa using h),
        List.cons_append, ih hl]
    · have hnone : l.filter (fun a => t ≤ key a) = [] := by
        rw [List.filter_eq_nil_iff]
        intro x hx
        simpa using (ha x hx).trans_lt (not_le.1 h)
      have hall : l.filter (fun a => key a < t) = l := by
        rw [List.filter_eq_self]
        intro x hx
        simpa using (ha x hx).trans_lt (not_le.1 h)
      rw [List.filter_cons_of_neg (by simpa using h),
        List.filter_cons_of_pos (by simpa using h), hnone, hall, List.nil_append]

/-- **When the order is not kept**: an eligible element is dropped and one of a smaller key is
kept. -/
theorem overtaken_iff [Preorder β] (hadd : ∀ b a, b ≤ add b a)
    (hfits : ∀ b b' a, b ≤ b' → fits b' a = true → fits b a = true)
    (hl : l.Pairwise fun a b => key b ≤ key a) (b : β) :
    (∃ d ∈ dropped (fun b a => eligible a && fits b a) add b l, eligible d = true ∧
      ∃ k ∈ kept (fun b a => eligible a && fits b a) add b l, key k < key d) ↔
        Overtaken key eligible fits add b l := by
  constructor
  · rintro ⟨d, hd, heligible, k, hk, hlt⟩
    obtain ⟨before, after, hsplit, hnot⟩ := mem_dropped_iff.1 hd
    obtain ⟨before', after', hsplit', htakes⟩ := mem_kept_iff.1 hk
    rw [Bool.and_eq_true] at htakes
    rw [heligible, Bool.true_and] at hnot
    refine ⟨before, d, after, hsplit, heligible, hnot, k, ?_, htakes.1, hlt, ?_⟩
    · -- the elements up to `d` have a key at least as great
      have hmem : k ∈ before ++ d :: after := by
        rw [← hsplit, hsplit']
        simp
      rw [hsplit] at hl
      have hbefore := (List.pairwise_append.1 hl).2.2
      rcases List.mem_append.1 hmem with hin | hin
      · exact absurd (hbefore k hin d List.mem_cons_self) (not_le.2 hlt)
      · rcases List.mem_cons.1 hin with rfl | hin
        · exact absurd hlt (lt_irrefl _)
        · exact hin
    · -- all of a key at least as great are before `k`
      have hparts := filter_append_of_sorted hl (key d)
      have hfront : l.filter (fun a => key d ≤ key a) <+: before' := by
        have heq : l.filter (fun a => key d ≤ key a) ++ l.filter (fun a => key a < key d) =
            before' ++ k :: after' := hparts.trans hsplit'
        rcases List.append_eq_append_iff.1 heq with ⟨rest, hrest, -⟩ | ⟨rest, hrest, hcons⟩
        · exact ⟨rest, hrest.symm⟩
        · cases rest with
          | nil => exact ⟨[], by rw [hrest, List.append_nil, List.append_nil]⟩
          | cons x rest =>
            obtain ⟨rfl, -⟩ := List.cons.inj hcons
            have hin : k ∈ l.filter fun a => key d ≤ key a := by
              rw [hrest]
              simp
            have hge := (List.mem_filter.1 hin).2
            rw [decide_eq_true_eq] at hge
            exact absurd hge (not_le.2 hlt)
      obtain ⟨rest, rfl⟩ := hfront
      refine hfits _ _ k ?_ htakes.2
      rw [spent_append]
      exact le_spent hadd
  · rintro ⟨before, d, after, hsplit, heligible, hnot, k, hk, hkeligible, hlt, hkfits⟩
    have hparts := filter_append_of_sorted hl (key d)
    have hkin : k ∈ l.filter fun a => key a < key d := by
      refine List.mem_filter.2 ⟨?_, decide_eq_true hlt⟩
      rw [hsplit]
      exact List.mem_append_right _ (List.mem_cons_of_mem d hk)
    have htakes : (eligible k && fits (spent (fun b a => eligible a && fits b a) add b
        (l.filter fun a => key d ≤ key a)) k) = true := by
      rw [hkeligible, hkfits]
      rfl
    have hsome : ∃ a ∈ l.filter fun a => key a < key d, a ∈ kept (fun b a => eligible a && fits b a)
        add (spent (fun b a => eligible a && fits b a) add b (l.filter fun a => key d ≤ key a))
        (l.filter fun a => key a < key d) := exists_kept add ⟨k, hkin, htakes⟩
    obtain ⟨first, hfirst, hkept⟩ := hsome
    refine ⟨d, mem_dropped_iff.2 ⟨before, after, hsplit, by simp [hnot]⟩, heligible, first, ?_, ?_⟩
    · rw [← hparts, kept_append]
      exact List.mem_append_right _ hkept
    · have hless := (List.mem_filter.1 hfirst).2
      rwa [decide_eq_true_eq] at hless

end Ordered

end Lubko.Lib.Greedy
