import Mathlib.Data.List.Nodup
import Mathlib.Data.Option.Basic

/-!
# Tables with a primary key

A table is a list of keyed rows without two rows of one key. The statements on it are a keyed
lookup, an insert, an update of every row and a delete by condition; `merge` overlays a table with
new versions of some of its rows.

* `Table.get_update`, `Table.get_delete`, `Table.get_insert` — what a statement does to one key.
* `Table.get_filterMap`, `Table.get_set`, `Table.get_merge` — the same for the other operations.
-/

namespace Lubko.Lib

/-- Rows under distinct keys. -/
structure Table (κ α : Type) where
  rows : List (κ × α)
  nodup : (rows.map Prod.fst).Nodup

namespace Table

variable {κ α : Type} [DecidableEq κ]

/-- The table without rows. -/
def empty : Table κ α := ⟨[], List.nodup_nil⟩

/-- The row under a key. -/
def get (t : Table κ α) (k : κ) : Option α := (t.rows.find? fun r => r.1 = k).map Prod.snd

/-- Change the rows in place. -/
def update (t : Table κ α) (f : κ → α → α) : Table κ α where
  rows := t.rows.map fun r => (r.1, f r.1 r.2)
  nodup := by simpa [List.map_map, Function.comp_def] using t.nodup

/-- Delete the rows that satisfy a condition. -/
def delete (t : Table κ α) (p : κ → α → Bool) : Table κ α where
  rows := t.rows.filter fun r => !p r.1 r.2
  nodup := t.nodup.sublist (List.filter_sublist.map Prod.fst)

/-- Insert a row; nothing happens when the key is taken. -/
def insert (t : Table κ α) (k : κ) (a : α) : Table κ α :=
  if h : k ∈ t.rows.map Prod.fst then t
  else ⟨(k, a) :: t.rows, List.nodup_cons.2 ⟨h, t.nodup⟩⟩

/-- Some row satisfies a condition. -/
def any (t : Table κ α) (p : κ → α → Bool) : Bool := t.rows.any fun r => p r.1 r.2

theorem get_eq_some {t : Table κ α} {k : κ} {a : α} : t.get k = some a ↔ (k, a) ∈ t.rows := by
  obtain ⟨rows, hnodup⟩ := t
  simp only [get]
  induction rows with
  | nil => simp
  | cons r rs ih =>
    rw [List.map_cons, List.nodup_cons] at hnodup
    by_cases hr : r.1 = k
    · rw [List.find?_cons_of_pos (by simpa using hr), Option.map_some, Option.some.injEq,
        List.mem_cons]
      constructor
      · rintro rfl
        exact Or.inl (by rw [← hr])
      · rintro (heq | hmem)
        · rw [← heq]
        · exact absurd (hr ▸ List.mem_map_of_mem (f := Prod.fst) hmem) hnodup.1
    · rw [List.find?_cons_of_neg (by simpa using hr), ih hnodup.2, List.mem_cons]
      constructor
      · exact Or.inr
      · rintro (heq | hmem)
        · exact absurd (by rw [← heq]) hr
        · exact hmem

theorem get_eq_none {t : Table κ α} {k : κ} : t.get k = none ↔ ∀ a, (k, a) ∉ t.rows := by
  constructor
  · intro h a hmem
    rw [get_eq_some.2 hmem] at h
    cases h
  · intro h
    cases hget : t.get k with
    | none => rfl
    | some a => exact absurd (get_eq_some.1 hget) (h a)

theorem get_update (t : Table κ α) (f : κ → α → α) (k : κ) :
    (t.update f).get k = (t.get k).map (f k) := by
  cases hget : t.get k with
  | some a =>
    refine get_eq_some.2 (List.mem_map.2 ⟨(k, a), get_eq_some.1 hget, rfl⟩)
  | none =>
    refine get_eq_none.2 fun a hmem => ?_
    obtain ⟨r, hr, heq⟩ := List.mem_map.1 hmem
    obtain ⟨rfl, -⟩ := Prod.mk.inj heq
    exact get_eq_none.1 hget r.2 hr

theorem get_delete (t : Table κ α) (p : κ → α → Bool) (k : κ) :
    (t.delete p).get k = (t.get k).filter fun a => !p k a := by
  cases hget : t.get k with
  | some a =>
    by_cases hp : p k a = true
    · rw [Option.filter_some, if_neg (by simp [hp]), get_eq_none]
      intro b hmem
      obtain ⟨hb, hpb⟩ := List.mem_filter.1 hmem
      obtain rfl := Option.some.inj (hget.symm.trans (get_eq_some.2 hb))
      simp [hp] at hpb
    · rw [Option.filter_some, if_pos (by simp [hp]), get_eq_some]
      exact List.mem_filter.2 ⟨get_eq_some.1 hget, by simp [hp]⟩
  | none =>
    refine get_eq_none.2 fun a hmem => ?_
    exact get_eq_none.1 hget a (List.mem_filter.1 hmem).1

theorem get_insert {t : Table κ α} {k : κ} (hfree : t.get k = none) (a : α) (k' : κ) :
    (t.insert k a).get k' = if k' = k then some a else t.get k' := by
  have hk : k ∉ t.rows.map Prod.fst := by
    intro hmem
    obtain ⟨r, hr, rfl⟩ := List.mem_map.1 hmem
    exact get_eq_none.1 hfree r.2 hr
  rw [insert, dif_neg hk]
  by_cases heq : k' = k
  · subst heq
    simp [get]
  · rw [if_neg heq, get, List.find?_cons_of_neg (by simpa using Ne.symm heq)]
    rfl

theorem any_eq_true {t : Table κ α} {p : κ → α → Bool} :
    t.any p = true ↔ ∃ k a, t.get k = some a ∧ p k a = true := by
  rw [any, List.any_eq_true]
  constructor
  · rintro ⟨r, hr, hp⟩
    exact ⟨r.1, r.2, get_eq_some.2 hr, hp⟩
  · rintro ⟨k, a, hget, hp⟩
    exact ⟨(k, a), get_eq_some.1 hget, hp⟩

/-! ## Overlays -/

section Overlay

variable {β : Type}

/-- Map the rows and drop some. -/
def filterMap (t : Table κ α) (f : κ → α → Option β) : Table κ β where
  rows := t.rows.filterMap fun r => (f r.1 r.2).map fun b => (r.1, b)
  nodup := by
    have hkeys : (t.rows.filterMap fun r => (f r.1 r.2).map fun b => (r.1, b)).map Prod.fst =
        (t.rows.filter fun r => (f r.1 r.2).isSome).map Prod.fst := by
      induction t.rows with
      | nil => rfl
      | cons r rs ih => cases hf : f r.1 r.2 <;> simp [hf, ih]
    rw [hkeys]
    exact t.nodup.sublist (List.filter_sublist.map Prod.fst)

/-- Put a row under a key, in place of the one that is there. -/
def set (t : Table κ α) (k : κ) (a : α) : Table κ α := (t.delete fun k' _ => k' = k).insert k a

/-- Overlay the table with versions: `none` deletes a row. -/
def merge (t : Table κ α) (versions : Table κ (Option α)) : Table κ α where
  rows := (t.delete fun k _ => (versions.get k).isSome).rows ++
    (versions.filterMap fun _ v => v).rows
  nodup := by
    rw [List.map_append]
    refine List.nodup_append'.2 ⟨(t.delete _).nodup, (versions.filterMap _).nodup, ?_⟩
    intro k hold hnew
    obtain ⟨r, hr, rfl⟩ := List.mem_map.1 hold
    obtain ⟨r', hr', heq⟩ := List.mem_map.1 hnew
    obtain ⟨q, hq, hv⟩ := List.mem_filterMap.1 hr'
    obtain ⟨b, -, rfl⟩ := Option.map_eq_some_iff.1 hv
    have hwritten : (versions.get r.1).isSome = true := by
      rw [← heq, get_eq_some.2 hq]
      rfl
    have hkept := (List.mem_filter.1 hr).2
    simp [hwritten] at hkept

theorem get_filterMap (t : Table κ α) (f : κ → α → Option β) (k : κ) :
    (t.filterMap f).get k = (t.get k).bind (f k) := by
  refine Option.ext fun b => ?_
  rw [get_eq_some, Option.bind_eq_some_iff]
  constructor
  · intro hmem
    obtain ⟨r, hr, hv⟩ := List.mem_filterMap.1 hmem
    obtain ⟨b', hb', heq⟩ := Option.map_eq_some_iff.1 hv
    obtain ⟨rfl, rfl⟩ := Prod.mk.inj heq
    exact ⟨r.2, get_eq_some.2 hr, hb'⟩
  · rintro ⟨a, ha, hb⟩
    exact List.mem_filterMap.2 ⟨(k, a), get_eq_some.1 ha, by rw [hb]; rfl⟩

theorem get_set (t : Table κ α) (k : κ) (a : α) (k' : κ) :
    (t.set k a).get k' = if k' = k then some a else t.get k' := by
  have hfree : (t.delete fun k' _ => k' = k).get k = none := by
    rw [get_delete]
    simp
  rw [set, get_insert hfree, get_delete]
  split_ifs with hk
  · rfl
  · cases t.get k' <;> simp [hk]

theorem get_merge (t : Table κ α) (versions : Table κ (Option α)) (k : κ) :
    (t.merge versions).get k = (versions.get k).getD (t.get k) := by
  refine Option.ext fun a => ?_
  rw [get_eq_some, merge, List.mem_append, ← get_eq_some, ← get_eq_some, get_delete, get_filterMap]
  cases versions.get k with
  | none => cases t.get k <;> simp
  | some v => cases t.get k <;> cases v <;> simp

end Overlay

end Table

end Lubko.Lib
