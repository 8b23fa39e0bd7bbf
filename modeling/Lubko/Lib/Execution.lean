import Mathlib.Data.List.Basic

/-!
# Executions of a partial step function

A system is a step function `σ → α → Option σ`: from a state and a label it gives the next
state, or `none` when the label is not enabled there. An execution is a list of labels run
from left to right.

* `exec_append` — executions compose.
* `exec_invariant` — what every step preserves, every execution preserves.
* `Always` — every step of an execution satisfies a condition on the state it starts from.
* `Runs` — an execution whose steps all do, built step by step.
* `always_iff_of_inv` — the rule for exact conditions: if, from states that satisfy an
  invariant, a step is good exactly when it meets the condition, then all steps of an
  execution are good exactly when they all meet it.
* `exec_iff_always` — the same for what an execution leaves behind.
* `decidableAlways` — a decidable condition can be checked along an execution.
-/

namespace Lubko.Lib

variable {σ α : Type*}

/-- Run the labels from left to right; `none` as soon as one is not enabled. -/
def exec (step : σ → α → Option σ) : σ → List α → Option σ
  | s, [] => some s
  | s, a :: as => (step s a).bind fun s' => exec step s' as

section Exec

variable {step : σ → α → Option σ}

@[simp] theorem exec_nil (s : σ) : exec step s [] = some s := rfl

theorem exec_cons (s : σ) (a : α) (as : List α) :
    exec step s (a :: as) = (step s a).bind fun s' => exec step s' as := rfl

theorem exec_cons_eq_some {s t : σ} {a : α} {as : List α} :
    exec step s (a :: as) = some t ↔ ∃ s', step s a = some s' ∧ exec step s' as = some t := by
  simp [exec_cons, Option.bind_eq_some_iff]

theorem exec_append (s : σ) (as bs : List α) :
    exec step s (as ++ bs) = (exec step s as).bind fun s' => exec step s' bs := by
  induction as generalizing s with
  | nil => rfl
  | cons a as ih =>
    rw [List.cons_append, exec_cons, exec_cons, Option.bind_assoc]
    exact congrArg _ (funext ih)

theorem exec_append_eq_some {s t : σ} {as bs : List α} :
    exec step s (as ++ bs) = some t ↔ ∃ m, exec step s as = some m ∧ exec step m bs = some t := by
  rw [exec_append, Option.bind_eq_some_iff]

/-- **The invariant rule.** -/
theorem exec_invariant {Inv : σ → Prop}
    (hstep : ∀ s a s', Inv s → step s a = some s' → Inv s') {s t : σ} {as : List α}
    (hs : Inv s) (h : exec step s as = some t) : Inv t := by
  induction as generalizing s with
  | nil => exact Option.some.inj h ▸ hs
  | cons a as ih =>
    obtain ⟨s', ha, has⟩ := exec_cons_eq_some.1 h
    exact ih (hstep s a s' hs ha) has

/-- A relation that is reflexive, transitive and holds across every step holds across every
execution. -/
theorem exec_rel {R : σ → σ → Prop} {Inv : σ → Prop} (hrefl : ∀ s, R s s)
    (htrans : ∀ s t u, R s t → R t u → R s u)
    (hstep : ∀ s a s', Inv s → step s a = some s' → Inv s' ∧ R s s') {s t : σ} {as : List α}
    (hs : Inv s) (h : exec step s as = some t) : R s t := by
  induction as generalizing s with
  | nil => exact Option.some.inj h ▸ hrefl s
  | cons a as ih =>
    obtain ⟨s', ha, has⟩ := exec_cons_eq_some.1 h
    obtain ⟨hs', hR⟩ := hstep s a s' hs ha
    exact htrans _ _ _ hR (ih hs' has)

end Exec

/-! ## Conditions on every step -/

/-- Every step of the execution satisfies `C` at the state it starts from. -/
def Always (step : σ → α → Option σ) (C : σ → α → Prop) (s : σ) (as : List α) : Prop :=
  ∀ pre a, pre ++ [a] <+: as → ∀ m, exec step s pre = some m → C m a

section Always

variable {step : σ → α → Option σ} {C D : σ → α → Prop}

theorem always_nil (s : σ) : Always step C s [] := by
  intro pre a h
  simp at h

theorem always_cons {s : σ} {a : α} {as : List α} :
    Always step C s (a :: as) ↔ C s a ∧ ∀ s', step s a = some s' → Always step C s' as := by
  constructor
  · intro h
    refine ⟨h [] a (by simp) s rfl, fun s' hs' pre b hpre m hm => ?_⟩
    refine h (a :: pre) b (by simpa using hpre) m ?_
    exact exec_cons_eq_some.2 ⟨s', hs', hm⟩
  · rintro ⟨h0, h⟩ pre b hpre m hm
    cases pre with
    | nil =>
      obtain rfl : b = a := by simpa using hpre
      exact Option.some.inj hm ▸ h0
    | cons c pre =>
      obtain ⟨rfl, hpre'⟩ : c = a ∧ pre ++ [b] <+: as := by simpa using hpre
      obtain ⟨s', hs', hm'⟩ := exec_cons_eq_some.1 hm
      exact h s' hs' pre b hpre' m hm'

/-- A decidable condition can be checked along an execution. -/
instance decidableAlways [hC : ∀ s a, Decidable (C s a)] :
    (s : σ) → (as : List α) → Decidable (Always step C s as)
  | s, [] => .isTrue (always_nil s)
  | s, a :: as =>
    match h : step s a with
    | none => decidable_of_iff (C s a) (by simp [always_cons, h])
    | some s' =>
      have := decidableAlways s' as
      decidable_of_iff (C s a ∧ Always step C s' as) (by simp [always_cons, h])

/-- Two conditions that agree at every step of an execution. -/
theorem always_congr {s : σ} {as : List α}
    (h : ∀ pre a, pre ++ [a] <+: as → ∀ m, exec step s pre = some m → (C m a ↔ D m a)) :
    Always step C s as ↔ Always step D s as :=
  forall₃_congr fun pre a hpre => forall₂_congr fun m hm => h pre a hpre m hm

/-- An execution to `t` whose steps all satisfy `C`. -/
structure Runs (step : σ → α → Option σ) (C : σ → α → Prop) (s : σ) (as : List α) (t : σ) : Prop where
  exec : exec step s as = some t
  always : Always step C s as

theorem Runs.nil (s : σ) : Runs step C s [] s := ⟨rfl, always_nil s⟩

theorem Runs.cons {s s' t : σ} {a : α} {as : List α} (hC : C s a) (h : step s a = some s')
    (hrest : Runs step C s' as t) : Runs step C s (a :: as) t := by
  refine ⟨exec_cons_eq_some.2 ⟨s', h, hrest.exec⟩, always_cons.2 ⟨hC, fun u hu => ?_⟩⟩
  obtain rfl := Option.some.inj (h.symm.trans hu)
  exact hrest.always

theorem Runs.append {s m t : σ} {as bs : List α} (h : Runs step C s as m)
    (hrest : Runs step C m bs t) : Runs step C s (as ++ bs) t := by
  induction as generalizing s with
  | nil =>
    obtain rfl := Option.some.inj h.exec
    exact hrest
  | cons a as ih =>
    obtain ⟨s', ha, has⟩ := exec_cons_eq_some.1 h.exec
    obtain ⟨h0, halways⟩ := always_cons.1 h.always
    exact .cons h0 ha (ih ⟨has, halways s' ha⟩)

/-- The invariant rule for executions whose steps all meet a condition. -/
theorem exec_invariant_of_always {Inv : σ → Prop}
    (hstep : ∀ s a s', Inv s → C s a → step s a = some s' → Inv s') {s t : σ} {as : List α}
    (hs : Inv s) (hC : Always step C s as) (h : exec step s as = some t) : Inv t := by
  induction as generalizing s with
  | nil => exact Option.some.inj h ▸ hs
  | cons a as ih =>
    obtain ⟨s', ha, has⟩ := exec_cons_eq_some.1 h
    obtain ⟨h0, hC⟩ := always_cons.1 hC
    exact ih (hstep s a s' hs h0 ha) (hC s' ha) has

/-- **Exact conditions.** If, from every state satisfying the invariant, a step is good exactly
when it meets the condition, and good steps keep the invariant, then the steps of an execution
are all good exactly when they all meet the condition. -/
theorem always_iff_of_inv {Inv : σ → Prop}
    (hiff : ∀ s a, Inv s → (C s a ↔ D s a))
    (hstep : ∀ s a s', Inv s → C s a → step s a = some s' → Inv s') {s : σ} {as : List α}
    (hs : Inv s) : Always step C s as ↔ Always step D s as := by
  induction as generalizing s with
  | nil => exact iff_of_true (always_nil s) (always_nil s)
  | cons a as ih =>
    rw [always_cons, always_cons, hiff s a hs]
    refine and_congr_right fun hD => forall₂_congr fun s' hs' => ?_
    exact ih (hstep s a s' hs ((hiff s a hs).2 hD) hs')

/-- **Exact histories.** What holds after a step just when it held before and the step met a
condition, holds after an execution just when it held before and every step met the condition. -/
theorem exec_iff_always {I P : σ → Prop}
    (hstep : ∀ s a s', I s → step s a = some s' → I s' ∧ (P s' ↔ P s ∧ C s a)) {s t : σ}
    {as : List α} (hs : I s) (h : exec step s as = some t) :
    P t ↔ P s ∧ Always step C s as := by
  induction as generalizing s with
  | nil =>
    obtain rfl := Option.some.inj h
    exact (and_iff_left (always_nil s)).symm
  | cons a as ih =>
    obtain ⟨m, hm, hrest⟩ := exec_cons_eq_some.1 h
    obtain ⟨hinv, hiff⟩ := hstep s a m hs hm
    rw [ih hinv hrest, hiff, always_cons, and_assoc]
    refine and_congr_right fun _ => and_congr_right fun _ => ⟨fun hall u hu => ?_, fun hall => ?_⟩
    · exact Option.some.inj (hm.symm.trans hu) ▸ hall
    · exact hall m hm

end Always

end Lubko.Lib
