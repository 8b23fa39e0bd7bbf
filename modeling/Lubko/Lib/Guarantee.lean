import Mathlib

/-!
# What a program guarantees about its state

Programs of `EStateM` change a state and may raise, and what they changed before they raised stays
changed. A program guarantees a preorder on states when the state it ends in, whether it returns or
raises, is related to the state it started from. A guarantee composes: what every part of a program
guarantees, the whole program guarantees.

* `Guarantees.bind`, `Guarantees.tryCatch`, `Guarantees.forM` — the rules for composed programs.
* `run_bind_eq_ok`, `after_bind_error`, `after_finally` — how a composed program runs and ends.
-/

namespace Lubko.Lib

variable {ε σ α β : Type}

/-- The state a run ends in, whether it returns or raises. -/
def after (m : EStateM ε σ α) (s : σ) : σ :=
  match m s with
  | .ok _ t => t
  | .error _ t => t

/-- From every state, the program ends in a related one. -/
def Guarantees (R : σ → σ → Prop) (m : EStateM ε σ α) : Prop := ∀ s, R s (after m s)

/-! ## Running composed programs -/

theorem run_bind_ok {m : EStateM ε σ α} {s t : σ} {a : α} (h : m s = .ok a t)
    (f : α → EStateM ε σ β) : (m >>= f) s = f a t := by
  show EStateM.bind m f s = f a t
  rw [EStateM.bind, h]

theorem run_bind_error {m : EStateM ε σ α} {s t : σ} {e : ε} (h : m s = .error e t)
    (f : α → EStateM ε σ β) : (m >>= f) s = .error e t := by
  show EStateM.bind m f s = .error e t
  rw [EStateM.bind, h]

theorem run_get_bind (f : σ → EStateM ε σ β) (s : σ) : (get >>= f) s = f s s := rfl

theorem run_modify_bind (g : σ → σ) (f : PUnit → EStateM ε σ β) (s : σ) :
    (modify g >>= f) s = f ⟨⟩ (g s) := rfl

theorem run_modifyGet_bind (g : σ → α × σ) (f : α → EStateM ε σ β) (s : σ) :
    (modifyGet g >>= f) s = f (g s).1 (g s).2 := rfl

theorem run_map_ok {m : EStateM ε σ α} {s t : σ} {a : α} (h : m s = .ok a t) (g : α → β) :
    (g <$> m) s = .ok (g a) t := by
  show EStateM.map g m s = .ok (g a) t
  rw [EStateM.map, h]

theorem run_map_error {m : EStateM ε σ α} {s t : σ} {e : ε} (h : m s = .error e t) (g : α → β) :
    (g <$> m) s = .error e t := by
  show EStateM.map g m s = .error e t
  rw [EStateM.map, h]

theorem run_tryCatch_ok {m : EStateM ε σ α} {s t : σ} {a : α} (h : m s = .ok a t)
    (f : ε → EStateM ε σ α) : MonadExcept.tryCatch m f s = .ok a t := by
  show EStateM.tryCatch m f s = .ok a t
  rw [EStateM.tryCatch, h]

/-- The handler runs in the state the body raised in. -/
theorem run_tryCatch_error {m : EStateM ε σ α} {s t : σ} {e : ε} (h : m s = .error e t)
    (f : ε → EStateM ε σ α) : MonadExcept.tryCatch m f s = f e t := by
  show EStateM.tryCatch m f s = f e t
  rw [EStateM.tryCatch, h]
  rfl

theorem run_bind_eq_ok {m : EStateM ε σ α} {f : α → EStateM ε σ β} {s t : σ} {b : β} :
    (m >>= f) s = .ok b t ↔ ∃ a u, m s = .ok a u ∧ f a u = .ok b t := by
  show EStateM.bind m f s = .ok b t ↔ _
  rw [EStateM.bind]
  cases m s with
  | ok a u =>
    constructor
    · intro h
      exact ⟨a, u, rfl, h⟩
    · rintro ⟨a, u, h, hf⟩
      cases h
      exact hf
  | error e u => simp

theorem after_bind_ok {m : EStateM ε σ α} {s t : σ} {a : α} (h : m s = .ok a t)
    (f : α → EStateM ε σ β) : after (m >>= f) s = after (f a) t := by
  rw [after, run_bind_ok h, after]

theorem after_bind_error {m : EStateM ε σ α} {s t : σ} {e : ε} (h : m s = .error e t)
    (f : α → EStateM ε σ β) : after (m >>= f) s = t := by
  rw [after, run_bind_error h]

/-- The finalizer runs in the state the body ended in. -/
theorem after_finally (m : EStateM ε σ α) (f : EStateM ε σ β) (s : σ) :
    after (tryFinally m f) s = after f (after m s) := by
  show after (Prod.fst <$> tryFinally' m fun _ => f) s = _
  simp only [after, tryFinally', Functor.map, EStateM.map]
  cases m s with
  | ok a t => cases hf : f t <;> simp only [hf]
  | error e t => cases hf : f t <;> simp only [hf]

/-! ## Rules -/

namespace Guarantees

variable {R : σ → σ → Prop}

section Leaves

variable [Std.Refl R]

theorem pure (a : α) : Guarantees R (Pure.pure a : EStateM ε σ α) := fun s => Std.Refl.refl s

theorem throw (e : ε) : Guarantees R (MonadExcept.throw e : EStateM ε σ α) :=
  fun s => Std.Refl.refl s

theorem get : Guarantees R (MonadState.get : EStateM ε σ σ) := fun s => Std.Refl.refl s

end Leaves

theorem modify {f : σ → σ} (h : ∀ s, R s (f s)) :
    Guarantees R (modify f : EStateM ε σ PUnit) := fun s => h s

theorem ite {p : Prop} [Decidable p] {m m' : EStateM ε σ α} (hm : Guarantees R m)
    (hm' : Guarantees R m') : Guarantees R (if p then m else m') := by
  split
  · exact hm
  · exact hm'

section Composed

variable [IsTrans σ R]

/-- The rest of a program may rely on what the first part returned. -/
theorem bindOk {m : EStateM ε σ α} {f : α → EStateM ε σ β} (hm : Guarantees R m)
    (hf : ∀ s a t, m s = .ok a t → R t (after (f a) t)) : Guarantees R (m >>= f) := by
  intro s
  have hs : R s (after m s) := hm s
  cases h : m s with
  | ok a t =>
    rw [after_bind_ok h]
    rw [after, h] at hs
    exact IsTrans.trans _ _ _ hs (hf s a t h)
  | error e t =>
    rw [after_bind_error h]
    rw [after, h] at hs
    exact hs

theorem bind {m : EStateM ε σ α} {f : α → EStateM ε σ β} (hm : Guarantees R m)
    (hf : ∀ a, Guarantees R (f a)) : Guarantees R (m >>= f) :=
  hm.bindOk fun _ a t _ => hf a t

theorem tryCatch {m : EStateM ε σ α} {f : ε → EStateM ε σ α} (hm : Guarantees R m)
    (hf : ∀ e, Guarantees R (f e)) : Guarantees R (MonadExcept.tryCatch m f) := by
  intro s
  have hs : R s (after m s) := hm s
  show R s (after (EStateM.tryCatch m f) s)
  rw [after] at hs ⊢
  rw [EStateM.tryCatch]
  cases h : m s with
  | ok a t =>
    rw [h] at hs
    exact hs
  | error e t =>
    rw [h] at hs
    exact IsTrans.trans _ _ _ hs (hf e t)

theorem forM [Std.Refl R] {f : β → EStateM ε σ PUnit} {as : List β}
    (hf : ∀ a ∈ as, Guarantees R (f a)) : Guarantees R (as.forM f) := by
  induction as with
  | nil => exact .pure _
  | cons a as ih =>
    refine .bind (hf a (List.mem_cons_self)) fun _ => ?_
    exact ih fun b hb => hf b (List.mem_cons_of_mem _ hb)

end Composed

end Guarantees

end Lubko.Lib
