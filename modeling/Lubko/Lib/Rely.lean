import Lubko.Lib.CrashProgram

/-!
# Programs that rely on their environment

Some calls are safe only while the environment keeps its part. `Relies` is the Hoare logic of
`Safe` with that split in two: a program guarantees `G` of every call it makes, as long as each call
made before met the rely `A`. A run has a trace, the calls it made with the states they were made in.

* `Relies.bind`, `Relies.tryCatch`, `Relies.mono` — the rules for composed programs.
* `Relies.trace`, `Relies.sound` — a run whose calls all meet the rely keeps the guarantee at every
  call, and ends as the program promises.
-/

namespace Lubko.Lib.Prog

variable {κ ρ ε α β ω σ : Type}

/-- The calls of a run, each with the state it was made in. -/
def trace (sem : κ → ω → σ → ρ × σ) : Prog κ ρ ε α → List ω → σ → List (κ × σ)
  | ret _, _, _ => []
  | raise _, _, _ => []
  | call _ _, [], _ => []
  | call c k, o :: os, s => (c, s) :: (k (sem c o s).1).trace sem os (sem c o s).2

/-- The program guarantees `G` at every call, while its calls meet `A`, and ends with `Q` or `E`. -/
def Relies (sem : κ → ω → σ → ρ × σ) (A G : κ → σ → Prop) (Q : α → σ → Prop) (E : ε → σ → Prop) :
    Prog κ ρ ε α → σ → Prop
  | ret a, s => Q a s
  | raise e, s => E e s
  | call c k, s => G c s ∧ (A c s → ∀ o, (k (sem c o s).1).Relies sem A G Q E (sem c o s).2)

variable {sem : κ → ω → σ → ρ × σ} {A G : κ → σ → Prop} {Q : α → σ → Prop} {E : ε → σ → Prop}

theorem Relies.bind {p : Prog κ ρ ε α} {f : α → Prog κ ρ ε β} {R : β → σ → Prop} {s : σ}
    (h : p.Relies sem A G (fun a s => (f a).Relies sem A G R E s) E s) :
    (p >>= f).Relies sem A G R E s := by
  show (Prog.bind p f).Relies sem A G R E s
  induction p generalizing s with
  | ret a => exact h
  | raise e => exact h
  | call c k ih => exact ⟨h.1, fun hA o => ih _ (h.2 hA o)⟩

theorem Relies.tryCatch {p : Prog κ ρ ε α} {f : ε → Prog κ ρ ε α} {s : σ}
    (h : p.Relies sem A G Q (fun e s => (f e).Relies sem A G Q E s) s) :
    (MonadExcept.tryCatch p f).Relies sem A G Q E s := by
  show (Prog.tryCatch p f).Relies sem A G Q E s
  induction p generalizing s with
  | ret a => exact h
  | raise e => exact h
  | call c k ih => exact ⟨h.1, fun hA o => ih _ (h.2 hA o)⟩

theorem Relies.mono {p : Prog κ ρ ε α} {Q' : α → σ → Prop} {E' : ε → σ → Prop} {s : σ}
    (h : p.Relies sem A G Q E s) (hQ : ∀ a s, Q a s → Q' a s) (hE : ∀ e s, E e s → E' e s) :
    p.Relies sem A G Q' E' s := by
  induction p generalizing s with
  | ret a => exact hQ a s h
  | raise e => exact hE e s h
  | call c k ih => exact ⟨h.1, fun hA o => ih _ (h.2 hA o)⟩

/-- What follows a part of a program, from what the part promises. -/
theorem Relies.andThen {p : Prog κ ρ ε α} {f : α → Prog κ ρ ε β} {R : β → σ → Prop} {s : σ}
    (h : p.Relies sem A G Q E s) (hf : ∀ a s, Q a s → (f a).Relies sem A G R E s) :
    (p >>= f).Relies sem A G R E s :=
  .bind (h.mono hf fun _ _ he => he)

/-- **The guarantee.** Where every call of a run meets the rely, every call keeps the guarantee. -/
theorem Relies.trace {p : Prog κ ρ ε α} {s : σ} (h : p.Relies sem A G Q E s) (os : List ω)
    (hA : ∀ x ∈ p.trace sem os s, A x.1 x.2) : ∀ x ∈ p.trace sem os s, G x.1 x.2 := by
  induction p generalizing s os with
  | ret a => simp [Prog.trace]
  | raise e => simp [Prog.trace]
  | call c k ih =>
    cases os with
    | nil => simp [Prog.trace]
    | cons o os =>
      simp only [Prog.trace, List.forall_mem_cons] at hA ⊢
      exact ⟨h.1, ih _ (h.2 hA.1 o) os hA.2⟩

/-- What a program leaves behind: what it promises of its end, or the guarantee at the call it was
interrupted before. -/
def Ended (G : κ → σ → Prop) (Q : α → σ → Prop) (E : ε → σ → Prop) (s : σ) : End ε α → Prop
  | .returned a => Q a s
  | .raised e => E e s
  | .interrupted => ∃ c, G c s

/-- **Soundness.** A run whose calls all meet the rely ends as the program promises. -/
theorem Relies.sound {p : Prog κ ρ ε α} {s : σ} (h : p.Relies sem A G Q E s) (os : List ω)
    (hA : ∀ x ∈ p.trace sem os s, A x.1 x.2) :
    Ended G Q E (p.run sem os s).1 (p.run sem os s).2 := by
  induction p generalizing s os with
  | ret a => exact h
  | raise e => exact h
  | call c k ih =>
    cases os with
    | nil => exact ⟨c, h.1⟩
    | cons o os =>
      simp only [Prog.trace, List.forall_mem_cons] at hA
      exact ih _ (h.2 hA.1 o) os hA.2

end Lubko.Lib.Prog
