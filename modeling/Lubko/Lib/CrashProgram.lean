import Mathlib.Data.List.Basic

/-!
# Programs that may be interrupted

A program makes system calls and may raise. What a call does is given by a function `sem` that
also takes a decision of the environment: whether the call fails, how much of it is done. Running a
program along a list of decisions makes one call per decision, so that a run of any length is the
program interrupted after that many calls.

`Safe` is a Hoare logic with a third condition: `I` holds before and after every call, `Q` of what
the program returns and `E` of what it raises.

* `Safe.bind`, `Safe.tryCatch`, `Safe.mono` — the rules for composed programs.
* `Safe.sound`, `Safe.sound_raised` — the three conditions hold of every run.
* `Keeps`, `Only.keeps` — the rules for programs that keep one condition.
* `run_ends` — with decisions enough, a program ends.
* `run_bind_returned`, `run_bind_of_returned` — the run of a composed program, part by part.
* `run_steady` — where every decision is the same, a long run is the evaluation of the program.
* `Ends` — the Hoare logic of evaluations; `eval_via` — a program within one of more calls.
-/

namespace Lubko.Lib

/-- Programs over calls `κ` with replies `ρ`, which raise errors `ε`. -/
inductive Prog (κ ρ ε α : Type) where
  | ret (a : α)
  | raise (e : ε)
  | call (c : κ) (k : ρ → Prog κ ρ ε α)

namespace Prog

variable {κ ρ ε α β ω σ : Type}

def bind : Prog κ ρ ε α → (α → Prog κ ρ ε β) → Prog κ ρ ε β
  | ret a, f => f a
  | raise e, _ => raise e
  | call c k, f => call c fun r => (k r).bind f

def tryCatch : Prog κ ρ ε α → (ε → Prog κ ρ ε α) → Prog κ ρ ε α
  | ret a, _ => ret a
  | raise e, h => h e
  | call c k, h => call c fun r => (k r).tryCatch h

instance : Monad (Prog κ ρ ε) where
  pure := ret
  bind := bind

instance : MonadExcept ε (Prog κ ρ ε) where
  throw := raise
  tryCatch := tryCatch

/-- How a run ends: it returns, raises, or is interrupted before its next call. -/
inductive End (ε α : Type) where
  | returned (a : α)
  | raised (e : ε)
  | interrupted

/-- Run a program along a list of decisions. -/
def run (sem : κ → ω → σ → ρ × σ) : Prog κ ρ ε α → List ω → σ → σ × End ε α
  | ret a, _, s => (s, .returned a)
  | raise e, _, s => (s, .raised e)
  | call _ _, [], s => (s, .interrupted)
  | call c k, o :: os, s => (k (sem c o s).1).run sem os (sem c o s).2

/-- The program keeps `I` at every call, and ends with `Q` or `E`. -/
def Safe (sem : κ → ω → σ → ρ × σ) (I : σ → Prop) (Q : α → σ → Prop) (E : ε → σ → Prop) :
    Prog κ ρ ε α → σ → Prop
  | ret a, s => Q a s
  | raise e, s => E e s
  | call c k, s => I s ∧ ∀ o, (k (sem c o s).1).Safe sem I Q E (sem c o s).2

variable {sem : κ → ω → σ → ρ × σ} {I : σ → Prop} {Q : α → σ → Prop} {E : ε → σ → Prop}

theorem Safe.bind {p : Prog κ ρ ε α} {f : α → Prog κ ρ ε β} {R : β → σ → Prop} {s : σ}
    (h : p.Safe sem I (fun a s => (f a).Safe sem I R E s) E s) :
    (p >>= f).Safe sem I R E s := by
  show (Prog.bind p f).Safe sem I R E s
  induction p generalizing s with
  | ret a => exact h
  | raise e => exact h
  | call c k ih => exact ⟨h.1, fun o => ih _ (h.2 o)⟩

theorem Safe.tryCatch {p : Prog κ ρ ε α} {f : ε → Prog κ ρ ε α} {s : σ}
    (h : p.Safe sem I Q (fun e s => (f e).Safe sem I Q E s) s) :
    (MonadExcept.tryCatch p f).Safe sem I Q E s := by
  show (Prog.tryCatch p f).Safe sem I Q E s
  induction p generalizing s with
  | ret a => exact h
  | raise e => exact h
  | call c k ih => exact ⟨h.1, fun o => ih _ (h.2 o)⟩

theorem Safe.mono {p : Prog κ ρ ε α} {Q' : α → σ → Prop} {E' : ε → σ → Prop} {s : σ}
    (h : p.Safe sem I Q E s) (hQ : ∀ a s, Q a s → Q' a s) (hE : ∀ e s, E e s → E' e s) :
    p.Safe sem I Q' E' s := by
  induction p generalizing s with
  | ret a => exact hQ a s h
  | raise e => exact hE e s h
  | call c k ih => exact ⟨h.1, fun o => ih _ (h.2 o)⟩

/-- **Soundness.** At whatever call a run stops, `I` holds, and at its end what the program
promises. -/
theorem Safe.sound {p : Prog κ ρ ε α} {s : σ} (h : p.Safe sem I Q E s)
    (hQ : ∀ a s, Q a s → I s) (hE : ∀ e s, E e s → I s) (os : List ω) :
    I (p.run sem os s).1 ∧ ∀ a, (p.run sem os s).2 = .returned a → Q a (p.run sem os s).1 := by
  induction p generalizing s os with
  | ret a =>
    refine ⟨hQ a s h, fun b hb => ?_⟩
    cases hb
    exact h
  | raise e => exact ⟨hE e s h, fun b hb => by cases hb⟩
  | call c k ih =>
    cases os with
    | nil => exact ⟨h.1, fun b hb => by cases hb⟩
    | cons o os => exact ih _ (h.2 o) os

/-- What holds when a program raises. -/
theorem Safe.sound_raised {p : Prog κ ρ ε α} {s : σ} (h : p.Safe sem I Q E s) (os : List ω) {e : ε}
    (he : (p.run sem os s).2 = .raised e) : E e (p.run sem os s).1 := by
  induction p generalizing s os with
  | ret a => cases he
  | raise e' =>
    cases he
    exact h
  | call c k ih =>
    cases os with
    | nil => cases he
    | cons o os => exact ih _ (h.2 o) os he

/-- A condition at every call may be weakened. -/
theorem Safe.weaken {p : Prog κ ρ ε α} {I' : σ → Prop} {s : σ} (h : p.Safe sem I Q E s)
    (hI : ∀ s, I s → I' s) : p.Safe sem I' Q E s := by
  induction p generalizing s with
  | ret a => exact h
  | raise e => exact h
  | call c k ih => exact ⟨hI s h.1, fun o => ih _ (h.2 o)⟩

/-! ### Programs that keep one condition -/

/-- The program keeps `I` at every call and at both ends. -/
def Keeps (sem : κ → ω → σ → ρ × σ) (I : σ → Prop) (p : Prog κ ρ ε α) : Prop :=
  ∀ s, I s → p.Safe sem I (fun _ => I) (fun _ => I) s

theorem keeps_ret (a : α) : (ret a : Prog κ ρ ε α).Keeps sem I := fun _ h => h

theorem keeps_raise (e : ε) : (raise e : Prog κ ρ ε α).Keeps sem I := fun _ h => h

theorem Keeps.call {c : κ} {k : ρ → Prog κ ρ ε α} (hc : ∀ s o, I s → I (sem c o s).2)
    (hk : ∀ r, (k r).Keeps sem I) : (call c k).Keeps sem I :=
  fun s h => ⟨h, fun o => hk _ _ (hc s o h)⟩

theorem Keeps.bind {p : Prog κ ρ ε α} {f : α → Prog κ ρ ε β} (hp : p.Keeps sem I)
    (hf : ∀ a, (f a).Keeps sem I) : (p >>= f).Keeps sem I :=
  fun s h => Safe.bind ((hp s h).mono (fun a s' h' => hf a s' h') fun _ _ h' => h')

theorem Keeps.tryCatch {p : Prog κ ρ ε α} {f : ε → Prog κ ρ ε α} (hp : p.Keeps sem I)
    (hf : ∀ e, (f e).Keeps sem I) : (MonadExcept.tryCatch p f).Keeps sem I :=
  fun s h => Safe.tryCatch ((hp s h).mono (fun _ _ h' => h') fun e s' h' => hf e s' h')

theorem Keeps.or {I' : σ → Prop} {p : Prog κ ρ ε α} (h : p.Keeps sem I) (h' : p.Keeps sem I') :
    p.Keeps sem fun s => I s ∨ I' s := by
  rintro s (hs | hs)
  · exact ((h s hs).mono (fun _ _ => Or.inl) fun _ _ => Or.inl).weaken fun _ => Or.inl
  · exact ((h' s hs).mono (fun _ _ => Or.inr) fun _ _ => Or.inr).weaken fun _ => Or.inr

/-- The program makes only these calls. -/
def Only (allowed : κ → Prop) : Prog κ ρ ε α → Prop
  | ret _ => True
  | raise _ => True
  | call c k => allowed c ∧ ∀ r, (k r).Only allowed

theorem only_ret {allowed : κ → Prop} (a : α) : (ret a : Prog κ ρ ε α).Only allowed := trivial

theorem only_raise {allowed : κ → Prop} (e : ε) : (raise e : Prog κ ρ ε α).Only allowed := trivial

theorem Only.bind {allowed : κ → Prop} {p : Prog κ ρ ε α} {f : α → Prog κ ρ ε β}
    (hp : p.Only allowed) (hf : ∀ a, (f a).Only allowed) : (p >>= f).Only allowed := by
  show (Prog.bind p f).Only allowed
  induction p with
  | ret a => exact hf a
  | raise e => trivial
  | call c k ih => exact ⟨hp.1, fun r => ih r (hp.2 r)⟩

theorem Only.tryCatch {allowed : κ → Prop} {p : Prog κ ρ ε α} {f : ε → Prog κ ρ ε α}
    (hp : p.Only allowed) (hf : ∀ e, (f e).Only allowed) :
    (MonadExcept.tryCatch p f).Only allowed := by
  show (Prog.tryCatch p f).Only allowed
  induction p with
  | ret a => trivial
  | raise e => exact hf e
  | call c k ih => exact ⟨hp.1, fun r => ih r (hp.2 r)⟩

theorem Only.mono {allowed allowed' : κ → Prop} {p : Prog κ ρ ε α} (hp : p.Only allowed)
    (h : ∀ c, allowed c → allowed' c) : p.Only allowed' := by
  induction p with
  | ret a => trivial
  | raise e => trivial
  | call c k ih => exact ⟨h c hp.1, fun r => ih r (hp.2 r)⟩

/-- What all its calls keep, the program keeps. -/
theorem Only.keeps {allowed : κ → Prop} {p : Prog κ ρ ε α} (hp : p.Only allowed)
    (hI : ∀ c, allowed c → ∀ s o, I s → I (sem c o s).2) : p.Keeps sem I := by
  induction p with
  | ret a => exact keeps_ret a
  | raise e => exact keeps_raise e
  | call c k ih => exact .call (hI c hp.1) fun r => ih r (hp.2 r)

/-- Along any stream of decisions a program ends. -/
theorem run_ends (sem : κ → ω → σ → ρ × σ) (p : Prog κ ρ ε α) (s : σ) (decisions : ℕ → ω) :
    ∃ n, (p.run sem ((List.range n).map decisions) s).2 ≠ .interrupted := by
  induction p generalizing s decisions with
  | ret a => exact ⟨0, by intro h; cases h⟩
  | raise e => exact ⟨0, by intro h; cases h⟩
  | call c k ih =>
    obtain ⟨n, hn⟩ := ih _ (sem c (decisions 0) s).2 fun i => decisions (i + 1)
    refine ⟨n + 1, ?_⟩
    rw [List.range_succ_eq_map, List.map_cons, List.map_map]
    exact hn

/-- More decisions change nothing in a run that has ended. -/
theorem run_append {p : Prog κ ρ ε α} {s : σ} {os : List ω} (os' : List ω)
    (h : (p.run sem os s).2 ≠ .interrupted) : p.run sem (os ++ os') s = p.run sem os s := by
  induction p generalizing s os with
  | ret a => rfl
  | raise e => rfl
  | call c k ih =>
    cases os with
    | nil => exact absurd rfl h
    | cons o os => exact ih _ h

/-- A composed program that returns has run its first part to the end. -/
theorem run_bind_returned {p : Prog κ ρ ε α} {f : α → Prog κ ρ ε β} {s : σ} {os : List ω} {b : β}
    (h : ((p >>= f).run sem os s).2 = .returned b) :
    ∃ a rest, (p.run sem os s).2 = .returned a ∧
      (p >>= f).run sem os s = (f a).run sem rest (p.run sem os s).1 := by
  change ((Prog.bind p f).run sem os s).2 = .returned b at h
  show ∃ a rest, _ ∧ (Prog.bind p f).run sem os s = _
  induction p generalizing os s with
  | ret a => exact ⟨a, os, rfl, rfl⟩
  | raise e => cases h
  | call c k ih =>
    cases os with
    | nil => cases h
    | cons o os => exact ih _ h

/-- What follows a first part that has ended. -/
theorem run_bind_of_returned {p : Prog κ ρ ε α} {f : α → Prog κ ρ ε β} {s : σ} {os : List ω} {a : α}
    (h : (p.run sem os s).2 = .returned a) :
    ∃ rest, (p >>= f).run sem os s = (f a).run sem rest (p.run sem os s).1 := by
  show ∃ rest, (Prog.bind p f).run sem os s = _
  induction p generalizing os s with
  | ret a' =>
    cases h
    exact ⟨os, rfl⟩
  | raise e => cases h
  | call c k ih =>
    cases os with
    | nil => cases h
    | cons o os => exact ih _ h

/-! ### One decision throughout -/

/-- Run a program to its end, where a call has one outcome. -/
def eval (sem : κ → σ → ρ × σ) : Prog κ ρ ε α → σ → σ × Except ε α
  | ret a, s => (s, .ok a)
  | raise e, s => (s, .error e)
  | call c k, s => (k (sem c s).1).eval sem (sem c s).2

/-- How an evaluated program ended. -/
def End.of : Except ε α → End ε α
  | .ok a => .returned a
  | .error e => .raised e

section Eval

variable {sure : κ → σ → ρ × σ}

theorem eval_bind (p : Prog κ ρ ε α) (f : α → Prog κ ρ ε β) (s : σ) :
    (p >>= f).eval sure s =
      match (p.eval sure s).2 with
      | .ok a => (f a).eval sure (p.eval sure s).1
      | .error e => ((p.eval sure s).1, .error e) := by
  show (Prog.bind p f).eval sure s = _
  induction p generalizing s with
  | ret a => rfl
  | raise e => rfl
  | call c k ih => exact ih _ _

theorem eval_tryCatch (p : Prog κ ρ ε α) (f : ε → Prog κ ρ ε α) (s : σ) :
    (MonadExcept.tryCatch p f).eval sure s =
      match (p.eval sure s).2 with
      | .ok a => ((p.eval sure s).1, .ok a)
      | .error e => (f e).eval sure (p.eval sure s).1 := by
  show (Prog.tryCatch p f).eval sure s = _
  induction p generalizing s with
  | ret a => rfl
  | raise e => rfl
  | call c k ih => exact ih _ _

theorem eval_bind_ok {p : Prog κ ρ ε α} {f : α → Prog κ ρ ε β} {s s' : σ} {a : α}
    (h : p.eval sure s = (s', .ok a)) : (p >>= f).eval sure s = (f a).eval sure s' := by
  rw [eval_bind, h]

theorem eval_tryCatch_ok {p : Prog κ ρ ε α} {f : ε → Prog κ ρ ε α} {s s' : σ} {a : α}
    (h : p.eval sure s = (s', .ok a)) :
    (MonadExcept.tryCatch p f).eval sure s = (s', .ok a) := by
  rw [eval_tryCatch, h]

/-- A run that has ended, with one decision throughout, ended as the evaluation does. -/
theorem run_replicate {p : Prog κ ρ ε α} {s : σ} {o : ω} {n : ℕ}
    (h : (p.run sem (List.replicate n o) s).2 ≠ .interrupted) :
    p.run sem (List.replicate n o) s =
      ((p.eval (sem · o) s).1, .of (p.eval (sem · o) s).2) := by
  induction p generalizing s n with
  | ret a => rfl
  | raise e => rfl
  | call c k ih =>
    cases n with
    | zero => exact absurd rfl h
    | succ n => exact ih _ h

/-- **Every run that is long enough is the evaluation**, where the decisions are all the same. -/
theorem run_steady (sem : κ → ω → σ → ρ × σ) (p : Prog κ ρ ε α) (o : ω) (s : σ) :
    ∃ calls, ∀ n, calls ≤ n → p.run sem (List.replicate n o) s =
      ((p.eval (sem · o) s).1, .of (p.eval (sem · o) s).2) := by
  obtain ⟨calls, hends⟩ := run_ends sem p s fun _ => o
  rw [List.map_const', List.length_range] at hends
  refine ⟨calls, fun n hn => ?_⟩
  obtain ⟨more, rfl⟩ := Nat.exists_eq_add_of_le hn
  rw [List.replicate_add, run_append _ hends]
  exact run_replicate hends

end Eval

/-! ### How an evaluation ends -/

/-- The evaluation returns with `Q`, or raises with `E`. -/
def Ends (sure : κ → σ → ρ × σ) (Q : α → σ → Prop) (E : ε → σ → Prop) (p : Prog κ ρ ε α) (s : σ) :
    Prop :=
  match (p.eval sure s).2 with
  | .ok a => Q a (p.eval sure s).1
  | .error e => E e (p.eval sure s).1

section Ends

variable {sure : κ → σ → ρ × σ}

theorem Ends.raise {e : ε} {s : σ} (h : E e s) : (raise e : Prog κ ρ ε α).Ends sure Q E s := h

theorem Ends.call {c : κ} {k : ρ → Prog κ ρ ε α} {s : σ}
    (h : (k (sure c s).1).Ends sure Q E (sure c s).2) : (call c k).Ends sure Q E s := h

theorem Ends.bind {p : Prog κ ρ ε α} {f : α → Prog κ ρ ε β} {R : β → σ → Prop} {s : σ}
    (h : p.Ends sure (fun a s => (f a).Ends sure R E s) E s) : (p >>= f).Ends sure R E s := by
  unfold Ends at h ⊢
  rw [eval_bind]
  cases hend : (p.eval sure s).2 with
  | ok a =>
    rw [hend] at h
    exact h
  | error e =>
    rw [hend] at h
    exact h

theorem Ends.tryCatch {p : Prog κ ρ ε α} {f : ε → Prog κ ρ ε α} {s : σ}
    (h : p.Ends sure Q (fun e s => (f e).Ends sure Q E s) s) :
    (MonadExcept.tryCatch p f).Ends sure Q E s := by
  unfold Ends at h ⊢
  rw [eval_tryCatch]
  cases hend : (p.eval sure s).2 with
  | ok a =>
    rw [hend] at h
    exact h
  | error e =>
    rw [hend] at h
    exact h

theorem Ends.mono {p : Prog κ ρ ε α} {Q' : α → σ → Prop} {E' : ε → σ → Prop} {s : σ}
    (h : p.Ends sure Q E s) (hQ : ∀ a s, Q a s → Q' a s) (hE : ∀ e s, E e s → E' e s) :
    p.Ends sure Q' E' s := by
  unfold Ends at h ⊢
  cases hend : (p.eval sure s).2 with
  | ok a =>
    rw [hend] at h
    exact hQ a _ h
  | error e =>
    rw [hend] at h
    exact hE e _ h

theorem Ends.and {p : Prog κ ρ ε α} {Q' : α → σ → Prop} {E' : ε → σ → Prop} {s : σ}
    (h : p.Ends sure Q E s) (h' : p.Ends sure Q' E' s) :
    p.Ends sure (fun a s => Q a s ∧ Q' a s) (fun e s => E e s ∧ E' e s) s := by
  unfold Ends at h h' ⊢
  cases hend : (p.eval sure s).2 with
  | ok a =>
    rw [hend] at h h'
    exact ⟨h, h'⟩
  | error e =>
    rw [hend] at h h'
    exact ⟨h, h'⟩

theorem Ends.returned {p : Prog κ ρ ε α} {s : σ} {a : α} (h : p.Ends sure Q E s)
    (ha : (p.eval sure s).2 = .ok a) : Q a (p.eval sure s).1 := by
  unfold Ends at h
  rw [ha] at h
  exact h

theorem Ends.raised {p : Prog κ ρ ε α} {s : σ} {e : ε} (h : p.Ends sure Q E s)
    (he : (p.eval sure s).2 = .error e) : E e (p.eval sure s).1 := by
  unfold Ends at h
  rw [he] at h
  exact h

end Ends

/-! ### Programs within programs -/

variable {κ' ρ' : Type}

/-- A program that makes its calls through another interface. -/
def via (make : κ → κ') (read : ρ' → ρ) : Prog κ ρ ε α → Prog κ' ρ' ε α
  | ret a => ret a
  | raise e => raise e
  | call c k => call (make c) fun r => (k (read r)).via make read

/-- Where the other interface does the same, the program evaluates the same. -/
theorem eval_via {sure : κ → σ → ρ × σ} {sure' : κ' → σ → ρ' × σ} {make : κ → κ'} {read : ρ' → ρ}
    (h : ∀ c s, (read (sure' (make c) s).1, (sure' (make c) s).2) = sure c s) (p : Prog κ ρ ε α)
    (s : σ) : (p.via make read).eval sure' s = p.eval sure s := by
  induction p generalizing s with
  | ret a => rfl
  | raise e => rfl
  | call c k ih =>
    show ((k (read (sure' (make c) s).1)).via make read).eval sure' (sure' (make c) s).2 =
      (k (sure c s).1).eval sure (sure c s).2
    rw [← h c s]
    exact ih _ _

end Prog

end Lubko.Lib
