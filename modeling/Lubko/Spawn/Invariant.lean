import Lubko.Spawn.World

/-!
# What holds between any two calls

The row accounts for every worker that runs: it holds the obligation it was started under, or it
publishes it. The daemon holds the handle of a worker that runs, or the worker is published and
neither the daemon's memory nor the cache names it. The cached obligation agrees with the row's.

The daemon may give up a handle at a place where the exit of its process is not proven. `Allowed`
says when that does no harm, and is what the rest relies on.

* `World.Inv` — the invariant; `Good` — what is guaranteed at the calls that matter.
* `Ensures`, `Keeps` — a program that keeps the invariant, with the rules for composed programs.
* `World.Inv.live_unique` — at most one worker runs.
-/

namespace Lubko.Spawn

open Lubko.Lib Lubko.Supervise Lubko.Authority Lubko.Lifecycle Lubko.Deploy
open Lubko.Supervise.Recovery (WriteEnd)

/-! ## The invariant -/

/-- The child has the token of the process. -/
def Names (child : Option WorkerChild) (x : Spawned) : Prop := ∃ c ∈ child, c.token = x.token

/-- The obligation has the token of the process. -/
def Caches (spawning : Option SpawningObligation) (x : Spawned) : Prop :=
  ∃ s ∈ spawning, s.token = x.token

/-- A row's obligation and a local one are about the same spawn. -/
structure SameSpawn (o : SpawnObligation) (s : SpawningObligation) : Prop where
  token : s.token = o.token
  creatorPid : s.creatorPid = o.creatorPid
  creatorStartTimeTicks : s.creatorStartTimeTicks = o.creatorStartTimeTicks
  bootId : s.bootId = o.bootId

namespace World

/-- The row holds the obligation of the process. -/
def Owes (w : World) (x : Spawned) : Prop := ∃ o ∈ w.row.spawn, o.token = x.token

/-- The row publishes the process. -/
def Publishes (w : World) (x : Spawned) : Prop := ∃ r ∈ w.row.worker, r.token = x.token

/-- The token was drawn before. -/
def Drawn (w : World) (token : PyStr) : Prop := ∃ n < w.drawn, w.tokens n = token

/-- What `state.json` may hold. -/
structure Cached (w : World) (spawning : Option SpawningObligation) (child : Option WorkerChild) :
    Prop where
  agrees : ∀ o ∈ w.row.spawn, ∀ s ∈ spawning, SameSpawn o s
  /-- A child with the pid-bearing obligation of its own token was published. -/
  published : ∀ s ∈ spawning, s.pid ≠ none → ∀ c ∈ child, c.token = s.token → w.row.spawn = none
  exact : ∀ s ∈ spawning, ∀ x ∈ w.live, x.token = s.token → ∀ pid ∈ s.pid,
    pid = x.pid ∧ ∀ ticks ∈ s.startTimeTicks, ticks = x.startTimeTicks
  handled : ∀ x ∈ w.live, w.proc ≠ some x → ¬ Caches spawning x
  spawning_drawn : ∀ s ∈ spawning, w.Drawn s.token
  child_drawn : ∀ c ∈ child, w.Drawn c.token

structure Inv (w : World) : Prop where
  injective : Function.Injective w.tokens
  self_ticks : w.claim.startTimeTicks ≠ 0
  live_made : ∀ x ∈ w.live, x ∈ w.made
  live_pid : ∀ x ∈ w.live, x.pid ≠ w.claim.pid
  made_drawn : ∀ x ∈ w.made, w.Drawn x.token
  made_unique : ∀ x ∈ w.made, ∀ y ∈ w.made, x.token = y.token → x = y
  exclusive : w.row.spawn = none ∨ w.row.worker = none
  covered : ∀ x ∈ w.live, w.Owes x ∨ w.Publishes x
  handled : ∀ x ∈ w.live, w.proc ≠ some x →
    w.proc = none ∧ w.Publishes x ∧ ¬ Names w.activeChild x
  created : ∀ x ∈ w.live, ∀ o ∈ w.row.spawn, o.token = x.token → o.creatorPid = w.claim.pid ∧
    o.creatorStartTimeTicks = w.claim.startTimeTicks ∧ ∀ boot ∈ o.bootId, boot = w.claim.bootId
  pidless : ∀ o ∈ w.row.spawn, o.pid = none
  spawn_drawn : ∀ o ∈ w.row.spawn, w.Drawn o.token
  recorded : ∀ r ∈ w.row.worker, ∀ x ∈ w.made, x.token = r.token →
    r.pid = x.pid ∧ r.startTimeTicks = x.startTimeTicks
  worker_drawn : ∀ r ∈ w.row.worker, w.Drawn r.token
  active : ∀ c ∈ w.activeChild, ∀ x ∈ w.made, x.token = c.token →
    c.pid = x.pid ∧ c.startTimeTicks = x.startTimeTicks
  active_drawn : ∀ c ∈ w.activeChild, w.Drawn c.token
  cached : w.Cached w.file.spawning w.file.child

end World

/-! ## The rely and the guarantee -/

/-- Giving up the handle does no harm: its process has exited, or is published and named neither by
the memory that is left nor by the cached obligation. -/
def Settled (activeChild : Option WorkerChild) (w : World) : Prop :=
  ∀ x ∈ w.live, w.proc = some x →
    w.Publishes x ∧ ¬ Names activeChild x ∧ ¬ Caches w.file.spawning x

/-- The places where a handle is given up without a proof that its process has exited. -/
def Site.unproven : Site → Bool
  | .clearChild | .handleCrash | .handleDbCrash => true
  | _ => false

/-- The rely: at those places, and where another image is executed, giving up the handle does no
harm. -/
def Allowed : Call → World → Prop
  | .forget site, w => site.unproven = true → Settled w.activeChild w
  | .execve, w => Settled none w
  | _, _ => True

/-- The obligation is about no process, or about one that has exited and whose command groups were
recovered, unless the obligation is of an earlier boot. -/
def Discharged (w : World) (o : SpawnObligation) : Prop :=
  (∀ x ∈ w.made, x.token ≠ o.token) ∨
    (∀ x ∈ w.live, x.token ≠ o.token) ∧
      (o.token ∈ w.recovered ∨ ∃ boot ∈ o.bootId, boot ≠ w.claim.bootId)

/-- What is guaranteed of a call. -/
def Good : Call → World → Prop
  | .popen token, w => w.live = [] ∧ ∃ o ∈ w.row.spawn, o.token = token
  | .request (.clearSpawn _), w => ∀ o ∈ w.row.spawn, Discharged w o
  | .request (.clearWorker _ token), w => ∀ r ∈ w.row.worker, r.token = token →
      ∀ x ∈ w.live, x.token ≠ token
  | .forget site, w => site.unproven = false → ∀ x ∈ w.live, w.proc ≠ some x
  | _, _ => True

/-- The guarantee. -/
def Guaranteed (c : Call) (w : World) : Prop := w.Inv ∧ Good c w

variable {α β : Type} {w w' : World} {gone : List Spawned}

/-- While the rely is met, the program guarantees its calls, keeps the invariant, and returns with
`Q`. -/
abbrev Ensures (code : Code α) (Q : α → World → Prop) (w : World) : Prop :=
  code.Relies sem Allowed Guaranteed (fun a w' => w'.Inv ∧ Q a w') (fun _ w' => w'.Inv) w

/-- While the rely is met, the program guarantees its calls and keeps the invariant. -/
abbrev Keeps (code : Code α) (w : World) : Prop := Ensures code (fun _ _ => True) w

theorem Ensures.ret {a : α} {Q : α → World → Prop} (h : w.Inv) (hQ : Q a w) :
    Ensures (pure a) Q w :=
  ⟨h, hQ⟩

theorem Ensures.raise {e : Exc} {Q : α → World → Prop} (h : w.Inv) :
    Ensures (throw e) Q w :=
  h

theorem Ensures.bind {code : Code α} {f : α → Code β} {Q : α → World → Prop}
    {R : β → World → Prop} (h : Ensures code Q w)
    (hf : ∀ a w', w'.Inv → Q a w' → Ensures (f a) R w') : Ensures (code >>= f) R w :=
  h.andThen fun a w' hQ => hf a w' hQ.1 hQ.2

theorem Ensures.mono {code : Code α} {Q R : α → World → Prop} (h : Ensures code Q w)
    (hQR : ∀ a w', w'.Inv → Q a w' → R a w') : Ensures code R w :=
  Prog.Relies.mono h (fun a w' hQ => ⟨hQ.1, hQR a w' hQ.1 hQ.2⟩) fun _ _ he => he

/-! ## Exits -/

namespace World

@[simp] theorem lose_row : (w.lose gone).row = w.row := rfl
@[simp] theorem lose_file : (w.lose gone).file = w.file := rfl
@[simp] theorem lose_proc : (w.lose gone).proc = w.proc := rfl
@[simp] theorem lose_activeChild : (w.lose gone).activeChild = w.activeChild := rfl
@[simp] theorem lose_claim : (w.lose gone).claim = w.claim := rfl
@[simp] theorem lose_made : (w.lose gone).made = w.made := rfl
@[simp] theorem lose_tokens : (w.lose gone).tokens = w.tokens := rfl
@[simp] theorem lose_drawn : (w.lose gone).drawn = w.drawn := rfl
@[simp] theorem lose_recovered : (w.lose gone).recovered = w.recovered := rfl

theorem mem_live_of_lose {x : Spawned} (h : x ∈ (w.lose gone).live) : x ∈ w.live :=
  List.mem_of_mem_filter h

theorem lose_lose (w : World) (gone gone' : List Spawned) :
    (w.lose gone).lose gone' = w.lose (gone ++ gone') := by
  simp only [lose, List.filter_filter, List.mem_append, not_or, Bool.decide_and, Bool.and_comm]

/-- Nothing but exits came between. -/
def Later (w w' : World) : Prop := ∃ gone, w' = w.lose gone

theorem Later.refl (w : World) : w.Later w := ⟨[], by simp [lose]⟩

theorem Later.trans {w'' : World} (h : w.Later w') (h' : w'.Later w'') : w.Later w'' := by
  obtain ⟨gone, rfl⟩ := h
  obtain ⟨gone', rfl⟩ := h'
  exact ⟨_, lose_lose w gone gone'⟩

theorem Later.live (h : w.Later w') {x : Spawned} (hx : x ∈ w'.live) : x ∈ w.live := by
  obtain ⟨gone, rfl⟩ := h
  exact mem_live_of_lose hx

theorem Later.claim (h : w.Later w') : w'.claim = w.claim := by
  obtain ⟨gone, rfl⟩ := h
  rfl

theorem Later.file (h : w.Later w') : w'.file = w.file := by
  obtain ⟨gone, rfl⟩ := h
  rfl

/-- What `state.json` may hold depends on the processes that run, and on less of them when some
exit. -/
theorem Cached.lose {spawning : Option SpawningObligation} {child : Option WorkerChild}
    (h : w.Cached spawning child) : (w.lose gone).Cached spawning child :=
  { h with
    exact := fun s hs x hx => h.exact s hs x (mem_live_of_lose hx)
    handled := fun x hx => h.handled x (mem_live_of_lose hx) }

theorem Inv.lose (h : w.Inv) : (w.lose gone).Inv :=
  { h with
    live_made := fun x hx => h.live_made x (mem_live_of_lose hx)
    live_pid := fun x hx => h.live_pid x (mem_live_of_lose hx)
    covered := fun x hx => h.covered x (mem_live_of_lose hx)
    handled := fun x hx => h.handled x (mem_live_of_lose hx)
    created := fun x hx => h.created x (mem_live_of_lose hx)
    cached := h.cached.lose }

/-! ## At most one worker -/

/-- **At most one worker runs**: the row is about one token, and a token names one process. -/
theorem Inv.live_unique (h : w.Inv) {x y : Spawned} (hx : x ∈ w.live) (hy : y ∈ w.live) :
    x = y := by
  have htoken : x.token = y.token := by
    rcases h.covered x hx with ⟨o, ho, hox⟩ | ⟨r, hr, hrx⟩ <;>
      rcases h.covered y hy with ⟨o', ho', hoy⟩ | ⟨r', hr', hry⟩
    · obtain rfl := Option.some.inj (ho.symm.trans ho')
      exact hox.symm.trans hoy
    · rcases h.exclusive with hnone | hnone
      · cases hnone.symm.trans ho
      · cases hnone.symm.trans hr'
    · rcases h.exclusive with hnone | hnone
      · cases hnone.symm.trans ho'
      · cases hnone.symm.trans hr
    · obtain rfl := Option.some.inj (hr.symm.trans hr')
      exact hrx.symm.trans hry
  exact h.made_unique x (h.live_made x hx) y (h.live_made y hy) htoken

/-- While the row holds an obligation, the daemon holds the handle of a worker that runs. -/
theorem Inv.proc_of_spawn (h : w.Inv) {o : SpawnObligation} (ho : o ∈ w.row.spawn) {x : Spawned}
    (hx : x ∈ w.live) : w.proc = some x := by
  by_contra hproc
  obtain ⟨-, ⟨r, hr, -⟩, -⟩ := h.handled x hx hproc
  rcases h.exclusive with hnone | hnone
  · cases hnone.symm.trans ho
  · cases hnone.symm.trans hr

/-- A handle is of the worker that runs. -/
theorem Inv.eq_of_proc (h : w.Inv) {x y : Spawned} (hx : x ∈ w.live) (hy : w.proc = some y) :
    y = x := by
  by_contra hne
  have hproc : w.proc ≠ some x := fun heq => hne (Option.some.inj (hy.symm.trans heq))
  cases hy.symm.trans (h.handled x hx hproc).1

/-- While the row publishes a worker, no other runs. -/
theorem Inv.token_of_worker (h : w.Inv) {r : WorkerRecord} (hr : r ∈ w.row.worker) {x : Spawned}
    (hx : x ∈ w.live) : x.token = r.token := by
  rcases h.covered x hx with ⟨o, ho, -⟩ | ⟨r', hr', hrx⟩
  · rcases h.exclusive with hnone | hnone
    · cases hnone.symm.trans ho
    · cases hnone.symm.trans hr
  · obtain rfl := Option.some.inj (hr.symm.trans hr')
    exact hrx.symm

/-- While the row holds an obligation, no other worker runs. -/
theorem Inv.token_of_spawn (h : w.Inv) {o : SpawnObligation} (ho : o ∈ w.row.spawn) {x : Spawned}
    (hx : x ∈ w.live) : x.token = o.token := by
  rcases h.covered x hx with ⟨o', ho', hox⟩ | ⟨r, hr, -⟩
  · obtain rfl := Option.some.inj (ho.symm.trans ho')
    exact hox.symm
  · rcases h.exclusive with hnone | hnone
    · cases hnone.symm.trans ho
    · cases hnone.symm.trans hr

/-- Where the row is empty, nothing runs. -/
theorem Inv.live_eq_nil (h : w.Inv) (hspawn : w.row.spawn = none) (hworker : w.row.worker = none) :
    w.live = [] := by
  refine List.eq_nil_iff_forall_not_mem.2 fun x hx => ?_
  rcases h.covered x hx with ⟨o, ho, -⟩ | ⟨r, hr, -⟩
  · cases hspawn.symm.trans ho
  · cases hworker.symm.trans hr

theorem Inv.worker_of_spawn (h : w.Inv) {o : SpawnObligation} (ho : o ∈ w.row.spawn) :
    w.row.worker = none := by
  rcases h.exclusive with hnone | hnone
  · cases hnone.symm.trans ho
  · exact hnone

/-- The next token was not drawn before. -/
theorem Inv.not_drawn (h : w.Inv) : ¬ w.Drawn (w.tokens w.drawn) := by
  rintro ⟨n, hn, heq⟩
  exact absurd (h.injective heq) (Nat.ne_of_lt hn)

end World

end Lubko.Spawn
