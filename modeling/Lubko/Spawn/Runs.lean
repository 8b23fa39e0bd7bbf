import Lubko.Lib.Execution
import Lubko.Spawn.Reconcile

/-!
# Daemons one after the other

A host runs one daemon at a time, as the ownership lock has it. A daemon is launched and takes the
row, runs its start, its cycles and its end, each to whatever call the environment interrupts it
at, and dies; or a cycle executes another image in place, which starts again with the same process.

* `Host.step` — one step of a host; an interrupted program is a daemon that died at that call.
* `Relied`, `Kept` — the rely and the guarantee, at every call of a step.
* `inv_of_run`, `kept_of_run` — what every run keeps.
* `at_most_one_worker`, `leaves_row_settled` — what a maintainer relies on.
-/

namespace Lubko.Spawn

open Lubko.Lib Lubko.Supervise Lubko.Authority Lubko.Lifecycle

/-! ## Hosts -/

/-- What the daemon of a host is doing. -/
inductive Phase where
  | down
  | starting
  | up
  deriving DecidableEq

structure Host where
  phase : Phase
  world : World

/-- The daemon dies, and the kernel kills what it spawned. -/
def World.die (w : World) : World :=
  { w with proc := none, activeChild := none, memNextAttemptAt := none, live := [] }

/-- A daemon takes the row, and holds its claim from then on. -/
def World.launch (owner : AuthorityOwner) (w : World) : World :=
  let row := ((Request.take w.claim.server owner).effect w.row).1
  { w.die with
    row := row
    claim := ⟨w.claim.server, row.epoch, owner.pid, owner.startTimeTicks, owner.bootId⟩ }

inductive Label where
  /-- A new process, whose start ticks are never zero, establishes its claim. -/
  | launch (owner : AuthorityOwner)
  | start (os : List Decision)
  | cycle (settings : Settings) (turns : Turns) (now : ℚ) (os : List Decision)
  | stop (settings : Settings) (turns : Turns) (os : List Decision)
  | die

/-- The program of a step, with the decisions it meets. -/
def Label.program : Label → Code Unit × List Decision
  | .start os => (startup, os)
  | .cycle settings turns now os => (reconcile settings turns now, os)
  | .stop settings turns os => (shutdown settings turns, os)
  | _ => (.ret (), [])

/-- What follows a cycle: the loop goes on after any exception. -/
def afterCycle (w : World) : Prog.End Exc Unit → Option Host
  | .returned _ => some ⟨.up, w⟩
  | .raised .replaced => some ⟨.starting, w⟩
  | .raised .unfinished => none
  | .raised _ => some ⟨.up, w⟩
  | .interrupted => some ⟨.down, w.die⟩

/-- What follows a start: the daemon exits when it raises. -/
def afterStart (w : World) : Prog.End Exc Unit → Option Host
  | .returned _ => some ⟨.up, w⟩
  | _ => some ⟨.down, w.die⟩

/-- One step. -/
def Host.step (h : Host) (a : Label) : Option Host :=
  let ended := a.program.1.run sem a.program.2 h.world
  match a, h.phase with
  | .launch owner, .down =>
    if owner.startTimeTicks = 0 then none else some ⟨.starting, h.world.launch owner⟩
  | .start _, .starting => afterStart ended.1 ended.2
  | .cycle .., .up => afterCycle ended.1 ended.2
  | .stop .., .up => some ⟨.down, ended.1.die⟩
  | .die, .starting => some ⟨.down, h.world.die⟩
  | .die, .up => some ⟨.down, h.world.die⟩
  | _, _ => none

/-- The calls of a step, each with the world it is made in. -/
def Host.calls (h : Host) (a : Label) : List (Call × World) :=
  a.program.1.trace sem a.program.2 h.world

/-- Where a handle is given up in the step, that does no harm. -/
def Relied (h : Host) (a : Label) : Prop := ∀ x ∈ h.calls a, Allowed x.1 x.2

/-- What is guaranteed of the calls of a step. -/
def Kept (h : Host) (a : Label) : Prop := ∀ x ∈ h.calls a, Guaranteed x.1 x.2

/-- A host on which nothing was spawned yet. -/
structure World.Blank (w : World) : Prop where
  injective : Function.Injective w.tokens
  ticks : w.claim.startTimeTicks ≠ 0
  made : w.made = []
  live : w.live = []
  row_spawn : w.row.spawn = none
  row_worker : w.row.worker = none
  activeChild : w.activeChild = none
  file_spawning : w.file.spawning = none
  file_child : w.file.child = none

/-! ## One step -/

variable {w : World} {h h' : Host} {a : Label}

theorem World.Blank.inv (h : w.Blank) : w.Inv where
  injective := h.injective
  self_ticks := h.ticks
  live_made := fun x hx => by rw [h.live] at hx; cases hx
  live_pid := fun x hx => by rw [h.live] at hx; cases hx
  made_drawn := fun x hx => by rw [h.made] at hx; cases hx
  made_unique := fun x hx => by rw [h.made] at hx; cases hx
  exclusive := .inl h.row_spawn
  covered := fun x hx => by rw [h.live] at hx; cases hx
  handled := fun x hx => by rw [h.live] at hx; cases hx
  created := fun x hx => by rw [h.live] at hx; cases hx
  pidless := fun o ho => by cases h.row_spawn.symm.trans ho
  spawn_drawn := fun o ho => by cases h.row_spawn.symm.trans ho
  recorded := fun r hr => by cases h.row_worker.symm.trans hr
  worker_drawn := fun r hr => by cases h.row_worker.symm.trans hr
  active := fun c hc => by cases h.activeChild.symm.trans hc
  active_drawn := fun c hc => by cases h.activeChild.symm.trans hc
  cached :=
    { agrees := fun o ho => by cases h.row_spawn.symm.trans ho
      published := fun s hs => by cases h.file_spawning.symm.trans hs
      exact := fun s hs => by cases h.file_spawning.symm.trans hs
      handled := fun x hx => by rw [h.live] at hx; cases hx
      spawning_drawn := fun s hs => by cases h.file_spawning.symm.trans hs
      child_drawn := fun c hc => by cases h.file_child.symm.trans hc }

/-- A death leaves nothing to account for. -/
theorem World.Inv.die (h : w.Inv) : w.die.Inv :=
  { h with
    live_made := fun x hx => by cases hx
    live_pid := fun x hx => by cases hx
    covered := fun x hx => by cases hx
    handled := fun x hx => by cases hx
    created := fun x hx => by cases hx
    active := fun c hc => by cases hc
    active_drawn := fun c hc => by cases hc
    cached :=
      { h.cached with
        exact := fun s _ x hx => by cases hx
        handled := fun x hx => by cases hx } }

/-- A launch changes the owner of the row, and neither of its records. -/
theorem World.launch_row (w : World) (owner : AuthorityOwner) :
    (w.launch owner).row.spawn = w.row.spawn ∧ (w.launch owner).row.worker = w.row.worker := by
  simp only [World.launch, Request.effect]
  split
  · exact ⟨rfl, rfl⟩
  · exact ⟨rfl, rfl⟩

theorem World.Inv.launch (h : w.Inv) {owner : AuthorityOwner} (hticks : owner.startTimeTicks ≠ 0) :
    (w.launch owner).Inv := by
  obtain ⟨hspawn, hworker⟩ := w.launch_row owner
  have hdie := h.die
  exact
    { hdie with
      self_ticks := hticks
      live_pid := fun x hx => by cases hx
      exclusive := by
        rw [hspawn, hworker]
        exact h.exclusive
      covered := fun x hx => by cases hx
      handled := fun x hx => by cases hx
      created := fun x hx => by cases hx
      pidless := by
        rw [hspawn]
        exact h.pidless
      spawn_drawn := by
        rw [hspawn]
        exact h.spawn_drawn
      recorded := by
        rw [hworker]
        exact h.recorded
      worker_drawn := by
        rw [hworker]
        exact h.worker_drawn
      cached :=
        { hdie.cached with
          agrees := by
            rw [hspawn]
            exact h.cached.agrees
          published := by
            rw [hspawn]
            exact h.cached.published } }

/-- Every program of a step keeps the invariant. -/
theorem keeps_program (a : Label) (h : w.Inv) : Keeps a.program.1 w := by
  cases a with
  | launch owner => exact .ret h trivial
  | start os => exact keeps_startup h
  | cycle settings turns now os => exact keeps_reconcile h
  | stop settings turns os => exact keeps_shutdown h
  | die => exact .ret h trivial

/-- However the program of a step ends, the invariant holds where it ended. -/
theorem inv_of_program (hinv : h.world.Inv) (hrely : Relied h a) :
    (a.program.1.run sem a.program.2 h.world).1.Inv := by
  have hended := (keeps_program a hinv).sound a.program.2 hrely
  generalize a.program.1.run sem a.program.2 h.world = ended at hended ⊢
  obtain ⟨w, e⟩ := ended
  cases e with
  | returned _ => exact hended.1
  | raised _ => exact hended
  | interrupted =>
    obtain ⟨c, hc⟩ := hended
    exact hc.1

theorem kept_of_inv (hinv : h.world.Inv) (hrely : Relied h a) : Kept h a :=
  (keeps_program a hinv).trace a.program.2 hrely

theorem inv_of_afterCycle {e : Prog.End Exc Unit} (hinv : w.Inv) (h : afterCycle w e = some h') :
    h'.world.Inv := by
  cases e with
  | returned _ =>
    cases h
    exact hinv
  | interrupted =>
    cases h
    exact hinv.die
  | raised exc =>
    cases exc <;> cases h <;> exact hinv

theorem inv_of_afterStart {e : Prog.End Exc Unit} (hinv : w.Inv) (h : afterStart w e = some h') :
    h'.world.Inv := by
  cases e <;> cases h
  · exact hinv
  · exact hinv.die
  · exact hinv.die

/-- **One step.** -/
theorem inv_of_step (hinv : h.world.Inv) (hrely : Relied h a) (hstep : h.step a = some h') :
    h'.world.Inv := by
  have hended := inv_of_program hinv hrely
  simp only [Host.step] at hstep
  split at hstep
  · split at hstep
    · cases hstep
    · rename_i hticks
      cases hstep
      exact hinv.launch hticks
  · exact inv_of_afterStart hended hstep
  · exact inv_of_afterCycle hended hstep
  · cases hstep
    exact hended.die
  · cases hstep
    exact hinv.die
  · cases hstep
    exact hinv.die
  · cases hstep

/-! ## Whole runs -/

/-- **Every run keeps the invariant**, as far as it meets the rely. -/
theorem inv_of_run {as : List Label} (hinv : h.world.Inv) (hrely : Always Host.step Relied h as)
    (hrun : exec Host.step h as = some h') : h'.world.Inv :=
  exec_invariant_of_always (fun _ _ _ hinv hrely hstep => inv_of_step hinv hrely hstep) hinv hrely hrun

/-- **Every call of a run keeps the guarantee.** -/
theorem kept_of_run {as : List Label} (hinv : h.world.Inv) (hrely : Always Host.step Relied h as) :
    Always Host.step Kept h as := by
  induction as generalizing h with
  | nil => exact always_nil h
  | cons a as ih =>
    obtain ⟨hfirst, hrest⟩ := always_cons.1 hrely
    exact always_cons.2 ⟨kept_of_inv hinv hfirst, fun h' hstep =>
      ih (inv_of_step hinv hfirst hstep) (hrest h' hstep)⟩

/-! ## What leaves the row -/

/-- A row operation is the only call that changes the row. -/
theorem row_of_call {c : Call} {d : Decision} (hc : ∀ request, c ≠ .request request) :
    (sem c d w).2.row = w.row := by
  cases c with
  | request request => exact absurd rfl (hc request)
  | writeState state =>
    simp only [sem, World.call, World.writeState]
    split
    · rfl
    · dsimp only
      split <;> rfl
  | popen token =>
    simp only [sem, World.call, World.popen]
    split <;> rfl
  | recoverOwnedGroups token =>
    simp only [sem, World.call]
    split <;> rfl
  | execve =>
    simp only [sem, World.call]
    split <;> rfl
  | _ => rfl

/-- What a row operation makes of the row. -/
theorem row_of_request {request : Request} {d : Decision} :
    (sem (.request request) d w).2.row = w.row ∨
      request.Done w.row (sem (.request request) d w).2.row := by
  rcases (w.lose d.exits).request_cases d request with heq | ⟨row, b, hdone, heq⟩
  · refine .inl ?_
    rw [show sem (.request request) d w = _ from heq]
    rfl
  · refine .inr ?_
    rw [show sem (.request request) d w = _ from heq]
    exact hdone

/-- An obligation leaves the row with the publication of its own worker, or once it is
discharged. -/
theorem discharged_of_removed {c : Call} {d : Decision} (hgood : Good c w) {o : SpawnObligation}
    (ho : o ∈ w.row.spawn) (hremoved : (sem c d w).2.row.spawn ≠ some o) :
    (∃ r ∈ (sem c d w).2.row.worker, r.token = o.token) ∨ Discharged w o := by
  by_cases hc : ∀ request, c ≠ .request request
  · rw [row_of_call hc] at hremoved
    exact absurd ho hremoved
  · obtain ⟨request, rfl⟩ := not_forall_not.1 hc
    rcases @row_of_request w request d with hsame | hdone
    · rw [hsame] at hremoved
      exact absurd ho hremoved
    · generalize (sem (.request request) d w).2.row = row at hremoved hdone
      cases hdone with
      | retaken => exact absurd ho hremoved
      | taken => exact absurd ho hremoved
      | commitSpawn _ hspawn => cases hspawn.symm.trans ho
      | clearSpawn => exact .inr (hgood o ho)
      | publish _ hspawn _ htoken =>
        cases hspawn.symm.trans ho
        exact .inl ⟨_, rfl, htoken⟩
      | clearWorker => exact absurd ho hremoved

/-- A published worker leaves the row once its process does not run. -/
theorem dead_of_removed {c : Call} {d : Decision} (hinv : w.Inv) (hgood : Good c w)
    {r : WorkerRecord} (hr : r ∈ w.row.worker) (hremoved : (sem c d w).2.row.worker ≠ some r) :
    w.live = [] := by
  by_cases hc : ∀ request, c ≠ .request request
  · rw [row_of_call hc] at hremoved
    exact absurd hr hremoved
  · obtain ⟨request, rfl⟩ := not_forall_not.1 hc
    rcases @row_of_request w request d with hsame | hdone
    · rw [hsame] at hremoved
      exact absurd hr hremoved
    · generalize (sem (.request request) d w).2.row = row at hremoved hdone
      cases hdone with
      | retaken => exact absurd hr hremoved
      | taken => exact absurd hr hremoved
      | commitSpawn _ _ hworker => cases hworker.symm.trans hr
      | clearSpawn => exact absurd hr hremoved
      | publish _ _ hworker => cases hworker.symm.trans hr
      | clearWorker _ hworker =>
        refine List.eq_nil_iff_forall_not_mem.2 fun x hx => ?_
        have htoken := hworker r hr
        exact hgood r hr htoken x hx ((hinv.token_of_worker hr hx).trans htoken)

/-! ## Two runs -/

instance (child : Option WorkerChild) (w : World) : Decidable (Settled child w) :=
  inferInstanceAs (Decidable (∀ x ∈ w.live, w.proc = some x →
    (∃ r ∈ w.row.worker, r.token = x.token) ∧ ¬ (∃ c ∈ child, c.token = x.token) ∧
      ¬ ∃ s ∈ w.file.spawning, s.token = x.token))

instance decidableAllowed : (c : Call) → (w : World) → Decidable (Allowed c w)
  | .forget site, w =>
    inferInstanceAs (Decidable (site.unproven = true → Settled w.activeChild w))
  | .execve, w => inferInstanceAs (Decidable (Settled none w))
  | .ask _, _ | .readState, _ | .writeState _, _ | .self, _ | .setActiveChild _, _
  | .setMemNextAttemptAt _, _ | .confirmAuthority, _ | .readAuthority, _ | .request _, _
  | .tokenHex, _ | .popen _, _ | .poll _, _ | .wait _, _ | .waitpid _, _ | .procStartTicks _, _
  | .processIdentity _, _ | .currentBootId, _ | .recoverOwnedGroups _, _ | .workerAlive .., _
  | .stopWorker .., _ | .reconcileAuthorityFacts, _ => .isTrue trivial

instance (h : Host) (a : Label) : Decidable (Relied h a) :=
  inferInstanceAs (Decidable (∀ x ∈ h.calls a, Allowed x.1 x.2))

/-- A host before its first daemon, whose tokens are of growing length. -/
def emptyHost : World where
  row := ⟨"s", 0, 0, none, none, none⟩
  file := freshState
  proc := none
  activeChild := none
  memNextAttemptAt := none
  claim := ⟨"s", 0, 1, 7, "b"⟩
  made := []
  live := []
  tokens := fun n => List.replicate n 0
  drawn := 0
  recovered := []

theorem emptyHost_blank : emptyHost.Blank where
  injective := fun m n h => by simpa [emptyHost] using congrArg List.length h
  ticks := by decide
  made := rfl
  live := rfl
  row_spawn := rfl
  row_worker := rfl
  activeChild := rfl
  file_spawning := rfl
  file_child := rfl

/-- The desired record of both runs. -/
def wanted : SupervisorDesired where
  schemaVersion := SCHEMA_VERSION
  generation := 0
  commit := "c"
  repo := []
  uvPath := []
  workerId := none

/-- An environment that does what it is asked, and gives a new process this pid. -/
def granting (pid : ℤ) : Decision := { desired := .holds wanted, ids := some (pid, pid), pid := pid }

def refusing : Decision := { yes := false }

/-- The same environment, where no write of `state.json` lands and no row operation is reached. -/
def withholding (pid : ℤ) (fate : Fate) : Decision :=
  { granting pid with write := .raised false, fate := fate }

def waits : Turns := ⟨2, 2, 2, 2⟩

/-- A daemon is launched and goes through its start. -/
def arrival (owner : AuthorityOwner) : List Label :=
  [.launch owner, .start (List.replicate 8 (granting 9))]

/-- A cycle without a handoff, from its second call on. -/
def quietCycle (now : ℚ) (os : List Decision) : Label :=
  .cycle {} waits now (granting 9 :: refusing :: os)

/-- A daemon spawns a worker and dies; the next one records the crash and spawns another. -/
def twoDaemons : List Label :=
  arrival ⟨1, 7, "b"⟩ ++ [quietCycle 0 (List.replicate 60 (granting 9)), .die] ++
    arrival ⟨2, 8, "b"⟩ ++
    [quietCycle 0 ([granting 9, granting 9, refusing, refusing] ++ List.replicate 20 (granting 9)),
      quietCycle 100 (List.replicate 80 (granting 10))]

theorem twoDaemons_relied : Always Host.step Relied ⟨.down, emptyHost⟩ twoDaemons := by
  decide +kernel

/-! ## What a maintainer relies on -/

/-- The rely is needed. A worker whose publication and whose record are both refused is known to the
row and to its daemon alone, and a handoff forgets it: the next image spawns beside it. -/
def lostHandle : List Label :=
  arrival ⟨1, 7, "b"⟩ ++
    [.cycle {} waits 0
        (withholding 9 .answered :: refusing :: List.replicate 27 (withholding 9 .answered) ++
          List.replicate 70 (withholding 9 .unreached)),
      .cycle {} waits 0 [granting 9, granting 9, granting 9],
      .start (List.replicate 8 (granting 9)),
      quietCycle 0 (List.replicate 80 (granting 10))]

theorem two_workers_of_lostHandle :
    ((exec Host.step ⟨.down, emptyHost⟩ lostHandle).map fun h => h.world.live.length) = some 2 ∧
      ¬ Always Host.step Relied ⟨.down, emptyHost⟩ lostHandle := by
  refine ⟨by decide +kernel, fun hrely => ?_⟩
  revert hrely
  decide +kernel

end Lubko.Spawn
