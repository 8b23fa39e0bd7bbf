import Lubko.Spawn.Invariant

/-!
# What each call does to the invariant

One lemma for each kind of call: what must hold before it for the invariant to survive, and what the
program learns from the reply. Later worlds are written out as an earlier one with some processes
gone and some fields changed, so that everything else carries over as it is.

* `ensures_look` — calls that change nothing.
* `ensures_writeState`, `ensures_writeStateAuthoritySafe` — the writers of `state.json`.
* `ensures_commitSpawn`, `ensures_clearSpawn`, `ensures_publish`, `ensures_clearWorker` — the row.
* `ensures_popen`, `ensures_forget` — the handle.
-/

namespace Lubko.Spawn

open Lubko.Lib Lubko.Supervise Lubko.Authority Lubko.Lifecycle Lubko.Deploy
open Lubko.Supervise.Recovery (WriteEnd)

variable {α β : Type} {w w' : World} {gone : List Spawned}

/-- One call, from what each of its outcomes does. -/
theorem ensures_ask {c : Call} {Q : Reply → World → Prop} (h : w.Inv) (hgood : Good c w)
    (hcall : Allowed c w → ∀ o,
      (sem c o w).2.Inv ∧ Q (sem c o w).1 (sem c o w).2) : Ensures (ask c) Q w :=
  ⟨⟨h, hgood⟩, hcall⟩

/-- A call that changes nothing, and what is made of its reply. -/
theorem look_relies {c : Call} {f : Reply → α} {E : Exc → World → Prop} (h : w.Inv)
    (hgood : Good c w) (hlook : ∀ o w, (World.call c o w).2 = w) :
    Prog.Relies sem Allowed Guaranteed (fun a w' => w'.Inv ∧
      ∃ gone o, w' = w.lose gone ∧ a = f (World.call c o w').1) E (do return f (← ask c)) w := by
  refine ⟨⟨h, hgood⟩, fun _ o => ?_⟩
  have hw : (sem c o w).2 = w.lose o.exits := hlook o (w.lose o.exits)
  have hinv : (sem c o w).2.Inv := by
    rw [hw]
    exact h.lose
  exact ⟨hinv, o.exits, o, hw, by rw [hw]; rfl⟩

theorem ensures_look {c : Call} {f : Reply → α} (h : w.Inv) (hgood : Good c w)
    (hlook : ∀ o w, (World.call c o w).2 = w) :
    Ensures (do return f (← ask c))
      (fun a w' => ∃ gone o, w' = w.lose gone ∧ a = f (World.call c o w').1) w :=
  look_relies h hgood hlook

/-! ## Looks -/

theorem readState_relies {E : Exc → World → Prop} (h : w.Inv) :
    readState.Relies sem Allowed Guaranteed
      (fun s w' => w'.Inv ∧ w.Later w' ∧ s = w.file) E w := by
  refine (look_relies h (by trivial) fun _ _ => rfl).mono ?_ fun _ _ he => he
  rintro s w' ⟨hinv, gone, o, rfl, rfl⟩
  exact ⟨hinv, ⟨gone, rfl⟩, rfl⟩

theorem ensures_readState (h : w.Inv) :
    Ensures readState (fun s w' => w.Later w' ∧ s = w.file) w :=
  readState_relies h

theorem ensures_attributes (h : w.Inv) :
    Ensures attributes (fun a w' => w.Later w' ∧
      a = ⟨w.proc, w.activeChild, w.memNextAttemptAt, w.claim⟩) w := by
  refine (ensures_look h (by trivial) fun _ _ => rfl).mono ?_
  rintro s w' - ⟨gone, o, rfl, rfl⟩
  exact ⟨⟨gone, rfl⟩, rfl⟩

theorem ensures_clock (h : w.Inv) :
    Ensures clock (fun _ w' => w.Later w') w := by
  refine (ensures_look h (by trivial) fun _ _ => rfl).mono ?_
  rintro s w' - ⟨gone, o, rfl, -⟩
  exact ⟨gone, rfl⟩

theorem ensures_whether (q : Question) (h : w.Inv) :
    Ensures (whether q) (fun _ w' => w.Later w') w := by
  refine (ensures_look h (by trivial) fun _ _ => rfl).mono ?_
  rintro s w' - ⟨gone, o, rfl, -⟩
  exact ⟨gone, rfl⟩

theorem ensures_inBackoff (now : ℚ) (h : w.Inv) :
    Ensures (inBackoff now) (fun _ w' => w.Later w') w := by
  refine .bind (ensures_readState h) ?_
  rintro s w' hinv ⟨⟨gone, rfl⟩, -⟩
  exact .ret hinv ⟨gone, rfl⟩

theorem ensures_confirmAuthority (h : w.Inv) :
    Ensures confirmAuthority (fun _ w' => w.Later w') w := by
  refine (ensures_look h (by trivial) fun _ _ => rfl).mono ?_
  rintro s w' - ⟨gone, o, rfl, -⟩
  exact ⟨gone, rfl⟩

/-- `poll` is exact. -/
theorem ensures_exited (x : Spawned) (h : w.Inv) :
    Ensures (exited x) (fun b w' => w.Later w' ∧ (b = true ↔ x ∉ w'.live)) w := by
  refine (ensures_look h (by trivial) fun _ _ => rfl).mono ?_
  rintro b w' - ⟨gone, o, rfl, rfl⟩
  exact ⟨⟨gone, rfl⟩, by simp [World.call]⟩

theorem ensures_waited (x : Spawned) (h : w.Inv) :
    Ensures (waited x) (fun b w' => w.Later w' ∧ (b = true ↔ x ∉ w'.live)) w := by
  refine (ensures_look h (by trivial) fun _ _ => rfl).mono ?_
  rintro b w' - ⟨gone, o, rfl, rfl⟩
  exact ⟨⟨gone, rfl⟩, by simp [World.call]⟩

theorem ensures_waitpid (x : Spawned) (h : w.Inv) :
    Ensures (waitpid x) (fun b w' => w.Later w' ∧ (b = false → x ∉ w'.live)) w := by
  refine (ensures_look h (by trivial) fun _ _ => rfl).mono ?_
  rintro b w' - ⟨gone, o, rfl, rfl⟩
  refine ⟨⟨gone, rfl⟩, fun hb => ?_⟩
  simp only [World.call, Bool.or_eq_false_iff, decide_eq_false_iff_not] at hb
  exact hb.2

/-- `/proc` shows the start ticks of a worker that runs, and those of the daemon. -/
theorem ensures_procStartTicks (pid : ℤ) (h : w.Inv) :
    Ensures (procStartTicks pid) (fun ticks w' => w.Later w' ∧
      (pid = w.claim.pid → ticks = some w.claim.startTimeTicks) ∧
      ∀ x ∈ w'.live, x.pid = pid → ticks = some x.startTimeTicks) w := by
  refine (ensures_look h (by trivial) fun _ _ => rfl).mono ?_
  rintro ticks w' hinv ⟨gone, o, rfl, rfl⟩
  refine ⟨⟨gone, rfl⟩, fun hself => if_pos hself, fun x hx hpid => ?_⟩
  have hother : pid ≠ w.claim.pid := hpid ▸ hinv.live_pid x hx
  have hfind : (w.lose gone).live.find? (·.pid = pid) = some x := by
    cases hf : (w.lose gone).live.find? (·.pid = pid) with
    | none => exact absurd hpid (by simpa using List.find?_eq_none.1 hf x hx)
    | some y => rw [hinv.live_unique (List.mem_of_find?_eq_some hf) hx]
  show World.startTicks _ _ _ = _
  rw [World.startTicks, World.lose_claim, if_neg hother, hfind]

theorem ensures_processIdentity (x : Spawned) (h : w.Inv) :
    Ensures (processIdentity x) (fun identity w' => w.Later w' ∧
      ∀ i ∈ identity, i.pid = x.pid ∧ i.startTimeTicks = x.startTimeTicks) w := by
  refine (ensures_look h (by trivial) fun _ _ => rfl).mono ?_
  rintro identity w' - ⟨gone, o, rfl, rfl⟩
  refine ⟨⟨gone, rfl⟩, fun i hi => ?_⟩
  obtain ⟨ids, -, rfl⟩ := Option.map_eq_some_iff.1 hi
  exact ⟨rfl, rfl⟩

theorem ensures_currentBootId (h : w.Inv) :
    Ensures currentBootId (fun bootId w' => w.Later w' ∧
      ∀ boot ∈ bootId, boot = w.claim.bootId) w := by
  refine (ensures_look h (by trivial) fun _ _ => rfl).mono ?_
  rintro bootId w' - ⟨gone, o, rfl, rfl⟩
  refine ⟨⟨gone, rfl⟩, fun boot hboot => ?_⟩
  simp only [World.call, World.lose_claim] at hboot
  split at hboot
  · exact (Option.some.inj hboot).symm
  · cases hboot

theorem ensures_workerAlive (pid ticks : ℤ) (h : w.Inv) :
    Ensures (workerAlive pid ticks)
      (fun b w' => w.Later w' ∧ (b = false → ¬ w'.Runs pid ticks)) w := by
  refine (ensures_look h (by trivial) fun _ _ => rfl).mono ?_
  rintro b w' - ⟨gone, o, rfl, rfl⟩
  refine ⟨⟨gone, rfl⟩, fun hb => ?_⟩
  simp only [World.call, Bool.or_eq_false_iff, decide_eq_false_iff_not] at hb
  exact hb.2

theorem ensures_stopWorker (pid ticks : ℤ) (h : w.Inv) :
    Ensures (stopWorker pid ticks)
      (fun b w' => w.Later w' ∧ (b = true → ¬ w'.Runs pid ticks)) w := by
  refine (ensures_look h (by trivial) fun _ _ => rfl).mono ?_
  rintro b w' - ⟨gone, o, rfl, rfl⟩
  refine ⟨⟨gone, rfl⟩, fun hb => ?_⟩
  simp only [World.call, Bool.and_eq_true, Bool.not_eq_true', decide_eq_false_iff_not] at hb
  exact hb.2

/-- The facts a spawn is authorized on show that nothing is cached. -/
theorem ensures_reconcileAuthorityFacts (h : w.Inv) :
    Ensures reconcileAuthorityFacts (fun facts w' => w.Later w' ∧
      (authorizeSpawn facts = true → w.file.spawning = none)) w := by
  have hask : Ensures (ask .reconcileAuthorityFacts) (fun r w' => w.Later w' ∧
      ∀ facts ∈ r.facts, authorizeSpawn facts = true → w.file.spawning = none) w := by
    refine ensures_ask h trivial fun _ o => ⟨h.lose, ⟨o.exits, rfl⟩, fun facts hfacts => ?_⟩
    intro hauthorized
    have hok : Lifecycle.reconcileAuthorityFacts { o.sources with state := .ok w.file } o.reads =
        .ok facts := toOption_eq_some.1 hfacts
    obtain ⟨worker, state, v⟩ := (authorizeSpawn_iff hok).1 hauthorized
    obtain rfl := Except.ok.inj v.state_read
    exact v.spawning
  refine .bind hask ?_
  rintro r w' hinv ⟨⟨gone, rfl⟩, hfacts⟩
  cases hr : r.facts with
  | none => exact .raise hinv
  | some facts => exact .ret hinv ⟨⟨gone, rfl⟩, hfacts facts hr⟩

/-! ## Row reads -/

theorem ensures_readAuthority (h : w.Inv) :
    Ensures readAuthority
      (fun row w' => w.Later w' ∧ ∀ r ∈ row, r = w.row) w := by
  refine (ensures_look h (by trivial) fun _ _ => rfl).mono ?_
  rintro row w' - ⟨gone, o, rfl, rfl⟩
  refine ⟨⟨gone, rfl⟩, fun r hr => ?_⟩
  simp only [World.call, World.lose_row] at hr
  split at hr
  · exact (Option.some.inj hr).symm
  · cases hr

/-! ## Writes of `state.json` -/

/-- The write landed, or it did not. -/
def Wrote (w : World) (state : SupervisorState) (w' : World) : Prop :=
  ∃ gone, w' = w.lose gone ∨ w' = { w.lose gone with file := state }

theorem World.Inv.write (h : w.Inv) {state : SupervisorState}
    (hs : w.Cached state.spawning state.child) : ({ w with file := state } : World).Inv :=
  { h with cached := { hs with } }

/-- What an obligation-free file must not hold is nothing. -/
theorem World.Cached.no_spawning {spawning : Option SpawningObligation}
    {child : Option WorkerChild} (h : w.Cached spawning child) : w.Cached none child where
  agrees := fun o _ s hs => by cases hs
  published := fun s hs => by cases hs
  exact := fun s hs => by cases hs
  handled := fun x _ _ hcaches => by obtain ⟨s, hs, -⟩ := hcaches; cases hs
  spawning_drawn := fun s hs => by cases hs
  child_drawn := h.child_drawn

theorem World.Cached.no_child {spawning : Option SpawningObligation}
    {child : Option WorkerChild} (h : w.Cached spawning child) : w.Cached spawning none :=
  { h with
    published := fun s _ _ c hc => by cases hc
    child_drawn := fun c hc => by cases hc }

/-- A write, and how it may raise. -/
theorem writeState_relies {state : SupervisorState} (h : w.Inv)
    (hs : w.Cached state.spawning state.child) :
    (writeState state).Relies sem Allowed Guaranteed
      (fun _ w' => w'.Inv ∧ ∃ gone, w' = { w.lose gone with file := state })
      (fun e w' => w'.Inv ∧ (e = .osError ∨ e = .durabilityError) ∧ Wrote w state w') w := by
  refine ⟨⟨h, trivial⟩, fun _ o => ?_⟩
  have hkept : (w.lose o.exits).Inv := h.lose
  have hwritten : ({ w.lose o.exits with file := state } : World).Inv := hkept.write hs.lose
  show Prog.Relies sem Allowed Guaranteed _ _ (raising ((w.lose o.exits).writeState o state).1.raised)
    ((w.lose o.exits).writeState o state).2
  cases hwrite : o.write with
  | durable =>
    simp only [World.writeState, hwrite]
    exact ⟨hwritten, o.exits, rfl⟩
  | raised replaced =>
    simp only [World.writeState, hwrite]
    refine ⟨?_, ?_, o.exits, ?_⟩
    · cases replaced
      · exact hkept
      · exact hwritten
    · split
      · exact .inr rfl
      · exact .inl rfl
    · cases replaced
      · exact .inl rfl
      · exact .inr rfl

theorem ensures_writeState {state : SupervisorState} (h : w.Inv)
    (hs : w.Cached state.spawning state.child) :
    Ensures (writeState state) (fun _ w' => ∃ gone, w' = { w.lose gone with file := state }) w :=
  (writeState_relies h hs).mono (fun _ _ hQ => hQ) fun _ _ he => he.1

theorem ensures_cacheSpawnLocal {state : SupervisorState} (h : w.Inv)
    (hs : w.Cached state.spawning state.child) :
    Ensures (cacheSpawnLocal state) (fun _ w' => Wrote w state w') w := by
  refine .tryCatch ((writeState_relies h hs).mono ?_ ?_)
  · rintro _ w' ⟨hinv, gone, rfl⟩
    exact ⟨hinv, gone, .inr rfl⟩
  · rintro e w' ⟨hinv, hexc, hwrote⟩
    rw [dropping, if_pos hexc]
    exact ⟨hinv, hwrote⟩

theorem consumerLock_relies (h : w.Inv) :
    consumerLock.Relies sem Allowed Guaranteed (fun _ w' => w'.Inv ∧ w.Later w')
      (fun e w' => w'.Inv ∧ e = .consumerLockTimeoutError ∧ w.Later w') w := by
  refine .andThen (look_relies h (by trivial) fun _ _ => rfl) ?_
  rintro locked w' ⟨hinv, gone, o, rfl, -⟩
  cases locked with
  | true => exact ⟨hinv, gone, rfl⟩
  | false => exact ⟨hinv, rfl, gone, rfl⟩

theorem ensures_consumerLock (h : w.Inv) :
    Ensures consumerLock (fun _ w' => w.Later w') w :=
  (consumerLock_relies h).mono (fun _ _ hQ => hQ) fun _ _ he => he.1

/-- The merging writer keeps the spawning obligation it finds. -/
theorem writeStatePreservingAuthority_relies {state : SupervisorState} (h : w.Inv)
    (hs : w.Cached w.file.spawning state.child) :
    (writeStatePreservingAuthority state).Relies sem Allowed Guaranteed
      (fun _ w' => w'.Inv ∧ Wrote w (preserveAuthority state w.file) w')
      (fun _ w' => w'.Inv ∧ Wrote w (preserveAuthority state w.file) w') w := by
  refine .andThen ((consumerLock_relies h).mono (fun _ _ hQ => hQ) ?_) ?_
  · rintro e _ ⟨hinv, -, gone, rfl⟩
    exact ⟨hinv, gone, .inl rfl⟩
  · rintro _ _ ⟨hinv, gone, rfl⟩
    refine .andThen (readState_relies hinv) ?_
    rintro _ _ ⟨hinv, ⟨gone', rfl⟩, rfl⟩
    have hwrote : ∀ {w'}, Wrote ((w.lose gone).lose gone') (preserveAuthority state w.file) w' →
        Wrote w (preserveAuthority state w.file) w' := by
      rintro _ ⟨gone'', rfl | rfl⟩
      · exact ⟨gone ++ (gone' ++ gone''), .inl (by rw [World.lose_lose, World.lose_lose])⟩
      · exact ⟨gone ++ (gone' ++ gone''), .inr (by rw [World.lose_lose, World.lose_lose])⟩
    refine (writeState_relies hinv hs.lose.lose).mono ?_ ?_
    · rintro _ _ ⟨hinv, gone'', rfl⟩
      exact ⟨hinv, hwrote ⟨gone'', .inr rfl⟩⟩
    · rintro _ _ ⟨hinv, -, hwrites⟩
      exact ⟨hinv, hwrote hwrites⟩

theorem writeStateAuthoritySafe_relies {state : SupervisorState} (h : w.Inv)
    (hs : w.Cached w.file.spawning state.child) :
    (writeStateAuthoritySafe state).Relies sem Allowed Guaranteed
      (fun _ w' => w'.Inv ∧ Wrote w (preserveAuthority state w.file) w')
      (fun _ w' => w'.Inv ∧ Wrote w (preserveAuthority state w.file) w') w := by
  refine .tryCatch (.andThen ((writeStatePreservingAuthority_relies h hs).mono
    (fun _ _ hQ => hQ) ?_) fun _ _ hQ => hQ)
  intro e w' he
  split
  · exact he
  · exact he

/-! ## The row -/

/-- A row operation leaves the row and is refused, or is carried out, whatever is answered. -/
theorem World.request_cases (w : World) (o : Decision) (request : Request) :
    w.request o request = ({}, w) ∨ ∃ row b, request.Done w.row row ∧
      w.request o request = ({ yes := b }, { w with row := row }) := by
  rcases request.effect_cases w.row with heffect | ⟨row, heffect, hdone⟩
  · refine .inl ?_
    cases hfate : o.fate <;> simp [World.request, hfate, heffect]
  · cases hfate : o.fate with
    | unreached => exact .inl (by simp [World.request, hfate])
    | lost => exact .inr ⟨row, false, hdone, by simp [World.request, hfate, heffect]⟩
    | answered => exact .inr ⟨row, true, hdone, by simp [World.request, hfate, heffect]⟩

/-- A row operation under the claim, from what it does when it is carried out. -/
theorem ensures_requesting {request : AuthorityClaim → Request} {Q : Bool → World → Prop}
    (h : w.Inv) (hgood : ∀ gone, Good (.request (request w.claim)) (w.lose gone))
    (hkept : ∀ gone, Q false (w.lose gone))
    (hdone : ∀ gone row, (request w.claim).Done w.row row →
      ({ w.lose gone with row := row } : World).Inv ∧ ∀ b, Q b { w.lose gone with row := row }) :
    Ensures (requesting request) Q w := by
  refine .bind (ensures_attributes h) ?_
  rintro _ _ hinv ⟨⟨gone, rfl⟩, rfl⟩
  refine .bind (ensures_ask (Q := fun r w' => Q r.yes w') hinv (hgood gone) fun _ o => ?_)
    fun r w' hinv' hQ => .ret hinv' hQ
  have hinv' : ((w.lose gone).lose o.exits).Inv := hinv.lose
  rw [World.lose_lose] at hinv'
  have hsem : sem (.request (request w.claim)) o (w.lose gone) =
      (w.lose (gone ++ o.exits)).request o (request w.claim) := by
    rw [← World.lose_lose]
    rfl
  rw [hsem]
  rcases (w.lose (gone ++ o.exits)).request_cases o (request w.claim) with heq | ⟨row, b, hdid, heq⟩
  · rw [heq]
    exact ⟨hinv', hkept _⟩
  · rw [heq]
    obtain ⟨hnew, hQ⟩ := hdone (gone ++ o.exits) row hdid
    exact ⟨hnew, hQ b⟩

/-- **The commit.** It succeeds only where the row is empty, and then nothing runs. -/
theorem ensures_commitSpawn {obligation : SpawningObligation} (h : w.Inv)
    (hfile : w.file.spawning = none) (hpid : obligation.pid = none)
    (hdrawn : w.Drawn obligation.token) :
    Ensures (commitSpawnAuthority obligation) (fun b w' => b = true → w'.live = [] ∧
      ∃ gone, w' = { w.lose gone with
        row := { w.row with spawn := some (dbSpawnRecord obligation) } }) w := by
  refine ensures_requesting h (fun _ => trivial) (fun _ hb => by cases hb) fun gone row hdone => ?_
  cases hdone with
  | commitSpawn hclaim hspawn hworker =>
    have hinv : (w.lose gone).Inv := h.lose
    have hlive : (w.lose gone).live = [] := hinv.live_eq_nil hspawn hworker
    have hnone : ∀ x, x ∉ (w.lose gone).live := fun x hx => by rw [hlive] at hx; cases hx
    refine ⟨?_, fun b _ => ⟨hlive, gone, rfl⟩⟩
    exact
      { hinv with
        exclusive := .inr hworker
        covered := fun x hx => absurd hx (hnone x)
        handled := fun x hx => absurd hx (hnone x)
        created := fun x hx => absurd hx (hnone x)
        pidless := fun o ho => by
          cases ho
          exact hpid
        spawn_drawn := fun o ho => by
          cases ho
          exact hdrawn
        cached :=
          { hinv.cached with
            agrees := fun o _ s hs => by
              rw [World.lose_file, hfile] at hs
              cases hs
            published := fun s hs => by
              rw [World.lose_file, hfile] at hs
              cases hs } }

theorem Discharged.lose {o : SpawnObligation} (h : Discharged w o) : Discharged (w.lose gone) o := by
  rcases h with hmade | ⟨hlive, hgroups⟩
  · exact .inl hmade
  · exact .inr ⟨fun x hx => hlive x (World.mem_live_of_lose hx), hgroups⟩

theorem Discharged.not_runs (h : w.Inv) {o : SpawnObligation} (ho : Discharged w o) {x : Spawned}
    (hx : x ∈ w.live) : x.token ≠ o.token := by
  rcases ho with hmade | ⟨hlive, -⟩
  · exact hmade x (h.live_made x hx)
  · exact hlive x hx

/-- **The clearing of an obligation**, once it is discharged. -/
theorem ensures_clearSpawn (h : w.Inv) (hgood : ∀ o ∈ w.row.spawn, Discharged w o) :
    Ensures clearSpawnAuthority (fun b w' => (b = true → w'.row.spawn = none) ∧
      ∃ gone row, w' = { w.lose gone with row := row } ∧ row.worker = w.row.worker ∧
        (row.spawn = none ∨ row = w.row)) w := by
  refine ensures_requesting h (fun gone o ho => (hgood o ho).lose)
    (fun gone => ⟨fun hb => (by cases hb), gone, w.row, rfl, rfl, .inr rfl⟩) fun gone row hdone => ?_
  cases hdone with
  | clearSpawn hclaim =>
    have hinv : (w.lose gone).Inv := h.lose
    refine ⟨?_, fun b => ⟨fun _ => rfl, gone, _, rfl, rfl, .inl rfl⟩⟩
    exact
      { hinv with
        exclusive := .inl rfl
        covered := fun x hx => by
          rcases hinv.covered x hx with ⟨o, ho, hox⟩ | hpublishes
          · exact absurd hox.symm (((hgood o ho).lose).not_runs hinv hx)
          · exact .inr hpublishes
        created := fun x _ o ho => by cases ho
        pidless := fun o ho => by cases ho
        spawn_drawn := fun o ho => by cases ho
        cached :=
          { hinv.cached with
            agrees := fun o ho => by cases ho
            published := fun s _ _ c _ _ => rfl } }

/-- **The publication** of a child that names the process its obligation is about. -/
theorem ensures_publish {child : WorkerChild} {commit token : PyStr} (h : w.Inv)
    (hchild : ∀ x ∈ w.made, x.token = child.token →
      child.pid = x.pid ∧ child.startTimeTicks = x.startTimeTicks) :
    Ensures (publishWorkerAuthority child commit token) (fun b w' => b = true →
      (∃ o ∈ w.row.spawn, o.token = token) ∧ ∃ gone row,
        w' = { w.lose gone with row := row } ∧ row.spawn = none ∧
          row.worker = some (dbWorkerRecord child commit)) w := by
  refine ensures_requesting h (fun _ => trivial) (fun _ hb => by cases hb) fun gone row hdone => ?_
  cases hdone with
  | publish hclaim hspawn hworker htoken =>
    have hinv : (w.lose gone).Inv := h.lose
    refine ⟨?_, fun b _ => ⟨⟨_, hspawn, rfl⟩, gone, _, rfl, rfl, rfl⟩⟩
    exact
      { hinv with
        exclusive := .inl rfl
        covered := fun x hx =>
          .inr ⟨_, rfl, htoken.trans (hinv.token_of_spawn hspawn hx).symm⟩
        handled := fun x hx hproc => absurd (hinv.proc_of_spawn hspawn hx) hproc
        created := fun x _ o ho => by cases ho
        pidless := fun o ho => by cases ho
        spawn_drawn := fun o ho => by cases ho
        recorded := fun r hr x hx hxr => by
          cases hr
          exact hchild x hx hxr
        worker_drawn := fun r hr => by
          cases hr
          rw [htoken]
          exact hinv.spawn_drawn _ hspawn
        cached :=
          { hinv.cached with
            agrees := fun o ho => by cases ho
            published := fun s _ _ c _ _ => rfl } }

/-- **The clearing of a published worker** that has exited. -/
theorem ensures_clearWorker {token : PyStr} (h : w.Inv)
    (hgood : ∀ r ∈ w.row.worker, r.token = token → ∀ x ∈ w.live, x.token ≠ token) :
    Ensures (clearWorkerAuthority token) (fun b w' => ∃ gone row,
      w' = { w.lose gone with row := row } ∧ row.spawn = w.row.spawn ∧
        (row.worker = none ∨ b = false)) w := by
  refine ensures_requesting h
    (fun gone r hr htoken x hx => hgood r hr htoken x (World.mem_live_of_lose hx))
    (fun gone => ⟨gone, w.row, rfl, rfl, .inr rfl⟩) fun gone row hdone => ?_
  cases hdone with
  | clearWorker hclaim hworker =>
    have hinv : (w.lose gone).Inv := h.lose
    refine ⟨?_, fun b => ⟨gone, _, rfl, rfl, .inl rfl⟩⟩
    have hexited : ∀ x ∈ (w.lose gone).live, ¬ (w.lose gone).Publishes x := by
      rintro x hx ⟨r, hr, hrx⟩
      have htoken := hworker r hr
      exact hgood r hr htoken x (World.mem_live_of_lose hx) (hrx.symm.trans htoken)
    exact
      { hinv with
        exclusive := .inr rfl
        covered := fun x hx => .inl ((hinv.covered x hx).resolve_right (hexited x hx))
        handled := fun x hx hproc => absurd (hinv.handled x hx hproc).2.1 (hexited x hx)
        recorded := fun r hr => by cases hr
        worker_drawn := fun r hr => by cases hr
        cached := { hinv.cached with } }

theorem ensures_readSpawnAuthority (h : w.Inv) :
    Ensures readSpawnAuthority (fun answer w' => w.Later w' ∧
      ∀ obligation ∈ answer, ∃ now, obligation = w.row.spawn.map (localObligation · now)) w := by
  refine .bind (ensures_readAuthority h) ?_
  rintro row w' hinv ⟨⟨gone, rfl⟩, hrow⟩
  cases row with
  | none => exact .ret hinv ⟨⟨gone, rfl⟩, fun obligation hob => by cases hob⟩
  | some row =>
    refine .bind (ensures_clock hinv) ?_
    rintro now w' hinv' ⟨gone', rfl⟩
    refine .ret hinv' ⟨⟨_, World.lose_lose _ _ _⟩, fun obligation hob => ⟨now, ?_⟩⟩
    cases hob
    rw [hrow row rfl]

theorem ensures_readWorkerAuthority (h : w.Inv) :
    Ensures readWorkerAuthority (fun answer w' => w.Later w' ∧
      ∀ record ∈ answer, record = w.row.worker) w := by
  refine .bind (ensures_readAuthority h) ?_
  rintro row w' hinv ⟨⟨gone, rfl⟩, hrow⟩
  refine .ret hinv ⟨⟨gone, rfl⟩, fun record hrecord => ?_⟩
  obtain ⟨r, hr, rfl⟩ := Option.map_eq_some_iff.1 hrecord
  rw [hrow r hr]

/-! ## Tokens and processes -/

/-- A token that no process and no record has. -/
structure Fresh (token : PyStr) (w : World) : Prop where
  made : ∀ x ∈ w.made, x.token ≠ token
  child : ∀ c ∈ w.file.child, c.token ≠ token
  active : ∀ c ∈ w.activeChild, c.token ≠ token

theorem World.Drawn.later {token : PyStr} (h : w.Drawn token) :
    ({ w with drawn := w.drawn + 1 } : World).Drawn token := by
  obtain ⟨n, hn, heq⟩ := h
  exact ⟨n, Nat.lt_succ_of_lt hn, heq⟩

theorem World.Inv.fresh (h : w.Inv) : Fresh (w.tokens w.drawn) w where
  made := fun x hx heq => h.not_drawn (heq ▸ h.made_drawn x hx)
  child := fun c hc heq => h.not_drawn (heq ▸ h.cached.child_drawn c hc)
  active := fun c hc heq => h.not_drawn (heq ▸ h.active_drawn c hc)

theorem ensures_tokenHex (h : w.Inv) :
    Ensures tokenHex (fun token w' => w'.Drawn token ∧ Fresh token w' ∧
      ∃ gone, w' = { w.lose gone with drawn := w.drawn + 1 }) w := by
  refine .bind (ensures_ask (Q := fun r w' => w'.Drawn r.text ∧ Fresh r.text w' ∧
    ∃ gone, w' = { w.lose gone with drawn := w.drawn + 1 }) h trivial fun _ o => ?_)
    fun r w' hinv hQ => .ret hinv hQ
  have hinv : (w.lose o.exits).Inv := h.lose
  have hfresh := hinv.fresh
  refine ⟨?_, ⟨_, Nat.lt_succ_self _, rfl⟩, ⟨hfresh.made, hfresh.child, hfresh.active⟩, o.exits, rfl⟩
  exact
    { hinv with
      made_drawn := fun x hx => (hinv.made_drawn x hx).later
      spawn_drawn := fun o ho => (hinv.spawn_drawn o ho).later
      worker_drawn := fun r hr => (hinv.worker_drawn r hr).later
      active_drawn := fun c hc => (hinv.active_drawn c hc).later
      cached :=
        { hinv.cached with
          spawning_drawn := fun s hs => (hinv.cached.spawning_drawn s hs).later
          child_drawn := fun c hc => (hinv.cached.child_drawn c hc).later } }

/-- The committed obligation of this very daemon, about a process that was not started yet. -/
structure Ready (obligation : SpawningObligation) (w : World) : Prop where
  live : w.live = []
  row : w.row.spawn = some (dbSpawnRecord obligation)
  fresh : Fresh obligation.token w
  pidless : obligation.pid = none
  cached : ∀ s ∈ w.file.spawning, s.pid = none
  creatorPid : obligation.creatorPid = w.claim.pid
  creatorStartTimeTicks : obligation.creatorStartTimeTicks = w.claim.startTimeTicks
  bootId : ∀ boot ∈ obligation.bootId, boot = w.claim.bootId

/-- The process of the committed obligation, not published yet. -/
structure Started (obligation : SpawningObligation) (x : Spawned) (w : World) : Prop where
  token : x.token = obligation.token
  made : x ∈ w.made
  proc : w.proc = some x
  row : w.row.spawn = some (dbSpawnRecord obligation)
  pidless : obligation.pid = none
  child : ∀ c ∈ w.file.child, c.token ≠ obligation.token

theorem Ready.lose {obligation : SpawningObligation} (h : Ready obligation w) :
    Ready obligation (w.lose gone) :=
  { h with
    live := List.eq_nil_iff_forall_not_mem.2 fun x hx => by
      have hlive := World.mem_live_of_lose hx
      rw [h.live] at hlive
      cases hlive
    fresh := { h.fresh with } }

theorem Ready.write {obligation : SpawningObligation} (h : Ready obligation w)
    {state : SupervisorState} (hcached : ∀ s ∈ state.spawning, s.pid = none)
    (hchild : state.child = w.file.child) : Ready obligation { w with file := state } :=
  { h with
    fresh := ⟨h.fresh.made, fun c hc => h.fresh.child c (hchild ▸ hc), h.fresh.active⟩
    cached := hcached }

theorem Started.lose {obligation : SpawningObligation} {x : Spawned} (h : Started obligation x w) :
    Started obligation x (w.lose gone) :=
  { h with }

/-- No other process runs beside it. -/
theorem Started.eq {obligation : SpawningObligation} {x : Spawned} (h : Started obligation x w)
    (hinv : w.Inv) {y : Spawned} (hy : y ∈ w.live) : y = x := by
  have hproc := hinv.proc_of_spawn h.row hy
  rw [h.proc] at hproc
  exact (Option.some.inj hproc).symm

/-- The world after a `Popen`. -/
def World.start (w : World) (x : Spawned) : World :=
  { w with proc := some x, made := x :: w.made, live := [x] }

theorem Ready.start {obligation : SpawningObligation} {x : Spawned} (h : w.Inv)
    (hready : Ready obligation w) (htoken : x.token = obligation.token)
    (hpid : x.pid ≠ w.claim.pid) : (w.start x).Inv where
  injective := h.injective
  self_ticks := h.self_ticks
  live_made := fun y hy => by
    rw [List.mem_singleton.1 hy]
    exact List.mem_cons_self
  live_pid := fun y hy => by
    rw [List.mem_singleton.1 hy]
    exact hpid
  made_drawn := fun y hy => by
    rcases List.mem_cons.1 hy with rfl | hy
    · rw [htoken]
      exact h.spawn_drawn _ hready.row
    · exact h.made_drawn y hy
  made_unique := fun y hy z hz hyz => by
    rcases List.mem_cons.1 hy with rfl | hold
    · rcases List.mem_cons.1 hz with rfl | hold
      · rfl
      · exact absurd (hyz.symm.trans htoken) (hready.fresh.made z hold)
    · rcases List.mem_cons.1 hz with rfl | hold'
      · exact absurd (hyz.trans htoken) (hready.fresh.made y hold)
      · exact h.made_unique y hold z hold' hyz
  exclusive := h.exclusive
  covered := fun y hy => by
    rw [List.mem_singleton.1 hy]
    exact .inl ⟨_, hready.row, htoken.symm⟩
  handled := fun y hy hproc => by
    rw [List.mem_singleton.1 hy] at hproc
    exact absurd rfl hproc
  created := fun y _ o ho _ => by
    obtain rfl := Option.some.inj (hready.row.symm.trans ho)
    exact ⟨hready.creatorPid, hready.creatorStartTimeTicks, hready.bootId⟩
  pidless := h.pidless
  spawn_drawn := h.spawn_drawn
  recorded := fun r hr => by cases (h.worker_of_spawn hready.row).symm.trans hr
  worker_drawn := h.worker_drawn
  active := fun c hc y hy hyc => by
    rcases List.mem_cons.1 hy with rfl | hy
    · exact absurd (hyc.symm.trans htoken) (hready.fresh.active c hc)
    · exact h.active c hc y hy hyc
  active_drawn := h.active_drawn
  cached :=
    { h.cached with
      exact := fun s hs y _ _ pid hp => by
        rw [hready.cached s hs] at hp
        cases hp
      handled := fun y hy hproc => by
        rw [List.mem_singleton.1 hy] at hproc
        exact absurd rfl hproc }

theorem Ready.started {obligation : SpawningObligation} {x : Spawned}
    (hready : Ready obligation w) (htoken : x.token = obligation.token) :
    Started obligation x (w.start x) :=
  ⟨htoken, List.mem_cons_self, rfl, hready.row, hready.pidless, hready.fresh.child⟩

theorem World.popen_cases (w : World) (o : Decision) (token : PyStr) (hlive : w.live = []) :
    w.popen o token = ({}, w) ∨ ∃ x, x.token = token ∧ x.pid ≠ w.claim.pid ∧
      w.popen o token = ({ proc := some x }, w.start x) := by
  by_cases hstarts : (o.yes && decide (o.pid ≠ w.claim.pid)) = true
  · refine .inr ⟨⟨token, o.pid, o.startTimeTicks⟩, rfl, ?_, ?_⟩
    · exact of_decide_eq_true (Bool.and_eq_true _ _ ▸ hstarts).2
    · rw [World.popen, hlive]
      exact if_pos hstarts
  · exact .inl (if_neg hstarts)

/-- **The `Popen`**, which is reached only when nothing runs. -/
theorem ensures_popen {obligation : SpawningObligation} (h : w.Inv) (hready : Ready obligation w) :
    Ensures (popen obligation.token) (fun proc w' =>
      (proc = none → w.Later w') ∧
      ∀ x ∈ proc, Started obligation x w' ∧ ∃ gone, w' = (w.lose gone).start x) w := by
  refine .bind (ensures_ask (Q := fun r w' => (r.proc = none → w.Later w') ∧
    ∀ x ∈ r.proc, Started obligation x w' ∧ ∃ gone, w' = (w.lose gone).start x) h
    ⟨hready.live, _, hready.row, rfl⟩ fun _ o => ?_) fun r w' hinv hQ => .ret hinv hQ
  have hinv : (w.lose o.exits).Inv := h.lose
  have hready' : Ready obligation (w.lose o.exits) := hready.lose
  rw [show sem (.popen obligation.token) o w = (w.lose o.exits).popen o obligation.token from rfl]
  rcases World.popen_cases _ o obligation.token hready'.live with heq | ⟨x, htoken, hpid, heq⟩
  · rw [heq]
    exact ⟨hinv, fun _ => ⟨o.exits, rfl⟩, fun x hx => by cases hx⟩
  · rw [heq]
    refine ⟨hready'.start hinv htoken hpid, fun hnone => (by cases hnone), fun y hy => ?_⟩
    cases hy
    exact ⟨hready'.started htoken, o.exits, rfl⟩

/-! ## Owned groups -/

/-- Some tokens were recovered meanwhile. -/
def Recovered (w w' : World) : Prop :=
  ∃ gone recovered, w' = { w.lose gone with recovered } ∧ w.recovered ⊆ recovered

theorem Recovered.inv (h : w.Inv) {recovered : List PyStr} :
    ({ w.lose gone with recovered } : World).Inv := by
  have hinv : (w.lose gone).Inv := h.lose
  exact { hinv with cached := { hinv.cached with } }

theorem recoverOwnedGroups_relies (token : PyStr) (h : w.Inv) :
    (recoverOwnedGroups token).Relies sem Allowed Guaranteed
      (fun _ w' => w'.Inv ∧ token ∈ w'.recovered ∧ Recovered w w')
      (fun e w' => w'.Inv ∧ e = .ownedGroupRecoveryError ∧ w.Later w') w := by
  refine ⟨⟨h, trivial⟩, fun _ o => ?_⟩
  have hsem : sem (.recoverOwnedGroups token) o w =
      if o.yes then ({ yes := true }, { w.lose o.exits with recovered := token :: w.recovered })
      else ({}, w.lose o.exits) := rfl
  rw [hsem]
  split
  · exact ⟨Recovered.inv h, List.mem_cons_self, o.exits, _, rfl, List.subset_cons_self _ _⟩
  · exact ⟨h.lose, rfl, o.exits, rfl⟩

theorem ensures_recoverOwnedGroups (token : PyStr) (h : w.Inv) :
    Ensures (recoverOwnedGroups token)
      (fun _ w' => token ∈ w'.recovered ∧ Recovered w w') w :=
  (recoverOwnedGroups_relies token h).mono (fun _ _ hQ => hQ) fun _ _ he => he.1

theorem ensures_recoverSpawnOwnedGroups (token : PyStr) (h : w.Inv) :
    Ensures (recoverSpawnOwnedGroups token)
      (fun b w' => (b = true → token ∈ w'.recovered) ∧ Recovered w w') w := by
  refine .tryCatch (.andThen ((recoverOwnedGroups_relies token h).mono (fun _ _ hQ => hQ) ?_) ?_)
  · rintro e w' ⟨hinv, rfl, gone, rfl⟩
    exact ⟨hinv, fun hb => (by cases hb), gone, w.recovered, rfl, fun _ ht => ht⟩
  · rintro _ w' ⟨hinv, htoken, hrecovered⟩
    exact ⟨hinv, fun _ => htoken, hrecovered⟩

/-! ## Memory -/

/-- **The handle is given up**, where its process is proven to have exited or the rely is met. -/
theorem ensures_forget {site : Site} (h : w.Inv)
    (hgood : site.unproven = false → ∀ x ∈ w.live, w.proc ≠ some x) :
    Ensures (forget site) (fun _ w' => ∃ gone, w' = { w.lose gone with proc := none }) w := by
  refine .bind (ensures_ask (Q := fun _ w' => ∃ gone, w' = { w.lose gone with proc := none }) h hgood
    fun hrely o => ⟨?_, o.exits, rfl⟩) fun _ _ hinv hQ => .ret hinv hQ
  have hinv : (w.lose o.exits).Inv := h.lose
  have hsettled : Settled w.activeChild w := by
    cases hsite : site.unproven with
    | true => exact hrely hsite
    | false => exact fun x hx hproc => absurd hproc (hgood hsite x hx)
  exact
    { hinv with
      handled := fun x hx _ => by
        by_cases hproc : w.proc = some x
        · obtain ⟨hpublishes, hnames, -⟩ := hsettled x (World.mem_live_of_lose hx) hproc
          exact ⟨rfl, hpublishes, hnames⟩
        · exact ⟨rfl, (hinv.handled x hx hproc).2⟩
      cached :=
        { hinv.cached with
          handled := fun x hx _ => by
            by_cases hproc : w.proc = some x
            · exact (hsettled x (World.mem_live_of_lose hx) hproc).2.2
            · exact hinv.cached.handled x hx hproc } }

theorem ensures_setActiveChild {child : Option WorkerChild} (h : w.Inv)
    (hactive : ∀ c ∈ child, ∀ x ∈ w.made, x.token = c.token →
      c.pid = x.pid ∧ c.startTimeTicks = x.startTimeTicks)
    (hdrawn : ∀ c ∈ child, w.Drawn c.token)
    (hhandled : ∀ x ∈ w.live, w.proc ≠ some x → ¬ Names child x) :
    Ensures (setActiveChild child)
      (fun _ w' => ∃ gone, w' = { w.lose gone with activeChild := child }) w := by
  refine .bind (ensures_ask (Q := fun _ w' => ∃ gone, w' = { w.lose gone with activeChild := child })
    h trivial fun _ o => ⟨?_, o.exits, rfl⟩) fun _ _ hinv hQ => .ret hinv hQ
  have hinv : (w.lose o.exits).Inv := h.lose
  exact
    { hinv with
      handled := fun x hx hproc =>
        ⟨(hinv.handled x hx hproc).1, (hinv.handled x hx hproc).2.1,
          hhandled x (World.mem_live_of_lose hx) hproc⟩
      active := hactive
      active_drawn := hdrawn
      cached := { hinv.cached with } }

theorem ensures_setActiveChild_none (h : w.Inv) :
    Ensures (setActiveChild none)
      (fun _ w' => ∃ gone, w' = { w.lose gone with activeChild := none }) w := by
  refine ensures_setActiveChild h ?_ ?_ ?_
  · intro c hc
    cases hc
  · intro c hc
    cases hc
  · rintro x - - ⟨c, hc, -⟩
    cases hc

theorem ensures_setMemNextAttemptAt (moment : Option ℚ) (h : w.Inv) :
    Ensures (setMemNextAttemptAt moment)
      (fun _ w' => ∃ gone, w' = { w.lose gone with memNextAttemptAt := moment }) w := by
  refine .bind (ensures_ask (Q := fun _ w' => ∃ gone, w' =
    { w.lose gone with memNextAttemptAt := moment }) h trivial fun _ o => ⟨?_, o.exits, rfl⟩)
    fun _ _ hinv hQ => .ret hinv hQ
  have hinv : (w.lose o.exits).Inv := h.lose
  exact { hinv with cached := { hinv.cached with } }

theorem ensures_backoffSeconds (settings : Settings) (restartCount : ℤ) (h : w.Inv) :
    Ensures (backoffSeconds settings restartCount) (fun _ w' => w' = w) w := by
  rw [backoffSeconds]
  split
  · exact ⟨h, rfl⟩
  · exact h

theorem writeMeta_relies (h : w.Inv) :
    writeMeta.Relies sem Allowed Guaranteed (fun _ w' => w'.Inv ∧ w.Later w')
      (fun e w' => w'.Inv ∧ e = .osError ∧ w.Later w') w := by
  refine ⟨⟨h, trivial⟩, fun _ o => ?_⟩
  show Prog.Relies sem Allowed Guaranteed _ _ (if o.yes then Prog.ret () else Prog.raise Exc.osError)
    (w.lose o.exits)
  split
  · exact ⟨h.lose, o.exits, rfl⟩
  · exact ⟨h.lose, rfl, o.exits, rfl⟩

end Lubko.Spawn
