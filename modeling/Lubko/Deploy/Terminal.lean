import Lubko.Deploy.Intents

/-!
# Terminal records

Confirmation and supervised rollback run under the deployment lock: they settle a commit, prove its
worker queue-ready at one generation, check the authority under the generation lock and write the
terminal record. Confirmation writes it with the lock held. Rollback checks twice, around the
restoration of the artifacts, and writes after the second check has let go of the lock.

* `terminalization_serialized` — over whole runs, a terminal record names the intent on record when
  no run intent is requested between the last check of a rollback and its write.
* `restart_before_rollback_write` — one that is.
-/

namespace Lubko.Deploy

open Lubko.Lib Lubko.Supervise Lubko.Lifecycle

/-! ## The authority check -/

/-- `SupervisorStatus`, as far as the settlement of a mission reads it. -/
structure SupervisorStatus where
  appliedGeneration : ℤ
  commit : Option PyStr
  child : Option WorkerChild
  ready : Option Bool
  holding : Bool
  deriving DecidableEq

/-- `is_holding`. -/
def isHolding (state : SupervisorState) : Bool :=
  state.ownershipHoldMalformed || state.unresolvedHoldMalformed || state.spawningHoldMalformed ||
    state.unresolvedChild.isSome || state.spawning.isSome || decide (state.intent ≠ .run) ||
      decide (state.mode ≠ .run) || state.child.isNone

/-- `_supervised_terminalization_authority_matches`; `childAlive` is `child_alive(status.child)`. -/
def supervisedTerminalizationAuthorityMatches (expectedCommit : PyStr) (expectedGeneration : ℤ)
    (desired : Option SupervisorDesired) (status : Option SupervisorStatus)
    (state : SupervisorState) (childAlive : Bool) : Bool :=
  match desired, status with
  | some desired, some status =>
    decide (desired.commit = expectedCommit) && decide (desired.generation = expectedGeneration) &&
      decide (status.commit = some expectedCommit) &&
        decide (status.appliedGeneration = expectedGeneration) &&
          decide (status.ready = some true) && !status.holding && status.child.isSome &&
            decide (state.commit = some expectedCommit) &&
              decide (state.appliedGeneration = expectedGeneration) && state.ready &&
                !isHolding state && decide (state.child = status.child) && childAlive
  | _, _ => false

/-- A passed check has read a desired record with the settled commit and generation. -/
theorem desired_of_matches {c : PyStr} {g : ℤ} {desired : Option SupervisorDesired}
    {status : Option SupervisorStatus} {state : SupervisorState} {childAlive : Bool}
    (h : supervisedTerminalizationAuthorityMatches c g desired status state childAlive = true) :
    ∃ d, desired = some d ∧ d.commit = c ∧ d.generation = g := by
  cases desired with
  | none => cases h
  | some d =>
    cases status with
    | none => cases h
    | some status =>
      simp only [supervisedTerminalizationAuthorityMatches, Bool.and_eq_true,
        decide_eq_true_eq] at h
      exact ⟨d, rfl, by tauto, by tauto⟩

/-- The observation on which `wait_until_ready` returns true. -/
def QueueReady (generation : ℤ) (commit : PyStr) (status : SupervisorStatus) : Prop :=
  generation ≤ status.appliedGeneration ∧ status.commit = some commit ∧ status.ready = some true

instance (generation : ℤ) (commit : PyStr) (status : SupervisorStatus) :
    Decidable (QueueReady generation commit status) := by
  unfold QueueReady
  infer_instance

/-! ## Runs -/

/-- What ends a mission. -/
inductive Ending where
  | confirm
  | rollBack
  deriving DecidableEq

/-- The commit that is settled. -/
def Ending.target (m : RollbackState) : Ending → PyStr
  | .confirm => m.commit
  | .rollBack => m.previousCommit

/-- The terminal status. -/
def Ending.status : Ending → MissionStatus
  | .confirm => .confirmed
  | .rollBack => .rolledBack

/-- The checks under the generation lock: `_confirmation_locked_body`, and the two calls of
`_rollback_locked_body`, before and after the artifacts are restored. -/
inductive Check where
  | confirmation
  | beforeRestore
  | afterRestore
  deriving DecidableEq

/-- What a check belongs to. -/
def Check.ending : Check → Ending
  | .confirmation => .confirm
  | .beforeRestore | .afterRestore => .rollBack

/-- Where the holder of the deployment lock is, with the mission it read. -/
inductive Phase where
  /-- The deployment lock is free. -/
  | idle
  | settling (ending : Ending) (mission : RollbackState)
  /-- `settle_desired` found no desired record with the commit. -/
  | requesting (ending : Ending) (mission : RollbackState)
  | waiting (ending : Ending) (mission : RollbackState) (generation : ℤ)
  /-- `settle_desired` returned the generation; the generation lock is taken next. -/
  | settled (check : Check) (mission : RollbackState) (generation : ℤ)
  | locked (check : Check) (mission : RollbackState) (generation : ℤ)
  | read (check : Check) (mission : RollbackState) (generation : ℤ)
    (desired : Option SupervisorDesired)
  /-- `_restore_cli_and_startup_artifacts`. -/
  | restoring (mission : RollbackState) (generation : ℤ)
  /-- The last check has passed; `_write_state` is called next. -/
  | terminalizing (ending : Ending) (mission : RollbackState) (generation : ℤ)
  deriving DecidableEq

/-- The generation lock is held. -/
def Phase.holdsLock : Phase → Bool
  | .locked .. | .read .. | .terminalizing .confirm _ _ => true
  | _ => false

/-- The mission under settlement. -/
def Phase.mission? : Phase → Option RollbackState
  | .idle => none
  | .settling _ m | .requesting _ m | .waiting _ m _ | .settled _ m _ | .locked _ m _
  | .read _ m _ _ | .restoring m _ | .terminalizing _ m _ => some m

/-- The generation `settle_desired` chose. -/
def Phase.generation? : Phase → Option ℤ
  | .idle | .settling .. | .requesting .. => none
  | .waiting _ _ g | .settled _ _ g | .locked _ _ g | .read _ _ g _ | .restoring _ g
  | .terminalizing _ _ g => some g

/-- The generation is not chosen yet. -/
def Phase.choosing : Phase → Bool
  | .settling .. | .requesting .. => true
  | _ => false

/-- What a passed check goes on with. -/
def Check.passed (m : RollbackState) (g : ℤ) : Check → Phase
  | .confirmation => .terminalizing .confirm m g
  | .beforeRestore => .restoring m g
  | .afterRestore => .terminalizing .rollBack m g

/-- The first check of an ending. -/
def Ending.check : Ending → Check
  | .confirm => .confirmation
  | .rollBack => .beforeRestore

/-- The records, and the holder of the deployment lock. -/
structure Site where
  records : Records
  phase : Phase
  deriving DecidableEq

/-- A step of the holder of the deployment lock, or of another process. -/
inductive Event where
  | requestRun (now : ℚ) (request : RunRequest)
  | ensureRunIntent (now : ℚ) (request : RunRequest)
  | clearMigrationFlag (generation : ℤ)
  /-- The daemon records an applied generation or a reservation. -/
  | number (applied : ℤ) (reserved : Content ℤ)
  | publishMission (mission : RollbackState)
  /-- The lock is taken and the pending supervised mission read. -/
  | start (ending : Ending)
  | readSettled
  | requestSettlement (now : ℚ) (workerId : PyStr)
  | awaitReady (status : SupervisorStatus)
  | takeLock
  | readDesired
  | checkAuthority (status : Option SupervisorStatus) (state : SupervisorState) (childAlive : Bool)
  | finishRestore
  | writeTerminal
  /-- An error, a timeout or a crash; the locks are released. -/
  | giveUp

/-- Change the records while the generation lock is free. -/
def Site.whileFree (s : Site) (change : Records → Option Records) : Option Site :=
  if s.phase.holdsLock then none else (change s.records).map fun r => { s with records := r }

/-- The pending supervised mission on record. -/
def Records.pending? (r : Records) : Option RollbackState :=
  r.mission.value?.filter fun m => decide (m.status = .pending ∧ m.supervisorOwned = some true)

/-- The request `settle_desired` sends. -/
def settlementRequest (commit : PyStr) (m : RollbackState) (workerId : PyStr) : RunRequest where
  commit := commit
  repo := m.repo
  uvPath := m.uvPath
  workerId := some workerId

/-- One step; `none` when it is not enabled. -/
def Site.step (s : Site) : Event → Option Site
  | .requestRun now request =>
    s.whileFree fun r => (r.writeRunIntentLocked now request).map Prod.snd
  | .ensureRunIntent now request =>
    s.whileFree fun r => (r.ensureRunIntent now request).map Prod.snd
  | .clearMigrationFlag generation => s.whileFree fun r => some (r.clearMigrationFlag generation)
  | .number applied reserved =>
    some { s with records := { s.records with applied := applied, reserved := reserved } }
  | .publishMission m =>
    if s.phase = .idle ∧ m.status = .pending ∧
        ∀ current ∈ s.records.mission.value?, current.status ≠ .pending then
      some { s with records := { s.records with mission := .holds m } }
    else none
  | .start ending =>
    if s.phase = .idle then
      s.records.pending?.map fun m => { s with phase := .settling ending m }
    else none
  | .readSettled =>
    match s.phase with
    | .settling ending m =>
      match s.records.desired with
      | .malformed => some { s with phase := .idle }
      | .absent => some { s with phase := .requesting ending m }
      | .holds d =>
        if d.commit = ending.target m then
          some { s with phase := .waiting ending m d.generation }
        else some { s with phase := .requesting ending m }
    | _ => none
  | .requestSettlement now workerId =>
    match s.phase with
    | .requesting ending m =>
      (s.records.writeRunIntentLocked now (settlementRequest (ending.target m) m workerId)).map
        fun p => { records := p.2, phase := .waiting ending m p.1.generation }
    | _ => none
  | .awaitReady status =>
    match s.phase with
    | .waiting ending m g =>
      if QueueReady g (ending.target m) status then
        some { s with phase := .settled ending.check m g }
      else none
    | _ => none
  | .takeLock =>
    match s.phase with
    | .settled check m g => some { s with phase := .locked check m g }
    | _ => none
  | .readDesired =>
    match s.phase with
    | .locked check m g =>
      match s.records.desired with
      | .malformed => some { s with phase := .idle }
      | .absent => some { s with phase := .read check m g none }
      | .holds d => some { s with phase := .read check m g (some d) }
    | _ => none
  | .checkAuthority status state childAlive =>
    match s.phase with
    | .read check m g desired =>
      if supervisedTerminalizationAuthorityMatches (check.ending.target m) g desired status state
          childAlive then
        some { s with phase := check.passed m g }
      else some { s with phase := .idle }
    | _ => none
  | .finishRestore =>
    match s.phase with
    | .restoring m g => some { s with phase := .settled .afterRestore m g }
    | _ => none
  | .writeTerminal =>
    match s.phase with
    | .terminalizing ending m _ =>
      some { records := { s.records with mission := .holds { m with status := ending.status } }
             phase := .idle }
    | _ => none
  | .giveUp => some { s with phase := .idle }

/-- The desired record names a commit at a generation. -/
def Names (desired : Content SupervisorDesired) (commit : PyStr) (generation : ℤ) : Prop :=
  ∃ d, desired = .holds d ∧ d.commit = commit ∧ d.generation = generation

/-- A terminal record is written while the desired record names the commit of the ending, at the
generation whose queue readiness was proven. -/
def NamesTarget (s : Site) : Event → Prop
  | .writeTerminal => ∀ ending m g, s.phase = .terminalizing ending m g →
    Names s.records.desired (ending.target m) g
  | _ => True

/-- The same, for the terminal records of confirmations. -/
def NamesConfirmed (s : Site) : Event → Prop
  | .writeTerminal => ∀ m g, s.phase = .terminalizing .confirm m g →
    Names s.records.desired m.commit g
  | _ => True

/-- A step that is no publication leaves the mission as it is, or ends a pending one. -/
def EndsPending (s : Site) : Event → Prop
  | .publishMission _ => True
  | event => ∀ s', s.step event = some s' →
    s'.records.mission = s.records.mission ∨ ∃ (m : RollbackState) (ending : Ending),
      s.records.mission = .holds m ∧ m.status = .pending ∧
        s'.records.mission = .holds { m with status := ending.status }

/-- No run intent is requested between the last check of a rollback and its terminal write. -/
def Unovertaken (s : Site) (event : Event) : Prop :=
  (∃ m g, s.phase = .terminalizing .rollBack m g) → ∀ now request, event ≠ .requestRun now request

/-- The desired record is newer than the settlement under way. -/
def Superseded (s : Site) : Prop :=
  s.phase.choosing = false ∧ ∀ g ∈ s.phase.generation?, ∃ d,
    s.records.desired = .holds d ∧ g < d.generation

/-- A step that takes the deployment lock anew. -/
def Event.takesDeployLock : Event → Bool
  | .publishMission _ | .start _ => true
  | _ => false

/-! ## What the writers of the desired record change -/

/-- The mission is kept, and so is the desired record, or it grows. -/
structure IntentChange (r r' : Records) : Prop where
  mission : r'.mission = r.mission
  grows : ∀ d, r.desired = .holds d → ∃ d', r'.desired = .holds d' ∧ d.generation ≤ d'.generation

theorem intentChange_of_written {r : Records} {p : Option SupervisorDesired × Records}
    (h : Written r p) : IntentChange r p.2 := by
  cases h with
  | unchanged => exact ⟨rfl, fun d hd => ⟨d, hd, le_rfl⟩⟩
  | @fresh desired t htop hgen =>
    refine ⟨rfl, fun d hd => ⟨desired, rfl, ?_⟩⟩
    obtain ⟨g, _, _, hg, -, -, -, hle, -⟩ := Records.bounds_of_top htop
    rw [Records.desiredGeneration, hd] at hg
    have : d.generation = g := Option.some.inj hg
    omega

/-- `clear_migration_flag` keeps commit and generation. -/
theorem desired_clearMigrationFlag {r : Records} {d : SupervisorDesired} (generation : ℤ)
    (hd : r.desired = .holds d) : ∃ d', (r.clearMigrationFlag generation).desired = .holds d' ∧
      d'.commit = d.commit ∧ d'.generation = d.generation := by
  by_cases hc : d.migration = true ∧ d.generation = generation
  · exact ⟨{ d with migration := false }, by simp [Records.clearMigrationFlag, hd, hc], rfl, rfl⟩
  · exact ⟨d, by simp [Records.clearMigrationFlag, hd, hc], rfl, rfl⟩

theorem intentChange_clearMigrationFlag (r : Records) (generation : ℤ) :
    IntentChange r (r.clearMigrationFlag generation) := by
  obtain ⟨-, -, hmission, -⟩ := clearMigrationFlag_sources r generation
  refine ⟨hmission, fun d hd => ?_⟩
  obtain ⟨d', hd', -, hg⟩ := desired_clearMigrationFlag generation hd
  exact ⟨d', hd', hg.ge⟩

/-- `ensure_run_intent` keeps a desired record that is there. -/
theorem names_of_ensureRunIntent {now : ℚ} {request : RunRequest} {r : Records}
    {p : Option SupervisorDesired × Records} (h : r.ensureRunIntent now request = some p)
    {c : PyStr} {g : ℤ} (hn : Names r.desired c g) : Names p.2.desired c g := by
  obtain ⟨d, hd, hc, hg⟩ := hn
  simp only [Records.ensureRunIntent, hd] at h
  split_ifs at h
  cases h
  exact ⟨d, hd, hc, hg⟩

theorem names_clearMigrationFlag {r : Records} {c : PyStr} {g : ℤ} (generation : ℤ)
    (hn : Names r.desired c g) : Names (r.clearMigrationFlag generation).desired c g := by
  obtain ⟨d, hd, hc, hg⟩ := hn
  obtain ⟨d', hd', hc', hg'⟩ := desired_clearMigrationFlag generation hd
  exact ⟨d', hd', hc'.trans hc, hg'.trans hg⟩

theorem mission_of_pending {r : Records} {m : RollbackState} (h : r.pending? = some m) :
    r.mission = .holds m ∧ m.status = .pending := by
  obtain ⟨hvalue, hpending⟩ := Option.filter_eq_some_iff.1 h
  refine ⟨?_, (of_decide_eq_true hpending).1⟩
  cases hr : r.mission with
  | holds a =>
    rw [hr] at hvalue
    rw [Option.some.inj hvalue]
  | absent | malformed =>
    rw [hr] at hvalue
    cases hvalue

theorem whileFree_eq_some {s s' : Site} {change : Records → Option Records} :
    s.whileFree change = some s' ↔
      s.phase.holdsLock = false ∧ ∃ r, change s.records = some r ∧ s' = { s with records := r } := by
  rw [Site.whileFree]
  cases s.phase.holdsLock with
  | true => simp
  | false => simp [eq_comm]

/-! ## The invariant -/

/-- What the holder of the deployment lock has read is what stands on record. The last field is for
the endings `E`. -/
structure Site.Inv (E : Ending → Prop) (s : Site) : Prop where
  mission : ∀ m ∈ s.phase.mission?, s.records.mission = .holds m ∧ m.status = .pending
  read : ∀ check m g d, s.phase = .read check m g (some d) → s.records.desired = .holds d
  named : ∀ ending m g, E ending → s.phase = .terminalizing ending m g →
    Names s.records.desired (ending.target m) g

variable {E : Ending → Prop} {s s' : Site}

theorem Site.Inv.of_idle (hp : s.phase = .idle) : s.Inv E where
  mission m hm := by
    rw [hp] at hm
    cases hm
  read check m g d hr := by
    rw [hp] at hr
    cases hr
  named ending m g _ ht := by
    rw [hp] at ht
    cases ht

/-- The phases that claim nothing of the desired record. -/
def Phase.quiet : Phase → Bool
  | .read .. | .terminalizing .. => false
  | _ => true

/-- A change to such a phase keeps the invariant. -/
theorem Site.Inv.move (hi : s.Inv E) {phase : Phase} (hm : phase.mission? = s.phase.mission?)
    (hquiet : phase.quiet = true) : Site.Inv E { s with phase := phase } where
  mission m hm' := hi.mission m (hm ▸ hm')
  read check m g _ hr := by
    have hp : phase = .read check m g _ := hr
    rw [hp] at hquiet
    cases hquiet
  named ending m g _ ht := by
    have hp : phase = .terminalizing ending m g := ht
    rw [hp] at hquiet
    cases hquiet

/-- A writer of the desired record keeps the invariant. -/
theorem Site.Inv.writeIntent (hi : s.Inv E) {r : Records} (hfree : s.phase.holdsLock = false)
    (hchange : IntentChange s.records r)
    (hnames : ∀ m g, E .rollBack → s.phase = .terminalizing .rollBack m g →
      ∀ c, Names s.records.desired c g → Names r.desired c g) :
    Site.Inv E { s with records := r } where
  mission m hm := by
    rw [hchange.mission]
    exact hi.mission m hm
  read check m g d hr := by
    have hp : s.phase = .read check m g (some d) := hr
    rw [hp] at hfree
    cases hfree
  named ending m g he ht := by
    have hp : s.phase = .terminalizing ending m g := ht
    cases ending with
    | confirm =>
      rw [hp] at hfree
      cases hfree
    | rollBack => exact hnames m g he hp _ (hi.named .rollBack m g he hp)

/-- **One step keeps what was read in line with the records.** -/
theorem Site.Inv.step {event : Event} (hi : s.Inv E) (hu : E .rollBack → Unovertaken s event)
    (hs : s.step event = some s') : s'.Inv E := by
  cases event with
  | requestRun now request =>
    rw [Site.step] at hs
    obtain ⟨hfree, r, hr, rfl⟩ := whileFree_eq_some.1 hs
    obtain ⟨p, hp, rfl⟩ := Option.map_eq_some_iff.1 hr
    refine hi.writeIntent hfree (intentChange_of_written (written_of_writeRunIntentLocked hp)) ?_
    intro m g he ht
    exact absurd rfl (hu he ⟨m, g, ht⟩ now request)
  | ensureRunIntent now request =>
    rw [Site.step] at hs
    obtain ⟨hfree, r, hr, rfl⟩ := whileFree_eq_some.1 hs
    obtain ⟨p, hp, rfl⟩ := Option.map_eq_some_iff.1 hr
    refine hi.writeIntent hfree (intentChange_of_written (written_of_ensureRunIntent hp)) ?_
    intro m g _ _ c hn
    exact names_of_ensureRunIntent hp hn
  | clearMigrationFlag generation =>
    rw [Site.step] at hs
    obtain ⟨hfree, r, hr, rfl⟩ := whileFree_eq_some.1 hs
    obtain rfl := Option.some.inj hr
    refine hi.writeIntent hfree (intentChange_clearMigrationFlag s.records generation) ?_
    intro m g _ _ c hn
    exact names_clearMigrationFlag generation hn
  | number applied reserved =>
    obtain rfl := Option.some.inj hs
    exact ⟨hi.mission, hi.read, hi.named⟩
  | publishMission m =>
    rw [Site.step] at hs
    split_ifs at hs with hc
    obtain rfl := Option.some.inj hs
    exact .of_idle hc.1
  | start ending =>
    rw [Site.step] at hs
    split_ifs at hs with hidle
    obtain ⟨m, hm, rfl⟩ := Option.map_eq_some_iff.1 hs
    refine ⟨fun m' hm' => ?_, fun _ _ _ _ hr => ?_, fun _ _ _ _ ht => ?_⟩
    · obtain rfl := Option.some.inj hm'
      exact mission_of_pending hm
    · cases hr
    · cases ht
  | readSettled =>
    rw [Site.step] at hs
    split at hs
    · rename_i ending m hphase
      split at hs
      · obtain rfl := Option.some.inj hs
        exact .of_idle rfl
      · obtain rfl := Option.some.inj hs
        exact hi.move (by rw [hphase]; rfl) rfl
      · split_ifs at hs
        · obtain rfl := Option.some.inj hs
          exact hi.move (by rw [hphase]; rfl) rfl
        · obtain rfl := Option.some.inj hs
          exact hi.move (by rw [hphase]; rfl) rfl
    · cases hs
  | requestSettlement now workerId =>
    rw [Site.step] at hs
    split at hs
    · rename_i ending m hphase
      obtain ⟨p, hp, rfl⟩ := Option.map_eq_some_iff.1 hs
      have hchange := intentChange_of_written (written_of_writeRunIntentLocked hp)
      have hkept : Site.Inv E { s with records := p.2 } := by
        refine hi.writeIntent (by rw [hphase]; rfl) hchange fun m' g _ ht => ?_
        rw [hphase] at ht
        cases ht
      exact hkept.move (by rw [hphase]; rfl) rfl
    · cases hs
  | awaitReady status =>
    rw [Site.step] at hs
    split at hs
    · rename_i ending m g hphase
      split_ifs at hs
      obtain rfl := Option.some.inj hs
      exact hi.move (by rw [hphase]; rfl) rfl
    · cases hs
  | takeLock =>
    rw [Site.step] at hs
    split at hs
    · rename_i check m g hphase
      obtain rfl := Option.some.inj hs
      exact hi.move (by rw [hphase]; rfl) rfl
    · cases hs
  | readDesired =>
    rw [Site.step] at hs
    split at hs
    · rename_i check m g hphase
      have hm : ∀ m' ∈ some m, s.records.mission = .holds m' ∧ m'.status = .pending :=
        fun m' hm' => hi.mission m' (by rw [hphase]; exact hm')
      split at hs
      · obtain rfl := Option.some.inj hs
        exact .of_idle rfl
      · obtain rfl := Option.some.inj hs
        refine ⟨hm, fun check' m' g' d' hr => ?_, fun _ _ _ _ ht => ?_⟩
        · cases hr
        · cases ht
      · rename_i d hd
        obtain rfl := Option.some.inj hs
        refine ⟨hm, fun check' m' g' d' hr => ?_, fun _ _ _ _ ht => ?_⟩
        · cases hr
          exact hd
        · cases ht
    · cases hs
  | checkAuthority status state childAlive =>
    rw [Site.step] at hs
    split at hs
    · rename_i check m g desired hphase
      split_ifs at hs with hmatch
      · obtain rfl := Option.some.inj hs
        obtain ⟨d, rfl, hc, hg⟩ := desired_of_matches hmatch
        have hnames : Names s.records.desired (check.ending.target m) g :=
          ⟨d, hi.read check m g d hphase, hc, hg⟩
        have hm : ∀ m' ∈ some m, s.records.mission = .holds m' ∧ m'.status = .pending :=
          fun m' hm' => hi.mission m' (by rw [hphase]; exact hm')
        cases check with
        | confirmation | afterRestore =>
          refine ⟨hm, fun _ _ _ _ hr => ?_, fun ending m' g' _ ht => ?_⟩
          · cases hr
          · cases ht
            exact hnames
        | beforeRestore => exact hi.move (by rw [hphase]; rfl) rfl
      · obtain rfl := Option.some.inj hs
        exact .of_idle rfl
    · cases hs
  | finishRestore =>
    rw [Site.step] at hs
    split at hs
    · rename_i m g hphase
      obtain rfl := Option.some.inj hs
      exact hi.move (by rw [hphase]; rfl) rfl
    · cases hs
  | writeTerminal =>
    rw [Site.step] at hs
    split at hs
    · obtain rfl := Option.some.inj hs
      exact .of_idle rfl
    · cases hs
  | giveUp =>
    obtain rfl := Option.some.inj hs
    exact .of_idle rfl

/-! ## What a step does to the mission -/

/-- A change of phase that leaves the settlement under way, or ends it. -/
def GoesOn (phase phase' : Phase) : Prop :=
  phase' = .idle ∨ phase.choosing = true ∨
    phase'.choosing = false ∧ phase'.generation? = phase.generation?

/-- The effect of a step: a publication, a terminal write, or neither. -/
inductive Effect (s : Site) : Event → Site → Prop
  | publish (m : RollbackState) :
      Effect s (.publishMission m) { s with records := { s.records with mission := .holds m } }
  | terminal {ending : Ending} {m : RollbackState} {g : ℤ}
      (hphase : s.phase = .terminalizing ending m g) :
      Effect s .writeTerminal
        { records := { s.records with mission := .holds { m with status := ending.status } }
          phase := .idle }
  | other {event : Event} {s' : Site} (hchange : IntentChange s.records s'.records)
      (hphase : event.takesDeployLock = true ∨ GoesOn s.phase s'.phase) : Effect s event s'

theorem IntentChange.refl (r : Records) : IntentChange r r := ⟨rfl, fun d hd => ⟨d, hd, le_rfl⟩⟩

/-- A step of the holder of the deployment lock that writes nothing. -/
theorem Effect.move {event : Event} {phase : Phase} (h : GoesOn s.phase phase) :
    Effect s event { s with phase := phase } := .other (.refl _) (.inr h)

/-- A write of the desired record by another process. -/
theorem Effect.write {event : Event} {r : Records} (h : IntentChange s.records r) :
    Effect s event { s with records := r } := by
  refine .other h (.inr ?_)
  cases hc : s.phase.choosing with
  | true => exact .inr (.inl hc)
  | false => exact .inr (.inr ⟨hc, rfl⟩)

theorem effect_of_step {event : Event} (hs : s.step event = some s') : Effect s event s' := by
  cases event with
  | requestRun now request =>
    rw [Site.step] at hs
    obtain ⟨-, r, hr, rfl⟩ := whileFree_eq_some.1 hs
    obtain ⟨p, hp, rfl⟩ := Option.map_eq_some_iff.1 hr
    exact .write (intentChange_of_written (written_of_writeRunIntentLocked hp))
  | ensureRunIntent now request =>
    rw [Site.step] at hs
    obtain ⟨-, r, hr, rfl⟩ := whileFree_eq_some.1 hs
    obtain ⟨p, hp, rfl⟩ := Option.map_eq_some_iff.1 hr
    exact .write (intentChange_of_written (written_of_ensureRunIntent hp))
  | clearMigrationFlag generation =>
    rw [Site.step] at hs
    obtain ⟨-, r, hr, rfl⟩ := whileFree_eq_some.1 hs
    obtain rfl := Option.some.inj hr
    exact .write (intentChange_clearMigrationFlag s.records generation)
  | number applied reserved =>
    obtain rfl := Option.some.inj hs
    exact .write ⟨rfl, fun d hd => ⟨d, hd, le_rfl⟩⟩
  | publishMission m =>
    rw [Site.step] at hs
    split_ifs at hs
    obtain rfl := Option.some.inj hs
    exact .publish m
  | start ending =>
    rw [Site.step] at hs
    split_ifs at hs
    obtain ⟨m, -, rfl⟩ := Option.map_eq_some_iff.1 hs
    exact .other (.refl _) (.inl rfl)
  | readSettled =>
    rw [Site.step] at hs
    split at hs
    · rename_i ending m hphase
      have hchoosing : s.phase.choosing = true := by
        rw [hphase]
        rfl
      split at hs
      · obtain rfl := Option.some.inj hs
        exact .move (.inl rfl)
      · obtain rfl := Option.some.inj hs
        exact .move (.inr (.inl hchoosing))
      · split_ifs at hs
        · obtain rfl := Option.some.inj hs
          exact .move (.inr (.inl hchoosing))
        · obtain rfl := Option.some.inj hs
          exact .move (.inr (.inl hchoosing))
    · cases hs
  | requestSettlement now workerId =>
    rw [Site.step] at hs
    split at hs
    · rename_i ending m hphase
      obtain ⟨p, hp, rfl⟩ := Option.map_eq_some_iff.1 hs
      refine .other (intentChange_of_written (written_of_writeRunIntentLocked hp)) ?_
      refine .inr (.inr (.inl ?_))
      rw [hphase]
      rfl
    · cases hs
  | awaitReady status =>
    rw [Site.step] at hs
    split at hs
    · rename_i ending m g hphase
      split_ifs at hs
      obtain rfl := Option.some.inj hs
      exact .move (.inr (.inr ⟨rfl, by rw [hphase]; rfl⟩))
    · cases hs
  | takeLock =>
    rw [Site.step] at hs
    split at hs
    · rename_i check m g hphase
      obtain rfl := Option.some.inj hs
      exact .move (.inr (.inr ⟨rfl, by rw [hphase]; rfl⟩))
    · cases hs
  | readDesired =>
    rw [Site.step] at hs
    split at hs
    · rename_i check m g hphase
      split at hs
      · obtain rfl := Option.some.inj hs
        exact .move (.inl rfl)
      · obtain rfl := Option.some.inj hs
        exact .move (.inr (.inr ⟨rfl, by rw [hphase]; rfl⟩))
      · obtain rfl := Option.some.inj hs
        exact .move (.inr (.inr ⟨rfl, by rw [hphase]; rfl⟩))
    · cases hs
  | checkAuthority status state childAlive =>
    rw [Site.step] at hs
    split at hs
    · rename_i check m g desired hphase
      split_ifs at hs
      · obtain rfl := Option.some.inj hs
        refine .move (.inr (.inr ?_))
        rw [hphase]
        cases check with
        | confirmation | beforeRestore | afterRestore => exact ⟨rfl, rfl⟩
      · obtain rfl := Option.some.inj hs
        exact .move (.inl rfl)
    · cases hs
  | finishRestore =>
    rw [Site.step] at hs
    split at hs
    · rename_i m g hphase
      obtain rfl := Option.some.inj hs
      exact .move (.inr (.inr ⟨rfl, by rw [hphase]; rfl⟩))
    · cases hs
  | writeTerminal =>
    rw [Site.step] at hs
    split at hs
    · rename_i ending m g hphase
      obtain rfl := Option.some.inj hs
      exact .terminal hphase
    · cases hs
  | giveUp =>
    obtain rfl := Option.some.inj hs
    exact .move (.inl rfl)

/-- Every step that is no publication ends a pending mission or leaves it. -/
theorem Site.Inv.endsPending (hi : s.Inv E) (event : Event) : EndsPending s event := by
  have heffect : ∀ s', s.step event = some s' → (∀ m, event ≠ .publishMission m) →
      s'.records.mission = s.records.mission ∨ ∃ (m : RollbackState) (ending : Ending),
        s.records.mission = .holds m ∧ m.status = .pending ∧
          s'.records.mission = .holds { m with status := ending.status } := by
    intro s' hs hne
    cases effect_of_step hs with
    | publish m => exact absurd rfl (hne m)
    | @terminal ending m g hphase =>
      obtain ⟨hm, hpending⟩ := hi.mission m (by rw [hphase]; rfl)
      exact .inr ⟨m, ending, hm, hpending, rfl⟩
    | other hchange => exact .inl hchange.mission
  cases event with
  | publishMission m => trivial
  | requestRun _ _ | ensureRunIntent _ _ | clearMigrationFlag _ | number _ _ | start _
    | readSettled | requestSettlement _ _ | awaitReady _ | takeLock | readDesired
    | checkAuthority _ _ _ | finishRestore | writeTerminal | giveUp =>
    exact fun s' hs => heffect s' hs fun m hm => by cases hm

/-- **A superseded settlement never ends its mission.** -/
theorem Superseded.step {event : Event} (hi : s.Inv fun _ => True) (h : Superseded s)
    (hlock : event.takesDeployLock = false) (hs : s.step event = some s') :
    Superseded s' ∧ s'.records.mission = s.records.mission := by
  obtain ⟨hchoosing, hnewer⟩ := h
  cases effect_of_step hs with
  | publish m => cases hlock
  | @terminal ending m g hphase =>
    obtain ⟨d, hd, -, hg⟩ := hi.named ending m g trivial hphase
    obtain ⟨d', hd', hlt⟩ := hnewer g (by rw [hphase]; rfl)
    rw [hd] at hd'
    cases hd'
    omega
  | other hchange hphase =>
    refine ⟨?_, hchange.mission⟩
    rcases hphase with htake | hidle | hc | ⟨hc, hg⟩
    · rw [hlock] at htake
      cases htake
    · rw [Superseded, hidle]
      exact ⟨rfl, fun g hg => absurd hg (Option.not_mem_none g)⟩
    · rw [hchoosing] at hc
      cases hc
    · refine ⟨hc, fun g hg' => ?_⟩
      obtain ⟨d, hd, hlt⟩ := hnewer g (hg ▸ hg')
      obtain ⟨d', hd', hle⟩ := hchange.grows d hd
      exact ⟨d', hd', by omega⟩

/-- Over a run, the mission of a superseded settlement stays as it is. -/
theorem Superseded.exec {events : List Event} (hi : s.Inv fun _ => True) (h : Superseded s)
    (hu : Always Site.step Unovertaken s events)
    (hlock : ∀ event ∈ events, event.takesDeployLock = false)
    (hexec : exec Site.step s events = some s') : s'.records.mission = s.records.mission := by
  induction events generalizing s with
  | nil => rw [Option.some.inj hexec]
  | cons event events ih =>
    obtain ⟨t, ht, hrest⟩ := exec_cons_eq_some.1 hexec
    obtain ⟨hhead, htail⟩ := always_cons.1 hu
    obtain ⟨ht', hm⟩ := h.step hi (hlock event (List.mem_cons_self ..)) ht
    have hlock' : ∀ e ∈ events, e.takesDeployLock = false := fun e he =>
      hlock e (List.mem_cons_of_mem _ he)
    exact (ih (hi.step (fun _ => hhead) ht) ht' (htail t ht) hlock' hrest).trans hm

/-! ## Runs of the system -/

/-- A run keeps the invariant for the endings `E`. -/
theorem Site.Inv.exec {start : Site} (hstart : start.phase = .idle) {events : List Event}
    (hu : E .rollBack → Always Site.step Unovertaken start events) {pre : List Event}
    (hpre : pre <+: events) (hexec : exec Site.step start pre = some s) : s.Inv E := by
  by_cases he : E .rollBack
  · have hpre' : Always Site.step Unovertaken start pre := fun pre' b hb m hm =>
      hu he pre' b (hb.trans hpre) m hm
    exact exec_invariant_of_always (fun _ _ _ hi hc => Site.Inv.step hi fun _ => hc)
      (.of_idle hstart) hpre' hexec
  · exact exec_invariant (fun _ _ _ hi => Site.Inv.step hi fun h => absurd h he)
      (.of_idle hstart) hexec

/-- **Terminal records are serialised with the writers of the desired record.** In every run a
confirmed record names the intent on record, and a status only moves from pending to a terminal one.
In every run in which no run intent is requested between the last check of a rollback and its write,
every terminal record names the intent on record, and a mission whose settlement is superseded stays
as it is until the deployment lock is taken anew. -/
theorem terminalization_serialized {start : Site} (hstart : start.phase = .idle)
    {events : List Event} :
    Always Site.step NamesConfirmed start events ∧ Always Site.step EndsPending start events ∧
      (Always Site.step Unovertaken start events →
        Always Site.step NamesTarget start events ∧
          ∀ pre post s s', pre ++ post = events → exec Site.step start pre = some s →
            Superseded s → (∀ event ∈ post, event.takesDeployLock = false) →
              exec Site.step s post = some s' → s'.records.mission = s.records.mission) := by
  refine ⟨fun pre event hpre s hexec => ?_, fun pre event hpre s hexec => ?_, fun hu => ⟨?_, ?_⟩⟩
  · have hi : s.Inv (· = .confirm) :=
      .exec hstart (fun h => by cases h) ((List.prefix_append pre [event]).trans hpre) hexec
    cases event with
    | writeTerminal => exact fun m g ht => hi.named .confirm m g rfl ht
    | publishMission _ | requestRun _ _ | ensureRunIntent _ _ | clearMigrationFlag _ | number _ _
      | start _ | readSettled | requestSettlement _ _ | awaitReady _ | takeLock | readDesired
      | checkAuthority _ _ _ | finishRestore | giveUp => trivial
  · have hi : s.Inv fun _ => False :=
      .exec hstart (fun h => h.elim) ((List.prefix_append pre [event]).trans hpre) hexec
    exact hi.endsPending event
  · intro pre event hpre s hexec
    have hi : s.Inv fun _ => True :=
      .exec hstart (fun _ => hu) ((List.prefix_append pre [event]).trans hpre) hexec
    cases event with
    | writeTerminal => exact fun ending m g ht => hi.named ending m g trivial ht
    | publishMission _ | requestRun _ _ | ensureRunIntent _ _ | clearMigrationFlag _ | number _ _
      | start _ | readSettled | requestSettlement _ _ | awaitReady _ | takeLock | readDesired
      | checkAuthority _ _ _ | finishRestore | giveUp => trivial
  · rintro pre post s s' rfl hexec hsuperseded hlock hpost
    have hi : s.Inv fun _ => True := .exec hstart (fun _ => hu) (List.prefix_append _ _) hexec
    refine hsuperseded.exec hi (fun post' event hpost' t ht => ?_) hlock hpost
    refine hu (pre ++ post') event ?_ t (exec_append_eq_some.2 ⟨s, hexec, ht⟩)
    rw [List.append_assoc]
    exact (List.prefix_append_right_inj pre).2 hpost'

/-- A site with a pending supervised mission and no desired record. -/
def pendingSite : Site := ⟨⟨1, .absent, .holds supervisedMission, .absent⟩, .idle⟩

/-- A worker of the previous commit. -/
def previousChild : WorkerChild where
  pid := 7
  pgid := 7
  sid := 7
  startTimeTicks := 70
  token := PyStr.ofString "t"
  workerId := PyStr.ofString "w"
  spawnedAt := 0

/-- The daemon serves the previous commit at generation 2. -/
def servingPrevious : SupervisorState :=
  { freshState with
    appliedGeneration := 2
    mode := .run
    commit := some supervisedMission.previousCommit
    child := some previousChild
    ready := true }

/-- Its status. -/
def servingStatus : SupervisorStatus where
  appliedGeneration := 2
  commit := some supervisedMission.previousCommit
  child := some previousChild
  ready := some true
  holding := false

/-- A rollback, up to its terminal write. -/
def rollbackRun : List Event :=
  [.start .rollBack, .readSettled, .requestSettlement 0 (PyStr.ofString "w"),
    .awaitReady servingStatus, .takeLock, .readDesired,
    .checkAuthority (some servingStatus) servingPrevious true, .finishRestore, .takeLock,
    .readDesired, .checkAuthority (some servingStatus) servingPrevious true]

/-- The rollback writes its terminal record for the generation on record. -/
theorem terminalization_serialized_rollback : ∃ s,
    exec Site.step pendingSite rollbackRun = some s ∧
      s.phase = .terminalizing .rollBack supervisedMission 2 ∧
        Names s.records.desired supervisedMission.previousCommit 2 := by
  have hu : Always Site.step Unovertaken pendingSite (rollbackRun ++ [.writeTerminal]) := by
    have hquiet : ∀ event ∈ rollbackRun ++ [.writeTerminal],
        ∀ now request, event ≠ .requestRun now request := by
      simp [rollbackRun]
    exact fun pre event hpre s _ _ => hquiet event (hpre.subset (by simp))
  have hnames := ((terminalization_serialized rfl).2.2 hu).1
  exact ⟨_, rfl, rfl, hnames rollbackRun .writeTerminal (List.prefix_refl _) _ rfl _ _ _ rfl⟩

/-- A restart of the previous commit is requested right before the write: the mission is rolled back
while the intent on record is a newer one, whose worker nothing has proven. -/
theorem restart_before_rollback_write :
    (∃ s, exec Site.step pendingSite
        (rollbackRun ++ [.requestRun 1 restartPrevious, .writeTerminal]) = some s ∧
      s.records.mission = .holds { supervisedMission with status := .rolledBack } ∧
        ∃ d, s.records.desired = .holds d ∧ d.generation = 3) ∧
    ¬ Always Site.step NamesTarget pendingSite
      (rollbackRun ++ [.requestRun 1 restartPrevious] ++ [.writeTerminal]) := by
  refine ⟨⟨_, rfl, rfl, _, rfl, rfl⟩, fun h => ?_⟩
  obtain ⟨d, hd, -, hg⟩ := h (rollbackRun ++ [.requestRun 1 restartPrevious]) .writeTerminal
    (List.prefix_refl _) _ rfl _ _ _ rfl
  cases hd
  exact absurd hg (by decide)

end Lubko.Deploy
