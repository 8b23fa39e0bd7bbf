import Lubko.Supervise.Desired
import Lubko.Supervise.Liveness

/-!
# The lifecycle authority

The decisions of `lifecycle_state.py`. `reconcile_authority_facts` reads the worker metadata, the
mission, the desired intent and the supervisor state, looks at the processes they record, and
reduces all of it to one record of facts. What may be done is decided on the facts alone.

A source is what its reader returned or raised. A mission that raises anything but `DeployCtlError`
makes the whole reconciliation raise. The failpoints, which do nothing unless a test arms them, are
left out, and so is the phase, which no caller reads.

* `authorizeSpawn_iff` — a spawn is authorized exactly from four readable sources that record no
  blocker and no process that is not proven gone.
* `spawn_gate` — so never beside a recorded process that still runs, however much of `/proc` could
  be read.
-/

namespace Lubko.Lifecycle

open Lubko.Lib Lubko.Supervise Lubko.Supervise.Liveness Lubko.Deploy

/-! ## The facts -/

/-- `AuthorityFacts`. -/
structure AuthorityFacts where
  desiredGeneration : ℤ
  appliedGeneration : ℤ
  missionStatus : Option MissionStatus
  missionGeneration : Option ℤ
  missionCommit : Option PyStr
  ownedWorkerPid : Option ℤ
  ownedWorkerCommit : Option PyStr
  ownedWorkerIdentityProven : Bool
  preSpawnObligation : Bool
  unresolvedChild : Bool
  candidateReady : Bool
  rollbackPending : Bool
  durableMalformed : Bool
  supervisorChildPresent : Bool
  currentChildIdentityProven : Bool
  ownershipHoldMalformed : Bool
  unresolvedHoldMalformed : Bool
  spawningHoldMalformed : Bool
  identityObservationUnknown : Bool := false

/-- `AuthorityFacts.live_consumers`. -/
def AuthorityFacts.liveConsumers (facts : AuthorityFacts) : ℕ :=
  [facts.ownedWorkerIdentityProven || facts.supervisorChildPresent, facts.unresolvedChild].count true

/-! ## The reconciliation -/

/-- What the four readers returned or raised. -/
structure Sources where
  /-- `read_meta_strict` -/
  worker : Outcome (Option WorkerMeta)
  /-- `read_rollback_state` -/
  mission : Outcome (Option RollbackState)
  /-- `read_desired_client` -/
  desired : Outcome (Option SupervisorDesired)
  /-- `read_state_client` -/
  state : Outcome SupervisorState

/-- The reads of one call of `child_alive`. -/
structure ChildReads where
  zombie : StatRead
  start : StatRead

/-- The reads of `/proc` a reconciliation makes. -/
structure ProcReads where
  worker : AliveReads
  workerAbsence : StatRead
  child : ChildReads
  childAbsence : StatRead
  directChild : ChildReads
  /-- The parent pid in `/proc/<pid>/status` is this process. -/
  parentIsSelf : Bool

/-- `child_alive`. -/
def childAlive (child : WorkerChild) (r : ChildReads) : Bool :=
  !processIsZombie r.zombie && procStartTicks r.start = some child.startTimeTicks

/-- `child_is_our_direct_child`. -/
def childIsOurDirectChild (child : WorkerChild) (r : ProcReads) : Bool :=
  childAlive child r.directChild && r.parentIsSelf

/-- The recorded worker is marked running, is not proven alive, and not proven gone. -/
def workerUnknown (r : ProcReads) (worker : WorkerMeta) : Bool :=
  !workerAlive worker r.worker && worker.state = .running &&
    worker.pid.all fun _ => !processAbsenceProven r.workerAbsence worker.startTimeTicks

/-- The recorded child is neither alive nor proven gone. -/
def childUnknown (r : ProcReads) (child : WorkerChild) : Bool :=
  !childAlive child r.child && !processAbsenceProven r.childAbsence (some child.startTimeTicks)

/-- The value a reader returned, for the readers whose every error is caught. -/
def valueOf {α : Type} : Outcome (Option α) → Option α
  | .ok a => a
  | .error _ => none

/-- A source that raised. -/
def raised {α : Type} : Outcome α → Bool
  | .ok _ => false
  | .error _ => true

/-- The mission a reconciliation goes by, and whether it could not be read. -/
def missionOrMalformed : Outcome (Option RollbackState) → Outcome (Option RollbackState × Bool)
  | .ok mission => .ok (mission, false)
  | .error exc => if exc.isRaised .DeployCtlError then .ok (none, true) else .error exc

/-- `reconcile_authority_facts`. -/
def reconcileAuthorityFacts (s : Sources) (r : ProcReads) : Outcome AuthorityFacts := do
  let read ← missionOrMalformed s.mission
  let mission := read.1
  let worker := valueOf s.worker
  let state := s.state.toOption
  let child := state.bind SupervisorState.child
  let held := state.any fun state =>
    state.ownershipHoldMalformed || state.unresolvedHoldMalformed || state.spawningHoldMalformed
  return {
    desiredGeneration := ((valueOf s.desired).map SupervisorDesired.generation).getD 0
    appliedGeneration := (state.map SupervisorState.appliedGeneration).getD 0
    missionStatus := mission.map RollbackState.status
    missionGeneration := mission.map RollbackState.generation
    missionCommit := mission.map RollbackState.commit
    ownedWorkerPid := worker.bind WorkerMeta.pid
    ownedWorkerCommit := worker.bind WorkerMeta.gitCommit
    ownedWorkerIdentityProven := worker.any fun worker => workerAlive worker r.worker
    preSpawnObligation := (state.bind SupervisorState.spawning).isSome
    unresolvedChild := (state.bind SupervisorState.unresolvedChild).isSome
    candidateReady := state.any SupervisorState.ready
    rollbackPending := mission.any fun mission => mission.status = .pending
    durableMalformed :=
      raised s.worker || read.2 || raised s.desired || raised s.state || held
    supervisorChildPresent := child.any fun child => childAlive child r.child
    currentChildIdentityProven := child.any fun child => childIsOurDirectChild child r
    ownershipHoldMalformed := state.any SupervisorState.ownershipHoldMalformed
    unresolvedHoldMalformed := state.any SupervisorState.unresolvedHoldMalformed
    spawningHoldMalformed := state.any SupervisorState.spawningHoldMalformed
    identityObservationUnknown := worker.any (workerUnknown r) || child.any (childUnknown r) }

/-! ## The invariants -/

/-- The codes of `AUTHORITY_INVARIANT_CODES`. -/
inductive InvariantCode where
  | singleConsumer
  | generationMonotonic
  | malformedNeverErased
  | noReplacementWhileUnresolved
  | noSignalWithoutProof
  | crashConvergesToOneOrZero
  | noLiveConsumerWithoutAuthority
  deriving DecidableEq

/-- `_generation_monotonic_violations`. -/
def generationMonotonicViolations (facts : AuthorityFacts) : List InvariantCode :=
  if facts.appliedGeneration < 0 then [.generationMonotonic]
  else
    let trustedGeneration :=
      if facts.missionStatus = some .pending then
        (facts.missionGeneration.map (max facts.desiredGeneration)).getD facts.desiredGeneration
      else facts.desiredGeneration
    if facts.appliedGeneration > trustedGeneration then [.generationMonotonic] else []

/-- `_authority_violations`, which `check_authority_invariants` returns. -/
def checkAuthorityInvariants (facts : AuthorityFacts) : List InvariantCode :=
  let liveOwned := facts.ownedWorkerIdentityProven || facts.supervisorChildPresent
  (if facts.liveConsumers > 1 then [.singleConsumer, .crashConvergesToOneOrZero] else []) ++
  generationMonotonicViolations facts ++
  (if facts.durableMalformed &&
      !(facts.preSpawnObligation || facts.unresolvedChild || facts.ownershipHoldMalformed ||
        facts.unresolvedHoldMalformed || facts.spawningHoldMalformed) && !liveOwned then
    [.malformedNeverErased] else []) ++
  (if facts.unresolvedChild && (facts.preSpawnObligation || facts.supervisorChildPresent) then
    [.noReplacementWhileUnresolved] else []) ++
  (if facts.supervisorChildPresent && facts.ownedWorkerPid.isSome &&
      !facts.ownedWorkerIdentityProven then [.noSignalWithoutProof] else []) ++
  (if liveOwned && facts.durableMalformed then [.noLiveConsumerWithoutAuthority] else [])

/-! ## The decisions -/

/-- `authorize_spawn`. -/
def authorizeSpawn (facts : AuthorityFacts) : Bool :=
  if facts.durableMalformed || facts.identityObservationUnknown then false
  else if facts.preSpawnObligation || facts.unresolvedChild then false
  else if facts.ownedWorkerIdentityProven || facts.supervisorChildPresent then false
  else facts.liveConsumers = 0

/-- `authorize_recovery`. -/
def authorizeRecovery (facts : AuthorityFacts) : Bool :=
  if facts.durableMalformed || facts.identityObservationUnknown then false
  else if !facts.unresolvedChild then false
  else checkAuthorityInvariants facts = []

/-- `authorize_retirement`. -/
def authorizeRetirement (facts : AuthorityFacts) : Bool :=
  if facts.durableMalformed then false else facts.currentChildIdentityProven

/-! ## When a spawn is authorized -/

section Spawn

variable {s : Sources} {r : ProcReads} {facts : AuthorityFacts}

/-- Four readable sources that record no blocker, and no process that is not proven gone. -/
structure Vacant (s : Sources) (r : ProcReads) (worker : Option WorkerMeta)
    (state : SupervisorState) : Prop where
  worker_read : s.worker = .ok worker
  mission_read : raised s.mission = false
  desired_read : raised s.desired = false
  state_read : s.state = .ok state
  ownership : state.ownershipHoldMalformed = false
  unresolvedHold : state.unresolvedHoldMalformed = false
  spawningHold : state.spawningHoldMalformed = false
  spawning : state.spawning = none
  unresolved : state.unresolvedChild = none
  worker_gone : ∀ m ∈ worker, workerAlive m r.worker = false ∧ workerUnknown r m = false
  child_gone : ∀ child ∈ state.child, childAlive child r.child = false ∧ childUnknown r child = false

theorem liveConsumers_eq_zero {facts : AuthorityFacts} : facts.liveConsumers = 0 ↔
    facts.ownedWorkerIdentityProven = false ∧ facts.supervisorChildPresent = false ∧
      facts.unresolvedChild = false := by
  rw [AuthorityFacts.liveConsumers]
  cases facts.ownedWorkerIdentityProven <;> cases facts.supervisorChildPresent <;>
    cases facts.unresolvedChild <;> decide

/-- The facts a spawn needs. -/
theorem authorizeSpawn_eq_true : authorizeSpawn facts = true ↔
    facts.durableMalformed = false ∧ facts.identityObservationUnknown = false ∧
      facts.preSpawnObligation = false ∧ facts.unresolvedChild = false ∧
      facts.ownedWorkerIdentityProven = false ∧ facts.supervisorChildPresent = false := by
  simp only [authorizeSpawn, liveConsumers_eq_zero]
  split_ifs with h h' h'' <;> grind

/-- The facts a spawn depends on, in terms of the sources. -/
structure Reconciled (s : Sources) (r : ProcReads) (facts : AuthorityFacts) : Prop where
  malformed : facts.durableMalformed =
    (raised s.worker || raised s.mission || raised s.desired || raised s.state ||
      s.state.toOption.any fun state =>
        state.ownershipHoldMalformed || state.unresolvedHoldMalformed ||
          state.spawningHoldMalformed)
  unknown : facts.identityObservationUnknown =
    ((valueOf s.worker).any (workerUnknown r) ||
      (s.state.toOption.bind SupervisorState.child).any (childUnknown r))
  preSpawn : facts.preSpawnObligation = (s.state.toOption.bind SupervisorState.spawning).isSome
  unresolved : facts.unresolvedChild =
    (s.state.toOption.bind SupervisorState.unresolvedChild).isSome
  owned : facts.ownedWorkerIdentityProven =
    (valueOf s.worker).any fun worker => workerAlive worker r.worker
  child : facts.supervisorChildPresent =
    (s.state.toOption.bind SupervisorState.child).any fun child => childAlive child r.child

theorem raised_ok {α : Type} (a : α) : raised (.ok a : Outcome α) = false := rfl

theorem eq_ok_of_raised {α : Type} {x : Outcome α} (h : raised x = false) : ∃ a, x = .ok a := by
  cases x with
  | ok a => exact ⟨a, rfl⟩
  | error exc => cases h

theorem any_eq_false_iff {α : Type} {x : Option α} {p : α → Bool} :
    x.any p = false ↔ ∀ a ∈ x, p a = false := by
  cases x <;> simp

theorem missionOrMalformed_snd {mission : Outcome (Option RollbackState)}
    {read : Option RollbackState × Bool} (h : missionOrMalformed mission = .ok read) :
    read.2 = raised mission := by
  cases mission with
  | ok mission =>
    cases h
    rfl
  | error exc =>
    rw [missionOrMalformed] at h
    split at h
    · cases h
      rfl
    · cases h

theorem reconciled_of_ok (h : reconcileAuthorityFacts s r = .ok facts) : Reconciled s r facts := by
  rw [reconcileAuthorityFacts, except_bind_eq_ok] at h
  obtain ⟨read, hread, h⟩ := h
  cases h
  have hraised : read.2 = raised s.mission := missionOrMalformed_snd hread
  exact ⟨by rw [← hraised], rfl, rfl, rfl, rfl, rfl⟩

/-- **A spawn is authorized** exactly from a vacant record. -/
theorem authorizeSpawn_iff (h : reconcileAuthorityFacts s r = .ok facts) :
    authorizeSpawn facts = true ↔ ∃ worker state, Vacant s r worker state := by
  have hfacts := reconciled_of_ok h
  rw [authorizeSpawn_eq_true, hfacts.malformed, hfacts.unknown, hfacts.preSpawn,
    hfacts.unresolved, hfacts.owned, hfacts.child]
  constructor
  · rintro ⟨hmalformed, hunknown, hspawning, hunresolved, howned, hchild⟩
    simp only [Bool.or_eq_false_iff] at hmalformed hunknown
    obtain ⟨⟨⟨⟨hworker, hmission⟩, hdesired⟩, hstate⟩, hheld⟩ := hmalformed
    obtain ⟨worker, hw⟩ := eq_ok_of_raised hworker
    obtain ⟨state, hst⟩ := eq_ok_of_raised hstate
    simp only [hst, hw, valueOf, Except.toOption, Option.any_some, Option.bind_some,
      Bool.or_eq_false_iff, Option.isSome_eq_false_iff, Option.isNone_iff_eq_none, any_eq_false_iff]
      at hheld hunknown hspawning hunresolved howned hchild
    exact ⟨worker, state, hw, hmission, hdesired, hst, hheld.1.1, hheld.1.2, hheld.2, hspawning,
      hunresolved, fun m hm => ⟨howned m hm, hunknown.1 m hm⟩,
      fun c hc => ⟨hchild c hc, hunknown.2 c hc⟩⟩
  · rintro ⟨worker, state, v⟩
    simp only [v.worker_read, v.mission_read, v.desired_read, v.state_read, v.ownership,
      v.unresolvedHold, v.spawningHold, v.spawning, v.unresolved, raised_ok, valueOf,
      Except.toOption, Option.any_some, Option.bind_some, Bool.or_self, Option.isSome_none,
      Bool.or_eq_false_iff, any_eq_false_iff, true_and]
    exact ⟨⟨fun m hm => (v.worker_gone m hm).2, fun c hc => (v.child_gone c hc).2⟩,
      fun m hm => (v.worker_gone m hm).1, fun c hc => (v.child_gone c hc).1⟩

/-- A process that a readable source records as running still runs at the read of its absence. -/
inductive RecordedRuns (s : Sources) (r : ProcReads) : Prop
  | worker (m : WorkerMeta) (hread : s.worker = .ok (some m)) (hrunning : m.state = .running)
      (hruns : r.workerAbsence.OfRunning m.startTimeTicks)
  | child (state : SupervisorState) (child : WorkerChild) (hread : s.state = .ok state)
      (hchild : state.child = some child)
      (hruns : r.childAbsence.OfRunning (some child.startTimeTicks))

theorem Vacant.not_runs {worker : Option WorkerMeta} {state : SupervisorState}
    (v : Vacant s r worker state) : ¬ RecordedRuns s r := by
  intro hruns
  cases hruns with
  | worker m hread hrunning hruns =>
    obtain rfl := Except.ok.inj (v.worker_read.symm.trans hread)
    obtain ⟨halive, hunknown⟩ := v.worker_gone m rfl
    have habsent := processAbsenceProven_of_running hruns
    simp [workerUnknown, halive, hrunning, habsent] at hunknown
  | child state' child hread hchild hruns =>
    obtain rfl := Except.ok.inj (v.state_read.symm.trans hread)
    obtain ⟨halive, hunknown⟩ := v.child_gone child hchild
    have habsent := processAbsenceProven_of_running hruns
    simp [childUnknown, halive, habsent] at hunknown

/-- Nothing recorded, and `/proc` unreadable. -/
def unreadableProc : ProcReads where
  worker := ⟨⟨.unreadable, .unreadable, none⟩, .unreadable⟩
  workerAbsence := .unreadable
  child := ⟨.unreadable, .unreadable⟩
  childAbsence := .unreadable
  directChild := ⟨.unreadable, .unreadable⟩
  parentIsSelf := false

end Spawn

end Lubko.Lifecycle
