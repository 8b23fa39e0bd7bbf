import Lubko.Deploy.Prepare
import Lubko.Supervise.FailClosed

/-!
# What a failed preparation leaves

`_prepare_locked` from the checkout of the candidate on, with what each of its steps does to the
checkout, the CLI root of the candidate, the gated candidate and the mission. Each step that fails
undoes by hand what the earlier ones did; some undo nothing.

* `prepareCandidate_ok` — a preparation that returns, returns what `prepareLocked` does.
* `leavesNothing_iff` — a preparation that fails leaves nothing behind just when it fails at a step
  that undoes the earlier ones, and the undoing works.
-/

namespace Lubko.Deploy

open Lubko.Lib Lubko.Supervise Lubko.Lifecycle

/-! ## The answers -/

/-- The answers of `_abort_gated_candidate`. -/
structure AbortAnswers where
  /-- `proc.poll()` finds the candidate dead. -/
  exited : Bool
  /-- The first `proc.wait` returns. -/
  waited : Bool
  /-- `stop_worker` -/
  stopped : Bool
  /-- The second `proc.wait` returns. -/
  reaped : Bool

/-- How `next_mission_generation` gets to its number. -/
inductive Allocation where
  | lockTimeout
  /-- The supervisor is asked, for want of a token; `none` when it does not answer. -/
  | client (generation : Option ℤ)
  | direct

/-- What leaves `_prepare_locked`. -/
inductive Exit where
  | raised (exc : PyError ErrorClass)
  | durabilityError
  deriving DecidableEq

/-- What preparing a mission finds besides its surroundings. -/
structure UndoAnswers where
  /-- The forced checkout of the previous commit succeeds. -/
  restored : Bool
  /-- `cli.remove_cli_root` leaves no root: the commit is not authoritative, and the tree goes. -/
  removed : Bool
  /-- A root that could not be built is left. -/
  rootLeft : Bool
  abort : AbortAnswers
  /-- The mission is malformed when `_mission_authority_facts` reads it again. -/
  malformed : Bool
  allocation : Allocation
  /-- `_write_state` is confirmed. -/
  written : Bool
  /-- `_fork_watchdog` forks. -/
  forked : Bool
  /-- What `_rollback_locked` leaves of the checkout and the root, and what it raises. -/
  rollbackCheckout : PyStr
  rollbackRoot : Bool
  rollbackRaises : Option Exit
  /-- The gated candidate is still alive when preparation ends. -/
  alive : Bool

/-- What preparation changes. -/
structure Prep where
  checkout : PyStr
  /-- There is a CLI root of the candidate. -/
  cliRoot : Bool
  /-- The gate of a candidate is held open. -/
  gateOpen : Bool
  /-- A mission has been published. -/
  published : Bool

/-- A `DeployCtlError`. -/
def Exit.IsDeployCtl : Exit → Prop
  | .raised exc => exc.isRaised .DeployCtlError = true
  | .durabilityError => False

/-- `raise DeployCtlError(msg)`. -/
def refuse {α : Type} (msg : PyStr) : Except Exit α :=
  .error (.raised (.raised .DeployCtlError msg))

/-! ## The steps -/

section Steps

variable (py : Interpreter) (options : Options) (previous : WorkerMeta)
  (previousCommit commit : PyStr) (supervised : Bool) (w : Surroundings) (a : UndoAnswers)

/-- `_restore_previous_prep`: a checkout that fails is ignored. -/
def restorePreviousPrep (prep : Prep) : Prep :=
  { prep with
    checkout := if a.restored then previousCommit else prep.checkout
    cliRoot := prep.cliRoot && !a.removed }

/-- `_abort_gated_candidate`, on the process of that number: what it raises. -/
def abortGatedCandidate (pid : ℤ) : Except Exit Unit :=
  if a.abort.exited || a.abort.waited then .ok ()
  else if !a.abort.stopped then
    refuse (s!"gated candidate pid {pid} could not be reaped after exact-identity escalation")
  else if !a.abort.reaped then
    refuse (s!"gated candidate pid {pid} survived exact-identity escalation; reaping timed out")
  else .ok ()

/-- `next_mission_generation`. -/
def allocateGeneration (files : Files) : Outcome ℤ :=
  match a.allocation with
  | .lockTimeout => .error (.raised .DeployCtlError
    "timed out waiting for the generation lock during mission generation allocation")
  | .client none => .error (.raised .DeployCtlError
    "supervisor is not running; cannot allocate generation without a token")
  | .client (some generation) => .ok generation
  | .direct => nextMissionGeneration py files

/-- The abort of a candidate, if there is one, before the rest; its gate is closed in any case. -/
def abortThen {α : Type} (newMeta : Option WorkerMeta) (prep : Prep)
    (next : Prep → Except Exit α × Prep) : Except Exit α × Prep :=
  match newMeta with
  | none => next prep
  | some m =>
    match abortGatedCandidate a (m.pid.getD 0) with
    | .error e => (.error e, { prep with gateOpen := false })
    | .ok () => next { prep with gateOpen := false }

/-- `_rollback_locked`, and the error of the watchdog that is raised again. -/
def rollBackUnarmed (prep : Prep) : Except Exit RollbackState × Prep :=
  let prep := { prep with checkout := a.rollbackCheckout, cliRoot := a.rollbackRoot }
  match a.rollbackRaises with
  | some exit => (.error exit, prep)
  | none => (refuse "could not arm rollback watchdog", prep)

/-- `_publish_legacy_mission`. -/
def publishLegacyMission (state : RollbackState) (prep : Prep) : Except Exit RollbackState × Prep :=
  if !a.written then (.error .durabilityError, prep)
  else
    let prep := { prep with published := true }
    if a.forked then (.ok state, prep)
    else abortThen a state.newMeta prep (rollBackUnarmed a)

/-- The mission that is prepared. -/
def preparedState (generation : ℤ) (newMeta : Option WorkerMeta) : RollbackState where
  schemaVersion := ROLLBACK_SCHEMA_VERSION
  generation := generation
  status := .pending
  commit := commit
  previousCommit := previousCommit
  deadline := PyFloat.add (.finite w.now) options.confirmWindowSeconds
  repo := options.repo
  uvPath := options.uvPath
  stopGraceSeconds := options.stopGraceSeconds
  gitTimeoutSeconds := options.gitTimeoutSeconds
  previousRetiring := false
  previousMeta := previous
  newMeta := newMeta
  supervisorOwned := some supervised

/-- The authority gate, the allocation and the publication, behind the read of the mission. -/
def prepareMission (newMeta : Option WorkerMeta) (existing : Option RollbackState) (prep : Prep) :
    Except Exit RollbackState × Prep :=
  if !(authorizeMissionPublish existing && !a.malformed) then
    (refuse (PyStr.ofString "lifecycle authority refuses a new pending mission: a supervised " ++
      PyStr.ofString "checkout is already pending or durable authority is malformed"),
      restorePreviousPrep previousCommit a prep)
  else
    match allocateGeneration py a w.files with
    | .error exc => (.error (.raised exc), prep)
    | .ok generation =>
      let state := preparedState options previous previousCommit commit supervised w generation
        newMeta
      if supervised then (.ok state, prep) else publishLegacyMission a state prep

/-- The database check and the read of the mission, behind the gated candidate. -/
def prepareGated (newMeta : Option WorkerMeta) (prep : Prep) : Except Exit RollbackState × Prep :=
  if !w.postgres then
    abortThen a newMeta prep fun prep =>
      (refuse "stable wrapper cannot reach PostgreSQL before handoff",
        restorePreviousPrep previousCommit a prep)
  else
    match readRollbackState py w.files.mission with
    | .error exc => (.error (.raised exc), prep)
    | .ok existing =>
      prepareMission py options previous previousCommit commit supervised w a newMeta existing prep

/-- `_prepare_locked`, behind the checkout of the candidate. -/
def prepareCandidate (prep : Prep) : Except Exit RollbackState × Prep :=
  match w.validationFailure with
  | some detail => (refuse (PyStr.ofString "candidate validation failed: " ++ detail),
    restorePreviousPrep previousCommit a prep)
  | none =>
    match w.cliFailure with
    | some detail =>
      (refuse (PyStr.ofString "candidate CLI environment could not be built: " ++ detail),
        restorePreviousPrep previousCommit a { prep with cliRoot := a.rootLeft })
    | none =>
      match candidateIdentity options commit supervised w.candidate with
      -- a candidate that did not prove its identity has its gate closed
      | .error exc => (.error (.raised exc), { prep with cliRoot := true })
      | .ok newMeta => prepareGated py options previous previousCommit commit supervised w a newMeta
        { prep with cliRoot := true, gateOpen := newMeta.isSome }

end Steps

/-! ## What is left -/

/-- The previous commit is checked out, the candidate has no root and no live process behind an open
gate, and no mission was published. -/
structure LeavesNothing (previousCommit : PyStr) (alive : Bool) (prep : Prep) : Prop where
  checkout : prep.checkout = previousCommit
  cliRoot : prep.cliRoot = false
  gate : ¬ (prep.gateOpen = true ∧ alive = true)
  unpublished : prep.published = false

/-- Where a preparation raises `DeployCtlError`, it leaves nothing. -/
def FailsClean {α : Type} (previousCommit : PyStr) (alive : Bool) (r : Except Exit α × Prep) :
    Prop :=
  ∀ exit, r.1 = .error exit → exit.IsDeployCtl → LeavesNothing previousCommit alive r.2

/-- The previous commit is checked out again, and a root there is goes. -/
def Restores (a : UndoAnswers) (root : Bool) : Prop :=
  a.restored = true ∧ (root = true → a.removed = true)

/-- The abort of a candidate proves that it is gone. -/
def Reaps (a : AbortAnswers) : Prop :=
  a.exited = true ∨ a.waited = true ∨ a.stopped = true ∧ a.reaped = true

section Undone

variable (py : Interpreter) (options : Options) (commit : PyStr) (supervised : Bool)
  (w : Surroundings) (a : UndoAnswers)

/-- The publication fails, if it does, with another error. -/
def PublicationUndone : Prop :=
  a.written = false ∨ a.forked = true ∨
    (Reaps a.abort ∧ ∃ exit ∈ a.rollbackRaises, ¬ exit.IsDeployCtl)

/-- A refusal of the authority gate finds no live candidate; the allocation does not raise
`DeployCtlError`. -/
def MissionUndone (existing : Option RollbackState) : Prop :=
  if (authorizeMissionPublish existing && !a.malformed) = false then
    Restores a true ∧ (supervised = true ∨ a.alive = false)
  else
    match allocateGeneration py a w.files with
    | .error exc => exc.isRaised .DeployCtlError = false
    | .ok _ => supervised = true ∨ PublicationUndone a

/-- A failed database check reaps the candidate; the read of the mission does not raise
`DeployCtlError`. -/
def GatedUndone : Prop :=
  if w.postgres = false then (supervised = true ∨ Reaps a.abort) ∧ Restores a true
  else
    match readRollbackState py w.files.mission with
    | .error exc => exc.isRaised .DeployCtlError = false
    | .ok existing => MissionUndone py supervised w a existing

/-- **What is undone**: a failed validation or build, when the undoing works, and a candidate has to
prove its identity. -/
def Undone (rootBefore : Bool) : Prop :=
  if w.validationFailure.isSome = true then Restores a rootBefore
  else if w.cliFailure.isSome = true then Restores a a.rootLeft
  else
    (supervised = true ∨ ∃ m, spawnGatedCandidate options commit w.candidate = .ok m) ∧
      GatedUndone py supervised w a

end Undone

/-! ## Step by step -/

section Leaves

variable {py : Interpreter} {options : Options} {previous : WorkerMeta}
  {previousCommit commit : PyStr} {supervised : Bool} {w : Surroundings} {a : UndoAnswers}
  {prep : Prep}

theorem failsClean_error {α : Type} {exit : Exit} {alive : Bool} :
    FailsClean previousCommit alive ((.error exit : Except Exit α), prep) ↔
      (exit.IsDeployCtl → LeavesNothing previousCommit alive prep) :=
  ⟨fun h => h exit rfl, fun h _ heq => Except.error.inj heq ▸ h⟩

theorem failsClean_refuse {α : Type} {msg : PyStr} {alive : Bool} :
    FailsClean previousCommit alive ((refuse msg : Except Exit α), prep) ↔
      LeavesNothing previousCommit alive prep :=
  failsClean_error.trans ⟨fun h => h rfl, fun h _ => h⟩

theorem failsClean_ok {α : Type} {x : α} {alive : Bool} :
    FailsClean previousCommit alive ((.ok x : Except Exit α), prep) := by
  intro exit h
  cases h

/-- With a root or a mission left, it fails clean just when its error is another one. -/
theorem failsClean_left {α : Type} {exit : Exit} {alive : Bool}
    (hleft : prep.cliRoot = true ∨ prep.published = true) :
    FailsClean previousCommit alive ((.error exit : Except Exit α), prep) ↔
      ¬ exit.IsDeployCtl := by
  rw [failsClean_error]
  refine imp_congr_right fun _ => iff_of_false ?_ id
  intro h
  rcases hleft with hroot | hpublished
  · exact Bool.false_ne_true (h.cliRoot.symm.trans hroot)
  · exact Bool.false_ne_true (h.unpublished.symm.trans hpublished)

/-- What an undone preparation leaves. -/
theorem leavesNothing_restored (hcheckout : prep.checkout ≠ previousCommit)
    (hpublished : prep.published = false) :
    LeavesNothing previousCommit a.alive (restorePreviousPrep previousCommit a prep) ↔
      Restores a prep.cliRoot ∧ ¬ (prep.gateOpen = true ∧ a.alive = true) := by
  constructor
  · intro h
    refine ⟨⟨?_, ?_⟩, h.gate⟩
    · by_contra hrestored
      have hsame := h.checkout
      rw [restorePreviousPrep, if_neg hrestored] at hsame
      exact hcheckout hsame
    · intro hroot
      have hgone := h.cliRoot
      simpa [restorePreviousPrep, hroot] using hgone
  · intro ⟨⟨hrestored, hremoved⟩, hgate⟩
    refine ⟨?_, ?_, hgate, hpublished⟩
    · rw [restorePreviousPrep, if_pos hrestored]
    · cases hroot : prep.cliRoot with
      | false => simp [restorePreviousPrep, hroot]
      | true => simp [restorePreviousPrep, hroot, hremoved hroot]

theorem abort_ok_iff {pid : ℤ} : abortGatedCandidate a pid = .ok () ↔ Reaps a.abort := by
  rw [abortGatedCandidate, Reaps]
  cases a.abort.exited <;> cases a.abort.waited <;> cases a.abort.stopped <;>
    cases a.abort.reaped <;> simp [refuse]

theorem abort_error {pid : ℤ} {exit : Exit} (h : abortGatedCandidate a pid = .error exit) :
    exit.IsDeployCtl := by
  rw [abortGatedCandidate] at h
  split_ifs at h
  · cases h
    rfl
  · cases h
    rfl

/-- The abort of a candidate, with a root or a mission left. -/
theorem failsClean_abortThen {α : Type} {m : WorkerMeta} {next : Prep → Except Exit α × Prep}
    (hleft : prep.cliRoot = true ∨ prep.published = true) :
    FailsClean previousCommit a.alive (abortThen a (some m) prep next) ↔
      Reaps a.abort ∧
        FailsClean previousCommit a.alive (next { prep with gateOpen := false }) := by
  rw [abortThen]
  cases habort : abortGatedCandidate a (m.pid.getD 0) with
  | error exit =>
    have hnot : ¬ Reaps a.abort := by
      intro h
      rw [abort_ok_iff.2 h] at habort
      cases habort
    have hclosed : ({ prep with gateOpen := false } : Prep).cliRoot = true ∨
        ({ prep with gateOpen := false } : Prep).published = true := hleft
    exact iff_of_false (fun h => (failsClean_left hclosed).1 h (abort_error habort))
      fun h => hnot h.1
  | ok u => exact (and_iff_right (abort_ok_iff.1 habort)).symm

theorem failsClean_publish {state : RollbackState} {m : WorkerMeta}
    (hm : state.newMeta = some m) :
    FailsClean previousCommit a.alive (publishLegacyMission a state prep) ↔
      PublicationUndone a := by
  rw [publishLegacyMission, PublicationUndone, hm]
  cases a.written with
  | false => simp [failsClean_error, Exit.IsDeployCtl]
  | true =>
    cases a.forked with
    | true => simp [failsClean_ok]
    | false =>
      have hpublished : ({ prep with published := true } : Prep).cliRoot = true ∨
          ({ prep with published := true } : Prep).published = true := .inr rfl
      simp only [Bool.not_true, Bool.false_eq_true, if_false, reduceCtorEq, false_or]
      rw [failsClean_abortThen hpublished]
      refine and_congr_right fun _ => ?_
      rw [rollBackUnarmed]
      cases a.rollbackRaises with
      | none =>
        rw [failsClean_refuse]
        exact iff_of_false (fun h => Bool.false_ne_true h.unpublished.symm) (by simp)
      | some exit =>
        refine (failsClean_left (.inr rfl)).trans ?_
        simp

theorem failsClean_mission {newMeta : Option WorkerMeta} {existing : Option RollbackState}
    (hmeta : newMeta.isSome = !supervised) (hcheckout : prep.checkout ≠ previousCommit)
    (hroot : prep.cliRoot = true) (hgate : prep.gateOpen = newMeta.isSome)
    (hpublished : prep.published = false) :
    FailsClean previousCommit a.alive (prepareMission py options previous previousCommit commit
      supervised w a newMeta existing prep) ↔ MissionUndone py supervised w a existing := by
  rw [prepareMission, MissionUndone]
  cases hauthorized : authorizeMissionPublish existing && !a.malformed with
  | false =>
    rw [if_pos rfl, if_pos Bool.not_false, failsClean_refuse,
      leavesNothing_restored hcheckout hpublished, hroot, hgate, hmeta]
    simp [or_iff_not_imp_left]
  | true =>
    rw [if_neg (by simp), if_neg (by simp)]
    cases allocateGeneration py a w.files with
    | error exc =>
      rw [failsClean_left (.inl hroot)]
      simp [Exit.IsDeployCtl]
    | ok generation =>
      cases supervised with
      | true => simp [failsClean_ok]
      | false =>
        obtain ⟨m, rfl⟩ := Option.isSome_iff_exists.1 hmeta
        simp only [Bool.false_eq_true, if_false, false_or]
        exact failsClean_publish rfl

theorem failsClean_gated {newMeta : Option WorkerMeta} (hmeta : newMeta.isSome = !supervised)
    (hcheckout : prep.checkout ≠ previousCommit) (hroot : prep.cliRoot = true)
    (hgate : prep.gateOpen = newMeta.isSome) (hpublished : prep.published = false) :
    FailsClean previousCommit a.alive (prepareGated py options previous previousCommit commit
      supervised w a newMeta prep) ↔ GatedUndone py supervised w a := by
  rw [prepareGated, GatedUndone]
  cases w.postgres with
  | false =>
    rw [if_pos rfl, if_pos Bool.not_false]
    cases supervised with
    | true =>
      obtain rfl : newMeta = none :=
        Option.isNone_iff_eq_none.1 (Option.isSome_eq_false_iff.1 hmeta)
      rw [abortThen, failsClean_refuse, leavesNothing_restored hcheckout hpublished, hroot, hgate]
      simp
    | false =>
      obtain ⟨m, rfl⟩ := Option.isSome_iff_exists.1 hmeta
      have hclosed : ({ prep with gateOpen := false } : Prep).checkout ≠ previousCommit := hcheckout
      rw [failsClean_abortThen (.inl hroot), failsClean_refuse,
        leavesNothing_restored hclosed hpublished, hroot]
      simp
  | true =>
    rw [if_neg (by simp), if_neg (by simp)]
    cases readRollbackState py w.files.mission with
    | error exc =>
      rw [failsClean_left (.inl hroot)]
      simp [Exit.IsDeployCtl]
    | ok existing => exact failsClean_mission hmeta hcheckout hroot hgate hpublished

/-- A candidate that does not prove its identity is a `DeployCtlError`. -/
theorem candidateIdentity_error {p : GatedProcess} {exc : PyError ErrorClass}
    (h : candidateIdentity options commit supervised p = .error exc) :
    exc.isRaised .DeployCtlError = true ∧
      ¬ (supervised = true ∨ ∃ m, spawnGatedCandidate options commit p = .ok m) := by
  cases supervised with
  | true => cases h
  | false =>
    rw [candidateIdentity, if_neg Bool.false_ne_true] at h
    cases hspawn : spawnGatedCandidate options commit p with
    | ok m =>
      rw [hspawn] at h
      cases h
    | error exc' =>
      rw [hspawn] at h
      obtain rfl := Except.error.inj h
      rw [spawnGatedCandidate] at hspawn
      split at hspawn
      · cases hspawn
      · cases hspawn
        exact ⟨rfl, by simp⟩

theorem candidateIdentity_ok {p : GatedProcess} {newMeta : Option WorkerMeta}
    (h : candidateIdentity options commit supervised p = .ok newMeta) :
    newMeta.isSome = !supervised ∧
      (supervised = true ∨ ∃ m, spawnGatedCandidate options commit p = .ok m) := by
  cases supervised with
  | true =>
    cases h
    exact ⟨rfl, .inl rfl⟩
  | false =>
    rw [candidateIdentity, if_neg Bool.false_ne_true] at h
    cases hspawn : spawnGatedCandidate options commit p with
    | ok m =>
      rw [hspawn] at h
      cases h
      exact ⟨rfl, .inr ⟨m, rfl⟩⟩
    | error exc =>
      rw [hspawn] at h
      cases h

end Leaves

/-- **When a failed preparation leaves nothing behind.** -/
theorem leavesNothing_iff (py : Interpreter) (options : Options) (previous : WorkerMeta)
    (previousCommit commit : PyStr) (supervised : Bool) (w : Surroundings) (a : UndoAnswers)
    (hne : commit ≠ previousCommit) (rootBefore : Bool) :
    FailsClean previousCommit a.alive (prepareCandidate py options previous previousCommit commit
      supervised w a ⟨commit, rootBefore, false, false⟩) ↔
        Undone py options commit supervised w a rootBefore := by
  rw [prepareCandidate, Undone]
  cases w.validationFailure with
  | some detail =>
    simp only [Option.isSome_some, if_true]
    rw [failsClean_refuse, leavesNothing_restored hne rfl]
    simp
  | none =>
    rw [if_neg (by simp)]
    cases w.cliFailure with
    | some detail =>
      simp only [Option.isSome_some, if_true]
      rw [failsClean_refuse, leavesNothing_restored hne rfl]
      simp
    | none =>
      rw [if_neg (by simp)]
      cases hidentity : candidateIdentity options commit supervised w.candidate with
      | error exc =>
        obtain ⟨hraised, hnot⟩ := candidateIdentity_error hidentity
        refine (failsClean_left (.inl rfl)).trans (iff_of_false ?_ fun h => hnot h.1)
        exact fun h => h hraised
      | ok newMeta =>
        obtain ⟨hmeta, hproved⟩ := candidateIdentity_ok hidentity
        rw [and_iff_right hproved]
        exact failsClean_gated hmeta hne rfl rfl rfl

/-! ## The mission that is returned -/

/-- The checks before the checkout of the candidate pass, and it succeeds. -/
structure Reached (py : Interpreter) (previous : WorkerMeta) (previousCommit commit : PyStr)
    (w : Surroundings) : Prop where
  cleanup : w.cleanup = .ok ()
  knownGood : (readMeta py w.metaFile >>= knownGood w) = .ok (previous, previousCommit)
  previousExact : requireExactCommit w previousCommit = .ok ()
  exact : requireExactCommit w commit = .ok ()
  ne : commit ≠ previousCommit
  provenance : w.provenance = .ok ()
  clean : w.cleanCheckout = .ok ()
  checkedOut : w.checkedOut = true

theorem requireThat_ok {holds : Bool} (h : holds = true) (msg : PyStr) :
    requireThat holds msg = .ok () := by
  rw [requireThat, if_pos h]

/-- What raises in any case, raises behind the abort. -/
theorem abortThen_raises {α : Type} {a : UndoAnswers} {newMeta : Option WorkerMeta} {prep : Prep}
    {next : Prep → Except Exit α × Prep} (hnext : ∀ prep, ∃ exit, (next prep).1 = .error exit) :
    ∃ exit, (abortThen a newMeta prep next).1 = .error exit := by
  cases newMeta with
  | none => exact hnext prep
  | some m =>
    rw [abortThen]
    cases abortGatedCandidate a (m.pid.getD 0) with
    | error exit => exact ⟨exit, rfl⟩
    | ok u => exact hnext _

theorem rollBackUnarmed_raises (a : UndoAnswers) (prep : Prep) :
    ∃ exit, (rollBackUnarmed a prep).1 = .error exit := by
  rw [rollBackUnarmed]
  cases a.rollbackRaises with
  | none => exact ⟨_, rfl⟩
  | some exit => exact ⟨exit, rfl⟩

/-- A mission that is returned is the one that was prepared. -/
theorem publishLegacyMission_ok {a : UndoAnswers} {state state' : RollbackState}
    {prep prep' : Prep} (h : publishLegacyMission a state prep = (.ok state', prep')) :
    state = state' := by
  rw [publishLegacyMission] at h
  cases hwritten : a.written with
  | false =>
    rw [hwritten] at h
    cases h
  | true =>
    cases hforked : a.forked with
    | true =>
      rw [hwritten, hforked] at h
      exact Except.ok.inj (Prod.mk.inj h).1
    | false =>
      rw [hwritten, hforked] at h
      simp only [Bool.not_true, Bool.false_eq_true, if_false] at h
      obtain ⟨exit, hraised⟩ := abortThen_raises (rollBackUnarmed_raises a)
      rw [h] at hraised
      cases hraised

section Returned

variable {py : Interpreter} {options : Options} {previous : WorkerMeta}
  {previousCommit commit : PyStr} {supervised : Bool} {w : Surroundings} {a : UndoAnswers}
  {prep prep' : Prep} {state : RollbackState}

/-- What a mission that is returned has passed. -/
theorem prepareGated_ok {newMeta : Option WorkerMeta} (hok : prepareGated py options previous
    previousCommit commit supervised w a newMeta prep = (.ok state, prep')) :
    w.postgres = true ∧ ∃ existing generation,
      readRollbackState py w.files.mission = .ok existing ∧
      authorizeMissionPublish existing = true ∧
      allocateGeneration py a w.files = .ok generation ∧
      state = preparedState options previous previousCommit commit supervised w generation
        newMeta := by
  rw [prepareGated] at hok
  cases hpostgres : w.postgres with
  | false =>
    rw [hpostgres, if_pos Bool.not_false] at hok
    have hrefused (prep : Prep) : ∃ exit,
        ((refuse "stable wrapper cannot reach PostgreSQL before handoff",
          restorePreviousPrep previousCommit a prep) : Except Exit RollbackState × Prep).1 =
            .error exit := ⟨_, rfl⟩
    obtain ⟨exit, hraised⟩ := abortThen_raises hrefused
    rw [hok] at hraised
    cases hraised
  | true =>
    rw [hpostgres, if_neg (by simp)] at hok
    refine ⟨rfl, ?_⟩
    cases hread : readRollbackState py w.files.mission with
    | error exc =>
      rw [hread] at hok
      cases hok
    | ok existing =>
      rw [hread] at hok
      dsimp only at hok
      rw [prepareMission] at hok
      cases hauthorized : authorizeMissionPublish existing && !a.malformed with
      | false =>
        rw [hauthorized, if_pos Bool.not_false] at hok
        cases hok
      | true =>
        rw [hauthorized, if_neg (by simp)] at hok
        cases hallocate : allocateGeneration py a w.files with
        | error exc =>
          rw [hallocate] at hok
          cases hok
        | ok generation =>
          rw [hallocate] at hok
          refine ⟨existing, generation, rfl, (Bool.and_eq_true_iff.1 hauthorized).1, rfl, ?_⟩
          dsimp only at hok
          split_ifs at hok
          · exact (Except.ok.inj (Prod.mk.inj hok).1).symm
          · exact (publishLegacyMission_ok hok).symm

/-- **A preparation that returns a mission returns that of `prepareLocked`**, when the generation is
allocated with the token. -/
theorem prepareCandidate_ok (h : Reached py previous previousCommit commit w)
    (hdirect : a.allocation = .direct)
    (hok : prepareCandidate py options previous previousCommit commit supervised w a prep =
      (.ok state, prep')) : prepareLocked py options commit supervised w = .ok state := by
  rw [prepareCandidate] at hok
  cases hvalidation : w.validationFailure with
  | some detail =>
    rw [hvalidation] at hok
    cases hok
  | none =>
    rw [hvalidation] at hok
    cases hcli : w.cliFailure with
    | some detail =>
      rw [hcli] at hok
      cases hok
    | none =>
      rw [hcli] at hok
      dsimp only at hok
      cases hidentity : candidateIdentity options commit supervised w.candidate with
      | error exc =>
        rw [hidentity] at hok
        cases hok
      | ok newMeta =>
        rw [hidentity] at hok
        obtain ⟨hpostgres, existing, generation, hread, hauthorized, hallocate, rfl⟩ :=
          prepareGated_ok hok
        rw [allocateGeneration, hdirect] at hallocate
        refine except_bind_eq_ok.2 ⟨(), h.cleanup, except_bind_eq_ok.2 ⟨_, h.knownGood, ?_⟩⟩
        refine except_bind_eq_ok.2 ⟨(), h.previousExact, except_bind_eq_ok.2 ⟨(), h.exact, ?_⟩⟩
        refine except_bind_eq_ok.2 ⟨(), requireThat_ok (decide_eq_true h.ne) _, ?_⟩
        refine except_bind_eq_ok.2 ⟨(), h.provenance, except_bind_eq_ok.2 ⟨(), h.clean, ?_⟩⟩
        refine except_bind_eq_ok.2 ⟨(), requireThat_ok h.checkedOut _, ?_⟩
        refine except_bind_eq_ok.2 ⟨(), requireThat_ok (by rw [hvalidation]; rfl) _, ?_⟩
        refine except_bind_eq_ok.2 ⟨(), requireThat_ok (by rw [hcli]; rfl) _, ?_⟩
        refine except_bind_eq_ok.2 ⟨newMeta, hidentity, ?_⟩
        refine except_bind_eq_ok.2 ⟨(), requireThat_ok hpostgres _, ?_⟩
        refine except_bind_eq_ok.2 ⟨existing, hread, ?_⟩
        refine except_bind_eq_ok.2 ⟨(), requireThat_ok hauthorized _, ?_⟩
        exact except_bind_eq_ok.2 ⟨generation, hallocate, rfl⟩

end Returned

/-! ## A candidate that proves no identity -/

/-- The options of a deployment. -/
def someOptions : Options where
  repo := ⟨"repo", rfl⟩
  uvPath := ⟨"uv", rfl⟩
  confirmWindowSeconds := .finite 600
  stopGraceSeconds := .finite 5
  postgresTimeoutSeconds := .finite 2
  lockTimeoutSeconds := .finite 30
  validationTimeoutSeconds := .finite 600
  gitTimeoutSeconds := .finite 30
  cliTimeoutSeconds := .finite 600
  sourceUrl := none

/-- The previous worker. -/
def someWorker : WorkerMeta where
  schemaVersion := META_SCHEMA_VERSION
  state := .running
  pid := some 7
  pgid := some 7
  sid := some 7
  startTimeTicks := some 1
  token := some "t"
  repo := "repo"
  gitCommit := some "a"
  workerId := none
  logPath := "log"
  startedAt := some 0
  stoppedAt := none

/-- Every step succeeds, but the process that is started dies before its identity is proved. -/
def diesEarly : Surroundings where
  cleanup := .ok ()
  metaFile := .absent false
  workerAlive _ := true
  revParse _ := .ok ()
  provenance := .ok ()
  cleanCheckout := .ok ()
  checkedOut := true
  validationFailure := none
  cliFailure := none
  candidate :=
    { pid := 9, identity := none, token := ⟨"u", rfl⟩, workerId := none, hostname := ⟨"h", rfl⟩,
      logPath := ⟨"log", rfl⟩, startedAt := epoch, pid_pos := by decide }
  postgres := true
  files := unusedFiles []
  now := epoch

/-- Whatever is undone, is undone. -/
def undoing : UndoAnswers where
  restored := true
  removed := true
  rootLeft := false
  abort := ⟨true, true, true, true⟩
  malformed := false
  allocation := .direct
  written := true
  forked := true
  rollbackCheckout := "a"
  rollbackRoot := false
  rollbackRaises := none
  alive := false

/-- A validation that fails is undone. -/
theorem leavesNothing_iff_validation :
    FailsClean "a" false (prepareCandidate plainInterpreter someOptions someWorker "a" "b" false
      { diesEarly with validationFailure := some "tests failed" } undoing
      ⟨"b", true, false, false⟩) :=
  (leavesNothing_iff plainInterpreter someOptions someWorker "a" "b" false
    { diesEarly with validationFailure := some "tests failed" } undoing (by decide) true).2
      ⟨rfl, fun _ => rfl⟩

/-- A candidate that dies early leaves its checkout and its root. -/
theorem early_death_leaves_checkout : ¬ ∀ py options previous previousCommit commit supervised w a,
    commit ≠ previousCommit → ∀ rootBefore,
      FailsClean previousCommit a.alive (prepareCandidate py options previous previousCommit commit
        supervised w a ⟨commit, rootBefore, false, false⟩) := by
  intro h
  have hclean := h plainInterpreter someOptions someWorker "a" "b" false diesEarly undoing
    (by decide) true _ rfl rfl
  exact absurd hclean.checkout (by decide)

end Lubko.Deploy
