import Lubko.Lib.CrashProgram
import Lubko.Lib.Execution
import Lubko.Supervise.Obligation

/-!
# Maintenance writes beside a manual recovery

The daemon rewrites `state.json` from snapshots it read at any earlier moment, always through the
merging writer, and a manual `recover` or `repair` writes the spawning obligation directly inside a
section of the consumer lock. A section is a program whose calls read or write the file, so that a
crash ends it after any call. A ghost list keeps the tokens whose obligation was durably written and
not explicitly cleared since.

* `maintain_keeps_authority` — a publication keeps every hold it finds, and the two records.
* `recoverConsumerLocked_safe`, `releaseAdoption_safe` — what every call of a section leaves behind.
* `blocking_authority_kept` — over every interleaving, what is owed is carried.
-/

namespace Lubko.Supervise.Recovery

open Lubko.Lib

/-! ## Publications of the daemon -/

/-- The rewrites the daemon publishes, with the values each one takes from elsewhere. -/
inductive Maintenance where
  /-- `normalize_cross_boot_state` -/
  | normalized (bootId : Option PyStr)
  /-- `_persist_runtime_commit` -/
  | runtimeCommit (commit : Option PyStr)
  /-- `reconcile`, which materializes an ownership hold -/
  | holdMaterialized
  /-- `_record_mission_progress` -/
  | missionProgress (generation : ℤ)
  /-- `_apply_desired`, when the candidate is not launchable or the worker was not retired -/
  | attemptDeferred (nextAttemptAt : ℚ)
  /-- `_apply_desired` -/
  | desiredApplied (generation : ℤ) (commit : PyStr) (preserveReadiness : Bool)
  /-- `_probe_readiness` -/
  | provenReady
  /-- `_record_not_ready` -/
  | notReady (nextReadinessAt : ℚ)
  /-- `_record_health_retirement` -/
  | healthRetirement (nextAttemptAt : ℚ)
  /-- `_retire_child` -/
  | childRetired
  /-- `_clear_child` -/
  | childCleared
  /-- `_handle_crash`, when the owned groups were not recovered -/
  | crashHeld (lastExit : LastExit) (nextAttemptAt : ℚ)
  /-- `_handle_crash` -/
  | crashRecorded (lastExit : LastExit) (nextAttemptAt : ℚ)
  /-- `_handle_db_crash`, which reads the restart count separately -/
  | dbCrashRecorded (restartCount : ℤ) (lastExit : LastExit) (nextAttemptAt : ℚ)
  /-- `_maybe_reset_backoff` -/
  | backoffReset
  /-- `_handle_set_spawning_obligation` and `_handle_clear_spawning_obligation` -/
  | spawningAsked (spawning : Option SpawningObligation)

/-- The state a rewrite hands to the merging writer, from the snapshot it was made of; `none` when
it returns before the write. -/
def Maintenance.snapshot (m : Maintenance) (state : SupervisorState) : Option SupervisorState :=
  match m with
  | .normalized bootId =>
    if state.ownershipHoldMalformed then none
    else if state.bootId = bootId ∧ bootId ≠ none then none
    else some { state with bootId, nextAttemptAt := none, lastSpawnAt := none,
                           nextReadinessAt := none, ready := false }
  | .runtimeCommit commit =>
    if state.supervisorRuntimeCommit = commit then none
    else some { state with supervisorRuntimeCommit := commit }
  | .holdMaterialized => if state.ownershipHoldMalformed then some state else none
  | .missionProgress generation => some { state with appliedGeneration := generation }
  | .attemptDeferred nextAttemptAt => some { state with nextAttemptAt := some nextAttemptAt }
  | .desiredApplied generation commit preserveReadiness =>
    some { state with
      appliedGeneration := generation
      mode := .run
      commit := some commit
      intent := .run
      restartCount := 0
      nextAttemptAt := none
      ready := if preserveReadiness then state.ready else false
      nextReadinessAt := if preserveReadiness then state.nextReadinessAt else none }
  | .provenReady => some { state with ready := true, nextReadinessAt := none }
  | .notReady nextReadinessAt =>
    some { state with ready := false, nextReadinessAt := some nextReadinessAt }
  | .healthRetirement nextAttemptAt =>
    some { state with restartCount := state.restartCount + 1, nextAttemptAt := some nextAttemptAt,
                      intent := .run, ready := false, nextReadinessAt := none }
  | .childRetired => some { state with child := none, ready := false, nextReadinessAt := none }
  | .childCleared => some { state with child := none }
  | .crashHeld lastExit nextAttemptAt =>
    some { state with lastExit := some lastExit, intent := .run,
                      nextAttemptAt := some nextAttemptAt, ready := false, nextReadinessAt := none }
  | .crashRecorded lastExit nextAttemptAt =>
    some { state with restartCount := state.restartCount + 1, nextAttemptAt := some nextAttemptAt,
                      lastExit := some lastExit, intent := .run, child := none }
  | .dbCrashRecorded restartCount lastExit nextAttemptAt =>
    some { state with restartCount, nextAttemptAt := some nextAttemptAt,
                      lastExit := some lastExit, intent := .run, child := none }
  | .backoffReset => some { state with restartCount := 0, nextAttemptAt := none, lastExit := none }
  | .spawningAsked spawning => some { state with spawning }

/-- How a write of `state.json` ends: confirmed, or raised with the file replaced or not. A writer
that did not get the lock in time raises and replaces nothing. -/
inductive WriteEnd where
  | durable
  | raised (replaced : Bool)
  deriving DecidableEq

/-- What `state.json` holds, and the tokens of the obligations that were durably written and not
explicitly cleared since. -/
structure World where
  file : FileContent
  owed : List PyStr

section Semantics

variable (floatRepr : ℚ → List Char)

/-- The file a write leaves: what a confirmed one leaves, unless it raised without replacing it. -/
def leaves (written : Except PyStr FileContent) (before : FileContent) : WriteEnd → FileContent
  | .raised false => before
  | _ =>
    match written with
    | .ok file => file
    | .error _ => before

/-- One publication through the merging writer. -/
def maintain (m : Maintenance) (seen : SupervisorState) (e : WriteEnd) (w : World) : World :=
  match m.snapshot seen with
  | none => w
  | some state =>
    let written := writeStatePreservingAuthority floatRepr state
      { locked := true, current := w.file, confirmed := true }
    { w with file := leaves written w.file e }

/-! ## Calls of a recovery section -/

/-- The calls a section makes on `state.json`; a clear names the token whose obligation it is meant
for. -/
inductive RecoveryCall where
  | readState
  | setSpawning (obligation : SpawningObligation)
  | clearSpawning (token : PyStr)

/-- What a call returns: a state, whether a write was confirmed, or an exception that no caller
catches. -/
inductive Reply where
  | state (state : SupervisorState)
  | written (confirmed : Bool)
  | raised (exc : PyStr)

/-- `set_spawning_obligation_client` and `clear_spawning_obligation_client` with the token: a read,
and a write of the same state with the record replaced. -/
def sem : RecoveryCall → WriteEnd → World → Reply × World
  | .readState, _, w =>
    match readState w.file with
    | .ok state => (.state state, w)
    | .error exc => (.raised exc, w)
  | .setSpawning obligation, e, w =>
    match writeSpawningDirectly floatRepr (some obligation) w.file true with
    | .error exc => (.raised exc, w)
    | .ok file =>
      (.written (e = .durable),
        { file := leaves (.ok file) w.file e
          owed := if e = .durable then obligation.token :: w.owed else w.owed })
  | .clearSpawning token, e, w =>
    match writeSpawningDirectly floatRepr none w.file true with
    | .error exc => (.raised exc, w)
    | .ok file =>
      (.written (e = .durable),
        { file := leaves (.ok file) w.file e, owed := w.owed.filter (· ≠ token) })

end Semantics

/-! ## `recover` and `repair` -/

/-- A program of a section. -/
abbrev Section := Prog RecoveryCall Reply PyStr

/-- `read_state_client`. -/
def readStateClient : Section SupervisorState :=
  .call .readState fun
    | .state state => .ret state
    | .written _ => .raise "unexpected reply"
    | .raised exc => .raise exc

/-- The result of a write that catches `DurabilityError`. -/
def confirmed : Reply → Section Bool
  | .written b => .ret b
  | .state _ => .raise "unexpected reply"
  | .raised exc => .raise exc

/-- `_write_spawning_obligation`. -/
def writeSpawningObligation (obligation : SpawningObligation) : Section Bool :=
  .call (.setSpawning obligation) confirmed

/-- `_clear_spawning_obligation`, where the caller means the obligation of `token`. -/
def clearSpawningObligation (token : PyStr) : Section Bool :=
  .call (.clearSpawning token) confirmed

/-- What `recover` meets outside `state.json`. -/
structure RecoveryAnswers where
  /-- `_recover_preflight`, which raises or gives the commit -/
  preflight : Option PyStr
  /-- `_obligation_instance_gone` on a recorded process -/
  instanceGone : Bool
  /-- `_recover_owned_groups` of the stale token -/
  staleGroupsRecovered : Bool
  token : PyStr
  creatorPid : ℕ
  creatorTicks : ℕ
  createdAt : ℚ
  bootId : Option PyStr
  /-- `spawn_worker`, which raises `OSError` or gives a process -/
  spawned : Option ℕ
  childTicks : Option ℕ
  /-- The worker is live in a session of its own. -/
  adoptable : Bool
  /-- `_recover_owned_groups` of the new token -/
  groupsRecovered : Bool

/-- `_recovery_obligation`. -/
def recoveryObligation (a : RecoveryAnswers) (commit : PyStr) : SpawningObligation where
  token := a.token
  commit := commit
  creatorPid := a.creatorPid
  creatorStartTimeTicks := a.creatorTicks
  pid := none
  startTimeTicks := none
  createdAt := a.createdAt
  bootId := a.bootId
  parentDeathSignal := false

/-- `EXIT_OK` and `EXIT_ERROR`. -/
inductive ExitCode where
  | ok
  | error
  deriving DecidableEq

/-- `_resolve_stale_recovery_obligation`. -/
def resolveStaleRecoveryObligation (a : RecoveryAnswers) : Section Bool := do
  let state ← readStateClient
  if state.spawningHoldMalformed then return false
  match state.spawning with
  | none => return true
  | some obligation =>
    if obligation.pid = none then return false
    if !a.instanceGone then return false
    if !a.staleGroupsRecovered then return false
    clearSpawningObligation obligation.token

/-- `_converge_failed_recovery_worker`. -/
def convergeFailedRecoveryWorker (a : RecoveryAnswers) (token : PyStr) : Section ExitCode := do
  if !a.groupsRecovered then return .error
  let _ ← clearSpawningObligation token
  return .error

/-- `_settle_spawned_recovery_worker`. -/
def settleSpawnedRecoveryWorker (a : RecoveryAnswers) (token : PyStr) : Section ExitCode :=
  if a.adoptable then return .ok
  else convergeFailedRecoveryWorker a token

/-- `_recover_consumer_locked`. -/
def recoverConsumerLocked (a : RecoveryAnswers) : Section ExitCode := do
  match a.preflight with
  | none => return .error
  | some commit =>
    let resolved ← resolveStaleRecoveryObligation a
    if !resolved then return .error
    let obligation := recoveryObligation a commit
    let established ← writeSpawningObligation obligation
    if !established then return .error
    match a.spawned with
    | none =>
      let _ ← clearSpawningObligation obligation.token
      return .error
    | some pid =>
      let _ ← writeSpawningObligation
        { obligation with pid := some pid, startTimeTicks := a.childTicks.map Int.ofNat }
      settleSpawnedRecoveryWorker a obligation.token

/-- What `repair` meets outside `state.json`: the metadata of the worker it adopts, whether that is
still what was validated, and whether the queue verification succeeds. -/
structure RepairAnswers where
  pid : Option ℤ
  startTimeTicks : Option ℤ
  token : Option PyStr
  stale : Bool
  consumed : Bool

/-- `_adoption_matches_obligation`. -/
def adoptionMatchesObligation (obligation : SpawningObligation) (newMeta : RepairAnswers) : Bool :=
  obligation.pid = newMeta.pid && obligation.startTimeTicks = newMeta.startTimeTicks &&
    some obligation.token = newMeta.token && !obligation.parentDeathSignal

/-- `_pre_adoption_authority_error` is `None`. -/
def preAdoptionAuthorityOk (a : RepairAnswers) : Section Bool := do
  let state ← readStateClient
  if state.spawningHoldMalformed then return false
  return state.spawning.all (adoptionMatchesObligation · a)

/-- `_release_adoption_authority` returns `None`. -/
def releaseAdoptionAuthority (a : RepairAnswers) : Section Bool := do
  let current ← readStateClient
  if current.spawningHoldMalformed then return false
  match current.spawning with
  | none => return true
  | some obligation =>
    if !adoptionMatchesObligation obligation a then return false
    clearSpawningObligation obligation.token

/-- `_repair_authority_transition_locked`. -/
def repairAuthorityTransitionLocked (a : RepairAnswers) : Section ExitCode := do
  if a.stale then return .error
  let ok ← preAdoptionAuthorityOk a
  if !ok then return .error
  if !a.consumed then return .error
  let released ← releaseAdoptionAuthority a
  return if released then .ok else .error

/-! ## Interleavings -/

/-- A publication from any snapshot, or a section of the consumer lock that is carried out as far
as its list of write results goes. -/
inductive Label where
  | maintain (m : Maintenance) (seen : SupervisorState) (e : WriteEnd)
  | recover (a : RecoveryAnswers) (ends : List WriteEnd)
  | repair (a : RepairAnswers) (ends : List WriteEnd)

/-- One section of the consumer lock. -/
def step (floatRepr : ℚ → List Char) (w : World) : Label → Option World
  | .maintain m seen e => some (maintain floatRepr m seen e w)
  | .recover a ends => some ((recoverConsumerLocked a).run (sem floatRepr) ends w).1
  | .repair a ends => some ((repairAuthorityTransitionLocked a).run (sem floatRepr) ends w).1

/-! ## What may be written -/

/-- The values of a rewrite are what their sources give: non-negative generations and moments, a
boot identity that is not empty, and strings as Python keeps them. -/
def Maintenance.WellFormed : Maintenance → Prop
  | .normalized bootId => ∀ b ∈ bootId, b ≠ [] ∧ Joined b
  | .runtimeCommit commit => ∀ c ∈ commit, Joined c
  | .missionProgress generation => 0 ≤ generation
  | .desiredApplied generation commit _ => 0 ≤ generation ∧ Joined commit
  | .notReady nextReadinessAt => 0 ≤ nextReadinessAt
  | .crashHeld lastExit _ => 0 ≤ lastExit.moment
  | .crashRecorded lastExit _ => 0 ≤ lastExit.moment
  | .dbCrashRecorded restartCount lastExit _ => 0 ≤ restartCount ∧ 0 ≤ lastExit.moment
  | .spawningAsked spawning => ∀ o ∈ spawning, o.Valid Joined
  | _ => True

/-- The floats a rewrite brings. -/
def Maintenance.floats : Maintenance → List ℚ
  | .attemptDeferred nextAttemptAt => [nextAttemptAt]
  | .notReady nextReadinessAt => [nextReadinessAt]
  | .healthRetirement nextAttemptAt => [nextAttemptAt]
  | .crashHeld lastExit nextAttemptAt => [lastExit.moment, nextAttemptAt]
  | .crashRecorded lastExit nextAttemptAt => [lastExit.moment, nextAttemptAt]
  | .dbCrashRecorded _ lastExit nextAttemptAt => [lastExit.moment, nextAttemptAt]
  | .spawningAsked spawning => spawning.toList.map SpawningObligation.createdAt
  | _ => []

/-- What the operating system gives a recovery: a token of hexadecimal digits, strings, and a
moment. -/
structure RecoveryAnswers.WellFormed (a : RecoveryAnswers) : Prop where
  token : validIncarnationToken a.token = true
  tokenText : Joined a.token
  commitText : ∀ c ∈ a.preflight, Joined c
  createdAt : 0 ≤ a.createdAt
  bootText : ∀ b ∈ a.bootId, Joined b

/-- The values of a label are well formed, a snapshot was read from some content of the file, and
the floats are read back from what is written. -/
def Label.Admissible (floatRepr : ℚ → List Char) : Label → Prop
  | .maintain m seen _ => m.WellFormed ∧ (∃ file, readState file = .ok seen) ∧
      ∀ x ∈ m.floats ++ seen.floats, ReadsBack floatRepr x
  | .recover a _ => a.WellFormed ∧ ReadsBack floatRepr a.createdAt
  | .repair _ _ => True

/-- A rewrite of a valid state is valid. -/
theorem Maintenance.snapshot_valid {m : Maintenance} (hm : m.WellFormed) {seen s : SupervisorState}
    (hs : seen.Valid Joined) (h : m.snapshot seen = some s) : s.Valid Joined := by
  have hcount : 0 ≤ seen.restartCount + 1 := by
    have := hs.restartCount
    omega
  cases m with
  | normalized bootId =>
    simp only [snapshot] at h
    split_ifs at h
    obtain rfl := Option.some.inj h
    exact { hs with
      lastSpawnAt := nofun
      nextReadinessAt := nofun
      bootId := fun b hb => (hm b hb).1
      bootText := fun b hb => (hm b hb).2 }
  | runtimeCommit commit =>
    simp only [snapshot] at h
    split_ifs at h
    obtain rfl := Option.some.inj h
    exact { hs with runtimeText := hm }
  | holdMaterialized =>
    simp only [snapshot] at h
    split_ifs at h
    obtain rfl := Option.some.inj h
    exact hs
  | missionProgress generation =>
    obtain rfl := Option.some.inj h
    exact { hs with generation := hm }
  | attemptDeferred nextAttemptAt =>
    obtain rfl := Option.some.inj h
    exact { hs with }
  | desiredApplied generation commit preserveReadiness =>
    obtain rfl := Option.some.inj h
    refine { hs with
      generation := hm.1
      commitText := fun c hc => Option.some.inj hc ▸ hm.2
      restartCount := le_refl _
      nextReadinessAt := ?_ }
    intro x hx
    cases preserveReadiness with
    | true => exact hs.nextReadinessAt x hx
    | false => cases hx
  | provenReady =>
    obtain rfl := Option.some.inj h
    exact { hs with nextReadinessAt := nofun }
  | notReady nextReadinessAt =>
    obtain rfl := Option.some.inj h
    exact { hs with nextReadinessAt := fun x hx => Option.some.inj hx ▸ hm }
  | healthRetirement nextAttemptAt =>
    obtain rfl := Option.some.inj h
    exact { hs with restartCount := hcount, nextReadinessAt := nofun }
  | childRetired =>
    obtain rfl := Option.some.inj h
    exact { hs with child := nofun, nextReadinessAt := nofun }
  | childCleared =>
    obtain rfl := Option.some.inj h
    exact { hs with child := nofun }
  | crashHeld lastExit nextAttemptAt =>
    obtain rfl := Option.some.inj h
    exact { hs with
      lastExit := fun e he => Option.some.inj he ▸ hm
      nextReadinessAt := nofun }
  | crashRecorded lastExit nextAttemptAt =>
    obtain rfl := Option.some.inj h
    exact { hs with
      restartCount := hcount
      lastExit := fun e he => Option.some.inj he ▸ hm
      child := nofun }
  | dbCrashRecorded restartCount lastExit nextAttemptAt =>
    obtain rfl := Option.some.inj h
    exact { hs with
      restartCount := hm.1
      lastExit := fun e he => Option.some.inj he ▸ hm.2
      child := nofun }
  | backoffReset =>
    obtain rfl := Option.some.inj h
    exact { hs with restartCount := le_refl _, lastExit := nofun }
  | spawningAsked spawning =>
    obtain rfl := Option.some.inj h
    exact { hs with spawning := hm }

/-- A rewrite brings no floats but its own. -/
theorem Maintenance.snapshot_floats {Q : ℚ → Prop} {m : Maintenance} (hm : ∀ x ∈ m.floats, Q x)
    {seen s : SupervisorState} (hs : seen.FloatsSatisfy Q) (h : m.snapshot seen = some s) :
    s.FloatsSatisfy Q := by
  have hone : ∀ {x y : ℚ}, Q x → some x = some y → Q y := fun hx hy => Option.some.inj hy ▸ hx
  have hexit : ∀ {x y : LastExit}, Q x.moment → some x = some y → Q y.moment :=
    fun hx hy => Option.some.inj hy ▸ hx
  cases m with
  | normalized bootId =>
    simp only [snapshot] at h
    split_ifs at h
    obtain rfl := Option.some.inj h
    exact { hs with nextAttemptAt := nofun, lastSpawnAt := nofun, nextReadinessAt := nofun }
  | runtimeCommit commit =>
    simp only [snapshot] at h
    split_ifs at h
    obtain rfl := Option.some.inj h
    exact { hs with }
  | holdMaterialized =>
    simp only [snapshot] at h
    split_ifs at h
    obtain rfl := Option.some.inj h
    exact hs
  | missionProgress generation =>
    obtain rfl := Option.some.inj h
    exact { hs with }
  | attemptDeferred nextAttemptAt =>
    obtain rfl := Option.some.inj h
    exact { hs with nextAttemptAt := fun x hx => hone (hm nextAttemptAt (by simp [floats])) hx }
  | desiredApplied generation commit preserveReadiness =>
    obtain rfl := Option.some.inj h
    refine { hs with nextAttemptAt := nofun, nextReadinessAt := ?_ }
    intro x hx
    cases preserveReadiness with
    | true => exact hs.nextReadinessAt x hx
    | false => cases hx
  | provenReady =>
    obtain rfl := Option.some.inj h
    exact { hs with nextReadinessAt := nofun }
  | notReady nextReadinessAt =>
    obtain rfl := Option.some.inj h
    exact { hs with nextReadinessAt := fun x hx => hone (hm nextReadinessAt (by simp [floats])) hx }
  | healthRetirement nextAttemptAt =>
    obtain rfl := Option.some.inj h
    exact { hs with
      nextAttemptAt := fun x hx => hone (hm nextAttemptAt (by simp [floats])) hx
      nextReadinessAt := nofun }
  | childRetired =>
    obtain rfl := Option.some.inj h
    exact { hs with child := nofun, nextReadinessAt := nofun }
  | childCleared =>
    obtain rfl := Option.some.inj h
    exact { hs with child := nofun }
  | crashHeld lastExit nextAttemptAt =>
    obtain rfl := Option.some.inj h
    exact { hs with
      lastExit := fun e he => hexit (hm lastExit.moment (by simp [floats])) he
      nextAttemptAt := fun x hx => hone (hm nextAttemptAt (by simp [floats])) hx
      nextReadinessAt := nofun }
  | crashRecorded lastExit nextAttemptAt =>
    obtain rfl := Option.some.inj h
    exact { hs with
      lastExit := fun e he => hexit (hm lastExit.moment (by simp [floats])) he
      nextAttemptAt := fun x hx => hone (hm nextAttemptAt (by simp [floats])) hx
      child := nofun }
  | dbCrashRecorded restartCount lastExit nextAttemptAt =>
    obtain rfl := Option.some.inj h
    exact { hs with
      lastExit := fun e he => hexit (hm lastExit.moment (by simp [floats])) he
      nextAttemptAt := fun x hx => hone (hm nextAttemptAt (by simp [floats])) hx
      child := nofun }
  | backoffReset =>
    obtain rfl := Option.some.inj h
    exact { hs with nextAttemptAt := nofun, lastExit := nofun }
  | spawningAsked spawning =>
    obtain rfl := Option.some.inj h
    refine { hs with spawning := ?_ }
    intro o ho
    exact hm o.createdAt (List.mem_map.2 ⟨o, Option.mem_toList.2 ho, rfl⟩)

/-- The obligation a recovery establishes, and the one that names its process, are valid. -/
theorem recoveryObligation_valid {a : RecoveryAnswers} (ha : a.WellFormed) {commit : PyStr}
    (hcommit : a.preflight = some commit) : (recoveryObligation a commit).Valid Joined where
  token := ha.token
  tokenText := ha.tokenText
  commitText := ha.commitText commit hcommit
  creatorPid := Int.natCast_nonneg _
  creatorTicks := Int.natCast_nonneg _
  pid := nofun
  ticks := nofun
  createdAt := ha.createdAt
  bootText := ha.bootText

theorem recoveryObligation_published_valid {a : RecoveryAnswers} (ha : a.WellFormed)
    {commit : PyStr} (hcommit : a.preflight = some commit) (pid : ℕ) :
    { recoveryObligation a commit with
      pid := some (pid : ℤ), startTimeTicks := a.childTicks.map Int.ofNat }.Valid Joined := by
  refine { recoveryObligation_valid ha hcommit with pid := ?_, ticks := ?_ }
  · intro n hn
    obtain rfl := Option.some.inj hn
    exact Int.natCast_nonneg pid
  · intro n hn
    obtain ⟨t, -, rfl⟩ := Option.map_eq_some_iff.1 hn
    exact Int.natCast_nonneg t

/-- A rewrite of what was read under the lock, as `_retire_child` makes it inside a section, needs
no merge: but for the two handlers, no rewrite touches the blocking authority. -/
theorem Maintenance.preserveAuthority_snapshot {m : Maintenance} {current s : SupervisorState}
    (h : m.snapshot current = some s) (hm : ∀ spawning, m ≠ .spawningAsked spawning) :
    preserveAuthority s current = s := by
  cases m with
  | normalized bootId =>
    simp only [snapshot] at h
    split_ifs at h
    obtain rfl := Option.some.inj h
    rfl
  | runtimeCommit commit =>
    simp only [snapshot] at h
    split_ifs at h
    obtain rfl := Option.some.inj h
    rfl
  | holdMaterialized =>
    simp only [snapshot] at h
    split_ifs at h
    obtain rfl := Option.some.inj h
    rfl
  | spawningAsked spawning => exact absurd rfl (hm spawning)
  | _ =>
    obtain rfl := Option.some.inj h
    rfl

/-! ## What is kept -/

/-- A reader of the file finds the obligation of the token, or the hold of a malformed one. -/
def Carries (file : FileContent) (token : PyStr) : Prop :=
  ∃ s, readState file = .ok s ∧
    ((∃ o ∈ s.spawning, o.token = token) ∨ s.spawningHoldMalformed = true)

/-- A reader of the file after a publication finds the holds and the records of before it. -/
def AuthorityKept (before after : FileContent) : Prop :=
  ∀ s, readState before = .ok s → ∃ s', readState after = .ok s' ∧
    s'.spawning = s.spawning ∧ s'.spawningHoldMalformed = s.spawningHoldMalformed ∧
    s'.unresolvedChild = s.unresolvedChild ∧
    s'.unresolvedHoldMalformed = s.unresolvedHoldMalformed ∧
    s'.ownershipHoldMalformed = s.ownershipHoldMalformed

theorem AuthorityKept.refl (file : FileContent) : AuthorityKept file file :=
  fun s hs => ⟨s, hs, rfl, rfl, rfl, rfl, rfl⟩

theorem AuthorityKept.carries {before after : FileContent} (h : AuthorityKept before after)
    {token : PyStr} (hc : Carries before token) : Carries after token := by
  obtain ⟨s, hs, hauthority⟩ := hc
  obtain ⟨s', hs', hspawning, hhold, -⟩ := h s hs
  refine ⟨s', hs', ?_⟩
  rw [hspawning, hhold]
  exact hauthority

section Kept

variable {floatRepr : ℚ → List Char}

/-- The file is read as a state whose floats are read back once more. -/
def Floats (floatRepr : ℚ → List Char) (file : FileContent) : Prop :=
  ∀ s, readState file = .ok s → s.FloatsReadBack floatRepr

theorem leaves_error (exc : PyStr) (before : FileContent) (e : WriteEnd) :
    leaves (.error exc) before e = before := by
  cases e with
  | durable => rfl
  | raised replaced => cases replaced <;> rfl

theorem leaves_ok (file before : FileContent) (e : WriteEnd) :
    leaves (.ok file) before e = file ∨ e ≠ .durable ∧ leaves (.ok file) before e = before := by
  cases e with
  | durable => exact .inl rfl
  | raised replaced => cases replaced with
    | true => exact .inl rfl
    | false => exact .inr ⟨nofun, rfl⟩

/-- **A publication keeps the blocking authority**, whatever snapshot it was made of and however its
write ends. -/
theorem maintain_keeps_authority {m : Maintenance} {seen : SupervisorState} {e : WriteEnd}
    {w : World} (hl : (Label.maintain m seen e).Admissible floatRepr)
    (hf : Floats floatRepr w.file) :
    AuthorityKept w.file (maintain floatRepr m seen e w).file ∧
      Floats floatRepr (maintain floatRepr m seen e w).file := by
  obtain ⟨hm, ⟨source, hsource⟩, hfloats⟩ := hl
  cases hsnapshot : m.snapshot seen with
  | none =>
    simp only [maintain, hsnapshot]
    exact ⟨.refl _, hf⟩
  | some state =>
    have hvalid := Maintenance.snapshot_valid hm (readState_valid hsource) hsnapshot
    have hx : state.FloatsReadBack floatRepr :=
      Maintenance.snapshot_floats (fun x hx => hfloats x (List.mem_append_left _ hx))
        (SupervisorState.floatsSatisfy_of_mem fun x hx => hfloats x (List.mem_append_right _ hx))
        hsnapshot
    simp only [maintain, hsnapshot]
    cases hcurrent : readState w.file with
    | error exc =>
      have herror : writeStatePreservingAuthority floatRepr state
          { locked := true, current := w.file, confirmed := true } = .error exc := by
        simp only [writeStatePreservingAuthority, hcurrent]
        rfl
      rw [herror, leaves_error]
      exact ⟨.refl _, hf⟩
    | ok current =>
      have hwritten : writeStatePreservingAuthority floatRepr state
          { locked := true, current := w.file, confirmed := true } =
            .ok (.text ((preserveAuthority state current).fileText floatRepr)) :=
        writeStatePreservingAuthority_eq_ok.2 ⟨rfl, rfl, current, hcurrent, rfl⟩
      rw [hwritten]
      have hread : readState (.text ((preserveAuthority state current).fileText floatRepr)) =
          .ok (preserveAuthority state current) :=
        readState_fileText (preserveAuthority_valid hvalid (readState_valid hcurrent))
          (preserveAuthority_floats hx (hf current hcurrent))
      rcases leaves_ok (.text ((preserveAuthority state current).fileText floatRepr)) w.file e with
        h | ⟨-, h⟩
      · rw [h]
        refine ⟨?_, ?_⟩
        · intro s hs
          obtain rfl := Except.ok.inj (hcurrent.symm.trans hs)
          exact ⟨_, hread, rfl, rfl, rfl, rfl, rfl⟩
        · intro s hs
          obtain rfl := Except.ok.inj (hread.symm.trans hs)
          exact preserveAuthority_floats hx (hf current hcurrent)
      · rw [h]
        exact ⟨.refl _, hf⟩

/-! ## Sections -/

/-- What is owed is carried. -/
structure Held (floatRepr : ℚ → List Char) (w : World) : Prop where
  carried : ∀ token ∈ w.owed, Carries w.file token
  floats : Floats floatRepr w.file

/-- What is owed is carried, and it is nothing but `token`. -/
structure HeldFor (floatRepr : ℚ → List Char) (token : PyStr) (w : World) : Prop extends
    Held floatRepr w where
  only : ∀ token' ∈ w.owed, token' = token

/-- Nothing is owed. -/
structure Free (floatRepr : ℚ → List Char) (w : World) : Prop where
  owed : w.owed = []
  floats : Floats floatRepr w.file

theorem Free.heldFor {w : World} (h : Free floatRepr w) (token : PyStr) :
    HeldFor floatRepr token w := by
  refine ⟨⟨?_, h.floats⟩, ?_⟩
  · intro t ht
    rw [h.owed] at ht
    cases ht
  · intro t ht
    rw [h.owed] at ht
    cases ht

/-- A file that was read as a state with one obligation and no hold owes that one at most. -/
theorem Held.only_of_read {w : World} (h : Held floatRepr w) {s : SupervisorState}
    (hs : readState w.file = .ok s) (hhold : s.spawningHoldMalformed = false) {token : PyStr}
    (ht : token ∈ w.owed) : ∃ o ∈ s.spawning, o.token = token := by
  obtain ⟨s', hs', hcarried⟩ := h.carried token ht
  obtain rfl := Except.ok.inj (hs.symm.trans hs')
  rcases hcarried with hspawning | hmalformed
  · exact hspawning
  · rw [hhold] at hmalformed
    cases hmalformed

theorem readStateClient_safe {w : World} (hw : Held floatRepr w) :
    readStateClient.Safe (sem floatRepr) (Held floatRepr)
      (fun s w' => w' = w ∧ readState w.file = .ok s) (fun _ => Held floatRepr) w := by
  refine ⟨hw, fun e => ?_⟩
  cases hread : readState w.file with
  | ok s =>
    simp only [sem, hread]
    exact ⟨rfl, rfl⟩
  | error exc =>
    simp only [sem, hread]
    exact hw

/-- What the direct path leaves is read back. -/
theorem readState_written {spawning : Option SpawningObligation} {file file' : FileContent}
    (hf : Floats floatRepr file)
    (ho : ∀ o ∈ spawning, o.Valid Joined ∧ ReadsBack floatRepr o.createdAt)
    (h : writeSpawningDirectly floatRepr spawning file true = .ok file') :
    ∃ s, readState file = .ok s ∧ readState file' = .ok { s with spawning } ∧
      Floats floatRepr file' := by
  obtain ⟨s, hs, -⟩ := except_bind_eq_ok.1 h
  have hread := readState_writeSpawningDirectly hs (hf s hs) ho h
  refine ⟨s, hs, hread, ?_⟩
  intro t ht
  obtain rfl := Except.ok.inj (hread.symm.trans ht)
  exact { hf s hs with spawning := fun o h' => (ho o h').2 }

/-- An obligation that is established beside none but its own token is carried from then on. -/
theorem writeSpawningObligation_safe {o : SpawningObligation} {w : World}
    (hw : HeldFor floatRepr o.token w) (hv : o.Valid Joined)
    (hx : ReadsBack floatRepr o.createdAt) :
    (writeSpawningObligation o).Safe (sem floatRepr) (Held floatRepr)
      (fun _ => HeldFor floatRepr o.token) (fun _ => Held floatRepr) w := by
  refine ⟨hw.toHeld, fun e => ?_⟩
  cases hwritten : writeSpawningDirectly floatRepr (some o) w.file true with
  | error exc =>
    simp only [sem, hwritten]
    exact hw.toHeld
  | ok file =>
    have ho : ∀ o' ∈ some o, o'.Valid Joined ∧ ReadsBack floatRepr o'.createdAt :=
      fun o' h' => Option.some.inj h' ▸ ⟨hv, hx⟩
    obtain ⟨s, hs, hread, hfloats⟩ := readState_written hw.floats ho hwritten
    have hcarries : Carries file o.token := ⟨_, hread, .inl ⟨o, rfl, rfl⟩⟩
    simp only [sem, hwritten]
    show HeldFor floatRepr o.token _
    rcases leaves_ok file w.file e with h | ⟨he, h⟩
    · rw [h]
      have honly : ∀ t ∈ if e = .durable then o.token :: w.owed else w.owed, t = o.token := by
        intro t ht
        split_ifs at ht
        · rcases List.mem_cons.1 ht with rfl | ht
          · rfl
          · exact hw.only t ht
        · exact hw.only t ht
      exact ⟨⟨fun t ht => honly t ht ▸ hcarries, hfloats⟩, honly⟩
    · rw [h, if_neg he]
      exact hw

/-- A clear for the only token that may be owed leaves nothing owed. -/
theorem clearSpawningObligation_safe {token : PyStr} {w : World}
    (hw : HeldFor floatRepr token w) :
    (clearSpawningObligation token).Safe (sem floatRepr) (Held floatRepr)
      (fun _ => Free floatRepr) (fun _ => Held floatRepr) w := by
  refine ⟨hw.toHeld, fun e => ?_⟩
  cases hwritten : writeSpawningDirectly floatRepr none w.file true with
  | error exc =>
    simp only [sem, hwritten]
    exact hw.toHeld
  | ok file =>
    obtain ⟨s, hs, hread, hfloats⟩ := readState_written hw.floats
      (fun o ho => by cases ho) hwritten
    have howed : w.owed.filter (· ≠ token) = [] := by
      rw [List.filter_eq_nil_iff]
      intro t ht
      simp [hw.only t ht]
    simp only [sem, hwritten]
    show Free floatRepr _
    refine ⟨howed, ?_⟩
    rcases leaves_ok file w.file e with h | ⟨-, h⟩
    · rw [h]
      exact hfloats
    · rw [h]
      exact hw.floats

theorem Free.held {w : World} (h : Free floatRepr w) : Held floatRepr w := (h.heldFor []).toHeld

/-- Once no stale obligation blocks, nothing is owed. -/
theorem resolveStaleRecoveryObligation_safe (a : RecoveryAnswers) {w : World}
    (hw : Held floatRepr w) :
    (resolveStaleRecoveryObligation a).Safe (sem floatRepr) (Held floatRepr)
      (fun resolved w' => Held floatRepr w' ∧ (resolved = true → Free floatRepr w'))
      (fun _ => Held floatRepr) w := by
  refine .bind ((readStateClient_safe hw).mono ?_ fun _ _ h => h)
  rintro s w' ⟨rfl, hs⟩
  have hrefused : Held floatRepr w' ∧ (false = true → Free floatRepr w') := ⟨hw, nofun⟩
  by_cases hhold : s.spawningHoldMalformed = true
  · rw [if_pos hhold]
    exact hrefused
  rw [if_neg hhold]
  have hnone := Bool.eq_false_of_not_eq_true hhold
  cases hspawning : s.spawning with
  | none =>
    refine ⟨hw, fun _ => ⟨?_, hw.floats⟩⟩
    rw [List.eq_nil_iff_forall_not_mem]
    intro t ht
    obtain ⟨o, ho, -⟩ := hw.only_of_read hs hnone ht
    rw [hspawning] at ho
    cases ho
  | some obligation =>
    have hfor : HeldFor floatRepr obligation.token w' := by
      refine ⟨hw, fun t ht => ?_⟩
      obtain ⟨o, ho, htoken⟩ := hw.only_of_read hs hnone ht
      obtain rfl := Option.some.inj (hspawning.symm.trans ho)
      exact htoken.symm
    dsimp only
    split_ifs
    · exact hrefused
    · exact hrefused
    · exact hrefused
    · exact (clearSpawningObligation_safe hfor).mono (fun _ _ h => ⟨h.held, fun _ => h⟩)
        fun _ _ h => h

theorem settleSpawnedRecoveryWorker_safe (a : RecoveryAnswers) {token : PyStr} {w : World}
    (hw : HeldFor floatRepr token w) :
    (settleSpawnedRecoveryWorker a token).Safe (sem floatRepr) (Held floatRepr)
      (fun _ => Held floatRepr) (fun _ => Held floatRepr) w := by
  rw [settleSpawnedRecoveryWorker]
  split_ifs
  · exact hw.toHeld
  · rw [convergeFailedRecoveryWorker]
    split_ifs
    · exact hw.toHeld
    · exact .bind ((clearSpawningObligation_safe hw).mono (fun _ _ h => h.held) fun _ _ h => h)

/-- **A recovery section** leaves what is owed carried after every call. -/
theorem recoverConsumerLocked_safe {a : RecoveryAnswers} (ha : a.WellFormed)
    (hx : ReadsBack floatRepr a.createdAt) {w : World} (hw : Held floatRepr w) :
    (recoverConsumerLocked a).Safe (sem floatRepr) (Held floatRepr) (fun _ => Held floatRepr)
      (fun _ => Held floatRepr) w := by
  rw [recoverConsumerLocked]
  cases hcommit : a.preflight with
  | none => exact hw
  | some commit =>
    refine .bind ((resolveStaleRecoveryObligation_safe a hw).mono ?_ fun _ _ h => h)
    intro resolved w₁ ⟨hw₁, hfree⟩
    cases resolved with
    | false => exact hw₁
    | true =>
      have hestablish := writeSpawningObligation_safe (o := recoveryObligation a commit)
        ((hfree rfl).heldFor _) (recoveryObligation_valid ha hcommit) hx
      refine .bind (hestablish.mono ?_ fun _ _ h => h)
      intro established w₂ hw₂
      cases established with
      | false => exact hw₂.toHeld
      | true =>
        cases a.spawned with
        | none =>
          exact .bind ((clearSpawningObligation_safe hw₂).mono (fun _ _ h => h.held)
            fun _ _ h => h)
        | some pid =>
          have hpublish := writeSpawningObligation_safe (o := { recoveryObligation a commit with
            pid := some (pid : ℤ), startTimeTicks := a.childTicks.map Int.ofNat }) hw₂
            (recoveryObligation_published_valid ha hcommit pid) hx
          refine .bind (hpublish.mono ?_ fun _ _ h => h)
          intro published w₃ hw₃
          exact settleSpawnedRecoveryWorker_safe a hw₃

/-- A release clears the obligation it has read, or none. -/
theorem releaseAdoptionAuthority_safe (a : RepairAnswers) {w : World} (hw : Held floatRepr w) :
    (releaseAdoptionAuthority a).Safe (sem floatRepr) (Held floatRepr) (fun _ => Held floatRepr)
      (fun _ => Held floatRepr) w := by
  refine .bind ((readStateClient_safe hw).mono ?_ fun _ _ h => h)
  rintro s w' ⟨rfl, hs⟩
  by_cases hhold : s.spawningHoldMalformed = true
  · rw [if_pos hhold]
    exact hw
  rw [if_neg hhold]
  cases hspawning : s.spawning with
  | none => exact hw
  | some obligation =>
    have hfor : HeldFor floatRepr obligation.token w' := by
      refine ⟨hw, fun t ht => ?_⟩
      obtain ⟨o, ho, htoken⟩ :=
        hw.only_of_read hs (Bool.eq_false_of_not_eq_true hhold) ht
      obtain rfl := Option.some.inj (hspawning.symm.trans ho)
      exact htoken.symm
    dsimp only
    split_ifs
    · exact hw
    · exact (clearSpawningObligation_safe hfor).mono (fun _ _ h => h.held) fun _ _ h => h

/-- **A repair section** leaves what is owed carried after every call. -/
theorem repairAuthorityTransitionLocked_safe (a : RepairAnswers) {w : World}
    (hw : Held floatRepr w) :
    (repairAuthorityTransitionLocked a).Safe (sem floatRepr) (Held floatRepr)
      (fun _ => Held floatRepr) (fun _ => Held floatRepr) w := by
  rw [repairAuthorityTransitionLocked]
  by_cases hstale : a.stale = true
  · rw [if_pos hstale]
    exact hw
  rw [if_neg hstale]
  have hpre : (preAdoptionAuthorityOk a).Safe (sem floatRepr) (Held floatRepr)
      (fun _ => Held floatRepr) (fun _ => Held floatRepr) w := by
    refine .bind ((readStateClient_safe hw).mono ?_ fun _ _ h => h)
    rintro s w' ⟨rfl, -⟩
    split_ifs
    · exact hw
    · exact hw
  refine .bind (hpre.mono ?_ fun _ _ h => h)
  intro ok w₁ hw₁
  split_ifs
  · exact hw₁
  · exact hw₁
  · exact .bind ((releaseAdoptionAuthority_safe a hw₁).mono (fun _ _ h => h) fun _ _ h => h)

/-! ## Over every interleaving -/

theorem Held.step {w w' : World} {l : Label} (hw : Held floatRepr w) (hl : l.Admissible floatRepr)
    (h : step floatRepr w l = some w') : Held floatRepr w' := by
  cases l with
  | maintain m seen e =>
    obtain rfl := Option.some.inj h
    obtain ⟨hkept, hfloats⟩ := maintain_keeps_authority hl hw.floats
    have howed : (maintain floatRepr m seen e w).owed = w.owed := by
      rw [maintain]
      cases m.snapshot seen <;> rfl
    refine ⟨fun token ht => hkept.carries (hw.carried token ?_), hfloats⟩
    rwa [howed] at ht
  | recover a ends =>
    obtain rfl := Option.some.inj h
    exact ((recoverConsumerLocked_safe hl.1 hl.2 hw).sound (fun _ _ h => h) (fun _ _ h => h) ends).1
  | repair a ends =>
    obtain rfl := Option.some.inj h
    exact ((repairAuthorityTransitionLocked_safe a hw).sound (fun _ _ h => h) (fun _ _ h => h)
      ends).1

theorem Held.run {labels : List Label} {w w' : World} (hw : Held floatRepr w)
    (hl : ∀ l ∈ labels, l.Admissible floatRepr)
    (h : exec (Recovery.step floatRepr) w labels = some w') : Held floatRepr w' := by
  induction labels generalizing w with
  | nil => exact Option.some.inj h ▸ hw
  | cons l labels ih =>
    obtain ⟨u, hu, hrest⟩ := exec_cons_eq_some.1 h
    exact ih (hw.step (hl l List.mem_cons_self) hu)
      (fun l' hl' => hl l' (List.mem_cons_of_mem l hl')) hrest

/-- **Maintenance writes never erase blocking authority.** From any content of `state.json`, after
any interleaving of publications and sections, each section cut short anywhere: every token whose
obligation was durably written and not explicitly cleared since is carried, and one more
publication from any snapshot leaves every hold and both records as it found them. -/
theorem blocking_authority_kept (floatRepr : ℚ → List Char) (file : FileContent)
    (labels : List Label) (w : World)
    (hfile : ∀ s, readState file = .ok s → s.FloatsReadBack floatRepr)
    (hlabels : ∀ l ∈ labels, l.Admissible floatRepr)
    (hrun : exec (step floatRepr) { file, owed := [] } labels = some w) :
    (∀ token ∈ w.owed, Carries w.file token) ∧
      ∀ (m : Maintenance) (seen : SupervisorState) (e : WriteEnd),
        (Label.maintain m seen e).Admissible floatRepr →
          AuthorityKept w.file (maintain floatRepr m seen e w).file := by
  have hstart : Held floatRepr { file, owed := [] } := ⟨nofun, hfile⟩
  have hheld := hstart.run hlabels hrun
  exact ⟨hheld.carried, fun m seen e hl => (maintain_keeps_authority hl hheld.floats).1⟩

end Kept

/-- A recovery that starts a worker and leaves it for adoption. -/
def adoptableRecovery : RecoveryAnswers where
  preflight := some "c1"
  instanceGone := false
  staleGroupsRecovered := false
  token := "t1"
  creatorPid := 7
  creatorTicks := 9
  createdAt := 0
  bootId := none
  spawned := some 8
  childTicks := some 10
  adoptable := true
  groupsRecovered := false

/-- The recovery, and then a retirement published from the snapshot of before it. -/
def recoveryThenRetirement : List Label :=
  [.recover adoptableRecovery (List.replicate 3 .durable),
    .maintain .childRetired freshState .durable]

/-- The obligation of the recovery survives the stale retirement. -/
theorem blocking_authority_kept_retirement : ∃ w,
    exec (step zeroRepr) { file := .absent, owed := [] } recoveryThenRetirement = some w ∧
      w.owed = [("t1" : PyStr), "t1"] ∧ Carries w.file "t1" := by
  have howed : (exec (step zeroRepr) { file := .absent, owed := [] } recoveryThenRetirement).map
      World.owed = some [("t1" : PyStr), "t1"] := by decide +kernel
  obtain ⟨w, hw, howed⟩ := Option.map_eq_some_iff.1 howed
  have hrecovery : adoptableRecovery.WellFormed :=
    ⟨by decide, rfl, fun c hc => Option.some.inj hc ▸ rfl, le_refl _, nofun⟩
  have hkept := blocking_authority_kept zeroRepr .absent recoveryThenRetirement w ?_ ?_ hw
  · exact ⟨w, hw, howed, hkept.1 "t1" (by rw [howed]; exact List.mem_cons_self)⟩
  · intro s hs
    obtain rfl := Except.ok.inj hs
    exact ⟨nofun, nofun, nofun, nofun, nofun, nofun, nofun⟩
  · intro l hl
    rcases List.mem_cons.1 hl with rfl | hl
    · exact ⟨hrecovery, readsBack_zero⟩
    · obtain rfl := List.mem_singleton.1 hl
      exact ⟨trivial, ⟨.absent, rfl⟩, nofun⟩

end Lubko.Supervise.Recovery
