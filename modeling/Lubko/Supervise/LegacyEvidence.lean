import Lubko.Authority.Migration
import Lubko.Supervise.Handoff
import Lubko.Supervise.Liveness

/-!
# Evidence for the migration of a row

`_v1_migration_evidence` folds four local records of processes that may run into the two sections of
the evidence: the maintained worker, the spawning obligation, the unresolved child and the cached
worker. Each process is observed by `worker_alive` or taken from the record as it is; what is
ambiguous is refused with an `AuthorityError`.

An obligation hides an unresolved child, a worker that runs but is not recognised is taken for dead,
and a few inputs raise something else.

* `collect_eq_ok` — the guards an answer has passed.
* `evidence_complete_iff` — when every process that may run is in the evidence, or it is refused.
-/

namespace Lubko.Supervise.LegacyEvidence

open Lubko.Lib Lubko.Lifecycle Lubko.Authority Lubko.Supervise.Liveness

/-! ## Incarnations -/

/-- The identity of a process: its token, process number and start ticks. -/
structure Incarnation where
  token : Option PyStr
  pid : Option ℤ
  startTimeTicks : Option ℤ
  deriving DecidableEq

/-- The identity as JSON text gives it back. -/
def Incarnation.joined (i : Incarnation) : Incarnation :=
  { i with token := i.token.map PyStr.joinSurrogates }

def ofWorker (w : WorkerRecord) : Incarnation := ⟨some w.token, some w.pid, some w.startTimeTicks⟩

def ofSpawn (s : SpawnObligation) : Incarnation := ⟨some s.token, s.pid, s.startTimeTicks⟩

def ofObligation (o : SpawningObligation) : Incarnation := ⟨some o.token, o.pid, o.startTimeTicks⟩

def ofHold (h : UnresolvedChild) : Incarnation := ⟨some h.token, some h.pid, h.startTimeTicks⟩

def ofMeta (m : WorkerMeta) : Incarnation := ⟨m.token, m.pid, m.startTimeTicks⟩

def ofChild (c : WorkerChild) : Incarnation := ⟨some c.token, some c.pid, some c.startTimeTicks⟩

/-- One of the two sections names the process. -/
def Named (worker : Option WorkerRecord) (spawn : Option SpawnObligation) (i : Incarnation) :
    Prop :=
  worker.map ofWorker = some i ∨ spawn.map ofSpawn = some i

/-! ## The code -/

/-- What ends the collection without evidence. -/
inductive Failure where
  /-- `AuthorityError` -/
  | authority (msg : PyStr)
  /-- what reading the metadata raises besides `WorkerMetadataError` -/
  | metadata (exc : PyError ErrorClass)
  /-- `UnicodeEncodeError`, of a token with a surrogate -/
  | unicodeEncode
  /-- `CliError`, of a commit that names no runtime -/
  | cli
  deriving DecidableEq

/-- `str.encode` succeeds. -/
def encodes (text : PyStr) : Bool := !text.any fun c => c.isHigh || c.isLow

/-- `worker_alive`, with what encoding the token raises. -/
def workerAliveOrRaise (worker : WorkerMeta) (r : AliveReads) : Except Failure Bool :=
  match worker.pid with
  | none => .ok false
  | some pid =>
    match processIdentity pid r.identity with
    | none => .ok false
    | some identity =>
      if !identityMatches worker identity then .ok false
      else
        match worker.token with
        | none => .ok true
        | some token =>
          if encodes token then .ok (processHasToken r.environ token) else .error .unicodeEncode

/-- The message of `_proven_legacy_worker`. -/
def inexactIdentity : PyStr := "legacy live worker lacks an exact identity; leaving v1 untouched"

/-- The exact identity of a maintained worker, if it has one. -/
def exactRecord (m : WorkerMeta) : Option WorkerRecord := do
  let token ← m.token.filter (· ≠ [])
  let commit ← m.gitCommit.filter (· ≠ [])
  let workerId ← m.workerId.filter (· ≠ [])
  let pid ← m.pid.filter (0 < ·)
  let pgid ← m.pgid
  let sid ← m.sid
  let startTimeTicks ← m.startTimeTicks
  return { token, commit, pid, pgid, sid, startTimeTicks, workerId }

/-- `_proven_legacy_worker`. -/
def provenLegacyWorker (m : WorkerMeta) : Except Failure WorkerRecord :=
  match exactRecord m with
  | some record => .ok record
  | none => .error (.authority inexactIdentity)

/-- `_db_spawn_record`. -/
def dbSpawnRecord (o : SpawningObligation) : SpawnObligation where
  token := o.token
  commit := o.commit
  creatorPid := o.creatorPid
  creatorStartTimeTicks := o.creatorStartTimeTicks
  bootId := o.bootId
  pid := o.pid
  startTimeTicks := o.startTimeTicks
  parentDeathSignal := o.parentDeathSignal

/-- `_migration_covers_child`. -/
def migrationCoversChild (child : WorkerChild) (worker : Option WorkerRecord)
    (spawn : Option SpawnObligation) : Bool :=
  if worker.any fun w => w.token = child.token && w.pid = child.pid &&
      w.startTimeTicks = child.startTimeTicks then true
  else spawn.any fun s => s.token = child.token && s.pid = some child.pid &&
      s.startTimeTicks = some child.startTimeTicks

/-- `if state.commit`. -/
def namedCommit (state : SupervisorState) : Option PyStr := state.commit.filter (· ≠ [])

section Code

variable (runtimeDir workerLogPath : PyStr → PyStr)

/-- `_child_to_meta`. -/
def childToMeta (child : WorkerChild) (repo : PyStr) : WorkerMeta where
  schemaVersion := META_SCHEMA_VERSION
  state := .running
  pid := some child.pid
  pgid := some child.pgid
  sid := some child.sid
  startTimeTicks := some child.startTimeTicks
  token := some child.token
  repo := repo
  gitCommit := none
  workerId := some child.workerId
  logPath := workerLogPath child.token
  startedAt := some child.spawnedAt
  stoppedAt := none

/-- The live maintained worker to transfer. -/
def liveWorkerOf (found : Option WorkerMeta) (r : AliveReads) :
    Except Failure (Option WorkerRecord) := do
  match found with
  | none => return none
  | some m => if ← workerAliveOrRaise m r then return some (← provenLegacyWorker m) else return none

/-- The blocking incarnation to transfer. -/
def spawnOf (state : SupervisorState) : Except Failure (Option SpawnObligation) :=
  match state.spawning with
  | some obligation => .ok (some (dbSpawnRecord obligation))
  | none =>
    match state.unresolvedChild with
    | none => .ok none
    | some hold =>
      match namedCommit state with
      | none =>
        .error (.authority "legacy unresolved hold names no commit; leaving v1 untouched")
      | some commit =>
        .ok (some
          { token := hold.token, commit := commit, creatorPid := 0, creatorStartTimeTicks := 0,
            bootId := none, pid := some hold.pid, startTimeTicks := hold.startTimeTicks,
            parentDeathSignal := false })

/-- The check of the cached worker. -/
def checkChild (state : SupervisorState) (worker : Option WorkerRecord)
    (spawn : Option SpawnObligation) (r : AliveReads) : Except Failure Unit :=
  match state.child with
  | none => .ok ()
  | some child =>
    if migrationCoversChild child worker spawn then .ok ()
    else
      match namedCommit state with
      | none =>
        .error (.authority "a cached worker names no commit; leaving v1 authority untouched")
      | some commit => do
        if !isValidCommitName commit then throw .cli
        if ← workerAliveOrRaise (childToMeta workerLogPath child (runtimeDir commit)) r then
          throw (.authority ("a live cached worker has no proven legacy identity; " ++
            "leaving v1 authority untouched" : String))

/-- The collection of the evidence from what was read. -/
def collect (state : SupervisorState) (found : Option WorkerMeta)
    (metaReads childReads : AliveReads) : Except Failure V1LegacyEvidence := do
  let liveWorker ← liveWorkerOf found metaReads
  let spawn ← spawnOf state
  checkChild runtimeDir workerLogPath state liveWorker spawn childReads
  return { liveWorker, spawn }

/-- The records of a supervisor and what the reads of `/proc` say: `state` is none when reading it
raises. -/
structure Scene where
  state : Option SupervisorState
  metaFile : FileBytes
  metaReads : AliveReads
  childReads : AliveReads
  /-- the maintained worker of the metadata runs -/
  metaRuns : Bool
  /-- the cached worker runs -/
  childRuns : Bool

/-- A malformed hold. -/
def holdsMalformed (state : SupervisorState) : Bool :=
  state.ownershipHoldMalformed || state.unresolvedHoldMalformed || state.spawningHoldMalformed

/-- `_v1_migration_evidence`. -/
def v1MigrationEvidence (py : Interpreter) (scene : Scene) : Except Failure V1LegacyEvidence :=
  match scene.state with
  | none =>
    .error (.authority "legacy supervisor state is unreadable; leaving v1 authority untouched")
  | some state =>
    if holdsMalformed state then
      .error (.authority
        "legacy local authority holds are malformed; leaving v1 authority untouched")
    else
      match readMetaStrict py scene.metaFile with
      | .error exc =>
        if exc.isRaised .WorkerMetadataError then
          .error (.authority
            "legacy maintained-worker metadata is malformed; leaving v1 untouched")
        else .error (.metadata exc)
      | .ok found => collect runtimeDir workerLogPath state found scene.metaReads scene.childReads

end Code

/-! ## One record -/

/-- The process of the record is identified, and its token cannot be encoded. -/
def TokenRaises (m : WorkerMeta) (r : AliveReads) : Prop :=
  ∃ pid ∈ m.pid, ∃ identity ∈ processIdentity pid r.identity,
    identityMatches m identity = true ∧ ∃ token ∈ m.token, encodes token = false

theorem workerAliveOrRaise_of_raises {m : WorkerMeta} {r : AliveReads} (h : TokenRaises m r) :
    workerAliveOrRaise m r = .error .unicodeEncode := by
  obtain ⟨pid, hpid, identity, hidentity, hmatches, token, htoken, hencodes⟩ := h
  rw [Option.mem_def] at hpid hidentity htoken
  rw [workerAliveOrRaise, hpid]
  dsimp only
  rw [hidentity]
  dsimp only
  rw [hmatches, htoken]
  dsimp only
  rw [hencodes]
  rfl

theorem workerAliveOrRaise_of_not_raises {m : WorkerMeta} {r : AliveReads}
    (h : ¬ TokenRaises m r) : workerAliveOrRaise m r = .ok (workerAlive m r) := by
  rw [workerAliveOrRaise, workerAlive]
  cases hpid : m.pid with
  | none => rfl
  | some pid =>
    dsimp only
    cases hidentity : processIdentity pid r.identity with
    | none => rfl
    | some identity =>
      dsimp only
      cases hmatches : identityMatches m identity with
      | false => rfl
      | true =>
        cases htoken : m.token with
        | none => rfl
        | some token =>
          dsimp only
          cases hencodes : encodes token with
          | true => rfl
          | false =>
            exact absurd ⟨pid, hpid, identity, hidentity, hmatches, token, htoken, hencodes⟩ h

theorem ofWorker_of_exactRecord {m : WorkerMeta} {w : WorkerRecord} (h : exactRecord m = some w) :
    ofWorker w = ofMeta m := by
  simp only [exactRecord, Option.bind_eq_bind, Option.bind_eq_some_iff, Option.filter_eq_some_iff,
    Option.pure_def, Option.some.injEq] at h
  obtain ⟨token, ⟨htoken, -⟩, commit, -, workerId, -, pid, ⟨hpid, -⟩, pgid, -, sid, -, ticks,
    hticks, rfl⟩ := h
  rw [ofWorker, ofMeta, htoken, hpid, hticks]

/-- A live maintained worker without an exact identity. -/
def Inexact (found : Option WorkerMeta) (r : AliveReads) : Prop :=
  ∃ m ∈ found, workerAlive m r = true ∧ exactRecord m = none

/-- The process is the live maintained worker. -/
def Seen (found : Option WorkerMeta) (r : AliveReads) (i : Incarnation) : Prop :=
  ∃ m ∈ found, workerAlive m r = true ∧ ofMeta m = i

theorem liveWorkerOf_cases (found : Option WorkerMeta) (r : AliveReads) :
    (∃ m ∈ found, TokenRaises m r ∧ liveWorkerOf found r = .error .unicodeEncode) ∨
    ((∀ m ∈ found, ¬ TokenRaises m r) ∧
      (Inexact found r ∧ liveWorkerOf found r = .error (.authority inexactIdentity) ∨
        ¬ Inexact found r ∧ ∃ w, liveWorkerOf found r = .ok w ∧
          ∀ i, w.map ofWorker = some i ↔ Seen found r i)) := by
  cases found with
  | none =>
    have hnone : ∀ P : WorkerMeta → Prop, ¬ ∃ m ∈ (none : Option WorkerMeta), P m := by
      rintro P ⟨m, hm, -⟩
      cases hm
    refine .inr ⟨fun m hm => absurd hm (Option.not_mem_none m), .inr ⟨hnone _, none, rfl, ?_⟩⟩
    intro i
    refine iff_of_false ?_ (hnone _)
    intro h
    cases h
  | some m =>
    by_cases hraises : TokenRaises m r
    · refine .inl ⟨m, rfl, hraises, ?_⟩
      rw [liveWorkerOf, workerAliveOrRaise_of_raises hraises]
      rfl
    · refine .inr ⟨fun other hother => ?_, ?_⟩
      · obtain rfl := Option.mem_some_iff.1 hother
        exact hraises
      · rw [liveWorkerOf, workerAliveOrRaise_of_not_raises hraises]
        cases halive : workerAlive m r with
        | false =>
          have hnone : ∀ P : WorkerMeta → Prop,
              ¬ ∃ other ∈ some m, workerAlive other r = true ∧ P other := by
            rintro P ⟨other, hother, h, -⟩
            obtain rfl := Option.mem_some_iff.1 hother
            rw [halive] at h
            cases h
          refine .inr ⟨hnone _, none, rfl, fun i => iff_of_false ?_ (hnone _)⟩
          intro h
          cases h
        | true =>
          cases hexact : exactRecord m with
          | none =>
            refine .inl ⟨⟨m, rfl, halive, hexact⟩, ?_⟩
            simp [provenLegacyWorker, hexact, bind, Except.bind]
          | some w =>
            refine .inr ⟨?_, some w, ?_, fun i => ?_⟩
            · rintro ⟨other, hother, -, h⟩
              obtain rfl := Option.mem_some_iff.1 hother
              rw [hexact] at h
              cases h
            · simp [provenLegacyWorker, hexact, bind, Except.bind, pure, Except.pure]
            · rw [Option.map_some, Option.some.injEq, ofWorker_of_exactRecord hexact]
              constructor
              · intro h
                exact ⟨m, rfl, halive, h⟩
              · rintro ⟨other, hother, -, h⟩
                obtain rfl := Option.mem_some_iff.1 hother
                exact h

/-- An unresolved child without a commit, and no obligation before it. -/
def Unplaced (state : SupervisorState) : Prop :=
  state.spawning = none ∧ state.unresolvedChild.isSome = true ∧ namedCommit state = none

/-- The blocking process that is transferred: the obligation hides the unresolved child. -/
def blocking (state : SupervisorState) : Option Incarnation :=
  (state.spawning.map ofObligation).or (state.unresolvedChild.map ofHold)

theorem spawnOf_cases (state : SupervisorState) :
    (Unplaced state ∧ ∃ msg, spawnOf state = .error (.authority msg)) ∨
    (¬ Unplaced state ∧ ∃ spawn, spawnOf state = .ok spawn ∧
      spawn.map ofSpawn = blocking state) := by
  unfold spawnOf
  cases hspawning : state.spawning with
  | some obligation =>
    refine .inr ⟨fun h => ?_, _, rfl, ?_⟩
    · rw [h.1] at hspawning
      cases hspawning
    · rw [blocking, hspawning]
      rfl
  | none =>
    cases hhold : state.unresolvedChild with
    | none =>
      refine .inr ⟨fun h => ?_, none, rfl, ?_⟩
      · have hsome := h.2.1
        rw [hhold] at hsome
        cases hsome
      · rw [blocking, hspawning, hhold]
        rfl
    | some hold =>
      cases hcommit : namedCommit state with
      | none => exact .inl ⟨⟨hspawning, by rw [hhold]; rfl, hcommit⟩, _, rfl⟩
      | some commit =>
        refine .inr ⟨fun h => ?_, _, rfl, ?_⟩
        · have hnone := h.2.2
          rw [hcommit] at hnone
          cases hnone
        · rw [blocking, hspawning, hhold]
          rfl

theorem migrationCoversChild_iff {child : WorkerChild} {worker : Option WorkerRecord}
    {spawn : Option SpawnObligation} :
    migrationCoversChild child worker spawn = true ↔ Named worker spawn (ofChild child) := by
  have hworker : (worker.any fun w => w.token = child.token && w.pid = child.pid &&
      w.startTimeTicks = child.startTimeTicks) = true ↔
        worker.map ofWorker = some (ofChild child) := by
    cases worker with
    | none => simp
    | some w => simp [ofWorker, ofChild, and_assoc]
  have hspawn : (spawn.any fun s => s.token = child.token && s.pid = some child.pid &&
      s.startTimeTicks = some child.startTimeTicks) = true ↔
        spawn.map ofSpawn = some (ofChild child) := by
    cases spawn with
    | none => simp
    | some s => simp [ofSpawn, ofChild, and_assoc]
  rw [migrationCoversChild, Named, ← hworker, ← hspawn]
  split_ifs with h
  · simp [h]
  · simp [h]

section Collected

variable {runtimeDir workerLogPath : PyStr → PyStr} {state : SupervisorState}
  {found : Option WorkerMeta} {metaReads childReads : AliveReads}

/-- How the check of the cached worker ends, for the processes `N` that are named already. -/
theorem checkChild_cases {N : Incarnation → Prop} {worker : Option WorkerRecord}
    {spawn : Option SpawnObligation} (hnamed : ∀ i, Named worker spawn i ↔ N i) :
    ((∃ child ∈ state.child, ¬ N (ofChild child) ∧ (namedCommit state = none ∨
        ∃ commit ∈ namedCommit state, isValidCommitName commit = true ∧
          ¬ TokenRaises (childToMeta workerLogPath child (runtimeDir commit)) childReads ∧
          workerAlive (childToMeta workerLogPath child (runtimeDir commit)) childReads = true)) ∧
      ∃ msg, checkChild runtimeDir workerLogPath state worker spawn childReads =
        .error (.authority msg)) ∨
    ((∃ child ∈ state.child, ¬ N (ofChild child) ∧ ∃ commit ∈ namedCommit state,
        isValidCommitName commit = false ∨
          TokenRaises (childToMeta workerLogPath child (runtimeDir commit)) childReads) ∧
      ∃ failure, checkChild runtimeDir workerLogPath state worker spawn childReads =
        .error failure ∧ ∀ msg, failure ≠ .authority msg) ∨
    ((∀ child ∈ state.child, N (ofChild child) ∨ ∃ commit ∈ namedCommit state,
        isValidCommitName commit = true ∧
          ¬ TokenRaises (childToMeta workerLogPath child (runtimeDir commit)) childReads ∧
          workerAlive (childToMeta workerLogPath child (runtimeDir commit)) childReads = false) ∧
      checkChild runtimeDir workerLogPath state worker spawn childReads = .ok ()) := by
  unfold checkChild
  cases hchild : state.child with
  | none => exact .inr (.inr ⟨fun child h => absurd h (Option.not_mem_none child), rfl⟩)
  | some child =>
    by_cases hcovered : N (ofChild child)
    · refine .inr (.inr ⟨fun other hother => ?_, ?_⟩)
      · obtain rfl := Option.mem_some_iff.1 hother
        exact .inl hcovered
      · dsimp only
        rw [if_pos (migrationCoversChild_iff.2 ((hnamed _).2 hcovered))]
    · have hnot : ¬ migrationCoversChild child worker spawn = true := fun h =>
        hcovered ((hnamed _).1 (migrationCoversChild_iff.1 h))
      dsimp only
      rw [if_neg hnot]
      cases hcommit : namedCommit state with
      | none => exact .inl ⟨⟨child, rfl, hcovered, .inl rfl⟩, _, rfl⟩
      | some commit =>
        dsimp only
        cases hvalid : isValidCommitName commit with
        | false =>
          refine .inr (.inl ⟨⟨child, rfl, hcovered, commit, rfl, .inl hvalid⟩, .cli, rfl, ?_⟩)
          intro msg h
          cases h
        | true =>
          by_cases hraises :
              TokenRaises (childToMeta workerLogPath child (runtimeDir commit)) childReads
          · rw [workerAliveOrRaise_of_raises hraises]
            refine .inr (.inl ⟨⟨child, rfl, hcovered, commit, rfl, .inr hraises⟩, .unicodeEncode,
              rfl, ?_⟩)
            intro msg h
            cases h
          · rw [workerAliveOrRaise_of_not_raises hraises]
            cases halive :
                workerAlive (childToMeta workerLogPath child (runtimeDir commit)) childReads with
            | true =>
              exact .inl ⟨⟨child, rfl, hcovered, .inr ⟨commit, rfl, hvalid, hraises, halive⟩⟩,
                _, rfl⟩
            | false =>
              refine .inr (.inr ⟨fun other hother => .inr ?_, rfl⟩)
              obtain rfl := Option.mem_some_iff.1 hother
              exact ⟨commit, rfl, hvalid, hraises, halive⟩

end Collected

/-! ## Complete evidence -/

/-- The collection raises nothing but an `AuthorityError`, and its evidence is as wanted. -/
def Answers (outcome : Except Failure V1LegacyEvidence) (wanted : V1LegacyEvidence → Prop) : Prop :=
  match outcome with
  | .ok evidence => wanted evidence
  | .error (.authority _) => True
  | .error _ => False

/-- The processes that may run: those the obligation and the unresolved child name, and the workers
of the metadata and of the state that do. -/
def possiblyRunning (state : SupervisorState) (found : Option WorkerMeta)
    (metaRuns childRuns : Bool) : List Incarnation :=
  state.spawning.toList.map ofObligation ++ state.unresolvedChild.toList.map ofHold ++
    (if metaRuns then found.toList.map ofMeta else []) ++
    (if childRuns then state.child.toList.map ofChild else [])

/-- The process is the live maintained worker or the blocking one. -/
def Covered (state : SupervisorState) (found : Option WorkerMeta) (r : AliveReads)
    (i : Incarnation) : Prop :=
  Seen found r i ∨ blocking state = some i

/-- The cached worker is not covered, and it is refused: it has no commit, or it is seen alive. -/
def Unproven (runtimeDir workerLogPath : PyStr → PyStr) (state : SupervisorState)
    (found : Option WorkerMeta) (metaReads childReads : AliveReads) : Prop :=
  ∃ child ∈ state.child, ¬ Covered state found metaReads (ofChild child) ∧
    (namedCommit state = none ∨ ∃ commit ∈ namedCommit state,
      workerAlive (childToMeta workerLogPath child (runtimeDir commit)) childReads = true)

/-- No branch drops a process. The tokens and the commit that are looked up are proper ones; and
unless something is refused, an obligation stands before no other unresolved child, a running
maintained worker is seen alive or is the blocking process, and a running cached worker is
covered. -/
structure CollectsAll (runtimeDir workerLogPath : PyStr → PyStr) (scene : Scene)
    (state : SupervisorState) (found : Option WorkerMeta) : Prop where
  worker : ∀ m ∈ found, ¬ TokenRaises m scene.metaReads
  child : ¬ Inexact found scene.metaReads → ¬ Unplaced state → ∀ child ∈ state.child,
    ¬ Covered state found scene.metaReads (ofChild child) → ∀ commit ∈ namedCommit state,
      isValidCommitName commit = true ∧
        ¬ TokenRaises (childToMeta workerLogPath child (runtimeDir commit)) scene.childReads
  kept : ¬ Inexact found scene.metaReads → ¬ Unplaced state →
    ¬ Unproven runtimeDir workerLogPath state found scene.metaReads scene.childReads →
      (∀ hold ∈ state.unresolvedChild, ∀ obligation ∈ state.spawning,
        ofObligation obligation = ofHold hold ∨ Seen found scene.metaReads (ofHold hold)) ∧
      (scene.metaRuns = true → ∀ m ∈ found,
        workerAlive m scene.metaReads = true ∨ blocking state = some (ofMeta m)) ∧
      (scene.childRuns = true → ∀ child ∈ state.child,
        Covered state found scene.metaReads (ofChild child))

section Complete

variable {runtimeDir workerLogPath : PyStr → PyStr} {scene : Scene} {state : SupervisorState}
  {found : Option WorkerMeta}

theorem mem_possiblyRunning {metaRuns childRuns : Bool} {i : Incarnation} :
    i ∈ possiblyRunning state found metaRuns childRuns ↔
      (∃ obligation ∈ state.spawning, ofObligation obligation = i) ∨
      (∃ hold ∈ state.unresolvedChild, ofHold hold = i) ∨
      (metaRuns = true ∧ ∃ m ∈ found, ofMeta m = i) ∨
      (childRuns = true ∧ ∃ child ∈ state.child, ofChild child = i) := by
  cases metaRuns <;> cases childRuns <;> simp [possiblyRunning]

/-- A process that is covered without being seen is the blocking one. -/
theorem covered_of_spawning {obligation : SpawningObligation} (h : state.spawning = some obligation)
    (i : Incarnation) : Covered state found scene.metaReads i ↔
      Seen found scene.metaReads i ∨ ofObligation obligation = i := by
  have hblocking : blocking state = some (ofObligation obligation) := by
    rw [blocking, h]
    rfl
  rw [Covered, hblocking, Option.some.injEq]

/-- What the answer of a collection that passed every guard has to name. -/
theorem covers_iff : (∀ i ∈ possiblyRunning state found scene.metaRuns scene.childRuns,
      Covered state found scene.metaReads i) ↔
      (∀ hold ∈ state.unresolvedChild, ∀ obligation ∈ state.spawning,
        ofObligation obligation = ofHold hold ∨ Seen found scene.metaReads (ofHold hold)) ∧
      (scene.metaRuns = true → ∀ m ∈ found,
        workerAlive m scene.metaReads = true ∨ blocking state = some (ofMeta m)) ∧
      (scene.childRuns = true → ∀ child ∈ state.child,
        Covered state found scene.metaReads (ofChild child)) := by
  constructor
  · intro h
    refine ⟨fun hold hhold obligation hobligation => ?_, fun hruns m hm => ?_,
      fun hruns child hchild => ?_⟩
    · have hcovered := h _ (mem_possiblyRunning.2 (.inr (.inl ⟨hold, hhold, rfl⟩)))
      rw [covered_of_spawning hobligation] at hcovered
      exact hcovered.symm
    · rcases h _ (mem_possiblyRunning.2 (.inr (.inr (.inl ⟨hruns, m, hm, rfl⟩)))) with
        ⟨other, hother, halive, -⟩ | hblocking
      · obtain rfl : other = m := Option.mem_unique hother hm
        exact .inl halive
      · exact .inr hblocking
    · exact h _ (mem_possiblyRunning.2 (.inr (.inr (.inr ⟨hruns, child, hchild, rfl⟩))))
  · rintro ⟨hhold, hworker, hchild⟩ i hi
    rcases mem_possiblyRunning.1 hi with ⟨obligation, hobligation, rfl⟩ | ⟨hold, hmem, rfl⟩ |
      ⟨hruns, m, hm, rfl⟩ | ⟨hruns, child, hmem, rfl⟩
    · exact (covered_of_spawning hobligation _).2 (.inr rfl)
    · cases hspawning : state.spawning with
      | none =>
        refine .inr ?_
        rw [blocking, hspawning, Option.mem_def.1 hmem]
        rfl
      | some obligation =>
        exact (covered_of_spawning hspawning _).2 (hhold hold hmem obligation hspawning).symm
    · rcases hworker hruns m hm with halive | hblocking
      · exact .inl ⟨m, hm, halive, rfl⟩
      · exact .inr hblocking
    · exact hchild hruns child hmem

/-- **The collection is complete** exactly when no branch drops a process. -/
theorem collect_answers_iff :
    Answers (collect runtimeDir workerLogPath state found scene.metaReads scene.childReads)
      (fun evidence => ∀ i ∈ possiblyRunning state found scene.metaRuns scene.childRuns,
        Named evidence.liveWorker evidence.spawn i) ↔
      CollectsAll runtimeDir workerLogPath scene state found := by
  rcases liveWorkerOf_cases found scene.metaReads with
    ⟨m, hm, hraises, hlive⟩ | ⟨hencodes, ⟨hinexact, hlive⟩ | ⟨hexact, worker, hlive, hworker⟩⟩
  · refine iff_of_false ?_ fun h => h.worker m hm hraises
    simp [collect, hlive, bind, Except.bind, Answers]
  · refine iff_of_true ?_ ⟨hencodes, fun h => absurd hinexact h, fun h => absurd hinexact h⟩
    simp [collect, hlive, bind, Except.bind, Answers]
  rcases spawnOf_cases state with ⟨hunplaced, msg, hspawnOf⟩ | ⟨hplaced, spawn, hspawnOf, hspawn⟩
  · refine iff_of_true ?_
      ⟨hencodes, fun _ h => absurd hunplaced h, fun _ h => absurd hunplaced h⟩
    simp [collect, hlive, hspawnOf, bind, Except.bind, Answers]
  have hnamed : ∀ i, Named worker spawn i ↔ Covered state found scene.metaReads i := fun i => by
    rw [Named, Covered, hworker, hspawn]
  have hcases := @checkChild_cases runtimeDir workerLogPath state scene.childReads _ _ _ hnamed
  rcases hcases with ⟨⟨child, hchild, huncovered, hrefused⟩, msg, hcheck⟩ |
    ⟨⟨child, hchild, huncovered, commit, hcommit, hbad⟩, failure, hcheck, hother⟩ | ⟨hgood, hcheck⟩
  · have hanswer : Answers (collect runtimeDir workerLogPath state found scene.metaReads
        scene.childReads) (fun evidence =>
          ∀ i ∈ possiblyRunning state found scene.metaRuns scene.childRuns,
            Named evidence.liveWorker evidence.spawn i) := by
      simp [collect, hlive, hspawnOf, hcheck, bind, Except.bind, Answers]
    refine iff_of_true hanswer ⟨hencodes, fun _ _ other hmem _ commit hcommit => ?_, ?_⟩
    · obtain rfl : other = child := Option.mem_unique hmem hchild
      rcases hrefused with hnone | ⟨commit', hcommit', hvalid, hraises, -⟩
      · rw [hnone] at hcommit
        cases hcommit
      · obtain rfl : commit = commit' := Option.mem_unique hcommit hcommit'
        exact ⟨hvalid, hraises⟩
    · intro _ _ hproven
      refine absurd ⟨child, hchild, huncovered, ?_⟩ hproven
      exact hrefused.imp id fun ⟨commit, hcommit, _, _, halive⟩ => ⟨commit, hcommit, halive⟩
  · refine iff_of_false ?_ fun h => ?_
    · intro hanswer
      simp only [collect, hlive, hspawnOf, hcheck, bind, Except.bind, Answers] at hanswer
    · obtain ⟨hvalid, hraises⟩ := h.child hexact hplaced child hchild huncovered commit hcommit
      rcases hbad with hinvalid | hbad
      · rw [hvalid] at hinvalid
        cases hinvalid
      · exact hraises hbad
  · have hproven : ¬ Unproven runtimeDir workerLogPath state found scene.metaReads
        scene.childReads := by
      rintro ⟨child, hchild, huncovered, hrefused⟩
      rcases hgood child hchild with hcovered | ⟨commit, hcommit, -, -, hdead⟩
      · exact huncovered hcovered
      · rcases hrefused with hnone | ⟨commit', hcommit', halive⟩
        · rw [hnone] at hcommit
          cases hcommit
        · obtain rfl : commit = commit' := Option.mem_unique hcommit hcommit'
          rw [halive] at hdead
          cases hdead
    have hanswer : Answers (collect runtimeDir workerLogPath state found scene.metaReads
        scene.childReads) (fun evidence =>
          ∀ i ∈ possiblyRunning state found scene.metaRuns scene.childRuns,
            Named evidence.liveWorker evidence.spawn i) ↔
        ∀ i ∈ possiblyRunning state found scene.metaRuns scene.childRuns,
          Covered state found scene.metaReads i := by
      simp [collect, hlive, hspawnOf, hcheck, bind, Except.bind, pure, Except.pure, Answers, hnamed]
    rw [hanswer, covers_iff]
    constructor
    · intro hkept
      refine ⟨hencodes, fun _ _ child hchild huncovered commit hcommit => ?_, fun _ _ _ => hkept⟩
      rcases hgood child hchild with hcovered | ⟨commit', hcommit', hvalid, hraises, -⟩
      · exact absurd hcovered huncovered
      · obtain rfl : commit = commit' := Option.mem_unique hcommit hcommit'
        exact ⟨hvalid, hraises⟩
    · intro h
      exact h.kept hexact hplaced hproven

end Complete

/-! ## The migrated row -/

/-- What a migration with the evidence writes is a row of version 2 that names the processes. -/
def RowNames (evidence : V1LegacyEvidence) (processes : List Incarnation) : Prop :=
  ∀ server fetched expected candidate won lost,
    Migration.migrateV1ToV2 fetched ⟨server, some evidence⟩ =
      .ok (.swap expected candidate won lost) →
    ∃ row, parseAuthorityPayload candidate server = .ok row ∧
      ∀ i ∈ processes, Named row.worker row.spawn i.joined

/-- A migration carries both sections over. -/
theorem rowNames_of_named {evidence : V1LegacyEvidence} {processes : List Incarnation}
    (h : ∀ i ∈ processes, Named evidence.liveWorker evidence.spawn i) :
    RowNames evidence processes := by
  intro server fetched expected candidate won lost hmigrate
  obtain ⟨-, -, stored, -, hstored⟩ := Migration.migrateV1ToV2_eq_ok.1 hmigrate
  obtain ⟨legacy, row, -, hrow, hmigrated⟩ := migrateStored_migrated hstored
  refine ⟨row, hrow, fun i hi => ?_⟩
  rcases h i hi with hworker | hspawn
  · obtain ⟨worker, hmem, rfl⟩ := Option.map_eq_some_iff.1 hworker
    left
    rw [hmigrated.workerCarried worker hmem]
    rfl
  · obtain ⟨spawn, hmem, rfl⟩ := Option.map_eq_some_iff.1 hspawn
    right
    rw [hmigrated.spawnCarried spawn hmem]
    rfl

/-- The processes that may run, where the records can be read. -/
def Scene.possiblyRunning (py : Interpreter) (scene : Scene) : List Incarnation :=
  match scene.state, readMetaStrict py scene.metaFile with
  | some state, .ok found =>
    LegacyEvidence.possiblyRunning state found scene.metaRuns scene.childRuns
  | _, _ => []

/-- The evidence is refused with an `AuthorityError`, or it names every process that may run, and so
does the row of every migration with it. -/
def Complete (runtimeDir workerLogPath : PyStr → PyStr) (py : Interpreter) (scene : Scene) : Prop :=
  Answers (v1MigrationEvidence runtimeDir workerLogPath py scene) fun evidence =>
    (∀ i ∈ scene.possiblyRunning py, Named evidence.liveWorker evidence.spawn i) ∧
      RowNames evidence (scene.possiblyRunning py)

/-- **The evidence is complete** exactly when, the state and its holds being readable, the metadata
raises nothing but its own error and no branch of the collection drops a process. -/
theorem evidence_complete_iff (runtimeDir workerLogPath : PyStr → PyStr) (py : Interpreter)
    (scene : Scene) : Complete runtimeDir workerLogPath py scene ↔
      ∀ state, scene.state = some state → holdsMalformed state = false →
        Ends (Of .WorkerMetadataError) (CollectsAll runtimeDir workerLogPath scene state)
          (readMetaStrict py scene.metaFile) := by
  rw [Complete, v1MigrationEvidence]
  cases hstate : scene.state with
  | none =>
    refine iff_of_true trivial ?_
    intro state h
    cases h
  | some state =>
    dsimp only
    cases hholds : holdsMalformed state with
    | true =>
      refine iff_of_true trivial ?_
      rintro _ ⟨⟩ h
      rw [hholds] at h
      cases h
    | false =>
      rw [if_neg Bool.false_ne_true]
      have hone : ∀ P : SupervisorState → Prop,
          (∀ s, some state = some s → holdsMalformed s = false → P s) ↔ P state := by
        intro P
        constructor
        · intro h
          exact h state rfl hholds
        · rintro h _ ⟨⟩ -
          exact h
      rw [hone]
      cases hmeta : readMetaStrict py scene.metaFile with
      | error exc =>
        cases hraised : exc.isRaised .WorkerMetadataError with
        | true =>
          refine iff_of_true ?_ hraised
          dsimp only
          rw [hraised]
          trivial
        | false =>
          refine iff_of_false ?_ fun h => ?_
          · dsimp only
            rw [hraised]
            exact id
          · rw [show exc.isRaised .WorkerMetadataError = true from h] at hraised
            cases hraised
      | ok found =>
        have hprocesses : scene.possiblyRunning py =
            possiblyRunning state found scene.metaRuns scene.childRuns := by
          rw [Scene.possiblyRunning, hstate, hmeta]
        rw [hprocesses]
        show Answers _ _ ↔ CollectsAll runtimeDir workerLogPath scene state found
        rw [← collect_answers_iff]
        dsimp only
        unfold Answers
        split
        · exact ⟨And.left, fun h => ⟨h, rowNames_of_named h⟩⟩
        · rfl
        · rfl

/-! ## A hidden child -/

/-- A commit. -/
def sealedCommit : PyStr := List.replicate 40 (CodePoint.ofChar 'a')

/-- A child that is unresolved. -/
def olderHold : UnresolvedChild :=
  { pid := 200, startTimeTicks := some 20, token := "older", spawnedAt := 1 }

/-- The obligation of a later child. -/
def newerObligation : SpawningObligation :=
  { token := "newer", commit := sealedCommit, creatorPid := 10, creatorStartTimeTicks := 1,
    pid := some 100, startTimeTicks := some 30, createdAt := 2, bootId := none }

/-- Both in one state, and nothing else. -/
def hiddenHold : Scene where
  state := some
    { freshState with
      mode := .run
      commit := some sealedCommit
      unresolvedChild := some olderHold
      spawning := some newerObligation }
  metaFile := .absent false
  metaReads := ⟨⟨.notFound, .notFound, none⟩, .notFound⟩
  childReads := ⟨⟨.notFound, .notFound, none⟩, .notFound⟩
  metaRuns := false
  childRuns := false

/-- The evidence names the obligation alone, and the migration of a row of version 1 with it
succeeds: the unresolved child is in neither. -/
theorem hold_hidden : ∃ evidence expected candidate row,
    v1MigrationEvidence id id ⟨fun _ => false, fun _ => false, fun _ => none, id⟩ hiddenHold =
      .ok evidence ∧
    Migration.migrateV1ToV2 (some (some Migration.legacyText)) ⟨"alpha", some evidence⟩ =
      .ok (.swap expected candidate true false) ∧
    parseAuthorityPayload candidate "alpha" = .ok row ∧
    ofHold olderHold ∈
      hiddenHold.possiblyRunning ⟨fun _ => false, fun _ => false, fun _ => none, id⟩ ∧
    ¬ Named evidence.liveWorker evidence.spawn (ofHold olderHold) ∧
    ¬ Named row.worker row.spawn (ofHold olderHold) := by
  have hissued : ((Migration.issued (Migration.migrateV1ToV2 (some (some Migration.legacyText))
      ⟨"alpha", some { spawn := some (dbSpawnRecord newerObligation) }⟩)).any fun p =>
        (parseAuthorityPayload p.2 "alpha").toOption.any fun row =>
          row.worker.map ofWorker ≠ some (ofHold olderHold) &&
            row.spawn.map ofSpawn ≠ some (ofHold olderHold)) = true := by decide +kernel
  obtain ⟨⟨expected, candidate⟩, hswap, h⟩ := (Option.any_eq_true _ _).1 hissued
  obtain ⟨row, hrow, hother⟩ := (Option.any_eq_true _ _).1 h
  simp only [Bool.and_eq_true, decide_eq_true_eq] at hother
  refine ⟨_, expected, candidate, row, rfl, Migration.issued_eq_some hswap,
    toOption_eq_some.1 hrow, ?_, ?_, not_or.2 hother⟩
  · exact mem_possiblyRunning.2 (.inr (.inl ⟨olderHold, rfl, rfl⟩))
  · rintro (h | h)
    · cases h
    · revert h
      decide +kernel

end Lubko.Supervise.LegacyEvidence
