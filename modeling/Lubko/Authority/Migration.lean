import Lubko.Authority.Canonical

/-!
# Migrating a row from version 1

`migrate_v1_to_v2` reads the row, answers `True` when it is one of version 2 already, and otherwise
completes the row of version 1 with the evidence of the local files and issues one
compare-and-swap over the text it read. Anything may happen to the row in between, and either
transaction may fail, before or after it commits.

* `migrateStored_eq_swap` — what a migration writes.
* `World.ends_cases` — how a call ends, and what it did to the rows.
* `migration_atomic` — no call leaves less than it found.
-/

namespace Lubko.Authority

open Lubko.Lib

/-! ## The code -/

/-- `LEGACY_AUTHORITY_VERSION`. -/
def LEGACY_AUTHORITY_VERSION : ℤ := 1

/-- `V1LegacyEvidence`: legacy local state to transfer. -/
structure V1LegacyEvidence where
  liveWorker : Option WorkerRecord := none
  workerAmbiguous : Bool := false
  spawn : Option SpawnObligation := none
  spawnAmbiguous : Bool := false
  deriving DecidableEq

/-- The checks of `_parse_v1_payload` on a decoded object. -/
def parseV1Members (data : List (PyStr × Json)) (server : PyStr) : Except PyStr AuthorityRow := do
  let version := Json.get data "v"
  raiseIf (!version.eqInt LEGACY_AUTHORITY_VERSION || version matches .bool _)
    "not a v1 lifecycle authority row: "
  raiseIf (!(Json.get data "type").eqStr AUTHORITY_TYPE) "payload is not lifecycle authority: "
  raiseIf (!(Json.get data "server").eqStr server)
    "lifecycle authority row governs a different server; holding"
  let epoch ← checkNonNegativeInt "epoch" (Json.get data "epoch")
  let generation ← checkNonNegativeInt "generation" (Json.get data "generation")
  let owner ← parseOwner (Json.get data "owner")
  let spawn ← parseSpawn (Json.get data "spawn")
  let worker ← parseWorker (Json.get data "worker")
  raiseIf (spawn.isSome && worker.isSome)
    ("authority row cannot carry both a spawn obligation and a published " ++ "worker" : String)
  return { server := server, epoch := epoch, generation := generation, owner := owner,
           spawn := spawn, worker := worker }

/-- `_parse_v1_payload` of a stored text. -/
def parseV1Payload (data : List Char) (server : PyStr) : Except PyStr AuthorityRow :=
  if AUTHORITY_MAX_BYTES < encodedLength data then
    .error "authority payload exceeds the documented byte bound"
  else
    match loads data with
    | none => .error "authority payload is not valid JSON: "
    | some (.obj members) => parseV1Members members server
    | some _ => .error "authority payload must be a JSON object"

/-- `_check_migration_evidence`. -/
def checkMigrationEvidence (proven : V1LegacyEvidence) : Except PyStr Unit := do
  raiseIf (proven.workerAmbiguous || proven.spawnAmbiguous)
    "legacy local authority is malformed or ambiguous; holding on v1"
  raiseIf (proven.liveWorker.isSome && proven.spawn.isSome)
    ("legacy local authority names both a live worker and a blocking spawn; " ++
      "holding on v1" : String)

/-- `_resolve_migration_sections`. -/
def resolveMigrationSections (legacy : AuthorityRow) (proven : V1LegacyEvidence) :
    Except PyStr (Option SpawnObligation × Option WorkerRecord) := do
  let spawn := if legacy.spawn.isSome then legacy.spawn else proven.spawn
  let worker := if legacy.worker.isSome then legacy.worker else proven.liveWorker
  raiseIf (legacy.spawn.isSome && proven.spawn.isSome && legacy.spawn ≠ proven.spawn)
    ("legacy row and local evidence disagree on the blocking spawn; " ++ "holding on v1" : String)
  raiseIf (legacy.worker.isSome && proven.liveWorker.isSome && legacy.worker ≠ proven.liveWorker)
    ("legacy row and local evidence disagree on the published worker; " ++ "holding on v1" :
      String)
  raiseIf (spawn.isSome && worker.isSome)
    "migration cannot carry both a spawn obligation and a published worker"
  return (spawn, worker)

/-- `migrate_v1_to_v2`, from the text its read returned to its compare-and-swap. -/
def migrateStored (stored : List Char) (server : PyStr) (proven : V1LegacyEvidence) :
    Except PyStr (Decision Bool) :=
  match parseAuthorityPayload stored server with
  | .ok _ => .ok (.answer true)
  | .error _ => do
    let legacy ← parseV1Payload stored server
    let sections ← resolveMigrationSections legacy proven
    let candidate ← canonicalRowText
      { server := server, epoch := legacy.epoch, generation := legacy.generation,
        owner := legacy.owner, spawn := sections.1, worker := sections.2 }
    return .swap stored candidate true false

namespace Migration

/-- What a call can raise. -/
inductive Failure where
  /-- `AuthorityError` -/
  | authority (msg : PyStr)
  /-- `AuthorityUnavailableError` -/
  | unavailable (msg : PyStr)
  /-- `UnicodeEncodeError`, of a server name with a surrogate -/
  | unicodeEncode
  deriving DecidableEq

/-- `authority_row_id`; `uuid5` encodes the name. -/
def authorityRowId (server : PyStr) : Except Failure Unit :=
  match requireServerIdentity server with
  | .error msg => .error (.authority msg)
  | .ok name =>
    if name.any fun c => c.isHigh || c.isLow then .error .unicodeEncode else .ok ()

/-- The message of an `AuthorityUnavailableError`. -/
def unreachable : PyStr := "lifecycle authority for server "

/-- A call of `migrate_v1_to_v2`. -/
structure Call where
  server : PyStr
  evidence : Option V1LegacyEvidence

/-- `evidence if evidence is not None else V1LegacyEvidence()`. -/
def Call.proven (call : Call) : V1LegacyEvidence := call.evidence.getD {}

/-- `migrate_v1_to_v2` up to its compare-and-swap. `fetched` is what the row read returned, or
`none` when it raised `psycopg.Error`. -/
def migrateV1ToV2 (fetched : Option (Option (List Char))) (call : Call) :
    Except Failure (Decision Bool) := do
  (checkMigrationEvidence call.proven).mapError .authority
  authorityRowId call.server
  match fetched with
  | none => throw (.unavailable unreachable)
  | some none => throw (.authority noRow)
  | some (some stored) => (migrateStored stored call.server call.proven).mapError .authority

/-- How the transaction of a compare-and-swap goes. -/
inductive Link where
  /-- it commits, and its answer comes back -/
  | answered
  /-- it commits, and the connection is lost before the answer -/
  | unanswered
  /-- the connection is lost before it commits -/
  | lost
  deriving DecidableEq

/-- `_compare_and_swap`: the row it leaves, and what it returns or raises. -/
def compareAndSwap (link : Link) (row : Option (List Char)) (expected candidate : List Char) :
    Option (List Char) × Except Failure Bool :=
  let updated := if row = some expected then some candidate else row
  match link with
  | .answered => (updated, .ok (row = some expected))
  | .unanswered => (updated, .error (.unavailable unreachable))
  | .lost => (row, .error (.unavailable unreachable))

/-! ## Any number of calls

The rest of the system is every other statement on the rows. -/

/-- A call between its read and its compare-and-swap. -/
structure Swapping where
  call : Call
  expected : List Char
  candidate : List Char

/-- The stored row of every server, and the calls under way. -/
structure World where
  rows : PyStr → Option (List Char)
  calls : List Swapping := []

/-- One atomic step. -/
inductive Label where
  /-- another party writes or deletes a row -/
  | write (server : PyStr) (row : Option (List Char))
  /-- the read of a call, which may not reach the database -/
  | read (call : Call) (reached : Bool)
  /-- the compare-and-swap of a call -/
  | swap (i : ℕ) (link : Link)
  /-- a caller dies before its compare-and-swap -/
  | crash (i : ℕ)

namespace World

/-- What the read of a call returns. -/
def fetch (s : World) (call : Call) (reached : Bool) : Option (Option (List Char)) :=
  if reached then some (s.rows call.server) else none

/-- What a call under way does with its compare-and-swap. -/
def settle (s : World) (p : Swapping) (link : Link) : Option (List Char) × Except Failure Bool :=
  compareAndSwap link (s.rows p.call.server) p.expected p.candidate

/-- The step function. -/
def step (s : World) : Label → Option World
  | .write server row => some { s with rows := Function.update s.rows server row }
  | .read call reached =>
    match migrateV1ToV2 (s.fetch call reached) call with
    | .ok (.swap expected candidate _ _) =>
      some { s with calls := s.calls ++ [⟨call, expected, candidate⟩] }
    | _ => some s
  | .swap i link =>
    (s.calls[i]?).map fun p =>
      { rows := Function.update s.rows p.call.server (s.settle p link).1
        calls := s.calls.eraseIdx i }
  | .crash i => some { s with calls := s.calls.eraseIdx i }

/-- The call that ends in this step, and what it returns or raises. -/
def ends (s : World) : Label → Option (Call × Except Failure Bool)
  | .read call reached =>
    match migrateV1ToV2 (s.fetch call reached) call with
    | .ok (.swap _ _ _ _) => none
    | .ok (.answer b) => some (call, .ok b)
    | .error e => some (call, .error e)
  | .swap i link => (s.calls[i]?).map fun p => (p.call, (s.settle p link).2)
  | _ => none

end World

end Migration

/-! ## What a migration writes -/

section Checks

variable {legacy : AuthorityRow} {proven : V1LegacyEvidence} {server : PyStr} {t : List Char}

/-- What the members of a row of version 1 say. -/
structure LegacyFrom (data : List (PyStr × Json)) (server : PyStr) (row : AuthorityRow) : Prop where
  version : (Json.get data "v").eqInt LEGACY_AUTHORITY_VERSION = true
  governs : (Json.get data "server").eqStr server = true
  owner : parseOwner (Json.get data "owner") = .ok row.owner
  spawn : parseSpawn (Json.get data "spawn") = .ok row.spawn
  worker : parseWorker (Json.get data "worker") = .ok row.worker
  exclusive : row.spawn = none ∨ row.worker = none
  named : row.server = server

theorem parseV1Members_eq_ok {data : List (PyStr × Json)}
    (h : parseV1Members data server = .ok legacy) : LegacyFrom data server legacy := by
  simp only [parseV1Members, except_bind_eq_ok, raiseIf_eq_ok, exists_const,
    checkNonNegativeInt_eq_ok, pure, Except.pure, Except.ok.injEq, Bool.or_eq_false_iff,
    Bool.not_eq_false', Bool.and_eq_false_iff] at h
  obtain ⟨⟨hversion, -⟩, -, hgoverns, _, -, _, -, _, howner, _, hspawn, _, hworker, hboth, rfl⟩ := h
  refine ⟨hversion, hgoverns, howner, hspawn, hworker, ?_, rfl⟩
  exact hboth.imp (fun h => by simpa using h) fun h => by simpa using h

theorem parseV1Payload_eq_ok (h : parseV1Payload t server = .ok legacy) :
    ∃ data, loads t = some (.obj data) ∧ LegacyFrom data server legacy := by
  rw [parseV1Payload] at h
  split_ifs at h
  cases hl : loads t with
  | none => rw [hl] at h; cases h
  | some v =>
    rw [hl] at h
    cases v with
    | obj data => exact ⟨data, rfl, parseV1Members_eq_ok h⟩
    | null | bool _ | int _ | float _ | str _ | arr _ => cases h

/-- A row of version 1 is its own joined form. -/
theorem parseV1Payload_joined (h : parseV1Payload t server = .ok legacy) :
    legacy.joined = legacy := by
  obtain ⟨data, hloads, hp⟩ := parseV1Payload_eq_ok h
  exact AuthorityRow.joined_of_members (loads_built hloads) (hp.named ▸ hp.governs) hp.owner
    hp.spawn hp.worker

/-- No text is a row of both versions. -/
theorem parseV1Payload_not_v2 {row : AuthorityRow} (h : parseV1Payload t server = .ok legacy) :
    parseAuthorityPayload t server ≠ .ok row := by
  intro hrow
  obtain ⟨data, hloads, hp⟩ := parseV1Payload_eq_ok h
  obtain ⟨data', hloads', hp'⟩ := parseAuthorityPayload_eq_ok hrow
  obtain rfl := Json.obj.inj (Option.some.inj (hloads.symm.trans hloads'))
  have hversions := Json.eqInt_unique hp.version hp'.version
  exact absurd hversions (by decide)

/-- The sections of a migrated row: those of the row of version 1, completed by the evidence. -/
theorem resolveMigrationSections_eq_ok {spawn : Option SpawnObligation}
    {worker : Option WorkerRecord}
    (h : resolveMigrationSections legacy proven = .ok (spawn, worker)) :
    spawn = legacy.spawn.or proven.spawn ∧ worker = legacy.worker.or proven.liveWorker ∧
      (∀ a ∈ legacy.spawn, ∀ b ∈ proven.spawn, a = b) ∧
      (∀ a ∈ legacy.worker, ∀ b ∈ proven.liveWorker, a = b) ∧ (spawn = none ∨ worker = none) := by
  simp only [resolveMigrationSections, raiseIf_bind_eq_ok, pure, Except.pure, Except.ok.injEq,
    Prod.mk.injEq] at h
  obtain ⟨hspawn, hworker, hboth, rfl, rfl⟩ := h
  refine ⟨?_, ?_, fun a ha b hb => ?_, fun a ha b hb => ?_, ?_⟩
  · cases legacy.spawn <;> rfl
  · cases legacy.worker <;> rfl
  · rw [Option.mem_def.1 ha, Option.mem_def.1 hb] at hspawn
    simpa using hspawn
  · rw [Option.mem_def.1 ha, Option.mem_def.1 hb] at hworker
    simpa using hworker
  · rw [Bool.and_eq_false_iff] at hboth
    exact hboth.imp (fun h => by simpa using h) fun h => by simpa using h

theorem migrateStored_eq_answer {b : Bool} (h : migrateStored t server proven = .ok (.answer b)) :
    b = true ∧ ∃ row, parseAuthorityPayload t server = .ok row := by
  rw [migrateStored] at h
  cases hparse : parseAuthorityPayload t server with
  | ok row =>
    rw [hparse] at h
    exact ⟨(Decision.answer.inj (Except.ok.inj h)).symm, row, rfl⟩
  | error e =>
    rw [hparse] at h
    simp only [except_bind_eq_ok, pure, Except.pure, Except.ok.injEq, reduceCtorEq, and_false,
      exists_false] at h

/-- **What a migration writes**: the canonical text of the row of version 1 with its sections
completed. -/
theorem migrateStored_eq_swap {e c : List Char} {won lost : Bool}
    (h : migrateStored t server proven = .ok (.swap e c won lost)) :
    e = t ∧ won = true ∧ lost = false ∧ ∃ legacy spawn worker,
      parseV1Payload t server = .ok legacy ∧
      resolveMigrationSections legacy proven = .ok (spawn, worker) ∧
      canonicalRowText { legacy with spawn := spawn, worker := worker } = .ok c := by
  rw [migrateStored] at h
  cases hparse : parseAuthorityPayload t server with
  | ok row =>
    rw [hparse] at h
    cases h
  | error e =>
    rw [hparse] at h
    simp only [except_bind_eq_ok, pure, Except.pure, Except.ok.injEq, Decision.swap.injEq] at h
    obtain ⟨legacy, hlegacy, ⟨spawn, worker⟩, hsections, _, htext, rfl, rfl, rfl, rfl⟩ := h
    obtain ⟨data, -, hp⟩ := parseV1Payload_eq_ok hlegacy
    refine ⟨rfl, rfl, rfl, legacy, spawn, worker, hlegacy, hsections, ?_⟩
    rw [← htext, ← hp.named]

/-- The texts of the evidence. -/
def V1LegacyEvidence.texts (proven : V1LegacyEvidence) : List PyStr :=
  proven.spawn.toList.flatMap (fun s => s.token :: s.commit :: s.bootId.toList) ++
    proven.liveWorker.toList.flatMap fun w => [w.token, w.commit, w.workerId]

/-- What a migration is for: the row it leaves carries all the authority of the row of version 1 and
of the evidence. -/
structure Migrated (legacy : AuthorityRow) (proven : V1LegacyEvidence) (row : AuthorityRow) :
    Prop where
  epoch : row.epoch = legacy.epoch
  generation : row.generation = legacy.generation
  owner : row.owner = legacy.owner
  spawn : row.spawn = (legacy.spawn.or proven.spawn).map SpawnObligation.joined
  worker : row.worker = (legacy.worker.or proven.liveWorker).map WorkerRecord.joined
  spawnKept : ∀ s ∈ legacy.spawn, row.spawn = some s
  spawnCarried : ∀ s ∈ proven.spawn, row.spawn = some s.joined
  workerKept : ∀ w ∈ legacy.worker, row.worker = some w
  workerCarried : ∀ w ∈ proven.liveWorker, row.worker = some w.joined
  exclusive : row.spawn = none ∨ row.worker = none
  exact : (∀ text ∈ proven.texts, JsonRoundTrips text) →
    row.spawn = legacy.spawn.or proven.spawn ∧ row.worker = legacy.worker.or proven.liveWorker

/-- A section that agrees with the evidence, completed by it, carries both. -/
theorem carried_of_agree {α : Type} {f : α → α} {x y : Option α} (hx : x.map f = x)
    (hagree : ∀ a ∈ x, ∀ b ∈ y, a = b) :
    (∀ a ∈ x, (x.or y).map f = some a) ∧ ∀ b ∈ y, (x.or y).map f = some (f b) := by
  cases x with
  | none =>
    refine ⟨fun a ha => absurd ha (Option.not_mem_none a), fun b hb => ?_⟩
    rw [Option.none_or, Option.mem_def.1 hb]
    rfl
  | some a =>
    refine ⟨fun b hb => ?_, fun b hb => ?_⟩
    · exact hx.trans hb
    · obtain rfl := hagree a rfl b hb
      rfl

/-- The evidence alone, as a row. -/
theorem V1LegacyEvidence.joined_of_texts (h : ∀ text ∈ proven.texts, JsonRoundTrips text) :
    proven.spawn.map SpawnObligation.joined = proven.spawn ∧
      proven.liveWorker.map WorkerRecord.joined = proven.liveWorker := by
  have hrow : AuthorityRow.joined
      { server := [], epoch := 0, generation := 0, owner := none, spawn := proven.spawn,
        worker := proven.liveWorker } =
      { server := [], epoch := 0, generation := 0, owner := none, spawn := proven.spawn,
        worker := proven.liveWorker } := by
    refine AuthorityRow.joined_of_texts fun text htext => ?_
    rcases List.mem_cons.1 htext with rfl | htext
    · exact jsonRoundTrips_iff.2 rfl
    · exact h text (by simpa [AuthorityRow.texts, V1LegacyEvidence.texts] using htext)
  exact ⟨congrArg AuthorityRow.spawn hrow, congrArg AuthorityRow.worker hrow⟩

/-- **The text a migration writes** parses as a migrated row of version 2. -/
theorem migrateStored_migrated {e c : List Char} {won lost : Bool}
    (h : migrateStored t server proven = .ok (.swap e c won lost)) :
    ∃ legacy row, parseV1Payload t server = .ok legacy ∧
      parseAuthorityPayload c server = .ok row ∧ Migrated legacy proven row := by
  obtain ⟨-, -, -, legacy, spawn, worker, hlegacy, hsections, htext⟩ := migrateStored_eq_swap h
  obtain ⟨data, -, hp⟩ := parseV1Payload_eq_ok hlegacy
  have hjoined := parseV1Payload_joined hlegacy
  have hspawn : legacy.spawn.map SpawnObligation.joined = legacy.spawn :=
    congrArg AuthorityRow.spawn hjoined
  have hworker : legacy.worker.map WorkerRecord.joined = legacy.worker :=
    congrArg AuthorityRow.worker hjoined
  have howner : legacy.owner.map AuthorityOwner.joined = legacy.owner :=
    congrArg AuthorityRow.owner hjoined
  obtain ⟨rfl, rfl, hagreeSpawn, hagreeWorker, hboth⟩ := resolveMigrationSections_eq_ok hsections
  obtain ⟨hspawnKept, hspawnCarried⟩ := carried_of_agree hspawn hagreeSpawn
  obtain ⟨hworkerKept, hworkerCarried⟩ := carried_of_agree hworker hagreeWorker
  have hback := parseAuthorityPayload_canonicalRowText htext
    (congrArg AuthorityRow.server hjoined) hboth
  rw [hp.named] at hback
  refine ⟨legacy, _, hlegacy, hback, rfl, rfl, howner, rfl, rfl, hspawnKept, hspawnCarried,
    hworkerKept, hworkerCarried, ?_, fun htexts => ?_⟩
  · exact hboth.imp Option.map_eq_none_iff.2 Option.map_eq_none_iff.2
  · obtain ⟨hs, hw⟩ := V1LegacyEvidence.joined_of_texts htexts
    constructor
    · show (legacy.spawn.or proven.spawn).map SpawnObligation.joined = _
      rw [Option.map_or, hspawn, hs]
    · show (legacy.worker.or proven.liveWorker).map WorkerRecord.joined = _
      rw [Option.map_or, hworker, hw]

end Checks

namespace Migration

/-! ## How a call ends -/

theorem mapError_eq_ok {ε δ α : Type} {f : ε → δ} {x : Except ε α} {a : α} :
    x.mapError f = .ok a ↔ x = .ok a := by
  cases x <;> simp [Except.mapError]

theorem migrateV1ToV2_eq_ok {fetched : Option (Option (List Char))} {call : Call}
    {d : Decision Bool} :
    migrateV1ToV2 fetched call = .ok d ↔ checkMigrationEvidence call.proven = .ok () ∧
      authorityRowId call.server = .ok () ∧ ∃ t, fetched = some (some t) ∧
        migrateStored t call.server call.proven = .ok d := by
  simp only [migrateV1ToV2, except_bind_eq_ok, mapError_eq_ok]
  constructor
  · rintro ⟨_, hevidence, _, hid, h⟩
    refine ⟨hevidence, hid, ?_⟩
    match fetched with
    | none => cases h
    | some none => cases h
    | some (some t) => exact ⟨t, rfl, mapError_eq_ok.1 h⟩
  · rintro ⟨hevidence, hid, t, rfl, h⟩
    exact ⟨_, hevidence, _, hid, mapError_eq_ok.2 h⟩

namespace World

variable {s m : World} {label : Label} {call : Call} {outcome : Except Failure Bool}

/-- Every compare-and-swap under way was decided on the text it expects. -/
def Inv (s : World) : Prop :=
  ∀ p ∈ s.calls,
    migrateV1ToV2 (some (some p.expected)) p.call = .ok (.swap p.expected p.candidate true false)

theorem fetch_eq_some {reached : Bool} {t : List Char}
    (h : s.fetch call reached = some (some t)) : s.rows call.server = some t := by
  cases reached with
  | true => exact Option.some.inj h
  | false => cases h

theorem Inv.step (hs : s.Inv) (h : s.step label = some m) : m.Inv := by
  cases label with
  | write server row =>
    obtain rfl := Option.some.inj h
    exact hs
  | read call reached =>
    rw [World.step] at h
    split at h
    · rename_i e c won lost hdecide
      obtain rfl := Option.some.inj h
      obtain ⟨hevidence, hid, t, -, hstored⟩ := migrateV1ToV2_eq_ok.1 hdecide
      obtain ⟨rfl, rfl, rfl, -⟩ := migrateStored_eq_swap hstored
      intro p hp
      rcases List.mem_append.1 hp with hp | hp
      · exact hs p hp
      · obtain rfl := List.mem_singleton.1 hp
        exact migrateV1ToV2_eq_ok.2 ⟨hevidence, hid, _, rfl, hstored⟩
    · obtain rfl := Option.some.inj h
      exact hs
  | swap i link =>
    obtain ⟨p, -, rfl⟩ := Option.map_eq_some_iff.1 h
    exact fun q hq => hs q (List.mem_of_mem_eraseIdx hq)
  | crash i =>
    obtain rfl := Option.some.inj h
    exact fun q hq => hs q (List.mem_of_mem_eraseIdx hq)

/-- The row of a call is replaced by one of version 2 that carries all the authority of the row of
version 1, and no other row changes. -/
def Carries (s m : World) (call : Call) (legacy : AuthorityRow) : Prop :=
  ∃ t row, m.rows = Function.update s.rows call.server (some t) ∧
    parseAuthorityPayload t call.server = .ok row ∧ Migrated legacy call.proven row

/-- The ways a call can end. -/
inductive Ended (s m : World) (call : Call) : Except Failure Bool → Prop
  | raised (e : Failure) (hrows : m.rows = s.rows) : Ended s m call (.error e)
  | raced (hrows : m.rows = s.rows) : Ended s m call (.ok false)
  | already {t : List Char} {row : AuthorityRow} (ht : s.rows call.server = some t)
      (hrow : parseAuthorityPayload t call.server = .ok row) (hrows : m.rows = s.rows)
      (hevidence : checkMigrationEvidence call.proven = .ok ())
      (hid : authorityRowId call.server = .ok ()) : Ended s m call (.ok true)
  | migrated {t : List Char} {legacy : AuthorityRow} {outcome : Except Failure Bool}
      (ht : s.rows call.server = some t) (hlegacy : parseV1Payload t call.server = .ok legacy)
      (hcarries : s.Carries m call legacy)
      (houtcome : outcome = .ok true ∨ outcome = .error (.unavailable unreachable))
      (hevidence : checkMigrationEvidence call.proven = .ok ())
      (hid : authorityRowId call.server = .ok ()) : Ended s m call outcome

/-- A compare-and-swap under way, when its transaction runs. -/
theorem settle_ended {p : Swapping} {link : Link} {calls : List Swapping}
    (hp : migrateV1ToV2 (some (some p.expected)) p.call =
      .ok (.swap p.expected p.candidate true false)) :
    Ended s { rows := Function.update s.rows p.call.server (s.settle p link).1, calls := calls }
      p.call (s.settle p link).2 := by
  obtain ⟨hevidence, hid, t, ht, hstored⟩ := migrateV1ToV2_eq_ok.1 hp
  obtain rfl := Option.some.inj (Option.some.inj ht)
  obtain ⟨legacy, row, hlegacy, hrow, hmigrated⟩ := migrateStored_migrated hstored
  have hsame : Function.update s.rows p.call.server (s.rows p.call.server) = s.rows :=
    Function.update_eq_self _ _
  unfold settle compareAndSwap
  by_cases hmatch : s.rows p.call.server = some p.expected
  · have hcarries : s.Carries
        { rows := Function.update s.rows p.call.server (some p.candidate), calls := calls }
        p.call legacy := ⟨p.candidate, row, rfl, hrow, hmigrated⟩
    cases link with
    | answered =>
      simp only [hmatch, decide_true]
      exact .migrated hmatch hlegacy hcarries (.inl rfl) hevidence hid
    | unanswered =>
      simp only [if_pos hmatch]
      exact .migrated hmatch hlegacy hcarries (.inr rfl) hevidence hid
    | lost =>
      exact .raised _ hsame
  · cases link with
    | answered =>
      simp only [hmatch, decide_false]
      exact .raced hsame
    | unanswered =>
      simp only [if_neg hmatch]
      exact .raised _ hsame
    | lost =>
      exact .raised _ hsame

/-- **How a call ends.** -/
theorem ends_cases (hs : s.Inv) (h : s.step label = some m)
    (hends : s.ends label = some (call, outcome)) : Ended s m call outcome := by
  cases label with
  | write server row => cases hends
  | crash i => cases hends
  | read call' reached =>
    rw [World.step] at h
    rw [ends] at hends
    split at hends
    · cases hends
    · rename_i b hdecide
      obtain ⟨rfl, rfl⟩ := Prod.mk.inj (Option.some.inj hends)
      rw [hdecide] at h
      obtain rfl := Option.some.inj h
      obtain ⟨hevidence, hid, t, ht, hstored⟩ := migrateV1ToV2_eq_ok.1 hdecide
      obtain ⟨rfl, row, hrow⟩ := migrateStored_eq_answer hstored
      exact .already (fetch_eq_some ht) hrow rfl hevidence hid
    · rename_i e hdecide
      obtain ⟨rfl, rfl⟩ := Prod.mk.inj (Option.some.inj hends)
      rw [hdecide] at h
      obtain rfl := Option.some.inj h
      exact .raised e rfl
  | swap i link =>
    obtain ⟨p, hp, rfl⟩ := Option.map_eq_some_iff.1 h
    rw [ends, hp] at hends
    obtain ⟨rfl, rfl⟩ := Prod.mk.inj (Option.some.inj hends)
    exact settle_ended (hs p (List.mem_of_getElem? hp))

/-- A call on a row of version 2 changes nothing. -/
theorem read_current {t : List Char} {row : AuthorityRow} (ht : s.rows call.server = some t)
    (hrow : parseAuthorityPayload t call.server = .ok row)
    (hevidence : checkMigrationEvidence call.proven = .ok ())
    (hid : authorityRowId call.server = .ok ()) :
    s.step (.read call true) = some s ∧ s.ends (.read call true) = some (call, .ok true) := by
  have hstored : migrateStored t call.server call.proven = .ok (.answer true) := by
    rw [migrateStored, hrow]
  have hdecide : migrateV1ToV2 (s.fetch call true) call = .ok (.answer true) :=
    migrateV1ToV2_eq_ok.2 ⟨hevidence, hid, t, congrArg some ht, hstored⟩
  constructor
  · rw [World.step, hdecide]
  · rw [ends, hdecide]

end World

open World

/-- **No call leaves less than it found.** In every run, whatever the others do to the rows: a
call that answers `False`, or raises anything but `AuthorityUnavailableError`, leaves every row as
it was; one that raises that error leaves them so, or has migrated the row; one that answers `True`
on a row of version 1 has migrated it; and after an answer `True` every call whose evidence is
accepted answers `True` and changes nothing. -/
theorem migration_atomic (rows : PyStr → Option (List Char)) (labels : List Label) (s m : World)
    (label : Label) (call : Call) (outcome : Except Failure Bool)
    (hrun : exec World.step { rows := rows } labels = some s) (hstep : s.step label = some m)
    (hends : s.ends label = some (call, outcome)) :
    (outcome ≠ .ok true → (∀ msg, outcome ≠ .error (.unavailable msg)) → m.rows = s.rows) ∧
    (∀ msg, outcome = .error (.unavailable msg) → m.rows = s.rows ∨
      ∃ t legacy, s.rows call.server = some t ∧ parseV1Payload t call.server = .ok legacy ∧
        s.Carries m call legacy) ∧
    (outcome = .ok true → ∀ t legacy, s.rows call.server = some t →
      parseV1Payload t call.server = .ok legacy → s.Carries m call legacy) ∧
    (outcome = .ok true → ∀ again : Call, again.server = call.server →
      checkMigrationEvidence again.proven = checkMigrationEvidence call.proven →
        m.step (.read again true) = some m ∧
          m.ends (.read again true) = some (again, .ok true)) := by
  have hinv : s.Inv := by
    refine exec_invariant (fun _ _ _ hs h => Inv.step hs h) ?_ hrun
    intro p hp
    cases hp
  cases ends_cases hinv hstep hends with
  | raised e hrows =>
    refine ⟨fun _ _ => hrows, fun _ _ => .inl hrows, ?_, ?_⟩
    · intro h
      cases h
    · intro h
      cases h
  | raced hrows =>
    refine ⟨fun _ _ => hrows, fun _ _ => .inl hrows, ?_, ?_⟩
    · intro h
      cases h
    · intro h
      cases h
  | @already t row ht hrow hrows hevidence hid =>
    refine ⟨fun h => absurd rfl h, ?_, ?_, ?_⟩
    · intro msg h
      cases h
    · intro _ t' legacy ht' hlegacy
      obtain rfl := Option.some.inj (ht.symm.trans ht')
      exact absurd hrow (parseV1Payload_not_v2 hlegacy)
    · intro _ again hserver haccepted
      have hstored : m.rows again.server = some t := by rw [hrows, hserver, ht]
      have hcurrent : parseAuthorityPayload t again.server = .ok row := by rw [hserver, hrow]
      apply read_current hstored hcurrent (haccepted.trans hevidence)
      rw [hserver, hid]
  | @migrated t legacy _ ht hlegacy hcarries houtcome hevidence hid =>
    refine ⟨fun htrue hunavailable => ?_, fun _ _ => .inr ⟨t, legacy, ht, hlegacy, hcarries⟩,
      ?_, ?_⟩
    · rcases houtcome with h | h
      · exact absurd h htrue
      · exact absurd h (hunavailable _)
    · intro _ t' legacy' ht' hlegacy'
      obtain rfl := Option.some.inj (ht.symm.trans ht')
      obtain rfl := Except.ok.inj (hlegacy.symm.trans hlegacy')
      exact hcarries
    · intro _ again hserver haccepted
      obtain ⟨c, row, hrows, hrow, -⟩ := hcarries
      have hstored : m.rows again.server = some c := by
        rw [hrows, hserver, Function.update_self]
      have hcurrent : parseAuthorityPayload c again.server = .ok row := by rw [hserver, hrow]
      apply read_current hstored hcurrent (haccepted.trans hevidence)
      rw [hserver, hid]

/-! ### A row of version 1 -/

/-- A row of version 1 without sections. -/
def legacyText : List Char :=
  dumps (.obj [member "epoch" (.int 3), member "generation" (.int 7), member "owner" .null,
    member "server" (.str "alpha"), member "type" (.str AUTHORITY_TYPE),
    member "v" (.int LEGACY_AUTHORITY_VERSION)])

/-- The table with that row. -/
def legacyRows : PyStr → Option (List Char) := fun server =>
  if server = "alpha" then some legacyText else none

/-- A migration of the row that names a blocking obligation. -/
def carrying (spawn : SpawnObligation) : Call :=
  { server := "alpha", evidence := some { spawn := some spawn } }

/-- The compare-and-swap a decision issues. -/
def issued : Except Failure (Decision Bool) → Option (List Char × List Char)
  | .ok (.swap expected candidate true false) => some (expected, candidate)
  | _ => none

theorem issued_eq_some {x : Except Failure (Decision Bool)} {e c : List Char}
    (h : issued x = some (e, c)) : x = .ok (.swap e c true false) := by
  unfold issued at h
  split at h
  · obtain ⟨rfl, rfl⟩ := Prod.mk.inj (Option.some.inj h)
    rfl
  · cases h

/-- The read of a migration that issues a compare-and-swap. -/
theorem legacy_read {spawn : SpawnObligation} {t : List Char}
    (h : issued (migrateV1ToV2 (some (some legacyText)) (carrying spawn)) = some (legacyText, t)) :
    exec World.step { rows := legacyRows } [.read (carrying spawn) true] =
      some { rows := legacyRows, calls := [⟨carrying spawn, legacyText, t⟩] } := by
  have hfetch : World.fetch { rows := legacyRows } (carrying spawn) true =
      some (some legacyText) := rfl
  rw [exec_cons, World.step, hfetch, issued_eq_some h]
  rfl

/-- The obligation of the first incarnation goes into the row, and the same call again finds it
there. -/
theorem migration_atomic_spawn :
    ∃ s m legacy, exec World.step { rows := legacyRows }
        [.read (carrying System.firstSpawn) true] = some s ∧
      s.step (.swap 0 .answered) = some m ∧ s.Carries m (carrying System.firstSpawn) legacy ∧
      m.ends (.read (carrying System.firstSpawn) true) =
        some (carrying System.firstSpawn, .ok true) := by
  have hissued : ((issued (migrateV1ToV2 (some (some legacyText))
      (carrying System.firstSpawn))).any fun p => p.1 = legacyText) = true := by decide +kernel
  have hversion : (parseV1Payload legacyText "alpha").toOption.isSome = true := by decide +kernel
  obtain ⟨⟨e, t⟩, hissued, heq⟩ := (Option.any_eq_true _ _).1 hissued
  obtain rfl : e = legacyText := of_decide_eq_true heq
  obtain ⟨legacy, hlegacy⟩ := Option.isSome_iff_exists.1 hversion
  obtain ⟨-, -, hcarries, hagain⟩ := migration_atomic legacyRows _ _ _ (.swap 0 .answered)
    (carrying System.firstSpawn) (.ok true) (legacy_read hissued) rfl rfl
  exact ⟨_, _, legacy, legacy_read hissued, rfl,
    hcarries rfl legacyText legacy rfl (toOption_eq_some.1 hlegacy), (hagain rfl _ rfl rfl).2⟩

/-- An obligation whose token holds a surrogate pair as two code points. -/
def splitSpawn : SpawnObligation := { System.firstSpawn with token := [0xd83d, 0xde00] }

/-- A call whose answer is lost raises, and the row is migrated; and a token that holds a surrogate
pair as two code points is not read back as it was given. -/
theorem lost_answer_raises :
    (∃ s m, exec World.step { rows := legacyRows }
        [.read (carrying System.firstSpawn) true] = some s ∧
      s.step (.swap 0 .unanswered) = some m ∧
      s.ends (.swap 0 .unanswered) =
        some (carrying System.firstSpawn, .error (.unavailable unreachable)) ∧
      m.rows "alpha" ≠ s.rows "alpha") ∧
    ∃ s m t row, exec World.step { rows := legacyRows }
        [.read (carrying splitSpawn) true] = some s ∧
      s.step (.swap 0 .answered) = some m ∧
      s.ends (.swap 0 .answered) = some (carrying splitSpawn, .ok true) ∧
      m.rows "alpha" = some t ∧ parseAuthorityPayload t "alpha" = .ok row ∧
      row.spawn ≠ some splitSpawn := by
  have hfirst : ((issued (migrateV1ToV2 (some (some legacyText))
      (carrying System.firstSpawn))).any fun p => p.1 = legacyText && p.2 ≠ legacyText) = true := by
    decide +kernel
  have hsplit : ((issued (migrateV1ToV2 (some (some legacyText))
      (carrying splitSpawn))).any fun p => p.1 = legacyText &&
        (parseAuthorityPayload p.2 "alpha").toOption.any fun row =>
          row.spawn ≠ some splitSpawn) = true := by decide +kernel
  constructor
  · obtain ⟨⟨e, t⟩, hissued, h⟩ := (Option.any_eq_true _ _).1 hfirst
    simp only [Bool.and_eq_true, decide_eq_true_eq] at h
    obtain ⟨rfl, hnew⟩ := h
    exact ⟨_, _, legacy_read hissued, rfl, rfl, fun hsame => hnew (Option.some.inj hsame)⟩
  · obtain ⟨⟨e, t⟩, hissued, h⟩ := (Option.any_eq_true _ _).1 hsplit
    simp only [Bool.and_eq_true, decide_eq_true_eq] at h
    obtain ⟨rfl, h⟩ := h
    obtain ⟨row, hrow, hother⟩ := (Option.any_eq_true _ _).1 h
    exact ⟨_, _, t, row, legacy_read hissued, rfl, rfl, rfl, toOption_eq_some.1 hrow,
      of_decide_eq_true hother⟩

end Migration

end Lubko.Authority
