import Lubko.Lib.Json

/-!
# The lifecycle authority row

The one row of a server in the jobs table that says who owns it: its data classes, the checks made
when it is written and when it is read, and its canonical text. An integer field is an `int` and a
text field a `str`, so of the type checks on the writing side only those on the values are left.
A message is cut where the source shows the `repr` of a value.

* `parseAuthorityPayload_canonicalRowText` — a written row is read back, with its surrogate pairs
  joined.
* `parseAuthorityPayload_joined` — a row that was read has none left to join.
* `parseAuthorityPayload_exclusive` — and carries an obligation or a worker, not both.
-/

namespace Lubko.Authority

open Lubko.Lib

/-! ## Data classes -/

/-- `AuthorityOwner`: the exact incarnation holding a fencing epoch. -/
structure AuthorityOwner where
  pid : ℤ
  startTimeTicks : ℤ
  bootId : PyStr
  deriving DecidableEq

/-- `SpawnObligation`: a fenced pre-spawn obligation. -/
structure SpawnObligation where
  token : PyStr
  commit : PyStr
  creatorPid : ℤ
  creatorStartTimeTicks : ℤ
  bootId : Option PyStr
  pid : Option ℤ
  startTimeTicks : Option ℤ
  parentDeathSignal : Bool
  deriving DecidableEq

/-- `WorkerRecord`: the published maintained worker. -/
structure WorkerRecord where
  token : PyStr
  commit : PyStr
  pid : ℤ
  pgid : ℤ
  sid : ℤ
  startTimeTicks : ℤ
  workerId : PyStr
  deriving DecidableEq

/-- `AuthorityRow`. -/
structure AuthorityRow where
  server : PyStr
  epoch : ℤ
  generation : ℤ
  owner : Option AuthorityOwner
  spawn : Option SpawnObligation := none
  worker : Option WorkerRecord := none
  deriving DecidableEq

/-- `AUTHORITY_TYPE`. -/
def AUTHORITY_TYPE : PyStr := "lifecycle_authority"

/-- `AUTHORITY_VERSION`. -/
def AUTHORITY_VERSION : ℤ := 2

/-- `AUTHORITY_MAX_BYTES`. -/
def AUTHORITY_MAX_BYTES : ℕ := 4096

/-! ## Field checks -/

/-- `_require_server_identity`. -/
def requireServerIdentity (server : PyStr) : Except PyStr PyStr :=
  if server = [] then .error "lifecycle authority requires a non-empty server identity"
  else .ok server

/-- `_check_non_negative_int`. -/
def checkNonNegativeInt (name : String) (value : Json) : Except PyStr ℤ :=
  match value with
  | .int n =>
    if n < 0 then .error ("authority payload " ++ name ++ " must be a non-negative integer" : String)
    else .ok n
  | _ => .error ("authority payload " ++ name ++ " must be a non-negative integer" : String)

/-- `_check_positive_int`. -/
def checkPositiveInt (name : String) (value : Json) : Except PyStr ℤ :=
  match value with
  | .int n =>
    if n ≤ 0 then .error ("authority payload " ++ name ++ " must be a positive integer" : String)
    else .ok n
  | _ => .error ("authority payload " ++ name ++ " must be a positive integer" : String)

/-- `if not isinstance(value, str) or not value: raise AuthorityError(msg)`. -/
def checkText (msg : PyStr) (value : Json) : Except PyStr PyStr :=
  match value with
  | .str s => if s = [] then .error msg else .ok s
  | _ => .error msg

/-- A check that is made unless the value is null. -/
def checkUnlessNull {α : Type} (check : Json → Except PyStr α) (value : Json) :
    Except PyStr (Option α) :=
  match value with
  | .null => .ok none
  | value => (check value).map some

/-- An optional field; `None` is null. -/
def orNull {α : Type} (f : α → Json) : Option α → Json
  | none => .null
  | some a => f a

/-- One member of a mapping. -/
def member (key : String) (value : Json) : PyStr × Json := (key, value)

/-! ## Sections

A section is checked in the same order and with the same messages when it is written, on the
fields of the record, and when it is read, on the fields of the mapping. -/

/-- The members of an owner's mapping. -/
def AuthorityOwner.members (o : AuthorityOwner) : List (PyStr × Json) :=
  [member "pid" (.int o.pid), member "start_time_ticks" (.int o.startTimeTicks),
    member "boot_id" (.str o.bootId)]

/-- The checks of `_parse_owner`. -/
def checkOwner (field : PyStr → Json) : Except PyStr AuthorityOwner := do
  let pid ← checkPositiveInt "owner.pid" (field "pid")
  let ticks ← checkNonNegativeInt "owner.start_time_ticks" (field "start_time_ticks")
  let bootId ← checkText "authority payload owner must carry a host boot identity"
    (field "boot_id")
  return { pid := pid, startTimeTicks := ticks, bootId := bootId }

/-- `_parse_owner`. -/
def parseOwner (raw : Json) : Except PyStr (Option AuthorityOwner) :=
  match raw with
  | .null => .ok none
  | .obj d => (checkOwner (Json.get d)).map some
  | _ => .error "authority payload owner must be an object or null"

/-- The owner of `build_authority_payload`. -/
def buildOwner (owner : Option AuthorityOwner) : Except PyStr Json :=
  match owner with
  | none => .ok .null
  | some o => (checkOwner (Json.get o.members)).map fun parsed => .obj parsed.members

/-- The members of an obligation's mapping. -/
def SpawnObligation.members (s : SpawnObligation) : List (PyStr × Json) :=
  [member "token" (.str s.token), member "commit" (.str s.commit),
    member "creator_pid" (.int s.creatorPid),
    member "creator_start_time_ticks" (.int s.creatorStartTimeTicks),
    member "boot_id" (orNull .str s.bootId), member "pid" (orNull .int s.pid),
    member "start_time_ticks" (orNull .int s.startTimeTicks),
    member "parent_death_signal" (.bool s.parentDeathSignal)]

/-- The explicit parent-death-signal flag of an obligation. -/
def checkFlag (value : Json) : Except PyStr Bool :=
  match value with
  | .bool b => .ok b
  | _ => .error
    ("authority spawn obligation must carry an explicit boolean " ++ "parent-death-signal flag" :
      String)

/-- The checks of `_build_spawn_mapping` and `_parse_spawn`. -/
def checkSpawn (field : PyStr → Json) : Except PyStr SpawnObligation := do
  let token ← checkText "authority spawn obligation must carry a lifecycle token" (field "token")
  let commit ← checkText "authority spawn obligation must carry an exact commit" (field "commit")
  let creatorPid ← checkNonNegativeInt "spawn.creator_pid" (field "creator_pid")
  let creatorTicks ← checkNonNegativeInt "spawn.creator_start_time_ticks"
    (field "creator_start_time_ticks")
  let bootId ← checkUnlessNull
    (checkText "authority spawn obligation must carry a host boot identity or null")
    (field "boot_id")
  let pid ← checkUnlessNull (checkNonNegativeInt "spawn.pid") (field "pid")
  let ticks ← checkUnlessNull (checkNonNegativeInt "spawn.start_time_ticks")
    (field "start_time_ticks")
  let flag ← checkFlag (field "parent_death_signal")
  return { token := token, commit := commit, creatorPid := creatorPid,
           creatorStartTimeTicks := creatorTicks, bootId := bootId, pid := pid,
           startTimeTicks := ticks, parentDeathSignal := flag }

/-- `_parse_spawn`. -/
def parseSpawn (raw : Json) : Except PyStr (Option SpawnObligation) :=
  match raw with
  | .null => .ok none
  | .obj d => (checkSpawn (Json.get d)).map some
  | _ => .error "authority payload spawn must be an object or null"

/-- `_build_spawn_mapping`. -/
def buildSpawnMapping (spawn : Option SpawnObligation) : Except PyStr Json :=
  match spawn with
  | none => .ok .null
  | some s => (checkSpawn (Json.get s.members)).map fun checked => .obj checked.members

/-- The members of a worker record's mapping. -/
def WorkerRecord.members (w : WorkerRecord) : List (PyStr × Json) :=
  [member "token" (.str w.token), member "commit" (.str w.commit), member "pid" (.int w.pid),
    member "pgid" (.int w.pgid), member "sid" (.int w.sid),
    member "start_time_ticks" (.int w.startTimeTicks), member "worker_id" (.str w.workerId)]

/-- The checks of `_build_worker_mapping` and `_parse_worker`. -/
def checkWorker (field : PyStr → Json) : Except PyStr WorkerRecord := do
  let token ← checkText "authority worker record must carry a lifecycle token" (field "token")
  let commit ← checkText "authority worker record must carry an exact commit" (field "commit")
  let workerId ← checkText "authority worker record must carry a worker identity"
    (field "worker_id")
  let pid ← checkPositiveInt "worker.pid" (field "pid")
  let pgid ← checkNonNegativeInt "worker.pgid" (field "pgid")
  let sid ← checkNonNegativeInt "worker.sid" (field "sid")
  let ticks ← checkNonNegativeInt "worker.start_time_ticks" (field "start_time_ticks")
  return { token := token, commit := commit, pid := pid, pgid := pgid, sid := sid,
           startTimeTicks := ticks, workerId := workerId }

/-- `_parse_worker`. -/
def parseWorker (raw : Json) : Except PyStr (Option WorkerRecord) :=
  match raw with
  | .null => .ok none
  | .obj d => (checkWorker (Json.get d)).map some
  | _ => .error "authority payload worker must be an object or null"

/-- `_build_worker_mapping`. -/
def buildWorkerMapping (worker : Option WorkerRecord) : Except PyStr Json :=
  match worker with
  | none => .ok .null
  | some w => (checkWorker (Json.get w.members)).map fun checked => .obj checked.members

/-! ## The row -/

/-- The members of a payload. -/
def payloadMembers (server : PyStr) (epoch generation : ℤ) (owner spawn worker : Json) :
    List (PyStr × Json) :=
  [member "v" (.int AUTHORITY_VERSION), member "type" (.str AUTHORITY_TYPE),
    member "server" (.str server), member "epoch" (.int epoch),
    member "generation" (.int generation), member "owner" owner, member "spawn" spawn,
    member "worker" worker]

/-- `len(text.encode("utf-8"))` of a text. -/
def encodedLength (text : List Char) : ℕ := (text.map Char.utf8Size).sum

/-- `serialize_authority_payload`. -/
def serializeAuthorityPayload (payload : Json) : Except PyStr (List Char) :=
  if AUTHORITY_MAX_BYTES < encodedLength (dumps payload.sortKeys) then
    .error ("authority payload exceeds the 4096-byte bound; " ++ "the transition is refused" : String)
  else .ok (dumps payload.sortKeys)

/-- `canonical_row_text`, with `build_authority_payload`. -/
def canonicalRowText (row : AuthorityRow) : Except PyStr (List Char) := do
  let server ← requireServerIdentity row.server
  let epoch ← checkNonNegativeInt "epoch" (.int row.epoch)
  let generation ← checkNonNegativeInt "generation" (.int row.generation)
  let owner ← buildOwner row.owner
  let spawn ← buildSpawnMapping row.spawn
  let worker ← buildWorkerMapping row.worker
  serializeAuthorityPayload (.obj (payloadMembers server epoch generation owner spawn worker))

/-- The checks of `parse_authority_payload` on a decoded object. -/
def parseMembers (data : List (PyStr × Json)) (server : PyStr) : Except PyStr AuthorityRow := do
  let version := Json.get data "v"
  raiseIf (!version.eqInt AUTHORITY_VERSION || version matches .bool _)
    "unsupported lifecycle authority version: "
  raiseIf (!(Json.get data "type").eqStr AUTHORITY_TYPE) "payload is not lifecycle authority: "
  raiseIf (!(Json.get data "server").eqStr server)
    "lifecycle authority row governs a different server; holding"
  raiseIf (!Json.hasKey data "spawn" || !Json.hasKey data "worker")
    "authority payload must carry explicit spawn and worker keys"
  let epoch ← checkNonNegativeInt "epoch" (Json.get data "epoch")
  let generation ← checkNonNegativeInt "generation" (Json.get data "generation")
  let owner ← parseOwner (Json.get data "owner")
  let spawn ← parseSpawn (Json.get data "spawn")
  let worker ← parseWorker (Json.get data "worker")
  raiseIf (spawn.isSome && worker.isSome)
    ("authority row cannot carry both a spawn obligation and a published " ++ "worker" : String)
  return { server := server, epoch := epoch, generation := generation, owner := owner,
           spawn := spawn, worker := worker }

/-- `parse_authority_payload` of a stored text. -/
def parseAuthorityPayload (data : List Char) (server : PyStr) : Except PyStr AuthorityRow :=
  if AUTHORITY_MAX_BYTES < encodedLength data then
    .error "authority payload exceeds the documented byte bound"
  else
    match loads data with
    | none => .error "authority payload is not valid JSON: "
    | some (.obj members) => parseMembers members server
    | some _ => .error "authority payload must be a JSON object"

/-- `_neutral_payload`. -/
def neutralPayload (server : PyStr) : Except PyStr (List Char) := do
  let server ← requireServerIdentity server
  canonicalRowText { server := server, epoch := 0, generation := 0, owner := none }

/-! ## What the checks accept -/

section Checks

variable {name : String} {msg : PyStr} {value : Json}

theorem checkNonNegativeInt_eq_ok {n : ℤ} :
    checkNonNegativeInt name value = .ok n ↔ value = .int n ∧ 0 ≤ n := by
  cases value with
  | int m =>
    rw [checkNonNegativeInt]
    split_ifs with hm
    · simp only [Json.int.injEq, false_iff, not_and]
      intro heq
      omega
    · simp only [Except.ok.injEq, Json.int.injEq, iff_self_and]
      intro heq
      omega
  | null | bool _ | float _ | str _ | arr _ | obj _ => simp [checkNonNegativeInt]

theorem checkPositiveInt_eq_ok {n : ℤ} :
    checkPositiveInt name value = .ok n ↔ value = .int n ∧ 0 < n := by
  cases value with
  | int m =>
    rw [checkPositiveInt]
    split_ifs with hm
    · simp only [Json.int.injEq, false_iff, not_and]
      intro heq
      omega
    · simp only [Except.ok.injEq, Json.int.injEq, iff_self_and]
      intro heq
      omega
  | null | bool _ | float _ | str _ | arr _ | obj _ => simp [checkPositiveInt]

theorem checkText_eq_ok {s : PyStr} :
    checkText msg value = .ok s ↔ value = .str s ∧ s ≠ [] := by
  cases value with
  | str t =>
    rw [checkText]
    split_ifs with ht
    · simp only [Json.str.injEq, false_iff, not_and, not_not]
      rintro rfl
      exact ht
    · simp only [Except.ok.injEq, Json.str.injEq, iff_self_and]
      rintro rfl
      exact ht
  | null | bool _ | int _ | float _ | arr _ | obj _ => simp [checkText]

theorem checkFlag_eq_ok {b : Bool} : checkFlag value = .ok b ↔ value = .bool b := by
  cases value with
  | bool c => simp [checkFlag]
  | null | int _ | float _ | str _ | arr _ | obj _ => simp [checkFlag]

theorem checkUnlessNull_eq_ok {α : Type} {check : Json → Except PyStr α} {f : α → Json}
    {P : α → Prop} (hcheck : ∀ v a, check v = .ok a ↔ v = f a ∧ P a) (hf : ∀ a, f a ≠ .null)
    {x : Option α} :
    checkUnlessNull check value = .ok x ↔ value = orNull f x ∧ ∀ a ∈ x, P a := by
  by_cases hnull : value = .null
  · subst hnull
    cases x with
    | none => simp [checkUnlessNull, orNull]
    | some a => simp [checkUnlessNull, orNull, (hf a).symm]
  · have hmap : checkUnlessNull check value = (check value).map some := by
      cases value with
      | null => exact absurd rfl hnull
      | bool _ | int _ | float _ | str _ | arr _ | obj _ => rfl
    rw [hmap]
    cases x with
    | none => cases check value <;> simp [Except.map, orNull, hnull]
    | some a =>
      have hsome : (check value).map some = .ok (some a) ↔ check value = .ok a := by
        cases check value <;> simp [Except.map]
      rw [hsome, hcheck]
      simp [orNull]

theorem checkOptionalText_eq_ok {x : Option PyStr} :
    checkUnlessNull (checkText msg) value = .ok x ↔
      value = orNull .str x ∧ ∀ s ∈ x, s ≠ [] :=
  checkUnlessNull_eq_ok (fun _ _ => checkText_eq_ok) (by simp)

theorem checkOptionalInt_eq_ok {x : Option ℤ} :
    checkUnlessNull (checkNonNegativeInt name) value = .ok x ↔
      value = orNull .int x ∧ ∀ n ∈ x, 0 ≤ n :=
  checkUnlessNull_eq_ok (fun _ _ => checkNonNegativeInt_eq_ok) (by simp)

end Checks

/-- The values an owner may have. -/
structure AuthorityOwner.Valid (o : AuthorityOwner) : Prop where
  pid : 0 < o.pid
  ticks : 0 ≤ o.startTimeTicks
  bootId : o.bootId ≠ []

/-- The values an obligation may have. -/
structure SpawnObligation.Valid (s : SpawnObligation) : Prop where
  token : s.token ≠ []
  commit : s.commit ≠ []
  creatorPid : 0 ≤ s.creatorPid
  creatorTicks : 0 ≤ s.creatorStartTimeTicks
  bootId : ∀ b ∈ s.bootId, b ≠ []
  pid : ∀ n ∈ s.pid, 0 ≤ n
  ticks : ∀ n ∈ s.startTimeTicks, 0 ≤ n

/-- The values a worker record may have. -/
structure WorkerRecord.Valid (w : WorkerRecord) : Prop where
  token : w.token ≠ []
  commit : w.commit ≠ []
  workerId : w.workerId ≠ []
  pid : 0 < w.pid
  pgid : 0 ≤ w.pgid
  sid : 0 ≤ w.sid
  ticks : 0 ≤ w.startTimeTicks

section Sections

variable {field : PyStr → Json}

theorem checkOwner_eq_ok {o : AuthorityOwner} :
    checkOwner field = .ok o ↔ o.Valid ∧ field "pid" = .int o.pid ∧
      field "start_time_ticks" = .int o.startTimeTicks ∧ field "boot_id" = .str o.bootId := by
  simp only [checkOwner, except_bind_eq_ok, checkPositiveInt_eq_ok, checkNonNegativeInt_eq_ok,
    checkText_eq_ok, pure, Except.pure, Except.ok.injEq]
  constructor
  · rintro ⟨pid, ⟨hpid, h1⟩, ticks, ⟨hticks, h2⟩, bootId, ⟨hboot, h3⟩, rfl⟩
    exact ⟨⟨h1, h2, h3⟩, hpid, hticks, hboot⟩
  · rintro ⟨⟨h1, h2, h3⟩, hpid, hticks, hboot⟩
    exact ⟨_, ⟨hpid, h1⟩, _, ⟨hticks, h2⟩, _, ⟨hboot, h3⟩, rfl⟩

theorem checkSpawn_eq_ok {s : SpawnObligation} :
    checkSpawn field = .ok s ↔ s.Valid ∧ field "token" = .str s.token ∧
      field "commit" = .str s.commit ∧ field "creator_pid" = .int s.creatorPid ∧
      field "creator_start_time_ticks" = .int s.creatorStartTimeTicks ∧
      field "boot_id" = orNull .str s.bootId ∧ field "pid" = orNull .int s.pid ∧
      field "start_time_ticks" = orNull .int s.startTimeTicks ∧
      field "parent_death_signal" = .bool s.parentDeathSignal := by
  simp only [checkSpawn, except_bind_eq_ok, checkNonNegativeInt_eq_ok, checkText_eq_ok,
    checkOptionalText_eq_ok, checkOptionalInt_eq_ok, checkFlag_eq_ok, pure, Except.pure,
    Except.ok.injEq]
  constructor
  · rintro ⟨_, ⟨k1, h1⟩, _, ⟨k2, h2⟩, _, ⟨k3, h3⟩, _, ⟨k4, h4⟩, _, ⟨k5, h5⟩, _, ⟨k6, h6⟩, _,
      ⟨k7, h7⟩, _, k8, rfl⟩
    exact ⟨⟨h1, h2, h3, h4, h5, h6, h7⟩, k1, k2, k3, k4, k5, k6, k7, k8⟩
  · rintro ⟨⟨h1, h2, h3, h4, h5, h6, h7⟩, k1, k2, k3, k4, k5, k6, k7, k8⟩
    exact ⟨_, ⟨k1, h1⟩, _, ⟨k2, h2⟩, _, ⟨k3, h3⟩, _, ⟨k4, h4⟩, _, ⟨k5, h5⟩, _, ⟨k6, h6⟩, _,
      ⟨k7, h7⟩, _, k8, rfl⟩

theorem checkWorker_eq_ok {w : WorkerRecord} :
    checkWorker field = .ok w ↔ w.Valid ∧ field "token" = .str w.token ∧
      field "commit" = .str w.commit ∧ field "worker_id" = .str w.workerId ∧
      field "pid" = .int w.pid ∧ field "pgid" = .int w.pgid ∧ field "sid" = .int w.sid ∧
      field "start_time_ticks" = .int w.startTimeTicks := by
  simp only [checkWorker, except_bind_eq_ok, checkPositiveInt_eq_ok, checkNonNegativeInt_eq_ok,
    checkText_eq_ok, pure, Except.pure, Except.ok.injEq]
  constructor
  · rintro ⟨_, ⟨k1, h1⟩, _, ⟨k2, h2⟩, _, ⟨k3, h3⟩, _, ⟨k4, h4⟩, _, ⟨k5, h5⟩, _, ⟨k6, h6⟩, _,
      ⟨k7, h7⟩, rfl⟩
    exact ⟨⟨h1, h2, h3, h4, h5, h6, h7⟩, k1, k2, k3, k4, k5, k6, k7⟩
  · rintro ⟨⟨h1, h2, h3, h4, h5, h6, h7⟩, k1, k2, k3, k4, k5, k6, k7⟩
    exact ⟨_, ⟨k1, h1⟩, _, ⟨k2, h2⟩, _, ⟨k3, h3⟩, _, ⟨k4, h4⟩, _, ⟨k5, h5⟩, _, ⟨k6, h6⟩, _,
      ⟨k7, h7⟩, rfl⟩

end Sections

/-! ## Surrogate pairs of a row -/

/-- The owner as it is read back. -/
def AuthorityOwner.joined (o : AuthorityOwner) : AuthorityOwner :=
  { o with bootId := o.bootId.joinSurrogates }

/-- The obligation as it is read back. -/
def SpawnObligation.joined (s : SpawnObligation) : SpawnObligation :=
  { s with token := s.token.joinSurrogates, commit := s.commit.joinSurrogates,
           bootId := s.bootId.map PyStr.joinSurrogates }

/-- The worker record as it is read back. -/
def WorkerRecord.joined (w : WorkerRecord) : WorkerRecord :=
  { w with token := w.token.joinSurrogates, commit := w.commit.joinSurrogates,
           workerId := w.workerId.joinSurrogates }

/-- The row as it is read back. -/
def AuthorityRow.joined (row : AuthorityRow) : AuthorityRow :=
  { row with server := row.server.joinSurrogates, owner := row.owner.map AuthorityOwner.joined,
             spawn := row.spawn.map SpawnObligation.joined,
             worker := row.worker.map WorkerRecord.joined }

theorem joinSurrogates_ne_nil {s : PyStr} (hs : s ≠ []) : s.joinSurrogates ≠ [] := by
  match s with
  | [] => exact absurd rfl hs
  | [c] => simp [PyStr.joinSurrogates]
  | c :: d :: s =>
    rw [PyStr.joinSurrogates_cons_cons]
    split_ifs <;> simp

theorem AuthorityOwner.Valid.joined {o : AuthorityOwner} (h : o.Valid) : o.joined.Valid :=
  ⟨h.pid, h.ticks, joinSurrogates_ne_nil h.bootId⟩

theorem SpawnObligation.Valid.joined {s : SpawnObligation} (h : s.Valid) : s.joined.Valid := by
  refine ⟨joinSurrogates_ne_nil h.token, joinSurrogates_ne_nil h.commit, h.creatorPid,
    h.creatorTicks, fun b hb => ?_, h.pid, h.ticks⟩
  obtain ⟨c, hc, rfl⟩ := Option.map_eq_some_iff.1 hb
  exact joinSurrogates_ne_nil (h.bootId c hc)

theorem WorkerRecord.Valid.joined {w : WorkerRecord} (h : w.Valid) : w.joined.Valid :=
  ⟨joinSurrogates_ne_nil h.token, joinSurrogates_ne_nil h.commit, joinSurrogates_ne_nil h.workerId,
    h.pid, h.pgid, h.sid, h.ticks⟩

/-! ## Sections read back

The members of a section, sorted and read back, hold the joined record's fields. -/

theorem build_orNull_str (x : Option PyStr) :
    (orNull .str x).sortKeys.build = orNull .str (x.map PyStr.joinSurrogates) := by
  cases x with
  | none => simp [orNull, Json.sortKeys, Json.build]
  | some s => simp [orNull, Json.sortKeys, Json.build]

theorem build_orNull_int (x : Option ℤ) : (orNull .int x).sortKeys.build = orNull .int x := by
  cases x with
  | none => simp [orNull, Json.sortKeys, Json.build]
  | some n => simp [orNull, Json.sortKeys, Json.build]

theorem parseOwner_build {o : AuthorityOwner} (ho : o.Valid) :
    parseOwner (Json.obj o.members).sortKeys.build = .ok (some o.joined) := by
  have hbuild : (Json.obj o.members).sortKeys.build =
      .obj [member "boot_id" (.str o.bootId.joinSurrogates), member "pid" (.int o.pid),
        member "start_time_ticks" (.int o.startTimeTicks)] := rfl
  rw [hbuild, parseOwner, checkOwner_eq_ok.2 ⟨ho.joined, rfl, rfl, rfl⟩]
  rfl

theorem parseSpawn_build {s : SpawnObligation} (hs : s.Valid) :
    parseSpawn (Json.obj s.members).sortKeys.build = .ok (some s.joined) := by
  have hbuild : (Json.obj s.members).sortKeys.build =
      .obj [member "boot_id" (orNull .str s.bootId).sortKeys.build,
        member "commit" (.str s.commit.joinSurrogates), member "creator_pid" (.int s.creatorPid),
        member "creator_start_time_ticks" (.int s.creatorStartTimeTicks),
        member "parent_death_signal" (.bool s.parentDeathSignal),
        member "pid" (orNull .int s.pid).sortKeys.build,
        member "start_time_ticks" (orNull .int s.startTimeTicks).sortKeys.build,
        member "token" (.str s.token.joinSurrogates)] := rfl
  rw [hbuild, build_orNull_str, build_orNull_int, build_orNull_int, parseSpawn,
    checkSpawn_eq_ok.2 ⟨hs.joined, rfl, rfl, rfl, rfl, rfl, rfl, rfl, rfl⟩]
  rfl

theorem parseWorker_build {w : WorkerRecord} (hw : w.Valid) :
    parseWorker (Json.obj w.members).sortKeys.build = .ok (some w.joined) := by
  have hbuild : (Json.obj w.members).sortKeys.build =
      .obj [member "commit" (.str w.commit.joinSurrogates), member "pgid" (.int w.pgid),
        member "pid" (.int w.pid), member "sid" (.int w.sid),
        member "start_time_ticks" (.int w.startTimeTicks),
        member "token" (.str w.token.joinSurrogates),
        member "worker_id" (.str w.workerId.joinSurrogates)] := rfl
  rw [hbuild, parseWorker, checkWorker_eq_ok.2 ⟨hw.joined, rfl, rfl, rfl, rfl, rfl, rfl, rfl⟩]
  rfl

theorem orNull_injective {α : Type} {f : α → Json} (hf : Function.Injective f)
    (hnull : ∀ a, f a ≠ .null) : Function.Injective (orNull f) := by
  intro x y h
  cases x with
  | none =>
    cases y with
    | none => rfl
    | some b => exact absurd h.symm (hnull b)
  | some a =>
    cases y with
    | none => exact absurd h (hnull a)
    | some b => exact congrArg some (hf h)

theorem orNull_printable {α : Type} {f : α → Json} (hf : ∀ a, (f a).sortKeys.Printable)
    (x : Option α) : (orNull f x).sortKeys.Printable := by
  cases x with
  | none => exact trivial
  | some a => exact hf a

/-- An owner is written exactly when its values are valid, as its members. -/
theorem buildOwner_some {o : AuthorityOwner} {m : Json} :
    buildOwner (some o) = .ok m ↔ o.Valid ∧ m = .obj o.members := by
  have hcheck : o.Valid → checkOwner (Json.get o.members) = .ok o :=
    fun h => checkOwner_eq_ok.2 ⟨h, rfl, rfl, rfl⟩
  rw [buildOwner]
  constructor
  · intro h
    cases hc : checkOwner (Json.get o.members) with
    | error e => rw [hc] at h; cases h
    | ok p =>
      rw [hc] at h
      obtain ⟨hvalid, hpid, hticks, hboot⟩ := checkOwner_eq_ok.1 hc
      obtain rfl : o = p := by
        cases o; cases p
        simp only [AuthorityOwner.mk.injEq]
        exact ⟨Json.int.inj hpid, Json.int.inj hticks, Json.str.inj hboot⟩
      exact ⟨hvalid, (Except.ok.inj h).symm⟩
  · intro ⟨hvalid, hm⟩
    rw [hcheck hvalid, hm]
    rfl

/-- A written section is printable, and reads back as the joined record. -/
theorem buildOwner_eq_ok {owner : Option AuthorityOwner} {m : Json} (h : buildOwner owner = .ok m) :
    m.sortKeys.Printable ∧ parseOwner m.sortKeys.build = .ok (owner.map AuthorityOwner.joined) := by
  cases owner with
  | none =>
    obtain rfl := Except.ok.inj h
    exact ⟨trivial, rfl⟩
  | some o =>
    obtain ⟨hvalid, rfl⟩ := buildOwner_some.1 h
    exact ⟨⟨trivial, trivial, trivial, trivial⟩, parseOwner_build hvalid⟩

/-- An obligation is written exactly when its values are valid, as its members. -/
theorem buildSpawnMapping_some {s : SpawnObligation} {m : Json} :
    buildSpawnMapping (some s) = .ok m ↔ s.Valid ∧ m = .obj s.members := by
  have hstr : Function.Injective (orNull Json.str) :=
    orNull_injective (fun _ _ h => Json.str.inj h) (by simp)
  have hint : Function.Injective (orNull Json.int) :=
    orNull_injective (fun _ _ h => Json.int.inj h) (by simp)
  have hcheck : s.Valid → checkSpawn (Json.get s.members) = .ok s :=
    fun h => checkSpawn_eq_ok.2 ⟨h, rfl, rfl, rfl, rfl, rfl, rfl, rfl, rfl⟩
  rw [buildSpawnMapping]
  constructor
  · intro h
    cases hc : checkSpawn (Json.get s.members) with
    | error e => rw [hc] at h; cases h
    | ok p =>
      rw [hc] at h
      obtain ⟨hvalid, h1, h2, h3, h4, h5, h6, h7, h8⟩ := checkSpawn_eq_ok.1 hc
      obtain rfl : s = p := by
        cases s; cases p
        simp only [SpawnObligation.mk.injEq]
        exact ⟨Json.str.inj h1, Json.str.inj h2, Json.int.inj h3, Json.int.inj h4, hstr h5, hint h6,
          hint h7, Json.bool.inj h8⟩
      exact ⟨hvalid, (Except.ok.inj h).symm⟩
  · intro ⟨hvalid, hm⟩
    rw [hcheck hvalid, hm]
    rfl

theorem buildSpawnMapping_eq_ok {spawn : Option SpawnObligation} {m : Json}
    (h : buildSpawnMapping spawn = .ok m) :
    m.sortKeys.Printable ∧ parseSpawn m.sortKeys.build = .ok (spawn.map SpawnObligation.joined) := by
  cases spawn with
  | none =>
    obtain rfl := Except.ok.inj h
    exact ⟨trivial, rfl⟩
  | some s =>
    obtain ⟨hvalid, rfl⟩ := buildSpawnMapping_some.1 h
    have hpstr : ∀ x, (orNull Json.str x).sortKeys.Printable := orNull_printable fun _ => trivial
    have hpint : ∀ x, (orNull Json.int x).sortKeys.Printable := orNull_printable fun _ => trivial
    exact ⟨⟨hpstr s.bootId, trivial, trivial, trivial, trivial, hpint s.pid,
      hpint s.startTimeTicks, trivial, trivial⟩, parseSpawn_build hvalid⟩

/-- A worker record is written exactly when its values are valid, as its members. -/
theorem buildWorkerMapping_some {w : WorkerRecord} {m : Json} :
    buildWorkerMapping (some w) = .ok m ↔ w.Valid ∧ m = .obj w.members := by
  have hcheck : w.Valid → checkWorker (Json.get w.members) = .ok w :=
    fun h => checkWorker_eq_ok.2 ⟨h, rfl, rfl, rfl, rfl, rfl, rfl, rfl⟩
  rw [buildWorkerMapping]
  constructor
  · intro h
    cases hc : checkWorker (Json.get w.members) with
    | error e => rw [hc] at h; cases h
    | ok p =>
      rw [hc] at h
      obtain ⟨hvalid, h1, h2, h3, h4, h5, h6, h7⟩ := checkWorker_eq_ok.1 hc
      obtain rfl : w = p := by
        cases w; cases p
        simp only [WorkerRecord.mk.injEq]
        exact ⟨Json.str.inj h1, Json.str.inj h2, Json.int.inj h4, Json.int.inj h5, Json.int.inj h6,
          Json.int.inj h7, Json.str.inj h3⟩
      exact ⟨hvalid, (Except.ok.inj h).symm⟩
  · intro ⟨hvalid, hm⟩
    rw [hcheck hvalid, hm]
    rfl

theorem buildWorkerMapping_eq_ok {worker : Option WorkerRecord} {m : Json}
    (h : buildWorkerMapping worker = .ok m) :
    m.sortKeys.Printable ∧ parseWorker m.sortKeys.build = .ok (worker.map WorkerRecord.joined) := by
  cases worker with
  | none =>
    obtain rfl := Except.ok.inj h
    exact ⟨trivial, rfl⟩
  | some w =>
    obtain ⟨hvalid, rfl⟩ := buildWorkerMapping_some.1 h
    exact ⟨⟨trivial, trivial, trivial, trivial, trivial, trivial, trivial, trivial⟩,
      parseWorker_build hvalid⟩

/-! ## The row read back -/

theorem requireServerIdentity_eq_ok {server s : PyStr} :
    requireServerIdentity server = .ok s ↔ server ≠ [] ∧ s = server := by
  rw [requireServerIdentity]
  split_ifs with h
  · simp [h]
  · simp [h, eq_comm]

/-- A written row, section by section. -/
theorem canonicalRowText_eq_ok {row : AuthorityRow} {t : List Char}
    (h : canonicalRowText row = .ok t) :
    0 ≤ row.epoch ∧ 0 ≤ row.generation ∧ ∃ owner spawn worker, buildOwner row.owner = .ok owner ∧
      buildSpawnMapping row.spawn = .ok spawn ∧ buildWorkerMapping row.worker = .ok worker ∧
      encodedLength t ≤ AUTHORITY_MAX_BYTES ∧
      t = dumps (Json.obj (payloadMembers row.server row.epoch row.generation owner spawn
        worker)).sortKeys := by
  simp only [canonicalRowText, except_bind_eq_ok, requireServerIdentity_eq_ok,
    checkNonNegativeInt_eq_ok] at h
  obtain ⟨_, ⟨-, rfl⟩, _, ⟨he, hepoch⟩, _, ⟨hg, hgen⟩, owner, ho, spawn, hs, worker, hw, ht⟩ := h
  obtain rfl := Json.int.inj he
  obtain rfl := Json.int.inj hg
  rw [serializeAuthorityPayload] at ht
  split_ifs at ht with hlen
  obtain rfl := Except.ok.inj ht
  exact ⟨hepoch, hgen, owner, spawn, worker, ho, hs, hw, not_lt.1 hlen, rfl⟩

/-- What the members of a payload say when they parse as a row. -/
structure ParsedFrom (data : List (PyStr × Json)) (server : PyStr) (row : AuthorityRow) : Prop where
  version : (Json.get data "v").eqInt AUTHORITY_VERSION = true
  notBool : (Json.get data "v" matches .bool _) = false
  type : (Json.get data "type").eqStr AUTHORITY_TYPE = true
  governs : (Json.get data "server").eqStr server = true
  explicit : Json.hasKey data "spawn" = true ∧ Json.hasKey data "worker" = true
  epoch : Json.get data "epoch" = .int row.epoch
  epochNonneg : 0 ≤ row.epoch
  generation : Json.get data "generation" = .int row.generation
  generationNonneg : 0 ≤ row.generation
  owner : parseOwner (Json.get data "owner") = .ok row.owner
  spawn : parseSpawn (Json.get data "spawn") = .ok row.spawn
  worker : parseWorker (Json.get data "worker") = .ok row.worker
  exclusive : row.spawn = none ∨ row.worker = none
  named : row.server = server

theorem parseMembers_eq_ok {data : List (PyStr × Json)} {server : PyStr} {row : AuthorityRow} :
    parseMembers data server = .ok row ↔ ParsedFrom data server row := by
  simp only [parseMembers, except_bind_eq_ok, raiseIf_eq_ok, exists_const, checkNonNegativeInt_eq_ok,
    pure, Except.pure, Except.ok.injEq, Bool.or_eq_false_iff, Bool.not_eq_false',
    Bool.and_eq_false_iff]
  constructor
  · rintro ⟨⟨hv, hb⟩, ht, hs, hk, _, ⟨he, he'⟩, _, ⟨hg, hg'⟩, _, ho, _, hsp, _, hw, hx, rfl⟩
    exact ⟨hv, hb, ht, hs, hk, he, he', hg, hg', ho, hsp, hw,
      hx.imp (fun h => by simpa using h) fun h => by simpa using h, rfl⟩
  · rintro ⟨hv, hb, ht, hs, hk, he, he', hg, hg', ho, hsp, hw, hx, rfl⟩
    exact ⟨⟨hv, hb⟩, ht, hs, hk, _, ⟨he, he'⟩, _, ⟨hg, hg'⟩, _, ho, _, hsp, _, hw,
      hx.imp (fun h => by simp [h]) fun h => by simp [h], rfl⟩

/-- A text that parses is the text of an object that does. -/
theorem parseAuthorityPayload_eq_ok {t : List Char} {server : PyStr} {row : AuthorityRow}
    (h : parseAuthorityPayload t server = .ok row) :
    ∃ data, loads t = some (.obj data) ∧ ParsedFrom data server row := by
  rw [parseAuthorityPayload] at h
  split_ifs at h
  cases hl : loads t with
  | none => rw [hl] at h; cases h
  | some v =>
    rw [hl] at h
    cases v with
    | obj data => exact ⟨data, rfl, parseMembers_eq_ok.1 h⟩
    | null | bool _ | int _ | float _ | str _ | arr _ => cases h

/-- **A written row is read back**, with its surrogate pairs joined. -/
theorem parseAuthorityPayload_canonicalRowText {row : AuthorityRow} {t : List Char}
    (h : canonicalRowText row = .ok t) (hserver : row.server.joinSurrogates = row.server)
    (hboth : row.spawn = none ∨ row.worker = none) :
    parseAuthorityPayload t row.server = .ok row.joined := by
  obtain ⟨hepoch, hgen, owner, spawn, worker, ho, hs, hw, hlen, rfl⟩ := canonicalRowText_eq_ok h
  obtain ⟨hop, ho⟩ := buildOwner_eq_ok ho
  obtain ⟨hsp, hs⟩ := buildSpawnMapping_eq_ok hs
  obtain ⟨hwp, hw⟩ := buildWorkerMapping_eq_ok hw
  have hprint : (Json.obj (payloadMembers row.server row.epoch row.generation owner spawn
      worker)).sortKeys.Printable :=
    ⟨trivial, trivial, hop, trivial, hsp, trivial, trivial, hwp, trivial⟩
  have hbuild : (Json.obj (payloadMembers row.server row.epoch row.generation owner spawn
      worker)).sortKeys.build =
      .obj [member "epoch" (.int row.epoch), member "generation" (.int row.generation),
        member "owner" owner.sortKeys.build, member "server" (.str row.server.joinSurrogates),
        member "spawn" spawn.sortKeys.build, member "type" (.str AUTHORITY_TYPE),
        member "v" (.int AUTHORITY_VERSION), member "worker" worker.sortKeys.build] := rfl
  rw [parseAuthorityPayload, if_neg (not_lt.2 hlen), loads_dumps hprint, hbuild, hserver]
  refine parseMembers_eq_ok.2 ⟨rfl, rfl, rfl, ?_, ⟨rfl, rfl⟩, rfl, hepoch, rfl, hgen, ho, hs, hw,
    hboth.imp (fun h => by simp [AuthorityRow.joined, h])
      fun h => by simp [AuthorityRow.joined, h], hserver⟩
  exact decide_eq_true rfl

/-- A row carries an obligation or a worker, not both. -/
theorem parseAuthorityPayload_exclusive {t : List Char} {server : PyStr} {row : AuthorityRow}
    (h : parseAuthorityPayload t server = .ok row) : row.spawn = none ∨ row.worker = none := by
  obtain ⟨data, -, hparsed⟩ := parseAuthorityPayload_eq_ok h
  exact hparsed.exclusive

theorem parseAuthorityPayload_server {t : List Char} {server : PyStr} {row : AuthorityRow}
    (h : parseAuthorityPayload t server = .ok row) : row.server = server := by
  obtain ⟨data, -, hparsed⟩ := parseAuthorityPayload_eq_ok h
  exact hparsed.named

/-! ## A row that was read has no pair left -/

theorem orNull_built {x : Option PyStr} (h : (orNull Json.str x).Built) :
    x.map PyStr.joinSurrogates = x := by
  cases x with
  | none => rfl
  | some s => exact congrArg some h.joined

theorem parseOwner_joined {raw : Json} {owner : Option AuthorityOwner} (hraw : raw.Built)
    (h : parseOwner raw = .ok owner) : owner.map AuthorityOwner.joined = owner := by
  cases raw with
  | null => obtain rfl := Except.ok.inj h; rfl
  | obj d =>
    rw [parseOwner] at h
    cases hc : checkOwner (Json.get d) with
    | error e => rw [hc] at h; cases h
    | ok o =>
      rw [hc] at h
      obtain rfl := Except.ok.inj h
      obtain ⟨-, -, -, hboot⟩ := checkOwner_eq_ok.1 hc
      have hjoin : o.bootId.joinSurrogates = o.bootId := (hboot ▸ hraw.get "boot_id").joined
      rw [Option.map_some, AuthorityOwner.joined, hjoin]
  | bool _ | int _ | float _ | str _ | arr _ => cases h

theorem parseSpawn_joined {raw : Json} {spawn : Option SpawnObligation} (hraw : raw.Built)
    (h : parseSpawn raw = .ok spawn) : spawn.map SpawnObligation.joined = spawn := by
  cases raw with
  | null => obtain rfl := Except.ok.inj h; rfl
  | obj d =>
    rw [parseSpawn] at h
    cases hc : checkSpawn (Json.get d) with
    | error e => rw [hc] at h; cases h
    | ok s =>
      rw [hc] at h
      obtain rfl := Except.ok.inj h
      obtain ⟨-, h1, h2, -, -, h5, -⟩ := checkSpawn_eq_ok.1 hc
      have htoken : s.token.joinSurrogates = s.token := (h1 ▸ hraw.get "token").joined
      have hcommit : s.commit.joinSurrogates = s.commit := (h2 ▸ hraw.get "commit").joined
      have hboot : s.bootId.map PyStr.joinSurrogates = s.bootId :=
        orNull_built (h5 ▸ hraw.get "boot_id")
      rw [Option.map_some, SpawnObligation.joined, htoken, hcommit, hboot]
  | bool _ | int _ | float _ | str _ | arr _ => cases h

theorem parseWorker_joined {raw : Json} {worker : Option WorkerRecord} (hraw : raw.Built)
    (h : parseWorker raw = .ok worker) : worker.map WorkerRecord.joined = worker := by
  cases raw with
  | null => obtain rfl := Except.ok.inj h; rfl
  | obj d =>
    rw [parseWorker] at h
    cases hc : checkWorker (Json.get d) with
    | error e => rw [hc] at h; cases h
    | ok w =>
      rw [hc] at h
      obtain rfl := Except.ok.inj h
      obtain ⟨-, h1, h2, h3, -⟩ := checkWorker_eq_ok.1 hc
      have htoken : w.token.joinSurrogates = w.token := (h1 ▸ hraw.get "token").joined
      have hcommit : w.commit.joinSurrogates = w.commit := (h2 ▸ hraw.get "commit").joined
      have hid : w.workerId.joinSurrogates = w.workerId := (h3 ▸ hraw.get "worker_id").joined
      rw [Option.map_some, WorkerRecord.joined, htoken, hcommit, hid]
  | bool _ | int _ | float _ | str _ | arr _ => cases h

/-- A row built from the members of a decoded object is its own joined form. -/
theorem AuthorityRow.joined_of_members {data : List (PyStr × Json)} {row : AuthorityRow}
    (hbuilt : Json.Built (.obj data)) (hgoverns : (Json.get data "server").eqStr row.server = true)
    (howner : parseOwner (Json.get data "owner") = .ok row.owner)
    (hspawn : parseSpawn (Json.get data "spawn") = .ok row.spawn)
    (hworker : parseWorker (Json.get data "worker") = .ok row.worker) : row.joined = row := by
  have hserver : row.server.joinSurrogates = row.server := by
    cases hs : Json.get data "server" with
    | str s =>
      rw [hs] at hgoverns
      obtain rfl : s = row.server := of_decide_eq_true hgoverns
      exact (hs ▸ hbuilt.get "server").joined
    | null | bool _ | int _ | float _ | arr _ | obj _ =>
      rw [hs] at hgoverns
      cases hgoverns
  rw [AuthorityRow.joined, hserver, parseOwner_joined (hbuilt.get "owner") howner,
    parseSpawn_joined (hbuilt.get "spawn") hspawn,
    parseWorker_joined (hbuilt.get "worker") hworker]

/-- A row that was read is its own joined form. -/
theorem parseAuthorityPayload_joined {t : List Char} {server : PyStr} {row : AuthorityRow}
    (h : parseAuthorityPayload t server = .ok row) : row.joined = row := by
  obtain ⟨data, hloads, hp⟩ := parseAuthorityPayload_eq_ok h
  exact AuthorityRow.joined_of_members (loads_built hloads) (hp.named ▸ hp.governs) hp.owner
    hp.spawn hp.worker

end Lubko.Authority
