import Lubko.Lib.JsonObject

/-!
# The durable supervisor state

`SupervisorState` of `supervise.py` with its nested records: how each is written to `state.json` and
read from it, the holds a malformed field leaves behind, and `read_state` on any content of the
file.
A mapping is read through its lookup function, so `data.get(key)`, `data[key]` and `key in data`
are all about one `Option`. A float is the rational it stands for; `float.__repr__` is a parameter.
-/

namespace Lubko.Supervise

open Lubko.Lib

/-! ## Records -/

/-- `SCHEMA_VERSION`. -/
def SCHEMA_VERSION : ℤ := 1

/-- `MODE_RUN` and `MODE_IDLE`. -/
inductive Mode where
  | run
  | idle
  deriving DecidableEq

/-- `INTENT_RUN` and `INTENT_RETIRING`. -/
inductive Intent where
  | run
  | retiring
  deriving DecidableEq

/-- `WorkerChild`. -/
structure WorkerChild where
  pid : ℤ
  pgid : ℤ
  sid : ℤ
  startTimeTicks : ℤ
  token : PyStr
  workerId : PyStr
  spawnedAt : ℚ
  deriving DecidableEq

/-- `UnresolvedChild`. -/
structure UnresolvedChild where
  pid : ℤ
  startTimeTicks : Option ℤ
  token : PyStr
  spawnedAt : ℚ
  deriving DecidableEq

/-- `SpawningObligation`. -/
structure SpawningObligation where
  token : PyStr
  commit : PyStr
  creatorPid : ℤ
  creatorStartTimeTicks : ℤ
  pid : Option ℤ
  startTimeTicks : Option ℤ
  createdAt : ℚ
  bootId : Option PyStr
  parentDeathSignal : Bool := true
  deriving DecidableEq

/-- `LastExit`. -/
structure LastExit where
  returncode : Option ℤ
  moment : ℚ
  deriving DecidableEq

/-- `SupervisorState`. -/
structure SupervisorState where
  schemaVersion : ℤ
  appliedGeneration : ℤ
  mode : Mode
  commit : Option PyStr
  child : Option WorkerChild
  unresolvedChild : Option UnresolvedChild
  ownershipHoldMalformed : Bool
  unresolvedHoldMalformed : Bool
  spawning : Option SpawningObligation
  spawningHoldMalformed : Bool
  intent : Intent
  restartCount : ℤ
  nextAttemptAt : Option ℚ
  lastExit : Option LastExit
  lastSpawnAt : Option ℚ
  ready : Bool
  nextReadinessAt : Option ℚ
  bootId : Option PyStr
  supervisorRuntimeCommit : Option PyStr := none
  deriving DecidableEq

/-- `fresh_state`. -/
def freshState : SupervisorState where
  schemaVersion := SCHEMA_VERSION
  appliedGeneration := 0
  mode := .idle
  commit := none
  child := none
  unresolvedChild := none
  ownershipHoldMalformed := false
  unresolvedHoldMalformed := false
  spawning := none
  spawningHoldMalformed := false
  intent := .run
  restartCount := 0
  nextAttemptAt := none
  lastExit := none
  lastSpawnAt := none
  ready := false
  nextReadinessAt := none
  bootId := none

/-! ## Values -/

/-- `data.get(key)`, `data[key]` and `key in data` on a mapping. -/
abbrev Fields := PyStr → Option Json

/-- `data.get(key)`. -/
def Fields.get (data : Fields) (key : String) : Json := (data key).getD .null

/-- `_strict_int`. -/
def strictInt : Json → Option ℤ
  | .int n => some n
  | _ => none

/-- `_strict_non_negative_int`. -/
def strictNonNegativeInt (value : Json) : Option ℤ := (strictInt value).filter (0 ≤ ·)

/-- The value of a float literal, when it is finite. -/
def literalFloat? : List Char → Option ℚ
  | 'N' :: _ | 'I' :: _ => none
  | t => roundBinary64 (literalValue t)

/-- `_strict_finite_float`: a finite number; an `int` too large for a float is refused. -/
def strictFiniteFloat : Json → Option ℚ
  | .int n => if n < 0 then (roundBinary64 (-n : ℚ)).map Neg.neg else roundBinary64 (n : ℚ)
  | .float ('-' :: t) => (literalFloat? t).map Neg.neg
  | .float t => literalFloat? t
  | _ => none

/-- `_strict_non_negative_finite_float`. -/
def strictNonNegativeFiniteFloat (value : Json) : Option ℚ :=
  (strictFiniteFloat value).filter (0 ≤ ·)

/-- `_optional_string`. -/
def optionalString : Json → Option PyStr
  | .str s => some s
  | _ => none

/-- A character of `[a-zA-Z0-9_-]`. -/
def safeFilenameChar (c : CodePoint) : Bool :=
  (0x61 ≤ c.val && c.val ≤ 0x7a) || (0x41 ≤ c.val && c.val ≤ 0x5a) ||
    (0x30 ≤ c.val && c.val ≤ 0x39) || c.val = 0x5f || c.val = 0x2d

/-- `validate_incarnation_token` returns: the `$` of the pattern also matches before a final line
break. -/
def validIncarnationToken (token : PyStr) : Bool :=
  let body := if token.getLast? = some 0x0a then token.dropLast else token
  !body.isEmpty && body.all safeFilenameChar

/-- `_optional_incarnation_token`. -/
def optionalIncarnationToken (value : Json) : Option PyStr :=
  (optionalString value).filter validIncarnationToken

/-- A field that is absent reads as its default, and a present one is parsed. -/
def presentOr {α : Type} (default : α) (parse : Json → Option α) : Option Json → Option α
  | none => some default
  | some value => parse value

/-- `None if raw is None else parse(raw)`, for `raw = data.get(key)`. -/
def unlessNull {α : Type} (parse : Json → Option α) : Json → Option (Option α)
  | .null => some none
  | value => (parse value).map some

/-- `if parsed is None: raise ValueError(msg)`. -/
def orRaise {α : Type} (msg : PyStr) : Option α → Except PyStr α
  | none => .error msg
  | some a => .ok a

/-- An optional value as JSON; `None` is null. -/
def orNull {α : Type} (f : α → Json) : Option α → Json
  | none => .null
  | some a => f a

/-! ## Reading the records -/

/-- `_child_from_dict`. -/
def childFromDict (data : Fields) : Except PyStr WorkerChild :=
  orRaise "supervisor worker child identity is malformed" do
    let pid ← strictNonNegativeInt (data.get "pid")
    let pgid ← strictNonNegativeInt (data.get "pgid")
    let sid ← strictNonNegativeInt (data.get "sid")
    let startTimeTicks ← strictNonNegativeInt (data.get "start_time_ticks")
    let token ← optionalIncarnationToken (data.get "token")
    let workerId ← optionalString (data.get "worker_id")
    let spawnedAt ← presentOr 0 strictNonNegativeFiniteFloat (data "spawned_at")
    return { pid, pgid, sid, startTimeTicks, token, workerId, spawnedAt }

/-- `UnresolvedChild.from_dict`. -/
def UnresolvedChild.fromDict (data : Fields) : Except PyStr UnresolvedChild :=
  orRaise "unresolved child hold is malformed" do
    let pid ← strictNonNegativeInt (data.get "pid")
    let token ← optionalIncarnationToken (data.get "token")
    let startTimeTicks ← unlessNull strictNonNegativeInt (data.get "start_time_ticks")
    let spawnedAt ← presentOr 0 strictNonNegativeFiniteFloat (data "spawned_at")
    return { pid, startTimeTicks, token, spawnedAt }

/-- The parent-death-signal flag: a present key must carry a boolean. -/
def parentDeathSignalOf : Option Json → Except PyStr Bool
  | none => .ok true
  | some (.bool b) => .ok b
  | some _ => .error "spawning obligation parent-death-signal flag is malformed"

/-- `SpawningObligation.from_dict`. -/
def SpawningObligation.fromDict (data : Fields) : Except PyStr SpawningObligation := do
  let obligation ← orRaise "spawning obligation is malformed" do
    let token ← optionalIncarnationToken (data.get "token")
    let creatorPid ← strictNonNegativeInt (data.get "creator_pid")
    let creatorStartTimeTicks ← strictNonNegativeInt (data.get "creator_start_time_ticks")
    let commit ← presentOr [] optionalString (data "commit")
    let pid ← unlessNull strictNonNegativeInt (data.get "pid")
    let startTimeTicks ← unlessNull strictNonNegativeInt (data.get "start_time_ticks")
    let createdAt ← presentOr 0 strictNonNegativeFiniteFloat (data "created_at")
    let bootId ← unlessNull optionalString (data.get "boot_id")
    return SpawningObligation.mk token commit creatorPid creatorStartTimeTicks pid startTimeTicks
      createdAt bootId true
  let parentDeathSignal ← parentDeathSignalOf (data "parent_death_signal")
  return { obligation with parentDeathSignal }

/-- The three nullable records of the state: the record, and whether a present one was malformed. -/
def parseOptionalRecord {α : Type} (fromDict : Fields → Except PyStr α) :
    Json → Option α × Bool
  | .null => (none, false)
  | .obj members =>
    match fromDict (memberOf members) with
    | .ok record => (some record, false)
    | .error _ => (none, true)
  | _ => (none, true)

/-- `_parse_optional_child`. -/
def parseOptionalChild (data : Fields) : Option WorkerChild × Bool :=
  parseOptionalRecord childFromDict (data.get "child")

/-- `_parse_optional_unresolved_child`. -/
def parseOptionalUnresolvedChild (data : Fields) : Option UnresolvedChild × Bool :=
  parseOptionalRecord UnresolvedChild.fromDict (data.get "unresolved_child")

/-- `_parse_optional_spawning`. -/
def parseOptionalSpawning (data : Fields) : Option SpawningObligation × Bool :=
  parseOptionalRecord SpawningObligation.fromDict (data.get "spawning")

/-- `_parse_present_strict`, with the parser both callers give it. -/
def parsePresentStrict (data : Fields) (key : String) : ℤ × Bool :=
  match data key with
  | none => (0, false)
  | some value => ((strictNonNegativeInt value).getD 0, (strictNonNegativeInt value).isNone)

/-- `_parse_present_nullable_float`. -/
def parsePresentNullableFloat (data : Fields) (key : String) : Option ℚ × Bool :=
  match data.get key with
  | .null => (none, false)
  | raw => (strictFiniteFloat raw, (strictFiniteFloat raw).isNone)

/-- `_parse_present_nullable_monotonic_float`. -/
def parsePresentNullableMonotonicFloat (data : Fields) (key : String) : Option ℚ × Bool :=
  match parsePresentNullableFloat data key with
  | (some value, false) => if 0 ≤ value then (some value, false) else (none, true)
  | parsed => parsed

/-- `_parse_present_boot_identity`. -/
def parsePresentBootIdentity (data : Fields) (key : String) : Option PyStr × Bool :=
  match data key with
  | none => (none, false)
  | some (.str s) => if s.isEmpty then (none, true) else (some s, false)
  | some _ => (none, true)

/-- `_strict_safety_hold`. -/
def strictSafetyHold (data : Fields) (key : String) : Bool :=
  match data key with
  | none => false
  | some (.bool b) => b
  | some _ => true

/-- `_parse_last_exit`. -/
def parseLastExit (data : Fields) : Option LastExit :=
  match data.get "last_exit" with
  | .obj members => do
    let returncode ← unlessNull strictInt (Fields.get (memberOf members) "returncode")
    let raw ← memberOf members "at"
    let moment ← strictNonNegativeFiniteFloat raw
    return { returncode, moment }
  | _ => none

/-! ## Reading the state -/

/-- The text of a mode. -/
def Mode.text : Mode → PyStr
  | .run => "run"
  | .idle => "idle"

/-- The text of an intent. -/
def Intent.text : Intent → PyStr
  | .run => "run"
  | .retiring => "retiring"

/-- The mode a value of the `mode` field names. -/
def mode? : Json → Option Mode
  | .str s =>
    if s = Mode.text .idle then some .idle
    else if s = Mode.text .run then some .run else none
  | _ => none

/-- The intent a value of the `intent` field names. -/
def intent? : Json → Option Intent
  | .str s =>
    if s = Intent.text .run then some .run
    else if s = Intent.text .retiring then some .retiring else none
  | _ => none

/-- `_state_mode`. -/
def stateMode (data : Fields) : Mode :=
  (mode? ((data "mode").getD (.str (Mode.text .idle)))).getD .idle

/-- `_state_intent`. -/
def stateIntent (data : Fields) : Intent :=
  (intent? ((data "intent").getD (.str (Intent.text .run)))).getD .run

/-- `_state_commit`. -/
def stateCommit (data : Fields) : Option PyStr := optionalString (data.get "commit")

/-- `_state_strings_malformed`. -/
def stateStringsMalformed (data : Fields) : Bool :=
  (mode? ((data "mode").getD (.str (Mode.text .idle)))).isNone ||
    (intent? ((data "intent").getD (.str (Intent.text .run)))).isNone ||
    (unlessNull optionalString (data.get "commit")).isNone

/-- `data.get("ready", False) is True`. -/
def stateReady (data : Fields) : Bool :=
  match data "ready" with
  | some (.bool b) => b
  | _ => false

/-- `_validate_state_schema` returns. -/
def stateSchemaValid (data : Fields) : Bool :=
  match data "schema_version" with
  | none => true
  | some value => strictInt value = some SCHEMA_VERSION

/-- `SupervisorState.from_dict`, behind its schema check. -/
def SupervisorState.ofFields (data : Fields) : SupervisorState :=
  let child := parseOptionalChild data
  let unresolved := parseOptionalUnresolvedChild data
  let spawning := parseOptionalSpawning data
  let generation := parsePresentStrict data "applied_generation"
  let restartCount := parsePresentStrict data "restart_count"
  let nextAttemptAt := parsePresentNullableFloat data "next_attempt_at"
  let lastSpawnAt := parsePresentNullableMonotonicFloat data "last_spawn_at"
  let nextReadinessAt := parsePresentNullableMonotonicFloat data "next_readiness_at"
  let bootId := parsePresentBootIdentity data "boot_id"
  { schemaVersion := SCHEMA_VERSION
    appliedGeneration := generation.1
    mode := stateMode data
    commit := stateCommit data
    child := child.1
    unresolvedChild := unresolved.1
    -- every malformed field that no other flag records sets the ownership hold
    ownershipHoldMalformed := child.2 || generation.2 || restartCount.2 || nextAttemptAt.2 ||
      (lastSpawnAt.2 || nextReadinessAt.2) || bootId.2 || stateStringsMalformed data ||
      strictSafetyHold data "ownership_hold_malformed"
    unresolvedHoldMalformed := unresolved.2 || strictSafetyHold data "unresolved_hold_malformed"
    spawning := spawning.1
    spawningHoldMalformed := spawning.2 || strictSafetyHold data "spawning_hold_malformed"
    intent := stateIntent data
    restartCount := restartCount.1
    nextAttemptAt := nextAttemptAt.1
    lastExit := parseLastExit data
    lastSpawnAt := lastSpawnAt.1
    ready := stateReady data
    nextReadinessAt := nextReadinessAt.1
    bootId := bootId.1
    supervisorRuntimeCommit := optionalString (data.get "supervisor_runtime_commit") }

/-- `SupervisorState.from_dict`. -/
def SupervisorState.fromDict (data : Fields) : Except PyStr SupervisorState :=
  if stateSchemaValid data then .ok (.ofFields data)
  else .error "supervisor state schema_version is malformed"

/-- The content of a file that `read_text(encoding="utf-8")` is called on. -/
inductive FileContent where
  | absent
  | unreadable
  | undecodable
  | text (t : List Char)

/-- `read_state`; the error is the `UnicodeDecodeError` of a file that is not UTF-8. -/
def readState : FileContent → Except PyStr SupervisorState
  | .absent => .ok freshState
  | .unreadable => .ok { freshState with ownershipHoldMalformed := true }
  | .undecodable => .error "UnicodeDecodeError"
  | .text t =>
    match loads t with
    | some (.obj members) =>
      if strictInt (Json.get members "schema_version") = some SCHEMA_VERSION then
        SupervisorState.fromDict (memberOf members)
      else .ok { freshState with ownershipHoldMalformed := true }
    | _ => .ok { freshState with ownershipHoldMalformed := true }

/-! ## Writing -/

section Writing

variable (floatRepr : ℚ → List Char)

/-- `_child_to_dict`. -/
def childToDict (child : WorkerChild) : List (PyStr × Json) :=
  [entry "pid" (.int child.pid), entry "pgid" (.int child.pgid), entry "sid" (.int child.sid),
    entry "start_time_ticks" (.int child.startTimeTicks), entry "token" (.str child.token),
    entry "worker_id" (.str child.workerId),
    entry "spawned_at" (.float (floatRepr child.spawnedAt))]

/-- `UnresolvedChild.to_dict`. -/
def UnresolvedChild.toDict (child : UnresolvedChild) : List (PyStr × Json) :=
  [entry "pid" (.int child.pid), entry "start_time_ticks" (orNull .int child.startTimeTicks),
    entry "token" (.str child.token), entry "spawned_at" (.float (floatRepr child.spawnedAt))]

/-- `SpawningObligation.to_dict`. -/
def SpawningObligation.toDict (obligation : SpawningObligation) : List (PyStr × Json) :=
  [entry "token" (.str obligation.token), entry "commit" (.str obligation.commit),
    entry "creator_pid" (.int obligation.creatorPid),
    entry "creator_start_time_ticks" (.int obligation.creatorStartTimeTicks),
    entry "pid" (orNull .int obligation.pid),
    entry "start_time_ticks" (orNull .int obligation.startTimeTicks),
    entry "created_at" (.float (floatRepr obligation.createdAt)),
    entry "boot_id" (orNull .str obligation.bootId),
    entry "parent_death_signal" (.bool obligation.parentDeathSignal)]

/-- The mapping of a last exit. -/
def LastExit.toDict (lastExit : LastExit) : List (PyStr × Json) :=
  [entry "returncode" (orNull .int lastExit.returncode),
    entry "at" (.float (floatRepr lastExit.moment))]

/-- A member that is left out when its value is `None`. -/
def optionalEntry (key : String) : Option PyStr → List (PyStr × Json)
  | none => []
  | some s => [entry key (.str s)]

/-- `SupervisorState.to_dict`. -/
def SupervisorState.toDict (s : SupervisorState) : List (PyStr × Json) :=
  [entry "schema_version" (.int s.schemaVersion),
    entry "applied_generation" (.int s.appliedGeneration), entry "mode" (.str s.mode.text),
    entry "commit" (orNull .str s.commit),
    entry "child" (orNull (fun c => .obj (childToDict floatRepr c)) s.child),
    entry "unresolved_child"
      (orNull (fun c => .obj (UnresolvedChild.toDict floatRepr c)) s.unresolvedChild),
    entry "ownership_hold_malformed" (.bool s.ownershipHoldMalformed),
    entry "unresolved_hold_malformed" (.bool s.unresolvedHoldMalformed),
    entry "spawning" (orNull (fun o => .obj (SpawningObligation.toDict floatRepr o)) s.spawning),
    entry "spawning_hold_malformed" (.bool s.spawningHoldMalformed),
    entry "intent" (.str s.intent.text), entry "restart_count" (.int s.restartCount),
    entry "next_attempt_at" (orNull (fun x => .float (floatRepr x)) s.nextAttemptAt),
    entry "last_exit" (orNull (fun e => .obj (LastExit.toDict floatRepr e)) s.lastExit),
    entry "last_spawn_at" (orNull (fun x => .float (floatRepr x)) s.lastSpawnAt),
    entry "ready" (.bool s.ready),
    entry "next_readiness_at" (orNull (fun x => .float (floatRepr x)) s.nextReadinessAt)] ++
  optionalEntry "boot_id" s.bootId ++
  optionalEntry "supervisor_runtime_commit" s.supervisorRuntimeCommit

/-- The text `write_state` leaves in `state.json`. -/
def SupervisorState.fileText (s : SupervisorState) : List Char :=
  dumps (Json.obj (s.toDict floatRepr)).sortKeys ++ ['\n']

end Writing

end Lubko.Supervise
