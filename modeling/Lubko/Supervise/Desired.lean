import Lubko.Deploy.Rollback
import Lubko.Supervise.Corruption

/-!
# The authority files of the supervisor

`SupervisorDesired` of `supervise.py`, and the readers of the files a reconciliation depends on: the
durable state, the desired intent, the generation reservation, the identity of the daemon and the
pending install request; then the generation they yield and the promotion of a pending request.

A written record is returned beside the result; the lock, the clock and the disk are outside.

* `readStateFile_text` — on a text without limits, `read_state` as it is modelled for the codec.
* `readDesiredStrict_fileText` — an intent that was written is read back.
-/

namespace Lubko.Supervise

open Lubko.Lib Lubko.Lifecycle Lubko.Deploy

/-! ## The desired intent -/

/-- `SupervisorDesired`. -/
structure SupervisorDesired where
  schemaVersion : ℤ
  generation : ℤ
  commit : PyStr
  repo : PyStr
  uvPath : PyStr
  workerId : Option PyStr
  restart : Bool := false
  requestedAt : ℚ := 0
  migration : Bool := false
  deriving DecidableEq

/-- `SupervisorDesired.to_dict`. -/
def SupervisorDesired.toDict (floatRepr : ℚ → List Char) (d : SupervisorDesired) :
    List (PyStr × Json) :=
  [entry "schema_version" (.int d.schemaVersion), entry "generation" (.int d.generation),
    entry "commit" (.str d.commit), entry "repo" (.str d.repo), entry "uv_path" (.str d.uvPath),
    entry "worker_id" (orNull .str d.workerId), entry "restart" (.bool d.restart),
    entry "requested_at" (.float (floatRepr d.requestedAt)),
    entry "migration" (.bool d.migration)]

/-- `"supervisor desired state is malformed"`. -/
def desiredMalformed : PyStr := "supervisor desired state is malformed"

/-- A boolean that is false when it is absent. -/
def optionalFlag : Option Json → Outcome Bool
  | none => .ok false
  | some (.bool b) => .ok b
  | some _ => .error (.typeError desiredMalformed)

/-- `if parsed is None: raise ValueError(...)`. -/
def orMalformed {α : Type} : Option α → Outcome α
  | none => .error (.valueError desiredMalformed)
  | some a => .ok a

/-- `SupervisorDesired.from_dict`. -/
def SupervisorDesired.fromDict (data : Fields) : Outcome SupervisorDesired := do
  let desired ← orMalformed do
    let schemaVersion ← (strictInt (data.get "schema_version")).filter (· = SCHEMA_VERSION)
    let generation ← strictNonNegativeInt (data.get "generation")
    let commit ← optionalString (data.get "commit")
    let repo ← presentOr [] optionalString (data "repo")
    let uvPath ← presentOr [] optionalString (data "uv_path")
    let workerId ← unlessNull optionalString (data.get "worker_id")
    let requestedAt ← presentOr 0 strictNonNegativeFiniteFloat (data "requested_at")
    return SupervisorDesired.mk schemaVersion generation commit repo uvPath workerId false
      requestedAt false
  let migration ← optionalFlag (data "migration")
  let restart ← optionalFlag (data "restart")
  return { desired with restart, migration }

/-- `read_desired_strict`. -/
def readDesiredStrict (py : Interpreter) : FileBytes → Outcome (Option SupervisorDesired) :=
  JsonReader.run
    { missing := fun _ => .ok none
      refused := fun _ => .error (.raised .DesiredIntentError
        "cannot read the supervisor desired intent")
      handled := PyError.isValueError
      invalid := .error (.raised .DesiredIntentError
        "the supervisor desired intent is not valid JSON")
      accept := fun
        | .obj members => do
          let desired ← translating typeOrValueError .DesiredIntentError
            "the supervisor desired intent is malformed"
            (SupervisorDesired.fromDict (memberOf members))
          if desired.schemaVersion = SCHEMA_VERSION then return some desired
          else throw (.raised .DesiredIntentError
            (PyStr.ofString "unsupported supervisor desired intent version " ++
              (intText desired.schemaVersion).map CodePoint.ofChar))
        | _ => .error (.raised .DesiredIntentError
          "the supervisor desired intent must be an object") }
    py utf8

/-! ## The other files -/

/-- `read_state`, on the bytes of the file. -/
def readStateFile (py : Interpreter) : FileBytes → Outcome SupervisorState :=
  let held : SupervisorState := { freshState with ownershipHoldMalformed := true }
  JsonReader.run
    { missing := fun _ => .ok freshState
      refused := fun _ => .ok held
      handled := PyError.isValueError
      invalid := .ok held
      accept := fun
        | .obj members =>
          if strictInt (Json.get members "schema_version") = some SCHEMA_VERSION then
            match SupervisorState.fromDict (memberOf members) with
            | .ok s => .ok s
            | .error msg => .error (.valueError msg)
          else .ok held
        | _ => .ok held }
    py utf8

/-- `_reserved_generation`; a JSON `true` is the integer one. -/
def reservedGeneration (py : Interpreter) : FileBytes → Outcome ℤ :=
  JsonReader.run
    { missing := fun _ => .ok 0
      refused := fun _ => .error (.raised .MissionAuthorityError
        "cannot read reserved generation authority")
      handled := typeOrValueError
      invalid := .error (.raised .MissionAuthorityError
        "reserved generation authority is malformed JSON")
      accept := fun
        | .obj members =>
          match Json.get members "generation" with
          | .int n =>
            if n ≤ 0 then .error (.raised .MissionAuthorityError
              "reserved generation authority has invalid generation")
            else .ok n
          | .bool true => .ok 1
          | _ => .error (.raised .MissionAuthorityError
            "reserved generation authority has invalid generation")
        | _ => .error (.raised .MissionAuthorityError
          "reserved generation authority is not a JSON object") }
    py utf8

/-- `read_supervisor_pid`. -/
def readSupervisorPid (py : Interpreter) : FileBytes → Outcome (Option (ℤ × ℤ)) :=
  let malformed : PyError ErrorClass := .raised .MalformedSupervisorIdentityError []
  JsonReader.run
    { missing := fun _ => .ok none
      refused := fun _ => .error malformed
      handled := PyError.isValueError
      invalid := .error malformed
      accept := fun
        | .obj members =>
          match strictInt (Json.get members "schema_version"),
              strictNonNegativeInt (Json.get members "pid"),
              strictNonNegativeInt (Json.get members "start_time_ticks") with
          | some version, some pid, some ticks =>
            if version = SCHEMA_VERSION ∧ 0 < pid then .ok (some (pid, ticks))
            else .error malformed
          | _, _, _ => .error malformed
        | _ => .error malformed }
    py utf8

/-- `_load_pending_request`. -/
def loadPendingRequest (py : Interpreter) : FileBytes → Outcome (Option (List (PyStr × Json))) :=
  JsonReader.run
    { missing := fun _ => .ok none
      refused := fun _ => .ok none
      handled := typeOrValueError
      invalid := .ok none
      accept := fun
        | .obj members => .ok (some members)
        | _ => .ok none }
    py utf8

/-! ## Generations -/

/-- What `lstat` says of the mission file. -/
inductive PathStatus where
  | missing
  | failed (text : PyStr)
  | present

/-- The files a reconciliation reads, and whether the caller holds the supervisor token. -/
structure Files where
  hasToken : Bool
  state : FileBytes
  desired : FileBytes
  mission : FileBytes
  missionPath : PathStatus
  reserved : FileBytes
  pending : FileBytes

/-- `mission_state_exists_strict`. -/
def missionStateExistsStrict : PathStatus → Outcome Bool
  | .missing => .ok false
  | .failed text => .error (.raised .DesiredIntentError
    (PyStr.ofString "cannot inspect supervised deployment mission state: " ++ text))
  | .present => .ok true

/-- `_mission_generation`. -/
def missionGeneration (py : Interpreter) (mission : FileBytes) : Outcome ℤ :=
  match readRollbackState py mission with
  | .ok none => .ok 0
  | .ok (some m) => .ok m.generation
  | .error (.raised .DeployCtlError msg) => .error (.raised .MissionAuthorityError msg)
  | .error exc => .error exc

/-- `next_generation`. -/
def nextGeneration (py : Interpreter) (files : Files) : Outcome ℤ := do
  let state ← readStateFile py files.state
  let desired ← readDesiredStrict py files.desired
  let mission ← missionGeneration py files.mission
  let reserved ← reservedGeneration py files.reserved
  let desiredGeneration := (desired.map SupervisorDesired.generation).getD 0
  return max (max (max state.appliedGeneration desiredGeneration) mission) reserved + 1

/-! ## Run intents -/

/-- The arguments of a run intent. -/
structure RunRequest where
  commit : PyStr
  repo : PyStr
  uvPath : PyStr
  workerId : Option PyStr
  restart : Bool := false
  migration : Bool := false

/-- `_write_run_intent_locked`: the intent that is written. -/
def writeRunIntentLocked (py : Interpreter) (now : ℚ) (files : Files) (r : RunRequest) :
    Outcome SupervisorDesired := do
  let generation ← nextGeneration py files
  return { schemaVersion := SCHEMA_VERSION
           generation := generation
           commit := r.commit
           repo := r.repo
           uvPath := r.uvPath
           workerId := r.workerId
           restart := r.restart
           requestedAt := now
           migration := r.migration }

/-- The generation of a run intent, and the record when one was written. -/
abbrev Established := ℤ × Option SupervisorDesired

/-- `ensure_run_intent`, behind its read of the desired intent. -/
def establishRunIntent (py : Interpreter) (now : ℚ) (files : Files) (r : RunRequest) :
    Option SupervisorDesired → Outcome Established
  | some current =>
    if current.commit ≠ r.commit then
      .error (.raised .DesiredAuthorityConflictError
        (PyStr.ofString "supervisor desired commit " ++ current.commit ++
          PyStr.ofString " conflicts with requested commit " ++ r.commit))
    else .ok (current.generation, none)
  | none => do
    let present ← missionStateExistsStrict files.missionPath
    if present then
      throw (.raised .DesiredAuthorityConflictError
        ("cannot establish supervisor desired state while supervised deployment " ++
          "mission authority exists" : String))
    let desired ← writeRunIntentLocked py now files { r with restart := false, migration := false }
    return (desired.generation, some desired)

/-- `ensure_run_intent`. -/
def ensureRunIntent (py : Interpreter) (now : ℚ) (files : Files) (r : RunRequest) :
    Outcome Established :=
  if files.hasToken then readDesiredStrict py files.desired >>= establishRunIntent py now files r
  else .error (.raised .SupervisorStateTokenError
    "LUBKO_SUPERVISOR_STATE_TOKEN is required for direct ensure_run_intent")

/-! ## Pending requests -/

/-- `validate_pending_request_id` returns: exactly 32 lowercase hexadecimal digits. -/
def validPendingRequestId (s : PyStr) : Bool :=
  s.length = 32 &&
    s.all fun c => (0x30 ≤ c.val && c.val ≤ 0x39) || (0x61 ≤ c.val && c.val ≤ 0x66)

/-- The content of an ack file. -/
inductive PendingAck where
  | promoted (generation : ℤ)
  | failed (error : PyStr)
  deriving DecidableEq

/-- What a call of `promote_pending_request` did: its result, whether the request was removed, the
ack it wrote and for which id, and the intent it wrote. -/
structure Promotion where
  processed : Bool
  removed : Bool
  ack : Option (PyStr × PendingAck)
  written : Option SupervisorDesired
  deriving DecidableEq

/-- `_promote_pending_request_validated`, with the removal that follows it. -/
def promotePendingRequestValidated (py : Interpreter) (now : ℚ) (files : Files)
    (data : List (PyStr × Json)) (requestId : PyStr) : Outcome Promotion :=
  let refused (error : PyStr) : Promotion := ⟨false, true, some (requestId, .failed error), none⟩
  match Json.get data "commit" with
  | .str [] => .ok (refused "missing or invalid commit")
  | .str commit =>
    let request : RunRequest :=
      { commit := commit
        repo := (optionalString (Json.get data "repo")).getD []
        uvPath := (optionalString (Json.get data "uv_path")).getD []
        workerId := optionalString (Json.get data "worker_id") }
    match ensureRunIntent py now files request with
    | .ok (generation, written) =>
      .ok ⟨true, true, some (requestId, .promoted generation), written⟩
    | .error exc =>
      if exc.isRaised .DesiredAuthorityConflictError then
        .ok (refused "conflict with existing supervisor authority")
      else if exc.isRaised .DesiredIntentError || exc.isRaised .MissionAuthorityError then
        .ok (refused "supervisor authority is malformed or unreadable")
      else .error exc
  | _ => .ok (refused "missing or invalid commit")

/-- `promote_pending_request`. -/
def promotePendingRequest (py : Interpreter) (now : ℚ) (files : Files) : Outcome Promotion := do
  match ← loadPendingRequest py files.pending with
  | none => return ⟨false, false, none, none⟩
  | some data =>
    match Json.get data "request_id" with
    | .str requestId =>
      if validPendingRequestId requestId then
        promotePendingRequestValidated py now files data requestId
      else return ⟨false, true, none, none⟩
    | _ => return ⟨false, true, none, none⟩

/-- The first two reads of `SupervisorDaemon.reconcile`. -/
def reconcileReads (py : Interpreter) (now : ℚ) (files : Files) :
    Outcome (Promotion × SupervisorState) := do
  let promotion ← promotePendingRequest py now files
  let state ← readStateFile py files.state
  return (promotion, state)

/-! ## The state behind its bytes -/

theorem readStateFile_text {py : Interpreter} {data : List UInt8} {t : List Char}
    (ht : utf8 data = some t) (hdeep : py.tooDeep t = false) (hdigits : py.tooManyDigits t = false) :
    readStateFile py (.bytes data) = (readState (.text t)).mapError .valueError := by
  cases hl : loads t with
  | none =>
    have hloads : (jsonLoads py t : Outcome Json) = .error .jsonDecodeError := by
      simp [jsonLoads, hdeep, hdigits, hl]
    simp only [readStateFile, JsonReader.run, ht, hloads, readState, hl]
    rfl
  | some v =>
    have hloads : (jsonLoads py t : Outcome Json) = .ok v := by
      simp [jsonLoads, hdeep, hdigits, hl]
    simp only [readStateFile, JsonReader.run, ht, hloads, readState, hl]
    cases v with
    | obj members =>
      by_cases hs : strictInt (Json.get members "schema_version") = some SCHEMA_VERSION
      · simp only [hs, if_true]
        cases SupervisorState.fromDict (memberOf members) with
        | ok s => rfl
        | error msg => rfl
      · simp only [hs, if_false]
        rfl
    | null | bool _ | int _ | float _ | str _ | arr _ => rfl

/-! ## The intent that was written -/

/-- What `write_desired` leaves in `desired.json`. -/
def SupervisorDesired.fileText (floatRepr : ℚ → List Char) (d : SupervisorDesired) : List Char :=
  dumps (Json.obj (d.toDict floatRepr)).sortKeys ++ ['\n']

/-- What reading guarantees of an intent. -/
structure SupervisorDesired.Valid (d : SupervisorDesired) : Prop where
  schema : d.schemaVersion = SCHEMA_VERSION
  generation : 0 ≤ d.generation
  commitText : Joined d.commit
  repoText : Joined d.repo
  uvText : Joined d.uvPath
  idText : ∀ s ∈ d.workerId, Joined s
  requestedAt : 0 ≤ d.requestedAt

theorem orMalformed_eq_ok {α : Type} {x : Option α} {a : α} :
    orMalformed x = .ok a ↔ x = some a := by
  cases x <;> simp [orMalformed]

theorem joined_presentOr {data : Fields} (hdata : ∀ k s, data k = some (.str s) → Joined s)
    {key : String} {s : PyStr} (h : presentOr [] optionalString (data key) = some s) :
    Joined s := by
  cases hk : data key with
  | none =>
    rw [hk, presentOr] at h
    cases h
    rfl
  | some v =>
    rw [hk, presentOr] at h
    exact hdata key s (optionalString_eq_some.1 h ▸ hk)

theorem SupervisorDesired.fromDict_valid {data : Fields} {d : SupervisorDesired}
    (hdata : ∀ k s, data k = some (.str s) → Joined s)
    (h : SupervisorDesired.fromDict data = .ok d) : d.Valid := by
  simp only [SupervisorDesired.fromDict, except_bind_eq_ok, orMalformed_eq_ok] at h
  obtain ⟨d', hsome, migration, -, restart, -, heq⟩ := h
  simp only [bind, Option.bind_eq_some_iff, filter_eq_some, decide_eq_true_eq,
    strictNonNegativeInt_eq_some, optionalString_eq_some, pure, Option.some.injEq] at hsome
  obtain ⟨version, ⟨-, hversion⟩, generation, ⟨-, hgeneration⟩, commit, hcommit, repo, hrepo,
    uvPath, huv, workerId, hid, requestedAt, hrequested, rfl⟩ := hsome
  obtain rfl := Except.ok.inj heq
  exact ⟨hversion, hgeneration, text_get hdata hcommit, joined_presentOr hdata hrepo,
    joined_presentOr hdata huv,
    fun s hs => text_get hdata (optionalString_eq_some.1 (unlessNull_eq_some hid s hs)),
    presentOr_float_nonneg hrequested⟩

/-- **An intent that was read is valid.** -/
theorem readDesiredStrict_valid {py : Interpreter} {file : FileBytes} {d : SupervisorDesired}
    (h : readDesiredStrict py file = .ok (some d)) : d.Valid := by
  cases file with
  | absent dangling => cases h
  | unreadable text => cases h
  | bytes data =>
    rcases JsonReader.run_bytes_eq_ok h with ⟨v, hbuilt, hv⟩ | hinvalid
    · cases v with
      | obj members =>
        obtain ⟨d', hd', hv⟩ := except_bind_eq_ok.1 hv
        have heq : d' = d := by
          split_ifs at hv
          · cases hv
            rfl
        subst heq
        cases hdict : SupervisorDesired.fromDict (memberOf members) with
        | ok d'' =>
          rw [hdict] at hd'
          cases hd'
          exact SupervisorDesired.fromDict_valid
            (fun k s hk => (Json.Built.member hbuilt hk).joined) hdict
        | error exc =>
          rw [hdict, translating] at hd'
          split_ifs at hd'
      | null | bool _ | int _ | float _ | str _ | arr _ => cases hv
    · cases hinvalid

section Written

variable {py : Interpreter} {floatRepr : ℚ → List Char} {d : SupervisorDesired}

theorem wellKeyed_desiredToDict : WellKeyed (d.toDict floatRepr) :=
  .of_keys (show _ = (["schema_version", "generation", "commit", "repo", "uv_path", "worker_id",
    "restart", "requested_at", "migration"] : List String).map PyStr.ofString from rfl) (by decide)

theorem writable_desiredToDict (h : FloatLiteral (floatRepr d.requestedAt)) :
    (Json.obj (d.toDict floatRepr)).Writable := by
  refine .obj ?_
  simp only [SupervisorDesired.toDict, List.forall_mem_cons, entry]
  exact ⟨.int _, .int _, .str _, .str _, .str _, writable_orNull fun _ _ => .str _, .bool _,
    .float h, .bool _, List.forall_mem_nil _⟩

/-- A valid intent is read back through any channel that keeps values. -/
theorem SupervisorDesired.fromDict_toDict {f : Json → Json} (hf : Transparent Joined f)
    (hv : d.Valid) (hx : ReadsBack floatRepr d.requestedAt) :
    SupervisorDesired.fromDict (received f (d.toDict floatRepr)) = .ok d := by
  have hfields : (do
      let schemaVersion ← (strictInt (f (.int d.schemaVersion))).filter
        (· = SCHEMA_VERSION)
      let generation ← strictNonNegativeInt (f (.int d.generation))
      let commit ← optionalString (f (.str d.commit))
      let repo ← presentOr [] optionalString (some (f (.str d.repo)))
      let uvPath ← presentOr [] optionalString (some (f (.str d.uvPath)))
      let workerId ← unlessNull optionalString (f (orNull .str d.workerId))
      let requestedAt ← presentOr 0 strictNonNegativeFiniteFloat
        (some (f (.float (floatRepr d.requestedAt))))
      return SupervisorDesired.mk schemaVersion generation commit repo uvPath workerId false
        requestedAt false) = some { d with restart := false, migration := false } := by
    rw [hf.int, nonNegativeInt_received hf hv.generation, hf.str _ hv.commitText,
      hf.str _ hv.repoText, hf.str _ hv.uvText, hf.orNull_str hv.idText, unlessNull_str,
      readsBack_received hf hx hv.requestedAt, hv.schema]
    rfl
  refine except_bind_eq_ok.2 ⟨_, orMalformed_eq_ok.2 hfields, except_bind_eq_ok.2
    ⟨d.migration, ?_, except_bind_eq_ok.2 ⟨d.restart, ?_, rfl⟩⟩⟩
  · show optionalFlag (some (f (.bool d.migration))) = _
    rw [hf.bool]
    rfl
  · show optionalFlag (some (f (.bool d.restart))) = _
    rw [hf.bool]
    rfl

/-- **A valid intent that was written is read back.** -/
theorem readDesiredStrict_fileText (hv : d.Valid) (hx : ReadsBack floatRepr d.requestedAt)
    (hdeep : py.tooDeep (d.fileText floatRepr) = false)
    (hdigits : py.tooManyDigits (d.fileText floatRepr) = false) :
    readDesiredStrict py (.bytes (utf8Encode (d.fileText floatRepr))) = .ok (some d) := by
  obtain ⟨members, hmembers, hfields⟩ := readBack_obj wellKeyed_desiredToDict
  have hfields : memberOf members = received Json.readBack (d.toDict floatRepr) := hfields
  have hdata : utf8 (utf8Encode (d.fileText floatRepr)) =
      some (dumps (Json.obj (d.toDict floatRepr)).sortKeys ++ ['\n']) := utf8_utf8Encode _
  rw [readDesiredStrict, JsonReader.run_line _ (writable_desiredToDict hx.literal) hdata hdeep
    hdigits, hmembers]
  simp only [hfields, SupervisorDesired.fromDict_toDict transparent_readBack hv hx]
  exact if_pos hv.schema

end Written

end Lubko.Supervise
