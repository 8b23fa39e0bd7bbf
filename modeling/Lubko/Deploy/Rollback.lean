import Lubko.Lifecycle.Meta

/-!
# The mission file

`RollbackState` of `deployctl.py`: the durable mission of a supervised deployment, how it is written
and how `read_rollback_state` reads it back, with the compatibility records for supervisor-owned
candidates and the older schema versions.

One conversion of the parser is not guarded: `float(value)` raises `OverflowError` on an integer
that no float reaches, and `from_dict` handles no `OverflowError`.

* `RollbackState.fromDict_iff` — when parsing keeps to `DeployCtlError`.
* `readRollbackState_iff` — when reading the file does.
-/

namespace Lubko.Deploy

open Lubko.Lib Lubko.Supervise Lubko.Lifecycle

/-! ## Records -/

/-- `ROLLBACK_SCHEMA_VERSION`. -/
def ROLLBACK_SCHEMA_VERSION : ℤ := 4

/-- `SUPERVISOR_ROLLBACK_WIRE_SCHEMA_VERSION`. -/
def SUPERVISOR_ROLLBACK_WIRE_SCHEMA_VERSION : ℤ := 3

/-- `SUPPORTED_ROLLBACK_SCHEMA_VERSIONS`. -/
def SUPPORTED_ROLLBACK_SCHEMA_VERSIONS : List ℤ := [2, 3]

/-- `STATUS_PENDING`, `STATUS_CONFIRMED` and `STATUS_ROLLED_BACK`. -/
inductive MissionStatus where
  | pending
  | confirmed
  | rolledBack
  deriving DecidableEq

/-- The text of a status. -/
def MissionStatus.text : MissionStatus → PyStr
  | .pending => "pending"
  | .confirmed => "confirmed"
  | .rolledBack => "rolled_back"

/-- The status a text names. -/
def missionStatus? (s : PyStr) : Option MissionStatus :=
  if s = MissionStatus.text .pending then some .pending
  else if s = MissionStatus.text .confirmed then some .confirmed
  else if s = MissionStatus.text .rolledBack then some .rolledBack else none

/-- A Python float; the two zeros are one. -/
inductive PyFloat where
  | finite (q : ℚ)
  | infinite (negative : Bool)
  | nan
  deriving DecidableEq

/-- The literal `json.dumps` writes for a float. -/
def PyFloat.literal (floatRepr : ℚ → List Char) : PyFloat → List Char
  | .finite q => floatRepr q
  | .infinite false => "Infinity".toList
  | .infinite true => "-Infinity".toList
  | .nan => "NaN".toList

/-- `RollbackState`. -/
structure RollbackState where
  schemaVersion : ℤ
  generation : ℤ
  status : MissionStatus
  commit : PyStr
  previousCommit : PyStr
  deadline : PyFloat
  repo : PyStr
  uvPath : PyStr
  stopGraceSeconds : PyFloat
  gitTimeoutSeconds : PyFloat
  previousRetiring : Bool
  previousMeta : WorkerMeta
  newMeta : Option WorkerMeta
  supervisorOwned : Option Bool := none
  previousRestartMeta : Option WorkerMeta := none
  previousRestartReleased : Bool := false
  deriving DecidableEq

/-! ## Writing -/

/-- `supervisor_candidate_wire_descriptor`. -/
def supervisorCandidateWireDescriptor (commit repo : PyStr) : List (PyStr × Json) :=
  [entry "schema_version" (.int META_SCHEMA_VERSION), entry "state" (.str WorkerState.stopped.text),
    entry "pid" .null, entry "pgid" .null, entry "sid" .null, entry "start_time_ticks" .null,
    entry "token" .null, entry "repo" (.str repo), entry "git_commit" (.str commit),
    entry "worker_id" .null, entry "log_path" (.str []), entry "started_at" .null,
    entry "stopped_at" .null]

/-- `RollbackState.to_dict`. -/
def RollbackState.toDict (floatRepr : ℚ → List Char) (s : RollbackState) : List (PyStr × Json) :=
  [entry "schema_version" (.int (if s.supervisorOwned = some true then
      SUPERVISOR_ROLLBACK_WIRE_SCHEMA_VERSION else s.schemaVersion)),
    entry "generation" (.int s.generation), entry "status" (.str s.status.text),
    entry "commit" (.str s.commit), entry "previous_commit" (.str s.previousCommit),
    entry "deadline" (.float (s.deadline.literal floatRepr)), entry "repo" (.str s.repo),
    entry "uv_path" (.str s.uvPath),
    entry "stop_grace_seconds" (.float (s.stopGraceSeconds.literal floatRepr)),
    entry "git_timeout_seconds" (.float (s.gitTimeoutSeconds.literal floatRepr)),
    entry "previous_retiring" (.bool s.previousRetiring),
    entry "previous_meta" (.obj (s.previousMeta.toDict floatRepr)),
    entry "new_meta" (if s.supervisorOwned = some true then
        .obj (supervisorCandidateWireDescriptor s.commit s.repo)
      else orNull (fun m => .obj (m.toDict floatRepr)) s.newMeta),
    entry "supervisor_owned" (orNull .bool s.supervisorOwned),
    entry "previous_restart_meta"
      (orNull (fun m => .obj (m.toDict floatRepr)) s.previousRestartMeta),
    entry "previous_restart_released" (.bool s.previousRestartReleased)]

/-! ## Comparing mappings -/

/-- `value == literal`, for a literal that is `None`, an integer or a string. -/
def eqLiteral (literal value : Json) : Bool :=
  match literal with
  | .null => (value matches .null)
  | .int n => value.eqInt n
  | .str s => value.eqStr s
  | _ => false

/-- `members == literals`, for a mapping of literals. -/
def eqMapping (literals members : List (PyStr × Json)) : Bool :=
  members.length = literals.length &&
    literals.all fun kv => (memberOf members kv.1).any (eqLiteral kv.2)

/-- `_legacy_supervisor_candidate_placeholder`. -/
def legacySupervisorCandidatePlaceholder (members : List (PyStr × Json)) (commit repo : PyStr) :
    Bool :=
  eqMapping
    [entry "schema_version" (.int META_SCHEMA_VERSION),
      entry "state" (.str WorkerState.running.text), entry "pid" (.int 0), entry "pgid" (.int 0),
      entry "sid" (.int 0), entry "start_time_ticks" (.int 0), entry "token" .null,
      entry "repo" (.str repo), entry "git_commit" (.str commit), entry "worker_id" (.str []),
      entry "log_path" (.str []), entry "started_at" .null, entry "stopped_at" .null]
    members

/-! ## Reading values -/

/-- `data[key]`. -/
def required (data : Fields) (key : String) : Outcome Json :=
  match data key with
  | none => .error (.keyError key)
  | some value => .ok value

/-- `_required_json_int`. -/
def requiredJsonInt : Json → Outcome ℤ
  | .int n => .ok n
  | _ => .error (.typeError [])

/-- `_required_json_string`. -/
def requiredJsonString : Json → Outcome PyStr
  | .str s => .ok s
  | _ => .error (.typeError [])

/-- `COMMIT_RE.fullmatch` matches: forty lowercase hexadecimal digits. -/
def commitMatches (s : PyStr) : Bool :=
  s.length = 40 &&
    s.all fun c => (0x30 ≤ c.val && c.val ≤ 0x39) || (0x61 ≤ c.val && c.val ≤ 0x66)

/-- `_required_commit`. -/
def requiredCommit (value : Json) : Outcome PyStr := do
  let commit ← requiredJsonString value
  if commitMatches commit then return commit else throw (.valueError [])

/-- `_required_finite_json_number`: `float(value)` of an integer no float reaches is an
`OverflowError`. -/
def requiredFiniteJsonNumber (value : Json) : Outcome ℚ :=
  match value with
  | .int _ =>
    match strictFiniteFloat value with
    | some result => .ok result
    | none => .error .overflowError
  | .float _ =>
    match strictFiniteFloat value with
    | some result => .ok result
    | none => .error (.valueError [])
  | _ => .error (.typeError [])

/-- A finite JSON number in a domain. -/
def requiredNumber (refused : ℚ → Bool) (value : Json) : Outcome ℚ := do
  let result ← requiredFiniteJsonNumber value
  if refused result then throw (.valueError []) else return result

/-- `_required_nonnegative_finite_json_number`. -/
def requiredNonnegativeFiniteJsonNumber : Json → Outcome ℚ := requiredNumber (· < 0)

/-- `_required_positive_finite_json_number`. -/
def requiredPositiveFiniteJsonNumber : Json → Outcome ℚ := requiredNumber (· ≤ 0)

/-- `_optional_json_bool`. -/
def optionalJsonBool : Json → Outcome (Option Bool)
  | .null => .ok none
  | .bool b => .ok (some b)
  | _ => .error (.typeError [])

/-- `_retiring_flag`. -/
def retiringFlag : Option Json → Outcome Bool
  | none => .ok false
  | some (.bool b) => .ok b
  | some _ => .error (.typeError [])

/-- The generation: a positive integer. -/
def requiredGeneration : Json → Outcome ℤ
  | .int n => if n < 1 then .error (.valueError "generation must be a positive integer") else .ok n
  | _ => .error (.valueError "generation must be a positive integer")

/-- The status of a mission. -/
def requiredStatus (py : Interpreter) (value : Json) : Outcome MissionStatus := do
  let text ← requiredJsonString value
  match missionStatus? text with
  | some status => return status
  | none => throw (.valueError (PyStr.ofString "unexpected status " ++ py.strRepr text))

/-- `parse_supervisor_candidate_meta`. -/
def parseSupervisorCandidateMeta (py : Interpreter) (replacement : Json)
    (supervisorOwned : Option Bool) (commit repo : PyStr) : Outcome (Option WorkerMeta) :=
  match replacement with
  | .null => if supervisorOwned = some true then .ok none else .error (.typeError [])
  | .obj members =>
    if eqMapping (supervisorCandidateWireDescriptor commit repo) members then
      if supervisorOwned = some true then .ok none else .error (.typeError [])
    else
      match WorkerMeta.fromDict py (memberOf members) with
      | .ok m => .ok (some m)
      | .error exc =>
        if typeOrValueError exc ∧ supervisorOwned = some true ∧
            legacySupervisorCandidatePlaceholder members commit repo then .ok none
        else .error exc
  | _ => .error (.typeError [])

/-- `restart_raw`: the metadata of a restarted previous worker. -/
def parseRestartMeta (py : Interpreter) : Json → Outcome (Option WorkerMeta)
  | .null => .ok none
  | .obj members => (WorkerMeta.fromDict py (memberOf members)).map some
  | _ => .error (.typeError [])

/-- The restart record fits the mission. -/
def restartConsistent (restart : Option WorkerMeta) (released : Bool)
    (supervisorOwned : Option Bool) (status : MissionStatus) (repo previousCommit : PyStr) : Bool :=
  match restart with
  | none => !released
  | some m => supervisorOwned = some false && status = .pending && m.state = .running &&
      m.repo = repo && m.gitCommit = some previousCommit

/-- `_parse_previous_restart`. -/
def parsePreviousRestart (py : Interpreter) (data : Fields) (supervisorOwned : Option Bool)
    (status : MissionStatus) (repo previousCommit : PyStr) : Outcome (Option WorkerMeta × Bool) := do
  let restart ← parseRestartMeta py (data.get "previous_restart_meta")
  let released ← retiringFlag (data "previous_restart_released")
  if restartConsistent restart released supervisorOwned status repo previousCommit then
    return (restart, released)
  else throw (.typeError [])

/-! ## Reading the mission -/

/-- What `_build_from_dict` reads before the numbers of the mission. -/
structure MissionIdentity where
  previous : List (PyStr × Json)
  supervisorOwned : Option Bool
  generation : ℤ
  schemaVersion : ℤ
  status : MissionStatus
  commit : PyStr
  previousCommit : PyStr
  repo : PyStr
  newMeta : Option WorkerMeta
  restart : Option WorkerMeta × Bool

/-- `previous_meta` as a mapping. -/
def previousMembers : Json → Outcome (List (PyStr × Json))
  | .obj members => .ok members
  | _ => .error (.typeError "previous_meta must be a dict")

/-- The first half of `_build_from_dict`. -/
def missionIdentity (py : Interpreter) (data : Fields) : Outcome MissionIdentity := do
  let rawPrevious ← required data "previous_meta"
  let replacement ← required data "new_meta"
  let previous ← previousMembers rawPrevious
  let supervisorOwned ← optionalJsonBool (data.get "supervisor_owned")
  let generation ← required data "generation" >>= requiredGeneration
  let schemaVersion ← required data "schema_version" >>= requiredJsonInt
  let status ← required data "status" >>= requiredStatus py
  let commit ← required data "commit" >>= requiredCommit
  let previousCommit ← required data "previous_commit" >>= requiredCommit
  let repo ← required data "repo" >>= requiredJsonString
  let newMeta ← parseSupervisorCandidateMeta py replacement supervisorOwned commit repo
  let restart ← parsePreviousRestart py data supervisorOwned status repo previousCommit
  return { previous, supervisorOwned, generation, schemaVersion, status, commit, previousCommit,
           repo, newMeta, restart }

/-- `RollbackState._build_from_dict`. -/
def RollbackState.buildFromDict (py : Interpreter) (data : Fields) : Outcome RollbackState := do
  let i ← missionIdentity py data
  let deadline ← required data "deadline" >>= requiredNonnegativeFiniteJsonNumber
  let uvPath ← required data "uv_path" >>= requiredJsonString
  let stopGraceSeconds ← required data "stop_grace_seconds" >>= requiredPositiveFiniteJsonNumber
  let gitTimeoutSeconds ← required data "git_timeout_seconds" >>= requiredPositiveFiniteJsonNumber
  let previousRetiring ← retiringFlag (data "previous_retiring")
  let previousMeta ← WorkerMeta.fromDict py (memberOf i.previous)
  return { schemaVersion := i.schemaVersion
           generation := i.generation
           status := i.status
           commit := i.commit
           previousCommit := i.previousCommit
           deadline := .finite deadline
           repo := i.repo
           uvPath := uvPath
           stopGraceSeconds := .finite stopGraceSeconds
           gitTimeoutSeconds := .finite gitTimeoutSeconds
           previousRetiring := previousRetiring
           previousMeta := previousMeta
           newMeta := i.newMeta
           supervisorOwned := i.supervisorOwned
           previousRestartMeta := i.restart.1
           previousRestartReleased := i.restart.2 }

/-- `RollbackState.from_dict`. -/
def RollbackState.fromDict (py : Interpreter) (data : Fields) : Outcome RollbackState :=
  translating keyTypeOrValueError .DeployCtlError "supervised deployment state is malformed"
    (buildFromDict py data)

/-- `_normalize_parsed_state`. -/
def normalizeParsedState (s : RollbackState) : Outcome RollbackState :=
  if s.schemaVersion = ROLLBACK_SCHEMA_VERSION then .ok s
  else if s.schemaVersion ∈ SUPPORTED_ROLLBACK_SCHEMA_VERSIONS then
    .ok { s with schemaVersion := ROLLBACK_SCHEMA_VERSION }
  else .error (.raised .DeployCtlError
    (PyStr.ofString "unsupported supervised deployment state version " ++
      (intText s.schemaVersion).map CodePoint.ofChar))

/-- `read_rollback_state`. -/
def readRollbackState (py : Interpreter) : FileBytes → Outcome (Option RollbackState) :=
  JsonReader.run
    { missing := fun _ => .ok none
      refused := fun text => .error (.raised .DeployCtlError
        (PyStr.ofString "cannot read supervised deployment state: " ++ text))
      handled := PyError.isValueError
      invalid := .error (.raised .DeployCtlError "supervised deployment state is not valid JSON")
      accept := fun
        | .obj members => do
          let state ← RollbackState.fromDict py (memberOf members)
          some <$> normalizeParsedState state
        | _ => .error (.raised .DeployCtlError "supervised deployment state must be an object") }
    py utf8

/-! ## What parsing raises -/

/-- The exceptions `from_dict` handles. -/
abbrev Handled (exc : PyError ErrorClass) : Prop := keyTypeOrValueError exc = true

theorem handled_of_refusal {exc : PyError ErrorClass} (h : Refusal exc) : Handled exc := by
  rw [Handled, keyTypeOrValueError, Bool.or_assoc,
    show (exc.isTypeError || exc.isValueError) = true from h, Bool.or_true]

section Raises

variable {py : Interpreter} {data : Fields}

theorem required_ends {key : String} : Ends Handled (data key = some ·) (required data key) := by
  rw [required]
  cases data key with
  | none => rfl
  | some value => rfl

theorem fromDict_ends {fields : Fields} :
    Ends Handled (fun _ => True) (WorkerMeta.fromDict py fields) :=
  WorkerMeta.fromDict_ends.mono (fun _ => handled_of_refusal) fun _ h => h

theorem previousMembers_ends {value : Json} :
    Ends Handled (fun _ => True) (previousMembers value) := by
  cases value <;> trivial

theorem optionalJsonBool_ends {value : Json} :
    Ends Handled (fun _ => True) (optionalJsonBool value) := by
  cases value <;> trivial

theorem requiredJsonInt_ends {value : Json} :
    Ends Handled (fun _ => True) (requiredJsonInt value) := by
  cases value <;> trivial

theorem requiredJsonString_ends {value : Json} :
    Ends Handled (fun _ => True) (requiredJsonString value) := by
  cases value <;> trivial

theorem requiredCommit_ends {value : Json} :
    Ends Handled (fun s => commitMatches s = true) (requiredCommit value) := by
  refine requiredJsonString_ends.bind fun commit _ => ?_
  by_cases h : commitMatches commit = true
  · rw [if_pos h]
    exact h
  · rw [if_neg h]
    rfl

theorem requiredGeneration_ends {value : Json} :
    Ends Handled (1 ≤ ·) (requiredGeneration value) := by
  cases value with
  | int n =>
    rw [requiredGeneration]
    by_cases h : n < 1
    · rw [if_pos h]
      rfl
    · rw [if_neg h]
      exact not_lt.1 h
  | null | bool _ | float _ | str _ | arr _ | obj _ => rfl

theorem requiredStatus_ends {value : Json} :
    Ends Handled (fun _ => True) (requiredStatus py value) := by
  refine requiredJsonString_ends.bind fun text _ => ?_
  cases missionStatus? text with
  | some status => trivial
  | none => rfl

theorem retiringFlag_ends {value : Option Json} :
    Ends Handled (fun _ => True) (retiringFlag value) := by
  cases value with
  | none => trivial
  | some value => cases value <;> trivial

theorem parseSupervisorCandidateMeta_ends {replacement : Json} {supervisorOwned : Option Bool}
    {commit repo : PyStr} : Ends Handled (fun _ => True)
      (parseSupervisorCandidateMeta py replacement supervisorOwned commit repo) := by
  have howned : Ends Handled (fun _ : Option WorkerMeta => True)
      (if supervisorOwned = some true then .ok none else .error (.typeError [])) := by
    by_cases h : supervisorOwned = some true
    · rw [if_pos h]
      trivial
    · rw [if_neg h]
      rfl
  cases replacement with
  | null => exact howned
  | obj members =>
    rw [parseSupervisorCandidateMeta]
    by_cases hd : eqMapping (supervisorCandidateWireDescriptor commit repo) members = true
    · rw [if_pos hd]
      exact howned
    · rw [if_neg hd]
      have hmeta : Ends Handled _ (WorkerMeta.fromDict py (memberOf members)) := fromDict_ends
      cases hm : WorkerMeta.fromDict py (memberOf members) with
      | ok m => trivial
      | error exc =>
        rw [hm] at hmeta
        by_cases hl : typeOrValueError exc = true ∧ supervisorOwned = some true ∧
            legacySupervisorCandidatePlaceholder members commit repo = true
        · simp only [if_pos hl]
          trivial
        · simp only [if_neg hl]
          exact hmeta
  | bool _ | int _ | float _ | str _ | arr _ => rfl

theorem parsePreviousRestart_ends {supervisorOwned : Option Bool} {status : MissionStatus}
    {repo previousCommit : PyStr} : Ends Handled (fun _ => True)
      (parsePreviousRestart py data supervisorOwned status repo previousCommit) := by
  have hmeta : Ends Handled (fun _ => True)
      (parseRestartMeta py (data.get "previous_restart_meta")) := by
    cases data.get "previous_restart_meta" with
    | null => trivial
    | obj members => exact fromDict_ends.map fun _ _ => trivial
    | bool _ | int _ | float _ | str _ | arr _ => rfl
  refine hmeta.bind fun restart _ => retiringFlag_ends.bind fun released _ => ?_
  split
  · trivial
  · rfl

theorem missionIdentity_ends :
    Ends Handled (fun i => 1 ≤ i.generation) (missionIdentity py data) := by
  rw [missionIdentity]
  refine required_ends.bind fun rawPrevious _ => ?_
  refine required_ends.bind fun replacement _ => ?_
  refine previousMembers_ends.bind fun previous _ => ?_
  refine optionalJsonBool_ends.bind fun supervisorOwned _ => ?_
  refine (required_ends.bind fun _ _ => requiredGeneration_ends).bind fun generation hgen => ?_
  refine (required_ends.bind fun _ _ => requiredJsonInt_ends).bind fun schemaVersion _ => ?_
  refine (required_ends.bind fun _ _ => requiredStatus_ends).bind fun status _ => ?_
  refine (required_ends.bind fun _ _ => requiredCommit_ends).bind fun commit _ => ?_
  refine (required_ends.bind fun _ _ => requiredCommit_ends).bind fun previousCommit _ => ?_
  refine (required_ends.bind fun _ _ => requiredJsonString_ends).bind fun repo _ => ?_
  refine parseSupervisorCandidateMeta_ends.bind fun newMeta _ => ?_
  exact parsePreviousRestart_ends.bind fun restart _ => hgen

end Raises

/-! ## Numbers no float reaches -/

/-- The field holds an integer that is too large for a float. -/
def HugeInteger (data : Fields) (key : String) : Prop :=
  ∃ n, data key = some (.int n) ∧ strictFiniteFloat (.int n) = none

/-- The field holds a finite number that is not refused. -/
def NumberIn (refused : ℚ → Bool) (data : Fields) (key : String) : Prop :=
  ∃ v q, data key = some v ∧ strictFiniteFloat v = some q ∧ refused q = false

/-- The parser comes to an integer that is too large for a float: everything it reads before is
well formed. -/
def OverflowReached (py : Interpreter) (data : Fields) : Prop :=
  (∃ i, missionIdentity py data = .ok i) ∧
    (HugeInteger data "deadline" ∨
      NumberIn (· < 0) data "deadline" ∧ (∃ s, data "uv_path" = some (.str s)) ∧
        (HugeInteger data "stop_grace_seconds" ∨
          NumberIn (· ≤ 0) data "stop_grace_seconds" ∧ HugeInteger data "git_timeout_seconds"))

section Numbers

variable {py : Interpreter} {data : Fields} {refused : ℚ → Bool} {key : String}

theorem requiredNumber_ends (h : ¬ HugeInteger data key) :
    Ends Handled (fun _ => NumberIn refused data key)
      (required data key >>= requiredNumber refused) := by
  refine required_ends.bind fun v hv => ?_
  have hfinite : Ends Handled (strictFiniteFloat v = some ·) (requiredFiniteJsonNumber v) := by
    cases v with
    | int n =>
      cases hq : strictFiniteFloat (.int n) with
      | none => exact absurd ⟨n, hv, hq⟩ h
      | some q =>
        simp only [requiredFiniteJsonNumber, hq]
        rfl
    | float lit =>
      cases hq : strictFiniteFloat (.float lit) with
      | none =>
        simp only [requiredFiniteJsonNumber, hq]
        rfl
      | some q =>
        simp only [requiredFiniteJsonNumber, hq]
        rfl
    | null | bool _ | str _ | arr _ | obj _ => rfl
  refine hfinite.bind fun q hq => ?_
  by_cases hr : refused q = true
  · rw [if_pos hr]
    rfl
  · rw [if_neg hr]
    exact ⟨v, q, hv, hq, by simpa using hr⟩

theorem requiredNumber_overflow (h : HugeInteger data key) :
    required data key >>= requiredNumber refused = .error .overflowError := by
  obtain ⟨n, hn, hq⟩ := h
  rw [required, hn]
  show requiredNumber refused (.int n) = _
  rw [requiredNumber, requiredFiniteJsonNumber, hq]
  rfl

theorem requiredNumber_of_numberIn (h : NumberIn refused data key) :
    ∃ q, required data key >>= requiredNumber refused = .ok q := by
  obtain ⟨v, q, hv, hq, hr⟩ := h
  refine ⟨q, ?_⟩
  rw [required, hv]
  show requiredNumber refused v = _
  have hfinite : requiredFiniteJsonNumber v = .ok q := by
    cases v with
    | int n => rw [requiredFiniteJsonNumber, hq]
    | float lit => rw [requiredFiniteJsonNumber, hq]
    | null | bool _ | str _ | arr _ | obj _ => cases hq
  rw [requiredNumber, hfinite]
  show (if refused q = true then _ else _) = _
  rw [if_neg (by simp [hr])]
  rfl

theorem requiredString_ends :
    Ends Handled (fun s => data key = some (.str s)) (required data key >>= requiredJsonString) := by
  refine required_ends.bind fun v hv => ?_
  cases v with
  | str s => exact hv
  | null | bool _ | int _ | float _ | arr _ | obj _ => rfl

/-- Short of an integer that is too large for a float, parsing raises what `from_dict` handles. -/
theorem buildFromDict_ends (h : ¬ OverflowReached py data) :
    Ends Handled (fun s => 1 ≤ s.generation) (RollbackState.buildFromDict py data) := by
  rw [RollbackState.buildFromDict]
  refine missionIdentity_ends.returned.bind fun i hi => ?_
  have hdeadline : ¬ HugeInteger data "deadline" := fun hh => h ⟨⟨i, hi.1⟩, .inl hh⟩
  refine (requiredNumber_ends hdeadline).bind fun deadline hin => ?_
  refine requiredString_ends.bind fun uvPath huv => ?_
  have hgrace : ¬ HugeInteger data "stop_grace_seconds" := fun hh =>
    h ⟨⟨i, hi.1⟩, .inr ⟨hin, ⟨uvPath, huv⟩, .inl hh⟩⟩
  refine (requiredNumber_ends hgrace).bind fun stopGraceSeconds hstop => ?_
  have hgit : ¬ HugeInteger data "git_timeout_seconds" := fun hh =>
    h ⟨⟨i, hi.1⟩, .inr ⟨hin, ⟨uvPath, huv⟩, .inr ⟨hstop, hh⟩⟩⟩
  refine (requiredNumber_ends hgit).bind fun gitTimeoutSeconds _ => ?_
  refine retiringFlag_ends.bind fun previousRetiring _ => ?_
  exact fromDict_ends.bind fun previousMeta _ => hi.2

theorem buildFromDict_overflow (h : OverflowReached py data) :
    RollbackState.buildFromDict py data = .error .overflowError := by
  obtain ⟨⟨i, hi⟩, hnumbers⟩ := h
  rw [RollbackState.buildFromDict, hi]
  show (required data "deadline" >>= requiredNumber _) >>= _ = _
  rcases hnumbers with hdeadline | ⟨hdeadline, ⟨uvPath, huv⟩, hnumbers⟩
  · rw [requiredNumber_overflow hdeadline]
    rfl
  obtain ⟨deadline, hdeadline⟩ := requiredNumber_of_numberIn hdeadline
  rw [hdeadline]
  show (required data "uv_path" >>= requiredJsonString) >>= _ = _
  rw [required, huv]
  show (required data "stop_grace_seconds" >>= requiredNumber _) >>= _ = _
  rcases hnumbers with hgrace | ⟨hgrace, hgit⟩
  · rw [requiredNumber_overflow hgrace]
    rfl
  obtain ⟨stopGraceSeconds, hgrace⟩ := requiredNumber_of_numberIn hgrace
  rw [hgrace]
  show (required data "git_timeout_seconds" >>= requiredNumber _) >>= _ = _
  rw [requiredNumber_overflow hgit]
  rfl

/-- **When `from_dict` keeps to `DeployCtlError`.** -/
theorem RollbackState.fromDict_iff :
    Ends (Of .DeployCtlError) (fun _ => True) (RollbackState.fromDict py data) ↔
      ¬ OverflowReached py data := by
  constructor
  · intro hends hover
    rw [RollbackState.fromDict, buildFromDict_overflow hover] at hends
    cases hends
  · intro h
    exact Ends.translating ((buildFromDict_ends h).mono (fun _ h => h) fun _ _ => trivial) _

end Numbers

theorem normalizeParsedState_ends (s : RollbackState) :
    Ends (Of .DeployCtlError) (fun t => t.generation = s.generation) (normalizeParsedState s) := by
  rw [normalizeParsedState]
  split_ifs
  · rfl
  · rfl
  · exact of_raised _ _

/-- When `read_rollback_state` keeps to `DeployCtlError` on a present file. -/
theorem readRollbackState_iff {py : Interpreter} {data : List UInt8} :
    Ends (Of .DeployCtlError) (fun _ => True) (readRollbackState py (.bytes data)) ↔
      Legible py utf8 data ∧ ∀ t members, utf8 data = some t →
        jsonLoads py t = (.ok (.obj members) : Outcome Json) →
          ¬ OverflowReached py (memberOf members) := by
  refine (JsonReader.Guards.ends_iff ?_).trans
    (and_congr_right fun _ => ⟨fun hall t members ht hj hover => ?_, fun hall t v ht hj => ?_⟩)
  · exact ⟨fun _ h => h, rfl, of_raised _ _, nofun, nofun⟩
  · have hends := hall t _ ht hj
    simp only [RollbackState.fromDict, buildFromDict_overflow hover] at hends
    cases hends
  · cases v with
    | obj members =>
      refine (RollbackState.fromDict_iff.2 (hall t members ht hj)).bind fun s _ => ?_
      exact (normalizeParsedState_ends s).map fun _ _ => trivial
    | null | bool _ | int _ | float _ | str _ | arr _ => exact of_raised _ _

end Lubko.Deploy
