import Lubko.Lib.JsonFile
import Lubko.Supervise.State

/-!
# Worker metadata

`WorkerMeta` of `lifecycle.py`: how `meta.json` is written and read, and the record that stands for
the candidate of a supervised deployment inside the mission file.

Every field reader raises a `TypeError` or a `ValueError` and nothing else, so `read_meta_strict`
raises `WorkerMetadataError` on every content it can decode.

* `WorkerMeta.fromDict_ends` — what parsing raises.
* `readMetaStrict_iff` — when reading the file keeps to `WorkerMetadataError`.
-/

namespace Lubko.Lifecycle

open Lubko.Lib Lubko.Supervise

/-! ## Exceptions -/

/-- The exception classes of the package that its readers raise. -/
inductive ErrorClass where
  | DeployCtlError
  | DesiredIntentError
  | MissionAuthorityError
  | DesiredAuthorityConflictError
  | MalformedSupervisorIdentityError
  | WorkerMetadataError
  | SupervisorStateTokenError
  deriving DecidableEq

/-- What a function of the package returns or raises. -/
abbrev Outcome (α : Type) := Except (PyError ErrorClass) α

/-- `isinstance(exc, (TypeError, ValueError))`. -/
def typeOrValueError (exc : PyError ErrorClass) : Bool := exc.isTypeError || exc.isValueError

/-- `isinstance(exc, (KeyError, TypeError, ValueError))`. -/
def keyTypeOrValueError (exc : PyError ErrorClass) : Bool :=
  exc.isKeyError || exc.isTypeError || exc.isValueError

/-- `try: body`, `except handled as exc: raise cls(msg) from exc`. -/
def translating {α : Type} (handled : PyError ErrorClass → Bool) (cls : ErrorClass) (msg : PyStr) :
    Outcome α → Outcome α
  | .ok a => .ok a
  | .error exc => if handled exc then .error (.raised cls msg) else .error exc

/-- The exception is of the class. -/
def Of (cls : ErrorClass) (exc : PyError ErrorClass) : Prop := exc.isRaised cls = true

theorem of_raised (cls : ErrorClass) (msg : PyStr) : Of cls (.raised cls msg) := by
  simp [Of, PyError.isRaised]

/-- Every exception that is handled becomes one of the class. -/
theorem Ends.translating {α : Type} {handled : PyError ErrorClass → Bool} {cls : ErrorClass}
    {post : α → Prop} {x : Outcome α} (hx : Ends (fun exc => handled exc = true) post x)
    (msg : PyStr) : Ends (Of cls) post (translating handled cls msg x) := by
  cases x with
  | ok a => exact hx
  | error exc =>
    rw [Lifecycle.translating, if_pos (show handled exc = true from hx)]
    exact of_raised cls msg

/-! ## Records -/

/-- `STATE_RUNNING` and `STATE_STOPPED`. -/
inductive WorkerState where
  | running
  | stopped
  deriving DecidableEq

/-- The text of a worker state. -/
def WorkerState.text : WorkerState → PyStr
  | .running => "running"
  | .stopped => "stopped"

/-- The worker state a text names. -/
def workerState? (s : PyStr) : Option WorkerState :=
  if s = WorkerState.text .running then some .running
  else if s = WorkerState.text .stopped then some .stopped else none

/-- `SCHEMA_VERSION` of the worker metadata. -/
def META_SCHEMA_VERSION : ℤ := 1

/-- `WorkerMeta`. -/
structure WorkerMeta where
  schemaVersion : ℤ
  state : WorkerState
  pid : Option ℤ
  pgid : Option ℤ
  sid : Option ℤ
  startTimeTicks : Option ℤ
  token : Option PyStr
  repo : PyStr
  gitCommit : Option PyStr
  workerId : Option PyStr
  logPath : PyStr
  startedAt : Option ℚ
  stoppedAt : Option ℚ
  deriving DecidableEq

/-- `WorkerMeta.to_dict`. -/
def WorkerMeta.toDict (floatRepr : ℚ → List Char) (m : WorkerMeta) : List (PyStr × Json) :=
  [entry "schema_version" (.int m.schemaVersion), entry "state" (.str m.state.text),
    entry "pid" (orNull .int m.pid), entry "pgid" (orNull .int m.pgid),
    entry "sid" (orNull .int m.sid), entry "start_time_ticks" (orNull .int m.startTimeTicks),
    entry "token" (orNull .str m.token), entry "repo" (.str m.repo),
    entry "git_commit" (orNull .str m.gitCommit), entry "worker_id" (orNull .str m.workerId),
    entry "log_path" (.str m.logPath),
    entry "started_at" (orNull (fun x => .float (floatRepr x)) m.startedAt),
    entry "stopped_at" (orNull (fun x => .float (floatRepr x)) m.stoppedAt)]

/-! ## Field readers -/

/-- `f"worker metadata field {field!r} ..."`. -/
def fieldMessage (field : String) (rest : PyStr) : PyStr :=
  PyStr.ofString "worker metadata field '" ++ PyStr.ofString field ++ PyStr.ofString "' " ++ rest

/-- `_required_meta_int`. -/
def requiredMetaInt (data : Fields) (field : String) (minimum : ℤ) : Outcome ℤ :=
  match data field with
  | none => .error (.valueError (fieldMessage field "is missing"))
  | some (.int value) =>
    if value < minimum then
      .error (.valueError (fieldMessage field
        (PyStr.ofString "must be >= " ++ (intText minimum).map CodePoint.ofChar)))
    else .ok value
  | some _ => .error (.typeError (fieldMessage field "must be an integer"))

/-- `_meta_optional_int`. -/
def metaOptionalInt (data : Fields) (field : String) (minimum : ℤ) : Outcome (Option ℤ) :=
  match data field with
  | none | some .null => .ok none
  | some _ => (requiredMetaInt data field minimum).map some

/-- `_meta_string`. -/
def metaString (data : Fields) (field : String) (default : PyStr) : Outcome PyStr :=
  match data field with
  | none => .ok default
  | some (.str s) => .ok s
  | some _ => .error (.typeError (fieldMessage field "must be a string"))

/-- `_meta_worker_state`. -/
def metaWorkerState (py : Interpreter) (data : Fields) : Outcome WorkerState := do
  let state ← metaString data "state" (WorkerState.text .stopped)
  match workerState? state with
  | some known => return known
  | none => throw (.valueError
      (PyStr.ofString "unsupported worker metadata state " ++ py.strRepr state))

/-- `_meta_optional_string`. -/
def metaOptionalString (data : Fields) (field : String) : Outcome (Option PyStr) :=
  match data field with
  | none | some .null => .ok none
  | some _ => (metaString data field []).map some

/-- `_meta_optional_finite_float`. -/
def metaOptionalFiniteFloat (data : Fields) (field : String) : Outcome (Option ℚ) :=
  match data field with
  | none | some .null => .ok none
  | some value =>
    match value with
    | .int _ | .float _ =>
      -- an integer too large for a float is refused with the same message
      match strictFiniteFloat value with
      | none => .error (.valueError (fieldMessage field "must be a finite number"))
      | some result =>
        if result < 0 then .error (.valueError (fieldMessage field "must be >= 0"))
        else .ok (some result)
    | _ => .error (.typeError (fieldMessage field "must be a finite number"))

/-! ## Parsing -/

/-- `WorkerMeta.from_dict`. -/
def WorkerMeta.fromDict (py : Interpreter) (data : Fields) : Outcome WorkerMeta := do
  let schemaVersion ← requiredMetaInt data "schema_version" 1
  if schemaVersion ≠ META_SCHEMA_VERSION then
    throw (.valueError (PyStr.ofString "unsupported worker metadata schema version " ++
      (intText schemaVersion).map CodePoint.ofChar))
  let state ← metaWorkerState py data
  let pid ← metaOptionalInt data "pid" 1
  let pgid ← metaOptionalInt data "pgid" 1
  let sid ← metaOptionalInt data "sid" 0
  let startTimeTicks ← metaOptionalInt data "start_time_ticks" 1
  let token ← metaOptionalString data "token"
  let repo ← metaString data "repo" []
  let gitCommit ← metaOptionalString data "git_commit"
  let workerId ← metaOptionalString data "worker_id"
  let logPath ← metaString data "log_path" []
  let startedAt ← metaOptionalFiniteFloat data "started_at"
  let stoppedAt ← metaOptionalFiniteFloat data "stopped_at"
  return { schemaVersion, state, pid, pgid, sid, startTimeTicks, token, repo, gitCommit, workerId,
           logPath, startedAt, stoppedAt }

/-- `read_meta_strict`. -/
def readMetaStrict (py : Interpreter) : FileBytes → Outcome (Option WorkerMeta) :=
  JsonReader.run
    { missing := fun dangling =>
        if dangling then .error (.raised .WorkerMetadataError
          "maintained-worker metadata is present but unreadable")
        else .ok none
      refused := fun text => .error (.raised .WorkerMetadataError
        (PyStr.ofString "cannot read maintained-worker metadata: " ++ text))
      handled := PyError.isValueError
      invalid := .error (.raised .WorkerMetadataError
        "maintained-worker metadata is not valid JSON")
      accept := fun
        | .obj members =>
          translating keyTypeOrValueError .WorkerMetadataError
            "maintained-worker metadata is malformed"
            ((WorkerMeta.fromDict py (memberOf members)).map some)
        | _ => .error (.raised .WorkerMetadataError
          "maintained-worker metadata must be a JSON object") }
    py py.locale

/-! ## What parsing raises -/

section Raises

variable {py : Interpreter} {data : Fields} {field : String}

/-- The exceptions `from_dict` raises. -/
abbrev Refusal (exc : PyError ErrorClass) : Prop := typeOrValueError exc = true

theorem requiredMetaInt_ends (minimum : ℤ) :
    Ends Refusal (minimum ≤ ·) (requiredMetaInt data field minimum) := by
  rw [requiredMetaInt]
  cases data field with
  | none => rfl
  | some value =>
    cases value with
    | int n =>
      by_cases h : n < minimum
      · simp only [h, if_true]
        rfl
      · simp only [h, if_false]
        exact not_lt.1 h
    | null | bool _ | float _ | str _ | arr _ | obj _ => rfl

theorem metaOptionalInt_ends (minimum : ℤ) :
    Ends Refusal (fun x => ∀ n ∈ x, minimum ≤ n) (metaOptionalInt data field minimum) := by
  rw [metaOptionalInt]
  have hrequired : Ends Refusal (fun x : Option ℤ => ∀ n ∈ x, minimum ≤ n)
      ((requiredMetaInt data field minimum).map some) :=
    (requiredMetaInt_ends minimum).map fun a ha n hn => by
      obtain rfl : a = n := by simpa using hn
      exact ha
  split
  · exact fun n hn => nomatch hn
  · exact fun n hn => nomatch hn
  · exact hrequired

theorem metaString_ends (default : PyStr) :
    Ends Refusal (fun _ => True) (metaString data field default) := by
  rw [metaString]
  split
  · trivial
  · trivial
  · rfl

theorem metaWorkerState_ends : Ends Refusal (fun _ => True) (metaWorkerState py data) := by
  refine (metaString_ends _).bind fun state _ => ?_
  cases workerState? state with
  | some known => trivial
  | none => rfl

theorem metaOptionalString_ends :
    Ends Refusal (fun _ => True) (metaOptionalString data field) := by
  rw [metaOptionalString]
  split
  · trivial
  · trivial
  · exact (metaString_ends []).map fun _ _ => trivial

theorem metaOptionalFiniteFloat_ends :
    Ends Refusal (fun x => ∀ q ∈ x, 0 ≤ q) (metaOptionalFiniteFloat data field) := by
  have hnumber : ∀ value : Json, Ends Refusal (fun x : Option ℚ => ∀ q ∈ x, 0 ≤ q)
      (match strictFiniteFloat value with
      | none => .error (.valueError (fieldMessage field "must be a finite number"))
      | some result =>
        if result < 0 then .error (.valueError (fieldMessage field "must be >= 0"))
        else .ok (some result)) := by
    intro value
    cases strictFiniteFloat value with
    | none => rfl
    | some result =>
      by_cases h : result < 0
      · simp only [h, if_true]
        rfl
      · simp only [h, if_false]
        intro q hq
        obtain rfl : result = q := by simpa using hq
        exact not_lt.1 h
  rw [metaOptionalFiniteFloat]
  split
  · exact fun q hq => nomatch hq
  · exact fun q hq => nomatch hq
  · split
    · exact hnumber _
    · exact hnumber _
    · rfl

/-- **Parsing worker metadata** raises a `TypeError` or a `ValueError`, if it raises. -/
theorem WorkerMeta.fromDict_ends : Ends Refusal (fun _ => True) (WorkerMeta.fromDict py data) := by
  rw [WorkerMeta.fromDict]
  refine (requiredMetaInt_ends 1).bind fun schemaVersion _ => ?_
  by_cases hschema : schemaVersion ≠ META_SCHEMA_VERSION
  · rw [if_pos hschema]
    rfl
  rw [if_neg hschema]
  refine metaWorkerState_ends.bind fun _ _ => ?_
  refine (metaOptionalInt_ends 1).bind fun _ _ => ?_
  refine (metaOptionalInt_ends 1).bind fun _ _ => ?_
  refine (metaOptionalInt_ends 0).bind fun _ _ => ?_
  refine (metaOptionalInt_ends 1).bind fun _ _ => ?_
  refine metaOptionalString_ends.bind fun _ _ => ?_
  refine (metaString_ends []).bind fun _ _ => ?_
  refine metaOptionalString_ends.bind fun _ _ => ?_
  refine metaOptionalString_ends.bind fun _ _ => ?_
  refine (metaString_ends []).bind fun _ _ => ?_
  refine metaOptionalFiniteFloat_ends.bind fun _ _ => ?_
  exact metaOptionalFiniteFloat_ends.bind fun _ _ => trivial

end Raises

/-- When `read_meta_strict` keeps to its error on a present file. -/
theorem readMetaStrict_iff {py : Interpreter} {data : List UInt8} :
    Ends (Of .WorkerMetadataError) (fun _ => True) (readMetaStrict py (.bytes data)) ↔
      Legible py py.locale data := by
  refine JsonReader.Guards.ends_iff_legible ?_ fun v => ?_
  · exact ⟨fun _ h => h, rfl, of_raised _ _, nofun, nofun⟩
  · cases v with
    | obj members =>
      apply Ends.translating
      refine (WorkerMeta.fromDict_ends.mono (fun exc h => ?_) fun _ _ => trivial).map
        fun _ _ => trivial
      rw [keyTypeOrValueError, Bool.or_assoc,
        show (exc.isTypeError || exc.isValueError) = true from h, Bool.or_true]
    | null | bool _ | int _ | float _ | str _ | arr _ => exact of_raised _ _

end Lubko.Lifecycle
