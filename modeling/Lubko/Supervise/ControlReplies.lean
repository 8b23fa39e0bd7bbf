import Lubko.Deploy.Terminal
import Lubko.Supervise.ControlSocket
import Lubko.Supervise.FailClosed

/-!
# Replies of the control socket

The daemon's handlers of control requests, and the clients that read the authority through them. A
handler stores texts of the request in `desired.json`, and an `authority_snapshot` sends the stored
records back: what a request may store is not bounded by what a reply may hold.

The world is the authority files and what else a status response is made of. A step is one
connection, with any bytes on it, or anything the rest of the daemon does between two of them. A
write whose confirmation fails may leave either content.

* `clients_read_snapshot` — a reply within the limit is read by the clients.
* `World.request_fits_iff` — what a request has to leave room for.
* `control_replies_fit_iff` — over every run.
-/

namespace Lubko.Supervise.Control

open Lubko.Lib Lubko.Lifecycle Lubko.Deploy

/-! ## Responses -/

/-- `ControlResponse.ok(**extra)`. -/
def okReply (extra : Message) : Message := entry "ok" (.bool true) :: extra

/-- `ControlResponse.error(message)`. -/
def errorReply (msg : PyStr) : Message := [entry "ok" (.bool false), entry "error" (.str msg)]

/-- The mapping of a response without extra fields. -/
def replyOf : ControlResponse → Message
  | .ok => okReply []
  | .error msg => errorReply msg

/-! ## What a request meets -/

/-- How a crash-durable write ends. One that raises may leave the old content or the new. -/
inductive Disk where
  | confirmed
  | unconfirmed (left : Bool)
  deriving DecidableEq

/-- The file behind the write. -/
def Disk.file (disk : Disk) (before after : FileBytes) : FileBytes :=
  match disk with
  | .confirmed | .unconfirmed true => after
  | .unconfirmed false => before

/-- What one request meets: the two locks, the disk and the clock. -/
structure Env where
  generationLock : Bool := true
  consumerLock : Bool := true
  disk : Disk := .confirmed
  now : ℚ

/-- What the text layer makes of a file. -/
def fileContent : FileBytes → FileContent
  | .absent _ => .absent
  | .unreadable _ => .unreadable
  | .bytes data =>
    match utf8 data with
    | none => .undecodable
    | some t => .text t

/-- A file that was written, in the place of another. -/
def writtenFile (content : FileContent) (before : FileBytes) : FileBytes :=
  match content with
  | .text t => .bytes (utf8Encode t)
  | _ => before

/-! ## Fields of a request -/

/-- `commit = payload.get("commit")`, a string that is not empty. -/
def commitField (payload : Fields) : Except PyStr PyStr :=
  match payload.get "commit" with
  | .str s => if s = [] then .error "missing or invalid 'commit'" else .ok s
  | _ => .error "missing or invalid 'commit'"

/-- `payload.get(key, "")`, a string. -/
def textField (payload : Fields) (key : String) : Except PyStr PyStr :=
  match (payload key).getD (.str []) with
  | .str s => .ok s
  | _ => .error ("missing or invalid '" ++ key ++ "'" : String)

/-- `payload.get(key, False)`, a boolean. -/
def flagField (payload : Fields) (key : String) : Except PyStr Bool :=
  match (payload key).getD (.bool false) with
  | .bool b => .ok b
  | _ => .error ("'" ++ key ++ "' must be a boolean" : String)

/-- The fields `deploy` and `ensure_run_intent` share. -/
def runFields (payload : Fields) : Except PyStr RunRequest := do
  let commit ← commitField payload
  let repo ← textField payload "repo"
  let uvPath ← textField payload "uv_path"
  return { commit, repo, uvPath, workerId := optionalString (payload.get "worker_id") }

/-- The fields of `deploy`. -/
def deployFields (payload : Fields) : Except PyStr RunRequest := do
  let r ← runFields payload
  let restart ← flagField payload "restart"
  let migration ← flagField payload "migration"
  return { r with restart, migration }

/-! ## The status -/

/-- What a status response reads beside the state file. `rollback` is the status of the mission, if
there is one, or `none` for a `DeployCtlError`. -/
structure Observed where
  supervisorPid : ℤ
  startTimeTicks : ℤ
  startedAt : ℚ
  dbReady : Option Bool
  message : Option PyStr
  rollback : Option (Option PyStr)
  workerHealth : Json
  runtimeCommit : Option PyStr
  contractVersion : ℤ
  publishedAt : ℚ
  diagnosticDrops : ℤ

/-- `SupervisorStatus`. -/
structure SupervisorStatus where
  schemaVersion : ℤ
  supervisorPid : ℤ
  supervisorStartTimeTicks : ℤ
  startedAt : ℚ
  appliedGeneration : ℤ
  mode : Mode
  commit : Option PyStr
  child : Option WorkerChild
  intent : Intent
  restartCount : ℤ
  nextAttemptAt : Option ℚ
  lastExit : Option LastExit
  mission : Option PyStr
  dbReady : Option Bool
  ready : Option Bool
  message : Option PyStr
  workerHealth : Json
  holding : Bool
  supervisorRuntimeCommit : Option PyStr
  supervisorRuntimeContractVersion : Option ℤ
  publishedAt : ℚ
  diagnosticDrops : ℤ

/-- The message of a snapshot: that of the daemon, or the one about a corrupt mission. -/
def effectiveMessage (o : Observed) : Option PyStr :=
  match o.rollback, o.message with
  | none, none => some "corrupt supervised-deployment state"
  | _, message => message

/-- `_build_status_snapshot`, behind its read of the state. -/
def buildStatusSnapshot (state : SupervisorState) (o : Observed) : SupervisorStatus where
  schemaVersion := SCHEMA_VERSION
  supervisorPid := o.supervisorPid
  supervisorStartTimeTicks := o.startTimeTicks
  startedAt := o.startedAt
  appliedGeneration := state.appliedGeneration
  mode := state.mode
  commit := state.commit
  child := state.child
  intent := state.intent
  restartCount := state.restartCount
  nextAttemptAt := state.nextAttemptAt
  lastExit := state.lastExit
  mission := o.rollback.join
  dbReady := o.dbReady
  ready := state.child.map fun _ => state.ready
  message := effectiveMessage o
  workerHealth := o.workerHealth
  holding := isHolding state
  supervisorRuntimeCommit := o.runtimeCommit
  supervisorRuntimeContractVersion := some o.contractVersion
  publishedAt := o.publishedAt
  diagnosticDrops := o.diagnosticDrops

section Handlers

variable (py : Interpreter) (other : List UInt8 → Outcome Json) (floatRepr : ℚ → List Char)

/-- `SupervisorStatus.to_dict`. -/
def SupervisorStatus.toDict (s : SupervisorStatus) : List (PyStr × Json) :=
  [entry "schema_version" (.int s.schemaVersion), entry "supervisor_pid" (.int s.supervisorPid),
    entry "supervisor_start_time_ticks" (.int s.supervisorStartTimeTicks),
    entry "started_at" (.float (floatRepr s.startedAt)),
    entry "applied_generation" (.int s.appliedGeneration), entry "mode" (.str s.mode.text),
    entry "commit" (orNull .str s.commit),
    entry "child" (orNull (fun c => .obj (childToDict floatRepr c)) s.child),
    entry "intent" (.str s.intent.text), entry "restart_count" (.int s.restartCount),
    entry "next_attempt_at" (orNull (fun x => .float (floatRepr x)) s.nextAttemptAt),
    entry "last_exit" (orNull (fun e => .obj (LastExit.toDict floatRepr e)) s.lastExit),
    entry "mission" (orNull .str s.mission), entry "db_ready" (orNull .bool s.dbReady),
    entry "ready" (orNull .bool s.ready), entry "message" (orNull .str s.message),
    entry "worker_health" s.workerHealth, entry "holding" (.bool s.holding),
    entry "supervisor_runtime_commit" (orNull .str s.supervisorRuntimeCommit),
    entry "supervisor_runtime_contract_version" (orNull .int s.supervisorRuntimeContractVersion),
    entry "published_at" (.float (floatRepr s.publishedAt)),
    entry "diagnostic_drops" (.int s.diagnosticDrops)]

/-! ## The handlers

Each returns its response and the files it leaves. -/

/-- `_control_status_response`. -/
def controlStatusResponse (files : Files) (o : Observed) : Message :=
  match readStateFile py files.state with
  | .error _ => errorReply "failed to read status"
  | .ok state => okReply [entry "status" (.obj ((buildStatusSnapshot state o).toDict floatRepr))]

/-- `_handle_authority_snapshot_request`. -/
def handleAuthoritySnapshotRequest (files : Files) : Message :=
  match readDesiredStrict py files.desired with
  | .error _ => errorReply "failed to read desired authority"
  | .ok desired =>
    match readStateFile py files.state with
    | .error _ => errorReply "failed to read state authority"
    | .ok state =>
      okReply [
        entry "desired" (orNull (fun d => .obj (SupervisorDesired.toDict floatRepr d)) desired),
        entry "state" (.obj (state.toDict floatRepr))]

/-- `write_desired`, and the response behind it. -/
def publishDesired (files : Files) (env : Env) (msg : PyStr) (d : SupervisorDesired) :
    Message × Files :=
  (if env.disk = .confirmed then okReply [entry "generation" (.int d.generation)]
    else errorReply msg,
    { files with
      desired := env.disk.file files.desired (.bytes (utf8Encode (d.fileText floatRepr))) })

/-- `_handle_deploy_request`, with `request_run`. -/
def handleDeployRequest (files : Files) (env : Env) (payload : Fields) : Message × Files :=
  match deployFields payload with
  | .error msg => (errorReply msg, files)
  | .ok r =>
    if env.generationLock then
      match writeRunIntentLocked py env.now files r with
      | .error _ => (errorReply "failed to apply deploy request", files)
      | .ok d => publishDesired floatRepr files env "failed to apply deploy request" d
    else (errorReply "generation lock timed out", files)

/-- `_handle_ensure_run_intent`. -/
def handleEnsureRunIntent (files : Files) (env : Env) (payload : Fields) : Message × Files :=
  match runFields payload with
  | .error msg => (errorReply msg, files)
  | .ok r =>
    -- the token is checked before the lock is taken
    if files.hasToken && !env.generationLock then (errorReply "generation lock timed out", files)
    else
      match ensureRunIntent py env.now files r with
      | .error (.raised .DesiredAuthorityConflictError msg) => (errorReply msg, files)
      | .error _ => (errorReply "failed to ensure run intent", files)
      | .ok (generation, none) => (okReply [entry "generation" (.int generation)], files)
      | .ok (_, some d) => publishDesired floatRepr files env "failed to ensure run intent" d

/-- `_handle_allocate_generation`. -/
def handleAllocateGeneration (files : Files) (env : Env) : Message × Files :=
  if env.generationLock then
    match nextGeneration py files with
    | .error _ => (errorReply "failed to allocate generation", files)
    | .ok generation =>
      (if env.disk = .confirmed then okReply [entry "generation" (.int generation)]
        else errorReply "failed to allocate generation",
        { files with
          reserved := env.disk.file files.reserved (.bytes (utf8Encode
            (dumps (.obj [entry "generation" (.int generation)]) ++ ['\n']))) })
  else (errorReply "generation lock timed out", files)

/-- A handler that publishes the state, on the files; its write is tried once. -/
def publishState (handler : FileContent → Publication → Handled) (files : Files) (env : Env) :
    Message × Files :=
  let before := fileContent files.state
  let meets (confirmed : Bool) : Publication :=
    { locked := env.consumerLock, current := before, confirmed := confirmed }
  (replyOf (handler before (meets (env.disk = .confirmed))).1,
    match (handler before (meets true)).2 with
    | none => files
    | some content =>
      { files with state := env.disk.file files.state (writtenFile content files.state) })

/-- `_handle_control_request`, with the status response. -/
def handleControlRequest (files : Files) (o : Observed) (env : Env) (type : PyStr)
    (payload : Fields) : Message × Files :=
  if type = PyStr.ofString "status" then (controlStatusResponse py floatRepr files o, files)
  else if type = PyStr.ofString "ping" then (okReply [], files)
  else if type = PyStr.ofString "deploy" then handleDeployRequest py floatRepr files env payload
  else if type = PyStr.ofString "authority_snapshot" then
    (handleAuthoritySnapshotRequest py floatRepr files, files)
  else if type = PyStr.ofString "set_spawning_obligation" then
    publishState (handleSetSpawningObligation floatRepr payload) files env
  else if type = PyStr.ofString "clear_spawning_obligation" then
    publishState (handleClearSpawningObligation floatRepr) files env
  else if type = PyStr.ofString "allocate_generation" then handleAllocateGeneration py files env
  else if type = PyStr.ofString "ensure_run_intent" then
    handleEnsureRunIntent py floatRepr files env payload
  else (errorReply (PyStr.ofString "unknown request type: " ++ type), files)

/-- One connection of `_accept_control_requests`, from a peer of the same user: the response it
sends, if any, and the files it leaves. -/
def acceptControlRequest (files : Files) (o : Observed) (env : Env) (conn : Conn) :
    Option Message × Files :=
  match recvMessage py other conn with
  | .ok none => (none, files)
  | .error _ => (some (errorReply "internal error"), files)
  | .ok (some raw) =>
    match Json.get raw "type" with
    | .str [] => (some (errorReply "internal error"), files)
    | .str type =>
      let handled := handleControlRequest py floatRepr files o env type (memberOf raw)
      (some handled.1, handled.2)
    | _ => (some (errorReply "internal error"), files)

/-! ## The clients -/

/-- What a client raises. -/
inductive ClientError where
  | connectionRefused
  | runtimeError (error : Json)
  | raised (exc : PyError ErrorClass)

/-- `bool(value)`. -/
def truthy : Json → Bool
  | .null => false
  | .bool b => b
  | .int n => n ≠ 0
  | .float lit => (literalFloat? lit).getD 1 ≠ 0
  | .str s => s ≠ []
  | .arr items => !items.isEmpty
  | .obj members => !members.isEmpty

/-- `_socket_request` of a reply, and `_snapshot_request`. A `ConnectionError` is an `OSError`. -/
def snapshotRequest (conn : Conn) : Except ClientError Message :=
  match recvMessage py other conn with
  | .error exc => .error (.raised exc)
  | .ok none => .error .connectionRefused
  | .ok (some response) =>
    if truthy (Json.get response "ok") then .ok response
    else .error (.runtimeError ((memberOf response "error").getD
      (.str "unknown error from supervisor")))

/-- `read_state_client`, without a token. -/
def readStateClient (conn : Conn) : Except ClientError SupervisorState := do
  let response ← snapshotRequest py other conn
  match Json.get response "state" with
  | .obj data =>
    (SupervisorState.fromDict (memberOf data)).mapError fun msg => .raised (.valueError msg)
  | _ => throw (.raised (.typeError "supervisor response missing state in authority_snapshot"))

/-- `read_desired_client`, without a token. -/
def readDesiredClient (conn : Conn) : Except ClientError (Option SupervisorDesired) := do
  let response ← snapshotRequest py other conn
  match Json.get response "desired" with
  | .null => return none
  | .obj data =>
    let desired ← (translating typeOrValueError .DesiredIntentError
      "supervisor desired intent from authority_snapshot is malformed"
      (SupervisorDesired.fromDict (memberOf data))).mapError .raised
    return some desired
  | _ => throw (.raised (.raised .DesiredIntentError
      "supervisor response has malformed desired in authority_snapshot"))

end Handlers

/-! ## Sizes of replies -/

section Sizes

variable (floatRepr : ℚ → List Char)

/-- What `authority_snapshot` sends of an intent and a state. -/
def snapshotReply (desired : Option SupervisorDesired) (state : SupervisorState) : Message :=
  okReply [entry "desired" (orNull (fun d => .obj (SupervisorDesired.toDict floatRepr d)) desired),
    entry "state" (.obj (state.toDict floatRepr))]

/-- The size of the records a reply carries. -/
def desiredSize (desired : Option SupervisorDesired) : ℕ :=
  compactSize (orNull (fun d => .obj (d.toDict floatRepr)) desired)

def stateSize (state : SupervisorState) : ℕ := compactSize (.obj (state.toDict floatRepr))

def statusSize (status : SupervisorStatus) : ℕ := compactSize (.obj (status.toDict floatRepr))

/-- The size of a record of a run request, at a generation and a time. -/
def intentSize (generation : ℤ) (r : RunRequest) (now : ℚ) : ℕ :=
  116 + utf8Size (intText generation) + textSize r.commit + textSize r.repo + textSize r.uvPath +
    (r.workerId.map textSize).getD 4 + (if r.restart then 4 else 5) + utf8Size (floatRepr now) +
    (if r.migration then 4 else 5)

end Sizes

/-- The record of a run request. -/
def intentOf (generation : ℤ) (r : RunRequest) (now : ℚ) : SupervisorDesired where
  schemaVersion := SCHEMA_VERSION
  generation := generation
  commit := r.commit
  repo := r.repo
  uvPath := r.uvPath
  workerId := r.workerId
  restart := r.restart
  requestedAt := now
  migration := r.migration

section SizeLemmas

variable {floatRepr : ℚ → List Char}

theorem payloadOf_length (data : Message) : (payloadOf data).length = compactSize (.obj data) := rfl

theorem payloadOf_snapshot (desired : Option SupervisorDesired) (state : SupervisorState) :
    (payloadOf (snapshotReply floatRepr desired state)).length =
      31 + desiredSize floatRepr desired + stateSize floatRepr state := by
  have hok : textSize (PyStr.ofString "ok") = 4 := by decide
  have hdesired : textSize (PyStr.ofString "desired") = 9 := by decide
  have hstate : textSize (PyStr.ofString "state") = 7 := by decide
  rw [payloadOf_length, snapshotReply, okReply, compactSize_obj (List.cons_ne_nil _ _)]
  simp only [List.map_cons, List.map_nil, List.sum_cons, List.sum_nil, memberSize, entry,
    compactSize_bool, hok, hdesired, hstate, if_true]
  rw [desiredSize, stateSize]
  omega

theorem payloadOf_status (status : SupervisorStatus) :
    (payloadOf (okReply [entry "status" (.obj (status.toDict floatRepr))])).length =
      21 + statusSize floatRepr status := by
  have hok : textSize (PyStr.ofString "ok") = 4 := by decide
  have hstatus : textSize (PyStr.ofString "status") = 8 := by decide
  rw [payloadOf_length, okReply, compactSize_obj (List.cons_ne_nil _ _)]
  simp only [List.map_cons, List.map_nil, List.sum_cons, List.sum_nil, memberSize, entry,
    compactSize_bool, hok, hstatus, if_true]
  rw [statusSize]
  omega

theorem payloadOf_error (msg : PyStr) :
    (payloadOf (errorReply msg)).length = 21 + textSize msg := by
  have hok : textSize (PyStr.ofString "ok") = 4 := by decide
  have herror : textSize (PyStr.ofString "error") = 7 := by decide
  rw [payloadOf_length, errorReply, compactSize_obj (List.cons_ne_nil _ _)]
  simp only [List.map_cons, List.map_nil, List.sum_cons, List.sum_nil, memberSize, entry,
    compactSize_bool, compactSize_str, hok, herror, Bool.false_eq_true, if_false]
  omega

theorem desiredSize_intentOf (generation : ℤ) (r : RunRequest) (now : ℚ) :
    desiredSize floatRepr (some (intentOf generation r now)) =
      intentSize floatRepr generation r now := by
  have hschema : textSize (PyStr.ofString "schema_version") = 16 := by decide
  have hversion : utf8Size (intText SCHEMA_VERSION) = 1 := by decide
  have hgeneration : textSize (PyStr.ofString "generation") = 12 := by decide
  have hcommit : textSize (PyStr.ofString "commit") = 8 := by decide
  have hrepo : textSize (PyStr.ofString "repo") = 6 := by decide
  have huv : textSize (PyStr.ofString "uv_path") = 9 := by decide
  have hid : textSize (PyStr.ofString "worker_id") = 11 := by decide
  have hrestart : textSize (PyStr.ofString "restart") = 9 := by decide
  have hrequested : textSize (PyStr.ofString "requested_at") = 14 := by decide
  have hmigration : textSize (PyStr.ofString "migration") = 11 := by decide
  have hworker : compactSize (orNull .str r.workerId) = (r.workerId.map textSize).getD 4 := by
    cases r.workerId with
    | none => exact compactSize_null
    | some s => exact compactSize_str s
  rw [desiredSize, orNull, SupervisorDesired.toDict, compactSize_obj (List.cons_ne_nil _ _)]
  simp only [intentOf, List.map_cons, List.map_nil, List.sum_cons,
    List.sum_nil, memberSize, entry, compactSize_int, compactSize_str, compactSize_bool,
    compactSize_float, hworker, hschema, hversion, hgeneration, hcommit, hrepo, huv, hid, hrestart,
    hrequested, hmigration]
  rw [intentSize]
  omega

end SizeLemmas

/-! ## The records behind the files -/

section Records

variable {py : Interpreter} {floatRepr : ℚ → List Char} {file : FileBytes} {s : SupervisorState}

/-- The daemon and the writers read one state from a file. -/
theorem readStateFile_eq_ok (hplain : ∀ t, fileContent file = .text t → Plain py t) :
    readStateFile py file = .ok s ↔ readState (fileContent file) = .ok s := by
  cases file with
  | absent dangling =>
    have hfresh : readStateFile py (.absent dangling) = .ok freshState := rfl
    have hread : readState .absent = .ok freshState := rfl
    rw [hfresh, fileContent, hread, Except.ok.injEq, Except.ok.injEq]
  | unreadable text =>
    have hheld : readStateFile py (.unreadable text) =
        .ok { freshState with ownershipHoldMalformed := true } := rfl
    have hread : readState .unreadable = .ok { freshState with ownershipHoldMalformed := true } :=
      rfl
    rw [hheld, fileContent, hread, Except.ok.injEq, Except.ok.injEq]
  | bytes data =>
    rw [fileContent] at hplain ⊢
    cases ht : utf8 data with
    | none =>
      have hraises : readStateFile py (.bytes data) = .error .unicodeDecodeError := by
        rw [readStateFile, JsonReader.run, ht]
      rw [hraises]
      exact iff_of_false (fun h => by cases h) fun h => by cases h
    | some t =>
      rw [ht] at hplain
      have hlimits := hplain t rfl
      rw [readStateFile_text ht hlimits.deep hlimits.digits]
      cases readState (.text t) with
      | ok s => simp [Except.mapError]
      | error exc => simp [Except.mapError]

/-- A state that is written again is read as it was. -/
theorem readStateFile_rewritten (hplain : ∀ t, fileContent file = .text t → Plain py t)
    (hplain' : Plain py (s.fileText floatRepr)) (hx : s.FloatsReadBack floatRepr)
    (h : readStateFile py file = .ok s) :
    readStateFile py (.bytes (utf8Encode (s.fileText floatRepr))) = .ok s := by
  have hvalid := readState_valid ((readStateFile_eq_ok hplain).1 h)
  rw [readStateFile_text (utf8_utf8Encode _) hplain'.deep hplain'.digits,
    readState_fileText hvalid hx]
  rfl

/-- The arguments with their surrogate pairs joined. -/
def joined (r : RunRequest) : RunRequest :=
  { r with
    commit := r.commit.joinSurrogates
    repo := r.repo.joinSurrogates
    uvPath := r.uvPath.joinSurrogates
    workerId := r.workerId.map PyStr.joinSurrogates }

theorem intentSize_joined (generation : ℤ) (r : RunRequest) (now : ℚ) :
    intentSize floatRepr generation (joined r) now = intentSize floatRepr generation r now := by
  have hid : ((r.workerId.map PyStr.joinSurrogates).map textSize).getD 4 =
      (r.workerId.map textSize).getD 4 := by
    cases r.workerId with
    | none => rfl
    | some s => exact textSize_joinSurrogates s
  simp only [intentSize, joined, textSize_joinSurrogates, hid]
  rfl

/-- Joining the pairs does not change the text of the record. -/
theorem fileText_joined (generation : ℤ) (r : RunRequest) (now : ℚ) :
    (intentOf generation (joined r) now).fileText floatRepr =
      (intentOf generation r now).fileText floatRepr := by
  have hsort : ∀ d : SupervisorDesired, dumps (Json.obj (d.toDict floatRepr)).sortKeys =
      dumps (.obj [entry "commit" (.str d.commit), entry "generation" (.int d.generation),
        entry "migration" (.bool d.migration), entry "repo" (.str d.repo),
        entry "requested_at" (.float (floatRepr d.requestedAt)),
        entry "restart" (.bool d.restart), entry "schema_version" (.int d.schemaVersion),
        entry "uv_path" (.str d.uvPath), entry "worker_id" (orNull .str d.workerId).sortKeys]) :=
    fun _ => rfl
  have hid : dumps (orNull .str (r.workerId.map PyStr.joinSurrogates)).sortKeys =
      dumps (orNull .str r.workerId).sortKeys := by
    cases r.workerId with
    | none => rfl
    | some s => exact (dumps_str _).trans ((quote_joinSurrogates s).trans (dumps_str s).symm)
  rw [SupervisorDesired.fileText, SupervisorDesired.fileText, hsort, hsort]
  simp only [intentOf, joined, dumps_obj, dumps_str, dumpsMembers, entry,
    quote_joinSurrogates, hid]

theorem intentOf_joined_valid {generation : ℤ} (r : RunRequest) {now : ℚ} (hg : 0 ≤ generation)
    (hnow : 0 ≤ now) : (intentOf generation (joined r) now).Valid where
  schema := rfl
  generation := hg
  commitText := PyStr.joinSurrogates_idem r.commit
  repoText := PyStr.joinSurrogates_idem r.repo
  uvText := PyStr.joinSurrogates_idem r.uvPath
  idText s hs := by
    obtain ⟨t, -, rfl⟩ := Option.map_eq_some_iff.1 hs
    exact PyStr.joinSurrogates_idem t
  requestedAt := hnow

/-- **The record of a request is read with its pairs joined.** -/
theorem readDesiredStrict_intentOf {generation : ℤ} {r : RunRequest} {now : ℚ}
    (hplain : Plain py ((intentOf generation r now).fileText floatRepr)) (hg : 0 ≤ generation)
    (hnow : 0 ≤ now) (hx : ReadsBack floatRepr now) :
    readDesiredStrict py (.bytes (utf8Encode ((intentOf generation r now).fileText floatRepr))) =
      .ok (some (intentOf generation (joined r) now)) := by
  rw [← fileText_joined] at hplain ⊢
  exact readDesiredStrict_fileText (intentOf_joined_valid r hg hnow) hx hplain.deep hplain.digits

/-- The next generation is above the one the state has. -/
theorem nextGeneration_eq_ok {files : Files} {generation : ℤ}
    (h : nextGeneration py files = .ok generation) :
    ∃ state, readStateFile py files.state = .ok state ∧ state.appliedGeneration < generation := by
  simp only [nextGeneration, except_bind_eq_ok, pure, Except.pure, Except.ok.injEq] at h
  obtain ⟨state, hstate, desired, -, mission, -, reserved, -, rfl⟩ := h
  exact ⟨state, hstate, by omega⟩

end Records

/-! ## Runs -/

/-- The authority files, and what else the replies are made of. -/
structure World where
  files : Files
  observed : Observed

/-- A connection that is accepted, or what the rest of the daemon leaves before the next one. -/
inductive Label where
  | request (conn : Conn) (env : Env)
  | tick (files : Files) (observed : Observed)

section Runs

variable (py : Interpreter) (other : List UInt8 → Outcome Json) (floatRepr : ℚ → List Char)

/-- One step; every step is enabled. -/
def World.step (w : World) : Label → Option World
  | .request conn env =>
    some { w with
      files := (acceptControlRequest py other floatRepr w.files w.observed env conn).2 }
  | .tick files observed => some { files := files, observed := observed }

/-- The replies to `authority_snapshot` and to `status` are within the limit. -/
def World.RepliesFit (w : World) : Prop :=
  (payloadOf (handleAuthoritySnapshotRequest py floatRepr w.files)).length ≤ MAX_MESSAGE_BYTES ∧
    (payloadOf (controlStatusResponse py floatRepr w.files w.observed)).length ≤ MAX_MESSAGE_BYTES

/-- The replies are within the limit after the step. -/
def World.KeepsReplies (w : World) (label : Label) : Prop :=
  ∀ w', w.step py other floatRepr label = some w' → w'.RepliesFit py floatRepr

/-- Where `ensure_run_intent` establishes a record: there is none, and no mission. -/
def unestablished (files : Files) : Bool :=
  match files.hasToken, readDesiredStrict py files.desired, files.missionPath with
  | true, .ok none, .missing => true
  | _, _, _ => false

/-- The run request whose record goes into `desired.json`, if the request is one that stores it. -/
def requestedIntent (files : Files) (env : Env) (raw : Message) : Option RunRequest :=
  if env.disk = .unconfirmed false ∨ env.generationLock = false then none
  else
    match Json.get raw "type" with
    | .str type =>
      if type = PyStr.ofString "deploy" then (deployFields (memberOf raw)).toOption
      else if type = PyStr.ofString "ensure_run_intent" then
        if unestablished py files then (runFields (memberOf raw)).toOption else none
      else none
    | _ => none

/-- The same, for the bytes of a connection. -/
def storedRequest (files : Files) (env : Env) (conn : Conn) : Option RunRequest :=
  match recvMessage py other conn with
  | .ok (some raw) => requestedIntent py files env raw
  | _ => none

/-- The records behind the replies leave them within the limit. -/
structure RecordsFit (files : Files) (observed : Observed) : Prop where
  snapshot : ∀ desired state, readDesiredStrict py files.desired = .ok desired →
    readStateFile py files.state = .ok state →
      31 + desiredSize floatRepr desired + stateSize floatRepr state ≤ MAX_MESSAGE_BYTES
  status : ∀ state, readStateFile py files.state = .ok state →
    21 + statusSize floatRepr (buildStatusSnapshot state observed) ≤ MAX_MESSAGE_BYTES

/-- **What a step has to leave room for.** A request that stores a record: its texts, the generation
and the time, beside the state. The rest of the daemon: the records it leaves. -/
def World.HasRoom (w : World) : Label → Prop
  | .request conn env => ∀ r generation state, storedRequest py other w.files env conn = some r →
    nextGeneration py w.files = .ok generation → readStateFile py w.files.state = .ok state →
      31 + intentSize floatRepr generation r env.now + stateSize floatRepr state ≤ MAX_MESSAGE_BYTES
  | .tick files observed => RecordsFit py floatRepr files observed

/-- The files meet no limit of the interpreter, and their floats are ones it writes and reads. -/
structure World.Ordinary (w : World) : Prop where
  state : ∀ t, fileContent w.files.state = .text t → Plain py t
  desired : ∀ t, fileContent w.files.desired = .text t → Plain py t
  stateFloats : ∀ s, readStateFile py w.files.state = .ok s → s.FloatsReadBack floatRepr
  requestedAt : ∀ d, readDesiredStrict py w.files.desired = .ok (some d) →
    ReadsBack floatRepr d.requestedAt

/-- The step starts and ends so, and the clock of a request shows a time. -/
structure World.Regular (w : World) (label : Label) : Prop where
  before : w.Ordinary py floatRepr
  after : ∀ w', w.step py other floatRepr label = some w' → w'.Ordinary py floatRepr
  clock : ∀ conn env, label = .request conn env → 0 ≤ env.now ∧ ReadsBack floatRepr env.now

end Runs

/-! ## What a request leaves -/

section Left

variable {py : Interpreter} {other : List UInt8 → Outcome Json} {floatRepr : ℚ → List Char}
  {files files' : Files} {env : Env}

/-- The record that is stored for a run request. -/
def storedIntent (py : Interpreter) (files : Files) (env : Env) :
    Option RunRequest → Option SupervisorDesired
  | none => none
  | some r =>
    match nextGeneration py files with
    | .ok generation => some (intentOf generation r env.now)
    | .error _ => none

/-- The files behind a request: with the record it stores or, without one, with the same desired
record, and the state as it is or written again. -/
def Leaves (floatRepr : ℚ → List Char) (files files' : Files) : Option SupervisorDesired → Prop
  | some d => files' = { files with desired := .bytes (utf8Encode (d.fileText floatRepr)) }
  | none => files'.desired = files.desired ∧ (files'.state = files.state ∨
    ∃ s, readState (fileContent files.state) = .ok s ∧
      files'.state = .bytes (utf8Encode (s.fileText floatRepr)))

theorem Leaves.unchanged (files : Files) : Leaves floatRepr files files none := ⟨rfl, .inl rfl⟩

theorem Disk.file_eq (disk : Disk) (before after : FileBytes) :
    disk.file before after = if disk = .unconfirmed false then before else after := by
  cases disk with
  | confirmed => rfl
  | unconfirmed left => cases left <;> rfl

theorem writeRunIntentLocked_eq (now : ℚ) (r : RunRequest) :
    writeRunIntentLocked py now files r =
      (nextGeneration py files).map fun generation => intentOf generation r now := by
  cases h : nextGeneration py files with
  | ok generation =>
    simp [writeRunIntentLocked, h, bind, Except.bind, pure, Except.pure, Except.map, intentOf]
  | error exc => simp [writeRunIntentLocked, h, bind, Except.bind, Except.map]

theorem leaves_publishDesired (msg : PyStr) (d : SupervisorDesired) :
    Leaves floatRepr files (publishDesired floatRepr files env msg d).2
      (if env.disk = .unconfirmed false then none else some d) := by
  rw [publishDesired, Disk.file_eq]
  by_cases hdisk : env.disk = .unconfirmed false
  · rw [if_pos hdisk, if_pos hdisk]
    exact .unchanged files
  · rw [if_neg hdisk, if_neg hdisk]
    rfl

/-- What both handlers do: the record is published when there is a generation for it. -/
theorem leaves_written (msg : PyStr) {r : RunRequest}
    (hok : ∀ d, writeRunIntentLocked py env.now files r = .ok d →
      files' = (publishDesired floatRepr files env msg d).2)
    (herror : ∀ exc, writeRunIntentLocked py env.now files r = .error exc → files' = files) :
    Leaves floatRepr files files'
      (storedIntent py files env (if env.disk = .unconfirmed false then none else some r)) := by
  rw [writeRunIntentLocked_eq] at hok herror
  cases hg : nextGeneration py files with
  | error exc =>
    have hnone : ∀ x, storedIntent py files env x = none := by
      intro x
      cases x with
      | none => rfl
      | some r => rw [storedIntent, hg]
    rw [hg] at herror
    rw [hnone, herror exc rfl]
    exact .unchanged files
  | ok generation =>
    rw [hg] at hok
    rw [hok _ rfl]
    have hleaves : Leaves floatRepr files
        (publishDesired floatRepr files env msg (intentOf generation r env.now)).2 _ :=
      leaves_publishDesired msg _
    by_cases hdisk : env.disk = .unconfirmed false
    · rw [if_pos hdisk] at hleaves ⊢
      exact hleaves
    · rw [if_neg hdisk] at hleaves ⊢
      rw [storedIntent, hg]
      exact hleaves

theorem leaves_deploy (payload : Fields) :
    Leaves floatRepr files (handleDeployRequest py floatRepr files env payload).2
      (storedIntent py files env
        (if env.disk = .unconfirmed false ∨ env.generationLock = false then none
          else (deployFields payload).toOption)) := by
  rw [handleDeployRequest]
  cases deployFields payload with
  | error msg =>
    simp only [Except.toOption, ite_self]
    exact .unchanged files
  | ok r =>
    cases env.generationLock with
    | false =>
      rw [if_pos (.inr rfl)]
      exact .unchanged files
    | true =>
      simp only [Except.toOption, if_true, Bool.true_eq_false, or_false]
      refine leaves_written "failed to apply deploy request" (fun d hd => ?_) fun exc hexc => ?_
      · rw [hd]
      · rw [hexc]

theorem runFields_flags {payload : Fields} {r : RunRequest} (h : runFields payload = .ok r) :
    { r with restart := false, migration := false } = r := by
  simp only [runFields, except_bind_eq_ok] at h
  obtain ⟨commit, -, repo, -, uvPath, -, hr⟩ := h
  cases hr
  rfl

theorem unestablished_iff : unestablished py files = true ↔ files.hasToken = true ∧
    readDesiredStrict py files.desired = .ok none ∧ files.missionPath = .missing := by
  rw [unestablished]
  constructor
  · intro h
    split at h
    · exact ⟨by assumption, by assumption, by assumption⟩
    · cases h
  · intro ⟨htoken, hdesired, hmission⟩
    rw [htoken, hdesired, hmission]

/-- A record is established only where there is none. -/
theorem ensureRunIntent_eq_ok {now : ℚ} {r : RunRequest} {generation : ℤ} {d : SupervisorDesired}
    (h : ensureRunIntent py now files r = .ok (generation, some d)) :
    unestablished py files = true := by
  rw [ensureRunIntent] at h
  split_ifs at h with htoken
  obtain ⟨current, hcurrent, h⟩ := except_bind_eq_ok.1 h
  cases current with
  | some current =>
    rw [establishRunIntent] at h
    split_ifs at h
    cases h
  | none =>
    refine unestablished_iff.2 ⟨htoken, hcurrent, ?_⟩
    rw [establishRunIntent] at h
    cases hm : files.missionPath with
    | missing => rfl
    | failed text =>
      rw [hm] at h
      cases h
    | present =>
      rw [hm] at h
      cases h

/-- And there it is the one of the arguments. -/
theorem ensureRunIntent_unestablished {now : ℚ} {r : RunRequest}
    (h : unestablished py files = true)
    (hflags : { r with restart := false, migration := false } = r) :
    ensureRunIntent py now files r =
      (writeRunIntentLocked py now files r).map fun d => (d.generation, some d) := by
  obtain ⟨htoken, hdesired, hmission⟩ := unestablished_iff.1 h
  rw [ensureRunIntent, if_pos htoken, hdesired]
  show establishRunIntent py now files r none = _
  rw [establishRunIntent, hmission]
  show (writeRunIntentLocked py now files { r with restart := false, migration := false } >>=
    fun d => pure (d.generation, some d)) = _
  rw [hflags]
  cases writeRunIntentLocked py now files r with
  | ok d => rfl
  | error exc => rfl

theorem leaves_ensure (payload : Fields) :
    Leaves floatRepr files (handleEnsureRunIntent py floatRepr files env payload).2
      (storedIntent py files env
        (if env.disk = .unconfirmed false ∨ env.generationLock = false then none
          else if unestablished py files then (runFields payload).toOption else none)) := by
  rw [handleEnsureRunIntent]
  cases hr : runFields payload with
  | error msg =>
    simp only [Except.toOption, ite_self]
    exact .unchanged files
  | ok r =>
    have hflags := runFields_flags hr
    cases hnone : unestablished py files with
    | false =>
      -- no handler that stores nothing writes the file
      simp only [Bool.false_eq_true, if_false, ite_self]
      split_ifs
      · exact .unchanged files
      · split
        · exact .unchanged files
        · exact .unchanged files
        · exact .unchanged files
        · rename_i hensured
          rw [ensureRunIntent_eq_ok hensured] at hnone
          cases hnone
    | true =>
      have htoken := (unestablished_iff.1 hnone).1
      cases hlock : env.generationLock with
      | false =>
        rw [htoken, if_pos (.inr rfl)]
        exact .unchanged files
      | true =>
        simp only [htoken, Except.toOption, if_true, Bool.true_eq_false, or_false, Bool.not_true,
          Bool.and_false, Bool.false_eq_true, if_false]
        rw [ensureRunIntent_unestablished hnone hflags]
        refine leaves_written "failed to ensure run intent" (fun d hd => ?_) fun exc hexc => ?_
        · rw [hd]
          rfl
        · rw [hexc]
          simp only [Except.map]
          split
          · rfl
          · rfl
          · rename_i heq
            cases heq
          · rename_i heq
            cases heq

theorem leaves_allocate :
    Leaves floatRepr files (handleAllocateGeneration py files env).2 none := by
  rw [handleAllocateGeneration]
  cases env.generationLock with
  | false => exact .unchanged files
  | true =>
    rw [if_pos rfl]
    cases nextGeneration py files with
    | error exc => exact .unchanged files
    | ok generation => exact ⟨rfl, .inl rfl⟩

/-- Without a write in between, the authority that is kept is the one the handler has read. -/
theorem publishSpawning_kept {spawning : Option SpawningObligation} {before content : FileContent}
    {locked confirmed : Bool}
    (h : publishSpawning floatRepr spawning before
      { locked := locked, current := before, confirmed := confirmed } = .ok content) :
    ∃ s, readState before = .ok s ∧ content = .text (s.fileText floatRepr) := by
  simp only [publishSpawning, except_bind_eq_ok, writeStatePreservingAuthority_eq_ok] at h
  obtain ⟨s, hs, -, -, current, hcurrent, rfl⟩ := h
  obtain rfl := Except.ok.inj (hs.symm.trans hcurrent)
  exact ⟨s, hs, rfl⟩

theorem answer_some {msg : PyStr} {x : Except PyStr FileContent} {content : FileContent}
    (h : (answer msg x).2 = some content) : x = .ok content := by
  cases x with
  | ok file =>
    cases h
    rfl
  | error exc => cases h

theorem leaves_publishState {handler : FileContent → Publication → Handled}
    (hhandler : ∀ before locked content, (handler before
      { locked := locked, current := before, confirmed := true }).2 = some content →
        ∃ s, readState before = .ok s ∧ content = .text (s.fileText floatRepr)) :
    Leaves floatRepr files (publishState handler files env).2 none := by
  rw [publishState]
  dsimp only
  split
  · exact .unchanged files
  · rename_i content hcontent
    obtain ⟨s, hs, rfl⟩ := hhandler _ _ content hcontent
    refine ⟨rfl, ?_⟩
    dsimp only
    rw [Disk.file_eq]
    split_ifs
    · exact .inl rfl
    · exact .inr ⟨s, hs, rfl⟩

theorem leaves_setSpawning (payload : Fields) :
    Leaves floatRepr files
      (publishState (handleSetSpawningObligation floatRepr payload) files env).2 none := by
  refine leaves_publishState fun before locked content h => ?_
  rw [handleSetSpawningObligation] at h
  split at h
  · split at h
    · exact publishSpawning_kept (answer_some h)
    · cases h
  · cases h

theorem leaves_clearSpawning :
    Leaves floatRepr files
      (publishState (handleClearSpawningObligation floatRepr) files env).2 none := by
  refine leaves_publishState fun before locked content h => ?_
  exact publishSpawning_kept (answer_some h)

/-- **What a request leaves.** -/
theorem leaves_handled (o : Observed) {raw : Message} {type : PyStr}
    (htype : Json.get raw "type" = .str type) :
    Leaves floatRepr files (handleControlRequest py floatRepr files o env type (memberOf raw)).2
      (storedIntent py files env (requestedIntent py files env raw)) := by
  rw [requestedIntent, htype]
  dsimp only
  by_cases hdeploy : type = PyStr.ofString "deploy"
  · subst hdeploy
    rw [handleControlRequest, if_neg (by decide), if_neg (by decide), if_pos rfl, if_pos rfl]
    exact leaves_deploy _
  by_cases hensure : type = PyStr.ofString "ensure_run_intent"
  · subst hensure
    rw [handleControlRequest, if_neg (by decide), if_neg (by decide), if_neg hdeploy,
      if_neg (by decide), if_neg (by decide), if_neg (by decide), if_neg (by decide), if_pos rfl,
      if_neg hdeploy, if_pos rfl]
    exact leaves_ensure _
  · -- the other requests store no record
    have hnone : storedIntent py files env none = none := rfl
    rw [if_neg hdeploy, if_neg hensure, ite_self, hnone, handleControlRequest]
    split_ifs
    · exact .unchanged files
    · exact .unchanged files
    · exact .unchanged files
    · exact leaves_setSpawning _
    · exact leaves_clearSpawning
    · exact leaves_allocate
    · exact .unchanged files

theorem leaves_accepted (py : Interpreter) (other : List UInt8 → Outcome Json)
    (floatRepr : ℚ → List Char) (files : Files) (o : Observed) (env : Env) (conn : Conn) :
    Leaves floatRepr files (acceptControlRequest py other floatRepr files o env conn).2
      (storedIntent py files env (storedRequest py other files env conn)) := by
  rw [acceptControlRequest, storedRequest]
  cases recvMessage py other conn with
  | error exc => exact .unchanged files
  | ok received =>
    cases received with
    | none => exact .unchanged files
    | some raw =>
      dsimp only
      cases htype : Json.get raw "type" with
      | str type =>
        cases type with
        | nil =>
          have hnone : requestedIntent py files env raw = none := by
            have hdeploy : ([] : PyStr) ≠ PyStr.ofString "deploy" := by decide
            have hensure : ([] : PyStr) ≠ PyStr.ofString "ensure_run_intent" := by decide
            rw [requestedIntent, htype]
            dsimp only
            rw [if_neg hdeploy, if_neg hensure, ite_self]
          rw [hnone]
          exact .unchanged files
        | cons c type => exact leaves_handled o htype
      | null | bool _ | int _ | float _ | arr _ | obj _ =>
        have hnone : requestedIntent py files env raw = none := by
          rw [requestedIntent, htype]
          exact ite_self none
        rw [hnone]
        exact .unchanged files

end Left

/-! ## Replies that fit -/

section Fit

variable {py : Interpreter} {other : List UInt8 → Outcome Json} {floatRepr : ℚ → List Char}
  {w : World}

theorem error_fits {msg : PyStr} (h : textSize msg ≤ 100) :
    (payloadOf (errorReply msg)).length ≤ MAX_MESSAGE_BYTES := by
  rw [payloadOf_error, MAX_MESSAGE_BYTES]
  omega

theorem snapshot_eq {files : Files} {desired : Option SupervisorDesired} {state : SupervisorState}
    (hd : readDesiredStrict py files.desired = .ok desired)
    (hs : readStateFile py files.state = .ok state) :
    handleAuthoritySnapshotRequest py floatRepr files = snapshotReply floatRepr desired state := by
  rw [handleAuthoritySnapshotRequest, hd]
  dsimp only
  rw [hs]
  rfl

theorem snapshot_fits_iff (files : Files) :
    (payloadOf (handleAuthoritySnapshotRequest py floatRepr files)).length ≤ MAX_MESSAGE_BYTES ↔
      ∀ desired state, readDesiredStrict py files.desired = .ok desired →
        readStateFile py files.state = .ok state →
          31 + desiredSize floatRepr desired + stateSize floatRepr state ≤ MAX_MESSAGE_BYTES := by
  cases hd : readDesiredStrict py files.desired with
  | error exc =>
    rw [handleAuthoritySnapshotRequest, hd]
    refine iff_of_true (error_fits (by decide)) fun desired state hdesired => ?_
    cases hdesired
  | ok desired =>
    cases hs : readStateFile py files.state with
    | error exc =>
      rw [handleAuthoritySnapshotRequest, hd]
      dsimp only
      rw [hs]
      refine iff_of_true (error_fits (by decide)) fun desired state _ hstate => ?_
      cases hstate
    | ok state =>
      rw [snapshot_eq hd hs, payloadOf_snapshot]
      constructor
      · intro h d s hd' hs'
        obtain rfl := Except.ok.inj hd'
        obtain rfl := Except.ok.inj hs'
        exact h
      · intro h
        exact h desired state rfl rfl

theorem status_fits_iff (files : Files) (observed : Observed) :
    (payloadOf (controlStatusResponse py floatRepr files observed)).length ≤ MAX_MESSAGE_BYTES ↔
      ∀ state, readStateFile py files.state = .ok state →
        21 + statusSize floatRepr (buildStatusSnapshot state observed) ≤ MAX_MESSAGE_BYTES := by
  rw [controlStatusResponse]
  cases readStateFile py files.state with
  | error exc =>
    refine iff_of_true (error_fits (by decide)) fun state hstate => ?_
    cases hstate
  | ok state =>
    dsimp only
    rw [payloadOf_status]
    constructor
    · intro h s hs
      obtain rfl := Except.ok.inj hs
      exact h
    · intro h
      exact h state rfl

/-- The replies fit exactly when the records behind them do. -/
theorem World.repliesFit_iff :
    w.RepliesFit py floatRepr ↔ RecordsFit py floatRepr w.files w.observed := by
  rw [World.RepliesFit, snapshot_fits_iff, status_fits_iff]
  exact ⟨fun h => ⟨h.1, h.2⟩, fun h => ⟨h.snapshot, h.status⟩⟩

theorem storedIntent_eq_some {files : Files} {env : Env} {request : Option RunRequest}
    {d : SupervisorDesired} : storedIntent py files env request = some d ↔
      ∃ r generation, request = some r ∧ nextGeneration py files = .ok generation ∧
        d = intentOf generation r env.now := by
  cases request with
  | none => simp [storedIntent]
  | some r =>
    rw [storedIntent]
    cases nextGeneration py files with
    | ok generation => simp [eq_comm]
    | error exc => simp

/-- A state that is as it was, or written again, is read as it was. -/
theorem readStateFile_left {files files' : Files} {state : SupervisorState}
    (hplain : ∀ t, fileContent files.state = .text t → Plain py t)
    (hplain' : ∀ t, fileContent files'.state = .text t → Plain py t)
    (hx : ∀ s, readStateFile py files.state = .ok s → s.FloatsReadBack floatRepr)
    (hstate : files'.state = files.state ∨ ∃ s, readState (fileContent files.state) = .ok s ∧
      files'.state = .bytes (utf8Encode (s.fileText floatRepr)))
    (h : readStateFile py files'.state = .ok state) : readStateFile py files.state = .ok state := by
  rcases hstate with hsame | ⟨s, hs, hwritten⟩
  · exact hsame ▸ h
  · have hread := (readStateFile_eq_ok hplain).2 hs
    have htext : fileContent files'.state = .text (s.fileText floatRepr) := by
      rw [hwritten, fileContent, utf8_utf8Encode]
    have hback := readStateFile_rewritten hplain (hplain' _ htext) (hx s hread) hread
    rw [hwritten, hback] at h
    exact Except.ok.inj h ▸ hread

/-- A request that stores no record changes no size. -/
theorem recordsFit_unstored {files files' : Files} {observed : Observed}
    (hbefore : World.Ordinary py floatRepr ⟨files, observed⟩)
    (hafter : World.Ordinary py floatRepr ⟨files', observed⟩)
    (hleaves : Leaves floatRepr files files' none) (hfit : RecordsFit py floatRepr files observed) :
    RecordsFit py floatRepr files' observed := by
  obtain ⟨hdesired, hstate⟩ := hleaves
  have hread : ∀ state, readStateFile py files'.state = .ok state →
      readStateFile py files.state = .ok state := fun state h =>
    readStateFile_left hbefore.state hafter.state hbefore.stateFloats hstate h
  refine ⟨fun desired state hd hs => ?_, fun state hs => ?_⟩
  · exact hfit.snapshot desired state (hdesired ▸ hd) (hread state hs)
  · exact hfit.status state (hread state hs)

/-- A request that stores one sets the size of the desired record. -/
theorem recordsFit_stored_iff {files : Files} {observed : Observed} {generation : ℤ}
    {r : RunRequest} {now : ℚ} {intent : FileBytes}
    (hintent : intent = .bytes (utf8Encode ((intentOf generation r now).fileText floatRepr)))
    (hbefore : World.Ordinary py floatRepr ⟨files, observed⟩)
    (hafter : World.Ordinary py floatRepr ⟨{ files with desired := intent }, observed⟩)
    (hg : nextGeneration py files = .ok generation) (hnow : 0 ≤ now) (hx : ReadsBack floatRepr now)
    (hfit : RecordsFit py floatRepr files observed) :
    RecordsFit py floatRepr { files with desired := intent } observed ↔
      ∀ state, readStateFile py files.state = .ok state →
        31 + intentSize floatRepr generation r now + stateSize floatRepr state ≤
          MAX_MESSAGE_BYTES := by
  obtain ⟨state, hstate, hgeneration⟩ := nextGeneration_eq_ok hg
  have hvalid := readState_valid ((readStateFile_eq_ok hbefore.state).1 hstate)
  have hpositive : 0 ≤ generation := le_of_lt (lt_of_le_of_lt hvalid.generation hgeneration)
  have htext : fileContent intent = .text ((intentOf generation r now).fileText floatRepr) := by
    rw [hintent, fileContent, utf8_utf8Encode]
  have hread := readDesiredStrict_intentOf (hafter.desired _ htext) hpositive hnow hx
  have hsize : desiredSize floatRepr (some (intentOf generation (joined r) now)) =
      intentSize floatRepr generation r now := by
    rw [desiredSize_intentOf, intentSize_joined]
  rw [← hintent] at hread
  constructor
  · intro hfit' state hs
    rw [← hsize]
    exact hfit'.snapshot _ state hread hs
  · intro hroom
    refine ⟨fun desired state hd hs => ?_, hfit.status⟩
    obtain rfl := Except.ok.inj (hread.symm.trans hd)
    rw [hsize]
    exact hroom state hs

/-- **What a request has to leave room for**, when the replies fit before it. -/
theorem World.request_fits_iff {conn : Conn} {env : Env}
    (hregular : w.Regular py other floatRepr (.request conn env))
    (hfit : w.RepliesFit py floatRepr) :
    w.KeepsReplies py other floatRepr (.request conn env) ↔
      w.HasRoom py other floatRepr (.request conn env) := by
  obtain ⟨hbefore, hafter, hclock⟩ := hregular
  obtain ⟨hnow, hx⟩ := hclock conn env rfl
  have hafter := hafter _ rfl
  have hfit := World.repliesFit_iff.1 hfit
  have hkeeps : w.KeepsReplies py other floatRepr (.request conn env) ↔
      RecordsFit py floatRepr
        (acceptControlRequest py other floatRepr w.files w.observed env conn).2 w.observed := by
    rw [World.KeepsReplies, World.step]
    simp only [Option.some.injEq, forall_eq']
    exact World.repliesFit_iff
  rw [hkeeps, World.HasRoom]
  have hleaves := leaves_accepted py other floatRepr w.files w.observed env conn
  generalize (acceptControlRequest py other floatRepr w.files w.observed env conn).2 = files'
    at hafter hleaves
  cases hstored : storedIntent py w.files env (storedRequest py other w.files env conn) with
  | none =>
    rw [hstored] at hleaves
    refine iff_of_true (recordsFit_unstored hbefore hafter hleaves hfit) ?_
    intro r generation state hr hg
    have hsome : storedIntent py w.files env (storedRequest py other w.files env conn) = some _ :=
      storedIntent_eq_some.2 ⟨r, generation, hr, hg, rfl⟩
    rw [hstored] at hsome
    cases hsome
  | some d =>
    obtain ⟨r, generation, hr, hg, rfl⟩ := storedIntent_eq_some.1 hstored
    rw [hstored] at hleaves
    obtain rfl : files' = _ := hleaves
    rw [recordsFit_stored_iff rfl hbefore hafter hg hnow hx hfit]
    constructor
    · intro h r' generation' state hr' hg' hs
      obtain rfl := Option.some.inj (hr.symm.trans hr')
      obtain rfl := Except.ok.inj (hg.symm.trans hg')
      exact h state hs
    · intro h state hs
      exact h r generation state hr hg hs

/-- A step keeps the replies within the limit exactly when it leaves room. -/
theorem World.step_fits_iff {label : Label} (hregular : w.Regular py other floatRepr label)
    (hfit : w.RepliesFit py floatRepr) :
    w.KeepsReplies py other floatRepr label ↔ w.HasRoom py other floatRepr label := by
  cases label with
  | request conn env => exact World.request_fits_iff hregular hfit
  | tick files observed =>
    rw [World.KeepsReplies, World.step, World.HasRoom]
    simp only [Option.some.injEq, forall_eq']
    exact World.repliesFit_iff

end Fit

/-! ## What the clients read -/

section Clients

variable {py : Interpreter} (other : List UInt8 → Outcome Json) {floatRepr : ℚ → List Char}

/-- A message with keys of its own, received: each member is what the socket makes of it. -/
theorem recvMessage_members {data : Message} (hk : WellKeyed data)
    (hdata : (Json.obj data).Printable) (hplain : Plain py (dumpsCompact (.obj data)))
    (hsize : (payloadOf data).length ≤ MAX_MESSAGE_BYTES) {bytes : List UInt8}
    (hsend : sendMessage data = some bytes) (rest : List UInt8) (splits : List ℕ) :
    ∃ d, recvMessage py other { unread := bytes ++ rest, splits := splits } = .ok (some d) ∧
      memberOf d = received Json.build data := by
  obtain ⟨d, hd, hmembers⟩ := transparent_build.obj data hk
  rw [Json.build, Json.obj.injEq] at hd
  exact ⟨d, hd ▸ recvMessage_frame other hplain hdata hsize hsend splits, hmembers⟩

/-- A valid state is read from what the socket makes of its record. -/
theorem stateFromDict_received {s : SupervisorState} (hv : s.Valid Joined)
    (hx : s.FloatsReadBack floatRepr) :
    SupervisorState.fromDict (received Json.build (s.toDict floatRepr)) = .ok s := by
  refine fromDict_eq_ok.2 ⟨?_, (SupervisorState.ofFields_toDict transparent_build hv hx).symm⟩
  have hmember : received Json.build (s.toDict floatRepr) "schema_version" =
      some (.int SCHEMA_VERSION) := by
    rw [← hv.schema]
    rfl
  rw [stateSchemaValid, hmember]
  decide

section Snapshot

variable {desired : Option SupervisorDesired} {state : SupervisorState}

theorem wellKeyed_snapshot : WellKeyed (snapshotReply floatRepr desired state) :=
  .of_keys (show _ = (["ok", "desired", "state"] : List String).map PyStr.ofString from rfl)
    (by decide)

variable (hvalid : state.Valid Joined) (hs : state.FloatsReadBack floatRepr)
  (hdvalid : ∀ d ∈ desired, d.Valid) (hd : ∀ d ∈ desired, ReadsBack floatRepr d.requestedAt)

include hs hd

theorem printable_snapshot : (Json.obj (snapshotReply floatRepr desired state)).Printable := by
  refine (Json.Writable.obj ?_).compact
  simp only [snapshotReply, okReply, List.forall_mem_cons, entry]
  exact ⟨.bool _, writable_orNull fun d h => writable_desiredToDict (hd d h).literal,
    writable_stateToDict (hs.mono fun _ h => h.literal), List.forall_mem_nil _⟩

include hvalid hdvalid

/-- **The clients read a snapshot that fits.** -/
theorem clients_read_snapshot
    (hplain : Plain py (dumpsCompact (.obj (snapshotReply floatRepr desired state))))
    (hsize : (payloadOf (snapshotReply floatRepr desired state)).length ≤ MAX_MESSAGE_BYTES)
    {bytes : List UInt8} (hsend : sendMessage (snapshotReply floatRepr desired state) = some bytes)
    (rest : List UInt8) (splits : List ℕ) :
    readStateClient py other { unread := bytes ++ rest, splits := splits } = .ok state ∧
      readDesiredClient py other { unread := bytes ++ rest, splits := splits } = .ok desired := by
  obtain ⟨response, hrecv, hmembers⟩ := recvMessage_members other wellKeyed_snapshot
    (printable_snapshot hs hd) hplain hsize hsend rest splits
  have hok : Json.get response "ok" = .bool true := by
    rw [get_eq_memberOf, hmembers]
    rfl
  have hrequest : snapshotRequest py other { unread := bytes ++ rest, splits := splits } =
      .ok response := by
    rw [snapshotRequest, hrecv]
    dsimp only
    rw [hok]
    rfl
  constructor
  · obtain ⟨d, hd, hfields⟩ := transparent_build.obj _ (wellKeyed_stateToDict floatRepr state)
    have hfields : memberOf d = received Json.build (state.toDict floatRepr) := hfields
    have hget : Json.get response "state" = .obj d := by
      rw [get_eq_memberOf, hmembers]
      exact hd
    rw [readStateClient, hrequest]
    show (match Json.get response "state" with
      | .obj data =>
        (SupervisorState.fromDict (memberOf data)).mapError fun msg => .raised (.valueError msg)
      | _ => throw _ : Except ClientError SupervisorState) = _
    rw [hget]
    dsimp only
    rw [hfields, stateFromDict_received hvalid hs]
    rfl
  · have hget : Json.get response "desired" =
        (orNull (fun d => .obj (SupervisorDesired.toDict floatRepr d)) desired).build := by
      rw [get_eq_memberOf, hmembers]
      rfl
    rw [readDesiredClient, hrequest]
    simp only [bind, Except.bind]
    rw [hget]
    cases desired with
    | none =>
      rw [orNull, transparent_build.null]
      rfl
    | some intent =>
      have hkeyed : WellKeyed (intent.toDict floatRepr) := wellKeyed_desiredToDict
      obtain ⟨data, hdata, hfields⟩ := transparent_build.obj _ hkeyed
      have hfields : memberOf data = received Json.build (intent.toDict floatRepr) := hfields
      rw [orNull, hdata]
      dsimp only
      rw [hfields, SupervisorDesired.fromDict_toDict transparent_build (hdvalid _ rfl) (hd _ rfl)]
      rfl

end Snapshot

end Clients

/-! ## Runs of the socket -/

section Main

variable {py : Interpreter} {other : List UInt8 → Outcome Json} {floatRepr : ℚ → List Char}

/-- **In every run**, the replies stay within the limit exactly when every step leaves room. -/
theorem World.always_fits_iff {w : World} {labels : List Label}
    (hregular : Always (World.step py other floatRepr) (World.Regular py other floatRepr) w labels)
    (hfit : w.RepliesFit py floatRepr) :
    Always (World.step py other floatRepr) (World.KeepsReplies py other floatRepr) w labels ↔
      Always (World.step py other floatRepr) (World.HasRoom py other floatRepr) w labels := by
  have hboth : Always (World.step py other floatRepr) (fun w label =>
      w.Regular py other floatRepr label ∧ w.KeepsReplies py other floatRepr label) w labels ↔
    Always (World.step py other floatRepr) (fun w label =>
      w.Regular py other floatRepr label ∧ w.HasRoom py other floatRepr label) w labels := by
    refine always_iff_of_inv (fun w label hw => ?_) (fun w label w' hw h hstep => ?_) hfit
    · exact and_congr_right fun hr => World.step_fits_iff hr hw
    · exact h.2 w' hstep
  have hdrop : ∀ C : World → Label → Prop, Always (World.step py other floatRepr) C w labels ↔
      Always (World.step py other floatRepr)
        (fun w label => w.Regular py other floatRepr label ∧ C w label) w labels := by
    intro C
    refine always_congr fun pre label hpre m hm => ?_
    rw [and_iff_right (hregular pre label hpre m hm)]
  rw [hdrop, hboth, ← hdrop]

end Main

/-- **Replies of the control socket.** An object that is sent within the limit is received in
whatever pieces, exactly when it has no surrogate pair to join. In every run, the replies to
`authority_snapshot` and `status` stay within the limit exactly when every request that stores a
record leaves room for its texts, and the rest of the daemon for its own. And the clients read the
records of the daemon exactly when they leave room. -/
theorem control_replies_fit_iff (py : Interpreter) (other : List UInt8 → Outcome Json)
    (floatRepr : ℚ → List Char) :
    (∀ (data : Message) (bytes rest : List UInt8) (splits : List ℕ), (Json.obj data).Printable →
      Plain py (dumpsCompact (.obj data)) → (payloadOf data).length ≤ MAX_MESSAGE_BYTES →
      sendMessage data = some bytes →
        (recvMessage py other { unread := bytes ++ rest, splits := splits } = .ok (some data) ↔
          (Json.obj data).Exact)) ∧
    (∀ (w : World) (labels : List Label), w.RepliesFit py floatRepr →
      Always (World.step py other floatRepr) (World.Regular py other floatRepr) w labels →
        (Always (World.step py other floatRepr) (World.KeepsReplies py other floatRepr) w labels ↔
          Always (World.step py other floatRepr) (World.HasRoom py other floatRepr) w labels)) ∧
    ∀ (w : World) (desired : Option SupervisorDesired) (state : SupervisorState)
      (bytes rest : List UInt8) (splits : List ℕ), w.Ordinary py floatRepr →
      readDesiredStrict py w.files.desired = .ok desired →
      readStateFile py w.files.state = .ok state →
      Plain py (dumpsCompact (.obj (handleAuthoritySnapshotRequest py floatRepr w.files))) →
      sendMessage (handleAuthoritySnapshotRequest py floatRepr w.files) = some bytes →
        (readStateClient py other { unread := bytes ++ rest, splits := splits } = .ok state ∧
            readDesiredClient py other { unread := bytes ++ rest, splits := splits } = .ok desired ↔
          31 + desiredSize floatRepr desired + stateSize floatRepr state ≤ MAX_MESSAGE_BYTES) := by
  refine ⟨?_, ?_, ?_⟩
  · intro data bytes rest splits hdata hplain hsize hsend
    rw [recvMessage_frame other hplain hdata hsize hsend splits, Except.ok.injEq,
      Option.some.injEq, ← Json.build_eq_self_iff, Json.build, Json.obj.injEq]
  · intro w labels hfit hregular
    exact World.always_fits_iff hregular hfit
  · intro w desired state bytes rest splits hordinary hd hs hplain hsend
    have hvalid := readState_valid ((readStateFile_eq_ok hordinary.state).1 hs)
    have hdvalid : ∀ d ∈ desired, d.Valid := by
      rintro d rfl
      exact readDesiredStrict_valid hd
    have hdfloats : ∀ d ∈ desired, ReadsBack floatRepr d.requestedAt := by
      rintro d rfl
      exact hordinary.requestedAt d hd
    rw [snapshot_eq hd hs] at hplain hsend
    rw [← payloadOf_snapshot]
    constructor
    · intro hread
      by_contra hlarge
      rw [readStateClient, snapshotRequest,
        recvMessage_tooLarge py other (not_le.1 hlarge) hsend splits] at hread
      cases hread.1
    · intro hsize
      exact clients_read_snapshot other hvalid (hordinary.stateFloats state hs) hdvalid hdfloats
        hplain hsize hsend rest splits

/-! ## A daemon that was never used -/

/-- A status of such a daemon. -/
def quietObserved : Observed where
  supervisorPid := 7
  startTimeTicks := 9
  startedAt := 0
  dbReady := none
  message := none
  rollback := some none
  workerHealth := .null
  runtimeCommit := none
  contractVersion := 1
  publishedAt := 0
  diagnosticDrops := 0

def unused : World := { files := unusedFiles [], observed := quietObserved }

/-- Other encodings are malformed. -/
def utf8Only : List UInt8 → Outcome Json := fun _ => .error .jsonDecodeError

/-- A deploy request whose repository name has `n` letters. -/
def deployRequest (n : ℕ) : Message :=
  [entry "type" (.str "deploy"), entry "commit" (.str "c"),
    entry "repo" (.str (List.replicate n (CodePoint.ofChar 'a')))]

/-- The run request it asks for. -/
def deployedRun (n : ℕ) : RunRequest where
  commit := "c"
  repo := List.replicate n (CodePoint.ofChar 'a')
  uvPath := []
  workerId := none

/-- The connection it comes over. -/
def deployConn (n : ℕ) : Conn where
  unread := packLength (payloadOf (deployRequest n)).length ++ payloadOf (deployRequest n)

section Unused

variable {n : ℕ}

theorem textSize_letters (n : ℕ) : textSize (List.replicate n (CodePoint.ofChar 'a')) = n + 2 :=
  textSize_replicate n (show (CodePoint.ofChar 'a').escape = ['a'] by decide) (by decide)

theorem payloadOf_deployRequest (n : ℕ) : (payloadOf (deployRequest n)).length = n + 40 := by
  have htype : memberSize (entry "type" (.str "deploy")) = 16 := by
    rw [memberSize, entry, compactSize_str]
    decide
  have hcommit : memberSize (entry "commit" (.str "c")) = 13 := by
    rw [memberSize, entry, compactSize_str]
    decide
  have hrepo : textSize (PyStr.ofString "repo") = 6 := by decide
  rw [payloadOf_length, deployRequest, compactSize_obj (List.cons_ne_nil _ _)]
  simp only [List.map_cons, List.map_nil, List.sum_cons, List.sum_nil, htype, hcommit]
  rw [memberSize, entry, compactSize_str, textSize_letters, hrepo]
  omega

theorem joined_letters (n : ℕ) : PyStr.joinSurrogates (List.replicate n (CodePoint.ofChar 'a')) =
    List.replicate n (CodePoint.ofChar 'a') := by
  refine PyStr.joinSurrogates_of_not_high fun c hc => ?_
  rw [List.eq_of_mem_replicate hc]
  decide

/-- The request is received and asks for the run. -/
theorem deployRequest_received (hn : n + 40 ≤ MAX_MESSAGE_BYTES) : ∃ raw,
    recvMessage plainInterpreter utf8Only (deployConn n) = .ok (some raw) ∧
      Json.get raw "type" = .str "deploy" ∧ deployFields (memberOf raw) = .ok (deployedRun n) := by
  have hkeyed : WellKeyed (deployRequest n) :=
    .of_keys (show _ = (["type", "commit", "repo"] : List String).map PyStr.ofString from rfl)
      (by decide)
  have hdata : (Json.obj (deployRequest n)).Printable := by
    rw [Json.Printable, printableMembers_iff]
    simp only [deployRequest, List.forall_mem_cons, entry]
    exact ⟨trivial, trivial, trivial, List.forall_mem_nil _⟩
  have hsize : (payloadOf (deployRequest n)).length ≤ MAX_MESSAGE_BYTES := by
    rwa [payloadOf_deployRequest]
  have hplain : Plain plainInterpreter (dumpsCompact (.obj (deployRequest n))) := ⟨rfl, rfl⟩
  obtain ⟨raw, hrecv, hmembers⟩ := recvMessage_members utf8Only hkeyed
    hdata hplain hsize (sendMessage_of_fits hsize) [] []
  rw [List.append_nil] at hrecv
  refine ⟨raw, hrecv, ?_, ?_⟩
  · rw [get_eq_memberOf, hmembers]
    rfl
  · have hrepo : textField (received Json.build (deployRequest n)) "repo" =
        .ok (List.replicate n (CodePoint.ofChar 'a')) := by
      have hmember : received Json.build (deployRequest n) "repo" =
          some (.str (List.replicate n (CodePoint.ofChar 'a'))) := by
        show some (Json.build (.str (List.replicate n (CodePoint.ofChar 'a')))) = _
        rw [Json.build, joined_letters]
      rw [textField, hmember]
      rfl
    rw [hmembers, deployFields, runFields, hrepo]
    rfl

theorem nextGeneration_unused : nextGeneration plainInterpreter unused.files = .ok 1 := by
  decide

theorem stateSize_fresh : stateSize zeroRepr freshState = 356 := by decide +kernel

theorem intentSize_deployed (n : ℕ) : intentSize zeroRepr 1 (deployedRun n) 0 = n + 141 := by
  have hgeneration : utf8Size (intText 1) = 1 := by decide
  have hcommit : textSize (PyStr.ofString "c") = 3 := by decide
  have hempty : textSize [] = 2 := by decide
  have htime : utf8Size (zeroRepr 0) = 3 := by decide
  simp only [intentSize, deployedRun, textSize_letters, hgeneration, hcommit, hempty, htime,
    Option.map_none, Option.getD_none, Bool.false_eq_true, if_false]
  omega

theorem unused_fits : unused.RepliesFit plainInterpreter zeroRepr := by
  have hstatus : 21 + statusSize zeroRepr (buildStatusSnapshot freshState unused.observed) ≤
      MAX_MESSAGE_BYTES := by decide +kernel
  refine World.repliesFit_iff.2 ⟨fun desired state hd hs => ?_, fun state hs => ?_⟩
  · cases hd
    cases hs
    rw [stateSize_fresh]
    decide
  · cases hs
    exact hstatus

/-- The world behind the request. -/
def deployed (n : ℕ) : World where
  files := { unusedFiles [] with
    desired := .bytes (utf8Encode ((intentOf 1 (deployedRun n) 0).fileText zeroRepr)) }
  observed := quietObserved

/-- The request is acknowledged, and its record stored. -/
theorem deploy_accepted (hn : n + 40 ≤ MAX_MESSAGE_BYTES) :
    acceptControlRequest plainInterpreter utf8Only zeroRepr unused.files
      quietObserved { now := 0 } (deployConn n) =
      (some (okReply [entry "generation" (.int 1)]), (deployed n).files) := by
  obtain ⟨raw, hrecv, htype, hfields⟩ := deployRequest_received hn
  have hdeploy : handleControlRequest plainInterpreter zeroRepr unused.files quietObserved
      { now := 0 } (PyStr.ofString "deploy") (memberOf raw) =
      handleDeployRequest plainInterpreter zeroRepr unused.files { now := 0 } (memberOf raw) := rfl
  rw [acceptControlRequest, hrecv]
  dsimp only
  rw [htype]
  show (some (handleControlRequest plainInterpreter zeroRepr unused.files quietObserved
      { now := 0 } (PyStr.ofString "deploy") (memberOf raw)).1, _) = _
  rw [hdeploy, handleDeployRequest, hfields]
  dsimp only
  rw [if_pos rfl, writeRunIntentLocked_eq, nextGeneration_unused]
  rfl

theorem storedRequest_deploy (hn : n + 40 ≤ MAX_MESSAGE_BYTES) :
    storedRequest plainInterpreter utf8Only unused.files { now := 0 } (deployConn n) =
      some (deployedRun n) := by
  obtain ⟨raw, hrecv, htype, hfields⟩ := deployRequest_received hn
  have hmeets : ¬ (({ now := 0 } : Env).disk = .unconfirmed false ∨
      ({ now := 0 } : Env).generationLock = false) := by decide
  rw [storedRequest, hrecv]
  dsimp only
  rw [requestedIntent, if_neg hmeets, htype]
  dsimp only
  rw [if_pos rfl, hfields]
  rfl

theorem deploy_step (hn : n + 40 ≤ MAX_MESSAGE_BYTES) :
    unused.step plainInterpreter utf8Only zeroRepr
      (.request (deployConn n) { now := 0 }) = some (deployed n) := by
  show some (World.mk (acceptControlRequest plainInterpreter utf8Only zeroRepr unused.files
    quietObserved { now := 0 } (deployConn n)).2 quietObserved) = _
  rw [deploy_accepted hn]
  rfl

theorem deployed_desired (n : ℕ) : readDesiredStrict plainInterpreter (deployed n).files.desired =
    .ok (some (intentOf 1 (deployedRun n) 0)) := by
  have hjoined : joined (deployedRun n) = deployedRun n := by
    rw [joined, deployedRun, joined_letters]
    rfl
  have hplain : Plain plainInterpreter ((intentOf 1 (deployedRun n) 0).fileText zeroRepr) :=
    ⟨rfl, rfl⟩
  have hread := readDesiredStrict_intentOf hplain (by decide) le_rfl readsBack_zero
  rwa [hjoined] at hread

theorem unused_ordinary : unused.Ordinary plainInterpreter zeroRepr where
  state _ _ := ⟨rfl, rfl⟩
  desired _ _ := ⟨rfl, rfl⟩
  stateFloats s hs := by
    cases hs
    exact ⟨nofun, nofun, nofun, nofun, nofun, nofun, nofun⟩
  requestedAt d hd := by cases hd

theorem deployed_ordinary (n : ℕ) : (deployed n).Ordinary plainInterpreter zeroRepr where
  state _ _ := ⟨rfl, rfl⟩
  desired _ _ := ⟨rfl, rfl⟩
  stateFloats := unused_ordinary.stateFloats
  requestedAt d hd := by
    rw [deployed_desired, Except.ok.injEq, Option.some.injEq] at hd
    exact hd ▸ readsBack_zero

theorem deployed_snapshot (n : ℕ) :
    handleAuthoritySnapshotRequest plainInterpreter zeroRepr (deployed n).files =
      snapshotReply zeroRepr (some (intentOf 1 (deployedRun n) 0)) freshState :=
  snapshot_eq (deployed_desired n) rfl

theorem deployed_size (n : ℕ) :
    (payloadOf (handleAuthoritySnapshotRequest plainInterpreter zeroRepr
      (deployed n).files)).length = n + 528 := by
  rw [deployed_snapshot, payloadOf_snapshot, desiredSize_intentOf, intentSize_deployed,
    stateSize_fresh]
  omega

end Unused

/-- A deploy request that leaves room: the replies stay within the limit, and the clients read the
records. -/
theorem control_replies_fit_iff_deployed :
    Always (World.step plainInterpreter utf8Only zeroRepr)
      (World.KeepsReplies plainInterpreter utf8Only zeroRepr) unused
      [.request (deployConn 30) { now := 0 }] ∧
    ∃ bytes, sendMessage (handleAuthoritySnapshotRequest plainInterpreter zeroRepr
        (deployed 30).files) = some bytes ∧
      readDesiredClient plainInterpreter utf8Only { unread := bytes ++ [], splits := [1, 2, 3] } =
        .ok (some (intentOf 1 (deployedRun 30) 0)) := by
  have hlimit : MAX_MESSAGE_BYTES = 65536 := rfl
  obtain ⟨-, hruns, hclients⟩ := control_replies_fit_iff plainInterpreter utf8Only zeroRepr
  have hstep := deploy_step (show 30 + 40 ≤ MAX_MESSAGE_BYTES by decide)
  constructor
  · refine (hruns unused _ unused_fits ?_).2 ?_
    · rw [always_cons]
      refine ⟨⟨unused_ordinary, fun w' hw' => ?_, fun conn env heq => ?_⟩,
        fun w' _ => always_nil w'⟩
      · rw [hstep, Option.some.injEq] at hw'
        exact hw' ▸ deployed_ordinary 30
      · cases heq
        exact ⟨le_rfl, readsBack_zero⟩
    · rw [always_cons]
      refine ⟨fun r generation state hr hg hs => ?_, fun w' _ => always_nil w'⟩
      have hstored := storedRequest_deploy (show 30 + 40 ≤ MAX_MESSAGE_BYTES by decide)
      obtain rfl := Option.some.inj (hstored.symm.trans hr)
      obtain rfl := Except.ok.inj (nextGeneration_unused.symm.trans hg)
      have hfresh : readStateFile plainInterpreter unused.files.state = .ok freshState := rfl
      obtain rfl := Except.ok.inj (hfresh.symm.trans hs)
      dsimp only
      rw [intentSize_deployed, stateSize_fresh]
      decide
  · have hsize : 31 + desiredSize zeroRepr (some (intentOf 1 (deployedRun 30) 0)) +
        stateSize zeroRepr freshState ≤ MAX_MESSAGE_BYTES := by
      rw [desiredSize_intentOf, intentSize_deployed, stateSize_fresh]
      decide
    have hfits : (payloadOf (handleAuthoritySnapshotRequest plainInterpreter zeroRepr
        (deployed 30).files)).length ≤ MAX_MESSAGE_BYTES := by
      rw [deployed_size]
      decide
    have hsend := sendMessage_of_fits hfits
    exact ⟨_, hsend, ((hclients (deployed 30) _ freshState _ [] [1, 2, 3] (deployed_ordinary 30)
      (deployed_desired 30) rfl ⟨rfl, rfl⟩ hsend).2 hsize).2⟩

/-- A deploy request that is within the limit, accepted and acknowledged, and behind which the
snapshot is not: the clients raise, whatever the pieces. -/
theorem deploy_outgrows_snapshot :
    (payloadOf (deployRequest 65400)).length ≤ MAX_MESSAGE_BYTES ∧
    unused.RepliesFit plainInterpreter zeroRepr ∧
    (acceptControlRequest plainInterpreter utf8Only zeroRepr unused.files unused.observed
      { now := 0 } (deployConn 65400)).1 = some (okReply [entry "generation" (.int 1)]) ∧
    ∃ w', unused.step plainInterpreter utf8Only zeroRepr
        (.request (deployConn 65400) { now := 0 }) = some w' ∧
      ¬ w'.RepliesFit plainInterpreter zeroRepr ∧
      ∃ bytes, sendMessage (handleAuthoritySnapshotRequest plainInterpreter zeroRepr w'.files) =
          some bytes ∧
        ∀ splits, readStateClient plainInterpreter utf8Only { unread := bytes, splits := splits } =
            .error (.raised (messageTooLarge 65928)) ∧
          readDesiredClient plainInterpreter utf8Only { unread := bytes, splits := splits } =
            .error (.raised (messageTooLarge 65928)) := by
  have hfits : 65400 + 40 ≤ MAX_MESSAGE_BYTES := by decide
  have hsize := deployed_size 65400
  have hlarge : MAX_MESSAGE_BYTES < (payloadOf (handleAuthoritySnapshotRequest plainInterpreter
      zeroRepr (deployed 65400).files)).length := by
    rw [hsize]
    decide
  obtain ⟨bytes, hsend⟩ : ∃ bytes, sendMessage (handleAuthoritySnapshotRequest plainInterpreter
      zeroRepr (deployed 65400).files) = some bytes :=
    ⟨_, if_pos (by rw [hsize]; decide)⟩
  refine ⟨?_, unused_fits, ?_, deployed 65400, deploy_step hfits, ?_, bytes, hsend,
    fun splits => ?_⟩
  · rw [payloadOf_deployRequest]
    exact hfits
  · exact congrArg Prod.fst (deploy_accepted hfits)
  · intro hfit
    exact absurd hfit.1 (not_le.2 hlarge)
  · have hrecv : recvMessage plainInterpreter utf8Only { unread := bytes ++ [], splits := splits } =
        _ := recvMessage_tooLarge plainInterpreter utf8Only hlarge hsend splits
    rw [List.append_nil, hsize] at hrecv
    rw [readStateClient, readDesiredClient, snapshotRequest, hrecv]
    exact ⟨rfl, rfl⟩

end Lubko.Supervise.Control
