import Lubko.Authority.Row
import Lubko.Deploy.Intents
import Lubko.Supervise.Recovery

/-!
# Restart intents and what the daemon makes of them

The two commands that request a restart, `request_run_client` over both transports, and
`_apply_desired` with `_retire_child`. The daemon's step keeps a trace of what it did: which child
it stopped, which state it put on disk, when it went on to establish a worker. Everything it
observes outside `state.json` is an answer, and every publication may be deferred or raise.

* `requestRunClient_restart` — the intent carries the flag of the request, over both transports.
* `applyDesired_replaces_iff` — when an applied generation is recorded only after the retirement.
* `restart_really_replaces_iff` — when the two commands replace the process, and when a plain intent
  settles beside it.
-/

namespace Lubko.Deploy.Restart

open Lubko.Lib Lubko.Supervise Lubko.Supervise.Recovery
open Lubko.Authority (WorkerRecord)

/-! ## The request -/

/-- The payload of a deploy request. -/
def deployPayload (request : RunRequest) : List (PyStr × Json) :=
  [entry "type" (.str "deploy"), entry "commit" (.str request.commit),
    entry "repo" (.str request.repo), entry "uv_path" (.str request.uvPath),
    entry "worker_id" (orNull .str request.workerId), entry "restart" (.bool request.restart),
    entry "migration" (.bool request.migration)]

/-- `payload.get(key, default)`. -/
def getOr (payload : Fields) (key : String) (default : Json) : Json :=
  (payload key).getD default

/-- The checks of `_handle_deploy_request`. -/
def handleDeployRequest (payload : Fields) : Except PyStr RunRequest :=
  match payload.get "commit" with
  | .str commit =>
    if commit.isEmpty then .error "missing or invalid 'commit'"
    else match getOr payload "repo" (.str []) with
      | .str repo =>
        match getOr payload "uv_path" (.str []) with
        | .str uvPath =>
          match getOr payload "restart" (.bool false) with
          | .bool restart =>
            match getOr payload "migration" (.bool false) with
            | .bool migration =>
              .ok { commit, repo, uvPath, workerId := optionalString (payload.get "worker_id"),
                    restart, migration }
            | _ => .error "'migration' must be a boolean"
          | _ => .error "'restart' must be a boolean"
        | _ => .error "missing or invalid 'uv_path'"
      | _ => .error "missing or invalid 'repo'"
  | _ => .error "missing or invalid 'commit'"

/-- What a run request raises. -/
inductive RunError where
  | generationLockTimeoutError
  | runtimeError (msg : PyStr)
  | raised
  deriving DecidableEq

/-- `supervise.request_run`, when the generation lock is acquired or not. -/
def requestRun (locked : Bool) (now : ℚ) (request : RunRequest) (r : Records) :
    Except RunError (SupervisorDesired × Records) :=
  if !locked then .error .generationLockTimeoutError
  else match r.writeRunIntentLocked now request with
    | none => .error .raised
    | some written => .ok written

/-- `request_run_client`: with the token it writes the intent itself, without it the daemon does. -/
def requestRunClient (transport : Transport) (locked : Bool) (now : ℚ) (request : RunRequest)
    (r : Records) : Except RunError (SupervisorDesired × Records) :=
  match transport with
  | .direct => requestRun locked now request r
  | .socket =>
    match handleDeployRequest (received Json.build (deployPayload request)) with
    | .error msg => .error (.runtimeError msg)
    | .ok request =>
      match requestRun locked now request r with
      | .ok written => .ok written
      | .error .generationLockTimeoutError => .error (.runtimeError "generation lock timed out")
      | .error _ => .error (.runtimeError "failed to apply deploy request")

/-! ## The commands -/

/-- What a restart command reads under the deployment lock. -/
structure CommandReads where
  /-- `_supervised_mutation_blocker` -/
  blocker : Option PyStr
  supervisorRunning : Bool
  /-- `read_state_client().commit` -/
  commit : Option PyStr
  runtimeIsUsable : PyStr → Bool
  /-- `read_desired_client` -/
  desired : Option SupervisorDesired
  /-- `LUBKO_WORKER_ID`, or the name of the host -/
  workerId : PyStr

/-- How a restart command ends: it refuses, it lets an exception through, or the intent is
written. -/
inductive CommandEnd where
  | refused (msg : PyStr)
  | raised (e : RunError)
  | written (desired : SupervisorDesired) (r : Records)

/-- The request both commands make: the confirmed commit, with the rest of the desired record. -/
def restartRequest (reads : CommandReads) (commit : PyStr) : RunRequest where
  commit
  repo := (reads.desired.map SupervisorDesired.repo).getD []
  uvPath := (reads.desired.map SupervisorDesired.uvPath).getD []
  workerId := (reads.desired.map SupervisorDesired.workerId).getD (some reads.workerId)

/-- `the exact sealed runtime for commit ... is missing, ...`. -/
def unusableRuntime (commit : PyStr) : PyStr :=
  PyStr.ofString "the exact sealed runtime for commit " ++ commit ++ PyStr.ofString
    " is missing, corrupt, incomplete, or not sealed; refusing to restart"

/-- Writing the intent, with the exception both commands catch. -/
def writeRestart (transport : Transport) (locked : Bool) (now : ℚ) (request : RunRequest)
    (r : Records) : CommandEnd :=
  match requestRunClient transport locked now request r with
  | .ok (desired, r) => .written desired r
  | .error .generationLockTimeoutError =>
    .refused "timed out waiting for the generation lock to request restart"
  | .error e => .raised e

/-- `_restart_intent_locked`. -/
def restartIntentLocked (reads : CommandReads) (transport : Transport) (locked : Bool) (now : ℚ)
    (r : Records) : CommandEnd :=
  match reads.blocker with
  | some blocker => .refused blocker
  | none =>
    if !reads.supervisorRunning then
      .refused ("no external supervisor is running; a supervised restart is not possible " ++
        "(the only supported way to stop Lubko is to stop its environment)" : String)
    else match reads.commit with
      | none => .refused "no usable sealed runtime to restart"
      | some commit =>
        if !reads.runtimeIsUsable commit then .refused (unusableRuntime commit)
        else writeRestart transport locked now (restartRequest reads commit) r

/-- `_request_restart_intent_locked`. -/
def requestRestartIntentLocked (reads : CommandReads) (transport : Transport) (locked : Bool)
    (now : ℚ) (r : Records) : CommandEnd :=
  match reads.blocker with
  | some blocker => .refused blocker
  | none =>
    match reads.commit with
    | none => .refused "no confirmed commit to restart"
    | some commit =>
      if !reads.runtimeIsUsable commit then .refused (unusableRuntime commit)
      else writeRestart transport locked now (restartRequest reads commit) r

/-! ## The daemon -/

/-- What the daemon does while it applies an intent. -/
inductive Effect where
  | retired (child : WorkerChild)
  | wrote (state : SupervisorState)
  | ensureWorker (commit : PyStr)
  /-- An exception leaves the step. -/
  | raised

/-- `state.json`, and what was done since the step began. -/
structure Daemon where
  state : SupervisorState
  trace : List Effect

/-- How `_write_state_authority_safe` ends. -/
inductive PublishEnd where
  | published
  | deferred
  | raised (replaced : Bool)
  deriving DecidableEq

/-- Whether the state is on disk afterwards. -/
def PublishEnd.replaces : PublishEnd → Bool
  | .published => true
  | .deferred => false
  | .raised replaced => replaced

/-- What the daemon meets while it applies an intent. -/
structure Answers where
  /-- `self._authority` is not `None` -/
  claim : Bool
  /-- The worker record of the authority row in `_db_worker_running`; `none` when it cannot be
  read. -/
  row : Option (Option WorkerRecord)
  /-- `self._active_child` -/
  activeChild : Option WorkerChild
  /-- Our handle has its pid and no exit status, and its start ticks are the recorded ones. -/
  activeWorkerLive : Bool
  /-- `_candidate_is_launchable` -/
  launchable : Bool
  /-- `_confirm_authority` -/
  confirmed : Bool
  /-- The worker record in `_retire_child` -/
  rowAgain : Option (Option WorkerRecord)
  /-- `worker_alive` -/
  workerAlive : Bool
  /-- `authorize_retirement` -/
  authorized : Bool
  /-- `stop_worker` -/
  stopped : Bool
  /-- `drain_sentinel_matches` -/
  drained : Bool
  /-- `recover_owned_groups` returns -/
  groupsRecovered : Bool
  retirement : PublishEnd
  nextAttemptAt : ℚ
  deferral : PublishEnd
  /-- `_child_alive` -/
  childAlive : Bool
  publication : PublishEnd

/-- One thing done. -/
def Daemon.emit (d : Daemon) (e : Effect) : Daemon := { d with trace := d.trace ++ [e] }

/-- `_write_state_authority_safe` of a rewrite of the state just read: whether it returns `True`,
or `none` when it raises. -/
def Daemon.publish (d : Daemon) (m : Maintenance) (e : PublishEnd) : Option Bool × Daemon :=
  let written := match m.snapshot d.state with
    | none => d
    | some state =>
      let state := preserveAuthority state d.state
      { state, trace := d.trace ++ [.wrote state] }
  match e with
  | .published => (some true, written)
  | .deferred => (some false, d)
  | .raised replaced => (none, (if replaced then written else d).emit .raised)

/-- `_db_record_matches_child`. -/
def dbRecordMatchesChild (record : Option WorkerRecord) (child : WorkerChild)
    (commit : Option PyStr) : Bool :=
  match record with
  | none => false
  | some record =>
    commit.all (record.commit = ·) && record.token = child.token && record.pid = child.pid &&
      record.pgid = child.pgid && record.sid = child.sid &&
      record.startTimeTicks = child.startTimeTicks && record.workerId = child.workerId

/-- `_retire_child`, without the lock; `none` when it raises. -/
def retireChild (a : Answers) (d : Daemon) : Option Bool × Daemon :=
  match d.state.child with
  | none => (some true, d)
  | some child =>
    if !a.confirmed then (some false, d)
    else if !(a.rowAgain.any (dbRecordMatchesChild · child d.state.commit)) then (some false, d)
    else if a.workerAlive && !a.authorized then (some false, d)
    else if !a.stopped then (some false, d)
    else
      let d := d.emit (.retired child)
      if !(!child.token.isEmpty && a.drained) && !a.groupsRecovered then (none, d.emit .raised)
      else d.publish .childRetired a.retirement

/-- `_db_worker_running`. -/
def dbWorkerRunning (a : Answers) (commit : PyStr) : Option Bool :=
  if !a.claim then none
  else match a.row with
    | none => none
    | some none => some false
    | some (some record) =>
      some (a.activeChild.any (·.token = record.token) && record.commit = commit &&
        a.activeWorkerLive)

/-- The end of `_apply_desired`: the applied intent is recorded, and a replacement is started. -/
def recordApplied (desired : SupervisorDesired) (alreadyRunning : Bool) (a : Answers) (d : Daemon) :
    Daemon :=
  let preserveReadiness := alreadyRunning && d.state.commit = some desired.commit &&
    d.state.child.isSome && a.childAlive
  match d.publish (.desiredApplied desired.generation desired.commit preserveReadiness)
    a.publication with
  | (some true, d) => if alreadyRunning then d else d.emit (.ensureWorker desired.commit)
  | (_, d) => d

/-- `_apply_desired`. -/
def applyDesired (desired : SupervisorDesired) (a : Answers) (d : Daemon) : Daemon :=
  if desired.commit.isEmpty then d
  else match dbWorkerRunning a desired.commit with
    | none => d
    | some running =>
      let alreadyRunning := running && !desired.restart
      if !alreadyRunning && !a.launchable then
        (d.publish (.attemptDeferred a.nextAttemptAt) a.deferral).2
      else if alreadyRunning then recordApplied desired true a d
      else match retireChild a d with
        | (none, d) => d
        | (some false, d) => (d.publish (.attemptDeferred a.nextAttemptAt) a.deferral).2
        | (some true, d) => recordApplied desired false a d

/-! ## The intent of a request -/

/-- The daemon takes the flag from the payload as the client put it in. -/
theorem handleDeployRequest_restart {request q : RunRequest}
    (h : handleDeployRequest (received Json.build (deployPayload request)) = .ok q) :
    q.restart = request.restart := by
  have hrestart : getOr (received Json.build (deployPayload request)) "restart" (.bool false) =
      .bool request.restart := rfl
  simp only [handleDeployRequest, hrestart] at h
  split at h
  · split_ifs at h
    split at h
    · split at h
      · split at h
        · obtain rfl := Except.ok.inj h
          rfl
        · cases h
      · cases h
    · cases h
  · cases h

/-- A request whose texts pass the socket unchanged is the request the daemon makes. -/
theorem handleDeployRequest_deployPayload {request : RunRequest} (hcommit : request.commit ≠ [])
    (hc : Joined request.commit) (hr : Joined request.repo) (hu : Joined request.uvPath)
    (hw : ∀ w ∈ request.workerId, Joined w) :
    handleDeployRequest (received Json.build (deployPayload request)) = .ok request := by
  have hf := transparent_build
  have hcommit' : (received Json.build (deployPayload request)).get "commit" =
      .str request.commit := hf.str _ hc
  have hrepo : getOr (received Json.build (deployPayload request)) "repo" (.str []) =
      .str request.repo := hf.str _ hr
  have huv : getOr (received Json.build (deployPayload request)) "uv_path" (.str []) =
      .str request.uvPath := hf.str _ hu
  have hrestart : getOr (received Json.build (deployPayload request)) "restart" (.bool false) =
      .bool request.restart := rfl
  have hmigration : getOr (received Json.build (deployPayload request)) "migration"
      (.bool false) = .bool request.migration := rfl
  have hworker : (received Json.build (deployPayload request)).get "worker_id" =
      orNull .str request.workerId := hf.orNull_str hw
  have hid : optionalString (orNull .str request.workerId) = request.workerId := by
    cases request.workerId <;> rfl
  have hne : request.commit.isEmpty = false := List.isEmpty_eq_false_iff.2 hcommit
  simp only [handleDeployRequest, hcommit', hrepo, huv, hrestart, hmigration, hworker, hid, hne]
  rfl

theorem requestRun_restart {locked : Bool} {now : ℚ} {request : RunRequest} {r r' : Records}
    {desired : SupervisorDesired} (h : requestRun locked now request r = .ok (desired, r')) :
    desired.restart = request.restart := by
  rw [requestRun] at h
  split_ifs at h
  split at h
  · cases h
  · rename_i written hwritten
    obtain rfl := Except.ok.inj h
    obtain ⟨generation, -, hpair⟩ := Option.map_eq_some_iff.1 hwritten
    rw [← (Prod.mk.inj hpair).1]

/-- **The intent carries the flag of the request**, over both transports. -/
theorem requestRunClient_restart {transport : Transport} {locked : Bool} {now : ℚ}
    {request : RunRequest} {r r' : Records} {desired : SupervisorDesired}
    (h : requestRunClient transport locked now request r = .ok (desired, r')) :
    desired.restart = request.restart := by
  cases transport with
  | direct => exact requestRun_restart h
  | socket =>
    rw [requestRunClient] at h
    split at h
    · cases h
    · rename_i q hq
      split at h
      · rename_i written hwritten
        obtain rfl := Except.ok.inj h
        exact (requestRun_restart hwritten).trans (handleDeployRequest_restart hq)
      · cases h
      · cases h

/-- The two commands that request a restart. -/
inductive RestartCommand where
  | restartIntentLocked
  | requestRestartIntentLocked

/-- What a command does. -/
def RestartCommand.run : RestartCommand → CommandReads → Transport → Bool → ℚ → Records →
    CommandEnd
  | .restartIntentLocked => Restart.restartIntentLocked
  | .requestRestartIntentLocked => Restart.requestRestartIntentLocked

theorem writeRestart_restart {transport : Transport} {locked : Bool} {now : ℚ}
    {request : RunRequest} {r r' : Records} {desired : SupervisorDesired}
    (h : writeRestart transport locked now request r = .written desired r') :
    desired.restart = request.restart := by
  rw [writeRestart] at h
  split at h
  · rename_i written hwritten
    cases h
    exact requestRunClient_restart hwritten
  · cases h
  · cases h

/-- **Neither command asks for a replacement**: the intents they write are plain run intents. -/
theorem RestartCommand.restart_eq_false {command : RestartCommand} {reads : CommandReads}
    {transport : Transport} {locked : Bool} {now : ℚ} {r r' : Records}
    {desired : SupervisorDesired}
    (h : command.run reads transport locked now r = .written desired r') :
    desired.restart = false := by
  cases command with
  | restartIntentLocked =>
    simp only [run, Restart.restartIntentLocked] at h
    split at h
    · cases h
    · split_ifs at h
      split at h
      · cases h
      · split_ifs at h
        exact writeRestart_restart h
  | requestRestartIntentLocked =>
    simp only [run, Restart.requestRestartIntentLocked] at h
    split at h
    · cases h
    · split at h
      · cases h
      · split_ifs at h
        exact writeRestart_restart h

/-! ## What the daemon records -/

/-- An intent for the commit of the published worker meets a daemon with an established claim: the
row, where it is read, names that worker. -/
structure Situation (desired : SupervisorDesired) (worker : WorkerRecord) (a : Answers)
    (s : SupervisorState) : Prop where
  commit : desired.commit = worker.commit
  named : desired.commit ≠ []
  newer : s.appliedGeneration < desired.generation
  claim : a.claim = true
  row : ∀ record, a.row = some record → record = some worker
  rowAgain : ∀ record, a.rowAgain = some record → record = some worker

/-- The child is the recorded worker. -/
def Names (worker : WorkerRecord) (child : WorkerChild) : Prop :=
  worker.token = child.token ∧ worker.pid = child.pid ∧ worker.startTimeTicks = child.startTimeTicks

/-- Every state that records the generation as applied is written after the worker is retired. -/
def Replaced (generation : ℤ) (worker : WorkerRecord) (trace : List Effect) : Prop :=
  ∀ pre state post, trace = pre ++ .wrote state :: post → generation ≤ state.appliedGeneration →
    ∃ child, .retired child ∈ pre ∧ Names worker child

/-- The step records the generation as applied, does nothing else, and keeps the readiness. -/
def Settled (generation : ℤ) (s : SupervisorState) (d : Daemon) : Prop :=
  d.trace = [.wrote d.state] ∧ d.state.appliedGeneration = generation ∧ d.state.ready = s.ready ∧
    d.state.nextReadinessAt = s.nextReadinessAt

/-- The published worker is the daemon's own live direct child. -/
def LiveView (worker : WorkerRecord) (a : Answers) : Prop :=
  (∃ child ∈ a.activeChild, child.token = worker.token) ∧ a.activeWorkerLive = true

/-- Nothing on disk or in the trace reaches the generation. -/
structure Below (generation : ℤ) (d : Daemon) : Prop where
  state : d.state.appliedGeneration < generation
  trace : ∀ state, .wrote state ∈ d.trace → state.appliedGeneration < generation

section Traces

variable {g : ℤ} {worker : WorkerRecord} {d : Daemon}

theorem Below.replaced (h : Below g d) : Replaced g worker d.trace := by
  intro pre state post htrace hg
  have hlt := h.trace state (by rw [htrace]; simp)
  omega

theorem Below.emit (h : Below g d) {e : Effect} (he : ∀ state, e ≠ .wrote state) :
    Below g (d.emit e) := by
  refine ⟨h.state, fun state hs => ?_⟩
  rcases List.mem_append.1 hs with hs | hs
  · exact h.trace state hs
  · exact absurd (List.mem_singleton.1 hs).symm (he state)

/-- A rewrite that leaves the applied generation alone. -/
theorem Below.publish (h : Below g d) {m : Maintenance}
    (hm : ∀ s s', m.snapshot s = some s' → s'.appliedGeneration = s.appliedGeneration)
    (e : PublishEnd) : Below g (d.publish m e).2 := by
  have hwritten : Below g (match m.snapshot d.state with
      | none => d
      | some state =>
        { state := preserveAuthority state d.state
          trace := d.trace ++ [.wrote (preserveAuthority state d.state)] }) := by
    cases hs : m.snapshot d.state with
    | none => exact h
    | some state =>
      have hlt : (preserveAuthority state d.state).appliedGeneration < g :=
        (hm d.state state hs).trans_lt h.state
      refine ⟨hlt, fun s hmem => ?_⟩
      rcases List.mem_append.1 hmem with hmem | hmem
      · exact h.trace s hmem
      · rw [Effect.wrote.inj (List.mem_singleton.1 hmem)]
        exact hlt
  cases e with
  | published => exact hwritten
  | deferred => exact h
  | raised replaced =>
    refine Below.emit ?_ (fun state hs => by cases hs)
    cases replaced with
    | true => exact hwritten
    | false => exact h

theorem Below.attemptDeferred (h : Below g d) (x : ℚ) (e : PublishEnd) :
    Below g (d.publish (.attemptDeferred x) e).2 := by
  refine h.publish ?_ e
  intro s s' hs
  obtain rfl := Option.some.inj hs
  rfl

/-- A first write that reaches the generation comes after a retirement exactly when there was one.
-/
theorem replaced_append_iff {trace rest : List Effect} {t : SupervisorState}
    (htrace : ∀ state, .wrote state ∈ trace → state.appliedGeneration < g)
    (ht : g ≤ t.appliedGeneration) :
    Replaced g worker (trace ++ .wrote t :: rest) ↔
      ∃ child, .retired child ∈ trace ∧ Names worker child := by
  constructor
  · intro h
    exact h trace t rest rfl ht
  · rintro ⟨child, hchild, hnames⟩ pre state post heq hg
    rcases List.append_eq_append_iff.1 heq with ⟨mid, hpre, -⟩ | ⟨mid, hpre, hmid⟩
    · exact ⟨child, hpre ▸ List.mem_append_left mid hchild, hnames⟩
    · cases mid with
      | nil =>
        rw [List.append_nil] at hpre
        exact ⟨child, hpre ▸ hchild, hnames⟩
      | cons e mid =>
        obtain ⟨rfl, -⟩ := List.cons.inj hmid
        have hlt := htrace state (by rw [hpre]; simp)
        omega

theorem dbRecordMatchesChild_names {record : Option WorkerRecord} {child : WorkerChild}
    {commit : Option PyStr} (h : dbRecordMatchesChild record child commit = true) :
    ∃ w, record = some w ∧ Names w child := by
  cases record with
  | none => cases h
  | some w =>
    simp only [dbRecordMatchesChild, Bool.and_eq_true, decide_eq_true_eq] at h
    obtain ⟨⟨⟨⟨⟨⟨-, htoken⟩, hpid⟩, -⟩, -⟩, hticks⟩, -⟩ := h
    exact ⟨w, rfl, htoken, hpid, hticks⟩

/-- **`_retire_child`** records nothing as applied, and where it returns `True` there was no child,
or the published worker was retired. -/
theorem retireChild_spec {a : Answers} (hrow : ∀ record, a.rowAgain = some record →
    record = some worker) (h : Below g d) :
    Below g (retireChild a d).2 ∧
      ((retireChild a d).1 = some true →
        (d.state.child = none ∧ (retireChild a d).2 = d) ∨
          ∃ child, .retired child ∈ (retireChild a d).2.trace ∧ Names worker child) := by
  rw [retireChild]
  cases hchild : d.state.child with
  | none => exact ⟨h, fun _ => .inl ⟨rfl, rfl⟩⟩
  | some child =>
    dsimp only
    split_ifs with hconfirmed hmatches halive hstopped hgroups
    · exact ⟨h, fun hf => by cases hf⟩
    · exact ⟨h, fun hf => by cases hf⟩
    · exact ⟨h, fun hf => by cases hf⟩
    · exact ⟨h, fun hf => by cases hf⟩
    · refine ⟨?_, fun hf => by cases hf⟩
      exact (h.emit fun state hs => by cases hs).emit fun state hs => by cases hs
    · have hretired : Below g (d.emit (.retired child)) := h.emit fun state hs => by cases hs
      have hnames : Names worker child := by
        simp only [Bool.not_eq_true', Bool.not_eq_false, Option.any_eq_true] at hmatches
        obtain ⟨record, hrecord, hmatch⟩ := hmatches
        obtain ⟨w, rfl, hw⟩ := dbRecordMatchesChild_names hmatch
        obtain rfl := Option.some.inj (hrow _ hrecord)
        exact hw
      refine ⟨hretired.publish ?_ _, fun htrue => .inr ⟨child, ?_, hnames⟩⟩
      · intro s s' hs
        obtain rfl := Option.some.inj hs
        rfl
      · cases hend : a.retirement with
        | published => simp [Daemon.publish, Daemon.emit, Maintenance.snapshot]
        | deferred =>
          rw [hend] at htrue
          cases htrue
        | raised replaced =>
          rw [hend] at htrue
          cases htrue

/-- The state that records an intent as applied. -/
def appliedState (desired : SupervisorDesired) (preserve : Bool) (s : SupervisorState) :
    SupervisorState :=
  { s with
    appliedGeneration := desired.generation
    mode := .run
    commit := some desired.commit
    intent := .run
    restartCount := 0
    nextAttemptAt := none
    ready := if preserve then s.ready else false
    nextReadinessAt := if preserve then s.nextReadinessAt else none }

theorem publish_desiredApplied (desired : SupervisorDesired) (preserve : Bool) (e : PublishEnd) :
    d.publish (.desiredApplied desired.generation desired.commit preserve) e =
      match e with
      | .published => (some true, ⟨appliedState desired preserve d.state,
          d.trace ++ [.wrote (appliedState desired preserve d.state)]⟩)
      | .deferred => (some false, d)
      | .raised true => (none, ⟨appliedState desired preserve d.state,
          d.trace ++ [.wrote (appliedState desired preserve d.state), .raised]⟩)
      | .raised false => (none, ⟨d.state, d.trace ++ [.raised]⟩) := by
  cases e with
  | published => rfl
  | deferred => rfl
  | raised replaced =>
    cases replaced with
    | true => simp [Daemon.publish, Daemon.emit, Maintenance.snapshot, appliedState,
        preserveAuthority]
    | false => rfl

/-- Recording the intent comes after a retirement exactly when there was one before. -/
theorem replaced_recordApplied {desired : SupervisorDesired} (already : Bool) {a : Answers}
    (h : Below desired.generation d) :
    Replaced desired.generation worker (recordApplied desired already a d).trace ↔
      a.publication.replaces = false ∨ ∃ child, .retired child ∈ d.trace ∧ Names worker child := by
  simp only [recordApplied, publish_desiredApplied]
  cases a.publication with
  | published =>
    cases already with
    | true => simpa [PublishEnd.replaces] using replaced_append_iff h.trace (le_refl _)
    | false =>
      simpa [PublishEnd.replaces, Daemon.emit] using replaced_append_iff h.trace (le_refl _)
  | deferred => simpa [PublishEnd.replaces] using h.replaced
  | raised replaced =>
    cases replaced with
    | true => simpa [PublishEnd.replaces] using replaced_append_iff h.trace (le_refl _)
    | false =>
      have hraised : Below desired.generation (d.emit .raised) :=
        h.emit fun state hs => by cases hs
      simpa [PublishEnd.replaces, Daemon.emit] using hraised.replaced

/-- The step settles exactly where a plain intent is recorded beside a worker that goes on. -/
theorem settled_recordApplied {desired : SupervisorDesired} {already : Bool} {a : Answers}
    {s : SupervisorState} :
    Settled desired.generation s (recordApplied desired already a ⟨s, []⟩) ↔
      already = true ∧ a.publication = .published ∧
        ((s.commit = some desired.commit ∧ s.child.isSome = true ∧ a.childAlive = true) ∨
          (s.ready = false ∧ s.nextReadinessAt = none)) := by
  simp only [recordApplied, publish_desiredApplied, Settled]
  cases a.publication with
  | published =>
    cases already with
    | false => simp [Daemon.emit]
    | true =>
      simp only [Bool.true_and, if_true, List.nil_append, appliedState, true_and]
      by_cases hp : s.commit = some desired.commit ∧ s.child.isSome = true ∧ a.childAlive = true
      · simp [hp.1, hp.2.1, hp.2.2]
      · have hpreserve : (decide (s.commit = some desired.commit) && s.child.isSome &&
            a.childAlive) = false := by
          rw [Bool.and_assoc, ← Bool.not_eq_true]
          simpa using hp
        simp only [hpreserve, Bool.false_eq_true, if_false, hp, false_or]
        exact and_congr eq_comm eq_comm
  | deferred => simp
  | raised replaced =>
    cases replaced with
    | true => simp
    | false => simp

end Traces

/-! ## Applying an intent -/

section Apply

variable {desired : SupervisorDesired} {worker : WorkerRecord} {a : Answers} {s : SupervisorState}

theorem dbWorkerRunning_eq (h : Situation desired worker a s) (live : Bool)
    (hlive : live = true ↔ LiveView worker a) :
    dbWorkerRunning a desired.commit = a.row.map fun _ => live := by
  have hview : live = (a.activeChild.any (·.token = worker.token) && a.activeWorkerLive) := by
    rw [Bool.eq_iff_iff, hlive, LiveView, Bool.and_eq_true, Option.any_eq_true]
    simp only [decide_eq_true_eq, Option.mem_def]
  rw [dbWorkerRunning, h.claim]
  cases hrow : a.row with
  | none => rfl
  | some record =>
    obtain rfl := h.row record hrow
    simp [h.commit, hview]

/-- `_apply_desired` of an intent that the running worker does not satisfy. -/
def replaceWorker (desired : SupervisorDesired) (a : Answers) (d : Daemon) : Daemon :=
  if !a.launchable then (d.publish (.attemptDeferred a.nextAttemptAt) a.deferral).2
  else match retireChild a d with
    | (none, d) => d
    | (some false, d) => (d.publish (.attemptDeferred a.nextAttemptAt) a.deferral).2
    | (some true, d) => recordApplied desired false a d

/-- What `_apply_desired` does in a situation where the row can be read. -/
theorem applyDesired_eq (h : Situation desired worker a s) (live : Bool)
    (hlive : live = true ↔ LiveView worker a) (hrow : a.row.isSome = true) :
    applyDesired desired a ⟨s, []⟩ =
      if live && !desired.restart then recordApplied desired true a ⟨s, []⟩
      else replaceWorker desired a ⟨s, []⟩ := by
  obtain ⟨record, hrecord⟩ := Option.isSome_iff_exists.1 hrow
  have hne : desired.commit.isEmpty = false := List.isEmpty_eq_false_iff.2 h.named
  rw [applyDesired, hne, dbWorkerRunning_eq h live hlive, hrecord]
  simp only [Option.map_some, Bool.false_eq_true, if_false]
  cases live && !desired.restart with
  | true => rfl
  | false => rfl

/-- A step that cannot read the row does nothing. -/
theorem applyDesired_of_row (h : Situation desired worker a s) (hrow : a.row = none) :
    applyDesired desired a ⟨s, []⟩ = ⟨s, []⟩ := by
  have hne : desired.commit.isEmpty = false := List.isEmpty_eq_false_iff.2 h.named
  have hrunning : dbWorkerRunning a desired.commit = none := by
    simp [dbWorkerRunning, h.claim, hrow]
  rw [applyDesired, hne, hrunning]
  rfl

/-- A replacement is recorded before the retirement only where no child is on record. -/
theorem replaced_replaceWorker (h : Situation desired worker a s) :
    Replaced desired.generation worker (replaceWorker desired a ⟨s, []⟩).trace ↔
      ¬ (a.publication.replaces = true ∧ a.launchable = true ∧ s.child = none) := by
  have hbelow : Below desired.generation ⟨s, []⟩ := ⟨h.newer, fun state hs => by cases hs⟩
  rw [replaceWorker]
  by_cases hlaunchable : a.launchable = true
  · rw [if_neg (by simp [hlaunchable])]
    have hspec := retireChild_spec h.rowAgain hbelow
    cases hretire : retireChild a ⟨s, []⟩ with
    | mk result d =>
      rw [hretire] at hspec
      obtain ⟨hd, hchild⟩ := hspec
      have hno : result ≠ some true → s.child ≠ none := by
        intro hresult hnone
        rw [retireChild, hnone] at hretire
        exact hresult (Prod.mk.inj hretire).1.symm
      match result with
      | none => exact iff_of_true hd.replaced fun hf => hno nofun hf.2.2
      | some false => exact iff_of_true (hd.attemptDeferred _ _).replaced fun hf => hno nofun hf.2.2
      | some true =>
        rw [replaced_recordApplied false hd]
        rcases hchild rfl with ⟨hnone, rfl⟩ | ⟨child, hretired, hnames⟩
        · simp [hlaunchable, show s.child = none from hnone]
        · refine iff_of_true (.inr ⟨child, hretired, hnames⟩) ?_
          rintro ⟨-, -, hnone⟩
          rw [retireChild, hnone] at hretire
          obtain ⟨-, rfl⟩ := Prod.mk.inj hretire
          cases hretired
  · rw [if_pos (by simp [hlaunchable])]
    exact iff_of_true (hbelow.attemptDeferred _ _).replaced fun hf => hlaunchable hf.2.1

/-- **When an intent is recorded as applied only after the retirement**: unless the state is put on
disk beside a worker that is kept, or that `state.json` does not name. -/
theorem applyDesired_replaces_iff (h : Situation desired worker a s) :
    Replaced desired.generation worker (applyDesired desired a ⟨s, []⟩).trace ↔
      ¬ (a.row.isSome = true ∧ a.publication.replaces = true ∧
        ((LiveView worker a ∧ desired.restart = false) ∨
          (a.launchable = true ∧ s.child = none))) := by
  have hbelow : Below desired.generation ⟨s, []⟩ := ⟨h.newer, fun state hs => by cases hs⟩
  by_cases hrow : a.row.isSome = true
  · by_cases hkept : LiveView worker a ∧ desired.restart = false
    · rw [applyDesired_eq h true (iff_of_true rfl hkept.1) hrow]
      simp [hkept, hrow, replaced_recordApplied true hbelow]
    · have hreplace : applyDesired desired a ⟨s, []⟩ = replaceWorker desired a ⟨s, []⟩ := by
        by_cases hlive : LiveView worker a
        · rw [applyDesired_eq h true (iff_of_true rfl hlive) hrow]
          have hrestart : desired.restart = true := by
            rw [← Bool.not_eq_false]
            exact fun hf => hkept ⟨hlive, hf⟩
          simp [hrestart]
        · rw [applyDesired_eq h false (iff_of_false nofun hlive) hrow]
          simp
      rw [hreplace, replaced_replaceWorker h]
      simp [hkept, hrow]
  · have hnone : a.row = none := by simpa using hrow
    rw [applyDesired_of_row h hnone]
    exact iff_of_true hbelow.replaced fun hf => hrow hf.1

/-- A replacement never settles: it retires a child, it goes on to establish a worker, or it does
not reach the generation. -/
theorem not_settled_replaceWorker (h : Situation desired worker a s) :
    ¬ Settled desired.generation s (replaceWorker desired a ⟨s, []⟩) := by
  have hbelow : Below desired.generation ⟨s, []⟩ := ⟨h.newer, fun state hs => by cases hs⟩
  have hnot : ∀ d, Below desired.generation d → ¬ Settled desired.generation s d := by
    intro d hd hsettled
    have hlt := hd.state
    rw [hsettled.2.1] at hlt
    exact lt_irrefl _ hlt
  rw [replaceWorker]
  by_cases hlaunchable : a.launchable = true
  · rw [if_neg (by simp [hlaunchable])]
    have hspec := retireChild_spec h.rowAgain hbelow
    cases hretire : retireChild a ⟨s, []⟩ with
    | mk result d =>
      rw [hretire] at hspec
      obtain ⟨hd, hchild⟩ := hspec
      match result with
      | none => exact hnot _ hd
      | some false => exact hnot _ (hd.attemptDeferred _ _)
      | some true =>
        rcases hchild rfl with ⟨-, rfl⟩ | ⟨child, hretired, -⟩
        · rw [settled_recordApplied]
          exact fun hf => by cases hf.1
        · intro hsettled
          have hkept : Effect.retired child ∈ (recordApplied desired false a d).trace := by
            have hprefix : ∀ e, e ∈ d.trace → e ∈ (recordApplied desired false a d).trace := by
              intro e he
              simp only [recordApplied, publish_desiredApplied]
              cases a.publication with
              | published => simp [Daemon.emit, he]
              | deferred => exact he
              | raised replaced => cases replaced with
                | true => simp [he]
                | false => simp [he]
            exact hprefix _ hretired
          rw [hsettled.1] at hkept
          cases List.mem_singleton.1 hkept
  · rw [if_pos (by simp [hlaunchable])]
    exact hnot _ (hbelow.attemptDeferred _ _)

/-- **When a plain intent settles beside the worker.** -/
theorem applyDesired_settles_iff (h : Situation desired worker a s)
    (hplain : desired.restart = false) :
    Settled desired.generation s (applyDesired desired a ⟨s, []⟩) ↔
      a.row.isSome = true ∧ LiveView worker a ∧ a.publication = .published ∧
        ((s.commit = some desired.commit ∧ s.child.isSome = true ∧ a.childAlive = true) ∨
          (s.ready = false ∧ s.nextReadinessAt = none)) := by
  by_cases hrow : a.row.isSome = true
  · by_cases hlive : LiveView worker a
    · rw [applyDesired_eq h true (iff_of_true rfl hlive) hrow]
      simp [hplain, hrow, hlive, settled_recordApplied]
    · rw [applyDesired_eq h false (iff_of_false nofun hlive) hrow]
      exact iff_of_false (not_settled_replaceWorker h) fun hf => hlive hf.2.1
  · have hnone : a.row = none := by simpa using hrow
    rw [applyDesired_of_row h hnone]
    refine iff_of_false ?_ fun hf => hrow hf.1
    intro hsettled
    cases hsettled.1

end Apply

/-- **When a restart really replaces the process, and a plain intent does not.** For every intent
one of the two commands writes, over either transport, and every step of the daemon that applies it
to a state with an established claim and a published worker that runs the commit: the generation is
recorded only after the worker was retired exactly when the row cannot be read, no state is put on
disk, or the worker is not the live view and the candidate is not launchable or a child is on
record. And a plain intent for that commit settles exactly when the row is read, the worker is the
live view, the publication is confirmed, and the readiness is the worker's own or there is none. -/
theorem restart_really_replaces_iff (worker : WorkerRecord) (a : Answers) (s : SupervisorState) :
    (∀ (command : RestartCommand) (reads : CommandReads) (transport : Transport) (locked : Bool)
        (now : ℚ) (r r' : Records) (desired : SupervisorDesired),
      command.run reads transport locked now r = .written desired r' →
        Situation desired worker a s →
          (Replaced desired.generation worker (applyDesired desired a ⟨s, []⟩).trace ↔
            a.row = none ∨ a.publication.replaces = false ∨
              (¬ LiveView worker a ∧ (a.launchable = false ∨ s.child ≠ none)))) ∧
    ∀ desired : SupervisorDesired, Situation desired worker a s → desired.restart = false →
      (Settled desired.generation s (applyDesired desired a ⟨s, []⟩) ↔
        a.row ≠ none ∧ LiveView worker a ∧ a.publication = .published ∧
          ((s.commit = some desired.commit ∧ s.child ≠ none ∧ a.childAlive = true) ∨
            (s.ready = false ∧ s.nextReadinessAt = none))) := by
  refine ⟨?_, ?_⟩
  · intro command reads transport locked now r r' desired hwritten h
    have hplain := RestartCommand.restart_eq_false hwritten
    rw [applyDesired_replaces_iff h, hplain, ← Bool.not_eq_true a.publication.replaces,
      ← Bool.not_eq_true a.launchable, ← Option.not_isSome_iff_eq_none (o := a.row)]
    tauto
  · intro desired h hplain
    rw [applyDesired_settles_iff h hplain, Option.isSome_iff_ne_none, Option.isSome_iff_ne_none]

/-! ## A restart that replaces nothing -/

/-- A host with a confirmed commit whose runtime is usable. -/
def confirmedReads : CommandReads where
  blocker := none
  supervisorRunning := true
  commit := some "c1"
  runtimeIsUsable := fun _ => true
  desired := none
  workerId := "w1"

/-- Generation 1 is applied, and nothing else is on record. -/
def appliedRecords : Records := ⟨1, .absent, .absent, .absent⟩

/-- The intent a restart command writes there. -/
def restartIntent : SupervisorDesired where
  schemaVersion := SCHEMA_VERSION
  generation := 2
  commit := "c1"
  repo := []
  uvPath := []
  workerId := some "w1"

/-- The worker that runs the commit. -/
def runningWorker : WorkerRecord :=
  { token := "t1", commit := "c1", pid := 8, pgid := 8, sid := 8, startTimeTicks := 10,
    workerId := "w1" }

/-- The same worker in `state.json`. -/
def runningChild : WorkerChild :=
  { pid := 8, pgid := 8, sid := 8, startTimeTicks := 10, token := "t1", workerId := "w1",
    spawnedAt := 0 }

/-- The daemon's state beside that worker. -/
def runningState : SupervisorState :=
  { freshState with
    appliedGeneration := 1
    mode := .run
    commit := some "c1"
    child := some runningChild
    ready := true }

/-- Everything the daemon asks is available, and the worker is its own live child. -/
def availableAnswers : Answers where
  claim := true
  row := some (some runningWorker)
  activeChild := some runningChild
  activeWorkerLive := true
  launchable := true
  confirmed := true
  rowAgain := some (some runningWorker)
  workerAlive := true
  authorized := true
  stopped := true
  drained := true
  groupsRecovered := true
  retirement := .published
  nextAttemptAt := 0
  deferral := .published
  childAlive := true
  publication := .published

theorem runningSituation :
    Situation restartIntent runningWorker availableAnswers runningState where
  commit := rfl
  named := by decide
  newer := by decide
  claim := rfl
  row _ h := (Option.some.inj h).symm
  rowAgain _ h := (Option.some.inj h).symm

theorem runningLiveView : LiveView runningWorker availableAnswers :=
  ⟨⟨runningChild, rfl, rfl⟩, rfl⟩

/-- A restart request beside a live worker is recorded as applied, and nothing was stopped. -/
theorem restart_replaces_nothing :
    RestartCommand.run .restartIntentLocked confirmedReads .direct true 0 appliedRecords =
        .written restartIntent { appliedRecords with desired := .holds restartIntent } ∧
      RestartCommand.run .requestRestartIntentLocked confirmedReads .socket true 0
          appliedRecords =
        .written restartIntent { appliedRecords with desired := .holds restartIntent } ∧
      Situation restartIntent runningWorker availableAnswers runningState ∧
      ¬ Replaced restartIntent.generation runningWorker
        (applyDesired restartIntent availableAnswers ⟨runningState, []⟩).trace := by
  refine ⟨rfl, rfl, runningSituation, ?_⟩
  intro hreplaced
  obtain ⟨child, hchild, -⟩ := hreplaced [] _ [] rfl (le_refl _)
  cases hchild

/-- The two equivalences beside that worker: the restart does not replace it, and the same intent
settles. -/
theorem restart_really_replaces_iff_running :
    ¬ Replaced restartIntent.generation runningWorker
        (applyDesired restartIntent availableAnswers ⟨runningState, []⟩).trace ∧
      Settled restartIntent.generation runningState
        (applyDesired restartIntent availableAnswers ⟨runningState, []⟩) := by
  obtain ⟨hreplaced, hsettled⟩ :=
    restart_really_replaces_iff runningWorker availableAnswers runningState
  have hwritten : RestartCommand.run .restartIntentLocked confirmedReads .direct true 0
      appliedRecords =
        .written restartIntent { appliedRecords with desired := .holds restartIntent } := rfl
  refine ⟨?_, ?_⟩
  · rw [hreplaced _ _ _ _ _ _ _ _ hwritten runningSituation]
    rintro (hrow | hpublication | ⟨hview, -⟩)
    · cases hrow
    · cases hpublication
    · exact hview runningLiveView
  · rw [hsettled _ runningSituation rfl]
    exact ⟨nofun, runningLiveView, rfl, .inl ⟨rfl, nofun, rfl⟩⟩

end Lubko.Deploy.Restart
