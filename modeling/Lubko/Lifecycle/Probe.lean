import Lubko.Jobs.Ownership
import Lubko.Lib.CrashProgram
import Lubko.Protocol.Codec
import Mathlib.Data.List.Infix
import Mathlib.Logic.Relation

/-!
# The queue probe

`_probe_queue_consumption` of `lifecycle.py` inserts a job for one worker, waits until that worker
runs it, and cleans up: it cancels the job, waits for it to become terminal and deletes it. From the
answer the supervisor decides whether a live worker is to be retired.

**Calls.** Every statement, every look at `/proc`, the two configuration files and the callback are
calls. Before each call the other sessions change or delete the probe's row as they like, and each
call may raise what it can raise; a statement that fails may have been carried out all the same.

**Turns.** A turn of a wait sleeps, so finitely many come before its deadline. How many do is free.

The proof follows the code, one lemma for each function: from a log without an escaping exception
it returns with such a log, or raises with one that has an escaping exception.

* `probe_ends` — how the probe ends.
* `classified_iff` — exactly when its outcome is the promised one.
* `insert_error_escapes` — a database error that reaches the caller.
-/

namespace Lubko.Lifecycle.Probe

open Lubko.Lib Lubko.Jobs Lubko.Protocol

/-! ## Calls -/

/-- The exceptions, by the classes that some handler tells apart. -/
inductive Exc where
  /-- `psycopg.Error` -/
  | psycopgError
  | osError
  | fileNotFoundError
  | valueError
  | runtimeError
  | other
  deriving DecidableEq

inductive Call where
  | loadDatabaseConfig
  /-- `psycopg.connect`, with the `conninfo` of the configuration -/
  | connect
  | isFile (path : PyStr)
  /-- `_probe_server` -/
  | probeServer
  /-- The `INSERT` of `_insert_probe_job`. -/
  | insertJob (payload : List (PyStr × Json))
  /-- `progress_callback`, when there is one -/
  | progressCallback
  /-- `SELECT (payload::jsonb)->'state'` -/
  | selectState (id : Uuid)
  /-- The reads of `_read_ppid`. -/
  | readPpids
  /-- `SELECT (payload::jsonb)->'output'->'stdout'->>'tail'` -/
  | selectTail (id : Uuid)
  /-- The first transaction of `request_cancel`. -/
  | cancelPending (id : Uuid) (server : PyStr)
  /-- The second transaction of `request_cancel`. -/
  | cancelRunning (id : Uuid) (server : PyStr)
  /-- The third transaction of `request_cancel`. -/
  | selectJob (id : Uuid) (server : PyStr)
  /-- `SELECT (payload::jsonb)->'state'->>'status'` -/
  | selectStatus (id : Uuid)
  /-- The transaction of `delete_job_and_chunks`. -/
  | deleteJobAndChunks (id : Uuid) (server : PyStr)
  | close

/-- What the environment alone may make a call raise. -/
def Call.mayRaise : Call → List Exc
  | loadDatabaseConfig => [.osError, .valueError]
  | connect => [.psycopgError, .osError]
  | probeServer => [.runtimeError]
  | progressCallback =>
    [.psycopgError, .osError, .fileNotFoundError, .valueError, .runtimeError, .other]
  | insertJob _ | selectState _ | selectTail _ | selectStatus _ | cancelPending _ _
  | cancelRunning _ _ | selectJob _ _ | deleteJobAndChunks _ _ => [.psycopgError]
  | isFile _ | readPpids | close => []

/-- The statements of the clean-up. -/
def Call.isCleanUp : Call → Bool
  | cancelPending _ _ | cancelRunning _ _ | selectJob _ _ | selectStatus _
  | deleteJobAndChunks _ _ => true
  | _ => false

/-- What the verdict needs of the database: the connection, and every statement but those that only
cancel and delete. -/
def Call.isNeeded : Call → Bool
  | connect | insertJob _ | selectState _ | selectTail _ | selectStatus _ => true
  | _ => false

/-- What the other sessions do to the row of the probe: they may change or delete it, but not what
it is and where it belongs. -/
structure Others where
  act : Payload → Option Payload
  kept : ∀ p p', act p = some p' → SameIdentity p p'

/-- They leave the row alone. -/
def Others.idle : Others := ⟨some, fun p _ h => Option.some.inj h ▸ .refl p⟩

/-- They run an update of the row. -/
def Others.update (u : Update) (h : KeepsIdentity u) : Others :=
  ⟨fun p => some (u.run p), fun p _ hp => Option.some.inj hp ▸ h.run p⟩

/-- They delete the row. -/
def Others.vanish : Others := ⟨fun _ => none, nofun⟩

/-- What comes before a call, and how the environment answers it; each call reads its own fields. -/
structure Decision where
  others : Others := .idle
  /-- The exception, if it is one of those the call may raise. -/
  raised : Option Exc := none
  /-- A statement that fails was carried out all the same. -/
  applied : Bool := false
  isFile : Bool := true
  server : PyStr := []
  newId : Uuid := .ofDigit 0
  /-- The parent of every process that can be read. `_spawned_by_recovery_worker` asks for each
  process once, so that its reads are those of one table. -/
  ppids : List (ℤ × ℤ) := []
  now : PyStr := []

/-- The row of the probe. -/
abbrev ProbeRow := Option (Uuid × Payload)

/-- The payload of the row, when the probe's id is the one asked for. -/
def payloadOf (row : ProbeRow) (id : Uuid) : Option Payload :=
  (row.filter fun r => r.1 = id).map Prod.snd

/-- An update of the row under an id. -/
def updateRow (u : Update) (row : ProbeRow) (id : Uuid) : ProbeRow :=
  row.map fun r => if r.1 = id then (r.1, u.run r.2) else r

/-- `str(row[0])` of the server of a row. -/
def serverText (p : Payload) : PyStr := coalesce (arrowText p "server") "None"

/-- A call, with its answer and with the row as it is when the call is made. -/
structure Moment where
  call : Call
  decision : Decision
  row : ProbeRow

namespace Moment

/-- What a call refuses: an empty server, a text that is not JSON under `payload::jsonb`, and for
`delete_job_and_chunks` the row of another server. -/
def refused (m : Moment) : Option Exc :=
  match m.call with
  | .probeServer => if m.decision.server = [] then some .runtimeError else none
  | .selectState id | .selectTail id | .selectStatus id =>
    if (payloadOf m.row id).any Option.isNone then some .psycopgError else none
  | .deleteJobAndChunks id server =>
    if (payloadOf m.row id).any fun p => serverText p ≠ server then some .valueError else none
  | _ => none

/-- The exception of a call. -/
def raised (m : Moment) : Option Exc :=
  (m.decision.raised.filter fun e => e ∈ m.call.mayRaise).or m.refused

/-- The row after the statement. -/
def effect (m : Moment) : ProbeRow :=
  match m.call with
  | .insertJob payload => some (m.decision.newId, some (.obj payload))
  | .cancelPending id server => updateRow (Jobs.cancelPending server m.decision.now) m.row id
  | .cancelRunning id server => updateRow (Jobs.cancelRunning server m.decision.now) m.row id
  | .deleteJobAndChunks id server =>
    m.row.filter fun r => !(r.1 = id && hasType r.2 "command" && serverMatch r.2 server)
  | _ => m.row

/-- The row that the call leaves behind. -/
def rowAfter (m : Moment) : ProbeRow :=
  if m.raised.isNone || m.decision.applied then m.effect else m.row

end Moment

/-- What a call returns. -/
structure Value where
  flag : Bool := false
  text : PyStr := []
  id : Uuid := .ofDigit 0
  /-- `cursor.fetchone()`: of a row, its one column. -/
  json : Option (Option Json) := none
  column : Option (Option PyStr) := none
  ppids : List (ℤ × ℤ) := []

/-- What the call returns. -/
def Moment.value (m : Moment) : Value :=
  match m.call with
  | .isFile _ => { flag := m.decision.isFile }
  | .probeServer => { text := m.decision.server }
  | .insertJob _ => { id := m.decision.newId }
  | .selectState id => { json := (payloadOf m.row id).map state }
  | .readPpids => { ppids := m.decision.ppids }
  | .selectTail id =>
    { column := (payloadOf m.row id).map fun p =>
        arrowText (arrow (arrow p "output") "stdout") "tail" }
  | .cancelPending id server =>
    { flag := (payloadOf m.row id).any (Jobs.cancelPending server m.decision.now).guard }
  | .cancelRunning id server =>
    { flag := (payloadOf m.row id).any (Jobs.cancelRunning server m.decision.now).guard }
  | .selectJob id _ => { column := (payloadOf m.row id).map fun p => some (serverText p) }
  | .selectStatus id => { column := (payloadOf m.row id).map status }
  | _ => {}

/-- The row, what the environment will answer, and the calls so far. -/
structure World where
  row : ProbeRow
  ahead : ℕ → Decision
  log : List Moment

namespace World

/-- The next call. -/
def moment (w : World) (c : Call) : Moment where
  call := c
  decision := w.ahead 0
  row := w.row.bind fun r => ((w.ahead 0).others.act r.2).map fun p => (r.1, p)

def after (w : World) (c : Call) : World where
  row := (w.moment c).rowAfter
  ahead n := w.ahead (n + 1)
  log := w.log ++ [w.moment c]

end World

/-- What a call answers, and the world after it. -/
def sem (c : Call) (w : World) : Except Exc Value × World :=
  (match (w.moment c).raised with
    | some e => .error e
    | none => .ok (w.moment c).value, w.after c)

/-! ## The code -/

abbrev Code := Prog Call (Except Exc Value) Exc

def perform (c : Call) : Code Value :=
  .call c fun
    | .error e => .raise e
    | .ok v => .ret v

/-- `except caught`, with what is done then. -/
def handle {α : Type} (caught : List Exc) (body handler : Code α) : Code α :=
  tryCatch body fun e => if e ∈ caught then handler else throw e

/-- `try: body finally: final`. An exception of `final` takes the place of how `body` ended. -/
def tryFinally {α : Type} (body : Code α) (final : Code Unit) : Code α := do
  let result ← tryCatch (do return (Except.ok (← body) : Except Exc α)) fun e => return .error e
  final
  match result with
  | .ok a => return a
  | .error e => throw e

/-- `READINESS_SENTINEL`. -/
def READINESS_SENTINEL : PyStr := "lubko-readiness-sentinel"

/-- The script of `_probe_process`. -/
def probeScript : PyStr :=
  PyStr.ofString "import time,sys;sys.stdout.write('" ++ READINESS_SENTINEL ++
    PyStr.ofString "'+'\\n');sys.stdout.flush();time.sleep(3600)"

/-- `str(Path(cwd) / ".venv" / "bin" / "python")`: `pathlib` drops empty parts and dots. -/
def pythonPath (cwd : PyStr) : PyStr :=
  let slash := CodePoint.ofChar '/'
  let lead := (cwd.takeWhile (· = slash)).length
  let root := List.replicate (if lead = 2 then 2 else min lead 1) slash
  let parts := (cwd.splitOn slash).filter fun part => part ≠ [] ∧ part ≠ ("." : PyStr)
  root ++ parts.flatMap (· ++ [slash]) ++ PyStr.ofString ".venv/bin/python"

/-- `_probe_python_path`. -/
def probePythonPath (cwd : PyStr) : Code PyStr := do
  if (← perform (.isFile (pythonPath cwd))).flag then return pythonPath cwd
  else throw .fileNotFoundError

/-- `_probe_process`. -/
def probeProcess (cwd : PyStr) : Code (List PyStr) := do
  let python ← probePythonPath cwd
  return [python, "-c", probeScript]

/-- `_insert_probe_job`. -/
def insertProbeJob (cwd : PyStr) : Code (Option Uuid) := do
  match ← handle [.fileNotFoundError] (do return some (← probeProcess cwd)) (return none) with
  | none => return none
  | some process =>
    match buildPayload (← perform .probeServer).text cwd process with
    | .error _ => throw .valueError
    | .ok payload => return some (← perform (.insertJob payload)).id

/-- `_read_ppid`. -/
def readPpid (ppids : List (ℤ × ℤ)) (pid : ℤ) : Option ℤ :=
  (ppids.find? fun entry => entry.1 = pid).map Prod.snd

/-- The loop of `_spawned_by_recovery_worker`, with the turns that it has. -/
def climb (ppids : List (ℤ × ℤ)) (recoveryWorkerPid : ℤ) : ℕ → List ℤ → ℤ → Bool
  | 0, _, _ => false
  | turns + 1, seen, current =>
    if current ∉ seen ∧ 0 < current then
      if current = recoveryWorkerPid then true
      else
        match readPpid ppids current with
        | none => false
        | some parent => climb ppids recoveryWorkerPid turns (current :: seen) parent
    else false

/-- `_spawned_by_recovery_worker`: no process is looked at twice (`climb_enough`). -/
def spawnedByRecoveryWorker (ppids : List (ℤ × ℤ)) (processPid recoveryWorkerPid : ℤ) : Bool :=
  climb ppids recoveryWorkerPid (ppids.length + 1) [] processPid

/-- What `_parse_probe_claim_state` reads. -/
structure ProbeClaim where
  status : PyStr
  owner : Option PyStr
  processPid : Option ℤ

/-- The owner of a claim, or `none` when it is malformed. -/
def parseOwner (members : List (PyStr × Json)) : Option (Option PyStr) :=
  match memberOf members "worker_id" with
  | none => some none
  | some (.str owner) => some (some owner)
  | some _ => none

/-- The process of a claim, or `none` when it is malformed. -/
def parseProcessPid (members : List (PyStr × Json)) : Option (Option ℤ) :=
  match memberOf members "process_pid" with
  | none => some none
  | some (.int pid) => if pid ≤ 0 then none else some (some pid)
  | some _ => none

/-- `_parse_probe_claim_state`. -/
def parseProbeClaimState : Option Json → Option ProbeClaim
  | some (.obj members) =>
    match memberOf members "status" with
    | some (.str status) => do
      let owner ← parseOwner members
      let processPid ← parseProcessPid members
      return { status, owner, processPid }
    | _ => none
  | _ => none

/-- `_read_probe_sentinel`. -/
def readProbeSentinel (id : Uuid) : Code Bool := do
  return match (← perform (.selectTail id)).column with
    | some (some tail) => decide (READINESS_SENTINEL <:+: tail)
    | _ => false

section Waits

variable (id : Uuid)

/-- `_wait_for_probe_claim`, with the turns before its deadline. -/
def waitForProbeClaim (expectedWorkerId : PyStr) (recoveryWorkerPid : ℤ) : ℕ → Code Bool
  | 0 => return false
  | turns + 1 => do
    let _ ← perform .progressCallback
    match (← perform (.selectState id)).json.bind parseProbeClaimState with
    | none => return false
    | some claim =>
      if claim.status = ("running" : PyStr) then
        if claim.owner ≠ some expectedWorkerId then return false
        else
          match claim.processPid with
          | none => waitForProbeClaim expectedWorkerId recoveryWorkerPid turns
          | some processPid =>
            if !spawnedByRecoveryWorker (← perform .readPpids).ppids processPid
                recoveryWorkerPid then return false
            else if !(← readProbeSentinel id) then
              waitForProbeClaim expectedWorkerId recoveryWorkerPid turns
            else return true
      else if claim.status ∈ terminalStatuses then return false
      else waitForProbeClaim expectedWorkerId recoveryWorkerPid turns

/-- `_wait_for_probe_terminal`, with the turns before its deadline. -/
def waitForProbeTerminal : ℕ → Code Unit
  | 0 => return ()
  | turns + 1 => do
    let _ ← perform .progressCallback
    match (← perform (.selectStatus id)).column with
    | none => return ()
    | some status =>
      if isTrueIn status terminalStatuses then return () else waitForProbeTerminal turns

/-- `request_cancel`; no caller looks at the status it returns. -/
def requestCancel (server : PyStr) : Code Unit := do
  if (← perform (.cancelPending id server)).flag then return ()
  else if (← perform (.cancelRunning id server)).flag then return ()
  else
    match (← perform (.selectJob id server)).column with
    | some (some text) => if text ≠ server then throw .valueError else return ()
    | _ => throw .valueError

/-- The `finally` block of the probe. -/
def cleanUp (terminalTurns : ℕ) : Code Unit := do
  handle [.psycopgError] (do requestCancel id (← perform .probeServer).text) (return ())
  waitForProbeTerminal id terminalTurns
  handle [.psycopgError]
    (do let _ ← perform (.deleteJobAndChunks id (← perform .probeServer).text)) (return ())

end Waits

/-- `QueueConsumption`. -/
inductive QueueConsumption where
  | consumed
  | notConsumed
  | indeterminate
  deriving DecidableEq

/-- The arguments of a probe, with the turns of its two waits. -/
structure Plan where
  workerId : PyStr
  cwd : PyStr
  workerPid : ℤ
  claimTurns : ℕ
  terminalTurns : ℕ

section Probe

variable (plan : Plan)

/-- The block of `_probe_queue_consumption` that has a connection. -/
def probeConnected : Code QueueConsumption := do
  match ← insertProbeJob plan.cwd with
  | none => return .indeterminate
  | some id =>
    let consumed ← tryFinally (waitForProbeClaim id plan.workerId plan.workerPid plan.claimTurns)
      (cleanUp id plan.terminalTurns)
    return if consumed then .consumed else .notConsumed

/-- `_probe_queue_consumption`. -/
def probeQueueConsumption : Code QueueConsumption := do
  if !(← handle [.osError, .fileNotFoundError, .valueError]
      (do let _ ← perform .loadDatabaseConfig; return true) (return false)) then
    return .indeterminate
  else if !(← handle [.psycopgError, .osError, .fileNotFoundError]
      (do let _ ← perform .connect; return true) (return false)) then
    return .indeterminate
  else tryFinally (probeConnected plan) (do let _ ← perform .close)

/-- A probe; before it there is no row. -/
def Plan.run (ahead : ℕ → Decision) : World × Except Exc QueueConsumption :=
  (probeQueueConsumption plan).eval sem { row := none, ahead, log := [] }

end Probe

/-! ## The promise -/

/-- Each process is the parent of the one before it. -/
def Descends (ppids : List (ℤ × ℤ)) : ℤ → ℤ → Prop :=
  Relation.ReflTransGen fun pid parent => readPpid ppids pid = some parent

/-- The row runs under a worker, with a process. -/
structure RunsUnder (p : Payload) (workerId : PyStr) (pid : ℤ) : Prop where
  status : status p = some (PyStr.ofString "running")
  worker : arrowText (state p) "worker_id" = some workerId
  process : arrow (state p) "process_pid" = some (.int pid)

/-- What the calls showed of a row that the worker executes. -/
structure Executed (plan : Plan) (log : List Moment) (id : Uuid) (pid : ℤ) : Prop where
  running : ∃ m ∈ log, m.call = .selectState id ∧
    ∃ p, payloadOf m.row id = some p ∧ RunsUnder p plan.workerId pid
  descends : ∃ m ∈ log, m.call = .readPpids ∧ Descends m.decision.ppids pid plan.workerPid
  published : ∃ m ∈ log, m.call = .selectTail id ∧ m.raised = none ∧
    ∃ p tail, payloadOf m.row id = some p ∧
      arrowText (arrow (arrow p "output") "stdout") "tail" = some tail ∧
        READINESS_SENTINEL <:+: tail

/-- The outcome is the promised one. -/
structure Classified (plan : Plan) (result : World × Except Exc QueueConsumption) : Prop where
  returns : ∃ c, result.2 = .ok c
  consumed : result.2 = .ok .consumed →
    ∃ id pid, (∃ m ∈ result.1.log, (∃ payload, m.call = .insertJob payload) ∧
      m.decision.newId = id) ∧ Executed plan result.1.log id pid
  notConsumed : result.2 = .ok .notConsumed →
    ∀ m ∈ result.1.log, m.call.isNeeded = true → m.raised = none
  indeterminate : ∀ m ∈ result.1.log, m.call.isNeeded = true → m.raised ≠ none →
    result.2 = .ok .indeterminate
  /-- Whether or not the row became terminal in time. -/
  cleaned : (∀ m ∈ result.1.log, m.call.isCleanUp = true → m.raised = none) → result.1.row = none

/-- The exceptions of a call that the probe handles. -/
def Call.handled : Call → List Exc
  | loadDatabaseConfig => [.osError, .fileNotFoundError, .valueError]
  | connect => [.psycopgError, .osError, .fileNotFoundError]
  | cancelPending _ _ | cancelRunning _ _ | selectJob _ _
  | deleteJobAndChunks _ _ => [.psycopgError]
  | _ => []

/-- Nothing that comes of the call leaves the probe as an exception: it raises nothing, or what the
probe handles, a server that is read fits into a payload, and a row that is neither pending nor
running is there, on the server that is configured. -/
structure Moment.Harmless (cwd : PyStr) (m : Moment) : Prop where
  raised : ∀ e, m.raised = some e → e ∈ m.call.handled
  absolute : m.call = .probeServer → m.raised = none → cwd.head? = some (CodePoint.ofChar '/')
  found : ∀ id server, m.call = .selectJob id server → m.raised = none →
    (payloadOf m.row id).map serverText = some server

/-! ## Rules -/

/-- All calls were harmless, and those which the verdict needs raised nothing. -/
def Fine (cwd : PyStr) (w : World) : Prop :=
  ∀ m ∈ w.log, m.Harmless cwd ∧ (m.call.isNeeded = true → m.raised = none)

/-- Something left the probe as an exception. -/
def Escaped (cwd : PyStr) (w : World) : Prop := ∃ m ∈ w.log, ¬ m.Harmless cwd

section Rules

variable {cwd : PyStr} {w w' : World} {c : Call} {α β : Type} {Q : α → World → Prop}
  {R : β → World → Prop} {E : Exc → World → Prop}

theorem mem_after (w : World) (c : Call) : w.moment c ∈ (w.after c).log :=
  List.mem_append_right _ (List.mem_singleton_self _)

theorem Fine.after (h : Fine cwd w) (hm : (w.moment c).Harmless cwd)
    (hneeded : c.isNeeded = true → (w.moment c).raised = none) : Fine cwd (w.after c) := by
  intro m hmem
  rcases List.mem_append.1 hmem with hold | hnew
  · exact h m hold
  · obtain rfl := List.mem_singleton.1 hnew
    exact ⟨hm, hneeded⟩

theorem Escaped.mono (h : Escaped cwd w) (hlog : w.log ⊆ w'.log) : Escaped cwd w' := by
  obtain ⟨m, hmem, hm⟩ := h
  exact ⟨m, hlog hmem, hm⟩

theorem harmless_of_none {m : Moment} (hnone : m.raised = none)
    (hserver : m.call = .probeServer → cwd.head? = some (CodePoint.ofChar '/'))
    (hjob : ∀ id server, m.call = .selectJob id server →
      (payloadOf m.row id).map serverText = some server) : m.Harmless cwd where
  raised e he := by
    rw [hnone] at he
    cases he
  absolute hcall _ := hserver hcall
  found id server hcall _ := hjob id server hcall

theorem harmless_of_handled {m : Moment} {e : Exc} (he : m.raised = some e)
    (hhandled : e ∈ m.call.handled) : m.Harmless cwd where
  raised e' he' := by
    rw [he] at he'
    exact Option.some.inj he' ▸ hhandled
  absolute _ hno := by
    rw [he] at hno
    cases hno
  found _ _ _ hno := by
    rw [he] at hno
    cases hno

theorem ends_perform {Q : Value → World → Prop}
    (hraised : ∀ e, (w.moment c).raised = some e → E e (w.after c))
    (hvalue : (w.moment c).raised = none → Q (w.moment c).value (w.after c)) :
    (perform c).Ends sem Q E w := by
  apply Prog.Ends.call
  unfold sem
  cases h : (w.moment c).raised with
  | none => exact hvalue h
  | some e => exact hraised e h

/-- The log only grows. -/
theorem ends_grows (code : Code α) (w : World) :
    code.Ends sem (fun _ w' => w.log ⊆ w'.log) (fun _ w' => w.log ⊆ w'.log) w := by
  induction code generalizing w with
  | ret a => exact List.Subset.refl _
  | raise e => exact List.Subset.refl _
  | call c k ih =>
    have hcall : w.log ⊆ (w.after c).log := List.subset_append_left _ _
    exact (ih _ (w.after c)).mono (fun _ _ => List.Subset.trans hcall)
      fun _ _ => List.Subset.trans hcall

/-- What escaped, escaped. -/
theorem ends_escaped (code : Code α) (h : Escaped cwd w) :
    code.Ends sem (fun _ => Escaped cwd) (fun _ => Escaped cwd) w :=
  (ends_grows code w).mono (fun _ _ => h.mono) fun _ _ => h.mono

/-- The code returns with `Q` and a fine log, or something escapes. -/
abbrev Settles (cwd : PyStr) (code : Code α) (Q : α → World → Prop) (w : World) : Prop :=
  code.Ends sem (fun a w' => Fine cwd w' ∧ Q a w') (fun _ => Escaped cwd) w

theorem Settles.ret {a : α} (h : Fine cwd w) (ha : Q a w) :
    Settles cwd (pure a : Code α) Q w := ⟨h, ha⟩

theorem Settles.bind {code : Code α} {f : α → Code β} (h : Settles cwd code Q w)
    (hf : ∀ a w', Fine cwd w' → w.log ⊆ w'.log → Q a w' → Settles cwd (f a) R w') :
    Settles cwd (code >>= f) R w := by
  refine Prog.Ends.bind ((h.and (ends_grows code w)).mono ?_ fun _ _ he => he.1)
  rintro a w' ⟨⟨hfine, ha⟩, hlog⟩
  exact hf a w' hfine hlog ha

theorem Settles.mono {R : α → World → Prop} {code : Code α} (h : Settles cwd code Q w)
    (hR : ∀ a w', Q a w' → R a w') : Settles cwd code R w :=
  Prog.Ends.mono h (fun a w' ha => ⟨ha.1, hR a w' ha.2⟩) fun _ _ he => he

theorem Settles.grows {code : Code α} (h : Settles cwd code Q w) :
    Settles cwd code (fun a w' => w.log ⊆ w'.log ∧ Q a w') w :=
  (h.and (ends_grows code w)).mono (fun _ _ ⟨⟨hfine, ha⟩, hlog⟩ => ⟨hfine, hlog, ha⟩)
    fun _ _ he => he.1

theorem Settles.ite {p : Prop} [Decidable p] {code code' : Code α}
    (h : p → Settles cwd code Q w) (h' : ¬ p → Settles cwd code' Q w) :
    Settles cwd (if p then code else code') Q w := by
  by_cases hp : p
  · rw [if_pos hp]
    exact h hp
  · rw [if_neg hp]
    exact h' hp

/-- A call of which no exception is handled. -/
theorem settles_perform {Q : Value → World → Prop} (h : Fine cwd w) (hc : c.handled = [])
    (hm : (w.moment c).raised = none → (w.moment c).Harmless cwd)
    (hQ : (w.moment c).raised = none → Q (w.moment c).value (w.after c)) :
    Settles cwd (perform c) Q w := by
  apply ends_perform
  · intro e he
    refine ⟨w.moment c, mem_after w c, fun hharmless => ?_⟩
    have hmem : e ∈ c.handled := hharmless.raised e he
    rw [hc] at hmem
    cases hmem
  · intro hnone
    exact ⟨h.after (hm hnone) fun _ => hnone, hQ hnone⟩

/-- The code returns with `Q`, raises a `psycopg.Error` with `P`, or something escapes. -/
abbrev Attempts (cwd : PyStr) (code : Code α) (Q : α → World → Prop) (P : World → Prop)
    (w : World) : Prop :=
  code.Ends sem (fun a w' => Fine cwd w' ∧ Q a w')
    (fun e w' => if e = .psycopgError then Fine cwd w' ∧ P w' else Escaped cwd w') w

/-- The rule of `with suppress(psycopg.Error)`. -/
theorem settles_suppress {code : Code Unit} {P : World → Prop}
    (h : Attempts cwd code (fun _ => P) P w) :
    Settles cwd (handle [.psycopgError] code (pure ())) (fun _ => P) w := by
  refine Prog.Ends.tryCatch (Prog.Ends.mono h (fun _ _ ha => ha) fun e w' he => ?_)
  by_cases hpsycopg : e = .psycopgError
  · rw [if_pos hpsycopg] at he
    rw [if_pos (List.mem_singleton.2 hpsycopg)]
    exact he
  · rw [if_neg hpsycopg] at he
    rw [if_neg (fun hmem => hpsycopg (List.mem_singleton.1 hmem))]
    exact he

/-- The rule of `try: … finally: …`. -/
theorem settles_tryFinally {body : Code α} {final : Code Unit} {R : α → World → Prop}
    (h : Settles cwd body Q w)
    (hfinal : ∀ a w', Fine cwd w' → w.log ⊆ w'.log → Q a w' →
      Settles cwd final (fun _ => R a) w') :
    Settles cwd (tryFinally body final) R w := by
  refine Prog.Ends.bind (Prog.Ends.tryCatch (Prog.Ends.bind ?_))
  refine Prog.Ends.mono (h.and (ends_grows body w)) ?_ ?_
  · rintro a w' ⟨⟨hfine, ha⟩, hlog⟩
    show Settles cwd (final >>= fun _ => (pure a : Code α)) R w'
    exact Prog.Ends.bind (hfinal a w' hfine hlog ha)
  · rintro e w' ⟨hescaped, -⟩
    show Settles cwd (final >>= fun _ => (throw e : Code α)) R w'
    exact Prog.Ends.bind (ends_escaped final hescaped)

end Rules

/-! ## The row -/

/-- The row is the probe's: under its id, a command of its server. -/
def Owned (id : Uuid) (server : PyStr) (row : ProbeRow) : Prop :=
  ∀ p, p ∈ row → p.1 = id ∧ hasType p.2 "command" = true ∧ serverMatch p.2 server = true

section Row

variable {id : Uuid} {server : PyStr} {w : World} {c : Call} {m : Moment}

theorem mem_mayRaise {e : Exc} (h : m.refused = none) (he : m.raised = some e) :
    e ∈ m.call.mayRaise := by
  rw [Moment.raised, h, Option.or_none] at he
  exact of_decide_eq_true (Option.mem_filter_iff.1 he).2

theorem rowAfter_of_none (h : m.raised = none) : m.rowAfter = m.effect := by
  simp [Moment.rowAfter, h]

theorem row_after_none (hrow : w.row = none) (hc : ∀ payload, c ≠ .insertJob payload) :
    (w.after c).row = none := by
  have hmoment : (w.moment c).row = none := by simp [World.moment, hrow]
  have heffect : (w.moment c).effect = none := by
    unfold Moment.effect
    rw [hmoment]
    cases c with
    | insertJob payload => exact absurd rfl (hc payload)
    | _ => rfl
  show (w.moment c).rowAfter = none
  unfold Moment.rowAfter
  rw [heffect, hmoment]
  split_ifs <;> rfl

theorem Owned.moment (h : Owned id server w.row) (c : Call) : Owned id server (w.moment c).row := by
  intro r hr
  obtain ⟨r', hr', hact⟩ := Option.bind_eq_some_iff.1 hr
  obtain ⟨p, hp, rfl⟩ := Option.map_eq_some_iff.1 hact
  obtain ⟨hid, htype, hserver⟩ := h r' hr'
  have hsame := (w.ahead 0).others.kept _ _ hp
  exact ⟨hid, (hsame.hasType _).trans htype, (hsame.serverMatch _).trans hserver⟩

theorem Owned.updateRow {row : ProbeRow} {u : Update} (hu : KeepsIdentity u)
    (h : Owned id server row) (id' : Uuid) : Owned id server (updateRow u row id') := by
  intro r hr
  obtain ⟨r', hr', rfl⟩ := Option.map_eq_some_iff.1 hr
  obtain ⟨hid, htype, hserver⟩ := h r' hr'
  have hsame := hu.run r'.2
  split_ifs
  · exact ⟨hid, (hsame.hasType _).trans htype, (hsame.serverMatch _).trans hserver⟩
  · exact ⟨hid, htype, hserver⟩

theorem Owned.effect (h : Owned id server m.row) (hc : ∀ payload, m.call ≠ .insertJob payload) :
    Owned id server m.effect := by
  unfold Moment.effect
  cases hcall : m.call with
  | insertJob payload => exact absurd hcall (hc payload)
  | cancelPending id' server' =>
    exact h.updateRow (Change.cancelPending server' m.decision.now).keepsIdentity id'
  | cancelRunning id' server' =>
    exact h.updateRow (Change.cancelRunning server' m.decision.now).keepsIdentity id'
  | deleteJobAndChunks id' server' => exact fun r hr => h r (Option.mem_filter_iff.1 hr).1
  | _ => exact h

/-- Every later call keeps the row the probe's. -/
theorem Owned.after (h : Owned id server w.row) (hc : ∀ payload, c ≠ .insertJob payload) :
    Owned id server (w.after c).row := by
  show Owned id server (w.moment c).rowAfter
  unfold Moment.rowAfter
  split_ifs
  · exact (h.moment c).effect hc
  · exact h.moment c

/-- A deletion that raises nothing leaves no row. -/
theorem Owned.deleted {server' : PyStr} (h : Owned id server m.row)
    (hcall : m.call = .deleteJobAndChunks id server') (hraised : m.raised = none) :
    m.rowAfter = none := by
  have hrefused : m.refused = none := (Option.or_eq_none_iff.1 hraised).2
  rw [Moment.refused, hcall] at hrefused
  rw [rowAfter_of_none hraised, Moment.effect, hcall]
  cases hrow : m.row with
  | none => rfl
  | some r =>
    obtain ⟨k, p⟩ := r
    obtain ⟨hid, htype, hserver⟩ := h (k, p) hrow
    obtain rfl : k = id := hid
    have hpayload : payloadOf m.row k = some p := by simp [payloadOf, hrow]
    have htext : serverText p = server := by
      rw [serverText, isTrueEq_iff.1 (Bool.and_eq_true_iff.1 hserver).2]
      rfl
    obtain rfl : server = server' := by simpa [hpayload, htext] using hrefused
    have hboth : hasType p "command" = true ∧ serverMatch p server = true := ⟨htype, hserver⟩
    simpa using hboth

end Row

/-! ## The code, function by function -/

/-- The calls after the insertion of which nothing is handled and nothing else is asked. -/
def Call.isPlain : Call → Bool
  | progressCallback | selectState _ | readPpids | selectTail _ | selectStatus _ | close => true
  | _ => false

section Functions

variable {cwd server : PyStr} {id : Uuid} {w : World} {c : Call}

theorem settles_plain {Q : Value → World → Prop} (h : Fine cwd w) (hown : Owned id server w.row)
    (hc : c.isPlain = true)
    (hQ : (w.moment c).raised = none → Owned id server (w.after c).row →
      Q (w.moment c).value (w.after c)) : Settles cwd (perform c) Q w := by
  have hhandled : c.handled = [] := by cases c <;> first | rfl | cases hc
  have hinsert : ∀ payload, c ≠ .insertJob payload := fun payload he => by rw [he] at hc; cases hc
  refine settles_perform h hhandled (fun hnone => ?_) fun hnone => hQ hnone (hown.after hinsert)
  refine harmless_of_none hnone (fun hcall => ?_) fun id' server' hcall => ?_
  · rw [show c = .probeServer from hcall] at hc
    cases hc
  · rw [show c = .selectJob id' server' from hcall] at hc
    cases hc

/-- A plain call of which only the row matters. -/
theorem settles_look (h : Fine cwd w) (hown : Owned id server w.row) (hc : c.isPlain = true) :
    Settles cwd (perform c) (fun _ w' => Owned id server w'.row) w :=
  settles_plain h hown hc fun _ hown => hown

/-- A plain call, with what it showed. -/
theorem settles_shown (h : Fine cwd w) (hown : Owned id server w.row) (hc : c.isPlain = true) :
    Settles cwd (perform c) (fun v w' => Owned id server w'.row ∧
      ∃ m ∈ w'.log, m.call = c ∧ m.raised = none ∧ v = m.value) w :=
  settles_plain h hown hc fun hnone hown => ⟨hown, w.moment c, mem_after w c, rfl, hnone, rfl⟩

theorem settles_waitForProbeTerminal (turns : ℕ) (h : Fine cwd w) (hown : Owned id server w.row) :
    Settles cwd (waitForProbeTerminal id turns) (fun _ w' => Owned id server w'.row) w := by
  induction turns generalizing w with
  | zero => exact .ret h hown
  | succ turns ih =>
    refine (settles_look h hown rfl).bind fun _ w₁ h₁ _ hown₁ => ?_
    refine (settles_look h₁ hown₁ rfl).bind fun v w₂ h₂ _ hown₂ => ?_
    cases v.column with
    | none => exact .ret h₂ hown₂
    | some status => exact .ite (fun _ => .ret h₂ hown₂) fun _ => ih h₂ hown₂

/-! ### The claim -/

/-- The entries of processes that were not looked at. -/
def unseen (ppids : List (ℤ × ℤ)) (seen : List ℤ) : List (ℤ × ℤ) :=
  ppids.filter fun entry => entry.1 ∉ seen

theorem unseen_lt {ppids : List (ℤ × ℤ)} {seen : List ℤ} {pid parent : ℤ} (hpid : pid ∉ seen)
    (hparent : readPpid ppids pid = some parent) :
    (unseen ppids (pid :: seen)).length < (unseen ppids seen).length := by
  obtain ⟨entry, hfind, -⟩ := Option.map_eq_some_iff.1 hparent
  have hentry : entry.1 = pid := by simpa using List.find?_some hfind
  have hsplit : unseen ppids (pid :: seen) =
      (unseen ppids seen).filter fun entry => entry.1 ≠ pid := by
    rw [unseen, unseen, List.filter_filter]
    exact List.filter_congr fun e _ => by simp [not_or]
  rw [hsplit, List.length_filter_lt_length_iff_exists]
  refine ⟨entry, List.mem_filter.2 ⟨List.mem_of_find?_eq_some hfind, ?_⟩, ?_⟩
  · simpa [hentry] using hpid
  · simp [hentry]

/-- A climb with a turn for every process that was not looked at ends by itself. -/
theorem climb_enough {ppids : List (ℤ × ℤ)} {workerPid : ℤ} {turns : ℕ} {seen : List ℤ}
    {current : ℤ} (h : (unseen ppids seen).length < turns) :
    climb ppids workerPid (turns + 1) seen current = climb ppids workerPid turns seen current := by
  induction turns generalizing seen current with
  | zero => exact absurd h (Nat.not_lt_zero _)
  | succ turns ih =>
    rw [climb, climb]
    by_cases hgoes : current ∉ seen ∧ 0 < current
    · rw [if_pos hgoes, if_pos hgoes]
      cases hparent : readPpid ppids current with
      | none => rfl
      | some parent =>
        have hless := unseen_lt hgoes.1 hparent
        have hrest : climb ppids workerPid (turns + 1) (current :: seen) parent =
          climb ppids workerPid turns (current :: seen) parent := ih (by omega)
        exact congrArg (if current = workerPid then true else ·) hrest
    · rw [if_neg hgoes, if_neg hgoes]

/-- More turns do not change what `_spawned_by_recovery_worker` finds. -/
theorem spawnedByRecoveryWorker_turns (ppids : List (ℤ × ℤ)) (pid workerPid : ℤ) (more : ℕ) :
    climb ppids workerPid (ppids.length + 1 + more) [] pid =
      spawnedByRecoveryWorker ppids pid workerPid := by
  have hlength : (unseen ppids []).length ≤ ppids.length := List.length_filter_le _ _
  induction more with
  | zero => rfl
  | succ more ih =>
    have hturns : (unseen ppids []).length < ppids.length + 1 + more := by omega
    exact (climb_enough hturns).trans ih

/-- A climb follows parents. -/
theorem descends_of_climb {ppids : List (ℤ × ℤ)} {workerPid : ℤ} {turns : ℕ} {seen : List ℤ}
    {current : ℤ} (h : climb ppids workerPid turns seen current = true) :
    Descends ppids current workerPid := by
  fun_induction climb ppids workerPid turns seen current with
  | case1 => cases h
  | case2 => exact .refl
  | case3 => cases h
  | case4 turns seen current _ _ parent hparent ih => exact .head hparent (ih h)
  | case5 => cases h

theorem parseOwner_eq_some {members : List (PyStr × Json)} {owner : PyStr}
    (h : parseOwner members = some (some owner)) :
    memberOf members "worker_id" = some (.str owner) := by
  unfold parseOwner at h
  split at h
  · cases h
  · cases h
    assumption
  · cases h

theorem parseProcessPid_eq_some {members : List (PyStr × Json)} {pid : ℤ}
    (h : parseProcessPid members = some (some pid)) :
    memberOf members "process_pid" = some (.int pid) := by
  unfold parseProcessPid at h
  split at h
  · cases h
  · split_ifs at h
    cases h
    assumption
  · cases h

/-- A claim is read off the fields of the state. -/
theorem parseProbeClaimState_eq_some {v : Option Json} {claim : ProbeClaim}
    (h : parseProbeClaimState v = some claim) :
    arrowText v "status" = some claim.status ∧
      (∀ owner, claim.owner = some owner → arrowText v "worker_id" = some owner) ∧
        ∀ pid, claim.processPid = some pid → arrow v "process_pid" = some (.int pid) := by
  unfold parseProbeClaimState at h
  split at h
  · rename_i members
    split at h
    · rename_i status hstatus
      obtain ⟨owner, howner, h⟩ := Option.bind_eq_some_iff.1 h
      obtain ⟨processPid, hpid, h⟩ := Option.bind_eq_some_iff.1 h
      cases h
      refine ⟨?_, fun o ho => ?_, fun pid hp => ?_⟩
      · rw [arrowText, arrow, hstatus]
        rfl
      · cases ho
        rw [arrowText, arrow, parseOwner_eq_some howner]
        rfl
      · cases hp
        exact parseProcessPid_eq_some hpid
    · cases h
  · cases h

theorem settles_readProbeSentinel (h : Fine cwd w) (hown : Owned id server w.row) :
    Settles cwd (readProbeSentinel id) (fun found w' => Owned id server w'.row ∧
      (found = true → ∃ m ∈ w'.log, m.call = .selectTail id ∧ m.raised = none ∧
        ∃ p tail, payloadOf m.row id = some p ∧
          arrowText (arrow (arrow p "output") "stdout") "tail" = some tail ∧
            READINESS_SENTINEL <:+: tail)) w := by
  refine (settles_shown h hown rfl).bind fun v w' h' _ ⟨hown', m, hm, hcall, hnone, hv⟩ => ?_
  refine .ret h' ⟨hown', fun hfound => ⟨m, hm, hcall, hnone, ?_⟩⟩
  have hcolumn : v.column = (payloadOf m.row id).map fun p =>
      arrowText (arrow (arrow p "output") "stdout") "tail" := by
    rw [hv, Moment.value, hcall]
  split at hfound
  · rename_i tail htail
    rw [htail] at hcolumn
    obtain ⟨p, hp, hread⟩ := Option.map_eq_some_iff.1 hcolumn.symm
    exact ⟨p, tail, hp, hread, of_decide_eq_true hfound⟩
  · cases hfound

theorem Executed.mono {plan : Plan} {log log' : List Moment} {pid : ℤ}
    (h : Executed plan log id pid) (hlog : log ⊆ log') : Executed plan log' id pid := by
  obtain ⟨⟨m₁, hm₁, h₁⟩, ⟨m₂, hm₂, h₂⟩, m₃, hm₃, h₃⟩ := h
  exact ⟨⟨m₁, hlog hm₁, h₁⟩, ⟨m₂, hlog hm₂, h₂⟩, m₃, hlog hm₃, h₃⟩

/-- A claim is accepted on a row that the worker executes. -/
theorem settles_waitForProbeClaim (plan : Plan) (turns : ℕ) (h : Fine cwd w)
    (hown : Owned id server w.row) :
    Settles cwd (waitForProbeClaim id plan.workerId plan.workerPid turns)
      (fun consumed w' => Owned id server w'.row ∧
        (consumed = true → ∃ pid, Executed plan w'.log id pid)) w := by
  have refuses : ∀ w, Fine cwd w → Owned id server w.row → Settles cwd (pure false : Code Bool)
      (fun consumed w' => Owned id server w'.row ∧
        (consumed = true → ∃ pid, Executed plan w'.log id pid)) w :=
    fun w h hown => .ret h ⟨hown, fun hno => by cases hno⟩
  induction turns generalizing w with
  | zero => exact refuses w h hown
  | succ turns ih =>
    refine (settles_look h hown rfl).bind fun _ w₁ h₁ _ hown₁ => ?_
    refine (settles_shown h₁ hown₁ rfl).bind fun v w₂ h₂ _ ⟨hown₂, m, hm, hcall, _, hv⟩ => ?_
    have hjson : v.json = (payloadOf m.row id).map state := by rw [hv, Moment.value, hcall]
    cases hparse : v.json.bind parseProbeClaimState with
    | none => exact refuses w₂ h₂ hown₂
    | some claim =>
      refine .ite (fun hrunning => .ite (fun _ => refuses w₂ h₂ hown₂) fun howner => ?_)
        fun _ => .ite (fun _ => refuses w₂ h₂ hown₂) fun _ => ih h₂ hown₂
      cases hpid : claim.processPid with
      | none => exact ih h₂ hown₂
      | some pid =>
        refine (settles_shown h₂ hown₂ rfl).bind
          fun ppids w₃ h₃ hlog₃ ⟨hown₃, m', hm', hcall', _, hppids⟩ => ?_
        refine .ite (fun _ => refuses w₃ h₃ hown₃) fun hspawned => ?_
        refine (settles_readProbeSentinel h₃ hown₃).bind
          fun found w₄ h₄ hlog₄ ⟨hown₄, hfound⟩ => ?_
        refine .ite (fun _ => ih h₄ hown₄) fun hsentinel => .ret h₄ ⟨hown₄, fun _ => ⟨pid, ?_⟩⟩
        rw [hjson] at hparse
        obtain ⟨p', hp', hclaim⟩ := Option.bind_eq_some_iff.1 hparse
        obtain ⟨p, hp, rfl⟩ := Option.map_eq_some_iff.1 hp'
        obtain ⟨hstatus, hworker, hprocess⟩ := parseProbeClaimState_eq_some hclaim
        have hruns : RunsUnder p plan.workerId pid :=
          ⟨hstatus.trans (congrArg some hrunning), hworker _ (not_not.1 howner), hprocess pid hpid⟩
        have hchain : ppids.ppids = m'.decision.ppids := by rw [hppids, Moment.value, hcall']
        have hclimbs : spawnedByRecoveryWorker ppids.ppids pid plan.workerPid = true := by
          simpa using hspawned
        have hdescends : Descends m'.decision.ppids pid plan.workerPid :=
          hchain ▸ descends_of_climb hclimbs
        exact ⟨⟨m, hlog₄ (hlog₃ hm), hcall, p, hp, hruns⟩, ⟨m', hlog₄ hm', hcall', hdescends⟩,
          hfound (by simpa using hsentinel)⟩

/-! ### The clean-up -/

/-- No row is left, unless a statement of the clean-up failed. -/
def Cleaned (w : World) : Prop :=
  (∀ m ∈ w.log, m.call.isCleanUp = true → m.raised = none) → w.row = none

theorem raised_probeServer {m : Moment} {e : Exc} (hcall : m.call = .probeServer)
    (h : m.raised = some e) : e = .runtimeError := by
  rw [Moment.raised, Moment.refused, hcall] at h
  rcases Option.or_eq_some_iff.1 h with h | ⟨-, h⟩
  · obtain ⟨-, hmay⟩ := Option.mem_filter_iff.1 h
    simpa [Call.mayRaise] using hmay
  · split_ifs at h
    exact (Option.some.inj h).symm

/-- The server is read, in an attempt. -/
theorem attempts_probeServer {P : World → Prop} (h : Fine cwd w) (hown : Owned id server w.row)
    (hcwd : cwd.head? = some (CodePoint.ofChar '/')) :
    Attempts cwd (perform .probeServer) (fun _ w' => Owned id server w'.row) P w := by
  apply ends_perform
  · intro e he
    rw [if_neg (by rw [raised_probeServer rfl he]; decide)]
    exact ⟨w.moment _, mem_after w _, fun hharmless => by cases hharmless.raised e he⟩
  · intro hnone
    have hharmless : (w.moment .probeServer).Harmless cwd :=
      harmless_of_none hnone (fun _ => hcwd) fun _ _ hcall => by cases hcall
    exact ⟨h.after hharmless fun _ => hnone, hown.after nofun⟩

/-- How a call ends whose `psycopg.Error` is suppressed, when it raises. -/
theorem attempt_raised {p : Prop} {e : Exc} (h : Fine cwd w) (hc : c.handled = [.psycopgError])
    (hneeded : c.isNeeded = false) (he : (w.moment c).raised = some e)
    (hp : e = .psycopgError → p) :
    if e = .psycopgError then Fine cwd (w.after c) ∧ p else Escaped cwd (w.after c) := by
  by_cases hpsycopg : e = .psycopgError
  · rw [if_pos hpsycopg]
    have hhandled : e ∈ c.handled := by
      rw [hc, hpsycopg]
      exact List.mem_singleton_self _
    refine ⟨h.after (harmless_of_handled he hhandled) fun hn => ?_, hp hpsycopg⟩
    rw [hneeded] at hn
    cases hn
  · rw [if_neg hpsycopg]
    refine ⟨w.moment c, mem_after w c, fun hharmless => hpsycopg ?_⟩
    have hmem : e ∈ c.handled := hharmless.raised e he
    rw [hc] at hmem
    exact List.mem_singleton.1 hmem

/-- An update of `request_cancel`. -/
theorem attempts_cancel (h : Fine cwd w) (hown : Owned id server w.row) {asked : PyStr}
    (hc : c = .cancelPending id asked ∨ c = .cancelRunning id asked) :
    Attempts cwd (perform c) (fun _ w' => Owned id server w'.row)
      (fun w' => Owned id server w'.row) w := by
  have hafter : Owned id server (w.after c).row :=
    hown.after fun payload hno => by rcases hc with rfl | rfl <;> cases hno
  have hhandled : c.handled = [.psycopgError] := by rcases hc with rfl | rfl <;> rfl
  have hneeded : c.isNeeded = false := by rcases hc with rfl | rfl <;> rfl
  apply ends_perform
  · exact fun e he => attempt_raised h hhandled hneeded he fun _ => hafter
  · refine fun hnone => ⟨h.after (harmless_of_none hnone (fun hcall => ?_) fun _ _ hcall => ?_)
      fun _ => hnone, hafter⟩
    · rcases hc with rfl | rfl <;> cases hcall
    · rcases hc with rfl | rfl <;> cases hcall

/-- The third transaction of `request_cancel`: a row that is not found escapes as a `ValueError`. -/
theorem attempts_selectJob {asked : PyStr} (h : Fine cwd w) (hown : Owned id server w.row) :
    Attempts cwd
      (do
        match (← perform (.selectJob id asked)).column with
        | some (some text) => if text ≠ asked then throw .valueError else return ()
        | _ => throw .valueError)
      (fun _ w' => Owned id server w'.row) (fun w' => Owned id server w'.row) w := by
  have hafter : Owned id server (w.after (.selectJob id asked)).row := hown.after nofun
  refine Prog.Ends.bind (ends_perform (fun e he => attempt_raised h rfl rfl he fun _ => hafter)
    fun hnone => ?_)
  have hmissing : (payloadOf (w.moment (.selectJob id asked)).row id).map serverText ≠ some asked →
      Escaped cwd (w.after (.selectJob id asked)) := fun hno =>
    ⟨_, mem_after w _, fun hharmless => hno (hharmless.found id asked rfl hnone)⟩
  show Attempts cwd (match (payloadOf (w.moment (.selectJob id asked)).row id).map
      fun p => some (serverText p) with
    | some (some text) => if text ≠ asked then throw .valueError else pure ()
    | _ => throw .valueError) _ _ _
  cases hp : payloadOf (w.moment (.selectJob id asked)).row id with
  | none =>
    rw [hp] at hmissing
    exact hmissing nofun
  | some p =>
    rw [hp] at hmissing
    show Attempts cwd (if serverText p ≠ asked then throw .valueError else pure ()) _ _ _
    by_cases htext : serverText p = asked
    · rw [if_neg (not_not.2 htext)]
      refine ⟨h.after (harmless_of_none hnone nofun fun _ _ hcall => ?_) fun _ => hnone, hafter⟩
      cases hcall
      exact (congrArg (Option.map serverText) hp).trans (congrArg some htext)
    · rw [if_pos htext]
      exact hmissing fun hno => htext (Option.some.inj hno)

theorem attempts_requestCancel {asked : PyStr} (h : Fine cwd w) (hown : Owned id server w.row) :
    Attempts cwd (requestCancel id asked) (fun _ w' => Owned id server w'.row)
      (fun w' => Owned id server w'.row) w := by
  refine Prog.Ends.bind (Prog.Ends.mono (attempts_cancel h hown (.inl rfl))
    (fun pending w₁ ⟨h₁, hown₁⟩ => ?_) fun _ _ he => he)
  cases hpending : pending.flag with
  | true => exact ⟨h₁, hown₁⟩
  | false =>
    refine Prog.Ends.bind (Prog.Ends.mono (attempts_cancel h₁ hown₁ (.inr rfl))
      (fun running w₂ ⟨h₂, hown₂⟩ => ?_) fun _ _ he => he)
    cases hrunning : running.flag with
    | true => exact ⟨h₂, hown₂⟩
    | false => exact attempts_selectJob h₂ hown₂

/-- The row is deleted, in an attempt. -/
theorem attempts_delete {asked : PyStr} (h : Fine cwd w) (hown : Owned id server w.row) :
    Attempts cwd (do let _ ← perform (.deleteJobAndChunks id asked)) (fun _ => Cleaned) Cleaned
      w := by
  refine Prog.Ends.bind (ends_perform (fun e he => attempt_raised h rfl rfl he fun _ hclean => ?_)
    fun hnone => ?_)
  · have hno : (w.moment (.deleteJobAndChunks id asked)).raised = none :=
      hclean _ (mem_after w _) rfl
    rw [he] at hno
    cases hno
  · exact ⟨h.after (harmless_of_none hnone nofun nofun) fun _ => hnone,
      fun _ => (hown.moment _).deleted rfl hnone⟩

theorem settles_cleanUp (turns : ℕ) (h : Fine cwd w) (hown : Owned id server w.row)
    (hcwd : cwd.head? = some (CodePoint.ofChar '/')) :
    Settles cwd (cleanUp id turns) (fun _ => Cleaned) w := by
  have hcancel : Settles cwd
      (handle [.psycopgError] (do requestCancel id (← perform .probeServer).text) (pure ()))
      (fun _ w' => Owned id server w'.row) w :=
    settles_suppress (Prog.Ends.bind (Prog.Ends.mono (attempts_probeServer h hown hcwd)
      (fun _ _ ⟨h', hown'⟩ => attempts_requestCancel h' hown') fun _ _ he => he))
  refine hcancel.bind fun _ w₁ h₁ _ hown₁ => ?_
  refine (settles_waitForProbeTerminal turns h₁ hown₁).bind fun _ w₂ h₂ _ hown₂ => ?_
  exact settles_suppress (Prog.Ends.bind (Prog.Ends.mono (attempts_probeServer h₂ hown₂ hcwd)
    (fun _ _ ⟨h', hown'⟩ => attempts_delete h' hown') fun _ _ he => he))

/-! ### The insertion -/

theorem pythonPath_ne_nil (cwd : PyStr) : pythonPath cwd ≠ [] := by
  unfold pythonPath
  exact List.append_ne_nil_of_right_ne_nil _ (by decide)

/-- What is built is a command of the server. -/
theorem owned_of_buildPayload {asked : PyStr} {process : List PyStr}
    {payload : List (PyStr × Json)} (h : buildPayload asked cwd process = .ok payload) :
    Owned id asked (some (id, some (.obj payload))) := by
  obtain ⟨n, -, -, -, -, -, -, rfl⟩ := buildPayload_eq_ok.1 h
  intro r hr
  cases hr
  refine ⟨rfl, rfl, ?_⟩
  rw [serverMatch, Bool.and_eq_true_iff]
  exact ⟨rfl, isTrueEq_iff.2 rfl⟩

/-- The payload of the probe is built, on an absolute path. -/
theorem buildPayload_probe {asked python : PyStr} (hserver : asked ≠ []) (hpython : python ≠ [])
    (hcwd : cwd.head? = some (CodePoint.ofChar '/')) :
    ∃ payload, buildPayload asked cwd [python, "-c", probeScript] = .ok payload := by
  refine ⟨_, buildPayload_eq_ok.2 ⟨PROTOCOL_VERSION, rfl, by decide, hserver, hcwd, nofun, ?_, rfl⟩⟩
  intro part hpart
  simp only [List.mem_cons, List.not_mem_nil, or_false] at hpart
  rcases hpart with rfl | rfl | rfl
  · exact hpython
  · decide
  · decide

/-- Without an absolute path it is not. -/
theorem buildPayload_relative {asked : PyStr} {process : List PyStr} {payload : List (PyStr × Json)}
    (hcwd : cwd.head? ≠ some (CodePoint.ofChar '/')) :
    buildPayload asked cwd process ≠ .ok payload := by
  intro h
  obtain ⟨n, -, -, -, hhead, -⟩ := buildPayload_eq_ok.1 h
  exact hcwd hhead

/-- What an insertion leaves: no row, or the row of the job, and then an absolute path. -/
def Inserted (cwd : PyStr) (w : World) : Option Uuid → Prop
  | none => w.row = none
  | some id => cwd.head? = some (CodePoint.ofChar '/') ∧ (∃ server, Owned id server w.row) ∧
      ∃ m ∈ w.log, (∃ payload, m.call = .insertJob payload) ∧ m.decision.newId = id

/-- The interpreter is looked up. -/
theorem settles_probeProcess (h : Fine cwd w) (hrow : w.row = none) :
    Settles cwd (handle [.fileNotFoundError] (do return some (← probeProcess cwd)) (return none))
      (fun process w' => w'.row = none ∧
        (process = none ∨ process = some [pythonPath cwd, "-c", probeScript])) w := by
  have hafter : (w.after (.isFile (pythonPath cwd))).row = none := row_after_none hrow nofun
  have hnone : (w.moment (.isFile (pythonPath cwd))).raised = none := by
    simp [Moment.raised, World.moment, Call.mayRaise, Moment.refused]
  have hfine : Fine cwd (w.after (.isFile (pythonPath cwd))) :=
    h.after (harmless_of_none hnone nofun nofun) fun _ => hnone
  refine Prog.Ends.tryCatch (Prog.Ends.bind (Prog.Ends.bind (Prog.Ends.bind (ends_perform
    (fun e he => ?_) fun _ => ?_))))
  · rw [hnone] at he
    cases he
  · cases hflag : (w.moment (.isFile (pythonPath cwd))).value.flag with
    | true =>
      rw [if_pos rfl]
      exact ⟨hfine, hafter, .inr rfl⟩
    | false =>
      rw [if_neg Bool.false_ne_true]
      exact ⟨hfine, hafter, .inl rfl⟩

/-- A server that is read is not empty. -/
theorem server_ne_nil {m : Moment} (hcall : m.call = .probeServer) (hnone : m.raised = none) :
    m.value.text ≠ [] := by
  have hrefused : m.refused = none := (Option.or_eq_none_iff.1 hnone).2
  rw [Moment.refused, hcall] at hrefused
  rw [Moment.value, hcall]
  intro hempty
  change m.decision.server = [] at hempty
  simp [hempty] at hrefused

theorem settles_insertProbeJob (h : Fine cwd w) (hrow : w.row = none) :
    Settles cwd (insertProbeJob cwd) (fun found w' => Inserted cwd w' found) w := by
  refine (settles_probeProcess h hrow).bind fun process w₁ h₁ _ ⟨hrow₁, hprocess⟩ => ?_
  rcases hprocess with rfl | rfl
  · exact .ret h₁ hrow₁
  by_cases hcwd : cwd.head? = some (CodePoint.ofChar '/')
  · have hserver : Settles cwd (perform .probeServer)
        (fun v w' => v.text ≠ [] ∧ w'.row = none) w₁ :=
      settles_perform h₁ rfl (fun hnone => harmless_of_none hnone (fun _ => hcwd) nofun)
        fun hnone => ⟨server_ne_nil rfl hnone, row_after_none hrow₁ nofun⟩
    refine hserver.bind fun v w₂ h₂ _ ⟨htext, _⟩ => ?_
    obtain ⟨payload, hpayload⟩ := buildPayload_probe htext (pythonPath_ne_nil cwd) hcwd
    have hinsert : Settles cwd (perform (.insertJob payload))
        (fun v w' => Inserted cwd w' (some v.id)) w₂ := by
      refine settles_perform h₂ rfl (fun hnone => harmless_of_none hnone nofun nofun)
        fun hnone => ?_
      refine ⟨hcwd, ⟨v.text, ?_⟩, _, mem_after _ _, ⟨payload, rfl⟩, rfl⟩
      show Owned _ _ (w₂.moment (.insertJob payload)).rowAfter
      rw [rowAfter_of_none hnone]
      exact owned_of_buildPayload hpayload
    show Settles cwd (match buildPayload v.text cwd [pythonPath cwd, "-c", probeScript] with
      | .error _ => throw .valueError
      | .ok payload => do return some (← perform (.insertJob payload)).id) _ _
    rw [hpayload]
    exact hinsert.bind fun _ _ h₃ _ hinserted => .ret h₃ hinserted
  · -- Without an absolute path `build_payload` raises.
    have hescaped : Escaped cwd (w₁.after .probeServer) := by
      refine ⟨_, mem_after w₁ .probeServer, fun hharmless => ?_⟩
      cases hraised : (w₁.moment .probeServer).raised with
      | none => exact hcwd (hharmless.absolute rfl hraised)
      | some e => cases hharmless.raised e hraised
    refine Prog.Ends.bind (ends_perform (fun _ _ => hescaped) fun _ => ?_)
    show Settles cwd (match buildPayload _ cwd [pythonPath cwd, "-c", probeScript] with
      | .error _ => throw .valueError
      | .ok payload => do return some (← perform (.insertJob payload)).id) _ _
    split
    · exact hescaped
    · rename_i payload hpayload
      exact absurd hpayload (buildPayload_relative hcwd)

end Functions

/-! ## The probe -/

section Probe

variable {plan : Plan} {w : World} {c : Call}

/-- What is promised of a consumed probe. -/
def Proven (plan : Plan) (log : List Moment) : Prop :=
  ∃ id pid, (∃ m ∈ log, (∃ payload, m.call = .insertJob payload) ∧ m.decision.newId = id) ∧
    Executed plan log id pid

theorem settles_probeConnected (h : Fine plan.cwd w) (hrow : w.row = none) :
    Settles plan.cwd (probeConnected plan)
      (fun c w' => (c = .consumed → Proven plan w'.log) ∧ Cleaned w') w := by
  refine (settles_insertProbeJob h hrow).bind fun found w₁ h₁ _ hfound => ?_
  cases found with
  | none => exact .ret h₁ ⟨nofun, fun _ => hfound⟩
  | some id =>
    obtain ⟨hcwd, ⟨server, hown⟩, m, hm, hinsert⟩ := hfound
    have hprobe : Settles plan.cwd
        (tryFinally (waitForProbeClaim id plan.workerId plan.workerPid plan.claimTurns)
          (cleanUp id plan.terminalTurns))
        (fun consumed w' => (consumed = true → Proven plan w'.log) ∧ Cleaned w') w₁ := by
      refine settles_tryFinally (settles_waitForProbeClaim plan _ h₁ hown)
        fun consumed w₂ h₂ hlog ⟨hown₂, hexecuted⟩ => ?_
      refine (settles_cleanUp _ h₂ hown₂ hcwd).grows.mono fun _ w₃ ⟨hlog₃, hcleaned⟩ => ?_
      refine ⟨fun htrue => ?_, hcleaned⟩
      obtain ⟨pid, hpid⟩ := hexecuted htrue
      exact ⟨id, pid, ⟨m, hlog₃ (hlog hm), hinsert⟩, hpid.mono hlog₃⟩
    refine hprobe.bind fun consumed w₂ h₂ _ ⟨hproven, hcleaned⟩ => ?_
    cases consumed with
    | true => exact .ret h₂ ⟨fun _ => hproven rfl, hcleaned⟩
    | false => exact .ret h₂ ⟨nofun, hcleaned⟩

/-- The connection is closed whatever the block did. -/
theorem settles_closing (h : Fine plan.cwd w) (hrow : w.row = none) :
    Settles plan.cwd (tryFinally (probeConnected plan) (do let _ ← perform .close))
      (fun c w' => (c = .consumed → Proven plan w'.log) ∧ Cleaned w') w := by
  refine settles_tryFinally (settles_probeConnected h hrow)
    fun consumption w₁ h₁ _ ⟨hproven, hcleaned⟩ => ?_
  have hclose : Settles plan.cwd (perform .close) (fun _ w' => w₁.row = none → w'.row = none) w₁ :=
    settles_perform h₁ rfl (fun hnone => harmless_of_none hnone nofun nofun)
      fun _ hrow => row_after_none hrow nofun
  refine hclose.grows.bind fun _ w₂ h₂ _ ⟨hlog, hrow⟩ => .ret h₂ ⟨fun hc => ?_, fun hclean => ?_⟩
  · obtain ⟨id, pid, ⟨m, hm, hinsert⟩, hexecuted⟩ := hproven hc
    exact ⟨id, pid, ⟨m, hlog hm, hinsert⟩, hexecuted.mono hlog⟩
  · exact hrow (hcleaned fun m hm => hclean m (hlog hm))

/-- A call that opens the probe: each of its exceptions is handled. -/
theorem ends_opening (h : Fine plan.cwd w) (hrow : w.row = none)
    (hc : c = .loadDatabaseConfig ∨ c = .connect) :
    (handle c.handled (do let _ ← perform c; return true) (return false)).Ends sem
      (fun opened w' => (∀ m ∈ w'.log, m.Harmless plan.cwd) ∧ w'.row = none ∧
        (opened = true → Fine plan.cwd w'))
      (fun _ => Escaped plan.cwd) w := by
  have hafter : (w.after c).row = none :=
    row_after_none hrow fun payload hno => by rcases hc with rfl | rfl <;> cases hno
  refine Prog.Ends.tryCatch (Prog.Ends.bind (ends_perform (fun e he => ?_) fun hnone => ?_))
  · have hhandled : e ∈ c.handled := by
      have hrefused : (w.moment c).refused = none := by rcases hc with rfl | rfl <;> rfl
      have hmay : e ∈ c.mayRaise := mem_mayRaise hrefused he
      revert hmay
      rcases hc with rfl | rfl <;> cases e <;> decide
    rw [if_pos hhandled]
    refine ⟨fun m hm => ?_, hafter, nofun⟩
    rcases List.mem_append.1 hm with hold | hnew
    · exact (h m hold).1
    · obtain rfl := List.mem_singleton.1 hnew
      exact harmless_of_handled he hhandled
  · have hfine : Fine plan.cwd (w.after c) := by
      refine h.after (harmless_of_none hnone (fun hcall => ?_) fun _ _ hcall => ?_) fun _ => hnone
      · rcases hc with rfl | rfl <;> cases hcall
      · rcases hc with rfl | rfl <;> cases hcall
    exact ⟨fun m hm => (hfine m hm).1, hafter, fun _ => hfine⟩

/-- **How the probe ends.** It returns after harmless calls only, or something escapes. -/
theorem probe_ends (hlog : w.log = []) (hrow : w.row = none) :
    (probeQueueConsumption plan).Ends sem
      (fun c w' => (∀ m ∈ w'.log, m.Harmless plan.cwd) ∧ (c = .indeterminate ∨ Fine plan.cwd w') ∧
        (c = .consumed → Proven plan w'.log) ∧ Cleaned w')
      (fun _ => Escaped plan.cwd) w := by
  have hstart : Fine plan.cwd w := fun m hm => by rw [hlog] at hm; cases hm
  refine Prog.Ends.bind ((ends_opening hstart hrow (.inl rfl)).mono
    (fun loaded w₁ ⟨hharmless₁, hrow₁, hfine₁⟩ => ?_) fun _ _ he => he)
  cases loaded with
  | false => exact ⟨hharmless₁, .inl rfl, nofun, fun _ => hrow₁⟩
  | true =>
    refine Prog.Ends.bind ((ends_opening (hfine₁ rfl) hrow₁ (.inr rfl)).mono
      (fun connected w₂ ⟨hharmless₂, hrow₂, hfine₂⟩ => ?_) fun _ _ he => he)
    cases connected with
    | false => exact ⟨hharmless₂, .inl rfl, nofun, fun _ => hrow₂⟩
    | true =>
      refine Prog.Ends.mono (settles_closing (hfine₂ rfl) hrow₂) ?_ fun _ _ he => he
      rintro c w₃ ⟨hfine₃, hproven, hcleaned⟩
      exact ⟨fun m hm => (hfine₃ m hm).1, .inr hfine₃, hproven, hcleaned⟩

end Probe

/-- **Exactly when the outcome is the promised one**: nothing that comes of a call leaves the probe
as an exception. -/
theorem classified_iff (plan : Plan) (ahead : ℕ → Decision) :
    Classified plan (plan.run ahead) ↔ ∀ m ∈ (plan.run ahead).1.log, m.Harmless plan.cwd := by
  have hends := @probe_ends plan ⟨none, ahead, []⟩ rfl rfl
  constructor
  · intro hclassified
    obtain ⟨c, hc⟩ := hclassified.returns
    exact (hends.returned hc).1
  · intro hharmless
    cases hresult : (plan.run ahead).2 with
    | error e =>
      obtain ⟨m, hm, hescaped⟩ := hends.raised hresult
      exact absurd (hharmless m hm) hescaped
    | ok c =>
      obtain ⟨-, hfine, hproven, hcleaned⟩ := hends.returned hresult
      refine ⟨⟨c, hresult⟩, fun hc => hproven ?_, fun hc m hm hneeded => ?_,
        fun m hm hneeded hraised => ?_, hcleaned⟩
      · exact Except.ok.inj (hresult.symm.trans hc)
      · obtain rfl := Except.ok.inj (hresult.symm.trans hc)
        exact (hfine.resolve_left nofun m hm).2 hneeded
      · rcases hfine with rfl | hfine
        · exact hresult
        · exact absurd ((hfine m hm).2 hneeded) hraised

/-! ## A database error that reaches the caller -/

/-- A probe of a worker, in an absolute directory. -/
def plainProbe : Plan where
  workerId := "worker"
  cwd := "/srv/lubko"
  workerPid := 100
  claimTurns := 1
  terminalTurns := 1

/-- The worker of a run. -/
def someWorker : WorkerIdentity where
  server := "alpha"
  workerId := "worker"
  workerIncarnation := "first"

/-- The worker claims the row, spawns process 200, publishes the sentinel and finishes. -/
def workerServes : ℕ → Decision
  | 3 | 9 | 14 => { server := "alpha" }
  | 5 =>
    { others := .update (claimJobs someWorker [] [])
        (Change.claim someWorker [] []).keepsIdentity }
  | 6 =>
    { others := .update (persistProcess someWorker 200 200 1 [])
        (Change.persist someWorker 200 200 1 []).keepsIdentity }
  | 7 => { ppids := [(200, 100)] }
  | 8 =>
    { others := .update (outputUpdate "alpha" [] ⟨READINESS_SENTINEL, 0, 24, none⟩ ⟨[], 0, 0, none⟩)
        (outputUpdate_keepsIdentity _ _ _ _) }
  | 13 =>
    { others := .update (finishJob "alpha" ⟨.cancelled, -15, [], [], none⟩ [])
        (Change.finish "alpha" _ []).keepsIdentity }
  | _ => {}

example : (plainProbe.run workerServes).2 = .ok .consumed ∧
    (plainProbe.run workerServes).1.row = none := by
  constructor <;> rfl

/-- The row is deleted before the first look at it. -/
def rowVanishes : ℕ → Decision
  | 3 | 7 => { server := "alpha" }
  | 5 => { others := .vanish }
  | _ => {}

example : (plainProbe.run rowVanishes).2 = .error .valueError := rfl

/-- The `INSERT` fails; everything before it succeeds. -/
def insertFails : ℕ → Decision
  | 3 => { server := "alpha" }
  | 4 => { raised := some .psycopgError }
  | _ => {}

/-- **The failed insertion is raised**, not reported as indeterminate. -/
theorem insert_error_escapes :
    (plainProbe.run insertFails).2 = .error .psycopgError ∧
      ¬ Classified plainProbe (plainProbe.run insertFails) := by
  have hraised : (plainProbe.run insertFails).2 = .error .psycopgError := by
    rfl
  refine ⟨hraised, fun h => ?_⟩
  obtain ⟨c, hc⟩ := h.returns
  rw [hraised] at hc
  cases hc

end Lubko.Lifecycle.Probe
