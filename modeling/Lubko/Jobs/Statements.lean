import Lubko.Lib.Jsonb
import Lubko.Output.Plan

/-!
# The statements on the jobs table

The conditions and `jsonb_set` chains of every statement the worker and its clients run on rows of
the jobs table. A payload is the value of `_safe_payload_sql`: `NULL` when the text is not JSON. The
texts that depend on the clock (now, the lease end, the retention cutoff) are parameters, and the
`id` of a row is compared by the caller.
-/

namespace Lubko.Jobs

open Lubko.Lib Lubko.Output

/-- `(CASE WHEN payload IS JSON THEN payload END)::jsonb`. -/
abbrev Payload := Option Json

/-! ## Conditions -/

/-- `payload->>'type' = t`. -/
def hasType (p : Payload) (t : PyStr) : Bool := isTrueEq (arrowText p "type") t

/-- `SERVER_MATCH_SQL`. -/
def serverMatch (p : Payload) (server : PyStr) : Bool :=
  jsonbTypeof (arrow p "server") = some .string && isTrueEq (arrowText p "server") server

/-- `payload->'state'`. -/
def state (p : Payload) : Option Json := arrow p "state"

/-- `payload->'state'->>'status'`. -/
def status (p : Payload) : Option PyStr := arrowText (state p) "status"

/-- `payload->'state'->'gc'`. -/
def gcFlag (p : Payload) : Option Json := arrow (state p) "gc"

/-- `('succeeded', 'failed', 'cancelled')`. -/
def terminalStatuses : List PyStr := ["succeeded", "failed", "cancelled"]

/-- The value of a string of decimal digits. -/
def decimal? (s : PyStr) : Option ℕ :=
  s.foldl (fun n c => n.bind fun n =>
    if 0x30 ≤ c.val ∧ c.val ≤ 0x39 then some (n * 10 + (c.val - 0x30)) else none) (some 0)

/-- The days of a month. -/
def daysIn (year month : ℕ) : ℕ :=
  if month ∈ [4, 6, 9, 11] then 30
  else if month = 2 then
    if year % 4 = 0 ∧ (year % 100 ≠ 0 ∨ year % 400 = 0) then 29 else 28
  else 31

/-- `GC_FINISHED_AT_PATTERN`: a canonical UTC timestamp with microseconds, on a day that exists. -/
def canonicalTimestamp (s : PyStr) : Bool :=
  s.length = 27 &&
    [4, 7, 10, 13, 16, 19, 26].map (fun i => s[i]?) =
      ("--T::.Z" : PyStr).map some &&
    match decimal? (s.take 4), decimal? ((s.drop 5).take 2), decimal? ((s.drop 8).take 2),
      decimal? ((s.drop 11).take 2), decimal? ((s.drop 14).take 2), decimal? ((s.drop 17).take 2),
      decimal? ((s.drop 20).take 6) with
    | some year, some month, some day, some hour, some minute, some second, some _ =>
      1 ≤ month && month ≤ 12 && 1 ≤ day && day ≤ daysIn year month && hour ≤ 23 && minute ≤ 59 &&
        second ≤ 59
    | _, _, _, _, _, _, _ => false

/-- A state field that is a canonical timestamp of a year from 1 on. -/
def hasTimestamp (p : Payload) (field : PyStr) : Bool :=
  jsonbTypeof (arrow (state p) field) = some .string &&
    (arrowText (state p) field).any fun t => canonicalTimestamp t && t.take 4 ≠ ("0000" : PyStr)

/-- A state field that is a canonical timestamp before a given one. -/
def timestampBefore (p : Payload) (field limit : PyStr) : Bool :=
  hasTimestamp p field &&
    (arrowText (state p) field).any fun t => t ≠ limit && PyStr.before t limit

/-- `CANCEL_REQUESTED_SQL`. -/
def cancelRequested (p : Payload) : Bool := hasTimestamp p "cancel_requested_at"

/-- `CURRENT_PROTOCOL_VERSION`, as text. -/
def CURRENT_PROTOCOL_VERSION : PyStr := "4"

/-- `claim_version_predicate`. -/
def claimVersion (p : Payload) : Bool :=
  jsonbTypeof (arrow p "v") = some .number && isTrueEq (arrowText p "v") CURRENT_PROTOCOL_VERSION

/-- `text ~ '^-?[0-9]+$'`. -/
def isIntegerText (t : PyStr) : Bool :=
  let digits := if t.head? = some 0x2d then t.tail else t
  digits ≠ [] && (decimal? digits).isSome

/-- The version condition of `_REAP_UNSUPPORTED_TEMPLATE`: a lower version, or none that is an
integer. -/
def retiredVersion (p : Payload) : Bool :=
  if jsonbTypeof (arrow p "v") = some .number && (arrowText p "v").any isIntegerText then
    (arrowText p "v").any fun v =>
      v.head? = some 0x2d || v.length < CURRENT_PROTOCOL_VERSION.length ||
        (v.length = CURRENT_PROTOCOL_VERSION.length && v ≠ CURRENT_PROTOCOL_VERSION &&
          PyStr.before v CURRENT_PROTOCOL_VERSION)
  else true

/-! ## Updates -/

/-- An `UPDATE`: its condition and its `jsonb_set` chain, as `(path, value)` pairs. -/
structure Update where
  guard : Payload → Bool
  chain : Payload → List (List PyStr × Json)

/-- The payload after the statement; `::text` of a value is read back as the value. -/
def Update.run (u : Update) (p : Payload) : Payload :=
  if u.guard p then p.map fun v => jsonbSetChain v (u.chain p) else p

/-- The path `{state,field}`. -/
def statePath (field : String) : List PyStr := ["state", field]

/-- `jsonb_build_object`. -/
def buildObject (members : List (String × Json)) : Json :=
  .obj (members.map fun kv => ((kv.1 : PyStr), kv.2))

/-- `COALESCE(text, default)`. -/
def coalesce (t : Option PyStr) (default : PyStr) : PyStr := t.getD default

/-- SQL text or `NULL` as `to_jsonb` inside `jsonb_build_object` gives it. -/
def toJsonb (t : Option PyStr) : Json := (t.map Json.str).getD .null

/-- The worker identity a claim records and later writes check. -/
structure WorkerIdentity where
  server : PyStr
  workerId : PyStr
  workerIncarnation : PyStr

/-- `claim_jobs`. -/
def claimJobs (worker : WorkerIdentity) (now leaseExpiresAt : PyStr) : Update where
  guard p := hasType p "command" && claimVersion p && serverMatch p worker.server &&
    isTrueEq (status p) "pending"
  chain p :=
    [(statePath "status", .str "running"),
      (statePath "created_at", .str (coalesce (arrowText (state p) "created_at") now)),
      (statePath "started_at", .str now), (statePath "worker_id", .str worker.workerId),
      (statePath "worker_incarnation", .str worker.workerIncarnation),
      (statePath "lease_expires_at", .str leaseExpiresAt), (statePath "updated_at", .str now)]

/-- The first statement of `request_cancel`. -/
def cancelPending (server now : PyStr) : Update where
  guard p := serverMatch p server && isTrueEq (status p) "pending"
  chain _ :=
    [(statePath "status", .str "cancelled"), (statePath "cancel_requested_at", .str now),
      (statePath "finished_at", .str now), (statePath "updated_at", .str now),
      (["result"], buildObject [("stdout", .str []), ("stderr", .str []), ("exit_code", .null),
        ("cancellation_note", .str "cancelled before the worker claimed the job")])]

/-- The second statement of `request_cancel`. -/
def cancelRunning (server now : PyStr) : Update where
  guard p := serverMatch p server && isTrueEq (status p) "running"
  chain _ := [(statePath "cancel_requested_at", .str now), (statePath "updated_at", .str now)]

/-- The row is a running command of this very worker. -/
def ownedRunning (worker : WorkerIdentity) (p : Payload) : Bool :=
  serverMatch p worker.server && isTrueEq (status p) "running" &&
    isTrueEq (arrowText (state p) "worker_id") worker.workerId &&
    isTrueEq (arrowText (state p) "worker_incarnation") worker.workerIncarnation

/-- `bulk_refresh_leases`. -/
def refreshLeases (worker : WorkerIdentity) (now leaseExpiresAt : PyStr) : Update where
  guard p := hasType p "command" && ownedRunning worker p
  chain _ := [(statePath "lease_expires_at", .str leaseExpiresAt), (statePath "updated_at", .str now)]

/-- `_recovery_result_expression`. -/
def recoveryResult (p : Payload) : Json :=
  buildObject [("stdout", .str []), ("stderr", .str []), ("exit_code", .null),
    ("recovery_note", .str
      (PyStr.ofString "lease expired at " ++
        coalesce (arrowText (state p) "lease_expires_at") "<none>" ++
        PyStr.ofString "; owning server " ++ coalesce (arrowText p "server") "<unknown>" ++
        PyStr.ofString "; owning worker " ++
        coalesce (arrowText (state p) "worker_id") "<unknown>" ++
        PyStr.ofString " (incarnation " ++
        coalesce (arrowText (state p) "worker_incarnation") "<unknown>" ++
        PyStr.ofString ") stopped heartbeating; job marked failed rather than re-executed"))]

/-- `recover_stale_jobs`. -/
def recoverStale (server now : PyStr) : Update where
  guard p := hasType p "command" && serverMatch p server && isTrueEq (status p) "running" &&
    timestampBefore p "lease_expires_at" now
  chain p :=
    [(statePath "status", .str "failed"), (statePath "finished_at", .str now),
      (statePath "recovered_at", .str now), (statePath "updated_at", .str now),
      (["result"], recoveryResult p)]

/-- `_persist_process`. -/
def persistProcess (worker : WorkerIdentity) (pid pgid startTicks : ℤ) (now : PyStr) : Update where
  guard p := ownedRunning worker p
  chain _ :=
    [(statePath "process_pid", .int pid), (statePath "process_pgid", .int pgid),
      (statePath "process_start_time_ticks", .int startTicks), (statePath "updated_at", .str now)]

/-- The root row `publish_output` retains. -/
def publishable (server : PyStr) (p : Payload) : Bool :=
  hasType p "command" && serverMatch p server &&
    isDistinctFrom (arrowText (state p) "gc") "true"

/-- The mapping of `build_output_window_payload` as JSON. -/
def windowPayload (window : OutputWindow) : Json :=
  buildObject [("tail", .str window.tail), ("start", .int window.start), ("end", .int window.stop),
    ("previous", toJsonb (window.previous.map Uuid.text))]

/-- The mapping of `build_output_chunk_payload` as JSON. -/
def chunkPayload (chunk : OutputChunk) : Json :=
  buildObject [("v", .int chunk.version), ("type", .str "output_chunk"),
    ("server", .str chunk.server), ("thread", .str chunk.thread.text),
    ("stream", .str (match chunk.stream with | .stdout => "stdout" | .stderr => "stderr")),
    ("sequence", .int chunk.sequence), ("start", .int chunk.start), ("end", .int chunk.stop),
    ("value", .str chunk.value), ("previous", toJsonb (chunk.previous.map Uuid.text))]

/-- `_output_update_sql`, with the two windows of the `output` section. -/
def outputUpdate (server now : PyStr) (stdout stderr : OutputWindow) : Update where
  guard p := hasType p "command" && serverMatch p server
  chain _ :=
    [(["output"], buildObject [("stdout", windowPayload stdout), ("stderr", windowPayload stderr)]),
      (statePath "updated_at", .str now)]

/-- The statuses a `JobResult` carries. -/
inductive FinalStatus where
  | succeeded | failed | cancelled

/-- The status as text. -/
def FinalStatus.text : FinalStatus → PyStr
  | succeeded => "succeeded"
  | failed => "failed"
  | cancelled => "cancelled"

/-- `JobResult`. -/
structure JobResult where
  status : FinalStatus
  exitCode : ℤ
  stdout : PyStr
  stderr : PyStr
  cancellationNote : Option PyStr

/-- `finish_job`: an accepted cancellation wins over the result's own status. -/
def finishJob (server : PyStr) (result : JobResult) (now : PyStr) : Update where
  guard p := hasType p "command" && serverMatch p server && isTrueEq (status p) "running"
  chain p :=
    [(statePath "status", .str (if cancelRequested p then "cancelled" else result.status.text)),
      (statePath "finished_at", .str now), (statePath "updated_at", .str now),
      (["result"], buildObject [("stdout", .str result.stdout), ("stderr", .str result.stderr),
        ("exit_code", .int result.exitCode),
        ("cancellation_note",
          if cancelRequested p then
            .str (coalesce result.cancellationNote "cancelled by request")
          else toJsonb result.cancellationNote)])]

/-- The update `_quarantine_job` and `fail_unsupported_job` share, with the field their reason goes
into. -/
def failClosed (field : String) (server reason now : PyStr) : Update where
  guard p := hasType p "command" && serverMatch p server && isTrueNotIn (status p) terminalStatuses
  chain _ :=
    [(statePath "status", .str "failed"), (statePath "finished_at", .str now),
      (statePath "updated_at", .str now), (statePath field, .str reason)]

/-- `_quarantine_job`. -/
def quarantineJob : PyStr → PyStr → PyStr → Update := failClosed "quarantine_reason"

/-- `fail_unsupported_job`. -/
def failUnsupportedJob : PyStr → PyStr → PyStr → Update :=
  failClosed "unsupported_protocol_version_reason"

/-- `int(text)`, on the text of a number: a `ValueError` unless it is an integer's, of at most 4300
digits. -/
def pyInt? (t : PyStr) : Option ℤ :=
  let neg := t.head? = some 0x2d
  let digits := if neg then t.tail else t
  if digits = [] ∨ 4300 < digits.length then none
  else (decimal? digits).map fun n => if neg then -(n : ℤ) else n

/-- `parsed_version` of `reap_unsupported_jobs`. -/
def parsedVersion (p : Payload) : Option ℤ :=
  if jsonbTypeof (arrow p "v") = some .number then (arrowText p "v").bind pyInt? else none

/-- The diagnostic `reap_unsupported_jobs` records. -/
def reapDiagnostic (p : Payload) : PyStr :=
  match parsedVersion p with
  | some _ =>
    PyStr.ofString "protocol version " ++ coalesce (arrowText p "v") [] ++
      PyStr.ofString (" is below the retired current version 4; " ++ "the job is failed closed")
  | none =>
    ("payload 'v' must be an integer protocol version; " ++
      "the malformed pending job is failed closed" : String)

/-- The rows `reap_unsupported_jobs` selects. -/
def reapable (server : PyStr) (p : Payload) : Bool :=
  hasType p "command" && serverMatch p server && isTrueEq (status p) "pending" && retiredVersion p

/-! ## Collection -/

/-- A terminal command row of the server that finished before the cutoff. -/
def collectable (server cutoff : PyStr) (p : Payload) : Bool :=
  hasType p "command" && serverMatch p server && isTrueIn (status p) terminalStatuses &&
    timestampBefore p "finished_at" cutoff

/-- Phase 1 of `collect_transport`. -/
def markGc (server cutoff : PyStr) : Update where
  guard p := collectable server cutoff p &&
    ((gcFlag p).isNone || isJsonbNull (gcFlag p) || isJsonbFalse (gcFlag p))
  chain _ := [(statePath "gc", .bool true)]

/-- The root phase 2 of `collect_transport` selects. -/
def drainable (server cutoff : PyStr) (p : Payload) : Bool :=
  collectable server cutoff p && isJsonbTrue (gcFlag p)

/-- A chunk of the server that names the root, as phase 2 and `delete_job_and_chunks` match it. -/
def ownedChunk (server : PyStr) (root : Uuid) (p : Payload) : Bool :=
  hasType p "output_chunk" && serverMatch p server &&
    isTrueEq ((arrowText p "thread").map PyStr.lower) root.text.lower

/-- The command row a chunk names, as phase 3 joins it: the `thread` read as a UUID. -/
def isRootOf (id : Uuid) (root chunk : Payload) : Bool :=
  isTrueEq ((arrowText chunk "thread").map PyStr.lower) id.text && hasType root "command"

theorem ownedChunk_type {server : PyStr} {id : Uuid} {p : Payload}
    (h : ownedChunk server id p = true) : hasType p "output_chunk" = true := by
  simp only [ownedChunk, Bool.and_eq_true] at h
  exact h.1.1

/-! ## What an update does to a payload -/

theorem isTrueEq_iff {α : Type} [DecidableEq α] {x : Option α} {y : α} :
    isTrueEq x y = true ↔ x = some y := by
  simp [isTrueEq]

section Run

variable {u : Update} {p : Payload}

theorem arrow_run {k : PyStr}
    (h : (((u.chain p).map Prod.fst).all fun path => path.head? ≠ some k) = true) :
    arrow (u.run p) k = arrow p k := by
  rw [Update.run]
  split_ifs
  · cases p with
    | none => rfl
    | some v => exact arrow_jsonbSetChain h v
  · rfl

theorem arrow_state_run {j : PyStr} (h : ((u.chain p).map Prod.fst).all (pathKeeps "state" j) = true) :
    arrow (state (u.run p)) j = arrow (state p) j := by
  rw [Update.run]
  split_ifs
  · cases p with
    | none => rfl
    | some v => exact arrow_arrow_jsonbSetChain h v
  · rfl

/-- An update whose chain starts with the status sets it. -/
theorem status_run {s s' : PyStr} {rest : List (List PyStr × Json)} (hguard : u.guard p = true)
    (hchain : u.chain p = (statePath "status", .str s') :: rest)
    (hrest : (rest.map Prod.fst).all (pathKeeps "state" "status") = true)
    (hs : status p = some s) : status (u.run p) = some s' := by
  cases p with
  | none => cases hs
  | some v =>
    obtain ⟨inner, hinner⟩ := exists_obj_of_arrowText hs
    have hset := arrow_arrow_jsonbSetChain_head (.str s') hrest hinner
    rw [Update.run, if_pos hguard, hchain, Option.map_some, status, arrowText]
    exact (congrArg (Option.bind · Json.text?) hset).trans rfl

end Run

end Lubko.Jobs
