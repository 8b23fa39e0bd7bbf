import Lubko.Jobs.Statements
import Lubko.Lib.Execution
import Lubko.Lib.Table

/-!
# The life of a command row

The jobs table under any interleaving of the atomic transactions of workers, cancelling clients and
collectors. Two ghost fields of a row count its claims and remember whether phase 1 of the
collection marked it.

A row is submitted as `build_payload` makes it: a command row is pending and not marked. Rows of
other kinds, and texts that are not JSON, may be anything. Which rows of a batch a transaction takes
(`ORDER BY`, `LIMIT`, `SKIP LOCKED`) is left open: the transaction names them.

Above the statements, `RowChange` says what a transaction may do to a command row at all.

* `step_command` — every transaction keeps a command row, changes it by a `RowChange`, or deletes a
  marked one.
* `row_lifecycle` — the law of the row's life over every run.
-/

namespace Lubko.Jobs

open Lubko.Lib Lubko.Output

/-- A row of the table, with the ghost fields. -/
structure Row where
  payload : Payload
  claims : ℕ := 0
  marked : Bool := false

/-- The jobs table. -/
abbrev JobsTable := Table Uuid Row

/-- A transaction, with what the environment chose for it. -/
inductive Transaction where
  | submit (id : Uuid) (payload : Payload)
  | claim (ids : List Uuid) (worker : WorkerIdentity) (now leaseExpiresAt : PyStr)
  | cancelPending (id : Uuid) (server now : PyStr)
  | cancelRunning (id : Uuid) (server now : PyStr)
  | refresh (ids : List Uuid) (worker : WorkerIdentity) (now leaseExpiresAt : PyStr)
  | recover (ids : List Uuid) (server now : PyStr)
  | persist (id : Uuid) (worker : WorkerIdentity) (pid pgid startTicks : ℤ) (now : PyStr)
  | publish (id : Uuid) (server now : PyStr) (chunks : List (Uuid × OutputChunk))
      (stdout stderr : OutputWindow)
  | finish (id : Uuid) (server : PyStr) (result : JobResult) (now : PyStr)
  | quarantine (id : Uuid) (server reason now : PyStr)
  | failUnsupported (id : Uuid) (server reason now : PyStr)
  | reap (ids : List Uuid) (server now : PyStr)
  | mark (ids : List Uuid) (server cutoff : PyStr)
  | drain (id : Uuid) (server cutoff : PyStr) (chunks : List Uuid)
  | orphans (ids : List Uuid) (server : PyStr)

/-- A payload that may be inserted: a command is pending and not marked for collection. -/
def submittable (p : Payload) : Bool :=
  !hasType p "command" || (isTrueEq (status p) "pending" && !isJsonbTrue (gcFlag p))

/-- Run an update on the given rows, with a note in the ghost fields of those it matches. -/
def runUpdate (t : JobsTable) (ids : List Uuid) (u : Update) (note : Row → Row := fun row => row) :
    JobsTable :=
  t.update fun id row =>
    if id ∈ ids && u.guard row.payload then note { row with payload := u.run row.payload } else row

/-- Insert the chunk rows of a publication; a taken key fails the transaction. -/
def insertChunks : List (Uuid × OutputChunk) → JobsTable → Option JobsTable
  | [], t => some t
  | (id, chunk) :: chunks, t =>
    if (t.get id).isNone then
      insertChunks chunks (t.insert id { payload := some (chunkPayload chunk) })
    else none

/-- The chunk's root command row is there. -/
def hasRoot (t : JobsTable) (p : Payload) : Bool := t.any fun id row => isRootOf id row.payload p

/-- The end of phase 2: the root goes once no chunk of it is left. -/
def removeDrained (t : JobsTable) (server : PyStr) (id : Uuid) : JobsTable :=
  if t.any fun _ row => ownedChunk server id row.payload then t else t.delete fun k _ => k = id

/-- The step function. -/
def step (t : JobsTable) : Transaction → Option JobsTable
  | .submit id payload =>
    if (t.get id).isNone && submittable payload then some (t.insert id { payload := payload })
    else none
  | .claim ids worker now lease =>
    some (runUpdate t ids (claimJobs worker now lease) fun r => { r with claims := r.claims + 1 })
  | .cancelPending id server now => some (runUpdate t [id] (cancelPending server now))
  | .cancelRunning id server now => some (runUpdate t [id] (cancelRunning server now))
  | .refresh ids worker now lease => some (runUpdate t ids (refreshLeases worker now lease))
  | .recover ids server now => some (runUpdate t ids (recoverStale server now))
  | .persist id worker pid pgid ticks now =>
    some (runUpdate t [id] (persistProcess worker pid pgid ticks now))
  | .publish id server now chunks stdout stderr =>
    if (t.get id).any fun row => publishable server row.payload then
      (insertChunks chunks t).map fun t => runUpdate t [id] (outputUpdate server now stdout stderr)
    else some t
  | .finish id server result now => some (runUpdate t [id] (finishJob server result now))
  | .quarantine id server reason now => some (runUpdate t [id] (quarantineJob server reason now))
  | .failUnsupported id server reason now =>
    some (runUpdate t [id] (failUnsupportedJob server reason now))
  | .reap ids server now =>
    some (t.update fun id row =>
      if id ∈ ids && reapable server row.payload then
        { row with
          payload := (failUnsupportedJob server (reapDiagnostic row.payload) now).run row.payload }
      else row)
  | .mark ids server cutoff =>
    some (runUpdate t ids (markGc server cutoff) fun r => { r with marked := true })
  | .drain id server cutoff chunks =>
    if (t.get id).any fun row => drainable server cutoff row.payload then
      some (removeDrained
        (t.delete fun k row => k ∈ chunks && ownedChunk server id row.payload) server id)
    else some t
  | .orphans ids server =>
    some (t.delete fun k row =>
      k ∈ ids && hasType row.payload "output_chunk" && serverMatch row.payload server &&
        !hasRoot t row.payload)

/-! ## The facts of a row -/

/-- `payload->'state'->'finished_at'`. -/
def finishedAt (p : Payload) : Option Json := arrow (state p) "finished_at"

/-- `payload->'result'`. -/
def result (p : Payload) : Option Json := arrow p "result"

/-! ## What a transaction does to a command row -/

/-- The moves of the status. -/
inductive Move : PyStr → PyStr → Prop
  | pendingRunning : Move "pending" "running"
  | pendingFailed : Move "pending" "failed"
  | pendingCancelled : Move "pending" "cancelled"
  | runningSucceeded : Move "running" "succeeded"
  | runningFailed : Move "running" "failed"
  | runningCancelled : Move "running" "cancelled"

/-- The status is one of the three final ones. -/
def Terminal (row : Row) : Prop := ∃ s ∈ terminalStatuses, status row.payload = some s

/-- The law's parts of the row are the same. -/
structure SameFacts (row row' : Row) : Prop where
  status : status row'.payload = status row.payload
  finishedAt : finishedAt row'.payload = finishedAt row.payload
  result : result row'.payload = result row.payload

/-- What a transaction may do to a command row. -/
inductive RowChange (row row' : Row) : Prop
  | untouched (facts : SameFacts row row') (gc : gcFlag row'.payload = gcFlag row.payload)
      (claims : row'.claims = row.claims) (marked : row'.marked = row.marked)
  | claimed (hfrom : status row.payload = some "pending")
      (hto : status row'.payload = some "running") (gc : gcFlag row'.payload = gcFlag row.payload)
      (claims : row'.claims = row.claims + 1) (marked : row'.marked = row.marked)
  | ended {s s' : PyStr} (move : Move s s') (final : s' ∈ terminalStatuses)
      (hfrom : status row.payload = some s) (hto : status row'.payload = some s')
      (gc : gcFlag row'.payload = gcFlag row.payload)
      (claims : row'.claims = row.claims) (marked : row'.marked = row.marked)
  | gcMarked (terminal : Terminal row) (facts : SameFacts row row')
      (claims : row'.claims = row.claims) (marked : row'.marked = true)

/-- The row is a command. -/
def IsCommand (row : Row) : Prop := hasType row.payload "command" = true

section Updates

variable {u : Update} {row : Row}

/-- An update that names no part of the law leaves the row untouched. -/
theorem untouched_of_chain
    (hstatus : ((u.chain row.payload).map Prod.fst).all (pathKeeps "state" "status") = true)
    (hfinished : ((u.chain row.payload).map Prod.fst).all (pathKeeps "state" "finished_at") = true)
    (hgc : ((u.chain row.payload).map Prod.fst).all (pathKeeps "state" "gc") = true)
    (hresult : (((u.chain row.payload).map Prod.fst).all fun path => path.head? ≠ some "result") =
      true) :
    RowChange row { row with payload := u.run row.payload } := by
  refine .untouched ⟨?_, arrow_state_run hfinished, arrow_run hresult⟩ (arrow_state_run hgc) rfl rfl
  exact congrArg (Option.bind · Json.text?) (arrow_state_run hstatus)

/-- An update that starts with a final status ends the row's life in it. -/
theorem ended_of_chain {s s' : PyStr} {rest : List (List PyStr × Json)}
    (hguard : u.guard row.payload = true)
    (hchain : u.chain row.payload = (statePath "status", .str s') :: rest)
    (hrest : (rest.map Prod.fst).all (pathKeeps "state" "status") = true)
    (hgc : ((u.chain row.payload).map Prod.fst).all (pathKeeps "state" "gc") = true)
    (hfrom : status row.payload = some s) (hmove : Move s s') (hfinal : s' ∈ terminalStatuses) :
    RowChange row { row with payload := u.run row.payload } :=
  .ended hmove hfinal hfrom (status_run hguard hchain hrest hfrom) (arrow_state_run hgc) rfl rfl

theorem claimJobs_change {worker : WorkerIdentity} {now lease : PyStr}
    (hguard : (claimJobs worker now lease).guard row.payload = true) :
    RowChange row { row with
      payload := (claimJobs worker now lease).run row.payload, claims := row.claims + 1 } := by
  have hfrom : status row.payload = some "pending" := by
    simp only [claimJobs, Bool.and_eq_true, isTrueEq_iff] at hguard
    exact hguard.2
  exact .claimed hfrom (status_run hguard rfl rfl hfrom) (arrow_state_run rfl) rfl rfl

theorem cancelPending_change {server now : PyStr}
    (hguard : (cancelPending server now).guard row.payload = true) :
    RowChange row { row with payload := (cancelPending server now).run row.payload } := by
  have hfrom : status row.payload = some "pending" := by
    simp only [cancelPending, Bool.and_eq_true, isTrueEq_iff] at hguard
    exact hguard.2
  exact ended_of_chain hguard rfl rfl rfl hfrom .pendingCancelled (by decide)

theorem recoverStale_change {server now : PyStr}
    (hguard : (recoverStale server now).guard row.payload = true) :
    RowChange row { row with payload := (recoverStale server now).run row.payload } := by
  have hfrom : status row.payload = some "running" := by
    simp only [recoverStale, Bool.and_eq_true, isTrueEq_iff] at hguard
    exact hguard.1.2
  exact ended_of_chain hguard rfl rfl rfl hfrom .runningFailed (by decide)

theorem finishJob_change {server now : PyStr} {outcome : JobResult}
    (hguard : (finishJob server outcome now).guard row.payload = true) :
    RowChange row { row with payload := (finishJob server outcome now).run row.payload } := by
  have hfrom : status row.payload = some "running" := by
    simp only [finishJob, Bool.and_eq_true, isTrueEq_iff] at hguard
    exact hguard.2
  by_cases hcancel : cancelRequested row.payload = true
  · refine ended_of_chain hguard rfl rfl rfl hfrom ?_ ?_ <;> rw [if_pos hcancel]
    · exact .runningCancelled
    · decide
  · refine ended_of_chain hguard rfl rfl rfl hfrom ?_ ?_ <;> rw [if_neg hcancel]
    · cases outcome.status with
      | succeeded => exact .runningSucceeded
      | failed => exact .runningFailed
      | cancelled => exact .runningCancelled
    · cases outcome.status <;> decide

/-- The statuses a command row can have. -/
def Known (row : Row) : Prop :=
  status row.payload = some "pending" ∨ status row.payload = some "running" ∨ Terminal row

/-- `NOT IN` the final statuses leaves only the other two. -/
theorem failClosed_change {field : String} {server reason now : PyStr} (hknown : Known row)
    (hguard : (failClosed field server reason now).guard row.payload = true)
    (hstatus : pathKeeps "state" "status" (statePath field) = true)
    (hgc : pathKeeps "state" "gc" (statePath field) = true) :
    RowChange row { row with payload := (failClosed field server reason now).run row.payload } := by
  have hopen : isTrueNotIn (status row.payload) terminalStatuses = true := by
    simp only [failClosed, Bool.and_eq_true] at hguard
    exact hguard.2
  have hrest : ([statePath "finished_at", statePath "updated_at", statePath field].all
      (pathKeeps "state" "status")) = true := by
    rw [List.all_cons, List.all_cons, List.all_cons, hstatus]
    rfl
  have hkeeps : ([statePath "status", statePath "finished_at", statePath "updated_at",
      statePath field].all (pathKeeps "state" "gc")) = true := by
    rw [List.all_cons, List.all_cons, List.all_cons, List.all_cons, hgc]
    rfl
  rcases hknown with hfrom | hfrom | ⟨s, hs, hfrom⟩
  · exact ended_of_chain hguard rfl hrest hkeeps hfrom .pendingFailed (by decide)
  · exact ended_of_chain hguard rfl hrest hkeeps hfrom .runningFailed (by decide)
  · obtain ⟨s', hs', hnot⟩ := isTrueNotIn_iff.1 hopen
    obtain rfl := Option.some.inj (hs'.symm.trans hfrom)
    exact absurd hs hnot

theorem collectable_terminal {server cutoff : PyStr}
    (h : collectable server cutoff row.payload = true) : Terminal row := by
  simp only [collectable, Bool.and_eq_true] at h
  exact isTrueIn_iff.1 h.1.2

theorem markGc_change {server cutoff : PyStr}
    (hguard : (markGc server cutoff).guard row.payload = true) :
    RowChange row { row with
      payload := (markGc server cutoff).run row.payload, marked := true } := by
  simp only [markGc, Bool.and_eq_true] at hguard
  refine .gcMarked (collectable_terminal hguard.1)
    ⟨congrArg (Option.bind · Json.text?) (arrow_state_run rfl), arrow_state_run rfl, arrow_run rfl⟩
    rfl rfl

theorem RowChange.refl (row : Row) : RowChange row row := .untouched ⟨rfl, rfl, rfl⟩ rfl rfl rfl

end Updates

/-! ## One transaction -/

/-- What holds of every command row of the table. -/
structure Lawful (row : Row) : Prop where
  known : Known row
  gc : isJsonbTrue (gcFlag row.payload) = true → row.marked = true
  marked : row.marked = true → Terminal row
  claims : row.claims ≤ 1
  pending : status row.payload = some "pending" → row.claims = 0

/-- A new row. -/
structure Fresh (row : Row) : Prop where
  submittable : submittable row.payload = true
  claims : row.claims = 0
  marked : row.marked = false

/-- A row that stays: its type stays, and a command changes by a `RowChange`. -/
structure Changed (row row' : Row) : Prop where
  type : arrowText row'.payload "type" = arrowText row.payload "type"
  change : IsCommand row → Lawful row → RowChange row row'

/-- What a transaction may do under one key. -/
def Effect (before after : Option Row) : Prop :=
  match before, after with
  | none, none => True
  | none, some row => Fresh row
  | some row, some row' => Changed row row'
  | some row, none => IsCommand row → ∃ server cutoff, drainable server cutoff row.payload = true

theorem Changed.refl (row : Row) : Changed row row := ⟨rfl, fun _ _ => .refl row⟩

theorem Effect.refl (row : Option Row) : Effect row row := by
  cases row with
  | none => trivial
  | some row => exact Changed.refl row

theorem effect_update (t : JobsTable) (f : Uuid → Row → Row) (hf : ∀ k row, Changed row (f k row))
    (k : Uuid) : Effect (t.get k) ((t.update f).get k) := by
  rw [Table.get_update]
  cases t.get k with
  | none => trivial
  | some row => exact hf k row

theorem type_run {u : Update} {p : Payload}
    (h : (((u.chain p).map Prod.fst).all fun path => path.head? ≠ some "type") = true) :
    arrowText (u.run p) "type" = arrowText p "type" :=
  congrArg (Option.bind · Json.text?) (arrow_run h)

/-- A batch update has an effect under every key if its rows change as they may. -/
theorem effect_runUpdate (t : JobsTable) (ids : List Uuid) (u : Update) (note : Row → Row)
    (hnote : ∀ row, (note row).payload = row.payload)
    (htype : ∀ p, (((u.chain p).map Prod.fst).all fun path => path.head? ≠ some "type") = true)
    (hchange : ∀ row, u.guard row.payload = true → IsCommand row → Lawful row →
      RowChange row (note { row with payload := u.run row.payload })) (k : Uuid) :
    Effect (t.get k) ((runUpdate t ids u note).get k) := by
  refine effect_update t _ (fun k row => ?_) k
  split_ifs with hmatch
  · rw [Bool.and_eq_true] at hmatch
    refine ⟨?_, hchange row hmatch.2⟩
    rw [hnote]
    exact type_run (htype row.payload)
  · exact Changed.refl row

theorem chunkPayload_type (chunk : OutputChunk) :
    hasType (some (chunkPayload chunk)) "command" = false := by
  have htype : arrowText (some (chunkPayload chunk)) "type" =
      some (PyStr.ofString "output_chunk") := by
    have hkey : (PyStr.ofString "v" : PyStr) ≠ PyStr.ofString "type" := by decide
    simp [arrowText, arrow, chunkPayload, buildObject, memberOf, hkey, Json.text?]
  rw [hasType, htype]
  decide

/-- Inserting chunks leaves the rows that were there, and adds rows that are no commands. -/
theorem insertChunks_get {chunks : List (Uuid × OutputChunk)} {t t' : JobsTable}
    (h : insertChunks chunks t = some t') (id : Uuid) :
    t'.get id = t.get id ∨
      (t.get id = none ∧ ∃ chunk, t'.get id = some { payload := some (chunkPayload chunk) }) := by
  induction chunks generalizing t with
  | nil =>
    obtain rfl := Option.some.inj h
    exact Or.inl rfl
  | cons c chunks ih =>
    rw [insertChunks] at h
    split_ifs at h with hfree
    have hget := Table.get_insert (Option.isNone_iff_eq_none.1 hfree)
      (⟨some (chunkPayload c.2), 0, false⟩ : Row) id
    rcases ih h with hsame | ⟨hnone, hchunk⟩
    · by_cases hid : id = c.1
      · subst hid
        rw [if_pos rfl] at hget
        exact Or.inr ⟨Option.isNone_iff_eq_none.1 hfree, c.2, hsame.trans hget⟩
      · rw [if_neg hid] at hget
        exact Or.inl (hsame.trans hget)
    · by_cases hid : id = c.1
      · rw [hnone, if_pos hid] at hget
        cases hget
      · rw [if_neg hid] at hget
        exact Or.inr ⟨hget ▸ hnone, hchunk⟩

theorem effect_submit {t : JobsTable} {id : Uuid} {payload : Payload} (hfree : t.get id = none)
    (hsub : submittable payload = true) (k : Uuid) :
    Effect (t.get k) ((t.insert id { payload := payload }).get k) := by
  rw [Table.get_insert hfree]
  split_ifs with hk
  · rw [hk, hfree]
    exact ⟨hsub, rfl, rfl⟩
  · exact Effect.refl _

theorem effect_publish {t t' : JobsTable} {id : Uuid} {server now : PyStr}
    {chunks : List (Uuid × OutputChunk)} {stdout stderr : OutputWindow} {root : Row}
    (hroot : t.get id = some root) (h : insertChunks chunks t = some t') (k : Uuid) :
    Effect (t.get k) ((runUpdate t' [id] (outputUpdate server now stdout stderr)).get k) := by
  rcases insertChunks_get h k with hsame | ⟨hnone, chunk, hchunk⟩
  · rw [← hsame]
    exact effect_runUpdate t' [id] _ _ (fun _ => rfl) (fun _ => rfl)
      (fun row _ _ _ => untouched_of_chain rfl rfl rfl rfl) k
  · have hk : k ≠ id := by
      rintro rfl
      rw [hroot] at hnone
      cases hnone
    rw [hnone, runUpdate, Table.get_update, hchunk, Option.map_some, if_neg (by simp [hk])]
    refine ⟨?_, rfl, rfl⟩
    rw [submittable, chunkPayload_type]
    rfl

/-- A row has one type. -/
theorem not_chunk_of_command {row : Row} (hcommand : IsCommand row) :
    hasType row.payload "output_chunk" = false := by
  rw [Bool.eq_false_iff]
  intro hchunk
  rw [IsCommand, hasType, isTrueEq_iff] at hcommand
  rw [hasType, hcommand] at hchunk
  revert hchunk
  decide

/-- A delete by a condition no command row meets. -/
theorem effect_delete (t : JobsTable) (p : Uuid → Row → Bool)
    (hp : ∀ k row, p k row = true → hasType row.payload "output_chunk" = true) (k : Uuid) :
    Effect (t.get k) ((t.delete p).get k) := by
  rw [Table.get_delete]
  cases t.get k with
  | none => trivial
  | some row =>
    rw [Option.filter_some]
    split_ifs with hkeep
    · exact Changed.refl row
    · intro hcommand
      have hchunk := hp k row (by simpa using hkeep)
      rw [not_chunk_of_command hcommand] at hchunk
      cases hchunk

theorem effect_drain {t : JobsTable} {id : Uuid} {server cutoff : PyStr} {chunks : List Uuid}
    {root : Row} (hroot : t.get id = some root)
    (hdrain : drainable server cutoff root.payload = true) (k : Uuid) :
    Effect (t.get k)
      (((t.delete fun k row => k ∈ chunks && ownedChunk server id row.payload).delete
        fun k _ => k = id).get k) := by
  rw [Table.get_delete]
  by_cases hk : k = id
  · subst hk
    rw [Table.get_delete, hroot, Option.filter_some]
    have hgone : ∀ x : Option Row, x.filter (fun _ => !decide (k = k)) = none := by simp
    rw [hgone]
    exact fun _ => ⟨server, cutoff, hdrain⟩
  · have hkept : ∀ x : Option Row, x.filter (fun _ => !decide (k = id)) = x := by
      intro x
      cases x <;> simp [hk]
    rw [hkept]
    refine effect_delete t _ (fun k row h => ?_) k
    rw [Bool.and_eq_true] at h
    exact ownedChunk_type h.2

/-- **What one transaction does under a key**: the four effects, for every transaction. -/
theorem step_effect {t t' : JobsTable} {tx : Transaction} (h : step t tx = some t') (k : Uuid) :
    Effect (t.get k) (t'.get k) := by
  cases tx with
  | submit id payload =>
    rw [step] at h
    split_ifs at h with hok
    rw [Bool.and_eq_true] at hok
    obtain rfl := Option.some.inj h
    exact effect_submit (Option.isNone_iff_eq_none.1 hok.1) hok.2 k
  | claim ids worker now lease =>
    obtain rfl := Option.some.inj h
    exact effect_runUpdate t ids _ (fun r => { r with claims := r.claims + 1 }) (fun _ => rfl)
      (fun _ => rfl) (fun row hguard _ _ => claimJobs_change hguard) k
  | cancelPending id server now =>
    obtain rfl := Option.some.inj h
    exact effect_runUpdate t [id] _ _ (fun _ => rfl) (fun _ => rfl)
      (fun row hguard _ _ => cancelPending_change hguard) k
  | cancelRunning id server now =>
    obtain rfl := Option.some.inj h
    exact effect_runUpdate t [id] _ _ (fun _ => rfl) (fun _ => rfl)
      (fun row _ _ _ => untouched_of_chain rfl rfl rfl rfl) k
  | refresh ids worker now lease =>
    obtain rfl := Option.some.inj h
    exact effect_runUpdate t ids _ _ (fun _ => rfl) (fun _ => rfl)
      (fun row _ _ _ => untouched_of_chain rfl rfl rfl rfl) k
  | recover ids server now =>
    obtain rfl := Option.some.inj h
    exact effect_runUpdate t ids _ _ (fun _ => rfl) (fun _ => rfl)
      (fun row hguard _ _ => recoverStale_change hguard) k
  | persist id worker pid pgid ticks now =>
    obtain rfl := Option.some.inj h
    exact effect_runUpdate t [id] _ _ (fun _ => rfl) (fun _ => rfl)
      (fun row _ _ _ => untouched_of_chain rfl rfl rfl rfl) k
  | publish id server now chunks stdout stderr =>
    rw [step] at h
    split_ifs at h with hroot
    · obtain ⟨root, hroot, -⟩ := (Option.any_eq_true _ _).1 hroot
      obtain ⟨t₁, hinsert, rfl⟩ := Option.map_eq_some_iff.1 h
      exact effect_publish hroot hinsert k
    · obtain rfl := Option.some.inj h
      exact Effect.refl _
  | finish id server outcome now =>
    obtain rfl := Option.some.inj h
    exact effect_runUpdate t [id] _ _ (fun _ => rfl) (fun _ => rfl)
      (fun row hguard _ _ => finishJob_change hguard) k
  | quarantine id server reason now =>
    obtain rfl := Option.some.inj h
    exact effect_runUpdate t [id] _ _ (fun _ => rfl) (fun _ => rfl)
      (fun row hguard _ hlaw => failClosed_change hlaw.known hguard rfl rfl) k
  | failUnsupported id server reason now =>
    obtain rfl := Option.some.inj h
    exact effect_runUpdate t [id] _ _ (fun _ => rfl) (fun _ => rfl)
      (fun row hguard _ hlaw => failClosed_change hlaw.known hguard rfl rfl) k
  | reap ids server now =>
    obtain rfl := Option.some.inj h
    refine effect_update t _ (fun k row => ?_) k
    split_ifs with hmatch
    · refine ⟨type_run rfl, fun _ hlaw => ?_⟩
      rw [Bool.and_eq_true, reapable] at hmatch
      simp only [Bool.and_eq_true] at hmatch
      obtain ⟨-, ⟨⟨htype, hserver⟩, hpending⟩, -⟩ := hmatch
      refine failClosed_change hlaw.known ?_ rfl rfl
      simp only [failClosed, htype, hserver, isTrueEq_iff.1 hpending, Bool.and_eq_true]
      decide
    · exact Changed.refl row
  | mark ids server cutoff =>
    obtain rfl := Option.some.inj h
    exact effect_runUpdate t ids _ (fun r => { r with marked := true }) (fun _ => rfl)
      (fun _ => rfl) (fun row hguard _ _ => markGc_change hguard) k
  | drain id server cutoff chunks =>
    rw [step] at h
    split_ifs at h with hroot
    · obtain ⟨root, hroot, hdrain⟩ := (Option.any_eq_true _ _).1 hroot
      obtain rfl := Option.some.inj h
      rw [removeDrained]
      split_ifs
      · refine effect_delete t _ (fun k row hdel => ?_) k
        rw [Bool.and_eq_true] at hdel
        exact ownedChunk_type hdel.2
      · exact effect_drain hroot hdrain k
    · obtain rfl := Option.some.inj h
      exact Effect.refl _
  | orphans ids server =>
    obtain rfl := Option.some.inj h
    refine effect_delete t _ (fun k row hdel => ?_) k
    simp only [Bool.and_eq_true] at hdel
    exact hdel.1.1.2

/-! ## Whole runs -/

section Lawful

variable {row row' : Row}

theorem SameFacts.terminal (h : SameFacts row row') (hrow : Terminal row) : Terminal row' := by
  obtain ⟨s, hs, heq⟩ := hrow
  exact ⟨s, hs, h.status.trans heq⟩

theorem SameFacts.trans {row'' : Row} (h : SameFacts row row') (h' : SameFacts row' row'') :
    SameFacts row row'' :=
  ⟨h'.status.trans h.status, h'.finishedAt.trans h.finishedAt, h'.result.trans h.result⟩

theorem SameFacts.known (h : SameFacts row row') (hrow : Known row) : Known row' := by
  rcases hrow with hpending | hrunning | hterminal
  · exact Or.inl (h.status.trans hpending)
  · exact Or.inr (Or.inl (h.status.trans hrunning))
  · exact Or.inr (Or.inr (h.terminal hterminal))

/-- A move starts from a status that is not final. -/
theorem Move.not_terminal {s s' : PyStr} (hmove : Move s s') (hfrom : status row.payload = some s) :
    ¬ Terminal row := by
  rintro ⟨s₀, hs₀, heq⟩
  obtain rfl := Option.some.inj (heq.symm.trans hfrom)
  revert hs₀
  cases hmove <;> decide

theorem RowChange.lawful (h : RowChange row row') (hrow : Lawful row) : Lawful row' := by
  cases h with
  | untouched facts gc claims marked =>
    refine ⟨facts.known hrow.known, ?_, ?_, claims ▸ hrow.claims, ?_⟩
    · rw [gc, marked]
      exact hrow.gc
    · rw [marked]
      exact fun h => facts.terminal (hrow.marked h)
    · rw [facts.status, claims]
      exact hrow.pending
  | claimed hfrom hto gc claims marked =>
    refine ⟨Or.inr (Or.inl hto), ?_, ?_, ?_, ?_⟩
    · rw [gc, marked]
      exact hrow.gc
    · rw [marked]
      exact fun h => absurd (hrow.marked h) (Move.pendingRunning.not_terminal hfrom)
    · rw [claims, hrow.pending hfrom]
    · rw [hto]
      exact fun h => absurd h (by decide)
  | ended move final hfrom hto gc claims marked =>
    have hterminal : Terminal row' := ⟨_, final, hto⟩
    refine ⟨Or.inr (Or.inr hterminal), ?_, fun _ => hterminal, claims ▸ hrow.claims, ?_⟩
    · rw [gc, marked]
      exact hrow.gc
    · exact fun h => absurd hterminal (Move.pendingRunning.not_terminal h)
  | gcMarked terminal facts claims marked =>
    refine ⟨facts.known hrow.known, fun _ => marked, fun _ => facts.terminal terminal,
      claims ▸ hrow.claims, ?_⟩
    rw [facts.status, claims]
    exact hrow.pending

theorem Fresh.lawful (h : Fresh row) (hcommand : IsCommand row) : Lawful row := by
  have hsub := h.submittable
  rw [IsCommand] at hcommand
  simp only [Jobs.submittable, hcommand, Bool.not_true, Bool.false_or, Bool.and_eq_true,
    Bool.not_eq_true', isTrueEq_iff] at hsub
  refine ⟨Or.inl hsub.1, ?_, ?_, ?_, fun _ => h.claims⟩
  · rw [hsub.2]
    exact fun h => absurd h Bool.false_ne_true
  · rw [h.marked]
    exact fun h => absurd h Bool.false_ne_true
  · rw [h.claims]
    exact Nat.zero_le 1

theorem Changed.isCommand (h : Changed row row') : IsCommand row' ↔ IsCommand row := by
  rw [IsCommand, IsCommand, hasType, hasType, h.type]

/-- Final facts stay: every change that could touch them starts elsewhere. -/
theorem RowChange.sameFacts (h : RowChange row row') (hrow : Terminal row) : SameFacts row row' := by
  cases h with
  | untouched facts => exact facts
  | claimed hfrom => exact absurd hrow (Move.pendingRunning.not_terminal hfrom)
  | ended move _ hfrom => exact absurd hrow (move.not_terminal hfrom)
  | gcMarked _ facts => exact facts

theorem RowChange.move (h : RowChange row row') :
    status row'.payload = status row.payload ∨
      ∃ s s', Move s s' ∧ status row.payload = some s ∧ status row'.payload = some s' := by
  cases h with
  | untouched facts => exact Or.inl facts.status
  | claimed hfrom hto => exact Or.inr ⟨_, _, .pendingRunning, hfrom, hto⟩
  | ended move _ hfrom hto => exact Or.inr ⟨_, _, move, hfrom, hto⟩
  | gcMarked _ facts => exact Or.inl facts.status

end Lawful

/-- The table's invariant: its command rows are lawful. -/
def TableLawful (t : JobsTable) : Prop := ∀ id row, t.get id = some row → IsCommand row → Lawful row

theorem step_lawful {t t' : JobsTable} {tx : Transaction} (ht : TableLawful t)
    (h : step t tx = some t') : TableLawful t' := by
  intro id row' hrow' hcommand
  have heffect := step_effect h id
  rw [hrow'] at heffect
  cases hrow : t.get id with
  | none =>
    rw [hrow] at heffect
    exact Fresh.lawful heffect hcommand
  | some row =>
    rw [hrow] at heffect
    have hcommand₀ := (Changed.isCommand heffect).1 hcommand
    exact (heffect.change hcommand₀ (ht id row hrow hcommand₀)).lawful (ht id row hrow hcommand₀)

theorem empty_lawful : TableLawful Table.empty := by
  intro id row hrow
  cases hrow

/-- A command row after a transaction. -/
inductive RowStep (row : Row) : Option Row → Prop
  | kept {row' : Row} (command : IsCommand row') (change : RowChange row row') :
      RowStep row (some row')
  | deleted (marked : row.marked = true) (terminal : Terminal row) : RowStep row none

/-- **One transaction on a command row**: it stays, changed as it may, or it was marked while
terminal and goes. -/
theorem step_command {t t' : JobsTable} {tx : Transaction} {id : Uuid} {row : Row}
    (ht : TableLawful t) (h : step t tx = some t') (hrow : t.get id = some row)
    (hcommand : IsCommand row) : RowStep row (t'.get id) := by
  have hlaw := ht id row hrow hcommand
  have heffect := step_effect h id
  rw [hrow] at heffect
  cases hrow' : t'.get id with
  | some row' =>
    rw [hrow'] at heffect
    exact .kept ((Changed.isCommand heffect).2 hcommand) (heffect.change hcommand hlaw)
  | none =>
    rw [hrow'] at heffect
    obtain ⟨server, cutoff, hdrain⟩ := heffect hcommand
    rw [drainable, Bool.and_eq_true] at hdrain
    exact .deleted (hlaw.gc hdrain.2) (collectable_terminal hdrain.1)

/-- A terminal command row that is there all along keeps its facts. -/
theorem exec_sameFacts {t t' : JobsTable} {txs : List Transaction} {id : Uuid} {row : Row}
    (ht : TableLawful t) (h : exec step t txs = some t') (hrow : t.get id = some row)
    (hcommand : IsCommand row) (hterminal : Terminal row)
    (hthere : ∀ pre, pre <+: txs → ∀ u, exec step t pre = some u → u.get id ≠ none) :
    ∃ row', t'.get id = some row' ∧ SameFacts row row' := by
  induction txs generalizing t row with
  | nil =>
    obtain rfl := Option.some.inj h
    exact ⟨row, hrow, rfl, rfl, rfl⟩
  | cons tx txs ih =>
    obtain ⟨t₁, hstep, hrest⟩ := exec_cons_eq_some.1 h
    have hnext := step_command ht hstep hrow hcommand
    have hone := hthere [tx] (by simp) t₁ (exec_cons_eq_some.2 ⟨t₁, hstep, rfl⟩)
    cases hrow₁ : t₁.get id with
    | none => exact absurd hrow₁ hone
    | some row₁ =>
      rw [hrow₁] at hnext
      cases hnext with
      | kept command change =>
        have hfacts := change.sameFacts hterminal
        obtain ⟨row', hrow', hlast⟩ := ih (step_lawful ht hstep) hrest hrow₁ command
          (hfacts.terminal hterminal) fun pre hpre u hu =>
            hthere (tx :: pre) (by simpa using hpre) u (exec_cons_eq_some.2 ⟨t₁, hstep, hu⟩)
        exact ⟨row', hrow', hfacts.trans hlast⟩

/-- **The law of a command row's life**, at every table a run from the empty one reaches: the row
was claimed at most once; the next transaction leaves its status or makes one of the six moves, and
deletes the row only if it was marked, which happens to terminal rows only; and a terminal row that
is there through any further run keeps its status, its `finished_at` and its result. -/
theorem row_lifecycle {txs : List Transaction} {t : JobsTable} {id : Uuid} {row : Row}
    (h : exec step Table.empty txs = some t) (hrow : t.get id = some row)
    (hcommand : IsCommand row) :
    row.claims ≤ 1 ∧
    (∀ tx t', step t tx = some t' →
      (∃ row', t'.get id = some row' ∧
        (status row'.payload = status row.payload ∨
          ∃ s s', Move s s' ∧ status row.payload = some s ∧ status row'.payload = some s') ∧
        (row'.marked = true → row.marked = true ∨ Terminal row)) ∨
      (t'.get id = none ∧ row.marked = true ∧ Terminal row)) ∧
    (Terminal row → ∀ txs' t', exec step t txs' = some t' →
      (∀ pre, pre <+: txs' → ∀ u, exec step t pre = some u → u.get id ≠ none) →
      ∃ row', t'.get id = some row' ∧ status row'.payload = status row.payload ∧
        finishedAt row'.payload = finishedAt row.payload ∧
        result row'.payload = result row.payload) := by
  have ht : TableLawful t := exec_invariant (fun _ _ _ => step_lawful) empty_lawful h
  refine ⟨(ht id row hrow hcommand).claims, ?_, ?_⟩
  · intro tx t' hstep
    have hnext := step_command ht hstep hrow hcommand
    cases hrow' : t'.get id with
    | none =>
      rw [hrow'] at hnext
      cases hnext with
      | deleted marked terminal => exact Or.inr ⟨rfl, marked, terminal⟩
    | some row' =>
      rw [hrow'] at hnext
      cases hnext with
      | kept _ change =>
        refine Or.inl ⟨row', rfl, change.move, fun hmarked => ?_⟩
        cases change with
        | untouched _ _ _ marked => exact Or.inl (marked ▸ hmarked)
        | claimed _ _ _ _ marked => exact Or.inl (marked ▸ hmarked)
        | ended _ _ _ _ _ _ marked => exact Or.inl (marked ▸ hmarked)
        | gcMarked terminal => exact Or.inr terminal
  · intro hterminal txs' t' hrun hthere
    obtain ⟨row', hrow', hfacts⟩ := exec_sameFacts ht hrun hrow hcommand hterminal hthere
    exact ⟨row', hrow', hfacts.status, hfacts.finishedAt, hfacts.result⟩

/-! ### A collected job

A job is submitted, claimed and finished; a late cancellation and a late recovery find nothing; an
hour later the row is marked. -/

/-- The job's id. -/
def jobId : Uuid := Uuid.ofDigit 1

/-- The payload the client submits. -/
def submitted : Payload :=
  some (buildObject [("v", .int 4), ("type", .str "command"), ("server", .str "alpha"),
    ("state", buildObject [("status", .str "pending")])])

/-- The worker. -/
def worker : WorkerIdentity :=
  { server := "alpha", workerId := "w", workerIncarnation := "1" }

/-- What the process did. -/
def outcome : JobResult :=
  { status := .succeeded, exitCode := 0, stdout := "ok", stderr := [], cancellationNote := none }

/-- The transactions up to the mark. -/
def collectedRun : List Transaction :=
  [.submit jobId submitted,
    .claim [jobId] worker "2026-01-01T00:00:00.000000Z" "2026-01-01T00:00:30.000000Z",
    .finish jobId "alpha" outcome "2026-01-01T00:00:10.000000Z",
    .cancelPending jobId "alpha" "2026-01-01T00:00:11.000000Z",
    .recover [jobId] "alpha" "2026-01-01T00:01:00.000000Z",
    .mark [jobId] "alpha" "2026-01-01T00:30:00.000000Z"]

/-- The row was claimed once, and its last status is the result's. -/
theorem row_lifecycle_collected :
    ∃ t row, exec step Table.empty collectedRun = some t ∧ t.get jobId = some row ∧
      IsCommand row ∧ status row.payload = some "succeeded" ∧ row.marked = true ∧
      row.claims ≤ 1 := by
  have hrun : (exec step Table.empty collectedRun).any (fun t => (t.get jobId).any fun row =>
      hasType row.payload "command" && status row.payload = some "succeeded" && row.marked) =
      true := by decide +kernel
  obtain ⟨t, ht, hget⟩ := (Option.any_eq_true _ _).1 hrun
  obtain ⟨row, hrow, hfacts⟩ := (Option.any_eq_true _ _).1 hget
  simp only [Bool.and_eq_true, decide_eq_true_eq] at hfacts
  obtain ⟨⟨hcommand, hstatus⟩, hmarked⟩ := hfacts
  exact ⟨t, row, ht, hrow, hcommand, hstatus, hmarked, (row_lifecycle ht hrow hcommand).1⟩

end Lubko.Jobs
