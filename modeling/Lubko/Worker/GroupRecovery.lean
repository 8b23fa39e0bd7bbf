import Lubko.Jobs.Lifecycle
import Lubko.Worker.ProcessGroup

/-!
# Recovering the groups of a dead worker

`recover_owned_groups` finds a group only through a row that is still running, still names the
incarnation and carries a group id: the recovery filter. Other sessions go on meanwhile.

* **What leaves the filter.** `TableEvent.step_named`: only four transactions and an explicit
  deletion take the row of a running command out of it (`takesOut`).
-/

namespace Lubko.Worker.Groups

open Lubko.Lib Lubko.Jobs

/-! ## The recovery filter -/

/-- A row of `_owned_running_groups`. -/
structure OwnedGroup where
  pgid : Option ℕ
  startTicks : Option ℕ
  job : PyStr

/-- `value if type(value) is int and value > 0 else None`. -/
def positiveInt (v : Option Json) : Option ℕ :=
  match v with
  | some (.int n) => if 0 < n then some n.toNat else none
  | _ => none

/-- `_parse_owned_running_group_row`. -/
def parseOwnedRunningGroupRow (rowId : Uuid) (pgid startTicks : Option Json) : OwnedGroup :=
  ⟨positiveInt pgid, positiveInt startTicks, rowId.text⟩

/-- `payload->'state'->'process_pgid'`. -/
def processPgid (p : Payload) : Option Json := arrow (state p) "process_pgid"

/-- `payload->'state'->'process_start_time_ticks'`. -/
def processStartTimeTicks (p : Payload) : Option Json :=
  arrow (state p) "process_start_time_ticks"

/-- `payload->'state'->>'worker_incarnation'`. -/
def workerIncarnation (p : Payload) : Option PyStr := arrowText (state p) "worker_incarnation"

/-- The `WHERE` of `_owned_running_groups`. -/
def ownedRunningGroup (incarnation : PyStr) (p : Payload) : Bool :=
  hasType p "command" && isTrueEq (status p) "running" &&
    isTrueEq (workerIncarnation p) incarnation && ((processPgid p).bind Json.text?).isSome

/-- `_owned_running_groups`. -/
def ownedRunningGroups (incarnation : PyStr) (t : JobsTable) : List OwnedGroup :=
  (t.rows.filter fun r => ownedRunningGroup incarnation r.2.payload).map fun r =>
    parseOwnedRunningGroupRow r.1 (processPgid r.2.payload) (processStartTimeTicks r.2.payload)

/-- The row is in the filter and carries the command's identity. -/
def names (incarnation : PyStr) (c : Command) (p : Payload) : Bool :=
  ownedRunningGroup incarnation p && positiveInt (processPgid p) = some c.pgid &&
    positiveInt (processStartTimeTicks p) = some c.startTicks

/-- The command's row names it. -/
def named (incarnation : PyStr) (t : JobsTable) (c : Command) : Bool :=
  (t.get c.job).any fun row => names incarnation c row.payload

/-- What `_owned_running_groups` returns for a command that is named. -/
def Command.group (c : Command) : OwnedGroup := ⟨some c.pgid, some c.startTicks, c.job.text⟩

section Names

variable {incarnation : PyStr} {c : Command} {p : Payload} {t : JobsTable}

theorem named_iff :
    named incarnation t c = true ↔
      ∃ row, t.get c.job = some row ∧ names incarnation c row.payload = true :=
  Option.any_eq_true _ _

theorem names_parts (h : names incarnation c p = true) :
    hasType p "command" = true ∧ status p = some "running" ∧
      workerIncarnation p = some incarnation := by
  simp only [names, ownedRunningGroup, Bool.and_eq_true, isTrueEq_iff] at h
  exact ⟨h.1.1.1.1.1, h.1.1.1.1.2, h.1.1.1.2⟩

/-- A named command is among the groups that recovery reads. -/
theorem group_mem (h : named incarnation t c = true) :
    c.group ∈ ownedRunningGroups incarnation t := by
  obtain ⟨row, hrow, hnames⟩ := named_iff.1 h
  simp only [names, Bool.and_eq_true, decide_eq_true_eq] at hnames
  refine List.mem_map.2 ⟨(c.job, row), List.mem_filter.2 ⟨Table.get_eq_some.1 hrow, hnames.1.1⟩, ?_⟩
  rw [parseOwnedRunningGroupRow, hnames.1.2, hnames.2]
  rfl

end Names

/-! ## Statements on a named row -/

/-- The paths of a chain leave the filter's fields and the identity alone. -/
def sparesIdentity (paths : List (List PyStr)) : Bool :=
  (paths.all fun path => path.head? ≠ some "type") && paths.all (pathKeeps "state" "status") &&
    paths.all (pathKeeps "state" "worker_incarnation") &&
    paths.all (pathKeeps "state" "process_pgid") &&
    paths.all (pathKeeps "state" "process_start_time_ticks")

section Statements

variable {incarnation : PyStr} {c : Command} {p : Payload} {u : Update}

theorem names_run (hspares : sparesIdentity ((u.chain p).map Prod.fst) = true) :
    names incarnation c (u.run p) = names incarnation c p := by
  simp only [sparesIdentity, Bool.and_eq_true] at hspares
  obtain ⟨⟨⟨⟨htype, hstatus⟩, hincarnation⟩, hpgid⟩, hticks⟩ := hspares
  have htype' : hasType (u.run p) "command" = hasType p "command" := by
    rw [hasType, hasType, type_run htype]
  have hstatus' : status (u.run p) = status p :=
    congrArg (Option.bind · Json.text?) (arrow_state_run hstatus)
  have hincarnation' : workerIncarnation (u.run p) = workerIncarnation p :=
    congrArg (Option.bind · Json.text?) (arrow_state_run hincarnation)
  have hpgid' : processPgid (u.run p) = processPgid p := arrow_state_run hpgid
  have hticks' : processStartTimeTicks (u.run p) = processStartTimeTicks p := arrow_state_run hticks
  rw [names, names, ownedRunningGroup, ownedRunningGroup, htype', hstatus', hincarnation', hpgid',
    hticks']

/-- A statement keeps a command named if it spares the identity of its row, or does not match it. -/
theorem named_runUpdate {t : JobsTable} {ids : List Uuid} {note : Jobs.Row → Jobs.Row}
    (hnamed : named incarnation t c = true) (hnote : ∀ row, (note row).payload = row.payload)
    (h : c.job ∈ ids → ∀ p, names incarnation c p = true → u.guard p = true →
      sparesIdentity ((u.chain p).map Prod.fst) = true) :
    named incarnation (runUpdate t ids u note) c = true := by
  obtain ⟨row, hrow, hnames⟩ := named_iff.1 hnamed
  rw [named, runUpdate, Table.get_update, hrow, Option.map_some, Option.any_some]
  split_ifs with hmatch
  · rw [Bool.and_eq_true, decide_eq_true_eq] at hmatch
    rw [hnote]
    exact (names_run (h hmatch.1 _ hnames hmatch.2)).trans hnames
  · exact hnames

end Statements

/-! ## Transactions of others -/

/-- What happens to the table beside the worker's own protocol: a transaction of any session, or
`delete_job_and_chunks`. -/
inductive TableEvent where
  | transact (tx : Transaction)
  | deleteJob (id : Uuid) (server : PyStr)

/-- `delete_job_and_chunks`. -/
def deleteJobAndChunks (t : JobsTable) (id : Uuid) (server : PyStr) : JobsTable :=
  -- `str(row[0])` of a `NULL` server
  if (t.get id).any fun row => coalesce (arrowText row.payload "server") "None" ≠ server then t
  else t.delete fun k row =>
    (k = id && hasType row.payload "command" && serverMatch row.payload server) ||
      ownedChunk server id row.payload

/-- The transaction is no claim and no process record of the incarnation. -/
def foreign (incarnation : PyStr) : Transaction → Bool
  | .claim _ worker _ _ => worker.workerIncarnation ≠ incarnation
  | .persist _ worker _ _ _ _ => worker.workerIncarnation ≠ incarnation
  | _ => true

def TableEvent.step (incarnation : PyStr) (t : JobsTable) : TableEvent → Option JobsTable
  | .transact tx => if foreign incarnation tx then Jobs.step t tx else none
  | .deleteJob id server => some (deleteJobAndChunks t id server)

/-- The event ends or deletes this row. -/
def TableEvent.takesOut (id : Uuid) (p : Payload) : TableEvent → Bool
  | .transact (.recover ids server now) => id ∈ ids && (recoverStale server now).guard p
  | .transact (.finish i server result now) => id = i && (finishJob server result now).guard p
  | .transact (.quarantine i server reason now) =>
    id = i && (Jobs.quarantineJob server reason now).guard p
  | .transact (.failUnsupported i server reason now) =>
    id = i && (failUnsupportedJob server reason now).guard p
  | .deleteJob i server => id = i && hasType p "command" && serverMatch p server
  | _ => false

section Table

variable {incarnation : PyStr} {c : Command} {t t' : JobsTable}

theorem names_not_pending {p : Payload} (hnames : names incarnation c p = true)
    (h : isTrueEq (status p) "pending" = true) : False := by
  rw [(names_parts hnames).2.1, isTrueEq_iff] at h
  exact absurd h (by decide)

theorem names_not_collectable {server cutoff : PyStr} {p : Payload}
    (hnames : names incarnation c p = true) (h : collectable server cutoff p = true) : False := by
  simp only [collectable, (names_parts hnames).2.1, Bool.and_eq_true] at h
  exact absurd h.1.2 (by decide)

theorem names_not_chunk {p : Payload} (hnames : names incarnation c p = true)
    (h : hasType p "output_chunk" = true) : False := by
  have hno := @not_chunk_of_command ⟨p, 0, false⟩ (names_parts hnames).1
  rw [h] at hno
  cases hno

theorem named_delete (hnamed : named incarnation t c = true) {q : Uuid → Jobs.Row → Bool}
    (h : ∀ row, t.get c.job = some row → names incarnation c row.payload = true →
      q c.job row = false) : named incarnation (t.delete q) c = true := by
  obtain ⟨row, hrow, hnames⟩ := named_iff.1 hnamed
  refine named_iff.2 ⟨row, ?_, hnames⟩
  rw [Table.get_delete, hrow, Option.filter_some, h row hrow hnames]
  rfl

theorem named_insertChunks {chunks : List (Uuid × Output.OutputChunk)}
    (hnamed : named incarnation t c = true) (h : insertChunks chunks t = some t') :
    named incarnation t' c = true := by
  obtain ⟨row, hrow, hnames⟩ := named_iff.1 hnamed
  rcases insertChunks_get h c.job with hsame | ⟨hnone, -⟩
  · exact named_iff.2 ⟨row, hsame.trans hrow, hnames⟩
  · rw [hrow] at hnone
    cases hnone

/-- **What leaves the filter.** A transaction that is not one of the four keeps a command named. -/
theorem named_step {tx : Transaction} (hnamed : named incarnation t c = true)
    (hforeign : foreign incarnation tx = true)
    (hkeeps : ∀ row, t.get c.job = some row →
      (TableEvent.transact tx).takesOut c.job row.payload = false)
    (h : Jobs.step t tx = some t') : named incarnation t' c = true := by
  obtain ⟨row, hrow, hnames⟩ := named_iff.1 hnamed
  have hkeep := hkeeps row hrow
  -- a statement whose guard the row of the command fails
  have hmissed : ∀ (u : Update) (ids : List Uuid) (note : Jobs.Row → Jobs.Row),
      (∀ row, (note row).payload = row.payload) →
      (c.job ∈ ids → u.guard row.payload = false) →
      named incarnation (runUpdate t ids u note) c = true := by
    intro u ids note hnote hguard
    refine named_iff.2 ⟨row, ?_, hnames⟩
    rw [runUpdate, Table.get_update, hrow, Option.map_some, if_neg]
    rw [Bool.and_eq_true, decide_eq_true_eq]
    intro hmatch
    rw [hguard hmatch.1] at hmatch
    exact Bool.false_ne_true hmatch.2
  cases tx with
  | submit id payload =>
    rw [Jobs.step] at h
    split_ifs at h with hok
    rw [Bool.and_eq_true, Option.isNone_iff_eq_none] at hok
    obtain rfl := Option.some.inj h
    refine named_iff.2 ⟨row, ?_, hnames⟩
    rw [Table.get_insert hok.1, if_neg, hrow]
    intro hid
    rw [← hid, hrow] at hok
    cases hok.1
  | claim ids worker now lease =>
    obtain rfl := Option.some.inj h
    refine hmissed _ ids _ (fun _ => rfl) fun _ => Bool.eq_false_iff.2 fun hguard => ?_
    simp only [claimJobs, Bool.and_eq_true] at hguard
    exact names_not_pending hnames hguard.2
  | cancelPending id server now =>
    obtain rfl := Option.some.inj h
    refine hmissed _ [id] _ (fun _ => rfl) fun _ => Bool.eq_false_iff.2 fun hguard => ?_
    simp only [cancelPending, Bool.and_eq_true] at hguard
    exact names_not_pending hnames hguard.2
  | cancelRunning id server now =>
    obtain rfl := Option.some.inj h
    exact named_runUpdate hnamed (fun _ => rfl) fun _ _ _ _ => rfl
  | refresh ids worker now lease =>
    obtain rfl := Option.some.inj h
    exact named_runUpdate hnamed (fun _ => rfl) fun _ _ _ _ => rfl
  | recover ids server now =>
    obtain rfl := Option.some.inj h
    refine hmissed _ ids _ (fun _ => rfl) fun hmem => ?_
    simpa [TableEvent.takesOut, hmem] using hkeep
  | persist id worker pid pgid ticks now =>
    obtain rfl := Option.some.inj h
    refine hmissed _ [id] _ (fun _ => rfl) fun _ => Bool.eq_false_iff.2 fun hguard => ?_
    simp only [Jobs.persistProcess, ownedRunning, Bool.and_eq_true, isTrueEq_iff] at hguard
    have hsame := Option.some.inj ((names_parts hnames).2.2.symm.trans hguard.2)
    simp [foreign, hsame] at hforeign
  | publish id server now chunks stdout stderr =>
    rw [Jobs.step] at h
    split_ifs at h with hroot
    · obtain ⟨t₁, hinsert, rfl⟩ := Option.map_eq_some_iff.1 h
      exact named_runUpdate (named_insertChunks hnamed hinsert) (fun _ => rfl)
        fun _ _ _ _ => rfl
    · obtain rfl := Option.some.inj h
      exact hnamed
  | finish id server result now =>
    obtain rfl := Option.some.inj h
    refine hmissed _ [id] _ (fun _ => rfl) fun hmem => ?_
    simpa [TableEvent.takesOut, List.mem_singleton.1 hmem] using hkeep
  | quarantine id server reason now =>
    obtain rfl := Option.some.inj h
    refine hmissed _ [id] _ (fun _ => rfl) fun hmem => ?_
    simpa [TableEvent.takesOut, List.mem_singleton.1 hmem] using hkeep
  | failUnsupported id server reason now =>
    obtain rfl := Option.some.inj h
    refine hmissed _ [id] _ (fun _ => rfl) fun hmem => ?_
    simpa [TableEvent.takesOut, List.mem_singleton.1 hmem] using hkeep
  | reap ids server now =>
    obtain rfl := Option.some.inj h
    refine named_iff.2 ⟨row, ?_, hnames⟩
    rw [Table.get_update, hrow, Option.map_some, if_neg]
    rw [Bool.and_eq_true, reapable, Bool.and_eq_true, Bool.and_eq_true]
    exact fun hmatch => names_not_pending hnames hmatch.2.1.2
  | mark ids server cutoff =>
    obtain rfl := Option.some.inj h
    refine hmissed _ ids _ (fun _ => rfl) fun _ => Bool.eq_false_iff.2 fun hguard => ?_
    simp only [markGc, Bool.and_eq_true] at hguard
    exact names_not_collectable hnames hguard.1
  | drain id server cutoff chunks =>
    rw [Jobs.step] at h
    split_ifs at h with hroot
    · obtain ⟨root, hroot, hdrain⟩ := (Option.any_eq_true _ _).1 hroot
      obtain rfl := Option.some.inj h
      have hchunks : named incarnation
          (t.delete fun k row => k ∈ chunks && ownedChunk server id row.payload) c = true := by
        refine named_delete hnamed fun row _ hnames => Bool.eq_false_iff.2 fun hdel => ?_
        rw [Bool.and_eq_true] at hdel
        exact names_not_chunk hnames (ownedChunk_type hdel.2)
      rw [removeDrained]
      split_ifs
      · exact hchunks
      · refine named_delete hchunks fun row' hrow' _ => ?_
        rw [decide_eq_false_iff_not]
        intro hid
        rw [hid] at hrow
        obtain rfl := Option.some.inj (hroot.symm.trans hrow)
        rw [drainable, Bool.and_eq_true] at hdrain
        exact names_not_collectable hnames hdrain.1
    · obtain rfl := Option.some.inj h
      exact hnamed
  | orphans ids server =>
    obtain rfl := Option.some.inj h
    refine named_delete hnamed fun row _ hnames => Bool.eq_false_iff.2 fun hdel => ?_
    simp only [Bool.and_eq_true] at hdel
    exact names_not_chunk hnames hdel.1.1.2

theorem TableEvent.step_named {e : TableEvent} (hnamed : named incarnation t c = true)
    (hkeeps : ∀ row, t.get c.job = some row → e.takesOut c.job row.payload = false)
    (h : e.step incarnation t = some t') : named incarnation t' c = true := by
  cases e with
  | transact tx =>
    rw [step] at h
    split_ifs at h with hforeign
    exact named_step hnamed hforeign hkeeps h
  | deleteJob id server =>
    obtain rfl := Option.some.inj h
    rw [deleteJobAndChunks]
    split_ifs
    · exact hnamed
    · refine named_delete hnamed fun row hrow hnames => ?_
      have hkeep := hkeeps row hrow
      rw [TableEvent.takesOut] at hkeep
      rw [Bool.or_eq_false_iff]
      refine ⟨hkeep, Bool.eq_false_iff.2 fun hchunk => ?_⟩
      exact names_not_chunk hnames (ownedChunk_type hchunk)

end Table

end Lubko.Worker.Groups
