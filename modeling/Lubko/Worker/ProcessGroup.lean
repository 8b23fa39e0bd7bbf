import Lubko.Lib.PyStr
import Lubko.Lib.Table
import Lubko.Lib.Uuid

/-!
# Process groups and who is in them

Outside the worker's memory a command is known by the number of its process group and the start
ticks of the group's leader. A number is taken again once the group is empty, so a process that is
found under it has to be proven a member: by the ticks of the leader, by the ledger of the members
seen under a proven leader, or by the job's marker in its environment.

One reading of `/proc` is one instant. Where a process comes from is a ghost: no code reads it, and
statements are about it.

* `alive_classifyGroup` — when a view of a group finds it alive.
* `groupReclaimDecision_eq_gone` — a group is given up only when it has no members.
* `KernelEvent.step_runs`, `KernelEvent.step_grouped` — processes come and go: no command starts to
  run again, and none leaves its group.
-/

namespace Lubko.Worker.Groups

open Lubko.Lib

/-! ## Processes -/

/-- A command the worker starts: its job, and the identity of its group. -/
structure Command where
  job : Uuid
  pgid : ℕ
  startTicks : ℕ
  deriving DecidableEq

/-- Where a process comes from. -/
inductive Origin where
  | other
  /-- The wrapper of a command whose gate is not released. -/
  | gated (command : Command)
  /-- A command whose gate was released, and what it forked. -/
  | released (command : Command)
  deriving DecidableEq

/-- A process as `/proc` shows it, with its origin. -/
structure Process where
  startTicks : ℕ
  pgrp : ℕ
  /-- It has exited and is not reaped. -/
  zombie : Bool := false
  /-- `LUBKO_JOB_ID` in its environment, if that is readable. -/
  jobId : Option PyStr
  origin : Origin

/-- The process table. -/
abbrev ProcessTable := Table ℕ Process

/-- `ledger`: the start ticks of members, by pid. -/
abbrev Ledger := ℕ → Option ℕ

section Reading

variable (ps : ProcessTable)

/-- `proc_start_ticks`. -/
def procStartTicks (pid : ℕ) : Option ℕ := (ps.get pid).map Process.startTicks

/-- `process_pgrp`: a zombie has none. -/
def processPgrp (pid : ℕ) : Option ℕ :=
  (ps.get pid).bind fun p => if p.zombie then none else some p.pgrp

/-- `_group_member_pids`. -/
def groupMemberPids (pgid : ℕ) : List ℕ :=
  (ps.rows.map Prod.fst).filter fun pid => processPgrp ps pid = some pgid

/-- `group_has_members`. -/
def groupHasMembers (pgid : ℕ) : Bool :=
  (ps.rows.map Prod.fst).any fun pid => processPgrp ps pid = some pgid

/-- `_process_job_id`: the environment of a zombie is empty. -/
def processJobId (pid : ℕ) : Option PyStr :=
  (ps.get pid).bind fun p => if p.zombie then none else p.jobId

/-- `_proven_member_ticks`. -/
def provenMemberTicks (pid : ℕ) (ledger : Ledger) (marker : Option PyStr) : Option ℕ :=
  match procStartTicks ps pid with
  | none => none
  | some memberTicks =>
    if ledger pid = some memberTicks then some memberTicks
    else if marker.isSome && processJobId ps pid = marker then some memberTicks
    else none

/-- `_ledger_owned_members`. -/
def ledgerOwnedMembers (pgid : ℕ) (ledger : Ledger) (marker : Option PyStr) : List ℕ :=
  (groupMemberPids ps pgid).filter fun pid =>
    pid ≠ pgid && (provenMemberTicks ps pid ledger marker).isSome

end Reading

/-- `_OwnedGroupView`. -/
structure OwnedGroupView where
  leaderOurs : Bool
  pids : List ℕ

/-- What `_owned_group_alive` makes of a view. -/
def OwnedGroupView.alive (view : OwnedGroupView) : Bool := view.leaderOurs || view.pids ≠ []

section Judging

variable (ps : ProcessTable) (pgid startTicks : ℕ) (ledger : Ledger) (marker : Option PyStr)

/-- The recorded command occupies the leader slot. -/
def leaderProven : Bool := 0 < startTicks && procStartTicks ps pgid = some startTicks

/-- The ledger after the members were recorded under a proven leader. -/
def recordMembers : Ledger := fun pid =>
  if pid ∈ groupMemberPids ps pgid then (procStartTicks ps pid).or (ledger pid) else ledger pid

/-- `_classify_group`: the view, and the ledger after it. Ticks that are missing are `0`. -/
def classifyGroup : OwnedGroupView × Ledger :=
  if !groupHasMembers ps pgid then (⟨false, []⟩, ledger)
  else if leaderProven ps pgid startTicks then (⟨true, []⟩, recordMembers ps pgid ledger)
  else (⟨false, ledgerOwnedMembers ps pgid ledger marker⟩, ledger)

/-- Some member of the group is proven to be one. -/
def shown : Bool :=
  (groupMemberPids ps pgid).any fun pid =>
    leaderProven ps pgid startTicks ||
      (pid ≠ pgid && (provenMemberTicks ps pid ledger marker).isSome)

/-- `_signal_owned_pids` on one candidate: whether it is proven and signalled. -/
def signalOwnedPid (pid : ℕ) : Bool := (provenMemberTicks ps pid ledger marker).isSome

end Judging

/-- `GroupReclaimDecision`. -/
inductive GroupReclaimDecision where
  | gone
  | reclaim
  | unresolved
  deriving DecidableEq

/-- `_group_reclaim_decision`. -/
def groupReclaimDecision (ps : ProcessTable) (pgid : ℕ) (startTicks : Option ℕ) :
    GroupReclaimDecision :=
  if !groupHasMembers ps pgid then .gone
  else
    match startTicks with
    | none => .unresolved
    | some startTicks =>
      if startTicks = 0 then .unresolved
      else
        match procStartTicks ps pgid with
        | none => .unresolved
        | some liveTicks => if liveTicks ≠ startTicks then .unresolved else .reclaim

/-! ### What a view says -/

section Facts

variable {ps : ProcessTable} {pid pgid startTicks : ℕ} {ledger : Ledger} {marker : Option PyStr}

theorem processPgrp_eq_some :
    processPgrp ps pid = some pgid ↔
      ∃ p, ps.get pid = some p ∧ p.zombie = false ∧ p.pgrp = pgid := by
  rw [processPgrp, Option.bind_eq_some_iff]
  refine exists_congr fun p => and_congr_right fun _ => ?_
  cases p.zombie <;> simp

theorem mem_groupMemberPids :
    pid ∈ groupMemberPids ps pgid ↔ ∃ p, ps.get pid = some p ∧ p.zombie = false ∧ p.pgrp = pgid := by
  rw [groupMemberPids, List.mem_filter, decide_eq_true_eq, processPgrp_eq_some, and_iff_right_iff_imp]
  intro h
  obtain ⟨p, hget, -⟩ := h
  exact List.mem_map.2 ⟨(pid, p), Table.get_eq_some.1 hget, rfl⟩

theorem groupHasMembers_iff :
    groupHasMembers ps pgid = true ↔ ∃ pid, pid ∈ groupMemberPids ps pgid := by
  simp only [groupHasMembers, groupMemberPids, List.any_eq_true, List.mem_filter]

/-- A view finds the group alive when a member is shown. -/
theorem alive_classifyGroup :
    (classifyGroup ps pgid startTicks ledger marker).1.alive =
      shown ps pgid startTicks ledger marker := by
  rw [Bool.eq_iff_iff, shown, List.any_eq_true, classifyGroup]
  by_cases hmembers : groupHasMembers ps pgid = true
  · rw [hmembers, Bool.not_true, if_neg Bool.false_ne_true]
    by_cases hleader : leaderProven ps pgid startTicks = true
    · rw [if_pos hleader, hleader]
      obtain ⟨pid, hpid⟩ := groupHasMembers_iff.1 hmembers
      exact iff_of_true rfl ⟨pid, hpid, rfl⟩
    · rw [if_neg hleader, Bool.not_eq_true] at *
      rw [hleader]
      simp [OwnedGroupView.alive, ledgerOwnedMembers, List.filter_eq_nil_iff, Option.isSome_iff_ne_none]
  · rw [Bool.not_eq_true] at hmembers
    rw [hmembers, Bool.not_false, if_pos rfl]
    refine iff_of_false (by simp [OwnedGroupView.alive]) fun ⟨pid, hpid, _⟩ => ?_
    rw [groupHasMembers_iff.2 ⟨pid, hpid⟩] at hmembers
    cases hmembers

/-- A group is given up only when it has no members. -/
theorem groupReclaimDecision_eq_gone {startTicks : Option ℕ} :
    groupReclaimDecision ps pgid startTicks = .gone ↔ groupHasMembers ps pgid = false := by
  unfold groupReclaimDecision
  cases groupHasMembers ps pgid with
  | false => simp
  | true =>
    cases startTicks with
    | none => simp
    | some startTicks =>
      by_cases hzero : startTicks = 0
      · simp [hzero]
      · cases procStartTicks ps pgid with
        | none => simp [hzero]
        | some liveTicks => by_cases hticks : liveTicks = startTicks <;> simp [hzero, hticks]

end Facts

/-! ## Running commands -/

/-- A process of a released command that has not exited. -/
def Process.runs (p : Process) (c : Command) : Bool := !p.zombie && p.origin = .released c

/-- A process of the command is left. -/
def runs (ps : ProcessTable) (c : Command) : Bool := ps.any fun _ p => p.runs c

/-- The commands of which a process is left. -/
def runningCommands (ps : ProcessTable) : List Command :=
  ps.rows.filterMap fun r =>
    match r.2.origin with
    | .released c => if r.2.zombie then none else some c
    | _ => none

/-- The processes of a command are in its group. -/
def Grouped (ps : ProcessTable) : Prop :=
  ∀ pid p c, ps.get pid = some p → p.origin = .gated c ∨ p.origin = .released c → p.pgrp = c.pgid

section Running

variable {ps : ProcessTable} {c : Command}

theorem runs_iff :
    runs ps c = true ↔
      ∃ pid p, ps.get pid = some p ∧ p.zombie = false ∧ p.origin = .released c := by
  simp [runs, Table.any_eq_true, Process.runs]

theorem mem_runningCommands : c ∈ runningCommands ps ↔ runs ps c = true := by
  rw [runningCommands, List.mem_filterMap, runs_iff]
  constructor
  · intro ⟨r, hr, hc⟩
    refine ⟨r.1, r.2, Table.get_eq_some.2 hr, ?_⟩
    cases horigin : r.2.origin with
    | other => rw [horigin] at hc; cases hc
    | gated c' => rw [horigin] at hc; cases hc
    | released c' => cases hzombie : r.2.zombie <;> simp_all
  · intro ⟨pid, p, hget, hzombie, horigin⟩
    refine ⟨(pid, p), Table.get_eq_some.1 hget, ?_⟩
    simp [horigin, hzombie]

theorem Grouped.hasMembers (hgrouped : Grouped ps) (hruns : runs ps c = true) :
    groupHasMembers ps c.pgid = true := by
  obtain ⟨pid, p, hget, hzombie, horigin⟩ := runs_iff.1 hruns
  refine groupHasMembers_iff.2 ⟨pid, mem_groupMemberPids.2 ⟨p, hget, hzombie, ?_⟩⟩
  exact hgrouped pid p c hget (Or.inr horigin)

end Running

/-! ## Processes come and go -/

/-- A number the kernel may give to a new process: no process and no group has it. -/
def freePid (ps : ProcessTable) (pid : ℕ) : Bool :=
  0 < pid && (ps.get pid).isNone && !ps.any fun _ p => p.pgrp = pid

/-- The wrapper waits at its gate. -/
def Process.waits (p : Process) : Bool :=
  match p.origin with
  | .gated _ => true
  | _ => false

/-- What happens to processes. A signal has no event of its own: a process may exit at any time. A
command's process keeps its group, and no other process can join it. -/
inductive KernelEvent where
  | fork (parent pid startTicks : ℕ)
  /-- A new image, with a new environment. -/
  | exec (pid : ℕ) (jobId : Option PyStr)
  | exit (pid : ℕ)
  | reap (pid : ℕ)
  /-- A process that is no command's, in a group of its own or of another such process. -/
  | start (pid startTicks pgrp : ℕ) (jobId : Option PyStr)

def KernelEvent.step (ps : ProcessTable) : KernelEvent → Option ProcessTable
  | .fork parent pid startTicks =>
    (ps.get parent).bind fun p =>
      if !p.zombie && !p.waits && freePid ps pid then
        some (ps.insert pid { p with startTicks })
      else none
  | .exec pid jobId =>
    (ps.get pid).bind fun p =>
      if !p.zombie && !p.waits then some (ps.set pid { p with jobId }) else none
  | .exit pid => (ps.get pid).map fun p => ps.set pid { p with zombie := true }
  | .reap pid =>
    (ps.get pid).bind fun p => if p.zombie then some (ps.delete fun k _ => k = pid) else none
  | .start pid startTicks pgrp jobId =>
    if freePid ps pid && (pgrp = pid || ps.any fun _ p => p.pgrp = pgrp && p.origin = .other) then
      some (ps.insert pid { startTicks, pgrp, jobId, origin := .other })
    else none

/-- The gated start of a job: the wrapper leads a group of its own and carries the marker. -/
def spawnGated (ps : ProcessTable) (job : Uuid) (pid startTicks : ℕ) : ProcessTable :=
  ps.insert pid
    { startTicks, pgrp := pid, jobId := some job.text, origin := .gated ⟨job, pid, startTicks⟩ }

/-- The wrapper of the command waits at its gate. -/
def waitsAtGate (ps : ProcessTable) (c : Command) : Bool :=
  (ps.get c.pgid).any fun p => !p.zombie && p.origin = .gated c

/-- The wrapper reads the release byte. -/
def openGate (ps : ProcessTable) (c : Command) : ProcessTable :=
  ps.update fun _ p => if p.origin = .gated c then { p with origin := .released c } else p

section Kernel

variable {ps ps' : ProcessTable} {c : Command} {pid startTicks : ℕ}

theorem freePid_get (h : freePid ps pid = true) : ps.get pid = none := by
  simp only [freePid, Bool.and_eq_true, Option.isNone_iff_eq_none] at h
  exact h.1.2

/-- What a table that differs under one key runs. -/
theorem runs_of_get {p : Process} (hget : ∀ k, ps'.get k = if k = pid then some p else ps.get k)
    (hp : p.runs c = true → runs ps c = true) (h : runs ps' c = true) : runs ps c = true := by
  obtain ⟨k, q, hq, hzombie, horigin⟩ := runs_iff.1 h
  rw [hget] at hq
  split_ifs at hq
  · obtain rfl := Option.some.inj hq
    exact hp (by simp [Process.runs, hzombie, horigin])
  · exact runs_iff.2 ⟨k, q, hq, hzombie, horigin⟩

theorem Grouped.of_get {p : Process} (hgrouped : Grouped ps)
    (hget : ∀ k, ps'.get k = if k = pid then some p else ps.get k)
    (hp : ∀ c, p.origin = .gated c ∨ p.origin = .released c → p.pgrp = c.pgid) : Grouped ps' := by
  intro k q c hq horigin
  rw [hget] at hq
  split_ifs at hq
  · obtain rfl := Option.some.inj hq
    exact hp c horigin
  · exact hgrouped k q c hq horigin

theorem runs_spawnGated (job : Uuid) (hfree : freePid ps pid = true)
    (h : runs (spawnGated ps job pid startTicks) c = true) : runs ps c = true := by
  refine runs_of_get (Table.get_insert (freePid_get hfree) _) (fun hp => ?_) h
  simp [Process.runs] at hp

theorem Grouped.spawnGated (hgrouped : Grouped ps) (job : Uuid) (hfree : freePid ps pid = true) :
    Grouped (spawnGated ps job pid startTicks) := by
  refine hgrouped.of_get (Table.get_insert (freePid_get hfree) _) fun c horigin => ?_
  rcases horigin with hgated | hreleased
  · obtain rfl := Origin.gated.inj hgated
    rfl
  · cases hreleased

theorem runs_openGate {c' : Command} (h : runs (openGate ps c) c' = true) :
    c' = c ∨ runs ps c' = true := by
  obtain ⟨k, q, hq, hzombie, horigin⟩ := runs_iff.1 h
  rw [openGate, Table.get_update] at hq
  obtain ⟨p, hp, rfl⟩ := Option.map_eq_some_iff.1 hq
  split_ifs at hzombie horigin with hgated
  · exact Or.inl (Origin.released.inj horigin).symm
  · exact Or.inr (runs_iff.2 ⟨k, p, hp, hzombie, horigin⟩)

theorem Grouped.openGate (hgrouped : Grouped ps) : Grouped (openGate ps c) := by
  intro k q c' hq horigin
  rw [Groups.openGate, Table.get_update] at hq
  obtain ⟨p, hp, rfl⟩ := Option.map_eq_some_iff.1 hq
  split_ifs at horigin ⊢ with hgated
  · rcases horigin with h | h
    · cases h
    · obtain rfl := Origin.released.inj h
      exact hgrouped k p _ hp (Or.inl hgated)
  · exact hgrouped k p c' hp horigin

/-- No event makes a command run that did not. -/
theorem KernelEvent.step_runs {e : KernelEvent} (h : e.step ps = some ps')
    (hruns : runs ps' c = true) : runs ps c = true := by
  cases e with
  | fork parent pid startTicks =>
    obtain ⟨p, hp, h⟩ := Option.bind_eq_some_iff.1 h
    split_ifs at h with hguard
    simp only [Bool.and_eq_true, Bool.not_eq_true'] at hguard
    obtain rfl := Option.some.inj h
    refine runs_of_get (Table.get_insert (freePid_get hguard.2) _) (fun hchild => ?_) hruns
    simp only [Process.runs, Bool.and_eq_true, decide_eq_true_eq] at hchild
    exact runs_iff.2 ⟨parent, p, hp, hguard.1.1, hchild.2⟩
  | exec pid jobId =>
    obtain ⟨p, hp, h⟩ := Option.bind_eq_some_iff.1 h
    split_ifs at h with hguard
    obtain rfl := Option.some.inj h
    refine runs_of_get (Table.get_set ps pid _) (fun hnew => ?_) hruns
    simp only [Process.runs, Bool.and_eq_true, Bool.not_eq_true', decide_eq_true_eq] at hnew
    exact runs_iff.2 ⟨pid, p, hp, hnew.1, hnew.2⟩
  | exit pid =>
    obtain ⟨p, hp, rfl⟩ := Option.map_eq_some_iff.1 h
    refine runs_of_get (Table.get_set ps pid _) (fun hnew => ?_) hruns
    simp [Process.runs] at hnew
  | reap pid =>
    obtain ⟨p, hp, h⟩ := Option.bind_eq_some_iff.1 h
    split_ifs at h
    obtain rfl := Option.some.inj h
    obtain ⟨k, q, hq, hzombie, horigin⟩ := runs_iff.1 hruns
    rw [Table.get_delete, Option.filter_eq_some_iff] at hq
    exact runs_iff.2 ⟨k, q, hq.1, hzombie, horigin⟩
  | start pid startTicks pgrp jobId =>
    rw [step] at h
    split_ifs at h with hguard
    obtain rfl := Option.some.inj h
    rw [Bool.and_eq_true] at hguard
    refine runs_of_get (Table.get_insert (freePid_get hguard.1) _) (fun hnew => ?_) hruns
    simp [Process.runs] at hnew

/-- No process of a command leaves the command's group. -/
theorem KernelEvent.step_grouped {e : KernelEvent} (h : e.step ps = some ps')
    (hgrouped : Grouped ps) : Grouped ps' := by
  cases e with
  | fork parent pid startTicks =>
    obtain ⟨p, hp, h⟩ := Option.bind_eq_some_iff.1 h
    split_ifs at h with hguard
    simp only [Bool.and_eq_true, Bool.not_eq_true'] at hguard
    obtain rfl := Option.some.inj h
    refine hgrouped.of_get (Table.get_insert (freePid_get hguard.2) _) fun c horigin => ?_
    exact hgrouped parent p c hp horigin
  | exec pid jobId =>
    obtain ⟨p, hp, h⟩ := Option.bind_eq_some_iff.1 h
    split_ifs at h with hguard
    obtain rfl := Option.some.inj h
    exact hgrouped.of_get (Table.get_set ps pid _) fun c horigin => hgrouped pid p c hp horigin
  | exit pid =>
    obtain ⟨p, hp, rfl⟩ := Option.map_eq_some_iff.1 h
    exact hgrouped.of_get (Table.get_set ps pid _) fun c horigin => hgrouped pid p c hp horigin
  | reap pid =>
    obtain ⟨p, hp, h⟩ := Option.bind_eq_some_iff.1 h
    split_ifs at h
    obtain rfl := Option.some.inj h
    intro k q c hq horigin
    rw [Table.get_delete, Option.filter_eq_some_iff] at hq
    exact hgrouped k q c hq.1 horigin
  | start pid startTicks pgrp jobId =>
    rw [step] at h
    split_ifs at h with hguard
    obtain rfl := Option.some.inj h
    rw [Bool.and_eq_true] at hguard
    refine hgrouped.of_get (Table.get_insert (freePid_get hguard.1) _) fun c horigin => ?_
    rcases horigin with h | h <;> cases h

end Kernel

end Lubko.Worker.Groups
