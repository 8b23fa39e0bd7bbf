import Lubko.Lib.CrashProgram
import Lubko.Worker.ProcessGroup

/-!
# Signals to exactly the processes of a group

A group is signalled member by member. Each member is proven by its start ticks, against the ledger
or by the job's marker, and the signal goes through a descriptor that was opened before the ticks
were read again. The ledger is filled while the leader is proven, by one reading of `/proc` after
another.

Every reading is a call, and processes come and go between any two calls: numbers of processes and
of groups are given again, though never a pid twice at the same ticks. Founders of groups, and who
was in which group, are ghosts.

* `Kernel.Later` — what stays true of an instance while processes come and go.
* `program_good` — every signal goes to an instance of the group or of the job, or to one that was
  recorded in the ledger without being one.
* `signals_owned` — where only members were recorded, only members are signalled.
-/

namespace Lubko.Worker.Groups

open Lubko.Lib

/-! ## Instances -/

/-- One instance of a process: its number, and when it started. -/
structure Identity where
  pid : ℕ
  startTicks : ℕ
  deriving DecidableEq

/-- The processes, and what has become of them. -/
structure Kernel where
  now : ℕ
  table : ProcessTable
  /-- The instance that founded the group which has the number. -/
  founder : ℕ → Identity
  /-- Every instance there was. -/
  given : List Identity
  /-- Who was in the group of which founder. -/
  joined : List (Identity × Identity)
  /-- Who had which marker in its environment. -/
  carried : List (Identity × PyStr)

/-- What happens to processes. -/
inductive Churn where
  | tick
  | fork (parent pid : ℕ)
  /-- `setsid`, or `setpgid` to a group of its own. -/
  | found (pid : ℕ)
  | join (pid pgrp : ℕ)
  | exec (pid : ℕ) (jobId : Option PyStr)
  | exit (pid : ℕ)
  | reap (pid : ℕ)

namespace Kernel

/-- The instance that has the number. -/
def holder (k : Kernel) (pid : ℕ) : Option Identity :=
  (k.table.get pid).map fun p => ⟨pid, p.startTicks⟩

/-- The process under the number is now `p`. -/
def place (k : Kernel) (pid : ℕ) (p : Process) : Kernel := { k with
  table := k.table.set pid p
  given := ⟨pid, p.startTicks⟩ :: k.given
  joined := (⟨pid, p.startTicks⟩, k.founder p.pgrp) :: k.joined
  carried :=
    match p.jobId with
    | some jobId => (⟨pid, p.startTicks⟩, jobId) :: k.carried
    | none => k.carried }

/-- Change the process under a number, if it has not exited. -/
def alter (k : Kernel) (pid : ℕ) (f : Process → Process) : Option Kernel :=
  (k.table.get pid).bind fun p => if p.zombie then none else some (k.place pid (f p))

/-- One event. A number is free when no process and no group has it. -/
def step (k : Kernel) : Churn → Option Kernel
  | .tick => some { k with now := k.now + 1 }
  | .fork parent pid =>
    (k.table.get parent).bind fun p =>
      if !p.zombie && freePid k.table pid && ⟨pid, k.now⟩ ∉ k.given then
        some (k.place pid { p with startTicks := k.now })
      else none
  | .found pid =>
    (k.holder pid).bind fun id =>
      if k.table.any fun _ p => p.pgrp = pid then none
      else
        ({ k with founder := Function.update k.founder pid id }).alter pid
          fun p => { p with pgrp := pid }
  | .join pid pgrp =>
    if k.table.any fun _ p => p.pgrp = pgrp then k.alter pid fun p => { p with pgrp } else none
  | .exec pid jobId => k.alter pid fun p => { p with jobId }
  | .exit pid => k.alter pid fun p => { p with zombie := true }
  | .reap pid =>
    (k.table.get pid).bind fun p =>
      if p.zombie then some { k with table := k.table.delete fun j _ => j = pid } else none

/-- The events in turn; one that cannot happen does not. -/
def run (k : Kernel) (events : List Churn) : Kernel :=
  events.foldl (fun k e => (k.step e).getD k) k

/-- The instance was there, and is no more. -/
def Dead (k : Kernel) (id : Identity) : Prop := id ∈ k.given ∧ k.holder id.pid ≠ some id

/-- The ghosts know of every process. -/
structure Coherent (k : Kernel) : Prop where
  given : ∀ pid p, k.table.get pid = some p → ⟨pid, p.startTicks⟩ ∈ k.given
  joined : ∀ pid p, k.table.get pid = some p →
    (⟨pid, p.startTicks⟩, k.founder p.pgrp) ∈ k.joined
  carried : ∀ pid p jobId, k.table.get pid = some p → p.jobId = some jobId →
    (⟨pid, p.startTicks⟩, jobId) ∈ k.carried

/-- What stays true. -/
structure Later (k k' : Kernel) : Prop where
  given : k.given ⊆ k'.given
  joined : k.joined ⊆ k'.joined
  carried : k.carried ⊆ k'.carried
  dead : ∀ id, k.Dead id → k'.Dead id

variable {k k' k'' : Kernel} {pid : ℕ}

theorem Later.refl (k : Kernel) : k.Later k :=
  ⟨fun _ h => h, fun _ h => h, fun _ h => h, fun _ h => h⟩

theorem Later.trans (h : k.Later k') (h' : k'.Later k'') : k.Later k'' :=
  ⟨fun _ hx => h'.given (h.given hx), fun _ hx => h'.joined (h.joined hx),
    fun _ hx => h'.carried (h.carried hx), fun id hx => h'.dead id (h.dead id hx)⟩

theorem holder_eq_some {id : Identity} :
    k.holder pid = some id ↔
      ∃ p, k.table.get pid = some p ∧ id = ⟨pid, p.startTicks⟩ := by
  rw [holder, Option.map_eq_some_iff]
  exact exists_congr fun p => and_congr_right fun _ => eq_comm

theorem holder_place (k : Kernel) (pid : ℕ) (p : Process) (j : ℕ) :
    (k.place pid p).holder j = if j = pid then some ⟨pid, p.startTicks⟩ else k.holder j := by
  show ((k.table.set pid p).get j).map _ = _
  rw [Table.get_set]
  split_ifs with hj
  · rw [hj]
    rfl
  · rfl

/-- A process that keeps its ticks, or that starts under a free number at ticks of its own. -/
theorem Later.place {p : Process}
    (h : k.holder pid = some ⟨pid, p.startTicks⟩ ∨ ⟨pid, p.startTicks⟩ ∉ k.given) :
    k.Later (k.place pid p) := by
  refine ⟨List.subset_cons_self _ _, List.subset_cons_self _ _, ?_, fun id hdead => ?_⟩
  · show k.carried ⊆ match p.jobId with | some jobId => _ | none => _
    cases p.jobId with
    | none => exact fun _ hx => hx
    | some jobId => exact List.subset_cons_self _ _
  · refine ⟨List.mem_cons_of_mem _ hdead.1, fun hholder => ?_⟩
    rw [holder_place] at hholder
    split_ifs at hholder with hpid
    · obtain rfl := Option.some.inj hholder
      rcases h with h | h
      · exact hdead.2 h
      · exact h hdead.1
    · exact hdead.2 hholder

theorem Coherent.place (hk : k.Coherent) (pid : ℕ) (p : Process) : (k.place pid p).Coherent := by
  have hget : ∀ j q, (k.place pid p).table.get j = some q →
      (j = pid ∧ q = p) ∨ k.table.get j = some q := by
    intro j q hq
    rw [show (k.place pid p).table = k.table.set pid p from rfl, Table.get_set] at hq
    split_ifs at hq with hj
    · exact .inl ⟨hj, (Option.some.inj hq).symm⟩
    · exact .inr hq
  refine ⟨fun j q hq => ?_, fun j q hq => ?_, fun j q jobId hq hjob => ?_⟩
  · rcases hget j q hq with ⟨rfl, rfl⟩ | hold
    · exact List.mem_cons_self
    · exact List.mem_cons_of_mem _ (hk.given j q hold)
  · rcases hget j q hq with ⟨rfl, rfl⟩ | hold
    · exact List.mem_cons_self
    · exact List.mem_cons_of_mem _ (hk.joined j q hold)
  · show _ ∈ match p.jobId with | some jobId => _ | none => _
    rcases hget j q hq with ⟨rfl, rfl⟩ | hold
    · rw [hjob]
      exact List.mem_cons_self
    · cases p.jobId with
      | none => exact hk.carried j q jobId hold hjob
      | some other => exact List.mem_cons_of_mem _ (hk.carried j q jobId hold hjob)

/-- A change that keeps the ticks. -/
theorem alter_later (hk : k.Coherent) {f : Process → Process} (h : k.alter pid f = some k')
    (hf : ∀ p, (f p).startTicks = p.startTicks) : k'.Coherent ∧ k.Later k' := by
  obtain ⟨p, hp, h⟩ := Option.bind_eq_some_iff.1 h
  split_ifs at h
  obtain rfl := Option.some.inj h
  refine ⟨hk.place pid (f p), .place (.inl ?_)⟩
  rw [hf]
  exact holder_eq_some.2 ⟨p, hp, rfl⟩

/-- **One event.** -/
theorem step_later {e : Churn} (hk : k.Coherent) (h : k.step e = some k') :
    k'.Coherent ∧ k.Later k' := by
  cases e with
  | tick =>
    obtain rfl := Option.some.inj h
    exact ⟨⟨hk.given, hk.joined, hk.carried⟩, ⟨fun _ h => h, fun _ h => h, fun _ h => h,
      fun _ h => h⟩⟩
  | fork parent pid =>
    obtain ⟨p, hp, h⟩ := Option.bind_eq_some_iff.1 h
    split_ifs at h with hguard
    simp only [Bool.and_eq_true, decide_eq_true_eq] at hguard
    obtain rfl := Option.some.inj h
    exact ⟨hk.place pid _, .place (.inr hguard.2)⟩
  | found pid =>
    obtain ⟨id, hid, h⟩ := Option.bind_eq_some_iff.1 h
    split_ifs at h with hempty
    have hfounded : Coherent { k with founder := Function.update k.founder pid id } := by
      refine ⟨hk.given, fun j q hq => ?_, hk.carried⟩
      have hother : q.pgrp ≠ pid := by
        rintro rfl
        exact hempty (Table.any_eq_true.2 ⟨j, q, hq, decide_eq_true rfl⟩)
      show (_, Function.update k.founder pid id q.pgrp) ∈ k.joined
      rw [Function.update_of_ne hother]
      exact hk.joined j q hq
    obtain ⟨hcoherent, hlater⟩ := alter_later hfounded h fun _ => rfl
    exact ⟨hcoherent, hlater.given, hlater.joined, hlater.carried, hlater.dead⟩
  | join pid pgrp =>
    rw [step] at h
    split_ifs at h
    exact alter_later hk h fun _ => rfl
  | exec pid jobId => exact alter_later hk h fun _ => rfl
  | exit pid => exact alter_later hk h fun _ => rfl
  | reap pid =>
    obtain ⟨p, hp, h⟩ := Option.bind_eq_some_iff.1 h
    split_ifs at h
    obtain rfl := Option.some.inj h
    have hget : ∀ j q, (k.table.delete fun j _ => j = pid).get j = some q →
        k.table.get j = some q := by
      intro j q hq
      rw [Table.get_delete, Option.filter_eq_some_iff] at hq
      exact hq.1
    refine ⟨⟨fun j q hq => hk.given j q (hget j q hq), fun j q hq => hk.joined j q (hget j q hq),
      fun j q jobId hq => hk.carried j q jobId (hget j q hq)⟩, fun _ h => h, fun _ h => h,
      fun _ h => h, fun id hdead => ⟨hdead.1, fun hholder => ?_⟩⟩
    obtain ⟨q, hq, hid⟩ := holder_eq_some.1 hholder
    exact hdead.2 (holder_eq_some.2 ⟨q, hget _ q hq, hid⟩)

theorem run_later (hk : k.Coherent) (events : List Churn) :
    (k.run events).Coherent ∧ k.Later (k.run events) := by
  induction events generalizing k with
  | nil => exact ⟨hk, .refl k⟩
  | cons e events ih =>
    have hstep : ((k.step e).getD k).Coherent ∧ k.Later ((k.step e).getD k) := by
      cases hnext : k.step e with
      | none => exact ⟨hk, .refl k⟩
      | some k' => exact step_later hk hnext
    obtain ⟨hcoherent, hlater⟩ := ih hstep.1
    exact ⟨hcoherent, hstep.2.trans hlater⟩

/-- The instance is the recorded leader, was in its group, or carries the marker. -/
def owned (leader : Identity) (marker : Option PyStr) (k : Kernel) (id : Identity) : Bool :=
  id = leader || (id, leader) ∈ k.joined || marker.any fun jobId => (id, jobId) ∈ k.carried

theorem Later.owned {leader id : Identity} {marker : Option PyStr} (h : k.Later k')
    (hid : k.owned leader marker id = true) : k'.owned leader marker id = true := by
  simp only [Kernel.owned, Bool.or_eq_true, decide_eq_true_eq, Option.any_eq_true] at hid ⊢
  rcases hid with (hid | hid) | ⟨jobId, hmarker, hid⟩
  · exact .inl (.inl hid)
  · exact .inl (.inr (h.joined hid))
  · exact .inr ⟨jobId, hmarker, h.carried hid⟩

theorem owned_of_carried {leader id : Identity} {jobId : PyStr} (h : (id, jobId) ∈ k.carried) :
    k.owned leader (some jobId) id = true := by
  simp [owned, h]

/-- Who is in the group while the recorded leader is its founder is owned. -/
theorem owned_of_member (hk : k.Coherent) {leader : Identity} {marker : Option PyStr} {p : Process}
    (hp : k.table.get pid = some p) (hfounder : k.founder p.pgrp = leader) :
    k.owned leader marker ⟨pid, p.startTicks⟩ = true := by
  have hjoined := hk.joined pid p hp
  rw [hfounder] at hjoined
  simp [owned, hjoined]

end Kernel

/-! ## Readings -/

/-- The processes and the worker's memory. -/
structure SignalWorld where
  kernel : Kernel
  ledger : Ledger
  /-- The signals, each with the instance it was delivered to. -/
  sent : List (Identity × ℕ)
  /-- What was recorded in the ledger while it was not owned. -/
  strays : List Identity

inductive ProcCall where
  | listProc
  /-- `_process_pgrp`. -/
  | pgrp (pid : ℕ)
  /-- `proc_start_ticks`. -/
  | startTicks (pid : ℕ)
  /-- `_process_job_id`. -/
  | jobId (pid : ℕ)
  /-- `ledger.get`. -/
  | recorded (pid : ℕ)
  /-- `ledger[pid] = member_ticks`. -/
  | record (pid memberTicks : ℕ)
  | pidfdOpen (pid : ℕ)
  | pidfdSendSignal (pidfd : Identity) (sig : ℕ)

/-- What a call returns. A descriptor is the instance it refers to. -/
structure ProcReply where
  pids : List ℕ := []
  number : Option ℕ := none
  text : Option PyStr := none
  pidfd : Option Identity := none
  delivered : Bool := false

/-- What comes before a call, what the directory shows, and whether the call fails. -/
structure ProcDecision where
  churn : List Churn := []
  entries : List ℕ := []
  fails : Bool := false

namespace SignalWorld

/-- Processes come and go. -/
def passed (w : SignalWorld) (o : ProcDecision) : SignalWorld :=
  { w with kernel := w.kernel.run o.churn }

variable (leader : Identity) (marker : Option PyStr)

def record (w : SignalWorld) (id : Identity) : SignalWorld := { w with
  ledger := Function.update w.ledger id.pid (some id.startTicks)
  strays := if w.kernel.owned leader marker id then w.strays else id :: w.strays }

/-- A signal reaches the instance of its descriptor, or nobody. -/
def deliver (w : SignalWorld) (pidfd : Identity) (sig : ℕ) : Bool × SignalWorld :=
  if w.kernel.holder pidfd.pid = some pidfd then (true, { w with sent := w.sent ++ [(pidfd, sig)] })
  else (false, w)

/-- A failed reading finds nothing. -/
def found {α : Type} (o : ProcDecision) (a : Option α) : Option α := if o.fails then none else a

/-- One call, after what comes before it. -/
def call : ProcCall → ProcDecision → SignalWorld → ProcReply × SignalWorld
  | .listProc, o, w => ({ pids := o.entries }, w)
  | .pgrp pid, o, w => ({ number := found o (processPgrp w.kernel.table pid) }, w)
  | .startTicks pid, o, w => ({ number := found o (procStartTicks w.kernel.table pid) }, w)
  | .jobId pid, o, w => ({ text := found o (processJobId w.kernel.table pid) }, w)
  | .recorded pid, _, w => ({ number := w.ledger pid }, w)
  | .record pid memberTicks, _, w => ({}, w.record leader marker ⟨pid, memberTicks⟩)
  | .pidfdOpen pid, o, w => ({ pidfd := found o (w.kernel.holder pid) }, w)
  | .pidfdSendSignal pidfd sig, o, w =>
    if o.fails then ({}, w)
    else ({ delivered := (w.deliver pidfd sig).1 }, (w.deliver pidfd sig).2)

def sem (c : ProcCall) (o : ProcDecision) (w : SignalWorld) : ProcReply × SignalWorld :=
  call leader marker c o (w.passed o)

end SignalWorld

/-! ## The code -/

/-- Code that reads `/proc` and signals. -/
abbrev Signaller := Prog ProcCall ProcReply Empty

namespace Signaller

def ask (c : ProcCall) : Signaller ProcReply := .call c .ret

def readStartTicks (pid : ℕ) : Signaller (Option ℕ) := do return (← ask (.startTicks pid)).number

/-- The members among the entries of `/proc`. -/
def members (pgid : ℕ) : List ℕ → Signaller (List ℕ)
  | [] => return []
  | pid :: rest => do
    let pgrp := (← ask (.pgrp pid)).number
    let found ← members pgid rest
    return if pgrp = some pgid then pid :: found else found

/-- `_group_member_pids`. -/
def groupMemberPids (pgid : ℕ) : Signaller (List ℕ) := do members pgid (← ask .listProc).pids

/-- The loop of `group_has_members`. -/
def anyMember (pgid : ℕ) : List ℕ → Signaller Bool
  | [] => return false
  | pid :: rest => do
    if (← ask (.pgrp pid)).number = some pgid then return true else anyMember pgid rest

/-- `group_has_members`. -/
def groupHasMembers (pgid : ℕ) : Signaller Bool := do anyMember pgid (← ask .listProc).pids

/-- `_proven_member_ticks`. -/
def provenMemberTicks (marker : Option PyStr) (pid : ℕ) : Signaller (Option ℕ) := do
  match ← readStartTicks pid with
  | none => return none
  | some memberTicks =>
    if (← ask (.recorded pid)).number = some memberTicks then return some memberTicks
    else
      match marker with
      | none => return none
      | some jobId =>
        return if (← ask (.jobId pid)).text = some jobId then some memberTicks else none

/-- The loop of `_ledger_owned_members`. -/
def provenMembers (pgid : ℕ) (marker : Option PyStr) : List ℕ → Signaller (List ℕ)
  | [] => return []
  | pid :: rest => do
    if pid = pgid then provenMembers pgid marker rest
    else
      let ticks ← provenMemberTicks marker pid
      let found ← provenMembers pgid marker rest
      return if ticks.isSome then pid :: found else found

/-- `_ledger_owned_members`. -/
def ledgerOwnedMembers (pgid : ℕ) (marker : Option PyStr) : Signaller (List ℕ) := do
  provenMembers pgid marker (← groupMemberPids pgid)

/-- The loop of `_classify_group` that fills the ledger. -/
def recordMembers : List ℕ → Signaller Unit
  | [] => return ()
  | pid :: rest => do
    if let some memberTicks ← readStartTicks pid then
      let _ ← ask (.record pid memberTicks)
    recordMembers rest

/-- `_classify_group`. Ticks that are missing are `0`. -/
def classifyGroup (pgid startTicks : ℕ) (marker : Option PyStr) : Signaller OwnedGroupView := do
  if !(← groupHasMembers pgid) then return ⟨false, []⟩
  else
    let leaderTicks ← readStartTicks pgid
    if 0 < startTicks ∧ leaderTicks = some startTicks then
      recordMembers (← groupMemberPids pgid)
      return ⟨true, []⟩
    else return ⟨false, ← ledgerOwnedMembers pgid marker⟩

/-- `_pin_and_signal`. The descriptor is closed in the end, which nobody sees. -/
def pinAndSignal (pid sig expectedTicks : ℕ) : Signaller Bool := do
  match (← ask (.pidfdOpen pid)).pidfd with
  | none => return false
  | some pidfd =>
    if (← readStartTicks pid) ≠ some expectedTicks then return false
    else return (← ask (.pidfdSendSignal pidfd sig)).delivered

/-- `_signal_owned_pids`, which is also the loop of `_signal_owned_group`. -/
def signalOwnedPids (marker : Option PyStr) (sig : ℕ) : List ℕ → Signaller Bool
  | [] => return false
  | pid :: rest => do
    match ← provenMemberTicks marker pid with
    | none => signalOwnedPids marker sig rest
    | some ticks =>
      let _ ← pinAndSignal pid sig ticks
      let _ ← signalOwnedPids marker sig rest
      return true

/-- The candidates of a view. -/
def candidates (pgid : ℕ) (view : OwnedGroupView) : Signaller (List ℕ) :=
  if view.leaderOurs then groupMemberPids pgid else return view.pids

/-- `emit` of `_terminate_one_group`, and the end of `_signal_owned_group`. -/
def emit (pgid : ℕ) (marker : Option PyStr) (view : OwnedGroupView) (sig : ℕ) : Signaller Bool := do
  signalOwnedPids marker sig (← candidates pgid view)

/-- `_signal_owned_group`. -/
def signalOwnedGroup (pgid startTicks : ℕ) (marker : Option PyStr) (sig : ℕ) : Signaller Unit := do
  let view ← classifyGroup pgid startTicks marker
  let _ ← emit pgid marker view sig

/-- `_owned_group_alive`. -/
def ownedGroupAlive (pgid startTicks : ℕ) (marker : Option PyStr) : Signaller Bool := do
  return (← classifyGroup pgid startTicks marker).alive

/-- The wait of `_terminate_one_group` for an empty group, with the turns before its deadline. -/
def awaitEmpty (pgid : ℕ) : ℕ → Signaller Unit
  | 0 => return ()
  | turns + 1 => do
    if ← groupHasMembers pgid then awaitEmpty pgid turns else return ()

/-- The last loop of `_terminate_one_group`, and the view behind it. -/
def awaitGone (pgid startTicks : ℕ) (marker : Option PyStr) : ℕ → Signaller Bool
  | 0 => return !(← ownedGroupAlive pgid startTicks marker)
  | turns + 1 => do
    if ← ownedGroupAlive pgid startTicks marker then awaitGone pgid startTicks marker turns
    else return true

def SIGTERM : ℕ := 15

def SIGKILL : ℕ := 9

/-- `_terminate_one_group`, with the turns before its two deadlines. -/
def terminateOneGroup (pgid startTicks : ℕ) (marker : Option PyStr) (termTurns reapTurns : ℕ) :
    Signaller Bool := do
  let first ← classifyGroup pgid startTicks marker
  if !(← emit pgid marker first SIGTERM) then return true
  else
    awaitEmpty pgid termTurns
    let view ← classifyGroup pgid startTicks marker
    let _ ← emit pgid marker view SIGKILL
    awaitGone pgid startTicks marker reapTurns

/-- What is asked of a recorded group. -/
inductive Errand where
  | alive
  | signal (sig : ℕ)
  | terminate (termTurns reapTurns : ℕ)

/-- One errand after the other, over one ledger. -/
def program (pgid startTicks : ℕ) (marker : Option PyStr) : List Errand → Signaller Unit
  | [] => return ()
  | .alive :: rest => do
    let _ ← ownedGroupAlive pgid startTicks marker
    program pgid startTicks marker rest
  | .signal sig :: rest => do
    signalOwnedGroup pgid startTicks marker sig
    program pgid startTicks marker rest
  | .terminate termTurns reapTurns :: rest => do
    let _ ← terminateOneGroup pgid startTicks marker termTurns reapTurns
    program pgid startTicks marker rest

end Signaller

/-! ## What is signalled -/

namespace SignalWorld

section Good

variable (leader : Identity) (marker : Option PyStr)

/-- The instance is owned, or was recorded although it was not. -/
def Justified (w : SignalWorld) (id : Identity) : Prop :=
  w.kernel.owned leader marker id = true ∨ id ∈ w.strays

/-- A signal to the instance reaches a justified one, if it reaches any. -/
def Proven (w : SignalWorld) (id : Identity) : Prop :=
  w.Justified leader marker id ∨ w.kernel.Dead id

structure Good (w : SignalWorld) : Prop where
  coherent : w.kernel.Coherent
  ledger : ∀ pid startTicks, w.ledger pid = some startTicks →
    w.Justified leader marker ⟨pid, startTicks⟩
  sent : ∀ d ∈ w.sent, w.Justified leader marker d.1

structure Later (w w' : SignalWorld) : Prop where
  kernel : w.kernel.Later w'.kernel
  strays : w.strays ⊆ w'.strays

end Good

variable {leader : Identity} {marker : Option PyStr} {w w' w'' : SignalWorld} {id : Identity}

theorem Later.refl (w : SignalWorld) : w.Later w := ⟨.refl _, fun _ h => h⟩

theorem Later.trans (h : w.Later w') (h' : w'.Later w'') : w.Later w'' :=
  ⟨h.kernel.trans h'.kernel, fun _ hid => h'.strays (h.strays hid)⟩

theorem Later.justified (h : w.Later w') (hid : w.Justified leader marker id) :
    w'.Justified leader marker id := hid.imp h.kernel.owned fun hstray => h.strays hstray

theorem Later.proven (h : w.Later w') (hid : w.Proven leader marker id) :
    w'.Proven leader marker id := hid.imp h.justified (h.kernel.dead id)

theorem Good.passed (hw : w.Good leader marker) (o : ProcDecision) :
    (w.passed o).Good leader marker ∧ w.Later (w.passed o) := by
  obtain ⟨hcoherent, hkernel⟩ := Kernel.run_later hw.coherent o.churn
  have hlater : w.Later (w.passed o) := ⟨hkernel, fun _ h => h⟩
  exact ⟨⟨hcoherent, fun pid t ht => hlater.justified (hw.ledger pid t ht),
    fun d hd => hlater.justified (hw.sent d hd)⟩, hlater⟩

theorem Good.record (hw : w.Good leader marker) (id : Identity) :
    (w.record leader marker id).Good leader marker ∧ w.Later (w.record leader marker id) := by
  have hlater : w.Later (w.record leader marker id) := by
    refine ⟨.refl _, ?_⟩
    show w.strays ⊆ if _ then _ else _
    split_ifs
    · exact fun _ h => h
    · exact List.subset_cons_self _ _
  have hself : (w.record leader marker id).Justified leader marker id := by
    by_cases howned : w.kernel.owned leader marker id = true
    · exact .inl howned
    · right
      show id ∈ if _ then _ else _
      rw [if_neg howned]
      exact List.mem_cons_self
  refine ⟨⟨hw.coherent, fun pid t ht => ?_, fun d hd => hlater.justified (hw.sent d hd)⟩, hlater⟩
  by_cases hpid : pid = id.pid
  · subst hpid
    rw [show (w.record leader marker id).ledger = Function.update w.ledger id.pid _ from rfl,
      Function.update_self] at ht
    obtain rfl := Option.some.inj ht
    exact hself
  · rw [show (w.record leader marker id).ledger = Function.update w.ledger id.pid _ from rfl,
      Function.update_of_ne hpid] at ht
    exact hlater.justified (hw.ledger pid t ht)

/-- A member that is still in the leader's group is no stray. -/
theorem strays_record (hw : w.Good leader marker) {pid : ℕ} {p : Process}
    (hp : w.kernel.table.get pid = some p) (hfounder : w.kernel.founder p.pgrp = leader) :
    (w.record leader marker ⟨pid, p.startTicks⟩).strays = w.strays :=
  if_pos (Kernel.owned_of_member hw.coherent hp hfounder)

theorem Good.deliver (hw : w.Good leader marker) {pidfd : Identity}
    (hproven : w.Proven leader marker pidfd) (sig : ℕ) :
    (w.deliver pidfd sig).2.Good leader marker ∧ w.Later (w.deliver pidfd sig).2 := by
  unfold SignalWorld.deliver
  split_ifs with hholder
  · have hpidfd : w.Justified leader marker pidfd :=
      hproven.resolve_right fun hdead => hdead.2 hholder
    refine ⟨⟨hw.coherent, hw.ledger, fun d hd => ?_⟩, .refl _, fun _ h => h⟩
    rcases List.mem_append.1 hd with hd | hd
    · exact hw.sent d hd
    · obtain rfl := List.mem_singleton.1 hd
      exact hpidfd
  · exact ⟨hw, .refl w⟩

/-- The calls but for a signal to an instance that is not proven. -/
def Allowed (leader : Identity) (marker : Option PyStr) (w : SignalWorld) : ProcCall → Prop
  | .pidfdSendSignal pidfd _ => w.Proven leader marker pidfd
  | _ => True

/-- **One call.** -/
theorem Good.sem (hw : w.Good leader marker) {c : ProcCall} (hc : w.Allowed leader marker c)
    (o : ProcDecision) :
    (sem leader marker c o w).2.Good leader marker ∧ w.Later (sem leader marker c o w).2 := by
  obtain ⟨hpassed, hlater⟩ := hw.passed o
  unfold SignalWorld.sem
  cases c with
  | record pid memberTicks =>
    obtain ⟨hrecord, hlater'⟩ := hpassed.record ⟨pid, memberTicks⟩
    exact ⟨hrecord, hlater.trans hlater'⟩
  | pidfdSendSignal pidfd sig =>
    rw [call]
    split_ifs
    · exact ⟨hpassed, hlater⟩
    · obtain ⟨hdeliver, hlater'⟩ := hpassed.deliver (hlater.proven hc) sig
      exact ⟨hdeliver, hlater.trans hlater'⟩
  | listProc => exact ⟨hpassed, hlater⟩
  | pgrp pid => exact ⟨hpassed, hlater⟩
  | startTicks pid => exact ⟨hpassed, hlater⟩
  | jobId pid => exact ⟨hpassed, hlater⟩
  | recorded pid => exact ⟨hpassed, hlater⟩
  | pidfdOpen pid => exact ⟨hpassed, hlater⟩

end SignalWorld

/-! ## The code is sound -/

namespace Signaller

open SignalWorld

section Sound

variable (leader : Identity) (marker : Option PyStr)

/-- From a good world the code keeps the world good, and ends with `Q`. -/
def SoundAt {α : Type} (w : SignalWorld) (p : Signaller α) (Q : α → SignalWorld → Prop) : Prop :=
  w.Good leader marker → p.Safe (sem leader marker) (Good leader marker)
    (fun a w' => w'.Good leader marker ∧ w.Later w' ∧ Q a w') (fun _ _ => True) w

/-- The code is sound from everywhere. -/
def Harmless {α : Type} (p : Signaller α) : Prop :=
  ∀ w, p.SoundAt leader marker w fun _ _ => True

end Sound

variable {leader : Identity} {marker : Option PyStr} {w : SignalWorld} {α β : Type}

theorem soundAt_pure {a : α} {Q : α → SignalWorld → Prop}
    (h : w.Good leader marker → Q a w) : SoundAt leader marker w (pure a) Q :=
  fun hw => ⟨hw, .refl w, h hw⟩

theorem SoundAt.bind {p : Signaller α} {f : α → Signaller β} {Q : α → SignalWorld → Prop}
    {R : β → SignalWorld → Prop} (hp : p.SoundAt leader marker w Q)
    (hf : ∀ a w', w.Later w' → Q a w' → (f a).SoundAt leader marker w' R) :
    SoundAt leader marker w (p >>= f) R := by
  intro hw
  refine Prog.Safe.bind ((hp hw).mono (fun a w' h => ?_) fun _ _ _ => trivial)
  obtain ⟨hgood, hlater, hQ⟩ := h
  refine (hf a w' hlater hQ hgood).mono (fun b w'' h' => ?_) fun _ _ _ => trivial
  exact ⟨h'.1, hlater.trans h'.2.1, h'.2.2⟩

theorem soundAt_ask (c : ProcCall) (hc : w.Allowed leader marker c)
    {Q : ProcReply → SignalWorld → Prop}
    (hQ : ∀ o, (w.passed o).Good leader marker → w.Later (w.passed o) →
      Q (sem leader marker c o w).1 (sem leader marker c o w).2) :
    SoundAt leader marker w (ask c) Q := by
  intro hw
  refine ⟨hw, fun o => ?_⟩
  obtain ⟨hgood, hlater⟩ := hw.sem hc o
  exact ⟨hgood, hlater, hQ o (hw.passed o).1 (hw.passed o).2⟩

theorem Harmless.pure (a : α) : Harmless leader marker (pure a : Signaller α) :=
  fun _ => soundAt_pure fun _ => trivial

theorem Harmless.bind {p : Signaller α} {f : α → Signaller β} (hp : p.Harmless leader marker)
    (hf : ∀ a, (f a).Harmless leader marker) : Harmless leader marker (p >>= f) :=
  fun w => (hp w).bind fun a w' _ _ => hf a w'

theorem Harmless.ite {c : Prop} [Decidable c] {p q : Signaller α} (hp : p.Harmless leader marker)
    (hq : q.Harmless leader marker) : Harmless leader marker (if c then p else q) := by
  split_ifs
  · exact hp
  · exact hq

/-- A call that is no signal. -/
theorem harmless_ask {c : ProcCall} (hc : ∀ pidfd sig, c ≠ .pidfdSendSignal pidfd sig) :
    Harmless leader marker (ask c) := by
  intro w
  refine soundAt_ask c ?_ fun _ _ _ => trivial
  cases c with
  | pidfdSendSignal pidfd sig => exact absurd rfl (hc pidfd sig)
  | _ => trivial

theorem found_eq_some {o : ProcDecision} {a : Option α} {b : α} (h : found o a = some b) :
    a = some b := by
  unfold found at h
  split_ifs at h
  exact h

/-- Who has the number now. -/
theorem soundAt_readStartTicks (pid : ℕ) :
    SoundAt leader marker w (readStartTicks pid) fun ticks w' =>
      ∀ t, ticks = some t → w'.kernel.holder pid = some ⟨pid, t⟩ := by
  refine SoundAt.bind (soundAt_ask (.startTicks pid) trivial fun o _ _ => ?_) fun r w' _ hr =>
    soundAt_pure fun _ => hr
  intro t ht
  obtain ⟨p, hp, rfl⟩ := Option.map_eq_some_iff.1 (found_eq_some ht)
  exact Kernel.holder_eq_some.2 ⟨p, hp, rfl⟩

theorem harmless_readStartTicks (pid : ℕ) : Harmless leader marker (readStartTicks pid) :=
  .bind (harmless_ask nofun) fun _ => .pure _

theorem harmless_members (pgid : ℕ) (pids : List ℕ) :
    Harmless leader marker (members pgid pids) := by
  induction pids with
  | nil => exact .pure _
  | cons pid rest ih => exact .bind (harmless_ask nofun) fun _ => .bind ih fun _ => .pure _

theorem harmless_groupMemberPids (pgid : ℕ) : Harmless leader marker (groupMemberPids pgid) :=
  .bind (harmless_ask nofun) fun _ => harmless_members pgid _

theorem harmless_groupHasMembers (pgid : ℕ) : Harmless leader marker (groupHasMembers pgid) := by
  refine .bind (harmless_ask nofun) fun r => ?_
  induction r.pids with
  | nil => exact .pure _
  | cons pid rest ih => exact .bind (harmless_ask nofun) fun _ => .ite (.pure _) ih

/-- The instance that was read is another than the one that has the number now: it is dead. -/
theorem dead_of_holder {k : Kernel} {id id' : Identity} (hgiven : id ∈ k.given)
    (hholder : k.holder id.pid = some id') (hne : id' ≠ id) : k.Dead id :=
  ⟨hgiven, fun h => hne (Option.some.inj (hholder.symm.trans h))⟩

theorem given_of_holder {k : Kernel} (hk : k.Coherent) {pid : ℕ} {id : Identity}
    (h : k.holder pid = some id) : id ∈ k.given := by
  obtain ⟨p, hp, rfl⟩ := Kernel.holder_eq_some.1 h
  exact hk.given pid p hp

/-- **What is proven of a member stays true of that instance**, whoever has its number later. -/
theorem soundAt_provenMemberTicks (pid : ℕ) :
    SoundAt leader marker w (provenMemberTicks marker pid) fun ticks w' =>
      ∀ t, ticks = some t → w'.Proven leader marker ⟨pid, t⟩ := by
  refine (soundAt_readStartTicks pid).bind fun ticks w₁ _ hticks => ?_
  cases ticks with
  | none => exact soundAt_pure fun _ => nofun
  | some memberTicks =>
    have hholder := hticks memberTicks rfl
    intro hw₁
    refine SoundAt.bind (Q := fun r w₂ => r.number = w₂.ledger pid)
      (soundAt_ask (.recorded pid) trivial fun o _ _ => rfl) (fun r w₂ hlater hr => ?_) hw₁
    have hgiven := hlater.kernel.given (given_of_holder hw₁.coherent hholder)
    split_ifs with hrecorded
    · refine soundAt_pure fun hw₂ t ht => ?_
      obtain rfl := Option.some.inj ht
      exact .inl (hw₂.ledger pid memberTicks (hr.symm.trans hrecorded))
    · cases hmarker : marker with
      | none => exact soundAt_pure fun _ => nofun
      | some jobId =>
        subst hmarker
        refine SoundAt.bind (Q := fun r w₃ => r.text = some jobId →
          w₃.Proven leader (some jobId) ⟨pid, memberTicks⟩) ?_ fun r w₃ _ hr' => ?_
        · refine soundAt_ask (.jobId pid) trivial fun o hpassed hlater' htext => ?_
          obtain ⟨p, hp, hjob⟩ := Option.bind_eq_some_iff.1 (found_eq_some htext)
          split_ifs at hjob
          by_cases hticks : p.startTicks = memberTicks
          · have hcarried := hpassed.coherent.carried pid p jobId hp hjob
            rw [hticks] at hcarried
            exact .inl (.inl (Kernel.owned_of_carried hcarried))
          · right
            refine dead_of_holder (hlater'.kernel.given hgiven)
              (Kernel.holder_eq_some.2 ⟨p, hp, rfl⟩) fun heq => ?_
            exact hticks (congrArg Identity.startTicks heq)
        · refine soundAt_pure fun _ t ht => ?_
          split_ifs at ht with htext
          obtain rfl := Option.some.inj ht
          exact hr' htext

/-- **A signal reaches the instance that was proven, or nobody.** -/
theorem harmlessAt_pinAndSignal {pid sig expectedTicks : ℕ}
    (hproven : w.Proven leader marker ⟨pid, expectedTicks⟩) :
    SoundAt leader marker w (pinAndSignal pid sig expectedTicks) fun _ _ => True := by
  refine SoundAt.bind (Q := fun r w₁ => ∀ id, r.pidfd = some id →
    id ∈ w₁.kernel.given ∧ id.pid = pid) ?_ fun r w₁ hlater₁ hr => ?_
  · refine soundAt_ask (.pidfdOpen pid) trivial fun o hpassed _ id hid => ?_
    obtain ⟨p, hp, rfl⟩ := Kernel.holder_eq_some.1 (found_eq_some hid)
    exact ⟨hpassed.coherent.given pid p hp, rfl⟩
  cases hpidfd : r.pidfd with
  | none => exact soundAt_pure fun _ => trivial
  | some id =>
    obtain ⟨hgiven, hpid⟩ := hr id hpidfd
    refine (soundAt_readStartTicks pid).bind fun ticks w₂ hlater₂ hticks => ?_
    split_ifs with hsame
    · exact soundAt_pure fun _ => trivial
    · have hholder := hticks expectedTicks (not_not.1 hsame)
      have hid : w₂.Proven leader marker id := by
        by_cases heq : (⟨pid, expectedTicks⟩ : Identity) = id
        · rw [← heq]
          exact (hlater₁.trans hlater₂).proven hproven
        · right
          apply dead_of_holder (hlater₂.kernel.given hgiven) _ heq
          rw [hpid, hholder]
      exact SoundAt.bind (Q := fun _ _ => True)
        (soundAt_ask (.pidfdSendSignal id sig) hid fun _ _ _ => trivial)
        fun _ _ _ _ => soundAt_pure fun _ => trivial

theorem harmless_provenMemberTicks (pid : ℕ) :
    Harmless leader marker (provenMemberTicks marker pid) := by
  refine .bind (harmless_readStartTicks pid) fun ticks => ?_
  cases ticks with
  | none => exact .pure _
  | some memberTicks =>
    refine .bind (harmless_ask nofun) fun r => .ite (.pure _) ?_
    cases marker with
    | none => exact .pure _
    | some jobId => exact .bind (harmless_ask nofun) fun _ => .pure _

theorem harmless_provenMembers (pgid : ℕ) (pids : List ℕ) :
    Harmless leader marker (provenMembers pgid marker pids) := by
  induction pids with
  | nil => exact .pure _
  | cons pid rest ih =>
    rw [provenMembers]
    apply Harmless.ite ih
    exact .bind (harmless_provenMemberTicks pid) fun _ => .bind ih fun _ => .pure _

theorem harmless_ledgerOwnedMembers (pgid : ℕ) :
    Harmless leader marker (ledgerOwnedMembers pgid marker) :=
  .bind (harmless_groupMemberPids pgid) fun _ => harmless_provenMembers pgid _

/-- Whatever is recorded is owned or a stray. -/
theorem harmless_recordMembers (pids : List ℕ) :
    Harmless leader marker (recordMembers pids) := by
  induction pids with
  | nil => exact .pure _
  | cons pid rest ih =>
    refine .bind (harmless_readStartTicks pid) fun ticks => ?_
    cases ticks with
    | none => exact ih
    | some memberTicks => exact .bind (harmless_ask nofun) fun _ => ih

theorem harmless_classifyGroup (pgid startTicks : ℕ) :
    Harmless leader marker (classifyGroup pgid startTicks marker) := by
  refine .bind (harmless_groupHasMembers pgid) fun members => .ite (.pure _) ?_
  refine .bind (harmless_readStartTicks pgid) fun leaderTicks => .ite ?_ ?_
  · exact .bind (harmless_groupMemberPids pgid) fun _ =>
      .bind (harmless_recordMembers _) fun _ => .pure _
  · exact .bind (harmless_ledgerOwnedMembers pgid) fun _ => .pure _

theorem harmless_signalOwnedPids (sig : ℕ) (pids : List ℕ) :
    Harmless leader marker (signalOwnedPids marker sig pids) := by
  induction pids with
  | nil => exact .pure _
  | cons pid rest ih =>
    intro w
    refine (soundAt_provenMemberTicks pid).bind fun ticks w' _ hproven => ?_
    cases ticks with
    | none => exact ih w'
    | some ticks =>
      refine (harmlessAt_pinAndSignal (hproven ticks rfl)).bind fun _ w'' _ _ => ?_
      exact (ih w'').bind fun _ _ _ _ => soundAt_pure fun _ => trivial

theorem harmless_emit (pgid : ℕ) (view : OwnedGroupView) (sig : ℕ) :
    Harmless leader marker (emit pgid marker view sig) := by
  refine .bind ?_ fun candidates => harmless_signalOwnedPids sig candidates
  exact .ite (harmless_groupMemberPids pgid) (.pure _)

theorem harmless_ownedGroupAlive (pgid startTicks : ℕ) :
    Harmless leader marker (ownedGroupAlive pgid startTicks marker) :=
  .bind (harmless_classifyGroup pgid startTicks) fun _ => .pure _

theorem harmless_awaitEmpty (pgid turns : ℕ) :
    Harmless leader marker (awaitEmpty pgid turns) := by
  induction turns with
  | zero => exact .pure _
  | succ turns ih => exact .bind (harmless_groupHasMembers pgid) fun _ => .ite ih (.pure _)

theorem harmless_awaitGone (pgid startTicks turns : ℕ) :
    Harmless leader marker (awaitGone pgid startTicks marker turns) := by
  induction turns with
  | zero => exact .bind (harmless_ownedGroupAlive pgid startTicks) fun _ => .pure _
  | succ turns ih =>
    exact .bind (harmless_ownedGroupAlive pgid startTicks) fun _ => .ite ih (.pure _)

theorem harmless_terminateOneGroup (pgid startTicks termTurns reapTurns : ℕ) :
    Harmless leader marker (terminateOneGroup pgid startTicks marker termTurns reapTurns) := by
  refine .bind (harmless_classifyGroup pgid startTicks) fun first => ?_
  refine .bind (harmless_emit pgid first SIGTERM) fun attempted => .ite (.pure _) ?_
  refine .bind (harmless_awaitEmpty pgid termTurns) fun _ => ?_
  refine .bind (harmless_classifyGroup pgid startTicks) fun view => ?_
  exact .bind (harmless_emit pgid view SIGKILL) fun _ =>
    harmless_awaitGone pgid startTicks reapTurns

theorem harmless_program (pgid startTicks : ℕ) (errands : List Errand) :
    Harmless leader marker (program pgid startTicks marker errands) := by
  induction errands with
  | nil => exact .pure _
  | cons errand rest ih =>
    cases errand with
    | alive => exact .bind (harmless_ownedGroupAlive pgid startTicks) fun _ => ih
    | signal sig =>
      refine .bind ?_ fun _ => ih
      exact .bind (harmless_classifyGroup pgid startTicks) fun view =>
        .bind (harmless_emit pgid view sig) fun _ => .pure _
    | terminate termTurns reapTurns =>
      exact .bind (harmless_terminateOneGroup pgid startTicks termTurns reapTurns) fun _ => ih

/-- **Every signal is justified**: at whatever call the code has arrived, each signal it sent went
to an instance that is owned, or that was recorded while it was not. -/
theorem program_good {pgid startTicks : ℕ} (hw : w.Good leader marker) (errands : List Errand)
    (decisions : List ProcDecision) :
    ((program pgid startTicks marker errands).run (sem leader marker) decisions w).1.Good
      leader marker := by
  have hsafe : (program pgid startTicks marker errands).Safe (sem leader marker)
      (Good leader marker) (fun _ => Good leader marker) (fun _ _ => True) w :=
    (harmless_program pgid startTicks errands w hw).mono (fun _ _ h => h.1) fun _ _ h => h
  exact (hsafe.sound (fun _ _ h => h) (fun e => nomatch e) decisions).1

end Signaller

namespace SignalWorld

/-- What the errands start from: a ledger of the group's own members, and no signal. -/
structure Starts (leader : Identity) (marker : Option PyStr) (w : SignalWorld) : Prop where
  coherent : w.kernel.Coherent
  ledger : ∀ pid startTicks, w.ledger pid = some startTicks →
    w.kernel.owned leader marker ⟨pid, startTicks⟩ = true
  sent : w.sent = []
  strays : w.strays = []

/-- The errands on a recorded group, as far as the decisions go. -/
def after (w : SignalWorld) (leader : Identity) (marker : Option PyStr)
    (errands : List Signaller.Errand) (decisions : List ProcDecision) : SignalWorld :=
  ((Signaller.program leader.pid leader.startTicks marker errands).run (sem leader marker) decisions
    w).1

/-- **Only the group's own processes are signalled**, whatever comes and goes between two readings,
as long as only they were recorded. -/
theorem signals_owned {leader : Identity} {marker : Option PyStr} {w : SignalWorld}
    (hw : w.Starts leader marker) (errands : List Signaller.Errand)
    (decisions : List ProcDecision)
    (hrecorded : (w.after leader marker errands decisions).strays = []) :
    ∀ d ∈ (w.after leader marker errands decisions).sent,
      (w.after leader marker errands decisions).kernel.owned leader marker d.1 = true := by
  have hgood : w.Good leader marker := by
    refine ⟨hw.coherent, fun pid t ht => .inl (hw.ledger pid t ht), fun d hd => ?_⟩
    rw [hw.sent] at hd
    cases hd
  have hafter : (w.after leader marker errands decisions).Good leader marker :=
    Signaller.program_good hgood errands decisions
  intro d hd
  rcases hafter.sent d hd with howned | hstray
  · exact howned
  · rw [hrecorded] at hstray
    cases hstray

/-- The marker of the job of the run. -/
def runMarker : Option PyStr := some (Uuid.ofDigit 1).text

/-- A command that leads its group as process 7, beside the process 1. -/
def commandRuns : SignalWorld where
  kernel :=
    (Kernel.place
      { now := 6, table := .empty, given := [], joined := [], carried := []
        founder := fun pgid => if pgid = 7 then ⟨7, 5⟩ else ⟨1, 0⟩ }
      1 { startTicks := 0, pgrp := 1, jobId := none, origin := .other }).place
      7 { startTicks := 5, pgrp := 7, jobId := runMarker, origin := .other }
  ledger := fun _ => none
  sent := []
  strays := []

theorem commandRuns_starts : commandRuns.Starts ⟨7, 5⟩ runMarker := by
  refine ⟨.place (.place ⟨?_, ?_, ?_⟩ ..) .., fun _ _ h => absurd h nofun, rfl, rfl⟩
  · exact fun _ _ h => absurd h nofun
  · exact fun _ _ h => absurd h nofun
  · exact fun _ _ _ h => absurd h nofun

/-- What comes before the members are enumerated, after the leader is proven. -/
def emergency (churn : List Churn) : List ProcDecision :=
  [{ entries := [7, 1] }, {}, {}, { churn, entries := [7, 1] }, {}, {}, {}, {},
    { entries := [7, 1] }, {}, {}, {}, {}, {}, {}, {}]

/-- The command is gone, and its number is taken by another that leads a group. -/
def replaced : List Churn := [.exit 7, .reap 7, .tick, .tick, .tick, .fork 1 7, .found 7]

/-- The group's number is taken between the proof of the leader and the enumeration: the stranger is
recorded as a member, and terminated. -/
theorem stranger_terminated :
    (commandRuns.after ⟨7, 5⟩ runMarker [.terminate 0 0] (emergency replaced)).sent =
        [(⟨7, 9⟩, 15)] ∧
      (commandRuns.after ⟨7, 5⟩ runMarker [.terminate 0 0] (emergency replaced)).kernel.owned ⟨7, 5⟩
        runMarker ⟨7, 9⟩ = false := by
  decide +kernel

/-- Where nothing comes between, the command is terminated. -/
theorem signals_owned_calm :
    (commandRuns.after ⟨7, 5⟩ runMarker [.terminate 0 0] (emergency [])).sent = [(⟨7, 5⟩, 15)] ∧
      ∀ d ∈ (commandRuns.after ⟨7, 5⟩ runMarker [.terminate 0 0] (emergency [])).sent,
        (commandRuns.after ⟨7, 5⟩ runMarker [.terminate 0 0] (emergency [])).kernel.owned ⟨7, 5⟩
          runMarker d.1 = true :=
  ⟨by decide +kernel, signals_owned commandRuns_starts _ _ (by decide +kernel)⟩

end SignalWorld

end Lubko.Worker.Groups
