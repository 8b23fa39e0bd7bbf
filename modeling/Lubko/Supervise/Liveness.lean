import Lubko.Authority.Row
import Lubko.Lifecycle.Meta
import Lubko.Supervise.Recovery

/-!
# Liveness at the clearing of authority

Three operations give up the record of a process once they take it for gone: `_retire_db_worker`,
`_resolve_unresolved_child` with `_converge_unresolved`, and `_resolve_stale_recovery_obligation`.
Each is modelled with the reads of `/proc` it makes in the order it makes them, every read readable,
unreadable or not found on its own. A scenario says whether the recorded instance still runs at the
end; while it runs, no read says not found, and a readable one tells the truth.

* `processAbsenceProven_of_running`, `stopWorker_of_running` — the strict proofs never take a
  running instance for gone.
* `workerAlive_iff_recognised`, `unresolvedAlive_eq_false_iff`, `obligationInstanceGone_iff` — when
  the convenience tests do.
* `cleared_only_when_gone_iff` — when each operation clears a record only of a process that is gone.
-/

namespace Lubko.Supervise.Liveness

open Lubko.Lib Lubko.Lifecycle Lubko.Authority

/-! ## Reads of `/proc` -/

/-- The state character of a process: zombie, dead, or any other. -/
inductive ProcessState where
  | Z
  | X
  | other
  deriving DecidableEq

/-- One read of `/proc/<pid>/stat`. -/
inductive StatRead where
  | notFound
  | unreadable
  | fields (state : ProcessState) (startTimeTicks : ℤ)
  deriving DecidableEq

/-- One read of `/proc/<pid>/environ`. -/
inductive EnvironRead where
  | notFound
  | unreadable
  | entries (environ : List PyStr)
  deriving DecidableEq

/-- `proc_start_ticks`. -/
def procStartTicks : StatRead → Option ℤ
  | .fields _ startTimeTicks => some startTimeTicks
  | _ => none

/-- `process_is_zombie`. -/
def processIsZombie : StatRead → Bool
  | .fields state _ => state = .Z || state = .X
  | _ => true

/-- `process_absence_proven`. -/
def processAbsenceProven (stat : StatRead) (startTimeTicks : Option ℤ) : Bool :=
  match stat with
  | .notFound => true
  | .unreadable => false
  | .fields state observedStart =>
    if state = .Z ∨ state = .X then true
    else match startTimeTicks with
      | none => false
      | some recorded => observedStart ≠ recorded

/-- `LIFECYCLE_MARKER_VAR`. -/
def LIFECYCLE_MARKER_VAR : PyStr := "LUBKO_LIFECYCLE_TOKEN"

/-- `process_has_token`. -/
def processHasToken (environ : EnvironRead) (token : PyStr) : Bool :=
  match environ with
  | .entries entries => entries.any (· = LIFECYCLE_MARKER_VAR ++ PyStr.ofString "=" ++ token)
  | _ => false

/-- `ProcessIdentity`. -/
structure ProcessIdentity where
  pid : ℤ
  pgid : ℤ
  sid : ℤ
  startTimeTicks : ℤ
  deriving DecidableEq

/-- The reads of one call of `process_identity`; `getpgid` and `getsid` raise `ProcessLookupError`
for a process that is gone. -/
structure IdentityReads where
  zombie : StatRead
  start : StatRead
  ids : Option (ℤ × ℤ)

/-- `process_identity`. -/
def processIdentity (pid : ℤ) (r : IdentityReads) : Option ProcessIdentity :=
  if processIsZombie r.zombie then none
  else match procStartTicks r.start with
    | none => none
    | some startTimeTicks => r.ids.map fun (pgid, sid) => { pid, pgid, sid, startTimeTicks }

/-- `identity_matches`. -/
def identityMatches (worker : WorkerMeta) (identity : ProcessIdentity) : Bool :=
  match worker.pid with
  | none => false
  | some pid =>
    if worker.startTimeTicks ≠ some identity.startTimeTicks then false
    else if worker.pgid.any (· ≠ identity.pgid) then false
    else if worker.sid.any (· ≠ identity.sid) then false
    else pid = identity.pid

/-- The reads of one call of `worker_alive`. -/
structure AliveReads where
  identity : IdentityReads
  environ : EnvironRead

/-- `worker_alive`. -/
def workerAlive (worker : WorkerMeta) (r : AliveReads) : Bool :=
  match worker.pid with
  | none => false
  | some pid =>
    match processIdentity pid r.identity with
    | none => false
    | some identity =>
      if !identityMatches worker identity then false
      else worker.token.all (processHasToken r.environ)

/-! ## Stopping a worker -/

/-- The reads of one call of `_worker_retirement_state`. -/
structure RetirementReads where
  identity : IdentityReads
  absence : StatRead

/-- `_worker_retirement_state`. -/
def workerRetirementState (worker : WorkerMeta) (r : RetirementReads) : Option Bool :=
  match worker.pid with
  | none => some true
  | some pid =>
    match processIdentity pid r.identity with
    | none => if processAbsenceProven r.absence worker.startTimeTicks then some true else none
    | some identity =>
      if identityMatches worker identity then some false
      else if worker.startTimeTicks.any (· ≠ identity.startTimeTicks) then some true
      else none

/-- What one call of `stop_worker` meets: whether the process could be pinned, its reads, and the
polls each wait makes before its deadline. -/
structure StopReads where
  pinned : Bool
  identity : IdentityReads
  absence : StatRead
  environ : EnvironRead
  drain : List RetirementReads
  floor : RetirementReads
  retirement : List RetirementReads

/-- `_wait_for_drain` and `_wait_for_retirement`: a drain sentinel changes which loop polls, not
what is polled for. -/
def waitForRetirement (worker : WorkerMeta) (polls : List RetirementReads) : Bool :=
  polls.any fun poll => workerRetirementState worker poll = some true

/-- `_stop_pinned`. -/
def stopPinned (worker : WorkerMeta) (r : StopReads) : Bool :=
  match worker.pid with
  | none => true
  | some pid =>
    match processIdentity pid r.identity with
    | none => processAbsenceProven r.absence worker.startTimeTicks
    | some identity =>
      if !identityMatches worker identity then true
      else match worker.token with
        | none => false
        | some token =>
          if !processHasToken r.environ token then false
          else if waitForRetirement worker r.drain then true
          else if workerRetirementState worker r.floor = some true then true
          else waitForRetirement worker r.retirement

/-- `stop_worker`. -/
def stopWorker (worker : WorkerMeta) (r : StopReads) : Bool :=
  match worker.pid with
  | none => true
  | some _ =>
    if r.pinned then stopPinned worker r
    else processAbsenceProven r.absence worker.startTimeTicks

/-! ## The three operations -/

/-- How an operation that may give up a record ends: it leaves it standing, finds none, or reaches
the write that clears it. -/
inductive Settlement where
  | held
  | nothing
  | clears
  deriving DecidableEq

/-- What `_retire_db_worker` meets: the reads, whether the drain sentinel of the token matches and
whether the owned groups are recovered, and whether the recorded instance still runs at the end. -/
structure RetireScenario where
  alive : AliveReads
  stop : StopReads
  drained : Bool
  groupsRecovered : Bool
  stillRuns : Bool

section Retire

variable (runtimeDir workerLogPath : PyStr → PyStr)

/-- `_db_worker_meta`. -/
def dbWorkerMeta (record : WorkerRecord) : WorkerMeta where
  schemaVersion := META_SCHEMA_VERSION
  state := .running
  pid := some record.pid
  pgid := some record.pgid
  sid := some record.sid
  startTimeTicks := some record.startTimeTicks
  token := some record.token
  repo := runtimeDir record.commit
  gitCommit := some record.commit
  workerId := some record.workerId
  logPath := workerLogPath record.token
  startedAt := none
  stoppedAt := none

/-- `_retire_db_worker`. -/
def retireDbWorker (record : WorkerRecord) (a : RetireScenario) : Settlement :=
  let worker := dbWorkerMeta runtimeDir workerLogPath record
  if workerAlive worker a.alive && !stopWorker worker a.stop then .held
  else if !(!record.token.isEmpty && a.drained) && !a.groupsRecovered then .held
  else .clears

end Retire

/-- One poll of an unresolved child: whether our handle names its pid, whether `waitpid` raises
`ChildProcessError`, the read that confirms the ticks, whether the handle has an exit status, and
the read that decides without a handle. -/
structure HoldPoll where
  handle : Bool
  childProcessError : Bool
  owned : StatRead
  exited : Bool
  stat : StatRead

/-- `_owned_hold_child` is not `None`. -/
def ownedHoldChild (hold : UnresolvedChild) (p : HoldPoll) : Bool :=
  p.handle && !p.childProcessError &&
    (hold.startTimeTicks.isNone || procStartTicks p.owned = hold.startTimeTicks)

/-- `_unresolved_alive`. -/
def unresolvedAlive (hold : UnresolvedChild) (p : HoldPoll) : Bool :=
  if ownedHoldChild hold p then !p.exited
  else match hold.startTimeTicks with
    | none => (procStartTicks p.stat).isSome
    | some ticks => procStartTicks p.stat = some ticks

/-- `_await_unresolved_exit`, with the polls it makes before its deadline. -/
def awaitUnresolvedExit (hold : UnresolvedChild) (polls : List HoldPoll) : Bool :=
  polls.any (!unresolvedAlive hold ·)

/-- What `_converge_unresolved` and its caller meet. -/
structure HoldScenario where
  /-- `authorize_recovery` -/
  authorized : Bool
  first : HoldPoll
  unsignalled : List HoldPoll
  pinned : Bool
  confirm : StatRead
  afterTerm : List HoldPoll
  afterKill : List HoldPoll
  groupsRecovered : Bool
  stillRuns : Bool

/-- `_converge_unresolved`. -/
def convergeUnresolved (hold : UnresolvedChild) (a : HoldScenario) : Bool :=
  if !unresolvedAlive hold a.first then true
  else match hold.startTimeTicks with
    | none => awaitUnresolvedExit hold a.unsignalled
    | some ticks =>
      if !a.pinned then false
      else if procStartTicks a.confirm ≠ some ticks then false
      else if awaitUnresolvedExit hold a.afterTerm then true
      else awaitUnresolvedExit hold a.afterKill

/-- `_resolve_unresolved_child`. -/
def resolveUnresolvedChild (state : SupervisorState) (a : HoldScenario) : Settlement :=
  if state.ownershipHoldMalformed || state.unresolvedHoldMalformed then .held
  else match state.unresolvedChild with
    | none => .nothing
    | some hold =>
      if !a.authorized then .held
      else if !convergeUnresolved hold a then .held
      else if !a.groupsRecovered then .held
      else .clears

/-- `_obligation_instance_gone`, with the read it makes. -/
def obligationInstanceGone (pid startTimeTicks : Option ℤ) (stat : StatRead) : Bool :=
  match pid with
  | none => false
  | some _ =>
    match startTimeTicks with
    | none => (procStartTicks stat).isNone
    | some _ => procStartTicks stat ≠ startTimeTicks

/-- What `_resolve_stale_recovery_obligation` meets. -/
structure ObligationScenario where
  stat : StatRead
  groupsRecovered : Bool
  stillRuns : Bool

/-- `_resolve_stale_recovery_obligation`. -/
def resolveStaleRecoveryObligation (state : SupervisorState) (a : ObligationScenario) :
    Settlement :=
  if state.spawningHoldMalformed then .held
  else match state.spawning with
    | none => .nothing
    | some obligation =>
      if obligation.pid = none then .held
      else if !obligationInstanceGone obligation.pid obligation.startTimeTicks a.stat then .held
      else if !a.groupsRecovered then .held
      else .clears

/-! ## Reads of a running instance -/

/-- What a read of `stat` says of an instance with these ticks while it runs. -/
def StatRead.OfRunning (startTimeTicks : Option ℤ) : StatRead → Prop
  | .notFound => False
  | .unreadable => True
  | .fields state observed => state = .other ∧ ∀ recorded ∈ startTimeTicks, observed = recorded

/-- What a read of `environ` says of an instance while it runs. -/
def EnvironRead.OfRunning (r : EnvironRead) : Prop := r ≠ .notFound

structure IdentityReads.OfRunning (startTimeTicks : Option ℤ) (r : IdentityReads) : Prop where
  zombie : r.zombie.OfRunning startTimeTicks
  start : r.start.OfRunning startTimeTicks
  ids : r.ids.isSome = true

structure RetirementReads.OfRunning (startTimeTicks : Option ℤ) (r : RetirementReads) : Prop where
  identity : r.identity.OfRunning startTimeTicks
  absence : r.absence.OfRunning startTimeTicks

structure StopReads.OfRunning (startTimeTicks : Option ℤ) (r : StopReads) : Prop where
  identity : r.identity.OfRunning startTimeTicks
  absence : r.absence.OfRunning startTimeTicks
  environ : r.environ.OfRunning
  drain : ∀ poll ∈ r.drain, poll.OfRunning startTimeTicks
  floor : r.floor.OfRunning startTimeTicks
  retirement : ∀ poll ∈ r.retirement, poll.OfRunning startTimeTicks

/-- A handle of a running child has no exit status. -/
structure HoldPoll.OfRunning (startTimeTicks : Option ℤ) (p : HoldPoll) : Prop where
  owned : p.owned.OfRunning startTimeTicks
  exited : p.exited = false
  stat : p.stat.OfRunning startTimeTicks

/-- An instance that runs at the end ran at every read before it. -/
def RetireScenario.Truthful (record : WorkerRecord) (a : RetireScenario) : Prop :=
  a.stillRuns = true →
    a.alive.identity.OfRunning (some record.startTimeTicks) ∧ a.alive.environ.OfRunning ∧
      a.stop.OfRunning (some record.startTimeTicks)

def HoldScenario.Truthful (hold : UnresolvedChild) (a : HoldScenario) : Prop :=
  a.stillRuns = true →
    (∀ p ∈ a.first :: (a.unsignalled ++ a.afterTerm ++ a.afterKill),
      p.OfRunning hold.startTimeTicks) ∧ a.confirm.OfRunning hold.startTimeTicks

def ObligationScenario.Truthful (obligation : SpawningObligation) (a : ObligationScenario) : Prop :=
  a.stillRuns = true → a.stat.OfRunning obligation.startTimeTicks

section Running

variable {ticks : Option ℤ}

/-- A read that succeeds on a running instance. -/
theorem StatRead.OfRunning.readable {r : StatRead} (h : r.OfRunning ticks)
    (hr : r ≠ .unreadable) :
    ∃ observed, r = .fields .other observed ∧ ∀ recorded ∈ ticks, observed = recorded := by
  cases r with
  | notFound => exact h.elim
  | unreadable => exact absurd rfl hr
  | fields state observed =>
    obtain ⟨rfl, hobserved⟩ := h
    exact ⟨observed, rfl, hobserved⟩

theorem procStartTicks_of_running {r : StatRead} {recorded : ℤ}
    (h : r.OfRunning (some recorded)) : procStartTicks r = some recorded ↔ r ≠ .unreadable := by
  by_cases hr : r = .unreadable
  · simp [hr, procStartTicks]
  · obtain ⟨observed, rfl, hobserved⟩ := h.readable hr
    simp [procStartTicks, hobserved recorded rfl]

theorem procStartTicks_isSome_of_running {r : StatRead} (h : r.OfRunning ticks) :
    (procStartTicks r).isSome = true ↔ r ≠ .unreadable := by
  by_cases hr : r = .unreadable
  · simp [hr, procStartTicks]
  · obtain ⟨observed, rfl, -⟩ := h.readable hr
    simp [procStartTicks]

/-- **The strict proof of absence** is never given for a running instance. -/
theorem processAbsenceProven_of_running {r : StatRead} (h : r.OfRunning ticks) :
    processAbsenceProven r ticks = false := by
  by_cases hr : r = .unreadable
  · rw [hr]
    rfl
  · obtain ⟨observed, rfl, hobserved⟩ := h.readable hr
    cases ticks with
    | none => simp [processAbsenceProven]
    | some recorded => simp [processAbsenceProven, hobserved recorded rfl]

/-- Both reads of `stat` in `process_identity` succeed. -/
def IdentityReads.Legible (r : IdentityReads) : Prop :=
  r.zombie ≠ .unreadable ∧ r.start ≠ .unreadable

/-- A running instance is identified exactly when both reads succeed. -/
theorem processIdentity_of_running (pid : ℤ) {recorded : ℤ} {r : IdentityReads}
    (h : r.OfRunning (some recorded)) :
    (¬ r.Legible ∧ processIdentity pid r = none) ∨
      ∃ pgid sid, r.Legible ∧ r.ids = some (pgid, sid) ∧
        processIdentity pid r = some { pid, pgid, sid, startTimeTicks := recorded } := by
  obtain ⟨⟨pgid, sid⟩, hids⟩ := Option.isSome_iff_exists.1 h.ids
  by_cases hz : r.zombie = .unreadable
  · refine .inl ⟨fun hl => hl.1 hz, ?_⟩
    simp [processIdentity, hz, processIsZombie]
  obtain ⟨z, hz', -⟩ := h.zombie.readable hz
  by_cases hs : r.start = .unreadable
  · refine .inl ⟨fun hl => hl.2 hs, ?_⟩
    simp [processIdentity, hz', hs, processIsZombie, procStartTicks]
  · have hticks := (procStartTicks_of_running h.start).2 hs
    refine .inr ⟨pgid, sid, ⟨hz, hs⟩, hids, ?_⟩
    simp [processIdentity, hz', hticks, processIsZombie, hids]

/-- No poll of a running instance proves its retirement. -/
theorem workerRetirementState_of_running {worker : WorkerMeta} {pid recorded : ℤ}
    (hpid : worker.pid = some pid) (hticks : worker.startTimeTicks = some recorded)
    {r : RetirementReads} (h : r.OfRunning (some recorded)) :
    workerRetirementState worker r ≠ some true := by
  rcases processIdentity_of_running pid h.identity with
    ⟨-, hnone⟩ | ⟨pgid, sid, -, -, hsome⟩
  · simp [workerRetirementState, hpid, hnone, hticks, processAbsenceProven_of_running h.absence]
  · simp only [workerRetirementState, hpid, hsome, hticks]
    split_ifs with hmatches hother
    · simp
    · simp at hother
    · simp

theorem waitForRetirement_of_running {worker : WorkerMeta} {pid recorded : ℤ}
    (hpid : worker.pid = some pid) (hticks : worker.startTimeTicks = some recorded)
    {polls : List RetirementReads} (h : ∀ poll ∈ polls, poll.OfRunning (some recorded)) :
    waitForRetirement worker polls = false := by
  rw [waitForRetirement, List.any_eq_false]
  intro poll hpoll
  simpa using workerRetirementState_of_running hpid hticks (h poll hpoll)

end Running

/-! ## The published worker -/

section Retire

variable {runtimeDir workerLogPath : PyStr → PyStr} {record : WorkerRecord}

theorem identityMatches_dbWorkerMeta {pgid sid : ℤ} :
    identityMatches (dbWorkerMeta runtimeDir workerLogPath record)
        { pid := record.pid, pgid, sid, startTimeTicks := record.startTimeTicks } = true ↔
      (pgid, sid) = (record.pgid, record.sid) := by
  simp only [identityMatches, dbWorkerMeta, Option.any_some, ne_eq, not_true_eq_false, if_false,
    Prod.mk.injEq]
  by_cases hpgid : record.pgid = pgid
  · by_cases hsid : record.sid = sid
    · simp [hpgid, hsid]
    · have hsid' : sid ≠ record.sid := fun h => hsid h.symm
      simp [hpgid, hsid, hsid']
  · have hpgid' : pgid ≠ record.pgid := fun h => hpgid h.symm
    simp [hpgid, hpgid']

/-- The first look sees the recorded worker: both reads of `stat` and the read of `environ` succeed,
and group, session and token are the recorded ones. -/
def Recognised (record : WorkerRecord) (r : AliveReads) : Prop :=
  r.identity.Legible ∧ r.identity.ids = some (record.pgid, record.sid) ∧
    processHasToken r.environ record.token = true

/-- A running worker is taken for alive exactly when it is recognised. -/
theorem workerAlive_iff_recognised {r : AliveReads}
    (h : r.identity.OfRunning (some record.startTimeTicks)) :
    workerAlive (dbWorkerMeta runtimeDir workerLogPath record) r = true ↔
      Recognised record r := by
  have hpid : (dbWorkerMeta runtimeDir workerLogPath record).pid = some record.pid := rfl
  have htoken : (dbWorkerMeta runtimeDir workerLogPath record).token = some record.token := rfl
  simp only [workerAlive, hpid, Recognised]
  rcases processIdentity_of_running record.pid h with
    ⟨hl, hnone⟩ | ⟨pgid, sid, hl, hids, hsome⟩
  · simp [hnone, hl]
  · rw [hsome, hids]
    by_cases hm : (pgid, sid) = (record.pgid, record.sid)
    · have hmatches : identityMatches (dbWorkerMeta runtimeDir workerLogPath record)
          { pid := record.pid, pgid, sid, startTimeTicks := record.startTimeTicks } = true :=
        identityMatches_dbWorkerMeta.2 hm
      simp [hmatches, hm, htoken, hl]
    · have hmatches : identityMatches (dbWorkerMeta runtimeDir workerLogPath record)
          { pid := record.pid, pgid, sid, startTimeTicks := record.startTimeTicks } = false :=
        Bool.eq_false_of_not_eq_true (mt identityMatches_dbWorkerMeta.1 hm)
      have hne : some (pgid, sid) ≠ some (record.pgid, record.sid) := mt Option.some.inj hm
      simp only [hmatches, Bool.not_false, if_true, hne, false_and, and_false]
      simp

/-- Stopping a running worker is reported only when the pinned process is seen in another group or
session than the recorded ones. -/
theorem stopWorker_of_running {r : StopReads} (h : r.OfRunning (some record.startTimeTicks)) :
    stopWorker (dbWorkerMeta runtimeDir workerLogPath record) r = true ↔
      r.pinned = true ∧ r.identity.Legible ∧ r.identity.ids ≠ some (record.pgid, record.sid) := by
  have hpid : (dbWorkerMeta runtimeDir workerLogPath record).pid = some record.pid := rfl
  have htoken : (dbWorkerMeta runtimeDir workerLogPath record).token = some record.token := rfl
  have hticks : (dbWorkerMeta runtimeDir workerLogPath record).startTimeTicks =
      some record.startTimeTicks := rfl
  have habsence := processAbsenceProven_of_running h.absence
  simp only [stopWorker, hpid, hticks, habsence]
  by_cases hpinned : r.pinned = true
  · rw [if_pos hpinned]
    simp only [stopPinned, hpid, hticks, htoken, hpinned, true_and]
    rcases processIdentity_of_running record.pid h.identity with
      ⟨hl, hnone⟩ | ⟨pgid, sid, hl, hids, hsome⟩
    · simp [hnone, hl, habsence]
    · rw [hsome, hids]
      by_cases hm : (pgid, sid) = (record.pgid, record.sid)
      · have hmatches : identityMatches (dbWorkerMeta runtimeDir workerLogPath record)
            { pid := record.pid, pgid, sid, startTimeTicks := record.startTimeTicks } = true :=
          identityMatches_dbWorkerMeta.2 hm
        have hdrain := waitForRetirement_of_running hpid hticks h.drain
        have hfloor := workerRetirementState_of_running hpid hticks h.floor
        have hretirement := waitForRetirement_of_running hpid hticks h.retirement
        simp [hmatches, hdrain, hfloor, hretirement, hm]
      · have hmatches : identityMatches (dbWorkerMeta runtimeDir workerLogPath record)
            { pid := record.pid, pgid, sid, startTimeTicks := record.startTimeTicks } = false :=
          Bool.eq_false_of_not_eq_true (mt identityMatches_dbWorkerMeta.1 hm)
        have hne : some (pgid, sid) ≠ some (record.pgid, record.sid) := mt Option.some.inj hm
        simp [hmatches, hl, hne]
  · rw [if_neg hpinned]
    simp [hpinned]

/-- The worker is gone, or its groups are not recovered, or both looks at it see it. -/
def RetireSafe (record : WorkerRecord) (a : RetireScenario) : Prop :=
  a.stillRuns = false ∨
    (¬ (record.token ≠ [] ∧ a.drained = true) ∧ a.groupsRecovered = false) ∨
    (Recognised record a.alive ∧
      (a.stop.pinned = true → a.stop.identity.Legible →
        a.stop.identity.ids = some (record.pgid, record.sid)))

theorem retireDbWorker_clears {a : RetireScenario} :
    retireDbWorker runtimeDir workerLogPath record a = .clears ↔
      (workerAlive (dbWorkerMeta runtimeDir workerLogPath record) a.alive = true →
        stopWorker (dbWorkerMeta runtimeDir workerLogPath record) a.stop = true) ∧
      ¬ (¬ (record.token ≠ [] ∧ a.drained = true) ∧ a.groupsRecovered = false) := by
  have hgroups : (!(!record.token.isEmpty && a.drained) && !a.groupsRecovered) = true ↔
      ¬ (record.token ≠ [] ∧ a.drained = true) ∧ a.groupsRecovered = false := by
    rw [Bool.and_eq_true, Bool.not_eq_true', Bool.not_eq_true', ← Bool.not_eq_true,
      Bool.and_eq_true, Bool.not_eq_true', List.isEmpty_eq_false_iff]
  have halive : (workerAlive (dbWorkerMeta runtimeDir workerLogPath record) a.alive &&
      !stopWorker (dbWorkerMeta runtimeDir workerLogPath record) a.stop) = true ↔
      ¬ (workerAlive (dbWorkerMeta runtimeDir workerLogPath record) a.alive = true →
        stopWorker (dbWorkerMeta runtimeDir workerLogPath record) a.stop = true) := by
    rw [Bool.and_eq_true, Bool.not_eq_true', Classical.not_imp, Bool.not_eq_true]
  simp only [retireDbWorker]
  split_ifs with h₁ h₂
  · exact iff_of_false nofun fun h => halive.1 h₁ h.1
  · exact iff_of_false nofun fun h => h.2 (hgroups.1 h₂)
  · exact iff_of_true rfl ⟨not_not.1 (mt halive.2 h₁), mt hgroups.2 h₂⟩

/-- **`_retire_db_worker`** clears the record of a worker that still runs exactly when it is not
safe. -/
theorem retire_safe_iff {a : RetireScenario} (h : a.Truthful record) :
    (retireDbWorker runtimeDir workerLogPath record a = .clears → a.stillRuns = false) ↔
      RetireSafe record a := by
  cases hruns : a.stillRuns with
  | false => exact iff_of_true (fun _ => rfl) (.inl hruns)
  | true =>
    obtain ⟨hidentity, -, hstop⟩ := h hruns
    rw [retireDbWorker_clears, workerAlive_iff_recognised hidentity, stopWorker_of_running hstop,
      RetireSafe, hruns]
    constructor
    · intro hclears
      refine .inr ?_
      by_cases hgroups : ¬ (record.token ≠ [] ∧ a.drained = true) ∧ a.groupsRecovered = false
      · exact .inl hgroups
      have hheld : ¬ (Recognised record a.alive → a.stop.pinned = true ∧
          a.stop.identity.Legible ∧ a.stop.identity.ids ≠ some (record.pgid, record.sid)) :=
        fun hstopped => Bool.noConfusion (hclears ⟨hstopped, hgroups⟩)
      rw [Classical.not_imp] at hheld
      obtain ⟨hrecognised, hseen⟩ := hheld
      refine .inr ⟨hrecognised, fun hpinned hlegible => ?_⟩
      by_contra hids
      exact hseen ⟨hpinned, hlegible, hids⟩
    · rintro (hgone | hgroups | ⟨hrecognised, hseen⟩) ⟨hstopped, hrecovered⟩
      · cases hgone
      · exact absurd hgroups hrecovered
      · obtain ⟨hpinned, hlegible, hids⟩ := hstopped hrecognised
        exact absurd (hseen hpinned hlegible) hids

end Retire

/-! ## The unresolved child -/

section Hold

variable {hold : UnresolvedChild}

/-- The poll has neither our own handle nor a read to go by. -/
def Blind (hold : UnresolvedChild) (p : HoldPoll) : Prop :=
  ¬ (p.handle = true ∧ p.childProcessError = false ∧
      (hold.startTimeTicks = none ∨ p.owned ≠ .unreadable)) ∧
    p.stat = .unreadable

/-- A running child is taken for gone exactly when the poll is blind. -/
theorem unresolvedAlive_eq_false_iff {p : HoldPoll} (h : p.OfRunning hold.startTimeTicks) :
    unresolvedAlive hold p = false ↔ Blind hold p := by
  have howned : ownedHoldChild hold p = true ↔ p.handle = true ∧ p.childProcessError = false ∧
      (hold.startTimeTicks = none ∨ p.owned ≠ .unreadable) := by
    simp only [ownedHoldChild, Bool.and_eq_true, Bool.not_eq_true', Bool.or_eq_true,
      Option.isNone_iff_eq_none, decide_eq_true_eq, and_assoc]
    cases hticks : hold.startTimeTicks with
    | none => simp
    | some ticks =>
      have hread := procStartTicks_of_running (hticks ▸ h.owned)
      simp [hread]
  rw [unresolvedAlive, Blind, ← howned]
  by_cases ho : ownedHoldChild hold p = true
  · simp [ho, h.exited]
  · rw [if_neg ho]
    cases hticks : hold.startTimeTicks with
    | none =>
      have hread := procStartTicks_isSome_of_running h.stat
      rw [and_iff_right ho, ← Bool.not_eq_true, hread, not_not]
    | some ticks =>
      have hread := procStartTicks_of_running (hticks ▸ h.stat)
      rw [and_iff_right ho, decide_eq_false_iff_not, hread, not_not]

theorem awaitUnresolvedExit_iff {polls : List HoldPoll}
    (h : ∀ p ∈ polls, p.OfRunning hold.startTimeTicks) :
    awaitUnresolvedExit hold polls = true ↔ ∃ p ∈ polls, Blind hold p := by
  rw [awaitUnresolvedExit, List.any_eq_true]
  refine exists_congr fun p => and_congr_right fun hp => ?_
  rw [Bool.not_eq_true', unresolvedAlive_eq_false_iff (h p hp)]

/-- The polls that decide whether a child that keeps running has converged. -/
def decisivePolls (hold : UnresolvedChild) (a : HoldScenario) : List HoldPoll :=
  a.first ::
    match hold.startTimeTicks with
    | none => a.unsignalled
    | some _ => if a.pinned ∧ a.confirm ≠ .unreadable then a.afterTerm ++ a.afterKill else []

/-- A running child has converged exactly when one of its polls was blind. -/
theorem convergeUnresolved_iff {a : HoldScenario} (h : a.Truthful hold)
    (hruns : a.stillRuns = true) :
    convergeUnresolved hold a = true ↔ ∃ p ∈ decisivePolls hold a, Blind hold p := by
  obtain ⟨hpolls, hconfirm⟩ := h hruns
  have hfirst := unresolvedAlive_eq_false_iff (hpolls a.first List.mem_cons_self)
  have hrest : ∀ p ∈ a.unsignalled ++ a.afterTerm ++ a.afterKill, p.OfRunning hold.startTimeTicks :=
    fun p hp => hpolls p (List.mem_cons_of_mem _ hp)
  rw [convergeUnresolved, decisivePolls]
  by_cases hblind : Blind hold a.first
  · rw [hfirst.2 hblind]
    exact iff_of_true rfl ⟨a.first, List.mem_cons_self, hblind⟩
  have halive : unresolvedAlive hold a.first = true :=
    Bool.eq_true_of_not_eq_false (mt hfirst.1 hblind)
  rw [List.exists_mem_cons_iff, or_iff_right hblind, if_neg (by simp [halive])]
  cases hticks : hold.startTimeTicks with
  | none =>
    refine awaitUnresolvedExit_iff fun p hp => hrest p ?_
    exact List.mem_append_left _ (List.mem_append_left _ hp)
  | some ticks =>
    have hread := procStartTicks_of_running (hticks ▸ hconfirm)
    have hterm := awaitUnresolvedExit_iff fun p hp => hrest p
      (List.mem_append_left _ (List.mem_append_right _ hp))
    have hkill := awaitUnresolvedExit_iff fun p hp => hrest p (List.mem_append_right _ hp)
    by_cases hpinned : a.pinned = true
    · by_cases hr : a.confirm = .unreadable
      · simp [hpinned, hr, procStartTicks]
      · have hsome := hread.2 hr
        simp only [hpinned, hr, hsome, ne_eq, not_true_eq_false, not_false_eq_true, and_self,
          if_true, if_false, Bool.not_true, Bool.false_eq_true, List.mem_append, or_and_right,
          exists_or]
        rw [← hterm, ← hkill]
        cases awaitUnresolvedExit hold a.afterTerm with
        | true => simp
        | false => simp
    · simp [hpinned]

/-- The child is gone, or something else holds it, or no poll that decides is blind. -/
def HoldSafe (state : SupervisorState) (a : HoldScenario) : Prop :=
  a.stillRuns = false ∨ state.ownershipHoldMalformed = true ∨
    state.unresolvedHoldMalformed = true ∨ a.authorized = false ∨ a.groupsRecovered = false ∨
    ∀ hold ∈ state.unresolvedChild, ∀ p ∈ decisivePolls hold a, ¬ Blind hold p

/-- **`_resolve_unresolved_child`** clears the hold of a child that still runs exactly when it is
not safe. -/
theorem hold_safe_iff {state : SupervisorState} {a : HoldScenario}
    (h : ∀ hold ∈ state.unresolvedChild, a.Truthful hold) :
    (resolveUnresolvedChild state a = .clears → a.stillRuns = false) ↔ HoldSafe state a := by
  cases hruns : a.stillRuns with
  | false => exact iff_of_true (fun _ => rfl) (.inl hruns)
  | true =>
    simp only [HoldSafe, hruns, Bool.true_eq_false, false_or, imp_false, resolveUnresolvedChild]
    by_cases hmalformed : (state.ownershipHoldMalformed || state.unresolvedHoldMalformed) = true
    · rw [if_pos hmalformed]
      rcases Bool.or_eq_true_iff.1 hmalformed with ho | hu
      · exact iff_of_true nofun (.inl ho)
      · exact iff_of_true nofun (.inr (.inl hu))
    rw [if_neg hmalformed]
    rw [Bool.or_eq_true, not_or] at hmalformed
    rw [or_iff_right hmalformed.1, or_iff_right hmalformed.2]
    cases hchild : state.unresolvedChild with
    | none => exact iff_of_true nofun (.inr (.inr fun hold hhold => by cases hhold))
    | some hold =>
      have hconverge := convergeUnresolved_iff (h hold hchild) hruns
      dsimp only
      split_ifs with hauthorized hheld hgroups
      · simp only [Bool.not_eq_true'] at hauthorized
        exact iff_of_true nofun (.inl hauthorized)
      · simp only [Bool.not_eq_true'] at hheld
        refine iff_of_true nofun (.inr (.inr ?_))
        intro hold' hhold' p hp hblind
        obtain rfl := Option.some.inj hhold'
        rw [hconverge.2 ⟨p, hp, hblind⟩] at hheld
        cases hheld
      · simp only [Bool.not_eq_true'] at hgroups
        exact iff_of_true nofun (.inr (.inl hgroups))
      · simp only [Bool.not_eq_true', Bool.not_eq_false] at hauthorized hheld hgroups
        refine iff_of_false (fun hne => hne rfl) ?_
        rintro (hno | hno | hsafe)
        · rw [hauthorized] at hno
          cases hno
        · rw [hgroups] at hno
          cases hno
        · obtain ⟨p, hp, hblind⟩ := hconverge.1 hheld
          exact hsafe hold rfl p hp hblind

end Hold

/-! ## The stale obligation -/

section Obligation

/-- A running process is taken for gone exactly when its `stat` cannot be read. -/
theorem obligationInstanceGone_iff (pid : ℤ) {startTimeTicks : Option ℤ} {stat : StatRead}
    (h : stat.OfRunning startTimeTicks) :
    obligationInstanceGone (some pid) startTimeTicks stat = true ↔ stat = .unreadable := by
  cases startTimeTicks with
  | none =>
    have hread := procStartTicks_isSome_of_running h
    rw [obligationInstanceGone, ← not_iff_not]
    refine Iff.trans ?_ hread
    cases procStartTicks stat with
    | none => simp
    | some ticks => simp
  | some recorded =>
    have hread := procStartTicks_of_running h
    simp [obligationInstanceGone, hread]

/-- The process is gone, or something else holds the obligation, or its `stat` was read. -/
def ObligationSafe (state : SupervisorState) (a : ObligationScenario) : Prop :=
  a.stillRuns = false ∨ state.spawningHoldMalformed = true ∨ a.groupsRecovered = false ∨
    ∀ obligation ∈ state.spawning, obligation.pid = none ∨ a.stat ≠ .unreadable

/-- **`_resolve_stale_recovery_obligation`** clears the obligation of a process that still runs
exactly when it is not safe. -/
theorem obligation_safe_iff {state : SupervisorState} {a : ObligationScenario}
    (h : ∀ obligation ∈ state.spawning, a.Truthful obligation) :
    (resolveStaleRecoveryObligation state a = .clears → a.stillRuns = false) ↔
      ObligationSafe state a := by
  cases hruns : a.stillRuns with
  | false => exact iff_of_true (fun _ => rfl) (.inl hruns)
  | true =>
    simp only [ObligationSafe, hruns, Bool.true_eq_false, false_or, imp_false,
      resolveStaleRecoveryObligation]
    by_cases hmalformed : state.spawningHoldMalformed = true
    · rw [if_pos hmalformed]
      exact iff_of_true nofun (.inl hmalformed)
    rw [if_neg hmalformed]
    rw [or_iff_right hmalformed]
    cases hspawning : state.spawning with
    | none => exact iff_of_true nofun (.inr fun obligation ho => by cases ho)
    | some obligation =>
      dsimp only
      cases hpid : obligation.pid with
      | none =>
        rw [if_pos rfl]
        refine iff_of_true nofun (.inr ?_)
        intro o ho
        obtain rfl := Option.some.inj ho
        exact .inl hpid
      | some pid =>
        have hgone := obligationInstanceGone_iff pid (h obligation hspawning hruns)
        rw [if_neg nofun]
        split_ifs with hheld hgroups
        · refine iff_of_true nofun (.inr ?_)
          intro o ho
          obtain rfl := Option.some.inj ho
          refine .inr fun hunreadable => ?_
          rw [hgone.2 hunreadable] at hheld
          cases hheld
        · simp only [Bool.not_eq_true'] at hgroups
          exact iff_of_true nofun (.inl hgroups)
        · simp only [Bool.not_eq_true', Bool.not_eq_false] at hheld hgroups
          refine iff_of_false (fun hne => hne rfl) ?_
          rintro (hno | hsafe)
          · rw [hgroups] at hno
            cases hno
          · rcases hsafe obligation rfl with hnone | hread
            · rw [hpid] at hnone
              cases hnone
            · exact hread (hgone.1 hheld)

/-- The section of `recover` decides as this operation does, with the test on the read as its
answer. -/
theorem resolveStaleRecoveryObligation_section {floatRepr : ℚ → List Char} {w : Recovery.World}
    {state : SupervisorState} (hread : readState w.file = .ok state) {a : ObligationScenario}
    {r : Recovery.RecoveryAnswers} (hgroups : r.staleGroupsRecovered = a.groupsRecovered)
    (hgone : ∀ obligation ∈ state.spawning, r.instanceGone =
      obligationInstanceGone obligation.pid obligation.startTimeTicks a.stat)
    (e : Recovery.WriteEnd) (ends : List Recovery.WriteEnd) :
    (Recovery.resolveStaleRecoveryObligation r).run (Recovery.sem floatRepr) (e :: ends) w =
      match resolveStaleRecoveryObligation state a, state.spawning with
      | .clears, some obligation =>
        (Recovery.clearSpawningObligation obligation.token).run (Recovery.sem floatRepr) ends w
      | .nothing, _ => (w, .returned true)
      | _, _ => (w, .returned false) := by
  have hfirst : (Recovery.sem floatRepr .readState e w) = (.state state, w) := by
    simp only [Recovery.sem, hread]
  show Prog.run _ (Prog.bind Recovery.readStateClient _) (e :: ends) w = _
  rw [Recovery.readStateClient, Prog.bind, Prog.run, hfirst]
  simp only [Prog.bind]
  simp only [resolveStaleRecoveryObligation]
  by_cases hmalformed : state.spawningHoldMalformed = true
  · simp only [hmalformed, if_true]
    rfl
  · simp only [hmalformed]
    cases hspawning : state.spawning with
    | none => rfl
    | some obligation =>
      have hanswer := hgone obligation hspawning
      dsimp only
      by_cases hpid : obligation.pid = none
      · simp only [hpid, if_true]
        rfl
      · simp only [hpid, if_false, hanswer, hgroups]
        cases obligationInstanceGone obligation.pid obligation.startTimeTicks a.stat with
        | false => rfl
        | true =>
          cases a.groupsRecovered with
          | false => rfl
          | true => rfl

end Obligation

/-- **When authority is cleared of processes that are gone only.** For every sequence of reads and
every recorded identity, each of the three operations clears its record only of a process that no
longer runs exactly when its reads are safe. -/
theorem cleared_only_when_gone_iff (runtimeDir workerLogPath : PyStr → PyStr) :
    (∀ (record : WorkerRecord) (a : RetireScenario), a.Truthful record →
      ((retireDbWorker runtimeDir workerLogPath record a = .clears → a.stillRuns = false) ↔
        RetireSafe record a)) ∧
    (∀ (state : SupervisorState) (a : HoldScenario),
      (∀ hold ∈ state.unresolvedChild, a.Truthful hold) →
        ((resolveUnresolvedChild state a = .clears → a.stillRuns = false) ↔ HoldSafe state a)) ∧
    ∀ (state : SupervisorState) (a : ObligationScenario),
      (∀ obligation ∈ state.spawning, a.Truthful obligation) →
        ((resolveStaleRecoveryObligation state a = .clears → a.stillRuns = false) ↔
          ObligationSafe state a) :=
  ⟨fun _ _ h => retire_safe_iff h, fun _ _ h => hold_safe_iff h, fun _ _ h => obligation_safe_iff h⟩

/-! ## A running process -/

/-- The reads of `process_identity`, with both reads of `stat` alike. -/
def identityReads (stat : StatRead) : IdentityReads :=
  { zombie := stat, start := stat, ids := some (8, 8) }

/-- A published worker that keeps running while its groups are recovered. -/
def runningWorker (stat : StatRead) (environ : EnvironRead) : RetireScenario where
  alive := { identity := identityReads stat, environ }
  stop :=
    { pinned := true
      identity := identityReads stat
      absence := stat
      environ
      drain := []
      floor := { identity := identityReads stat, absence := stat }
      retirement := [] }
  drained := false
  groupsRecovered := true
  stillRuns := true

/-- The record of that worker. -/
def publishedWorker : WorkerRecord :=
  { token := "t1", commit := "c1", pid := 8, pgid := 8, sid := 8, startTimeTicks := 10,
    workerId := "w1" }

/-- A poll without a handle. -/
def holdPoll (stat : StatRead) : HoldPoll :=
  { handle := false, childProcessError := false, owned := stat, exited := false, stat }

/-- An unresolved child that keeps running. -/
def runningChild (stat : StatRead) : HoldScenario where
  authorized := true
  first := holdPoll stat
  unsignalled := []
  pinned := true
  confirm := stat
  afterTerm := [holdPoll stat]
  afterKill := [holdPoll stat]
  groupsRecovered := true
  stillRuns := true

/-- The state that holds that child, and the obligation of a recovery whose worker runs. -/
def heldState : SupervisorState :=
  { freshState with
    unresolvedChild := some { pid := 8, startTimeTicks := some 10, token := "t1", spawnedAt := 0 }
    spawning := some { announced with pid := some 8, startTimeTicks := some 10 } }

/-- The worker that the obligation names, running. -/
def runningObligation (stat : StatRead) : ObligationScenario :=
  { stat, groupsRecovered := true, stillRuns := true }

section Truthful

variable {stat : StatRead} {environ : EnvironRead}

theorem runningWorker_truthful (h : stat.OfRunning (some 10)) (he : environ.OfRunning) :
    (runningWorker stat environ).Truthful publishedWorker := by
  intro _
  have hidentity : (identityReads stat).OfRunning (some 10) := ⟨h, h, rfl⟩
  have hnone : ∀ poll ∈ ([] : List RetirementReads), poll.OfRunning (some 10) := by
    intro poll hpoll
    cases hpoll
  exact ⟨hidentity, he, ⟨hidentity, h, he, hnone, ⟨hidentity, h⟩, hnone⟩⟩

theorem runningChild_truthful (h : stat.OfRunning (some 10)) :
    ∀ hold ∈ heldState.unresolvedChild, (runningChild stat).Truthful hold := by
  intro hold hhold _
  obtain rfl := Option.some.inj hhold
  refine ⟨?_, h⟩
  intro p hp
  have hpoll : p = holdPoll stat := by simpa [runningChild] using hp
  rw [hpoll]
  exact ⟨h, rfl, h⟩

theorem runningObligation_truthful (h : stat.OfRunning (some 10)) :
    ∀ obligation ∈ heldState.spawning, (runningObligation stat).Truthful obligation := by
  intro obligation ho _
  obtain rfl := Option.some.inj ho
  exact h

end Truthful

/-- One unreadable `stat` of a running process: each operation clears its record. -/
theorem unreadable_taken_for_gone :
    ((runningWorker .unreadable .unreadable).Truthful publishedWorker ∧
      retireDbWorker id id publishedWorker (runningWorker .unreadable .unreadable) = .clears ∧
      (runningWorker .unreadable .unreadable).stillRuns = true) ∧
    ((∀ hold ∈ heldState.unresolvedChild, (runningChild .unreadable).Truthful hold) ∧
      resolveUnresolvedChild heldState (runningChild .unreadable) = .clears ∧
      (runningChild .unreadable).stillRuns = true) ∧
    (∀ obligation ∈ heldState.spawning, (runningObligation .unreadable).Truthful obligation) ∧
      resolveStaleRecoveryObligation heldState (runningObligation .unreadable) = .clears ∧
      (runningObligation .unreadable).stillRuns = true :=
  ⟨⟨runningWorker_truthful trivial nofun, by decide, rfl⟩,
    ⟨runningChild_truthful trivial, by decide, rfl⟩,
    runningObligation_truthful trivial, by decide, rfl⟩

/-- The equivalence where every read succeeds: nothing is cleared. -/
theorem cleared_only_when_gone_iff_readable :
    (retireDbWorker id id publishedWorker
        (runningWorker (.fields .other 10) (.entries ["LUBKO_LIFECYCLE_TOKEN=t1"])) ≠ .clears) ∧
    resolveUnresolvedChild heldState (runningChild (.fields .other 10)) ≠ .clears ∧
    resolveStaleRecoveryObligation heldState (runningObligation (.fields .other 10)) ≠ .clears := by
  have hstat : (StatRead.fields .other 10).OfRunning (some 10) :=
    ⟨rfl, fun _ h => Option.some.inj h⟩
  have henviron : (EnvironRead.entries ["LUBKO_LIFECYCLE_TOKEN=t1"]).OfRunning := by
    intro h
    cases h
  obtain ⟨hretire, hhold, hobligation⟩ := cleared_only_when_gone_iff id id
  refine ⟨?_, ?_, ?_⟩
  · intro h
    refine Bool.noConfusion ((hretire _ _ (runningWorker_truthful hstat henviron)).2 ?_ h)
    have hlegible : (identityReads (.fields .other 10)).Legible := ⟨nofun, nofun⟩
    exact .inr (.inr ⟨⟨hlegible, rfl, by decide⟩, fun _ _ => rfl⟩)
  · intro h
    refine Bool.noConfusion ((hhold _ _ (runningChild_truthful hstat)).2 ?_ h)
    refine .inr (.inr (.inr (.inr (.inr ?_))))
    intro hold hhold p hp hblind
    obtain rfl := Option.some.inj hhold
    have hpoll : p = holdPoll (.fields .other 10) := by
      simpa [decisivePolls, runningChild] using hp
    rw [hpoll] at hblind
    exact StatRead.noConfusion hblind.2
  · intro h
    refine Bool.noConfusion ((hobligation _ _ (runningObligation_truthful hstat)).2 ?_ h)
    exact .inr (.inr (.inr fun _ _ => .inr nofun))

end Lubko.Supervise.Liveness
