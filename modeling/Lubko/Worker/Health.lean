import Mathlib.Algebra.Order.Ring.Rat
import Lubko.Lib.Execution
import Lubko.Lib.PyStr

/-!
# Health snapshots and the recovery from a deadline breach

The worker's `Supervisor.run` publishes snapshots of its health, and
`interpret_operational_readiness` of `health.py` takes from the two timestamps of a snapshot whether
a breach of the database deadline is recovered: the last database activity is newer than the last
breach. The activity is noted at the start of `_db_phase`, the breach outside of it, so the order of
the two says that a phase started after the breach. Whether one returned is another matter.

The model is the loop with every exit of a turn: a step reads the wall clock as often as the source
does, never backwards. Every snapshot that is built is recorded, also one whose write is dropped,
with the phases and breaches before it.

* `Inv.step` — what the timestamps say of the events, in every state.
* `breach_recovery_sound` — a snapshot without an unrecovered breach stands behind a phase that
  returned, in every run in which no phase since the last breach publishes, or ends with another
  database error, before one has returned.
-/

namespace Lubko.Worker.Health

open Lubko.Lib

/-! ## Snapshots -/

/-- What `_collect_health_aggregates` and the settings say besides. -/
structure Signals where
  cancellationScanOverdue : Bool
  recoveryOverdue : Bool
  gcOverdue : Bool
  minLeaseSafetyRemainingSeconds : Option ℚ
  deriving DecidableEq

/-- `WorkerHealth`, as far as `interpret_operational_readiness` reads it. -/
structure WorkerHealth extends Signals where
  dbConnected : Bool
  dbConnectedAt : Option ℚ
  dbErrorAt : Option ℚ
  dbLastActivityAt : Option ℚ
  dbDeadlineBreachedAt : Option ℚ
  dbDeadlineBreachCount : ℕ
  shuttingDown : Bool
  deriving DecidableEq

/-- `OperationalReadiness`. -/
structure OperationalReadiness where
  ready : Bool
  reason : PyStr
  anyScanOverdue : Bool
  cancellationScanOverdue : Bool
  recoveryOverdue : Bool
  gcOverdue : Bool
  leaseSafetyNegative : Bool
  minLeaseSafetyRemainingSeconds : Option ℚ
  unrecoveredDbDeadlineBreach : Bool
  unrecoveredDbError : Bool
  shuttingDown : Bool
  deriving DecidableEq

/-- `_db_deadline_breach_recovered`. -/
def dbDeadlineBreachRecovered (snapshot : WorkerHealth) : Bool :=
  match snapshot.dbDeadlineBreachedAt, snapshot.dbLastActivityAt with
  | none, _ => true
  | some _, none => false
  | some breached, some activity => breached < activity

/-- `_db_error_recovered`. -/
def dbErrorRecovered (snapshot : WorkerHealth) : Bool :=
  match snapshot.dbErrorAt, snapshot.dbConnectedAt with
  | none, _ => true
  | some _, none => false
  | some error, some connected => snapshot.dbConnected && error < connected

/-- A reason that is given when it holds. -/
def reasonIf (holds : Bool) (reason : PyStr) : List PyStr := if holds then [reason] else []

/-- `separator.join(parts)`. -/
def join (separator : PyStr) (parts : List PyStr) : PyStr := separator.intercalate parts

/-- `interpret_operational_readiness`; `fixed` is the format `.1f`. -/
def interpretOperationalReadiness (fixed : ℚ → PyStr) (snapshot : WorkerHealth) :
    OperationalReadiness :=
  let anyScanOverdue :=
    snapshot.cancellationScanOverdue || snapshot.recoveryOverdue || snapshot.gcOverdue
  let leaseSafetyNegative := snapshot.minLeaseSafetyRemainingSeconds.any (· < 0)
  let unrecoveredBreach := !dbDeadlineBreachRecovered snapshot
  let unrecoveredError := !dbErrorRecovered snapshot
  let overdueScans := reasonIf snapshot.cancellationScanOverdue "cancellation" ++
    reasonIf snapshot.recoveryOverdue "recovery" ++ reasonIf snapshot.gcOverdue "gc"
  let reasons :=
    reasonIf anyScanOverdue (PyStr.ofString "overdue scans: " ++ join ", " overdueScans) ++
    reasonIf leaseSafetyNegative (PyStr.ofString "lease safety negative: " ++
      (snapshot.minLeaseSafetyRemainingSeconds.map fixed).getD [] ++ PyStr.ofString "s") ++
    reasonIf unrecoveredBreach "unrecovered DB deadline breach" ++
    reasonIf unrecoveredError "unrecovered DB error" ++
    reasonIf snapshot.shuttingDown "shutting down"
  { ready := reasons.isEmpty
    reason := if reasons.isEmpty then "ok" else join "; " reasons
    anyScanOverdue
    cancellationScanOverdue := snapshot.cancellationScanOverdue
    recoveryOverdue := snapshot.recoveryOverdue
    gcOverdue := snapshot.gcOverdue
    leaseSafetyNegative
    minLeaseSafetyRemainingSeconds := snapshot.minLeaseSafetyRemainingSeconds
    unrecoveredDbDeadlineBreach := unrecoveredBreach
    unrecoveredDbError := unrecoveredError
    shuttingDown := snapshot.shuttingDown }

/-! ## The loop -/

/-- Where `run` is. -/
inductive Place where
  /-- Before the first `_connect`. -/
  | starting
  /-- Behind it, before the first publication of `run`. -/
  | started
  /-- At `while not self._stopping`. -/
  | loop
  /-- In `_tick`, before it turns to the outage or to the database. -/
  | tick
  /-- In `_outage_phase`. -/
  | outage
  /-- In `_db_phase`. -/
  | phase
  /-- Behind the `try` of a turn. -/
  | turnEnd
  /-- In `_shutdown`. -/
  | shutdown
  | gone
  deriving DecidableEq

/-- What a run leaves behind. -/
inductive Event where
  | phaseStarted
  | phaseReturned
  | breachRecorded
  | snapshot (health : WorkerHealth)
  deriving DecidableEq

/-- The part of the worker's supervisor its snapshots tell of. -/
structure Supervisor where
  /-- `settings.health_publish_interval_seconds`. -/
  healthPublishIntervalSeconds : ℚ
  /-- The last reading of `time.time()`. -/
  clock : ℚ
  /-- `conn is not None`. -/
  connected : Bool
  stopping : Bool
  dbConnectedAt : Option ℚ
  dbErrorAt : Option ℚ
  lastDbActivityAt : Option ℚ
  dbDeadlineBreachedAt : Option ℚ
  dbDeadlineBreachCount : ℕ
  nextHealthPublishAt : ℚ
  place : Place
  /-- The run so far. -/
  events : List Event

/-- `Supervisor.__init__`, at the time `startedAt`. -/
def initial (healthPublishIntervalSeconds startedAt : ℚ) : Supervisor where
  healthPublishIntervalSeconds := healthPublishIntervalSeconds
  clock := startedAt
  connected := false
  stopping := false
  dbConnectedAt := none
  dbErrorAt := none
  lastDbActivityAt := none
  dbDeadlineBreachedAt := none
  dbDeadlineBreachCount := 0
  nextHealthPublishAt := 0
  place := .starting
  events := []

namespace Supervisor

/-- A reading of `time.time()`. -/
def wall (t : ℚ) (s : Supervisor) : Option Supervisor :=
  if s.clock ≤ t then some { s with clock := t } else none

/-- `_build_health`. -/
def buildHealth (signals : Signals) (shuttingDown : Bool) (s : Supervisor) : WorkerHealth :=
  { signals with
    dbConnected := s.connected
    dbConnectedAt := s.dbConnectedAt
    dbErrorAt := s.dbErrorAt
    dbLastActivityAt := s.lastDbActivityAt
    dbDeadlineBreachedAt := s.dbDeadlineBreachedAt
    dbDeadlineBreachCount := s.dbDeadlineBreachCount
    shuttingDown := shuttingDown }

/-- `_publish_health`. -/
def publishHealth (force : Bool) (t : ℚ) (signals : Signals) (s : Supervisor) :
    Option Supervisor := do
  let s ← s.wall t
  if force = false ∧ t < s.nextHealthPublishAt then return s
  return { s with
    events := s.events ++ [.snapshot (s.buildHealth signals false)]
    nextHealthPublishAt := t + s.healthPublishIntervalSeconds }

/-- `_record_db_deadline_breach`. -/
def recordDbDeadlineBreach (t : ℚ) (s : Supervisor) : Option Supervisor := do
  let s ← s.wall t
  return { s with
    dbDeadlineBreachedAt := some t
    dbDeadlineBreachCount := s.dbDeadlineBreachCount + 1
    events := s.events ++ [.breachRecorded] }

/-- `_enter_outage`. -/
def enterOutage (t t' : ℚ) (signals : Signals) (s : Supervisor) : Option Supervisor := do
  let s ← s.wall t
  publishHealth true t' signals { s with connected := false, dbErrorAt := some t }

/-- The end of `_connect` where the connection is refused. -/
def connectFailed (t t' : ℚ) (signals : Signals) (s : Supervisor) : Option Supervisor := do
  let s ← s.wall t
  publishHealth true t' signals { s with connected := false, dbErrorAt := some t }

/-- The end of `_connect` where the table is verified. -/
def connectVerified (t t' : ℚ) (signals : Signals) (s : Supervisor) : Option Supervisor := do
  let s ← s.wall t
  publishHealth true t' signals { s with connected := true, dbConnectedAt := some t }

/-- Go on at another place. -/
def goto (place : Place) (s : Supervisor) : Supervisor := { s with place := place }

end Supervisor

/-- How an exception leaves `_tick`, and the clock readings of its handler. -/
inductive TickError where
  /-- `DbOperationDeadlineError`. -/
  | deadline (t t' t'' : ℚ) (signals : Signals)
  /-- A `psycopg.Error` that `_is_connectivity_error` accepts. -/
  | connectivity (t t' : ℚ) (signals : Signals)
  /-- Another `psycopg.Error`. -/
  | database
  deriving DecidableEq

inductive Label where
  /-- `request_shutdown`, by a signal handler. -/
  | requestShutdown
  | connectFailed (t t' : ℚ) (signals : Signals)
  | connected (t t' : ℚ) (signals : Signals)
  /-- The first publication of `run`. -/
  | publishStarted (t : ℚ) (signals : Signals)
  | beginTick
  /-- `_tick` returns at `if self._stopping`. -/
  | leaveTick
  | beginOutage
  /-- `_outage_phase` returns before the time to reconnect. -/
  | stayOut
  /-- `_db_phase` is called. -/
  | beginPhase (t : ℚ)
  /-- `_publish_health_force` where an attempt was handled or a job finalized. -/
  | publishForced (t : ℚ) (signals : Signals)
  | endPhase
  | raises (error : TickError)
  /-- An exception that `run` does not handle. -/
  | escapes
  /-- `_publish_health` at the end of a turn. -/
  | endTurn (t : ℚ) (signals : Signals)
  | beginShutdown
  | discardDbConnection
  /-- The `finally` of `_shutdown`. -/
  | endShutdown (signals : Signals)
  deriving DecidableEq

namespace Supervisor

/-- Behind `_connect`: `run` goes on to publish, `_outage_phase` returns. -/
def behindConnect (s : Supervisor) : Option Place :=
  match s.place with
  | .starting => some .started
  | .outage => some .turnEnd
  | _ => none

/-- A handler of `run` catches what leaves `_tick`. -/
def handle (s : Supervisor) : TickError → Option Supervisor
  | .deadline t t' t'' signals => do
    let s ← s.recordDbDeadlineBreach t
    let s ← s.enterOutage t' t'' signals
    return s.goto .turnEnd
  | .connectivity t t' signals => do
    let s ← s.enterOutage t t' signals
    return s.goto .turnEnd
  | .database => some { s with stopping := true, place := .turnEnd }

def step (s : Supervisor) : Label → Option Supervisor
  | .requestShutdown => if s.place = .gone then none else some { s with stopping := true }
  | .connectFailed t t' signals => do
    let place ← s.behindConnect
    let s ← s.connectFailed t t' signals
    return s.goto place
  | .connected t t' signals => do
    let place ← s.behindConnect
    let s ← s.connectVerified t t' signals
    return s.goto place
  | .publishStarted t signals =>
    if s.place = .started then (s.publishHealth true t signals).map (goto .loop) else none
  | .beginTick =>
    if s.place = .loop ∧ s.stopping = false then some (s.goto .tick) else none
  | .leaveTick =>
    if s.place = .tick ∧ s.stopping = true then some (s.goto .turnEnd) else none
  | .beginOutage =>
    if s.place = .tick ∧ s.connected = false then some (s.goto .outage) else none
  | .stayOut => if s.place = .outage then some (s.goto .turnEnd) else none
  | .beginPhase t =>
    if s.place = .tick ∧ s.connected = true then do
      let s ← s.wall t
      return { s with
        lastDbActivityAt := some t
        place := .phase
        events := s.events ++ [.phaseStarted] }
    else none
  | .publishForced t signals =>
    if s.place = .tick ∨ s.place = .phase ∨ s.place = .shutdown then s.publishHealth true t signals
    else none
  | .endPhase =>
    if s.place = .phase then
      some { s with place := .turnEnd, events := s.events ++ [.phaseReturned] }
    else none
  | .raises error =>
    if s.place = .tick ∨ s.place = .outage ∨ s.place = .phase then s.handle error else none
  | .escapes => some (s.goto .gone)
  | .endTurn t signals =>
    if s.place = .turnEnd then (s.publishHealth false t signals).map (goto .loop) else none
  | .beginShutdown =>
    if s.place = .loop ∧ s.stopping = true then some (s.goto .shutdown) else none
  | .discardDbConnection => if s.place = .shutdown then some { s with connected := false } else none
  | .endShutdown signals =>
    if s.place = .shutdown then
      some { s with
        connected := false
        place := .gone
        events := s.events ++
          [.snapshot (buildHealth signals true { s with connected := false })] }
    else none

end Supervisor

/-! ## What a snapshot has to stand behind -/

/-- Some `_db_phase` that started after the last breach has returned. -/
def RecoveredSince (events : List Event) : Prop :=
  ∃ before inside behind, events = before ++ .phaseStarted :: (inside ++ .phaseReturned :: behind) ∧
    (∀ e ∈ inside, e ≠ .phaseStarted ∧ e ≠ .phaseReturned) ∧ .breachRecorded ∉ inside ++ behind

/-- A snapshot is sound: if it is read as free of an unrecovered breach although one was recorded, a
phase has returned since. -/
def Sound (fixed : ℚ → PyStr) (before : List Event) (health : WorkerHealth) : Prop :=
  (interpretOperationalReadiness fixed health).unrecoveredDbDeadlineBreach = false →
    .breachRecorded ∈ before → RecoveredSince before

/-- Every snapshot of a run is sound. -/
def SnapshotsSound (fixed : ℚ → PyStr) (events : List Event) : Prop :=
  ∀ before health behind, events = before ++ .snapshot health :: behind →
    Sound fixed before health

namespace Supervisor

/-- The last activity is newer than the last breach: a phase started since. -/
def Newer (s : Supervisor) : Prop :=
  ∃ breached ∈ s.dbDeadlineBreachedAt, ∃ activity ∈ s.lastDbActivityAt, breached < activity

/-- No snapshot is built in a phase, and no phase ends with a `psycopg.Error`, before a phase that
started after the last breach has returned; a phase that started at the very time of the breach is
left out. -/
def Meets (s : Supervisor) : Label → Prop
  | .publishForced _ _ | .raises (.connectivity _ _ _) | .raises .database =>
    s.place = .phase → s.Newer → RecoveredSince s.events
  | _ => True

end Supervisor

/-! ## Snapshots behind a phase -/

theorem RecoveredSince.append {events snapshots : List Event} (h : RecoveredSince events)
    (hsnapshots : .breachRecorded ∉ snapshots) : RecoveredSince (events ++ snapshots) := by
  obtain ⟨before, inside, behind, rfl, hinside, hbreach⟩ := h
  refine ⟨before, inside, behind ++ snapshots, by simp, hinside, ?_⟩
  rw [← List.append_assoc, List.mem_append]
  exact not_or.2 ⟨hbreach, hsnapshots⟩

/-- A phase is under way: since it started, only snapshots were built. -/
def InPhase (events : List Event) : Prop :=
  ∃ before inside, events = before ++ .phaseStarted :: inside ∧
    ∀ e ∈ inside, ∃ health, e = .snapshot health

theorem InPhase.append {events snapshots : List Event} (h : InPhase events)
    (hsnapshots : ∀ e ∈ snapshots, ∃ health, e = .snapshot health) :
    InPhase (events ++ snapshots) := by
  obtain ⟨before, inside, rfl, hinside⟩ := h
  refine ⟨before, inside ++ snapshots, by simp, fun e he => ?_⟩
  rcases List.mem_append.1 he with he | he
  · exact hinside e he
  · exact hsnapshots e he

/-- A phase that returns is one that started after the last breach. -/
theorem InPhase.returned {events : List Event} (h : InPhase events) :
    RecoveredSince (events ++ [.phaseReturned]) := by
  obtain ⟨before, inside, rfl, hinside⟩ := h
  refine ⟨before, inside, [], by simp, fun e he => ?_, fun hbreach => ?_⟩
  · obtain ⟨health, rfl⟩ := hinside e he
    exact ⟨nofun, nofun⟩
  · rw [List.append_nil] at hbreach
    obtain ⟨health, hhealth⟩ := hinside _ hbreach
    cases hhealth

theorem not_recovered_iff {fixed : ℚ → PyStr} {health : WorkerHealth} :
    (interpretOperationalReadiness fixed health).unrecoveredDbDeadlineBreach = false ↔
      ∀ breached ∈ health.dbDeadlineBreachedAt,
        ∃ activity ∈ health.dbLastActivityAt, breached < activity := by
  show (!dbDeadlineBreachRecovered health) = false ↔ _
  rw [dbDeadlineBreachRecovered]
  cases health.dbDeadlineBreachedAt with
  | none => simp
  | some breached =>
    cases health.dbLastActivityAt with
    | none => simp
    | some activity => simp

/-- Sound snapshots stay so when others are added, each sound behind what was added before it. -/
theorem SnapshotsSound.append {fixed : ℚ → PyStr} {events added : List Event}
    (hsound : SnapshotsSound fixed events)
    (hadded : ∀ before health behind, added = before ++ .snapshot health :: behind →
      Sound fixed (events ++ before) health) : SnapshotsSound fixed (events ++ added) := by
  intro before health behind h
  rcases List.append_eq_append_iff.1 h with ⟨more, rfl, hmore⟩ | ⟨rest, rfl, hrest⟩
  · exact hadded more health behind hmore
  · cases rest with
    | nil =>
      have hfirst := hadded [] health behind hrest.symm
      rw [List.append_nil, List.append_nil] at hfirst
      exact hfirst
    | cons e rest =>
      obtain ⟨rfl, rfl⟩ := List.cons.inj hrest
      exact hsound before health rest rfl

namespace Supervisor

variable {s s' : Supervisor}

/-! ## Steps that leave the timestamps -/

/-- Nothing but snapshots was recorded, and each shows the timestamps of the state. -/
structure Quiet (s s' : Supervisor) : Prop where
  activity : s'.lastDbActivityAt = s.lastDbActivityAt
  breached : s'.dbDeadlineBreachedAt = s.dbDeadlineBreachedAt
  clock : s.clock ≤ s'.clock
  events : ∃ healths : List WorkerHealth, s'.events = s.events ++ healths.map Event.snapshot ∧
    ∀ health ∈ healths, health.dbLastActivityAt = s.lastDbActivityAt ∧
      health.dbDeadlineBreachedAt = s.dbDeadlineBreachedAt

theorem Quiet.of_eq (hactivity : s'.lastDbActivityAt = s.lastDbActivityAt)
    (hbreached : s'.dbDeadlineBreachedAt = s.dbDeadlineBreachedAt) (hclock : s.clock ≤ s'.clock)
    (hevents : s'.events = s.events) : Quiet s s' :=
  ⟨hactivity, hbreached, hclock, [], by simp [hevents], by simp⟩

theorem Quiet.goto (place : Place) : Quiet s (s.goto place) := .of_eq rfl rfl le_rfl rfl

theorem Quiet.trans {u : Supervisor} (h : Quiet s s') (h' : Quiet s' u) : Quiet s u := by
  obtain ⟨healths, hevents, hshown⟩ := h.events
  obtain ⟨healths', hevents', hshown'⟩ := h'.events
  refine ⟨h'.activity.trans h.activity, h'.breached.trans h.breached, h.clock.trans h'.clock,
    healths ++ healths', by simp [hevents', hevents], fun health hhealth => ?_⟩
  rcases List.mem_append.1 hhealth with hhealth | hhealth
  · exact hshown health hhealth
  · rw [← h.activity, ← h.breached]
    exact hshown' health hhealth

theorem wall_eq_some {t : ℚ} : s.wall t = some s' ↔ s.clock ≤ t ∧ s' = { s with clock := t } := by
  rw [wall]
  by_cases h : s.clock ≤ t
  · simp [h, eq_comm]
  · simp [h]

theorem Quiet.publishHealth {force : Bool} {t : ℚ} {signals : Signals}
    (h : s.publishHealth force t signals = some s') : Quiet s s' ∧ s'.place = s.place := by
  rw [Supervisor.publishHealth] at h
  simp only [bind, Option.bind_eq_some_iff, wall_eq_some] at h
  obtain ⟨u, ⟨hclock, rfl⟩, h⟩ := h
  split_ifs at h with hthrottled
  · obtain rfl := Option.some.inj h
    exact ⟨.of_eq rfl rfl hclock rfl, rfl⟩
  · obtain rfl := Option.some.inj h
    exact ⟨⟨rfl, rfl, hclock, [_], rfl, by simp [buildHealth]⟩, rfl⟩

/-- A change of the connection and its timestamps, then a forced publication. -/
theorem Quiet.reconnect {t t' : ℚ} {signals : Signals} {u : Supervisor} (hclock : s.clock ≤ t)
    (hu : Quiet { s with clock := t } u) (hplace : u.place = s.place)
    (h : u.publishHealth true t' signals = some s') : Quiet s s' ∧ s'.place = s.place := by
  obtain ⟨hquiet, hplace'⟩ := Quiet.publishHealth h
  have hwall : Quiet s { s with clock := t } := .of_eq rfl rfl hclock rfl
  exact ⟨(hwall.trans hu).trans hquiet, hplace'.trans hplace⟩

theorem Quiet.enterOutage {t t' : ℚ} {signals : Signals}
    (h : s.enterOutage t t' signals = some s') : Quiet s s' ∧ s'.place = s.place := by
  simp only [Supervisor.enterOutage, bind, Option.bind_eq_some_iff, wall_eq_some] at h
  obtain ⟨u, ⟨hclock, rfl⟩, h⟩ := h
  refine Quiet.reconnect hclock ?_ ?_ h
  · exact .of_eq rfl rfl le_rfl rfl
  · rfl

theorem Quiet.connectFailed {t t' : ℚ} {signals : Signals}
    (h : s.connectFailed t t' signals = some s') : Quiet s s' ∧ s'.place = s.place :=
  Quiet.enterOutage h

theorem Quiet.connectVerified {t t' : ℚ} {signals : Signals}
    (h : s.connectVerified t t' signals = some s') : Quiet s s' ∧ s'.place = s.place := by
  simp only [Supervisor.connectVerified, bind, Option.bind_eq_some_iff, wall_eq_some] at h
  obtain ⟨u, ⟨hclock, rfl⟩, h⟩ := h
  refine Quiet.reconnect hclock ?_ ?_ h
  · exact .of_eq rfl rfl le_rfl rfl
  · rfl

/-! ## The invariant -/

variable {fixed : ℚ → PyStr}

/-- What the timestamps say: neither is in the future, a breach is noted exactly when one was
recorded, and an activity newer than the last breach is that of a phase under way or stands behind a
phase that returned. -/
structure Inv (fixed : ℚ → PyStr) (s : Supervisor) : Prop where
  activity : ∀ activity ∈ s.lastDbActivityAt, activity ≤ s.clock
  breached : ∀ breached ∈ s.dbDeadlineBreachedAt, breached ≤ s.clock
  recorded : .breachRecorded ∈ s.events → s.dbDeadlineBreachedAt.isSome = true
  inPhase : s.place = .phase → InPhase s.events
  newer : s.place ≠ .phase → s.place ≠ .gone → s.Newer → RecoveredSince s.events
  sound : SnapshotsSound fixed s.events

theorem Newer.congr (hactivity : s'.lastDbActivityAt = s.lastDbActivityAt)
    (hbreached : s'.dbDeadlineBreachedAt = s.dbDeadlineBreachedAt) : s'.Newer ↔ s.Newer := by
  rw [Newer, Newer, hactivity, hbreached]

theorem initial_inv (interval startedAt : ℚ) : Inv fixed (initial interval startedAt) where
  activity := nofun
  breached := nofun
  recorded := nofun
  inPhase := nofun
  newer := by
    rintro - - ⟨breached, hbreached, -⟩
    cases hbreached
  sound := by
    intro before health behind h
    cases before <;> cases h

theorem not_mem_snapshots (healths : List WorkerHealth) :
    .breachRecorded ∉ healths.map Event.snapshot := by
  intro h
  obtain ⟨health, -, hhealth⟩ := List.mem_map.1 h
  cases hhealth

/-- A snapshot that shows the timestamps of a state is sound behind its events, if a newer activity
stands behind a phase that returned. -/
theorem sound_of_shown {before : List Event} {health : WorkerHealth}
    (hshown : health.dbLastActivityAt = s.lastDbActivityAt ∧
      health.dbDeadlineBreachedAt = s.dbDeadlineBreachedAt)
    (hrecorded : .breachRecorded ∈ before → s.dbDeadlineBreachedAt.isSome = true)
    (hnewer : s.Newer → RecoveredSince before) : Sound fixed before health := by
  intro hread hbreach
  obtain ⟨breached, hbreached⟩ := Option.isSome_iff_exists.1 (hrecorded hbreach)
  rw [not_recovered_iff, hshown.1, hshown.2] at hread
  obtain ⟨activity, hactivity, hlt⟩ := hread breached hbreached
  exact hnewer ⟨breached, hbreached, activity, hactivity, hlt⟩

/-- **A quiet step keeps the invariant**, if it builds a snapshot, or leaves a phase, only where a
newer activity stands behind a phase that returned. -/
theorem Inv.quiet (hs : Inv fixed s) (hquiet : Quiet s s')
    (hphase : s'.place = .phase → s.place = .phase)
    (hnewer : s'.place ≠ .gone ∨ s'.events ≠ s.events → s'.place ≠ .phase ∨ s'.events ≠ s.events →
      s.Newer → RecoveredSince s.events) : Inv fixed s' := by
  obtain ⟨healths, hevents, hshown⟩ := hquiet.events
  have hrecorded : ∀ more : List Event, .breachRecorded ∉ more →
      .breachRecorded ∈ s.events ++ more → s.dbDeadlineBreachedAt.isSome = true := by
    intro more hmore hbreach
    rcases List.mem_append.1 hbreach with hbreach | hbreach
    · exact hs.recorded hbreach
    · exact absurd hbreach hmore
  refine ⟨?_, ?_, ?_, ?_, ?_, ?_⟩
  · intro activity hactivity
    rw [hquiet.activity] at hactivity
    exact (hs.activity activity hactivity).trans hquiet.clock
  · intro breached hbreached
    rw [hquiet.breached] at hbreached
    exact (hs.breached breached hbreached).trans hquiet.clock
  · rw [hevents, hquiet.breached]
    exact hrecorded _ (not_mem_snapshots healths)
  · intro hplace
    rw [hevents]
    refine (hs.inPhase (hphase hplace)).append fun e he => ?_
    obtain ⟨health, -, rfl⟩ := List.mem_map.1 he
    exact ⟨health, rfl⟩
  · intro hplace hgone hnew
    rw [hevents]
    rw [Newer.congr hquiet.activity hquiet.breached] at hnew
    exact (hnewer (.inl hgone) (.inl hplace) hnew).append (not_mem_snapshots healths)
  · rw [hevents]
    refine hs.sound.append fun before health behind hadded => ?_
    have hne : s'.events ≠ s.events := by
      intro hsame
      rw [hevents, List.append_right_eq_self] at hsame
      rw [hsame] at hadded
      cases before <;> cases hadded
    have hbefore : .breachRecorded ∉ before := by
      intro hbreach
      refine not_mem_snapshots healths ?_
      rw [hadded]
      exact List.mem_append_left _ hbreach
    have hmem : health ∈ healths := by
      have hmem' : Event.snapshot health ∈ healths.map Event.snapshot := by simp [hadded]
      obtain ⟨health', hhealth', heq⟩ := List.mem_map.1 hmem'
      cases heq
      exact hhealth'
    refine sound_of_shown (hshown health hmem) (hrecorded before hbefore) fun hnew => ?_
    exact (hnewer (.inr hne) (.inr hne) hnew).append hbefore

/-- A quiet step outside a phase. -/
theorem Inv.quiet_outside (hs : Inv fixed s) (hplace : s.place ≠ .phase) (hgone : s.place ≠ .gone)
    (hplace' : s'.place ≠ .phase) (hquiet : Quiet s s') : Inv fixed s' :=
  hs.quiet hquiet (fun h => absurd h hplace') fun _ _ => hs.newer hplace hgone

theorem Quiet.goto_goto (h : Quiet s s') (place place' : Place) :
    Quiet (s.goto place) (s'.goto place') :=
  ⟨h.activity, h.breached, h.clock, h.events⟩

theorem Inv.beginPhase {t : ℚ} (hs : Inv fixed s) (hclock : s.clock ≤ t) :
    Inv fixed { s with
      clock := t
      lastDbActivityAt := some t
      place := .phase
      events := s.events ++ [.phaseStarted] } where
  activity := by
    intro activity hactivity
    exact (Option.some.inj hactivity).ge
  breached breached hbreached := (hs.breached breached hbreached).trans hclock
  recorded := by
    intro hbreach
    refine hs.recorded ?_
    simpa using hbreach
  inPhase _ := ⟨s.events, [], rfl, by simp⟩
  newer := by
    intro hplace
    exact absurd rfl hplace
  sound := by
    refine hs.sound.append fun before health behind hadded => ?_
    cases before with
    | nil => cases hadded
    | cons e before => simp at hadded

theorem Inv.endPhase (hs : Inv fixed s) (hplace : s.place = .phase) :
    Inv fixed { s with place := .turnEnd, events := s.events ++ [.phaseReturned] } where
  activity := hs.activity
  breached := hs.breached
  recorded := by
    intro hbreach
    refine hs.recorded ?_
    simpa using hbreach
  inPhase := nofun
  newer _ _ _ := (hs.inPhase hplace).returned
  sound := by
    refine hs.sound.append fun before health behind hadded => ?_
    cases before with
    | nil => cases hadded
    | cons e before => simp at hadded

/-- A breach is newer than any activity before it. -/
theorem Inv.recordDbDeadlineBreach {t : ℚ} (hs : Inv fixed s)
    (h : s.recordDbDeadlineBreach t = some s') : Inv fixed (s'.goto .turnEnd) := by
  simp only [Supervisor.recordDbDeadlineBreach, bind, Option.bind_eq_some_iff, wall_eq_some] at h
  obtain ⟨u, ⟨hclock, rfl⟩, h⟩ := h
  obtain rfl := Option.some.inj h
  refine ⟨?_, ?_, fun _ => rfl, nofun, ?_, ?_⟩
  · intro activity hactivity
    exact (hs.activity activity hactivity).trans hclock
  · intro breached hbreached
    exact (Option.some.inj hbreached).ge
  · rintro - - ⟨breached, hbreached, activity, hactivity, hlt⟩
    obtain rfl : t = breached := Option.some.inj hbreached
    exact absurd hlt (not_lt.2 ((hs.activity activity hactivity).trans hclock))
  · refine hs.sound.append fun before health behind hadded => ?_
    cases before with
    | nil => cases hadded
    | cons e before => simp at hadded

theorem Inv.raises {error : TickError} (hs : Inv fixed s) (hmeets : s.Meets (.raises error))
    (hgone : s.place ≠ .gone) (h : s.handle error = some s') : Inv fixed s' := by
  have hnewer : (s.place = .phase → s.Newer → RecoveredSince s.events) → s.Newer →
      RecoveredSince s.events := by
    intro hphase
    by_cases hplace : s.place = .phase
    · exact hphase hplace
    · exact hs.newer hplace hgone
  cases error with
  | deadline t t' t'' signals =>
    simp only [handle, bind, Option.bind_eq_some_iff] at h
    obtain ⟨u, hu, v, hv, h⟩ := h
    obtain rfl := Option.some.inj h
    have hinv := hs.recordDbDeadlineBreach hu
    exact hinv.quiet_outside nofun nofun nofun ((Quiet.enterOutage hv).1.goto_goto _ _)
  | connectivity t t' signals =>
    simp only [handle, bind, Option.bind_eq_some_iff] at h
    obtain ⟨u, hu, h⟩ := h
    obtain rfl := Option.some.inj h
    exact hs.quiet ((Quiet.enterOutage hu).1.trans (.goto _)) nofun fun _ _ => hnewer hmeets
  | database =>
    obtain rfl := Option.some.inj h
    exact hs.quiet (.of_eq rfl rfl le_rfl rfl) nofun fun _ _ => hnewer hmeets

theorem Inv.behindConnect {place : Place} {u : Supervisor} (hs : Inv fixed s)
    (hplace : s.behindConnect = some place) (hquiet : Quiet s u) : Inv fixed (u.goto place) := by
  have houtside : s.place ≠ .phase ∧ s.place ≠ .gone ∧ place ≠ .phase := by
    rw [Supervisor.behindConnect] at hplace
    split at hplace
    · rename_i hstarting
      cases hplace
      simp [hstarting]
    · rename_i houtage
      cases hplace
      simp [houtage]
    · cases hplace
  obtain ⟨hphase, hgone, hplace'⟩ := houtside
  exact hs.quiet_outside hphase hgone hplace' (hquiet.trans (.goto place))

/-- **Every step that meets the condition keeps the invariant.** -/
theorem Inv.step {label : Label} (hs : Inv fixed s) (hmeets : s.Meets label)
    (h : s.step label = some s') : Inv fixed s' := by
  have hmove : ∀ (p : Place) (place : Place), s.place = p → p ≠ .phase → p ≠ .gone →
      place ≠ .phase → Inv fixed (s.goto place) := by
    rintro p place rfl hphase hgone hplace
    exact hs.quiet_outside hphase hgone hplace (.goto place)
  cases label with
  | requestShutdown =>
    simp only [Supervisor.step] at h
    split_ifs at h with hgone
    obtain rfl := Option.some.inj h
    refine hs.quiet (.of_eq rfl rfl le_rfl rfl) id fun _ hphase => ?_
    exact hs.newer (hphase.resolve_right fun hne => hne rfl) hgone
  | connectFailed t t' signals =>
    simp only [Supervisor.step, bind, Option.bind_eq_some_iff] at h
    obtain ⟨place, hplace, u, hu, h⟩ := h
    obtain rfl := Option.some.inj h
    exact hs.behindConnect hplace (Quiet.connectFailed hu).1
  | connected t t' signals =>
    simp only [Supervisor.step, bind, Option.bind_eq_some_iff] at h
    obtain ⟨place, hplace, u, hu, h⟩ := h
    obtain rfl := Option.some.inj h
    exact hs.behindConnect hplace (Quiet.connectVerified hu).1
  | publishStarted t signals =>
    simp only [Supervisor.step] at h
    split_ifs at h with hplace
    obtain ⟨u, hu, rfl⟩ := Option.map_eq_some_iff.1 h
    exact hs.quiet_outside (by simp [hplace]) (by simp [hplace]) nofun
      ((Quiet.publishHealth hu).1.trans (.goto _))
  | beginTick =>
    simp only [Supervisor.step] at h
    split_ifs at h with hplace
    obtain rfl := Option.some.inj h
    exact hmove .loop _ hplace.1 nofun nofun nofun
  | leaveTick =>
    simp only [Supervisor.step] at h
    split_ifs at h with hplace
    obtain rfl := Option.some.inj h
    exact hmove .tick _ hplace.1 nofun nofun nofun
  | beginOutage =>
    simp only [Supervisor.step] at h
    split_ifs at h with hplace
    obtain rfl := Option.some.inj h
    exact hmove .tick _ hplace.1 nofun nofun nofun
  | stayOut =>
    simp only [Supervisor.step] at h
    split_ifs at h with hplace
    obtain rfl := Option.some.inj h
    exact hmove .outage _ hplace nofun nofun nofun
  | beginPhase t =>
    simp only [Supervisor.step] at h
    split_ifs at h with hplace
    simp only [bind, Option.bind_eq_some_iff, wall_eq_some] at h
    obtain ⟨u, ⟨hclock, rfl⟩, h⟩ := h
    obtain rfl := Option.some.inj h
    exact hs.beginPhase hclock
  | publishForced t signals =>
    simp only [Supervisor.step] at h
    split_ifs at h with hplace
    obtain ⟨hquiet, hsame⟩ := Quiet.publishHealth h
    refine hs.quiet hquiet (fun hphase => hsame ▸ hphase) fun _ _ => ?_
    rcases hplace with htick | hphase | hshutdown
    · exact hs.newer (by simp [htick]) (by simp [htick])
    · exact hmeets hphase
    · exact hs.newer (by simp [hshutdown]) (by simp [hshutdown])
  | endPhase =>
    simp only [Supervisor.step] at h
    split_ifs at h with hplace
    obtain rfl := Option.some.inj h
    exact hs.endPhase hplace
  | raises error =>
    simp only [Supervisor.step] at h
    split_ifs at h with hplace
    refine hs.raises hmeets ?_ h
    intro hgone
    simp [hgone] at hplace
  | escapes =>
    obtain rfl := Option.some.inj h
    refine hs.quiet (.goto _) nofun fun hgone _ => ?_
    rcases hgone with hgone | hne
    · exact absurd rfl hgone
    · exact absurd rfl hne
  | endTurn t signals =>
    simp only [Supervisor.step] at h
    split_ifs at h with hplace
    obtain ⟨u, hu, rfl⟩ := Option.map_eq_some_iff.1 h
    exact hs.quiet_outside (by simp [hplace]) (by simp [hplace]) nofun
      ((Quiet.publishHealth hu).1.trans (.goto _))
  | beginShutdown =>
    simp only [Supervisor.step] at h
    split_ifs at h with hplace
    obtain rfl := Option.some.inj h
    exact hmove .loop _ hplace.1 nofun nofun nofun
  | discardDbConnection =>
    simp only [Supervisor.step] at h
    split_ifs at h with hplace
    obtain rfl := Option.some.inj h
    exact hs.quiet_outside (by simp [hplace]) (by simp [hplace]) (by simp [hplace])
      (.of_eq rfl rfl le_rfl rfl)
  | endShutdown signals =>
    simp only [Supervisor.step] at h
    split_ifs at h with hplace
    obtain rfl := Option.some.inj h
    exact hs.quiet_outside (by simp [hplace]) (by simp [hplace]) nofun
      ⟨rfl, rfl, le_rfl, [_], rfl, by simp [buildHealth]⟩

end Supervisor

/-! ## Runs -/

/-- Nothing is overdue. -/
def calm : Signals := ⟨false, false, false, none⟩

/-- A breach in the first phase, a reconnection, and a second phase under way. -/
def breachedThenPhase : List Label :=
  [.connected 1 1 calm, .publishStarted 1 calm, .beginTick, .beginPhase 2,
    .raises (.deadline 3 3 3 calm), .endTurn 3 calm, .beginTick, .beginOutage, .connected 4 4 calm,
    .endTurn 4 calm, .beginTick, .beginPhase 5]

/-- The snapshot of an outage at 6, where the last activity was at 5 and the breach at 3. -/
def outageHealth : WorkerHealth :=
  { calm with
    dbConnected := false
    dbConnectedAt := some 4
    dbErrorAt := some 6
    dbLastActivityAt := some 5
    dbDeadlineBreachedAt := some 3
    dbDeadlineBreachCount := 1
    shuttingDown := false }

end Lubko.Worker.Health
