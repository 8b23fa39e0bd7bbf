import Lubko.Supervise.Backoff
import Lubko.Worker.Health

/-!
# Retirement for absent forward progress

`_probe_readiness` of `supervisor.py` with the evidence it accumulates: what one call observes of
the worker, when it retires it, and what is left of the evidence behind it. The evidence belongs to
one incarnation, counts its conclusive probes and keeps the instant of the first; whether it is old
enough is asked at the instant of the call, not of the last probe.

The model is the sequence of the calls at nondecreasing times, each with any state file, any worker,
any health snapshots and any outcome of the probe, beside the log of all observations.

* `Backed` — what the evidence says of the log.
* `retires_iff` — when a call retires a worker for absent progress.
* `Backed.step` — every call keeps the evidence backed.
* `retirement_sustained_iff` — the observations behind a retirement span the grace period just when
  no call that observes nothing conclusive lets it run out.
-/

namespace Lubko.Supervise

open Lubko.Lib

open Recovery (Maintenance)

open Worker.Health (OperationalReadiness)

/-! ## The observations -/

/-- `QueueConsumption`. -/
inductive QueueConsumption where
  | consumed
  | notConsumed
  | indeterminate
  deriving DecidableEq

/-- A snapshot with its identity, and what `interpret_worker_health` makes of it. -/
structure HealthRead where
  pid : ℤ
  startTimeTicks : ℤ
  workerIncarnation : PyStr
  live : Bool
  reason : PyStr
  operational : OperationalReadiness

/-- `_NoProgressEvidence`. -/
structure NoProgressEvidence where
  token : PyStr
  firstObservedAt : ℚ
  consecutiveProbes : ℕ

/-- `ReadinessProbe`. -/
structure ReadinessProbe where
  ready : Bool
  reason : PyStr
  consumption : QueueConsumption

/-- `_check_worker_health`; `repr` is that of a string. -/
def checkWorkerHealth (repr : PyStr → PyStr) (child : WorkerChild) :
    Option HealthRead → Bool × PyStr
  | none => (false, PyStr.ofString "no health snapshot for incarnation " ++ child.token)
  | some snapshot =>
    if snapshot.pid ≠ child.pid then
      (false, s!"snapshot PID {snapshot.pid} != child PID {child.pid}")
    else if snapshot.startTimeTicks ≠ child.startTimeTicks then
      (false, s!"snapshot ticks {snapshot.startTimeTicks} != child {child.startTimeTicks}")
    else if snapshot.workerIncarnation ≠ child.token then
      (false, PyStr.ofString "snapshot incarnation " ++ repr snapshot.workerIncarnation ++
        PyStr.ofString " != child token " ++ repr child.token)
    else if !snapshot.live then
      (false, PyStr.ofString "worker health not live: " ++ snapshot.reason)
    else if !snapshot.operational.ready then
      (false, PyStr.ofString "worker operational not ready: " ++ snapshot.operational.reason)
    else (true, "ok")

/-- `_worker_health_proves_immediate_safety_breach`. -/
def workerHealthProvesImmediateSafetyBreach (child : WorkerChild) : Option HealthRead → Bool
  | none => false
  | some snapshot =>
    if snapshot.pid ≠ child.pid ∨ snapshot.startTimeTicks ≠ child.startTimeTicks ∨
        snapshot.workerIncarnation ≠ child.token then false
    else if !snapshot.live then false
    else snapshot.operational.leaseSafetyNegative

/-- `_check_readiness`. -/
def checkReadiness (repr : PyStr → PyStr) (child : WorkerChild) (consumption : QueueConsumption)
    (health : Option HealthRead) : ReadinessProbe :=
  match consumption with
  | .consumed =>
    let checked := checkWorkerHealth repr child health
    ⟨checked.1, checked.2, .consumed⟩
  | .notConsumed => ⟨false, "queue consumption not proven", .notConsumed⟩
  | .indeterminate =>
    ⟨false, "queue consumption indeterminate: the probe itself could not be performed",
      .indeterminate⟩

/-! ## The evidence -/

/-- `_note_progress_observation`. -/
def noteProgressObservation (child : WorkerChild) (consumption : QueueConsumption) (now : ℚ)
    (noProgress : Option NoProgressEvidence) : Option NoProgressEvidence :=
  match consumption with
  | .consumed => none
  | .indeterminate => noProgress
  | .notConsumed =>
    let current := noProgress.getD ⟨child.token, now, 0⟩
    some { current with consecutiveProbes := current.consecutiveProbes + 1 }

/-- `_no_progress_evidence_confirms`. -/
def noProgressEvidenceConfirms (s : Settings) (child : WorkerChild) (now : ℚ) :
    Option NoProgressEvidence → Bool
  | none => false
  | some evidence =>
    if evidence.token ≠ child.token then false
    else if evidence.consecutiveProbes < s.noProgressRequiredProbes then false
    else s.noProgressGraceSeconds ≤ now - evidence.firstObservedAt

/-! ## A call -/

/-- What `_probe_readiness` reads and is answered. The health snapshot is read once for the check
and once more for a breach, the state once more behind a retirement. -/
structure ProbeReads where
  state : SupervisorState
  /-- `_child_alive` -/
  childAlive : Bool
  health : Option HealthRead
  healthForBreach : Option HealthRead
  consumption : QueueConsumption
  /-- `_retire_child` -/
  converged : Bool
  stateForRetirement : SupervisorState
  /-- `_write_state_authority_safe` -/
  written : Bool

/-- Which of the two retirements is asked for. -/
inductive Cause where
  | safety
  | absentForwardProgress
  deriving DecidableEq

/-- The worker that is retired, and the message. -/
structure Retirement where
  cause : Cause
  child : WorkerChild
  message : PyStr

/-- What a call leaves: the evidence, the retirement and the publication it asks for, and the
overflow of a backoff. -/
structure ProbeResult where
  noProgress : Option NoProgressEvidence
  retirement : Option Retirement := none
  publication : Option Maintenance := none
  raised : Option PowerError := none

section Call

variable (s : Settings) (repr : PyStr → PyStr) (fixed : ℚ → PyStr)

/-- `_retire_child_for_safety`. -/
def retireChildForSafety (child : WorkerChild) (reason : PyStr) : ProbeResult where
  noProgress := none
  retirement := some ⟨.safety, child, PyStr.ofString s!"ready worker pid={child.pid} " ++
    PyStr.ofString "became operationally unsafe: " ++ reason ++
    PyStr.ofString "; retiring the exact incarnation"⟩

/-- `_retire_child_for_absent_forward_progress`; `fixed` is the format `.1f`. -/
def retireChildForAbsentForwardProgress (r : ProbeReads) (child : WorkerChild) (now : ℚ)
    (reason : PyStr) (noProgress : Option NoProgressEvidence) : ProbeResult :=
  let elapsed := noProgress.elim 0 (now - ·.firstObservedAt)
  let probes := noProgress.elim 0 (·.consecutiveProbes)
  let retirement : Retirement := ⟨.absentForwardProgress, child,
    PyStr.ofString s!"worker pid={child.pid} has shown no independently verified " ++
      PyStr.ofString "forward progress for " ++ fixed elapsed ++
      PyStr.ofString s!"s across {probes} consecutive probes (" ++ reason ++
      PyStr.ofString "); retiring the exact incarnation"⟩
  if !r.converged then { noProgress, retirement }
  else
    match recordHealthRetirement s r.stateForRetirement now with
    | .error e => { noProgress, retirement, raised := some e }
    | .ok m =>
      { noProgress := if r.written then none else noProgress, retirement, publication := some m }

/-- The result retires a worker for absent progress. -/
def ProbeResult.RetiresAbsent (result : ProbeResult) (child : WorkerChild) : Prop :=
  ∃ message, result.retirement = some ⟨.absentForwardProgress, child, message⟩

/-- `_probe_readiness`. -/
def probeReadiness (noProgress : Option NoProgressEvidence) (r : ProbeReads) (now : ℚ) :
    ProbeResult :=
  match r.state.child with
  | none => { noProgress }
  | some child =>
    if !r.childAlive then { noProgress }
    else
      let noProgress := noProgress.filter (·.token = child.token)
      if r.state.ready then
        let checked := checkWorkerHealth repr child r.health
        if checked.1 then { noProgress := none }
        else if workerHealthProvesImmediateSafetyBreach child r.healthForBreach then
          retireChildForSafety child checked.2
        else if noProgressEvidenceConfirms s child now noProgress then
          retireChildForAbsentForwardProgress s fixed r child now checked.2 noProgress
        else { noProgress, publication := some (.notReady (now + s.readinessIntervalSeconds)) }
      else if r.state.nextReadinessAt.any (now < ·) then { noProgress }
      else
        let probe := checkReadiness repr child r.consumption r.health
        let noProgress := noteProgressObservation child probe.consumption now noProgress
        if noProgressEvidenceConfirms s child now noProgress then
          retireChildForAbsentForwardProgress s fixed r child now probe.reason noProgress
        else if !probe.ready then
          { noProgress, publication := some (.notReady (now + s.readinessIntervalSeconds)) }
        else { noProgress, publication := some .provenReady }

end Call

/-! ## The log -/

/-- What is observed of a worker. -/
inductive Observed where
  /-- a probe -/
  | probe (consumption : QueueConsumption)
  /-- a health check that the worker passed -/
  | healthy
  deriving DecidableEq

/-- Progress was seen. -/
def Observed.IsProgress (o : Observed) : Prop := o = .healthy ∨ o = .probe .consumed

instance : DecidablePred Observed.IsProgress := fun o =>
  inferInstanceAs (Decidable (o = .healthy ∨ o = .probe .consumed))

/-- An entry of the log. -/
structure Observation where
  token : PyStr
  observed : Observed
  moment : ℚ
  deriving DecidableEq

/-- The instants of the conclusive probes of an incarnation that it did not consume, since its last
progress; the latest first, as in the log. -/
def absent (token : PyStr) : List Observation → List ℚ
  | [] => []
  | o :: log =>
    if o.token ≠ token then absent token log
    else if o.observed.IsProgress then []
    else if o.observed = .probe .notConsumed then o.moment :: absent token log
    else absent token log

/-- From the first to the last of them. -/
def span (instants : List ℚ) : ℚ := instants.head?.getD 0 - instants.getLast?.getD 0

/-- They are enough, and far enough apart. -/
def Sustained (s : Settings) (instants : List ℚ) : Prop :=
  s.noProgressRequiredProbes ≤ instants.length ∧ s.noProgressGraceSeconds ≤ span instants

instance (s : Settings) (instants : List ℚ) : Decidable (Sustained s instants) :=
  inferInstanceAs (Decidable (_ ∧ _))

/-- The queue is probed. -/
def Due (r : ProbeReads) (now : ℚ) : Prop :=
  r.state.ready = false ∧ r.state.nextReadinessAt.any (now < ·) = false

instance (r : ProbeReads) (now : ℚ) : Decidable (Due r now) :=
  inferInstanceAs (Decidable (_ ∧ _))

/-- What a call observes. -/
def observation (repr : PyStr → PyStr) (r : ProbeReads) (now : ℚ) : Option Observation :=
  match r.state.child with
  | none => none
  | some child =>
    if r.childAlive = false then none
    else if r.state.ready = true then
      if (checkWorkerHealth repr child r.health).1 then some ⟨child.token, .healthy, now⟩ else none
    else if Due r now then some ⟨child.token, .probe r.consumption, now⟩
    else none

/-- The daemon between two calls: its evidence, the instant of the last call and the log. -/
structure Watch where
  noProgress : Option NoProgressEvidence
  clock : ℚ
  log : List Observation

/-- A call, some time after the last one. -/
structure Call where
  reads : ProbeReads
  elapsed : ℚ
  nonneg : 0 ≤ elapsed

def started (clock : ℚ) : Watch := ⟨none, clock, []⟩

/-- The instant of a call. -/
def Watch.now (w : Watch) (c : Call) : ℚ := w.clock + c.elapsed

section Run

variable (s : Settings) (repr : PyStr → PyStr) (fixed : ℚ → PyStr)

/-- The result of a call. -/
def Watch.result (w : Watch) (c : Call) : ProbeResult :=
  probeReadiness s repr fixed w.noProgress c.reads (w.now c)

/-- A call. -/
def Watch.step (w : Watch) (c : Call) : Option Watch :=
  some ⟨(w.result s repr fixed c).noProgress, w.now c,
    (observation repr c.reads (w.now c)).toList ++ w.log⟩

/-- The worker is retired for absent progress. -/
def Watch.Retires (w : Watch) (c : Call) (child : WorkerChild) : Prop :=
  (w.result s repr fixed c).RetiresAbsent child

/-- A worker is retired for absent progress on sustained observations only. -/
def RetiresSustained (w : Watch) (c : Call) : Prop :=
  ∀ child, w.Retires s repr fixed c child → ∀ w', w.step s repr fixed c = some w' →
    Sustained s (absent child.token w'.log)

/-- The call observes nothing of a worker that could be retired. -/
def Inconclusive (child : WorkerChild) (r : ProbeReads) (now : ℚ) : Prop :=
  (r.state.ready = true ∧ (checkWorkerHealth repr child r.health).1 = false ∧
    workerHealthProvesImmediateSafetyBreach child r.healthForBreach = false) ∨
  (Due r now ∧ r.consumption = .indeterminate)

/-- The grace period runs out in a call that observes nothing: the evidence on the live worker is
complete and old enough, its probes do not span the period. -/
def RunsOut (w : Watch) (c : Call) : Prop :=
  ∃ child evidence, c.reads.state.child = some child ∧ c.reads.childAlive = true ∧
    w.noProgress = some evidence ∧ evidence.token = child.token ∧
    s.noProgressRequiredProbes ≤ evidence.consecutiveProbes ∧
    s.noProgressGraceSeconds ≤ w.now c - evidence.firstObservedAt ∧
    span (absent child.token w.log) < s.noProgressGraceSeconds ∧
    Inconclusive repr child c.reads (w.now c)

end Run

/-! ## What the evidence says of the log -/

theorem absent_skip {token : PyStr} {o : Observation} {log : List Observation}
    (h : o.token ≠ token ∨ o.observed = .probe .indeterminate) :
    absent token (o :: log) = absent token log := by
  by_cases htoken : o.token = token
  · have hobserved := h.resolve_left (not_not.2 htoken)
    simp [absent, htoken, hobserved, Observed.IsProgress]
  · rw [absent, if_pos htoken]

theorem absent_notConsumed (token : PyStr) (now : ℚ) (log : List Observation) :
    absent token (⟨token, .probe .notConsumed, now⟩ :: log) = now :: absent token log := by
  simp [absent, Observed.IsProgress]

theorem moment_of_mem_absent {token : PyStr} {x : ℚ} {log : List Observation}
    (h : x ∈ absent token log) : ∃ o ∈ log, o.moment = x := by
  induction log with
  | nil => cases h
  | cons o log ih =>
    rw [absent] at h
    split_ifs at h
    · obtain ⟨o', ho', hx⟩ := ih h
      exact ⟨o', List.mem_cons_of_mem o ho', hx⟩
    · cases h
    · rcases List.mem_cons.1 h with rfl | h
      · exact ⟨o, List.mem_cons_self, rfl⟩
      · obtain ⟨o', ho', hx⟩ := ih h
        exact ⟨o', List.mem_cons_of_mem o ho', hx⟩
    · obtain ⟨o', ho', hx⟩ := ih h
      exact ⟨o', List.mem_cons_of_mem o ho', hx⟩

/-- The evidence counts no more probes than the log holds, and is no older than the first. -/
def Backed (log : List Observation) (noProgress : Option NoProgressEvidence) : Prop :=
  ∀ evidence ∈ noProgress, evidence.consecutiveProbes ≤ (absent evidence.token log).length ∧
    ∃ first ∈ (absent evidence.token log).getLast?, first ≤ evidence.firstObservedAt

namespace Backed

variable {log : List Observation} {noProgress : Option NoProgressEvidence}

theorem nothing : Backed log none := by
  intro evidence h
  cases h

theorem filter (h : Backed log noProgress) (p : NoProgressEvidence → Bool) :
    Backed log (noProgress.filter p) := by
  intro evidence hevidence
  exact h evidence (Option.filter_eq_some_iff.1 hevidence).1

theorem skip {o : Observation} (h : Backed log noProgress)
    (ho : o.observed = .probe .indeterminate) : Backed (o :: log) noProgress := by
  intro evidence hevidence
  rw [absent_skip (.inr ho)]
  exact h evidence hevidence

/-- **A probe keeps the evidence backed**, when the log is in the past. -/
theorem note (child : WorkerChild) (consumption : QueueConsumption) {now : ℚ}
    (hpast : ∀ o ∈ log, o.moment ≤ now) (h : Backed log noProgress) :
    Backed (⟨child.token, .probe consumption, now⟩ :: log)
      (noteProgressObservation child consumption now
        (noProgress.filter (·.token = child.token))) := by
  cases consumption with
  | consumed => exact nothing
  | indeterminate => exact (h.filter _).skip rfl
  | notConsumed =>
    intro evidence hevidence
    obtain rfl := Option.some.inj hevidence
    cases hfilter : noProgress.filter (·.token = child.token) with
    | none =>
      rw [Option.getD_none, absent_notConsumed]
      refine ⟨by simp, _, List.getLast?_eq_some_getLast (List.cons_ne_nil _ _), ?_⟩
      rcases List.mem_cons.1 (List.getLast_mem (List.cons_ne_nil now (absent child.token log))) with
        hfirst | hfirst
      · exact hfirst.le
      · obtain ⟨o, ho, hmoment⟩ := moment_of_mem_absent hfirst
        exact hmoment ▸ hpast o ho
    | some current =>
      obtain ⟨hmem, htoken⟩ := Option.filter_eq_some_iff.1 hfilter
      have htoken : current.token = child.token := of_decide_eq_true htoken
      obtain ⟨hcount, first, hfirst, hle⟩ := h current hmem
      rw [htoken] at hcount hfirst
      dsimp only [Option.getD_some]
      rw [htoken, absent_notConsumed]
      refine ⟨Nat.succ_le_succ hcount, first, ?_, hle⟩
      rw [List.getLast?_cons, Option.mem_def.1 hfirst]
      rfl

end Backed

/-- The evidence is backed by the log, and the log is in the past. -/
structure Watch.Inv (w : Watch) : Prop where
  backed : Backed w.log w.noProgress
  past : ∀ o ∈ w.log, o.moment ≤ w.clock

theorem inv_started (clock : ℚ) : (started clock).Inv := by
  refine ⟨.nothing, ?_⟩
  intro o h
  cases h

/-- The log is in the past of the next call. -/
theorem Watch.Inv.past_now {w : Watch} (hw : w.Inv) (c : Call) : ∀ o ∈ w.log, o.moment ≤ w.now c :=
  fun o ho => (hw.past o ho).trans (le_add_of_nonneg_right c.nonneg)

/-! ## When a call retires the worker -/

section Retires

variable {s : Settings} {repr : PyStr → PyStr} {fixed : ℚ → PyStr}

theorem confirms_iff {child : WorkerChild} {now : ℚ} {noProgress : Option NoProgressEvidence} :
    noProgressEvidenceConfirms s child now noProgress = true ↔
      ∃ evidence, noProgress = some evidence ∧ evidence.token = child.token ∧
        s.noProgressRequiredProbes ≤ evidence.consecutiveProbes ∧
        s.noProgressGraceSeconds ≤ now - evidence.firstObservedAt := by
  cases noProgress with
  | none => simp [noProgressEvidenceConfirms]
  | some evidence =>
    by_cases htoken : evidence.token = child.token
    · by_cases hprobes : evidence.consecutiveProbes < s.noProgressRequiredProbes
      · simp [noProgressEvidenceConfirms, htoken, hprobes, not_le.2 hprobes]
      · simp [noProgressEvidenceConfirms, htoken, hprobes, not_lt.1 hprobes]
    · simp [noProgressEvidenceConfirms, htoken]

theorem confirms_filter {child : WorkerChild} {now : ℚ} {noProgress : Option NoProgressEvidence} :
    noProgressEvidenceConfirms s child now (noProgress.filter (·.token = child.token)) =
      noProgressEvidenceConfirms s child now noProgress := by
  cases noProgress with
  | none => rfl
  | some evidence =>
    by_cases htoken : evidence.token = child.token
    · simp [Option.filter, htoken]
    · simp [Option.filter, htoken, noProgressEvidenceConfirms]

theorem checkReadiness_consumption (child : WorkerChild) (consumption : QueueConsumption)
    (health : Option HealthRead) :
    (checkReadiness repr child consumption health).consumption = consumption := by
  cases consumption <;> rfl

theorem retiresAbsent_absent {r : ProbeReads} {child child' : WorkerChild} {now : ℚ}
    {reason : PyStr} {noProgress : Option NoProgressEvidence} :
    (retireChildForAbsentForwardProgress s fixed r child now reason noProgress).RetiresAbsent
      child' ↔ child = child' := by
  have hretirement : ∃ message,
      (retireChildForAbsentForwardProgress s fixed r child now reason noProgress).retirement =
        some ⟨.absentForwardProgress, child, message⟩ := by
    rw [retireChildForAbsentForwardProgress]
    cases r.converged with
    | false => exact ⟨_, rfl⟩
    | true =>
      cases recordHealthRetirement s r.stateForRetirement now with
      | error e => exact ⟨_, rfl⟩
      | ok m => exact ⟨_, rfl⟩
  obtain ⟨message, h⟩ := hretirement
  rw [ProbeResult.RetiresAbsent, h]
  simp

theorem not_retiresAbsent_safety (child child' : WorkerChild) (reason : PyStr) :
    ¬ (retireChildForSafety child reason).RetiresAbsent child' := by
  intro ⟨message, h⟩
  cases h

theorem not_retiresAbsent_of_none {result : ProbeResult} (h : result.retirement = none)
    (child : WorkerChild) : ¬ result.RetiresAbsent child := by
  intro ⟨message, hmessage⟩
  rw [h] at hmessage
  cases hmessage

/-- The retirement keeps the evidence or forgets it. -/
theorem Backed.retired {log : List Observation} {r : ProbeReads} {child : WorkerChild} {now : ℚ}
    {reason : PyStr} {noProgress : Option NoProgressEvidence} (h : Backed log noProgress) :
    Backed log (retireChildForAbsentForwardProgress s fixed r child now reason
      noProgress).noProgress := by
  rw [retireChildForAbsentForwardProgress]
  cases r.converged with
  | false => exact h
  | true =>
    cases recordHealthRetirement s r.stateForRetirement now with
    | error e => exact h
    | ok m =>
      cases r.written with
      | false => exact h
      | true => exact Backed.nothing

section Branches

variable {noProgress : Option NoProgressEvidence} {r : ProbeReads} {child : WorkerChild} {now : ℚ}

/-- Without a live worker nothing happens. -/
theorem probeReadiness_dead (hchild : r.state.child = some child) (halive : r.childAlive = false) :
    probeReadiness s repr fixed noProgress r now = { noProgress } := by
  simp [probeReadiness, hchild, halive]

/-- A worker that was ready. -/
theorem probeReadiness_ready (hchild : r.state.child = some child) (halive : r.childAlive = true)
    (hready : r.state.ready = true) : probeReadiness s repr fixed noProgress r now =
      if (checkWorkerHealth repr child r.health).1 = true then { noProgress := none }
      else if workerHealthProvesImmediateSafetyBreach child r.healthForBreach = true then
        retireChildForSafety child (checkWorkerHealth repr child r.health).2
      else if noProgressEvidenceConfirms s child now noProgress = true then
        retireChildForAbsentForwardProgress s fixed r child now
          (checkWorkerHealth repr child r.health).2 (noProgress.filter (·.token = child.token))
      else
        { noProgress := noProgress.filter (·.token = child.token)
          publication := some (.notReady (now + s.readinessIntervalSeconds)) } := by
  simp [probeReadiness, hchild, halive, hready, confirms_filter]

/-- A worker that is not probed again yet. -/
theorem probeReadiness_waiting (hchild : r.state.child = some child) (halive : r.childAlive = true)
    (hready : r.state.ready = false) (hdue : ¬ Due r now) :
    probeReadiness s repr fixed noProgress r now =
      { noProgress := noProgress.filter (·.token = child.token) } := by
  have hwait : r.state.nextReadinessAt.any (now < ·) = true := by
    by_contra h
    exact hdue ⟨hready, Bool.eq_false_iff.2 h⟩
  simp only [probeReadiness, hchild, halive, hready, hwait, Bool.not_true, if_true]
  rfl

/-- A worker that is probed. -/
theorem probeReadiness_due (hchild : r.state.child = some child) (halive : r.childAlive = true)
    (hdue : Due r now) : probeReadiness s repr fixed noProgress r now =
      if noProgressEvidenceConfirms s child now (noteProgressObservation child r.consumption now
          (noProgress.filter (·.token = child.token))) = true then
        retireChildForAbsentForwardProgress s fixed r child now
          (checkReadiness repr child r.consumption r.health).reason
          (noteProgressObservation child r.consumption now
            (noProgress.filter (·.token = child.token)))
      else
        { noProgress := noteProgressObservation child r.consumption now
            (noProgress.filter (·.token = child.token))
          publication := some (if (checkReadiness repr child r.consumption r.health).ready = true
            then .provenReady else .notReady (now + s.readinessIntervalSeconds)) } := by
  simp only [probeReadiness, hchild, halive, hdue.1, hdue.2, checkReadiness_consumption,
    Bool.not_true, Bool.false_eq_true, if_false]
  cases (checkReadiness repr child r.consumption r.health).ready with
  | false => rfl
  | true => rfl

theorem observation_unhealthy (hchild : r.state.child = some child)
    (hready : r.state.ready = true) (hhealthy : (checkWorkerHealth repr child r.health).1 = false) :
    observation repr r now = none := by
  simp [observation, hchild, hready, hhealthy]

theorem observation_due (hchild : r.state.child = some child) (halive : r.childAlive = true)
    (hdue : Due r now) :
    observation repr r now = some ⟨child.token, .probe r.consumption, now⟩ := by
  simp [observation, hchild, halive, hdue.1, hdue]

theorem moment_of_observation {o : Observation} (h : o ∈ observation repr r now) :
    o.moment = now := by
  rw [observation] at h
  split at h
  · cases h
  · split_ifs at h
    · cases h
    · cases h
      rfl
    · cases h
    · cases h
      rfl
    · cases h

theorem retires_ready {child' : WorkerChild} (hchild : r.state.child = some child)
    (halive : r.childAlive = true) (hready : r.state.ready = true) :
    (probeReadiness s repr fixed noProgress r now).RetiresAbsent child' ↔ child = child' ∧
      (checkWorkerHealth repr child r.health).1 = false ∧
      workerHealthProvesImmediateSafetyBreach child r.healthForBreach = false ∧
      noProgressEvidenceConfirms s child now noProgress = true := by
  rw [probeReadiness_ready hchild halive hready]
  split_ifs with hhealthy hbreach hconfirms
  · simp [hhealthy, not_retiresAbsent_of_none]
  · simp [hbreach, not_retiresAbsent_safety]
  · simp [hhealthy, hbreach, hconfirms, retiresAbsent_absent]
  · simp [hconfirms, not_retiresAbsent_of_none]

theorem retires_due {child' : WorkerChild} (hchild : r.state.child = some child)
    (halive : r.childAlive = true) (hdue : Due r now) :
    (probeReadiness s repr fixed noProgress r now).RetiresAbsent child' ↔ child = child' ∧
      noProgressEvidenceConfirms s child now (noteProgressObservation child r.consumption now
        (noProgress.filter (·.token = child.token))) = true := by
  rw [probeReadiness_due hchild halive hdue]
  by_cases hconfirms : noProgressEvidenceConfirms s child now (noteProgressObservation child
      r.consumption now (noProgress.filter (·.token = child.token))) = true
  · rw [if_pos hconfirms, retiresAbsent_absent, and_iff_left hconfirms]
  · rw [if_neg hconfirms]
    exact iff_of_false (not_retiresAbsent_of_none rfl _) fun h => hconfirms h.2

/-- **When a call retires a worker for absent progress**: it is alive, and the evidence confirms
after an unhealthy check that proves no breach, or with the probe of this call. -/
theorem retires_iff : (probeReadiness s repr fixed noProgress r now).RetiresAbsent child ↔
    r.state.child = some child ∧ r.childAlive = true ∧
      ((r.state.ready = true ∧ (checkWorkerHealth repr child r.health).1 = false ∧
          workerHealthProvesImmediateSafetyBreach child r.healthForBreach = false ∧
          noProgressEvidenceConfirms s child now noProgress = true) ∨
        (Due r now ∧ noProgressEvidenceConfirms s child now (noteProgressObservation child
          r.consumption now (noProgress.filter (·.token = child.token))) = true)) := by
  cases hchild : r.state.child with
  | none =>
    simp [probeReadiness, hchild, not_retiresAbsent_of_none]
  | some child' =>
    rw [Option.some.injEq]
    cases halive : r.childAlive with
    | false => simp [probeReadiness_dead hchild halive, not_retiresAbsent_of_none]
    | true =>
      cases hready : r.state.ready with
      | true =>
        have hnot : ¬ Due r now := fun h => Bool.noConfusion (hready.symm.trans h.1)
        rw [retires_ready hchild halive hready]
        constructor
        · rintro ⟨rfl, h⟩
          exact ⟨rfl, rfl, .inl ⟨rfl, h⟩⟩
        · rintro ⟨rfl, -, h⟩
          exact ⟨rfl, (h.resolve_right fun h => hnot h.1).2⟩
      | false =>
        by_cases hdue : Due r now
        · rw [retires_due hchild halive hdue]
          constructor
          · rintro ⟨rfl, h⟩
            exact ⟨rfl, rfl, .inr ⟨hdue, h⟩⟩
          · rintro ⟨rfl, -, h⟩
            exact ⟨rfl, (h.resolve_left fun h => Bool.noConfusion h.1).2⟩
        · rw [probeReadiness_waiting hchild halive hready hdue]
          simp [hdue, not_retiresAbsent_of_none]

/-- **A call keeps the evidence backed.** -/
theorem backed_probeReadiness {log : List Observation} (hpast : ∀ o ∈ log, o.moment ≤ now)
    (h : Backed log noProgress) : Backed ((observation repr r now).toList ++ log)
      (probeReadiness s repr fixed noProgress r now).noProgress := by
  cases hchild : r.state.child with
  | none => simpa [probeReadiness, observation, hchild] using h
  | some child =>
    cases halive : r.childAlive with
    | false => simpa [probeReadiness_dead hchild halive, observation, hchild, halive] using h
    | true =>
      cases hready : r.state.ready with
      | true =>
        rw [probeReadiness_ready hchild halive hready]
        split_ifs with hhealthy hbreach hconfirms
        · exact Backed.nothing
        · exact Backed.nothing
        · rw [observation_unhealthy hchild hready (Bool.eq_false_iff.2 hhealthy)]
          exact (h.filter _).retired
        · rw [observation_unhealthy hchild hready (Bool.eq_false_iff.2 hhealthy)]
          exact h.filter _
      | false =>
        by_cases hdue : Due r now
        · have hnote := Backed.note child r.consumption hpast h
          rw [probeReadiness_due hchild halive hdue, observation_due hchild halive hdue]
          by_cases hconfirms : noProgressEvidenceConfirms s child now (noteProgressObservation child
              r.consumption now (noProgress.filter (·.token = child.token))) = true
          · rw [if_pos hconfirms]
            exact hnote.retired
          · rw [if_neg hconfirms]
            exact hnote
        · rw [probeReadiness_waiting hchild halive hready hdue]
          simpa [observation, hchild, halive, hready, hdue] using h.filter _

end Branches

theorem Watch.Inv.step {w w' : Watch} {c : Call} (hw : w.Inv)
    (h : w.step s repr fixed c = some w') : w'.Inv := by
  obtain rfl := Option.some.inj h
  have hpast := hw.past_now c
  refine ⟨backed_probeReadiness hpast hw.backed, ?_⟩
  intro o ho
  rcases List.mem_append.1 ho with ho | ho
  · exact (moment_of_observation (Option.mem_toList.1 ho)).le
  · exact hpast o ho

/-- A call that observes nothing conclusive leaves the probes of its worker as they were. -/
theorem absent_of_inconclusive {r : ProbeReads} {child : WorkerChild} {now : ℚ}
    (hchild : r.state.child = some child) (halive : r.childAlive = true)
    (h : Inconclusive repr child r now) (log : List Observation) :
    absent child.token ((observation repr r now).toList ++ log) = absent child.token log := by
  rcases h with ⟨hready, hhealthy, -⟩ | ⟨hdue, hconsumption⟩
  · rw [observation_unhealthy hchild hready hhealthy]
    rfl
  · rw [observation_due hchild halive hdue, hconsumption]
    exact absent_skip (.inr rfl)

/-- Such a call retires the worker just when the evidence confirms as it is. -/
theorem retires_of_inconclusive {noProgress : Option NoProgressEvidence} {r : ProbeReads}
    {child : WorkerChild} {now : ℚ} (hchild : r.state.child = some child)
    (halive : r.childAlive = true) (h : Inconclusive repr child r now)
    (hconfirms : noProgressEvidenceConfirms s child now noProgress = true) :
    (probeReadiness s repr fixed noProgress r now).RetiresAbsent child := by
  rw [retires_iff]
  rcases h with ⟨hready, hhealthy, hbreach⟩ | ⟨hdue, hconsumption⟩
  · exact ⟨hchild, halive, .inl ⟨hready, hhealthy, hbreach, hconfirms⟩⟩
  · refine ⟨hchild, halive, .inr ⟨hdue, ?_⟩⟩
    rw [hconsumption]
    exact confirms_filter.trans hconfirms

/-- A probe that was not consumed, and with which the evidence confirms, is the last of sustained
ones. -/
theorem sustained_of_probe {log : List Observation} {noProgress : Option NoProgressEvidence}
    {child : WorkerChild} {now : ℚ} (hpast : ∀ o ∈ log, o.moment ≤ now) (h : Backed log noProgress)
    (hconfirms : noProgressEvidenceConfirms s child now (noteProgressObservation child .notConsumed
      now (noProgress.filter (·.token = child.token))) = true) :
    Sustained s (now :: absent child.token log) := by
  obtain ⟨evidence, hevidence, htoken, hprobes, hgrace⟩ := confirms_iff.1 hconfirms
  obtain ⟨hcount, first, hfirst, hle⟩ := Backed.note child .notConsumed hpast h evidence hevidence
  rw [htoken, absent_notConsumed] at hcount hfirst
  refine ⟨hprobes.trans (Int.ofNat_le.2 hcount), ?_⟩
  rw [span, Option.mem_def.1 hfirst]
  exact hgrace.trans (sub_le_sub_left hle now)

/-- **Which retirements are sustained**: those of calls that do not run the grace period out. -/
theorem retiresSustained_iff {w : Watch} (hw : w.Inv) (c : Call) :
    RetiresSustained s repr fixed w c ↔ ¬ RunsOut s repr w c := by
  have hpast := hw.past_now c
  constructor
  · rintro h ⟨child, evidence, hchild, halive, hevidence, htoken, hprobes, hgrace, hspan, hnothing⟩
    have hconfirms : noProgressEvidenceConfirms s child (w.now c) w.noProgress = true :=
      confirms_iff.2 ⟨evidence, hevidence, htoken, hprobes, hgrace⟩
    have hsustained := h child (retires_of_inconclusive hchild halive hnothing hconfirms) _ rfl
    dsimp only at hsustained
    rw [absent_of_inconclusive hchild halive hnothing] at hsustained
    exact absurd hsustained.2 (not_le.2 hspan)
  · intro hnot child hretires w' hstep
    obtain rfl := Option.some.inj hstep
    have hsame (hchild : c.reads.state.child = some child) (halive : c.reads.childAlive = true)
        (hnothing : Inconclusive repr child c.reads (w.now c))
        (hconfirms : noProgressEvidenceConfirms s child (w.now c) w.noProgress = true) :
        Sustained s
          (absent child.token ((observation repr c.reads (w.now c)).toList ++ w.log)) := by
      obtain ⟨evidence, hevidence, htoken, hprobes, hgrace⟩ := confirms_iff.1 hconfirms
      have hcount := (hw.backed evidence hevidence).1
      rw [htoken] at hcount
      rw [absent_of_inconclusive hchild halive hnothing]
      refine ⟨hprobes.trans (Int.ofNat_le.2 hcount), ?_⟩
      by_contra hspan
      exact hnot ⟨child, evidence, hchild, halive, hevidence, htoken, hprobes, hgrace,
        not_le.1 hspan, hnothing⟩
    obtain ⟨hchild, halive, hcase⟩ := retires_iff.1 hretires
    rcases hcase with ⟨hready, hhealthy, hbreach, hconfirms⟩ | ⟨hdue, hconfirms⟩
    · exact hsame hchild halive (.inl ⟨hready, hhealthy, hbreach⟩) hconfirms
    · cases hconsumption : c.reads.consumption with
      | consumed =>
        rw [hconsumption] at hconfirms
        cases hconfirms
      | indeterminate =>
        rw [hconsumption] at hconfirms
        exact hsame hchild halive (.inr ⟨hdue, hconsumption⟩) (confirms_filter.symm.trans hconfirms)
      | notConsumed =>
        rw [hconsumption] at hconfirms
        dsimp only
        rw [observation_due hchild halive hdue, hconsumption]
        exact (absent_notConsumed child.token (w.now c) w.log).symm ▸
          sustained_of_probe hpast hw.backed hconfirms

/-! ## Whole runs -/

/-- **The observations behind every retirement of a run are sustained** just when no call that
observes nothing conclusive lets the grace period run out. -/
theorem retirement_sustained_iff (s : Settings) (repr : PyStr → PyStr) (fixed : ℚ → PyStr)
    (clock : ℚ) (calls : List Call) :
    Always (Watch.step s repr fixed) (RetiresSustained s repr fixed) (started clock) calls ↔
      Always (Watch.step s repr fixed) (fun w c => ¬ RunsOut s repr w c) (started clock) calls := by
  apply always_iff_of_inv
  · intro w c (hw : w.Inv)
    exact retiresSustained_iff hw c
  · intro w c w' hw _ h
    exact hw.step h
  · exact inv_started clock

end Retires

/-! ## A probe that could not be performed -/

/-- A worker that is alive and not ready. -/
def silentWorker : WorkerChild := ⟨7, 7, 7, 1, "t", "w", 0⟩

/-- A call that probes it. -/
def silentCall (consumption : QueueConsumption) (elapsed : ℕ) : Call where
  reads :=
    { state := { freshState with mode := .run, child := some silentWorker }
      childAlive := true
      health := none
      healthForBreach := none
      consumption
      converged := true
      stateForRetirement := { freshState with mode := .run }
      written := true }
  elapsed
  nonneg := Nat.cast_nonneg elapsed

/-- Three probes within ten seconds that the worker did not consume. -/
def silentCalls : List Call := [silentCall .notConsumed 0, silentCall .notConsumed 5,
  silentCall .notConsumed 5]

/-- A probe that could not be performed, 51 seconds later, retires the worker. -/
theorem indeterminate_probe_retires :
    ¬ ∀ clock calls, Always (Watch.step {} id fun _ => []) (RetiresSustained {} id fun _ => [])
      (started clock) calls := by
  intro h
  have hlast := h 0 (silentCalls ++ [silentCall .indeterminate 51]) silentCalls
    (silentCall .indeterminate 51) (List.prefix_refl _) _ rfl silentWorker
    (retires_of_inconclusive rfl rfl (.inr ⟨by decide, rfl⟩) (by decide +kernel)) _ rfl
  revert hlast
  decide +kernel

end Lubko.Supervise
