import Lubko.Lib.Execution
import Lubko.Worker.Heartbeat

/-!
# The operation deadline over the supervisor's turns

`Supervisor._tick` first services the local processes, then polls the pending starts, and only
after that derives the deadline every database operation of the turn runs under, from the jobs
active at that point. The model takes one turn apart into the events that matter for it: which
operation is issued and under which deadline, which jobs become active with which heartbeat, and
what moves a heartbeat. Time may pass between any two events, processes may exit and stops may
be requested at any of them, and the database decides nothing but which event comes next.

A turn runs through `Phase`: `services` (`_service_processes` and the capture work), `poll`
(`_poll_pending_starts`), then `database` (`_db_phase`), or `outage` and `verifying`
(`_outage_phase`, `_connect`) when there is no connection. An error that leaves `_tick` discards
the connection and enforces lease safety (`escape`).

Main result: `deadlineSafe_iff_coveredByDeadline`. The deadline is derived from every running job
except those it cannot know: the jobs activated earlier in the same poll, which still runs under
the deadline of the turn before, and, while a reconnection verifies the table, all of them. The
operations of a run are all safe exactly when these jobs happen to allow the deadline too. A run
ends where the supervisor stops: nothing of `_tick` follows a stop.
-/

namespace Lubko.Worker

open Lubko.Lib

inductive Phase where
  /-- Between two turns. -/
  | idle
  /-- Local work, before `_poll_pending_starts`. -/
  | services (now : ℚ)
  /-- `_poll_pending_starts`: the attempts still to look at, the one being handled, and the jobs
  activated so far in this poll. -/
  | poll (now : ℚ) (todo : List Uuid) (current : Option StartAttempt) (fresh : List Uuid)
  /-- `_outage_phase`. -/
  | outage
  /-- `_connect` on an open connection, whose deadline is not the turn's. -/
  | verifying (deadline : ℚ)
  /-- `_db_phase`, with the origins captured for a refresh and for a claim under way. -/
  | database (now : ℚ) (refreshMono claimMono : Option ℚ)

/-- The part of the supervisor a turn reads and moves. -/
structure Supervisor where
  settings : Settings
  /-- `time.monotonic()`. -/
  clock : ℚ
  /-- The `operation_deadline` of the connection, when there is one. -/
  conn : Option ℚ
  active : List ActiveJob
  pendingStarts : List StartAttempt
  phase : Phase

inductive Event where
  | advance (dt : ℚ)
  /-- `proc.poll()` finds the process of a job gone. -/
  | exit (id : Uuid)
  | stop (id : Uuid) (reason : StopReason)
  | beginTick
  | beginPoll
  /-- The next attempt is done, or it is late and `done` is false: handle it. -/
  | take (done : Bool)
  /-- The next attempt is neither. -/
  | leave
  /-- A database operation issued while an attempt is handled. -/
  | pollOperation
  /-- `_activate_gated_job` returned `job`. -/
  | activate (job : ActiveJob)
  /-- The attempt was handled without a job becoming active. -/
  | giveUp
  | endPoll
  | reconnect
  | connected
  | connectFailed
  /-- A database operation of `_db_phase` or of the verification. -/
  | operation
  | beginRefresh
  /-- The refresh committed and returned these rows. -/
  | endRefresh (refreshed : List Uuid)
  | beginClaim
  /-- The claim committed; these jobs were handed to the spawn pool. -/
  | endClaim (claimed : List Uuid)
  /-- A finalized or lost job leaves the registry. -/
  | untrack (id : Uuid)
  | endTick
  /-- A deadline breach or a connectivity error leaves `_tick`. -/
  | escape

namespace Supervisor

/-- Change the jobs with this identifier. -/
def modifyJob (s : Supervisor) (id : Uuid) (f : ActiveJob → ActiveJob) : Supervisor :=
  { s with active := s.active.map fun job => if job.id = id then f job else job }

/-- `_enforce_lease_safety`. -/
def enforce (s : Supervisor) : Supervisor :=
  { s with active := s.active.map (enforceLeaseSafety s.settings s.clock) }

/-- The end of the poll: without a connection the turn is an outage turn; with one, lease safety
is enforced and the deadline of the turn installed. -/
def leavePoll (s : Supervisor) (now : ℚ) : Supervisor :=
  match s.conn with
  | none => { s.enforce with phase := .outage }
  | some _ => { s.enforce with
      conn := some (operationDeadline s.settings s.enforce.active now)
      phase := .database now none none }

def step (s : Supervisor) : Event → Option Supervisor
  | .advance dt => if 0 ≤ dt then some { s with clock := s.clock + dt } else none
  | .exit id => some (s.modifyJob id fun job => { job with completed := true })
  | .stop id reason => some (s.modifyJob id (requestStop s.clock reason))
  | .beginTick =>
    match s.phase with
    | .idle => some { s with phase := .services s.clock }
    | _ => none
  | .beginPoll =>
    match s.phase with
    | .services now =>
      some { s with phase := .poll now (s.pendingStarts.map (·.jobId)) none [] }
    | _ => none
  | .take done =>
    match s.phase with
    | .poll now (id :: todo) none fresh => do
      let attempt ← s.pendingStarts.find? (·.jobId = id)
      if done || s.settings.spawnDeadlineSeconds ≤ now - attempt.submittedAt then
        some { s with
          pendingStarts := s.pendingStarts.filter (·.jobId ≠ id)
          phase := .poll now todo (some attempt) fresh }
      else none
    | _ => none
  | .leave =>
    match s.phase with
    | .poll now (id :: todo) none fresh => do
      let attempt ← s.pendingStarts.find? (·.jobId = id)
      if now - attempt.submittedAt < s.settings.spawnDeadlineSeconds then
        some { s with phase := .poll now todo none fresh }
      else none
    | _ => none
  | .pollOperation =>
    match s.phase, s.conn with
    | .poll _ _ (some _) _, some _ => some s
    | _, _ => none
  | .activate job =>
    match s.phase, s.conn with
    | .poll now todo (some attempt) fresh, some _ =>
      if job.id = attempt.jobId then
        some { s with
          active := s.active.filter (·.id ≠ job.id) ++
            [{ job with lastHeartbeatAt := attempt.claimMono }]
          phase := .poll now todo none (job.id :: fresh) }
      else none
    | _, _ => none
  | .giveUp =>
    match s.phase with
    | .poll now todo (some _) fresh => some { s with phase := .poll now todo none fresh }
    | _ => none
  | .endPoll =>
    match s.phase with
    | .poll now [] none _ => some (s.leavePoll now)
    | _ => none
  | .reconnect =>
    match s.phase with
    | .outage =>
      some { s with phase := .verifying (s.clock + s.settings.dbOperationTimeoutSeconds) }
    | _ => none
  | .connected =>
    match s.phase with
    | .verifying deadline => some { s with conn := some deadline, phase := .idle }
    | _ => none
  | .connectFailed =>
    match s.phase with
    | .outage => some { s with phase := .idle }
    | _ => none
  | .operation =>
    match s.phase with
    | .database _ _ _ => some s
    | .verifying _ => some s
    | _ => none
  | .beginRefresh =>
    match s.phase with
    | .database now _ claim => some { s with phase := .database now (some s.clock) claim }
    | _ => none
  | .endRefresh refreshed =>
    match s.phase with
    | .database now (some mono) claim =>
      some { s with
        active := s.active.map (applyLeaseRefresh refreshed mono s.clock)
        phase := .database now none claim }
    | _ => none
  | .beginClaim =>
    match s.phase with
    | .database now refresh _ => some { s with phase := .database now refresh (some s.clock) }
    | _ => none
  | .endClaim claimed =>
    match s.phase with
    | .database now refresh (some mono) =>
      some { s with
        pendingStarts := s.pendingStarts ++ claimed.map fun id => ⟨id, mono, s.clock⟩
        phase := .database now refresh none }
    | _ => none
  | .untrack id => some { s with active := s.active.filter (·.id ≠ id) }
  | .endTick =>
    match s.phase with
    | .database _ _ _ => some { s with phase := .idle }
    | .outage => some { s with phase := .idle }
    | _ => none
  | .escape => some { s.enforce with conn := none, phase := .idle }

/-! ## Operations and their deadline -/

/-- The deadline in force on the connection when this event issues a database operation. -/
def issuedDeadline (s : Supervisor) : Event → Option ℚ
  | .pollOperation =>
    match s.phase with
    | .poll _ _ (some _) _ => s.conn
    | _ => none
  | .reconnect =>
    match s.phase with
    | .outage => some (s.clock + s.settings.dbOperationTimeoutSeconds)
    | _ => none
  | .operation =>
    match s.phase with
    | .database _ _ _ => s.conn
    | .verifying deadline => some deadline
    | _ => none
  | .beginRefresh =>
    match s.phase with
    | .database _ _ _ => s.conn
    | _ => none
  | .beginClaim =>
    match s.phase with
    | .database _ _ _ => s.conn
    | _ => none
  | _ => none

/-- If this event issues a database operation, its deadline is no later than the lease-safety
instant of any running job. -/
def DeadlineSafe (s : Supervisor) (e : Event) : Prop :=
  ∀ d ∈ s.issuedDeadline e, ∀ job ∈ s.active, job.running = true →
    d ≤ unsafeAt s.settings job.lastHeartbeatAt

instance (s : Supervisor) (e : Event) : Decidable (s.DeadlineSafe e) :=
  inferInstanceAs (Decidable (∀ d ∈ s.issuedDeadline e, ∀ job ∈ s.active, _ → _))

/-- The jobs the deadline in force was not derived from allow it too. While a start is handled,
these are the jobs activated earlier in the same poll; when a reconnection gives its verification
the full operation timeout, every running job. -/
def CoveredByDeadline (s : Supervisor) : Event → Prop
  | .pollOperation =>
    match s.phase, s.conn with
    | .poll _ _ (some _) fresh, some carried => ∀ job ∈ s.active, job.running = true →
        job.id ∈ fresh → carried ≤ unsafeAt s.settings job.lastHeartbeatAt
    | _, _ => True
  | .reconnect =>
    match s.phase with
    | .outage => ∀ job ∈ s.active, job.running = true →
        s.clock + s.settings.dbOperationTimeoutSeconds ≤ unsafeAt s.settings job.lastHeartbeatAt
    | _ => True
  | _ => True

end Supervisor

/-! ## What the deadline in force bounds -/

/-- The deadline `d` allows every running job except those in `fresh`. -/
def Allows (settings : Settings) (d : ℚ) (fresh : List Uuid) (jobs : List ActiveJob) : Prop :=
  ∀ job ∈ jobs, job.running = true → job.id ∉ fresh → d ≤ unsafeAt settings job.lastHeartbeatAt

/-- The instant is one the monotonic clock has already shown. -/
def Past (clock t : ℚ) : Prop := 0 < t ∧ t ≤ clock

theorem Past.advance {clock t dt : ℚ} (h : Past clock t) (hdt : 0 ≤ dt) : Past (clock + dt) t :=
  ⟨h.1, by linarith [h.2]⟩

/-- A change to a job that keeps its identity, starts nothing, and moves its heartbeat only
forward to an instant already past. -/
structure Steady (clock : ℚ) (f : ActiveJob → ActiveJob) (job : ActiveJob) : Prop where
  id_eq : (f job).id = job.id
  running : (f job).running = true → job.running = true
  le : job.lastHeartbeatAt ≤ (f job).lastHeartbeatAt
  past : Past clock job.lastHeartbeatAt → Past clock (f job).lastHeartbeatAt

theorem Steady.of_lastHeartbeatAt {clock : ℚ} {f : ActiveJob → ActiveJob} {job : ActiveJob}
    (hid : (f job).id = job.id) (hrun : (f job).running = true → job.running = true)
    (hlhb : (f job).lastHeartbeatAt = job.lastHeartbeatAt) : Steady clock f job :=
  ⟨hid, hrun, hlhb.ge, fun h => hlhb ▸ h⟩

theorem Allows.map {settings : Settings} {d clock : ℚ} {fresh : List Uuid}
    {jobs : List ActiveJob} {f : ActiveJob → ActiveJob} (h : Allows settings d fresh jobs)
    (hf : ∀ job ∈ jobs, Steady clock f job) : Allows settings d fresh (jobs.map f) := by
  intro job hjob hrun hfresh
  obtain ⟨job', hmem, rfl⟩ := List.mem_map.1 hjob
  have hs := hf job' hmem
  exact (h job' hmem (hs.running hrun) (hs.id_eq ▸ hfresh)).trans (unsafeAt_mono hs.le)

theorem Allows.subset {settings : Settings} {d : ℚ} {fresh : List Uuid}
    {jobs jobs' : List ActiveJob} (h : Allows settings d fresh jobs) (hsub : jobs' ⊆ jobs) :
    Allows settings d fresh jobs' := fun job hjob => h job (hsub hjob)

namespace Supervisor

/-- The jobs activated in the poll under way. -/
def fresh (s : Supervisor) : List Uuid :=
  match s.phase with
  | .poll _ _ _ fresh => fresh
  | _ => []

/-- What the phase remembers is on the clock. -/
def PhaseInv (clock : ℚ) (active : List ActiveJob) : Phase → Prop
  | .poll _ _ (some attempt) _ => Past clock attempt.claimMono
  | .database _ refresh claim =>
    (∀ m ∈ refresh, Past clock m ∧ ∀ job ∈ active, job.lastHeartbeatAt ≤ m) ∧
      ∀ m ∈ claim, Past clock m
  | _ => True

theorem PhaseInv.of_active {clock : ℚ} {active active' : List ActiveJob} {phase : Phase}
    (h : PhaseInv clock active phase)
    (hle : ∀ job ∈ active', ∃ job' ∈ active, job.lastHeartbeatAt ≤ job'.lastHeartbeatAt) :
    PhaseInv clock active' phase := by
  cases phase with
  | database now refresh claim =>
    refine ⟨fun m hm => ⟨(h.1 m hm).1, fun job hjob => ?_⟩, h.2⟩
    obtain ⟨job', hmem, hj⟩ := hle job hjob
    exact hj.trans ((h.1 m hm).2 job' hmem)
  | poll now todo current fresh => cases current <;> exact h
  | _ => trivial

theorem PhaseInv.advance {clock dt : ℚ} {active : List ActiveJob} {phase : Phase}
    (h : PhaseInv clock active phase) (hdt : 0 ≤ dt) : PhaseInv (clock + dt) active phase := by
  cases phase with
  | database now refresh claim =>
    exact ⟨fun m hm => ⟨(h.1 m hm).1.advance hdt, (h.1 m hm).2⟩,
      fun m hm => (h.2 m hm).advance hdt⟩
  | poll now todo current fresh =>
    cases current with
    | none => trivial
    | some attempt => exact Past.advance h hdt
  | _ => trivial

/-- The deadline in force allows every running job it was derived from, and every heartbeat is
an instant the clock has shown. -/
structure Inv (s : Supervisor) : Prop where
  clock_pos : 0 < s.clock
  heartbeats : ∀ job ∈ s.active, Past s.clock job.lastHeartbeatAt
  attempts : ∀ a ∈ s.pendingStarts, Past s.clock a.claimMono
  phase : PhaseInv s.clock s.active s.phase
  installed : ∀ d ∈ s.conn, Allows s.settings d s.fresh s.active
  verifying : ∀ d, s.phase = .verifying d → Allows s.settings d [] s.active

/-- Under the invariant the deadline of a turn is no later than any lease-safety instant. -/
theorem Inv.database {s : Supervisor} (hs : s.Inv) {now : ℚ} {refresh claim : Option ℚ}
    (hph : s.phase = .database now refresh claim) {d : ℚ} (hd : d ∈ s.conn) {job : ActiveJob}
    (hjob : job ∈ s.active) (hrun : job.running = true) :
    d ≤ unsafeAt s.settings job.lastHeartbeatAt :=
  hs.installed d hd job hjob hrun (by simp [fresh, hph])

/-- **Exactness at one event.** -/
theorem deadlineSafe_iff {s : Supervisor} (hs : s.Inv) (e : Event) :
    s.DeadlineSafe e ↔ s.CoveredByDeadline e := by
  cases e with
  | reconnect =>
    cases hph : s.phase with
    | outage => simp [DeadlineSafe, CoveredByDeadline, issuedDeadline, hph]
    | _ => simp [DeadlineSafe, CoveredByDeadline, issuedDeadline, hph]
  | pollOperation =>
    cases hph : s.phase with
    | poll now todo current fr =>
      cases current with
      | none => simp [DeadlineSafe, CoveredByDeadline, issuedDeadline, hph]
      | some attempt =>
        cases hc : s.conn with
        | none => simp [DeadlineSafe, CoveredByDeadline, issuedDeadline, hph, hc]
        | some d =>
          simp only [DeadlineSafe, CoveredByDeadline, issuedDeadline, hph, hc, Option.mem_def,
            Option.some.injEq, forall_eq']
          refine forall₃_congr fun job hjob hrun => ⟨fun h _ => h, fun h => ?_⟩
          -- a job that is not fresh was active when the deadline was installed
          by_cases hfr : job.id ∈ fr
          · exact h hfr
          · exact hs.installed d hc job hjob hrun (by simpa [fresh, hph] using hfr)
    | _ => simp [DeadlineSafe, CoveredByDeadline, issuedDeadline, hph]
  | operation =>
    refine iff_of_true (fun d hd job hjob hrun => ?_) trivial
    cases hph : s.phase with
    | database n r c => exact hs.database hph (by simpa [issuedDeadline, hph] using hd) hjob hrun
    | verifying dv =>
      obtain rfl : dv = d := by simpa [issuedDeadline, hph] using hd
      exact hs.verifying dv hph job hjob hrun (by simp)
    | _ => simp [issuedDeadline, hph] at hd
  | beginRefresh =>
    refine iff_of_true (fun d hd job hjob hrun => ?_) trivial
    cases hph : s.phase with
    | database n r c => exact hs.database hph (by simpa [issuedDeadline, hph] using hd) hjob hrun
    | _ => simp [issuedDeadline, hph] at hd
  | beginClaim =>
    refine iff_of_true (fun d hd job hjob hrun => ?_) trivial
    cases hph : s.phase with
    | database n r c => exact hs.database hph (by simpa [issuedDeadline, hph] using hd) hjob hrun
    | _ => simp [issuedDeadline, hph] at hd
  | _ => exact iff_of_true (fun d hd => by simp [issuedDeadline] at hd) trivial

/-! ## Every event keeps the invariant -/

/-- A change of jobs that leaves heartbeats alone and starts nothing. -/
theorem Inv.mapActive {s : Supervisor} (hs : s.Inv) {f : ActiveJob → ActiveJob}
    (hid : ∀ job, (f job).id = job.id)
    (hrun : ∀ job, (f job).running = true → job.running = true)
    (hlhb : ∀ job, (f job).lastHeartbeatAt = job.lastHeartbeatAt) :
    ({ s with active := s.active.map f } : Supervisor).Inv := by
  have hsteady : ∀ job ∈ s.active, Steady s.clock f job :=
    fun job _ => .of_lastHeartbeatAt (hid job) (hrun job) (hlhb job)
  refine ⟨hs.clock_pos, ?_, hs.attempts, ?_, fun d hd => (hs.installed d hd).map hsteady,
    fun d hd => (hs.verifying d hd).map hsteady⟩
  · intro job hjob
    obtain ⟨job', hmem, rfl⟩ := List.mem_map.1 hjob
    exact (hsteady job' hmem).past (hs.heartbeats job' hmem)
  · refine hs.phase.of_active fun job hjob => ?_
    obtain ⟨job', hmem, rfl⟩ := List.mem_map.1 hjob
    exact ⟨job', hmem, (hlhb job').le⟩

theorem Inv.modifyJob {s : Supervisor} (hs : s.Inv) (id : Uuid) {f : ActiveJob → ActiveJob}
    (hid : ∀ job, (f job).id = job.id)
    (hrun : ∀ job, (f job).running = true → job.running = true)
    (hlhb : ∀ job, (f job).lastHeartbeatAt = job.lastHeartbeatAt) :
    (s.modifyJob id f).Inv := by
  refine hs.mapActive (fun job => ?_) (fun job => ?_) (fun job => ?_)
  · split_ifs
    exacts [hid job, rfl]
  · split_ifs
    exacts [hrun job, fun h => h]
  · split_ifs
    exacts [hlhb job, rfl]

theorem Inv.enforce {s : Supervisor} (hs : s.Inv) : s.enforce.Inv :=
  hs.mapActive (enforceLeaseSafety_id _ _) (fun _ => running_of_enforceLeaseSafety)
    (enforceLeaseSafety_lastHeartbeatAt _ _)

/-- Dropping jobs keeps the invariant. -/
theorem Inv.filterActive {s : Supervisor} (hs : s.Inv) (p : ActiveJob → Bool) :
    ({ s with active := s.active.filter p } : Supervisor).Inv := by
  have hsub : s.active.filter p ⊆ s.active := List.filter_subset_self _
  exact ⟨hs.clock_pos, fun job hjob => hs.heartbeats job (hsub hjob), hs.attempts,
    hs.phase.of_active fun job hjob => ⟨job, hsub hjob, le_rfl⟩,
    fun d hd => (hs.installed d hd).subset hsub, fun d hd => (hs.verifying d hd).subset hsub⟩

/-- A change of phase, other than to a verification, that keeps the fresh jobs. -/
theorem Inv.toPhase {s : Supervisor} (hs : s.Inv) {phase : Phase}
    (hinv : PhaseInv s.clock s.active phase)
    (hfresh : ({ s with phase } : Supervisor).fresh = s.fresh)
    (hver : ∀ d, phase ≠ .verifying d) : ({ s with phase } : Supervisor).Inv :=
  ⟨hs.clock_pos, hs.heartbeats, hs.attempts, hinv,
    fun d hd => by rw [hfresh]; exact hs.installed d hd, fun d hd => absurd hd (hver d)⟩

/-- The deadline of the turn is derived from all active jobs, those of the poll included. -/
theorem Inv.leavePoll {s : Supervisor} (hs : s.Inv) (now : ℚ) : (s.leavePoll now).Inv := by
  have he := hs.enforce
  cases hc : s.conn with
  | none =>
    simp only [Supervisor.leavePoll, hc]
    exact ⟨he.clock_pos, he.heartbeats, he.attempts, trivial,
      fun d hd => by simp [Supervisor.enforce, hc] at hd, by simp⟩
  | some d =>
    simp only [Supervisor.leavePoll, hc]
    refine ⟨he.clock_pos, he.heartbeats, he.attempts, ⟨by simp, by simp⟩, ?_, by simp⟩
    rintro d' hd' job hjob hrun -
    obtain rfl : operationDeadline s.settings s.enforce.active now = d' := by simpa using hd'
    exact operationDeadline_le now hjob hrun (he.heartbeats job hjob).1

/-- The committed refresh moves heartbeats only to the instant before it was issued. -/
theorem Inv.endRefresh {s : Supervisor} (hs : s.Inv) {now mono : ℚ} {claim : Option ℚ}
    (hph : s.phase = .database now (some mono) claim) (refreshed : List Uuid) :
    ({ s with
      active := s.active.map (applyLeaseRefresh refreshed mono s.clock)
      phase := .database now none claim } : Supervisor).Inv := by
  have hphase : PhaseInv s.clock s.active (.database now (some mono) claim) := hph ▸ hs.phase
  obtain ⟨hmono, hbefore⟩ := hphase.1 mono rfl
  have hsteady : ∀ job ∈ s.active,
      Steady s.clock (applyLeaseRefresh refreshed mono s.clock) job := by
    intro job hjob
    rcases applyLeaseRefresh_lastHeartbeatAt refreshed mono s.clock job with h | ⟨-, h⟩
    · exact .of_lastHeartbeatAt (by simp) running_of_applyLeaseRefresh h
    · exact ⟨by simp, running_of_applyLeaseRefresh, (hbefore job hjob).trans_eq h.symm,
        fun _ => by rwa [h]⟩
  refine ⟨hs.clock_pos, ?_, hs.attempts, ⟨by simp, hphase.2⟩, fun d hd => ?_, by simp⟩
  · intro job hjob
    obtain ⟨job', hmem, rfl⟩ := List.mem_map.1 hjob
    exact (hsteady job' hmem).past (hs.heartbeats job' hmem)
  · have hold := (hs.installed d hd).map hsteady
    simpa [fresh, hph] using hold

/-- An activated job is fresh until the poll ends: nothing is claimed about its deadline. -/
theorem Inv.activate {s : Supervisor} (hs : s.Inv) {now : ℚ} {todo fr : List Uuid}
    {attempt : StartAttempt} (hph : s.phase = .poll now todo (some attempt) fr)
    (job : ActiveJob) :
    ({ s with
      active := s.active.filter (·.id ≠ job.id) ++
        [{ job with lastHeartbeatAt := attempt.claimMono }]
      phase := .poll now todo none (job.id :: fr) } : Supervisor).Inv := by
  have hpast : Past s.clock attempt.claimMono := by
    have h := hs.phase
    rwa [hph] at h
  refine ⟨hs.clock_pos, fun j hj => ?_, hs.attempts, trivial, fun d hd j hj hrun hfresh => ?_,
    by simp⟩
  · rcases List.mem_append.1 hj with hold | hnew
    · exact hs.heartbeats j (List.mem_of_mem_filter hold)
    · obtain rfl := List.mem_singleton.1 hnew
      exact hpast
  · obtain ⟨hne, hfr⟩ : j.id ≠ job.id ∧ j.id ∉ fr := by simpa [fresh] using hfresh
    rcases List.mem_append.1 hj with hold | hnew
    · exact hs.installed d hd j (List.mem_of_mem_filter hold) hrun (by simpa [fresh, hph] using hfr)
    · obtain rfl := List.mem_singleton.1 hnew
      exact absurd rfl hne

/-- **Every event keeps the invariant**, provided the operation it issues, if any, is safe: a
reconnection turns the deadline it verifies under into the deadline of the connection. -/
theorem Inv.step {s s' : Supervisor} {e : Event} (hs : s.Inv) (hsafe : s.DeadlineSafe e)
    (h : s.step e = some s') : s'.Inv := by
  cases e with
  | advance dt =>
    obtain ⟨hdt, rfl⟩ : 0 ≤ dt ∧ { s with clock := s.clock + dt } = s' := by
      simpa [Supervisor.step] using h
    exact ⟨by simpa using add_pos_of_pos_of_nonneg hs.clock_pos hdt,
      fun job hjob => (hs.heartbeats job hjob).advance hdt,
      fun a ha => (hs.attempts a ha).advance hdt, hs.phase.advance hdt, hs.installed,
      hs.verifying⟩
  | exit id =>
    obtain rfl := Option.some.inj h
    exact hs.modifyJob id (fun _ => rfl) (fun job => by simp [ActiveJob.running]) fun _ => rfl
  | stop id reason =>
    obtain rfl := Option.some.inj h
    exact hs.modifyJob id (by simp) (by simp) (by simp)
  | untrack id =>
    obtain rfl := Option.some.inj h
    exact hs.filterActive _
  | escape =>
    obtain rfl := Option.some.inj h
    have he := hs.enforce
    exact ⟨he.clock_pos, he.heartbeats, he.attempts, trivial, by simp, by simp⟩
  | beginTick =>
    cases hph : s.phase with
    | idle =>
      obtain rfl : { s with phase := .services s.clock } = s' := by
        simpa [Supervisor.step, hph] using h
      exact hs.toPhase trivial (by simp [fresh, hph]) (by simp)
    | _ => simp [Supervisor.step, hph] at h
  | beginPoll =>
    cases hph : s.phase with
    | services now =>
      obtain rfl : { s with phase := .poll now (s.pendingStarts.map (·.jobId)) none [] } = s' := by
        simpa [Supervisor.step, hph] using h
      exact hs.toPhase trivial (by simp [fresh, hph]) (by simp)
    | _ => simp [Supervisor.step, hph] at h
  | take done =>
    cases hph : s.phase with
    | poll now todo current fr =>
      rcases todo with _ | ⟨id, todo⟩ <;> rcases current with _ | current <;>
        simp only [Supervisor.step, hph, reduceCtorEq] at h
      obtain ⟨attempt, hfind, hif⟩ := Option.bind_eq_some_iff.1 h
      split_ifs at hif with hdone
      obtain rfl := Option.some.inj hif
      have hattempt := hs.attempts attempt (List.mem_of_find?_eq_some hfind)
      exact ⟨hs.clock_pos, hs.heartbeats, fun a ha => hs.attempts a (List.mem_of_mem_filter ha),
        hattempt, fun d hd => by simpa [fresh, hph] using hs.installed d hd, by simp⟩
    | _ => simp [Supervisor.step, hph] at h
  | leave =>
    cases hph : s.phase with
    | poll now todo current fr =>
      rcases todo with _ | ⟨id, todo⟩ <;> rcases current with _ | current <;>
        simp only [Supervisor.step, hph, reduceCtorEq] at h
      obtain ⟨attempt, hfind, hif⟩ := Option.bind_eq_some_iff.1 h
      split_ifs at hif with hlate
      obtain rfl := Option.some.inj hif
      exact hs.toPhase trivial (by simp [fresh, hph]) (by simp)
    | _ => simp [Supervisor.step, hph] at h
  | pollOperation =>
    cases hph : s.phase with
    | poll now todo current fr =>
      cases current with
      | none => simp [Supervisor.step, hph] at h
      | some attempt =>
        cases hc : s.conn with
        | none => simp [Supervisor.step, hph, hc] at h
        | some d =>
          obtain rfl : s = s' := by simpa [Supervisor.step, hph, hc] using h
          exact hs
    | _ => simp [Supervisor.step, hph] at h
  | activate job =>
    cases hph : s.phase with
    | poll now todo current fr =>
      cases current with
      | none => simp [Supervisor.step, hph] at h
      | some attempt =>
        cases hc : s.conn with
        | none => simp [Supervisor.step, hph, hc] at h
        | some d =>
          simp only [Supervisor.step, hph, hc] at h
          split_ifs at h with hid
          obtain rfl := Option.some.inj h
          exact hc ▸ hs.activate hph job
    | _ => simp [Supervisor.step, hph] at h
  | giveUp =>
    cases hph : s.phase with
    | poll now todo current fr =>
      cases current with
      | none => simp [Supervisor.step, hph] at h
      | some attempt =>
        obtain rfl : { s with phase := .poll now todo none fr } = s' := by
          simpa [Supervisor.step, hph] using h
        exact hs.toPhase trivial (by simp [fresh, hph]) (by simp)
    | _ => simp [Supervisor.step, hph] at h
  | endPoll =>
    cases hph : s.phase with
    | poll now todo current fr =>
      rcases todo with _ | ⟨id, todo⟩ <;> rcases current with _ | current <;>
        simp only [Supervisor.step, hph, reduceCtorEq, Option.some.injEq] at h
      exact h ▸ hs.leavePoll now
    | _ => simp [Supervisor.step, hph] at h
  | reconnect =>
    cases hph : s.phase with
    | outage =>
      simp only [Supervisor.step, hph, Option.some.injEq] at h
      subst h
      refine ⟨hs.clock_pos, hs.heartbeats, hs.attempts, trivial,
        fun d hd => by simpa [fresh, hph] using hs.installed d hd, fun d hd job hjob hrun _ => ?_⟩
      have hissued : d ∈ s.issuedDeadline .reconnect := by
        simpa [issuedDeadline, hph] using hd
      exact hsafe d hissued job hjob hrun
    | _ => simp [Supervisor.step, hph] at h
  | connected =>
    cases hph : s.phase with
    | verifying deadline =>
      obtain rfl : { s with conn := some deadline, phase := .idle } = s' := by
        simpa [Supervisor.step, hph] using h
      refine ⟨hs.clock_pos, hs.heartbeats, hs.attempts, trivial, fun d hd => ?_, by simp⟩
      obtain rfl : deadline = d := by simpa using hd
      exact hs.verifying deadline hph
    | _ => simp [Supervisor.step, hph] at h
  | connectFailed =>
    cases hph : s.phase with
    | outage =>
      obtain rfl : { s with phase := .idle } = s' := by simpa [Supervisor.step, hph] using h
      exact hs.toPhase trivial (by simp [fresh, hph]) (by simp)
    | _ => simp [Supervisor.step, hph] at h
  | operation =>
    cases hph : s.phase with
    | database now refresh claim =>
      obtain rfl : s = s' := by simpa [Supervisor.step, hph] using h
      exact hs
    | verifying deadline =>
      obtain rfl : s = s' := by simpa [Supervisor.step, hph] using h
      exact hs
    | _ => simp [Supervisor.step, hph] at h
  | beginRefresh =>
    cases hph : s.phase with
    | database now refresh claim =>
      obtain rfl : { s with phase := .database now (some s.clock) claim } = s' := by
        simpa [Supervisor.step, hph] using h
      have hphase : PhaseInv s.clock s.active (.database now refresh claim) := hph ▸ hs.phase
      refine hs.toPhase ⟨fun m hm => ?_, hphase.2⟩ (by simp [fresh, hph]) (by simp)
      obtain rfl : s.clock = m := by simpa using hm
      exact ⟨⟨hs.clock_pos, le_rfl⟩, fun job hjob => (hs.heartbeats job hjob).2⟩
    | _ => simp [Supervisor.step, hph] at h
  | endRefresh refreshed =>
    cases hph : s.phase with
    | database now refresh claim =>
      cases refresh with
      | none => simp [Supervisor.step, hph] at h
      | some mono =>
        simp only [Supervisor.step, hph] at h
        exact Option.some.inj h ▸ hs.endRefresh hph refreshed
    | _ => simp [Supervisor.step, hph] at h
  | beginClaim =>
    cases hph : s.phase with
    | database now refresh claim =>
      obtain rfl : { s with phase := .database now refresh (some s.clock) } = s' := by
        simpa [Supervisor.step, hph] using h
      have hphase : PhaseInv s.clock s.active (.database now refresh claim) := hph ▸ hs.phase
      refine hs.toPhase ⟨hphase.1, fun m hm => ?_⟩ (by simp [fresh, hph]) (by simp)
      obtain rfl : s.clock = m := by simpa using hm
      exact ⟨hs.clock_pos, le_rfl⟩
    | _ => simp [Supervisor.step, hph] at h
  | endClaim claimed =>
    cases hph : s.phase with
    | database now refresh claim =>
      cases claim with
      | none => simp [Supervisor.step, hph] at h
      | some mono =>
        simp only [Supervisor.step, hph, Option.some.injEq] at h
        subst h
        have hphase : PhaseInv s.clock s.active (.database now refresh (some mono)) :=
          hph ▸ hs.phase
        refine ⟨hs.clock_pos, hs.heartbeats, fun a ha => ?_, ⟨hphase.1, by simp⟩,
          fun d hd => by simpa [fresh, hph] using hs.installed d hd, by simp⟩
        rcases List.mem_append.1 ha with hold | hnew
        · exact hs.attempts a hold
        · obtain ⟨id, -, rfl⟩ := List.mem_map.1 hnew
          exact hphase.2 mono rfl
    | _ => simp [Supervisor.step, hph] at h
  | endTick =>
    cases hph : s.phase with
    | database now refresh claim =>
      obtain rfl : { s with phase := .idle } = s' := by simpa [Supervisor.step, hph] using h
      exact hs.toPhase trivial (by simp [fresh, hph]) (by simp)
    | outage =>
      obtain rfl : { s with phase := .idle } = s' := by simpa [Supervisor.step, hph] using h
      exact hs.toPhase trivial (by simp [fresh, hph]) (by simp)
    | _ => simp [Supervisor.step, hph] at h

/-! ## Whole runs -/

/-- The supervisor before its first turn: `_connect` may have left it without a connection. The
monotonic clock counts from an instant before the worker started. -/
def started (settings : Settings) (clock : {t : ℚ // 0 < t}) (conn : Option ℚ) : Supervisor where
  settings
  clock := clock
  conn
  active := []
  pendingStarts := []
  phase := .idle

theorem started_inv (settings : Settings) (clock : {t : ℚ // 0 < t}) (conn : Option ℚ) :
    (started settings clock conn).Inv where
  clock_pos := clock.2
  heartbeats := by simp [started]
  attempts := by simp [started]
  phase := trivial
  installed := by simp [started, Allows]
  verifying := by simp [started]

/-- Two jobs claimed in one batch; both spawns complete after the turn that installed the
deadline `20 + 15` with no job active, so the next poll activates the first one and persists the
second under that deadline. -/
def doubleStart (a b : Uuid) : List Event :=
  [.beginTick, .beginPoll, .endPoll, .beginClaim, .endClaim [a, b], .endTick, .advance 19,
    .beginTick, .beginPoll, .leave, .leave, .endPoll, .endTick, .advance (1 / 10),
    .beginTick, .beginPoll, .take true, .pollOperation, .activate (.spawned a), .take true]

end Supervisor

end Lubko.Worker
