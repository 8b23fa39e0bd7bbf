import Lubko.Worker.Settings
import Mathlib.Order.Lattice
import Mathlib.Tactic.Linarith

/-!
# Heartbeats and the local lease deadline

The pure parts of the supervisor that read or move `last_heartbeat_at`: the operation deadline
of a turn, the eviction of jobs whose lease can no longer be refreshed in time, and the effect
of a committed bulk refresh.
-/

namespace Lubko.Worker

open Lubko.Lib

/-- The local instant from which a job's lease is no longer safe:
`last_heartbeat_at + lease_duration - margin`. -/
def unsafeAt (settings : Settings) (origin : ℚ) : ℚ :=
  origin + settings.leaseDurationSeconds - settings.leaseSafetyMarginSeconds

/-- A job whose processes the supervisor neither saw exit nor asked to stop. -/
def ActiveJob.running (job : ActiveJob) : Bool := !job.completed && !job.termSent

/-- `operation_deadline_at`. -/
def operationDeadlineAt (nowMono : ℚ) (heartbeatOrigins : List ℚ) (settings : Settings) : ℚ :=
  let limit := nowMono + settings.dbOperationTimeoutSeconds
  match (heartbeatOrigins.map (unsafeAt settings)).min? with
  | some earliest => if earliest < limit then earliest else limit
  | none => limit

/-- `_operation_deadline`. -/
def operationDeadline (settings : Settings) (active : List ActiveJob) (nowMono : ℚ) : ℚ :=
  operationDeadlineAt nowMono
    ((active.filter fun job => job.running && 0 < job.lastHeartbeatAt).map (·.lastHeartbeatAt))
    settings

/-- `_enforce_lease_safety`, for one job. -/
def enforceLeaseSafety (settings : Settings) (now : ℚ) (job : ActiveJob) : ActiveJob :=
  if job.completed || job.termSent then job
  else if unsafeAt settings job.lastHeartbeatAt ≤ now then
    requestStop now .lease { job with leaseEvicted := true }
  else job

/-- `_heartbeat_root_ids` refreshes it. -/
def ActiveJob.heartbeated (job : ActiveJob) : Bool :=
  !job.finalized && !job.quarantined && !job.rowLost && !job.leaseEvicted

/-- `_heartbeat_root_ids`. -/
def heartbeatRootIds (active : List ActiveJob) : List Uuid :=
  (active.filter ActiveJob.heartbeated).map (·.id)

/-- `apply_lease_refresh`, for one job; `now` is the instant the stop is requested at. -/
def applyLeaseRefresh (refreshed : List Uuid) (refreshMono now : ℚ) (job : ActiveJob) :
    ActiveJob :=
  if !job.heartbeated then job
  else if job.id ∈ refreshed then { job with lastHeartbeatAt := refreshMono }
  else requestStop now .rowLost { job with rowLost := true }

/-! ## The deadline bounds every running job -/

theorem operationDeadlineAt_le {nowMono origin : ℚ} {origins : List ℚ} (settings : Settings)
    (h : origin ∈ origins) :
    operationDeadlineAt nowMono origins settings ≤ unsafeAt settings origin := by
  have hmem : unsafeAt settings origin ∈ origins.map (unsafeAt settings) :=
    List.mem_map_of_mem h
  cases hmin : (origins.map (unsafeAt settings)).min? with
  | none =>
    rw [List.min?_eq_none_iff] at hmin
    simp [hmin] at hmem
  | some earliest =>
    have hle : earliest ≤ unsafeAt settings origin := (List.min?_eq_some_iff.1 hmin).2 _ hmem
    simp only [operationDeadlineAt, hmin]
    split_ifs with hlt
    · exact hle
    · exact (not_lt.1 hlt).trans hle

/-- **The installed deadline respects every running job** whose heartbeat is on the clock. -/
theorem operationDeadline_le {settings : Settings} {active : List ActiveJob} {job : ActiveJob}
    (nowMono : ℚ) (hjob : job ∈ active) (hrun : job.running = true)
    (hpos : 0 < job.lastHeartbeatAt) :
    operationDeadline settings active nowMono ≤ unsafeAt settings job.lastHeartbeatAt := by
  refine operationDeadlineAt_le settings (List.mem_map.2 ⟨job, ?_, rfl⟩)
  simp [hjob, hrun, hpos]

theorem unsafeAt_mono {settings : Settings} {a b : ℚ} (h : a ≤ b) :
    unsafeAt settings a ≤ unsafeAt settings b := by
  unfold unsafeAt
  linarith

section Fields

@[simp] theorem requestStop_running (now : ℚ) (r : StopReason) (job : ActiveJob) :
    (requestStop now r job).running = false := by
  simp [ActiveJob.running]

@[simp] theorem enforceLeaseSafety_id (settings : Settings) (now : ℚ) (job : ActiveJob) :
    (enforceLeaseSafety settings now job).id = job.id := by
  unfold enforceLeaseSafety
  split_ifs <;> simp

@[simp] theorem enforceLeaseSafety_lastHeartbeatAt (settings : Settings) (now : ℚ)
    (job : ActiveJob) :
    (enforceLeaseSafety settings now job).lastHeartbeatAt = job.lastHeartbeatAt := by
  unfold enforceLeaseSafety
  split_ifs <;> simp

theorem running_of_enforceLeaseSafety {settings : Settings} {now : ℚ} {job : ActiveJob}
    (h : (enforceLeaseSafety settings now job).running = true) : job.running = true := by
  unfold enforceLeaseSafety at h
  split_ifs at h
  · exact h
  · simp at h
  · exact h

@[simp] theorem applyLeaseRefresh_id (refreshed : List Uuid) (mono now : ℚ) (job : ActiveJob) :
    (applyLeaseRefresh refreshed mono now job).id = job.id := by
  unfold applyLeaseRefresh
  split_ifs <;> simp

/-- A refresh leaves the heartbeat alone or moves it to the instant before the operation. -/
theorem applyLeaseRefresh_lastHeartbeatAt (refreshed : List Uuid) (mono now : ℚ)
    (job : ActiveJob) :
    (applyLeaseRefresh refreshed mono now job).lastHeartbeatAt = job.lastHeartbeatAt ∨
      job.id ∈ refreshed ∧ (applyLeaseRefresh refreshed mono now job).lastHeartbeatAt = mono := by
  unfold applyLeaseRefresh
  split_ifs with _ hmem
  · exact .inl rfl
  · exact .inr ⟨hmem, rfl⟩
  · exact .inl (by simp)

theorem running_of_applyLeaseRefresh {refreshed : List Uuid} {mono now : ℚ} {job : ActiveJob}
    (h : (applyLeaseRefresh refreshed mono now job).running = true) : job.running = true := by
  unfold applyLeaseRefresh at h
  split_ifs at h
  · exact h
  · exact h
  · simp at h

end Fields

end Lubko.Worker
