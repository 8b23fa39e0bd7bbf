import Lubko.Lib.Execution
import Lubko.Worker.Heartbeat

/-!
# The lease in the row and the lease in the worker

Any number of workers share one table. The lease of a job exists twice: `lease_expires_at` in its
row, written by `claim_jobs` and `bulk_refresh_leases`, and `last_heartbeat_at` in the registry of
the worker that runs it. All clocks show one common time `now`. A database call is begun by a
worker, takes effect at most once while the worker waits for it, and ends with its result or with
an error, whether it took effect or not; `now()` inside it is an instant `txNow` between its start
and its effect. Other transactions settle, insert and delete rows at any time.

Main result: `lease_covers_heartbeat`. In every reachable state the row of an active job, while it
exists, stores a lease that ends no earlier than `last_heartbeat_at + lease_duration_seconds`, and
every recovery of the row happens later than that.
-/

namespace Lubko.Worker

open Lubko.Lib

/-- `state.status` of a command row. -/
inductive RowStatus where
  | pending
  | running
  | succeeded
  | failed
  | cancelled
  deriving DecidableEq

/-- The part of a command row that claiming, heartbeats and recovery read or write. -/
structure LeaseRow where
  server : PyStr
  status : RowStatus
  workerId : Option PyStr
  workerIncarnation : Option PyStr
  leaseExpiresAt : Option ℚ

namespace LeaseRow

/-- A row `claim_jobs` may pick. -/
def claimable (settings : Settings) (row : LeaseRow) : Bool :=
  row.server = settings.server && row.status = .pending

/-- The update of `claim_jobs`. -/
def claim (settings : Settings) (txNow : ℚ) (row : LeaseRow) : LeaseRow :=
  { row with
    status := .running
    workerId := some settings.workerId
    workerIncarnation := some settings.workerIncarnation
    leaseExpiresAt := some (txNow + settings.leaseDurationSeconds) }

/-- A row `bulk_refresh_leases` updates, when its identifier is listed. -/
def refreshable (settings : Settings) (row : LeaseRow) : Bool :=
  row.server = settings.server && row.status = .running &&
    row.workerId = some settings.workerId &&
    row.workerIncarnation = some settings.workerIncarnation

/-- The update of `bulk_refresh_leases`. -/
def refresh (settings : Settings) (txNow : ℚ) (row : LeaseRow) : LeaseRow :=
  { row with leaseExpiresAt := some (txNow + settings.leaseDurationSeconds) }

/-- A row `recover_stale_jobs` may pick. -/
def stale (server : PyStr) (txNow : ℚ) (row : LeaseRow) : Bool :=
  row.server = server && row.status = .running && row.leaseExpiresAt.any (· < txNow)

/-- The update of `recover_stale_jobs`. -/
def recover (row : LeaseRow) : LeaseRow := { row with status := .failed }

end LeaseRow

/-- The three calls of a turn that touch leases. -/
inductive LeaseOp where
  | claim
  | refresh
  | recover
  deriving DecidableEq

/-- A database call a worker waits for: the instant captured before it, and the identifiers it
returned once it has taken effect. -/
structure Call where
  op : LeaseOp
  start : ℚ
  effect : Option (List Uuid)

/-- The part of a supervisor that concerns leases. -/
structure LeaseWorker where
  settings : Settings
  active : List ActiveJob := []
  pendingStarts : List StartAttempt := []
  call : Option Call := none

/-- `LEASE_RECOVERY_LIMIT`. -/
def LEASE_RECOVERY_LIMIT : ℕ := 100

/-- What happens to an active job between two database calls. -/
inductive JobChange where
  | exit
  | stop (reason : StopReason)
  | finalized
  | quarantined

def JobChange.apply (now : ℚ) : JobChange → ActiveJob → ActiveJob
  | .exit, job => { job with completed := true }
  | .stop reason, job => requestStop now reason job
  | .finalized, job => { job with finalized := true }
  | .quarantined, job => { job with quarantined := true }

namespace LeaseWorker

/-- The rows a call returns when it takes effect. `bulk_refresh_leases` returns every listed row
that matches; the two others skip locked rows and are limited. -/
def Returns (v : LeaseWorker) (rows : Uuid → Option LeaseRow) (txNow : ℚ) (ids : List Uuid) :
    LeaseOp → Prop
  | .claim => (ids.length : ℤ) ≤ v.settings.claimBatchLimit ∧
      ∀ id ∈ ids, (rows id).any (LeaseRow.claimable v.settings) = true
  | .refresh => ids = (heartbeatRootIds v.active).filter fun id =>
      (rows id).any (LeaseRow.refreshable v.settings)
  | .recover => ids.length ≤ LEASE_RECOVERY_LIMIT ∧
      ∀ id ∈ ids, (rows id).any (LeaseRow.stale v.settings.server txNow) = true

instance (v : LeaseWorker) (rows : Uuid → Option LeaseRow) (txNow : ℚ) (ids : List Uuid)
    (op : LeaseOp) : Decidable (v.Returns rows txNow ids op) := by
  cases op <;> unfold Returns <;> infer_instance

/-- The update of the returned rows. -/
def update (v : LeaseWorker) (txNow : ℚ) : LeaseOp → LeaseRow → LeaseRow
  | .claim => LeaseRow.claim v.settings txNow
  | .refresh => LeaseRow.refresh v.settings txNow
  | .recover => LeaseRow.recover

/-- The call returned to the worker: the claimed jobs that were `started` wait for their spawn,
the refreshed jobs move their heartbeat to the start of the call, and the recovered jobs of the
worker itself are stopped. -/
def returned (v : LeaseWorker) (now start : ℚ) (ids started : List Uuid) :
    LeaseOp → LeaseWorker
  | .claim => { v with
      pendingStarts := v.pendingStarts ++
        (ids.filter (· ∈ started)).map fun id => ⟨id, start, now⟩
      call := none }
  | .refresh => { v with active := v.active.map (applyLeaseRefresh ids start now), call := none }
  | .recover => { v with
      active := v.active.map fun job =>
        if job.id ∈ ids then requestStop now .rowLost { job with rowLost := true } else job
      call := none }

end LeaseWorker

/-- The table, all workers, and the common time. `used` remembers every identifier that ever was
in the table. -/
structure LeaseSystem (W : Type) where
  now : ℚ
  rows : Uuid → Option LeaseRow
  used : Uuid → Bool
  workers : W → LeaseWorker

inductive LeaseEvent (W : Type) where
  | advance (dt : ℚ)
  /-- A client inserts a new command. -/
  | submit (id : Uuid) (server : PyStr)
  /-- Another transaction of any party settles a row that is not terminal. -/
  | settle (id : Uuid) (status : FinalStatus)
  | delete (id : Uuid)
  | begin (w : W) (op : LeaseOp)
  | effect (w : W) (ids : List Uuid) (txNow : ℚ)
  | returned (w : W) (started : List Uuid)
  /-- The call ends with an error: it did not take effect, or its acknowledgement was lost. -/
  | failed (w : W)
  /-- A pending start of the worker became an active job. -/
  | activate (w : W) (job : ActiveJob)
  | dropStart (w : W) (id : Uuid)
  | change (w : W) (id : Uuid) (change : JobChange)
  | enforceLeaseSafety (w : W)
  | untrack (w : W) (id : Uuid)

/-- The status a final status stands for. -/
def FinalStatus.rowStatus : FinalStatus → RowStatus
  | .succeeded => .succeeded
  | .failed => .failed
  | .cancelled => .cancelled

namespace LeaseSystem

variable {W : Type} [DecidableEq W]

/-- Replace one worker. -/
def setWorker (s : LeaseSystem W) (w : W) (v : LeaseWorker) : LeaseSystem W :=
  { s with workers := fun w' => if w' = w then v else s.workers w' }

/-- Update the listed rows. -/
def modifyRows (s : LeaseSystem W) (ids : List Uuid) (f : LeaseRow → LeaseRow) : LeaseSystem W :=
  { s with rows := fun id => if id ∈ ids then (s.rows id).map f else s.rows id }

/-- A change to a worker that is not waiting for a call. -/
def localStep (s : LeaseSystem W) (w : W) (f : LeaseWorker → Option LeaseWorker) :
    Option (LeaseSystem W) :=
  match (s.workers w).call with
  | some _ => none
  | none => (f (s.workers w)).map (s.setWorker w)

def step (s : LeaseSystem W) : LeaseEvent W → Option (LeaseSystem W)
  | .advance dt => if 0 ≤ dt then some { s with now := s.now + dt } else none
  | .submit id server =>
    if s.used id then none
    else some { s with
      rows := fun i => if i = id then some ⟨server, .pending, none, none, none⟩ else s.rows i
      used := fun i => i = id || s.used i }
  | .settle id status =>
    if (s.rows id).any fun row => row.status = .pending || row.status = .running then
      some (s.modifyRows [id] fun row => { row with status := status.rowStatus })
    else none
  | .delete id => some { s with rows := fun i => if i = id then none else s.rows i }
  | .begin w op => s.localStep w fun v => some { v with call := some ⟨op, s.now, none⟩ }
  | .effect w ids txNow =>
    match (s.workers w).call with
    | some ⟨op, start, none⟩ =>
      if start ≤ txNow ∧ txNow ≤ s.now ∧ (s.workers w).Returns s.rows txNow ids op then
        some ((s.modifyRows ids ((s.workers w).update txNow op)).setWorker w
          { s.workers w with call := some ⟨op, start, some ids⟩ })
      else none
    | _ => none
  | .returned w started =>
    match (s.workers w).call with
    | some ⟨op, start, some ids⟩ =>
      some (s.setWorker w ((s.workers w).returned s.now start ids started op))
    | _ => none
  | .failed w =>
    match (s.workers w).call with
    | some _ => some (s.setWorker w { s.workers w with call := none })
    | none => none
  | .activate w job => s.localStep w fun v => do
    let attempt ← v.pendingStarts.find? (·.jobId = job.id)
    some { v with
      pendingStarts := v.pendingStarts.filter (·.jobId ≠ job.id)
      active := v.active.filter (·.id ≠ job.id) ++
        [{ job with lastHeartbeatAt := attempt.claimMono }] }
  | .dropStart w id => s.localStep w fun v =>
    some { v with pendingStarts := v.pendingStarts.filter (·.jobId ≠ id) }
  | .change w id change => s.localStep w fun v =>
    some { v with active := v.active.map fun job =>
      if job.id = id then change.apply s.now job else job }
  | .enforceLeaseSafety w => s.localStep w fun v =>
    some { v with active := v.active.map (Worker.enforceLeaseSafety v.settings s.now) }
  | .untrack w id => s.localStep w fun v =>
    some { v with active := v.active.filter (·.id ≠ id) }

end LeaseSystem

/-! ## What a worker relies on -/

/-- The worker may assume that the row of `id`, while it exists, holds a lease granted no earlier
than `origin`: for a job it runs, for a claimed job that waits for its spawn, and for the rows of
a claim or refresh that took effect but has not returned. -/
inductive LeaseWorker.Relies (v : LeaseWorker) : Uuid → ℚ → Prop where
  | active {job : ActiveJob} (h : job ∈ v.active) : Relies v job.id job.lastHeartbeatAt
  | pendingStart {a : StartAttempt} (h : a ∈ v.pendingStarts) : Relies v a.jobId a.claimMono
  | returning {op : LeaseOp} {start : ℚ} {ids : List Uuid} {id : Uuid}
      (hcall : v.call = some ⟨op, start, some ids⟩) (hop : op ≠ .recover) (hid : id ∈ ids) :
      Relies v id start

/-- The row is past `pending` and stores a lease granted no earlier than `origin`. -/
def LeaseRow.Covers (settings : Settings) (origin : ℚ) (row : LeaseRow) : Prop :=
  row.status ≠ .pending ∧
    ∃ lease ∈ row.leaseExpiresAt, origin + settings.leaseDurationSeconds ≤ lease

namespace LeaseSystem

variable {W : Type}

/-- Whatever a worker relies on is true, nobody else relies on it, and it began before the call
the worker is waiting for. -/
structure Inv (s : LeaseSystem W) : Prop where
  covered : ∀ w id o, (s.workers w).Relies id o → ∀ row, s.rows id = some row →
    row.Covers (s.workers w).settings o
  known : ∀ w id o, (s.workers w).Relies id o → s.used id = true
  exclusive : ∀ w w' id o o', (s.workers w).Relies id o → (s.workers w').Relies id o' → w = w'
  past : ∀ w id o, (s.workers w).Relies id o →
    o ≤ s.now ∧ ∀ call ∈ (s.workers w).call, o ≤ call.start
  started : ∀ w, ∀ call ∈ (s.workers w).call, call.start ≤ s.now
  used : ∀ id row, s.rows id = some row → s.used id = true

/-- A change of rows that keeps leases and never brings a row back to `pending`. -/
theorem Inv.setRows {s : LeaseSystem W} (hs : s.Inv) {rows : Uuid → Option LeaseRow}
    (h : ∀ id row', rows id = some row' → ∃ row, s.rows id = some row ∧
      row'.leaseExpiresAt = row.leaseExpiresAt ∧
      (row.status ≠ .pending → row'.status ≠ .pending)) :
    ({ s with rows } : LeaseSystem W).Inv := by
  refine ⟨?_, hs.known, hs.exclusive, hs.past, hs.started, ?_⟩
  · intro w id o hrel row' hrow'
    obtain ⟨row, hrow, hlease, hstatus⟩ := h id row' hrow'
    obtain ⟨hne, lease, hmem, hle⟩ := hs.covered w id o hrel row hrow
    exact ⟨hstatus hne, lease, hlease ▸ hmem, hle⟩
  · intro id row' hrow'
    obtain ⟨row, hrow, -⟩ := h id row' hrow'
    exact hs.used id row hrow

theorem Inv.call {s : LeaseSystem W} (hs : s.Inv) {w : W} {call : Call}
    (hc : (s.workers w).call = some call) :
    call.start ≤ s.now ∧ ∀ id o, (s.workers w).Relies id o → o ≤ call.start :=
  ⟨hs.started w call hc, fun id o hrel => (hs.past w id o hrel).2 call hc⟩

variable [DecidableEq W]

theorem workers_setWorker (s : LeaseSystem W) (w w' : W) (v : LeaseWorker) :
    (s.setWorker w v).workers w' = if w' = w then v else s.workers w' := rfl

@[simp] theorem workers_setWorker_self (s : LeaseSystem W) (w : W) (v : LeaseWorker) :
    (s.setWorker w v).workers w = v := by
  simp [workers_setWorker]

theorem workers_setWorker_ne (s : LeaseSystem W) {w w' : W} (v : LeaseWorker) (h : w' ≠ w) :
    (s.setWorker w v).workers w' = s.workers w' := by
  simp [workers_setWorker, h]

/-- A change of one worker that relies on nothing new and waits for no new call. -/
theorem Inv.setWorker {s : LeaseSystem W} (hs : s.Inv) {w : W} {v : LeaseWorker}
    (hset : v.settings = (s.workers w).settings)
    (hrel : ∀ id o, v.Relies id o → (s.workers w).Relies id o)
    (hcall : ∀ call ∈ v.call, call ∈ (s.workers w).call) : (s.setWorker w v).Inv := by
  have hrel' : ∀ w' id o, ((s.setWorker w v).workers w').Relies id o →
      (s.workers w').Relies id o := by
    intro w' id o h
    by_cases hw : w' = w
    · subst hw
      rw [workers_setWorker_self] at h
      exact hrel id o h
    · rwa [workers_setWorker_ne s v hw] at h
  have hcall' : ∀ w', ∀ call ∈ ((s.setWorker w v).workers w').call,
      call ∈ (s.workers w').call := by
    intro w' call h
    by_cases hw : w' = w
    · subst hw
      rw [workers_setWorker_self] at h
      exact hcall call h
    · rwa [workers_setWorker_ne s v hw] at h
  have hset' : ∀ w', ((s.setWorker w v).workers w').settings = (s.workers w').settings := by
    intro w'
    by_cases hw : w' = w
    · subst hw
      rw [workers_setWorker_self, hset]
    · rw [workers_setWorker_ne s v hw]
  refine ⟨fun w' id o h row hrow => ?_, fun w' id o h => hs.known w' id o (hrel' w' id o h),
    fun w₁ w₂ id o o' h h' => hs.exclusive w₁ w₂ id o o' (hrel' _ _ _ h) (hrel' _ _ _ h'),
    fun w' id o h => ?_, fun w' call h => hs.started w' call (hcall' w' call h), hs.used⟩
  · rw [hset']
    exact hs.covered w' id o (hrel' w' id o h) row hrow
  · have hpast := hs.past w' id o (hrel' w' id o h)
    exact ⟨hpast.1, fun call hc => hpast.2 call (hcall' w' call hc)⟩

/-- A change of one worker between two calls. -/
theorem Inv.localStep {s s' : LeaseSystem W} (hs : s.Inv) {w : W}
    {f : LeaseWorker → Option LeaseWorker} (h : s.localStep w f = some s')
    (hset : ∀ v v', f v = some v' → v'.settings = v.settings)
    (hcall : ∀ v v', f v = some v' → v'.call = v.call)
    (hrel : ∀ v v' id o, f v = some v' → v.call = none → v'.Relies id o → v.Relies id o) :
    s'.Inv := by
  unfold LeaseSystem.localStep at h
  cases hc : (s.workers w).call with
  | some call => simp [hc] at h
  | none =>
    rw [hc] at h
    obtain ⟨v', hv', rfl⟩ := Option.map_eq_some_iff.1 h
    refine hs.setWorker (hset _ _ hv') (fun id o hr => hrel _ _ id o hv' hc hr) ?_
    rw [hcall _ _ hv']
    exact fun call hmem => hmem

/-- Changing active jobs without moving a heartbeat. -/
theorem relies_of_map {v : LeaseWorker} {f : ActiveJob → ActiveJob}
    (hid : ∀ job, (f job).id = job.id)
    (hlhb : ∀ job, (f job).lastHeartbeatAt = job.lastHeartbeatAt) {id : Uuid} {o : ℚ}
    (h : ({ v with active := v.active.map f } : LeaseWorker).Relies id o) : v.Relies id o := by
  cases h with
  | active hmem =>
    obtain ⟨job, hjob, rfl⟩ := List.mem_map.1 hmem
    rw [hid, hlhb]
    exact .active hjob
  | pendingStart hmem => exact .pendingStart hmem
  | returning hcall hop hmem => exact .returning hcall hop hmem

/-! ## The calls -/

/-- With another call, a worker relies on what it relied on before and on what the call
returned. -/
theorem relies_setCall {v : LeaseWorker} {call : Call} {id : Uuid} {o : ℚ}
    (h : ({ v with call := some call } : LeaseWorker).Relies id o) :
    v.Relies id o ∨
      call.op ≠ .recover ∧ (∃ ids ∈ call.effect, id ∈ ids) ∧ o = call.start := by
  cases h with
  | active hmem => exact .inl (.active hmem)
  | pendingStart hmem => exact .inl (.pendingStart hmem)
  | returning hcall hop hid =>
    obtain rfl := Option.some.inj hcall
    exact .inr ⟨hop, ⟨_, rfl, hid⟩, rfl⟩

/-- A call begins or takes effect. The rows must still cover what was relied on, and what the
call returned must be covered from its start and relied on by nobody else. -/
theorem Inv.setCall {s : LeaseSystem W} (hs : s.Inv) {w : W} {call : Call}
    {rows : Uuid → Option LeaseRow}
    (hrows : ∀ w' id o, (s.workers w').Relies id o → ∀ row, rows id = some row →
      row.Covers (s.workers w').settings o)
    (hused : ∀ id row, rows id = some row → s.used id = true)
    (hstart : call.start ≤ s.now)
    (hpast : ∀ id o, (s.workers w).Relies id o → o ≤ call.start)
    (hnew : call.op ≠ .recover → ∀ ids ∈ call.effect, ∀ id ∈ ids, s.used id = true ∧
      (∀ row, rows id = some row → row.Covers (s.workers w).settings call.start) ∧
      ∀ w' o, (s.workers w').Relies id o → w' = w) :
    (({ s with rows } : LeaseSystem W).setWorker w
      { s.workers w with call := some call }).Inv := by
  set s' := ({ s with rows } : LeaseSystem W).setWorker w
    { s.workers w with call := some call } with hs'
  have hself : s'.workers w = { s.workers w with call := some call } :=
    workers_setWorker_self _ _ _
  have hne : ∀ {w'}, w' ≠ w → s'.workers w' = s.workers w' := workers_setWorker_ne _ _
  -- what the new state relies on is old, or returned by the call of `w`
  have hrel : ∀ w' id o, (s'.workers w').Relies id o → (s.workers w').Relies id o ∨
      w' = w ∧ call.op ≠ .recover ∧ (∃ ids ∈ call.effect, id ∈ ids) ∧ o = call.start := by
    intro w' id o h
    by_cases hw : w' = w
    · subst hw
      rw [hself] at h
      exact (relies_setCall h).imp_right fun h => ⟨rfl, h⟩
    · exact .inl (hne hw ▸ h)
  have hset : ∀ w', (s'.workers w').settings = (s.workers w').settings := by
    intro w'
    by_cases hw : w' = w
    · subst hw
      rw [hself]
    · rw [hne hw]
  refine ⟨fun w' id o h row hrow => ?_, fun w' id o h => ?_, fun w₁ w₂ id o₁ o₂ h₁ h₂ => ?_,
    fun w' id o h => ?_, fun w' c hc => ?_, hused⟩
  · rw [hset]
    rcases hrel w' id o h with hold | ⟨rfl, hop, ⟨ids, hids, hid⟩, rfl⟩
    · exact hrows w' id o hold row hrow
    · exact (hnew hop ids hids id hid).2.1 row hrow
  · rcases hrel w' id o h with hold | ⟨rfl, hop, ⟨ids, hids, hid⟩, rfl⟩
    · exact hs.known w' id o hold
    · exact (hnew hop ids hids id hid).1
  · rcases hrel w₁ id o₁ h₁ with hold₁ | ⟨rfl, hop, ⟨ids, hids, hid⟩, -⟩ <;>
      rcases hrel w₂ id o₂ h₂ with hold₂ | ⟨rfl, hop', ⟨ids', hids', hid'⟩, -⟩
    · exact hs.exclusive w₁ w₂ id o₁ o₂ hold₁ hold₂
    · exact (hnew hop' ids' hids' id hid').2.2 w₁ o₁ hold₁
    · exact ((hnew hop ids hids id hid).2.2 w₂ o₂ hold₂).symm
    · rfl
  · rcases hrel w' id o h with hold | ⟨rfl, -, -, rfl⟩
    · refine ⟨(hs.past w' id o hold).1, fun c hc => ?_⟩
      by_cases hw : w' = w
      · subst hw
        rw [hself] at hc
        obtain rfl := Option.some.inj hc
        exact hpast id o hold
      · rw [hne hw] at hc
        exact (hs.past w' id o hold).2 c hc
    · refine ⟨hstart, fun c hc => ?_⟩
      rw [hself] at hc
      obtain rfl := Option.some.inj hc
      exact le_rfl
  · by_cases hw : w' = w
    · subst hw
      rw [hself] at hc
      obtain rfl := Option.some.inj hc
      exact hstart
    · rw [hne hw] at hc
      exact hs.started w' c hc

omit [DecidableEq W] in
theorem rows_modifyRows {s : LeaseSystem W} {ids : List Uuid} {f : LeaseRow → LeaseRow}
    {id : Uuid} {row' : LeaseRow} (h : (s.modifyRows ids f).rows id = some row') :
    ∃ row, s.rows id = some row ∧ row' = if id ∈ ids then f row else row := by
  simp only [modifyRows] at h
  split_ifs at h ⊢ with hid
  · obtain ⟨row, hrow, rfl⟩ := Option.map_eq_some_iff.1 h
    exact ⟨row, hrow, rfl⟩
  · exact ⟨row', h, rfl⟩

/-- A claim takes effect: the claimed rows were pending, so nobody relied on them. -/
theorem Inv.claim {s : LeaseSystem W} (hs : s.Inv) {w : W} {start txNow : ℚ} {ids : List Uuid}
    (hc : (s.workers w).call = some ⟨.claim, start, none⟩) (hstart : start ≤ txNow)
    (hids : ∀ id ∈ ids, (s.rows id).any (LeaseRow.claimable (s.workers w).settings) = true) :
    ((s.modifyRows ids (LeaseRow.claim (s.workers w).settings txNow)).setWorker w
      { s.workers w with call := some ⟨.claim, start, some ids⟩ }).Inv := by
  have hpending : ∀ id ∈ ids, ∃ row, s.rows id = some row ∧ row.status = .pending := by
    intro id hid
    obtain ⟨row, hrow, hcl⟩ := (Option.any_eq_true _ _).1 (hids id hid)
    simp only [LeaseRow.claimable, Bool.and_eq_true, decide_eq_true_eq] at hcl
    exact ⟨row, hrow, hcl.2⟩
  have hfree : ∀ id ∈ ids, ∀ w' o, ¬ (s.workers w').Relies id o := by
    intro id hid w' o hrel
    obtain ⟨row, hrow, hst⟩ := hpending id hid
    exact (hs.covered w' id o hrel row hrow).1 hst
  obtain ⟨hnow, hpast⟩ := hs.call hc
  refine hs.setCall (fun w' id o hrel row' hrow' => ?_) (fun id row' hrow' => ?_)
    hnow hpast (fun _ ids' hids' id hid => ?_)
  · obtain ⟨row, hrow, rfl⟩ := rows_modifyRows hrow'
    rw [if_neg fun hid => hfree id hid w' o hrel]
    exact hs.covered w' id o hrel row hrow
  · obtain ⟨row, hrow, -⟩ := rows_modifyRows hrow'
    exact hs.used id row hrow
  · obtain rfl := Option.some.inj hids'
    obtain ⟨row₀, hrow₀, -⟩ := hpending id hid
    refine ⟨hs.used id row₀ hrow₀, fun row' hrow' => ?_,
      fun w' o hrel => absurd hrel (hfree id hid w' o)⟩
    obtain ⟨row, -, rfl⟩ := rows_modifyRows hrow'
    rw [if_pos hid]
    exact ⟨by simp [LeaseRow.claim], _, rfl, by simpa using hstart⟩

/-- A refresh takes effect: it touches only jobs its own worker runs, whose heartbeats are no
later than the start of the call. -/
theorem Inv.refresh {s : LeaseSystem W} (hs : s.Inv) {w : W} {start txNow : ℚ} {ids : List Uuid}
    (hc : (s.workers w).call = some ⟨.refresh, start, none⟩) (hstart : start ≤ txNow)
    (hids : ids = (heartbeatRootIds (s.workers w).active).filter fun id =>
      (s.rows id).any (LeaseRow.refreshable (s.workers w).settings)) :
    ((s.modifyRows ids (LeaseRow.refresh (s.workers w).settings txNow)).setWorker w
      { s.workers w with call := some ⟨.refresh, start, some ids⟩ }).Inv := by
  have hown : ∀ id ∈ ids, (∃ row, s.rows id = some row ∧ row.status = .running) ∧
      ∃ o, (s.workers w).Relies id o := by
    intro id hid
    rw [hids] at hid
    obtain ⟨hmem, hany⟩ := List.mem_filter.1 hid
    obtain ⟨row, hrow, href⟩ := (Option.any_eq_true _ _).1 hany
    simp only [LeaseRow.refreshable, Bool.and_eq_true, decide_eq_true_eq] at href
    obtain ⟨job, hjob, rfl⟩ := List.mem_map.1 hmem
    exact ⟨⟨row, hrow, href.1.1.2⟩, _, .active (List.mem_of_mem_filter hjob)⟩
  have hexcl : ∀ id ∈ ids, ∀ w' o, (s.workers w').Relies id o → w' = w := by
    intro id hid w' o hrel
    obtain ⟨-, o', hrel'⟩ := hown id hid
    exact hs.exclusive w' w id o o' hrel hrel'
  -- the new lease covers every origin up to the start of the call
  have hcover : ∀ id ∈ ids, ∀ row, s.rows id = some row → ∀ o ≤ start,
      (LeaseRow.refresh (s.workers w).settings txNow row).Covers (s.workers w).settings o := by
    intro id hid row hrow o ho
    obtain ⟨⟨row₀, hrow₀, hst⟩, -⟩ := hown id hid
    obtain rfl : row₀ = row := Option.some.inj (hrow₀.symm.trans hrow)
    exact ⟨by simp [LeaseRow.refresh, hst], _, rfl, by simpa using ho.trans hstart⟩
  obtain ⟨hnow, hpast⟩ := hs.call hc
  refine hs.setCall (fun w' id o hrel row' hrow' => ?_) (fun id row' hrow' => ?_)
    hnow hpast (fun _ ids' hids' id hid => ?_)
  · obtain ⟨row, hrow, rfl⟩ := rows_modifyRows hrow'
    by_cases hid : id ∈ ids
    · obtain rfl := hexcl id hid w' o hrel
      rw [if_pos hid]
      exact hcover id hid row hrow o (hpast id o hrel)
    · rw [if_neg hid]
      exact hs.covered w' id o hrel row hrow
  · obtain ⟨row, hrow, -⟩ := rows_modifyRows hrow'
    exact hs.used id row hrow
  · obtain rfl := Option.some.inj hids'
    obtain ⟨⟨row₀, hrow₀, -⟩, -⟩ := hown id hid
    refine ⟨hs.used id row₀ hrow₀, fun row' hrow' => ?_, hexcl id hid⟩
    obtain ⟨row, hrow, rfl⟩ := rows_modifyRows hrow'
    rw [if_pos hid]
    exact hcover id hid row hrow start le_rfl

/-- A recovery takes effect: it leaves every lease alone. -/
theorem Inv.recover {s : LeaseSystem W} (hs : s.Inv) {w : W} {start : ℚ} {ids : List Uuid}
    (hc : (s.workers w).call = some ⟨.recover, start, none⟩) :
    ((s.modifyRows ids LeaseRow.recover).setWorker w
      { s.workers w with call := some ⟨.recover, start, some ids⟩ }).Inv := by
  obtain ⟨hnow, hpast⟩ := hs.call hc
  refine hs.setCall (fun w' id o hrel row' hrow' => ?_) (fun id row' hrow' => ?_)
    hnow hpast (fun h => absurd rfl h)
  · obtain ⟨row, hrow, rfl⟩ := rows_modifyRows hrow'
    obtain ⟨hne, hlease⟩ := hs.covered w' id o hrel row hrow
    split_ifs
    · exact ⟨by simp [LeaseRow.recover], hlease⟩
    · exact ⟨hne, hlease⟩
  · obtain ⟨row, hrow, -⟩ := rows_modifyRows hrow'
    exact hs.used id row hrow

/-- A call returns: what the worker now relies on, the call had already granted. -/
theorem relies_returned {v : LeaseWorker} {op : LeaseOp} {now start : ℚ} {ids started : List Uuid}
    (hc : v.call = some ⟨op, start, some ids⟩) {id : Uuid} {o : ℚ}
    (h : (v.returned now start ids started op).Relies id o) : v.Relies id o := by
  cases op with
  | claim =>
    cases h with
    | active hmem => exact .active hmem
    | pendingStart hmem =>
      rcases List.mem_append.1 hmem with hold | hnew
      · exact .pendingStart hold
      · obtain ⟨id, hid, rfl⟩ := List.mem_map.1 hnew
        exact .returning hc (by simp) (List.mem_of_mem_filter hid)
    | returning hcall => simp [LeaseWorker.returned] at hcall
  | refresh =>
    cases h with
    | active hmem =>
      obtain ⟨job, hjob, rfl⟩ := List.mem_map.1 hmem
      rw [applyLeaseRefresh_id]
      rcases applyLeaseRefresh_lastHeartbeatAt ids start now job with hsame | ⟨hid, hmono⟩
      · rw [hsame]
        exact .active hjob
      · rw [hmono]
        exact .returning hc (by simp) hid
    | pendingStart hmem => exact .pendingStart hmem
    | returning hcall => simp [LeaseWorker.returned] at hcall
  | recover =>
    cases h with
    | active hmem =>
      obtain ⟨job, hjob, rfl⟩ := List.mem_map.1 hmem
      split_ifs
      · simp only [requestStop_id, requestStop_lastHeartbeatAt]
        exact .active hjob
      · exact .active hjob
    | pendingStart hmem => exact .pendingStart hmem
    | returning hcall => simp [LeaseWorker.returned] at hcall

/-! ## Every event keeps the invariant -/

omit [DecidableEq W] in
theorem Inv.advance {s : LeaseSystem W} (hs : s.Inv) {dt : ℚ} (hdt : 0 ≤ dt) :
    ({ s with now := s.now + dt } : LeaseSystem W).Inv := by
  refine ⟨hs.covered, hs.known, hs.exclusive, fun w id o h => ?_, fun w c hc => ?_, hs.used⟩
  · have hpast := hs.past w id o h
    exact ⟨hpast.1.trans (by simpa using hdt), hpast.2⟩
  · exact (hs.started w c hc).trans (by simpa using hdt)

omit [DecidableEq W] in
/-- A new identifier is relied on by nobody. -/
theorem Inv.submit {s : LeaseSystem W} (hs : s.Inv) {id : Uuid} (hnew : s.used id ≠ true)
    (row₀ : LeaseRow) :
    ({ s with
      rows := fun i => if i = id then some row₀ else s.rows i
      used := fun i => i = id || s.used i } : LeaseSystem W).Inv := by
  refine ⟨fun w i o h row hrow => ?_, fun w i o h => ?_, hs.exclusive, hs.past, hs.started,
    fun i row hrow => ?_⟩
  · have hne : i ≠ id := by
      rintro rfl
      exact hnew (hs.known w i o h)
    simp only [if_neg hne] at hrow
    exact hs.covered w i o h row hrow
  · simp [hs.known w i o h]
  · by_cases hi : i = id
    · simp [hi]
    · simp only [if_neg hi] at hrow
      simp [hs.used i row hrow]

/-- **Every event keeps the invariant.** -/
theorem Inv.step {s s' : LeaseSystem W} {e : LeaseEvent W} (hs : s.Inv)
    (h : s.step e = some s') : s'.Inv := by
  cases e with
  | advance dt =>
    simp only [LeaseSystem.step] at h
    split_ifs at h with hdt
    exact Option.some.inj h ▸ hs.advance hdt
  | submit id server =>
    simp only [LeaseSystem.step] at h
    split_ifs at h with hused
    exact Option.some.inj h ▸ hs.submit hused _
  | settle id status =>
    simp only [LeaseSystem.step] at h
    split_ifs at h
    obtain rfl := Option.some.inj h
    refine hs.setRows fun i row' hrow' => ?_
    obtain ⟨row, hrow, rfl⟩ := rows_modifyRows hrow'
    refine ⟨row, hrow, ?_⟩
    split_ifs
    · exact ⟨rfl, fun _ => by cases status <;> simp [FinalStatus.rowStatus]⟩
    · exact ⟨rfl, fun hne => hne⟩
  | delete id =>
    obtain rfl := Option.some.inj h
    refine hs.setRows fun i row' hrow' => ?_
    simp only [ite_eq_iff, reduceCtorEq, and_false, false_or] at hrow'
    exact ⟨row', hrow'.2, rfl, fun hne => hne⟩
  | begin w op =>
    simp only [LeaseSystem.step, LeaseSystem.localStep] at h
    cases hc : (s.workers w).call with
    | some call => simp [hc] at h
    | none =>
      rw [hc] at h
      obtain rfl := Option.some.inj h
      exact hs.setCall hs.covered hs.used le_rfl (fun id o hrel => (hs.past w id o hrel).1)
        (fun _ ids hids => by simp at hids)
  | effect w ids txNow =>
    simp only [LeaseSystem.step] at h
    split at h
    next op start hc =>
      split_ifs at h with hcond
      obtain ⟨hstart, -, hret⟩ := hcond
      obtain rfl := Option.some.inj h
      cases op with
      | claim => exact hs.claim hc hstart hret.2
      | refresh => exact hs.refresh hc hstart hret
      | recover => exact hs.recover hc
    next => simp at h
  | returned w started =>
    simp only [LeaseSystem.step] at h
    split at h
    next op start ids hc =>
      obtain rfl := Option.some.inj h
      refine hs.setWorker (by cases op <;> rfl) (fun id o hrel => relies_returned hc hrel) ?_
      cases op <;> simp [LeaseWorker.returned]
    next => simp at h
  | failed w =>
    simp only [LeaseSystem.step] at h
    split at h
    next call hc =>
      obtain rfl := Option.some.inj h
      refine hs.setWorker rfl (fun id o hrel => ?_) (by simp)
      cases hrel with
      | active hmem => exact .active hmem
      | pendingStart hmem => exact .pendingStart hmem
      | returning hcall => simp at hcall
    next => simp at h
  | activate w job =>
    rw [LeaseSystem.step] at h
    refine hs.localStep h ?_ ?_ ?_
    all_goals
      intro v v'
      simp only [Option.bind_eq_bind, Option.bind_eq_some_iff, Option.some.injEq]
    · rintro ⟨attempt, -, rfl⟩
      rfl
    · rintro ⟨attempt, -, rfl⟩
      rfl
    · rintro id o ⟨attempt, hfind, rfl⟩ - hrel
      cases hrel with
      | active hmem =>
        rcases List.mem_append.1 hmem with hold | hnew
        · exact .active (List.mem_of_mem_filter hold)
        · obtain rfl := List.mem_singleton.1 hnew
          have hid : attempt.jobId = job.id := by simpa using List.find?_some hfind
          have hrel := LeaseWorker.Relies.pendingStart (List.mem_of_find?_eq_some hfind)
          rwa [hid] at hrel
      | pendingStart hmem => exact .pendingStart (List.mem_of_mem_filter hmem)
      | returning hcall hop hid => exact .returning hcall hop hid
  | dropStart w id =>
    rw [LeaseSystem.step] at h
    refine hs.localStep h (fun v v' hv => ?_) (fun v v' hv => ?_) (fun v v' i o hv _ hrel => ?_)
    all_goals obtain rfl := Option.some.inj hv
    · rfl
    · rfl
    · cases hrel with
      | active hmem => exact .active hmem
      | pendingStart hmem => exact .pendingStart (List.mem_of_mem_filter hmem)
      | returning hcall hop hid => exact .returning hcall hop hid
  | change w id change =>
    rw [LeaseSystem.step] at h
    refine hs.localStep h (fun v v' hv => ?_) (fun v v' hv => ?_) (fun v v' i o hv _ hrel => ?_)
    all_goals obtain rfl := Option.some.inj hv
    · rfl
    · rfl
    · refine relies_of_map (fun job => ?_) (fun job => ?_) hrel
      all_goals
        split_ifs
        · cases change <;> simp [JobChange.apply]
        · rfl
  | enforceLeaseSafety w =>
    rw [LeaseSystem.step] at h
    refine hs.localStep h (fun v v' hv => ?_) (fun v v' hv => ?_) (fun v v' i o hv _ hrel => ?_)
    all_goals obtain rfl := Option.some.inj hv
    · rfl
    · rfl
    · exact relies_of_map (enforceLeaseSafety_id _ _) (enforceLeaseSafety_lastHeartbeatAt _ _) hrel
  | untrack w id =>
    rw [LeaseSystem.step] at h
    refine hs.localStep h (fun v v' hv => ?_) (fun v v' hv => ?_) (fun v v' i o hv _ hrel => ?_)
    all_goals obtain rfl := Option.some.inj hv
    · rfl
    · rfl
    · cases hrel with
      | active hmem => exact .active (List.mem_of_mem_filter hmem)
      | pendingStart hmem => exact .pendingStart hmem
      | returning hcall hop hid => exact .returning hcall hop hid

/-! ## Whole runs -/

/-- A table with any rows, and workers that have claimed nothing yet. -/
def initial (now : ℚ) (rows : Uuid → Option LeaseRow) (settings : W → Settings) :
    LeaseSystem W where
  now
  rows
  used id := (rows id).isSome
  workers w := { settings := settings w }

omit [DecidableEq W] in
theorem initial_inv (now : ℚ) (rows : Uuid → Option LeaseRow) (settings : W → Settings) :
    (initial now rows settings).Inv := by
  have hnone : ∀ w id o, ¬ ((initial now rows settings).workers w).Relies id o := by
    intro w id o h
    cases h with
    | active hmem => simp [initial] at hmem
    | pendingStart hmem => simp [initial] at hmem
    | returning hcall => simp [initial] at hcall
  exact ⟨fun w id o h => absurd h (hnone w id o), fun w id o h => absurd h (hnone w id o),
    fun w w' id o o' h => absurd h (hnone w id o), fun w id o h => absurd h (hnone w id o),
    fun w call hc => by simp [initial] at hc, fun id row hrow => Option.isSome_of_eq_some hrow⟩

/-- A recovery picks a row only after the lease stored there has ended. -/
theorem lease_lt_of_recovered {s s' : LeaseSystem W} {w : W} {ids : List Uuid} {txNow start : ℚ}
    (hc : (s.workers w).call = some ⟨.recover, start, none⟩)
    (h : s.step (.effect w ids txNow) = some s') {id : Uuid} (hid : id ∈ ids) :
    ∃ row lease, s.rows id = some row ∧ lease ∈ row.leaseExpiresAt ∧ lease < txNow := by
  simp only [LeaseSystem.step, hc] at h
  split_ifs at h with hcond
  obtain ⟨row, hrow, hstale⟩ := (Option.any_eq_true _ _).1 (hcond.2.2.2 id hid)
  simp only [LeaseRow.stale, Bool.and_eq_true] at hstale
  obtain ⟨lease, hlease, hlt⟩ := (Option.any_eq_true _ _).1 hstale.2
  exact ⟨row, lease, hrow, hlease, by simpa using hlt⟩

/-- **Recovery never takes a job its owner considers safe.** After every run, the row of an
active job stores a lease that lasts at least `lease_duration_seconds` past the last heartbeat;
and when a recovery by any worker marks the row failed, its `now()` is later than that, past the
owner's own unsafe instant by more than the safety margin. -/
theorem lease_covers_heartbeat (now : ℚ) (rows : Uuid → Option LeaseRow) (settings : W → Settings)
    (events : List (LeaseEvent W)) (s : LeaseSystem W)
    (h : exec step (initial now rows settings) events = some s) :
    (∀ w, ∀ job ∈ (s.workers w).active, ∀ row, s.rows job.id = some row →
      ∃ lease ∈ row.leaseExpiresAt,
        job.lastHeartbeatAt + (s.workers w).settings.leaseDurationSeconds ≤ lease) ∧
    ∀ w' start ids txNow s', (s.workers w').call = some ⟨.recover, start, none⟩ →
      s.step (.effect w' ids txNow) = some s' →
      ∀ w, ∀ job ∈ (s.workers w).active, job.id ∈ ids →
        job.lastHeartbeatAt + (s.workers w).settings.leaseDurationSeconds < txNow ∧
        unsafeAt (s.workers w).settings job.lastHeartbeatAt +
          (s.workers w).settings.leaseSafetyMarginSeconds < txNow := by
  have hs : s.Inv := exec_invariant (fun _ _ _ hs h => Inv.step hs h)
    (initial_inv now rows settings) h
  have hcover : ∀ w, ∀ job ∈ (s.workers w).active, ∀ row, s.rows job.id = some row →
      ∃ lease ∈ row.leaseExpiresAt,
        job.lastHeartbeatAt + (s.workers w).settings.leaseDurationSeconds ≤ lease :=
    fun w job hjob row hrow => (hs.covered w _ _ (.active hjob) row hrow).2
  refine ⟨hcover, fun w' start ids txNow s' hc hstep w job hjob hid => ?_⟩
  obtain ⟨row, lease, hrow, hlease, hlt⟩ := lease_lt_of_recovered hc hstep hid
  obtain ⟨lease', hlease', hle⟩ := hcover w job hjob row hrow
  obtain rfl : lease = lease' := Option.some.inj (hlease.symm.trans hlease')
  have hend := hle.trans_lt hlt
  refine ⟨hend, ?_⟩
  unfold unsafeAt
  linarith

/-- Worker `false` claims a job at `1`, activates it at `3` and refreshes its lease at `6`; it is
never heard of again, and worker `true` looks for stale leases at `40`. -/
def abandoned : List (LeaseEvent Bool) :=
  [.submit (.ofDigit 0) "alpha", .advance 1, .begin false .claim, .advance 1,
    .effect false [.ofDigit 0] 2, .advance 1, .returned false [.ofDigit 0],
    .activate false (.spawned (.ofDigit 0)), .advance 3, .begin false .refresh,
    .effect false [.ofDigit 0] 6, .returned false [], .advance 34, .begin true .recover]

/-- The abandoned job is recovered at `40`, after `6 + 30`. -/
theorem lease_covers_heartbeat_abandoned :
    ∃ s : LeaseSystem Bool, exec step (initial 0 (fun _ => none) fun _ => .alpha) abandoned = some s ∧
      (∃ s', s.step (.effect true [.ofDigit 0] 40) = some s') ∧
      ∃ job ∈ (s.workers false).active, job.lastHeartbeatAt = 6 ∧
        job.lastHeartbeatAt + (s.workers false).settings.leaseDurationSeconds < 40 := by
  have hrun : (exec step (initial 0 (fun _ => none) fun _ => .alpha) abandoned).any (fun s =>
      ((s.workers true).call.any fun c => c.op = .recover ∧ c.start = 40 ∧ c.effect = none) &&
      (s.step (.effect true [.ofDigit 0] 40)).isSome &&
      (s.workers false).active.any fun job =>
        job.id = .ofDigit 0 ∧ job.lastHeartbeatAt = 6) = true := by
    decide +kernel
  obtain ⟨s, hs, hall⟩ := (Option.any_eq_true _ _).1 hrun
  simp only [Bool.and_eq_true, List.any_eq_true, Option.any_eq_true, decide_eq_true_eq] at hall
  obtain ⟨⟨⟨⟨op, start, eff⟩, hc, rfl, -, rfl⟩, hstep⟩, job, hjob, hid, hlhb⟩ := hall
  obtain ⟨s', hs'⟩ := Option.isSome_iff_exists.1 hstep
  have hmain := lease_covers_heartbeat 0 (fun _ => none) (fun _ => .alpha) abandoned s hs
  exact ⟨s, hs, ⟨s', hs'⟩, job, hjob, hlhb,
    (hmain.2 true start _ 40 s' hc hs' false job hjob (by simp [hid])).1⟩

end LeaseSystem

end Lubko.Worker
