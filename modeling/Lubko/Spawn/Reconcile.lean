import Lubko.Spawn.Retirement

/-!
# The cycle of the daemon

`reconcile`, its start and its end, put together from the parts. Before a cycle derives anything it
may replace its own image; a desired intent that is newer than the applied one is applied first; then
a worker that is gone is recorded, and one that is missing is spawned under the consumer lock.

* `keeps_ensureWorker` — the decision under the consumer lock.
* `keeps_reconcile`, `keeps_startup`, `keeps_shutdown` — every program of the daemon.
-/

namespace Lubko.Spawn

open Lubko.Lib Lubko.Supervise Lubko.Authority Lubko.Lifecycle Lubko.Deploy
open Lubko.Supervise.Recovery (Maintenance)

/-! ## The code -/

section Code

variable (settings : Settings) (turns : Turns)

/-- `_gate_db_spawn`. -/
def gateDbSpawn : Code Bool := do
  match (← attributes).memNextAttemptAt with
  | none => return true
  | some moment => return !decide ((← clock) < moment)

/-- `_ensure_consumer_locked`. -/
def ensureConsumerLocked (commit : PyStr) : Code Unit := do
  if !(← confirmAuthority) then return ()
  if !(← gateDbSpawn) then return ()
  if !(← resolveSpawningObligation settings turns) then return ()
  if !(← resolveUnresolvedChild settings turns) then return ()
  if !(← reconcileDbWorker commit) then return ()
  if (← dbWorkerRunning commit) = some false then spawnAndPublish settings turns commit

/-- `except ConsumerLockTimeoutError`. -/
def deferring (exc : Exc) : Code Unit :=
  if exc = .consumerLockTimeoutError then .ret () else .raise exc

/-- `_ensure_worker`. -/
def ensureWorker (commit : PyStr) : Code Unit :=
  tryCatch (do
    consumerLock
    ensureConsumerLocked settings turns commit)
    deferring

/-- The publication of `_apply_desired` when it cannot go on. -/
def deferDesired : Code Unit := do
  let now ← clock
  let state ← readState
  let backoff ← backoffSeconds settings state.restartCount
  let _ ← maintain (.attemptDeferred (now + backoff)) state

/-- `preserve_readiness`. -/
def preserveReadiness (current : SupervisorState) (desired : SupervisorDesired)
    (alreadyRunning : Bool) : Code Bool :=
  if alreadyRunning ∧ current.commit = some desired.commit then childAlive current
  else return false

/-- The end of `_apply_desired`. -/
def recordApplied (desired : SupervisorDesired) (alreadyRunning : Bool) : Code Unit := do
  let current ← readState
  let preserved ← preserveReadiness current desired alreadyRunning
  if ← maintain (.desiredApplied desired.generation desired.commit preserved) current then
    if !alreadyRunning then ensureWorker settings turns desired.commit

/-- `_apply_desired`. -/
def applyDesired (desired : SupervisorDesired) : Code Unit := do
  if desired.commit.isEmpty then return ()
  match ← dbWorkerRunning desired.commit with
  | none => return ()
  | some running =>
    if running ∧ desired.restart = false then recordApplied settings turns desired true
    else
      if !(← whether .runtimeSatisfies) then deferDesired settings
      else if ← retireChild false then recordApplied settings turns desired false
      else deferDesired settings

/-- `_apply_newer_desired`. -/
def applyNewerDesired (state : SupervisorState) (commit : PyStr) : Code Bool := do
  match (← ask (.ask .readDesiredStrict)).desired with
  | .malformed =>
    if (← ask (.ask .confirmedRuntime)).current = some commit then return false
    ensureHeld
    return true
  | .absent => return false
  | .holds desired =>
    if commit = desired.commit ∧ state.appliedGeneration < desired.generation then
      applyDesired settings turns desired
      return true
    else return false

/-- `_record_mission_progress`. -/
def recordMissionProgress (commit : PyStr) : Code Unit := do
  match (← ask (.ask .readDesiredStrict)).desired.generation SupervisorDesired.generation with
  | none => return ()
  | some desiredGen =>
    match (← ask (.ask .readRollbackState)).mission with
    | .holds mission =>
      if mission.status ≠ .pending ∨ mission.commit ≠ commit ∨ mission.generation < desiredGen then
        return ()
      let current ← readState
      if current.commit = some commit ∧ current.appliedGeneration < mission.generation then
        if ← childAlive current then
          let _ ← maintain (.missionProgress mission.generation) current
    | _ => return ()

/-- `_retire_child_for_absent_forward_progress`. -/
def retireForAbsentProgress (now : ℚ) : Code Unit := do
  if ← retireChild false then recordHealthRetirement settings now

/-- `_probe_readiness`. -/
def probeReadiness (now : ℚ) : Code Unit := do
  let state ← readState
  if !(← childAlive state) then return ()
  let notReady := maintain (.notReady (now + settings.readinessIntervalSeconds)) state
  let found := (← ask (.ask .readiness)).readiness
  if state.ready then
    match found with
    | .ready => return ()
    | .unsafeWorker =>
      let _ ← retireChild false
    | .noProgress => retireForAbsentProgress settings now
    | .notReady =>
      let _ ← notReady
  else
    if state.nextReadinessAt.any (now < ·) then return ()
    match found with
    | .ready =>
      let _ ← maintain .provenReady state
    | .noProgress => retireForAbsentProgress settings now
    | _ =>
      let _ ← notReady

/-- `_maybe_handoff_to_new_supervisor`. -/
def maybeHandoff : Code Unit := do
  if ← whether .handoff then
    if (← ask .execve).yes then throw .replaced

/-- What `reconcile` makes of the recorded child; whether it goes on. -/
def settleChild (state : SupervisorState) (now : ℚ) : Code Bool := do
  let settled : Code Bool := do
    if ← dbCrashBlocks settings now then return false
    maybeResetBackoff settings state now
    return true
  match state.child with
  | none => settled
  | some child =>
    if ← childAlive state then settled
    else if ← workerAlive child.pid child.startTimeTicks then return true
    else if state.intent ≠ .run then
      clearChild
      return true
    else
      handleCrash settings state now
      return !(← inBackoff now)

/-- `reconcile`, from its derivation on. -/
def reconcileFrom (state : SupervisorState) (action : Action) (now : ℚ) : Code Unit := do
  if !(← settleChild settings state now) then return ()
  match action with
  | .hold => ensureHeld
  | .run commit =>
    if ← inBackoff now then return ()
    ensureWorker settings turns commit
    recordMissionProgress commit
    probeReadiness settings now

/-- `reconcile`. -/
def reconcile (now : ℚ) : Code Unit := do
  let state ← readState
  if state.ownershipHoldMalformed then
    let _ ← maintain .holdMaterialized state
  else
    maybeHandoff
    let action := (← ask (.ask .intent)).action
    match action with
    | .hold => reconcileFrom settings turns state action now
    | .run commit =>
      if ← applyNewerDesired settings turns state commit then return ()
      reconcileFrom settings turns state action now

/-- `_persist_runtime_commit`. -/
def persistRuntimeCommit : Code Unit := do
  let state ← readState
  let commit := (← ask (.ask .runtimeCommit)).current
  match (Maintenance.runtimeCommit commit).snapshot state with
  | none => return ()
  | some target => writeStatePreservingAuthority target

/-- `normalize_cross_boot_state`. -/
def normalizeCrossBootState : Code Unit := do
  let state ← readState
  let bootId ← currentBootId
  let _ ← maintain (.normalized bootId) state

/-- What `run` does before its loop. -/
def startup : Code Unit := do
  persistRuntimeCommit
  normalizeCrossBootState

/-- `_shutdown_locked`. -/
def shutdownLocked : Code Unit := do
  if (← readState).child.isSome then
    let _ ← retireChild true
  if let some (some record) := ← readWorkerAuthority then
    let _ ← retireDbWorker record
  let _ ← resolveSpawningObligation settings turns
  let _ ← resolveUnresolvedChild settings turns

/-- `_shutdown`. -/
def shutdown : Code Unit :=
  tryCatch (do
    consumerLock
    shutdownLocked settings turns)
    deferring

end Code

/-! ## Every program keeps the invariant -/

variable {w w' : World} {gone : List Spawned} {settings : Settings} {turns : Turns} {commit : PyStr}
  {now : ℚ}

/-- A section of the consumer lock, left out when the lock does not come. -/
theorem keeps_section {code : Code Unit} (h : w.Inv) (hcode : ∀ {v}, v.Inv → Keeps code v) :
    Keeps (tryCatch (do consumerLock; code) deferring) w := by
  have hbody : Keeps (do consumerLock; code) w :=
    .bind (ensures_consumerLock h) fun _ _ hinv _ => hcode hinv
  refine .tryCatch (Prog.Relies.mono hbody (fun _ _ hQ => hQ) fun e _ he => ?_)
  rw [deferring]
  split
  · exact ⟨he, trivial⟩
  · exact he

theorem keeps_gateDbSpawn (h : w.Inv) : Keeps gateDbSpawn w := by
  refine .bind (ensures_attributes h) ?_
  rintro _ _ hinv ⟨-, rfl⟩
  dsimp only
  split
  · exact .ret hinv trivial
  · exact .bind (ensures_clock hinv) fun _ _ hinv _ => .ret hinv trivial

theorem keeps_ensureConsumerLocked (h : w.Inv) :
    Keeps (ensureConsumerLocked settings turns commit) w := by
  refine .bind (ensures_confirmAuthority h) ?_
  rintro confirmed _ hinv -
  cases confirmed with
  | false => exact .ret hinv trivial
  | true =>
    refine .bind (keeps_gateDbSpawn hinv) ?_
    rintro open_ _ hinv -
    cases open_ with
    | false => exact .ret hinv trivial
    | true =>
      refine .bind (keeps_resolveSpawningObligation hinv) ?_
      rintro resolved _ hinv -
      cases resolved with
      | false => exact .ret hinv trivial
      | true =>
        refine .bind (keeps_resolveUnresolvedChild hinv) ?_
        rintro released _ hinv -
        cases released with
        | false => exact .ret hinv trivial
        | true =>
          refine .bind (keeps_reconcileDbWorker commit hinv) ?_
          rintro retired _ hinv -
          cases retired with
          | false => exact .ret hinv trivial
          | true =>
            refine .bind (ensures_dbWorkerRunning commit hinv) ?_
            rintro running _ hinv -
            split
            · exact keeps_spawnAndPublish hinv
            · exact .ret hinv trivial

/-- **The decision under the consumer lock.** -/
theorem keeps_ensureWorker (h : w.Inv) : Keeps (ensureWorker settings turns commit) w :=
  keeps_section h keeps_ensureConsumerLocked

theorem keeps_deferDesired (h : w.Inv) : Keeps (deferDesired settings) w := by
  refine .bind (ensures_clock h) ?_
  rintro moment _ hinv -
  refine .bind (ensures_readState hinv) ?_
  rintro _ _ hinv ⟨⟨gone, rfl⟩, rfl⟩
  refine .bind (ensures_backoffSeconds _ _ hinv) ?_
  rintro backoff _ hinv rfl
  exact .bind (ensures_maintain hinv hinv.cached) fun _ _ hinv _ => .ret hinv trivial

theorem ensures_preserveReadiness {current : SupervisorState} {desired : SupervisorDesired}
    {alreadyRunning : Bool} (h : w.Inv) :
    Ensures (preserveReadiness current desired alreadyRunning) (fun _ w' => w.Later w') w := by
  rw [preserveReadiness]
  split
  · exact (ensures_childAlive current h).mono fun _ _ _ hlook => hlook.1
  · exact .ret h (.refl w)

theorem keeps_recordApplied {desired : SupervisorDesired} {alreadyRunning : Bool} (h : w.Inv) :
    Keeps (recordApplied settings turns desired alreadyRunning) w := by
  refine .bind (ensures_readState h) ?_
  rintro _ _ hinv ⟨⟨gone, rfl⟩, rfl⟩
  refine .bind (ensures_preserveReadiness hinv) ?_
  intro preserved _ hinv' hlook
  refine .bind (ensures_maintain hinv' (hlook.beside.cached hinv' hinv.cached)) ?_
  rintro applied _ hinv -
  cases applied with
  | false => exact .ret hinv trivial
  | true =>
    cases alreadyRunning with
    | true => exact .ret hinv trivial
    | false => exact keeps_ensureWorker hinv

theorem keeps_applyDesired {desired : SupervisorDesired} (h : w.Inv) :
    Keeps (applyDesired settings turns desired) w := by
  rw [applyDesired]
  split
  · exact .ret h trivial
  · refine .bind (ensures_dbWorkerRunning _ h) ?_
    rintro running _ hinv -
    cases running with
    | none => exact .ret hinv trivial
    | some running =>
      dsimp only
      split
      · exact keeps_recordApplied hinv
      · refine .bind (ensures_whether _ hinv) ?_
        rintro launchable _ hinv -
        cases launchable with
        | false => exact keeps_deferDesired hinv
        | true =>
          refine .bind (ensures_retireChild false hinv) ?_
          rintro retired _ hinv -
          cases retired with
          | true => exact keeps_recordApplied hinv
          | false => exact keeps_deferDesired hinv

/-- An answer that changes nothing. -/
theorem ensures_answer (q : Question) (h : w.Inv) :
    Ensures (ask (.ask q)) (fun _ w' => w.Later w') w :=
  ensures_ask h trivial fun _ o => ⟨h.lose, o.exits, rfl⟩

/-- Where nothing newer is applied, nothing changes. -/
theorem ensures_applyNewerDesired {state : SupervisorState} (h : w.Inv) :
    Ensures (applyNewerDesired settings turns state commit) (fun b w' => b = false → w.Later w')
      w := by
  refine .bind (ensures_answer _ h) ?_
  intro answer _ hinv hlook
  cases answer.desired with
  | absent => exact .ret hinv fun _ => hlook
  | malformed =>
    refine .bind (ensures_answer _ hinv) ?_
    intro confirmed _ hinv hlook'
    split
    · exact .ret hinv fun _ => hlook.trans hlook'
    · exact .bind (keeps_ensureHeld hinv) fun _ _ hinv _ => .ret hinv fun hb => by cases hb
  | holds desired =>
    dsimp only
    split
    · exact .bind (keeps_applyDesired hinv) fun _ _ hinv _ => .ret hinv fun hb => by cases hb
    · exact .ret hinv fun _ => hlook

theorem keeps_recordMissionProgress (h : w.Inv) : Keeps (recordMissionProgress commit) w := by
  refine .bind (ensures_answer _ h) ?_
  rintro answer _ hinv -
  split
  · exact .ret hinv trivial
  · refine .bind (ensures_answer _ hinv) ?_
    rintro answer _ hinv -
    split
    · rename_i mission _
      split
      · exact .ret hinv trivial
      · refine .bind (ensures_readState hinv) ?_
        rintro _ _ hinv ⟨⟨gone, rfl⟩, rfl⟩
        split
        · refine .bind (ensures_childAlive _ hinv) ?_
          rintro alive _ hinv' ⟨hlook, -⟩
          cases alive with
          | false => exact .ret hinv' trivial
          | true =>
            exact .bind (ensures_maintain hinv' (hlook.beside.cached hinv' hinv.cached))
              fun _ _ hinv _ => .ret hinv trivial
        · exact .ret hinv trivial
    · exact .ret hinv trivial

theorem keeps_retireForAbsentProgress (h : w.Inv) (hchild : w.file.child ≠ none) :
    Keeps (retireForAbsentProgress settings now) w := by
  refine .bind (ensures_retireChild false h) ?_
  intro retired _ hinv hproc
  cases retired with
  | false => exact .ret hinv trivial
  | true => exact keeps_recordHealthRetirement hinv (hproc rfl hchild)

theorem keeps_probeReadiness (h : w.Inv) : Keeps (probeReadiness settings now) w := by
  refine .bind (ensures_readState h) ?_
  rintro _ _ hinv ⟨⟨gone, rfl⟩, rfl⟩
  refine .bind (ensures_childAlive _ hinv) ?_
  rintro alive _ hinv' ⟨hlook, hchild⟩
  cases alive with
  | false => exact .ret hinv' trivial
  | true =>
    refine .bind (ensures_answer _ hinv') ?_
    rintro answer w₁ hinv₁ hlook'
    have hlater := hlook.trans hlook'
    have hmaintain : ∀ m, Keeps (do let _ ← maintain m w.file) w₁ := fun m =>
      .bind (ensures_maintain hinv₁ (hlater.beside.cached hinv₁ hinv.cached)) fun _ _ hinv _ =>
        .ret hinv trivial
    have hretire : Keeps (retireForAbsentProgress settings now) w₁ := by
      refine keeps_retireForAbsentProgress hinv₁ ?_
      rw [hlater.file]
      exact hchild rfl
    dsimp only
    split
    · split
      · exact .ret hinv₁ trivial
      · exact .bind (ensures_retireChild false hinv₁) fun _ _ hinv _ => .ret hinv trivial
      · exact hretire
      · exact hmaintain _
    · split
      · exact .ret hinv₁ trivial
      · split
        · exact hmaintain _
        · exact hretire
        · exact hmaintain _

/-- **Another image.** What the memory forgets was settled before. -/
theorem World.Inv.exec (h : w.Inv) (hsettled : Settled none w) :
    ({ w with proc := none, activeChild := none, memNextAttemptAt := none } : World).Inv :=
  { h with
    handled := fun x hx _ => by
      refine ⟨rfl, ?_, fun hnames => ?_⟩
      · by_cases hproc : w.proc = some x
        · exact (hsettled x hx hproc).1
        · exact (h.handled x hx hproc).2.1
      · obtain ⟨c, hc, -⟩ := hnames
        cases hc
    active := fun c hc => by cases hc
    active_drawn := fun c hc => by cases hc
    cached :=
      { h.cached with
        handled := fun x hx _ => by
          by_cases hproc : w.proc = some x
          · exact (hsettled x hx hproc).2.2
          · exact h.cached.handled x hx hproc } }

theorem Settled.lose {child : Option WorkerChild} (h : Settled child w) :
    Settled child (w.lose gone) :=
  fun x hx => h x (World.mem_live_of_lose hx)

theorem ensures_maybeHandoff (h : w.Inv) : Ensures maybeHandoff (fun _ w' => w.Later w') w := by
  refine .bind (ensures_whether _ h) ?_
  rintro due _ hinv hlook
  cases due with
  | false => exact .ret hinv hlook
  | true =>
    refine .bind (ensures_ask (Q := fun r w' => r.yes = false → w.Later w') hinv trivial
      fun hsettled o => ?_) ?_
    · obtain ⟨gone, rfl⟩ := hlook
      have hinv : ((w.lose gone).lose o.exits).Inv := hinv.lose
      have hsem : sem .execve o (w.lose gone) =
          if o.yes then ({ yes := true }, { (w.lose gone).lose o.exits with
            proc := none, activeChild := none, memNextAttemptAt := none })
          else ({}, (w.lose gone).lose o.exits) := rfl
      rw [hsem]
      split
      · exact ⟨hinv.exec (Settled.lose hsettled), fun hyes => by cases hyes⟩
      · exact ⟨hinv, fun _ => ⟨_, World.lose_lose _ _ _⟩⟩
    · intro r _ hinv hlater
      split
      · exact .raise hinv
      · rename_i hyes
        exact .ret hinv (hlater (by simpa using hyes))

theorem keeps_settleChild {state : SupervisorState} (h : w.Inv)
    (hs : w.Cached w.file.spawning state.child) : Keeps (settleChild settings state now) w := by
  have hsettled : ∀ {v : World}, v.Inv → v.Cached v.file.spawning state.child → Keeps (do
      if ← dbCrashBlocks settings now then return false
      maybeResetBackoff settings state now
      return true) v := by
    intro v hinv hs
    refine .bind (ensures_dbCrashBlocks hinv) ?_
    intro blocks _ hinv hbeside
    cases blocks with
    | true => exact .ret hinv trivial
    | false =>
      exact .bind (keeps_maybeResetBackoff hinv (hbeside.cached hinv hs)) fun _ _ hinv _ =>
        .ret hinv trivial
  rw [settleChild]
  split
  · exact hsettled h hs
  · refine .bind (ensures_childAlive state h) ?_
    rintro alive _ hinv ⟨hlook, -⟩
    have hs := hlook.beside.cached hinv hs
    cases alive with
    | true => exact hsettled hinv hs
    | false =>
      refine .bind (ensures_workerAlive _ _ hinv) ?_
      rintro reparented _ hinv ⟨hlook, -⟩
      have hs := hlook.beside.cached hinv hs
      cases reparented with
      | true => exact .ret hinv trivial
      | false =>
        simp only [Bool.false_eq_true, if_false]
        split
        · exact .bind (keeps_clearChild hinv) fun _ _ hinv _ => .ret hinv trivial
        · refine .bind (keeps_handleCrash hinv hs) ?_
          rintro _ _ hinv -
          exact .bind (ensures_inBackoff now hinv) fun _ _ hinv _ => .ret hinv trivial

theorem keeps_reconcileFrom {state : SupervisorState} {action : Action} (h : w.Inv)
    (hs : w.Cached w.file.spawning state.child) :
    Keeps (reconcileFrom settings turns state action now) w := by
  refine .bind (keeps_settleChild h hs) ?_
  rintro goes _ hinv -
  cases goes with
  | false => exact .ret hinv trivial
  | true =>
    cases action with
    | hold => exact keeps_ensureHeld hinv
    | run commit =>
      refine .bind (ensures_inBackoff now hinv) ?_
      rintro waits _ hinv -
      cases waits with
      | true => exact .ret hinv trivial
      | false =>
        refine .bind (keeps_ensureWorker hinv) ?_
        rintro _ _ hinv -
        refine .bind (keeps_recordMissionProgress hinv) ?_
        rintro _ _ hinv -
        exact keeps_probeReadiness hinv

/-- **A cycle.** -/
theorem keeps_reconcile (h : w.Inv) : Keeps (reconcile settings turns now) w := by
  refine .bind (ensures_readState h) ?_
  rintro _ _ hinv ⟨⟨gone, rfl⟩, rfl⟩
  split
  · exact .bind (ensures_maintain hinv hinv.cached) fun _ _ hinv _ => .ret hinv trivial
  · refine .bind (ensures_maybeHandoff hinv) ?_
    intro _ _ hinv₁ hlook
    refine .bind (ensures_answer _ hinv₁) ?_
    intro answer w₁ hinv₂ hlook'
    have hlater := hlook.trans hlook'
    have hs := hlater.beside.cached hinv₂ hinv.cached
    dsimp only
    cases answer.action with
    | hold => exact keeps_reconcileFrom hinv₂ hs
    | run commit =>
      refine .bind (ensures_applyNewerDesired hinv₂) ?_
      intro applied _ hinv₃ hsame
      cases applied with
      | true => exact .ret hinv₃ trivial
      | false =>
        rw [if_neg Bool.false_ne_true]
        exact keeps_reconcileFrom hinv₃ ((hsame rfl).beside.cached hinv₃ hs)

theorem keeps_persistRuntimeCommit (h : w.Inv) : Keeps persistRuntimeCommit w := by
  refine .bind (ensures_readState h) ?_
  rintro _ _ hinv ⟨⟨gone, rfl⟩, rfl⟩
  refine .bind (ensures_answer _ hinv) ?_
  rintro answer _ hinv ⟨gone', rfl⟩
  dsimp only
  split
  · exact .ret hinv trivial
  · rename_i target hsnapshot
    have hs : ((w.lose gone).lose gone').Cached w.file.spawning target.child := by
      rcases snapshot_child hsnapshot with heq | heq <;> rw [heq]
      · exact hinv.cached
      · exact hinv.cached.no_child
    exact (writeStatePreservingAuthority_relies hinv hs).mono
      (fun _ _ hQ => ⟨hQ.1, trivial⟩) fun _ _ he => he.1

theorem keeps_normalizeCrossBootState (h : w.Inv) : Keeps normalizeCrossBootState w := by
  refine .bind (ensures_readState h) ?_
  rintro _ _ hinv ⟨⟨gone, rfl⟩, rfl⟩
  refine .bind (ensures_currentBootId hinv) ?_
  rintro bootId _ hinv ⟨⟨gone', rfl⟩, -⟩
  exact .bind (ensures_maintain hinv hinv.cached) fun _ _ hinv _ => .ret hinv trivial

theorem keeps_startup (h : w.Inv) : Keeps startup w :=
  .bind (keeps_persistRuntimeCommit h) fun _ _ hinv _ => keeps_normalizeCrossBootState hinv

theorem keeps_shutdownLocked (h : w.Inv) : Keeps (shutdownLocked settings turns) w := by
  have hresolves : ∀ {v : World}, v.Inv → Keeps (do
      let _ ← resolveSpawningObligation settings turns
      let _ ← resolveUnresolvedChild settings turns) v := by
    intro v hinv
    refine .bind (keeps_resolveSpawningObligation hinv) ?_
    rintro _ _ hinv -
    exact .bind (keeps_resolveUnresolvedChild hinv) fun _ _ hinv _ => .ret hinv trivial
  have hworker : ∀ {v : World}, v.Inv → Keeps (do
      if let some (some record) := ← readWorkerAuthority then
        let _ ← retireDbWorker record
      let _ ← resolveSpawningObligation settings turns
      let _ ← resolveUnresolvedChild settings turns) v := by
    intro v hinv
    refine .bind (ensures_readWorkerAuthority hinv) ?_
    rintro answer _ hinv ⟨⟨gone, rfl⟩, hrecord⟩
    split
    · rename_i record
      exact .bind (keeps_retireDbWorker hinv (hrecord _ rfl).symm) fun _ _ hinv _ => hresolves hinv
    · exact hresolves hinv
  refine .bind (ensures_readState h) ?_
  rintro state _ hinv -
  split
  · exact .bind (ensures_retireChild true hinv) fun _ _ hinv _ => hworker hinv
  · exact hworker hinv

theorem keeps_shutdown (h : w.Inv) : Keeps (shutdown settings turns) w :=
  keeps_section h keeps_shutdownLocked

end Lubko.Spawn
