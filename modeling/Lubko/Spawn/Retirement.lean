import Lubko.Deploy.Restart
import Lubko.Spawn.Publication

/-!
# A worker is retired, or found dead

The daemon has two records of its worker, the row's and the cached child. A published worker is
retired by the row's record; a cached child is retired when the row names exactly it, forgotten, or
recorded as crashed. The last two give up the handle on the word of the cache alone.

* `retireDbWorker`, `retireChild`, `handleDbCrash` — they clear what the row says only of the dead.
* `clearChild`, `handleCrash` — they rely on their caller.
-/

namespace Lubko.Spawn

open Lubko.Lib Lubko.Supervise Lubko.Authority Lubko.Lifecycle
open Lubko.Deploy.Restart (dbRecordMatchesChild)
open Lubko.Supervise.Recovery (Maintenance)

/-! ## The code -/

section Code

variable (settings : Settings)

/-- A publication through `_write_state_authority_safe`, made of a snapshot. -/
def maintain (m : Maintenance) (state : SupervisorState) : Code Bool :=
  match m.snapshot state with
  | none => return true
  | some target => writeStateAuthoritySafe target

/-- `_active_worker_live`. -/
def activeWorkerLive : Code Bool := do
  let self ← attributes
  match self.activeChild, self.proc with
  | some child, some proc =>
    if proc.pid ≠ child.pid then return false
    if ← exited proc then return false
    return (← procStartTicks child.pid) = some child.startTimeTicks
  | _, _ => return false

/-- `self._active_child = None`, when it has the token. -/
def dropActiveChild (token : PyStr) : Code Unit := do
  if (← attributes).activeChild.any (·.token = token) then setActiveChild none

/-- `token and drain_sentinel_matches(token)`. -/
def drained (token : PyStr) : Code Bool :=
  if token.isEmpty then return false else whether (.drainSentinelMatches token)

/-- The groups of a token are gone: a drain shows it, or they are recovered. -/
def groupsRecovered (token : PyStr) : Code Bool := do
  if ← drained token then return true
  recoverSpawnOwnedGroups token

/-- The wait for the process of the handle, which is given up. -/
def reap (site : Site) : Code Unit := do
  match (← attributes).proc with
  | none => return ()
  | some proc =>
    let _ ← waited proc
    forget site

/-- `_retire_db_worker`, once the worker does not run. -/
def clearDbWorker (record : WorkerRecord) : Code Bool := do
  if !(← groupsRecovered record.token) then return false
  if !(← clearWorkerAuthority record.token) then return false
  dropActiveChild record.token
  return true

/-- `_retire_db_worker`. -/
def retireDbWorker (record : WorkerRecord) : Code Bool := do
  if ← workerAlive record.pid record.startTimeTicks then
    if !(← stopWorker record.pid record.startTimeTicks) then return false
  clearDbWorker record

/-- `_reconcile_db_worker`. -/
def reconcileDbWorker (commit : PyStr) : Code Bool := do
  match ← readWorkerAuthority with
  | none => return false
  | some none => return true
  | some (some record) =>
    if (← attributes).activeChild.any (·.token = record.token) ∧ record.commit = commit then
      if ← activeWorkerLive then return true
    retireDbWorker record

/-- `_db_worker_running`; `none` when the row cannot be read. -/
def dbWorkerRunning (commit : PyStr) : Code (Option Bool) := do
  match ← readWorkerAuthority with
  | none => return none
  | some none => return some false
  | some (some record) =>
    if (← attributes).activeChild.any (·.token = record.token) ∧ record.commit = commit then
      return some (← activeWorkerLive)
    else return some false

/-- `except (OSError, DurabilityError, ConsumerLockTimeoutError)`. -/
def droppingAll (exc : Exc) : Code Unit :=
  if exc = .osError ∨ exc = .durabilityError ∨ exc = .consumerLockTimeoutError then .ret ()
  else .raise exc

/-- `_handle_db_crash`; the handle is gone when its return code is asked for. -/
def handleDbCrash (now : ℚ) : Code Unit := do
  match (← attributes).activeChild with
  | none => return ()
  | some child =>
    if !(← recoverSpawnOwnedGroups child.token) then return ()
    if !(← clearWorkerAuthority child.token) then return ()
    setActiveChild none
    reap .handleDbCrash
    let backoff ← backoffSeconds settings ((← readState).restartCount + 1)
    setMemNextAttemptAt (some (now + backoff))
    let state ← readState
    let count := (← readState).restartCount
    let moment ← clock
    tryCatch (do
      let _ ← maintain (.dbCrashRecorded (count + 1) ⟨none, moment⟩ (now + backoff)) state)
      droppingAll

/-- `_db_crash_blocks`. -/
def dbCrashBlocks (now : ℚ) : Code Bool := do
  if (← attributes).activeChild.isNone then return false
  if ← activeWorkerLive then return false
  handleDbCrash settings now
  if (← attributes).memNextAttemptAt.any (now < ·) then return true
  inBackoff now

/-- The stop of the child in `_retire_child`, which a live one has to be authorized for. -/
def stopChild (child : WorkerChild) : Code Bool := do
  if ← workerAlive child.pid child.startTimeTicks then
    if !authorizeRetirement (← reconcileAuthorityFacts) then return false
  stopWorker child.pid child.startTimeTicks

/-- The owned groups are recovered unless a drain shows them gone. -/
def recoverUnlessDrained (token : PyStr) : Code Unit := do
  if ← drained token then return () else recoverOwnedGroups token

/-- The write in `_retire_child`. -/
def publishRetired (state : SupervisorState) (authorityLocked : Bool) : Code Bool :=
  if authorityLocked then do
    let state ← readState
    writeState { state with child := none, ready := false, nextReadinessAt := none }
    return true
  else maintain .childRetired state

/-- `_retire_child`, once the child is stopped. -/
def forgetChild (state : SupervisorState) (child : WorkerChild) (authorityLocked : Bool) :
    Code Bool := do
  recoverUnlessDrained child.token
  reap .retireChild
  if !(← publishRetired state authorityLocked) then return false
  dropActiveChild child.token
  return true

/-- `_retire_child`. -/
def retireChild (authorityLocked : Bool) : Code Bool := do
  let state ← readState
  match state.child with
  | none => return true
  | some child =>
    if !(← confirmAuthority) then return false
    match ← readWorkerAuthority with
    | none => return false
    | some record =>
      if !dbRecordMatchesChild record child state.commit then return false
      if !(← stopChild child) then return false
      forgetChild state child authorityLocked

/-- `_clear_child`. -/
def clearChild : Code Unit := do
  forget .clearChild
  if let some child := (← readState).child then dropActiveChild child.token
  let state ← readState
  let _ ← maintain .childCleared state

/-- `_child_alive`. -/
def childAlive (state : SupervisorState) : Code Bool := do
  match state.child with
  | none => return false
  | some child =>
    if !(← workerAlive child.pid child.startTimeTicks) then return false
    whether (.parentIsSelf child.pid)

/-- The groups of the recorded child, if there is one, are gone. -/
def childGroupsRecovered (state : SupervisorState) : Code Bool :=
  match state.child with
  | none => return true
  | some child => groupsRecovered child.token

/-- `_handle_crash`. -/
def handleCrash (state : SupervisorState) (now : ℚ) : Code Unit := do
  let returncode := (← ask (.ask .returncode)).ticks
  let recovered ← childGroupsRecovered state
  let backoff ← backoffSeconds settings (state.restartCount + 1)
  let moment ← clock
  if !recovered then
    let _ ← maintain (.crashHeld ⟨returncode, moment⟩ (now + backoff)) state
  else
    if ← maintain (.crashRecorded ⟨returncode, moment⟩ (now + backoff)) state then
      forget .handleCrash
      match state.child with
      | none => return ()
      | some child => dropActiveChild child.token

/-- `_record_health_retirement`. -/
def recordHealthRetirement (now : ℚ) : Code Unit := do
  let state ← readState
  let backoff ← backoffSeconds settings (state.restartCount + 1)
  if ← maintain (.healthRetirement (now + backoff)) state then forget .healthRetirement

/-- `_ensure_held`. -/
def ensureHeld : Code Unit := do
  if (← readState).child.isSome then
    let _ ← retireChild false

/-- `_maybe_reset_backoff`. -/
def maybeResetBackoff (state : SupervisorState) (now : ℚ) : Code Unit := do
  if state.restartCount = 0 ∧ state.nextAttemptAt = none then return ()
  if !(← childAlive state) then return ()
  if state.lastSpawnAt.all fun lastSpawn => now - lastSpawn < settings.stableWindowSeconds then
    return ()
  let _ ← maintain .backoffReset state

end Code

/-! ## Publications and looks -/

variable {w w' : World} {gone : List Spawned} {settings : Settings}

/-- A maintenance snapshot keeps the child or drops it. -/
theorem snapshot_child {m : Maintenance} {state target : SupervisorState}
    (h : m.snapshot state = some target) : target.child = state.child ∨ target.child = none := by
  cases m <;> simp only [Maintenance.snapshot] at h <;> (try split_ifs at h) <;>
    first
    | (cases h; exact .inl rfl)
    | (cases h; exact .inr rfl)

/-- A snapshot of the state that could be published before can be published still. -/
structure World.Beside (w w' : World) : Prop where
  spawning : w'.file.spawning = w.file.spawning
  row : w.row.spawn = none → w'.row.spawn = none
  drawn : ∀ token, w.Drawn token → w'.Drawn token

theorem World.Beside.trans {w'' : World} (h : w.Beside w') (h' : w'.Beside w'') : w.Beside w'' where
  spawning := h'.spawning.trans h.spawning
  row := fun hrow => h'.row (h.row hrow)
  drawn := fun token htoken => h'.drawn token (h.drawn token htoken)

theorem World.Later.beside (h : w.Later w') : w.Beside w' := by
  obtain ⟨gone, rfl⟩ := h
  exact ⟨rfl, fun hrow => hrow, fun _ htoken => htoken⟩

theorem World.Beside.cached (h : w.Beside w') (hinv : w'.Inv) {child : Option WorkerChild}
    (hs : w.Cached w.file.spawning child) : w'.Cached w'.file.spawning child :=
  { hinv.cached with
    published := fun s hspawning hpid c hc htoken =>
      h.row (hs.published s (h.spawning ▸ hspawning) hpid c hc htoken)
    child_drawn := fun c hc => h.drawn _ (hs.child_drawn c hc) }

/-- A publication, whatever becomes of it. -/
theorem maintain_relies {m : Maintenance} {state : SupervisorState} (h : w.Inv)
    (hs : w.Cached w.file.spawning state.child) :
    (maintain m state).Relies sem Allowed Guaranteed
      (fun _ w' => w'.Inv ∧ w.Beside w' ∧ w'.proc = w.proc)
      (fun _ w' => w'.Inv ∧ w.Beside w' ∧ w'.proc = w.proc) w := by
  rw [maintain]
  split
  · exact ⟨h, (World.Later.refl w).beside, rfl⟩
  · rename_i target hsnapshot
    have hcached : w.Cached w.file.spawning target.child := by
      rcases snapshot_child hsnapshot with heq | heq <;> rw [heq]
      · exact hs
      · exact hs.no_child
    have hwrote : ∀ {w'}, Wrote w (preserveAuthority target w.file) w' →
        w.Beside w' ∧ w'.proc = w.proc := by
      rintro _ ⟨gone, rfl | rfl⟩ <;>
        exact ⟨⟨rfl, fun hrow => hrow, fun _ htoken => htoken⟩, rfl⟩
    exact (writeStateAuthoritySafe_relies h hcached).mono
      (fun _ _ hQ => ⟨hQ.1, hwrote hQ.2⟩) fun _ _ he => ⟨he.1, hwrote he.2⟩

theorem ensures_maintain {m : Maintenance} {state : SupervisorState} (h : w.Inv)
    (hs : w.Cached w.file.spawning state.child) :
    Ensures (maintain m state) (fun _ w' => w.Beside w' ∧ w'.proc = w.proc) w :=
  (maintain_relies h hs).mono (fun _ _ hQ => hQ) fun _ _ he => he.1

/-- Where the daemon's child is not its live process, none has its token. -/
theorem ensures_activeWorkerLive (h : w.Inv) :
    Ensures activeWorkerLive (fun b w' => w.Later w' ∧ (b = false →
      ∀ child ∈ w.activeChild, ∀ x ∈ w'.live, x.token ≠ child.token)) w := by
  refine .bind (ensures_attributes h) ?_
  rintro _ _ hinv ⟨⟨gone, rfl⟩, rfl⟩
  -- A live process of the token is behind the handle, for no other may be named by the memory.
  have hheld : ∀ {v : World}, (w.lose gone).Later v → ∀ child ∈ w.activeChild, ∀ x ∈ v.live,
      x.token = child.token → w.proc = some x ∧ child.pid = x.pid ∧
        child.startTimeTicks = x.startTimeTicks := by
    intro v hlater child hchild x hx htoken
    have hx := hlater.live hx
    have hactive := hinv.active child hchild x (hinv.live_made x hx) htoken
    refine ⟨?_, hactive⟩
    by_contra hproc
    exact (hinv.handled x hx hproc).2.2 ⟨child, hchild, htoken.symm⟩
  have hlater : w.Later (w.lose gone) := ⟨gone, rfl⟩
  cases hchild : w.activeChild with
  | none => exact .ret hinv ⟨hlater, fun _ child hc => by cases hc⟩
  | some child =>
    cases hproc : w.proc with
    | none =>
      refine .ret hinv ⟨hlater, fun _ c hc x hx htoken => ?_⟩
      cases hproc.symm.trans (hheld (.refl _) c (hchild ▸ hc) x hx htoken).1
    | some proc =>
      have hcase : ∀ c ∈ some child, ∀ {v : World}, (w.lose gone).Later v → ∀ x ∈ v.live,
          x.token = c.token → x = proc ∧ child.pid = proc.pid ∧
            child.startTimeTicks = proc.startTimeTicks := by
        intro c hc v hv x hx htoken
        cases hc
        obtain ⟨heq, hpid, hticks⟩ := hheld hv child hchild x hx htoken
        obtain rfl := Option.some.inj (hproc.symm.trans heq)
        exact ⟨rfl, hpid, hticks⟩
      dsimp only
      split
      · rename_i hne
        refine .ret hinv ⟨hlater, fun _ c hc x hx htoken => ?_⟩
        exact hne (hcase c hc (.refl _) x hx htoken).2.1.symm
      · refine .bind (ensures_exited proc hinv) ?_
        rintro b _ hinv ⟨hpoll, hexit⟩
        cases b with
        | true =>
          refine .ret hinv ⟨hlater.trans hpoll, fun _ c hc x hx htoken => ?_⟩
          obtain ⟨rfl, -⟩ := hcase c hc hpoll x hx htoken
          exact hexit.1 rfl hx
        | false =>
          refine .bind (ensures_procStartTicks _ hinv) ?_
          rintro ticks _ hinv ⟨hlook, -, hticks⟩
          refine .ret hinv ⟨(hlater.trans hpoll).trans hlook, fun hb c hc x hx htoken => ?_⟩
          obtain ⟨rfl, hpid, hstart⟩ := hcase c hc (hpoll.trans hlook) x hx htoken
          rw [hticks x hx hpid.symm, hstart] at hb
          simp at hb

theorem ensures_drained (token : PyStr) (h : w.Inv) :
    Ensures (drained token) (fun _ w' => w.Later w') w := by
  rw [drained]
  split
  · exact .ret h (.refl w)
  · exact ensures_whether _ h

theorem ensures_dropActiveChild (token : PyStr) (h : w.Inv) :
    Ensures (dropActiveChild token) (fun _ w' => w'.proc = w.proc) w := by
  refine .bind (ensures_attributes h) ?_
  rintro _ _ hinv ⟨⟨gone, rfl⟩, rfl⟩
  split
  · refine (ensures_setActiveChild_none hinv).mono ?_
    rintro _ _ - ⟨gone', rfl⟩
    rfl
  · exact .ret hinv rfl

theorem ensures_reap {site : Site} (h : w.Inv)
    (hgood : site.unproven = false → ∀ x ∈ w.live, w.proc ≠ some x) :
    Ensures (reap site) (fun _ w' => w.Beside w' ∧ w'.proc = none) w := by
  refine .bind (ensures_attributes h) ?_
  rintro _ _ hinv ⟨⟨gone, rfl⟩, rfl⟩
  dsimp only
  split
  · rename_i hproc
    exact .ret hinv ⟨⟨rfl, fun hrow => hrow, fun _ htoken => htoken⟩, hproc⟩
  · rename_i proc hproc
    refine .bind (ensures_waited proc hinv) ?_
    rintro _ _ hinv ⟨⟨gone', rfl⟩, -⟩
    refine (ensures_forget hinv fun hsite x hx => ?_).mono ?_
    · exact hgood hsite x (World.mem_live_of_lose (World.mem_live_of_lose hx))
    · rintro _ _ - ⟨gone'', rfl⟩
      exact ⟨⟨rfl, fun hrow => hrow, fun _ htoken => htoken⟩, rfl⟩

/-! ## The row's record -/

/-- Nothing that the row publishes runs, once no process runs under the recorded pid and ticks. -/
theorem World.Inv.published_dead (h : w.Inv) {record : WorkerRecord} (hrecord : record ∈ w.row.worker)
    (hdead : ¬ w.Runs record.pid record.startTimeTicks) : ∀ x, x ∉ w.live := by
  intro x hx
  have htoken := h.token_of_worker hrecord hx
  obtain ⟨hpid, hticks⟩ := h.recorded record hrecord x (h.live_made x hx) htoken
  exact hdead ⟨x, hx, hpid.symm, hticks.symm⟩

theorem World.Runs.of_lose {pid ticks : ℤ} (h : (w.lose gone).Runs pid ticks) :
    w.Runs pid ticks := by
  obtain ⟨x, hx, hpid, hticks⟩ := h
  exact ⟨x, mem_live_of_lose hx, hpid, hticks⟩

theorem ensures_groupsRecovered (token : PyStr) (h : w.Inv) :
    Ensures (groupsRecovered token) (fun _ w' => Recovered w w') w := by
  refine .bind (ensures_drained token h) ?_
  rintro clean _ hinv ⟨gone, rfl⟩
  cases clean with
  | true => exact .ret hinv ⟨gone, w.recovered, rfl, fun _ ht => ht⟩
  | false =>
    refine (ensures_recoverSpawnOwnedGroups token hinv).mono ?_
    rintro _ _ - ⟨-, gone', recovered, rfl, hsubset⟩
    exact ⟨gone ++ gone', recovered, by rw [World.lose_lose], hsubset⟩

theorem keeps_clearDbWorker {record : WorkerRecord} (h : w.Inv) (hdead : ∀ x, x ∉ w.live) :
    Keeps (clearDbWorker record) w := by
  refine .bind (ensures_groupsRecovered _ h) ?_
  rintro recovered _ hinv ⟨gone, tokens, rfl, -⟩
  cases recovered with
  | false => exact .ret hinv trivial
  | true =>
    refine .bind (ensures_clearWorker hinv fun _ _ _ x hx => ?_) ?_
    · exact absurd (World.mem_live_of_lose hx) (hdead x)
    · rintro cleared _ hinv -
      cases cleared with
      | false => exact .ret hinv trivial
      | true =>
        refine .bind (ensures_dropActiveChild _ hinv) ?_
        intro _ _ hinv _
        exact .ret hinv trivial

/-- **The retirement of what the row publishes**: its record is cleared once it does not run. -/
theorem keeps_retireDbWorker {record : WorkerRecord} (h : w.Inv)
    (hrecord : w.row.worker = some record) : Keeps (retireDbWorker record) w := by
  refine .bind (ensures_workerAlive _ _ h) ?_
  rintro alive _ hinv ⟨⟨gone, rfl⟩, halive⟩
  cases alive with
  | false => exact keeps_clearDbWorker hinv (hinv.published_dead hrecord (halive rfl))
  | true =>
    refine .bind (ensures_stopWorker _ _ hinv) ?_
    rintro stopped _ hinv ⟨⟨gone', rfl⟩, hstopped⟩
    cases stopped with
    | false => exact .ret hinv trivial
    | true => exact keeps_clearDbWorker hinv (hinv.published_dead hrecord (hstopped rfl))

theorem keeps_reconcileDbWorker (commit : PyStr) (h : w.Inv) :
    Keeps (reconcileDbWorker commit) w := by
  refine .bind (ensures_readWorkerAuthority h) ?_
  rintro answer _ hinv ⟨⟨gone, rfl⟩, hrecord⟩
  cases answer with
  | none => exact .ret hinv trivial
  | some worker =>
    cases worker with
    | none => exact .ret hinv trivial
    | some record =>
      have hrow : w.row.worker = some record := (hrecord _ rfl).symm
      refine .bind (ensures_attributes hinv) ?_
      rintro _ _ hinv ⟨⟨gone', rfl⟩, rfl⟩
      split
      · refine .bind (ensures_activeWorkerLive hinv) ?_
        rintro live _ hinv ⟨⟨gone'', rfl⟩, -⟩
        cases live with
        | true => exact .ret hinv trivial
        | false => exact keeps_retireDbWorker hinv hrow
      · exact keeps_retireDbWorker hinv hrow

theorem ensures_dbWorkerRunning (commit : PyStr) (h : w.Inv) :
    Ensures (dbWorkerRunning commit) (fun _ w' => w.Later w') w := by
  refine .bind (ensures_readWorkerAuthority h) ?_
  rintro answer _ hinv ⟨hread, -⟩
  cases answer with
  | none => exact .ret hinv hread
  | some worker =>
    cases worker with
    | none => exact .ret hinv hread
    | some record =>
      refine .bind (ensures_attributes hinv) ?_
      rintro _ _ hinv ⟨hself, rfl⟩
      have hlater := hread.trans hself
      split
      · refine .bind (ensures_activeWorkerLive hinv) ?_
        rintro live _ hinv ⟨hlook, -⟩
        exact .ret hinv (hlater.trans hlook)
      · exact .ret hinv hlater

/-! ## Crashes -/

/-- **A published worker that is found dead**: its record is cleared, and the handle is given up. -/
theorem ensures_handleDbCrash {now : ℚ} (h : w.Inv)
    (hdead : ∀ child ∈ w.activeChild, ∀ x ∈ w.live, x.token ≠ child.token) :
    Ensures (handleDbCrash settings now) (fun _ w' => w.Beside w') w := by
  refine .bind (ensures_attributes h) ?_
  rintro _ _ hinv ⟨⟨gone, rfl⟩, rfl⟩
  have hsame : w.Beside (w.lose gone) := World.Later.beside ⟨gone, rfl⟩
  dsimp only
  split
  · exact .ret hinv hsame
  · rename_i child hchild
    refine .bind (ensures_recoverSpawnOwnedGroups _ hinv) ?_
    rintro recovered _ hinv ⟨-, gone', tokens, rfl, -⟩
    cases recovered with
    | false => exact .ret hinv ⟨rfl, fun hnone => hnone, fun _ htoken => htoken⟩
    | true =>
      refine .bind (ensures_clearWorker hinv fun _ _ _ x hx => ?_) ?_
      · exact hdead child hchild x (World.mem_live_of_lose (World.mem_live_of_lose hx))
      · rintro cleared _ hinv ⟨gone₂, row, rfl, hspawn, -⟩
        have hrow : w.row.spawn = none → row.spawn = none := fun hnone => hspawn.trans hnone
        cases cleared with
        | false => exact .ret hinv ⟨rfl, hrow, fun _ htoken => htoken⟩
        | true =>
          refine .bind (ensures_setActiveChild_none hinv) ?_
          rintro _ w₁ hinv ⟨gone₃, rfl⟩
          refine .bind (ensures_reap hinv fun hsite => by cases hsite) ?_
          rintro _ w₂ hinv ⟨hreap, -⟩
          have hbeside : w.Beside w₂ := by
            refine World.Beside.trans ?_ hreap
            exact ⟨rfl, hrow, fun _ htoken => htoken⟩
          refine .bind (ensures_readState hinv) ?_
          rintro _ w₃ hinv ⟨hlook, -⟩
          have hbeside := hbeside.trans hlook.beside
          refine .bind (ensures_backoffSeconds _ _ hinv) ?_
          rintro backoff _ hinv rfl
          refine .bind (ensures_setMemNextAttemptAt _ hinv) ?_
          rintro _ _ hinv ⟨gone₄, rfl⟩
          refine .bind (ensures_readState hinv) ?_
          rintro _ _ hinv ⟨⟨gone₅, rfl⟩, rfl⟩
          refine .bind (ensures_readState hinv) ?_
          rintro _ _ hinv ⟨⟨gone₆, rfl⟩, -⟩
          refine .bind (ensures_clock hinv) ?_
          rintro moment _ hinv ⟨gone₇, rfl⟩
          refine .tryCatch (.andThen ((maintain_relies hinv hinv.cached).mono
            (fun _ _ hQ => hQ) ?_) ?_)
          · rintro e _ ⟨hinv, hwrites, -⟩
            rw [droppingAll]
            split
            · refine ⟨hinv, (hbeside.trans ?_).trans hwrites⟩
              exact ⟨rfl, fun hnone => hnone, fun _ htoken => htoken⟩
            · exact hinv
          · rintro _ _ ⟨hinv, hwrites, -⟩
            refine ⟨hinv, (hbeside.trans ?_).trans hwrites⟩
            exact ⟨rfl, fun hnone => hnone, fun _ htoken => htoken⟩

theorem ensures_dbCrashBlocks {now : ℚ} (h : w.Inv) :
    Ensures (dbCrashBlocks settings now) (fun _ w' => w.Beside w') w := by
  refine .bind (ensures_attributes h) ?_
  rintro _ _ hinv ⟨hself, rfl⟩
  split
  · exact .ret hinv hself.beside
  · refine .bind (ensures_activeWorkerLive hinv) ?_
    rintro live w₁ hinv ⟨hlook, hdead⟩
    cases live with
    | true => exact .ret hinv (hself.beside.trans hlook.beside)
    | false =>
      have hactive : w₁.activeChild = w.activeChild := by
        obtain ⟨gone, rfl⟩ := hself
        obtain ⟨gone', rfl⟩ := hlook
        rfl
      have hbeside := hself.beside.trans hlook.beside
      refine .bind (ensures_handleDbCrash hinv ?_) ?_
      · rw [hactive]
        obtain ⟨gone, rfl⟩ := hself
        exact hdead rfl
      · intro _ w₂ hinv hcrash
        refine .bind (ensures_attributes hinv) ?_
        rintro _ w₃ hinv ⟨hself, rfl⟩
        have hbeside := (hbeside.trans hcrash).trans hself.beside
        split
        · exact .ret hinv hbeside
        · exact (ensures_inBackoff now hinv).mono fun _ _ _ hlook => hbeside.trans hlook.beside

/-! ## The cached child -/

/-- Nothing runs, once no process runs under the pid and ticks of a child that the row names. -/
theorem World.Inv.matched_dead (h : w.Inv) {child : WorkerChild} {commit : Option PyStr}
    (hmatch : dbRecordMatchesChild w.row.worker child commit = true)
    (hdead : ¬ w.Runs child.pid child.startTimeTicks) : ∀ x, x ∉ w.live := by
  obtain ⟨record, hrecord, -, hpid, hticks⟩ := Deploy.Restart.dbRecordMatchesChild_names hmatch
  refine h.published_dead hrecord ?_
  rw [hpid, hticks]
  exact hdead

theorem ensures_stopChild (child : WorkerChild) (h : w.Inv) :
    Ensures (stopChild child) (fun b w' => w.Later w' ∧
      (b = true → ¬ w'.Runs child.pid child.startTimeTicks)) w := by
  have hstop : ∀ {v : World}, v.Inv → w.Later v →
      Ensures (stopWorker child.pid child.startTimeTicks) (fun b w' => w.Later w' ∧
        (b = true → ¬ w'.Runs child.pid child.startTimeTicks)) v := by
    intro v hinv hlater
    refine (ensures_stopWorker _ _ hinv).mono ?_
    rintro b _ - ⟨hlook, hb⟩
    exact ⟨hlater.trans hlook, hb⟩
  refine .bind (ensures_workerAlive _ _ h) ?_
  rintro alive _ hinv ⟨hlook, -⟩
  cases alive with
  | false => exact hstop hinv hlook
  | true =>
    refine .bind (ensures_reconcileAuthorityFacts hinv) ?_
    rintro facts _ hinv ⟨hread, -⟩
    have hlater := hlook.trans hread
    split
    · exact .ret hinv ⟨hlater, fun hb => by cases hb⟩
    · exact hstop hinv hlater

theorem ensures_recoverUnlessDrained (token : PyStr) (h : w.Inv) :
    Ensures (recoverUnlessDrained token) (fun _ w' => Recovered w w') w := by
  refine .bind (ensures_drained token h) ?_
  rintro clean _ hinv ⟨gone, rfl⟩
  cases clean with
  | true => exact .ret hinv ⟨gone, w.recovered, rfl, fun _ ht => ht⟩
  | false =>
    refine (ensures_recoverOwnedGroups token hinv).mono ?_
    rintro _ _ - ⟨-, gone', recovered, rfl, hsubset⟩
    exact ⟨gone ++ gone', recovered, by rw [World.lose_lose], hsubset⟩

theorem ensures_publishRetired {state : SupervisorState} (authorityLocked : Bool) (h : w.Inv)
    (hs : w.Cached w.file.spawning state.child) :
    Ensures (publishRetired state authorityLocked) (fun _ w' => w'.proc = w.proc) w := by
  rw [publishRetired]
  split
  · refine .bind (ensures_readState h) ?_
    rintro _ _ hinv ⟨⟨gone, rfl⟩, rfl⟩
    refine .bind (ensures_writeState hinv hinv.cached.no_child) ?_
    rintro _ _ hinv ⟨gone', rfl⟩
    exact .ret hinv rfl
  · exact (ensures_maintain h hs).mono fun _ _ _ hwrote => hwrote.2

theorem ensures_forgetChild {state : SupervisorState} {child : WorkerChild}
    (authorityLocked : Bool) (h : w.Inv) (hs : w.Cached w.file.spawning state.child)
    (hdead : ∀ x, x ∉ w.live) :
    Ensures (forgetChild state child authorityLocked) (fun b w' => b = true → w'.proc = none)
      w := by
  refine .bind (ensures_recoverUnlessDrained _ h) ?_
  rintro _ w₁ hinv ⟨gone, recovered, rfl, -⟩
  have hbeside : w.Beside { w.lose gone with recovered } :=
    ⟨rfl, fun hrow => hrow, fun _ htoken => htoken⟩
  refine .bind (ensures_reap hinv fun _ x hx => absurd (World.mem_live_of_lose hx) (hdead x)) ?_
  rintro _ w₂ hinv ⟨hreap, hproc⟩
  refine .bind (ensures_publishRetired authorityLocked hinv ((hbeside.trans hreap).cached hinv hs)) ?_
  intro published w₃ hinv hwrote
  cases published with
  | false => exact .ret hinv fun hb => by cases hb
  | true =>
    refine .bind (ensures_dropActiveChild _ hinv) ?_
    intro _ w₄ hinv hdrop
    exact .ret hinv fun _ => hdrop.trans (hwrote.trans hproc)

/-- **The retirement of the cached child**, where the row names exactly it: afterwards the daemon
holds no handle. -/
theorem ensures_retireChild (authorityLocked : Bool) (h : w.Inv) :
    Ensures (retireChild authorityLocked)
      (fun b w' => b = true → w.file.child ≠ none → w'.proc = none) w := by
  have hno : ∀ {v : World} {P : Prop}, v.Inv →
      Ensures (pure false) (fun b w' => b = true → P → w'.proc = none) v :=
    fun hinv => .ret hinv fun hb => by cases hb
  refine .bind (ensures_readState h) ?_
  rintro _ _ hinv ⟨⟨gone, rfl⟩, rfl⟩
  cases hchild : w.file.child with
  | none => exact .ret hinv fun _ hsome => absurd rfl hsome
  | some child =>
    refine .bind (ensures_confirmAuthority hinv) ?_
    rintro confirmed _ hinv ⟨gone₁, rfl⟩
    cases confirmed with
    | false => exact hno hinv
    | true =>
      refine .bind (ensures_readWorkerAuthority hinv) ?_
      rintro answer _ hinv ⟨⟨gone₂, rfl⟩, hrecord⟩
      cases answer with
      | none => exact hno hinv
      | some worker =>
        obtain rfl := hrecord worker rfl
        dsimp only
        split
        · exact hno hinv
        · rename_i hmatch
          rw [Bool.not_eq_true, Bool.not_eq_false'] at hmatch
          refine .bind (ensures_stopChild child hinv) ?_
          rintro stopped _ hinv ⟨⟨gone₃, rfl⟩, hstopped⟩
          cases stopped with
          | false => exact hno hinv
          | true =>
            refine (ensures_forgetChild authorityLocked hinv hinv.cached
              (hinv.matched_dead hmatch (hstopped rfl))).mono ?_
            intro b w' _ hproc hb _
            exact hproc hb

/-- A child that is forgotten on the word of the cache. -/
theorem keeps_clearChild (h : w.Inv) : Keeps clearChild w := by
  refine .bind (ensures_forget h fun hsite => by cases hsite) ?_
  rintro _ _ hinv -
  refine .bind (ensures_readState hinv) ?_
  rintro state _ hinv -
  have hrest : ∀ {v : World}, v.Inv → Keeps (do
      let state ← readState
      let _ ← maintain .childCleared state) v := by
    intro v hinv
    refine .bind (ensures_readState hinv) ?_
    rintro _ _ hinv ⟨⟨gone, rfl⟩, rfl⟩
    exact .bind (ensures_maintain hinv hinv.cached) fun _ _ hinv _ => .ret hinv trivial
  split
  · exact .bind (ensures_dropActiveChild _ hinv) fun _ _ hinv _ => hrest hinv
  · exact hrest hinv

theorem ensures_childGroupsRecovered (state : SupervisorState) (h : w.Inv) :
    Ensures (childGroupsRecovered state) (fun _ w' => w.Beside w') w := by
  rw [childGroupsRecovered]
  split
  · exact .ret h (World.Later.refl w).beside
  · refine (ensures_groupsRecovered _ h).mono ?_
    rintro _ _ - ⟨gone, recovered, rfl, -⟩
    exact ⟨rfl, fun hrow => hrow, fun _ htoken => htoken⟩

/-- A crash that is recorded on the word of the cache. -/
theorem keeps_handleCrash {state : SupervisorState} {now : ℚ} (h : w.Inv)
    (hs : w.Cached w.file.spawning state.child) : Keeps (handleCrash settings state now) w := by
  refine .bind (ensures_ask (Q := fun _ w' => w.Later w') h trivial fun _ o =>
    ⟨h.lose, o.exits, rfl⟩) ?_
  intro returncode _ hinv hlook
  refine .bind (ensures_childGroupsRecovered state hinv) ?_
  intro recovered _ hinv hgroups
  refine .bind (ensures_backoffSeconds _ _ hinv) ?_
  rintro backoff _ hinv rfl
  refine .bind (ensures_clock hinv) ?_
  intro moment w₁ hinv hclock
  have hs : w₁.Cached w₁.file.spawning state.child :=
    ((hlook.beside.trans hgroups).trans hclock.beside).cached hinv hs
  cases recovered with
  | false => exact .bind (ensures_maintain hinv hs) fun _ _ hinv _ => .ret hinv trivial
  | true =>
    refine .bind (ensures_maintain hinv hs) ?_
    rintro recorded _ hinv -
    cases recorded with
    | false => exact .ret hinv trivial
    | true =>
      refine .bind (ensures_forget hinv fun hsite => by cases hsite) ?_
      rintro _ _ hinv -
      split
      · exact .ret hinv trivial
      · exact (ensures_dropActiveChild _ hinv).mono fun _ _ _ _ => trivial

theorem keeps_recordHealthRetirement {now : ℚ} (h : w.Inv) (hproc : w.proc = none) :
    Keeps (recordHealthRetirement settings now) w := by
  refine .bind (ensures_readState h) ?_
  rintro _ _ hinv ⟨⟨gone, rfl⟩, rfl⟩
  refine .bind (ensures_backoffSeconds _ _ hinv) ?_
  rintro backoff _ hinv rfl
  refine .bind (ensures_maintain hinv hinv.cached) ?_
  rintro recorded _ hinv ⟨-, hsame⟩
  cases recorded with
  | false => exact .ret hinv trivial
  | true =>
    refine (ensures_forget hinv fun _ x _ heq => ?_).mono fun _ _ _ _ => trivial
    cases (hsame.trans hproc).symm.trans heq

theorem keeps_ensureHeld (h : w.Inv) : Keeps ensureHeld w := by
  refine .bind (ensures_readState h) ?_
  rintro state _ hinv -
  split
  · exact .bind (ensures_retireChild false hinv) fun _ _ hinv _ => .ret hinv trivial
  · exact .ret hinv trivial

theorem ensures_childAlive (state : SupervisorState) (h : w.Inv) :
    Ensures (childAlive state) (fun b w' => w.Later w' ∧ (b = true → state.child ≠ none)) w := by
  rw [childAlive]
  split
  · exact .ret h ⟨.refl w, fun hb => by cases hb⟩
  · rename_i child hchild
    have hsome : state.child ≠ none := by
      rw [hchild]
      exact Option.some_ne_none child
    refine .bind (ensures_workerAlive _ _ h) ?_
    rintro alive _ hinv ⟨hlook, -⟩
    cases alive with
    | false => exact .ret hinv ⟨hlook, fun hb => by cases hb⟩
    | true => exact (ensures_whether _ hinv).mono fun _ _ _ hask => ⟨hlook.trans hask, fun _ => hsome⟩

theorem keeps_maybeResetBackoff {state : SupervisorState} {now : ℚ} (h : w.Inv)
    (hs : w.Cached w.file.spawning state.child) :
    Keeps (maybeResetBackoff settings state now) w := by
  rw [maybeResetBackoff]
  split
  · exact .ret h trivial
  · refine .bind (ensures_childAlive state h) ?_
    rintro alive _ hinv ⟨hlook, -⟩
    cases alive with
    | false => exact .ret hinv trivial
    | true =>
      simp only [Bool.not_true, Bool.false_eq_true, if_false]
      split
      · exact .ret hinv trivial
      · exact .bind (ensures_maintain hinv (hlook.beside.cached hinv hs)) fun _ _ hinv _ =>
          .ret hinv trivial

end Lubko.Spawn
