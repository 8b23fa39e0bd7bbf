import Lubko.Spawn.Obligation

/-!
# A worker is spawned and published

The obligation is committed to the row before the `Popen`; then the child is observed, published in
one row operation that clears the obligation, and cached. Where one of these steps fails the child is
converged, and where that fails too it is held.

* `spawnWorker`, `spawnAndPublish` — `_spawn_worker`, `_spawn_and_publish`.
* `Announced` — what is known of a child that is about to be published.
* `keeps_spawnAndPublish` — the whole protocol keeps the invariant.
-/

namespace Lubko.Spawn

open Lubko.Lib Lubko.Supervise Lubko.Authority Lubko.Lifecycle Lubko.Deploy

/-! ## The code -/

/-- The hold of a child. -/
def holdChild (pid : ℤ) (ticks : Option ℤ) (token : PyStr) (now : ℚ) : UnresolvedChild where
  pid := pid
  startTimeTicks := ticks
  token := token
  spawnedAt := now

/-- The child that an identity was observed of. -/
def childOf (identity : Liveness.ProcessIdentity) (token workerId : PyStr) (now : ℚ) :
    WorkerChild where
  pid := identity.pid
  pgid := identity.pgid
  sid := identity.sid
  startTimeTicks := identity.startTimeTicks
  token := token
  workerId := workerId
  spawnedAt := now

/-- `_identity_is_private_session`. -/
def identityIsPrivateSession (identity : Liveness.ProcessIdentity) : Bool :=
  decide (identity.pgid = identity.pid ∧ identity.sid = identity.pid)

section Code

variable (settings : Settings) (turns : Turns)

/-- `self.proc is not None and self.proc.poll() is not None`. -/
def handleExited : Code Bool := do
  match (← attributes).proc with
  | none => return false
  | some proc => exited proc

/-- `_wait_for_identity`. -/
def waitForIdentity (proc : Spawned) : ℕ → Code (Option Liveness.ProcessIdentity)
  | 0 => return none
  | n + 1 => do
    let identity ← processIdentity proc
    if identity.any fun i => i.pgid = proc.pid ∧ i.sid = proc.pid then return identity
    if ← handleExited then return none
    if ← whether .deadline then return none
    waitForIdentity proc n

/-- `_await_observable_identity`. -/
def awaitObservableIdentity (proc : Spawned) : ℕ → Code (Option Liveness.ProcessIdentity)
  | 0 => return none
  | n + 1 => do
    match ← processIdentity proc with
    | some identity => return some identity
    | none =>
      if ← exited proc then return none
      if ← whether .deadline then return none
      awaitObservableIdentity proc n

/-- `_release_unproven_spawn_authority`. -/
def releaseUnprovenSpawnAuthority (token : PyStr) (holdPersisted : Bool) : Code Unit := do
  if ← recoverSpawnOwnedGroups token then
    let state ← readState
    writeState { state with
      spawning := none
      unresolvedChild := if holdPersisted then none else state.unresolvedChild }
    forget .releaseAuthority

/-- `_preserve_blocking_obligation`. -/
def preserveBlockingObligation (obligation : SpawningObligation) (pid : ℤ) (ticks : Option ℤ) :
    Code Unit := do
  let state ← readState
  let current := state.spawning.getD obligation
  tryCatch
    (writeState { state with spawning := some { current with pid := some pid, startTimeTicks := ticks } })
    fun exc => if exc = .durabilityError then .ret () else .raise exc

/-- The hold that takes the place of an obligation. -/
def recordHold (pid : ℤ) (ticks : Option ℤ) (token : PyStr) : Code Unit := do
  let state ← readState
  let now ← clock
  writeState { state with
    unresolvedChild := some (holdChild pid ticks token now)
    spawning := none }

/-- `_recover_unpublished_spawn`. -/
def recoverUnpublishedSpawn (proc : Spawned) (obligation : SpawningObligation)
    (ticks : Option ℤ) : Code Unit := do
  if ← convergeDirectChild proc then
    forget .recoverUnpublished
    if ← recoverSpawnOwnedGroups obligation.token then
      let state ← readState
      writeState { state with spawning := none }
    else preserveBlockingObligation obligation proc.pid ticks
  else recordHold proc.pid ticks obligation.token

/-- `_record_proven_private_child`. -/
def recordProvenPrivateChild (observed : Liveness.ProcessIdentity) (token workerId : PyStr) : Code Unit := do
  let state ← readState
  let now ← clock
  writeState { state with
    child := some (childOf observed token workerId now)
    unresolvedChild := none
    spawning := none }

/-- `_persist_unobservable_hold`. -/
def persistUnobservableHold (proc : Spawned) (token : PyStr) (alreadyPersisted : Bool) :
    Code Unit :=
  if alreadyPersisted then return () else recordHold proc.pid none token

/-- `_record_shared_group_hold`. -/
def recordSharedGroupHold (proc : Spawned) (observed : Liveness.ProcessIdentity) (token : PyStr) :
    Code Unit :=
  recordHold proc.pid (some observed.startTimeTicks) token

/-- The rounds of `_settle_unproven_spawn`. -/
def settleRounds (proc : Spawned) (token workerId : PyStr) : ℕ → Bool → Code Unit
  | 0, _ => throw .unfinished
  | n + 1, holdPersisted => do
    if ← convergeDirectChild proc then releaseUnprovenSpawnAuthority token holdPersisted
    else
      match ← awaitObservableIdentity proc turns.observable with
      | some observed =>
        if identityIsPrivateSession observed then recordProvenPrivateChild observed token workerId
        else recordSharedGroupHold proc observed token
      | none =>
        if ← exited proc then releaseUnprovenSpawnAuthority token holdPersisted
        else
          persistUnobservableHold proc token holdPersisted
          settleRounds proc token workerId n true

/-- `_settle_unproven_spawn`. -/
def settleUnprovenSpawn (proc : Spawned) (token workerId : PyStr) : Code Unit := do
  if ← exited proc then releaseUnprovenSpawnAuthority token false
  else settleRounds turns proc token workerId turns.settle false

/-- `_publish_spawned_child`. -/
def publishSpawnedChild (proc : Spawned) (obligation : SpawningObligation) (ticks : Option ℤ)
    (workerId : PyStr) : Code (Option WorkerChild) := do
  if checkAuthorityInvariants (← reconcileAuthorityFacts) ≠ [] then
    recoverUnpublishedSpawn proc obligation ticks
    return none
  let state ← readState
  cacheSpawnLocal { state with
    spawning := some { obligation with pid := some proc.pid, startTimeTicks := ticks } }
  match ← waitForIdentity proc turns.identity with
  | none =>
    settleUnprovenSpawn turns proc obligation.token workerId
    return none
  | some identity => return some (childOf identity obligation.token workerId (← clock))

/-- The obligation that `_spawn_worker` commits. -/
def freshObligation (commit token : PyStr) (claim : AuthorityClaim) (ticks : Option ℤ) (now : ℚ)
    (bootId : Option PyStr) : SpawningObligation where
  token := token
  commit := commit
  creatorPid := claim.pid
  creatorStartTimeTicks := ticks.getD 0
  pid := none
  startTimeTicks := none
  createdAt := now
  bootId := bootId
  parentDeathSignal := true

/-- `_spawn_worker`, from the commit of the obligation. -/
def spawnObliged (obligation : SpawningObligation) (workerId : PyStr) :
    Code (Option WorkerChild) := do
  if !(← commitSpawnAuthority obligation) then return none
  let state ← readState
  cacheSpawnLocal { state with spawning := some obligation }
  match ← popen obligation.token with
  | none =>
    let _ ← dropObligation
    return none
  | some proc =>
    let ticks ← procStartTicks proc.pid
    publishSpawnedChild turns proc obligation ticks workerId

/-- `_spawn_worker`. -/
def spawnWorker (commit : PyStr) : Code (Option WorkerChild) := do
  if !(← whether .spawnExecutable) then return none
  let token ← tokenHex
  let workerId := (← ask (.ask .workerId)).text
  if !(← whether .pdeathsigSupported) then return none
  let self ← attributes
  let ticks ← procStartTicks self.claim.pid
  let now ← clock
  let obligation := freshObligation commit token self.claim ticks now (← currentBootId)
  if !authorizeSpawn (← reconcileAuthorityFacts) then return none
  spawnObliged turns obligation workerId

/-- `_spawn_obligation_for`. -/
def spawnObligationFor (child : WorkerChild) : Code (Option SpawningObligation) := do
  match (← readState).spawning with
  | some obligation => return some obligation
  | none =>
    match ← readSpawnAuthority with
    | some (some obligation) =>
      return if obligation.token = child.token then some obligation else none
    | _ => return none

/-- `_persist_missing_obligation_hold`. -/
def persistMissingObligationHold (child : WorkerChild) (nextAttemptAt : ℚ) : Code Unit := do
  let state ← readState
  let now ← clock
  writeState { state with
    unresolvedChild := some (holdChild child.pid (some child.startTimeTicks) child.token now)
    nextAttemptAt := some nextAttemptAt }

/-- `_converge_spawn_without_obligation`. -/
def convergeSpawnWithoutObligation (child : WorkerChild) (now : ℚ) : Code Unit := do
  let backoff ← backoffSeconds settings (← readState).restartCount
  let nextAttemptAt := now + backoff
  match (← attributes).proc with
  | none => persistMissingObligationHold child nextAttemptAt
  | some proc =>
    if ← convergeDirectChild proc then
      forget .convergeSpawn
      if ← recoverSpawnOwnedGroups child.token then
        let state ← readState
        writeState { state with nextAttemptAt := some nextAttemptAt }
      else persistMissingObligationHold child nextAttemptAt
    else persistMissingObligationHold child nextAttemptAt

/-- `_cache_published_child`. -/
def cachePublishedChild (child : WorkerChild) (commit : PyStr) (now : ℚ)
    (obligation : SpawningObligation) : Code Unit := do
  let state ← readState
  cacheSpawnLocal { state with
    mode := .run
    commit := some commit
    child := some child
    intent := .run
    nextAttemptAt := none
    lastSpawnAt := some now
    ready := false
    nextReadinessAt := some (now + settings.readinessIntervalSeconds)
    spawning := some { obligation with
      pid := some child.pid, startTimeTicks := some child.startTimeTicks } }
  tryCatch writeMeta dropping
  let _ ← dropObligation

/-- `_record_spawn_failure`. -/
def recordSpawnFailure (commit : PyStr) (now : ℚ) : Code Unit := do
  let state ← readState
  let backoff ← backoffSeconds settings (← readState).restartCount
  writeState { state with
    mode := .run
    commit := some commit
    intent := .run
    ready := false
    nextReadinessAt := none
    nextAttemptAt := some (now + backoff) }

/-- What `_spawn_and_publish` does with a spawned child. -/
def publishOrConverge (child : WorkerChild) (commit : PyStr) (now : ℚ) : Code Unit := do
  match ← spawnObligationFor child with
  | none => convergeSpawnWithoutObligation settings child now
  | some obligation =>
    if ← publishWorkerAuthority child commit obligation.token then
      setActiveChild (some child)
      setMemNextAttemptAt none
      cachePublishedChild settings child commit now obligation
    else convergeSpawnWithoutObligation settings child now

/-- `_spawn_and_publish`. -/
def spawnAndPublish (commit : PyStr) : Code Unit := do
  if !(← whether .generationLock) then throw .other
  if (← ask (.ask .intent)).action ≠ .run commit then return ()
  if !(← confirmAuthority) then return ()
  let child ← spawnWorker turns commit
  let now ← clock
  match child with
  | none => recordSpawnFailure settings commit now
  | some child => publishOrConverge settings child commit now

end Code

/-! ## Waits and records -/

variable {w w' : World} {gone : List Spawned} {settings : Settings} {turns : Turns}
  {obligation : SpawningObligation} {proc x : Spawned} {token commit workerId : PyStr}
  {child : WorkerChild}

theorem ensures_handleExited (h : w.Inv) : Ensures handleExited (fun _ w' => w.Later w') w := by
  refine .bind (ensures_attributes h) ?_
  rintro _ _ hinv ⟨hself, rfl⟩
  dsimp only
  cases w.proc with
  | none => exact .ret hinv hself
  | some proc => exact (ensures_exited proc hinv).mono fun _ _ _ hpoll => hself.trans hpoll.1

theorem ensures_waitForIdentity (proc : Spawned) (n : ℕ) (h : w.Inv) :
    Ensures (waitForIdentity proc n) (fun identity w' => w.Later w' ∧
      ∀ i ∈ identity, i.pid = proc.pid ∧ i.startTimeTicks = proc.startTimeTicks) w := by
  induction n generalizing w with
  | zero => exact .ret h ⟨.refl w, fun i hi => by cases hi⟩
  | succ n ih =>
    refine .bind (ensures_processIdentity proc h) ?_
    rintro identity _ hinv ⟨hlook, hidentity⟩
    split
    · exact .ret hinv ⟨hlook, hidentity⟩
    · refine .bind (ensures_handleExited hinv) ?_
      intro gone _ hinv hpoll
      have hlater := hlook.trans hpoll
      cases gone with
      | true => exact .ret hinv ⟨hlater, fun i hi => by cases hi⟩
      | false =>
        refine .bind (ensures_whether _ hinv) ?_
        intro late _ hinv hclock
        have hlater := hlater.trans hclock
        cases late with
        | true => exact .ret hinv ⟨hlater, fun i hi => by cases hi⟩
        | false =>
          refine (ih hinv).mono ?_
          rintro identity _ - ⟨hrest, hidentity⟩
          exact ⟨hlater.trans hrest, hidentity⟩

theorem ensures_awaitObservableIdentity (proc : Spawned) (n : ℕ) (h : w.Inv) :
    Ensures (awaitObservableIdentity proc n) (fun _ w' => w.Later w') w := by
  induction n generalizing w with
  | zero => exact .ret h (.refl w)
  | succ n ih =>
    refine .bind (ensures_processIdentity proc h) ?_
    rintro identity _ hinv ⟨hlook, -⟩
    cases identity with
    | some identity => exact .ret hinv hlook
    | none =>
      refine .bind (ensures_exited proc hinv) ?_
      rintro gone _ hinv ⟨hpoll, -⟩
      have hlater := hlook.trans hpoll
      cases gone with
      | true => exact .ret hinv hlater
      | false =>
        refine .bind (ensures_whether _ hinv) ?_
        intro late _ hinv hclock
        have hlater := hlater.trans hclock
        cases late with
        | true => exact .ret hinv hlater
        | false => exact (ih hinv).mono fun _ _ _ hrest => hlater.trans hrest

theorem ensures_recordHold {pid : ℤ} {ticks : Option ℤ} (h : w.Inv) :
    Ensures (recordHold pid ticks token) (fun _ w' => ∃ gone file, w' = { w.lose gone with file }) w := by
  refine .bind (ensures_readState h) ?_
  rintro _ _ hinv ⟨⟨gone, rfl⟩, rfl⟩
  refine .bind (ensures_clock hinv) ?_
  rintro now _ hinv ⟨gone', rfl⟩
  refine (ensures_writeState hinv hinv.cached.no_spawning).mono ?_
  rintro _ _ - ⟨gone'', rfl⟩
  exact ⟨gone ++ (gone' ++ gone''), _, by rw [World.lose_lose, World.lose_lose]⟩

theorem keeps_releaseUnprovenSpawnAuthority {holdPersisted : Bool} (h : w.Inv)
    (hdead : ∀ x ∈ w.live, w.proc ≠ some x) :
    Keeps (releaseUnprovenSpawnAuthority token holdPersisted) w := by
  refine .bind (ensures_recoverSpawnOwnedGroups token h) ?_
  rintro recovered _ hinv ⟨-, gone, tokens, rfl, -⟩
  cases recovered with
  | false => exact .ret hinv trivial
  | true =>
    refine .bind (ensures_readState hinv) ?_
    rintro _ _ hinv ⟨⟨gone', rfl⟩, rfl⟩
    refine .bind (ensures_writeState hinv hinv.cached.no_spawning) ?_
    rintro _ _ hinv ⟨gone'', rfl⟩
    refine (ensures_forget hinv fun _ x hx => hdead x ?_).mono fun _ _ _ _ => trivial
    have hx : x ∈ (((w.lose gone).lose gone').lose gone'').live := hx
    exact World.mem_live_of_lose (World.mem_live_of_lose (World.mem_live_of_lose hx))

theorem keeps_recordProvenPrivateChild {observed : Liveness.ProcessIdentity} (h : w.Inv)
    (hdrawn : w.Drawn token) : Keeps (recordProvenPrivateChild observed token workerId) w := by
  refine .bind (ensures_readState h) ?_
  rintro _ _ hinv ⟨⟨gone, rfl⟩, rfl⟩
  refine .bind (ensures_clock hinv) ?_
  rintro now _ hinv ⟨gone', rfl⟩
  refine (ensures_writeState hinv ?_).mono fun _ _ _ _ => trivial
  exact
    { hinv.cached.no_spawning with
      published := fun s hs => by cases hs
      child_drawn := fun c hc => by
        cases hc
        exact hdrawn }

/-! ## Convergence -/

/-- The handle is of a process that has exited. -/
theorem handle_dead (hproc : w.proc = some proc) (hexit : proc ∉ w.live) :
    ∀ x ∈ w.live, w.proc ≠ some x := by
  intro x hx heq
  cases hproc.symm.trans heq
  exact hexit hx

theorem keeps_settleRounds (n : ℕ) (holdPersisted : Bool) (h : w.Inv) (hproc : w.proc = some proc)
    (hdrawn : w.Drawn token) : Keeps (settleRounds turns proc token workerId n holdPersisted) w := by
  induction n generalizing w holdPersisted with
  | zero => exact .raise h
  | succ n ih =>
    refine .bind (ensures_convergeDirectChild proc h) ?_
    rintro converged _ hinv ⟨⟨gone, rfl⟩, hexit⟩
    cases converged with
    | true => exact keeps_releaseUnprovenSpawnAuthority hinv (handle_dead hproc (hexit rfl))
    | false =>
      refine .bind (ensures_awaitObservableIdentity proc _ hinv) ?_
      rintro observed _ hinv ⟨gone', rfl⟩
      cases observed with
      | some observed =>
        dsimp only
        split
        · exact keeps_recordProvenPrivateChild hinv hdrawn
        · exact (ensures_recordHold hinv).mono fun _ _ _ _ => trivial
      | none =>
        refine .bind (ensures_exited proc hinv) ?_
        rintro dead _ hinv ⟨⟨gone'', rfl⟩, hexit⟩
        cases dead with
        | true => exact keeps_releaseUnprovenSpawnAuthority hinv (handle_dead hproc (hexit.1 rfl))
        | false =>
          cases holdPersisted with
          | true => exact ih true hinv hproc hdrawn
          | false =>
            refine .bind (ensures_recordHold hinv) ?_
            rintro _ _ hinv ⟨gone, file, rfl⟩
            exact ih true hinv hproc hdrawn

theorem keeps_settleUnprovenSpawn (h : w.Inv) (hproc : w.proc = some proc)
    (hdrawn : w.Drawn token) : Keeps (settleUnprovenSpawn turns proc token workerId) w := by
  refine .bind (ensures_exited proc h) ?_
  rintro dead _ hinv ⟨⟨gone, rfl⟩, hexit⟩
  cases dead with
  | true => exact keeps_releaseUnprovenSpawnAuthority hinv (handle_dead hproc (hexit.1 rfl))
  | false => exact keeps_settleRounds _ false hinv hproc hdrawn

/-- The obligation keeps blocking, with the identity of the process that has exited. -/
theorem keeps_preserveBlockingObligation {pid : ℤ} {ticks : Option ℤ} (h : w.Inv)
    (hrow : w.row.spawn = some (dbSpawnRecord obligation))
    (hchild : ∀ c ∈ w.file.child, c.token ≠ obligation.token) (hlive : ∀ x, x ∉ w.live) :
    Keeps (preserveBlockingObligation obligation pid ticks) w := by
  refine .bind (ensures_readState h) ?_
  rintro _ _ hinv ⟨⟨gone, rfl⟩, rfl⟩
  have hsame : SameSpawn (dbSpawnRecord obligation) (w.file.spawning.getD obligation) := by
    cases hspawning : w.file.spawning with
    | none => exact ⟨rfl, rfl, rfl, rfl⟩
    | some s => exact h.cached.agrees _ hrow s hspawning
  have htoken : (w.file.spawning.getD obligation).token = obligation.token := hsame.token
  have hcached : (w.lose gone).Cached
      (some { w.file.spawning.getD obligation with pid := some pid, startTimeTicks := ticks })
      w.file.child := by
    refine hinv.caches hrow ⟨hsame.token, hsame.creatorPid, hsame.creatorStartTimeTicks,
      hsame.bootId⟩ (fun _ c hc => ?_) fun x hx => absurd (World.mem_live_of_lose hx) (hlive x)
    rw [htoken]
    exact hchild c hc
  refine .tryCatch ((writeState_relies hinv hcached).mono ?_ ?_)
  · rintro _ _ ⟨hinv, -⟩
    exact ⟨hinv, trivial⟩
  · rintro e _ ⟨hinv, -, -⟩
    dsimp only
    split
    · exact ⟨hinv, trivial⟩
    · exact hinv

theorem keeps_recoverUnpublishedSpawn {ticks : Option ℤ} (h : w.Inv) (hstarted : Started obligation x w) :
    Keeps (recoverUnpublishedSpawn x obligation ticks) w := by
  refine .bind (ensures_convergeDirectChild x h) ?_
  rintro converged _ hinv ⟨⟨gone, rfl⟩, hexit⟩
  cases converged with
  | false => exact (ensures_recordHold hinv).mono fun _ _ _ _ => trivial
  | true =>
    have hlive : ∀ y, y ∉ (w.lose gone).live := fun y hy => by
      have heq := hstarted.lose.eq hinv hy
      exact hexit rfl (heq ▸ hy)
    refine .bind (ensures_forget hinv fun _ y hy => absurd hy (hlive y)) ?_
    rintro _ _ hinv ⟨gone', rfl⟩
    refine .bind (ensures_recoverSpawnOwnedGroups _ hinv) ?_
    rintro recovered _ hinv ⟨-, gone'', tokens, rfl, -⟩
    cases recovered with
    | true =>
      refine .bind (ensures_readState hinv) ?_
      rintro _ _ hinv ⟨⟨gone₃, rfl⟩, rfl⟩
      exact (ensures_writeState hinv hinv.cached.no_spawning).mono fun _ _ _ _ => trivial
    | false =>
      refine keeps_preserveBlockingObligation hinv hstarted.row hstarted.child fun y hy => hlive y ?_
      have hy : y ∈ (((w.lose gone).lose gone').lose gone'').live := hy
      exact World.mem_live_of_lose (World.mem_live_of_lose hy)

/-! ## The spawn -/

/-- A child that is about to be published names the process of the committed obligation. -/
structure Announced (obligation : SpawningObligation) (x : Spawned) (child : WorkerChild)
    (w : World) : Prop where
  started : Started obligation x w
  token : child.token = obligation.token
  pid : child.pid = x.pid
  ticks : child.startTimeTicks = x.startTimeTicks

theorem Announced.lose (h : Announced obligation x child w) :
    Announced obligation x child (w.lose gone) :=
  { h with started := h.started.lose }

/-- No other process has its token. -/
theorem Announced.eq (h : Announced obligation x child w) (hinv : w.Inv) {y : Spawned}
    (hy : y ∈ w.made) (htoken : y.token = child.token) : y = x :=
  hinv.made_unique y hy x h.started.made (htoken.trans (h.token.trans h.started.token.symm))

theorem Started.write (h : Started obligation x w) {state : SupervisorState}
    (hchild : state.child = w.file.child) : Started obligation x { w with file := state } :=
  { h with child := fun c hc => h.child c (hchild ▸ hc) }

theorem Started.drawn (h : Started obligation x w) (hinv : w.Inv) : w.Drawn obligation.token :=
  hinv.spawn_drawn _ h.row

theorem ensures_publishSpawnedChild {ticks : Option ℤ} (h : w.Inv)
    (hstarted : Started obligation x w) (hticks : x ∈ w.live → ticks = some x.startTimeTicks) :
    Ensures (publishSpawnedChild turns x obligation ticks workerId)
      (fun r w' => ∀ child ∈ r, Announced obligation x child w') w := by
  refine .bind (ensures_reconcileAuthorityFacts h) ?_
  rintro facts _ hinv ⟨⟨gone, rfl⟩, -⟩
  have hstarted : Started obligation x (w.lose gone) := hstarted.lose
  split
  · refine .bind (keeps_recoverUnpublishedSpawn hinv hstarted) ?_
    intro _ _ hinv _
    exact .ret hinv fun child hc => by cases hc
  · refine .bind (ensures_readState hinv) ?_
    rintro _ _ hinv ⟨⟨gone', rfl⟩, rfl⟩
    have hstarted : Started obligation x ((w.lose gone).lose gone') := hstarted.lose
    refine .bind (ensures_cacheSpawnLocal hinv ?_) ?_
    · refine hinv.caches hstarted.row ⟨rfl, rfl, rfl, rfl⟩ (fun _ => hstarted.child) ?_
      intro y hy _ pid hpid
      obtain rfl := hstarted.eq hinv hy
      cases hpid
      refine ⟨rfl, fun t ht => ?_⟩
      have hrunning := hticks (World.mem_live_of_lose (World.mem_live_of_lose hy))
      exact Option.some.inj (ht.symm.trans hrunning)
    · intro _ w' hinv hwrote
      have hstarted : Started obligation x w' := by
        obtain ⟨gone'', rfl | rfl⟩ := hwrote
        · exact hstarted.lose
        · exact hstarted.lose.write rfl
      refine .bind (ensures_waitForIdentity x _ hinv) ?_
      rintro identity _ hinv ⟨⟨gone, rfl⟩, hidentity⟩
      have hstarted : Started obligation x (w'.lose gone) := hstarted.lose
      cases identity with
      | none =>
        refine .bind (keeps_settleUnprovenSpawn hinv hstarted.proc (hstarted.drawn hinv)) ?_
        intro _ _ hinv _
        exact .ret hinv fun child hc => by cases hc
      | some i =>
        obtain ⟨hpid, hticks⟩ := hidentity i rfl
        refine .bind (ensures_clock hinv) ?_
        rintro now _ hinv ⟨gone', rfl⟩
        refine .ret hinv fun child hc => ?_
        cases hc
        exact ⟨hstarted.lose, rfl, hpid, hticks⟩

/-- The obligation is this very daemon's, about a process that was not started. -/
structure Due (obligation : SpawningObligation) (w : World) : Prop where
  drawn : w.Drawn obligation.token
  fresh : Fresh obligation.token w
  pidless : obligation.pid = none
  creatorPid : obligation.creatorPid = w.claim.pid
  creatorStartTimeTicks : obligation.creatorStartTimeTicks = w.claim.startTimeTicks
  bootId : ∀ boot ∈ obligation.bootId, boot = w.claim.bootId

/-- **The commit and the `Popen`.** Once the commit succeeds nothing runs, and the row holds the
obligation. -/
theorem ensures_spawnObliged (h : w.Inv) (hdue : Due obligation w) (hfile : w.file.spawning = none) :
    Ensures (spawnObliged turns obligation workerId) (fun r w' => ∀ child ∈ r,
      ∃ x, Announced obligation x child w') w := by
  refine .bind (ensures_commitSpawn h hfile hdue.pidless hdue.drawn) ?_
  intro committed _ hinv hcommit
  cases committed with
  | false => exact .ret hinv fun child hc => by cases hc
  | true =>
    obtain ⟨hlive, gone, rfl⟩ := hcommit rfl
    refine .bind (ensures_readState hinv) ?_
    rintro _ _ hinv ⟨⟨gone', rfl⟩, rfl⟩
    have hready : Ready obligation
        (World.lose gone' { w.lose gone with
          row := { w.row with spawn := some (dbSpawnRecord obligation) } }) :=
      Ready.lose ⟨hlive, rfl, ⟨hdue.fresh.made, hdue.fresh.child, hdue.fresh.active⟩, hdue.pidless,
        fun s hs => (by cases hfile.symm.trans hs), hdue.creatorPid, hdue.creatorStartTimeTicks,
        hdue.bootId⟩
    refine .bind (ensures_cacheSpawnLocal hinv ?_) ?_
    · exact hinv.caches hready.row ⟨rfl, rfl, rfl, rfl⟩
        (fun hpid => absurd hdue.pidless hpid)
        fun x _ _ pid hpid => by cases hdue.pidless.symm.trans hpid
    · intro _ w' hinv hwrote
      have hready : Ready obligation w' := by
        obtain ⟨gone'', rfl | rfl⟩ := hwrote
        · exact hready.lose
        · refine hready.lose.write (fun s hs => ?_) rfl
          cases hs
          exact hdue.pidless
      refine .bind (ensures_popen hinv hready) ?_
      rintro proc _ hinv ⟨hnone, hsome⟩
      cases proc with
      | none =>
        obtain ⟨gone, rfl⟩ := hnone rfl
        refine .bind (keeps_dropObligation hinv fun o ho => .inl fun x hx htoken => ?_) ?_
        · cases hready.row.symm.trans ho
          exact hready.fresh.made x hx htoken
        · intro _ _ hinv _
          exact .ret hinv fun child hc => by cases hc
      | some proc =>
        obtain ⟨hstarted, -⟩ := hsome proc rfl
        refine .bind (ensures_procStartTicks _ hinv) ?_
        rintro ticks _ hinv ⟨⟨gone, rfl⟩, -, hticks⟩
        refine (ensures_publishSpawnedChild hinv hstarted.lose fun hx => hticks proc hx rfl).mono ?_
        intro r w' _ hr child hc
        exact ⟨proc, hr child hc⟩

/-- **A spawn.** What is committed is the obligation of this very daemon, for a token that no
process has; and a child that comes of it is the process of that obligation. -/
theorem ensures_spawnWorker (h : w.Inv) :
    Ensures (spawnWorker turns commit) (fun r w' => ∀ child ∈ r,
      ∃ obligation x, Announced obligation x child w') w := by
  have hnone : ∀ {v : World}, v.Inv → Ensures (pure none) (fun (r : Option WorkerChild) w' =>
      ∀ child ∈ r, ∃ obligation x, Announced obligation x child w') v :=
    fun hinv => .ret hinv fun child hc => by cases hc
  refine .bind (ensures_whether _ h) ?_
  rintro usable _ hinv ⟨gone, rfl⟩
  cases usable with
  | false => exact hnone hinv
  | true =>
    refine .bind (ensures_tokenHex hinv) ?_
    rintro token w₁ hinv ⟨hdrawn, hfresh, -⟩
    refine .bind (ensures_ask (Q := fun _ w' => w₁.Later w') hinv trivial fun _ o =>
      ⟨hinv.lose, o.exits, rfl⟩) ?_
    intro workerId _ hinv hlater
    refine .bind (ensures_whether _ hinv) ?_
    intro supported w₂ hinv hlook
    have hlater := hlater.trans hlook
    cases supported with
    | false => exact hnone hinv
    | true =>
      refine .bind (ensures_attributes hinv) ?_
      rintro _ w₃ hinv ⟨hlook, rfl⟩
      refine .bind (ensures_procStartTicks _ hinv) ?_
      rintro ticks w₄ hinv ⟨hlook', hself, -⟩
      have hticks := hself (congrArg AuthorityClaim.pid hlook.claim.symm)
      have hclaim : w₁.claim = w₂.claim := hlater.claim.symm
      rw [hlook.claim, ← hclaim] at hticks
      have hlater := (hlater.trans hlook).trans hlook'
      refine .bind (ensures_clock hinv) ?_
      intro now w₅ hinv hlook
      have hlater := hlater.trans hlook
      refine .bind (ensures_currentBootId hinv) ?_
      rintro bootId w₆ hinv ⟨hlook, hboot⟩
      rw [hlater.claim] at hboot
      have hlater := hlater.trans hlook
      refine .bind (ensures_reconcileAuthorityFacts hinv) ?_
      rintro facts w₇ hinv ⟨hlook, hauthorized⟩
      cases hspawn : authorizeSpawn facts with
      | false => exact hnone hinv
      | true =>
        have hfile : w₇.file.spawning = none := by
          rw [hlook.file]
          exact hauthorized hspawn
        obtain ⟨gone, rfl⟩ := hlater.trans hlook
        refine (ensures_spawnObliged hinv ?_ hfile).mono ?_
        · refine ⟨hdrawn, ⟨hfresh.made, hfresh.child, hfresh.active⟩, rfl, ?_, ?_, hboot⟩
          · exact congrArg AuthorityClaim.pid hclaim.symm
          · rw [freshObligation, hticks]
            rfl
        · rintro r w' - hr child hc
          exact ⟨_, hr child hc⟩

/-! ## The publication -/

theorem ensures_spawnObligationFor (child : WorkerChild) (h : w.Inv) :
    Ensures (spawnObligationFor child) (fun _ w' => w.Later w') w := by
  refine .bind (ensures_readState h) ?_
  rintro state _ hinv ⟨hlook, -⟩
  cases state.spawning with
  | some obligation => exact .ret hinv hlook
  | none =>
    refine .bind (ensures_readSpawnAuthority hinv) ?_
    rintro answer _ hinv ⟨hread, -⟩
    have hlater := hlook.trans hread
    cases answer with
    | none => exact .ret hinv hlater
    | some spawn =>
      cases spawn with
      | none => exact .ret hinv hlater
      | some obligation => exact .ret hinv hlater

theorem keeps_persistMissingObligationHold {moment : ℚ} (h : w.Inv) :
    Keeps (persistMissingObligationHold child moment) w := by
  refine .bind (ensures_readState h) ?_
  rintro _ _ hinv ⟨⟨gone, rfl⟩, rfl⟩
  refine .bind (ensures_clock hinv) ?_
  rintro now _ hinv ⟨gone', rfl⟩
  exact keeps_writeState hinv rfl rfl

theorem keeps_convergeSpawnWithoutObligation {now : ℚ} (h : w.Inv) :
    Keeps (convergeSpawnWithoutObligation settings child now) w := by
  refine .bind (ensures_readState h) ?_
  rintro state _ hinv -
  refine .bind (ensures_backoffSeconds _ _ hinv) ?_
  rintro backoff _ hinv -
  refine .bind (ensures_attributes hinv) ?_
  rintro _ _ hinv ⟨⟨gone, rfl⟩, rfl⟩
  dsimp only
  split
  · exact keeps_persistMissingObligationHold hinv
  · rename_i proc hproc
    refine .bind (ensures_convergeDirectChild proc hinv) ?_
    rintro converged _ hinv ⟨⟨gone', rfl⟩, hexit⟩
    cases converged with
    | false => exact keeps_persistMissingObligationHold hinv
    | true =>
      refine .bind (ensures_forget hinv fun _ => handle_dead hproc (hexit rfl)) ?_
      rintro _ _ hinv -
      refine .bind (ensures_recoverSpawnOwnedGroups _ hinv) ?_
      rintro recovered _ hinv -
      cases recovered with
      | false => exact keeps_persistMissingObligationHold hinv
      | true =>
        refine .bind (ensures_readState hinv) ?_
        rintro _ _ hinv ⟨⟨gone'', rfl⟩, rfl⟩
        exact keeps_writeState hinv rfl rfl

theorem keeps_recordSpawnFailure {now : ℚ} (h : w.Inv) :
    Keeps (recordSpawnFailure settings commit now) w := by
  refine .bind (ensures_readState h) ?_
  rintro _ _ hinv ⟨⟨gone, rfl⟩, rfl⟩
  refine .bind (ensures_readState hinv) ?_
  rintro state _ hinv ⟨⟨gone', rfl⟩, -⟩
  refine .bind (ensures_backoffSeconds _ _ hinv) ?_
  rintro backoff _ hinv rfl
  exact keeps_writeState hinv rfl rfl

/-- The child that the row publishes, whose handle the daemon holds. -/
structure Published (child : WorkerChild) (x : Spawned) (w : World) : Prop where
  spawn : w.row.spawn = none
  proc : w.proc = some x
  token : child.token = x.token
  pid : child.pid = x.pid
  ticks : child.startTimeTicks = x.startTimeTicks
  drawn : w.Drawn child.token
  unique : ∀ y ∈ w.made, y.token = child.token → y = x

theorem Published.lose (h : Published child x w) : Published child x (w.lose gone) :=
  { h with }

theorem keeps_cachePublishedChild {now : ℚ} (h : w.Inv) (hpublished : Published child x w)
    (htoken : obligation.token = child.token) :
    Keeps (cachePublishedChild settings child commit now obligation) w := by
  refine .bind (ensures_readState h) ?_
  rintro _ _ hinv ⟨⟨gone, rfl⟩, rfl⟩
  refine .bind (ensures_cacheSpawnLocal hinv ?_) ?_
  · exact
      { agrees := fun o ho => by cases hpublished.spawn.symm.trans ho
        published := fun _ _ _ _ _ _ => hpublished.spawn
        exact := fun s hs y hy hys pid hpid => by
          cases hs
          cases hpid
          obtain rfl := hpublished.unique y (hinv.live_made y hy) (hys.trans htoken)
          exact ⟨hpublished.pid, fun t ht => (by cases ht; exact hpublished.ticks)⟩
        handled := fun y hy hproc => by
          rintro ⟨s, hs, hsy⟩
          cases hs
          have heq := hpublished.unique y (hinv.live_made y hy) (hsy.symm.trans htoken)
          exact hproc (heq ▸ hpublished.proc)
        spawning_drawn := fun s hs => by
          cases hs
          exact htoken.symm ▸ hpublished.drawn
        child_drawn := fun c hc => by
          cases hc
          exact hpublished.drawn }
  · intro _ w' hinv hwrote
    have hspawn : w'.row.spawn = none := by
      obtain ⟨gone', rfl | rfl⟩ := hwrote <;> exact hpublished.spawn
    have hmeta : Ensures (tryCatch writeMeta dropping) (fun _ v => w'.Later v) w' := by
      refine .tryCatch ((writeMeta_relies hinv).mono (fun _ _ hQ => hQ) ?_)
      rintro _ _ ⟨hinv, rfl, hlater⟩
      exact ⟨hinv, hlater⟩
    refine .bind hmeta ?_
    rintro _ _ hinv ⟨gone, rfl⟩
    refine .bind (keeps_dropObligation hinv fun o ho => ?_) fun _ _ hinv _ => .ret hinv trivial
    cases hspawn.symm.trans ho

/-- **The publication.** From its commit on the row publishes the child, under the token of its
obligation. -/
theorem keeps_publishOrConverge {now : ℚ} (h : w.Inv) (hannounced : Announced obligation x child w) :
    Keeps (publishOrConverge settings child commit now) w := by
  refine .bind (ensures_spawnObligationFor child h) ?_
  rintro found _ hinv ⟨gone, rfl⟩
  have hannounced : Announced obligation x child (w.lose gone) := hannounced.lose
  cases found with
  | none => exact keeps_convergeSpawnWithoutObligation hinv
  | some found =>
    have hnamed : ∀ y ∈ (w.lose gone).made, y.token = child.token →
        child.pid = y.pid ∧ child.startTimeTicks = y.startTimeTicks := by
      intro y hy htoken
      obtain rfl := hannounced.eq hinv hy htoken
      exact ⟨hannounced.pid, hannounced.ticks⟩
    refine .bind (ensures_publish hinv hnamed) ?_
    intro published _ hinv' hrow
    cases published with
    | false => exact keeps_convergeSpawnWithoutObligation hinv'
    | true =>
      obtain ⟨⟨o, ho, htoken⟩, gone', row, rfl, hspawn, hworker⟩ := hrow rfl
      have hfound : found.token = child.token := by
        obtain rfl := Option.some.inj (ho.symm.trans hannounced.started.row)
        exact htoken.symm.trans hannounced.token.symm
      have hdrawn : w.Drawn child.token := hannounced.token ▸ hannounced.started.drawn hinv
      have hunique : ∀ y ∈ w.made, y.token = child.token → y = x :=
        fun y hy => hannounced.eq hinv hy
      refine .bind (ensures_setActiveChild hinv' ?_ ?_ ?_) ?_
      · intro c hc y hy htoken
        cases hc
        exact hnamed y hy htoken
      · intro c hc
        cases hc
        exact hdrawn
      · rintro y hy hproc ⟨c, hc, hcy⟩
        cases hc
        have heq := hunique y (hinv'.live_made y hy) hcy.symm
        exact hproc (heq ▸ hannounced.started.proc)
      · rintro _ _ hinv ⟨gone'', rfl⟩
        refine .bind (ensures_setMemNextAttemptAt none hinv) ?_
        rintro _ _ hinv ⟨gone₃, rfl⟩
        refine keeps_cachePublishedChild (x := x) hinv ?_ hfound
        exact
          { spawn := hspawn
            proc := hannounced.started.proc
            token := hannounced.token.trans hannounced.started.token.symm
            pid := hannounced.pid
            ticks := hannounced.ticks
            drawn := hdrawn
            unique := hunique }

/-- **The whole protocol**, from the last look at the intent. -/
theorem keeps_spawnAndPublish (h : w.Inv) : Keeps (spawnAndPublish settings turns commit) w := by
  refine .bind (ensures_whether _ h) ?_
  rintro locked _ hinv -
  cases locked with
  | false => exact .raise hinv
  | true =>
    refine .bind (ensures_ask (Q := fun _ _ => True) hinv trivial fun _ o => ⟨hinv.lose, trivial⟩) ?_
    rintro intent _ hinv -
    split
    · exact .ret hinv trivial
    · refine .bind (ensures_confirmAuthority hinv) ?_
      rintro confirmed _ hinv -
      cases confirmed with
      | false => exact .ret hinv trivial
      | true =>
        refine .bind (ensures_spawnWorker hinv) ?_
        intro child _ hinv hchild
        refine .bind (ensures_clock hinv) ?_
        rintro now _ hinv ⟨gone, rfl⟩
        cases child with
        | none => exact keeps_recordSpawnFailure hinv
        | some child =>
          obtain ⟨obligation, x, hannounced⟩ := hchild child rfl
          exact keeps_publishOrConverge hinv hannounced.lose

end Lubko.Spawn
