import Lubko.Spawn.Convergence

/-!
# The pre-spawn obligation is resolved

A tick that finds an obligation, in the cache or in the row, settles it before anything else: it
adopts what was published meanwhile, finishes a publication that was interrupted, or proves that
the process of the obligation has exited and recovers its command groups. Only then the row is
cleared.

* `ensures_resolvePidlessSpawn`, `ensures_resolveIdentifiedSpawn` — what they resolve is discharged.
* `keeps_resolveSpawningObligation` — the whole of it keeps the invariant.
-/

namespace Lubko.Spawn

open Lubko.Lib Lubko.Supervise Lubko.Authority Lubko.Lifecycle

/-! ## The code -/

section Code

variable (settings : Settings) (turns : Turns)

/-- Whether the obligation is of this very incarnation. -/
def ownSpawn (obligation : SpawningObligation) (claim : AuthorityClaim) : Code Bool :=
  if obligation.creatorStartTimeTicks ≠ 0 ∧ obligation.creatorPid = claim.pid then do
    return (← procStartTicks claim.pid) = some obligation.creatorStartTimeTicks
  else return false

/-- `_resolve_pidless_spawn`. -/
def resolvePidlessSpawn (obligation : SpawningObligation) : Code Bool := do
  let bootId ← currentBootId
  if obligation.bootId.isSome ∧ bootId.isSome ∧ obligation.bootId ≠ bootId then return true
  let self ← attributes
  if ← ownSpawn obligation self.claim then
    match self.proc with
    | none => recoverSpawnOwnedGroups obligation.token
    | some proc =>
      if !(← exited proc) then return false
      let _ ← waited proc
      forget .resolvePidless
      recoverSpawnOwnedGroups obligation.token
  else
    if !obligation.parentDeathSignal then return false
    if !(← whether .pdeathsigSupported) then return false
    recoverSpawnOwnedGroups obligation.token

/-- The hold that `_resolve_identified_spawn` makes of an obligation. -/
def holdOf (obligation : SpawningObligation) (pid : ℤ) : UnresolvedChild where
  pid := pid
  startTimeTicks := obligation.startTimeTicks
  token := obligation.token
  spawnedAt := obligation.createdAt

/-- `_resolve_identified_spawn` of an obligation with a pid. -/
def resolveIdentifiedSpawn (obligation : SpawningObligation) (pid : ℤ) : Code Bool := do
  let hold := holdOf obligation pid
  if !(← unresolvedAlive hold) then
    if !(← recoverSpawnOwnedGroups obligation.token) then return false
    let state ← readState
    if state.unresolvedChild.any fun leftover =>
        leftover.pid = hold.pid ∧ leftover.token = hold.token then
      writeState { state with unresolvedChild := none }
    return true
  let state ← readState
  writeState { state with unresolvedChild := some hold }
  if !(← convergeUnresolved turns hold) then
    deferAttempt settings
    return false
  if !(← recoverSpawnOwnedGroups obligation.token) then return false
  let state ← readState
  writeState { state with unresolvedChild := none }
  return true

/-- `_adopt_db_published`. -/
def adoptDbPublished (obligation : SpawningObligation) : Code Bool := do
  match ← readWorkerAuthority with
  | some (some record) =>
    if record.token ≠ obligation.token then return false
    let now ← clock
    setActiveChild (some (dbWorkerToChild record now))
    let state ← readState
    cacheSpawnLocal { state with spawning := none }
    return true
  | _ => return false

/-- `_publication_in_progress`. -/
def publicationInProgress (state : SupervisorState) (obligation : SpawningObligation) : Bool :=
  match state.child, obligation.pid with
  | some child, some pid =>
    decide (state.commit = some obligation.commit ∧ child.token = obligation.token ∧
      child.pid = pid ∧ obligation.startTimeTicks = some child.startTimeTicks)
  | _, _ => false

/-- The end of a resolution: the row is cleared first, then the cache. -/
def dropObligation : Code Bool := do
  if !(← clearSpawnAuthority) then return false
  let state ← readState
  cacheSpawnLocal { state with spawning := none }
  return true

/-- `_finish_publication` of a published child. -/
def finishPublication : Code Bool := do
  if !(← tryCatch (do writeMeta; return true) fun exc => do dropping exc; return false) then
    return false
  dropObligation

/-- `_settle_spawning_obligation`. -/
def settleSpawningObligation (state : SupervisorState) (obligation : SpawningObligation) :
    Code Bool := do
  if publicationInProgress state obligation then finishPublication
  else
    let resolve :=
      match obligation.pid with
      | none => resolvePidlessSpawn obligation
      | some pid => resolveIdentifiedSpawn settings turns obligation pid
    if !(← resolve) then return false
    dropObligation

/-- `_resolve_spawning_obligation`. -/
def resolveSpawningObligation : Code Bool := do
  let state ← readState
  if state.spawningHoldMalformed then
    deferAttempt settings
    return false
  match state.spawning with
  | some obligation =>
    if ← adoptDbPublished obligation then return true
    settleSpawningObligation settings turns state obligation
  | none =>
    match ← readSpawnAuthority with
    | none => return false
    | some none => return true
    | some (some obligation) =>
      let current ← readState
      cacheSpawnLocal { current with spawning := some obligation }
      settleSpawningObligation settings turns state obligation

end Code

/-! ## What is resolved is discharged -/

variable {w w' : World} {gone : List Spawned} {settings : Settings} {turns : Turns}
  {obligation : SpawningObligation}

/-- What a local obligation may say of the process of its token. -/
def Exact (obligation : SpawningObligation) (w : World) : Prop :=
  ∀ x ∈ w.live, x.token = obligation.token → ∀ pid ∈ obligation.pid,
    pid = x.pid ∧ ∀ ticks ∈ obligation.startTimeTicks, ticks = x.startTimeTicks

/-- What may be cached of the row's obligation. -/
theorem World.Inv.caches (h : w.Inv) {o : SpawnObligation} (ho : o ∈ w.row.spawn)
    (hsame : SameSpawn o obligation)
    (hchild : obligation.pid ≠ none → ∀ c ∈ w.file.child, c.token ≠ obligation.token)
    (hexact : Exact obligation w) : w.Cached (some obligation) w.file.child where
  agrees := fun o' ho' s hs => by
    cases hs
    cases Option.some.inj (ho.symm.trans ho')
    exact hsame
  published := fun s hs hpid c hc htoken => by
    cases hs
    exact absurd htoken (hchild hpid c hc)
  exact := fun s hs => by
    cases hs
    exact hexact
  handled := fun x hx hproc => absurd (h.proc_of_spawn ho hx) hproc
  spawning_drawn := fun s hs => by
    cases hs
    rw [hsame.token]
    exact h.spawn_drawn o ho
  child_drawn := h.cached.child_drawn

/-- Once the groups are recovered, the exit of the process is all that was missing. -/
theorem ensures_recovered (h : w.Inv) (hsame : ∀ o ∈ w.row.spawn, SameSpawn o obligation)
    (hexit : ∀ o ∈ w.row.spawn, ∀ x ∈ w.live, x.token ≠ o.token) :
    Ensures (recoverSpawnOwnedGroups obligation.token)
      (fun b w' => b = true → ∀ o ∈ w'.row.spawn, Discharged w' o) w := by
  refine (ensures_recoverSpawnOwnedGroups obligation.token h).mono ?_
  rintro b _ - ⟨hb, gone, recovered, rfl, -⟩ htrue o ho
  exact .inr ⟨fun x hx => hexit o ho x (World.mem_live_of_lose hx),
    .inl ((hsame o ho).token ▸ hb htrue)⟩

theorem ensures_ownSpawn (h : w.Inv) :
    Ensures (ownSpawn obligation w.claim) (fun own w' => w.Later w' ∧ (own = false →
      obligation.creatorStartTimeTicks ≠ 0 → obligation.creatorPid = w.claim.pid →
        obligation.creatorStartTimeTicks ≠ w.claim.startTimeTicks)) w := by
  rw [ownSpawn]
  split
  · refine .bind (ensures_procStartTicks _ h) ?_
    rintro ticks _ hinv ⟨hlook, hself, -⟩
    refine .ret hinv ⟨hlook, fun hother _ _ heq => ?_⟩
    rw [hself rfl, heq] at hother
    simp at hother
  · rename_i hother
    exact .ret h ⟨.refl w, fun _ hticks hpid => absurd ⟨hticks, hpid⟩ hother⟩

/-- **An obligation without a pid** is of an earlier boot, of this very daemon with no process left,
or of a daemon that died and whose process died with it. -/
theorem ensures_resolvePidlessSpawn (h : w.Inv)
    (hsame : ∀ o ∈ w.row.spawn, SameSpawn o obligation) :
    Ensures (resolvePidlessSpawn obligation)
      (fun b w' => b = true → ∀ o ∈ w'.row.spawn, Discharged w' o) w := by
  refine .bind (ensures_currentBootId h) ?_
  rintro bootId _ hinv ⟨⟨gone, rfl⟩, hboot⟩
  split
  · rename_i hearlier
    obtain ⟨hsome, hcurrent, hne⟩ := hearlier
    refine .ret hinv fun _ o ho => ?_
    obtain ⟨boot, hoboot⟩ := Option.isSome_iff_exists.1 hsome
    obtain ⟨current, rfl⟩ := Option.isSome_iff_exists.1 hcurrent
    have hother : boot ≠ w.claim.bootId := fun heq =>
      hne (by rw [hoboot, heq, hboot current rfl])
    have hrow : boot ∈ o.bootId := by
      rw [← (hsame o ho).bootId]
      exact hoboot
    refine .inr ⟨fun x hx htoken => ?_, .inr ⟨boot, hrow, hother⟩⟩
    exact hother ((hinv.created x hx o ho htoken.symm).2.2 boot hrow)
  · refine .bind (ensures_attributes hinv) ?_
    rintro self _ hinv ⟨⟨gone', rfl⟩, rfl⟩
    refine .bind (ensures_ownSpawn hinv) ?_
    rintro own _ hinv ⟨⟨gone'', rfl⟩, hforeign⟩
    cases own with
    | true =>
      -- Of this very incarnation: its process is behind the handle, if it is anywhere.
      simp only [World.lose_proc]
      cases hproc : w.proc with
      | none =>
        refine ensures_recovered hinv hsame fun o ho x hx _ => ?_
        cases hproc.symm.trans (hinv.proc_of_spawn ho hx)
      | some proc =>
        refine .bind (ensures_exited proc hinv) ?_
        rintro b _ hinv ⟨⟨gone, rfl⟩, hb⟩
        cases b with
        | false => exact .ret hinv fun hb => by cases hb
        | true =>
          have hdead := hb.1 rfl
          refine .bind (ensures_waited proc hinv) ?_
          rintro _ _ hinv ⟨⟨gone', rfl⟩, -⟩
          refine .bind (ensures_forget hinv fun _ x hx heq => ?_) ?_
          · cases hproc.symm.trans heq
            exact hdead (World.mem_live_of_lose hx)
          · rintro _ _ hinv' ⟨gone'', rfl⟩
            refine ensures_recovered hinv' hsame fun o ho x hx _ => ?_
            have hx := World.mem_live_of_lose hx
            cases hproc.symm.trans (hinv.proc_of_spawn ho hx)
            exact hdead (World.mem_live_of_lose hx)
    | false =>
      -- Of a daemon that died: no process of its own runs, as this daemon's ticks differ.
      have hexit : ∀ o ∈ w.row.spawn, ∀ x ∈ w.live, x.token ≠ o.token := by
        intro o ho x hx htoken
        obtain ⟨hpid, hticks, -⟩ := h.created x hx o ho htoken.symm
        rw [← (hsame o ho).creatorPid] at hpid
        rw [← (hsame o ho).creatorStartTimeTicks] at hticks
        exact hforeign rfl (hticks ▸ h.self_ticks) hpid hticks
      cases obligation.parentDeathSignal with
      | false => exact .ret hinv fun hb => by cases hb
      | true =>
        refine .bind (ensures_whether _ hinv) ?_
        rintro supported _ hinv ⟨gone, rfl⟩
        cases supported with
        | false => exact .ret hinv fun hb => by cases hb
        | true =>
          refine ensures_recovered hinv hsame fun o ho x hx => hexit o ho x ?_
          exact World.mem_live_of_lose (World.mem_live_of_lose (World.mem_live_of_lose
            (World.mem_live_of_lose hx)))

/-- **An obligation with a pid** is resolved once nothing runs under the pid and ticks it says. -/
theorem ensures_resolveIdentifiedSpawn {pid : ℤ} (h : w.Inv) (hpid : obligation.pid = some pid)
    (hsame : ∀ o ∈ w.row.spawn, SameSpawn o obligation) (hexact : Exact obligation w) :
    Ensures (resolveIdentifiedSpawn settings turns obligation pid)
      (fun b w' => b = true → ∀ o ∈ w'.row.spawn, Discharged w' o) w := by
  have hgone : ∀ {v : World}, (∀ x ∈ v.live, x ∈ w.live) → v.row = w.row →
      Gone (holdOf obligation pid) v → ∀ o ∈ v.row.spawn, ∀ x ∈ v.live, x.token ≠ o.token := by
    intro v hlive hrow hgone o ho x hx htoken
    rw [hrow] at ho
    obtain ⟨hpid', hticks⟩ := hexact x (hlive x hx) (htoken.trans (hsame o ho).token.symm) pid hpid
    obtain ⟨ticks, hrecorded, hne⟩ := hgone x hx hpid'.symm
    exact hne (hticks ticks hrecorded)
  refine .bind (ensures_unresolvedAlive _ h) ?_
  rintro alive _ hinv ⟨⟨gone, rfl⟩, halive⟩
  cases alive with
  | false =>
    refine .bind (ensures_recovered hinv hsame (hgone (fun x hx => World.mem_live_of_lose hx) rfl (halive rfl))) ?_
    intro recovered _ hinv hdischarged
    cases recovered with
    | false => exact .ret hinv fun hb => by cases hb
    | true =>
      refine .bind (ensures_readState hinv) ?_
      rintro state _ hinv ⟨⟨gone', rfl⟩, rfl⟩
      split
      · refine .bind (ensures_writeState hinv hinv.cached) ?_
        rintro _ _ hinv ⟨gone'', rfl⟩
        exact .ret hinv fun _ o ho => ((hdischarged rfl o ho).lose).lose
      · exact .ret hinv fun _ o ho => (hdischarged rfl o ho).lose
  | true =>
    refine .bind (ensures_readState hinv) ?_
    rintro state _ hinv ⟨⟨gone', rfl⟩, rfl⟩
    refine .bind (ensures_writeState hinv hinv.cached) ?_
    rintro _ _ hinv ⟨gone'', rfl⟩
    refine .bind (ensures_convergeUnresolved _ hinv) ?_
    rintro converged _ hinv ⟨⟨gone₃, rfl⟩, hconverged⟩
    cases converged with
    | false =>
      refine .bind (keeps_deferAttempt hinv) ?_
      intro _ _ hinv _
      exact .ret hinv fun hb => by cases hb
    | true =>
      have hlive : ∀ x ∈ ((((w.lose gone).lose gone').lose gone'').lose gone₃).live, x ∈ w.live :=
        fun x hx => World.mem_live_of_lose (World.mem_live_of_lose (World.mem_live_of_lose
          (World.mem_live_of_lose hx)))
      refine .bind (ensures_recovered hinv hsame (hgone hlive rfl (hconverged rfl))) ?_
      intro recovered _ hinv hdischarged
      cases recovered with
      | false => exact .ret hinv fun hb => by cases hb
      | true =>
        refine .bind (ensures_readState hinv) ?_
        rintro state _ hinv ⟨⟨gone', rfl⟩, rfl⟩
        refine .bind (ensures_writeState hinv hinv.cached) ?_
        rintro _ _ hinv ⟨gone'', rfl⟩
        exact .ret hinv fun _ o ho => ((hdischarged rfl o ho).lose).lose

/-! ## The resolution keeps the invariant -/

/-- The record that was published under a cached obligation's token becomes the daemon's child. -/
theorem ensures_adoptDbPublished (h : w.Inv) (hcached : w.file.spawning = some obligation) :
    Ensures (adoptDbPublished obligation) (fun b w' => b = false → w.Later w') w := by
  refine .bind (ensures_readWorkerAuthority h) ?_
  rintro answer _ hinv ⟨⟨gone, rfl⟩, hrecord⟩
  cases answer with
  | none => exact .ret hinv fun _ => ⟨gone, rfl⟩
  | some worker =>
    cases worker with
    | none => exact .ret hinv fun _ => ⟨gone, rfl⟩
    | some record =>
      have hrow : record ∈ w.row.worker := (hrecord _ rfl).symm
      dsimp only
      split
      · exact .ret hinv fun _ => ⟨gone, rfl⟩
      · rename_i htoken
        rw [not_not] at htoken
        refine .bind (ensures_clock hinv) ?_
        rintro now _ hinv ⟨gone', rfl⟩
        refine .bind (ensures_setActiveChild hinv ?_ ?_ ?_) ?_
        · intro c hc x hx hxc
          cases hc
          exact h.recorded record hrow x hx hxc
        · intro c hc
          cases hc
          exact h.worker_drawn record hrow
        · rintro x hx hproc ⟨c, hc, hcx⟩
          cases hc
          exact hinv.cached.handled x hx hproc ⟨obligation, hcached, htoken.symm.trans hcx⟩
        · rintro _ _ hinv ⟨gone'', rfl⟩
          refine .bind (ensures_readState hinv) ?_
          rintro _ _ hinv ⟨⟨gone, rfl⟩, rfl⟩
          refine .bind (ensures_cacheSpawnLocal hinv hinv.cached.no_spawning) ?_
          rintro _ _ hinv -
          exact .ret hinv fun hb => by cases hb

theorem keeps_dropObligation (h : w.Inv) (hgood : ∀ o ∈ w.row.spawn, Discharged w o) :
    Keeps dropObligation w := by
  refine .bind (ensures_clearSpawn h hgood) ?_
  rintro cleared _ hinv -
  cases cleared with
  | false => exact .ret hinv trivial
  | true =>
    refine .bind (ensures_readState hinv) ?_
    rintro _ _ hinv ⟨⟨gone, rfl⟩, rfl⟩
    refine .bind (ensures_cacheSpawnLocal hinv hinv.cached.no_spawning) ?_
    rintro _ _ hinv -
    exact .ret hinv trivial

theorem keeps_finishPublication (h : w.Inv) (hrow : w.row.spawn = none) :
    Keeps finishPublication w := by
  have hmeta : Ensures (tryCatch (do writeMeta; return true) fun exc => do dropping exc; return false)
      (fun b w' => b = true → w.Later w') w := by
    refine .tryCatch (.andThen ((writeMeta_relies h).mono (fun _ _ hQ => hQ) ?_) ?_)
    · rintro _ _ ⟨hinv, rfl, -⟩
      exact ⟨hinv, fun hb => by cases hb⟩
    · rintro _ _ ⟨hinv, hlater⟩
      exact ⟨hinv, fun _ => hlater⟩
  refine .bind hmeta ?_
  intro written _ hinv hlater
  cases written with
  | false => exact .ret hinv trivial
  | true =>
    obtain ⟨gone, rfl⟩ := hlater rfl
    exact keeps_dropObligation hinv fun o ho => by cases hrow.symm.trans ho

theorem keeps_settleSpawningObligation {state : SupervisorState} (h : w.Inv)
    (hsame : ∀ o ∈ w.row.spawn, SameSpawn o obligation) (hexact : Exact obligation w)
    (hpublished : publicationInProgress state obligation = true → w.row.spawn = none) :
    Keeps (settleSpawningObligation settings turns state obligation) w := by
  rw [settleSpawningObligation]
  split
  · rename_i hprogress
    exact keeps_finishPublication h (hpublished hprogress)
  · have hresolve : Ensures
        (match obligation.pid with
          | none => resolvePidlessSpawn obligation
          | some pid => resolveIdentifiedSpawn settings turns obligation pid)
        (fun b w' => b = true → ∀ o ∈ w'.row.spawn, Discharged w' o) w := by
      split
      · exact ensures_resolvePidlessSpawn h hsame
      · rename_i pid hpid
        exact ensures_resolveIdentifiedSpawn h hpid hsame hexact
    refine .bind hresolve ?_
    intro resolved _ hinv hdischarged
    cases resolved with
    | false => exact .ret hinv trivial
    | true => exact keeps_dropObligation hinv (hdischarged rfl)

theorem keeps_resolveSpawningObligation (h : w.Inv) :
    Keeps (resolveSpawningObligation settings turns) w := by
  refine .bind (ensures_readState h) ?_
  rintro _ _ hinv ⟨⟨gone, rfl⟩, rfl⟩
  split
  · exact (keeps_deferAttempt hinv).bind fun _ _ hinv _ => .ret hinv trivial
  · cases hcached : w.file.spawning with
    | some obligation =>
      -- What is cached agrees with the row, whatever has become of the row meanwhile.
      refine .bind (ensures_adoptDbPublished hinv hcached) ?_
      intro adopted _ hinv hlater
      cases adopted with
      | true => exact .ret hinv trivial
      | false =>
        obtain ⟨gone', rfl⟩ := hlater rfl
        refine keeps_settleSpawningObligation hinv ?_ ?_ ?_
        · exact fun o ho => h.cached.agrees o ho obligation hcached
        · exact fun x hx htoken => hinv.cached.exact obligation hcached x hx htoken
        · intro hprogress
          rw [publicationInProgress] at hprogress
          split at hprogress
          · rename_i child pid hchild hpid
            obtain ⟨-, htoken, -⟩ := of_decide_eq_true hprogress
            refine h.cached.published obligation hcached ?_ child hchild htoken
            rw [hpid]
            exact Option.some_ne_none pid
          · cases hprogress
    | none =>
      refine .bind (ensures_readSpawnAuthority hinv) ?_
      rintro answer _ hinv ⟨⟨gone', rfl⟩, hanswer⟩
      cases answer with
      | none => exact .ret hinv trivial
      | some spawn =>
        obtain ⟨now, hspawn⟩ := hanswer spawn rfl
        cases spawn with
        | none => exact .ret hinv trivial
        | some obligation =>
          obtain ⟨o, ho, rfl⟩ := Option.map_eq_some_iff.1 hspawn.symm
          have hsame : ∀ o' ∈ w.row.spawn, SameSpawn o' (localObligation o now) := by
            intro o' ho'
            cases ho.symm.trans ho'
            exact ⟨rfl, rfl, rfl, rfl⟩
          have hpidless : (localObligation o now).pid = none := h.pidless o ho
          refine .bind (ensures_readState hinv) ?_
          rintro _ _ hinv ⟨⟨gone'', rfl⟩, rfl⟩
          refine .bind (ensures_cacheSpawnLocal hinv ?_) ?_
          · exact hinv.caches ho (hsame o ho) (fun hpid => absurd hpidless hpid)
              fun x _ _ pid hpid => by cases hpidless.symm.trans hpid
          · rintro _ _ hinv ⟨gone, rfl | rfl⟩ <;>
              refine keeps_settleSpawningObligation hinv hsame ?_ ?_
            · exact fun x _ _ pid hpid => by cases hpidless.symm.trans hpid
            · exact fun hprogress => by simp [publicationInProgress, hpidless] at hprogress
            · exact fun x _ _ pid hpid => by cases hpidless.symm.trans hpid
            · exact fun hprogress => by simp [publicationInProgress, hpidless] at hprogress

end Lubko.Spawn
