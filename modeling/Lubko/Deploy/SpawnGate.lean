import Lubko.Deploy.Intents

/-!
# The intent behind a spawn

`_spawn_and_publish` derives the intended commit once more under the generation lock, right before
it starts the worker. Writers of the desired record take the same lock, and so does the confirmation of
a mission. The other writers of the mission file do not: a mission that is published, rolled back or
archived between the read of the mission and the call of `_spawn_worker` is not seen.

* `newest_of_run` — what `_derive_action` runs is named by the newest live intent.
* `spawns_newest` — over whole runs, a worker is started for it when no mission write falls between.
* `mission_published_before_spawn` — one that does.
-/

namespace Lubko.Deploy

open Lubko.Lib Lubko.Supervise Lubko.Lifecycle

/-! ## The decision -/

/-- The result of `_derive_action`. -/
inductive Action where
  | hold
  | run (commit : PyStr)
  deriving DecidableEq

/-- The confirmed runtime: the commit behind `cli/current`, when it is usable. -/
def restoreConfirmed : Option PyStr → Action
  | some confirmed => .run confirmed
  | none => .hold

/-- `_derive_without_mission`. -/
def deriveWithoutMission : Option PyStr → Action
  | some desiredCommit => .run desiredCommit
  | none => .hold

/-- `_derive_with_mission`. -/
def deriveWithMission (mission : RollbackState) (desiredGen : ℤ) (desiredCommit : Option PyStr) :
    Action :=
  if mission.generation < desiredGen then
    match desiredCommit with
    | some commit => .run commit
    | none => .hold
  else if mission.status = .pending ∧ mission.supervisorOwned ≠ some true then .hold
  else if desiredGen < mission.generation then
    if mission.status = .pending then .run mission.commit else .hold
  else if mission.status = .pending then
    if desiredCommit = some mission.commit then .run mission.commit else .hold
  else .hold

/-- The half of `_derive_action` behind its read of the desired record. -/
def deriveFrom (desired : Option SupervisorDesired) (mission : Content RollbackState)
    (current : Option PyStr) : Action :=
  match mission with
  | .malformed => restoreConfirmed current
  | .absent => deriveWithoutMission (desired.map SupervisorDesired.commit)
  | .holds m =>
    deriveWithMission m ((desired.map SupervisorDesired.generation).getD 0)
      (desired.map SupervisorDesired.commit)

/-- `_derive_action`. -/
def deriveAction (desired : Content SupervisorDesired) (mission : Content RollbackState)
    (current : Option PyStr) : Action :=
  match desired with
  | .malformed => restoreConfirmed current
  | .absent => deriveFrom none mission current
  | .holds d => deriveFrom (some d) mission current

/-! ## The newest live intent -/

/-- A pending mission the supervisor owns. -/
def RollbackState.Live (m : RollbackState) : Prop :=
  m.status = .pending ∧ m.supervisorOwned = some true

/-- The commit of the live intent with the strictly greatest generation, or of both intents at one
generation; the usable commit behind `cli/current` when a record is corrupt. -/
inductive NewestIntent (desired : Content SupervisorDesired) (mission : Content RollbackState)
    (current : Option PyStr) (commit : PyStr) : Prop
  | corrupt (h : desired = .malformed ∨ mission = .malformed) (hc : current = some commit)
  | desired {d : SupervisorDesired} (hd : desired = .holds d) (hm : mission ≠ .malformed)
      (hnewest : ∀ m, mission = .holds m → m.generation < d.generation) (hc : d.commit = commit)
  | mission {m : RollbackState} (hm : mission = .holds m) (hlive : m.Live)
      (hd : desired ≠ .malformed)
      (hnewest : ∀ g ∈ desired.generation SupervisorDesired.generation, g < m.generation)
      (hc : m.commit = commit)
  | both {d : SupervisorDesired} {m : RollbackState} (hd : desired = .holds d)
      (hm : mission = .holds m) (hlive : m.Live) (hg : m.generation = d.generation)
      (hdc : d.commit = commit) (hmc : m.commit = commit)

/-- What `_derive_with_mission` runs. -/
theorem deriveWithMission_eq_run {m : RollbackState} {g : ℤ} {desiredCommit : Option PyStr}
    {c : PyStr} (h : deriveWithMission m g desiredCommit = .run c) :
    (m.generation < g ∧ desiredCommit = some c) ∨
      (g < m.generation ∧ m.Live ∧ m.commit = c) ∨
        (m.generation = g ∧ m.Live ∧ m.commit = c ∧ desiredCommit = some c) := by
  unfold deriveWithMission at h
  by_cases holder : m.generation < g
  · rw [if_pos holder] at h
    cases desiredCommit with
    | none => cases h
    | some commit =>
      cases h
      exact .inl ⟨holder, rfl⟩
  rw [if_neg holder] at h
  by_cases howned : m.status = .pending ∧ m.supervisorOwned ≠ some true
  · rw [if_pos howned] at h
    cases h
  rw [if_neg howned] at h
  have hlive : m.status = .pending → m.Live := fun hs =>
    ⟨hs, by_contra fun hno => howned ⟨hs, hno⟩⟩
  by_cases hnewer : g < m.generation
  · rw [if_pos hnewer] at h
    split_ifs at h with hpending
    cases h
    exact .inr (.inl ⟨hnewer, hlive hpending, rfl⟩)
  · rw [if_neg hnewer] at h
    split_ifs at h with hpending hcommit
    cases h
    exact .inr (.inr ⟨by omega, hlive hpending, rfl, hcommit⟩)

/-- **What `_derive_action` runs is the newest live intent.** -/
theorem newest_of_run {desired : Content SupervisorDesired} {mission : Content RollbackState}
    {current : Option PyStr} {c : PyStr} (h : deriveAction desired mission current = .run c) :
    NewestIntent desired mission current c := by
  have hcorrupt : restoreConfirmed current = .run c → current = some c := by
    intro hr
    cases hcur : current with
    | none =>
      rw [hcur] at hr
      cases hr
    | some confirmed =>
      rw [hcur] at hr
      cases hr
      rfl
  have hreadable : ∀ {α : Type} (a : α), Content.holds a ≠ .malformed := by
    intro α a hno
    cases hno
  cases desired with
  | malformed => exact .corrupt (.inl rfl) (hcorrupt h)
  | absent =>
    cases mission with
    | malformed => exact .corrupt (.inr rfl) (hcorrupt h)
    | absent => cases h
    | holds m =>
      rcases deriveWithMission_eq_run h with ⟨-, hnone⟩ | ⟨hlt, hlive, hc⟩ | ⟨-, -, -, hnone⟩
      · cases hnone
      · refine .mission rfl hlive (by intro hno; cases hno) (fun g hg => ?_) hc
        rw [← Option.some.inj hg]
        exact hlt
      · cases hnone
  | holds d =>
    cases mission with
    | malformed => exact .corrupt (.inr rfl) (hcorrupt h)
    | absent =>
      cases h
      refine .desired rfl (by intro hno; cases hno) (fun m hm => ?_) rfl
      cases hm
    | holds m =>
      rcases deriveWithMission_eq_run h with ⟨hlt, hc⟩ | ⟨hlt, hlive, hc⟩ | ⟨heq, hlive, hc, hdc⟩
      · refine .desired rfl (hreadable m) (fun m' hm' => ?_) (Option.some.inj hc)
        cases hm'
        exact hlt
      · refine .mission rfl hlive (hreadable d) (fun g hg => ?_) hc
        rw [← Option.some.inj hg]
        exact hlt
      · exact .both rfl rfl hlive heq (Option.some.inj hdc) hc

/-! ## Runs -/

/-- Where the daemon is in `_spawn_and_publish`. It holds the generation lock in every place but the
first. -/
inductive Gate where
  | outside
  | locked (commit : PyStr)
  /-- The desired record is read. -/
  | deciding (commit : PyStr) (desired : Option SupervisorDesired)
  /-- A record was read as corrupt; `cli/current` is read next. -/
  | restoring (commit : PyStr)
  /-- `_derive_action` yielded `run commit`. -/
  | authorized (commit : PyStr)
  /-- `_confirm_authority` returned true; `_spawn_worker(commit)` is called next. -/
  | confirmed (commit : PyStr)
  deriving DecidableEq

/-- The records, the usable commit behind `cli/current`, and the daemon. -/
structure Host where
  records : Records
  current : Option PyStr
  gate : Gate
  deriving DecidableEq

/-- A step of the daemon, or of another process. -/
inductive Move where
  | requestRun (now : ℚ) (request : RunRequest)
  | ensureRunIntent (now : ℚ) (request : RunRequest)
  | clearMigrationFlag (generation : ℤ)
  /-- `_confirmation_locked_body`. -/
  | confirmMission
  /-- The writes of the mission file that take no generation lock: `publish_mission`, the refreshed
  record of a handoff, the terminal record of a rollback, `archive_mission`. -/
  | publishMission (mission : RollbackState)
  | refreshMission (deadline : PyFloat)
  | rollBackMission
  | archiveMission (status : MissionStatus)
  /-- `cli.set_current`, and changes of the runtime behind it. -/
  | moveCurrent (current : Option PyStr)
  | enter (commit : PyStr)
  | readDesired
  | readMission
  | readCurrent
  | confirmAuthority (fresh : Bool)
  | spawnWorker

/-- The mission a move writes without the generation lock. -/
def Move.unlocked? (mission : Content RollbackState) : Move → Option RollbackState
  | .publishMission m => some m
  | .refreshMission deadline => mission.value?.map fun m => { m with deadline := deadline }
  | .rollBackMission => mission.value?.map fun m => { m with status := .rolledBack }
  | .archiveMission status => mission.value?.map fun m => { m with status := status }
  | _ => none

/-- The daemon goes on with the commit it was asked to run, or leaves the lock. -/
def Gate.decide (commit : PyStr) (action : Action) : Gate :=
  if action = .run commit then .authorized commit else .outside

/-- Change the records while the daemon is outside the generation lock. -/
def Host.locked (h : Host) (change : Records → Option Records) : Option Host :=
  if h.gate = .outside then (change h.records).map fun r => { h with records := r } else none

/-- One step; `none` when it is not enabled. -/
def Host.step (h : Host) : Move → Option Host
  | .requestRun now request =>
    h.locked fun r => (r.writeRunIntentLocked now request).map Prod.snd
  | .ensureRunIntent now request => h.locked fun r => (r.ensureRunIntent now request).map Prod.snd
  | .clearMigrationFlag generation => h.locked fun r => some (r.clearMigrationFlag generation)
  | .confirmMission =>
    h.locked fun r => r.mission.value?.map fun m =>
      { r with mission := .holds { m with status := .confirmed } }
  | .moveCurrent current => some { h with current := current }
  | .enter commit => if h.gate = .outside then some { h with gate := .locked commit } else none
  | .readDesired =>
    match h.gate with
    | .locked commit =>
      match h.records.desired with
      | .malformed => some { h with gate := .restoring commit }
      | .absent => some { h with gate := .deciding commit none }
      | .holds d => some { h with gate := .deciding commit (some d) }
    | _ => none
  | .readMission =>
    match h.gate with
    | .deciding commit desired =>
      match h.records.mission with
      | .malformed => some { h with gate := .restoring commit }
      | mission => some { h with gate := .decide commit (deriveFrom desired mission none) }
    | _ => none
  | .readCurrent =>
    match h.gate with
    | .restoring commit =>
      some { h with gate := .decide commit (restoreConfirmed h.current) }
    | _ => none
  | .confirmAuthority fresh =>
    match h.gate with
    | .authorized commit =>
      some { h with gate := if fresh then .confirmed commit else .outside }
    | _ => none
  | .spawnWorker =>
    match h.gate with
    | .confirmed _ => some { h with gate := .outside }
    | _ => none
  | move =>
    (move.unlocked? h.records.mission).map fun m =>
      { h with records := { h.records with mission := .holds m } }

/-- The action of the records as they stand. -/
def Host.action (h : Host) : Action := deriveAction h.records.desired h.records.mission h.current

/-- The commit the daemon has decided to run. -/
def Gate.decided? : Gate → Option PyStr
  | .authorized commit | .confirmed commit => some commit
  | _ => none

/-- The daemon has read what it decides by, but for `cli/current`. -/
def Gate.HasRead (gate : Gate) : Prop := gate.decided? ≠ none ∨ ∃ commit, gate = .restoring commit

/-- Two missions that `_derive_action` does not tell apart. -/
def SameIntent (m m' : RollbackState) : Prop :=
  m.generation = m'.generation ∧ m.status = m'.status ∧ m.commit = m'.commit ∧
    m.supervisorOwned = m'.supervisorOwned

/-- A mission older than the desired record. -/
def Stale (d : SupervisorDesired) (m : RollbackState) : Prop := m.generation < d.generation

/-- A mission write that leaves the newest intent as it was: the desired record is corrupt, or no
mission before or after is as new as the desired record, or the intent of the mission is kept. -/
inductive Unnoticed (desired : Content SupervisorDesired) (mission : Content RollbackState)
    (m' : RollbackState) : Prop
  | corrupt (hd : desired = .malformed)
  | stale {d : SupervisorDesired} (hd : desired = .holds d) (hm : mission ≠ .malformed)
      (hbefore : ∀ m, mission = .holds m → Stale d m) (hafter : Stale d m')
  | same {m : RollbackState} (hm : mission = .holds m) (hsame : SameIntent m m')

/-- Once the daemon has read the records, and until it spawns, no mission write without the lock
changes the newest intent, and `cli/current` is not moved while the daemon goes by it. -/
def Undisturbed (h : Host) (move : Move) : Prop :=
  (h.gate.HasRead → ∀ m' ∈ move.unlocked? h.records.mission,
    Unnoticed h.records.desired h.records.mission m') ∧
  (h.gate.decided? ≠ none → h.records.desired = .malformed ∨ h.records.mission = .malformed →
    ∀ current, move = .moveCurrent current → current = h.current)

/-- A worker is started for the commit of the newest live intent on record. -/
def SpawnsNewest (h : Host) : Move → Prop
  | .spawnWorker => ∀ commit, h.gate = .confirmed commit → h.action = .run commit ∧
    NewestIntent h.records.desired h.records.mission h.current commit
  | _ => True

/-! ## The invariant -/

/-- What the daemon has read is what stands on record. -/
structure Host.Inv (h : Host) : Prop where
  reading : ∀ commit desired, h.gate = .deciding commit desired →
    (desired = none ∧ h.records.desired = .absent) ∨
      ∃ d, desired = some d ∧ h.records.desired = .holds d
  restoring : ∀ commit, h.gate = .restoring commit →
    h.records.desired = .malformed ∨ h.records.mission = .malformed
  decided : ∀ commit ∈ h.gate.decided?, h.action = .run commit

theorem Host.Inv.of_outside {h : Host} (hg : h.gate = .outside) : h.Inv where
  reading commit desired hd := by
    rw [hg] at hd
    cases hd
  restoring commit hr := by
    rw [hg] at hr
    cases hr
  decided commit hc := by
    rw [hg] at hc
    cases hc

/-- A record change under the lock leaves the daemon outside. -/
theorem outside_of_locked {h h' : Host} {change : Records → Option Records}
    (hs : h.locked change = some h') : h'.gate = .outside := by
  rw [Host.locked] at hs
  split_ifs at hs with hg
  obtain ⟨r, -, rfl⟩ := Option.map_eq_some_iff.1 hs
  exact hg

/-- The daemon decides by the records as they stand. -/
theorem Host.Inv.decide {h : Host} {commit : PyStr} {action : Action} (ha : h.action = action) :
    Host.Inv { h with gate := .decide commit action } := by
  by_cases hrun : action = .run commit
  · refine ⟨fun c desired hd => ?_, fun c hr => ?_, fun c hc => ?_⟩
    · simp [Gate.decide, hrun] at hd
    · simp [Gate.decide, hrun] at hr
    · obtain rfl : commit = c := by simpa [Gate.decide, hrun, Gate.decided?] using hc
      exact ha.trans hrun
  · exact .of_outside (if_neg hrun)

/-- A corrupt record leaves the choice to `cli/current`. -/
theorem deriveAction_malformed {desired : Content SupervisorDesired}
    {mission : Content RollbackState} (current : Option PyStr)
    (h : desired = .malformed ∨ mission = .malformed) :
    deriveAction desired mission current = restoreConfirmed current := by
  rcases h with rfl | rfl
  · rfl
  · cases desired with
    | malformed | absent => rfl
    | holds d => rfl

/-- Readable records leave no choice to `cli/current`. -/
theorem deriveAction_readable {desired : Content SupervisorDesired}
    {mission : Content RollbackState} (current current' : Option PyStr)
    (h : ¬ (desired = .malformed ∨ mission = .malformed)) :
    deriveAction desired mission current' = deriveAction desired mission current := by
  cases desired with
  | malformed => exact absurd (.inl rfl) h
  | absent =>
    cases mission with
    | malformed => exact absurd (.inr rfl) h
    | absent | holds _ => rfl
  | holds d =>
    cases mission with
    | malformed => exact absurd (.inr rfl) h
    | absent | holds _ => rfl

/-- The action behind a stale mission is that of the desired record. -/
theorem deriveAction_stale {d : SupervisorDesired} {mission : Content RollbackState}
    (current : Option PyStr) (hm : mission ≠ .malformed)
    (hstale : ∀ m, mission = .holds m → Stale d m) :
    deriveAction (.holds d) mission current = .run d.commit := by
  cases mission with
  | malformed => exact absurd rfl hm
  | absent => rfl
  | holds m => exact if_pos (hstale m rfl)

/-- An unnoticed write keeps the action. -/
theorem Unnoticed.deriveAction_eq {desired : Content SupervisorDesired}
    {mission : Content RollbackState} {m' : RollbackState} (current : Option PyStr)
    (h : Unnoticed desired mission m') :
    deriveAction desired (.holds m') current = deriveAction desired mission current := by
  cases h with
  | corrupt hd =>
    rw [deriveAction_malformed current (.inl hd), deriveAction_malformed current (.inl hd)]
  | stale hd hm hbefore hafter =>
    rw [hd, deriveAction_stale current hm hbefore]
    refine deriveAction_stale current (by intro hno; cases hno) fun m hm' => ?_
    cases hm'
    exact hafter
  | same hm hsame =>
    obtain ⟨hg, hs, hc, ho⟩ := hsame
    rw [hm]
    cases desired with
    | malformed => rfl
    | absent | holds _ => simp only [deriveAction, deriveFrom, deriveWithMission, hg, hs, hc, ho]

theorem Host.Inv.writeMission {h : Host} (hi : h.Inv) {m' : RollbackState}
    (hu : h.gate.HasRead → Unnoticed h.records.desired h.records.mission m') :
    Host.Inv { h with records := { h.records with mission := .holds m' } } := by
  refine ⟨hi.reading, fun commit hr => ?_, fun commit hc => ?_⟩
  · rcases hi.restoring commit hr with hd | hm
    · exact .inl hd
    cases hu (.inr ⟨commit, hr⟩) with
    | corrupt hd => exact .inl hd
    | stale _ hno => exact absurd hm hno
    | same hholds =>
      rw [hholds] at hm
      cases hm
  · have hread : h.gate.HasRead := .inl (by rw [Option.mem_def.1 hc]; nofun)
    exact ((hu hread).deriveAction_eq h.current).trans (hi.decided commit hc)

theorem Host.Inv.moveCurrent {h : Host} (hi : h.Inv) {current : Option PyStr}
    (hu : h.gate.decided? ≠ none → h.records.desired = .malformed ∨ h.records.mission = .malformed →
      current = h.current) :
    Host.Inv { h with current := current } := by
  refine ⟨hi.reading, hi.restoring, fun commit hc => ?_⟩
  refine Eq.trans ?_ (hi.decided commit hc)
  by_cases hcorrupt : h.records.desired = .malformed ∨ h.records.mission = .malformed
  · rw [hu (by rw [Option.mem_def.1 hc]; nofun) hcorrupt]
  · exact deriveAction_readable h.current current hcorrupt

/-- **One step keeps what was read in line with the records.** -/
theorem Host.Inv.step {h h' : Host} {move : Move} (hi : h.Inv) (hu : Undisturbed h move)
    (hs : h.step move = some h') : h'.Inv := by
  cases move with
  | requestRun now request | ensureRunIntent now request | clearMigrationFlag generation
    | confirmMission =>
    rw [Host.step] at hs
    exact .of_outside (outside_of_locked hs)
  | publishMission _ | refreshMission _ | rollBackMission | archiveMission _ =>
    simp only [Host.step] at hs
    obtain ⟨m', hm', rfl⟩ := Option.map_eq_some_iff.1 hs
    exact hi.writeMission fun hread => hu.1 hread m' hm'
  | moveCurrent current =>
    obtain rfl := Option.some.inj hs
    exact hi.moveCurrent fun hd hcorrupt => hu.2 hd hcorrupt current rfl
  | enter commit =>
    rw [Host.step] at hs
    split_ifs at hs
    obtain rfl := Option.some.inj hs
    exact ⟨nofun, nofun, nofun⟩
  | readDesired =>
    rw [Host.step] at hs
    split at hs
    · split at hs
      · rename_i commit hmalformed
        obtain rfl := Option.some.inj hs
        exact ⟨nofun, fun _ _ => .inl hmalformed, nofun⟩
      · rename_i habsent
        obtain rfl := Option.some.inj hs
        refine ⟨fun commit desired hd => .inl ⟨?_, habsent⟩, nofun, nofun⟩
        cases hd
        rfl
      · rename_i d hholds
        obtain rfl := Option.some.inj hs
        refine ⟨fun commit desired hd => .inr ⟨d, ?_, hholds⟩, nofun, nofun⟩
        cases hd
        rfl
    · cases hs
  | readMission =>
    rw [Host.step] at hs
    split at hs
    · rename_i commit desired hg
      split at hs
      · rename_i hmalformed
        obtain rfl := Option.some.inj hs
        exact ⟨nofun, fun _ _ => .inr hmalformed, nofun⟩
      · rename_i hreadable
        obtain rfl := Option.some.inj hs
        refine .decide ?_
        have hno : ¬ (h.records.desired = .malformed ∨ h.records.mission = .malformed) := by
          rintro (hd | hm)
          · rcases hi.reading commit desired hg with ⟨-, hd'⟩ | ⟨d, -, hd'⟩ <;> rw [hd] at hd' <;>
              cases hd'
          · exact hreadable hm
        rw [Host.action, deriveAction_readable none h.current hno]
        rcases hi.reading commit desired hg with ⟨rfl, hd⟩ | ⟨d, rfl, hd⟩
        · rw [hd]
          rfl
        · rw [hd]
          rfl
    · cases hs
  | readCurrent =>
    rw [Host.step] at hs
    split at hs
    · rename_i commit hg
      obtain rfl := Option.some.inj hs
      exact .decide (deriveAction_malformed h.current (hi.restoring commit hg))
    · cases hs
  | confirmAuthority fresh =>
    rw [Host.step] at hs
    split at hs
    · rename_i commit hg
      obtain rfl := Option.some.inj hs
      cases fresh with
      | false => exact .of_outside rfl
      | true =>
        refine ⟨nofun, nofun, fun c hc => ?_⟩
        exact hi.decided c (by rw [hg]; exact hc)
    · cases hs
  | spawnWorker =>
    rw [Host.step] at hs
    split at hs
    · obtain rfl := Option.some.inj hs
      exact .of_outside rfl
    · cases hs

/-- **A worker is started only for the newest live intent**, in every run in which no mission write
without the generation lock, and no move of `cli/current`, changes the intent between the reads of
the daemon and its spawn. -/
theorem spawns_newest {start : Host} (hstart : start.gate = .outside) {moves : List Move}
    (hu : Always Host.step Undisturbed start moves) :
    Always Host.step SpawnsNewest start moves := by
  intro pre move hpre h hexec
  have hpre' : Always Host.step Undisturbed start pre := fun pre' b hb m hm =>
    hu pre' b (hb.trans ((List.prefix_append pre [move]).trans hpre)) m hm
  have hinv : h.Inv :=
    exec_invariant_of_always (fun _ _ _ => Host.Inv.step) (.of_outside hstart) hpre' hexec
  cases move with
  | spawnWorker =>
    intro commit hg
    have hrun : h.action = .run commit := hinv.decided commit (by rw [hg]; rfl)
    exact ⟨hrun, newest_of_run hrun⟩
  | requestRun _ _ | ensureRunIntent _ _ | clearMigrationFlag _ | confirmMission | publishMission _
    | refreshMission _ | rollBackMission | archiveMission _ | moveCurrent _ | enter _ | readDesired
    | readMission | readCurrent | confirmAuthority _ => trivial

/-- A host without records. -/
def unusedHost : Host := ⟨⟨0, .absent, .absent, .absent⟩, none, .outside⟩

/-- A restart of the previous commit, up to the return of `_confirm_authority`. -/
def gatedRun : List Move :=
  [.requestRun 0 restartPrevious, .enter restartPrevious.commit, .readDesired, .readMission,
    .confirmAuthority true]

/-- The restarted commit is spawned. -/
theorem spawns_newest_restart : ∃ h, exec Host.step unusedHost gatedRun = some h ∧
    h.gate = .confirmed restartPrevious.commit ∧ h.action = .run restartPrevious.commit := by
  have hu : Always Host.step Undisturbed unusedHost (gatedRun ++ [.spawnWorker]) := by
    have hquiet : ∀ move ∈ gatedRun ++ [.spawnWorker],
        (∀ mission, move.unlocked? mission = none) ∧ ∀ current, move ≠ .moveCurrent current := by
      simp only [gatedRun, List.cons_append, List.nil_append, List.forall_mem_cons]
      refine ⟨⟨?_, ?_⟩, ⟨?_, ?_⟩, ⟨?_, ?_⟩, ⟨?_, ?_⟩, ⟨?_, ?_⟩, ⟨?_, ?_⟩, List.forall_mem_nil _⟩
      all_goals first | exact fun _ => rfl | (intro _ h; cases h)
    intro pre move hpre h _
    obtain ⟨hmission, hcurrent⟩ := hquiet move (hpre.subset (by simp))
    refine ⟨fun _ m' hm' => ?_, fun _ _ current hm => absurd hm (hcurrent current)⟩
    rw [hmission] at hm'
    cases hm'
  have hnewest := spawns_newest rfl hu gatedRun .spawnWorker (List.prefix_refl _) _ rfl _ rfl
  exact ⟨_, rfl, rfl, hnewest.1⟩

/-- The same run, with a mission to another commit published right before the spawn. -/
def supersededRun : List Move :=
  gatedRun ++ [.publishMission { supervisedMission with generation := 2 }]

/-- The mission is the newest live intent when the worker is started for the commit it replaces. -/
theorem mission_published_before_spawn :
    (∃ h, exec Host.step unusedHost supersededRun = some h ∧
      h.gate = .confirmed restartPrevious.commit ∧ h.action = .run supervisedMission.commit) ∧
    ¬ Always Host.step SpawnsNewest unusedHost (supersededRun ++ [.spawnWorker]) := by
  refine ⟨⟨_, rfl, rfl, rfl⟩, fun h => ?_⟩
  have hnewest := h supersededRun .spawnWorker (List.prefix_refl _) _ rfl _ rfl
  exact absurd hnewest.1 (by decide)

end Lubko.Deploy
