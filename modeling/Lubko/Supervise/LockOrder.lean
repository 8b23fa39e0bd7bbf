import Lubko.Lib.LockWait

/-!
# The locks of the command line tools and the daemon's one thread

`deploy_lock`, `consumer_lock` and `generation_lock` are exclusive. The daemon serves its control
socket and reconciles in one thread, so a client without the state token that waits for a reply
waits for the daemon as well. Of each command the model keeps its `with` blocks, its requests and
its branches; with the token a request is a direct call in the client's own process.

* `handleControlRequest` — the lock that each handler takes.
* `reconcile` — the locks of one reconciliation cycle.
* `Command.script` — `recover`, `repair`, and the manual and queued deploy and restart.

Main result: `no_wait_cycle_iff`. The writers of the pre-spawn obligation ask the daemon for a write
that takes `consumer_lock` while they hold that lock themselves, although the writer's own
documentation forbids it; a queue deploy asks for a snapshot under `generation_lock`, which the
daemon takes before every spawn; and every command asks under `deploy_lock`, which the completion
of a cold migration takes.
-/

namespace Lubko.Supervise.LockOrder

open Lubko.Lib.LockWait Lubko.Lib.LockWait.Script

inductive Lock where
  | deploy
  | consumer
  | generation
  deriving DecidableEq

/-- The request types of the control socket. -/
inductive Request where
  | ping
  | deploy
  | status
  | authoritySnapshot
  | setSpawningObligation
  | clearSpawningObligation
  | allocateGeneration
  | ensureRunIntent
  deriving DecidableEq

/-! ## The daemon -/

/-- The daemon holds the token, so nothing that it runs sends a request. -/
abbrev DaemonScript := Script Lock PEmpty

section Shared

variable {R : Type}

def writeStatePreservingAuthority : Script Lock R := locked .consumer skip

def requestRun : Script Lock R := locked .generation skip

def ensureRunIntent : Script Lock R := locked .generation skip

def clearMigrationFlag : Script Lock R := locked .generation skip

end Shared

/-- `_handle_control_request`; a malformed payload is refused before anything is locked. -/
def handleControlRequest : Request → DaemonScript
  | .ping => skip
  | .deploy => opt requestRun
  | .status => skip
  | .authoritySnapshot => skip
  | .setSpawningObligation => opt writeStatePreservingAuthority
  | .clearSpawningObligation => writeStatePreservingAuthority
  | .allocateGeneration => locked .generation skip
  | .ensureRunIntent => opt ensureRunIntent

/-- What may happen in the reconciliation cycles of a daemon: a pending install request is there to
be promoted, a worker is to be spawned, the desired intent is a cold migration. -/
structure Daemon where
  promotes : Bool
  spawns : Bool
  migrates : Bool
  deriving DecidableEq

/-- A part of a cycle that is run only where the daemon has a reason to. -/
def during (b : Bool) (s : DaemonScript) : DaemonScript := if b then opt s else skip

def promotePendingRequest (d : Daemon) : DaemonScript := during d.promotes ensureRunIntent

/-- `_spawn_and_publish` holds the generation lock up to `Popen`. -/
def spawnAndPublish : DaemonScript := locked .generation skip

def ensureWorker (d : Daemon) : DaemonScript :=
  locked .consumer (during d.spawns spawnAndPublish)

def completeColdMigration (d : Daemon) : DaemonScript :=
  during d.migrates (locked .deploy (opt clearMigrationFlag))

/-- `_retire_child` outside the consumer lock publishes through the merging writer. -/
def retireChild : DaemonScript := opt writeStatePreservingAuthority

/-- `_apply_desired`: the retirement, the backoff or the transition are published, and a worker is
ensured. -/
def applyDesired (d : Daemon) : DaemonScript :=
  all [opt retireChild, opt writeStatePreservingAuthority, opt (ensureWorker d)]

def ensureHeld : DaemonScript := opt retireChild

/-- `_probe_readiness`: the result of the probe is published, or the worker is retired. -/
def probeReadiness : DaemonScript := all [opt retireChild, opt writeStatePreservingAuthority]

/-- One call of `reconcile`. -/
def reconcile (d : Daemon) : DaemonScript :=
  all [
    promotePendingRequest d,
    choice writeStatePreservingAuthority -- the ownership hold is malformed
      (choice (applyDesired d)
        (all [
          opt writeStatePreservingAuthority, -- a crash, a retired child, a stable worker
          choice ensureHeld
            (opt (all [
              ensureWorker d,
              opt writeStatePreservingAuthority, -- `_record_mission_progress`
              probeReadiness,
              completeColdMigration d]))]))]

/-! ## The clients -/

abbrev ClientScript := Script Lock Request

/-- `read_state_client` and `read_desired_client`: with the token a file is read, without it the
daemon is asked for a snapshot. -/
def readClient (token : Bool) : ClientScript := if token then skip else ask .authoritySnapshot

def requestRunClient (token : Bool) : ClientScript := if token then requestRun else ask .deploy

def setSpawningObligationClient (token : Bool) : ClientScript :=
  if token then skip else ask .setSpawningObligation

def clearSpawningObligationClient (token : Bool) : ClientScript :=
  if token then skip else ask .clearSpawningObligation

/-- The desired intent and the applied state are both read. -/
def supervisorAuthoritativeCommits (token : Bool) : ClientScript :=
  all [readClient token, readClient token]

def removeCliRoot (token : Bool) : ClientScript := opt (supervisorAuthoritativeCommits token)

def gcCliRoots (token : Bool) : ClientScript := supervisorAuthoritativeCommits token

section Recover

def resolveStaleRecoveryObligation (token : Bool) : ClientScript :=
  all [readClient token, opt (clearSpawningObligationClient token)]

/-- `_recover_consumer_locked`: the obligation is written before the spawn, cleared where the spawn
fails, written again with the identity of the worker, and cleared where that worker is converged. -/
def recoverConsumerLocked (token : Bool) : ClientScript :=
  opt (all [
    resolveStaleRecoveryObligation token,
    opt (all [
      setSpawningObligationClient token,
      opt (choice (clearSpawningObligationClient token)
        (all [
          setSpawningObligationClient token,
          opt (clearSpawningObligationClient token)]))])])

def recover (token : Bool) : ClientScript :=
  locked .deploy (locked .consumer (recoverConsumerLocked token))

end Recover

section Repair

def releaseAdoptionAuthority (token : Bool) : ClientScript :=
  all [readClient token, opt (clearSpawningObligationClient token)]

def repairAuthorityTransitionLocked (token : Bool) : ClientScript :=
  opt (all [
    readClient token, -- `_pre_adoption_authority_error`
    opt (all [gcCliRoots token, opt (releaseAdoptionAuthority token)])])

def repair (token : Bool) : ClientScript :=
  locked .deploy (opt (locked .consumer (repairAuthorityTransitionLocked token)))

end Repair

section Deploy

def activateMaintainedCli (token : Bool) : ClientScript := opt (gcCliRoots token)

def completeDeployHandoff (token : Bool) : ClientScript :=
  opt (all [requestRunClient token, opt (activateMaintainedCli token)])

def deployManual (token : Bool) : ClientScript :=
  locked .deploy (opt (completeDeployHandoff token))

def queueDeployCandidateConverged (token : Bool) : ClientScript :=
  locked .generation (readClient token)

/-- `_restore_after_handoff_failure`: the previous commit is requested, awaited, and reconciled
under the generation lock. -/
def restoreAfterHandoffFailure (token : Bool) : ClientScript :=
  opt (all [
    queueDeployCandidateConverged token,
    opt (all [requestRunClient token, opt (locked .generation (readClient token))])])

def finishQueueDeploy (token : Bool) : ClientScript :=
  all [completeDeployHandoff token, opt (restoreAfterHandoffFailure token)]

/-- `_deploy_helper_locked`, in the detached helper that holds the deployment lock to its end. -/
def queueDeploy (token : Bool) : ClientScript :=
  locked .deploy (opt (choice (removeCliRoot token) (finishQueueDeploy token)))

end Deploy

section Restart

/-- `_restart_intent_locked` and `_request_restart_intent_locked`. -/
def restartIntentLocked (token : Bool) : ClientScript :=
  opt (all [readClient token, opt (all [readClient token, requestRunClient token])])

def restartManual (token : Bool) : ClientScript := locked .deploy (restartIntentLocked token)

/-- The preparation and the handoff each take the deployment lock. -/
def queueRestart (token : Bool) : ClientScript :=
  all [
    locked .deploy (opt (readClient token)),
    opt (locked .deploy (restartIntentLocked token))]

end Restart

inductive Command where
  | recover
  | repair
  | deployManual
  | queueDeploy
  | restartManual
  | queueRestart
  deriving DecidableEq

def Command.script : Command → Bool → ClientScript
  | recover => LockOrder.recover
  | repair => LockOrder.repair
  | deployManual => LockOrder.deployManual
  | queueDeploy => LockOrder.queueDeploy
  | restartManual => LockOrder.restartManual
  | queueRestart => LockOrder.queueRestart

/-! ## The system -/

theorem script_nested (c : Command) (token : Bool) : (c.script token).Nested [] := by
  cases c <;> cases token <;> decide

theorem handler_nested (r : Request) : (handleControlRequest r).Nested [] := by
  cases r <;> decide

theorem reconcile_nested (d : Daemon) : (reconcile d).Nested [] := by
  obtain ⟨p, s, m⟩ := d
  cases p <;> cases s <;> cases m <;> decide

/-- Clients that run these commands, each with the token or without it, beside this daemon. -/
def system (A : Set (Command × Bool)) (d : Daemon) : System Lock Request where
  operations := {s | ∃ c token, (c, token) ∈ A ∧ s = c.script token}
  handler := handleControlRequest
  turns := {reconcile d}
  operations_nested := by
    rintro s ⟨c, token, -, rfl⟩
    exact script_nested c token
  handler_nested := handler_nested
  turns_nested := by
    rintro t rfl
    exact reconcile_nested d

/-! ## Who asks under which lock -/

theorem mem_locks_reconcile {l : Lock} {d : Daemon} :
    l ∈ (reconcile d).locks ↔ l = .consumer ∨
      (l = .generation ∧ (d.promotes = true ∨ d.spawns = true ∨ d.migrates = true)) ∨
      (l = .deploy ∧ d.migrates = true) := by
  obtain ⟨p, s, m⟩ := d
  cases l <;> cases p <;> cases s <;> cases m <;> decide

/-- With the token nothing is asked of the daemon. -/
theorem points_token (c : Command) : (c.script true).points [] = [] := by
  cases c <;> rfl

/-- Without it every request is sent under the deployment lock. -/
theorem deploy_mem_of_point {c : Command} {p : List Lock × Request}
    (hp : p ∈ (c.script false).points []) : .deploy ∈ p.1 := by
  revert p
  cases c <;> decide

theorem exists_point (c : Command) : ∃ p, p ∈ (c.script false).points [] := by
  cases c <;> exact ⟨_, List.mem_cons_self ..⟩

/-- The manual commands and the restarts hold no other lock there, and ask for nothing that takes
it. -/
theorem point_of_deploy_only {c : Command} (hr : c ≠ .recover) (hp : c ≠ .repair)
    (hq : c ≠ .queueDeploy) {p : List Lock × Request} (h : p ∈ (c.script false).points []) :
    p.1 = [.deploy] ∧ .deploy ∉ (handleControlRequest p.2).locks := by
  revert p
  cases c <;> first | contradiction | decide

theorem point_of_queueDeploy {p : List Lock × Request}
    (h : p ∈ (Command.queueDeploy.script false).points []) :
    (∀ l ∈ p.1, l = .deploy ∨ l = .generation) ∧
      ∀ l ∈ p.1, l ∉ (handleControlRequest p.2).locks := by
  revert p
  decide

/-- A request is clear of the daemon: the locks held there are taken neither by its handler nor by
a reconciliation cycle. -/
def ClearOf (d : Daemon) (p : List Lock × Request) : Prop :=
  ∀ l ∈ p.1, l ∉ (handleControlRequest p.2).locks ∧ l ∉ (reconcile d).locks

theorem system_clear {A : Set (Command × Bool)} {d : Daemon} {p : List Lock × Request} :
    (system A d).Clear p ↔ ClearOf d p :=
  ⟨fun h l hl => ⟨(h l hl).1, (h l hl).2 _ rfl⟩,
    fun h l hl => ⟨(h l hl).1, fun _ ht => ht ▸ (h l hl).2⟩⟩

theorem recover_not_clear (d : Daemon) :
    ¬ ∀ p ∈ (Command.recover.script false).points [], ClearOf d p := by
  intro h
  have point : ([.consumer, .deploy], .setSpawningObligation) ∈
      (Command.recover.script false).points [] := by decide
  exact (h _ point .consumer (by decide)).1 (by decide)

theorem repair_not_clear (d : Daemon) :
    ¬ ∀ p ∈ (Command.repair.script false).points [], ClearOf d p := by
  intro h
  have point : ([.consumer, .deploy], .clearSpawningObligation) ∈
      (Command.repair.script false).points [] := by decide
  exact (h _ point .consumer (by decide)).1 (by decide)

/-- The convergence check of a queue deploy asks for a snapshot under the generation lock. -/
theorem queueDeploy_snapshot :
    ([.generation, .deploy], .authoritySnapshot) ∈
      (Command.queueDeploy.script false).points [] := by decide

/-- Which commands are clear of which daemons. -/
theorem clear_iff (c : Command) (d : Daemon) :
    (∀ p ∈ (c.script false).points [], ClearOf d p) ↔
      c ≠ .recover ∧ c ≠ .repair ∧ d.migrates = false ∧
        (c = .queueDeploy → d.promotes = false ∧ d.spawns = false) := by
  constructor
  · intro h
    refine ⟨?_, ?_, ?_, ?_⟩
    · rintro rfl
      exact recover_not_clear d h
    · rintro rfl
      exact repair_not_clear d h
    · obtain ⟨p, hp⟩ := exists_point c
      have apart := (h p hp .deploy (deploy_mem_of_point hp)).2
      rw [mem_locks_reconcile] at apart
      simpa using apart
    · rintro rfl
      have apart := (h _ queueDeploy_snapshot .generation (by decide)).2
      rw [mem_locks_reconcile] at apart
      simp only [reduceCtorEq, true_and, false_and, or_false, false_or, not_or] at apart
      exact ⟨by simpa using apart.1, by simpa using apart.2.1⟩
  · rintro ⟨hr, hp, hm, hq⟩ p point l hl
    by_cases queue : c = .queueDeploy
    · subst queue
      obtain ⟨held, handled⟩ := point_of_queueDeploy point
      obtain ⟨promotes, spawns⟩ := hq rfl
      refine ⟨handled l hl, ?_⟩
      rw [mem_locks_reconcile]
      rcases held l hl with rfl | rfl <;> simp [*]
    · obtain ⟨held, handled⟩ := point_of_deploy_only hr hp queue point
      obtain rfl : l = .deploy := by simpa [held] using hl
      refine ⟨handled, ?_⟩
      rw [mem_locks_reconcile]
      simp [hm]

/-- **No client holds a lock while it waits for a reply that the daemon, waiting for that lock,
does not give, exactly where no client without the token recovers or repairs, no cold migration
is completed beside one, and no install request is promoted and no worker spawned beside a queue
deploy.** -/
theorem no_wait_cycle_iff {C : Type} [DecidableEq C] [Inhabited C] (A : Set (Command × Bool))
    (d : Daemon) :
    (∀ w : World C Lock Request, Reachable (system A d) w → ¬ w.WaitCycle) ↔
      ∀ c, (c, false) ∈ A → c ≠ .recover ∧ c ≠ .repair ∧ d.migrates = false ∧
        (c = .queueDeploy → d.promotes = false ∧ d.spawns = false) := by
  rw [no_waitCycle_iff]
  constructor
  · intro h c hc
    rw [← clear_iff]
    intro p hp
    exact system_clear.mp (h _ ⟨c, false, hc, rfl⟩ p hp)
  · rintro h s ⟨c, token, hc, rfl⟩ p hp
    cases token with
    | true => simp [points_token] at hp
    | false => exact system_clear.mpr ((clear_iff c d).mpr (h c hc) p hp)

/-- A daemon with nothing to do. -/
def idle : Daemon := ⟨false, false, false⟩

/-- What is left of a recovery once it has asked for its first obligation. -/
def recoverAsked : List (Frame Lock Request) :=
  [.run (all [opt (choice (clearSpawningObligationClient false)
      (all [setSpawningObligationClient false, opt (clearSpawningObligationClient false)]))]),
    .run skip, .release .consumer, .release .deploy]

/-- The recovery waits for the daemon to record its obligation, and the daemon, with nothing else
to do, waits for the consumer lock that the recovery holds. -/
def recoverStuck : World Unit Lock Request :=
  World.solo () recoverAsked (some .setSpawningObligation)
    (some (.serving (), [.run writeStatePreservingAuthority]))

theorem recover_waits_for_itself :
    Reachable (system {(.recover, false)} idle) recoverStuck ∧ recoverStuck.WaitCycle := by
  constructor
  · have begun : Reachable (system {(.recover, false)} idle)
        (World.solo () [.run (recover false)] none none) := .alone ⟨.recover, false, rfl, rfl⟩
    have locked : Reachable (system {(.recover, false)} idle)
        (World.solo () [.run (recoverConsumerLocked false), .release .consumer, .release .deploy]
          none none) :=
      (begun.tail (solo_enter (by decide))).tail (solo_enter (by decide))
    have asks : Reachable (system {(.recover, false)} idle) (World.solo () _ none none) :=
      ((locked.tail (solo_move (.right _ _ _))).tail (solo_move (.seq _ _ _))).tail
        (solo_move (.seq _ _ _))
    have read : Reachable (system {(.recover, false)} idle) (World.solo () _ none none) :=
      (((asks.tail solo_send).tail solo_serve).tail (solo_serverMove (.skip _))).tail solo_reply
    have resolved : Reachable (system {(.recover, false)} idle) (World.solo () _ none none) :=
      (((read.tail (solo_move (.seq _ _ _))).tail (solo_move (.left _ _ _))).tail
        (solo_move (.skip _))).tail (solo_move (.skip _))
    have writes : Reachable (system {(.recover, false)} idle) (World.solo () _ none none) :=
      ((resolved.tail (solo_move (.seq _ _ _))).tail (solo_move (.right _ _ _))).tail
        (solo_move (.seq _ _ _))
    exact ((writes.tail solo_send).tail solo_serve).tail (solo_serverMove (.right _ _ _))
  · exact ⟨(), .setSpawningObligation, .consumer, rfl, by decide, .serving (), skip, [], rfl,
      .inl rfl⟩

end Lubko.Supervise.LockOrder
