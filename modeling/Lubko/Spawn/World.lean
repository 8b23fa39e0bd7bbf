import Lubko.Authority.Effect
import Lubko.Deploy.SpawnGate
import Lubko.Lib.Rely
import Lubko.Lifecycle.AuthorityState
import Lubko.Supervise.Backoff

/-!
# What the supervisor spawns workers with

One server, and the supervisors that run on it one after the other: the authority row, the cached
`state.json`, what the running daemon keeps in memory, and every process that a `Popen` made. The
methods of the daemon are programs, whose calls read or change these.

**The row.** A row operation does not reach the database, or takes effect and is answered, or takes
effect and the answer is lost. A lost answer reads as a refusal.

**The cache.** A write of `state.json` lands, or raises and may have landed all the same. What
`read_state` returns is the record that was written last.

**Processes.** A worker may exit before any call. While it runs, `/proc` shows it under its pid with
its start ticks, a look for a recorded worker with both finds it, and a wait for it does not return;
a reply about a process that has exited is free within what its caller would accept. A daemon that
dies takes its workers with it; one that executes another image in place keeps them, and loses its
memory.

The claim is the one the daemon established before its loop, so the branches for a missing claim
are left out. Messages, logs and the contents of `meta.json` are, too.
-/

namespace Lubko.Spawn

open Lubko.Lib Lubko.Supervise Lubko.Authority Lubko.Lifecycle Lubko.Deploy
open Lubko.Supervise.Recovery (WriteEnd)

/-! ## The state -/

/-- A process that `Popen` made, which is also what its handle refers to. -/
structure Spawned where
  token : PyStr
  pid : ℤ
  startTimeTicks : ℤ
  deriving DecidableEq

structure World where
  row : AuthorityRow
  /-- `state.json` -/
  file : SupervisorState
  /-- `self.proc` -/
  proc : Option Spawned
  /-- `self._active_child` -/
  activeChild : Option WorkerChild
  /-- `self._mem_next_attempt_at` -/
  memNextAttemptAt : Option ℚ
  /-- `self._authority`, which names the daemon's own process and the current boot -/
  claim : AuthorityClaim
  /-- Every process that was made. -/
  made : List Spawned
  /-- Those that have not exited. -/
  live : List Spawned
  /-- What `secrets.token_hex` returns in turn, and how often it was called. -/
  tokens : ℕ → PyStr
  drawn : ℕ
  /-- The tokens for which `recover_owned_groups` returned. -/
  recovered : List PyStr

/-! ## Calls -/

/-- The exceptions, by the classes that some handler tells apart. -/
inductive Exc where
  | osError
  | durabilityError
  | consumerLockTimeoutError
  | ownedGroupRecoveryError
  /-- A power of floats in `_backoff_seconds`. -/
  | overflowError
  /-- The image of the daemon was replaced. -/
  | replaced
  /-- The rounds that were granted to a wait have been used up. -/
  | unfinished
  | other
  deriving DecidableEq

/-- The places where the daemon gives up its handle. -/
inductive Site where
  | retireChild
  | clearChild
  | handleCrash
  | handleDbCrash
  | healthRetirement
  | convergeSpawn
  | releaseAuthority
  | recoverUnpublished
  | resolvePidless
  deriving DecidableEq

/-- Questions that anything may answer. -/
inductive Question where
  /-- `consumer_lock` is acquired. -/
  | consumerLock
  /-- `generation_lock` is acquired. -/
  | generationLock
  /-- The commit a supervisor derives from the desired intent, the mission and `cli/current`. -/
  | intent
  | readDesiredStrict
  /-- `deployctl.read_rollback_state` -/
  | readRollbackState
  /-- `cli.current_commit`, where it is usable -/
  | confirmedRuntime
  /-- `self._runtime_commit` -/
  | runtimeCommit
  | runtimeSatisfies
  /-- `_resolve_spawn_executable` -/
  | spawnExecutable
  | workerId
  | pdeathsigSupported
  | drainSentinelMatches (token : PyStr)
  /-- `_process_ppid(pid) == os.getpid()` -/
  | parentIsSelf (pid : ℤ)
  /-- `_open_unresolved_pidfd` returned. -/
  | pidfdOpen (pid : ℤ)
  /-- A signal to one process. -/
  | signal (pid : ℤ)
  /-- The deadline of a wait has passed. -/
  | deadline
  /-- `time.monotonic` or `time.time` -/
  | clock
  /-- `lifecycle.write_meta` returned. -/
  | writeMeta
  /-- The return code of an exit that is recorded. -/
  | returncode
  /-- What `_probe_readiness` finds. -/
  | readiness
  /-- A handoff is due and its probe is ready. -/
  | handoff

inductive Call where
  | ask (q : Question)
  | readState
  | writeState (state : SupervisorState)
  /-- A look at the attributes of the daemon. -/
  | self
  /-- `self.proc = None` -/
  | forget (site : Site)
  /-- `self._active_child = child` -/
  | setActiveChild (child : Option WorkerChild)
  /-- `self._mem_next_attempt_at = moment` -/
  | setMemNextAttemptAt (moment : Option ℚ)
  /-- `confirm_authority` -/
  | confirmAuthority
  /-- `read_authority` -/
  | readAuthority
  | request (request : Request)
  /-- `secrets.token_hex` -/
  | tokenHex
  /-- `subprocess.Popen`, whose handle becomes `self.proc` -/
  | popen (token : PyStr)
  /-- `proc.poll() is not None` -/
  | poll (proc : Spawned)
  /-- `proc.wait` returned within its timeout. -/
  | wait (proc : Spawned)
  /-- `os.waitpid` did not raise `ChildProcessError`. -/
  | waitpid (proc : Spawned)
  | procStartTicks (pid : ℤ)
  /-- `lifecycle.process_identity` of a child that was not reaped -/
  | processIdentity (proc : Spawned)
  | currentBootId
  | recoverOwnedGroups (token : PyStr)
  /-- `lifecycle.worker_alive` -/
  | workerAlive (pid startTimeTicks : ℤ)
  /-- `lifecycle.stop_worker` -/
  | stopWorker (pid startTimeTicks : ℤ)
  | reconcileAuthorityFacts
  /-- `os.execve` -/
  | execve

/-- What becomes of a row operation. -/
inductive Fate where
  | unreached
  | lost
  | answered
  deriving DecidableEq

/-- What `_probe_readiness` finds about a live child. -/
inductive Readiness where
  | ready
  | notReady
  | unsafeWorker
  | noProgress
  deriving DecidableEq

/-- What comes before a call, and what the environment decides about it. -/
structure Decision where
  exits : List Spawned := []
  yes : Bool := true
  fate : Fate := .answered
  write : WriteEnd := .durable
  exc : Exc := .osError
  now : ℚ := 0
  text : PyStr := []
  pid : ℤ := 1
  startTimeTicks : ℤ := 1
  /-- `os.getpgid` and `os.getsid` -/
  ids : Option (ℤ × ℤ) := none
  ticks : Option ℤ := none
  desired : Content SupervisorDesired := .absent
  mission : Content RollbackState := .absent
  current : Option PyStr := none
  readiness : Readiness := .ready
  sources : Sources := ⟨.ok none, .ok none, .ok none, .ok freshState⟩
  reads : ProcReads := unreadableProc

/-- The attributes of the daemon. -/
structure Attributes where
  proc : Option Spawned
  activeChild : Option WorkerChild
  memNextAttemptAt : Option ℚ
  claim : AuthorityClaim

/-- What a call returns. -/
structure Reply where
  yes : Bool := false
  now : ℚ := 0
  text : PyStr := []
  action : Action := .hold
  desired : Content SupervisorDesired := .absent
  mission : Content RollbackState := .absent
  current : Option PyStr := none
  readiness : Readiness := .ready
  state : SupervisorState := freshState
  attributes : Attributes := ⟨none, none, none, ⟨[], 0, 0, 0, []⟩⟩
  row : Option AuthorityRow := none
  proc : Option Spawned := none
  ticks : Option ℤ := none
  bootId : Option PyStr := none
  identity : Option Liveness.ProcessIdentity := none
  facts : Option AuthorityFacts := none
  raised : Option Exc := none

namespace World

/-- Whether a process with these numbers runs. -/
def Runs (w : World) (pid startTimeTicks : ℤ) : Prop :=
  ∃ x ∈ w.live, x.pid = pid ∧ x.startTimeTicks = startTimeTicks

instance (w : World) (pid startTimeTicks : ℤ) : Decidable (w.Runs pid startTimeTicks) :=
  inferInstanceAs (Decidable (∃ x ∈ w.live, _ ∧ _))

/-- `proc_start_ticks`. -/
def startTicks (w : World) (o : Decision) (pid : ℤ) : Option ℤ :=
  if pid = w.claim.pid then some w.claim.startTimeTicks
  else
    match w.live.find? (·.pid = pid) with
    | some x => some x.startTimeTicks
    | none => o.ticks

/-- A row operation. -/
def request (w : World) (o : Decision) (request : Request) : Reply × World :=
  match o.fate with
  | .unreached => ({}, w)
  | .lost => ({}, { w with row := (request.effect w.row).1 })
  | .answered =>
    ({ yes := (request.effect w.row).2 }, { w with row := (request.effect w.row).1 })

/-- A write of `state.json`. -/
def writeState (w : World) (o : Decision) (state : SupervisorState) : Reply × World :=
  match o.write with
  | .durable => ({}, { w with file := state })
  | .raised replaced =>
    ({ raised := some (if o.exc = .durabilityError then .durabilityError else .osError) },
      if replaced then { w with file := state } else w)

/-- `subprocess.Popen`; a child never has the pid of its parent. -/
def popen (w : World) (o : Decision) (token : PyStr) : Reply × World :=
  let x : Spawned := ⟨token, o.pid, o.startTimeTicks⟩
  if o.yes && o.pid ≠ w.claim.pid then
    ({ proc := some x }, { w with proc := some x, made := x :: w.made, live := x :: w.live })
  else ({}, w)

/-- One call, after what comes before it. -/
def call : Call → Decision → World → Reply × World
  | .ask _, o, w =>
    ({ yes := o.yes, now := o.now, text := o.text,
       action := deriveAction o.desired o.mission o.current, desired := o.desired,
       mission := o.mission, current := o.current, readiness := o.readiness, ticks := o.ticks }, w)
  | .readState, _, w => ({ state := w.file }, w)
  | .writeState state, o, w => w.writeState o state
  | .self, _, w =>
    ({ attributes := ⟨w.proc, w.activeChild, w.memNextAttemptAt, w.claim⟩ }, w)
  | .forget _, _, w => ({}, { w with proc := none })
  | .setActiveChild child, _, w => ({}, { w with activeChild := child })
  | .setMemNextAttemptAt moment, _, w => ({}, { w with memNextAttemptAt := moment })
  | .confirmAuthority, o, w => ({ yes := o.yes && decide (w.claim.Holds w.row) }, w)
  | .readAuthority, o, w => ({ row := if o.yes then some w.row else none }, w)
  | .request r, o, w => w.request o r
  | .tokenHex, _, w => ({ text := w.tokens w.drawn }, { w with drawn := w.drawn + 1 })
  | .popen token, o, w => w.popen o token
  | .poll x, _, w => ({ yes := x ∉ w.live }, w)
  | .wait x, _, w => ({ yes := x ∉ w.live }, w)
  | .waitpid x, o, w => ({ yes := o.yes || decide (x ∈ w.live) }, w)
  | .procStartTicks pid, o, w => ({ ticks := w.startTicks o pid }, w)
  | .processIdentity x, o, w =>
    ({ identity := o.ids.map fun ids => ⟨x.pid, ids.1, ids.2, x.startTimeTicks⟩ }, w)
  | .currentBootId, o, w => ({ bootId := if o.yes then some w.claim.bootId else none }, w)
  | .recoverOwnedGroups token, o, w =>
    if o.yes then ({ yes := true }, { w with recovered := token :: w.recovered }) else ({}, w)
  | .workerAlive pid ticks, o, w => ({ yes := o.yes || decide (w.Runs pid ticks) }, w)
  | .stopWorker pid ticks, o, w => ({ yes := o.yes && !decide (w.Runs pid ticks) }, w)
  | .reconcileAuthorityFacts, o, w =>
    ({ facts := (Lifecycle.reconcileAuthorityFacts { o.sources with state := .ok w.file }
        o.reads).toOption }, w)
  | .execve, o, w =>
    if o.yes then
      ({ yes := true }, { w with proc := none, activeChild := none, memNextAttemptAt := none })
    else ({}, w)

/-- Some processes exit. -/
def lose (gone : List Spawned) (w : World) : World :=
  { w with live := w.live.filter (· ∉ gone) }

end World

def sem (c : Call) (o : Decision) (w : World) : Reply × World := World.call c o (w.lose o.exits)

/-! ## Programs -/

abbrev Code := Prog Call Reply Exc

def ask (c : Call) : Code Reply := .call c .ret

/-- `read_state`. -/
def readState : Code SupervisorState := do return (← ask .readState).state

def attributes : Code Attributes := do return (← ask .self).attributes

def raising (exc : Option Exc) : Code Unit :=
  match exc with
  | none => .ret ()
  | some exc => .raise exc

/-- `write_state`. -/
def writeState (state : SupervisorState) : Code Unit := do raising (← ask (.writeState state)).raised

/-- `time.monotonic` and `time.time`. -/
def clock : Code ℚ := do return (← ask (.ask .clock)).now

/-- The answer to a yes-or-no question. -/
def whether (q : Question) : Code Bool := do return (← ask (.ask q)).yes

/-- `consumer_lock`, with the raise of a lock that is not acquired in time. -/
def consumerLock : Code Unit := do
  if ← whether .consumerLock then return () else throw .consumerLockTimeoutError

/-- `except (OSError, DurabilityError)` around a best-effort write. -/
def dropping (exc : Exc) : Code Unit :=
  if exc = .osError ∨ exc = .durabilityError then .ret () else .raise exc

/-- `_cache_spawn_local`. -/
def cacheSpawnLocal (state : SupervisorState) : Code Unit :=
  tryCatch (writeState state) dropping

/-- `write_state_preserving_authority`. -/
def writeStatePreservingAuthority (state : SupervisorState) : Code Unit := do
  consumerLock
  let current ← readState
  writeState (preserveAuthority state current)

/-- `_write_state_authority_safe`. -/
def writeStateAuthoritySafe (state : SupervisorState) : Code Bool :=
  tryCatch (do
    writeStatePreservingAuthority state
    return true)
    fun exc => if exc = .consumerLockTimeoutError then .ret false else .raise exc

/-- `_confirm_authority`. -/
def confirmAuthority : Code Bool := do return (← ask .confirmAuthority).yes

/-- A row operation under the daemon's claim; an outage, a lost answer and an `AuthorityError` are
all answered `False`. -/
def requesting (request : AuthorityClaim → Request) : Code Bool := do
  let claim := (← attributes).claim
  return (← ask (.request (request claim))).yes

/-- `_db_spawn_record`. -/
def dbSpawnRecord (obligation : SpawningObligation) : SpawnObligation where
  token := obligation.token
  commit := obligation.commit
  creatorPid := obligation.creatorPid
  creatorStartTimeTicks := obligation.creatorStartTimeTicks
  bootId := obligation.bootId
  pid := obligation.pid
  startTimeTicks := obligation.startTimeTicks
  parentDeathSignal := obligation.parentDeathSignal

/-- `_commit_spawn_authority`. -/
def commitSpawnAuthority (obligation : SpawningObligation) : Code Bool :=
  requesting fun claim => .commitSpawn claim (dbSpawnRecord obligation)

/-- `_clear_spawn_authority`. -/
def clearSpawnAuthority : Code Bool := requesting .clearSpawn

/-- `_clear_worker_authority`. -/
def clearWorkerAuthority (token : PyStr) : Code Bool := requesting fun claim => .clearWorker claim token

/-- `_db_worker_record`. -/
def dbWorkerRecord (child : WorkerChild) (commit : PyStr) : WorkerRecord where
  token := child.token
  commit := commit
  pid := child.pid
  pgid := child.pgid
  sid := child.sid
  startTimeTicks := child.startTimeTicks
  workerId := child.workerId

/-- `_publish_worker_authority`. -/
def publishWorkerAuthority (child : WorkerChild) (commit token : PyStr) : Code Bool :=
  requesting fun claim => .publish claim token (dbWorkerRecord child commit)

/-- The local form of an obligation that the row holds. -/
def localObligation (spawn : SpawnObligation) (now : ℚ) : SpawningObligation where
  token := spawn.token
  commit := spawn.commit
  creatorPid := spawn.creatorPid
  creatorStartTimeTicks := spawn.creatorStartTimeTicks
  pid := spawn.pid
  startTimeTicks := spawn.startTimeTicks
  createdAt := now
  bootId := spawn.bootId
  parentDeathSignal := spawn.parentDeathSignal

/-- `read_authority`; `none` when the row cannot be read. -/
def readAuthority : Code (Option AuthorityRow) := do return (← ask .readAuthority).row

/-- `_read_spawn_authority`; `none` when the caller must hold. -/
def readSpawnAuthority : Code (Option (Option SpawningObligation)) := do
  match ← readAuthority with
  | none => return none
  | some row =>
    let now ← clock
    return some (row.spawn.map (localObligation · now))

/-- `_read_worker_authority`; `none` when the caller must hold. -/
def readWorkerAuthority : Code (Option (Option WorkerRecord)) := do
  return (← readAuthority).map AuthorityRow.worker

/-- `_db_worker_to_child`. -/
def dbWorkerToChild (record : WorkerRecord) (now : ℚ) : WorkerChild where
  pid := record.pid
  pgid := record.pgid
  sid := record.sid
  startTimeTicks := record.startTimeTicks
  token := record.token
  workerId := record.workerId
  spawnedAt := now

/-- `secrets.token_hex(16)`. -/
def tokenHex : Code PyStr := do return (← ask .tokenHex).text

/-- `subprocess.Popen`; `none` when it raised. -/
def popen (token : PyStr) : Code (Option Spawned) := do return (← ask (.popen token)).proc

/-- `self.proc = None`. -/
def forget (site : Site) : Code Unit := do
  let _ ← ask (.forget site)

/-- `self._active_child = child`. -/
def setActiveChild (child : Option WorkerChild) : Code Unit := do
  let _ ← ask (.setActiveChild child)

/-- `self._mem_next_attempt_at = moment`. -/
def setMemNextAttemptAt (moment : Option ℚ) : Code Unit := do
  let _ ← ask (.setMemNextAttemptAt moment)

/-- `proc.poll() is not None`. -/
def exited (x : Spawned) : Code Bool := do return (← ask (.poll x)).yes

/-- `proc.wait`, without its `TimeoutExpired`. -/
def waited (x : Spawned) : Code Bool := do return (← ask (.wait x)).yes

/-- `os.waitpid(proc.pid, os.WNOHANG)`, without its `ChildProcessError`. -/
def waitpid (x : Spawned) : Code Bool := do return (← ask (.waitpid x)).yes

/-- `proc_start_ticks`. -/
def procStartTicks (pid : ℤ) : Code (Option ℤ) := do return (← ask (.procStartTicks pid)).ticks

/-- `lifecycle.process_identity`. -/
def processIdentity (x : Spawned) : Code (Option Liveness.ProcessIdentity) := do
  return (← ask (.processIdentity x)).identity

/-- `current_boot_id`. -/
def currentBootId : Code (Option PyStr) := do return (← ask .currentBootId).bootId

/-- `lifecycle.worker_alive`. -/
def workerAlive (pid startTimeTicks : ℤ) : Code Bool := do
  return (← ask (.workerAlive pid startTimeTicks)).yes

/-- `lifecycle.stop_worker`. -/
def stopWorker (pid startTimeTicks : ℤ) : Code Bool := do
  return (← ask (.stopWorker pid startTimeTicks)).yes

/-- `recover_owned_groups`. -/
def recoverOwnedGroups (token : PyStr) : Code Unit := do
  if (← ask (.recoverOwnedGroups token)).yes then return () else throw .ownedGroupRecoveryError

/-- `_recover_spawn_owned_groups`. -/
def recoverSpawnOwnedGroups (token : PyStr) : Code Bool :=
  tryCatch (do
    recoverOwnedGroups token
    return true)
    fun exc => if exc = .ownedGroupRecoveryError then .ret false else .raise exc

/-- `_backoff_seconds`. -/
def backoffSeconds (settings : Settings) (restartCount : ℤ) : Code ℚ :=
  match settings.backoffSeconds restartCount with
  | .ok seconds => .ret seconds
  | .error _ => .raise .overflowError

/-- `_in_backoff`. -/
def inBackoff (now : ℚ) : Code Bool := do
  return (← readState).nextAttemptAt.any (now < ·)

/-- `lifecycle_state.reconcile_authority_facts`, which may raise. -/
def reconcileAuthorityFacts : Code AuthorityFacts := do
  match (← ask .reconcileAuthorityFacts).facts with
  | some facts => return facts
  | none => throw .other

/-- `lifecycle.write_meta`. -/
def writeMeta : Code Unit := do
  if ← whether .writeMeta then return () else throw .osError

end Lubko.Spawn
