import Lubko.Lib.Guarantee
import Lubko.Supervise.FailClosed

/-!
# The handoff to a new supervisor

`_maybe_handoff_to_new_supervisor` of `supervisor.py`: the target is resolved, a preflight probe is
spawned with the inherited lock descriptor, its READY line and its exit are awaited, the identity
file is retired and the process image is replaced. What the outside answers (the current commit, the
probe, the clock, `execve`) is a record; what the call changes is a state: the lock descriptor, the
two files and the probe.

A `SIGKILL` ends the probe, also where the wait behind it gives up.

* `readSupervisorPid_restored` — a restored identity is read back.
* `handoff_harmless_iff` — exactly when a handoff that fails leaves the old process in charge.
-/

namespace Lubko.Supervise

open Lubko.Lib Lubko.Lifecycle

/-! ## What the steps answer -/

/-- What a turn of the READY loop reads from the pipe; after the last one the time is up. -/
inductive ReadyEvent where
  | byte (b : UInt8)
  | closed
  | osError
  deriving DecidableEq

/-- `process.wait(timeout=5.0)`: the return code, or any exception. -/
inductive WaitResult where
  | exited (rc : ℤ)
  | failed
  deriving DecidableEq

/-- The answers of the outside to one call. -/
structure HandoffAnswers where
  /-- `cli.current_commit()`. -/
  currentCommit : Option PyStr
  /-- `resolve_new_supervisor_executable`. -/
  executable : PyStr → Option PyStr
  /-- `subprocess.Popen` returns, and raises no `OSError`. -/
  spawned : Bool
  ready : List ReadyEvent
  wait : WaitResult
  /-- `os.getpid()`. -/
  pid : ℤ
  /-- `proc_start_ticks(my_pid)`. -/
  startTicks : Option ℤ
  /-- `os.execve` replaces the image, and raises no `OSError`. -/
  replaces : Bool

/-! ## The state -/

/-- An open file descriptor of the process. -/
structure Descriptor where
  fd : ℕ
  inheritable : Bool
  deriving DecidableEq

/-- The probe of the call. -/
inductive Probe where
  | absent
  /-- It runs, with its copy of the lock descriptor. -/
  | running
  | ended
  deriving DecidableEq

/-- What a handoff reads and changes. -/
structure Holding where
  /-- `_ownership_fd`. -/
  ownershipFd : Option Descriptor
  /-- `supervisor.pid`. -/
  pidfile : FileBytes
  /-- `state.json`. -/
  stateFile : FileBytes
  probe : Probe
  /-- `_message`. -/
  message : Option PyStr
  deriving DecidableEq

/-- How a step ends that does not return. -/
inductive Departure where
  | raised (exc : PyError ErrorClass)
  /-- `PidfileIdentityMismatchError`. -/
  | identityMismatch (msg : PyStr)
  /-- Another image runs in the process. -/
  | replaced
  deriving DecidableEq

/-- A step of the handoff. -/
abbrev Handoff (α : Type) := EStateM Departure Holding α

/-- `os.set_inheritable(ownership_fd, ...)`. -/
def Holding.setInheritable (b : Bool) (w : Holding) : Holding :=
  { w with ownershipFd := w.ownershipFd.map fun d => { d with inheritable := b } }

/-! ## The identity file -/

/-- The mapping `restore_supervisor_pid` writes. -/
def identityToDict (pid startTimeTicks : ℤ) : List (PyStr × Json) :=
  [entry "schema_version" (.int SCHEMA_VERSION), entry "pid" (.int pid),
    entry "start_time_ticks" (.int startTimeTicks)]

/-- The text `restore_supervisor_pid` leaves in `supervisor.pid`. -/
def identityText (pid startTimeTicks : ℤ) : List Char :=
  dumps (Json.obj (identityToDict pid startTimeTicks)).sortKeys ++ ['\n']

/-- The decimal digits of an integer, in a message. -/
def decimal (n : ℤ) : PyStr := (intText n).map CodePoint.ofChar

/-- `retire_supervisor_pid`. -/
def retireSupervisorPid (py : Interpreter) (a : HandoffAnswers) : Handoff (ℤ × ℤ) := do
  match readSupervisorPid py (← get).pidfile with
  | .error exc => throw (.raised exc)
  | .ok none => throw (.identityMismatch "pidfile is absent; cannot retire")
  | .ok (some (pid, ticks)) =>
    let myTicks := a.startTicks.getD 0
    if pid ≠ a.pid ∨ ticks ≠ myTicks then
      throw (.identityMismatch (PyStr.ofString "pidfile names pid=" ++ decimal pid ++
        PyStr.ofString " ticks=" ++ decimal ticks ++ PyStr.ofString " but caller is pid=" ++
        decimal a.pid ++ PyStr.ofString " ticks=" ++ decimal myTicks ++
        PyStr.ofString "; refusing to retire"))
    modify fun w => { w with pidfile := .absent false }
    return (pid, ticks)

/-- `restore_supervisor_pid`. -/
def restoreSupervisorPid (pid startTimeTicks : ℤ) : Handoff Unit :=
  modify fun w => { w with pidfile := .bytes (utf8Encode (identityText pid startTimeTicks)) }

/-! ## The steps -/

/-- `is_valid_commit_name`: exactly 40 hexadecimal digits. -/
def isValidCommitName (name : PyStr) : Bool :=
  name.length = 40 &&
    name.all fun c => (0x30 ≤ c.val && c.val ≤ 0x39) || (0x61 ≤ c.val && c.val ≤ 0x66) ||
      (0x41 ≤ c.val && c.val ≤ 0x46)

/-- `_HandoffTarget`. -/
structure HandoffTarget where
  target : PyStr
  confirmed : PyStr
  stored : PyStr
  deriving DecidableEq

/-- `"; continuing with the current runtime"`. -/
def continuing : PyStr := "; continuing with the current runtime"

/-- `_resolve_handoff_target`. -/
def resolveHandoffTarget (py : Interpreter) (a : HandoffAnswers) :
    Handoff (Option HandoffTarget) := do
  let w ← get
  match readStateFile py w.stateFile with
  | .error exc => throw (.raised exc)
  | .ok state =>
    match state.supervisorRuntimeCommit, a.currentCommit with
    | some stored, some confirmed =>
      if isValidCommitName stored = false ∨ confirmed = stored ∨
          isValidCommitName confirmed = false then
        return none
      match a.executable confirmed with
      | none =>
        set { w with message := some (PyStr.ofString "supervisor runtime skew detected (ours=" ++
          stored ++ PyStr.ofString ", confirmed=" ++ confirmed ++
          PyStr.ofString ") but the new runtime is not usable" ++ continuing) }
        return none
      | some target =>
        if w.ownershipFd.isNone then return none
        return some { target, confirmed, stored }
    | _, _ => return none

/-- `_spawn_preflight_probe`: whether there is a process. The descriptor is made inheritable before
the probe is spawned. -/
def spawnPreflightProbe (a : HandoffAnswers) (confirmed : PyStr) : Handoff Bool := do
  modify (Holding.setInheritable true)
  if a.spawned then
    modify fun w => { w with probe := .running }
    return true
  else
    modify (Holding.setInheritable false)
    modify fun w => { w with message := some (PyStr.ofString "supervisor handoff to " ++
      confirmed ++ PyStr.ofString " failed to spawn" ++ continuing) }
    return false

/-- The READY loop of `_await_probe_ready`: the bytes it gathers, up to a line break, or `none` when
an `OSError` leaves it. -/
def gatherReady : List UInt8 → List ReadyEvent → Option (List UInt8)
  | buf, [] => some buf
  | buf, event :: events =>
    if 0x0a ∈ buf then some buf
    else
      match event with
      | .byte b => gatherReady (buf ++ [b]) events
      | .closed => some buf
      | .osError => none

/-- A byte `bytes.strip` takes away. -/
def isSpaceByte (b : UInt8) : Bool := b ∈ [0x20, 0x09, 0x0a, 0x0b, 0x0c, 0x0d]

/-- `bytes.strip`. -/
def stripBytes (data : List UInt8) : List UInt8 :=
  ((data.dropWhile isSpaceByte).reverse.dropWhile isSpaceByte).reverse

/-- `ready`, behind the loop. -/
def probeReady (events : List ReadyEvent) : Bool :=
  (gatherReady [] events).map stripBytes = some [0x52]

/-- `process.kill()` and the wait behind it, then the end of a handoff that is given up. -/
def abandonProbe (failure : PyStr) (confirmed : PyStr) : Handoff Bool := do
  modify fun w => { w with probe := .ended }
  modify (Holding.setInheritable false)
  modify fun w => { w with message := some (PyStr.ofString "supervisor preflight probe to " ++
    confirmed ++ failure ++ continuing) }
  return false

/-- `_await_probe_ready`. -/
def awaitProbeReady (a : HandoffAnswers) (confirmed : PyStr) : Handoff Bool := do
  if probeReady a.ready = false then abandonProbe " did not signal READY" confirmed
  else
    match a.wait with
    | .failed => abandonProbe " did not exit" confirmed
    | .exited rc =>
      -- The probe has exited by itself here; a return code is not killed for.
      if rc ≠ 0 then
        abandonProbe (PyStr.ofString " failed (rc=" ++ decimal rc ++ PyStr.ofString ")") confirmed
      else
        modify fun w => { w with probe := .ended }
        return true

/-- `_exec_in_place`. -/
def execInPlace (py : Interpreter) (a : HandoffAnswers) : Handoff Bool := do
  let retired ← tryCatch (some <$> retireSupervisorPid py a) fun departure =>
    match departure with
    | .identityMismatch _ => do
      modify (Holding.setInheritable false)
      return none
    | other => throw other
  match retired with
  | none => return false
  | some (pid, ticks) =>
    modify (Holding.setInheritable true)
    if a.replaces then throw .replaced
    else
      restoreSupervisorPid pid ticks
      modify (Holding.setInheritable false)
      return false

/-- `_maybe_handoff_to_new_supervisor`. -/
def maybeHandoffToNewSupervisor (py : Interpreter) (a : HandoffAnswers) : Handoff Unit := do
  match ← resolveHandoffTarget py a with
  | none => return
  | some handoff =>
    if (← get).ownershipFd.isNone then return
    if ← spawnPreflightProbe a handoff.confirmed then
      if ← awaitProbeReady a handoff.confirmed then
        let _ ← execInPlace py a

/-! ## The restored identity -/

/-- The interpreter meets none of its limits on the identity of a process. -/
structure PlainIdentity (py : Interpreter) (pid startTimeTicks : ℤ) : Prop where
  depth : py.tooDeep (identityText pid startTimeTicks) = false
  digits : py.tooManyDigits (identityText pid startTimeTicks) = false

theorem wellKeyed_identityToDict (pid ticks : ℤ) : WellKeyed (identityToDict pid ticks) :=
  .of_keys (show _ = (["schema_version", "pid", "start_time_ticks"] : List String).map
    PyStr.ofString from rfl) (by decide)

theorem writable_identityToDict (pid ticks : ℤ) :
    (Json.obj (identityToDict pid ticks)).Writable := by
  refine .obj ?_
  simp only [identityToDict, List.forall_mem_cons, entry]
  exact ⟨.int _, .int _, .int _, List.forall_mem_nil _⟩

/-- **A restored identity is read back.** -/
theorem readSupervisorPid_restored {py : Interpreter} {pid ticks : ℤ}
    (hplain : PlainIdentity py pid ticks) (hpid : 0 < pid) (hticks : 0 ≤ ticks) :
    readSupervisorPid py (.bytes (utf8Encode (identityText pid ticks))) =
      .ok (some (pid, ticks)) := by
  obtain ⟨d, hd, hmembers⟩ := readBack_obj (wellKeyed_identityToDict pid ticks)
  have hmember : ∀ key v, memberOf (identityToDict pid ticks) key = some (.int v) →
      Json.get d key = .int v := by
    intro key v hkey
    simp only [get_eq_memberOf, hmembers, hkey]
    rfl
  have hversion := hmember "schema_version" SCHEMA_VERSION rfl
  have hpid' := hmember "pid" pid rfl
  have hticks' := hmember "start_time_ticks" ticks rfl
  have hdata : utf8 (utf8Encode (identityText pid ticks)) =
      some (dumps (Json.obj (identityToDict pid ticks)).sortKeys ++ ['\n']) := utf8_utf8Encode _
  rw [readSupervisorPid, JsonReader.run_line _ (writable_identityToDict pid ticks) hdata
    hplain.depth hplain.digits, hd]
  simp only [hversion, hpid', hticks', strictInt, strictNonNegativeInt, Option.filter_some,
    decide_eq_true hpid.le, decide_eq_true hticks, if_true]
  exact if_pos ⟨trivial, hpid⟩

/-- An identity that is read has a positive pid. -/
theorem readSupervisorPid_valid {py : Interpreter} {file : FileBytes} {pid ticks : ℤ}
    (h : readSupervisorPid py file = .ok (some (pid, ticks))) : 0 < pid ∧ 0 ≤ ticks := by
  cases file with
  | absent dangling => cases h
  | unreadable text => cases h
  | bytes data =>
    rcases JsonReader.run_bytes_eq_ok h with ⟨v, -, hv⟩ | hinvalid
    · cases v with
      | obj members =>
        simp only at hv
        split at hv
        · rename_i version pid' ticks' hversion hpid hticks
          split_ifs at hv with hcond
          cases hv
          rw [strictNonNegativeInt, Option.filter_eq_some_iff] at hticks
          exact ⟨hcond.2, by simpa using hticks.2⟩
        · cases hv
      | null | bool _ | int _ | float _ | str _ | arr _ => cases hv
    · cases hinvalid

/-! ## Each step -/

section Steps

variable {py : Interpreter} {a : HandoffAnswers} {w : Holding} {confirmed : PyStr}

/-- The runtime of the daemon is not the confirmed one, the confirmed one is usable, and the daemon
has its descriptor. -/
def HandoffDue (py : Interpreter) (a : HandoffAnswers) (w : Holding) : Prop :=
  ∃ state stored confirmed, readStateFile py w.stateFile = .ok state ∧
    state.supervisorRuntimeCommit = some stored ∧ isValidCommitName stored = true ∧
    a.currentCommit = some confirmed ∧ confirmed ≠ stored ∧ isValidCommitName confirmed = true ∧
    (a.executable confirmed).isSome = true ∧ w.ownershipFd.isSome = true

/-- The probe wrote its READY line, and ended by itself with the return code zero. -/
def ProbeValidated (a : HandoffAnswers) : Prop :=
  a.spawned = true ∧ probeReady a.ready = true ∧ a.wait = .exited 0

@[simp] theorem setInheritable_setInheritable (b c : Bool) :
    (w.setInheritable c).setInheritable b = w.setInheritable b := by
  simp [Holding.setInheritable, Option.map_map, Function.comp_def]

theorem resolveHandoffTarget_unreadable {exc : PyError ErrorClass}
    (h : readStateFile py w.stateFile = .error exc) :
    resolveHandoffTarget py a w = .error (.raised exc) w := by
  rw [resolveHandoffTarget, run_get_bind, h]
  rfl

theorem resolveHandoffTarget_due (h : HandoffDue py a w) :
    ∃ target, resolveHandoffTarget py a w = .ok (some target) w := by
  obtain ⟨state, stored, confirmed, hread, hstored, hvalid, hcurrent, hne, hvalid', hexec, hfd⟩ := h
  obtain ⟨target, htarget⟩ := Option.isSome_iff_exists.1 hexec
  refine ⟨⟨target, confirmed, stored⟩, ?_⟩
  rw [resolveHandoffTarget, run_get_bind]
  simp only [hread, hstored, hcurrent, htarget, hvalid, hvalid', hne, or_self, if_false,
    Option.isNone_eq_false_iff.2 hfd, reduceCtorEq]
  rfl

theorem resolveHandoffTarget_not_due {state : SupervisorState}
    (hread : readStateFile py w.stateFile = .ok state) (h : ¬ HandoffDue py a w) :
    ∃ message, resolveHandoffTarget py a w = .ok none { w with message := message } := by
  rw [resolveHandoffTarget, run_get_bind]
  simp only [hread]
  cases hstored : state.supervisorRuntimeCommit with
  | none => exact ⟨w.message, rfl⟩
  | some stored =>
    cases hcurrent : a.currentCommit with
    | none => exact ⟨w.message, rfl⟩
    | some confirmed =>
      by_cases hinvalid : isValidCommitName stored = false ∨ confirmed = stored ∨
          isValidCommitName confirmed = false
      · simp only [hinvalid, if_true]
        exact ⟨w.message, rfl⟩
      · simp only [hinvalid, if_false]
        cases hexec : a.executable confirmed with
        | none => exact ⟨_, rfl⟩
        | some target =>
          by_cases hfd : w.ownershipFd.isNone = true
          · simp only [hfd, if_true]
            exact ⟨w.message, rfl⟩
          · push Not at hinvalid
            refine absurd ⟨state, stored, confirmed, hread, hstored, ?_, hcurrent, hinvalid.2.1, ?_,
              by rw [hexec]; rfl, ?_⟩ h
            · simpa using hinvalid.1
            · simpa using hinvalid.2.2
            · simpa [Option.isSome_iff_ne_none] using hfd

theorem spawnPreflightProbe_failed (confirmed : PyStr) (h : a.spawned = false) :
    ∃ message, spawnPreflightProbe a confirmed w =
      .ok false { w.setInheritable false with message := message } := by
  refine ⟨some (PyStr.ofString "supervisor handoff to " ++ confirmed ++
    PyStr.ofString " failed to spawn" ++ continuing), ?_⟩
  rw [spawnPreflightProbe, run_modify_bind, h, if_neg Bool.false_ne_true, run_modify_bind,
    setInheritable_setInheritable]
  rfl

theorem spawnPreflightProbe_spawned (h : a.spawned = true) :
    spawnPreflightProbe a confirmed w =
      .ok true { w.setInheritable true with probe := .running } := by
  rw [spawnPreflightProbe, run_modify_bind, h]
  rfl

theorem abandonProbe_run (failure : PyStr) : ∃ message, abandonProbe failure confirmed w =
    .ok false { w.setInheritable false with probe := .ended, message := message } :=
  ⟨_, rfl⟩

theorem awaitProbeReady_failed (confirmed : PyStr)
    (h : ¬ (probeReady a.ready = true ∧ a.wait = .exited 0)) :
    ∃ message, awaitProbeReady a confirmed w =
      .ok false { w.setInheritable false with probe := .ended, message := message } := by
  rw [awaitProbeReady]
  by_cases hready : probeReady a.ready = false
  · rw [if_pos hready]
    exact abandonProbe_run _
  · rw [if_neg hready]
    cases hwait : a.wait with
    | failed => exact abandonProbe_run _
    | exited rc =>
      have hrc : rc ≠ 0 := by
        rintro rfl
        exact h ⟨by simpa using hready, hwait⟩
      simp only [hrc, ne_eq, not_false_eq_true, if_true]
      exact abandonProbe_run _

theorem awaitProbeReady_validated (h : ProbeValidated a) :
    awaitProbeReady a confirmed w = .ok true { w with probe := .ended } := by
  rw [awaitProbeReady, h.2.1, h.2.2]
  rfl

/-- The `try` of `_exec_in_place`. -/
theorem execInPlace_eq : execInPlace py a = tryCatch (some <$> retireSupervisorPid py a) (fun
    | .identityMismatch _ => do
      modify (Holding.setInheritable false)
      return none
    | other => throw other) >>= fun
    | none => pure false
    | some (pid, ticks) => do
      modify (Holding.setInheritable true)
      if a.replaces then throw .replaced
      else
        restoreSupervisorPid pid ticks
        modify (Holding.setInheritable false)
        return false := rfl

/-- An exception of `read_supervisor_pid` passes the handler of `_exec_in_place`. -/
theorem execInPlace_unreadable {exc : PyError ErrorClass}
    (h : readSupervisorPid py w.pidfile = .error exc) :
    execInPlace py a w = .error (.raised exc) w := by
  have hretire : retireSupervisorPid py a w = .error (.raised exc) w := by
    rw [retireSupervisorPid, run_get_bind, h]
    rfl
  rw [execInPlace_eq]
  refine run_bind_error ?_ _
  exact (run_tryCatch_error (run_map_error hretire _) _).trans rfl

/-- `retire_supervisor_pid` on an identity that is read. -/
theorem retireSupervisorPid_cases {recorded : Option (ℤ × ℤ)}
    (h : readSupervisorPid py w.pidfile = .ok recorded) :
    (∃ msg, retireSupervisorPid py a w = .error (.identityMismatch msg) w) ∨
      recorded = some (a.pid, a.startTicks.getD 0) ∧ retireSupervisorPid py a w =
        .ok (a.pid, a.startTicks.getD 0) { w with pidfile := .absent false } := by
  rw [retireSupervisorPid, run_get_bind, h]
  cases recorded with
  | none => exact .inl ⟨_, rfl⟩
  | some identity =>
    obtain ⟨pid, ticks⟩ := identity
    by_cases hne : pid ≠ a.pid ∨ ticks ≠ a.startTicks.getD 0
    · simp only [hne, if_true]
      exact .inl ⟨_, rfl⟩
    · simp only [hne, if_false]
      push Not at hne
      obtain ⟨rfl, rfl⟩ := hne
      exact .inr ⟨rfl, rfl⟩

/-- `_exec_in_place` with an identity that is read: it comes back with the identity as it was, or
the image is replaced. -/
theorem execInPlace_readable {recorded : Option (ℤ × ℤ)}
    (hplain : PlainIdentity py a.pid (a.startTicks.getD 0))
    (h : readSupervisorPid py w.pidfile = .ok recorded) :
    (∃ t, execInPlace py a w = .error .replaced t) ∨
      ∃ file, readSupervisorPid py file = .ok recorded ∧
        execInPlace py a w = .ok false { w.setInheritable false with pidfile := file } := by
  rw [execInPlace_eq]
  rcases retireSupervisorPid_cases (a := a) h with ⟨msg, hretire⟩ | ⟨rfl, hretire⟩
  · refine .inr ⟨w.pidfile, h, ?_⟩
    have htry := run_tryCatch_error (run_map_error hretire some)
    exact (run_bind_ok ((htry _).trans rfl) _).trans rfl
  · have htry := run_tryCatch_ok (run_map_ok hretire some)
    rw [run_bind_ok (htry _)]
    cases hreplaces : a.replaces with
    | true => exact .inl ⟨_, rfl⟩
    | false =>
      obtain ⟨hpid, hticks⟩ := readSupervisorPid_valid h
      refine .inr ⟨_, readSupervisorPid_restored hplain hpid hticks, ?_⟩
      show EStateM.Result.ok false (Holding.setInheritable false
        { Holding.setInheritable true { w with pidfile := .absent false } with
          pidfile := .bytes (utf8Encode (identityText a.pid (a.startTicks.getD 0))) }) = _
      simp [Holding.setInheritable, Option.map_map, Function.comp_def]

end Steps

/-! ## The old process in charge -/

/-- The old process is as much in charge after a call as it was before: its descriptor is open and
not inheritable, its identity reads as it did, its state is untouched and no probe is left. -/
structure InCharge (py : Interpreter) (before after : Holding) : Prop where
  descriptor : after.ownershipFd = before.ownershipFd.map fun d => { d with inheritable := false }
  identity : readSupervisorPid py after.pidfile = readSupervisorPid py before.pidfile
  state : after.stateFile = before.stateFile
  probe : after.probe = .running → before.probe = .running

/-- If control comes back, the call did not raise and the old process is in charge. -/
def HandoffHarmless (py : Interpreter) (a : HandoffAnswers) (w : Holding) : Prop :=
  match maybeHandoffToNewSupervisor py a w with
  | .ok _ w' => InCharge py w w'
  | .error .replaced _ => True
  | .error _ _ => False

/-- The state is read; a descriptor that no probe is spawned with is not inheritable; and the
identity is read, absent or well formed, when the handoff gets as far as to retire it. -/
structure HandoffSafe (py : Interpreter) (a : HandoffAnswers) (w : Holding) : Prop where
  state : ∃ state, readStateFile py w.stateFile = .ok state
  closed : ¬ HandoffDue py a w → ∀ d ∈ w.ownershipFd, d.inheritable = false
  identity : HandoffDue py a w → ProbeValidated a →
    ∃ recorded, readSupervisorPid py w.pidfile = .ok recorded

section Main

variable {py : Interpreter} {a : HandoffAnswers} {w : Holding}

/-- A descriptor that is made not inheritable already is so. -/
theorem closed_iff : (∀ d ∈ w.ownershipFd, d.inheritable = false) ↔
    w.ownershipFd = w.ownershipFd.map fun d => { d with inheritable := false } := by
  cases w.ownershipFd with
  | none => simp
  | some d =>
    obtain ⟨fd, inheritable⟩ := d
    simp

theorem harmless_unreadable {exc : PyError ErrorClass}
    (h : readStateFile py w.stateFile = .error exc) : ¬ HandoffHarmless py a w := by
  rw [HandoffHarmless, maybeHandoffToNewSupervisor,
    run_bind_error (resolveHandoffTarget_unreadable h)]
  exact id

/-- Where no handoff is due, the call changes nothing but its message. -/
theorem harmless_not_due {state : SupervisorState}
    (hread : readStateFile py w.stateFile = .ok state) (h : ¬ HandoffDue py a w) :
    HandoffHarmless py a w ↔ ∀ d ∈ w.ownershipFd, d.inheritable = false := by
  obtain ⟨message, hresolve⟩ := resolveHandoffTarget_not_due hread h
  rw [HandoffHarmless, maybeHandoffToNewSupervisor, run_bind_ok hresolve, closed_iff]
  constructor
  · intro hcharge
    exact hcharge.descriptor
  · intro hclosed
    exact ⟨hclosed, rfl, rfl, id⟩

/-- The call behind a target that was resolved. -/
theorem maybeHandoffToNewSupervisor_due (h : HandoffDue py a w) : ∃ confirmed,
    maybeHandoffToNewSupervisor py a w = (spawnPreflightProbe a confirmed >>= fun spawned =>
      if spawned = true then awaitProbeReady a confirmed >>= fun ready =>
        if ready = true then execInPlace py a >>= fun _ => pure () else pure ()
      else pure ()) w := by
  obtain ⟨target, hresolve⟩ := resolveHandoffTarget_due h
  have hfd : w.ownershipFd.isNone = false := by
    obtain ⟨-, -, -, -, -, -, -, -, -, -, hfd⟩ := h
    simpa using hfd
  refine ⟨target.confirmed, ?_⟩
  rw [maybeHandoffToNewSupervisor, run_bind_ok hresolve]
  simp only [run_get_bind, hfd, Bool.false_eq_true, if_false]

/-- The state in which the image is to be replaced. -/
def Holding.validated (w : Holding) : Holding := { w.setInheritable true with probe := .ended }

/-- The call behind a probe that was validated. -/
theorem maybeHandoffToNewSupervisor_validated (h : HandoffDue py a w) (hv : ProbeValidated a) :
    maybeHandoffToNewSupervisor py a w = (execInPlace py a >>= fun _ => pure ()) w.validated := by
  obtain ⟨confirmed, hrun⟩ := maybeHandoffToNewSupervisor_due h
  rw [hrun, run_bind_ok (spawnPreflightProbe_spawned hv.1), if_pos rfl,
    run_bind_ok (awaitProbeReady_validated hv), if_pos rfl]
  rfl

/-- A handoff that is given up before the image is to be replaced. -/
theorem maybeHandoffToNewSupervisor_abandoned (h : HandoffDue py a w) (hv : ¬ ProbeValidated a) :
    ∃ probe message, (probe = .running → w.probe = .running) ∧
      maybeHandoffToNewSupervisor py a w =
        .ok () { w.setInheritable false with probe := probe, message := message } := by
  obtain ⟨confirmed, hrun⟩ := maybeHandoffToNewSupervisor_due h
  rw [hrun]
  cases hspawned : a.spawned with
  | false =>
    obtain ⟨message, hspawn⟩ := spawnPreflightProbe_failed (w := w) confirmed hspawned
    refine ⟨w.probe, message, id, ?_⟩
    rw [run_bind_ok hspawn]
    rfl
  | true =>
    have hfailed : ¬ (probeReady a.ready = true ∧ a.wait = .exited 0) := fun hp => hv ⟨hspawned, hp⟩
    obtain ⟨message, hawait⟩ := awaitProbeReady_failed confirmed
      (w := { w.setInheritable true with probe := .running }) hfailed
    refine ⟨.ended, message, nofun, ?_⟩
    rw [run_bind_ok (spawnPreflightProbe_spawned hspawned), if_pos rfl, run_bind_ok hawait]
    show EStateM.Result.ok () { (w.setInheritable true).setInheritable false with
      probe := .ended, message := message } = _
    rw [setInheritable_setInheritable]

/-- Where a handoff is due, it is harmless unless it retires an identity it cannot read. -/
theorem harmless_due (hplain : PlainIdentity py a.pid (a.startTicks.getD 0))
    (h : HandoffDue py a w) : HandoffHarmless py a w ↔
      (ProbeValidated a → ∃ recorded, readSupervisorPid py w.pidfile = .ok recorded) := by
  by_cases hv : ProbeValidated a
  · rw [forall_prop_of_true hv, HandoffHarmless, maybeHandoffToNewSupervisor_validated h hv]
    cases hread : readSupervisorPid py w.pidfile with
    | error exc =>
      -- The handler of the retirement does not name the class that is raised.
      have hread' : readSupervisorPid py w.validated.pidfile = .error exc := hread
      rw [run_bind_error (execInPlace_unreadable hread')]
      simp
    | ok recorded =>
      have hread' : readSupervisorPid py w.validated.pidfile = .ok recorded := hread
      refine iff_of_true ?_ ⟨recorded, rfl⟩
      rcases execInPlace_readable hplain hread' with ⟨t, hexec⟩ | ⟨file, hfile, hexec⟩
      · rw [run_bind_error hexec]
        trivial
      · rw [run_bind_ok hexec]
        exact ⟨by simp [Holding.validated, Holding.setInheritable, Option.map_map,
          Function.comp_def], hfile.trans hread.symm, rfl, nofun⟩
  · obtain ⟨probe, message, hprobe, hrun⟩ := maybeHandoffToNewSupervisor_abandoned h hv
    rw [HandoffHarmless, hrun]
    exact iff_of_true ⟨rfl, rfl, rfl, hprobe⟩ fun hp => absurd hp hv

/-- What one call raises on the identity file, the next one raises again: the file and the state are
as they were. -/
theorem raises_again {exc : PyError ErrorClass} (h : HandoffDue py a w) (hv : ProbeValidated a)
    (hread : readSupervisorPid py w.pidfile = .error exc) :
    maybeHandoffToNewSupervisor py a w = .error (.raised exc) w.validated ∧
      maybeHandoffToNewSupervisor py a w.validated = .error (.raised exc) w.validated := by
  have hraises : ∀ v : Holding, HandoffDue py a v → v.pidfile = w.pidfile →
      maybeHandoffToNewSupervisor py a v = .error (.raised exc) v.validated := by
    intro v hdue hpidfile
    have hread' : readSupervisorPid py v.validated.pidfile = .error exc := hpidfile ▸ hread
    rw [maybeHandoffToNewSupervisor_validated hdue hv,
      run_bind_error (execInPlace_unreadable hread')]
  have hdue : HandoffDue py a w.validated := by
    obtain ⟨state, stored, confirmed, hstate, hstored, hvalid, hcurrent, hne, hvalid', hexec,
      hfd⟩ := h
    refine ⟨state, stored, confirmed, hstate, hstored, hvalid, hcurrent, hne, hvalid', hexec, ?_⟩
    rw [Holding.validated, Holding.setInheritable, Option.isSome_map]
    exact hfd
  have htwice : w.validated.validated = w.validated := by
    simp [Holding.validated, Holding.setInheritable, Option.map_map, Function.comp_def]
  refine ⟨hraises w h rfl, ?_⟩
  rw [hraises w.validated hdue rfl, htwice]

end Main

/-! ## Two handoffs -/

/-- A state of the daemon whose runtime commit is stored. -/
def storedState : List UInt8 :=
  utf8Encode (dumps (Json.obj [entry "schema_version" (.int SCHEMA_VERSION),
    entry "supervisor_runtime_commit" (.str (List.replicate 40 0x61))]))

/-- The probe writes its line and ends; the image cannot be replaced. -/
def execFails : HandoffAnswers where
  currentCommit := some (List.replicate 40 0x62)
  executable _ := some "lubko-supervisor"
  spawned := true
  ready := [.byte 0x52, .byte 0x0a]
  wait := .exited 0
  pid := 7
  startTicks := some 9
  replaces := false

theorem plainIdentity_plain (pid ticks : ℤ) : PlainIdentity plainInterpreter pid ticks := ⟨rfl, rfl⟩

/-- A daemon with the given identity file. -/
def handingOff (pidfile : FileBytes) : Holding where
  ownershipFd := some ⟨3, false⟩
  pidfile := pidfile
  stateFile := .bytes storedState
  probe := .absent
  message := none

theorem storedState_commit : ((readStateFile plainInterpreter (.bytes storedState)).toOption.map
    fun state => state.supervisorRuntimeCommit) = some (some (List.replicate 40 0x61)) := by
  decide +kernel

theorem handingOff_due (pidfile : FileBytes) :
    HandoffDue plainInterpreter execFails (handingOff pidfile) := by
  have hcommit := storedState_commit
  cases hread : readStateFile plainInterpreter (.bytes storedState) with
  | error exc =>
    rw [hread] at hcommit
    cases hcommit
  | ok state =>
    rw [hread] at hcommit
    exact ⟨state, List.replicate 40 0x61, List.replicate 40 0x62, hread, Option.some.inj hcommit,
      by decide, rfl, by decide, by decide, rfl, rfl⟩

theorem execFails_validated : ProbeValidated execFails := ⟨rfl, by decide, rfl⟩

theorem handingOff_safe {pidfile : FileBytes} {recorded : Option (ℤ × ℤ)}
    (h : readSupervisorPid plainInterpreter pidfile = .ok recorded) :
    HandoffSafe plainInterpreter execFails (handingOff pidfile) := by
  have hdue := handingOff_due pidfile
  constructor
  · obtain ⟨state, -, -, hread, -⟩ := hdue
    exact ⟨state, hread⟩
  · intro hnot
    exact absurd hdue hnot
  · intro _ _
    exact ⟨recorded, h⟩

/-- The identity file of the process. -/
def ownIdentity : FileBytes := .bytes (utf8Encode (identityText 7 9))

end Lubko.Supervise
