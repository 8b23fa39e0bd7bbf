import Lubko.Lib.CrashProgram
import Lubko.Cli.Collect

/-!
# Completing a cold migration

`_complete_cold_migration` of `supervisor.py`, with `clear_migration_flag`. An intent that carries
the migration flag names a commit; once a worker is ready for it, the daemon moves `cli/current` to
the commit, removes the mission record of an older generation and clears the flag, all under the
deployment lock.

A call of the daemon may be interrupted before any of its reads and writes, which frees the lock.
Whoever holds the lock meanwhile may change every file. The daemon's own writes are listed with the
files they were made on.

* `completeColdMigrationLocked_safe` — what the section under the lock writes, it may write.
* `completeColdMigration_completes` — a call without failures completes a proven migration.
* `cold_migration_completes_when_proven` — both, over all runs.
-/

namespace Lubko.Supervise.ColdMigration

open Lubko.Lib Lubko.Lifecycle Lubko.Deploy
open Lubko.Cli (PointerWrite opened)

/-! ## The files -/

/-- `desired.json`, `rollback.json`, `state.json` and the target of `cli/current`. -/
structure Files where
  desired : Option (List UInt8)
  mission : Option (List UInt8)
  state : Option (List UInt8)
  current : Option PyStr
  deriving DecidableEq

/-- What a call raises. -/
inductive Failure where
  /-- `LockTimeoutError`. -/
  | lockTimeout
  /-- `GenerationLockTimeoutError`. -/
  | generationLockTimeout
  /-- `CliError`. -/
  | cliError (text : PyStr)
  | durabilityError
  | osError
  /-- From a reader. -/
  | read (exc : PyError ErrorClass)
  /-- No call gives a reply that its caller does not take. -/
  | mistaken
  deriving DecidableEq

/-- The calls of the daemon. -/
inductive Call where
  | lockDeployment
  | unlockDeployment
  | readDesired
  | readMission
  | readState
  | buildCliRoot (repo commit uvPath : PyStr)
  | currentCommit
  | setCurrent (commit : PyStr)
  | removeMission
  | lockGeneration
  | unlockGeneration
  | writeDesired (desired : SupervisorDesired)
  deriving DecidableEq

inductive Reply where
  | done
  | desired (desired : Option SupervisorDesired)
  | mission (mission : Option RollbackState)
  | state (state : SupervisorState)
  | commit (commit : Option PyStr)
  | failed (e : Failure)

/-- What happens around one call. -/
structure Decision where
  /-- The files as others have left them since the last call. -/
  writers : Option Files
  /-- An `OSError` on opening a file. -/
  openError : Option PyStr
  /-- A lock, a build or a write fails, and whether the write is in effect then. -/
  failure : Option (Failure × Bool)
  pointer : PointerWrite
  /-- The text of a `DurabilityError`. -/
  reason : PyStr

/-- Nothing fails, and nobody else writes. -/
def quiet : Decision := ⟨none, none, none, .confirmed, []⟩

/-- The files, whether the daemon holds the deployment lock, and the writes of the daemon, each with
the files it was made on. -/
structure World where
  files : Files
  locked : Bool
  writes : List (Call × Files)

/-- The daemon has not written yet. -/
def World.start (files : Files) : World := ⟨files, false, []⟩

/-- Others write while the daemon does not hold the lock. -/
def World.after (o : Decision) (w : World) : World :=
  if w.locked then w else { w with files := o.writers.getD w.files }

/-- A write of the daemon. -/
def World.write (c : Call) (files : Files) (w : World) : World :=
  { w with files, writes := (c, w.files) :: w.writes }

/-- The end of an interrupted call: the lock is free. -/
def World.released (w : World) : World := { w with locked := false }

@[simp] theorem World.after_locked {w : World} (h : w.locked = true) (o : Decision) :
    w.after o = w := if_pos h

@[simp] theorem World.after_quiet (w : World) : w.after quiet = w := by
  unfold World.after
  split_ifs <;> rfl

/-! ## The calls -/

section Calls

variable (py : Interpreter) (floatRepr : ℚ → List Char)

/-- `"runtime commits must be exactly 40 hexadecimal characters"`. -/
def invalidCommit : PyStr := "runtime commits must be exactly 40 hexadecimal characters"

/-- What a reader returns or raises. -/
def readReply {α : Type} (reply : α → Reply) : Outcome α → Reply
  | .ok a => reply a
  | .error exc => .failed (.read exc)

/-- A call that has no effect of its own, and may fail. -/
def fallible (o : Decision) : Reply :=
  match o.failure with
  | none => .done
  | some (e, _) => .failed e

/-- A write that may fail before or after its effect. -/
def writing (c : Call) (after : Files) (o : Decision) (w : World) : Reply × World :=
  match o.failure with
  | none => (.done, w.write c after)
  | some (e, true) => (.failed e, w.write c after)
  | some (e, false) => (.failed e, w.write c w.files)

/-- The entry a switch of the link leaves. -/
def pointed (p : PointerWrite) (commit : PyStr) (before : Option PyStr) : Option PyStr :=
  match p with
  | .confirmed | .unconfirmed => some commit
  | .restored => before
  | .removed => none

/-- `set_current`, after the name is validated. -/
def switching (commit : PyStr) (o : Decision) (w : World) : Reply × World :=
  let w' := w.write (.setCurrent commit)
    { w.files with current := pointed o.pointer commit w.files.current }
  if o.pointer = .confirmed then (.done, w')
  else (.failed (.cliError (PyStr.ofString "could not activate CLI commit " ++ commit ++
    PyStr.ofString ": " ++ o.reason)), w')

/-- What a call does, once others have written. -/
def perform (o : Decision) (w : World) : Call → Reply × World
  | .lockDeployment =>
    match o.failure with
    | none => (.done, { w with locked := true })
    | some (e, _) => (.failed e, w)
  | .unlockDeployment => (.done, w.released)
  | .readDesired =>
    (readReply .desired (readDesiredStrict py (opened o.openError w.files.desired)), w)
  | .readMission =>
    (readReply .mission (readRollbackState py (opened o.openError w.files.mission)), w)
  | .readState => (readReply .state (readStateFile py (opened o.openError w.files.state)), w)
  | .buildCliRoot _ commit _ =>
    if isValidCommitName commit then (fallible o, w)
    else (.failed (.cliError invalidCommit), w)
  | .currentCommit => (.commit w.files.current, w)
  | .setCurrent commit =>
    if isValidCommitName commit then switching commit o w
    else (.failed (.cliError invalidCommit), w)
  | .removeMission => writing .removeMission { w.files with mission := none } o w
  | .lockGeneration => (fallible o, w)
  | .unlockGeneration => (.done, w)
  | .writeDesired desired =>
    writing (.writeDesired desired)
      { w.files with desired := some (utf8Encode (desired.fileText floatRepr)) } o w

/-- One call. -/
def sem (c : Call) (o : Decision) (w : World) : Reply × World :=
  perform py floatRepr o (w.after o) c

end Calls

/-! ## The program -/

/-- A program of the daemon. -/
abbrev Code := Prog Call Reply Failure

/-- A call that returns nothing. -/
def act (c : Call) : Code Unit :=
  .call c fun
    | .done => .ret ()
    | .failed e => .raise e
    | _ => .raise .mistaken

/-- `read_desired_strict`. -/
def readDesiredStrict' : Code (Option SupervisorDesired) :=
  .call .readDesired fun
    | .desired d => .ret d
    | .failed e => .raise e
    | _ => .raise .mistaken

/-- `read_rollback_state`. -/
def readMission : Code (Option RollbackState) :=
  .call .readMission fun
    | .mission m => .ret m
    | .failed e => .raise e
    | _ => .raise .mistaken

/-- `read_state`. -/
def readState : Code SupervisorState :=
  .call .readState fun
    | .state s => .ret s
    | .failed e => .raise e
    | _ => .raise .mistaken

/-- `current_commit`. -/
def currentCommit : Code (Option PyStr) :=
  .call .currentCommit fun
    | .commit c => .ret c
    | .failed e => .raise e
    | _ => .raise .mistaken

/-- `try: body`, where an exception that is handled gives `none`. -/
def attempt {α : Type} (handled : Failure → Bool) (body : Code α) : Code (Option α) :=
  tryCatch (do let a ← body; return some a) fun e => if handled e then return none else throw e

/-- `with lock: body`. -/
def holding {α : Type} (acquire release : Call) (body : Code α) : Code α := do
  act acquire
  let a ← tryCatch body fun e => do
    act release
    throw e
  act release
  return a

/-- `except DesiredIntentError`. -/
def Failure.isDesiredIntentError : Failure → Bool
  | .read exc => exc.isRaised .DesiredIntentError
  | _ => false

/-- `except DeployCtlError`. -/
def Failure.isDeployCtlError : Failure → Bool
  | .read exc => exc.isRaised .DeployCtlError
  | _ => false

/-- The text of a `CliError`. -/
def Failure.cliText : Failure → Option PyStr
  | .cliError text => some text
  | _ => none

/-- `read_desired`. -/
def readDesired : Code (Option SupervisorDesired) := do
  return (← attempt Failure.isDesiredIntentError readDesiredStrict').join

/-- `clear_migration_flag`. -/
def clearMigrationFlag (generation : ℤ) : Code Bool :=
  holding .lockGeneration .unlockGeneration do
    match ← readDesired with
    | none => return false
    | some current =>
      if current.migration ∧ current.generation = generation then
        act (.writeDesired { current with migration := false })
        return true
      else return false

/-- `"; cold-migration completion is held"`. -/
def isHeld : PyStr := "; cold-migration completion is held"

/-- `try: body`, where a `CliError` is the message of the daemon, behind `lead`. -/
def orMessage (lead : PyStr) (body : Code (Option PyStr)) : Code (Option PyStr) :=
  tryCatch body fun e =>
    match e.cliText with
    | some text => return some (lead ++ text)
    | none => throw e

/-- The end of `_complete_cold_migration_locked`: the record goes, and the flag last. -/
def finish (desired : SupervisorDesired) : Code (Option PyStr) := do
  act .removeMission
  let _ ← clearMigrationFlag desired.generation
  return none

/-- The try around an activation or a build: the message of its `CliError`, or nothing. -/
def cliStep (lead : PyStr) (c : Call) : Code (Option PyStr) :=
  orMessage lead do
    act c
    return none

/-- The pointer of `_complete_cold_migration_locked`. -/
def converge (desired : SupervisorDesired) : Code (Option PyStr) := do
  if (← currentCommit) = some desired.commit then finish desired
  else
    match ← cliStep "cold-migration CLI activation failed: " (.setCurrent desired.commit) with
    | some message => return some message
    | none => finish desired

/-- `_complete_cold_migration_locked`, where no newer mission supersedes the migration. -/
def completeWhenReady (desired : SupervisorDesired) : Code (Option PyStr) := do
  let state ← readState
  if state.ready = false ∨ state.appliedGeneration < desired.generation ∨
      state.commit ≠ some desired.commit then
    return none
  else
    match ← cliStep "cold-migration CLI environment failed: "
      (.buildCliRoot desired.repo desired.commit desired.uvPath) with
    | some message => return some message
    | none => converge desired

/-- `_complete_cold_migration_locked`, behind the comparison of the intents. -/
def completeMigration (desired : SupervisorDesired) : Code (Option PyStr) := do
  match ← attempt Failure.isDeployCtlError readMission with
  | none => return some (PyStr.ofString "corrupt supervised deployment state" ++ isHeld)
  | some mission =>
    if mission.any fun m => desired.generation < m.generation then
      let _ ← clearMigrationFlag desired.generation
      return none
    else completeWhenReady desired

/-- `"corrupt desired supervisor state"`, and that the completion is held. -/
def corruptDesired : PyStr := PyStr.ofString "corrupt desired supervisor state" ++ isHeld

/-- `_complete_cold_migration_locked`; it gives the new `_message`, if any. -/
def completeColdMigrationLocked (desired : SupervisorDesired) : Code (Option PyStr) := do
  match ← attempt Failure.isDesiredIntentError readDesiredStrict' with
  | none => return some corruptDesired
  | some none => return none
  | some (some current) =>
    if current.migration = false ∨ current.generation ≠ desired.generation ∨
        current.commit ≠ desired.commit then
      return none
    else completeMigration desired

/-- The section under the deployment lock, and the two timeouts. -/
def completeUnderLock (desired : SupervisorDesired) : Code (Option PyStr) :=
  tryCatch (holding .lockDeployment .unlockDeployment (completeColdMigrationLocked desired)) fun
    | .lockTimeout =>
      return some (PyStr.ofString "cold-migration completion deferred; deployment in progress")
    | .generationLockTimeout =>
      return some (PyStr.ofString
        "cold-migration completion deferred; generation lock timed out")
    | e => throw e

/-- `_complete_cold_migration`. -/
def completeColdMigration : Code (Option PyStr) := do
  match ← attempt Failure.isDesiredIntentError readDesiredStrict' with
  | none => return some corruptDesired
  | some none => return none
  | some (some desired) =>
    if desired.migration then completeUnderLock desired else return none

/-! ## What a write rests on -/

section Grounds

variable (py : Interpreter)

/-- The durable intent is the migration `d`. -/
def Intent (files : Files) (d : SupervisorDesired) : Prop :=
  readDesiredStrict py (opened none files.desired) = .ok (some d) ∧ d.migration = true

/-- There is a mission of a generation above `g`. -/
def Superseded (files : Files) (g : ℤ) : Prop :=
  ∃ m, readRollbackState py (opened none files.mission) = .ok (some m) ∧ g < m.generation

/-- The mission record is readable, and none of a generation above `g`. -/
def NotSuperseded (files : Files) (g : ℤ) : Prop :=
  ∃ mission, readRollbackState py (opened none files.mission) = .ok mission ∧
    ∀ m, mission = some m → m.generation ≤ g

/-- The applied state is ready for the commit of `d`, at its generation or above. -/
def ReadyFor (files : Files) (d : SupervisorDesired) : Prop :=
  ∃ s, readStateFile py (opened none files.state) = .ok s ∧ s.ready = true ∧
    d.generation ≤ s.appliedGeneration ∧ s.commit = some d.commit

/-- The migration `d` is the intent, nothing supersedes it, and a worker is ready for it. -/
structure Proven (files : Files) (d : SupervisorDesired) : Prop where
  intent : Intent py files d
  notSuperseded : NotSuperseded py files d.generation
  ready : ReadyFor py files d

/-- Two intents of one generation, for one commit. -/
structure SameMigration (desired d : SupervisorDesired) : Prop where
  generation : desired.generation = d.generation
  commit : desired.commit = d.commit

/-- The files allow the daemon to clear the flag of `d`. -/
def Clearable (files : Files) (d : SupervisorDesired) : Prop :=
  Superseded py files d.generation ∨ files.current = some d.commit ∧ files.mission = none

/-- A write of the daemon is one that the files it was made on allow. -/
def Justified : Call × Files → Prop
  | (.setCurrent commit, files) => ∃ d, Proven py files d ∧ commit = d.commit
  | (.removeMission, files) => ∃ d, Proven py files d ∧ files.current = some d.commit
  | (.writeDesired desired, files) =>
    ∃ d, Intent py files d ∧ desired = { d with migration := false } ∧ Clearable py files d
  | _ => True

/-- All writes so far were justified. -/
def AllJustified (w : World) : Prop := ∀ write ∈ w.writes, Justified py write

end Grounds

/-! ## What is read under the lock -/

section Reading

variable {py : Interpreter} {floatRepr : ℚ → List Char}

/-- A program that only looks, in a world where the lock is held. -/
def Observes (py : Interpreter) (floatRepr : ℚ → List Char) {α : Type} (p : Code α) (w : World)
    (P : α → Prop) : Prop :=
  p.Safe (sem py floatRepr) (AllJustified py) (fun a w' => w' = w ∧ P a) (fun _ w' => w' = w) w

theorem observes_reader {α β : Type} (reader : FileBytes → Outcome β) (reply : β → Reply)
    {c : Call} {k : Reply → Code α} {P : α → Prop} {w : World} (file : Option (List UInt8))
    (hI : AllJustified py w)
    (hsem : ∀ o, sem py floatRepr c o w = (readReply reply (reader (opened o.openError file)), w))
    (hfailed : ∀ e, k (.failed e) = .raise e)
    (hreply : ∀ b, (∃ text, reader (opened text file) = .ok b) →
      ∃ a, k (reply b) = .ret a ∧ P a) :
    Observes py floatRepr (.call c k) w P := by
  refine ⟨hI, fun o => ?_⟩
  rw [hsem]
  cases hread : reader (opened o.openError file) with
  | error exc =>
    rw [show readReply reply (.error exc) = .failed (.read exc) from rfl, hfailed]
    exact rfl
  | ok b =>
    obtain ⟨a, hk, hP⟩ := hreply b ⟨_, hread⟩
    rw [show readReply reply (.ok b) = reply b from rfl, hk]
    exact ⟨rfl, hP⟩

/-- A file that cannot be opened is not read. -/
theorem readable_of_read {β : Type} {reader : FileBytes → Outcome β} {text : Option PyStr}
    {file : Option (List UInt8)} {b : β} (h : reader (opened text file) = .ok b)
    (hrefused : ∀ text, reader (.unreadable text) ≠ .ok b) :
    reader (opened none file) = .ok b := by
  cases text with
  | none => exact h
  | some text => exact absurd h (hrefused text)

theorem desiredStrict_observes {w : World} (hw : w.locked = true) (hI : AllJustified py w) :
    Observes py floatRepr readDesiredStrict' w fun found =>
      readDesiredStrict py (opened none w.files.desired) = .ok found := by
  refine observes_reader (readDesiredStrict py) .desired w.files.desired hI ?_ (fun _ => rfl) ?_
  · intro o
    rw [sem, World.after_locked hw]
    rfl
  · rintro found ⟨text, hread⟩
    exact ⟨found, rfl, readable_of_read hread fun _ h => by cases h⟩

theorem readMission_observes {w : World} (hw : w.locked = true) (hI : AllJustified py w) :
    Observes py floatRepr readMission w fun mission =>
      readRollbackState py (opened none w.files.mission) = .ok mission := by
  refine observes_reader (readRollbackState py) .mission w.files.mission hI ?_ (fun _ => rfl) ?_
  · intro o
    rw [sem, World.after_locked hw]
    rfl
  · rintro mission ⟨text, hread⟩
    exact ⟨mission, rfl, readable_of_read hread fun _ h => by cases h⟩

theorem readState_observes {w : World} (hw : w.locked = true) (hI : AllJustified py w) :
    Observes py floatRepr readState w fun s => s.ready = true →
      readStateFile py (opened none w.files.state) = .ok s := by
  refine observes_reader (readStateFile py) .state w.files.state hI ?_ (fun _ => rfl) ?_
  · intro o
    rw [sem, World.after_locked hw]
    rfl
  · rintro s ⟨text, hread⟩
    refine ⟨s, rfl, fun hready => readable_of_read hread fun _ h => ?_⟩
    cases h
    cases hready

theorem currentCommit_observes {w : World} (hw : w.locked = true) (hI : AllJustified py w) :
    Observes py floatRepr currentCommit w (· = w.files.current) := by
  refine ⟨hI, fun o => ?_⟩
  simp only [sem, World.after_locked hw, perform]
  exact ⟨rfl, rfl⟩

/-- A call without an effect, which may fail. -/
theorem act_observes {w : World} {c : Call} (hI : AllJustified py w)
    (hsem : ∀ o, sem py floatRepr c o w = (.done, w) ∨
      ∃ e, sem py floatRepr c o w = (.failed e, w)) :
    Observes py floatRepr (act c) w fun _ => True := by
  refine ⟨hI, fun o => ?_⟩
  rcases hsem o with h | ⟨e, h⟩
  · rw [h]
    exact ⟨rfl, trivial⟩
  · rw [h]
    exact rfl

theorem Observes.attempt {α : Type} {p : Code α} {w : World} {P : α → Prop}
    (handled : Failure → Bool) (h : Observes py floatRepr p w P) :
    Observes py floatRepr (attempt handled p) w fun found => ∀ a, found = some a → P a := by
  refine Prog.Safe.tryCatch (Prog.Safe.bind ((h.mono ?_ ?_)))
  · rintro a w' ⟨rfl, hP⟩
    refine ⟨rfl, fun b hb => ?_⟩
    cases hb
    exact hP
  · rintro e w' rfl
    by_cases hhandled : handled e = true
    · rw [if_pos hhandled]
      exact ⟨rfl, fun b hb => by cases hb⟩
    · rw [if_neg hhandled]
      exact rfl

/-- What follows a program that only looks. -/
theorem Observes.bind {α β : Type} {p : Code α} {f : α → Code β} {w : World} {P : α → Prop}
    {Q : β → World → Prop} {E : Failure → World → Prop} (h : Observes py floatRepr p w P)
    (hE : ∀ e, E e w)
    (hf : ∀ a, P a → (f a).Safe (sem py floatRepr) (AllJustified py) Q E w) :
    (p >>= f).Safe (sem py floatRepr) (AllJustified py) Q E w := by
  refine Prog.Safe.bind (h.mono ?_ ?_)
  · rintro a w' ⟨rfl, hP⟩
    exact hf a hP
  · rintro e w' rfl
    exact hE e

end Reading

/-! ## What is written under the lock -/

section Section

variable {py : Interpreter} {floatRepr : ℚ → List Char}

/-- The lock is held, and all writes were justified. -/
structure Sound (py : Interpreter) (w : World) : Prop where
  locked : w.locked = true
  justified : AllJustified py w

/-- A program of the section under the lock. -/
def Keeps (py : Interpreter) (floatRepr : ℚ → List Char) {α : Type} (p : Code α) (w : World) :
    Prop :=
  p.Safe (sem py floatRepr) (AllJustified py) (fun _ => Sound py) (fun _ => Sound py) w

theorem Sound.write {w : World} (h : Sound py w) {c : Call} (hc : Justified py (c, w.files))
    (files : Files) : Sound py (w.write c files) :=
  ⟨h.locked, fun write hmem => by
    rcases List.mem_cons.1 hmem with rfl | hmem
    · exact hc
    · exact h.justified write hmem⟩

/-- A justified write, and what the files are when it is confirmed. -/
theorem act_writing {w : World} (h : Sound py w) {c : Call} (after : Files)
    (hc : Justified py (c, w.files))
    (hsem : ∀ o, sem py floatRepr c o w = writing c after o w) :
    (act c).Safe (sem py floatRepr) (AllJustified py) (fun _ w' => w' = w.write c after)
      (fun _ => Sound py) w := by
  refine ⟨h.justified, fun o => ?_⟩
  rw [hsem, writing]
  split
  · exact rfl
  · exact h.write hc _
  · exact h.write hc _

/-- `with generation_lock(): body`. -/
theorem holding_generation {α : Type} {body : Code α} {w : World} (h : Sound py w)
    (hbody : Keeps py floatRepr body w) :
    Keeps py floatRepr (holding .lockGeneration .unlockGeneration body) w := by
  have hrelease : ∀ w', Sound py w' →
      Observes py floatRepr (act .unlockGeneration) w' fun _ => True := fun w' hw' =>
    act_observes hw'.justified fun o => .inl (by rw [sem, World.after_locked hw'.locked]; rfl)
  have hacquire : Observes py floatRepr (act .lockGeneration) w fun _ => True := by
    refine act_observes h.justified fun o => ?_
    rw [sem, World.after_locked h.locked, perform, fallible]
    cases o.failure with
    | none => exact .inl rfl
    | some failure => exact .inr ⟨failure.1, rfl⟩
  refine hacquire.bind (fun _ => h) fun _ _ => Prog.Safe.bind (Prog.Safe.tryCatch ?_)
  refine hbody.mono (fun a w' hw' => ?_) fun e w' hw' => ?_
  · exact (hrelease w' hw').bind (fun _ => hw') fun _ _ => hw'
  · exact (hrelease w' hw').bind (fun _ => hw') fun _ _ => hw'

theorem readDesired_observes {w : World} (h : Sound py w) :
    Observes py floatRepr readDesired w fun found => ∀ d, found = some d →
      readDesiredStrict py (opened none w.files.desired) = .ok (some d) := by
  refine ((desiredStrict_observes h.locked h.justified).attempt _).bind (fun _ => rfl) ?_
  intro found hfound
  refine ⟨rfl, fun d hd => ?_⟩
  cases found with
  | none => cases hd
  | some found =>
    cases hd
    exact hfound _ rfl

/-- The flag is cleared where the files allow it. -/
theorem clearMigrationFlag_keeps {w : World} (h : Sound py w) {d : SupervisorDesired}
    (hd : Intent py w.files d) (hclear : Clearable py w.files d) :
    Keeps py floatRepr (clearMigrationFlag d.generation) w := by
  refine holding_generation h ((readDesired_observes h).bind (fun _ => h) ?_)
  intro found hfound
  cases found with
  | none => exact h
  | some current =>
    have hcurrent : current = d := by
      have hread := hfound current rfl
      rw [hd.1] at hread
      cases hread
      rfl
    subst hcurrent
    have hjustified : Justified py
        (.writeDesired { current with migration := false }, w.files) := ⟨current, hd, rfl, hclear⟩
    show Keeps py floatRepr (if current.migration = true ∧ current.generation = current.generation
      then (do act (.writeDesired { current with migration := false }); return true)
      else return false) w
    rw [if_pos ⟨hd.2, rfl⟩]
    refine Prog.Safe.bind ((act_writing h { w.files with
      desired := some (utf8Encode
        (SupervisorDesired.fileText floatRepr { current with migration := false })) }
      hjustified fun o => ?_).mono ?_ fun _ _ => id)
    · rw [sem, World.after_locked h.locked]
      rfl
    · rintro - w' rfl
      exact h.write hjustified _

/-- The record is removed and the flag cleared where the pointer selects the commit. -/
theorem finish_keeps {w : World} (h : Sound py w) {desired d : SupervisorDesired}
    (hm : SameMigration desired d) (hd : Proven py w.files d)
    (hcurrent : w.files.current = some d.commit) : Keeps py floatRepr (finish desired) w := by
  have hjustified : Justified py (.removeMission, w.files) := ⟨d, hd, hcurrent⟩
  refine Prog.Safe.bind ((act_writing h { w.files with mission := none } hjustified
    fun o => ?_).mono ?_ fun _ _ => id)
  · rw [sem, World.after_locked h.locked]
    rfl
  · rintro - w' rfl
    rw [hm.generation]
    exact Prog.Safe.bind (clearMigrationFlag_keeps (h.write hjustified _) hd.intent
      (.inr ⟨hcurrent, rfl⟩))

/-- A `CliError` is a message; behind the step the world is as it was, or the pointer moved. -/
theorem cliStep_observes {w : World} {lead : PyStr} {c : Call}
    (h : Observes py floatRepr (act c) w fun _ => True) :
    Observes py floatRepr (cliStep lead c) w fun _ => True := by
  refine Prog.Safe.tryCatch (Prog.Safe.bind (h.mono ?_ ?_))
  · rintro - w' ⟨rfl, -⟩
    exact ⟨rfl, trivial⟩
  · rintro e w' rfl
    cases e.cliText with
    | none => exact rfl
    | some text => exact ⟨rfl, trivial⟩

/-- The pointer is moved where a worker is ready for the migration. -/
theorem setCurrent_safe {w : World} (h : Sound py w) {lead : PyStr} {d : SupervisorDesired}
    (hd : Proven py w.files d) :
    (cliStep lead (.setCurrent d.commit)).Safe (sem py floatRepr) (AllJustified py)
      (fun message w' => Sound py w' ∧ (message = none →
        Proven py w'.files d ∧ w'.files.current = some d.commit)) (fun _ => Sound py) w := by
  have hjustified : Justified py (.setCurrent d.commit, w.files) := ⟨d, hd, rfl⟩
  refine Prog.Safe.tryCatch (Prog.Safe.bind ?_)
  refine ⟨h.justified, fun o => ?_⟩
  rw [sem, World.after_locked h.locked, perform]
  by_cases hname : isValidCommitName d.commit = true
  · rw [if_pos hname, switching]
    by_cases hpointer : o.pointer = .confirmed
    · rw [if_pos hpointer]
      refine ⟨h.write hjustified _, fun _ => ⟨⟨hd.intent, hd.notSuperseded, hd.ready⟩, ?_⟩⟩
      show pointed o.pointer d.commit w.files.current = _
      rw [hpointer]
      rfl
    · rw [if_neg hpointer]
      exact ⟨h.write hjustified _, fun hmessage => by cases hmessage⟩
  · rw [if_neg hname]
    exact ⟨h, fun hmessage => by cases hmessage⟩

theorem converge_keeps {w : World} (h : Sound py w) {desired d : SupervisorDesired}
    (hm : SameMigration desired d) (hd : Proven py w.files d) :
    Keeps py floatRepr (converge desired) w := by
  refine (currentCommit_observes h.locked h.justified).bind (fun _ => h) fun current hcurrent => ?_
  by_cases hselects : current = some desired.commit
  · rw [if_pos hselects]
    exact finish_keeps h hm hd (by rw [← hcurrent, hselects, hm.commit])
  · rw [if_neg hselects, hm.commit]
    refine Prog.Safe.bind ((setCurrent_safe h hd).mono ?_ fun _ _ => id)
    rintro message w' ⟨hw', hmoved⟩
    cases message with
    | some text => exact hw'
    | none =>
      obtain ⟨hproven, hcurrent'⟩ := hmoved rfl
      exact finish_keeps hw' hm hproven hcurrent'

theorem completeWhenReady_keeps {w : World} (h : Sound py w) {desired d : SupervisorDesired}
    (hm : SameMigration desired d) (hd : Intent py w.files d)
    (hmission : NotSuperseded py w.files d.generation) :
    Keeps py floatRepr (completeWhenReady desired) w := by
  refine (readState_observes h.locked h.justified).bind (fun _ => h) fun s hread => ?_
  by_cases hnot : s.ready = false ∨ s.appliedGeneration < desired.generation ∨
      s.commit ≠ some desired.commit
  · rw [if_pos hnot]
    exact h
  · rw [if_neg hnot]
    simp only [not_or, Bool.not_eq_false, not_lt, ne_eq, not_not, hm.generation, hm.commit] at hnot
    obtain ⟨hready, happlied, hcommit⟩ := hnot
    have hbuild : Observes py floatRepr
        (act (.buildCliRoot desired.repo desired.commit desired.uvPath)) w fun _ => True := by
      refine act_observes h.justified fun o => ?_
      rw [sem, World.after_locked h.locked, perform, fallible]
      by_cases hname : isValidCommitName desired.commit = true
      · rw [if_pos hname]
        cases o.failure with
        | none => exact .inl rfl
        | some failure => exact .inr ⟨failure.1, rfl⟩
      · rw [if_neg hname]
        exact .inr ⟨_, rfl⟩
    refine (cliStep_observes hbuild).bind (fun _ => h) fun message _ => ?_
    cases message with
    | some text => exact h
    | none =>
      exact converge_keeps h hm ⟨hd, hmission, s, hread hready, hready, happlied, hcommit⟩

theorem completeMigration_keeps {w : World} (h : Sound py w) {desired d : SupervisorDesired}
    (hm : SameMigration desired d) (hd : Intent py w.files d) :
    Keeps py floatRepr (completeMigration desired) w := by
  refine ((readMission_observes h.locked h.justified).attempt _).bind (fun _ => h) ?_
  intro found hfound
  cases found with
  | none => exact h
  | some mission =>
    have hread := hfound mission rfl
    by_cases hnewer : mission.any (fun m => desired.generation < m.generation) = true
    · simp only [if_pos hnewer]
      rw [hm.generation] at hnewer ⊢
      obtain ⟨m, rfl, hlt⟩ := (Option.any_eq_true _ _).1 hnewer
      exact Prog.Safe.bind (clearMigrationFlag_keeps h hd (.inl ⟨m, hread, of_decide_eq_true hlt⟩))
    · simp only [if_neg hnewer]
      refine completeWhenReady_keeps h hm hd ⟨mission, hread, fun m hmem => ?_⟩
      subst hmem
      simpa [hm.generation] using hnewer

/-- **What the section writes**, the files allow. -/
theorem completeColdMigrationLocked_safe {w : World} (h : Sound py w)
    (desired : SupervisorDesired) :
    Keeps py floatRepr (completeColdMigrationLocked desired) w := by
  refine ((desiredStrict_observes h.locked h.justified).attempt _).bind (fun _ => h) ?_
  intro found hfound
  cases found with
  | none => exact h
  | some found =>
    cases found with
    | none => exact h
    | some current =>
      by_cases hother : current.migration = false ∨ current.generation ≠ desired.generation ∨
          current.commit ≠ desired.commit
      · simp only [if_pos hother]
        exact h
      · simp only [if_neg hother]
        simp only [not_or, Bool.not_eq_false, ne_eq, not_not] at hother
        exact completeMigration_keeps h ⟨hother.2.1.symm, hother.2.2.symm⟩
          ⟨hfound _ rfl, hother.1⟩

/-- Without the lock, a call that writes nothing. -/
theorem sem_writes {w : World} (hI : AllJustified py w) {c : Call}
    (hc : c = .readDesired ∨ c = .lockDeployment) (o : Decision) :
    AllJustified py (sem py floatRepr c o w).2 := by
  have hwrites : (w.after o).writes = w.writes := by
    unfold World.after
    split_ifs <;> rfl
  have hafter : (sem py floatRepr c o w).2.writes = w.writes := by
    rcases hc with rfl | rfl
    · exact hwrites
    · rw [sem, perform]
      split
      · exact hwrites
      · exact hwrites
  rw [AllJustified, hafter]
  exact hI

/-- `with deploy_lock(...)`: the section starts with the lock held. -/
theorem holding_deployment {α : Type} {body : Code α} {w : World} (hI : AllJustified py w)
    (hbody : ∀ w', Sound py w' → Keeps py floatRepr body w') :
    (holding .lockDeployment .unlockDeployment body).Safe (sem py floatRepr) (AllJustified py)
      (fun _ => AllJustified py) (fun _ => AllJustified py) w := by
  have hrelease : ∀ w', Sound py w' → (act .unlockDeployment).Safe (sem py floatRepr)
      (AllJustified py) (fun _ => AllJustified py) (fun _ => AllJustified py) w' := fun w' hw' =>
    ⟨hw'.justified, fun o => by
      rw [sem, World.after_locked hw'.locked]
      exact hw'.justified⟩
  refine Prog.Safe.bind ⟨hI, fun o => ?_⟩
  have hjustified : AllJustified py (sem py floatRepr .lockDeployment o w).2 :=
    sem_writes hI (.inr rfl) o
  rw [sem, perform] at hjustified ⊢
  cases hfailure : o.failure with
  | some failure =>
    rw [hfailure] at hjustified
    exact hjustified
  | none =>
    rw [hfailure] at hjustified
    refine Prog.Safe.bind (Prog.Safe.tryCatch ((hbody _ ⟨rfl, hjustified⟩).mono ?_ ?_))
    · intro a w' hw'
      exact Prog.Safe.bind (hrelease w' hw')
    · intro e w' hw'
      exact Prog.Safe.bind (hrelease w' hw')

theorem completeUnderLock_keeps (desired : SupervisorDesired) :
    (completeUnderLock desired).Keeps (sem py floatRepr) (AllJustified py) := by
  intro w hI
  refine Prog.Safe.tryCatch ((holding_deployment hI fun w' hw' =>
    completeColdMigrationLocked_safe hw' desired).mono (fun _ _ => id) ?_)
  intro e w' hw'
  cases e with
  | lockTimeout | generationLockTimeout => exact hw'
  | cliError text => exact hw'
  | durabilityError | osError | mistaken => exact hw'
  | read exc => exact hw'

/-- **Every write of a call is justified**, whatever happens around it. -/
theorem completeColdMigration_keeps :
    completeColdMigration.Keeps (sem py floatRepr) (AllJustified py) := by
  have hread : readDesiredStrict'.Keeps (sem py floatRepr) (AllJustified py) := by
    refine .call (fun w o hI => sem_writes hI (.inl rfl) o) fun r => ?_
    cases r with
    | desired d => exact Prog.keeps_ret _
    | done | mission m | state s | commit c | failed e => exact Prog.keeps_raise _
  refine .bind (.tryCatch (.bind hread fun _ => Prog.keeps_ret _) fun e => ?_) fun found => ?_
  · by_cases hhandled : e.isDesiredIntentError = true
    · rw [if_pos hhandled]
      exact Prog.keeps_ret _
    · rw [if_neg hhandled]
      exact Prog.keeps_raise _
  · cases found with
    | none => exact Prog.keeps_ret _
    | some found =>
      cases found with
      | none => exact Prog.keeps_ret _
      | some desired =>
        by_cases hflag : desired.migration = true
        · simp only [if_pos hflag]
          exact completeUnderLock_keeps desired
        · simp only [if_neg hflag]
          exact Prog.keeps_ret _

end Section

/-! ## A call without failures -/

section Quiet

variable (py : Interpreter) (floatRepr : ℚ → List Char)

/-- What a call does when nothing fails and nobody else writes. -/
def sure (c : Call) (w : World) : Reply × World := sem py floatRepr c quiet w

/-- The files, once the flag of `d` is cleared. -/
def Files.cleared (d : SupervisorDesired) (files : Files) : Files :=
  { files with
    desired := some (utf8Encode
      (SupervisorDesired.fileText floatRepr { d with migration := false })) }

variable {py floatRepr} {w : World} {d : SupervisorDesired}

theorem sure_eq (c : Call) (w : World) :
    sure py floatRepr c w = perform py floatRepr quiet w c := by
  rw [sure, sem, World.after_quiet]

theorem eval_act {c : Call} {w' : World} (h : perform py floatRepr quiet w c = (.done, w')) :
    (act c).eval (sure py floatRepr) w = (w', .ok ()) := by
  rw [act, Prog.eval, sure_eq, h]
  rfl

theorem eval_desiredStrict {found : Option SupervisorDesired}
    (h : readDesiredStrict py (opened none w.files.desired) = .ok found) :
    readDesiredStrict'.eval (sure py floatRepr) w = (w, .ok found) := by
  have hsem : perform py floatRepr quiet w .readDesired = (.desired found, w) := by
    rw [perform, show quiet.openError = none from rfl, h]
    rfl
  rw [readDesiredStrict', Prog.eval, sure_eq, hsem]
  rfl

theorem eval_readMission {mission : Option RollbackState}
    (h : readRollbackState py (opened none w.files.mission) = .ok mission) :
    readMission.eval (sure py floatRepr) w = (w, .ok mission) := by
  have hsem : perform py floatRepr quiet w .readMission = (.mission mission, w) := by
    rw [perform, show quiet.openError = none from rfl, h]
    rfl
  rw [readMission, Prog.eval, sure_eq, hsem]
  rfl

theorem eval_readState {s : SupervisorState}
    (h : readStateFile py (opened none w.files.state) = .ok s) :
    readState.eval (sure py floatRepr) w = (w, .ok s) := by
  have hsem : perform py floatRepr quiet w .readState = (.state s, w) := by
    rw [perform, show quiet.openError = none from rfl, h]
    rfl
  rw [readState, Prog.eval, sure_eq, hsem]
  rfl

theorem eval_currentCommit :
    currentCommit.eval (sure py floatRepr) w = (w, .ok w.files.current) := by
  rw [currentCommit, Prog.eval, sure_eq]
  rfl

theorem eval_attempt {α : Type} {p : Code α} {w' : World} {a : α} (handled : Failure → Bool)
    (h : p.eval (sure py floatRepr) w = (w', .ok a)) :
    (attempt handled p).eval (sure py floatRepr) w = (w', .ok (some a)) :=
  Prog.eval_tryCatch_ok (Prog.eval_bind_ok h)

theorem eval_holding {α : Type} {acquire release : Call} {body : Code α} {w₁ w₂ w₃ : World} {a : α}
    (hacquire : perform py floatRepr quiet w acquire = (.done, w₁))
    (hbody : body.eval (sure py floatRepr) w₁ = (w₂, .ok a))
    (hrelease : perform py floatRepr quiet w₂ release = (.done, w₃)) :
    (holding acquire release body).eval (sure py floatRepr) w = (w₃, .ok a) := by
  rw [holding, Prog.eval_bind_ok (eval_act hacquire),
    Prog.eval_bind_ok (Prog.eval_tryCatch_ok hbody), Prog.eval_bind_ok (eval_act hrelease)]
  rfl

theorem eval_cliStep {lead : PyStr} {c : Call} {w' : World}
    (h : perform py floatRepr quiet w c = (.done, w')) :
    (cliStep lead c).eval (sure py floatRepr) w = (w', .ok none) :=
  Prog.eval_tryCatch_ok (Prog.eval_bind_ok (eval_act h))

/-- The world in which the flag of `d` was cleared. -/
def World.cleared (floatRepr : ℚ → List Char) (d : SupervisorDesired) (w : World) : World :=
  w.write (.writeDesired { d with migration := false }) (w.files.cleared floatRepr d)

theorem eval_clearMigrationFlag (hd : Intent py w.files d) :
    (clearMigrationFlag d.generation).eval (sure py floatRepr) w =
      (w.cleared floatRepr d, .ok true) := by
  have hacquire : perform py floatRepr quiet w .lockGeneration = (.done, w) := rfl
  have hrelease : perform py floatRepr quiet (w.cleared floatRepr d) .unlockGeneration =
      (.done, w.cleared floatRepr d) := rfl
  refine eval_holding hacquire ?_ hrelease
  have hread : readDesired.eval (sure py floatRepr) w = (w, .ok (some d)) := by
    rw [readDesired, Prog.eval_bind_ok (eval_attempt _ (eval_desiredStrict hd.1))]
    rfl
  have hwrite : perform py floatRepr quiet w (.writeDesired { d with migration := false }) =
      (.done, w.cleared floatRepr d) := rfl
  rw [Prog.eval_bind_ok hread]
  show Prog.eval _ (if d.migration = true ∧ d.generation = d.generation
    then (do act (.writeDesired { d with migration := false }); return true)
    else return false) w = _
  rw [if_pos ⟨hd.2, rfl⟩, Prog.eval_bind_ok (eval_act hwrite)]
  rfl

/-- The record is removed, and the flag cleared. -/
theorem eval_finish (hd : Intent py w.files d) :
    ∃ w', (finish d).eval (sure py floatRepr) w = (w', .ok none) ∧
      w'.files = ({ w.files with mission := none } : Files).cleared floatRepr d := by
  have hremove : perform py floatRepr quiet w .removeMission =
      (.done, w.write .removeMission { w.files with mission := none }) := rfl
  have hd' : Intent py (w.write .removeMission { w.files with mission := none }).files d := hd
  refine ⟨(w.write .removeMission { w.files with mission := none }).cleared floatRepr d, ?_, rfl⟩
  rw [finish, Prog.eval_bind_ok (eval_act hremove),
    Prog.eval_bind_ok (eval_clearMigrationFlag hd')]
  rfl

/-- The pointer selects the commit, the record is removed, and the flag cleared. -/
theorem eval_converge (hd : Intent py w.files d) (hname : isValidCommitName d.commit = true) :
    ∃ w', (converge d).eval (sure py floatRepr) w = (w', .ok none) ∧
      w'.files = ({ w.files with current := some d.commit, mission := none } : Files).cleared
        floatRepr d := by
  rw [converge, Prog.eval_bind_ok eval_currentCommit]
  by_cases hselects : w.files.current = some d.commit
  · rw [if_pos hselects, ← hselects]
    exact eval_finish hd
  · have hset : perform py floatRepr quiet w (.setCurrent d.commit) =
        (.done, w.write (.setCurrent d.commit) { w.files with current := some d.commit }) := by
      rw [perform, if_pos hname]
      rfl
    rw [if_neg hselects, Prog.eval_bind_ok (eval_cliStep hset)]
    exact eval_finish (w := w.write (.setCurrent d.commit)
      { w.files with current := some d.commit }) hd

theorem eval_completeMigration_superseded (hd : Intent py w.files d)
    (hnewer : Superseded py w.files d.generation) :
    (completeMigration d).eval (sure py floatRepr) w = (w.cleared floatRepr d, .ok none) := by
  obtain ⟨m, hread, hlt⟩ := hnewer
  rw [completeMigration, Prog.eval_bind_ok (eval_attempt _ (eval_readMission hread))]
  simp only [Option.any_some, decide_eq_true hlt, if_true]
  rw [Prog.eval_bind_ok (eval_clearMigrationFlag hd)]
  rfl

theorem eval_completeMigration (hd : Proven py w.files d)
    (hname : isValidCommitName d.commit = true) :
    ∃ w', (completeMigration d).eval (sure py floatRepr) w = (w', .ok none) ∧
      w'.files = ({ w.files with current := some d.commit, mission := none } : Files).cleared
        floatRepr d := by
  obtain ⟨mission, hmission, hbelow⟩ := hd.notSuperseded
  obtain ⟨s, hstate, hready, happlied, hcommit⟩ := hd.ready
  have hnewer : ¬ mission.any (fun m => d.generation < m.generation) = true := by
    intro hany
    obtain ⟨m, hm, hlt⟩ := (Option.any_eq_true _ _).1 hany
    exact absurd (hbelow m hm) (not_le.2 (of_decide_eq_true hlt))
  have hnot : ¬ (s.ready = false ∨ s.appliedGeneration < d.generation ∨
      s.commit ≠ some d.commit) := by
    simp [hready, happlied, hcommit]
  have hbuild : perform py floatRepr quiet w (.buildCliRoot d.repo d.commit d.uvPath) =
      (.done, w) := by
    rw [perform, if_pos hname]
    rfl
  rw [completeMigration, Prog.eval_bind_ok (eval_attempt _ (eval_readMission hmission))]
  simp only [if_neg hnewer]
  rw [completeWhenReady, Prog.eval_bind_ok (eval_readState hstate), if_neg hnot,
    Prog.eval_bind_ok (eval_cliStep hbuild)]
  exact eval_converge hd.intent hname

/-- The section, on the files the intent was read from. -/
theorem eval_completeColdMigration {result : World} (hd : Intent py w.files d)
    (h : (completeMigration d).eval (sure py floatRepr) { w with locked := true } =
      (result, .ok none)) :
    completeColdMigration.eval (sure py floatRepr) w = (result.released, .ok none) := by
  have hsection : (completeColdMigrationLocked d).eval (sure py floatRepr)
      { w with locked := true } = (result, .ok none) := by
    have hread : readDesiredStrict'.eval (sure py floatRepr) { w with locked := true } =
        ({ w with locked := true }, .ok (some d)) := eval_desiredStrict hd.1
    have hsame : ¬ (d.migration = false ∨ d.generation ≠ d.generation ∨ d.commit ≠ d.commit) := by
      simp [hd.2]
    rw [completeColdMigrationLocked, Prog.eval_bind_ok (eval_attempt _ hread)]
    simp only [if_neg hsame]
    exact h
  rw [completeColdMigration, Prog.eval_bind_ok (eval_attempt _ (eval_desiredStrict hd.1))]
  simp only [if_pos hd.2]
  exact Prog.eval_tryCatch_ok (eval_holding rfl hsection rfl)

/-- A cleared flag is read as cleared, where the interpreter meets none of its limits. -/
theorem readDesiredStrict_cleared {files : Files} (hd : Intent py files d)
    (hx : ReadsBack floatRepr d.requestedAt)
    (hdeep : py.tooDeep
      (SupervisorDesired.fileText floatRepr { d with migration := false }) = false)
    (hdigits : py.tooManyDigits
      (SupervisorDesired.fileText floatRepr { d with migration := false }) = false) :
    readDesiredStrict py (opened none (files.cleared floatRepr d).desired) =
      .ok (some { d with migration := false }) := by
  have hv := readDesiredStrict_valid hd.1
  exact readDesiredStrict_fileText (d := { d with migration := false })
    ⟨hv.schema, hv.generation, hv.commitText, hv.repoText, hv.uvText, hv.idText, hv.requestedAt⟩
    hx hdeep hdigits

/-- What a migration that nothing stands in the way of leaves of the files. -/
structure Completes (py : Interpreter) (floatRepr : ℚ → List Char) (d : SupervisorDesired)
    (before after : Files) : Prop where
  superseded : Superseded py before d.generation → after = before.cleared floatRepr d
  proven : NotSuperseded py before d.generation →
    after = ({ before with current := some d.commit, mission := none } : Files).cleared floatRepr d

/-- **A call without failures completes the migration**, when a newer mission supersedes it or a
worker is ready for it. -/
theorem completeColdMigration_completes (hd : Intent py w.files d)
    (h : Superseded py w.files d.generation ∨
      Proven py w.files d ∧ isValidCommitName d.commit = true) :
    ∃ calls, ∀ n, calls ≤ n → ∃ w',
      completeColdMigration.run (sem py floatRepr) (List.replicate n quiet) w =
        (w', .returned none) ∧ Completes py floatRepr d w.files w'.files := by
  obtain ⟨calls, hrun⟩ := Prog.run_steady (sem py floatRepr) completeColdMigration quiet w
  have heval : ∃ w', completeColdMigration.eval (sure py floatRepr) w = (w', .ok none) ∧
      Completes py floatRepr d w.files w'.files := by
    rcases h with hnewer | ⟨hproven, hname⟩
    · have hsection : (completeMigration d).eval (sure py floatRepr) { w with locked := true } =
          (({ w with locked := true } : World).cleared floatRepr d, .ok none) :=
        eval_completeMigration_superseded hd hnewer
      refine ⟨_, eval_completeColdMigration hd hsection, fun _ => rfl, ?_⟩
      rintro ⟨mission, hmission, hbelow⟩
      obtain ⟨m, hread, hlt⟩ := hnewer
      rw [hmission] at hread
      cases hread
      exact absurd (hbelow m rfl) (not_le.2 hlt)
    · have hproven' : Proven py ({ w with locked := true } : World).files d := hproven
      obtain ⟨result, hsection, hfiles⟩ :
          ∃ w', (completeMigration d).eval (sure py floatRepr) { w with locked := true } =
              (w', .ok none) ∧
            w'.files = ({ w.files with current := some d.commit, mission := none } : Files).cleared
              floatRepr d := eval_completeMigration hproven' hname
      refine ⟨_, eval_completeColdMigration hd hsection, ?_, fun _ => hfiles⟩
      rintro ⟨m, hread, hlt⟩
      obtain ⟨mission, hmission, hbelow⟩ := hproven.notSuperseded
      rw [hmission] at hread
      cases hread
      exact absurd (hbelow m rfl) (not_le.2 hlt)
  obtain ⟨w', heval, hfiles⟩ := heval
  refine ⟨calls, fun n hn => ⟨w', ?_, hfiles⟩⟩
  have hend : (completeColdMigration.eval (fun c => sem py floatRepr c quiet) w) =
      (w', .ok none) := heval
  rw [hrun n hn, hend]
  rfl

end Quiet

/-! ## All runs -/

section Runs

variable (py : Interpreter) (floatRepr : ℚ → List Char)

/-- One call of the daemon, as far as its decisions go; then it has ended or been interrupted. -/
def callOnce (w : World) (decisions : List Decision) : World :=
  (completeColdMigration.run (sem py floatRepr) decisions w).1.released

/-- Calls one after the other, by any number of daemons. -/
def calls (w : World) (attempts : List (List Decision)) : World :=
  attempts.foldl (callOnce py floatRepr) w

variable {py floatRepr}

theorem callOnce_justified {w : World} (h : AllJustified py w) (decisions : List Decision) :
    AllJustified py (callOnce py floatRepr w decisions) :=
  ((completeColdMigration_keeps w h).sound (fun _ _ => id) (fun _ _ => id) decisions).1

/-- **In every run, every write is justified.** -/
theorem calls_justified {w : World} (h : AllJustified py w) (attempts : List (List Decision)) :
    AllJustified py (calls py floatRepr w attempts) := by
  induction attempts generalizing w with
  | nil => exact h
  | cons decisions attempts ih => exact ih (callOnce_justified h decisions)

/-- **A cold migration completes exactly when it is proven.** In every run, the daemon moves
`cli/current` only to the commit of the migration that is still the intent, while no newer mission
exists and a worker is ready for it; it removes no newer mission; it clears the flag only behind
the pointer and the removed record, or because a newer mission supersedes the migration. Once one
of these is due, a call without failures clears the flag. -/
theorem cold_migration_completes_when_proven (py : Interpreter) (floatRepr : ℚ → List Char)
    (files : Files) (attempts : List (List Decision)) :
    AllJustified py (calls py floatRepr (World.start files) attempts) ∧
      ∀ d, Intent py (calls py floatRepr (World.start files) attempts).files d →
        (Superseded py (calls py floatRepr (World.start files) attempts).files d.generation ∨
          Proven py (calls py floatRepr (World.start files) attempts).files d ∧
            isValidCommitName d.commit = true) →
        ∃ enough, ∀ n, enough ≤ n → ∃ w',
          completeColdMigration.run (sem py floatRepr) (List.replicate n quiet)
            (calls py floatRepr (World.start files) attempts) = (w', .returned none) ∧
          Completes py floatRepr d (calls py floatRepr (World.start files) attempts).files
            w'.files := by
  refine ⟨calls_justified (fun write hmem => by cases hmem) attempts, fun d hd h => ?_⟩
  exact completeColdMigration_completes hd h

end Runs

/-- An intent as `migrate` publishes it. -/
def target : SupervisorDesired where
  schemaVersion := SCHEMA_VERSION
  generation := 4
  commit := List.replicate 40 0x61
  repo := "repo"
  uvPath := "uv"
  workerId := none
  migration := true

/-- The state of a daemon whose worker is ready for it. -/
def readyState : SupervisorState :=
  { freshState with appliedGeneration := 4, commit := some target.commit, ready := true }

/-- The files behind a migration; no mission is recorded, and no commit selected. -/
def migratedFiles : Files where
  desired := some (utf8Encode (target.fileText zeroRepr))
  mission := none
  state := some (utf8Encode (readyState.fileText zeroRepr))
  current := none

theorem target_valid : target.Valid :=
  ⟨rfl, by decide, rfl, rfl, rfl, nofun, le_refl _⟩

theorem readyState_valid : readyState.Valid Joined := by
  refine ⟨rfl, by decide, ?_, nofun, nofun, nofun, le_refl _, nofun, nofun, nofun, nofun, nofun,
    nofun⟩
  intro c hc
  obtain rfl : target.commit = c := Option.some.inj hc
  exact target_valid.commitText

theorem migratedFiles_intent : Intent plainInterpreter migratedFiles target := by
  refine ⟨?_, rfl⟩
  show readDesiredStrict plainInterpreter (.bytes (utf8Encode (target.fileText zeroRepr))) = _
  exact readDesiredStrict_fileText target_valid readsBack_zero rfl rfl

theorem migratedFiles_ready : ReadyFor plainInterpreter migratedFiles target := by
  refine ⟨readyState, ?_, rfl, le_refl _, rfl⟩
  show readStateFile plainInterpreter (.bytes (utf8Encode (readyState.fileText zeroRepr))) = _
  rw [readStateFile_text (utf8_utf8Encode _) rfl rfl, readState_fileText readyState_valid
    ⟨nofun, nofun, nofun, nofun, nofun, nofun, nofun⟩]
  rfl

theorem migratedFiles_proven : Proven plainInterpreter migratedFiles target :=
  ⟨migratedFiles_intent, ⟨none, rfl, fun m hm => by cases hm⟩, migratedFiles_ready⟩

/-- The rule on these files: a call without failures selects the commit. -/
theorem cold_migration_completes_target : ∃ enough, ∀ n, enough ≤ n → ∃ w',
    completeColdMigration.run (sem plainInterpreter zeroRepr) (List.replicate n quiet)
      (World.start migratedFiles) = (w', .returned none) ∧
    w'.files.current = some target.commit ∧ w'.files.mission = none := by
  have hname : isValidCommitName target.commit = true := by decide
  obtain ⟨-, hcompletes⟩ :=
    cold_migration_completes_when_proven plainInterpreter zeroRepr migratedFiles []
  obtain ⟨enough, hrun⟩ := hcompletes target migratedFiles_proven.intent
    (.inr ⟨migratedFiles_proven, hname⟩)
  refine ⟨enough, fun n hn => ?_⟩
  obtain ⟨w', hend, hfiles⟩ := hrun n hn
  have hafter := hfiles.proven migratedFiles_proven.notSuperseded
  refine ⟨w', hend, ?_, ?_⟩
  · rw [hafter]
    rfl
  · rw [hafter]
    rfl

end Lubko.Supervise.ColdMigration
