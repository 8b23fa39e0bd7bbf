import Lubko.Supervise.Handoff

/-!
# The maintained runtimes

`cli.py`: every commit has its directory below `cli/`, extracted and synchronised once, bound to the
commit by a manifest with a digest of the tree, and sealed read-only; `cli/current` selects one of
them. Here are the inspection of a runtime, the build, the seal and the switch of the pointer.

Of a tree the model keeps its files without the manifest and the write bits, what the manifest
binds, and whether a write bit is left. What the outside answers to a call (`git archive`,
`uv sync`, reads, `chmod`, what is left of a deleted tree) is a record of its own.

* `Upto` — two disks with the same pointer and records, and the same roots but for write bits.
* `Apart` — two disks that differ in the root of one commit only.
* `buildCliRoot_keeps_current` — a build leaves the selected root as it is.
-/

namespace Lubko.Cli

open Lubko.Lib Lubko.Supervise

variable {F D : Type}

/-! ## Roots -/

/-- The directory of a commit. -/
structure Tree (F D : Type) where
  /-- Everything but the manifest, with the write bits masked. -/
  files : F
  /-- The commit and the digest of a manifest of the current schema. -/
  bound : Option (PyStr × D)
  /-- No entry has a write bit. -/
  readOnly : Bool
  deriving DecidableEq

/-- What is computed from the files of a tree. -/
structure Tools (F D : Type) where
  empty : F
  /-- `_root_is_usable`: every maintained entry point is there. -/
  complete : F → Bool
  /-- `_runtime_content_digest`. -/
  digest : F → D

/-- `$XDG_STATE_HOME/lubko`: the runtimes, the pointer, and the two records that name commits. -/
structure Disk (F D : Type) where
  roots : PyStr → Option (Tree F D)
  /-- The name that `cli/current` selects. -/
  current : Option PyStr
  /-- `desired.json`. -/
  desired : Option (List UInt8)
  /-- `state.json`. -/
  state : Option (List UInt8)

/-- How a call ends that does not return. -/
inductive CliFailure where
  | cliError
  | osError
  /-- What a read of the supervisor's records raises. -/
  | read
  deriving DecidableEq

/-- A call of the module: it changes the disk, and may raise. -/
abbrev Call (F D α : Type) := EStateM CliFailure (Disk F D) α

def Disk.setRoot (commit : PyStr) (t : Option (Tree F D)) (d : Disk F D) : Disk F D :=
  { d with roots := Function.update d.roots commit t }

/-- Change the tree of a commit where there is one. -/
def Disk.onRoot (commit : PyStr) (f : Tree F D → Tree F D) (d : Disk F D) : Disk F D :=
  d.setRoot commit ((d.roots commit).map f)

/-- Go on where the condition holds, and raise where it does not. -/
def require (b : Bool) (e : CliFailure) : Call F D Unit := if b then pure () else throw e

def validateCommitName (commit : PyStr) : Call F D Unit :=
  require (isValidCommitName commit) .cliError

/-- `seal_runtime`; an entry that cannot be changed keeps its bits. -/
def sealRuntime (took : Bool) (commit : PyStr) : Call F D Unit := do
  validateCommitName commit
  modify (Disk.onRoot commit fun t => { t with readOnly := t.readOnly || took })

def unsealRuntime (commit : PyStr) : Call F D Unit := do
  validateCommitName commit
  modify (Disk.onRoot commit fun t => { t with readOnly := false })

/-! ## Inspection -/

/-- What the calls of one inspection answer: the reads of the manifest and of the tree, the seal,
and the second read of the tree. -/
structure Inspection where
  manifestRead : Bool
  digestRead : Bool
  seals : Bool
  digestReread : Bool
  deriving DecidableEq

/-- `runtime_is_usable`. -/
def runtimeIsUsable [DecidableEq D] (tools : Tools F D) (i : Inspection) (commit : PyStr) :
    Call F D Bool := do
  if isValidCommitName commit = false then return false
  match (← get).roots commit with
  | none => return false
  | some t =>
    if tools.complete t.files = false ∨ i.manifestRead = false then return false
    if i.digestRead = false ∨ t.bound ≠ some (commit, tools.digest t.files) then return false
    if t.readOnly then return true
    if (← get).current ≠ some commit then return false
    -- the selected runtime, whose content is proven, gets its seal back
    sealRuntime i.seals commit
    return i.seals && i.digestReread

/-! ## The build -/

/-- The answers to one build. -/
structure BuildAnswers (F D : Type) where
  before : Inspection
  /-- What is left of the old tree where `rmtree` raises. -/
  stuck : Option (Tree F D)
  makesDirectory : Bool
  /-- `_extract_archive`; `none` is a `CliError`. -/
  extracted : Option F
  /-- `_sync_venv`. -/
  synchronized : Option F
  /-- What is left of a tree that `rmtree` removes with errors ignored. -/
  leftover : Option (Tree F D)
  /-- `install_entry_point_bridges`, or the tree that its `CliError` leaves. -/
  bridged : Except (Tree F D) F
  /-- `_write_runtime_manifest` reads the tree and writes the manifest. -/
  bindsManifest : Bool
  seals : Bool
  after : Inspection

/-- `_extract_archive` and `_sync_venv`, and the cleanup behind their `CliError`. -/
def materialize (commit : PyStr) (leftover : Option (Tree F D)) : Option F → Call F D Unit
  | some f => modify (Disk.setRoot commit (some ⟨f, none, false⟩))
  | none => do
    modify (Disk.setRoot commit leftover)
    throw .cliError

/-- `install_entry_point_bridges`; its `CliError` cleans nothing up. -/
def installEntryPointBridges (commit : PyStr) : Except (Tree F D) F → Call F D Unit
  | .ok f => modify (Disk.setRoot commit (some ⟨f, none, false⟩))
  | .error t => do
    modify (Disk.setRoot commit (some t))
    throw .cliError

/-- `shutil.rmtree(destination)`, where there is one. -/
def removeDestination (b : BuildAnswers F D) (commit : PyStr) : Call F D Unit := do
  if ((← get).roots commit).isSome then
    modify (Disk.setRoot commit b.stuck)
    require b.stuck.isNone .osError
  else pure ()

/-- The destination is filled: extracted, synchronised, found complete, and bridged. -/
def fillDestination (tools : Tools F D) (b : BuildAnswers F D) (commit : PyStr) :
    Call F D Unit := do
  require b.makesDirectory .osError
  modify (Disk.setRoot commit (some ⟨tools.empty, none, false⟩))
  materialize commit b.leftover b.extracted
  materialize commit b.leftover b.synchronized
  if ((← get).roots commit).any (fun t => tools.complete t.files) then
    installEntryPointBridges commit b.bridged
  else
    modify (Disk.setRoot commit b.leftover)
    throw .cliError

/-- The filled destination is bound to its commit, sealed, and inspected. -/
def bindAndSeal [DecidableEq D] (tools : Tools F D) (b : BuildAnswers F D) (commit : PyStr) :
    Call F D Unit := do
  require b.bindsManifest .cliError
  modify (Disk.onRoot commit fun t => { t with bound := some (commit, tools.digest t.files) })
  sealRuntime b.seals commit
  if ← runtimeIsUsable tools b.after commit then return
  unsealRuntime commit
  modify (Disk.setRoot commit b.leftover)
  throw .cliError

/-- `build_cli_root`. -/
def buildCliRoot [DecidableEq D] (tools : Tools F D) (b : BuildAnswers F D) (commit : PyStr) :
    Call F D Unit := do
  validateCommitName commit
  if ← runtimeIsUsable tools b.before commit then return
  -- the selected runtime is never rebuilt
  if (← get).current = some commit then throw .cliError
  else
    unsealRuntime commit
    removeDestination b commit
    fillDestination tools b commit
    bindAndSeal tools b commit

/-! ## The pointer -/

/-- How the switch of the link ends: it is confirmed, or it raises, with the old entry restored, no
entry, or the new one left. -/
inductive PointerWrite where
  | confirmed
  | restored
  | removed
  | unconfirmed
  deriving DecidableEq

/-- `set_current`. -/
def setCurrent (p : PointerWrite) (commit : PyStr) : Call F D Unit := do
  validateCommitName commit
  match p with
  | .confirmed => modify fun d => { d with current := some commit }
  | .restored => throw .cliError
  | .removed => do
    modify fun d => { d with current := none }
    throw .cliError
  | .unconfirmed => do
    modify fun d => { d with current := some commit }
    throw .cliError

/-- `reconcile_pointer`. -/
def reconcilePointer [DecidableEq D] (tools : Tools F D) (i : Inspection) (p : PointerWrite)
    (commit : PyStr) : Call F D Bool := do
  if (← runtimeIsUsable tools i commit) = false then return false
  if (← get).current = some commit then return true
  tryCatch (do setCurrent p commit; return true) fun e =>
    match e with
    | .cliError => return false
    | other => throw other

/-! ## What a call leaves of the roots -/

/-- What a tree holds, whatever its write bits. -/
def contentOf (t : Option (Tree F D)) : Option (F × Option (PyStr × D)) :=
  t.map fun t => (t.files, t.bound)

/-- The same disk but for write bits. -/
structure Upto (d d' : Disk F D) : Prop where
  current : d'.current = d.current
  desired : d'.desired = d.desired
  state : d'.state = d.state
  roots : ∀ c, contentOf (d'.roots c) = contentOf (d.roots c)

/-- The same disk but for the root of one commit. -/
structure Apart (commit : PyStr) (d d' : Disk F D) : Prop where
  current : d'.current = d.current
  desired : d'.desired = d.desired
  state : d'.state = d.state
  roots : ∀ c, c ≠ commit → d'.roots c = d.roots c

/-- The same roots but for write bits, and the same records. -/
structure SameRoots (d d' : Disk F D) : Prop where
  roots : ∀ c, contentOf (d'.roots c) = contentOf (d.roots c)
  desired : d'.desired = d.desired
  state : d'.state = d.state

theorem Upto.sameRoots {d d' : Disk F D} (h : Upto d d') : SameRoots d d' :=
  ⟨h.roots, h.desired, h.state⟩

instance : Std.Refl (SameRoots (F := F) (D := D)) := ⟨fun _ => ⟨fun _ => rfl, rfl, rfl⟩⟩

instance : IsTrans (Disk F D) SameRoots where
  trans _ _ _ h h' := ⟨fun c => (h'.roots c).trans (h.roots c), h'.desired.trans h.desired,
    h'.state.trans h.state⟩

instance : Std.Refl (Upto (F := F) (D := D)) := ⟨fun _ => ⟨rfl, rfl, rfl, fun _ => rfl⟩⟩

instance : IsTrans (Disk F D) Upto where
  trans _ _ _ h h' := ⟨h'.current.trans h.current, h'.desired.trans h.desired,
    h'.state.trans h.state, fun c => (h'.roots c).trans (h.roots c)⟩

instance (commit : PyStr) : Std.Refl (Apart (F := F) (D := D) commit) :=
  ⟨fun _ => ⟨rfl, rfl, rfl, fun _ _ => rfl⟩⟩

instance (commit : PyStr) : IsTrans (Disk F D) (Apart commit) where
  trans _ _ _ h h' := ⟨h'.current.trans h.current, h'.desired.trans h.desired,
    h'.state.trans h.state, fun c hc => (h'.roots c hc).trans (h.roots c hc)⟩

theorem apart_setRoot (commit : PyStr) (t : Option (Tree F D)) (d : Disk F D) :
    Apart commit d (d.setRoot commit t) :=
  ⟨rfl, rfl, rfl, fun _ hc => Function.update_of_ne hc _ _⟩

theorem apart_onRoot (commit : PyStr) (f : Tree F D → Tree F D) (d : Disk F D) :
    Apart commit d (d.onRoot commit f) := apart_setRoot commit _ d

theorem upto_onRoot {commit : PyStr} {f : Tree F D → Tree F D}
    (hf : ∀ t, (f t).files = t.files ∧ (f t).bound = t.bound) (d : Disk F D) :
    Upto d (d.onRoot commit f) := by
  refine ⟨rfl, rfl, rfl, fun c => ?_⟩
  by_cases hc : c = commit
  · subst hc
    cases h : d.roots c with
    | none => simp [Disk.onRoot, Disk.setRoot, contentOf, h]
    | some t => simp [Disk.onRoot, Disk.setRoot, contentOf, h, (hf t).1, (hf t).2]
  · rw [(apart_onRoot commit f d).roots c hc]

section Require

variable {R : Disk F D → Disk F D → Prop} [Std.Refl R]

theorem require_guarantees (b : Bool) (e : CliFailure) :
    Guarantees R (require b e) := .ite (.pure _) (.throw _)

theorem validateCommitName_guarantees (commit : PyStr) :
    Guarantees R (validateCommitName commit) := require_guarantees _ _

end Require

theorem sealRuntime_upto (took : Bool) (commit : PyStr) :
    Guarantees Upto (sealRuntime took commit : Call F D Unit) :=
  .bind (validateCommitName_guarantees commit) fun _ =>
    .modify (upto_onRoot fun _ => ⟨rfl, rfl⟩)

theorem sealRuntime_apart (took : Bool) (commit : PyStr) :
    Guarantees (Apart commit) (sealRuntime took commit : Call F D Unit) :=
  .bind (validateCommitName_guarantees commit) fun _ => .modify (apart_onRoot commit _)

theorem unsealRuntime_apart (commit : PyStr) :
    Guarantees (Apart commit) (unsealRuntime commit : Call F D Unit) :=
  .bind (validateCommitName_guarantees commit) fun _ => .modify (apart_onRoot commit _)

theorem materialize_apart {commit : PyStr} (leftover : Option (Tree F D)) (f : Option F) :
    Guarantees (Apart commit) (materialize commit leftover f) := by
  cases f with
  | none => exact .bind (.modify (apart_setRoot commit _)) fun _ => .throw _
  | some f => exact .modify (apart_setRoot commit _)

theorem installEntryPointBridges_apart {commit : PyStr} (f : Except (Tree F D) F) :
    Guarantees (Apart commit) (installEntryPointBridges commit f) := by
  cases f with
  | error t => exact .bind (.modify (apart_setRoot commit _)) fun _ => .throw _
  | ok f => exact .modify (apart_setRoot commit _)

section Inspect

variable [DecidableEq D] {tools : Tools F D}

/-- An inspection changes the disk by its seal only. -/
theorem runtimeIsUsable_guarantees {R : Disk F D → Disk F D → Prop} [Std.Refl R]
    [IsTrans (Disk F D) R] (i : Inspection) {commit : PyStr}
    (hseal : Guarantees R (sealRuntime i.seals commit : Call F D Unit)) :
    Guarantees R (runtimeIsUsable tools i commit) := by
  refine .ite (.pure _) (.bind .get fun d => ?_)
  cases d.roots commit with
  | none => exact .pure _
  | some t =>
    refine .ite (.pure _) (.ite (.pure _) (.ite (.pure _) (.bind .get fun d' => ?_)))
    exact .ite (.pure _) (.bind hseal fun _ => .pure _)

theorem runtimeIsUsable_upto (i : Inspection) (commit : PyStr) :
    Guarantees Upto (runtimeIsUsable tools i commit) :=
  runtimeIsUsable_guarantees i (sealRuntime_upto i.seals commit)

theorem runtimeIsUsable_apart (i : Inspection) (commit : PyStr) :
    Guarantees (Apart commit) (runtimeIsUsable tools i commit) :=
  runtimeIsUsable_guarantees i (sealRuntime_apart i.seals commit)

end Inspect

section Build

variable [DecidableEq D] {tools : Tools F D} {b : BuildAnswers F D} {commit : PyStr}

/-- A build touches no other root. -/
theorem buildCliRoot_apart : Guarantees (Apart commit) (buildCliRoot tools b commit) := by
  have set (t : Option (Tree F D)) : Guarantees (Apart commit)
      (modify (Disk.setRoot commit t) : Call F D PUnit) := .modify (apart_setRoot commit t)
  have removed : Guarantees (Apart commit) (removeDestination b commit) :=
    .bind .get fun _ => .ite (.bind (set _) fun _ => require_guarantees _ _) (.pure _)
  have filled : Guarantees (Apart commit) (fillDestination tools b commit) := by
    refine .bind (require_guarantees _ _) fun _ => .bind (set _) fun _ => ?_
    refine .bind (materialize_apart _ _) fun _ => .bind (materialize_apart _ _) fun _ => ?_
    refine .bind .get fun d => .ite (installEntryPointBridges_apart _) ?_
    exact .bind (set _) fun _ => .throw _
  have sealed : Guarantees (Apart commit) (bindAndSeal tools b commit) := by
    refine .bind (require_guarantees _ _) fun _ => ?_
    refine .bind (.modify (apart_onRoot commit _)) fun _ => ?_
    refine .bind (sealRuntime_apart _ commit) fun _ => ?_
    refine .bind (runtimeIsUsable_apart _ commit) fun usable => .ite (.pure _) ?_
    exact .bind (unsealRuntime_apart commit) fun _ => .bind (set _) fun _ => .throw _
  refine .bind (validateCommitName_guarantees commit) fun _ => ?_
  refine .bind (runtimeIsUsable_apart b.before commit) fun usable => ?_
  refine .ite (.pure _) (.bind .get fun d => .ite (.throw _) ?_)
  refine .bind (unsealRuntime_apart commit) fun _ => ?_
  exact .bind removed fun _ => .bind filled fun _ => sealed

/-- **A build leaves the selected root as it is**: a usable one is returned, and any other is
refused. -/
theorem buildCliRoot_keeps_current {d : Disk F D} (h : d.current = some commit) :
    Upto d (after (buildCliRoot tools b commit) d) := by
  rw [buildCliRoot]
  by_cases hvalid : isValidCommitName commit = true
  · have valid : validateCommitName commit d = .ok () d := by
      rw [validateCommitName, require, if_pos hvalid]
      rfl
    rw [after_bind_ok valid]
    have inspected : Upto d (after (runtimeIsUsable tools b.before commit) d) :=
      runtimeIsUsable_upto b.before commit d
    cases hrun : runtimeIsUsable tools b.before commit d with
    | error e t =>
      rw [after_bind_error hrun]
      rwa [after, hrun] at inspected
    | ok usable t =>
      rw [after, hrun] at inspected
      rw [after_bind_ok hrun]
      have refused : t.current = some commit := inspected.current.trans h
      cases usable with
      | true => exact inspected
      | false =>
        rw [after, if_neg Bool.false_ne_true, run_get_bind, if_pos refused]
        exact inspected
  · have invalid : validateCommitName commit d = .error .cliError d := by
      rw [validateCommitName, require, if_neg hvalid]
      rfl
    rw [after_bind_error invalid]
    exact Std.Refl.refl d

end Build

/-- The switch of the pointer touches no root. -/
theorem setCurrent_roots (p : PointerWrite) (commit : PyStr) :
    Guarantees SameRoots (setCurrent p commit : Call F D Unit) := by
  refine .bind (validateCommitName_guarantees commit) fun _ => ?_
  cases p with
  | confirmed => exact .modify fun _ => ⟨fun _ => rfl, rfl, rfl⟩
  | restored => exact .throw _
  | removed => exact .bind (.modify fun _ => ⟨fun _ => rfl, rfl, rfl⟩) fun _ => .throw _
  | unconfirmed => exact .bind (.modify fun _ => ⟨fun _ => rfl, rfl, rfl⟩) fun _ => .throw _

theorem reconcilePointer_roots [DecidableEq D] (tools : Tools F D) (i : Inspection)
    (p : PointerWrite) (commit : PyStr) :
    Guarantees SameRoots (reconcilePointer tools i p commit) := by
  have inspect : Guarantees SameRoots (runtimeIsUsable tools i commit) := fun d =>
    (runtimeIsUsable_upto i commit d).sameRoots
  refine .bind inspect fun usable => .ite (.pure _) (.bind .get fun d => .ite (.pure _) ?_)
  refine .tryCatch (.bind (setCurrent_roots p commit) fun _ => .pure _) fun e => ?_
  cases e with
  | cliError => exact .pure _
  | osError => exact .throw _
  | read => exact .throw _

end Lubko.Cli
