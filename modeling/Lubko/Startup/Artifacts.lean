import Lubko.Lib.CrashProgram
import Lubko.Deploy.Rollback

/-!
# Startup artifacts

The startup contract, its definition and the launcher are staged by a candidate, promoted once it is
confirmed, and put back from a snapshot when it is rolled back. The snapshot, the staging manifest
and the confirmation receipt are files of their own, which outlive the mission that wrote them.

The code is a program over calls. A call may raise, with or without its effect, and a run of any
length is the program up to a crash.

* `promoteStagedArtifacts`, `snapshotStartupArtifacts`, `restoreStartupArtifacts` — the functions of
  `startup_contract.py`.
-/

namespace Lubko.Startup

open Lubko.Lib Lubko.Deploy

/-! ## Files -/

abbrev Bytes := List UInt8

inductive Artifact where
  | contract
  | definition
  | launcher
  deriving DecidableEq

/-- The content of each artifact; none where there is no file. -/
abbrev Artifacts := Artifact → Option Bytes

/-- `_content_hash`, and `json.loads` and `json.dumps` on the artifacts, which read back what they
write. -/
structure Encoding (H J : Type) where
  contentHash : Bytes → H
  loads : Bytes → Option J
  dumps : J → Bytes
  loads_dumps : ∀ data j, loads data = some j → loads (dumps j) = some j

/-- A staging manifest, or a confirmation receipt: the commit, and hash and size of the
artifacts. -/
structure ContentAuthority (H : Type) where
  commit : PyStr
  hash : Artifact → H
  size : Artifact → ℕ

/-- The files. `published` is no file: it holds what the artifacts were when the mission was
published. -/
structure Store (H : Type) where
  mission : Option RollbackState
  active : Artifacts
  /-- The launcher has `STARTUP_LAUNCHER_MODE`. -/
  launcherMode : Bool
  staged : Artifacts
  manifest : Option (ContentAuthority H)
  snapshot : Option Artifacts
  receipt : Option (ContentAuthority H)
  published : Artifacts

/-! ## Calls -/

/-- A decision or an action outside of the files. -/
inductive External where
  | resolveBinHome
  | removeCliRoot
  | reconcilePointer
  | authorizeMissionRollback
  | retireCandidate
  | checkout
  | restartPrevious
  | writeMeta
  | supervisorRunning
  | settleDesired
  | terminalizationAuthority
  | rollbackDue
  | confirmationAuthority
  | authorizeMissionConfirm
  | prepareCandidate
  | setCurrent
  deriving DecidableEq

inductive Call (H : Type) where
  | ask (external : External)
  | readMission
  | readActive (a : Artifact)
  | readStaged (a : Artifact)
  | readManifest
  | readSnapshot
  | readReceipt
  | statLauncher
  | writeMission (m : RollbackState)
  | writeActive (a : Artifact) (data : Bytes)
  | removeActive (a : Artifact)
  | chmodLauncher
  /-- The candidate's own code writes a staged artifact. -/
  | stage (a : Artifact)
  | removeStaged (a : Artifact)
  | writeManifest (manifest : ContentAuthority H)
  | removeManifest
  | writeSnapshot (snapshot : Artifacts)
  | removeSnapshot
  | writeReceipt (receipt : ContentAuthority H)
  | removeReceipt

/-- The exceptions that some handler tells apart. -/
inductive Exc where
  | osError
  | durabilityError
  | valueError
  | deployCtlError
  | other
  deriving DecidableEq

inductive Reply (H : Type) where
  | done
  | raised (e : Exc)
  | flag (b : Bool)
  | mission (m : Option RollbackState)
  | bytes (data : Option Bytes)
  | authority (authority : Option (ContentAuthority H))
  | artifacts (artifacts : Option Artifacts)

/-- How a call ends. -/
inductive Fate where
  | completes
  | raises (e : Exc)
  /-- The effect is visible, and the call raises. -/
  | unconfirmed (e : Exc)

/-- What the environment decides about a call: its fate, the outcome of an external decision, and
what a candidate stages. -/
structure Answer where
  fate : Fate
  yes : Bool
  staged : Bytes

variable {H J : Type}

/-- Replace one artifact. -/
def Artifacts.set (artifacts : Artifacts) (a : Artifact) (data : Option Bytes) : Artifacts :=
  Function.update artifacts a data

/-- What a call does to the files. -/
def Call.effect (o : Answer) (s : Store H) : Call H → Store H
  | .writeMission m =>
    if m.status = .pending then { s with mission := some m, published := s.active }
    else { s with mission := some m }
  | .writeActive a data =>
    { s with
      active := s.active.set a (some data)
      launcherMode := if a = .launcher then false else s.launcherMode }
  | .removeActive a => { s with active := s.active.set a none }
  | .chmodLauncher => { s with launcherMode := true }
  | .stage a => { s with staged := s.staged.set a (some o.staged) }
  | .removeStaged a => { s with staged := s.staged.set a none }
  | .writeManifest manifest => { s with manifest := some manifest }
  | .removeManifest => { s with manifest := none }
  | .writeSnapshot snapshot => { s with snapshot := some snapshot }
  | .removeSnapshot => { s with snapshot := none }
  | .writeReceipt receipt => { s with receipt := some receipt }
  | .removeReceipt => { s with receipt := none }
  | _ => s

/-- What a completed call returns. -/
def Call.reply (o : Answer) (s : Store H) : Call H → Reply H
  | .ask _ => .flag o.yes
  | .readMission => .mission s.mission
  | .readActive a => .bytes (s.active a)
  | .readStaged a => .bytes (s.staged a)
  | .readManifest => .authority s.manifest
  | .readSnapshot => .artifacts s.snapshot
  | .readReceipt => .authority s.receipt
  | .statLauncher => .flag s.launcherMode
  | _ => .done

/-- A call with its fate. -/
def sem (c : Call H) (o : Answer) (s : Store H) : Reply H × Store H :=
  match o.fate with
  | .completes => (c.reply o s, c.effect o s)
  | .raises e => (.raised e, s)
  | .unconfirmed e => (.raised e, c.effect o s)

/-- Code of `startup_contract.py` and `deployctl.py`. -/
abbrev Code (H : Type) := Prog (Call H) (Reply H) Exc

/-- A call without a result. -/
def perform (c : Call H) : Code H Unit :=
  .call c fun
    | .raised e => .raise e
    | _ => .ret ()

/-- A decision. -/
def decision (c : Call H) : Code H Bool :=
  .call c fun
    | .raised e => .raise e
    | .flag b => .ret b
    | _ => .ret false

def ask (external : External) : Code H Bool := decision (.ask external)

/-- `read_bytes`, with none for a file that is not there. -/
def readBytes (c : Call H) : Code H (Option Bytes) :=
  .call c fun
    | .raised e => .raise e
    | .bytes data => .ret data
    | _ => .ret none

def readAuthority (c : Call H) : Code H (Option (ContentAuthority H)) :=
  .call c fun
    | .raised .osError => .ret none
    | .raised e => .raise e
    | .authority authority => .ret authority
    | _ => .ret none

/-- `with suppress(...)`. -/
def suppress (errors : List Exc) (body : Code H Unit) : Code H Unit :=
  tryCatch body fun e => if e ∈ errors then pure () else throw e

/-- Run a body, and tell whether it was stopped by one of these errors. -/
def succeeds (errors : List Exc) (body : Code H Unit) : Code H Bool :=
  tryCatch (do body; return true) fun e => if e ∈ errors then pure false else throw e

/-! ## Staging and promotion -/

/-- `read_staging_manifest`. -/
def readStagingManifest : Code H (Option (ContentAuthority H)) := readAuthority .readManifest

/-- `_file_matches`. -/
def fileMatches [DecidableEq H] (enc : Encoding H J) (authority : ContentAuthority H) (a : Artifact)
    (data : Option Bytes) : Bool :=
  match data with
  | some data =>
    decide (data.length = authority.size a) && decide (enc.contentHash data = authority.hash a)
  | none => false

/-- `_file_matches` on an active artifact; an error of the read counts as no match. -/
def activeMatches [DecidableEq H] (enc : Encoding H J) (authority : ContentAuthority H)
    (a : Artifact) : Code H Bool :=
  tryCatch (do
    let data ← readBytes (.readActive a)
    return fileMatches enc authority a data) fun e =>
      if e = .osError then pure false else throw e

/-- `_read_staged_bytes`. -/
def readStagedBytes (a : Artifact) : Code H (Option Bytes) :=
  tryCatch (readBytes (.readStaged a)) fun e => if e = .osError then pure none else throw e

/-- `_promote_contract` and `_promote_definition`: whether they end without an error. -/
def promoteJson [DecidableEq H] (enc : Encoding H J) (manifest : ContentAuthority H)
    (a : Artifact) : Code H Bool := do
  if ← activeMatches enc manifest a then
    return true
  else
    match ← readStagedBytes a with
    | none => return false
    | some staged =>
      if enc.contentHash staged = manifest.hash a then
        match enc.loads staged with
        | none => throw .valueError
        | some j =>
          if ← succeeds [.durabilityError, .osError] (perform (.writeActive a (enc.dumps j))) then
            activeMatches enc manifest a
          else return false
      else return false

/-- `_write_launcher_durable`. -/
def writeLauncherDurable (data : Bytes) : Code H Bool :=
  succeeds [.osError] do
    perform (.writeActive .launcher data)
    perform .chmodLauncher

/-- `_promote_launcher`. -/
def promoteLauncher [DecidableEq H] (enc : Encoding H J) (manifest : ContentAuthority H) :
    Code H Bool := do
  if ← activeMatches enc manifest .launcher then
    return true
  else
    match ← readStagedBytes .launcher with
    | none => return false
    | some staged =>
      if enc.contentHash staged = manifest.hash .launcher then
        match ← readBytes (.readStaged .launcher) with
        | none => throw .osError
        | some data =>
          if ← writeLauncherDurable data then
            activeMatches enc manifest .launcher
          else return false
      else return false

/-- `_verify_active_artifacts`. -/
def verifyActiveArtifacts [DecidableEq H] (enc : Encoding H J) (authority : ContentAuthority H) :
    Code H Bool := do
  let contractOk ← activeMatches enc authority .contract
  let definitionOk ← activeMatches enc authority .definition
  let launcherOk ← activeMatches enc authority .launcher
  let modeOk ←
    if launcherOk then
      tryCatch (decision .statLauncher) fun e => if e = .osError then pure false else throw e
    else pure false
  return contractOk && definitionOk && launcherOk && modeOk

/-- `promote_staged_artifacts`: whether it ends without an error. -/
def promoteStagedArtifacts [DecidableEq H] (enc : Encoding H J) (commit confirmedCommit : PyStr) :
    Code H Bool := do
  match ← readStagingManifest with
  | none => return false
  | some manifest =>
    if manifest.commit ≠ commit ∨ commit ≠ confirmedCommit then return false
    else if ← promoteJson enc manifest .contract then
      if ← promoteJson enc manifest .definition then
        if ← promoteLauncher enc manifest then verifyActiveArtifacts enc manifest
        else return false
      else return false
    else return false

/-- `read_bytes` of a staged artifact that has to be there. -/
def requireStaged (a : Artifact) : Code H Bytes := do
  match ← readBytes (.readStaged a) with
  | none => throw .osError
  | some data => return data

/-- `write_staging_manifest`. -/
def writeStagingManifest (enc : Encoding H J) (commit : PyStr) : Code H Unit := do
  let contract ← requireStaged .contract
  let definition ← requireStaged .definition
  let launcher ← requireStaged .launcher
  let data : Artifact → Bytes := fun
    | .contract => contract
    | .definition => definition
    | .launcher => launcher
  perform (.writeManifest
    { commit := commit
      hash := fun a => enc.contentHash (data a)
      size := fun a => (data a).length })

/-- `cleanup_staging`. -/
def cleanupStaging : Code H Unit := do
  suppress [.osError] (perform (.removeStaged .contract))
  suppress [.osError] (perform (.removeStaged .definition))
  suppress [.osError] (perform (.removeStaged .launcher))
  suppress [.osError] (perform .removeManifest)

/-! ## Snapshots -/

/-- `snapshot_startup_artifacts`. -/
def snapshotStartupArtifacts : Code H Artifacts := do
  let contract ← readBytes (.readActive .contract)
  let definition ← readBytes (.readActive .definition)
  let launcher ← readBytes (.readActive .launcher)
  return fun
    | .contract => contract
    | .definition => definition
    | .launcher => launcher

/-- The contract or the definition of a snapshot is written back, or removed. -/
def restoreJson (enc : Encoding H J) (snapshot : Artifacts) (a : Artifact) : Code H Unit :=
  match snapshot a with
  | some data =>
    match enc.loads data with
    | some j => perform (.writeActive a (enc.dumps j))
    | none => throw .valueError
  | none => perform (.removeActive a)

/-- `restore_startup_artifacts`. -/
def restoreStartupArtifacts (enc : Encoding H J) (snapshot : Artifacts) : Code H Unit := do
  restoreJson enc snapshot .contract
  restoreJson enc snapshot .definition
  match snapshot .launcher with
  | some data =>
    perform (.writeActive .launcher data)
    perform .chmodLauncher
  | none => perform (.removeActive .launcher)

end Lubko.Startup
