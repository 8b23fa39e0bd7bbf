import Lubko.Lib.Execution
import Lubko.Startup.Artifacts

/-!
# Missions and their evidence

Confirmation takes a snapshot of the startup artifacts, stages those of the candidate, writes the
terminal record, promotes what was staged, writes a receipt and removes the snapshot. Rollback puts
a snapshot back where there is one, and gives up where there is only a receipt.

All of it runs under the deployment lock, so that operations follow each other; each may be cut
short at any call.

* `confirmLocked`, `rollbackLocked`, `publishMission` — the operations, as the source has them.
* `Operation.step` — one of them, run as far as it gets.
-/

namespace Lubko.Startup

open Lubko.Lib Lubko.Deploy

variable {H J : Type}

/-! ## Evidence -/

/-- `_snapshot_pre_confirmation_artifacts`. -/
def snapshotPreConfirmationArtifacts : Code H Unit := do
  let snapshot ← snapshotStartupArtifacts
  perform (.writeSnapshot snapshot)

/-- `_read_pre_confirmation_snapshot`. -/
def readPreConfirmationSnapshot : Code H (Option Artifacts) :=
  .call .readSnapshot fun
    | .raised .osError => .ret none
    | .raised e => .raise e
    | .artifacts snapshot => .ret snapshot
    | _ => .ret none

/-- `_verify_restored_launcher_mode`. -/
def verifyRestoredLauncherMode (hadLauncher : Bool) : Code H Bool :=
  if hadLauncher then
    tryCatch (decision .statLauncher) fun e => if e = .osError then pure false else throw e
  else return true

/-- `_restore_pre_confirmation_artifacts`. -/
def restorePreConfirmationArtifacts (enc : Encoding H J) : Code H Bool := do
  match ← readPreConfirmationSnapshot with
  | none => return false
  | some snapshot =>
    if ← succeeds [.durabilityError, .osError] (restoreStartupArtifacts enc snapshot) then
      verifyRestoredLauncherMode (snapshot .launcher).isSome
    else return false

/-- `_remove_pre_confirmation_artifacts`. -/
def removePreConfirmationArtifacts : Code H Unit :=
  suppress [.durabilityError, .osError] (perform .removeSnapshot)

/-- `_write_confirmation_receipt`. -/
def writeConfirmationReceipt (commit : PyStr) (manifest : ContentAuthority H) : Code H Unit :=
  perform (.writeReceipt { manifest with commit := commit })

/-- `_read_confirmation_receipt`. -/
def readConfirmationReceipt : Code H (Option (ContentAuthority H)) := readAuthority .readReceipt

/-- `_remove_confirmation_receipt`. -/
def removeConfirmationReceipt : Code H Unit :=
  suppress [.durabilityError, .osError] (perform .removeReceipt)

/-- `_finalize_post_promotion`. -/
def finalizePostPromotion (commit : PyStr) (manifest : ContentAuthority H) : Code H Unit := do
  tryCatch (writeConfirmationReceipt commit manifest) fun e =>
    if e = .durabilityError ∨ e = .osError then throw .deployCtlError else throw e
  cleanupStaging

/-- Whether `_resolve_bin_home` returns. -/
def resolvesBinHome : Code H Bool :=
  succeeds [.osError, .valueError] do
    let _ ← ask .resolveBinHome

/-! ## Rollback -/

/-- `_restore_cli_and_startup_artifacts`. -/
def restoreCliAndStartupArtifacts (enc : Encoding H J) : Code H (Bool × Bool) := do
  let _ ← ask .removeCliRoot
  let _ ← ask .reconcilePointer
  if ← resolvesBinHome then
    let receipt ← readConfirmationReceipt
    let snapshot ← readPreConfirmationSnapshot
    if snapshot.isSome then
      if ← restorePreConfirmationArtifacts enc then return (true, true)
      else return (false, false)
    else if receipt.isSome then return (false, false)
    else
      cleanupStaging
      removeConfirmationReceipt
      return (true, false)
  else return (false, false)

/-- `_cleanup_rollback_evidence`. -/
def cleanupRollbackEvidence (snapshotWasRestored : Bool) : Code H Unit := do
  if snapshotWasRestored then
    if ← resolvesBinHome then cleanupStaging
    removePreConfirmationArtifacts
  removeConfirmationReceipt

/-- `_restore_previous_locked`. -/
def restorePreviousLocked (enc : Encoding H J) : Code H (Bool × Bool) := do
  if ← ask .checkout then
    if ← ask .restartPrevious then
      let _ ← ask .writeMeta
      restoreCliAndStartupArtifacts enc
    else return (false, false)
  else return (false, false)

/-- `_rollback_legacy_locked`. -/
def rollbackLegacyLocked (enc : Encoding H J) (m : RollbackState) : Code H Bool := do
  if ← ask .retireCandidate then
    let (success, snapshotRestored) ← restorePreviousLocked enc
    if success then
      perform (.writeMission
        { m with
          status := .rolledBack
          previousRestartMeta := none
          previousRestartReleased := false })
      cleanupRollbackEvidence snapshotRestored
      return true
    else return false
  else return false

/-- A check that raises `DeployCtlError` where it fails. -/
def require (external : External) : Code H Unit := do
  if ← ask external then pure () else throw .deployCtlError

/-- `_finalize_supervised_rollback`. -/
def finalizeSupervisedRollback (enc : Encoding H J) (m : RollbackState) : Code H Unit := do
  require .terminalizationAuthority
  let (success, snapshotRestored) ← restoreCliAndStartupArtifacts enc
  if success then
    require .terminalizationAuthority
    perform (.writeMission { m with status := .rolledBack })
    cleanupRollbackEvidence snapshotRestored
  else throw .deployCtlError

/-- `_rollback_locked`. -/
def rollbackLocked (enc : Encoding H J) (m : RollbackState) : Code H Bool := do
  if m.status ≠ .pending then return true
  else if ← ask .authorizeMissionRollback then
    match m.supervisorOwned with
    | none => return false
    | some false => rollbackLegacyLocked enc m
    | some true =>
      if ← ask .supervisorRunning then
        if ← succeeds [.deployCtlError] (require .settleDesired) then
          succeeds [.deployCtlError] (finalizeSupervisedRollback enc m)
        else return false
      else return false
  else return false

/-- A rollback under the deployment lock, of the watchdog or of `_cleanup_pending_locked`. -/
def rollbackAttempt (enc : Encoding H J) : Code H Bool :=
  .call .readMission fun
    | .raised e => .raise e
    | .mission (some m) => rollbackLocked enc m
    | _ => .ret false

/-! ## Confirmation -/

/-- Request a rollback, and raise. -/
def rollBackAndRaise {α : Type} (enc : Encoding H J) (m : RollbackState) : Code H α := do
  let _ ← rollbackLocked enc m
  throw .deployCtlError

/-- `_confirmation_state`. -/
def confirmationState (enc : Encoding H J) (commit : PyStr) : Code H RollbackState :=
  .call .readMission fun
    | .raised e => .raise e
    | .mission (some m) =>
      match m.status with
      | .confirmed => if commit ≠ m.commit then throw .deployCtlError else return m
      | .rolledBack => throw .deployCtlError
      | .pending => do
        if m.supervisorOwned = none then throw .deployCtlError
        else if ← ask .rollbackDue then rollBackAndRaise enc m
        else if commit ≠ m.commit then rollBackAndRaise enc m
        else
          require .confirmationAuthority
          return m
    | _ => throw .deployCtlError

/-- `_authorize_confirmation`. -/
def authorizeConfirmation (enc : Encoding H J) (m : RollbackState) : Code H Unit := do
  if ← ask .rollbackDue then rollBackAndRaise enc m
  else if ← ask .authorizeMissionConfirm then require .confirmationAuthority
  else rollBackAndRaise enc m

/-- `_prepare_confirmation_candidate`. -/
def prepareConfirmationCandidate (enc : Encoding H J) (m : RollbackState) : Code H Unit := do
  if ← ask .prepareCandidate then pure () else rollBackAndRaise enc m

/-- `_stage_candidate_startup_artifacts`: the candidate runs `stage_startup_artifacts`. -/
def stageCandidateStartupArtifacts : Code H Unit := do
  perform (.stage .contract)
  perform (.stage .launcher)
  perform (.stage .definition)

/-- `_pre_terminalize`. -/
def preTerminalize (enc : Encoding H J) (m : RollbackState) : Code H Unit := do
  authorizeConfirmation enc m
  prepareConfirmationCandidate enc m
  stageCandidateStartupArtifacts
  if ← resolvesBinHome then writeStagingManifest enc m.commit
  else throw .deployCtlError

/-- `_finalize_confirmation`. -/
def finalizeConfirmation (m : RollbackState) : Code H RollbackState := do
  let terminal := { m with status := .confirmed }
  if m.supervisorOwned = some true then
    require .supervisorRunning
    require .terminalizationAuthority
  perform (.writeMission terminal)
  let _ ← ask .setCurrent
  return terminal

/-- `_durable_mission_matches`. -/
def durableMissionMatches (m : RollbackState) : Code H Bool :=
  .call .readMission fun
    | .raised .deployCtlError => .ret false
    | .raised e => .raise e
    | .mission (some durable) =>
      .ret (decide (durable.status = .confirmed ∧ durable.commit = m.commit ∧
        durable.supervisorOwned = m.supervisorOwned))
    | _ => .ret false

/-- What follows a promotion without an error: the response. -/
def afterPromotion (commit : PyStr) (manifest : Option (ContentAuthority H)) : Code H Bool := do
  let finalized ←
    match manifest with
    | some manifest => succeeds [.deployCtlError] (finalizePostPromotion commit manifest)
    | none => pure true
  if finalized then
    removePreConfirmationArtifacts
    return true
  else return false

/-- `_confirmed_idempotent_response`: the `ok` of the response. -/
def confirmedIdempotentResponse [DecidableEq H] (enc : Encoding H J) (m : RollbackState) :
    Code H Bool := do
  if ← resolvesBinHome then
    let receipt ← readConfirmationReceipt
    let verified ←
      match receipt with
      | some receipt =>
        if receipt.commit = m.commit then verifyActiveArtifacts enc receipt else pure false
      | none => pure false
    if verified then return true
    else
      let manifest ← readStagingManifest
      if ← promoteStagedArtifacts enc m.commit m.commit then
        let verified ←
          match manifest with
          | some manifest => verifyActiveArtifacts enc manifest
          | none => pure true
        if verified then afterPromotion m.commit manifest else return false
      else return false
  else return false

/-- The part of `_confirmed_idempotent_response` behind a receipt that does not verify. -/
def resumePromotion [DecidableEq H] (enc : Encoding H J) (m : RollbackState) : Code H Bool := do
  let manifest ← readStagingManifest
  if ← promoteStagedArtifacts enc m.commit m.commit then
    let verified ←
      match manifest with
      | some manifest => verifyActiveArtifacts enc manifest
      | none => pure true
    if verified then afterPromotion m.commit manifest else return false
  else return false

/-- The handler of `_confirm_locked`: the evidence is kept where the terminal record is there. -/
def abandonConfirmation {α : Type} (m : RollbackState) (e : Exc) : Code H α := do
  if ← durableMissionMatches m then throw e
  else
    cleanupStaging
    removePreConfirmationArtifacts
    throw e

/-- `_write_snapshot_or_fail`. -/
def writeSnapshotOrFail : Code H Unit :=
  tryCatch snapshotPreConfirmationArtifacts fun e =>
    if e = .durabilityError ∨ e = .osError then throw .deployCtlError else throw e

/-- `_confirm_locked`: the `ok` of the response. -/
def confirmLocked [DecidableEq H] (enc : Encoding H J) (commit : PyStr) : Code H Bool := do
  let m ← confirmationState enc commit
  if m.status = .confirmed then confirmedIdempotentResponse enc m
  else
    if ← resolvesBinHome then
      writeSnapshotOrFail
      let terminal ← tryCatch (do
        preTerminalize enc m
        finalizeConfirmation m) (abandonConfirmation m)
      let manifest ← readStagingManifest
      if ← promoteStagedArtifacts enc terminal.commit terminal.commit then
        afterPromotion terminal.commit manifest
      else return false
    else throw .deployCtlError

/-! ## Operations -/

/-- The publication of a mission: `_prepare_locked` refuses while one is pending. -/
def publishMission (m : RollbackState) : Code H Unit :=
  .call .readMission fun
    | .raised e => .raise e
    | .mission (some current) =>
      if current.status = .pending then throw .deployCtlError else perform (.writeMission m)
    | _ => perform (.writeMission m)

/-- What is done under the deployment lock. -/
inductive Operation where
  | publish (m : RollbackState)
  | confirm (commit : PyStr)
  | rollBack

/-- Run an operation as far as the answers go. A mission is published as pending. -/
def Operation.step [DecidableEq H] (enc : Encoding H J) (s : Store H) :
    Operation × List Answer → Option (Store H)
  | (.publish m, answers) =>
    if m.status = .pending then some ((publishMission m).run sem answers s).1 else none
  | (.confirm commit, answers) => some ((confirmLocked enc commit).run sem answers s).1
  | (.rollBack, answers) => some ((rollbackAttempt enc).run sem answers s).1

end Lubko.Startup
