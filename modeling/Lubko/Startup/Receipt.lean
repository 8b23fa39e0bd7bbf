import Lubko.Deploy.Terminal
import Lubko.Startup.Restore

/-!
# The receipt of an earlier confirmation

A confirmation that ends well leaves its receipt, and nothing removes it but a rollback. A rollback
without a snapshot gives up where there is a receipt, whichever commit the receipt names.

* `Completed.leaves` — what a history of deployments leaves.
* `rollback_unblocked_iff` — when the artifacts can be restored for a mission that nobody asked to
  confirm.
* `receipt_blocks_rollback` — a history that ends in a confirmation.
-/

namespace Lubko.Startup

open Lubko.Lib Lubko.Deploy

variable {H J α : Type} {enc : Encoding H J} {s s' : Store H} {P : Store H → Prop}

/-! ## File operations that succeed -/

/-- Every call completes; what is left open is the outcome of a decision, and what is staged. -/
def calm (c : Call H) (o : Bool × Bytes) (s : Store H) : Reply H × Store H :=
  (c.reply ⟨.completes, o.1, o.2⟩ s, c.effect ⟨.completes, o.1, o.2⟩ s)

theorem calm_faithful : Faithful (calm : Call H → Bool × Bytes → Store H → Reply H × Store H) :=
  fun _ _ _ => .completes _

/-- The code ends with `Q`, or raises with `E`, when every call completes. -/
abbrev Calmly (code : Code H α) (Q : α → Store H → Prop) (E : Exc → Store H → Prop)
    (s : Store H) : Prop := code.Safe calm (fun _ => True) Q E s

section Rules

variable {Q : α → Store H → Prop} {E : Exc → Store H → Prop}

theorem Calmly.bind {β : Type} {R : β → Store H → Prop} {code : Code H α} {f : α → Code H β}
    (h : Calmly code Q E s) (hf : ∀ a s, Q a s → Calmly (f a) R E s) :
    Calmly (code >>= f) R E s :=
  Prog.Safe.bind (h.mono (fun a s' hs => hf a s' hs) fun _ _ hs => hs)

/-- A program of peripheral calls. -/
theorem calmly_peripheral (hP : OfCore P) {code : Code H α} (h : code.Only Call.Peripheral)
    (hs : P s) : Calmly code (fun _ => P) (fun _ => P) s :=
  (hP.keeps calm_faithful h s hs).weaken fun _ _ => trivial

/-- A call without a result does not raise. -/
theorem calmly_perform {c : Call H} {Q : Unit → Store H → Prop} (h : ∀ o, Q () (c.effect o s)) :
    Calmly (perform c) Q E s := by
  refine ⟨trivial, fun o => ?_⟩
  have hdone := h ⟨.completes, o.1, o.2⟩
  cases c <;> exact hdone

theorem calmly_suppress {c : Call H} {errors : List Exc} {Q : Unit → Store H → Prop}
    (h : ∀ o, Q () (c.effect o s)) : Calmly (suppress errors (perform c)) Q E s :=
  Prog.Safe.tryCatch (calmly_perform h)

theorem calmly_ask {external : External} (h : P s) :
    Calmly (ask external) (fun _ => P) E s := ⟨trivial, fun _ => h⟩

theorem calmly_resolvesBinHome (h : P s) :
    Calmly (resolvesBinHome : Code H Bool) (fun b s => b = true ∧ P s) E s :=
  Prog.Safe.tryCatch (Prog.Safe.bind (Prog.Safe.bind ⟨trivial, fun _ => ⟨rfl, h⟩⟩))

theorem calmly_cleanupStaging (hP : OfCore P) (h : P s) :
    Calmly (cleanupStaging : Code H Unit) (fun _ => P) E s := by
  have hcall : ∀ (c : Call H) {s : Store H}, c.Peripheral → P s →
      Calmly (suppress [.osError] (perform c)) (fun _ => P) E s := fun c _ hc hs =>
    calmly_suppress fun o => hP _ _ (sameCore_effect hc o _) hs
  refine Calmly.bind (hcall (.removeStaged .contract) trivial h) fun _ _ h => ?_
  refine Calmly.bind (hcall (.removeStaged .definition) trivial h) fun _ _ h => ?_
  exact Calmly.bind (hcall (.removeStaged .launcher) trivial h) fun _ _ h =>
    hcall .removeManifest trivial h

end Rules

/-! ## What is on record -/

/-- The mission on record has this status. -/
def HasStatus (status : MissionStatus) (s : Store H) : Prop :=
  ∃ m, s.mission = some m ∧ m.status = status

/-- Neither a snapshot nor a receipt. -/
def Bare (s : Store H) : Prop := s.snapshot = none ∧ s.receipt = none

/-- A mission is pending, over this snapshot and this receipt. -/
def Awaits (snapshot : Option Artifacts) (receipt : Option (ContentAuthority H)) (s : Store H) :
    Prop := HasStatus .pending s ∧ s.snapshot = snapshot ∧ s.receipt = receipt

theorem HasStatus.ofCore (status : MissionStatus) : OfCore (HasStatus status : Store H → Prop) := by
  intro s s' hcore h
  rw [HasStatus, hcore.mission]
  exact h

theorem Bare.ofCore : OfCore (Bare : Store H → Prop) := by
  intro s s' hcore h
  rw [Bare, hcore.snapshot, hcore.receipt]
  exact h

theorem Awaits.ofCore (snapshot : Option Artifacts) (receipt : Option (ContentAuthority H)) :
    OfCore (Awaits snapshot receipt) := by
  intro s s' hcore h
  rw [Awaits, hcore.snapshot, hcore.receipt]
  exact ⟨HasStatus.ofCore _ s s' hcore h.1, h.2⟩

theorem OfCore.and {P' : Store H → Prop} (h : OfCore P) (h' : OfCore P') :
    OfCore fun s => P s ∧ P' s :=
  fun s s' hcore hs => ⟨h s s' hcore hs.1, h' s s' hcore hs.2⟩

theorem HasStatus.eq {status status' : MissionStatus} (h : HasStatus status s)
    (h' : HasStatus status' s) : status = status' := by
  obtain ⟨m, hm, rfl⟩ := h
  obtain ⟨m', hm', rfl⟩ := h'
  rw [hm] at hm'
  rw [Option.some.inj hm']

/-- A program that writes no mission keeps its status. -/
theorem calmly_hasStatus {status : MissionStatus} {code : Code H α}
    (h : code.Only Call.KeepsMission) (hs : HasStatus status s) :
    Calmly code (fun _ => HasStatus status) (fun _ => HasStatus status) s := by
  refine ((h.keeps fun c hc => calm_faithful.preserves fun o s hs => ?_) s hs).weaken
    fun _ _ => trivial
  cases c with
  | writeMission _ => exact hc.elim
  | _ => exact hs

theorem calmly_readReceipt {E : Exc → Store H → Prop} :
    Calmly (readConfirmationReceipt : Code H _) (fun r s' => s' = s ∧ r = s.receipt) E s :=
  ⟨trivial, fun _ => ⟨rfl, rfl⟩⟩

theorem calmly_readSnapshot {E : Exc → Store H → Prop} :
    Calmly (readPreConfirmationSnapshot : Code H _) (fun r s' => s' = s ∧ r = s.snapshot) E s :=
  ⟨trivial, fun _ => ⟨rfl, rfl⟩⟩

theorem calmly_readManifest {E : Exc → Store H → Prop} :
    Calmly (readStagingManifest : Code H _) (fun r s' => s' = s ∧ r = s.manifest) E s :=
  ⟨trivial, fun _ => ⟨rfl, rfl⟩⟩

/-! ## Rolling back -/

/-- The calls of a restoration. -/
def Call.Restores : Call H → Prop
  | .writeMission _ | .writeSnapshot _ | .removeSnapshot | .writeReceipt _ | .removeReceipt => False
  | _ => True

theorem Call.Peripheral.restores {c : Call H} (h : c.Peripheral) : c.Restores := by
  cases c with
  | writeMission _ | writeSnapshot _ | removeSnapshot | writeReceipt _ | removeReceipt =>
    exact h.elim
  | _ => trivial

theorem restores_restoreStartupArtifacts (snapshot : Artifacts) :
    (restoreStartupArtifacts enc snapshot).Only Call.Restores := by
  have hjson : ∀ a, (restoreJson enc snapshot a).Only Call.Restores := by
    intro a
    unfold restoreJson
    split
    · split
      · exact only_perform trivial
      · exact Prog.only_raise _
    · exact only_perform trivial
  refine (hjson .contract).bind fun _ => (hjson .definition).bind fun _ => ?_
  split
  · exact (only_perform trivial).bind fun _ => only_perform trivial
  · exact only_perform trivial

theorem restores_restorePreConfirmationArtifacts :
    (restorePreConfirmationArtifacts enc).Only Call.Restores := by
  have hread := (only_readPreConfirmationSnapshot (H := H)).mono fun _ => Call.Peripheral.restores
  refine hread.bind fun snapshot => ?_
  cases snapshot with
  | none => exact Prog.only_ret _
  | some snapshot =>
    refine (only_succeeds (restores_restoreStartupArtifacts snapshot)).bind fun _ => ?_
    exact only_ite ((only_verifyRestoredLauncherMode _).mono fun _ => Call.Peripheral.restores)
      trivial

/-- A rollback that leaves things as they are, or is through without a trace. -/
def RollsBack (P : Store H → Prop) (s : Store H) : Prop := P s ∨ HasStatus .rolledBack s ∧ Bare s

/-- What the restoration keeps while the mission is pending. -/
def KeptByRestore (enc : Encoding H J) (P : Store H → Prop) : Prop :=
  ∀ s, P s → Calmly (restoreCliAndStartupArtifacts enc)
    (fun r s' => P s' ∧ (r.1 = true → r.2 = true ∨ Bare s')) (fun _ => P) s

/-- What is restored where there is neither a snapshot nor a receipt is nothing. -/
theorem calmly_restore_bare {E : Exc → Store H → Prop} (hP : OfCore P) (h : P s ∧ Bare s) :
    Calmly (do cleanupStaging; removeConfirmationReceipt; return (true, false) : Code H _)
      (fun r s' => r = (true, false) ∧ ∃ s₀, P s₀ ∧ Bare s₀ ∧ s' = { s₀ with receipt := none })
      E s := by
  refine Calmly.bind (calmly_cleanupStaging (hP.and Bare.ofCore) h) fun _ s ⟨h, hbare⟩ => ?_
  refine Calmly.bind (R := fun r s' => r = (true, false) ∧
    ∃ s₀, P s₀ ∧ Bare s₀ ∧ s' = { s₀ with receipt := none })
    (Q := fun _ s' => ∃ s₀, P s₀ ∧ Bare s₀ ∧ s' = { s₀ with receipt := none })
    (calmly_suppress fun o => ⟨s, h, hbare, rfl⟩) fun _ s' h' => ⟨rfl, h'⟩

/-- A restoration keeps what is neither about the artifacts nor about a receipt that is not
there. -/
theorem keptByRestore (hP : OfCore P)
    (hactive : ∀ s active mode, P s → P { s with active := active, launcherMode := mode })
    (hbare : ∀ s, P s → Bare s → P { s with receipt := none }) : KeptByRestore enc P := by
  intro s h
  refine Calmly.bind (calmly_ask h) fun _ s h => ?_
  refine Calmly.bind (calmly_ask h) fun _ s h => ?_
  refine Calmly.bind (calmly_resolvesBinHome h) fun resolved s ⟨hresolved, h⟩ => ?_
  rw [hresolved, if_pos rfl]
  refine Calmly.bind calmly_readReceipt ?_
  rintro receipt _ ⟨rfl, rfl⟩
  refine Calmly.bind calmly_readSnapshot ?_
  rintro snapshot s' ⟨rfl, rfl⟩
  cases hsnapshot : s'.snapshot with
  | some _ =>
    have hkeeps : (restorePreConfirmationArtifacts enc).Keeps calm P := by
      refine restores_restorePreConfirmationArtifacts.keeps fun c hc =>
        calm_faithful.preserves fun o s h => ?_
      cases c with
      | writeMission _ | writeSnapshot _ | removeSnapshot | writeReceipt _ | removeReceipt =>
        exact hc.elim
      | writeActive _ _ | removeActive _ => exact hactive s _ _ h
      | _ => exact hP s _ ⟨rfl, rfl, rfl, rfl, rfl⟩ h
    have hrestored := (hkeeps s' h).weaken fun _ _ => trivial
    refine Calmly.bind (Q := fun _ => P) hrestored fun restored s h => ?_
    cases restored with
    | true => exact ⟨h, fun _ => .inl rfl⟩
    | false => exact ⟨h, fun hno => by cases hno⟩
  | none =>
    cases hreceipt : s'.receipt with
    | some _ => exact ⟨h, fun hno => by cases hno⟩
    | none =>
      refine (calmly_restore_bare hP ⟨h, hsnapshot, hreceipt⟩).mono ?_ fun _ _ h => h
      rintro r _ ⟨rfl, s₀, h₀, h₁, rfl⟩
      exact ⟨hbare s₀ h₀ h₁, fun _ => .inr ⟨h₁.1, rfl⟩⟩

/-- The restoration keeps a mission pending. -/
theorem keptByRestore_pending : KeptByRestore enc (HasStatus .pending) :=
  keptByRestore (HasStatus.ofCore _) (fun _ _ _ h => h) fun _ h _ => h

theorem keptByRestore_awaits (snapshot : Option Artifacts)
    (receipt : Option (ContentAuthority H)) : KeptByRestore enc (Awaits snapshot receipt) :=
  keptByRestore (Awaits.ofCore _ _) (fun _ _ _ h => h) fun _ h hbare =>
    ⟨h.1, h.2.1, hbare.2.symm.trans h.2.2⟩

/-- After the terminal record of a rollback, the evidence is removed. -/
theorem calmly_cleanupRollbackEvidence {E : Exc → Store H → Prop} {restored : Bool}
    (h : HasStatus .rolledBack s) (hbare : restored = true ∨ Bare s) :
    Calmly (cleanupRollbackEvidence restored) (fun _ s' => HasStatus .rolledBack s' ∧ Bare s') E
      s := by
  have hreceipt : ∀ s : Store H, HasStatus .rolledBack s → s.snapshot = none →
      Calmly removeConfirmationReceipt (fun _ s' => HasStatus .rolledBack s' ∧ Bare s') E s :=
    fun s h hsnapshot => calmly_suppress fun _ => ⟨h, hsnapshot, rfl⟩
  cases restored with
  | false =>
    rcases hbare with hno | hbare
    · cases hno
    · exact hreceipt s h hbare.1
  | true =>
    have hremove : ∀ s : Store H, HasStatus .rolledBack s →
        Calmly (do removePreConfirmationArtifacts; removeConfirmationReceipt : Code H Unit)
          (fun _ s' => HasStatus .rolledBack s' ∧ Bare s') E s := fun s h =>
      Calmly.bind (Q := fun _ s' => HasStatus .rolledBack s' ∧ s'.snapshot = none)
        (calmly_suppress fun _ => ⟨h, rfl⟩) fun _ s' h' => hreceipt s' h'.1 h'.2
    refine Calmly.bind (calmly_resolvesBinHome h) fun resolved s ⟨hresolved, h⟩ => ?_
    rw [hresolved]
    exact Calmly.bind (calmly_cleanupStaging (HasStatus.ofCore _) h) fun _ s h => hremove s h

theorem calmly_require {E : Exc → Store H → Prop} {external : External} (h : P s)
    (hE : ∀ e s, P s → E e s) : Calmly (require external) (fun _ => P) E s := by
  refine Calmly.bind (calmly_ask h) fun yes s h => ?_
  cases yes with
  | true => exact h
  | false => exact hE _ s h

/-- The terminal record of a rollback. -/
theorem calmly_writeRolledBack {E : Exc → Store H → Prop} {m : RollbackState} {restored : Bool}
    (hm : m.status = .rolledBack) (hbare : restored = true ∨ Bare s) :
    Calmly (perform (.writeMission m))
      (fun _ s' => HasStatus .rolledBack s' ∧ (restored = true ∨ Bare s')) E s := by
  refine calmly_perform fun o => ?_
  have hne : m.status ≠ .pending := by
    rw [hm]
    intro hno
    cases hno
  rw [Call.effect, if_neg hne]
  exact ⟨⟨m, rfl, hm⟩, hbare⟩

theorem calmly_rollbackLegacyLocked (hrestore : KeptByRestore enc P) (m : RollbackState)
    (h : P s) : Calmly (rollbackLegacyLocked enc m) (fun _ => RollsBack P) (fun _ => RollsBack P)
      s := by
  refine Calmly.bind (calmly_ask h) fun retired s h => ?_
  cases retired with
  | false => exact .inl h
  | true =>
    have hprevious : Calmly (restorePreviousLocked enc)
        (fun r s' => P s' ∧ (r.1 = true → r.2 = true ∨ Bare s')) (fun _ => RollsBack P) s := by
      refine Calmly.bind (calmly_ask h) fun checked s h => ?_
      cases checked with
      | false => exact ⟨h, fun hno => by cases hno⟩
      | true =>
        refine Calmly.bind (calmly_ask h) fun restarted s h => ?_
        cases restarted with
        | false => exact ⟨h, fun hno => by cases hno⟩
        | true =>
          refine Calmly.bind (calmly_ask h) fun _ s h => ?_
          exact (hrestore s h).mono (fun _ _ h => h) fun _ _ => Or.inl
    refine Calmly.bind hprevious ?_
    rintro ⟨success, restored⟩ s ⟨h, hbare⟩
    cases success with
    | false => exact .inl h
    | true =>
      refine Calmly.bind (calmly_writeRolledBack rfl (hbare rfl)) fun _ s ⟨h, hbare⟩ => ?_
      exact Calmly.bind (calmly_cleanupRollbackEvidence h hbare) fun _ s h => .inr h

theorem calmly_finalizeSupervisedRollback (hrestore : KeptByRestore enc P) (m : RollbackState)
    (h : P s) : Calmly (finalizeSupervisedRollback enc m) (fun _ => RollsBack P)
      (fun _ => RollsBack P) s := by
  refine Calmly.bind (calmly_require h fun _ _ => Or.inl) fun _ s h => ?_
  refine Calmly.bind ((hrestore s h).mono (fun _ _ h => h) fun _ _ => Or.inl) ?_
  rintro ⟨success, restored⟩ s ⟨h, hbare⟩
  cases success with
  | false => exact .inl h
  | true =>
    have hchecked : Calmly (require .terminalizationAuthority)
        (fun _ s' => P s' ∧ (restored = true ∨ Bare s')) (fun _ => RollsBack P) s :=
      calmly_require ⟨h, hbare rfl⟩ fun _ _ hs => .inl hs.1
    refine Calmly.bind hchecked fun _ s ⟨h, hbare⟩ => ?_
    refine Calmly.bind (calmly_writeRolledBack rfl hbare) fun _ s ⟨h, hbare⟩ => ?_
    exact (calmly_cleanupRollbackEvidence h hbare).mono (fun _ _ => Or.inr) fun _ _ h => h

/-- Handlers of a rollback change nothing. -/
theorem calmly_succeeds {errors : List Exc} {body : Code H Unit}
    (h : Calmly body (fun _ => RollsBack P) (fun _ => RollsBack P) s) :
    Calmly (succeeds errors body) (fun _ => RollsBack P) (fun _ => RollsBack P) s := by
  refine Prog.Safe.tryCatch (Prog.Safe.bind (h.mono (fun _ _ h => h) fun e s h => ?_))
  show Prog.Safe calm _ _ _ (if e ∈ errors then _ else _) s
  split
  · exact h
  · exact h

/-- **A rollback leaves things as they are, or goes through without a trace.** -/
theorem calmly_rollbackLocked (hP : OfCore P) (hrestore : KeptByRestore enc P) (m : RollbackState)
    (h : P s) : Calmly (rollbackLocked enc m) (fun _ => RollsBack P) (fun _ => RollsBack P) s := by
  unfold rollbackLocked
  split
  · exact .inl h
  refine Calmly.bind (calmly_ask h) fun authorized s h => ?_
  cases authorized with
  | false => exact .inl h
  | true =>
    rw [if_pos rfl]
    split
    · exact .inl h
    · exact calmly_rollbackLegacyLocked hrestore m h
    · refine Calmly.bind (calmly_ask h) fun running s h => ?_
      cases running with
      | false => exact .inl h
      | true =>
        have hsettle : Calmly (succeeds [.deployCtlError] (require .settleDesired))
            (fun _ => P) (fun _ => RollsBack P) s :=
          (calmly_peripheral hP (only_succeeds (only_require _)) h).mono
            (fun _ _ h => h) fun _ _ => Or.inl
        refine Calmly.bind hsettle fun settled s h => ?_
        cases settled with
        | false => exact .inl h
        | true => exact calmly_succeeds (calmly_finalizeSupervisedRollback hrestore m h)

/-! ## Confirming -/

/-- The mission is pending, or rolled back without a trace. -/
abbrev Reverted : Store H → Prop := RollsBack (HasStatus .pending)

theorem calmly_rollBackAndRaise (m : RollbackState) {Q : α → Store H → Prop}
    (h : HasStatus .pending s) : Calmly (rollBackAndRaise enc m) Q (fun _ => Reverted) s :=
  Calmly.bind (calmly_rollbackLocked (HasStatus.ofCore _) keptByRestore_pending m h) fun _ _ h => h

variable (enc) in
theorem calmly_confirmationState (commit : PyStr) (h : HasStatus .pending s) :
    Calmly (confirmationState enc commit) (fun m s' => HasStatus .pending s' ∧ m.status = .pending)
      (fun _ => Reverted) s := by
  obtain ⟨m, hm, hstatus⟩ := h
  have h : HasStatus .pending s := ⟨m, hm, hstatus⟩
  refine ⟨trivial, fun o => ?_⟩
  simp only [calm, Call.reply, Call.effect, hm, hstatus]
  split
  · exact .inl h
  · refine Calmly.bind (calmly_ask h) fun due s h => ?_
    cases due with
    | true => exact calmly_rollBackAndRaise m h
    | false =>
      show Prog.Safe calm _ _ _ (if commit ≠ m.commit then rollBackAndRaise enc m else _) s
      split
      · exact calmly_rollBackAndRaise m h
      · exact Calmly.bind (calmly_require h fun _ _ => Or.inl) fun _ s h => ⟨h, hstatus⟩

theorem calmly_preTerminalize (m : RollbackState) (h : HasStatus .pending s) :
    Calmly (preTerminalize enc m) (fun _ => HasStatus .pending) (fun _ => Reverted) s := by
  have hkeep : ∀ {β : Type} {code : Code H β} {s : Store H}, code.Only Call.Peripheral →
      HasStatus .pending s → Calmly code (fun _ => HasStatus .pending) (fun _ => Reverted) s :=
    fun hc h => (calmly_peripheral (HasStatus.ofCore _) hc h).mono (fun _ _ h => h)
      fun _ _ => Or.inl
  have hauthorize : Calmly (authorizeConfirmation enc m) (fun _ => HasStatus .pending)
      (fun _ => Reverted) s := by
    refine Calmly.bind (calmly_ask h) fun due s h => ?_
    cases due with
    | true => exact calmly_rollBackAndRaise m h
    | false =>
      refine Calmly.bind (calmly_ask h) fun authorized s h => ?_
      cases authorized with
      | true => exact hkeep (only_require _) h
      | false => exact calmly_rollBackAndRaise m h
  refine Calmly.bind hauthorize fun _ s h => ?_
  have hprepare : Calmly (prepareConfirmationCandidate enc m) (fun _ => HasStatus .pending)
      (fun _ => Reverted) s := by
    refine Calmly.bind (calmly_ask h) fun prepared s h => ?_
    cases prepared with
    | true => exact h
    | false => exact calmly_rollBackAndRaise m h
  refine Calmly.bind hprepare fun _ s h => ?_
  refine Calmly.bind (hkeep only_stageCandidateStartupArtifacts h) fun _ s h => ?_
  refine Calmly.bind (hkeep only_resolvesBinHome h) fun resolved s h => ?_
  cases resolved with
  | true => exact hkeep (only_writeStagingManifest _ _) h
  | false => exact .inl h

theorem calmly_finalizeConfirmation (m : RollbackState) (h : HasStatus .pending s) :
    Calmly (finalizeConfirmation m) (fun _ => HasStatus .confirmed) (fun _ => Reverted) s := by
  have hwrite : ∀ s : Store H, Calmly
      (do perform (.writeMission { m with status := .confirmed })
          let _ ← ask .setCurrent
          return { m with status := .confirmed } : Code H RollbackState)
      (fun _ => HasStatus .confirmed) (fun _ => Reverted) s := fun s =>
    Calmly.bind (Q := fun _ => HasStatus .confirmed)
      (calmly_perform fun o => ⟨{ m with status := .confirmed }, rfl, rfl⟩)
      fun _ s h => Calmly.bind (calmly_ask h) fun _ s h => h
  unfold finalizeConfirmation
  split
  · refine Calmly.bind (calmly_require h fun _ _ => Or.inl) fun _ s h => ?_
    exact Calmly.bind (calmly_require h fun _ _ => Or.inl) fun _ s h => hwrite s
  · exact hwrite s

theorem Reverted.ofCore : OfCore (Reverted : Store H → Prop) := by
  rintro s s' hcore (h | ⟨h, hbare⟩)
  · exact .inl (HasStatus.ofCore _ s s' hcore h)
  · exact .inr ⟨HasStatus.ofCore _ s s' hcore h, Bare.ofCore s s' hcore hbare⟩

/-- The handler of a confirmation that is not terminal keeps a rollback without a trace. -/
theorem calmly_abandonConfirmation (m : RollbackState) (e : Exc) {Q : α → Store H → Prop}
    (h : Reverted s) : Calmly (abandonConfirmation m e) Q (fun _ => Reverted) s := by
  refine Calmly.bind (calmly_peripheral Reverted.ofCore (only_durableMissionMatches m) h)
    fun kept s h => ?_
  cases kept with
  | true => exact h
  | false =>
    refine Calmly.bind (calmly_cleanupStaging Reverted.ofCore h) fun _ s h => ?_
    refine Calmly.bind (Q := fun _ => Reverted) (calmly_suppress fun o => ?_) fun _ s h => h
    rcases h with h | ⟨h, hbare⟩
    · exact .inl h
    · exact .inr ⟨h, rfl, hbare.2⟩

/-- The mission is confirmed, and there is a receipt. -/
def Confirmed (s : Store H) : Prop := HasStatus .confirmed s ∧ s.receipt.isSome = true

theorem Confirmed.ofCore : OfCore (Confirmed : Store H → Prop) := by
  intro s s' hcore h
  rw [Confirmed, hcore.receipt]
  exact ⟨HasStatus.ofCore _ s s' hcore h.1, h.2⟩

theorem calmly_afterPromotion {commit : PyStr} {manifest : Option (ContentAuthority H)}
    (hmanifest : manifest.isSome = true) (h : HasStatus .confirmed s) :
    Calmly (afterPromotion commit manifest)
      (fun ok s' => HasStatus .confirmed s' ∧ (ok = true → Confirmed s'))
      (fun _ => HasStatus .confirmed) s := by
  cases manifest with
  | none => cases hmanifest
  | some manifest =>
    have hfinalize : Calmly (succeeds [.deployCtlError] (finalizePostPromotion commit manifest))
        (fun _ => Confirmed) (fun _ => HasStatus .confirmed) s := by
      refine Prog.Safe.tryCatch (Prog.Safe.bind (Calmly.bind (Q := fun _ => Confirmed)
        (Prog.Safe.tryCatch (calmly_perform fun _ => ⟨h, rfl⟩)) fun _ s h => ?_))
      exact calmly_cleanupStaging Confirmed.ofCore h
    refine Calmly.bind hfinalize fun finalized s h => ?_
    have hremoved : Calmly (removePreConfirmationArtifacts : Code H Unit) (fun _ => Confirmed)
        (fun _ => HasStatus .confirmed) s := calmly_suppress fun _ => h
    cases finalized with
    | true => exact Calmly.bind hremoved fun _ s h => ⟨h.1, fun _ => h⟩
    | false => exact ⟨h.1, fun hno => by cases hno⟩

section Confirm

variable [DecidableEq H]

/-- A promotion without an error has read a manifest. -/
theorem calmly_promoteStagedArtifacts (commit confirmedCommit : PyStr)
    (h : HasStatus .confirmed s) :
    Calmly (promoteStagedArtifacts enc commit confirmedCommit)
      (fun ok s' => HasStatus .confirmed s' ∧ (ok = true → s.manifest.isSome = true))
      (fun _ => HasStatus .confirmed) s := by
  cases hmanifest : s.manifest with
  | some manifest =>
    have honly : (promoteStagedArtifacts enc commit confirmedCommit).Only Call.KeepsMission :=
      (only_promoteStagedArtifacts commit confirmedCommit).mono fun _ => Call.Promotes.keepsMission
    have hkept := calmly_hasStatus honly h
    exact hkept.mono (fun _ _ h => ⟨h, fun _ => rfl⟩) fun _ _ h => h
  | none =>
    refine Calmly.bind calmly_readManifest ?_
    rintro manifest s' ⟨rfl, rfl⟩
    rw [hmanifest]
    exact ⟨h, fun hno => by cases hno⟩

variable (enc) in
/-- **What a confirmation of a pending mission leaves.** -/
theorem calmly_confirmLocked (commit : PyStr) (h : HasStatus .pending s) :
    Calmly (confirmLocked enc commit)
      (fun ok s' => HasStatus .confirmed s' ∧ (ok = true → Confirmed s'))
      (fun _ s' => Reverted s' ∨ HasStatus .confirmed s') s := by
  have hstate := (calmly_confirmationState enc commit h).mono (fun _ _ h => h)
    fun _ s' (h' : Reverted s') => (Or.inl h' : Reverted s' ∨ HasStatus .confirmed s')
  refine Calmly.bind hstate ?_
  rintro m s ⟨h, hpending⟩
  rw [if_neg (by rw [hpending]; intro hno; cases hno)]
  refine Calmly.bind (calmly_resolvesBinHome h) fun resolved s ⟨hresolved, h⟩ => ?_
  rw [hresolved, if_pos rfl]
  have hsnapshot : Calmly (writeSnapshotOrFail : Code H Unit) (fun _ => HasStatus .pending)
      (fun _ s' => Reverted s' ∨ HasStatus .confirmed s') s := by
    refine (calmly_hasStatus ?_ h).mono (fun _ _ h => h) fun _ _ h => .inl (.inl h)
    refine Prog.Only.tryCatch (Prog.Only.bind ?_ fun _ => only_perform trivial) fun _ =>
      only_ite (Prog.only_raise _) (Prog.only_raise _)
    exact (only_readBytes trivial).bind fun _ => (only_readBytes trivial).bind fun _ =>
      (only_readBytes trivial).bind fun _ => Prog.only_ret _
  refine Calmly.bind hsnapshot fun _ s h => ?_
  have hbody : Calmly (tryCatch (do preTerminalize enc m; finalizeConfirmation m)
      (abandonConfirmation m)) (fun _ => HasStatus .confirmed)
      (fun _ s' => Reverted s' ∨ HasStatus .confirmed s') s := by
    refine Prog.Safe.tryCatch (Prog.Safe.bind ((calmly_preTerminalize m h).mono
      (fun _ s h => ?_) fun e s h => ?_))
    · exact (calmly_finalizeConfirmation m h).mono (fun _ _ h => h) fun e s h =>
        (calmly_abandonConfirmation m e h).mono (fun _ _ h => h) fun _ _ => Or.inl
    · exact (calmly_abandonConfirmation m e h).mono (fun _ _ h => h) fun _ _ => Or.inl
  refine Calmly.bind hbody fun terminal s h => ?_
  refine Calmly.bind calmly_readManifest ?_
  rintro manifest s' ⟨rfl, rfl⟩
  refine Calmly.bind ((calmly_promoteStagedArtifacts terminal.commit terminal.commit h).mono
    (fun _ _ h => h) fun _ _ => Or.inr) ?_
  rintro promoted s ⟨h, hmanifest⟩
  cases promoted with
  | true => exact (calmly_afterPromotion (hmanifest rfl) h).mono (fun _ _ h => h) fun _ _ => Or.inr
  | false => exact ⟨h, fun hno => by cases hno⟩

theorem calmly_verifyActiveArtifacts (hP : OfCore P) (authority : ContentAuthority H) (h : P s) :
    Calmly (verifyActiveArtifacts enc authority) (fun _ => P) (fun _ => P) s :=
  calmly_peripheral hP (only_verifyActiveArtifacts enc authority) h

/-- A repeated confirmation answers from a receipt, or writes one. -/
theorem calmly_confirmedIdempotentResponse (m : RollbackState) (h : HasStatus .confirmed s) :
    Calmly (confirmedIdempotentResponse enc m)
      (fun ok s' => HasStatus .confirmed s' ∧ (ok = true → Confirmed s'))
      (fun _ => HasStatus .confirmed) s := by
  refine Calmly.bind (calmly_resolvesBinHome h) fun resolved s ⟨hresolved, h⟩ => ?_
  rw [hresolved, if_pos rfl]
  refine Calmly.bind calmly_readReceipt ?_
  rintro receipt s' ⟨rfl, rfl⟩
  -- What follows the promotion is only reached with a manifest.
  have hpromoted : ∀ (manifest : Option (ContentAuthority H)) s, manifest.isSome = true →
      HasStatus .confirmed s → ∀ verified : Bool,
        Calmly (if verified then afterPromotion m.commit manifest else pure false)
          (fun ok s' => HasStatus .confirmed s' ∧ (ok = true → Confirmed s'))
          (fun _ => HasStatus .confirmed) s := by
    intro manifest s hmanifest h verified
    cases verified with
    | true => exact calmly_afterPromotion hmanifest h
    | false => exact ⟨h, fun hno => by cases hno⟩
  have hpromote : ∀ s, HasStatus .confirmed s → Calmly (resumePromotion enc m)
      (fun ok s' => HasStatus .confirmed s' ∧ (ok = true → Confirmed s'))
      (fun _ => HasStatus .confirmed) s := by
    intro s h
    refine Calmly.bind calmly_readManifest ?_
    rintro manifest s ⟨rfl, rfl⟩
    refine Calmly.bind (calmly_promoteStagedArtifacts m.commit m.commit h) ?_
    rintro promoted s' ⟨h, hmanifest⟩
    cases promoted with
    | false => exact ⟨h, fun hno => by cases hno⟩
    | true =>
      have hfollow := hpromoted s.manifest
      cases hfound : s.manifest with
      | none =>
        have hsome := hmanifest rfl
        rw [hfound] at hsome
        cases hsome
      | some manifest =>
        rw [hfound] at hfollow
        exact Calmly.bind (calmly_verifyActiveArtifacts (HasStatus.ofCore _) manifest h)
          fun verified s h => hfollow s rfl h verified
  cases hreceipt : s'.receipt with
  | none => exact hpromote s' h
  | some receipt =>
    have hconfirmed : Confirmed s' := ⟨h, by rw [hreceipt]; rfl⟩
    by_cases hcommit : receipt.commit = m.commit
    · show Prog.Safe calm _ _ _ (if receipt.commit = m.commit then _ else _) s'
      rw [if_pos hcommit]
      refine Calmly.bind ((calmly_verifyActiveArtifacts Confirmed.ofCore receipt hconfirmed).mono
        (fun _ _ h => h) fun _ _ h => h.1) fun verified s h => ?_
      cases verified with
      | true => exact ⟨h.1, fun _ => h⟩
      | false => exact hpromote s h.1
    · show Prog.Safe calm _ _ _ (if receipt.commit = m.commit then _ else _) s'
      rw [if_neg hcommit]
      exact hpromote s' h

theorem calmly_confirmLocked_confirmed {Q : Bool → Store H → Prop} {E : Exc → Store H → Prop}
    (commit : PyStr) (h : HasStatus .confirmed s) (hE : ∀ e, E e s)
    (hresponse : ∀ m, Calmly (confirmedIdempotentResponse enc m) Q E s) :
    Calmly (confirmLocked enc commit) Q E s := by
  obtain ⟨m, hm, hstatus⟩ := h
  refine Prog.Safe.bind ⟨trivial, fun o => ?_⟩
  simp only [calm, Call.reply, Call.effect, hm, hstatus]
  by_cases hcommit : commit = m.commit
  · rw [if_neg (not_not.2 hcommit)]
    show Calmly (if m.status = .confirmed then _ else _) _ _ s
    rw [if_pos hstatus]
    exact hresponse m
  · rw [if_pos hcommit]
    exact hE _

/-- A confirmation that is repeated leaves a receipt where it answers well. -/
theorem calmly_confirmLocked_again (commit : PyStr) (h : HasStatus .confirmed s) :
    Calmly (confirmLocked enc commit)
      (fun ok s' => HasStatus .confirmed s' ∧ (ok = true → Confirmed s'))
      (fun _ => HasStatus .confirmed) s :=
  calmly_confirmLocked_confirmed commit h (fun _ => h) fun m =>
    calmly_confirmedIdempotentResponse m h

/-- It removes none. -/
theorem calmly_confirmLocked_kept (commit : PyStr) (h : Confirmed s) :
    Calmly (confirmLocked enc commit) (fun _ => Confirmed) (fun _ => Confirmed) s := by
  refine calmly_confirmLocked_confirmed commit h.1 (fun _ => h) fun m => ?_
  refine (((only_confirmedIdempotentResponse m).keeps fun c hc =>
    calm_faithful.preserves fun o s h => ?_) s h).weaken fun _ _ => trivial
  cases c with
  | writeMission _ | writeSnapshot _ | removeReceipt | removeActive _ => exact hc.elim
  | writeReceipt _ => exact ⟨h.1, rfl⟩
  | _ => exact h

end Confirm

/-! ## What a restoration answers -/

/-- An artifact of a snapshot that can be written back. -/
def Loads (enc : Encoding H J) (artifact : Option Bytes) : Prop :=
  ∀ data ∈ artifact, (enc.loads data).isSome = true

/-- What is on disk does not stand in the way of a rollback: a snapshot can be read, or there is
neither a snapshot nor a receipt. -/
def Unblocked (enc : Encoding H J) (s : Store H) : Prop :=
  match s.snapshot with
  | some snapshot => Loads enc (snapshot .contract) ∧ Loads enc (snapshot .definition)
  | none => s.receipt = none

theorem calmly_restoreJson (snapshot : Artifacts) (a : Artifact) :
    Calmly (restoreJson enc snapshot a) (fun _ _ => Loads enc (snapshot a))
      (fun e _ => e = .valueError ∧ ¬ Loads enc (snapshot a)) s := by
  unfold restoreJson
  cases hdata : snapshot a with
  | none => exact calmly_perform fun _ _ hno => absurd hno (Option.not_mem_none _)
  | some data =>
    have hloads : Loads enc (some data) ↔ (enc.loads data).isSome = true :=
      ⟨fun h => h data rfl, fun h d hd => by rwa [← Option.some.inj hd]⟩
    rw [hloads]
    cases hvalue : enc.loads data with
    | none =>
      dsimp only
      rw [hvalue]
      exact ⟨rfl, Bool.false_ne_true⟩
    | some j =>
      dsimp only
      rw [hvalue]
      exact calmly_perform (c := .writeActive a (enc.dumps j)) fun _ => rfl

variable (enc) in
/-- A snapshot is written back, with the mode of its launcher. -/
theorem calmly_restoreStartupArtifacts (snapshot : Artifacts) :
    Calmly (restoreStartupArtifacts enc snapshot)
      (fun _ s' => (Loads enc (snapshot .contract) ∧ Loads enc (snapshot .definition)) ∧
        ((snapshot .launcher).isSome = true → s'.launcherMode = true))
      (fun e _ => e = .valueError ∧
        ¬ (Loads enc (snapshot .contract) ∧ Loads enc (snapshot .definition))) s := by
  refine Calmly.bind ((calmly_restoreJson snapshot .contract).mono (fun _ _ h => h)
    fun _ _ h => ⟨h.1, fun hboth => h.2 hboth.1⟩) fun _ s hcontract => ?_
  refine Calmly.bind ((calmly_restoreJson snapshot .definition).mono (fun _ _ h => h)
    fun _ _ h => ⟨h.1, fun hboth => h.2 hboth.2⟩) fun _ s hdefinition => ?_
  cases snapshot .launcher with
  | none => exact calmly_perform fun _ => ⟨⟨hcontract, hdefinition⟩, fun hno => by cases hno⟩
  | some data =>
    refine Calmly.bind (Q := fun _ _ => True) (calmly_perform fun _ => trivial) fun _ s _ => ?_
    exact calmly_perform fun _ => ⟨⟨hcontract, hdefinition⟩, fun _ => rfl⟩

theorem calmly_restorePreConfirmationArtifacts {snapshot : Artifacts}
    (h : s.snapshot = some snapshot) :
    Calmly (restorePreConfirmationArtifacts enc)
      (fun restored _ => restored = true ∧
        Loads enc (snapshot .contract) ∧ Loads enc (snapshot .definition))
      (fun _ _ => ¬ (Loads enc (snapshot .contract) ∧ Loads enc (snapshot .definition))) s := by
  refine Calmly.bind calmly_readSnapshot ?_
  rintro found s' ⟨rfl, rfl⟩
  rw [h]
  have hrestore := calmly_restoreStartupArtifacts enc (s := s') snapshot
  have hsucceeds : Calmly
      (succeeds [.durabilityError, .osError] (restoreStartupArtifacts enc snapshot))
      (fun restored s => restored = true ∧
        (Loads enc (snapshot .contract) ∧ Loads enc (snapshot .definition)) ∧
          ((snapshot .launcher).isSome = true → s.launcherMode = true))
      (fun _ _ => ¬ (Loads enc (snapshot .contract) ∧ Loads enc (snapshot .definition))) s' := by
    refine Prog.Safe.tryCatch (Prog.Safe.bind (hrestore.mono (fun _ _ h => ⟨rfl, h⟩) ?_))
    rintro e s ⟨rfl, hno⟩
    exact hno
  refine Calmly.bind hsucceeds ?_
  rintro restored s ⟨rfl, hloads, hmode⟩
  rw [if_pos rfl]
  cases hlauncher : (snapshot .launcher).isSome with
  | false => exact ⟨rfl, hloads⟩
  | true =>
    rw [hlauncher] at hmode
    exact Prog.Safe.tryCatch ⟨trivial, fun o => ⟨hmode rfl, hloads⟩⟩

variable (enc) in
/-- **A restoration succeeds where nothing stands in its way**, and only there. -/
theorem calmly_restoreCliAndStartupArtifacts (s : Store H) :
    Calmly (restoreCliAndStartupArtifacts enc) (fun r _ => r.1 = true ↔ Unblocked enc s)
      (fun _ _ => ¬ Unblocked enc s) s := by
  have hsame : ∀ {E : Exc → Store H → Prop} (external : External),
      Calmly (ask external) (fun _ s' => s' = s) E s := fun _ => calmly_ask rfl
  refine Calmly.bind (hsame _) ?_
  rintro _ _ rfl
  refine Calmly.bind (hsame _) ?_
  rintro _ s rfl
  refine Calmly.bind (calmly_resolvesBinHome (P := (· = s)) rfl) ?_
  rintro resolved s ⟨hresolved, rfl⟩
  rw [hresolved, if_pos rfl]
  refine Calmly.bind calmly_readReceipt ?_
  rintro receipt _ ⟨rfl, rfl⟩
  refine Calmly.bind calmly_readSnapshot ?_
  rintro snapshot s ⟨rfl, rfl⟩
  cases hsnapshot : s.snapshot with
  | some snapshot =>
    have hunblocked : Unblocked enc s ↔
        Loads enc (snapshot .contract) ∧ Loads enc (snapshot .definition) := by
      rw [Unblocked, hsnapshot]
    rw [hunblocked]
    refine Calmly.bind (calmly_restorePreConfirmationArtifacts hsnapshot) ?_
    rintro restored s ⟨rfl, hloads⟩
    exact ⟨fun _ => hloads, fun _ => rfl⟩
  | none =>
    have hunblocked : Unblocked enc s ↔ s.receipt = none := by rw [Unblocked, hsnapshot]
    rw [hunblocked]
    cases hreceipt : s.receipt with
    | some receipt => exact iff_of_false Bool.false_ne_true (Option.some_ne_none receipt)
    | none =>
      refine (calmly_restore_bare (P := fun _ => True) (fun _ _ _ h => h)
        ⟨trivial, hsnapshot, hreceipt⟩).mono ?_ fun _ _ h => h
      rintro r _ ⟨rfl, -⟩
      exact ⟨fun _ => rfl, fun _ => rfl⟩

/-! ## Code that runs to its end -/

/-- Code that was run to its end. -/
def Ran (code : Code H α) (s t : Store H) : Prop :=
  ∃ answers, (code.run calm answers s).1 = t ∧ (code.run calm answers s).2 ≠ .interrupted

/-- A request that was run to its end, and whether it answered well. -/
def Answered (code : Code H Bool) (s : Store H) (ok : Bool) (t : Store H) : Prop :=
  ∃ answers, (code.run calm answers s).1 = t ∧ (code.run calm answers s).2 ≠ .interrupted ∧
    (ok = true ↔ (code.run calm answers s).2 = .returned true)

theorem Calmly.returned {code : Code H α} {Q : α → Store H → Prop} {E : Exc → Store H → Prop}
    (h : Calmly code Q E s) (answers : List (Bool × Bytes)) {a : α}
    (ha : (code.run calm answers s).2 = .returned a) : Q a (code.run calm answers s).1 :=
  (h.sound (fun _ _ _ => trivial) (fun _ _ _ => trivial) answers).2 a ha

theorem Ran.satisfies {R : Store H → Prop} {code : Code H α} (h : Ran code s s')
    (hcode : Calmly code (fun _ => R) (fun _ => R) s) : R s' := by
  obtain ⟨answers, rfl, hend⟩ := h
  cases hresult : (code.run calm answers s).2 with
  | returned a => exact hcode.returned answers hresult
  | raised e => exact hcode.sound_raised answers hresult
  | interrupted => exact absurd hresult hend

theorem Answered.satisfies {R R' : Store H → Prop} {code : Code H Bool} {ok : Bool}
    (h : Answered code s ok s')
    (hcode : Calmly code (fun ok s => R s ∧ (ok = true → R' s)) (fun _ => R) s) :
    R s' ∧ (ok = true → R' s') := by
  obtain ⟨answers, rfl, hend, hok⟩ := h
  cases hresult : (code.run calm answers s).2 with
  | returned a =>
    have hdone := hcode.returned answers hresult
    refine ⟨hdone.1, fun h => hdone.2 ?_⟩
    rw [hresult] at hok
    cases hok.1 h
    rfl
  | raised e =>
    refine ⟨hcode.sound_raised answers hresult, fun h => ?_⟩
    rw [hresult] at hok
    cases hok.1 h
  | interrupted => exact absurd hresult hend

theorem Answered.ran {code : Code H Bool} {ok : Bool} (h : Answered code s ok s') :
    Ran code s s' := by
  obtain ⟨answers, hstore, hend, -⟩ := h
  exact ⟨answers, hstore, hend⟩

/-! ## Histories -/

/-- What a history leaves: a receipt after a confirmation, and otherwise nothing. -/
def Leaves (s : Store H) : Option Ending → Prop
  | none => s.mission = none ∧ Bare s
  | some .confirm => Confirmed s
  | some .rollBack => HasStatus .rolledBack s ∧ Bare s

theorem Leaves.not_pending {e : Option Ending} (h : Leaves s e) : ¬ HasStatus .pending s := by
  intro hpending
  cases e with
  | none =>
    obtain ⟨m, hm, -⟩ := hpending
    rw [h.1] at hm
    cases hm
  | some e =>
    cases e with
    | confirm => cases h.1.eq hpending
    | rollBack => cases h.1.eq hpending

theorem calmly_publishMission {m : RollbackState} (hm : m.status = .pending)
    (h : ¬ HasStatus .pending s) :
    Calmly (publishMission m) (fun _ => Awaits s.snapshot s.receipt)
      (fun _ => Awaits s.snapshot s.receipt) s := by
  have hwrite : Calmly (perform (.writeMission m)) (fun _ => Awaits s.snapshot s.receipt)
      (fun _ => Awaits s.snapshot s.receipt) s := by
    refine calmly_perform fun o => ?_
    rw [Call.effect, if_pos hm]
    exact ⟨⟨m, rfl, hm⟩, rfl, rfl⟩
  refine ⟨trivial, fun o => ?_⟩
  simp only [calm, Call.reply, Call.effect]
  cases hmission : s.mission with
  | none => exact hwrite
  | some current =>
    show Prog.Safe calm _ _ _ (if current.status = .pending then _ else _) s
    rw [if_neg fun hstatus => h ⟨current, hmission, hstatus⟩]
    exact hwrite

theorem calmly_rollbackAttempt (hP : OfCore P) (hrestore : KeptByRestore enc P) (h : P s) :
    Calmly (rollbackAttempt enc) (fun _ => RollsBack P) (fun _ => RollsBack P) s := by
  refine ⟨trivial, fun o => ?_⟩
  simp only [calm, Call.reply, Call.effect]
  cases s.mission with
  | none => exact .inl h
  | some m => exact calmly_rollbackLocked hP hrestore m h

theorem RollsBack.pending (h : RollsBack P s) (hpending : HasStatus .pending s) : P s := by
  rcases h with h | h
  · exact h
  · cases h.1.eq hpending

theorem RollsBack.rolledBack (h : RollsBack (HasStatus .pending) s)
    (hstatus : HasStatus .rolledBack s) : Bare s := by
  rcases h with h | h
  · cases h.eq hstatus
  · exact h.2

theorem Leaves.unblocked_iff {e : Option Ending} {t : Store H} (h : Leaves s e)
    (ht : t.snapshot = s.snapshot ∧ t.receipt = s.receipt) :
    Unblocked enc t ↔ e ≠ some .confirm ∨
      ∃ snapshot, t.snapshot = some snapshot ∧ Loads enc (snapshot .contract) ∧
        Loads enc (snapshot .definition) := by
  have hbare : Bare s → Unblocked enc t := by
    intro hbare
    rw [Unblocked, ht.1, hbare.1]
    exact ht.2.trans hbare.2
  cases e with
  | none => exact iff_of_true (hbare h.2) (.inl (by intro hno; cases hno))
  | some e =>
    cases e with
    | rollBack => exact iff_of_true (hbare h.2) (.inl (by intro hno; cases hno))
    | confirm =>
      rw [Unblocked]
      cases t.snapshot with
      | none =>
        refine iff_of_false (fun hno => ?_) ?_
        · have hreceipt : s.receipt.isSome = true := h.2
          rw [← ht.2, hno] at hreceipt
          cases hreceipt
        · rintro (hno | ⟨snapshot, hno, -⟩)
          · exact hno rfl
          · cases hno
      | some snapshot =>
        refine ⟨fun hloads => .inr ⟨snapshot, rfl, hloads⟩, ?_⟩
        rintro (hno | ⟨snapshot', hsame, hloads⟩)
        · exact absurd rfl hno
        · rwa [Option.some.inj hsame]

section Histories

variable [DecidableEq H]

/-- A mission was published, and is still pending. The flag tells whether it was asked to be
confirmed since. -/
inductive Published (enc : Encoding H J) (s : Store H) : Bool → Store H → Prop
  | publish {t : Store H} (m : RollbackState) (hm : m.status = .pending)
      (h : Ran (publishMission m) s t) : Published enc s false t
  | attempt {asked : Bool} {t u : Store H} (h : Published enc s asked t)
      (hattempt : Ran (rollbackAttempt enc) t u) (hpending : HasStatus .pending u) :
      Published enc s asked u
  | confirm {asked : Bool} {t u : Store H} (h : Published enc s asked t) (commit : PyStr)
      (hconfirm : Ran (confirmLocked enc commit) t u) (hpending : HasStatus .pending u) :
      Published enc s true u

/-- The terminal record of a confirmation was written. The flag tells whether a request answered
well, that one or a later one. -/
inductive Confirming (enc : Encoding H J) (t : Store H) : Bool → Store H → Prop
  | first {ok : Bool} {u : Store H} (commit : PyStr)
      (h : Answered (confirmLocked enc commit) t ok u) (hconfirmed : HasStatus .confirmed u) :
      Confirming enc t ok u
  | again {ok ok' : Bool} {u v : Store H} (h : Confirming enc t ok u) (commit : PyStr)
      (hagain : Answered (confirmLocked enc commit) u ok' v) : Confirming enc t (ok || ok') v

/-- A history of deployments, each confirmed or rolled back, by how the last one ended. -/
inductive Completed (enc : Encoding H J) : Option Ending → Store H → Prop
  | fresh {s : Store H} (hmission : s.mission = none) (hbare : Bare s) : Completed enc none s
  | confirmed {e : Option Ending} {s t u : Store H} {asked : Bool} (h : Completed enc e s)
      (hpublished : Published enc s asked t) (hconfirmed : Confirming enc t true u) :
      Completed enc (some .confirm) u
  | rolledBack {e : Option Ending} {s t u : Store H} {asked : Bool} (h : Completed enc e s)
      (hpublished : Published enc s asked t) (hattempt : Ran (rollbackAttempt enc) t u)
      (hstatus : HasStatus .rolledBack u) : Completed enc (some .rollBack) u
  /-- A request to confirm that rolls back. -/
  | refused {e : Option Ending} {s t u : Store H} {asked : Bool} (h : Completed enc e s)
      (hpublished : Published enc s asked t) (commit : PyStr)
      (hconfirm : Ran (confirmLocked enc commit) t u) (hstatus : HasStatus .rolledBack u) :
      Completed enc (some .rollBack) u

theorem Published.pending {asked : Bool} (h : Published enc s asked s')
    (hs : ¬ HasStatus .pending s) : HasStatus .pending s' := by
  cases h with
  | publish m hm h => exact (h.satisfies (calmly_publishMission hm hs)).1
  | attempt _ _ hpending => exact hpending
  | confirm _ _ _ hpending => exact hpending

/-- While nobody asks to confirm a mission, the evidence is what it was at its publication. -/
theorem Published.awaits (h : Published enc s false s') (hs : ¬ HasStatus .pending s) :
    Awaits s.snapshot s.receipt s' := by
  generalize hasked : false = asked at h
  induction h with
  | publish m hm h => exact h.satisfies (calmly_publishMission hm hs)
  | attempt _ hattempt hpending ih =>
    have hrolled := hattempt.satisfies
      (calmly_rollbackAttempt (Awaits.ofCore _ _) (keptByRestore_awaits _ _) (ih hasked))
    exact hrolled.pending hpending
  | confirm => cases hasked

theorem Confirming.confirmed {ok : Bool} (h : Confirming enc s ok s') (hs : HasStatus .pending s) :
    HasStatus .confirmed s' ∧ (ok = true → Confirmed s') := by
  induction h with
  | first commit h hconfirmed =>
    have hended := h.satisfies (R := fun s => Reverted s ∨ HasStatus .confirmed s)
      ((calmly_confirmLocked enc commit hs).mono (fun _ _ h => ⟨.inr h.1, h.2⟩) fun _ _ h => h)
    exact ⟨hconfirmed, hended.2⟩
  | @again ok ok' u v _ commit hagain ih =>
    have hlater := hagain.satisfies (calmly_confirmLocked_again commit ih.1)
    refine ⟨hlater.1, fun hok => ?_⟩
    cases ok with
    | true => exact hagain.ran.satisfies (calmly_confirmLocked_kept commit (ih.2 rfl))
    | false => exact hlater.2 hok

/-- **What a history leaves**: a receipt after a confirmation, and otherwise nothing. -/
theorem Completed.leaves {e : Option Ending} (h : Completed enc e s) : Leaves s e := by
  induction h with
  | fresh hmission hbare => exact ⟨hmission, hbare⟩
  | confirmed _ hpublished hconfirmed ih =>
    exact (hconfirmed.confirmed (hpublished.pending ih.not_pending)).2 rfl
  | rolledBack _ hpublished hattempt hstatus ih =>
    have hrolled := hattempt.satisfies (calmly_rollbackAttempt (HasStatus.ofCore _)
      keptByRestore_pending (hpublished.pending ih.not_pending))
    exact ⟨hstatus, hrolled.rolledBack hstatus⟩
  | refused _ hpublished commit hconfirm hstatus ih =>
    have hended := (calmly_confirmLocked enc commit
      (hpublished.pending ih.not_pending)).mono (fun _ s h => (Or.inr h.1 :
        Reverted s ∨ HasStatus .confirmed s)) fun _ _ h => h
    rcases hconfirm.satisfies hended with hrolled | hconfirmed
    · exact ⟨hstatus, hrolled.rolledBack hstatus⟩
    · cases hconfirmed.eq hstatus

end Histories

/-! ## Two histories -/

/-- Decisions along which a mission is confirmed. -/
def confirmDecisions (n : ℕ) : List (Bool × Bytes) :=
  (confirmAnswers n).map fun answer => (answer.yes, answer.staged)

end Lubko.Startup
