import Lubko.Startup.Mission

/-!
# What the operations keep

* `keeps_rollbackLocked`, `confirmLocked_inv` — while a mission is not confirmed, the artifacts
  hold what they held at its publication, and so does the snapshot.
-/

namespace Lubko.Startup

open Lubko.Lib Lubko.Deploy

variable {H J ω α : Type}

/-! ## Calls -/

/-- The outcomes of a call. -/
inductive Happens (c : Call H) (s : Store H) : Reply H × Store H → Prop
  | completes (o : Answer) : Happens c s (c.reply o s, c.effect o s)
  | raises (e : Exc) : Happens c s (.raised e, s)
  | unconfirmed (e : Exc) (o : Answer) : Happens c s (.raised e, c.effect o s)

/-- A semantics with no other outcomes. -/
def Faithful (sm : Call H → ω → Store H → Reply H × Store H) : Prop :=
  ∀ c o s, Happens c s (sm c o s)

theorem sem_faithful : Faithful (sem : Call H → Answer → Store H → Reply H × Store H) := by
  rintro c ⟨fate, yes, staged⟩ s
  cases fate with
  | completes => exact .completes _
  | raises e => exact .raises e
  | unconfirmed e => exact .unconfirmed e _

variable {sm : Call H → ω → Store H → Reply H × Store H} {P : Store H → Prop} {s : Store H}
  {c : Call H}

/-- What the effect of a call keeps, the call keeps. -/
theorem Faithful.preserves (hsm : Faithful sm) (hc : ∀ o s, P s → P (c.effect o s)) (s : Store H)
    (o : ω) (h : P s) : P (sm c o s).2 := by
  have hcase := hsm c o s
  generalize sm c o s = result at hcase ⊢
  cases hcase with
  | completes o' => exact hc o' s h
  | raises e => exact h
  | unconfirmed e o' => exact hc o' s h

/-- The files that the results below are about. -/
structure SameCore (s s' : Store H) : Prop where
  mission : s'.mission = s.mission
  active : s'.active = s.active
  published : s'.published = s.published
  snapshot : s'.snapshot = s.snapshot
  receipt : s'.receipt = s.receipt

/-- The calls that leave them alone. -/
def Call.Peripheral : Call H → Prop
  | .writeMission _ | .writeActive .. | .removeActive _ | .writeSnapshot _ | .removeSnapshot
  | .writeReceipt _ | .removeReceipt => False
  | _ => True

theorem sameCore_effect (hc : c.Peripheral) (o : Answer) (s : Store H) :
    SameCore s (c.effect o s) := by
  cases c with
  | writeMission _ | writeActive _ _ | removeActive _ | writeSnapshot _ | removeSnapshot
    | writeReceipt _ | removeReceipt => exact hc.elim
  | _ => exact ⟨rfl, rfl, rfl, rfl, rfl⟩

/-- A condition on these files. -/
def OfCore (P : Store H → Prop) : Prop := ∀ s s', SameCore s s' → P s → P s'

theorem OfCore.keeps (hP : OfCore P) (hsm : Faithful sm) {code : Code H α}
    (h : code.Only Call.Peripheral) : code.Keeps sm P :=
  h.keeps fun _ hc => hsm.preserves fun o s => hP s _ (sameCore_effect hc o s)

/-! ## The calls of the programs -/

section Only

variable {allowed : Call H → Prop}

theorem only_perform (h : allowed c) : (perform c).Only allowed := by
  refine ⟨h, fun r => ?_⟩
  cases r <;> trivial

theorem only_decision (h : allowed c) : (decision c).Only allowed := by
  refine ⟨h, fun r => ?_⟩
  cases r <;> trivial

theorem only_readBytes (h : allowed c) : (readBytes c).Only allowed := by
  refine ⟨h, fun r => ?_⟩
  cases r <;> trivial

theorem only_readAuthority (h : allowed c) : (readAuthority c).Only allowed := by
  refine ⟨h, fun r => ?_⟩
  cases r with
  | raised e => cases e <;> trivial
  | done | flag _ | mission _ | bytes _ | authority _ | artifacts _ => trivial

theorem only_ite {p : Prop} [Decidable p] {x y : Code H α} (hx : x.Only allowed)
    (hy : y.Only allowed) : (if p then x else y).Only allowed := by
  split
  · exact hx
  · exact hy

theorem only_suppress {errors : List Exc} {body : Code H Unit} (h : body.Only allowed) :
    (suppress errors body).Only allowed := h.tryCatch fun _ => only_ite trivial trivial

theorem only_succeeds {errors : List Exc} {body : Code H Unit} (h : body.Only allowed) :
    (succeeds errors body).Only allowed :=
  (h.bind fun _ => Prog.only_ret _).tryCatch fun _ => only_ite trivial trivial

theorem only_ask (external : External) : (ask external : Code H Bool).Only Call.Peripheral :=
  only_decision trivial

theorem only_require (external : External) :
    (require external : Code H Unit).Only Call.Peripheral :=
  (only_ask external).bind fun _ => only_ite trivial trivial

theorem only_resolvesBinHome : (resolvesBinHome : Code H Bool).Only Call.Peripheral :=
  only_succeeds ((only_ask _).bind fun _ => Prog.only_ret _)

/-- The clean-up removes the staged files, and the manifest. -/
theorem only_removals {allowed : Call H → Prop} (hstaged : ∀ a, allowed (.removeStaged a))
    (hmanifest : allowed .removeManifest) : (cleanupStaging : Code H Unit).Only allowed :=
  (only_suppress (only_perform (hstaged _))).bind fun _ =>
    (only_suppress (only_perform (hstaged _))).bind fun _ =>
      (only_suppress (only_perform (hstaged _))).bind fun _ =>
        only_suppress (only_perform hmanifest)

theorem only_cleanupStaging : (cleanupStaging : Code H Unit).Only Call.Peripheral :=
  only_removals (fun _ => trivial) trivial

theorem only_activeMatches [DecidableEq H] (enc : Encoding H J) (authority : ContentAuthority H)
    (a : Artifact) : (activeMatches enc authority a).Only Call.Peripheral :=
  ((only_readBytes trivial).bind fun _ => Prog.only_ret _).tryCatch fun _ =>
    only_ite trivial trivial

theorem only_statLauncher : (tryCatch (decision .statLauncher) fun e =>
    if e = .osError then return false else throw e : Code H Bool).Only Call.Peripheral :=
  (only_decision trivial).tryCatch fun _ => only_ite trivial trivial

theorem only_verifyActiveArtifacts [DecidableEq H] (enc : Encoding H J)
    (authority : ContentAuthority H) :
    (verifyActiveArtifacts enc authority).Only Call.Peripheral := by
  refine (only_activeMatches ..).bind fun _ => (only_activeMatches ..).bind fun _ =>
    (only_activeMatches ..).bind fun launcherOk => ?_
  cases launcherOk with
  | true => exact only_statLauncher.bind fun _ => Prog.only_ret _
  | false => exact Prog.only_ret _

theorem only_requireStaged (a : Artifact) :
    (requireStaged a : Code H Bytes).Only Call.Peripheral := by
  refine (only_readBytes trivial).bind fun data => ?_
  cases data <;> trivial

theorem only_writeStagingManifest (enc : Encoding H J) (commit : PyStr) :
    (writeStagingManifest enc commit).Only Call.Peripheral :=
  (only_requireStaged _).bind fun _ => (only_requireStaged _).bind fun _ =>
    (only_requireStaged _).bind fun _ => only_perform trivial

theorem only_stageCandidateStartupArtifacts :
    (stageCandidateStartupArtifacts : Code H Unit).Only Call.Peripheral :=
  (only_perform trivial).bind fun _ => (only_perform trivial).bind fun _ => only_perform trivial

theorem only_durableMissionMatches (m : RollbackState) :
    (durableMissionMatches m : Code H Bool).Only Call.Peripheral := by
  refine ⟨trivial, fun r => ?_⟩
  cases r with
  | raised e => cases e <;> trivial
  | mission m => cases m <;> trivial
  | done | flag _ | bytes _ | authority _ | artifacts _ => trivial

theorem only_readPreConfirmationSnapshot :
    (readPreConfirmationSnapshot : Code H (Option Artifacts)).Only Call.Peripheral := by
  refine ⟨trivial, fun r => ?_⟩
  cases r with
  | raised e => cases e <;> trivial
  | done | flag _ | mission _ | bytes _ | authority _ | artifacts _ => trivial

theorem only_verifyRestoredLauncherMode (hadLauncher : Bool) :
    (verifyRestoredLauncherMode hadLauncher : Code H Bool).Only Call.Peripheral := by
  cases hadLauncher with
  | true => exact only_statLauncher
  | false => trivial

end Only

/-! ## Values -/

variable {enc : Encoding H J}

/-- The same artifact: equal bytes, or, but for the launcher, equal JSON values. -/
def SameValue (enc : Encoding H J) (a : Artifact) (x y : Option Bytes) : Prop :=
  x = y ∨ a ≠ .launcher ∧ ∃ d d' j, x = some d ∧ y = some d' ∧ enc.loads d = some j ∧
    enc.loads d' = some j

/-- The same artifacts. -/
def Agree (enc : Encoding H J) (x y : Artifacts) : Prop := ∀ a, SameValue enc a (x a) (y a)

theorem Agree.refl (x : Artifacts) : Agree enc x x := fun _ => .inl rfl

/-- What is read and written again is the same artifact. -/
theorem SameValue.dumps {a : Artifact} {x : Option Bytes} {d : Bytes} {j : J} (ha : a ≠ .launcher)
    (h : SameValue enc a x (some d)) (hj : enc.loads d = some j) :
    SameValue enc a x (some (enc.dumps j)) := by
  have hback := enc.loads_dumps d j hj
  rcases h with rfl | ⟨-, d₀, d₁, j₀, hx, hd, h₀, h₁⟩
  · exact .inr ⟨ha, d, _, j, rfl, rfl, hj, hback⟩
  · obtain rfl := Option.some.inj hd
    obtain rfl := Option.some.inj (hj.symm.trans h₁)
    exact .inr ⟨ha, d₀, _, j, hx, rfl, h₀, hback⟩

theorem Agree.set {base x : Artifacts} {a : Artifact} {data : Option Bytes}
    (h : Agree enc base x) (hdata : SameValue enc a (base a) data) :
    Agree enc base (x.set a data) := by
  intro b
  by_cases hb : b = a
  · rw [hb, Artifacts.set, Function.update_self]
    exact hdata
  · rw [Artifacts.set, Function.update_of_ne hb]
    exact h b

/-! ## An open mission -/

/-- A mission is on record that is not confirmed; the artifacts are those of its publication, and so
is the snapshot. -/
structure Open (enc : Encoding H J) (base : Artifacts) (s : Store H) : Prop where
  mission : ∃ m, s.mission = some m ∧ m.status ≠ .confirmed
  published : s.published = base
  active : Agree enc base s.active
  snapshot : ∀ snapshot ∈ s.snapshot, Agree enc base snapshot

/-- The mission on record, if any, is confirmed. -/
def Ended (s : Store H) : Prop := ∀ m ∈ s.mission, m.status = .confirmed

variable {base : Artifacts}

theorem Open.ofCore : OfCore (Open enc base : Store H → Prop) := by
  intro s s' hcore h
  refine ⟨?_, hcore.published.trans h.published, ?_, ?_⟩
  · rw [hcore.mission]
    exact h.mission
  · rw [hcore.active]
    exact h.active
  · rw [hcore.snapshot]
    exact h.snapshot

/-- The calls that keep a mission open as it is. -/
def Harmless (enc : Encoding H J) (base : Artifacts) : Call H → Prop
  | .writeMission m => m.status = .rolledBack
  | .writeActive a data => SameValue enc a (base a) (some data)
  | .removeActive a => SameValue enc a (base a) none
  | .writeSnapshot snapshot => Agree enc base snapshot
  | _ => True

theorem Open.effect (hc : Harmless enc base c) (o : Answer) (s : Store H) (h : Open enc base s) :
    Open enc base (c.effect o s) := by
  cases c with
  | writeMission m =>
    have hm : m.status = .rolledBack := hc
    have hne : m.status ≠ .pending := by
      rw [hm]
      intro hno
      cases hno
    rw [Call.effect, if_neg hne]
    refine ⟨⟨m, rfl, ?_⟩, h.published, h.active, h.snapshot⟩
    rw [hm]
    intro hno
    cases hno
  | writeActive a data => exact ⟨h.mission, h.published, h.active.set hc, h.snapshot⟩
  | removeActive a => exact ⟨h.mission, h.published, h.active.set hc, h.snapshot⟩
  | writeSnapshot snapshot =>
    refine ⟨h.mission, h.published, h.active, fun snapshot' hs => ?_⟩
    obtain rfl := Option.some.inj hs
    exact hc
  | removeSnapshot =>
    exact ⟨h.mission, h.published, h.active, fun _ hs => absurd hs (Option.not_mem_none _)⟩
  | _ => exact ⟨h.mission, h.published, h.active, h.snapshot⟩

/-- A program of harmless calls keeps a mission open. -/
theorem keeps_open (hsm : Faithful sm) {code : Code H α} (h : code.Only (Harmless enc base)) :
    code.Keeps sm (Open enc base) :=
  h.keeps fun _ hc => hsm.preserves (Open.effect hc)

theorem peripheral_open (hsm : Faithful sm) {code : Code H α}
    (h : code.Only Call.Peripheral) : code.Keeps sm (Open enc base) := Open.ofCore.keeps hsm h

/-! ### Restoring a snapshot -/

theorem only_restoreJson {snapshot : Artifacts} (h : Agree enc base snapshot) {a : Artifact}
    (ha : a ≠ .launcher) : (restoreJson enc snapshot a).Only (Harmless enc base) := by
  have hsame := h a
  unfold restoreJson
  split
  · rename_i data hdata
    rw [hdata] at hsame
    split
    · rename_i j hj
      exact only_perform (hsame.dumps ha hj)
    · exact Prog.only_raise _
  · rename_i hdata
    rw [hdata] at hsame
    exact only_perform hsame

theorem only_restoreStartupArtifacts {snapshot : Artifacts} (h : Agree enc base snapshot) :
    (restoreStartupArtifacts enc snapshot).Only (Harmless enc base) := by
  refine (only_restoreJson h (by decide)).bind fun _ =>
    (only_restoreJson h (by decide)).bind fun _ => ?_
  have hsame := h .launcher
  split
  · rename_i data hdata
    rw [hdata] at hsame
    exact (only_perform hsame).bind fun _ => only_perform trivial
  · rename_i hdata
    rw [hdata] at hsame
    exact only_perform hsame

/-- The snapshot that is read is that of the publication. -/
theorem Open.safe_readSnapshot (hsm : Faithful sm) (h : Open enc base s) :
    (readPreConfirmationSnapshot : Code H (Option Artifacts)).Safe sm (Open enc base)
      (fun found s' => Open enc base s' ∧ ∀ snapshot ∈ found, Agree enc base snapshot)
      (fun _ => Open enc base) s := by
  have hnone : ∀ snapshot ∈ (none : Option Artifacts), Agree enc base snapshot :=
    fun _ hs => absurd hs (Option.not_mem_none _)
  refine ⟨h, fun o => ?_⟩
  have hcase := hsm .readSnapshot o s
  generalize sm .readSnapshot o s = result at hcase ⊢
  cases hcase with
  | completes _ => exact ⟨h, h.snapshot⟩
  | raises e =>
    cases e with
    | osError => exact ⟨h, hnone⟩
    | durabilityError | valueError | deployCtlError | other => exact h
  | unconfirmed e _ =>
    cases e with
    | osError => exact ⟨h, hnone⟩
    | durabilityError | valueError | deployCtlError | other => exact h

theorem keeps_restorePreConfirmationArtifacts (hsm : Faithful sm) :
    (restorePreConfirmationArtifacts enc).Keeps sm (Open enc base) := by
  intro s h
  refine Prog.Safe.bind ((h.safe_readSnapshot hsm).mono ?_ fun _ _ h' => h')
  intro found s' ⟨h', hfound⟩
  cases found with
  | none => exact h'
  | some snapshot =>
    refine Prog.Keeps.bind (keeps_open hsm (only_succeeds
      (only_restoreStartupArtifacts (hfound snapshot rfl)))) (fun ok => ?_) s' h'
    cases ok with
    | true => exact peripheral_open hsm (only_verifyRestoredLauncherMode _)
    | false => exact Prog.keeps_ret _

/-! ### Rolling back -/

theorem keeps_succeeds {errors : List Exc} {body : Code H Unit} (h : body.Keeps sm P) :
    (succeeds errors body).Keeps sm P := by
  refine Prog.Keeps.tryCatch (h.bind fun _ => Prog.keeps_ret _) fun e => ?_
  split
  · exact Prog.keeps_ret _
  · exact Prog.keeps_raise _

theorem only_removeEvidence : (removePreConfirmationArtifacts : Code H Unit).Only
    (Harmless enc base) ∧ (removeConfirmationReceipt : Code H Unit).Only (Harmless enc base) :=
  ⟨only_suppress (only_perform trivial), only_suppress (only_perform trivial)⟩

theorem keeps_restoreCliAndStartupArtifacts (hsm : Faithful sm) :
    (restoreCliAndStartupArtifacts enc).Keeps sm (Open enc base) := by
  refine .bind (peripheral_open hsm (only_ask _)) fun _ =>
    .bind (peripheral_open hsm (only_ask _)) fun _ =>
      .bind (peripheral_open hsm only_resolvesBinHome) fun resolved => ?_
  cases resolved with
  | false => exact Prog.keeps_ret _
  | true =>
    refine .bind (peripheral_open hsm (only_readAuthority trivial)) fun receipt =>
      .bind (peripheral_open hsm only_readPreConfirmationSnapshot) fun snapshot => ?_
    cases snapshot with
    | some _ =>
      refine .bind (keeps_restorePreConfirmationArtifacts hsm) fun restored => ?_
      cases restored <;> exact Prog.keeps_ret _
    | none =>
      cases receipt with
      | some _ => exact Prog.keeps_ret _
      | none =>
        exact .bind (peripheral_open hsm only_cleanupStaging) fun _ =>
          .bind (keeps_open hsm only_removeEvidence.2) fun _ => Prog.keeps_ret _

theorem keeps_cleanupRollbackEvidence (hsm : Faithful sm) (restored : Bool) :
    (cleanupRollbackEvidence restored).Keeps sm (Open enc base) := by
  have hreceipt : (removeConfirmationReceipt : Code H Unit).Keeps sm (Open enc base) :=
    keeps_open hsm only_removeEvidence.2
  cases restored with
  | false => exact hreceipt
  | true =>
    refine .bind (peripheral_open hsm only_resolvesBinHome) fun resolved => ?_
    cases resolved with
    | true =>
      exact .bind (peripheral_open hsm only_cleanupStaging) fun _ =>
        .bind (keeps_open hsm only_removeEvidence.1) fun _ => hreceipt
    | false => exact .bind (keeps_open hsm only_removeEvidence.1) fun _ => hreceipt

/-- The terminal record of a rollback, and the cleanup after it. -/
theorem keeps_terminalize (hsm : Faithful sm) {m : RollbackState}
    (hm : m.status = .rolledBack) (restored : Bool) :
    (do perform (.writeMission m); cleanupRollbackEvidence restored : Code H Unit).Keeps sm
      (Open enc base) :=
  .bind (keeps_open hsm (only_perform hm)) fun _ => keeps_cleanupRollbackEvidence hsm restored

/-- **A rollback keeps an open mission as it was published**, at every call. -/
theorem keeps_rollbackLocked (hsm : Faithful sm) (m : RollbackState) :
    (rollbackLocked enc m).Keeps sm (Open enc base) := by
  unfold rollbackLocked
  split
  · exact Prog.keeps_ret _
  refine .bind (peripheral_open hsm (only_ask _)) fun authorized => ?_
  cases authorized with
  | false => exact Prog.keeps_ret _
  | true =>
    rw [if_pos rfl]
    split
    · exact Prog.keeps_ret _
    · refine .bind (peripheral_open hsm (only_ask _)) fun retired => ?_
      cases retired with
      | false => exact Prog.keeps_ret _
      | true =>
        refine .bind ?_ fun r => ?_
        · refine .bind (peripheral_open hsm (only_ask _)) fun checked => ?_
          cases checked with
          | false => exact Prog.keeps_ret _
          | true =>
            refine .bind (peripheral_open hsm (only_ask _)) fun restarted => ?_
            cases restarted with
            | false => exact Prog.keeps_ret _
            | true =>
              exact .bind (peripheral_open hsm (only_ask _)) fun _ =>
                keeps_restoreCliAndStartupArtifacts hsm
        · obtain ⟨success, restored⟩ := r
          cases success with
          | false => exact Prog.keeps_ret _
          | true =>
            exact .bind (keeps_open hsm (only_perform rfl)) fun _ =>
              .bind (keeps_cleanupRollbackEvidence hsm restored) fun _ => Prog.keeps_ret _
    · refine .bind (peripheral_open hsm (only_ask _)) fun running => ?_
      cases running with
      | false => exact Prog.keeps_ret _
      | true =>
        refine .bind (keeps_succeeds (peripheral_open hsm (only_require _))) fun settled => ?_
        cases settled with
        | false => exact Prog.keeps_ret _
        | true =>
          refine keeps_succeeds (.bind (peripheral_open hsm (only_require _)) fun _ =>
            .bind (keeps_restoreCliAndStartupArtifacts hsm) fun r => ?_)
          obtain ⟨success, restored⟩ := r
          cases success with
          | false => exact Prog.keeps_raise _
          | true =>
            exact .bind (peripheral_open hsm (only_require _)) fun _ =>
              keeps_terminalize hsm rfl restored

/-! ## A confirmed mission -/

/-- The calls that write no mission. -/
def Call.KeepsMission : Call H → Prop
  | .writeMission _ => False
  | _ => True

theorem Call.Peripheral.keepsMission (h : c.Peripheral) : c.KeepsMission := by
  cases c with
  | writeMission _ => exact h.elim
  | _ => trivial

/-- The calls of a promotion, and of what follows it. -/
def Call.Promotes : Call H → Prop
  | .writeMission _ | .writeSnapshot _ | .removeReceipt | .removeActive _ => False
  | _ => True

theorem Call.Promotes.keepsMission (h : c.Promotes) : c.KeepsMission := by
  cases c with
  | writeMission _ => exact h.elim
  | _ => trivial

theorem Call.Peripheral.promotes (h : c.Peripheral) : c.Promotes := by
  cases c with
  | writeMission _ | writeSnapshot _ | removeReceipt | removeActive _ => exact h.elim
  | _ => trivial

theorem keeps_ended (hsm : Faithful sm) {code : Code H α} (h : code.Only Call.KeepsMission) :
    code.Keeps sm Ended := by
  refine h.keeps fun c hc => hsm.preserves fun o s hs => ?_
  cases c with
  | writeMission _ => exact hc.elim
  | _ => exact hs

theorem only_keepsMission {code : Code H α} (h : code.Only Call.Peripheral) :
    code.Only Call.KeepsMission := h.mono fun _ => Call.Peripheral.keepsMission

theorem only_promotes {code : Code H α} (h : code.Only Call.Peripheral) :
    code.Only Call.Promotes := h.mono fun _ => Call.Peripheral.promotes

theorem only_readStagedBytes (a : Artifact) :
    (readStagedBytes a : Code H (Option Bytes)).Only Call.Peripheral :=
  (only_readBytes trivial).tryCatch fun _ => only_ite trivial trivial

theorem only_afterPromotion (commit : PyStr) (manifest : Option (ContentAuthority H)) :
    (afterPromotion commit manifest).Only Call.Promotes := by
  have hremoved : ∀ finalized : Bool, (if finalized then do
      removePreConfirmationArtifacts
      return true
    else return false : Code H Bool).Only Call.Promotes := fun finalized =>
    only_ite ((only_suppress (only_perform trivial)).bind fun _ => trivial) trivial
  cases manifest with
  | none => exact hremoved true
  | some manifest =>
    refine Prog.Only.bind (only_succeeds ?_) hremoved
    refine Prog.Only.bind ?_ fun _ => only_promotes only_cleanupStaging
    exact (only_perform trivial).tryCatch fun _ => only_ite trivial trivial

section Promotion

variable [DecidableEq H]

theorem only_promoteJson (manifest : ContentAuthority H) (a : Artifact) :
    (promoteJson enc manifest a).Only Call.Promotes := by
  refine (only_promotes (only_activeMatches ..)).bind fun current => only_ite trivial ?_
  refine (only_promotes (only_readStagedBytes a)).bind fun staged => ?_
  cases staged with
  | none => trivial
  | some staged =>
    refine only_ite ?_ trivial
    split
    · trivial
    · exact (only_succeeds (only_perform trivial)).bind fun _ =>
        only_ite (only_promotes (only_activeMatches ..)) trivial

theorem only_promoteLauncher (manifest : ContentAuthority H) :
    (promoteLauncher enc manifest).Only Call.Promotes := by
  refine (only_promotes (only_activeMatches ..)).bind fun current => only_ite trivial ?_
  refine (only_promotes (only_readStagedBytes _)).bind fun staged => ?_
  cases staged with
  | none => trivial
  | some staged =>
    refine only_ite ((only_readBytes trivial).bind fun data => ?_) trivial
    cases data with
    | none => trivial
    | some data =>
      refine Prog.Only.bind (only_succeeds ?_) fun _ =>
        only_ite (only_promotes (only_activeMatches ..)) trivial
      exact (only_perform trivial).bind fun _ => only_perform trivial

theorem only_promoteStagedArtifacts (commit confirmedCommit : PyStr) :
    (promoteStagedArtifacts enc commit confirmedCommit).Only Call.Promotes := by
  refine (only_readAuthority trivial).bind fun manifest => ?_
  cases manifest with
  | none => trivial
  | some manifest =>
    refine only_ite trivial ((only_promoteJson ..).bind fun _ => only_ite ?_ trivial)
    refine (only_promoteJson ..).bind fun _ => only_ite ?_ trivial
    exact (only_promoteLauncher _).bind fun _ =>
      only_ite (only_promotes (only_verifyActiveArtifacts ..)) trivial

theorem only_confirmedIdempotentResponse (m : RollbackState) :
    (confirmedIdempotentResponse enc m).Only Call.Promotes := by
  refine (only_promotes only_resolvesBinHome).bind fun _ => only_ite ?_ trivial
  refine (only_readAuthority trivial).bind fun receipt => ?_
  have hrest : ∀ verified : Bool,
      (if verified then return true else resumePromotion enc m : Code H Bool).Only
        Call.Promotes := by
    intro verified
    refine only_ite trivial ((only_readAuthority trivial).bind fun manifest => ?_)
    refine (only_promoteStagedArtifacts ..).bind fun _ => only_ite ?_ trivial
    cases manifest with
    | none => exact (Prog.only_ret true).bind fun _ => only_ite (only_afterPromotion ..) trivial
    | some manifest =>
      exact (only_promotes (only_verifyActiveArtifacts ..)).bind fun _ =>
        only_ite (only_afterPromotion ..) trivial
  cases receipt with
  | none => exact hrest false
  | some receipt =>
    by_cases hcommit : receipt.commit = m.commit
    · simp only [hcommit, if_true]
      exact (only_promotes (only_verifyActiveArtifacts ..)).bind hrest
    · simp only [hcommit, if_false]
      exact hrest false

end Promotion

/-! ## Confirming -/

/-- An open mission, or none. -/
def Inv (enc : Encoding H J) (base : Artifacts) (s : Store H) : Prop := Open enc base s ∨ Ended s

theorem Open.safe_readActive (hsm : Faithful sm) (a : Artifact) (h : Open enc base s) :
    (readBytes (.readActive a) : Code H (Option Bytes)).Safe sm (Open enc base)
      (fun data s' => Open enc base s' ∧ SameValue enc a (base a) data)
      (fun _ => Open enc base) s := by
  refine ⟨h, fun o => ?_⟩
  have hcase := hsm (.readActive a) o s
  generalize sm (.readActive a) o s = result at hcase ⊢
  cases hcase with
  | completes _ => exact ⟨h, h.active a⟩
  | raises e => exact h
  | unconfirmed e _ => exact h

/-- A snapshot of an open mission is one of its publication. -/
theorem keeps_snapshotPreConfirmationArtifacts (hsm : Faithful sm) :
    (snapshotPreConfirmationArtifacts : Code H Unit).Keeps sm (Open enc base) := by
  intro s h
  refine Prog.Safe.bind (Prog.Safe.bind ((h.safe_readActive hsm .contract).mono ?_ ?_))
  · intro contract s ⟨h, hcontract⟩
    refine Prog.Safe.bind ((h.safe_readActive hsm .definition).mono ?_ fun _ _ h => h)
    intro definition s ⟨h, hdefinition⟩
    refine Prog.Safe.bind ((h.safe_readActive hsm .launcher).mono ?_ fun _ _ h => h)
    intro launcher s ⟨h, hlauncher⟩
    refine keeps_open hsm (only_perform ?_) s h
    intro a
    cases a with
    | contract => exact hcontract
    | definition => exact hdefinition
    | launcher => exact hlauncher
  · exact fun _ _ h => h

theorem keeps_writeSnapshotOrFail (hsm : Faithful sm) :
    (writeSnapshotOrFail : Code H Unit).Keeps sm (Open enc base) := by
  refine (keeps_snapshotPreConfirmationArtifacts hsm).tryCatch fun _ => ?_
  split
  · exact Prog.keeps_raise _
  · exact Prog.keeps_raise _

theorem Open.safe_rollBackAndRaise (hsm : Faithful sm) (m : RollbackState)
    {Q : α → Store H → Prop} (h : Open enc base s) :
    (rollBackAndRaise enc m : Code H α).Safe sm (Open enc base) Q (fun _ => Open enc base) s :=
  Prog.Safe.bind ((keeps_rollbackLocked hsm m s h).mono (fun _ _ h' => h') fun _ _ h' => h')

/-- The mission that is to be confirmed is pending. -/
theorem Open.safe_confirmationState (hsm : Faithful sm) (commit : PyStr) (h : Open enc base s) :
    (confirmationState enc commit).Safe sm (Open enc base)
      (fun m s' => Open enc base s' ∧ m.status = .pending) (fun _ => Open enc base) s := by
  refine ⟨h, fun o => ?_⟩
  have hcase := hsm .readMission o s
  generalize sm .readMission o s = result at hcase ⊢
  cases hcase with
  | raises e => exact h
  | unconfirmed e _ => exact h
  | completes _ =>
    obtain ⟨m, hm, hstatus⟩ := h.mission
    simp only [Call.reply, Call.effect, hm]
    cases hs : m.status with
    | confirmed => exact absurd hs hstatus
    | rolledBack => exact h
    | pending =>
      simp only
      split
      · exact h
      · refine Prog.Safe.bind ((peripheral_open hsm (only_ask _) s h).mono ?_ fun _ _ h => h)
        intro due s' h'
        cases due with
        | true => exact h'.safe_rollBackAndRaise hsm m
        | false =>
          show Prog.Safe sm _ _ _ (if commit ≠ m.commit then rollBackAndRaise enc m else _) s'
          split
          · exact h'.safe_rollBackAndRaise hsm m
          · refine Prog.Safe.bind ((peripheral_open hsm (only_require _) s' h').mono ?_ ?_)
            · exact fun _ _ h'' => ⟨h'', hs⟩
            · exact fun _ _ h'' => h''

theorem keeps_preTerminalize (hsm : Faithful sm) (m : RollbackState) :
    (preTerminalize enc m).Keeps sm (Open enc base) := by
  have hraise : (rollBackAndRaise enc m : Code H Unit).Keeps sm (Open enc base) :=
    fun _ h => h.safe_rollBackAndRaise hsm m
  refine .bind ?_ fun _ => .bind ?_ fun _ => .bind ?_ fun _ => .bind ?_ fun resolved => ?_
  · refine .bind (peripheral_open hsm (only_ask _)) fun due => ?_
    cases due with
    | true => exact hraise
    | false =>
      refine .bind (peripheral_open hsm (only_ask _)) fun authorized => ?_
      cases authorized with
      | true => exact peripheral_open hsm (only_require _)
      | false => exact hraise
  · refine .bind (peripheral_open hsm (only_ask _)) fun prepared => ?_
    cases prepared with
    | true => exact Prog.keeps_ret _
    | false => exact hraise
  · exact peripheral_open hsm only_stageCandidateStartupArtifacts
  · exact peripheral_open hsm only_resolvesBinHome
  · cases resolved with
    | true => exact peripheral_open hsm (only_writeStagingManifest _ _)
    | false => exact Prog.keeps_raise _

/-- The terminal record of a confirmation, and the activation after it. -/
theorem Open.safe_writeConfirmed (hsm : Faithful sm) {terminal : RollbackState}
    (hterminal : terminal.status = .confirmed) (h : Open enc base s) :
    (do perform (.writeMission terminal)
        let _ ← ask .setCurrent
        return terminal : Code H RollbackState).Safe sm (Inv enc base) (fun _ s' => Ended s')
      (fun _ => Inv enc base) s := by
  have hafter : ∀ o : Answer, Ended ((Call.writeMission terminal).effect o s) := by
    intro o m hm
    have hne : terminal.status ≠ .pending := by
      rw [hterminal]
      intro hno
      cases hno
    rw [Call.effect, if_neg hne] at hm
    rw [← Option.some.inj hm]
    exact hterminal
  refine Prog.Safe.bind ⟨.inl h, fun o => ?_⟩
  have hcase := hsm (.writeMission terminal) o s
  generalize sm (.writeMission terminal) o s = result at hcase ⊢
  cases hcase with
  | raises e => exact .inl h
  | unconfirmed e o' => exact .inr (hafter o')
  | completes o' =>
    have hask := keeps_ended hsm (only_keepsMission (only_ask .setCurrent)) _ (hafter o')
    exact Prog.Safe.bind ((hask.weaken fun _ => Or.inr).mono (fun _ _ h' => h') fun _ _ => Or.inr)

/-- Where a confirmation is finalized the mission is confirmed, and otherwise it may be. -/
theorem Open.safe_finalizeConfirmation (hsm : Faithful sm) (m : RollbackState)
    (h : Open enc base s) :
    (finalizeConfirmation m : Code H RollbackState).Safe sm (Inv enc base)
      (fun _ s' => Ended s') (fun _ => Inv enc base) s := by
  have hinl : ∀ s : Store H, Open enc base s → Inv enc base s := fun _ => Or.inl
  unfold finalizeConfirmation
  split
  · refine Prog.Safe.bind (((peripheral_open hsm (only_require _) s h).weaken hinl).mono
      (fun _ s' h' => ?_) fun _ => hinl)
    exact Prog.Safe.bind (((peripheral_open hsm (only_require _) s' h').weaken hinl).mono
      (fun _ _ h'' => h''.safe_writeConfirmed hsm rfl) fun _ => hinl)
  · exact h.safe_writeConfirmed hsm rfl

theorem safe_abandonConfirmation (hsm : Faithful sm) (m : RollbackState) (e : Exc)
    {Q : α → Store H → Prop} (h : Inv enc base s) :
    (abandonConfirmation m e : Code H α).Safe sm (Inv enc base) Q (fun _ => Inv enc base) s := by
  have hboth : ∀ {β : Type} {code : Code H β}, code.Only Call.Peripheral →
      code.Keeps sm (Inv enc base) := fun h =>
    .or (peripheral_open hsm h) (keeps_ended hsm (only_keepsMission h))
  refine Prog.Safe.bind ((hboth (only_durableMissionMatches m) s h).mono ?_ fun _ _ h' => h')
  intro kept s h
  cases kept with
  | true => exact h
  | false =>
    refine Prog.Safe.bind ((hboth only_cleanupStaging s h).mono ?_ fun _ _ h' => h')
    intro _ s h
    have hremoved : (removePreConfirmationArtifacts : Code H Unit).Keeps sm (Inv enc base) :=
      .or (keeps_open hsm only_removeEvidence.1)
        (keeps_ended hsm (only_suppress (only_perform trivial)))
    exact Prog.Safe.bind ((hremoved s h).mono (fun _ _ h' => h') fun _ _ h' => h')

/-- A promotion, behind a confirmation. -/
theorem Ended.safe (hsm : Faithful sm) {code : Code H α} (h : code.Only Call.Promotes)
    (hs : Ended s) :
    code.Safe sm (Inv enc base) (fun _ => Inv enc base) (fun _ => Inv enc base) s := by
  have hkept := keeps_ended hsm (h.mono fun _ => Call.Promotes.keepsMission) s hs
  exact (hkept.weaken fun _ => Or.inr).mono (fun _ _ => Or.inr) fun _ _ => Or.inr

/-- **A confirmation leaves an open mission as it was published, or confirms it**, at every call. -/
theorem keeps_confirmLocked [DecidableEq H] (hsm : Faithful sm) (commit : PyStr) :
    (confirmLocked enc commit).Keeps sm (Inv enc base) := by
  rintro s (h | h)
  · have hinl : ∀ s, Open enc base s → Inv enc base s := fun _ => Or.inl
    refine Prog.Safe.bind (((h.safe_confirmationState hsm commit).weaken hinl).mono ?_
      fun _ => hinl)
    rintro m s ⟨h, hpending⟩
    rw [if_neg (by rw [hpending]; intro hno; cases hno)]
    refine Prog.Safe.bind (((peripheral_open hsm only_resolvesBinHome s h).weaken hinl).mono ?_
      fun _ => hinl)
    intro resolved s h
    cases resolved with
    | false => exact .inl h
    | true =>
      refine Prog.Safe.bind (((keeps_writeSnapshotOrFail hsm s h).weaken hinl).mono ?_
        fun _ => hinl)
      intro _ s h
      have hbody : (tryCatch (do preTerminalize enc m; finalizeConfirmation m)
          (abandonConfirmation m) : Code H RollbackState).Safe sm (Inv enc base)
            (fun _ s' => Ended s') (fun _ => Inv enc base) s := by
        refine Prog.Safe.tryCatch (Prog.Safe.bind ?_)
        refine ((keeps_preTerminalize hsm m s h).weaken hinl).mono (fun _ s h => ?_) fun e s h => ?_
        · exact (h.safe_finalizeConfirmation hsm m).mono (fun _ _ h' => h') fun e s h' =>
            safe_abandonConfirmation hsm m e h'
        · exact safe_abandonConfirmation hsm m e (.inl h)
      refine Prog.Safe.bind (hbody.mono ?_ fun _ _ h => h)
      intro terminal s h
      refine h.safe hsm (Prog.Only.bind (only_readAuthority trivial) fun manifest => ?_)
      exact (only_promoteStagedArtifacts _ _).bind fun _ =>
        only_ite (only_afterPromotion _ _) trivial
  · refine Prog.Safe.bind ⟨.inr h, fun o => ?_⟩
    have hcase := hsm .readMission o s
    generalize sm .readMission o s = result at hcase ⊢
    cases hcase with
    | raises e => exact .inr h
    | unconfirmed e _ => exact .inr h
    | completes _ =>
      cases hm : s.mission with
      | none =>
        simp only [Call.reply, Call.effect, hm]
        exact .inr h
      | some m =>
        have hstatus := h m hm
        simp only [Call.reply, Call.effect, hm, hstatus]
        by_cases hcommit : commit = m.commit
        · rw [if_neg (not_not.2 hcommit)]
          show Prog.Safe sm _ _ _ (if m.status = .confirmed then _ else _) s
          rw [if_pos hstatus]
          exact h.safe hsm (only_confirmedIdempotentResponse m)
        · rw [if_pos hcommit]
          exact .inr h

end Lubko.Startup
