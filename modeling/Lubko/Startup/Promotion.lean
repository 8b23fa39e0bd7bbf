import Lubko.Startup.Restore

/-!
# Promotions that are cut short

A candidate stages its startup artifacts and a manifest over them. After the confirmation they are
promoted, by the confirmation itself, by a repeated one and by the supervisor. Each of these may be
cut short at any call, and is started again.

An active artifact that matches the manifest is skipped. For the launcher this is decided by its
content, while its mode is set by a call of its own, behind the write.

* `underway_reached` — what every attempt keeps: all that a promotion needs is still there, or the
  receipt is.
* `safe_attempt` — an attempt that reports success has promoted every artifact.
* `eval_promoteStagedArtifacts`, `eval_confirmedIdempotentResponse` — what an attempt does that is
  not cut short.
* `recovers_iff` — when the next attempt succeeds.
-/

namespace Lubko.Startup

open Lubko.Lib Lubko.Deploy

variable {H J α β : Type} {enc : Encoding H J}

/-! ## What a candidate stages -/

/-- What the code of a candidate generates: two values for JSON, and the launcher. -/
structure Generated (enc : Encoding H J) where
  contract : J
  definition : J
  launcher : Bytes
  loads_contract : enc.loads (enc.dumps contract) = some contract
  loads_definition : enc.loads (enc.dumps definition) = some definition

/-- A call completes. -/
def clear (staged : Bytes) : Answer := ⟨.completes, true, staged⟩

namespace Generated

/-- The bytes it stages. -/
def bytes (g : Generated enc) : Artifact → Bytes
  | .contract => enc.dumps g.contract
  | .definition => enc.dumps g.definition
  | .launcher => g.launcher

/-- The manifest over them. -/
def manifest (g : Generated enc) (commit : PyStr) : ContentAuthority H where
  commit := commit
  hash a := enc.contentHash (g.bytes a)
  size a := (g.bytes a).length

/-- `stage_startup_artifacts` and `write_staging_manifest`, without an error. -/
def stage (g : Generated enc) (commit : PyStr) (prior : Store H) : Store H :=
  let staging : Code H Unit := do
    stageCandidateStartupArtifacts
    writeStagingManifest enc commit
  (staging.run sem ([.contract, .launcher, .definition].map (clear <| g.bytes ·) ++
    List.replicate 4 (clear [])) prior).1

theorem stage_eq (g : Generated enc) (commit : PyStr) (prior : Store H) :
    g.stage commit prior =
      { prior with
        staged := fun a => some (g.bytes a)
        manifest := some (g.manifest commit) } := by
  have hstaged : (((prior.staged.set .contract (some (g.bytes .contract))).set .launcher
      (some (g.bytes .launcher))).set .definition (some (g.bytes .definition))) =
        fun a => some (g.bytes a) := by
    funext a
    cases a <;> rfl
  have hmanifest : (g.manifest commit) =
      { commit := commit
        hash := fun a => enc.contentHash (match a with
          | .contract => g.bytes .contract
          | .definition => g.bytes .definition
          | .launcher => g.bytes .launcher)
        size := fun a => (match a with
          | .contract => g.bytes .contract
          | .definition => g.bytes .definition
          | .launcher => g.bytes .launcher).length } := by
    unfold manifest
    congr 1
  rw [← hstaged, hmanifest]
  rfl

/-- What it stages for JSON is read back as it was written. -/
theorem loads_bytes (g : Generated enc) {a : Artifact} (ha : a ≠ .launcher) :
    ∃ j, enc.loads (g.bytes a) = some j ∧ enc.dumps j = g.bytes a := by
  cases a with
  | contract => exact ⟨g.contract, g.loads_contract, rfl⟩
  | definition => exact ⟨g.definition, g.loads_definition, rfl⟩
  | launcher => exact absurd rfl ha

end Generated

/-! ## Attempts -/

section Attempts

variable [DecidableEq H]

/-- The tail of `_confirm_locked`. -/
def promoteAndFinalize (enc : Encoding H J) (commit : PyStr) : Code H Bool := do
  let manifest ← readStagingManifest
  if ← promoteStagedArtifacts enc commit commit then afterPromotion commit manifest
  else return false

theorem confirmLocked_eq (enc : Encoding H J) (commit : PyStr) :
    confirmLocked enc commit = (do
      let m ← confirmationState enc commit
      if m.status = .confirmed then confirmedIdempotentResponse enc m
      else
        if ← resolvesBinHome then
          writeSnapshotOrFail
          let terminal ← tryCatch (do
            preTerminalize enc m
            finalizeConfirmation m) (abandonConfirmation m)
          promoteAndFinalize enc terminal.commit
        else throw .deployCtlError) := rfl

/-- Who promotes. -/
inductive Attempt where
  /-- `_converge_startup_artifacts` of the supervisor. -/
  | promote
  /-- `_confirm_locked`, behind the terminal record. -/
  | finalize
  /-- `_confirmed_idempotent_response`. -/
  | repeatConfirm

def Attempt.code (enc : Encoding H J) (m : RollbackState) : Attempt → Code H Bool
  | .promote => promoteStagedArtifacts enc m.commit m.commit
  | .finalize => promoteAndFinalize enc m.commit
  | .repeatConfirm => confirmedIdempotentResponse enc m

/-- The files after attempts of any length. -/
def reached (enc : Encoding H J) (m : RollbackState) (attempts : List (Attempt × List Answer))
    (s : Store H) : Store H :=
  attempts.foldl (fun s attempt => ((attempt.1.code enc m).run sem attempt.2 s).1) s

/-- The artifact matches its hash and its size. -/
def Holds (enc : Encoding H J) (authority : ContentAuthority H) (s : Store H) (a : Artifact) :
    Prop := fileMatches enc authority a (s.active a) = true

instance (enc : Encoding H J) (authority : ContentAuthority H) (s : Store H) (a : Artifact) :
    Decidable (Holds enc authority s a) := inferInstanceAs (Decidable (_ = true))

/-- All artifacts match, and the launcher has `STARTUP_LAUNCHER_MODE`. -/
structure Promoted (enc : Encoding H J) (authority : ContentAuthority H) (s : Store H) : Prop where
  holds : ∀ a, Holds enc authority s a
  mode : s.launcherMode = true

/-- What has been begun can be completed: without an interruption the next promotion reports
success, and so does a repeated confirmation once there is a receipt. Whatever reports success has
promoted all artifacts. -/
structure Recovers (g : Generated enc) (m : RollbackState) (s : Store H) : Prop where
  promotes : s.manifest.isSome = true →
    ((Attempt.code enc m .promote).eval (sem · (clear [])) s).2 = .ok true
  confirms : s.receipt.isSome = true →
    ((Attempt.code enc m .repeatConfirm).eval (sem · (clear [])) s).2 = .ok true
  sound : ∀ (attempt : Attempt) (answers : List Answer),
    ((attempt.code enc m).run sem answers s).2 = .returned true →
      Promoted enc (g.manifest m.commit) ((attempt.code enc m).run sem answers s).1

/-- The launcher has the right content and another mode. -/
def Stranded (g : Generated enc) (commit : PyStr) (s : Store H) : Prop :=
  Holds enc (g.manifest commit) s .launcher ∧ s.launcherMode = false

/-- The artifacts match a receipt for this commit that is not the manifest's. -/
def Misled (g : Generated enc) (commit : PyStr) (s : Store H) : Prop :=
  ∃ receipt ∈ s.receipt, receipt.commit = commit ∧ Promoted enc receipt s ∧
    ¬ Promoted enc (g.manifest commit) s

/-! ## What every attempt keeps -/

/-- What was staged is there until it is removed; a promotion has all it needs, or it has left its
receipt. -/
structure Underway (g : Generated enc) (commit : PyStr) (s : Store H) : Prop where
  staged : ∀ a, s.staged a = none ∨ s.staged a = some (g.bytes a)
  manifest : s.manifest = none ∨ s.manifest = some (g.manifest commit)
  recoverable :
    (s.manifest = some (g.manifest commit) ∧ ∀ a, s.staged a = some (g.bytes a)) ∨
      s.receipt = some (g.manifest commit) ∧ ∀ a, Holds enc (g.manifest commit) s a

variable {g : Generated enc} {commit : PyStr} {s : Store H}

theorem underway_stage (prior : Store H) : Underway g commit (g.stage commit prior) := by
  rw [g.stage_eq]
  exact ⟨fun _ => .inr rfl, .inr rfl, .inl ⟨rfl, fun _ => rfl⟩⟩

/-- The staged bytes match the manifest. -/
theorem fileMatches_bytes (a : Artifact) :
    fileMatches enc (g.manifest commit) a (some (g.bytes a)) = true := by
  simp [fileMatches, Generated.manifest]

theorem fileMatches_set (active : Artifacts) (a : Artifact) :
    fileMatches enc (g.manifest commit) a (active.set a (some (g.bytes a)) a) = true := by
  rw [Artifacts.set, Function.update_self]
  exact fileMatches_bytes a

/-- An artifact that was written matches, and the others are as before. -/
theorem Holds.write {a b : Artifact} (h : b = a ∨ Holds enc (g.manifest commit) s b)
    (o : Answer) :
    Holds enc (g.manifest commit) ((Call.writeActive a (g.bytes a)).effect o s) b := by
  show fileMatches enc _ b (Function.update s.active a (some (g.bytes a)) b) = true
  by_cases hb : b = a
  · rw [hb, Function.update_self]
    exact fileMatches_bytes a
  · rw [Function.update_of_ne hb]
    exact h.resolve_left hb

namespace Underway

theorem write (h : Underway g commit s) (a : Artifact) (o : Answer) :
    Underway g commit ((Call.writeActive a (g.bytes a)).effect o s) where
  staged := h.staged
  manifest := h.manifest
  recoverable := h.recoverable.imp_right fun ⟨hreceipt, hholds⟩ =>
    ⟨hreceipt, fun b => Holds.write (.inr (hholds b)) o⟩

theorem chmod (h : Underway g commit s) (o : Answer) :
    Underway g commit (Call.chmodLauncher.effect o s) :=
  ⟨h.staged, h.manifest, h.recoverable⟩

theorem writeReceipt (h : Underway g commit s) (o : Answer) :
    Underway g commit ((Call.writeReceipt (g.manifest commit)).effect o s) :=
  ⟨h.staged, h.manifest, h.recoverable.imp_right fun hdone => ⟨rfl, hdone.2⟩⟩

theorem removeSnapshot (h : Underway g commit s) (o : Answer) :
    Underway g commit (Call.removeSnapshot.effect o s) :=
  ⟨h.staged, h.manifest, h.recoverable⟩

end Underway

/-! ### Calls -/

section Calls

variable {I : Store H → Prop} {Q : α → Store H → Prop} {E : Exc → Store H → Prop} {c : Call H}
  {k : Reply H → Code H α}

omit [DecidableEq H] in
/-- A call that changes nothing completes, or raises. -/
theorem safe_read (hs : I s) (hreads : ∀ o, c.effect o s = s)
    (hdone : ∀ o, (k (c.reply o s)).Safe sem I Q E s)
    (hraised : ∀ e, (k (.raised e)).Safe sem I Q E s) : (Prog.call c k).Safe sem I Q E s := by
  refine ⟨hs, fun o => ?_⟩
  obtain ⟨fate, yes, staged⟩ := o
  cases fate with
  | completes =>
    simp only [sem, hreads]
    exact hdone _
  | raises e => exact hraised e
  | unconfirmed e =>
    simp only [sem, hreads]
    exact hraised e

omit [DecidableEq H] in
/-- A call without a result completes, or raises with its effect or without. -/
theorem safe_perform {Q : Unit → Store H → Prop} (hs : I s)
    (hreply : ∀ o, c.reply o s = .done) (hdone : ∀ o, Q () (c.effect o s)) (hraised : ∀ e, E e s)
    (hunconfirmed : ∀ e o, E e (c.effect o s)) : (perform c).Safe sem I Q E s := by
  refine ⟨hs, fun o => ?_⟩
  obtain ⟨fate, yes, staged⟩ := o
  cases fate with
  | completes =>
    simp only [sem, hreply]
    exact hdone _
  | raises e => exact hraised e
  | unconfirmed e => exact hunconfirmed e _

end Calls

/-- Code of a promotion: at every call, and where it raises, a promotion is underway. -/
abbrev Promotes (g : Generated enc) (commit : PyStr) (code : Code H α) (Q : α → Store H → Prop)
    (s : Store H) : Prop :=
  code.Safe sem (Underway g commit) (fun a s' => Underway g commit s' ∧ Q a s')
    (fun _ => Underway g commit) s

section Rules

variable {Q : α → Store H → Prop} {R : β → Store H → Prop}

theorem Promotes.bind {code : Code H α} {f : α → Code H β} (h : Promotes g commit code Q s)
    (hf : ∀ a s, Underway g commit s → Q a s → Promotes g commit (f a) R s) :
    Promotes g commit (code >>= f) R s :=
  Prog.Safe.bind (h.mono (fun a s' hs => hf a s' hs.1 hs.2) fun _ _ hs => hs)

theorem Promotes.catching {code : Code H α} {handler : Exc → Code H α}
    (h : Promotes g commit code Q s)
    (hf : ∀ e s, Underway g commit s → Promotes g commit (handler e) Q s) :
    Promotes g commit (tryCatch code handler) Q s :=
  Prog.Safe.tryCatch (h.mono (fun _ _ hs => hs) fun e s' hs => hf e s' hs)

/-- A handler of some errors, which raises the others again. -/
theorem promotes_handler {p : Prop} [Decidable p] {a : α} {e : Exc} (h : Underway g commit s)
    (ha : Q a s) : Promotes g commit (if p then pure a else throw e) Q s := by
  by_cases hp : p
  · rw [if_pos hp]
    exact ⟨h, ha⟩
  · rw [if_neg hp]
    exact h

/-- A body that may fail, and what holds where it does not. -/
theorem Promotes.succeeds {errors : List Exc} {body : Code H Unit} {P : Store H → Prop}
    (h : Promotes g commit body (fun _ => P) s) :
    Promotes g commit (succeeds errors body) (fun ok s' => ok = true → P s') s := by
  refine .catching (h.bind fun _ s hs hP => ⟨hs, fun _ => hP⟩) fun e s hs => ?_
  exact promotes_handler hs fun hno => by cases hno

theorem promotes_readAuthority {c : Call H} {authority : Option (ContentAuthority H)}
    (h : Underway g commit s) (hreads : ∀ o, c.effect o s = s)
    (hreply : ∀ o, c.reply o s = .authority authority) :
    Promotes g commit (readAuthority c)
      (fun found s' => s' = s ∧ (found = none ∨ found = authority)) s := by
  refine safe_read h hreads (fun o => ?_) fun e => ?_
  · rw [hreply]
    exact ⟨h, rfl, .inr rfl⟩
  · cases e with
    | osError => exact ⟨h, rfl, .inl rfl⟩
    | _ => exact h

end Rules

/-! ### Reads -/

theorem promotes_activeMatches (authority : ContentAuthority H) (a : Artifact)
    (h : Underway g commit s) :
    Promotes g commit (activeMatches enc authority a)
      (fun ok s' => s' = s ∧ (ok = true → Holds enc authority s a)) s := by
  refine Prog.Safe.tryCatch (Prog.Safe.bind (safe_read h (fun _ => rfl) (fun o => ?_) fun e => ?_))
  · exact ⟨h, rfl, id⟩
  · exact promotes_handler h ⟨rfl, fun hno => by cases hno⟩

/-- What is read of a staged artifact is what the candidate generated. -/
theorem promotes_readStaged (a : Artifact) (h : Underway g commit s) :
    Promotes g commit (readBytes (.readStaged a))
      (fun data s' => s' = s ∧ ∀ staged ∈ data, staged = g.bytes a) s := by
  refine safe_read h (fun _ => rfl) (fun o => ⟨h, rfl, fun staged hstaged => ?_⟩) fun e => h
  have hread : s.staged a = some staged := hstaged
  rcases h.staged a with hnone | hsome
  · rw [hnone] at hread
    cases hread
  · rw [hsome] at hread
    exact (Option.some.inj hread).symm

theorem promotes_readStagedBytes (a : Artifact) (h : Underway g commit s) :
    Promotes g commit (readStagedBytes a)
      (fun data _ => ∀ staged ∈ data, staged = g.bytes a) s := by
  refine .catching ((promotes_readStaged a h).mono (fun _ _ hs => ⟨hs.1, hs.2.2⟩)
    fun _ _ hs => hs) fun e s hs => ?_
  exact promotes_handler hs fun _ hno => by cases hno

/-- A verification without an error has found all artifacts as they should be. -/
theorem promotes_verifyActiveArtifacts (authority : ContentAuthority H) (h : Underway g commit s) :
    Promotes g commit (verifyActiveArtifacts enc authority)
      (fun ok s' => s' = s ∧ (ok = true → Promoted enc authority s)) s := by
  refine (promotes_activeMatches authority .contract h).bind ?_
  rintro contractOk s' h ⟨rfl, hcontract⟩
  refine (promotes_activeMatches authority .definition h).bind ?_
  rintro definitionOk s h ⟨rfl, hdefinition⟩
  refine (promotes_activeMatches authority .launcher h).bind ?_
  rintro launcherOk s' h ⟨rfl, hlauncher⟩
  cases launcherOk with
  | false => exact ⟨h, rfl, fun hno => by simp at hno⟩
  | true =>
    have hmode : Promotes g commit
        (tryCatch (decision .statLauncher) fun e => if e = .osError then pure false else throw e :
          Code H Bool) (fun ok s => s = s' ∧ (ok = true → s'.launcherMode = true)) s' := by
      refine Prog.Safe.tryCatch (safe_read h (fun _ => rfl) (fun o => ⟨h, rfl, id⟩) fun e => ?_)
      exact promotes_handler h ⟨rfl, fun hno => by cases hno⟩
    refine hmode.bind ?_
    rintro modeOk s h ⟨rfl, hmode⟩
    refine ⟨h, rfl, fun hok => ?_⟩
    simp only [Bool.and_eq_true] at hok
    refine ⟨fun a => ?_, hmode hok.2⟩
    cases a with
    | contract => exact hcontract hok.1.1.1
    | definition => exact hdefinition hok.1.1.2
    | launcher => exact hlauncher rfl

/-! ### Promotion -/

theorem promotes_promoteJson {a : Artifact} (ha : a ≠ .launcher) (h : Underway g commit s) :
    Promotes g commit (promoteJson enc (g.manifest commit) a) (fun _ _ => True) s := by
  refine (promotes_activeMatches _ a h).bind fun ok s h _ => ?_
  cases ok with
  | true => exact ⟨h, trivial⟩
  | false =>
    refine (promotes_readStagedBytes a h).bind fun data s h hdata => ?_
    cases data with
    | none => exact ⟨h, trivial⟩
    | some staged =>
      obtain rfl := hdata staged rfl
      show Promotes g commit (if enc.contentHash (g.bytes a) = enc.contentHash (g.bytes a)
        then _ else _) _ s
      rw [if_pos rfl]
      obtain ⟨j, hloads, hdumps⟩ := g.loads_bytes ha
      rw [hloads]
      show Promotes g commit (succeeds _ (perform (.writeActive a (enc.dumps j))) >>= _) _ s
      rw [hdumps]
      have hwrite : Promotes g commit (perform (.writeActive a (g.bytes a))) (fun _ _ => True) s :=
        safe_perform h (fun _ => rfl) (fun o => ⟨h.write a o, trivial⟩) (fun _ => h)
          fun _ o => h.write a o
      refine hwrite.succeeds.bind fun written s h _ => ?_
      cases written with
      | false => exact ⟨h, trivial⟩
      | true =>
        exact (promotes_activeMatches _ a h).mono (fun _ _ hs => ⟨hs.1, trivial⟩) fun _ _ hs => hs

theorem promotes_writeLauncherDurable (h : Underway g commit s) :
    Promotes g commit (writeLauncherDurable (g.bytes .launcher)) (fun _ _ => True) s := by
  have hwrite : Promotes g commit (perform (.writeActive .launcher (g.bytes .launcher)))
      (fun _ _ => True) s :=
    safe_perform h (fun _ => rfl) (fun o => ⟨h.write _ o, trivial⟩) (fun _ => h)
      fun _ o => h.write _ o
  have hbody : Promotes g commit
      (do perform (.writeActive .launcher (g.bytes .launcher)); perform .chmodLauncher)
      (fun _ _ => True) s :=
    hwrite.bind fun _ s h _ => safe_perform h (fun _ => rfl) (fun o => ⟨h.chmod o, trivial⟩)
      (fun _ => h) fun _ o => h.chmod o
  exact hbody.succeeds.mono (fun _ _ hs => ⟨hs.1, trivial⟩) fun _ _ hs => hs

theorem promotes_promoteLauncher (h : Underway g commit s) :
    Promotes g commit (promoteLauncher enc (g.manifest commit)) (fun _ _ => True) s := by
  refine (promotes_activeMatches _ .launcher h).bind fun ok s h _ => ?_
  cases ok with
  | true => exact ⟨h, trivial⟩
  | false =>
    refine (promotes_readStagedBytes .launcher h).bind fun data s h hdata => ?_
    cases data with
    | none => exact ⟨h, trivial⟩
    | some staged =>
      obtain rfl := hdata staged rfl
      show Promotes g commit (if enc.contentHash (g.bytes .launcher) =
        enc.contentHash (g.bytes .launcher) then _ else _) _ s
      rw [if_pos rfl]
      refine (promotes_readStaged .launcher h).bind fun data s h hdata => ?_
      cases data with
      | none => exact h
      | some staged =>
        obtain rfl := hdata.2 staged rfl
        refine (promotes_writeLauncherDurable h).bind fun written s h _ => ?_
        cases written with
        | false => exact ⟨h, trivial⟩
        | true =>
          exact (promotes_activeMatches _ .launcher h).mono (fun _ _ hs => ⟨hs.1, trivial⟩)
            fun _ _ hs => hs

/-- **A promotion without an error has promoted every artifact.** -/
theorem promotes_promoteStagedArtifacts (h : Underway g commit s) :
    Promotes g commit (promoteStagedArtifacts enc commit commit)
      (fun ok s' => ok = true → Promoted enc (g.manifest commit) s') s := by
  have hfailed : ∀ s, Underway g commit s → Promotes g commit (pure false : Code H Bool)
      (fun ok s' => ok = true → Promoted enc (g.manifest commit) s') s :=
    fun s h => ⟨h, fun hno => by cases hno⟩
  refine (promotes_readAuthority h (fun _ => rfl) fun _ => rfl).bind ?_
  rintro found s' h ⟨rfl, hfound⟩
  cases found with
  | none => exact hfailed s' h
  | some manifest =>
    have hmanifest : manifest = g.manifest commit := by
      rcases h.manifest with hnone | hsome
      · rw [hnone] at hfound
        rcases hfound with hno | hno <;> cases hno
      · rw [hsome] at hfound
        exact Option.some.inj (hfound.resolve_left fun hno => by cases hno)
    subst hmanifest
    show Promotes g commit (if (g.manifest commit).commit ≠ commit ∨ commit ≠ commit
      then _ else _) _ s'
    rw [if_neg (by rintro (hno | hno) <;> exact hno rfl)]
    refine (promotes_promoteJson (by decide) h).bind fun ok s h _ => ?_
    cases ok with
    | false => exact hfailed s h
    | true =>
      refine (promotes_promoteJson (by decide) h).bind fun ok s h _ => ?_
      cases ok with
      | false => exact hfailed s h
      | true =>
        refine (promotes_promoteLauncher h).bind fun ok s h _ => ?_
        cases ok with
        | false => exact hfailed s h
        | true =>
          refine (promotes_verifyActiveArtifacts _ h).mono ?_ fun _ _ hs => hs
          rintro ok s' ⟨hs, rfl, hok⟩
          exact ⟨hs, hok⟩

/-! ### Receipt and clean-up -/

/-- The calls of a clean-up. -/
def Call.Cleans : Call H → Prop
  | .removeStaged _ | .removeManifest => True
  | _ => False

omit [DecidableEq H] in
theorem only_cleans : (cleanupStaging : Code H Unit).Only Call.Cleans :=
  only_removals (fun _ => trivial) trivial

/-- The receipt of a promotion is written. -/
structure Finished (g : Generated enc) (commit : PyStr) (s : Store H) : Prop where
  underway : Underway g commit s
  receipt : s.receipt = some (g.manifest commit)
  promoted : Promoted enc (g.manifest commit) s

/-- Behind the receipt the staged files may go. -/
theorem Finished.cleans {c : Call H} (hc : c.Cleans) (o : Answer) (h : Finished g commit s) :
    Finished g commit (c.effect o s) := by
  cases c with
  | removeStaged a =>
    refine ⟨⟨fun b => ?_, h.underway.manifest, .inr ⟨h.receipt, h.promoted.holds⟩⟩, h.receipt,
      h.promoted.holds, h.promoted.mode⟩
    show Function.update s.staged a none b = none ∨ Function.update s.staged a none b = _
    by_cases hb : b = a
    · rw [hb, Function.update_self]
      exact .inl rfl
    · rw [Function.update_of_ne hb]
      exact h.underway.staged b
  | removeManifest =>
    exact ⟨⟨h.underway.staged, .inl rfl, .inr ⟨h.receipt, h.promoted.holds⟩⟩, h.receipt,
      h.promoted.holds, h.promoted.mode⟩
  | _ => exact hc.elim

theorem promotes_cleanupStaging (h : Finished g commit s) :
    Promotes g commit (cleanupStaging : Code H Unit)
      (fun _ => Promoted enc (g.manifest commit)) s := by
  have hkept : (cleanupStaging : Code H Unit).Keeps sem (Finished g commit) :=
    only_cleans.keeps fun c hc => sem_faithful.preserves fun o s hs => hs.cleans hc o
  exact ((hkept s h).weaken fun _ hs => hs.underway).mono
    (fun _ _ hs => ⟨hs.underway, hs.promoted⟩) fun _ _ hs => hs.underway

theorem promotes_finalizePostPromotion (h : Underway g commit s)
    (hpromoted : Promoted enc (g.manifest commit) s) :
    Promotes g commit (finalizePostPromotion commit (g.manifest commit))
      (fun _ => Promoted enc (g.manifest commit)) s := by
  have hwrite : Promotes g commit (tryCatch (writeConfirmationReceipt commit (g.manifest commit))
      fun e => if e = .durabilityError ∨ e = .osError then throw .deployCtlError else throw e)
      (fun _ => Finished g commit) s := by
    refine .catching ?_ fun e s hs => ?_
    · exact safe_perform h (fun _ => rfl)
        (fun o => ⟨h.writeReceipt o, h.writeReceipt o, rfl, hpromoted.holds, hpromoted.mode⟩)
        (fun _ => h) fun _ o => h.writeReceipt o
    · by_cases he : e = .durabilityError ∨ e = .osError
      · rw [if_pos he]
        exact hs
      · rw [if_neg he]
        exact hs
  exact hwrite.bind fun _ s _ hs => promotes_cleanupStaging hs

theorem promotes_removePreConfirmationArtifacts (h : Underway g commit s)
    (hpromoted : Promoted enc (g.manifest commit) s) :
    Promotes g commit (removePreConfirmationArtifacts : Code H Unit)
      (fun _ => Promoted enc (g.manifest commit)) s := by
  have honly : (removePreConfirmationArtifacts : Code H Unit).Only (· = .removeSnapshot) :=
    only_suppress (only_perform rfl)
  have hkept : (removePreConfirmationArtifacts : Code H Unit).Keeps sem
      fun s => Underway g commit s ∧ Promoted enc (g.manifest commit) s := by
    refine honly.keeps fun c hc => sem_faithful.preserves fun o s hs => ?_
    subst hc
    exact ⟨hs.1.removeSnapshot o, hs.2.holds, hs.2.mode⟩
  exact ((hkept s ⟨h, hpromoted⟩).weaken fun _ hs => hs.1).mono (fun _ _ hs => hs)
    fun _ _ hs => hs.1

theorem promotes_afterPromotion {manifest : Option (ContentAuthority H)}
    (hmanifest : manifest = none ∨ manifest = some (g.manifest commit)) (h : Underway g commit s)
    (hpromoted : Promoted enc (g.manifest commit) s) :
    Promotes g commit (afterPromotion commit manifest)
      (fun ok s' => ok = true → Promoted enc (g.manifest commit) s') s := by
  have hremoved : ∀ s, Underway g commit s → Promoted enc (g.manifest commit) s →
      Promotes g commit (do removePreConfirmationArtifacts; return true : Code H Bool)
        (fun ok s' => ok = true → Promoted enc (g.manifest commit) s') s :=
    fun s h hs => (promotes_removePreConfirmationArtifacts h hs).bind fun _ s h hs =>
      ⟨h, fun _ => hs⟩
  rcases hmanifest with rfl | rfl
  · exact hremoved s h hpromoted
  · refine (promotes_finalizePostPromotion h hpromoted).succeeds.bind fun finalized s h hs => ?_
    cases finalized with
    | true => exact hremoved s h (hs rfl)
    | false => exact ⟨h, fun hno => by cases hno⟩

/-! ### Attempts -/

theorem promotes_promoteAndFinalize (h : Underway g commit s) :
    Promotes g commit (promoteAndFinalize enc commit)
      (fun ok s' => ok = true → Promoted enc (g.manifest commit) s') s := by
  refine (promotes_readAuthority h (fun _ => rfl) fun _ => rfl).bind ?_
  rintro found s' h ⟨rfl, hfound⟩
  have hmanifest : found = none ∨ found = some (g.manifest commit) := by
    rcases hfound with rfl | rfl
    · exact .inl rfl
    · exact h.manifest
  refine (promotes_promoteStagedArtifacts h).bind fun ok s h hok => ?_
  cases ok with
  | true => exact promotes_afterPromotion hmanifest h (hok rfl)
  | false => exact ⟨h, fun hno => by cases hno⟩

/-- The part of a repeated confirmation behind its receipt. -/
theorem promotes_repair (h : Underway g commit s) :
    Promotes g commit (do
        let manifest ← readStagingManifest
        if ← promoteStagedArtifacts enc commit commit then
          let verified ←
            match manifest with
            | some manifest => verifyActiveArtifacts enc manifest
            | none => pure true
          if verified then afterPromotion commit manifest else return false
        else return false)
      (fun ok s' => ok = true → Promoted enc (g.manifest commit) s') s := by
  refine (promotes_readAuthority h (fun _ => rfl) fun _ => rfl).bind ?_
  rintro found s' h ⟨rfl, hfound⟩
  refine (promotes_promoteStagedArtifacts h).bind fun ok s'' h' hok => ?_
  cases ok with
  | false => exact ⟨h', fun hno => by cases hno⟩
  | true =>
    cases found with
    | none => exact promotes_afterPromotion (.inl rfl) h' (hok rfl)
    | some manifest =>
      have hmanifest : some manifest = none ∨ some manifest = some (g.manifest commit) := by
        rw [hfound.resolve_left fun hno => by cases hno]
        exact h.manifest
      refine (promotes_verifyActiveArtifacts manifest h').bind ?_
      rintro verified s h'' ⟨rfl, -⟩
      cases verified with
      | true => exact promotes_afterPromotion hmanifest h'' (hok rfl)
      | false => exact ⟨h'', fun hno => by cases hno⟩

theorem promotes_resolvesBinHome (h : Underway g commit s) :
    Promotes g commit (resolvesBinHome : Code H Bool) (fun _ s' => s' = s) s := by
  refine Prog.Safe.tryCatch (Prog.Safe.bind (Prog.Safe.bind
    (safe_read h (fun _ => rfl) (fun o => ⟨h, rfl⟩) fun e => ?_)))
  exact promotes_handler h rfl

/-- A repeated confirmation reports success for its manifest, or for the receipt that was there. -/
theorem promotes_confirmedIdempotentResponse {m : RollbackState} (h : Underway g m.commit s) :
    Promotes g m.commit (confirmedIdempotentResponse enc m)
      (fun ok s' => ok = true →
        Promoted enc (g.manifest m.commit) s' ∨ Misled g m.commit s) s := by
  refine (promotes_resolvesBinHome h).bind ?_
  rintro resolved s' h rfl
  cases resolved with
  | false => exact ⟨h, fun hno => by cases hno⟩
  | true =>
    have hrepair : Promotes g m.commit _ (fun ok s'' => ok = true →
        Promoted enc (g.manifest m.commit) s'' ∨ Misled g m.commit s') s' :=
      (promotes_repair h).mono (fun _ _ hs => ⟨hs.1, fun hok => .inl (hs.2 hok)⟩) fun _ _ hs => hs
    refine (promotes_readAuthority h (fun _ => rfl) fun _ => rfl).bind ?_
    rintro found s h ⟨rfl, hfound⟩
    cases found with
    | none => exact hrepair
    | some receipt =>
      have hreceipt : s.receipt = some receipt :=
        (hfound.resolve_left fun hno => by cases hno).symm
      by_cases hcommit : receipt.commit = m.commit
      · show Promotes g m.commit (if receipt.commit = m.commit then _ else _) _ s
        rw [if_pos hcommit]
        refine (promotes_verifyActiveArtifacts receipt h).bind ?_
        rintro verified s' h ⟨rfl, hverified⟩
        cases verified with
        | false => exact hrepair
        | true =>
          refine ⟨h, fun _ => ?_⟩
          by_cases hpromoted : Promoted enc (g.manifest m.commit) s'
          · exact .inl hpromoted
          · exact .inr ⟨receipt, hreceipt, hcommit, hverified rfl, hpromoted⟩
      · show Promotes g m.commit (if receipt.commit = m.commit then _ else _) _ s
        rw [if_neg hcommit]
        exact hrepair

/-- **An attempt keeps what the next one needs**, wherever it stops, and reports success only for
the artifacts of its manifest. -/
theorem promotes_attempt {m : RollbackState} (attempt : Attempt) (h : Underway g m.commit s) :
    Promotes g m.commit (attempt.code enc m)
      (fun ok s' => ok = true →
        Promoted enc (g.manifest m.commit) s' ∨ Misled g m.commit s) s := by
  have hsound : ∀ {code : Code H Bool}, Promotes g m.commit code
      (fun ok s' => ok = true → Promoted enc (g.manifest m.commit) s') s →
        Promotes g m.commit code (fun ok s' => ok = true →
          Promoted enc (g.manifest m.commit) s' ∨ Misled g m.commit s) s :=
    fun h => h.mono (fun _ _ hs => ⟨hs.1, fun hok => .inl (hs.2 hok)⟩) fun _ _ hs => hs
  cases attempt with
  | promote => exact hsound (promotes_promoteStagedArtifacts h)
  | finalize => exact hsound (promotes_promoteAndFinalize h)
  | repeatConfirm => exact promotes_confirmedIdempotentResponse h

theorem underway_reached (m : RollbackState) (attempts : List (Attempt × List Answer))
    (h : Underway g m.commit s) : Underway g m.commit (reached enc m attempts s) := by
  induction attempts generalizing s with
  | nil => exact h
  | cons attempt attempts ih =>
    apply ih
    exact ((promotes_attempt attempt.1 h).sound (fun _ _ hs => hs.1) (fun _ _ hs => hs)
      attempt.2).1

/-! ## Without interruption -/

/-- The artifact matches, or is written; the launcher is then made executable. -/
def promoteOne (g : Generated enc) (commit : PyStr) (a : Artifact) (s : Store H) : Store H :=
  if Holds enc (g.manifest commit) s a then s
  else
    { s with
      active := s.active.set a (some (g.bytes a))
      launcherMode := if a = .launcher then true else s.launcherMode }

/-- A promotion that is not cut short. -/
def promoteAll (g : Generated enc) (commit : PyStr) (s : Store H) : Store H :=
  promoteOne g commit .launcher (promoteOne g commit .definition (promoteOne g commit .contract s))

section PromoteOne

variable {a b : Artifact}

@[simp] theorem promoteOne_staged : (promoteOne g commit a s).staged = s.staged := by
  unfold promoteOne
  split <;> rfl

@[simp] theorem promoteOne_manifest : (promoteOne g commit a s).manifest = s.manifest := by
  unfold promoteOne
  split <;> rfl

@[simp] theorem promoteOne_receipt : (promoteOne g commit a s).receipt = s.receipt := by
  unfold promoteOne
  split <;> rfl

@[simp] theorem holds_promoteOne : Holds enc (g.manifest commit) (promoteOne g commit a s) b ↔
    b = a ∨ Holds enc (g.manifest commit) s b := by
  unfold promoteOne
  by_cases ha : Holds enc (g.manifest commit) s a
  · rw [if_pos ha]
    constructor
    · exact .inr
    · rintro (rfl | hb)
      · exact ha
      · exact hb
  · rw [if_neg ha]
    constructor
    · intro h
      by_cases hb : b = a
      · exact .inl hb
      · have hsame : s.active.set a (some (g.bytes a)) b = s.active b := Function.update_of_ne hb ..
        right
        unfold Holds
        rw [← hsame]
        exact h
    · exact fun h => Holds.write h (clear [])

@[simp] theorem promoteOne_launcherMode : (promoteOne g commit a s).launcherMode =
    if a = .launcher ∧ ¬ Holds enc (g.manifest commit) s .launcher then true
    else s.launcherMode := by
  unfold promoteOne
  by_cases ha : a = .launcher
  · subst ha
    split <;> simp_all
  · split <;> simp [ha]

end PromoteOne

theorem eval_activeMatches (authority : ContentAuthority H) (a : Artifact) :
    (activeMatches enc authority a).eval (sem · (clear [])) s =
      (s, .ok (fileMatches enc authority a (s.active a))) := rfl

omit [DecidableEq H] in
theorem eval_readStagedBytes (a : Artifact) :
    (readStagedBytes a).eval (sem · (clear [])) s = (s, .ok (s.staged a)) := rfl

theorem eval_promoteJson {a : Artifact} (ha : a ≠ .launcher)
    (h : Holds enc (g.manifest commit) s a ∨ s.staged a = some (g.bytes a)) :
    (promoteJson enc (g.manifest commit) a).eval (sem · (clear [])) s =
      (promoteOne g commit a s, .ok true) := by
  unfold promoteJson
  rw [Prog.eval_bind_ok (eval_activeMatches ..)]
  by_cases hholds : Holds enc (g.manifest commit) s a
  · rw [promoteOne, if_pos hholds, hholds]
    rfl
  · rw [promoteOne, if_neg hholds, eq_false_of_ne_true hholds, if_neg Bool.false_ne_true,
      Prog.eval_bind_ok (eval_readStagedBytes a), h.resolve_left hholds]
    obtain ⟨j, hloads, hdumps⟩ := g.loads_bytes ha
    show Prog.eval _ (if enc.contentHash (g.bytes a) = enc.contentHash (g.bytes a)
      then _ else _) s = _
    rw [if_pos rfl, hloads]
    show ({ s with
        active := s.active.set a (some (enc.dumps j))
        launcherMode := if a = Artifact.launcher then false else s.launcherMode },
      Except.ok (fileMatches enc _ a (s.active.set a (some (enc.dumps j)) a))) = _
    rw [hdumps, fileMatches_set, if_neg ha, if_neg ha]

theorem eval_promoteLauncher
    (h : Holds enc (g.manifest commit) s .launcher ∨
      s.staged .launcher = some (g.bytes .launcher)) :
    (promoteLauncher enc (g.manifest commit)).eval (sem · (clear [])) s =
      (promoteOne g commit .launcher s, .ok true) := by
  unfold promoteLauncher
  rw [Prog.eval_bind_ok (eval_activeMatches ..)]
  by_cases hholds : Holds enc (g.manifest commit) s .launcher
  · rw [promoteOne, if_pos hholds, hholds]
    rfl
  · have hstaged := h.resolve_left hholds
    have hread : (readBytes (.readStaged .launcher)).eval (sem · (clear [])) s =
        (s, .ok (s.staged .launcher)) := rfl
    rw [promoteOne, if_neg hholds, eq_false_of_ne_true hholds, if_neg Bool.false_ne_true,
      Prog.eval_bind_ok (eval_readStagedBytes _), hstaged]
    show Prog.eval _ (if enc.contentHash (g.bytes .launcher) = enc.contentHash (g.bytes .launcher)
      then _ else _) s = _
    rw [if_pos rfl, Prog.eval_bind_ok hread, hstaged]
    show ({ s with
        active := s.active.set .launcher (some (g.bytes .launcher))
        launcherMode := true },
      Except.ok (fileMatches enc _ .launcher (s.active.set .launcher
        (some (g.bytes .launcher)) .launcher))) = _
    rw [fileMatches_set]
    rfl

theorem eval_verifyActiveArtifacts (enc : Encoding H J) (authority : ContentAuthority H)
    (s : Store H) : ∃ ok, (verifyActiveArtifacts enc authority).eval (sem · (clear [])) s = (s, .ok ok) ∧
      (ok = true ↔ Promoted enc authority s) := by
  unfold verifyActiveArtifacts
  rw [Prog.eval_bind_ok (eval_activeMatches ..), Prog.eval_bind_ok (eval_activeMatches ..),
    Prog.eval_bind_ok (eval_activeMatches ..)]
  cases hlauncher : fileMatches enc authority .launcher (s.active .launcher) with
  | false =>
    refine ⟨_, rfl, ?_⟩
    constructor
    · intro hno
      simp at hno
    · intro h
      have hholds := h.holds .launcher
      rw [Holds, hlauncher] at hholds
      cases hholds
  | true =>
    refine ⟨_, rfl, ?_⟩
    constructor
    · intro h
      rw [Bool.and_true, Bool.and_eq_true, Bool.and_eq_true] at h
      refine ⟨fun a => ?_, h.2⟩
      cases a with
      | contract => exact h.1.1
      | definition => exact h.1.2
      | launcher => exact hlauncher
    · intro h
      rw [Bool.and_true, Bool.and_eq_true, Bool.and_eq_true]
      exact ⟨⟨h.holds .contract, h.holds .definition⟩, h.mode⟩

/-- **An uninterrupted promotion** writes what does not match, and fails only where the launcher is
skipped for its content and has another mode. -/
theorem eval_promoteStagedArtifacts (h : Underway g commit s)
    (hmanifest : s.manifest = some (g.manifest commit)) :
    ∃ ok, (promoteStagedArtifacts enc commit commit).eval (sem · (clear [])) s =
      (promoteAll g commit s, .ok ok) ∧
        (ok = true ↔ Promoted enc (g.manifest commit) (promoteAll g commit s)) := by
  have hneeded : ∀ a, Holds enc (g.manifest commit) s a ∨ s.staged a = some (g.bytes a) := by
    intro a
    rcases h.recoverable with ⟨-, hstaged⟩ | ⟨-, hholds⟩
    · exact .inr (hstaged a)
    · exact .inl (hholds a)
  have hread : readStagingManifest.eval (sem · (clear [])) s =
      (s, .ok (some (g.manifest commit))) := by
    rw [← hmanifest]
    rfl
  unfold promoteStagedArtifacts
  rw [Prog.eval_bind_ok hread]
  show ∃ ok, Prog.eval _ (if (g.manifest commit).commit ≠ commit ∨ commit ≠ commit
    then _ else _) s = _ ∧ _
  rw [if_neg (by rintro (hno | hno) <;> exact hno rfl),
    Prog.eval_bind_ok (eval_promoteJson (by decide) (hneeded .contract)), if_pos rfl,
    Prog.eval_bind_ok (eval_promoteJson (by decide) (by simpa using hneeded .definition)),
    if_pos rfl, Prog.eval_bind_ok (eval_promoteLauncher (by simpa using hneeded .launcher)),
    if_pos rfl]
  exact eval_verifyActiveArtifacts ..

@[simp] theorem holds_promoteAll (a : Artifact) :
    Holds enc (g.manifest commit) (promoteAll g commit s) a := by
  unfold promoteAll
  cases a <;> simp

theorem promoted_promoteAll_iff :
    Promoted enc (g.manifest commit) (promoteAll g commit s) ↔ ¬ Stranded g commit s := by
  have hmode : (promoteAll g commit s).launcherMode =
      if Holds enc (g.manifest commit) s .launcher then s.launcherMode else true := by
    unfold promoteAll
    by_cases h : Holds enc (g.manifest commit) s .launcher <;> simp [h]
  constructor
  · rintro ⟨-, hpromoted⟩ ⟨hholds, hstranded⟩
    rw [hmode, if_pos hholds, hstranded] at hpromoted
    cases hpromoted
  · intro h
    refine ⟨holds_promoteAll, ?_⟩
    rw [hmode]
    by_cases hholds : Holds enc (g.manifest commit) s .launcher
    · rw [if_pos hholds]
      exact Bool.of_not_eq_false fun hno => h ⟨hholds, hno⟩
    · rw [if_neg hholds]

omit [DecidableEq H] in
theorem eval_afterPromotion (commit : PyStr) (manifest : Option (ContentAuthority H))
    (s : Store H) : ∃ s', (afterPromotion commit manifest).eval (sem · (clear [])) s = (s', .ok true) := by
  cases manifest with
  | none => exact ⟨_, rfl⟩
  | some manifest => exact ⟨_, rfl⟩

/-- What a promotion needs is there, or all artifacts are right already. -/
theorem Underway.holds_of_no_manifest (h : Underway g commit s) (hno : s.manifest = none) :
    s.receipt = some (g.manifest commit) ∧ ∀ a, Holds enc (g.manifest commit) s a := by
  refine h.recoverable.resolve_left fun ⟨hmanifest, _⟩ => ?_
  rw [hno] at hmanifest
  cases hmanifest

theorem eval_repair (h : Underway g commit s) :
    ∃ s' ok, Prog.eval (sem · (clear [])) (do
        let manifest ← readStagingManifest
        if ← promoteStagedArtifacts enc commit commit then
          let verified ←
            match manifest with
            | some manifest => verifyActiveArtifacts enc manifest
            | none => pure true
          if verified then afterPromotion commit manifest else return false
        else return false) s = (s', .ok ok) ∧
          (ok = true ↔ s.manifest.isSome = true ∧ ¬ Stranded g commit s) := by
  have hread : readStagingManifest.eval (sem · (clear [])) s = (s, .ok s.manifest) := rfl
  rw [Prog.eval_bind_ok hread]
  rcases h.manifest with hmanifest | hmanifest
  · have hfails : (promoteStagedArtifacts enc commit commit).eval (sem · (clear [])) s =
        (s, .ok false) := by
      unfold promoteStagedArtifacts
      rw [Prog.eval_bind_ok hread, hmanifest]
      rfl
    rw [Prog.eval_bind_ok hfails]
    exact ⟨s, false, rfl, by simp [hmanifest]⟩
  · obtain ⟨ok, heval, hok⟩ := eval_promoteStagedArtifacts h hmanifest
    rw [promoted_promoteAll_iff] at hok
    rw [Prog.eval_bind_ok heval]
    cases ok with
    | false =>
      refine ⟨_, false, rfl, ?_⟩
      simp [hmanifest, ← hok]
    | true =>
      have hpromoted := hok.1 rfl
      obtain ⟨verified, hverify, hverified⟩ :=
        eval_verifyActiveArtifacts enc (g.manifest commit) (promoteAll g commit s)
      obtain rfl := hverified.2 (promoted_promoteAll_iff.2 hpromoted)
      obtain ⟨s', hafter⟩ :=
        eval_afterPromotion commit (some (g.manifest commit)) (promoteAll g commit s)
      rw [hmanifest, if_pos rfl]
      refine ⟨s', true, ?_, by simp [hpromoted]⟩
      rw [Prog.eval_bind_ok hverify]
      exact hafter

/-- **An uninterrupted repeated confirmation** reports success from a receipt that the artifacts
match, or from a promotion. -/
theorem eval_confirmedIdempotentResponse {m : RollbackState} (h : Underway g m.commit s) :
    ∃ s' ok, (confirmedIdempotentResponse enc m).eval (sem · (clear [])) s = (s', .ok ok) ∧
      (ok = true ↔ ¬ Stranded g m.commit s) := by
  have hresolves : (resolvesBinHome : Code H Bool).eval (sem · (clear [])) s = (s, .ok true) := rfl
  have hread : readConfirmationReceipt.eval (sem · (clear [])) s = (s, .ok s.receipt) := rfl
  obtain ⟨s', ok, heval, hok⟩ := eval_repair h
  -- Where there is a manifest, the receipt does not matter.
  have hwith : (∀ receipt ∈ s.receipt, receipt ≠ g.manifest m.commit) →
      (ok = true ↔ ¬ Stranded g m.commit s) := by
    intro hother
    rw [hok]
    refine ⟨And.right, fun hstranded => ⟨?_, hstranded⟩⟩
    rcases h.manifest with hno | hmanifest
    · exact absurd rfl (hother _ (h.holds_of_no_manifest hno).1)
    · rw [hmanifest]
      rfl
  unfold confirmedIdempotentResponse
  rw [Prog.eval_bind_ok hresolves, if_pos rfl, Prog.eval_bind_ok hread]
  cases hreceipt : s.receipt with
  | none =>
    refine ⟨s', ok, heval, hwith fun receipt hno => ?_⟩
    rw [hreceipt] at hno
    cases hno
  | some receipt =>
    by_cases hcommit : receipt.commit = m.commit
    · obtain ⟨verified, hverify, hverified⟩ := eval_verifyActiveArtifacts enc receipt s
      show ∃ s' ok, Prog.eval _ (if receipt.commit = m.commit then _ else _) s = (s', .ok ok) ∧ _
      rw [if_pos hcommit, Prog.eval_bind_ok hverify]
      cases verified with
      | true =>
        refine ⟨s, true, rfl, fun _ hstranded => ?_, fun _ => rfl⟩
        have hmode := (hverified.1 rfl).mode
        rw [hstranded.2] at hmode
        cases hmode
      | false =>
        refine ⟨s', ok, heval, ?_⟩
        by_cases hsame : receipt = g.manifest m.commit
        · subst hsame
          rw [hok]
          refine ⟨And.right, fun hstranded => ⟨?_, hstranded⟩⟩
          rcases h.manifest with hno | hmanifest
          · have hholds := (h.holds_of_no_manifest hno).2
            have hmode : ¬ s.launcherMode = true := fun hmode => by
              cases hverified.2 ⟨hholds, hmode⟩
            exact absurd ⟨hholds .launcher, eq_false_of_ne_true hmode⟩ hstranded
          · rw [hmanifest]
            rfl
        · refine hwith fun other hother => ?_
          rw [hreceipt] at hother
          exact Option.some.inj hother ▸ hsame
    · show ∃ s' ok, Prog.eval _ (if receipt.commit = m.commit then _ else _) s = (s', .ok ok) ∧ _
      rw [if_neg hcommit]
      refine ⟨s', ok, heval, hwith fun other hother => ?_⟩
      rw [hreceipt] at hother
      obtain rfl := Option.some.inj hother
      rintro rfl
      exact hcommit rfl

/-! ## When the next attempt succeeds -/

/-- A repeated confirmation takes a receipt that the artifacts match. -/
theorem Misled.confirms {m : RollbackState} (h : Misled g m.commit s) :
    (confirmedIdempotentResponse enc m).eval (sem · (clear [])) s = (s, .ok true) := by
  obtain ⟨receipt, hreceipt, hcommit, hpromoted, -⟩ := h
  have hresolves : (resolvesBinHome : Code H Bool).eval (sem · (clear [])) s = (s, .ok true) := rfl
  have hread : readConfirmationReceipt.eval (sem · (clear [])) s = (s, .ok (some receipt)) := by
    rw [← Option.mem_def.1 hreceipt]
    rfl
  obtain ⟨verified, hverify, hverified⟩ := eval_verifyActiveArtifacts enc receipt s
  obtain rfl := hverified.2 hpromoted
  unfold confirmedIdempotentResponse
  rw [Prog.eval_bind_ok hresolves, if_pos rfl, Prog.eval_bind_ok hread]
  show Prog.eval _ (if receipt.commit = m.commit then _ else _) s = _
  rw [if_pos hcommit, Prog.eval_bind_ok hverify]
  rfl

omit [DecidableEq H] in
/-- What is evaluated is also the result of a run. -/
theorem run_of_eval {code : Code H Bool} (h : code.eval (sem · (clear [])) s = (s, .ok true)) :
    ∃ answers, code.run sem answers s = (s, .returned true) := by
  obtain ⟨n, hrun⟩ := Prog.run_steady sem code (clear []) s
  refine ⟨List.replicate n (clear []), ?_⟩
  rw [hrun n le_rfl, h]
  rfl

/-- **Promotion recovers from every interruption, but for the mode of the launcher.** After attempts
that were cut short anywhere, the next one succeeds exactly where the launcher was not written
without its mode, and where no earlier receipt for the commit takes the place of the manifest. -/
theorem recovers_iff (g : Generated enc) (m : RollbackState) (prior : Store H)
    (attempts : List (Attempt × List Answer)) :
    Recovers g m (reached enc m attempts (g.stage m.commit prior)) ↔
      ¬ Stranded g m.commit (reached enc m attempts (g.stage m.commit prior)) ∧
        ¬ Misled g m.commit (reached enc m attempts (g.stage m.commit prior)) := by
  have h : Underway g m.commit (reached enc m attempts (g.stage m.commit prior)) :=
    underway_reached m attempts (underway_stage prior)
  generalize reached enc m attempts (g.stage m.commit prior) = s at h ⊢
  obtain ⟨s', ok, hconfirm, hok⟩ := eval_confirmedIdempotentResponse h
  constructor
  · intro hrecovers
    refine ⟨fun hstranded => ?_, fun hmisled => ?_⟩
    · cases hmanifest : s.manifest with
      | none =>
        have hreceipt := (h.holds_of_no_manifest hmanifest).1
        have hdone := hrecovers.confirms (by rw [hreceipt]; rfl)
        rw [show (Attempt.code enc m .repeatConfirm).eval _ s = _ from hconfirm] at hdone
        obtain rfl := Except.ok.inj hdone
        exact hok.1 rfl hstranded
      | some manifest =>
        have hsame : s.manifest = some (g.manifest m.commit) :=
          h.manifest.resolve_left fun hno => by rw [hno] at hmanifest; cases hmanifest
        obtain ⟨promoted, hpromote, hpromoted⟩ := eval_promoteStagedArtifacts h hsame
        have hdone := hrecovers.promotes (by rw [hsame]; rfl)
        rw [show (Attempt.code enc m .promote).eval _ s = _ from hpromote] at hdone
        obtain rfl := Except.ok.inj hdone
        exact promoted_promoteAll_iff.1 (hpromoted.1 rfl) hstranded
    · obtain ⟨answers, hrun⟩ := run_of_eval hmisled.confirms
      have hsound := hrecovers.sound .repeatConfirm answers
      rw [show (Attempt.code enc m .repeatConfirm).run sem answers s = _ from hrun] at hsound
      obtain ⟨_, _, _, _, hother⟩ := hmisled
      exact hother (hsound rfl)
  · rintro ⟨hstranded, hmisled⟩
    refine ⟨fun hsome => ?_, fun _ => ?_, fun attempt answers hreturned => ?_⟩
    · have hsame : s.manifest = some (g.manifest m.commit) :=
        h.manifest.resolve_left fun hno => by rw [hno] at hsome; cases hsome
      obtain ⟨promoted, hpromote, hpromoted⟩ := eval_promoteStagedArtifacts h hsame
      obtain rfl := hpromoted.2 (promoted_promoteAll_iff.2 hstranded)
      rw [show (Attempt.code enc m .promote).eval _ s = _ from hpromote]
    · obtain rfl := hok.2 hstranded
      rw [show (Attempt.code enc m .repeatConfirm).eval _ s = _ from hconfirm]
    · have hdone := (promotes_attempt attempt h).sound (fun _ _ hs => hs.1) (fun _ _ hs => hs)
        answers
      exact ((hdone.2 true hreturned).2 rfl).resolve_right hmisled

end Attempts

/-! ## A crash behind the launcher's write -/

/-- A candidate of an empty contract. -/
def smallCandidate : Generated smallEncoding where
  contract := ()
  definition := ()
  launcher := emptyObject
  loads_contract := rfl
  loads_definition := rfl

/-- A promotion that stops before it makes the launcher executable. -/
def stoppedPromotion : Attempt × List Answer := (.promote, List.replicate 13 (clear []))

/-- No later promotion repairs the mode. -/
theorem launcher_mode_lost : ¬ ∀ attempts : List (Attempt × List Answer),
    Recovers smallCandidate supervisedMission
      (reached smallEncoding supervisedMission attempts
        (smallCandidate.stage supervisedMission.commit bareHost)) := by
  intro h
  have hrecovers := (h [stoppedPromotion]).promotes (by decide)
  have hfails : ((Attempt.code smallEncoding supervisedMission .promote).eval (sem · (clear []))
      (reached smallEncoding supervisedMission [stoppedPromotion]
        (smallCandidate.stage supervisedMission.commit bareHost))).2 = .ok false := rfl
  cases hfails.symm.trans hrecovers

end Lubko.Startup
