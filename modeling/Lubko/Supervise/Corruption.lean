import Lubko.Supervise.Obligation

/-!
# Corruption never degrades to absence

Every field of `state.json` that `from_dict` reads with a strict parser, with what that parser
accepts; the hold that a value it refuses leaves behind; and the holds over any sequence of
read-replace-write steps, through either writer.

* `held_of_refused` — a refused value sets a hold.
* `run_keeps_flag` — a hold that was read stays.
* `corruption_holds` — both, and the round trip of every state that was read.
-/

namespace Lubko.Supervise

open Lubko.Lib

/-! ## What the parsers accept -/

/-- A nullable record: null, or a mapping its `from_dict` returns on. -/
def acceptsRecord {α : Type} (fromDict : Fields → Except PyStr α) : Json → Bool
  | .null => true
  | .obj members => (fromDict (memberOf members)).toOption.isSome
  | _ => false

/-- A boot identity: a non-empty string. -/
def acceptsBootIdentity : Json → Bool
  | .str s => !s.isEmpty
  | _ => false

/-- A hold flag: a boolean. -/
def acceptsFlag : Json → Bool
  | .bool _ => true
  | _ => false

/-- The strictly parsed fields of a state and what each parser accepts. -/
def fieldChecks : List (String × (Json → Bool)) :=
  [("applied_generation", fun v => (strictNonNegativeInt v).isSome),
    ("mode", fun v => (mode? v).isSome),
    ("commit", fun v => (unlessNull optionalString v).isSome),
    ("child", acceptsRecord childFromDict),
    ("unresolved_child", acceptsRecord UnresolvedChild.fromDict),
    ("spawning", acceptsRecord SpawningObligation.fromDict),
    ("intent", fun v => (intent? v).isSome),
    ("restart_count", fun v => (strictNonNegativeInt v).isSome),
    ("next_attempt_at", fun v => (unlessNull strictFiniteFloat v).isSome),
    ("last_spawn_at", fun v => (unlessNull strictNonNegativeFiniteFloat v).isSome),
    ("next_readiness_at", fun v => (unlessNull strictNonNegativeFiniteFloat v).isSome),
    ("boot_id", acceptsBootIdentity),
    ("ownership_hold_malformed", acceptsFlag),
    ("unresolved_hold_malformed", acceptsFlag),
    ("spawning_hold_malformed", acceptsFlag)]

/-- One of the three hold flags. -/
inductive HoldFlag where
  | ownership
  | unresolved
  | spawning
  deriving DecidableEq

/-- The flag of a state. -/
def HoldFlag.of : HoldFlag → SupervisorState → Bool
  | .ownership => SupervisorState.ownershipHoldMalformed
  | .unresolved => SupervisorState.unresolvedHoldMalformed
  | .spawning => SupervisorState.spawningHoldMalformed

/-- The field a flag is stored in. -/
def HoldFlag.key : HoldFlag → String
  | .ownership => "ownership_hold_malformed"
  | .unresolved => "unresolved_hold_malformed"
  | .spawning => "spawning_hold_malformed"

section Refused

variable {data : Fields} {v : Json}

theorem fieldsGet_of_some {key : String} (h : data key = some v) : data.get key = v := by
  rw [Fields.get, h, Option.getD_some]

theorem parseOptionalRecord_refused {α : Type} {fromDict : Fields → Except PyStr α}
    (h : acceptsRecord fromDict v = false) : (parseOptionalRecord fromDict v).2 = true := by
  cases v with
  | null => cases h
  | obj members =>
    rw [acceptsRecord] at h
    rw [parseOptionalRecord]
    cases hd : fromDict (memberOf members) with
    | ok a => simp [hd, Except.toOption] at h
    | error e => rfl
  | bool _ | int _ | float _ | str _ | arr _ => rfl

theorem parsePresentStrict_refused {key : String} (hv : data key = some v)
    (h : (strictNonNegativeInt v).isSome = false) : (parsePresentStrict data key).2 = true := by
  rw [parsePresentStrict, hv]
  simpa using h

theorem ne_null_of_refused {α : Type} {parse : Json → Option α}
    (h : (unlessNull parse v).isSome = false) : v ≠ .null ∧ parse v = none := by
  by_cases hv : v = .null
  · rw [hv, unlessNull] at h
    cases h
  · rw [unlessNull_of_ne hv] at h
    exact ⟨hv, by simpa using h⟩

theorem parsePresentNullableFloat_of_ne {key : String} (hv : data key = some v) (hne : v ≠ .null) :
    parsePresentNullableFloat data key = (strictFiniteFloat v, (strictFiniteFloat v).isNone) := by
  rw [parsePresentNullableFloat, fieldsGet_of_some hv]
  cases v with
  | null => exact absurd rfl hne
  | bool _ | int _ | float _ | str _ | arr _ | obj _ => rfl

theorem parsePresentNullableFloat_refused {key : String} (hv : data key = some v)
    (h : (unlessNull strictFiniteFloat v).isSome = false) :
    (parsePresentNullableFloat data key).2 = true := by
  obtain ⟨hne, hnone⟩ := ne_null_of_refused h
  rw [parsePresentNullableFloat_of_ne hv hne, hnone]
  rfl

theorem parsePresentNullableMonotonicFloat_refused {key : String} (hv : data key = some v)
    (h : (unlessNull strictNonNegativeFiniteFloat v).isSome = false) :
    (parsePresentNullableMonotonicFloat data key).2 = true := by
  obtain ⟨hne, hnone⟩ := ne_null_of_refused h
  rw [parsePresentNullableMonotonicFloat, parsePresentNullableFloat_of_ne hv hne]
  cases hf : strictFiniteFloat v with
  | none => rfl
  | some x =>
    have hneg : ¬ 0 ≤ x := by
      intro hpos
      cases hnone.symm.trans (strictNonNegativeFiniteFloat_eq_some.2 ⟨hf, hpos⟩)
    show (if 0 ≤ x then (some x, false) else (none, true)).2 = true
    rw [if_neg hneg]

theorem strictSafetyHold_refused {key : String} (hv : data key = some v)
    (h : acceptsFlag v = false) : strictSafetyHold data key = true := by
  rw [strictSafetyHold, hv]
  cases v with
  | bool _ => cases h
  | null | int _ | float _ | str _ | arr _ | obj _ => rfl

theorem parsePresentBootIdentity_refused {key : String} (hv : data key = some v)
    (h : acceptsBootIdentity v = false) : (parsePresentBootIdentity data key).2 = true := by
  rw [parsePresentBootIdentity, hv]
  cases v with
  | str s =>
    have hs : s.isEmpty = true := by simpa [acceptsBootIdentity] using h
    show (if s.isEmpty then (none, true) else (some s, false)).2 = true
    rw [if_pos hs]
  | null | bool _ | int _ | float _ | arr _ | obj _ => rfl

/-- **A refused value sets a hold.** -/
theorem held_of_refused {check : String × (Json → Bool)} (hcheck : check ∈ fieldChecks)
    (hv : data check.1 = some v) (h : check.2 v = false) :
    ∃ flag : HoldFlag, flag.of (.ofFields data) = true := by
  simp only [fieldChecks, List.mem_cons, List.not_mem_nil, or_false] at hcheck
  rcases hcheck with rfl | rfl | rfl | rfl | rfl | rfl | rfl | rfl | rfl | rfl | rfl | rfl | rfl |
    rfl | rfl
  · exact ⟨.ownership, by
      simp [HoldFlag.of, SupervisorState.ofFields, parsePresentStrict_refused hv h]⟩
  · have hmode : stateStringsMalformed data = true := by
      have hnone : mode? v = none := by simpa using h
      simp [stateStringsMalformed, hv, hnone]
    exact ⟨.ownership, by simp [HoldFlag.of, SupervisorState.ofFields, hmode]⟩
  · have hcommit : stateStringsMalformed data = true := by
      have hnone : unlessNull optionalString v = none := by simpa using h
      simp [stateStringsMalformed, fieldsGet_of_some hv, hnone]
    exact ⟨.ownership, by simp [HoldFlag.of, SupervisorState.ofFields, hcommit]⟩
  · have hchild : (parseOptionalChild data).2 = true := by
      rw [parseOptionalChild, fieldsGet_of_some hv]
      exact parseOptionalRecord_refused h
    exact ⟨.ownership, by simp [HoldFlag.of, SupervisorState.ofFields, hchild]⟩
  · have hchild : (parseOptionalUnresolvedChild data).2 = true := by
      rw [parseOptionalUnresolvedChild, fieldsGet_of_some hv]
      exact parseOptionalRecord_refused h
    exact ⟨.unresolved, by simp [HoldFlag.of, SupervisorState.ofFields, hchild]⟩
  · have hspawning : (parseOptionalSpawning data).2 = true := by
      rw [parseOptionalSpawning, fieldsGet_of_some hv]
      exact parseOptionalRecord_refused h
    exact ⟨.spawning, by simp [HoldFlag.of, SupervisorState.ofFields, hspawning]⟩
  · have hintent : stateStringsMalformed data = true := by
      have hnone : intent? v = none := by simpa using h
      simp [stateStringsMalformed, hv, hnone]
    exact ⟨.ownership, by simp [HoldFlag.of, SupervisorState.ofFields, hintent]⟩
  · exact ⟨.ownership, by
      simp [HoldFlag.of, SupervisorState.ofFields, parsePresentStrict_refused hv h]⟩
  · exact ⟨.ownership, by
      simp [HoldFlag.of, SupervisorState.ofFields, parsePresentNullableFloat_refused hv h]⟩
  · exact ⟨.ownership, by
      simp [HoldFlag.of, SupervisorState.ofFields,
        parsePresentNullableMonotonicFloat_refused hv h]⟩
  · exact ⟨.ownership, by
      simp [HoldFlag.of, SupervisorState.ofFields,
        parsePresentNullableMonotonicFloat_refused hv h]⟩
  · exact ⟨.ownership, by
      simp [HoldFlag.of, SupervisorState.ofFields, parsePresentBootIdentity_refused hv h]⟩
  · exact ⟨.ownership, by
      simp [HoldFlag.of, SupervisorState.ofFields, strictSafetyHold_refused hv h]⟩
  · exact ⟨.unresolved, by
      simp [HoldFlag.of, SupervisorState.ofFields, strictSafetyHold_refused hv h]⟩
  · exact ⟨.spawning, by
      simp [HoldFlag.of, SupervisorState.ofFields, strictSafetyHold_refused hv h]⟩

end Refused

/-! ## Holds over rewrites -/

/-- One rewrite of the state file: `read_state`, a replacement of fields, and one of the writers. -/
structure Rewrite where
  replacement : SupervisorState → SupervisorState
  preserving : Bool
  locked : Bool
  confirmed : Bool

/-- The replacement changes no hold flag, and not the schema version. -/
def Rewrite.KeepsHolds (r : Rewrite) : Prop :=
  ∀ s, (r.replacement s).schemaVersion = s.schemaVersion ∧
    ∀ flag : HoldFlag, flag.of (r.replacement s) = flag.of s

section Rewrites

variable (floatRepr : ℚ → List Char)

/-- What a rewrite publishes. -/
def Rewrite.publish (r : Rewrite) (file : FileContent) : Except PyStr FileContent := do
  let s ← readState file
  if r.preserving then
    writeStatePreservingAuthority floatRepr (r.replacement s)
      { locked := r.locked, current := file, confirmed := r.confirmed }
  else writeState floatRepr (r.replacement s) r.confirmed

/-- The file after a rewrite; one that raises leaves it. -/
def Rewrite.step (r : Rewrite) (file : FileContent) : FileContent :=
  match r.publish floatRepr file with
  | .ok published => published
  | .error _ => file

/-- The file after a sequence of rewrites. -/
def rewriteAll (rewrites : List Rewrite) (file : FileContent) : FileContent :=
  rewrites.foldl (fun file r => r.step floatRepr file) file

variable {floatRepr}

/-- A flag that is written as set is read as set. -/
theorem flag_fileText (hliteral : ∀ x, FloatLiteral (floatRepr x)) {s : SupervisorState}
    (hschema : s.schemaVersion = SCHEMA_VERSION) {flag : HoldFlag} (h : flag.of s = true) :
    ∃ m, readState (.text (s.fileText floatRepr)) = .ok m ∧ m.schemaVersion = SCHEMA_VERSION ∧
      flag.of m = true := by
  have hfloats : s.FloatsSatisfy fun x => FloatLiteral (floatRepr x) :=
    SupervisorState.floatsSatisfy_of_mem fun x _ => hliteral x
  refine ⟨_, readState_fileText_fields hschema hfloats, rfl, ?_⟩
  have hread : ∀ (key : String) (b : Bool),
      received Json.readBack (s.toDict floatRepr) key = some (Json.bool b).readBack →
        strictSafetyHold (received Json.readBack (s.toDict floatRepr)) key = b :=
    fun key b hkey => strictSafetyHold_received transparent_readBack hkey
  cases flag with
  | ownership =>
    have hflag := hread "ownership_hold_malformed" s.ownershipHoldMalformed rfl
    have hset : s.ownershipHoldMalformed = true := h
    simp [HoldFlag.of, SupervisorState.ofFields, hflag, hset]
  | unresolved =>
    have hflag := hread "unresolved_hold_malformed" s.unresolvedHoldMalformed rfl
    have hset : s.unresolvedHoldMalformed = true := h
    simp [HoldFlag.of, SupervisorState.ofFields, hflag, hset]
  | spawning =>
    have hflag := hread "spawning_hold_malformed" s.spawningHoldMalformed rfl
    have hset : s.spawningHoldMalformed = true := h
    simp [HoldFlag.of, SupervisorState.ofFields, hflag, hset]

/-- One rewrite keeps a flag. -/
theorem step_keeps_flag (hliteral : ∀ x, FloatLiteral (floatRepr x)) {r : Rewrite}
    (hr : r.KeepsHolds) {file : FileContent} {flag : HoldFlag} {s : SupervisorState}
    (h : readState file = .ok s) (hflag : flag.of s = true) :
    ∃ m, readState (r.step floatRepr file) = .ok m ∧ flag.of m = true := by
  have hschema : (r.replacement s).schemaVersion = SCHEMA_VERSION :=
    (hr s).1.trans (readState_valid h).schema
  have hreplaced : flag.of (r.replacement s) = true := ((hr s).2 flag).trans hflag
  rw [Rewrite.step]
  cases hp : r.publish floatRepr file with
  | error e => exact ⟨s, h, hflag⟩
  | ok published =>
    dsimp only
    simp only [Rewrite.publish, except_bind_eq_ok, h, Except.ok.injEq, exists_eq_left'] at hp
    split_ifs at hp with hpreserving
    · obtain ⟨-, -, current, hcurrent, rfl⟩ := writeStatePreservingAuthority_eq_ok.1 hp
      obtain rfl := Except.ok.inj (h.symm.trans hcurrent)
      have hmerged : flag.of (preserveAuthority (r.replacement s) s) = true := by
        cases flag with
        | ownership => exact hflag
        | unresolved => exact hflag
        | spawning => exact hflag
      have hkept : (preserveAuthority (r.replacement s) s).schemaVersion = SCHEMA_VERSION := hschema
      obtain ⟨m, hm, -, hset⟩ := flag_fileText hliteral hkept hmerged
      exact ⟨m, hm, hset⟩
    · obtain ⟨-, rfl⟩ := writeState_eq_ok.1 hp
      obtain ⟨m, hm, -, hset⟩ := flag_fileText hliteral hschema hreplaced
      exact ⟨m, hm, hset⟩

/-- **A hold that was read stays** through every sequence of rewrites. -/
theorem run_keeps_flag (hliteral : ∀ x, FloatLiteral (floatRepr x)) {rewrites : List Rewrite}
    (hr : ∀ r ∈ rewrites, r.KeepsHolds) {file : FileContent} {flag : HoldFlag} {s : SupervisorState}
    (h : readState file = .ok s) (hflag : flag.of s = true) :
    ∃ m, readState (rewriteAll floatRepr rewrites file) = .ok m ∧ flag.of m = true := by
  induction rewrites generalizing file s with
  | nil => exact ⟨s, h, hflag⟩
  | cons r rs ih =>
    rw [List.forall_mem_cons] at hr
    obtain ⟨m, hm, hset⟩ := step_keeps_flag hliteral hr.1 h hflag
    exact ih hr.2 hm hset

end Rewrites

/-! ## The law -/

/-- **Corruption never degrades to absence.** A value that the parser of its field refuses leaves one
of the three holds set; a hold that was read stays set through every sequence of `read_state`, a
replacement of other fields and either writer; and a state that was read from a mapping is read back
from its own mapping. -/
theorem corruption_holds (floatRepr : ℚ → List Char) :
    (∀ (members : List (PyStr × Json)) (s : SupervisorState),
      SupervisorState.fromDict (memberOf members) = .ok s → ∀ check ∈ fieldChecks, ∀ v,
        memberOf members check.1 = some v → check.2 v = false → ∃ flag : HoldFlag, flag.of s = true) ∧
    ((∀ x, FloatLiteral (floatRepr x)) → ∀ (rewrites : List Rewrite) (file : FileContent)
      (flag : HoldFlag) (s : SupervisorState), (∀ r ∈ rewrites, r.KeepsHolds) →
        readState file = .ok s → flag.of s = true →
          ∃ m, readState (rewriteAll floatRepr rewrites file) = .ok m ∧ flag.of m = true) ∧
    ∀ (members : List (PyStr × Json)) (s : SupervisorState),
      SupervisorState.fromDict (memberOf members) = .ok s →
        (∀ x ∈ s.floats, ReadsBack floatRepr x) →
          SupervisorState.fromDict (memberOf (s.toDict floatRepr)) = .ok s := by
  refine ⟨?_, ?_, ?_⟩
  · intro members s h check hcheck v hv hrefused
    obtain ⟨-, rfl⟩ := fromDict_eq_ok.1 h
    exact held_of_refused hcheck hv hrefused
  · intro hliteral rewrites file flag s hr h hflag
    exact run_keeps_flag hliteral hr h hflag
  · intro members s h hfloats
    obtain ⟨-, rfl⟩ := fromDict_eq_ok.1 h
    have hvalid : (SupervisorState.ofFields (memberOf members)).Valid fun _ => True :=
      SupervisorState.ofFields_valid (fun _ _ => trivial)
        fun _ _ _ => ⟨fun _ _ => trivial, fun _ _ _ _ _ => trivial⟩
    have hself : received id ((SupervisorState.ofFields (memberOf members)).toDict floatRepr) =
        memberOf ((SupervisorState.ofFields (memberOf members)).toDict floatRepr) := by
      funext k
      exact Option.map_id'
    have hback := SupervisorState.ofFields_toDict transparent_id hvalid
      (SupervisorState.floatsSatisfy_of_mem hfloats)
    rw [hself] at hback
    exact fromDict_eq_ok.2 ⟨rfl, hback.symm⟩

/-- A state file whose mode is a number. -/
def numberedMode : List (PyStr × Json) :=
  [entry "schema_version" (.int 1), entry "mode" (.int 3), entry "spawning" (.bool true)]

/-- The law on that file: held, still held after both writers, and read back. -/
theorem corruption_holds_numberedMode :
    (∃ flag : HoldFlag, flag.of (.ofFields (memberOf numberedMode)) = true) ∧
    (∃ m, readState (rewriteAll zeroRepr [⟨fun s => { s with ready := true }, true, true, true⟩,
        ⟨fun s => { s with restartCount := 2 }, false, true, true⟩] .unreadable) = .ok m ∧
      HoldFlag.ownership.of m = true) ∧
    SupervisorState.fromDict (memberOf
      ((SupervisorState.ofFields (memberOf numberedMode)).toDict zeroRepr)) =
        .ok (.ofFields (memberOf numberedMode)) := by
  have hparse : SupervisorState.fromDict (memberOf numberedMode) =
      .ok (.ofFields (memberOf numberedMode)) := fromDict_eq_ok.2 ⟨by decide, rfl⟩
  refine ⟨?_, ?_, ?_⟩
  · exact (corruption_holds zeroRepr).1 numberedMode _ hparse
      ("mode", fun v => (mode? v).isSome) (by simp [fieldChecks]) (.int 3) rfl rfl
  · refine (corruption_holds zeroRepr).2.1 (fun _ => readsBack_zero.literal) _ _ .ownership _ ?_ rfl
      rfl
    intro r hr
    simp only [List.mem_cons, List.not_mem_nil, or_false] at hr
    rcases hr with rfl | rfl
    · exact fun s => ⟨rfl, fun flag => by cases flag <;> rfl⟩
    · exact fun s => ⟨rfl, fun flag => by cases flag <;> rfl⟩
  · exact (corruption_holds zeroRepr).2.2 numberedMode _ hparse nofun

end Lubko.Supervise
