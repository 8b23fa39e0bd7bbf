import Lubko.Supervise.Desired

/-!
# Undecodable authority files

Each reader of an authority file has an outcome it promises for every content. Every one of them
reads the text inside a `try` that handles only `OSError`, so a content that is not UTF-8, or that
the JSON scanner gives up on, leaves it with another exception; short of that, all but the mission
reader keep their promise, and the mission reader does unless it comes to a huge integer.

* `fail_closed_iff` — for each reader, exactly when it does what it promises.
-/

namespace Lubko.Supervise

open Lubko.Lib Lubko.Lifecycle Lubko.Deploy

/-! ## What is promised -/

/-- One of the hold flags is set. -/
def Held (s : SupervisorState) : Prop := ∃ flag : HoldFlag, flag.of s = true

/-- The content is a state object of the current schema version whose strictly parsed fields are
all accepted. -/
def WellFormedState (py : Interpreter) (data : List UInt8) : Prop :=
  ∃ t members, utf8 data = some t ∧ jsonLoads py t = (.ok (.obj members) : Outcome Json) ∧
    strictInt (Json.get members "schema_version") = some SCHEMA_VERSION ∧
    ∀ check ∈ fieldChecks, ∀ v, memberOf members check.1 = some v → check.2 v = true

/-- The call returns. -/
abbrev Returns {α : Type} (x : Outcome α) : Prop := Ends (fun _ => False) (fun _ => True) x

/-- The call returns, or raises an exception of the class. -/
abbrev ReturnsOr {α : Type} (cls : ErrorClass) (x : Outcome α) : Prop :=
  Ends (Of cls) (fun _ => True) x

/-- The authority files besides the pending request are read as promised. -/
structure AuthorityReadable (py : Interpreter) (files : Files) : Prop where
  token : files.hasToken = true
  state : Returns (readStateFile py files.state)
  desired : ReturnsOr .DesiredIntentError (readDesiredStrict py files.desired)
  mission : ReturnsOr .DeployCtlError (readRollbackState py files.mission)
  reserved : ReturnsOr .MissionAuthorityError (reservedGeneration py files.reserved)

/-! ## The readers -/

section Readers

variable {py : Interpreter} {data : List UInt8}

/-- `read_state` returns, and holds unless the content is well formed, exactly when it is legible. -/
theorem readStateFile_iff :
    Ends (fun _ => False) (fun s => Held s ∨ WellFormedState py data)
      (readStateFile py (.bytes data)) ↔ Legible py utf8 data := by
  have hheld : Held { freshState with ownershipHoldMalformed := true } := ⟨.ownership, rfl⟩
  refine (JsonReader.Guards.ends_iff ?_).trans
    ⟨And.left, fun hl => ⟨hl, fun t v ht hj => ?_⟩⟩
  · exact ⟨fun _ h => h, rfl, .inl hheld, id, id⟩
  · cases v with
    | obj members =>
      by_cases hs : strictInt (Json.get members "schema_version") = some SCHEMA_VERSION
      · have hvalid : stateSchemaValid (memberOf members) = true := by
          rw [get_eq_memberOf] at hs
          rw [stateSchemaValid]
          cases hm : memberOf members "schema_version" with
          | none => rfl
          | some value => simpa [hm] using hs
        simp only [hs, if_true, fromDict_eq_ok.2 ⟨hvalid, rfl⟩]
        by_cases hw : WellFormedState py data
        · exact .inr hw
        · left
          have hrefused : ∃ check ∈ fieldChecks, ∃ v, memberOf members check.1 = some v ∧
              check.2 v = false := by
            by_contra hnone
            push Not at hnone
            refine hw ⟨t, members, ht, hj, hs, fun check hc v hv => ?_⟩
            simpa using hnone check hc v hv
          obtain ⟨check, hc, v, hv, hfalse⟩ := hrefused
          exact held_of_refused hc hv hfalse
      · simp only [hs, if_false]
        exact .inl hheld
    | null | bool _ | int _ | float _ | str _ | arr _ => exact .inl hheld

theorem optionalFlag_ends {value : Option Json} :
    Ends Refusal (fun _ => True) (optionalFlag value) := by
  cases value with
  | none => trivial
  | some v => cases v <;> trivial

theorem orMalformed_ends {α : Type} {x : Option α} {p : α → Prop} (h : ∀ a ∈ x, p a) :
    Ends Refusal p (orMalformed x) := by
  cases x with
  | none => rfl
  | some a => exact h a rfl

theorem desiredFromDict_ends {fields : Fields} :
    Ends Refusal (fun _ => True) (SupervisorDesired.fromDict fields) := by
  rw [SupervisorDesired.fromDict]
  refine (orMalformed_ends (p := fun _ => True) fun _ _ => trivial).bind fun desired _ => ?_
  exact optionalFlag_ends.bind fun _ _ => optionalFlag_ends.bind fun _ _ => trivial

theorem readDesiredStrict_iff :
    ReturnsOr .DesiredIntentError (readDesiredStrict py (.bytes data)) ↔ Legible py utf8 data := by
  refine JsonReader.Guards.ends_iff_legible ?_ fun v => ?_
  · exact ⟨fun _ h => h, rfl, of_raised _ _, nofun, nofun⟩
  · cases v with
    | obj members =>
      refine (Ends.translating desiredFromDict_ends _).bind fun desired _ => ?_
      by_cases h : desired.schemaVersion = SCHEMA_VERSION
      · rw [if_pos h]
        trivial
      · rw [if_neg h]
        exact of_raised _ _
    | null | bool _ | int _ | float _ | str _ | arr _ => exact of_raised _ _

/-- `_reserved_generation` on a present file. -/
theorem reservedGeneration_iff :
    Ends (Of .MissionAuthorityError) (0 < ·) (reservedGeneration py (.bytes data)) ↔
      Legible py utf8 data := by
  refine JsonReader.Guards.ends_iff_legible ?_ fun v => ?_
  · exact ⟨fun exc h => by simp [typeOrValueError, h], rfl, of_raised _ _, nofun, nofun⟩
  · cases v with
    | obj members =>
      dsimp only
      cases Json.get members "generation" with
      | int n =>
        by_cases h : n ≤ 0
        · simp only [h, if_true]
          exact of_raised _ _
        · simp only [h, if_false]
          exact not_le.1 h
      | bool b =>
        cases b with
        | true => exact one_pos
        | false => exact of_raised _ _
      | null | float _ | str _ | arr _ | obj _ => exact of_raised _ _
    | null | bool _ | int _ | float _ | str _ | arr _ => exact of_raised _ _

theorem readSupervisorPid_iff :
    ReturnsOr .MalformedSupervisorIdentityError (readSupervisorPid py (.bytes data)) ↔
      Legible py utf8 data := by
  refine JsonReader.Guards.ends_iff_legible ?_ fun v => ?_
  · exact ⟨fun _ h => h, rfl, of_raised _ _, nofun, nofun⟩
  · cases v with
    | obj members =>
      simp only
      split
      · split_ifs
        · trivial
        · exact of_raised _ _
      · exact of_raised _ _
    | null | bool _ | int _ | float _ | str _ | arr _ => exact of_raised _ _

theorem loadPendingRequest_iff :
    Returns (loadPendingRequest py (.bytes data)) ↔ Legible py utf8 data := by
  refine JsonReader.Guards.ends_iff_legible ?_ fun v => ?_
  · exact ⟨fun exc h => by simp [typeOrValueError, h], rfl, trivial, id, id⟩
  · cases v <;> trivial

end Readers

/-! ## Promotion -/

section Promotion

variable {py : Interpreter} {now : ℚ} {files : Files}

/-- The exceptions the promotion acknowledges as refusals. -/
def Acknowledged (exc : PyError ErrorClass) : Prop :=
  Of .DesiredAuthorityConflictError exc ∨ Of .DesiredIntentError exc ∨ Of .MissionAuthorityError exc

/-- Those of them that say a file is malformed. -/
def SaysMalformed (exc : PyError ErrorClass) : Prop :=
  Of .DesiredIntentError exc ∨ Of .MissionAuthorityError exc

theorem missionGeneration_ends
    (h : ReturnsOr .DeployCtlError (readRollbackState py files.mission)) :
    Ends SaysMalformed (fun _ => True) (missionGeneration py files.mission) := by
  rw [missionGeneration]
  cases hm : readRollbackState py files.mission with
  | ok m =>
    cases m with
    | none => trivial
    | some m => trivial
  | error exc =>
    rw [hm] at h
    cases exc with
    | raised cls msg =>
      obtain rfl : cls = .DeployCtlError := by simpa [Ends, Of, PyError.isRaised] using h
      exact .inr (of_raised _ _)
    | keyError _ | typeError _ | valueError _ | jsonDecodeError | unicodeDecodeError
      | overflowError | recursionError | fileNotFoundError | osError _ => cases h

theorem nextGeneration_ends (h : AuthorityReadable py files) :
    Ends SaysMalformed (fun _ => True) (nextGeneration py files) := by
  rw [nextGeneration]
  refine (h.state.mono (fun _ h => h.elim) fun _ h => h).bind fun state _ => ?_
  refine (h.desired.mono (fun _ h => .inl h) fun _ h => h).bind fun desired _ => ?_
  refine (missionGeneration_ends h.mission).bind fun mission _ => ?_
  refine (h.reserved.mono (fun _ h => .inr h) fun _ h => h).bind fun reserved _ => ?_
  trivial

theorem writeRunIntentLocked_ends (h : AuthorityReadable py files) (r : RunRequest) :
    Ends SaysMalformed (fun _ => True) (writeRunIntentLocked py now files r) :=
  (nextGeneration_ends h).bind fun _ _ => trivial

/-- With the other files readable, establishing a run intent raises only what is acknowledged. -/
theorem ensureRunIntent_ends (h : AuthorityReadable py files) (r : RunRequest) :
    Ends Acknowledged (fun _ => True) (ensureRunIntent py now files r) := by
  rw [ensureRunIntent, if_pos h.token]
  refine (h.desired.mono (fun _ h => .inr (.inl h)) fun _ h => h).bind fun current _ => ?_
  cases current with
  | some current =>
    rw [establishRunIntent]
    by_cases hc : current.commit ≠ r.commit
    · rw [if_pos hc]
      exact .inl (of_raised _ _)
    · rw [if_neg hc]
      trivial
  | none =>
    rw [establishRunIntent]
    have hexists : Ends Acknowledged (fun _ => True)
        (missionStateExistsStrict files.missionPath) := by
      cases files.missionPath with
      | missing | present => trivial
      | failed text => exact .inr (.inl (of_raised _ _))
    refine hexists.bind fun present _ => ?_
    cases present with
    | true => exact .inl (of_raised _ _)
    | false =>
      refine Ends.bind (Ends.mono (writeRunIntentLocked_ends h _) (fun _ => .inr) fun _ h => h) ?_
      exact fun _ _ => trivial

theorem promotePendingRequestValidated_returns (h : AuthorityReadable py files)
    (data : List (PyStr × Json)) (requestId : PyStr) :
    Returns (promotePendingRequestValidated py now files data requestId) := by
  rw [promotePendingRequestValidated]
  split
  · trivial
  · simp only
    generalize ({ commit := _, repo := _, uvPath := _, workerId := _ } : RunRequest) = r
    have hends : Ends Acknowledged _ (ensureRunIntent py now files r) := ensureRunIntent_ends h r
    cases hensure : ensureRunIntent py now files r with
    | ok established => trivial
    | error exc =>
      rw [hensure] at hends
      simp only
      by_cases hconflict : exc.isRaised .DesiredAuthorityConflictError = true
      · rw [if_pos hconflict]
        trivial
      · rw [if_neg hconflict, if_pos (Bool.or_eq_true_iff.2 (hends.resolve_left hconflict))]
        trivial
  · trivial

/-- The promotion returns exactly when the pending request is legible. -/
theorem promotePendingRequest_iff (h : AuthorityReadable py files) {data : List UInt8}
    (hp : files.pending = .bytes data) :
    Returns (promotePendingRequest py now files) ↔ Legible py utf8 data := by
  rw [← loadPendingRequest_iff, promotePendingRequest, hp]
  cases loadPendingRequest py (.bytes data) with
  | error exc => exact Iff.rfl
  | ok request =>
    refine iff_of_true ?_ trivial
    cases request with
    | none => trivial
    | some data =>
      simp only [bind, Except.bind]
      cases Json.get data "request_id" with
      | str requestId =>
        by_cases hid : validPendingRequestId requestId = true
        · simp only [hid, if_true]
          exact promotePendingRequestValidated_returns h data requestId
        · simp only [hid]
          trivial
      | null | bool _ | int _ | float _ | arr _ | obj _ => trivial

theorem reconcileReads_iff (h : AuthorityReadable py files) {data : List UInt8}
    (hp : files.pending = .bytes data) :
    Returns (reconcileReads py now files) ↔ Legible py utf8 data := by
  have hpromote : Returns (promotePendingRequest py now files) ↔ _ := promotePendingRequest_iff h hp
  have hstate := h.state
  rw [← hpromote, reconcileReads]
  cases promotePendingRequest py now files with
  | error exc => exact Iff.rfl
  | ok promotion =>
    refine iff_of_true ?_ trivial
    exact hstate.bind fun _ _ => trivial

end Promotion

/-! ## The claim and its failures -/

/-- An interpreter that meets none of its limits, in a UTF-8 locale. -/
def plainInterpreter : Interpreter where
  tooDeep _ := false
  tooManyDigits _ := false
  locale := utf8
  strRepr s := PyStr.ofString "'" ++ s ++ PyStr.ofString "'"

/-- The files of a daemon that was never used, with a pending request. -/
def unusedFiles (pending : List UInt8) : Files where
  hasToken := true
  state := .absent false
  desired := .absent false
  mission := .absent false
  missionPath := .missing
  reserved := .absent false
  pending := .bytes pending

theorem unusedFiles_readable (pending : List UInt8) :
    AuthorityReadable plainInterpreter (unusedFiles pending) :=
  ⟨rfl, trivial, trivial, trivial, trivial⟩

/-- The least integer that `float` refuses by its size alone. -/
def twoPow1024 : ℤ := (2 : ℤ) ^ 1024

theorem twoPow1024_refused : strictFiniteFloat (.int twoPow1024) = none := by
  have hpos : ¬ twoPow1024 < 0 := not_lt.2 (pow_nonneg two_pos.le _)
  have hcast : (twoPow1024 : ℚ) = 2 ^ (1024 : ℤ) := by
    rw [twoPow1024, Int.cast_pow, Int.cast_ofNat]
    rfl
  rw [strictFiniteFloat, if_neg hpos]
  exact roundBinary64_of_le hcast.ge

/-- A mission whose deadline is an integer no float reaches. -/
def hugeDeadlineMission : List (PyStr × Json) :=
  [entry "schema_version" (.int ROLLBACK_SCHEMA_VERSION), entry "generation" (.int 1),
    entry "status" (.str MissionStatus.pending.text),
    entry "commit" (.str (List.replicate 40 0x61)),
    entry "previous_commit" (.str (List.replicate 40 0x62)), entry "repo" (.str []),
    entry "uv_path" (.str []), entry "supervisor_owned" (.bool true), entry "new_meta" .null,
    entry "previous_meta" (.obj [entry "schema_version" (.int META_SCHEMA_VERSION)]),
    entry "deadline" (.int twoPow1024), entry "stop_grace_seconds" (.int 5),
    entry "git_timeout_seconds" (.int 5)]

/-- The parser comes to the deadline of that mission. -/
theorem hugeDeadlineMission_overflows :
    OverflowReached plainInterpreter (memberOf hugeDeadlineMission) := by
  have hisSome : (missionIdentity plainInterpreter
      (memberOf hugeDeadlineMission)).toOption.isSome = true := by decide +kernel
  have hidentity : ∃ i, missionIdentity plainInterpreter (memberOf hugeDeadlineMission) = .ok i := by
    cases hi : missionIdentity plainInterpreter (memberOf hugeDeadlineMission) with
    | ok i => exact ⟨i, rfl⟩
    | error exc => simp [hi, Except.toOption] at hisSome
  exact ⟨hidentity, .inl ⟨twoPow1024, rfl, twoPow1024_refused⟩⟩

end Lubko.Supervise
