import Lubko.Deploy.Prepare
import Lubko.Lib.Rounding
import Lubko.Supervise.FailClosed

/-!
# The mission file is read back

What `read_rollback_state` returns for a mission the controller wrote. The writer takes its numbers
from the command line, where `_build_options` bounds only the confirmation window, and replaces the
status without looking at the restart record; the parser asks for positive finite numbers and for a
pending mission behind every restart record.

* `readRollbackState_fileBytes` — when a valid mission is read back, and as what.
* `mission_read_back_iff` — the missions the controller writes that are read back.
* `encodable_iff_options` — which options those are, for a mission that was just prepared.
-/

namespace Lubko.Deploy

open Lubko.Lib Lubko.Supervise Lubko.Lifecycle

/-! ## The file -/

/-- The text `_write_state` leaves in `rollback.json`. -/
def RollbackState.fileText (floatRepr : ℚ → List Char) (s : RollbackState) : List Char :=
  dumps (Json.obj (s.toDict floatRepr)).sortKeys ++ ['\n']

/-- The bytes of the file. -/
def RollbackState.fileBytes (floatRepr : ℚ → List Char) (s : RollbackState) : List UInt8 :=
  utf8Encode (s.fileText floatRepr)

/-- The rational a finite float stands for. -/
def PyFloat.value? : PyFloat → Option ℚ
  | .finite q => some q
  | _ => none

/-- The finite floats of a mission. -/
def RollbackState.floats (s : RollbackState) : List ℚ :=
  [s.deadline, s.stopGraceSeconds, s.gitTimeoutSeconds].filterMap PyFloat.value? ++
    (s.previousMeta :: (s.newMeta.toList ++ s.previousRestartMeta.toList)).flatMap WorkerMeta.floats

/-- `meta.json` contents whose mapping is the wire descriptor of a supervisor-owned candidate. -/
def wireDescriptorMeta (commit repo : PyStr) : WorkerMeta where
  schemaVersion := META_SCHEMA_VERSION
  state := .stopped
  pid := none
  pgid := none
  sid := none
  startTimeTicks := none
  token := none
  repo := repo
  gitCommit := some commit
  workerId := none
  logPath := []
  startedAt := none
  stoppedAt := none

/-- The missions whose file the parser accepts. -/
structure RollbackState.Encodable (s : RollbackState) : Prop where
  deadline : s.deadline.NonNegative
  stopGraceSeconds : s.stopGraceSeconds.Positive
  gitTimeoutSeconds : s.gitTimeoutSeconds.Positive
  restart : s.previousRestartMeta.isSome = true → s.status = .pending
  candidate : s.supervisorOwned ≠ some true →
    s.newMeta ≠ some (wireDescriptorMeta s.commit s.repo)

/-- The mission that is read: the candidate of a supervisor-owned one is not in the file. -/
def RollbackState.restored (s : RollbackState) : RollbackState :=
  { s with newMeta := if s.supervisorOwned = some true then none else s.newMeta }

/-- The version in the file: the wire version of a supervisor-owned mission is older. -/
def RollbackState.wireVersion (s : RollbackState) : ℤ :=
  if s.supervisorOwned = some true then SUPERVISOR_ROLLBACK_WIRE_SCHEMA_VERSION else s.schemaVersion

/-- The mission as it is parsed, before its version is pinned. -/
def RollbackState.parsed (s : RollbackState) : RollbackState :=
  { s.restored with schemaVersion := s.wireVersion }

/-! ## Numbers -/

section Numbers

variable {floatRepr : ℚ → List Char} {x : PyFloat}
  (hx : ∀ q, x = .finite q → ReadsBack floatRepr q)

include hx

theorem PyFloat.floatLiteral : FloatLiteral (x.literal floatRepr) := by
  cases x with
  | finite q => exact (hx q rfl).literal
  | infinite negative =>
    cases negative with
    | false => exact floatLiteral_infinity
    | true => exact floatLiteral_negInfinity
  | nan => exact floatLiteral_nan

theorem strictFiniteFloat_literal : strictFiniteFloat (.float (x.literal floatRepr)) = x.value? := by
  cases x with
  | finite q => exact (hx q rfl).value
  | infinite negative => cases negative <;> rfl
  | nan => rfl

/-- A number is read when it is finite and in the domain. -/
theorem requiredNumber_received (refused : ℚ → Bool) {data : Fields} {key : String} {q : ℚ}
    (hdata : data key = some (.float (x.literal floatRepr))) :
    required data key >>= requiredNumber refused = .ok q ↔ x = .finite q ∧ refused q = false := by
  have hvalue : x.value? = some q ↔ x = .finite q := by
    cases x <;> simp [PyFloat.value?]
  rw [except_bind_eq_ok, ← hvalue, ← strictFiniteFloat_literal hx]
  constructor
  · rintro ⟨v, hv, hq⟩
    obtain rfl := Option.some.inj ((required_eq_ok.1 hv).symm.trans hdata)
    obtain ⟨p, hp, hq⟩ := except_bind_eq_ok.1 hq
    split_ifs at hq with hr
    obtain rfl := Except.ok.inj hq
    rw [requiredFiniteJsonNumber] at hp
    split at hp
    · rename_i p' hfinite
      obtain rfl := Except.ok.inj hp
      exact ⟨hfinite, by simpa using hr⟩
    · cases hp
  · rintro ⟨hfinite, hr⟩
    refine ⟨_, required_eq_ok.2 hdata, except_bind_eq_ok.2 ⟨q, ?_, ?_⟩⟩
    · rw [requiredFiniteJsonNumber, hfinite]
    · rw [hr]
      rfl

end Numbers

/-! ## The wire descriptor -/

section Descriptor

variable {commit repo : PyStr}

theorem wireDescriptorMeta_toDict (floatRepr : ℚ → List Char) (commit repo : PyStr) :
    (wireDescriptorMeta commit repo).toDict floatRepr =
      supervisorCandidateWireDescriptor commit repo := rfl

theorem wellKeyed_wireDescriptor (commit repo : PyStr) :
    WellKeyed (supervisorCandidateWireDescriptor commit repo) :=
  wellKeyed_metaToDict (fun _ => []) (wireDescriptorMeta commit repo)

/-- The values of a descriptor. -/
inductive PlainLiteral : Json → Prop
  | null : PlainLiteral .null
  | int (n : ℤ) : PlainLiteral (.int n)
  | str {s : PyStr} (hs : Joined s) : PlainLiteral (.str s)

/-- A literal equals itself behind the file. -/
theorem eqLiteral_readBack {v : Json} (hv : PlainLiteral v) : eqLiteral v v.readBack = true := by
  cases hv with
  | null => rfl
  | int n =>
    rw [transparent_readBack.int]
    simp [eqLiteral, Json.eqInt]
  | str hs =>
    rw [transparent_readBack.str _ hs]
    simp [eqLiteral, Json.eqStr]

/-- The descriptor that was written is recognised. -/
theorem eqMapping_wireDescriptor (hcommit : Joined commit) (hrepo : Joined repo)
    {d : List (PyStr × Json)}
    (hd : memberOf d = received Json.readBack (supervisorCandidateWireDescriptor commit repo))
    (hlength : d.length = (supervisorCandidateWireDescriptor commit repo).length) :
    eqMapping (supervisorCandidateWireDescriptor commit repo) d = true := by
  have hliteral : ∀ kv ∈ supervisorCandidateWireDescriptor commit repo, PlainLiteral kv.2 := by
    simp only [supervisorCandidateWireDescriptor, List.forall_mem_cons, entry]
    exact ⟨.int _, .str rfl, .null, .null, .null, .null, .null, .str hrepo, .str hcommit, .null,
      .str rfl, .null, .null, List.forall_mem_nil _⟩
  rw [eqMapping, Bool.and_eq_true, decide_eq_true_eq, List.all_eq_true]
  refine ⟨hlength, fun kv hkv => ?_⟩
  have hmember := (memberOf_eq_some (wellKeyed_wireDescriptor commit repo).1).2 hkv
  rw [hd, received, hmember]
  exact eqLiteral_readBack (hliteral kv hkv)

theorem eqLiteral_null {v : Json} : eqLiteral .null v = true ↔ v = .null := by
  cases v <;> simp [eqLiteral]

/-- A nullable field that is compared with null. -/
theorem none_of_eqLiteral {α : Type} {g : α → Json} {x : Option α} (hg : ∀ a, g a ≠ .null)
    (hread : (orNull g x).readBack = orNull g x)
    (h : (some (orNull g x).readBack).any (eqLiteral .null) = true) : x = none := by
  rw [hread] at h
  cases x with
  | none => rfl
  | some a => exact absurd (eqLiteral_null.1 h) (hg a)

/-- A text field that is compared with a text. -/
theorem eq_of_eqLiteral_str {s t : PyStr} (hs : Joined s)
    (h : (some (Json.str s).readBack).any (eqLiteral (.str t)) = true) : s = t := by
  rw [transparent_readBack.str s hs] at h
  simpa [eqLiteral, Json.eqStr] using h

/-- A nullable text field that is compared with a text. -/
theorem eq_some_of_eqLiteral_str {x : Option PyStr} {t : PyStr} (hx : ∀ s ∈ x, Joined s)
    (h : (some (orNull .str x).readBack).any (eqLiteral (.str t)) = true) : x = some t := by
  cases x with
  | none =>
    rw [orNull, transparent_readBack.null] at h
    cases h
  | some s => exact congrArg some (eq_of_eqLiteral_str (hx s rfl) h)

/-- Only the record of the descriptor is taken for it. -/
theorem eqMapping_wireDescriptor_iff {floatRepr : ℚ → List Char} {m : WorkerMeta}
    (hcommit : Joined commit) (hrepo : Joined repo) (hv : m.Valid Joined)
    {d : List (PyStr × Json)}
    (hd : memberOf d = received Json.readBack (m.toDict floatRepr))
    (hlength : d.length = (m.toDict floatRepr).length) :
    eqMapping (supervisorCandidateWireDescriptor commit repo) d = true ↔
      m = wireDescriptorMeta commit repo := by
  constructor
  · intro h
    rw [eqMapping, Bool.and_eq_true] at h
    have hall := h.2
    simp only [supervisorCandidateWireDescriptor, entry, List.all_cons, List.all_nil,
      Bool.and_eq_true, Bool.and_true, hd] at hall
    obtain ⟨-, hstate, hpid, hpgid, hsid, hticks, htoken, hrepo', hcommit', hworker, hlog,
      hstarted, hstopped⟩ := hall
    have hfile := transparent_readBack
    have hstate : m.state.text = WorkerState.stopped.text :=
      eq_of_eqLiteral_str (by cases m.state <;> rfl) hstate
    have hstate : m.state = .stopped := by
      have hsome := workerState?_text m.state
      rw [hstate] at hsome
      exact (Option.some.inj hsome).symm
    have hpid := none_of_eqLiteral (fun _ h => by cases h) (hfile.orNull_int m.pid) hpid
    have hpgid := none_of_eqLiteral (fun _ h => by cases h) (hfile.orNull_int m.pgid) hpgid
    have hsid := none_of_eqLiteral (fun _ h => by cases h) (hfile.orNull_int m.sid) hsid
    have hticks := none_of_eqLiteral (fun _ h => by cases h) (hfile.orNull_int m.startTimeTicks) hticks
    have htoken := none_of_eqLiteral (fun _ h => by cases h) (hfile.orNull_str hv.tokenText) htoken
    have hrepo' := eq_of_eqLiteral_str hv.repoText hrepo'
    have hworker := none_of_eqLiteral (fun _ h => by cases h) (hfile.orNull_str hv.workerText) hworker
    have hlog := eq_of_eqLiteral_str hv.logText hlog
    have hstarted := none_of_eqLiteral (fun _ h => by cases h) (hfile.orNull_float floatRepr m.startedAt) hstarted
    have hstopped := none_of_eqLiteral (fun _ h => by cases h) (hfile.orNull_float floatRepr m.stoppedAt) hstopped
    have hcommit' := eq_some_of_eqLiteral_str hv.commitText hcommit'
    calc m = ⟨m.schemaVersion, m.state, m.pid, m.pgid, m.sid, m.startTimeTicks, m.token, m.repo,
          m.gitCommit, m.workerId, m.logPath, m.startedAt, m.stoppedAt⟩ := rfl
      _ = wireDescriptorMeta commit repo := by
        rw [hv.schema, hstate, hpid, hpgid, hsid, hticks, htoken, hrepo', hcommit', hworker, hlog,
          hstarted, hstopped]
        rfl
  · rintro rfl
    exact eqMapping_wireDescriptor hcommit hrepo hd hlength

end Descriptor

/-! ## The parts of the mission -/

theorem wellKeyed_missionToDict (floatRepr : ℚ → List Char) (s : RollbackState) :
    WellKeyed (s.toDict floatRepr) :=
  .of_keys (show _ = (["schema_version", "generation", "status", "commit", "previous_commit",
    "deadline", "repo", "uv_path", "stop_grace_seconds", "git_timeout_seconds", "previous_retiring",
    "previous_meta", "new_meta", "supervisor_owned", "previous_restart_meta",
    "previous_restart_released"] : List String).map PyStr.ofString from rfl) (by decide)

theorem missionStatus?_text (status : MissionStatus) : missionStatus? status.text = some status := by
  cases status <;> rfl

section Parts

variable {py : Interpreter} {floatRepr : ℚ → List Char} {s : RollbackState}

variable (py) in
/-- A record behind the file. -/
theorem fromDict_readBack {m : WorkerMeta} (hv : m.Valid Joined)
    (hx : ∀ x ∈ m.floats, ReadsBack floatRepr x) :
    ∃ d, (Json.obj (m.toDict floatRepr)).readBack = .obj d ∧
      memberOf d = received Json.readBack (m.toDict floatRepr) ∧
        d.length = (m.toDict floatRepr).length ∧
          WorkerMeta.fromDict py (memberOf d) = .ok m := by
  obtain ⟨d, hd, hmembers, hlength⟩ := readBack_obj_length (wellKeyed_metaToDict floatRepr m)
  refine ⟨d, hd, hmembers, hlength, ?_⟩
  rw [hmembers]
  exact WorkerMeta.fromDict_toDict transparent_readBack hv hx

theorem floats_finite {x : PyFloat} (h : x ∈ [s.deadline, s.stopGraceSeconds, s.gitTimeoutSeconds])
    (hx : ∀ x ∈ s.floats, ReadsBack floatRepr x) : ∀ q, x = .finite q → ReadsBack floatRepr q := by
  rintro q rfl
  exact hx q (List.mem_append_left _ (List.mem_filterMap.2 ⟨_, h, rfl⟩))

theorem floats_meta {m : WorkerMeta}
    (h : m ∈ s.previousMeta :: (s.newMeta.toList ++ s.previousRestartMeta.toList))
    (hx : ∀ x ∈ s.floats, ReadsBack floatRepr x) : ∀ x ∈ m.floats, ReadsBack floatRepr x :=
  fun x hm => hx x (List.mem_append_right _ (List.mem_flatMap.2 ⟨m, h, hm⟩))

/-- A text that was written is read. -/
theorem requiredString_readBack {data : Fields} {key : String} {t : PyStr} (ht : Joined t)
    (hdata : data key = some (Json.str t).readBack) :
    required data key >>= requiredJsonString = .ok t :=
  except_bind_eq_ok.2 ⟨.str t, required_eq_ok.2 (hdata.trans
    (congrArg some (transparent_readBack.str t ht))), rfl⟩

/-- A commit that was written is read. -/
theorem requiredCommit_readBack {data : Fields} {key : String} {t : PyStr}
    (ht : commitMatches t = true) (hdata : data key = some (Json.str t).readBack) :
    required data key >>= requiredCommit = .ok t := by
  obtain ⟨v, hv, hs⟩ := except_bind_eq_ok.1
    (requiredString_readBack (joined_of_commitMatches ht) hdata)
  refine except_bind_eq_ok.2 ⟨v, hv, except_bind_eq_ok.2 ⟨t, hs, ?_⟩⟩
  rw [if_pos ht]
  rfl

variable (hv : s.Valid) (hx : ∀ x ∈ s.floats, ReadsBack floatRepr x)

include hv hx

theorem parseSupervisorCandidateMeta_readBack {x : Option WorkerMeta} :
    parseSupervisorCandidateMeta py (Json.readBack (if s.supervisorOwned = some true then
        .obj (supervisorCandidateWireDescriptor s.commit s.repo)
      else orNull (fun m => .obj (m.toDict floatRepr)) s.newMeta)) s.supervisorOwned s.commit
        s.repo = .ok x ↔
      (s.supervisorOwned ≠ some true →
        s.newMeta ≠ some (wireDescriptorMeta s.commit s.repo)) ∧ x = s.restored.newMeta := by
  have hcommit := joined_of_commitMatches hv.commit
  by_cases howned : s.supervisorOwned = some true
  · obtain ⟨d, hd, hmembers, hlength⟩ :=
      readBack_obj_length (wellKeyed_wireDescriptor s.commit s.repo)
    rw [if_pos howned, hd, parseSupervisorCandidateMeta,
      if_pos (eqMapping_wireDescriptor hcommit hv.repoText hmembers hlength), if_pos howned,
      RollbackState.restored, if_pos howned]
    constructor
    · intro h
      exact ⟨fun hno => absurd howned hno, (Except.ok.inj h).symm⟩
    · rintro ⟨-, rfl⟩
      rfl
  · obtain ⟨m, hm⟩ := Option.isSome_iff_exists.1 (hv.candidate howned)
    obtain ⟨d, hd, hmembers, hlength, hread⟩ := fromDict_readBack py (hv.newMeta m hm)
      (floats_meta (by simp [hm]) hx)
    have hdescriptor := eqMapping_wireDescriptor_iff hcommit hv.repoText (hv.newMeta m hm) hmembers
      hlength
    have hrestored : s.restored.newMeta = some m := (if_neg howned).trans hm
    rw [if_neg howned, hrestored, hm, orNull, hd, parseSupervisorCandidateMeta]
    by_cases hwire : m = wireDescriptorMeta s.commit s.repo
    · rw [if_pos (hdescriptor.2 hwire), if_neg howned]
      refine iff_of_false (fun h => by cases h) ?_
      rintro ⟨hno, -⟩
      exact hno howned (congrArg some hwire)
    · rw [if_neg (mt hdescriptor.1 hwire), hread]
      constructor
      · intro h
        exact ⟨fun _ heq => hwire (Option.some.inj heq), (Except.ok.inj h).symm⟩
      · rintro ⟨-, rfl⟩
        rfl

theorem parsePreviousRestart_readBack {r : Option WorkerMeta × Bool} :
    parsePreviousRestart py (received Json.readBack (s.toDict floatRepr)) s.supervisorOwned s.status
        s.repo s.previousCommit = .ok r ↔
      (s.previousRestartMeta.isSome = true → s.status = .pending) ∧
        r = (s.previousRestartMeta, s.previousRestartReleased) := by
  have hmeta : parseRestartMeta py (Json.readBack
      (orNull (fun m => .obj (m.toDict floatRepr)) s.previousRestartMeta)) =
        .ok s.previousRestartMeta := by
    cases hm : s.previousRestartMeta with
    | none => rw [orNull, transparent_readBack.null, parseRestartMeta]
    | some m =>
      obtain ⟨d, hd, -, -, hread⟩ := fromDict_readBack py (hv.restartMeta m hm)
        (floats_meta (by simp [hm]) hx)
      rw [orNull, hd, parseRestartMeta, hread]
      rfl
  have hconsistent : restartConsistent s.previousRestartMeta s.previousRestartReleased
      s.supervisorOwned s.status s.repo s.previousCommit = true ↔
        (s.previousRestartMeta.isSome = true → s.status = .pending) := by
    rw [restartConsistent_iff]
    constructor
    · rintro ⟨hfits, -⟩ hsome
      obtain ⟨m, hm⟩ := Option.isSome_iff_exists.1 hsome
      exact (hfits m hm).2.1
    · intro hpending
      refine ⟨fun m hm => ?_, hv.released⟩
      obtain ⟨howned, hrest⟩ := hv.restart m hm
      exact ⟨howned, hpending (Option.isSome_iff_exists.2 ⟨m, hm⟩), hrest⟩
  have hget : (received Json.readBack (s.toDict floatRepr)).get "previous_restart_meta" =
      Json.readBack (orNull (fun m => .obj (m.toDict floatRepr)) s.previousRestartMeta) := rfl
  have hreleased : retiringFlag (received Json.readBack (s.toDict floatRepr)
      "previous_restart_released") = .ok s.previousRestartReleased := rfl
  rw [← hconsistent, parsePreviousRestart, hget, hmeta, hreleased]
  by_cases hfits : restartConsistent s.previousRestartMeta s.previousRestartReleased
      s.supervisorOwned s.status s.repo s.previousCommit = true
  · show (if restartConsistent _ _ _ _ _ _ = true then _ else _) = _ ↔ _
    rw [if_pos hfits]
    constructor
    · intro h
      exact ⟨hfits, (Except.ok.inj h).symm⟩
    · rintro ⟨-, rfl⟩
      rfl
  · show (if restartConsistent _ _ _ _ _ _ = true then _ else _) = _ ↔ _
    rw [if_neg hfits]
    exact iff_of_false (fun h => by cases h) fun h => hfits h.1

theorem missionIdentity_readBack {i : MissionIdentity} :
    missionIdentity py (received Json.readBack (s.toDict floatRepr)) = .ok i ↔
      ((s.supervisorOwned ≠ some true → s.newMeta ≠ some (wireDescriptorMeta s.commit s.repo)) ∧
        (s.previousRestartMeta.isSome = true → s.status = .pending)) ∧
      ∃ d, (Json.obj (s.previousMeta.toDict floatRepr)).readBack = .obj d ∧
        i = { previous := d, supervisorOwned := s.supervisorOwned, generation := s.generation
              schemaVersion := s.wireVersion, status := s.status, commit := s.commit
              previousCommit := s.previousCommit, repo := s.repo, newMeta := s.restored.newMeta
              restart := (s.previousRestartMeta, s.previousRestartReleased) } := by
  obtain ⟨d, hd, -, -, -⟩ := fromDict_readBack py hv.previousMeta
    (floats_meta (List.mem_cons_self ..) hx)
  have hfile := transparent_readBack
  have hprevious : required (received Json.readBack (s.toDict floatRepr)) "previous_meta" =
      .ok (.obj d) := required_eq_ok.2 (congrArg some hd)
  have hreplacement : required (received Json.readBack (s.toDict floatRepr)) "new_meta" =
      .ok (Json.readBack (if s.supervisorOwned = some true then
        .obj (supervisorCandidateWireDescriptor s.commit s.repo)
      else orNull (fun m => .obj (m.toDict floatRepr)) s.newMeta)) := rfl
  have howned : optionalJsonBool ((received Json.readBack (s.toDict floatRepr)).get
      "supervisor_owned") = .ok s.supervisorOwned := by
    show optionalJsonBool (Json.readBack (orNull .bool s.supervisorOwned)) = _
    cases s.supervisorOwned with
    | none => rfl
    | some b => rfl
  have hgeneration : required (received Json.readBack (s.toDict floatRepr)) "generation" >>=
      requiredGeneration = .ok s.generation := by
    show requiredGeneration (Json.readBack (.int s.generation)) = _
    rw [hfile.int, requiredGeneration, if_neg (not_lt.2 hv.generation)]
  have hversion : required (received Json.readBack (s.toDict floatRepr)) "schema_version" >>=
      requiredJsonInt = .ok s.wireVersion := rfl
  have hstatus : required (received Json.readBack (s.toDict floatRepr)) "status" >>=
      requiredStatus py = .ok s.status := by
    show requiredStatus py (Json.readBack (.str s.status.text)) = _
    have hjoined : Joined s.status.text := by cases s.status <;> rfl
    rw [hfile.str _ hjoined, requiredStatus]
    refine except_bind_eq_ok.2 ⟨s.status.text, rfl, ?_⟩
    simp only [missionStatus?_text]
    rfl
  have hcommit : required (received Json.readBack (s.toDict floatRepr)) "commit" >>=
      requiredCommit = .ok s.commit := requiredCommit_readBack hv.commit rfl
  have hpreviousCommit : required (received Json.readBack (s.toDict floatRepr)) "previous_commit"
      >>= requiredCommit = .ok s.previousCommit := requiredCommit_readBack hv.previousCommit rfl
  have hrepo : required (received Json.readBack (s.toDict floatRepr)) "repo" >>=
      requiredJsonString = .ok s.repo := requiredString_readBack hv.repoText rfl
  rw [missionIdentity, hprevious, hreplacement, howned, hgeneration, hversion, hstatus, hcommit,
    hpreviousCommit, hrepo]
  show (parseSupervisorCandidateMeta py _ s.supervisorOwned s.commit s.repo >>= fun newMeta =>
    parsePreviousRestart py _ s.supervisorOwned s.status s.repo s.previousCommit >>= fun restart =>
      Except.ok (MissionIdentity.mk d s.supervisorOwned s.generation s.wireVersion s.status s.commit
        s.previousCommit s.repo newMeta restart)) = .ok i ↔ _
  constructor
  · intro h
    obtain ⟨newMeta, hnew, h⟩ := except_bind_eq_ok.1 h
    obtain ⟨restart, hrestart, h⟩ := except_bind_eq_ok.1 h
    obtain ⟨hcandidate, rfl⟩ := (parseSupervisorCandidateMeta_readBack hv hx).1 hnew
    obtain ⟨hpending, rfl⟩ := (parsePreviousRestart_readBack hv hx).1 hrestart
    exact ⟨⟨hcandidate, hpending⟩, d, hd, (Except.ok.inj h).symm⟩
  · rintro ⟨⟨hcandidate, hpending⟩, d', hd', rfl⟩
    obtain rfl := Json.obj.inj (hd.symm.trans hd')
    exact except_bind_eq_ok.2 ⟨_, (parseSupervisorCandidateMeta_readBack hv hx).2 ⟨hcandidate, rfl⟩,
      except_bind_eq_ok.2 ⟨_, (parsePreviousRestart_readBack hv hx).2 ⟨hpending, rfl⟩, rfl⟩⟩

omit hv in
/-- The deadline is read when it is finite and not negative. -/
theorem deadline_readBack {q : ℚ} :
    required (received Json.readBack (s.toDict floatRepr)) "deadline" >>=
        requiredNonnegativeFiniteJsonNumber = .ok q ↔ s.deadline = .finite q ∧ 0 ≤ q := by
  have hnumber := requiredNumber_received (q := q) (floats_finite (by simp) hx) (fun q => q < 0)
    (show received Json.readBack (s.toDict floatRepr) "deadline" =
      some (.float (s.deadline.literal floatRepr)) from rfl)
  rw [decide_eq_false_iff_not, not_lt] at hnumber
  exact hnumber

omit hv in
/-- A bound is read when it is finite and positive. -/
theorem bound_readBack {key : String} {x : PyFloat} {q : ℚ}
    (hmem : x ∈ [s.deadline, s.stopGraceSeconds, s.gitTimeoutSeconds])
    (hdata : received Json.readBack (s.toDict floatRepr) key =
      some (.float (x.literal floatRepr))) :
    required (received Json.readBack (s.toDict floatRepr)) key >>=
        requiredPositiveFiniteJsonNumber = .ok q ↔ x = .finite q ∧ 0 < q := by
  have hnumber := requiredNumber_received (q := q) (floats_finite hmem hx) (fun q => q ≤ 0) hdata
  rw [decide_eq_false_iff_not, not_le] at hnumber
  exact hnumber

variable (py) in
/-- **When a valid mission is parsed**, and as what. -/
theorem buildFromDict_readBack {t : RollbackState} :
    RollbackState.buildFromDict py (received Json.readBack (s.toDict floatRepr)) = .ok t ↔
      s.Encodable ∧ t = s.parsed := by
  have huv : required (received Json.readBack (s.toDict floatRepr)) "uv_path" >>=
      requiredJsonString = .ok s.uvPath := requiredString_readBack hv.uvText rfl
  have hretiring : retiringFlag (received Json.readBack (s.toDict floatRepr) "previous_retiring") =
      .ok s.previousRetiring := rfl
  obtain ⟨d, hd, -, -, hread⟩ := fromDict_readBack py hv.previousMeta
    (floats_meta (List.mem_cons_self ..) hx)
  constructor
  · intro h
    obtain ⟨i, hi, h⟩ := except_bind_eq_ok.1 h
    obtain ⟨deadline, hdeadline, h⟩ := except_bind_eq_ok.1 h
    obtain ⟨uvPath, huv', h⟩ := except_bind_eq_ok.1 h
    obtain ⟨grace, hgrace, h⟩ := except_bind_eq_ok.1 h
    obtain ⟨git, hgit, h⟩ := except_bind_eq_ok.1 h
    obtain ⟨flag, hflag, h⟩ := except_bind_eq_ok.1 h
    obtain ⟨previousMeta, hprevious, h⟩ := except_bind_eq_ok.1 h
    obtain ⟨⟨hcandidate, hpending⟩, d', hd', rfl⟩ := (missionIdentity_readBack hv hx).1 hi
    obtain rfl := Json.obj.inj (hd.symm.trans hd')
    obtain ⟨hdeadline, hnonneg⟩ := (deadline_readBack hx).1 hdeadline
    obtain ⟨hgrace, hgracepos⟩ := (bound_readBack hx (by simp) rfl).1 hgrace
    obtain ⟨hgit, hgitpos⟩ := (bound_readBack hx (by simp) rfl).1 hgit
    obtain rfl := Except.ok.inj (huv.symm.trans huv')
    obtain rfl := Except.ok.inj (hretiring.symm.trans hflag)
    obtain rfl := Except.ok.inj (hread.symm.trans hprevious)
    refine ⟨⟨⟨_, hdeadline, hnonneg⟩, ⟨_, hgrace, hgracepos⟩, ⟨_, hgit, hgitpos⟩, hpending,
      hcandidate⟩, ?_⟩
    rw [← Except.ok.inj h, ← hdeadline, ← hgrace, ← hgit]
    rfl
  · rintro ⟨hencodable, rfl⟩
    obtain ⟨deadline, hdeadline, hnonneg⟩ := hencodable.deadline
    obtain ⟨grace, hgrace, hgracepos⟩ := hencodable.stopGraceSeconds
    obtain ⟨git, hgit, hgitpos⟩ := hencodable.gitTimeoutSeconds
    refine except_bind_eq_ok.2 ⟨_, (missionIdentity_readBack hv hx).2
      ⟨⟨hencodable.candidate, hencodable.restart⟩, d, hd, rfl⟩, ?_⟩
    refine except_bind_eq_ok.2 ⟨deadline, (deadline_readBack hx).2 ⟨hdeadline, hnonneg⟩, ?_⟩
    refine except_bind_eq_ok.2 ⟨_, huv, ?_⟩
    refine except_bind_eq_ok.2 ⟨grace, (bound_readBack hx (by simp) rfl).2 ⟨hgrace, hgracepos⟩, ?_⟩
    refine except_bind_eq_ok.2 ⟨git, (bound_readBack hx (by simp) rfl).2 ⟨hgit, hgitpos⟩, ?_⟩
    refine except_bind_eq_ok.2 ⟨_, hretiring, except_bind_eq_ok.2 ⟨_, hread, ?_⟩⟩
    rw [← hdeadline, ← hgrace, ← hgit]
    rfl

end Parts

/-! ## The file that was written -/

section File

variable {py : Interpreter} {floatRepr : ℚ → List Char} {s : RollbackState}

theorem writable_missionToDict (hx : ∀ x ∈ s.floats, ReadsBack floatRepr x) :
    (Json.obj (s.toDict floatRepr)).Writable := by
  have hmeta : ∀ m ∈ s.previousMeta :: (s.newMeta.toList ++ s.previousRestartMeta.toList),
      (Json.obj (m.toDict floatRepr)).Writable := fun m hm =>
    writable_metaToDict fun x h => (floats_meta hm hx x h).literal
  have hnumber : ∀ x ∈ [s.deadline, s.stopGraceSeconds, s.gitTimeoutSeconds],
      (Json.float (x.literal floatRepr)).Writable := fun x hmem =>
    .float (PyFloat.floatLiteral (floats_finite hmem hx))
  have hnew : (if s.supervisorOwned = some true then
      Json.obj (supervisorCandidateWireDescriptor s.commit s.repo)
      else orNull (fun m => .obj (m.toDict floatRepr)) s.newMeta).Writable := by
    split_ifs
    · exact show (Json.obj ((wireDescriptorMeta s.commit s.repo).toDict floatRepr)).Writable from
        writable_metaToDict (List.forall_mem_nil _)
    · exact writable_orNull fun m hm => hmeta m (by simp [Option.mem_def.1 hm])
  refine .obj ?_
  simp only [RollbackState.toDict, List.forall_mem_cons, entry]
  exact ⟨.int _, .int _, .str _, .str _, .str _, hnumber _ (by simp), .str _, .str _,
    hnumber _ (by simp), hnumber _ (by simp), .bool _, hmeta _ (List.mem_cons_self ..), hnew,
    writable_orNull fun _ _ => .bool _,
    writable_orNull fun m hm => hmeta m (by simp [Option.mem_def.1 hm]), .bool _,
    List.forall_mem_nil _⟩

/-- Writing the mission that is read gives the same text. -/
theorem fileText_restored : s.restored.fileText floatRepr = s.fileText floatRepr := by
  have hdict : s.restored.toDict floatRepr = s.toDict floatRepr := by
    by_cases howned : s.supervisorOwned = some true
    · simp [RollbackState.toDict, RollbackState.restored, howned]
    · simp [RollbackState.toDict, RollbackState.restored, howned]
  rw [RollbackState.fileText, hdict, RollbackState.fileText]

/-- **When the file of a valid mission is read**, and as what. -/
theorem readRollbackState_fileBytes (hv : s.Valid) (hx : ∀ x ∈ s.floats, ReadsBack floatRepr x)
    (hdeep : py.tooDeep (s.fileText floatRepr) = false)
    (hdigits : py.tooManyDigits (s.fileText floatRepr) = false) {t : RollbackState} :
    readRollbackState py (.bytes (s.fileBytes floatRepr)) = .ok (some t) ↔
      s.Encodable ∧ t = s.restored := by
  obtain ⟨d, hd, hmembers⟩ := readBack_obj (wellKeyed_missionToDict floatRepr s)
  have hmembers : memberOf d = received Json.readBack (s.toDict floatRepr) := hmembers
  have hparsed : ∀ u, _ ↔ _ := fun u => buildFromDict_readBack py hv hx (t := u)
  have hnormalized : normalizeParsedState s.parsed = .ok s.restored := by
    rw [normalizeParsedState, RollbackState.parsed, RollbackState.wireVersion]
    by_cases howned : s.supervisorOwned = some true
    · simp only [if_pos howned]
      rw [if_neg (by decide), if_pos (by decide), ← hv.schema]
      rfl
    · simp only [if_neg howned]
      rw [if_pos hv.schema]
      rfl
  have hdata : utf8 (s.fileBytes floatRepr) =
      some (dumps (Json.obj (s.toDict floatRepr)).sortKeys ++ ['\n']) := utf8_utf8Encode _
  rw [readRollbackState, JsonReader.run_line _ (writable_missionToDict hx) hdata hdeep hdigits, hd]
  simp only [hmembers, RollbackState.fromDict]
  constructor
  · intro h
    obtain ⟨parsed, hp, h⟩ := except_bind_eq_ok.1 h
    cases hb : RollbackState.buildFromDict py (received Json.readBack (s.toDict floatRepr)) with
    | ok u =>
      rw [hb] at hp
      obtain rfl := Except.ok.inj hp
      obtain ⟨hencodable, rfl⟩ := (hparsed _).1 hb
      rw [hnormalized] at h
      exact ⟨hencodable, (Option.some.inj (Except.ok.inj h)).symm⟩
    | error exc =>
      rw [hb, translating] at hp
      split_ifs at hp
  · rintro ⟨hencodable, rfl⟩
    refine except_bind_eq_ok.2 ⟨s.parsed, ?_, ?_⟩
    · rw [(hparsed _).2 ⟨hencodable, rfl⟩]
      rfl
    · rw [hnormalized]
      rfl

end File

/-! ## The options -/

/-- A window that was accepted ends after the clock, when it ends. -/
theorem add_nonNegative_iff (now : Moment) {window : PyFloat} (hwindow : window.atMostZero = false) :
    (PyFloat.add (.finite now) window).NonNegative ↔
      ∃ q, PyFloat.add (.finite now) window = .finite q := by
  refine ⟨fun ⟨q, hq, _⟩ => ⟨q, hq⟩, ?_⟩
  rintro ⟨q, hq⟩
  refine ⟨q, hq, ?_⟩
  cases window with
  | finite w =>
    have hw : 0 < w := by simpa [PyFloat.atMostZero] using hwindow
    have hsum : 0 ≤ now.1 + w := add_nonneg now.2 hw.le
    rw [PyFloat.add, PyFloat.rounded, if_neg (not_lt.2 hsum)] at hq
    cases hr : roundBinary64 (now.1 + w) with
    | none =>
      rw [hr] at hq
      cases hq
    | some r =>
      rw [hr] at hq
      obtain rfl := PyFloat.finite.inj hq
      exact roundBinary64_nonneg hr hsum
  | infinite negative => cases hq
  | nan => cases hq

/-- The options whose mission is read back. -/
structure Options.Encodable (options : Options) (now : Moment) : Prop where
  confirmWindowSeconds : ∃ q, PyFloat.add (.finite now) options.confirmWindowSeconds = .finite q
  stopGraceSeconds : options.stopGraceSeconds.Positive
  gitTimeoutSeconds : options.gitTimeoutSeconds.Positive

theorem buildOptions_window {resolve : OsText → OsText} {uvPath : OsText} {args : Arguments}
    {options : Options} (h : buildOptions resolve uvPath args = .ok options) :
    options.confirmWindowSeconds.atMostZero = false := by
  rw [buildOptions] at h
  dsimp only at h
  split_ifs at h with hwindow
  obtain rfl := Except.ok.inj h
  simpa using hwindow

/-- A mission that was just prepared is read back exactly when its options are in the domain of the
parser. -/
theorem encodable_iff_options {py : Interpreter} {resolve : OsText → OsText} {uvPath : OsText}
    {args : Arguments} {options : Options} {commit : PyStr} {supervised : Bool} {w : Surroundings}
    {s : RollbackState} (hoptions : buildOptions resolve uvPath args = .ok options)
    (h : prepareLocked py options commit supervised w = .ok s) :
    s.Encodable ↔ options.Encodable w.now := by
  obtain ⟨-, hfrom⟩ := prepareLocked_spec h
  have hdeadline := add_nonNegative_iff w.now (buildOptions_window hoptions)
  constructor
  · intro hs
    refine ⟨hdeadline.1 ?_, ?_, ?_⟩
    · rw [← hfrom.deadline]
      exact hs.deadline
    · rw [← hfrom.stopGraceSeconds]
      exact hs.stopGraceSeconds
    · rw [← hfrom.gitTimeoutSeconds]
      exact hs.gitTimeoutSeconds
  · intro ho
    refine ⟨?_, ?_, ?_, fun _ => hfrom.pending, fun _ hnew => ?_⟩
    · rw [hfrom.deadline]
      exact hdeadline.2 ho.confirmWindowSeconds
    · rw [hfrom.stopGraceSeconds]
      exact ho.stopGraceSeconds
    · rw [hfrom.gitTimeoutSeconds]
      exact ho.gitTimeoutSeconds
    · -- a candidate that was spawned runs, and the descriptor is of one that does not
      have hrunning := hfrom.running _ hnew
      cases hrunning

/-! ## Reading back -/

/-- The second mission says what the first does, in the current schema; the candidate of a
supervisor-owned mission is reconstructed. -/
structure RollbackState.SameMission (s t : RollbackState) : Prop where
  schemaVersion : t.schemaVersion = ROLLBACK_SCHEMA_VERSION
  generation : t.generation = s.generation
  status : t.status = s.status
  commit : t.commit = s.commit
  previousCommit : t.previousCommit = s.previousCommit
  deadline : t.deadline = s.deadline
  repo : t.repo = s.repo
  uvPath : t.uvPath = s.uvPath
  stopGraceSeconds : t.stopGraceSeconds = s.stopGraceSeconds
  gitTimeoutSeconds : t.gitTimeoutSeconds = s.gitTimeoutSeconds
  previousRetiring : t.previousRetiring = s.previousRetiring
  previousMeta : t.previousMeta = s.previousMeta
  newMeta : s.supervisorOwned ≠ some true → t.newMeta = s.newMeta
  supervisorOwned : t.supervisorOwned = s.supervisorOwned
  previousRestartMeta : t.previousRestartMeta = s.previousRestartMeta
  previousRestartReleased : t.previousRestartReleased = s.previousRestartReleased

theorem sameMission_restored {s : RollbackState} (hv : s.Valid) : s.SameMission s.restored :=
  ⟨hv.schema, rfl, rfl, rfl, rfl, rfl, rfl, rfl, rfl, rfl, rfl, rfl, fun howned => if_neg howned, rfl,
    rfl, rfl⟩

/-- The file of a mission is read as the same mission, and writing that one gives the same file. -/
def ReadsBackMission (py : Interpreter) (floatRepr : ℚ → List Char) (s : RollbackState) : Prop :=
  ∃ t, readRollbackState py (.bytes (s.fileBytes floatRepr)) = .ok (some t) ∧ s.SameMission t ∧
    t.fileText floatRepr = s.fileText floatRepr

/-- What the interpreter does on the file of a mission: `float(repr(x)) == x`, and its scanner and
`int` take the text. -/
structure PlainFile (py : Interpreter) (floatRepr : ℚ → List Char) (s : RollbackState) : Prop where
  floats : ∀ x ∈ s.floats, ReadsBack floatRepr x
  depth : py.tooDeep (s.fileText floatRepr) = false
  digits : py.tooManyDigits (s.fileText floatRepr) = false

theorem readsBackMission_iff {py : Interpreter} {floatRepr : ℚ → List Char} {s : RollbackState}
    (hv : s.Valid) (hfile : PlainFile py floatRepr s) :
    ReadsBackMission py floatRepr s ↔ s.Encodable := by
  have hread : ∀ t, _ ↔ _ := fun t =>
    readRollbackState_fileBytes (t := t) hv hfile.floats hfile.depth hfile.digits
  constructor
  · rintro ⟨t, ht, -, -⟩
    exact ((hread t).1 ht).1
  · intro hencodable
    exact ⟨s.restored, (hread _).2 ⟨hencodable, rfl⟩, sameMission_restored hv, fileText_restored⟩

/-- **The missions that are read back.** A mission the controller writes is read back exactly when
its numbers are in the domain of the parser, its restart record stands behind a pending status, and
its candidate is not the descriptor of another kind of mission; for a mission just prepared, exactly
when its options are in the domain. -/
theorem mission_read_back_iff (py : Interpreter) (floatRepr : ℚ → List Char) :
    (∀ s, MissionWritten py s → PlainFile py floatRepr s →
      (ReadsBackMission py floatRepr s ↔ s.Encodable)) ∧
    ∀ resolve uvPath args options commit supervised w s,
      buildOptions resolve uvPath args = .ok options →
      prepareLocked py options commit supervised w = .ok s → PlainFile py floatRepr s →
        (ReadsBackMission py floatRepr s ↔ options.Encodable w.now) := by
  refine ⟨fun s hs hfile => readsBackMission_iff hs.valid hfile, ?_⟩
  intro resolve uvPath args options commit supervised w s hoptions h hfile
  rw [readsBackMission_iff (prepareLocked_spec h).1 hfile, encodable_iff_options hoptions h]

/-! ## Two deployments -/

/-- `float.__repr__` of zero and one. -/
def bitRepr (q : ℚ) : List Char := if q = 0 then ['0', '.', '0'] else ['1', '.', '0']

theorem roundBinary64_one : roundBinary64 1 = some 1 := by
  have hexact : roundEven ((1 : ℚ) / 2 ^ max (Int.log 2 (1 : ℚ) - 52) (-1074)) = 2 ^ 52 := by
    rw [Int.log_one_right, show max (0 - 52 : ℤ) (-1074) = -52 from rfl, zpow_neg, one_div, inv_inv]
    have hcast : (2 : ℚ) ^ (52 : ℤ) = ((2 ^ 52 : ℤ) : ℚ) := by norm_num
    rw [hcast, roundEven, Int.fract_intCast, Int.floor_intCast]
    norm_num
  have hproduct : (((2 : ℤ) ^ 52 : ℤ) : ℚ) * 2 ^ (-52 : ℤ) = 1 := by norm_num
  have hbound : (1 : ℚ) < 2 ^ (1024 : ℤ) := one_lt_zpow₀ one_lt_two (by norm_num)
  rw [roundBinary64, hexact, Int.log_one_right, show max (0 - 52 : ℤ) (-1074) = -52 from rfl,
    hproduct, if_pos hbound]

theorem readsBack_bit {d : Char} {q : ℚ} (hd : d.isDigit = true)
    (hvalue : (Nat.ofDigitChars 10 [d] 0 : ℚ) = q) (hround : roundBinary64 q = some q)
    (hrepr : bitRepr q = [d, '.', '0'])
    (hunsigned : strictFiniteFloat (.float [d, '.', '0']) =
      roundBinary64 (literalValue [d, '.', '0'])) : ReadsBack bitRepr q where
  literal := hrepr ▸ floatLiteral_digit hd
  value := by rw [hrepr, hunsigned, literalValue_digit hd, hvalue, hround]

theorem readsBack_bit_zero : ReadsBack bitRepr 0 := by
  have hzero : Nat.ofDigitChars 10 ['0'] 0 = 0 := by decide
  exact readsBack_bit (d := '0') (by decide) (by exact_mod_cast hzero) roundBinary64_zero rfl rfl

theorem readsBack_bit_one : ReadsBack bitRepr 1 := by
  have hone : Nat.ofDigitChars 10 ['1'] 0 = 1 := by decide
  exact readsBack_bit (d := '1') (by decide) (by exact_mod_cast hone) roundBinary64_one
    (if_neg one_ne_zero) rfl

/-- The maintained worker of a deployment. -/
def maintainedMeta : WorkerMeta where
  schemaVersion := META_SCHEMA_VERSION
  state := .running
  pid := some 7
  pgid := some 7
  sid := some 7
  startTimeTicks := some 9
  token := none
  repo := []
  gitCommit := some (List.replicate 40 0x62)
  workerId := none
  logPath := []
  startedAt := none
  stoppedAt := none

theorem maintainedMeta_valid : maintainedMeta.Valid Joined where
  schema := rfl
  pid := by decide
  pgid := by decide
  sid := by decide
  ticks := by decide
  tokenText := fun _ hs => by cases hs
  repoText := rfl
  commitText := fun s hs => by
    obtain rfl := Option.some.inj hs
    exact joined_of_commitMatches (by decide)
  workerText := fun _ hs => by cases hs
  logText := rfl
  startedAt := fun _ hs => by cases hs
  stoppedAt := fun _ hs => by cases hs

/-- A text without code points. -/
def noText : OsText := ⟨[], rfl⟩

/-- The arguments of a request with a `--grace-seconds`, every other bound being one second. -/
def graceArguments (grace : PyFloat) : Arguments where
  repo := noText
  confirmWindowSeconds := .finite 1
  graceSeconds := grace
  dbTimeout := .finite 1
  lockTimeout := .finite 1
  validationTimeout := .finite 1
  gitTimeout := .finite 1
  cliTimeout := .finite 1
  sourceUrl := none

/-- The options of these arguments. -/
def graceOptions (grace : PyFloat) : Options where
  repo := noText
  uvPath := noText
  confirmWindowSeconds := .finite 1
  stopGraceSeconds := grace
  postgresTimeoutSeconds := .finite 1
  lockTimeoutSeconds := .finite 1
  validationTimeoutSeconds := .finite 1
  gitTimeoutSeconds := .finite 1
  cliTimeoutSeconds := .finite 1
  sourceUrl := none

/-- A host where every preparation step succeeds. -/
def calmSurroundings : Surroundings where
  cleanup := .ok ()
  metaFile := .bytes (utf8Encode (maintainedMeta.fileText bitRepr))
  workerAlive _ := true
  revParse _ := .ok ()
  provenance := .ok ()
  cleanCheckout := .ok ()
  checkedOut := true
  validationFailure := none
  cliFailure := none
  candidate := ⟨8, none, noText, none, noText, noText, epoch, by decide⟩
  postgres := true
  files := unusedFiles []
  now := epoch

/-- The mission these options prepare on it. -/
def graceMission (grace : PyFloat) : RollbackState where
  schemaVersion := ROLLBACK_SCHEMA_VERSION
  generation := 1
  status := .pending
  commit := List.replicate 40 0x61
  previousCommit := List.replicate 40 0x62
  deadline := .finite 1
  repo := []
  uvPath := []
  stopGraceSeconds := grace
  gitTimeoutSeconds := .finite 1
  previousRetiring := false
  previousMeta := maintainedMeta
  newMeta := none
  supervisorOwned := some true

theorem buildOptions_grace (grace : PyFloat) :
    buildOptions id noText (graceArguments grace) = .ok (graceOptions grace) := by
  have hwindow : (PyFloat.finite 1).atMostZero = false := by simp [PyFloat.atMostZero]
  rw [buildOptions]
  exact if_neg (show ¬ (PyFloat.finite 1).atMostZero = true by rw [hwindow]; exact Bool.false_ne_true)

theorem prepareLocked_grace (grace : PyFloat) :
    prepareLocked plainInterpreter (graceOptions grace) (List.replicate 40 0x61) true
      calmSurroundings = .ok (graceMission grace) := by
  have hread : readMeta plainInterpreter calmSurroundings.metaFile = .ok (some maintainedMeta) := by
    have hlocale : plainInterpreter.locale (utf8Encode (maintainedMeta.fileText bitRepr)) =
        some (maintainedMeta.fileText bitRepr) := by
      rw [show plainInterpreter.locale = utf8 from rfl, utf8_utf8Encode]
    have hstrict := readMetaStrict_fileText maintainedMeta_valid (List.forall_mem_nil _) hlocale rfl
      rfl
    rw [readMeta, calmSurroundings, hstrict]
  have hdeadline : PyFloat.add (.finite 0) (.finite 1) = .finite 1 := by
    rw [PyFloat.add, zero_add, PyFloat.rounded, if_neg (by norm_num), roundBinary64_one]
    rfl
  have hprepared : prepareLocked plainInterpreter (graceOptions grace) (List.replicate 40 0x61) true
      calmSurroundings =
        .ok { graceMission grace with deadline := PyFloat.add (.finite 0) (.finite 1) } := by
    rw [prepareLocked, hread]
    rfl
  rw [hprepared, hdeadline]
  rfl

theorem plainFile_grace (grace : PyFloat) (h : grace = .finite 0 ∨ grace = .finite 1) :
    PlainFile plainInterpreter bitRepr (graceMission grace) := by
  refine ⟨?_, rfl, rfl⟩
  rcases h with rfl | rfl
  · show ∀ x ∈ [(1 : ℚ), 0, 1], ReadsBack bitRepr x
    simp only [List.forall_mem_cons]
    exact ⟨readsBack_bit_one, readsBack_bit_zero, readsBack_bit_one, List.forall_mem_nil _⟩
  · show ∀ x ∈ [(1 : ℚ), 1, 1], ReadsBack bitRepr x
    simp only [List.forall_mem_cons]
    exact ⟨readsBack_bit_one, readsBack_bit_one, readsBack_bit_one, List.forall_mem_nil _⟩

theorem missionWritten_grace (grace : PyFloat) :
    MissionWritten plainInterpreter (graceMission grace) :=
  ⟨graceMission grace, .prepared (buildOptions_grace grace) (prepareLocked_grace grace),
    .published rfl⟩

/-- With one second for every bound the mission is read back. -/
theorem mission_read_back_one_second :
    ReadsBackMission plainInterpreter bitRepr (graceMission (.finite 1)) := by
  have hencodable : (graceMission (.finite 1)).Encodable :=
    ⟨⟨1, rfl, zero_le_one⟩, ⟨1, rfl, one_pos⟩, ⟨1, rfl, one_pos⟩, fun _ => rfl,
      fun hno => absurd rfl hno⟩
  exact ((mission_read_back_iff plainInterpreter bitRepr).1 _ (missionWritten_grace _)
    (plainFile_grace _ (.inr rfl))).2 hencodable

/-- With `--grace-seconds 0` the options are accepted, and the mission that is published is not read
back. -/
theorem zero_grace_mission_unreadable :
    buildOptions id noText (graceArguments (.finite 0)) = .ok (graceOptions (.finite 0)) ∧
    prepareLocked plainInterpreter (graceOptions (.finite 0)) (List.replicate 40 0x61) true
      calmSurroundings = .ok (graceMission (.finite 0)) ∧
    MissionWritten plainInterpreter (graceMission (.finite 0)) ∧
    PlainFile plainInterpreter bitRepr (graceMission (.finite 0)) ∧
    ¬ ReadsBackMission plainInterpreter bitRepr (graceMission (.finite 0)) := by
  have hfile := plainFile_grace (.finite 0) (.inl rfl)
  have hwritten := missionWritten_grace (.finite 0)
  refine ⟨buildOptions_grace _, prepareLocked_grace _, hwritten, hfile, ?_⟩
  intro hread
  obtain ⟨q, hq, hpos⟩ := ((readsBackMission_iff hwritten.valid hfile).1 hread).stopGraceSeconds
  obtain rfl := PyFloat.finite.inj hq
  exact lt_irrefl _ hpos

end Lubko.Deploy
