import Lubko.Deploy.Intents

/-!
# Pending install requests

`promote_pending_request` of `supervise.py` takes three durable steps under the lock of the pending
request: the run intent, the acknowledgement and the removal of the request. A daemon that crashes in
between starts over with the first, and finds what the other writers of intents have left by then.
Each step is atomic here; a crash before it is no step, and one after it loses what the daemon knew.

What a promotion answers depends on the desired record alone once there is one. So a replay answers
as before until somebody else writes an intent, and writes no second record.

* `promotePendingRequest_of_files` — the answers of the model are those given over the files.
* `promoted_once` — over whole runs, one record at most, and what later answers can be.
-/

namespace Lubko.Deploy

open Lubko.Lib Lubko.Supervise Lubko.Lifecycle

/-! ## One promotion -/

/-- The run intent that a pending request asks for; none when its commit is missing or invalid. -/
def runRequestOf (data : List (PyStr × Json)) : Option RunRequest :=
  match Json.get data "commit" with
  | .str [] => none
  | .str commit => some
      { commit := commit
        repo := (optionalString (Json.get data "repo")).getD []
        uvPath := (optionalString (Json.get data "uv_path")).getD []
        workerId := optionalString (Json.get data "worker_id") }
  | _ => none

/-- The texts of the refusals. -/
def authorityConflict : PyStr := "conflict with existing supervisor authority"
def authorityMalformed : PyStr := "supervisor authority is malformed or unreadable"

/-- What a promotion has decided and written when it comes to its acknowledgement. -/
structure Decision where
  ack : PendingAck
  written : Option SupervisorDesired
  records : Records
  deriving DecidableEq

/-- `_promote_pending_request_validated` on a request with a commit, up to its acknowledgement. -/
def Records.promote (now : ℚ) (request : RunRequest) (r : Records) : Decision :=
  match r.desired with
  | .malformed => ⟨.failed authorityMalformed, none, r⟩
  | .holds current =>
    if current.commit ≠ request.commit then ⟨.failed authorityConflict, none, r⟩
    else ⟨.promoted current.generation, none, r⟩
  | .absent =>
    match r.mission with
    | .absent =>
      match r.writeRunIntentLocked now { request with restart := false, migration := false } with
      | some (desired, r') => ⟨.promoted desired.generation, some desired, r'⟩
      | none => ⟨.failed authorityMalformed, none, r⟩
    | _ => ⟨.failed authorityConflict, none, r⟩

/-- The acknowledgement of a promotion that finds a desired record. -/
def ackOf (commit : PyStr) (current : SupervisorDesired) : PendingAck :=
  if current.commit ≠ commit then .failed authorityConflict else .promoted current.generation

theorem ackOf_of_commit {commit : PyStr} {d : SupervisorDesired} (h : d.commit = commit) :
    ackOf commit d = .promoted d.generation := if_neg (not_not.2 h)

/-- A promotion leaves a desired record as it finds it, and writes one only where none is. -/
inductive Decided (commit : PyStr) (r : Records) : Decision → Prop
  | refused (error : PyStr) (hd : ∀ d, r.desired ≠ .holds d) :
      Decided commit r ⟨.failed error, none, r⟩
  | found {d : SupervisorDesired} (hd : r.desired = .holds d) :
      Decided commit r ⟨ackOf commit d, none, r⟩
  | fresh {d : SupervisorDesired} (hd : r.desired = .absent) (hc : d.commit = commit) :
      Decided commit r ⟨.promoted d.generation, some d, { r with desired := .holds d }⟩

theorem decided_promote (now : ℚ) (request : RunRequest) (r : Records) :
    Decided request.commit r (r.promote now request) := by
  rw [Records.promote]
  cases hd : r.desired with
  | malformed => exact .refused _ fun d h => by simp [hd] at h
  | holds current =>
    have hfound : Decided request.commit r ⟨ackOf request.commit current, none, r⟩ := .found hd
    rw [ackOf] at hfound
    simp only
    by_cases hc : current.commit ≠ request.commit
    · rw [if_pos hc] at hfound ⊢
      exact hfound
    · rw [if_neg hc] at hfound ⊢
      exact hfound
  | absent =>
    have hnone : ∀ d, r.desired ≠ .holds d := fun d h => by simp [hd] at h
    cases hm : r.mission with
    | malformed | holds _ => exact .refused _ hnone
    | absent =>
      simp only
      cases hwrite : r.writeRunIntentLocked now
          { request with restart := false, migration := false } with
      | none => exact .refused _ hnone
      | some p =>
        obtain ⟨g, -, rfl⟩ := Option.map_eq_some_iff.1 hwrite
        exact .fresh hd rfl

/-- `ensure_run_intent` returns where the promotion succeeds, with the same writes. -/
theorem ensureRunIntent_eq_promote (now : ℚ) (request : RunRequest) (r : Records) :
    r.ensureRunIntent now request = match (r.promote now request).ack with
      | .promoted _ => some ((r.promote now request).written, (r.promote now request).records)
      | .failed _ => none := by
  rw [Records.ensureRunIntent, Records.promote]
  cases r.desired with
  | malformed => rfl
  | holds current =>
    by_cases hc : current.commit ≠ request.commit
    · simp only [if_pos hc]
    · simp only [if_neg hc]
  | absent =>
    cases r.mission with
    | malformed | holds _ => rfl
    | absent =>
      simp only
      cases r.writeRunIntentLocked now { request with restart := false, migration := false } with
      | none => rfl
      | some p => rfl

/-! ## The promotion over the files -/

/-- The acknowledgement says `ok`. -/
def PendingAck.ok : PendingAck → Bool
  | .promoted _ => true
  | .failed _ => false

/-- A decision as `promote_pending_request` carries it out. -/
def Decision.promotion (requestId : PyStr) (d : Decision) : Promotion :=
  ⟨PendingAck.ok d.ack, true, some (requestId, d.ack), d.written⟩

/-- The three ends of `ensure_run_intent` in `_promote_pending_request_validated`. -/
def acknowledged (requestId : PyStr) : Outcome Established → Outcome Promotion
  | .ok (generation, written) => .ok ⟨true, true, some (requestId, .promoted generation), written⟩
  | .error exc =>
    if exc.isRaised .DesiredAuthorityConflictError then
      .ok ⟨false, true, some (requestId, .failed authorityConflict), none⟩
    else if exc.isRaised .DesiredIntentError || exc.isRaised .MissionAuthorityError then
      .ok ⟨false, true, some (requestId, .failed authorityMalformed), none⟩
    else .error exc

section Files

variable {py : Interpreter} {now : ℚ} {files : Files} {state : SupervisorState}
  {data : List (PyStr × Json)} {requestId : PyStr} {request : RunRequest}

theorem promotePendingRequestValidated_eq (h : runRequestOf data = some request) :
    promotePendingRequestValidated py now files data requestId =
      acknowledged requestId (ensureRunIntent py now files request) := by
  rw [promotePendingRequestValidated]
  rw [runRequestOf] at h
  cases hc : Json.get data "commit" with
  | str commit =>
    cases commit with
    | nil => simp [hc] at h
    | cons c cs =>
      simp only [hc, Option.some.injEq] at h
      simp only [h]
      cases ensureRunIntent py now files request with
      | ok established => rfl
      | error exc => rfl
  | null | bool _ | int _ | float _ | arr _ | obj _ => simp [hc] at h

theorem class_unique {cls cls' : ErrorClass} {exc : PyError ErrorClass} (h : Of cls exc)
    (h' : Of cls' exc) : cls = cls' := by
  cases exc with
  | raised c msg =>
    have hc : c = cls := by simpa [Of, PyError.isRaised] using h
    have hc' : c = cls' := by simpa [Of, PyError.isRaised] using h'
    exact hc.symm.trans hc'
  | keyError _ | typeError _ | valueError _ | jsonDecodeError | unicodeDecodeError
    | overflowError | recursionError | fileNotFoundError | osError _ => cases h

theorem acknowledged_of_conflict {exc : PyError ErrorClass}
    (h : Of .DesiredAuthorityConflictError exc) :
    acknowledged requestId (.error exc) =
      .ok ⟨false, true, some (requestId, .failed authorityConflict), none⟩ := if_pos h

theorem acknowledged_of_malformed {exc : PyError ErrorClass} (h : SaysMalformed exc) :
    acknowledged requestId (.error exc) =
      .ok ⟨false, true, some (requestId, .failed authorityMalformed), none⟩ := by
  have hconflict : ¬ Of .DesiredAuthorityConflictError exc := by
    intro hc
    rcases h with h | h
    · cases class_unique hc h
    · cases class_unique hc h
  exact (if_neg hconflict).trans (if_pos (Bool.or_eq_true_iff.2 h))

/-- The intent that is written over the files is the one of the records. -/
theorem writeRunIntentLocked_of_files (h : readStateFile py files.state = .ok state) :
    (Supervise.writeRunIntentLocked py now files request).toOption =
      ((recordsOf py files state).writeRunIntentLocked now request).map Prod.fst := by
  rw [Supervise.writeRunIntentLocked, toOption_bind, nextGeneration_of_files h,
    Records.writeRunIntentLocked, Option.map_map]
  cases (recordsOf py files state).nextGeneration with
  | none => rfl
  | some g => rfl

/-- The answer to a promotion that finds nothing on record. -/
theorem acknowledged_written (hfiles : AuthorityReadable py files)
    (hstate : readStateFile py files.state = .ok state) (request : RunRequest) :
    (acknowledged requestId do
        let desired ← Supervise.writeRunIntentLocked py now files request
        return (desired.generation, some desired)) =
      .ok (Decision.promotion requestId
        (match (recordsOf py files state).writeRunIntentLocked now request with
        | some (desired, r') => ⟨.promoted desired.generation, some desired, r'⟩
        | none => ⟨.failed authorityMalformed, none, recordsOf py files state⟩)) := by
  have hends : Ends SaysMalformed _ (Supervise.writeRunIntentLocked py now files request) :=
    writeRunIntentLocked_ends hfiles request
  have hwrite : _ = ((recordsOf py files state).writeRunIntentLocked now request).map Prod.fst :=
    writeRunIntentLocked_of_files hstate
  cases hw : Supervise.writeRunIntentLocked py now files request with
  | error exc =>
    rw [hw] at hends hwrite
    rw [Option.map_eq_none_iff.1 hwrite.symm]
    exact acknowledged_of_malformed hends
  | ok desired =>
    rw [hw] at hwrite
    obtain ⟨p, hp, rfl⟩ := Option.map_eq_some_iff.1 hwrite.symm
    rw [hp]
    rfl

/-- **The answers of the model are those given over the files**, where these can be read and the
mission is on record as the look at its path says. -/
theorem promotePendingRequest_of_files (hfiles : AuthorityReadable py files)
    (hstate : readStateFile py files.state = .ok state)
    (hpath : missionStateExistsStrict files.missionPath =
      .ok (decide ((recordsOf py files state).mission ≠ .absent)))
    (hload : loadPendingRequest py files.pending = .ok (some data))
    (hid : Json.get data "request_id" = .str requestId)
    (hvalid : validPendingRequestId requestId = true)
    (hrequest : runRequestOf data = some request) :
    promotePendingRequest py now files =
      .ok (((recordsOf py files state).promote now request).promotion requestId) := by
  have hvalidated : promotePendingRequest py now files =
      promotePendingRequestValidated py now files data requestId := by
    rw [promotePendingRequest, hload]
    simp only [bind, Except.bind, hid, hvalid, if_true]
  rw [hvalidated, promotePendingRequestValidated_eq hrequest, Supervise.ensureRunIntent,
    if_pos hfiles.token, Records.promote]
  have hdesired := hfiles.desired
  have hdef : (recordsOf py files state).desired =
      .ofRead (readDesiredStrict py files.desired) := rfl
  cases hd : readDesiredStrict py files.desired with
  | error exc =>
    rw [hd] at hdesired
    rw [hdef, hd]
    exact acknowledged_of_malformed (.inl hdesired)
  | ok current =>
    cases current with
    | some current =>
      rw [hdef, hd]
      show acknowledged requestId (establishRunIntent py now files request (some current)) = _
      rw [establishRunIntent, Content.ofRead]
      by_cases hc : current.commit ≠ request.commit
      · simp only [if_pos hc]
        exact acknowledged_of_conflict (of_raised _ _)
      · simp only [if_neg hc]
        rfl
    | none =>
      rw [hdef, hd]
      show acknowledged requestId (establishRunIntent py now files request none) = _
      rw [establishRunIntent, hpath, Content.ofRead]
      cases hm : (recordsOf py files state).mission with
      | malformed | holds _ => exact acknowledged_of_conflict (of_raised _ _)
      | absent =>
        exact acknowledged_written hfiles hstate _

end Files

/-! ## Runs -/

/-- What a promotion answers: its acknowledgement, the desired record it leaves, and how many run
intents the other writers had put on record by then. -/
structure Answer where
  ack : PendingAck
  desired : Content SupervisorDesired
  others : ℕ
  deriving DecidableEq

/-- How far the promotion of the daemon has come. -/
inductive PromotionPhase where
  | idle
  /-- The acknowledgement is still to be written. -/
  | decided (answer : Answer)
  /-- The request is still to be removed. -/
  | acknowledged
  deriving DecidableEq

/-- The records, whether `pending-request.json` holds the request, the daemon, the number of intents
that others wrote, and what was done for the request: the desired records that were created, and the
acknowledgements that were written, newest first. -/
structure Promoting where
  records : Records
  pending : Bool
  phase : PromotionPhase
  others : ℕ
  created : List SupervisorDesired
  acks : List Answer
  deriving DecidableEq

/-- A step of the daemon with the request, or of somebody else. -/
inductive PromotingAct where
  /-- The promotion takes the lock, reads the request and returns from `ensure_run_intent`. -/
  | promote (now : ℚ)
  | acknowledge
  | remove
  /-- The daemon crashes, and is started again. -/
  | crash
  | requestRun (now : ℚ) (request : RunRequest)
  /-- `ensure_run_intent` for another client, or for another pending request. -/
  | ensureRunIntent (now : ℚ) (request : RunRequest)
  | clearMigrationFlag (generation : ℤ)
  /-- A write of the other sources of a generation. -/
  | elsewhere (applied : ℤ) (mission : Content RollbackState) (reserved : Content ℤ)
  /-- `write_pending_request` for another request, under the lock of the promotion. -/
  | replace

/-- Put the result of somebody else's run intent into the state. -/
def Promoting.withRun (s : Promoting) (p : Option SupervisorDesired × Records) : Promoting :=
  { s with records := p.2, others := s.others + p.1.toList.length }

/-- One step; `none` when it is not enabled, or raises without a write. -/
def Promoting.step (request : RunRequest) (s : Promoting) : PromotingAct → Option Promoting
  | .promote now =>
    match s.phase, s.pending with
    | .idle, true =>
      let d := s.records.promote now request
      some { s with
        records := d.records
        phase := .decided ⟨d.ack, d.records.desired, s.others⟩
        created := d.written.toList ++ s.created }
    | _, _ => none
  | .acknowledge =>
    match s.phase with
    | .decided answer => some { s with phase := .acknowledged, acks := answer :: s.acks }
    | _ => none
  | .remove =>
    match s.phase with
    | .acknowledged => some { s with phase := .idle, pending := false }
    | _ => none
  | .crash => some { s with phase := .idle }
  | .requestRun now other =>
    (s.records.writeRunIntentLocked now other).map fun p => s.withRun (some p.1, p.2)
  | .ensureRunIntent now other => (s.records.ensureRunIntent now other).map s.withRun
  | .clearMigrationFlag generation =>
    some { s with records := s.records.clearMigrationFlag generation }
  | .elsewhere applied mission reserved =>
    some { s with records := ⟨applied, s.records.desired, mission, reserved⟩ }
  | .replace =>
    match s.phase with
    | .idle => some { s with pending := false }
    | _ => none

/-- The request was written, and nothing was done for it yet. -/
def Promoting.start (records : Records) : Promoting := ⟨records, true, .idle, 0, [], []⟩

/-- The answer that is about to be written. -/
def PromotionPhase.answer? : PromotionPhase → Option Answer
  | .decided answer => some answer
  | _ => none

/-- The answers given so far, newest first. -/
def Promoting.answers (s : Promoting) : List Answer := s.phase.answer?.toList ++ s.acks

/-! ## What answers allow -/

/-- After `ok` with a generation comes the same answer, as long as the others write no intent; after
that, what is answered to the record they left, whose generation is greater. -/
def Follows (commit : PyStr) (earlier later : Answer) : Prop :=
  ∀ g, earlier.ack = .promoted g →
    if later.others = earlier.others then later.ack = .promoted g
    else ∃ d, later.desired = .holds d ∧ g < d.generation ∧ later.ack = ackOf commit d

/-- The desired record that stands behind an answer with `ok`: the one it named, as long as the
others write no intent, and a newer one after that. -/
def Backed (commit : PyStr) (desired : Content SupervisorDesired) (others : ℕ) (a : Answer) :
    Prop :=
  ∀ g, a.ack = .promoted g → a.others ≤ others ∧ ∃ d, desired = .holds d ∧
    if others = a.others then d.commit = commit ∧ d.generation = g else g < d.generation

section Answers

variable {commit : PyStr} {r : Records} {n : ℕ} {a : Answer}

/-- An intent of somebody else supersedes the record behind an answer. -/
theorem Backed.withRun (h : Backed commit r.desired n a) {p : Option SupervisorDesired × Records}
    (hp : Written r p) : Backed commit p.2.desired (n + p.1.toList.length) a := by
  cases hp with
  | unchanged => exact h
  | @fresh desired t htop hgen =>
    intro g hg
    obtain ⟨hle, d, hd, hif⟩ := h g hg
    refine ⟨Nat.le_succ_of_le hle, desired, rfl, ?_⟩
    have hold : d.generation < desired.generation := by
      obtain ⟨x, _, _, hx, -, -, -, hxt, -⟩ := Records.bounds_of_top htop
      rw [Records.desiredGeneration, hd, Content.generation, Option.some.injEq] at hx
      omega
    have hnew : n + 1 ≠ a.others := by omega
    show if n + 1 = a.others then _ else _
    rw [if_neg hnew]
    split_ifs at hif with hn
    · exact hif.2 ▸ hold
    · exact hif.trans hold

/-- Clearing the flag keeps the commit and the generation. -/
theorem Backed.clearMigrationFlag (h : Backed commit r.desired n a) (generation : ℤ) :
    Backed commit (r.clearMigrationFlag generation).desired n a := by
  intro g hg
  obtain ⟨hle, d, hd, hif⟩ := h g hg
  refine ⟨hle, ?_⟩
  simp only [Records.clearMigrationFlag, hd]
  by_cases hflag : d.migration = true ∧ d.generation = generation
  · rw [if_pos hflag]
    exact ⟨_, rfl, hif⟩
  · rw [if_neg hflag]
    exact ⟨d, hd, hif⟩

/-- A promotion keeps the record behind an answer. -/
theorem Backed.promote (h : Backed commit r.desired n a) {d : Decision} (hd : Decided commit r d) :
    Backed commit d.records.desired n a := by
  cases hd with
  | refused error hd => exact h
  | found hd => exact h
  | fresh hd hc =>
    intro g hg
    obtain ⟨-, d', hd', -⟩ := h g hg
    rw [hd] at hd'
    cases hd'

/-- Its own answer is backed by what it leaves. -/
theorem backed_promote {d : Decision} (hd : Decided commit r d) :
    Backed commit d.records.desired n ⟨d.ack, d.records.desired, n⟩ := by
  intro g hg
  refine ⟨le_rfl, ?_⟩
  cases hd with
  | refused error hd => cases hg
  | @found d hd =>
    refine ⟨d, hd, ?_⟩
    rw [if_pos rfl]
    by_cases hc : d.commit = commit
    · rw [ackOf_of_commit hc] at hg
      cases hg
      exact ⟨hc, rfl⟩
    · rw [ackOf, if_pos hc] at hg
      cases hg
  | @fresh d hd hc =>
    refine ⟨d, rfl, ?_⟩
    rw [if_pos rfl]
    cases hg
    exact ⟨hc, rfl⟩

/-- What a promotion answers follows every earlier answer. -/
theorem Backed.follows (h : Backed commit r.desired n a) {d : Decision} (hd : Decided commit r d) :
    Follows commit a ⟨d.ack, d.records.desired, n⟩ := by
  intro g hg
  obtain ⟨-, d', hd', hif⟩ := h g hg
  cases hd with
  | refused error hd => exact absurd hd' (hd d')
  | fresh hd hc =>
    rw [hd] at hd'
    cases hd'
  | @found d hd =>
    obtain rfl : d = d' := Content.holds.inj (hd.symm.trans hd')
    simp only
    split_ifs at hif ⊢ with hn
    · rw [ackOf_of_commit hif.1, hif.2]
    · exact ⟨d, hd, hif, rfl⟩

end Answers

/-! ## The invariant -/

/-- One record at most was created, one is there if it was, and every answer is backed and follows
those before it. -/
structure Promoting.Inv (commit : PyStr) (s : Promoting) : Prop where
  once : s.created.length ≤ 1
  present : s.created ≠ [] → s.records.desired ≠ .absent
  backed : ∀ a ∈ s.answers, Backed commit s.records.desired s.others a
  follows : s.answers.Pairwise fun later earlier => Follows commit earlier later

section Runs

variable {request : RunRequest} {commit : PyStr} {s t : Promoting}

theorem Promoting.start_inv (r : Records) : (Promoting.start r).Inv commit where
  once := Nat.zero_le 1
  present h := absurd rfl h
  backed _ h := absurd h List.not_mem_nil
  follows := List.Pairwise.nil

/-- Answers can be dropped. -/
theorem Promoting.Inv.drop (h : s.Inv commit) {phase : PromotionPhase} {pending : Bool}
    (hphase : phase.answer? = none) :
    Promoting.Inv commit { s with phase := phase, pending := pending } := by
  have hsub : (phase.answer?.toList ++ s.acks).Sublist s.answers := by
    rw [hphase]
    exact List.sublist_append_right _ _
  exact ⟨h.once, h.present, fun a ha => h.backed a (hsub.subset ha), h.follows.sublist hsub⟩

theorem Promoting.Inv.withRun (h : s.Inv commit) {p : Option SupervisorDesired × Records}
    (hp : Written s.records p) : (s.withRun p).Inv commit := by
  refine ⟨h.once, fun hne => ?_, fun a ha => (h.backed a ha).withRun hp, h.follows⟩
  have hpresent := h.present hne
  cases hp with
  | unchanged => exact hpresent
  | fresh htop hgen => exact nofun

theorem clearMigrationFlag_present {r : Records} (h : r.desired ≠ .absent) (generation : ℤ) :
    (r.clearMigrationFlag generation).desired ≠ .absent := by
  rw [Records.clearMigrationFlag]
  cases hd : r.desired with
  | absent => exact absurd hd h
  | malformed => simp [hd]
  | holds current =>
    simp only
    split_ifs
    · intro hno
      cases hno
    · exact h

/-- A promotion that comes to its acknowledgement. -/
theorem Promoting.Inv.promote (h : s.Inv commit) (hphase : s.phase = .idle) {d : Decision}
    (hd : Decided commit s.records d) :
    Promoting.Inv commit
      { s with
        records := d.records
        phase := .decided ⟨d.ack, d.records.desired, s.others⟩
        created := d.written.toList ++ s.created } := by
  have hanswers : s.answers = s.acks := by rw [Promoting.answers, hphase]; rfl
  have hbacked := hanswers ▸ h.backed
  have hpresent := h.present
  refine ⟨?_, ?_, ?_, List.pairwise_cons.2 ⟨?_, hanswers ▸ h.follows⟩⟩
  · cases hd with
    | refused error hd => exact h.once
    | found hd => exact h.once
    | fresh hd hc =>
      have hnone : s.created = [] := by_contra fun hne => hpresent hne hd
      rw [hnone]
      exact le_rfl
  · cases hd with
    | refused error hd => exact hpresent
    | found hd => exact hpresent
    | fresh hd hc => exact fun _ => nofun
  · intro a ha
    rcases List.mem_cons.1 ha with rfl | ha
    · exact backed_promote hd
    · exact (hbacked a ha).promote hd
  · exact fun a ha => (hbacked a ha).follows hd

/-- **One step keeps the invariant.** -/
theorem Promoting.Inv.step {act : PromotingAct} (h : s.Inv request.commit)
    (hs : s.step request act = some t) : t.Inv request.commit := by
  cases act with
  | promote now =>
    rw [Promoting.step] at hs
    split at hs
    · obtain rfl := Option.some.inj hs
      exact h.promote ‹_› (decided_promote now request s.records)
    · cases hs
  | acknowledge =>
    rw [Promoting.step] at hs
    cases hp : s.phase with
    | decided answer =>
      rw [hp] at hs
      obtain rfl := Option.some.inj hs
      have hsame : answer :: s.acks = s.answers := by rw [Promoting.answers, hp]; rfl
      exact ⟨h.once, h.present, hsame ▸ h.backed, hsame ▸ h.follows⟩
    | idle | acknowledged =>
      rw [hp] at hs
      cases hs
  | remove =>
    rw [Promoting.step] at hs
    cases hp : s.phase with
    | acknowledged =>
      rw [hp] at hs
      obtain rfl := Option.some.inj hs
      exact h.drop rfl
    | idle | decided _ =>
      rw [hp] at hs
      cases hs
  | crash =>
    obtain rfl := Option.some.inj hs
    exact h.drop rfl
  | requestRun now other =>
    obtain ⟨p, hp, rfl⟩ := Option.map_eq_some_iff.1 hs
    exact h.withRun (written_of_writeRunIntentLocked hp)
  | ensureRunIntent now other =>
    obtain ⟨p, hp, rfl⟩ := Option.map_eq_some_iff.1 hs
    exact h.withRun (written_of_ensureRunIntent hp)
  | clearMigrationFlag generation =>
    obtain rfl := Option.some.inj hs
    exact ⟨h.once, fun hne => clearMigrationFlag_present (h.present hne) generation,
      fun a ha => (h.backed a ha).clearMigrationFlag generation, h.follows⟩
  | elsewhere applied mission reserved =>
    obtain rfl := Option.some.inj hs
    exact ⟨h.once, h.present, h.backed, h.follows⟩
  | replace =>
    rw [Promoting.step] at hs
    cases hp : s.phase with
    | idle =>
      rw [hp] at hs
      obtain rfl := Option.some.inj hs
      exact h.drop rfl
    | decided _ | acknowledged =>
      rw [hp] at hs
      cases hs

end Runs

/-! ## The claim and its failure -/

/-- **Pending requests are promoted once.** Over every run from any records, with crashes and other
writers anywhere, at most one desired record is created for the request; and after an
acknowledgement with `ok` and a generation, every later one is the same as long as nobody else has
written an intent, and otherwise follows the newer record: `ok` with its greater generation where it
names the commit of the request, a conflict where it does not. -/
theorem promoted_once (request : RunRequest) (r : Records) (acts : List PromotingAct)
    (t : Promoting) (h : exec (Promoting.step request) (.start r) acts = some t) :
    t.created.length ≤ 1 ∧
      t.acks.Pairwise fun later earlier => Follows request.commit earlier later := by
  have hinv : t.Inv request.commit :=
    exec_invariant (fun _ _ _ => Promoting.Inv.step) (Promoting.start_inv r) h
  exact ⟨hinv.once, hinv.follows.sublist (List.sublist_append_right _ _)⟩

/-- The request of a first installation. -/
def installRequest : RunRequest where
  commit := List.replicate 40 0x61
  repo := []
  uvPath := []
  workerId := none

/-- The daemon crashes between the acknowledgement and the removal, and promotes again. -/
def replayedRun (meanwhile : List PromotingAct) : List PromotingAct :=
  [.promote 0, .acknowledge, .crash] ++ meanwhile ++ [.promote 2, .acknowledge]

/-- A replay that nobody came before, up to the removal. -/
theorem promoted_once_replayed : ∃ t,
    exec (Promoting.step installRequest) (.start World.fresh.records)
      (replayedRun [] ++ [.remove]) = some t ∧
    t.acks.map Answer.ack = [.promoted 1, .promoted 1] ∧ t.created.length ≤ 1 ∧
      t.acks.Pairwise fun later earlier => Follows installRequest.commit earlier later :=
  ⟨_, rfl, rfl,
    promoted_once installRequest World.fresh.records (replayedRun [] ++ [.remove]) _ rfl⟩

/-- Somebody else asks for a run in between: of another commit, and the replay answers with a
conflict; of the same commit, and it answers with another generation. -/
theorem replay_answers_differently :
    (∃ t, exec (Promoting.step installRequest) (.start World.fresh.records)
      (replayedRun [.requestRun 1 restartPrevious]) = some t ∧
        t.acks.map Answer.ack = [.failed authorityConflict, .promoted 1]) ∧
    ∃ t, exec (Promoting.step installRequest) (.start World.fresh.records)
      (replayedRun [.requestRun 1 installRequest]) = some t ∧
        t.acks.map Answer.ack = [.promoted 2, .promoted 1] :=
  ⟨⟨_, rfl, rfl⟩, _, rfl, rfl⟩

end Lubko.Deploy
