import Lubko.Cli.Runtime

/-!
# Which runtimes are removed

`supervisor_authoritative_commits`, `remove_cli_root` and `gc_cli_roots` of `cli.py`, over the reads
of `supervise_client.py`: with the token the records are read from disk, without it the daemon is
asked for a snapshot of them. A read may fail, and the failure is caught, where the record then
counts as absent, or leaves the call.

* `known_iff` — when the call that asks for the commits keeps one.
* `roots_in_use_kept_iff` — exactly when no call removes the selected root, nor one that the records
  on disk name.
-/

namespace Lubko.Cli

open Lubko.Lib Lubko.Supervise Lubko.Lifecycle

variable {F D : Type}

/-! ## Reading the records -/

/-- `LUBKO_SUPERVISOR_STATE_TOKEN`. -/
inductive Token where
  | absent
  | valid
  | malformed
  deriving DecidableEq

/-- How one read goes: whether the daemon answers, and the `OSError` on opening each record. -/
structure Visit where
  connects : Bool
  desiredError : Option PyStr
  stateError : Option PyStr
  deriving DecidableEq

/-- How a call reaches the records: the desired intent is read first, then the state. -/
structure Access where
  token : Token
  desired : Visit
  state : Visit
  deriving DecidableEq

/-- What opening a record finds. -/
def opened (error : Option PyStr) (file : Option (List UInt8)) : FileBytes :=
  match error, file with
  | some text, _ => .unreadable text
  | none, none => .absent false
  | none, some data => .bytes data

/-- What a read raises. -/
inductive ReadFailure where
  /-- `ConnectionRefusedError`: no daemon answered. -/
  | connection
  /-- `RuntimeError`: the daemon answered with an error. -/
  | runtime
  /-- `SupervisorStateTokenError`. -/
  | token
  | file (exc : PyError ErrorClass)
  deriving DecidableEq

section Reads

variable (py : Interpreter) (d : Disk F D)

/-- `_handle_authority_snapshot_request`. -/
def handleAuthoritySnapshotRequest (v : Visit) :
    Outcome (Option SupervisorDesired × SupervisorState) := do
  let desired ← readDesiredStrict py (opened v.desiredError d.desired)
  let state ← readStateFile py (opened v.stateError d.state)
  return (desired, state)

/-- `_snapshot_request`, behind the translation of a failed connection. -/
def snapshotRequest (v : Visit) : Except ReadFailure (Option SupervisorDesired × SupervisorState) :=
  if v.connects then
    match handleAuthoritySnapshotRequest py d v with
    | .ok snapshot => .ok snapshot
    | .error _ => .error .runtime
  else .error .connection

/-- `read_desired_client`. -/
def readDesiredClient (token : Token) (v : Visit) : Except ReadFailure (Option SupervisorDesired) :=
  match token with
  | .malformed => .error .token
  | .valid => (readDesiredStrict py (opened v.desiredError d.desired)).mapError .file
  | .absent => (snapshotRequest py d v).map Prod.fst

/-- `read_state_client`. -/
def readStateClient (token : Token) (v : Visit) : Except ReadFailure SupervisorState :=
  match token with
  | .malformed => .error .token
  | .valid => (readStateFile py (opened v.stateError d.state)).mapError .file
  | .absent => (snapshotRequest py d v).map Prod.snd

end Reads

/-- `isinstance(exc, OSError)`. -/
def isOSError : PyError ErrorClass → Bool
  | .osError _ | .fileNotFoundError => true
  | _ => false

/-- `except (ConnectionError, OSError)`. -/
def ReadFailure.isConnection : ReadFailure → Bool
  | .connection => true
  | .file exc => isOSError exc
  | _ => false

/-- `except (DesiredIntentError, ConnectionError, OSError)`. -/
def ReadFailure.isDesiredOrConnection : ReadFailure → Bool
  | .file exc => exc.isRaised .DesiredIntentError || isOSError exc
  | e => e.isConnection

/-- `supervisor_authoritative_commits`. -/
def supervisorAuthoritativeCommits (py : Interpreter) (d : Disk F D) (a : Access) :
    Except ReadFailure (List PyStr) := do
  let desired ← match readDesiredClient py d a.token a.desired with
    | .ok desired => pure desired
    | .error e => if e.isDesiredOrConnection then pure none else throw e
  let preserved := ((desired.map (·.commit)).filter isValidCommitName).toList
  match readStateClient py d a.token a.state with
  | .error e => if e.isConnection then return preserved else throw e
  | .ok state =>
    return preserved ++ (state.commit.filter isValidCommitName).toList ++
      (state.supervisorRuntimeCommit.filter isValidCommitName).toList

/-! ## Removal -/

/-- `remove_cli_root`; `left` is what is left of a tree that is removed with errors ignored. -/
def removeCliRoot (py : Interpreter) (a : Access) (left : PyStr → Option (Tree F D))
    (commit : PyStr) : Call F D Unit := do
  let d ← get
  if isValidCommitName commit = false ∨ d.current = some commit then return
  match supervisorAuthoritativeCommits py d a with
  | .error _ => throw .read
  | .ok authoritative =>
    if commit ∈ authoritative ∨ (d.roots commit).isNone then return
    unsealRuntime commit
    modify (Disk.setRoot commit (left commit))

/-- `CURRENT_LINK_NAME` and `CURRENT_TMP_NAME`. -/
def linkNames : List PyStr := ["current", "current.tmp"]

/-- `gc_cli_roots`. -/
def gcCliRoots (py : Interpreter) (a : Access) (left : PyStr → Option (Tree F D))
    (keep : List PyStr) : Call F D Unit := do
  let d ← get
  match supervisorAuthoritativeCommits py d a with
  | .error _ => throw .read
  | .ok authoritative =>
    let kept := linkNames ++ keep ++ d.current.toList ++ authoritative
    set { d with roots := fun name =>
      if name ∈ kept then d.roots name else (d.roots name).bind fun _ => left name }

/-! ## What the records name -/

/-- The text that a record on disk has under a key, whether or not a reader accepts the record. -/
def namedBy (py : Interpreter) (file : Option (List UInt8)) (key : String) : Option PyStr := do
  let text ← utf8 (← file)
  match (jsonLoads py text : Outcome Json) with
  | .ok (.obj members) => optionalString (Fields.get (memberOf members) key)
  | _ => none

/-- A record on disk names the commit: the desired intent, the applied state, or the runtime that
the supervisor itself runs from. -/
def Named (py : Interpreter) (d : Disk F D) (commit : PyStr) : Prop :=
  isValidCommitName commit = true ∧ (namedBy py d.desired "commit" = some commit ∨
    namedBy py d.state "commit" = some commit ∨
    namedBy py d.state "supervisor_runtime_commit" = some commit)

theorem namedBy_eq {py : Interpreter} {data : List UInt8} {text : List Char}
    {members : List (PyStr × Json)} (ht : utf8 data = some text)
    (hj : jsonLoads py text = (.ok (.obj members) : Outcome Json)) (key : String) :
    namedBy py (some data) key = optionalString (Fields.get (memberOf members) key) := by
  simp [namedBy, ht, hj]

theorem orMalformed_eq_ok {α : Type} {x : Option α} {a : α} :
    orMalformed x = .ok a ↔ x = some a := by
  cases x <;> simp [orMalformed]

theorem commit_of_fromDict {data : Fields} {x : SupervisorDesired}
    (h : SupervisorDesired.fromDict data = .ok x) :
    optionalString (data.get "commit") = some x.commit := by
  obtain ⟨desired, hdesired, h⟩ := except_bind_eq_ok.1 h
  obtain ⟨migration, -, h⟩ := except_bind_eq_ok.1 h
  obtain ⟨restart, -, h⟩ := except_bind_eq_ok.1 h
  obtain rfl := Except.ok.inj h
  have parsed := orMalformed_eq_ok.mp hdesired
  simp only [Option.bind_eq_bind, Option.bind_eq_some_iff] at parsed
  obtain ⟨_, -, _, -, commit, hcommit, _, -, _, -, _, -, _, -, hx⟩ := parsed
  rw [hcommit, ← Option.some.inj hx]

/-- The commit of an intent that is accepted is named. -/
theorem namedBy_of_readDesired {py : Interpreter} {data : List UInt8} {x : SupervisorDesired}
    (h : readDesiredStrict py (.bytes data) = .ok (some x)) :
    namedBy py (some data) "commit" = some x.commit := by
  rcases JsonReader.run_bytes_decoded h with ⟨t, v, ht, hj, hv⟩ | hinvalid
  · cases v with
    | obj members =>
      rw [namedBy_eq ht hj]
      obtain ⟨desired, hd, hx⟩ := except_bind_eq_ok.1 hv
      split_ifs at hx
      obtain rfl : desired = x := Option.some.inj (Except.ok.inj hx)
      cases hfrom : SupervisorDesired.fromDict (memberOf members) with
      | ok y =>
        rw [hfrom] at hd
        obtain rfl : y = desired := Except.ok.inj hd
        exact commit_of_fromDict hfrom
      | error exc =>
        rw [hfrom, translating] at hd
        split_ifs at hd
    | null | bool _ | int _ | float _ | str _ | arr _ => cases hv
  · cases hinvalid

/-- The commits of a state that is read are named. -/
theorem namedBy_of_readState {py : Interpreter} {data : List UInt8} {s : SupervisorState}
    (h : readStateFile py (.bytes data) = .ok s) {c : PyStr} :
    (s.commit = some c → namedBy py (some data) "commit" = some c) ∧
      (s.supervisorRuntimeCommit = some c →
        namedBy py (some data) "supervisor_runtime_commit" = some c) := by
  have held : ∀ s : SupervisorState, (.ok { freshState with ownershipHoldMalformed := true } :
      Outcome SupervisorState) = .ok s → s.commit = none ∧ s.supervisorRuntimeCommit = none := by
    intro s hs
    rw [← Except.ok.inj hs]
    exact ⟨rfl, rfl⟩
  rcases JsonReader.run_bytes_decoded h with ⟨t, v, ht, hj, hv⟩ | hinvalid
  · cases v with
    | obj members =>
      rw [namedBy_eq ht hj, namedBy_eq ht hj]
      by_cases hschema : strictInt (Json.get members "schema_version") = some SCHEMA_VERSION
      · simp only [if_pos hschema] at hv
        cases hfrom : SupervisorState.fromDict (memberOf members) with
        | ok y =>
          rw [hfrom] at hv
          obtain rfl : y = s := Except.ok.inj hv
          obtain ⟨-, rfl⟩ := fromDict_eq_ok.mp hfrom
          exact ⟨id, id⟩
        | error msg =>
          rw [hfrom] at hv
          cases hv
      · simp only [if_neg hschema] at hv
        obtain ⟨hc, hr⟩ := held s hv
        simp [hc, hr]
    | null | bool _ | int _ | float _ | str _ | arr _ =>
      obtain ⟨hc, hr⟩ := held s hv
      simp [hc, hr]
  · obtain ⟨hc, hr⟩ := held s hinvalid
    simp [hc, hr]

/-! ## What the call that asks for the commits keeps -/

/-- A read of the records tells the commit, or ends in an exception that is not caught: the desired
intent or the state that is read names it, or one of the two reads fails in a way that
`supervisor_authoritative_commits` does not take for absence. -/
def Known (py : Interpreter) (d : Disk F D) (a : Access) (commit : PyStr) : Prop :=
  (match readDesiredClient py d a.token a.desired with
    | .ok desired => desired.map (·.commit) = some commit
    | .error e => e.isDesiredOrConnection = false) ∨
  (match readStateClient py d a.token a.state with
    | .ok state => state.commit = some commit ∨ state.supervisorRuntimeCommit = some commit
    | .error e => e.isConnection = false)

theorem mem_filter_toList {x : Option PyStr} {c : PyStr} (hc : isValidCommitName c = true) :
    c ∈ (x.filter isValidCommitName).toList ↔ x = some c := by
  cases x with
  | none => simp
  | some y =>
    by_cases hy : isValidCommitName y = true
    · simp [Option.filter, hy, eq_comm]
    · have hne : y ≠ c := fun e => hy (e ▸ hc)
      simp [Option.filter, hy, hne]

/-- **The commits that are kept are those a read tells**, where no exception leaves the call. -/
theorem known_iff {py : Interpreter} {d : Disk F D} {a : Access} {c : PyStr}
    (hc : isValidCommitName c = true) :
    Known py d a c ↔ ∀ kept, supervisorAuthoritativeCommits py d a = .ok kept → c ∈ kept := by
  -- what the state adds to the commits that the desired intent gives
  have state (preserved : List PyStr) :
      (∀ kept, (match readStateClient py d a.token a.state with
        | .error e => if e.isConnection then pure preserved else throw e
        | .ok state => pure (preserved ++ (state.commit.filter isValidCommitName).toList ++
            (state.supervisorRuntimeCommit.filter isValidCommitName).toList) :
          Except ReadFailure (List PyStr)) = .ok kept → c ∈ kept) ↔
        c ∈ preserved ∨ (match readStateClient py d a.token a.state with
          | .ok state => state.commit = some c ∨ state.supervisorRuntimeCommit = some c
          | .error e => e.isConnection = false) := by
    cases readStateClient py d a.token a.state with
    | ok s => simp [pure, Except.pure, mem_filter_toList hc]
    | error e => cases he : e.isConnection <;> simp [he, pure, Except.pure, throw, throwThe,
        MonadExceptOf.throw]
  rw [Known, supervisorAuthoritativeCommits]
  cases readDesiredClient py d a.token a.desired with
  | ok desired =>
    refine Iff.trans ?_ (state _).symm
    rw [mem_filter_toList hc]
  | error e =>
    cases he : e.isDesiredOrConnection with
    | true =>
      simp only [if_pos, he]
      refine Iff.trans ?_ (state _).symm
      simp
    | false => simp [he, throw, throwThe, MonadExceptOf.throw, bind, Except.bind]

theorem not_known_iff {py : Interpreter} {d : Disk F D} {a : Access} {c : PyStr}
    (hc : isValidCommitName c = true) :
    ¬ Known py d a c ↔ ∃ kept, supervisorAuthoritativeCommits py d a = .ok kept ∧ c ∉ kept := by
  rw [known_iff hc]
  push Not
  rfl

/-- Without the token and without a daemon that answers, nothing is told. -/
theorem not_known_of_unanswered {py : Interpreter} {d : Disk F D} {a : Access} (c : PyStr)
    (htoken : a.token = .absent) (hdesired : a.desired.connects = false)
    (hstate : a.state.connects = false) : ¬ Known py d a c := by
  simp [Known, readDesiredClient, readStateClient, snapshotRequest, htoken, hdesired, hstate,
    Except.map, ReadFailure.isDesiredOrConnection, ReadFailure.isConnection]

/-- Where both records are opened and read, by the caller or by a daemon that answers it, every
commit that they name is told. -/
theorem known_of_read {py : Interpreter} {d : Disk F D} {a : Access} {c : PyStr}
    {desired : Option SupervisorDesired} {state : SupervisorState}
    (hdesired : ∀ v ∈ [a.desired, a.state],
      readDesiredStrict py (opened v.desiredError d.desired) = .ok desired)
    (hstate : ∀ v ∈ [a.desired, a.state],
      readStateFile py (opened v.stateError d.state) = .ok state)
    (reached : a.token = .absent → a.desired.connects = true ∧ a.state.connects = true)
    (named : desired.map (·.commit) = some c ∨ state.commit = some c ∨
      state.supervisorRuntimeCommit = some c) : Known py d a c := by
  have snapshot : ∀ v ∈ [a.desired, a.state],
      handleAuthoritySnapshotRequest py d v = .ok (desired, state) := by
    intro v hv
    rw [handleAuthoritySnapshotRequest, hdesired v hv, hstate v hv]
    rfl
  have first := snapshot a.desired (by simp)
  have second := snapshot a.state (by simp)
  cases htoken : a.token with
  | malformed => simp [Known, readDesiredClient, htoken, ReadFailure.isDesiredOrConnection,
      ReadFailure.isConnection]
  | valid =>
    have fromDesired := hdesired a.desired (by simp)
    have fromState := hstate a.state (by simp)
    simpa [Known, readDesiredClient, readStateClient, htoken, fromDesired, fromState,
      Except.mapError] using named
  | absent =>
    obtain ⟨hd, hs⟩ := reached htoken
    simpa [Known, readDesiredClient, readStateClient, snapshotRequest, htoken, hd, hs, first,
      second, Except.map] using named

/-! ## What a removal leaves -/

/-- The root that `remove_cli_root` deletes: no selected one, and none that is kept. -/
def Doomed (py : Interpreter) (a : Access) (d : Disk F D) (commit : PyStr) : Prop :=
  isValidCommitName commit = true ∧ d.current ≠ some commit ∧ (d.roots commit).isSome ∧
    ∃ kept, supervisorAuthoritativeCommits py d a = .ok kept ∧ commit ∉ kept

theorem after_removeCliRoot_of_doomed {py : Interpreter} {a : Access}
    {left : PyStr → Option (Tree F D)} {commit : PyStr} {d : Disk F D}
    (h : Doomed py a d commit) :
    after (removeCliRoot py a left commit) d = d.setRoot commit (left commit) := by
  obtain ⟨hvalid, hcurrent, hroot, kept, hkept, hmem⟩ := h
  have addressed : ¬ (isValidCommitName commit = false ∨ d.current = some commit) := by
    simp [hvalid, hcurrent]
  have present : ¬ (commit ∈ kept ∨ (d.roots commit).isNone) := by
    cases hr : d.roots commit <;> simp_all
  have unsealed : unsealRuntime commit d =
      .ok () (d.onRoot commit fun t => { t with readOnly := false }) := by
    rw [unsealRuntime, validateCommitName, require, if_pos hvalid]
    rfl
  rw [removeCliRoot, after, run_get_bind, if_neg addressed]
  simp only [hkept]
  rw [if_neg present, run_bind_ok unsealed]
  simp [Disk.onRoot, Disk.setRoot, modify, modifyGet, MonadStateOf.modifyGet, EStateM.modifyGet]

theorem after_removeCliRoot_of_not_doomed {py : Interpreter} {a : Access}
    {left : PyStr → Option (Tree F D)} {commit : PyStr} {d : Disk F D}
    (h : ¬ Doomed py a d commit) : after (removeCliRoot py a left commit) d = d := by
  rw [removeCliRoot, after, run_get_bind]
  by_cases addressed : isValidCommitName commit = false ∨ d.current = some commit
  · rw [if_pos addressed]
    rfl
  rw [if_neg addressed]
  cases hkept : supervisorAuthoritativeCommits py d a with
  | error e => rfl
  | ok kept =>
    by_cases present : commit ∈ kept ∨ (d.roots commit).isNone
    · simp only
      rw [if_pos present]
      rfl
    · simp only [not_or, Bool.not_eq_false] at addressed present
      refine absurd ⟨addressed.1, addressed.2, ?_, kept, hkept, present.1⟩ h
      cases hr : d.roots commit <;> simp_all

/-- What `gc_cli_roots` leaves of the roots. -/
def Disk.collected (kept : List PyStr) (left : PyStr → Option (Tree F D)) (d : Disk F D) :
    Disk F D :=
  { d with roots := fun name =>
    if name ∈ kept then d.roots name else (d.roots name).bind fun _ => left name }

theorem after_gcCliRoots {py : Interpreter} {a : Access} {left : PyStr → Option (Tree F D)}
    {keep : List PyStr} {d : Disk F D} :
    after (gcCliRoots py a left keep) d = match supervisorAuthoritativeCommits py d a with
      | .error _ => d
      | .ok authoritative =>
        d.collected (linkNames ++ keep ++ d.current.toList ++ authoritative) left := by
  rw [gcCliRoots, after, run_get_bind]
  cases supervisorAuthoritativeCommits py d a with
  | error e => rfl
  | ok authoritative => rfl

/-! ## Calls, one after the other -/

/-- A call of the module, or a write of the two records by the supervisor. -/
inductive Op (F D : Type) where
  | build (commit : PyStr) (b : BuildAnswers F D)
  | reseal (commit : PyStr) (took : Bool)
  | reconcile (commit : PyStr) (i : Inspection) (p : PointerWrite)
  | remove (commit : PyStr) (a : Access)
  | collect (keep : List PyStr) (a : Access)
  | publish (desired state : Option (List UInt8))

section Calls

variable [DecidableEq D] (py : Interpreter) (tools : Tools F D)

/-- What a call leaves on the disk, where `left` is left of the trees it removes. -/
def Op.step (left : PyStr → Option (Tree F D)) (d : Disk F D) : Op F D → Disk F D
  | build commit b => after (buildCliRoot tools b commit) d
  | reseal commit took => after (sealRuntime took commit) d
  | reconcile commit i p => after (reconcilePointer tools i p commit) d
  | remove commit a => after (removeCliRoot py a left commit) d
  | collect keep a => after (gcCliRoots py a left keep) d
  | publish desired state => { d with desired, state }

/-- The roots that a removal may delete, the commits that are kept apart. -/
def Op.Targets (d : Disk F D) : Op F D → PyStr → Prop
  | remove commit _, c => c = commit ∧ d.current ≠ some c ∧ (d.roots c).isSome
  | collect keep _, c => c ∉ linkNames ++ keep ∧ d.current ≠ some c ∧ (d.roots c).isSome
  | _, _ => False

/-- How a removal reaches the records. -/
def Op.access : Op F D → Option Access
  | remove _ a | collect _ a => some a
  | _ => none

/-- Of every root that a removal would delete and that a record on disk names, a read tells the
commit, or an exception leaves the call. -/
def Op.Informed (d : Disk F D) (op : Op F D) : Prop :=
  ∀ a ∈ op.access, ∀ c, op.Targets d c → Named py d c → Known py d a c

/-- The selected root keeps its content, and a removal leaves the named roots as they are. -/
structure Op.Spares (op : Op F D) (d d' : Disk F D) : Prop where
  selected : ∀ c, d.current = some c → contentOf (d'.roots c) = contentOf (d.roots c)
  named : op.access.isSome → ∀ c, Named py d c → d'.roots c = d.roots c

/-- A property of every step of a run; `lefts` says for each step what is left of removed trees. -/
def EveryStep (P : Op F D → Disk F D → Disk F D → Prop) :
    List (Op F D) → (ℕ → PyStr → Option (Tree F D)) → Disk F D → Prop
  | [], _, _ => True
  | op :: ops, lefts, d =>
    P op d (op.step py tools (lefts 0) d) ∧
      EveryStep P ops (fun n => lefts (n + 1)) (op.step py tools (lefts 0) d)

variable {py}

theorem named_kept_iff {op : Op F D} {d : Disk F D} :
    (∀ left, op.access.isSome → ∀ c, Named py d c →
      (op.step py tools left d).roots c = d.roots c) ↔ op.Informed py d := by
  cases op with
  | build commit b => simp [Op.access, Op.Informed]
  | reseal commit took => simp [Op.access, Op.Informed]
  | reconcile commit i p => simp [Op.access, Op.Informed]
  | publish desired state => simp [Op.access, Op.Informed]
  | remove commit a =>
    constructor
    · intro kept a' ha c target named
      obtain rfl : a = a' := Option.some.inj ha
      obtain ⟨rfl, hcurrent, hroot⟩ := target
      by_contra unknown
      have doomed : Doomed py a d c :=
        ⟨named.1, hcurrent, hroot, (not_known_iff named.1).mp unknown⟩
      have gone := kept (fun _ => none) rfl c named
      rw [Op.step, after_removeCliRoot_of_doomed doomed] at gone
      simp [Disk.setRoot, ← gone] at hroot
    · intro informed left _ c named
      rw [Op.step]
      by_cases doomed : Doomed py a d commit
      · have hne : c ≠ commit := by
          rintro rfl
          obtain ⟨hvalid, hcurrent, hroot, unkept⟩ := doomed
          exact (not_known_iff hvalid).mpr unkept
            (informed a rfl c ⟨rfl, hcurrent, hroot⟩ named)
        rw [after_removeCliRoot_of_doomed doomed]
        exact (apart_setRoot commit _ d).roots c hne
      · rw [after_removeCliRoot_of_not_doomed doomed]
  | collect keep a =>
    constructor
    · intro kept a' ha c target named
      obtain rfl : a = a' := Option.some.inj ha
      obtain ⟨hkeep, hcurrent, hroot⟩ := target
      by_contra unknown
      obtain ⟨authoritative, hauth, hmem⟩ := (not_known_iff named.1).mp unknown
      have gone := kept (fun _ => none) rfl c named
      rw [Op.step, after_gcCliRoots, hauth] at gone
      have unkept : c ∉ linkNames ++ keep ++ d.current.toList ++ authoritative := by
        rw [List.mem_append, List.mem_append, Option.mem_toList]
        exact not_or.mpr ⟨not_or.mpr ⟨hkeep, hcurrent⟩, hmem⟩
      simp only [Disk.collected, if_neg unkept] at gone
      cases hr : d.roots c <;> simp [hr] at gone hroot
    · intro informed left _ c named
      rw [Op.step, after_gcCliRoots]
      cases hauth : supervisorAuthoritativeCommits py d a with
      | error e => rfl
      | ok authoritative =>
        by_cases hmem : c ∈ linkNames ++ keep ++ d.current.toList ++ authoritative
        · simp only [Disk.collected, if_pos hmem]
        · simp only [Disk.collected, if_neg hmem]
          cases hr : d.roots c with
          | none => rfl
          | some t =>
            simp only [List.mem_append, Option.mem_toList, not_or] at hmem
            have target : (Op.collect keep a : Op F D).Targets d c :=
              ⟨by simpa using hmem.1.1, hmem.1.2, by simp [hr]⟩
            have known := informed a rfl c target named
            exact absurd ((known_iff named.1).mp known authoritative hauth) hmem.2

theorem selected_kept (op : Op F D) (left : PyStr → Option (Tree F D)) (d : Disk F D)
    {c : PyStr} (hc : d.current = some c) :
    contentOf ((op.step py tools left d).roots c) = contentOf (d.roots c) := by
  cases op with
  | build commit b =>
    by_cases h : c = commit
    · subst h
      exact (buildCliRoot_keeps_current hc).roots c
    · exact congrArg contentOf ((buildCliRoot_apart d).roots c h)
  | reseal commit took => exact (sealRuntime_upto took commit d).roots c
  | reconcile commit i p => exact (reconcilePointer_roots tools i p commit d).roots c
  | remove commit a =>
    by_cases h : Doomed py a d commit
    · have hne : c ≠ commit := fun e => h.2.1 (e ▸ hc)
      rw [Op.step, after_removeCliRoot_of_doomed h, (apart_setRoot commit _ d).roots c hne]
    · rw [Op.step, after_removeCliRoot_of_not_doomed h]
  | collect keep a =>
    rw [Op.step, after_gcCliRoots]
    cases supervisorAuthoritativeCommits py d a with
    | error e => rfl
    | ok authoritative => simp [Disk.collected, hc]
  | publish desired state => rfl

theorem spares_iff {op : Op F D} {d : Disk F D} :
    (∀ left, op.Spares py d (op.step py tools left d)) ↔ op.Informed py d := by
  rw [← named_kept_iff tools]
  exact ⟨fun h left => (h left).named, fun h left => ⟨fun _ => selected_kept tools op left d, h left⟩⟩

/-- **In a run of builds, seals, switches and removals, the selected root is never removed nor
modified; and no root that a record on disk names is removed exactly where each removal is told
the commit or ends in an exception.** -/
theorem roots_in_use_kept_iff (ops : List (Op F D)) (d : Disk F D) :
    (∀ lefts, EveryStep py tools (fun op d d' => op.Spares py d d') ops lefts d) ↔
      ∀ lefts, EveryStep py tools (fun op d _ => op.Informed py d) ops lefts d := by
  induction ops generalizing d with
  | nil => exact iff_of_true (fun _ => trivial) fun _ => trivial
  | cons op ops ih =>
    -- what is left at the first step and at the later ones is chosen apart
    have split (P : Op F D → Disk F D → Disk F D → Prop) :
        (∀ lefts, EveryStep py tools P (op :: ops) lefts d) ↔
          (∀ left, P op d (op.step py tools left d)) ∧
            ∀ left lefts, EveryStep py tools P ops lefts (op.step py tools left d) := by
      constructor
      · intro h
        refine ⟨fun left => (h fun _ => left).1, fun left lefts => ?_⟩
        exact (h fun n => n.casesOn left lefts).2
      · rintro ⟨first, later⟩ lefts
        exact ⟨first _, later _ _⟩
    rw [split, split, spares_iff]
    refine and_congr ?_ (forall_congr' fun left => ih _)
    exact ⟨fun h _ => h, fun h => h fun _ => none⟩

end Calls

/-! ## A collection that is told nothing -/

def namedCommit : PyStr := List.replicate 40 0x61

/-- The durable desired intent of a host that runs the commit. -/
def namingIntent : List UInt8 :=
  utf8Encode (dumps (Json.obj ((SupervisorDesired.mk 1 1 namedCommit "/srv/lubko" "/usr/bin/uv"
    none false 0 false).toDict fun _ => ['0', '.', '0'])) ++ ['\n'])

/-- A host whose runtime is the only one, not selected by `cli/current` yet. -/
def namingDisk : Disk Unit Unit where
  roots := Function.update (fun _ => none) namedCommit
    (some ⟨(), some (namedCommit, ()), true⟩)
  current := none
  desired := some namingIntent
  state := none

/-- No token, and no daemon that answers. -/
def unanswered : Access where
  token := .absent
  desired := ⟨false, none, none⟩
  state := ⟨false, none, none⟩

/-- The runtime that the durable intent names is removed by a collection that cannot ask. -/
theorem collection_removes_named :
    Named plainInterpreter namingDisk namedCommit ∧
      (namingDisk.roots namedCommit).isSome ∧
      ((Op.collect [] unanswered).step plainInterpreter ⟨(), fun _ => true, fun _ => ()⟩
        (fun _ => none) namingDisk).roots namedCommit = none := by
  refine ⟨⟨by decide, .inl (by decide +kernel)⟩, by simp [namingDisk], ?_⟩
  have told : supervisorAuthoritativeCommits plainInterpreter namingDisk unanswered = .ok [] := rfl
  have unkept : namedCommit ∉ linkNames ++ [] ++ namingDisk.current.toList ++ [] := by decide
  rw [Op.step, after_gcCliRoots, told]
  simp only [Disk.collected, if_neg unkept]
  simp [namingDisk]

end Lubko.Cli
