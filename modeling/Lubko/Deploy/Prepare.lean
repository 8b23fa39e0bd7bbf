import Lubko.Lifecycle.MetaCodec
import Lubko.Supervise.Desired

/-!
# The missions of the controller

`_build_options` and `_prepare_locked` of `deployctl.py`, and what each later step writes of the
mission it holds: publication, the handoff, the restart of the previous worker, confirmation,
rollback and `archive_mission`.

The option values come from the command line: `argparse` takes any float, `nan` and `inf` included,
and `_build_options` checks the confirmation window only.

* `MissionHeld.valid` — what holds of every mission the controller has.
* `MissionWritten.valid` — the same for a mission it writes.
-/

namespace Lubko.Deploy

open Lubko.Lib Lubko.Supervise Lubko.Lifecycle

/-! ## Floats -/

/-- `x <= 0`; no comparison with `nan` holds. -/
def PyFloat.atMostZero : PyFloat → Bool
  | .finite q => q ≤ 0
  | .infinite negative => negative
  | .nan => false

/-- A sum rounded to a float. -/
def PyFloat.rounded (q : ℚ) : PyFloat :=
  if q < 0 then (roundBinary64 (-q)).elim (.infinite true) fun r => .finite (-r)
  else (roundBinary64 q).elim (.infinite false) .finite

/-- `x + y`. -/
def PyFloat.add : PyFloat → PyFloat → PyFloat
  | .nan, _ | _, .nan => .nan
  | .infinite a, .infinite b => if a = b then .infinite a else .nan
  | .infinite a, .finite _ => .infinite a
  | .finite _, .infinite b => .infinite b
  | .finite p, .finite q => .rounded (p + q)

/-- A finite number that is not negative. -/
def PyFloat.NonNegative (x : PyFloat) : Prop := ∃ q, x = .finite q ∧ 0 ≤ q

/-- A finite number that is positive. -/
def PyFloat.Positive (x : PyFloat) : Prop := ∃ q, x = .finite q ∧ 0 < q

/-! ## Options -/

/-- A text of the operating system: a byte that is not decoded is a low surrogate, so no two code
points form a pair. -/
abbrev OsText := { s : PyStr // Joined s }

/-- What `time.time()` returns. -/
abbrev Moment := { q : ℚ // 0 ≤ q }

/-- The moment the clock counts from. -/
def epoch : Moment := ⟨0, le_rfl⟩

/-- The parsed arguments, without the request and the `uv` candidate. -/
structure Arguments where
  repo : OsText
  confirmWindowSeconds : PyFloat
  graceSeconds : PyFloat
  dbTimeout : PyFloat
  lockTimeout : PyFloat
  validationTimeout : PyFloat
  gitTimeout : PyFloat
  cliTimeout : PyFloat
  sourceUrl : Option OsText

/-- `Options`. -/
structure Options where
  repo : OsText
  uvPath : OsText
  confirmWindowSeconds : PyFloat
  stopGraceSeconds : PyFloat
  postgresTimeoutSeconds : PyFloat
  lockTimeoutSeconds : PyFloat
  validationTimeoutSeconds : PyFloat
  gitTimeoutSeconds : PyFloat
  cliTimeoutSeconds : PyFloat
  sourceUrl : Option OsText

/-- `_build_options`, behind `resolve_uv`; `resolve` is `Path.resolve`. -/
def buildOptions (resolve : OsText → OsText) (uvPath : OsText) (args : Arguments) :
    Outcome Options :=
  let options : Options :=
    { repo := resolve args.repo
      uvPath := uvPath
      confirmWindowSeconds := args.confirmWindowSeconds
      stopGraceSeconds := args.graceSeconds
      postgresTimeoutSeconds := args.dbTimeout
      lockTimeoutSeconds := args.lockTimeout
      validationTimeoutSeconds := args.validationTimeout
      gitTimeoutSeconds := args.gitTimeout
      cliTimeoutSeconds := args.cliTimeout
      sourceUrl := args.sourceUrl }
  if options.confirmWindowSeconds.atMostZero then
    .error (.raised .DeployCtlError "confirmation window must be positive")
  else .ok options

/-! ## Gated workers -/

/-- `ProcessIdentity`: a process has a positive number, and starts after the clock does. -/
structure ProcessIdentity where
  pid : ℤ
  pgid : ℤ
  sid : ℤ
  startTimeTicks : ℤ
  pid_pos : 1 ≤ pid
  ticks_pos : 1 ≤ startTimeTicks

/-- A process that was started behind a gate: its number, what `_wait_for_identity` returned, and
what its metadata is made of. -/
structure GatedProcess where
  pid : ℤ
  identity : Option ProcessIdentity
  token : OsText
  /-- `env.get("LUBKO_WORKER_ID")`. -/
  workerId : Option OsText
  hostname : OsText
  logPath : OsText
  startedAt : Moment
  pid_pos : 1 ≤ pid

/-- `a or b or ... or last`, for texts that may be missing. -/
def firstNonEmpty (last : PyStr) : List (Option PyStr) → PyStr
  | [] => last
  | none :: rest => firstNonEmpty last rest
  | some s :: rest => if s.isEmpty then firstNonEmpty last rest else s

/-- The metadata of a gated process that leads its own session. -/
def GatedProcess.workerMeta (p : GatedProcess) (repo commit : PyStr) (workerId : PyStr) :
    Option WorkerMeta :=
  p.identity.bind fun identity =>
    if identity.pgid ≠ p.pid ∨ identity.sid ≠ p.pid then none
    else some
      { schemaVersion := META_SCHEMA_VERSION
        state := .running
        pid := some identity.pid
        pgid := some identity.pgid
        sid := some identity.sid
        startTimeTicks := some identity.startTimeTicks
        token := some p.token
        repo := repo
        gitCommit := some commit
        workerId := some workerId
        logPath := p.logPath
        startedAt := some p.startedAt
        stoppedAt := none }

/-- `_spawn_gated_candidate`. -/
def spawnGatedCandidate (options : Options) (commit : PyStr) (p : GatedProcess) :
    Outcome WorkerMeta :=
  match p.workerMeta options.repo commit
    (firstNonEmpty p.hostname [p.workerId.map Subtype.val]) with
  | some m => .ok m
  | none => .error (.raised .DeployCtlError
    "candidate exited before the rollback mission could be armed")

/-- `_spawn_gated_previous_worker`. -/
def spawnGatedPreviousWorker (s : RollbackState) (previous : WorkerMeta) (p : GatedProcess) :
    Option WorkerMeta :=
  p.workerMeta s.repo s.previousCommit
    (firstNonEmpty p.hostname [p.workerId.map Subtype.val, previous.workerId])

/-! ## Preparation -/

/-- `read_meta`. -/
def readMeta (py : Interpreter) (file : FileBytes) : Outcome (Option WorkerMeta) :=
  match readMetaStrict py file with
  | .error exc => if exc.isRaised .WorkerMetadataError then .ok none else .error exc
  | read => read

/-- What preparing a mission finds: the answers of Git, the validation, the runtime build and
PostgreSQL, the files it reads, and the processes it starts. -/
structure Surroundings where
  /-- `_cleanup_pending_locked`. -/
  cleanup : Outcome Unit
  metaFile : FileBytes
  workerAlive : WorkerMeta → Bool
  /-- What `git rev-parse` says of a commit. -/
  revParse : PyStr → Outcome Unit
  /-- `_provenance_fetch`. -/
  provenance : Outcome Unit
  /-- `_require_clean_checkout`. -/
  cleanCheckout : Outcome Unit
  checkedOut : Bool
  /-- `run_validation`: the detail of a report that is not ok. -/
  validationFailure : Option PyStr
  /-- The `CliError` of `cli.build_cli_root`. -/
  cliFailure : Option PyStr
  candidate : GatedProcess
  postgres : Bool
  files : Files
  now : Moment

/-- `_require_exact_commit`. -/
def requireExactCommit (w : Surroundings) (commit : PyStr) : Outcome Unit :=
  if commitMatches commit then w.revParse commit
  else .error (.raised .DeployCtlError
    "checkout requires an exact 40-character lowercase commit hash")

/-- `_candidate_identity`. -/
def candidateIdentity (options : Options) (commit : PyStr) (supervised : Bool) (p : GatedProcess) :
    Outcome (Option WorkerMeta) :=
  if supervised then .ok none else (spawnGatedCandidate options commit p).map some

/-- `authorize_mission_publish`, for an authority that was read. -/
def authorizeMissionPublish (existing : Option RollbackState) : Bool :=
  existing.map RollbackState.status ≠ some .pending

/-- `next_mission_generation`: the supervisor computes the same number for a caller without its
token. -/
def nextMissionGeneration (py : Interpreter) (files : Files) : Outcome ℤ :=
  match nextGeneration py files with
  | .error (.raised .MissionAuthorityError msg) => .error (.raised .DeployCtlError msg)
  | allocated => allocated

/-- A check that ends in a `DeployCtlError`. -/
def requireThat (holds : Bool) (msg : PyStr) : Outcome Unit :=
  if holds then .ok () else .error (.raised .DeployCtlError msg)

/-- The live worker preparation starts from, with its commit. -/
def knownGood (w : Surroundings) : Option WorkerMeta → Outcome (WorkerMeta × PyStr)
  | none => .error (.raised .DeployCtlError
    "a live maintained known-good worker is required for safe checkout")
  | some previous =>
    match previous.gitCommit with
    | some commit =>
      if w.workerAlive previous then .ok (previous, commit)
      else .error (.raised .DeployCtlError
        "a live maintained known-good worker is required for safe checkout")
    | none => .error (.raised .DeployCtlError
      "a live maintained known-good worker is required for safe checkout")

/-- `_prepare_locked`. -/
def prepareLocked (py : Interpreter) (options : Options) (commit : PyStr) (supervised : Bool)
    (w : Surroundings) : Outcome RollbackState := do
  w.cleanup
  let (previous, previousCommit) ← readMeta py w.metaFile >>= knownGood w
  requireExactCommit w previousCommit
  requireExactCommit w commit
  requireThat (commit ≠ previousCommit) "candidate commit is already the maintained worker commit"
  w.provenance
  w.cleanCheckout
  requireThat w.checkedOut (PyStr.ofString "could not check out candidate commit " ++ commit)
  requireThat w.validationFailure.isNone
    (PyStr.ofString "candidate validation failed: " ++ w.validationFailure.getD [])
  requireThat w.cliFailure.isNone
    (PyStr.ofString "candidate CLI environment could not be built: " ++ w.cliFailure.getD [])
  let newMeta ← candidateIdentity options commit supervised w.candidate
  requireThat w.postgres "stable wrapper cannot reach PostgreSQL before handoff"
  let existing ← readRollbackState py w.files.mission
  requireThat (authorizeMissionPublish existing)
    (PyStr.ofString "lifecycle authority refuses a new pending mission: a supervised checkout " ++
      PyStr.ofString "is already pending or durable authority is malformed")
  let generation ← nextMissionGeneration py w.files
  return { schemaVersion := ROLLBACK_SCHEMA_VERSION
           generation := generation
           status := .pending
           commit := commit
           previousCommit := previousCommit
           deadline := PyFloat.add (.finite w.now) options.confirmWindowSeconds
           repo := options.repo
           uvPath := options.uvPath
           stopGraceSeconds := options.stopGraceSeconds
           gitTimeoutSeconds := options.gitTimeoutSeconds
           previousRetiring := false
           previousMeta := previous
           newMeta := newMeta
           supervisorOwned := some supervised }

/-! ## Later steps -/

/-- The live mission of `_wait_for_supervisor_mission` and `_release_legacy_gated_candidate`. -/
def RollbackState.refreshed (s : RollbackState) (now : Moment) (confirmWindowSeconds : PyFloat) :
    RollbackState :=
  { s with deadline := PyFloat.add (.finite now) confirmWindowSeconds }

/-- The retiring mission of `_complete_legacy_handoff`. -/
def RollbackState.retiring (s : RollbackState) : RollbackState := { s with previousRetiring := true }

/-- The prepared mission of `_spawn_previous_worker`. -/
def RollbackState.restartPrepared (s : RollbackState) (m : WorkerMeta) : RollbackState :=
  { s with previousRestartMeta := some m, previousRestartReleased := false }

/-- The released mission of `_spawn_previous_worker`. -/
def RollbackState.restartReleased (s : RollbackState) : RollbackState :=
  { s with previousRestartReleased := true }

/-- `_clear_previous_restart_obligation`. -/
def RollbackState.clearPreviousRestartObligation (s : RollbackState) : RollbackState :=
  { s with previousRestartMeta := none, previousRestartReleased := false }

/-- The terminal mission of `_confirmation_locked_body`, `_finalize_confirmation` and
`_finalize_supervised_rollback`. -/
def RollbackState.terminal (s : RollbackState) (status : MissionStatus) : RollbackState :=
  { s with status := status }

/-- The terminal mission of `_rollback_legacy_locked`. -/
def RollbackState.legacyTerminal (s : RollbackState) : RollbackState :=
  s.clearPreviousRestartObligation.terminal .rolledBack

/-- `archive_mission`. -/
def archiveMission (py : Interpreter) (s : RollbackState) (status : MissionStatus) :
    Outcome RollbackState :=
  match status with
  | .confirmed | .rolledBack => .ok (s.terminal status)
  | .pending => .error (.raised .DeployCtlError
    (PyStr.ofString "cannot archive a mission as " ++ py.strRepr status.text))

/-- A step of the controller that writes a mission: the one it holds, and the one it writes. -/
inductive MissionWrite (py : Interpreter) (s : RollbackState) : RollbackState → Prop
  /-- `publish_mission` and `_publish_legacy_mission`. -/
  | published (hpending : s.status = .pending) : MissionWrite py s s
  | refreshed {resolve : OsText → OsText} {uvPath : OsText} {args : Arguments} {options : Options}
      (hpending : s.status = .pending) (hoptions : buildOptions resolve uvPath args = .ok options)
      (now : Moment) : MissionWrite py s (s.refreshed now options.confirmWindowSeconds)
  | retiring (hpending : s.status = .pending) (howned : s.supervisorOwned = some false) :
      MissionWrite py s s.retiring
  | restartPrepared {m : WorkerMeta} {p : GatedProcess} (hpending : s.status = .pending)
      (howned : s.supervisorOwned = some false)
      (hspawn : spawnGatedPreviousWorker s s.previousMeta p = some m) :
      MissionWrite py s (s.restartPrepared m)
  | restartReleased (hpending : s.status = .pending) (howned : s.supervisorOwned = some false)
      (hprepared : s.previousRestartMeta.isSome = true) : MissionWrite py s s.restartReleased
  | restartCleared (hpending : s.status = .pending) (howned : s.supervisorOwned = some false) :
      MissionWrite py s s.clearPreviousRestartObligation
  | confirmed (hpending : s.status = .pending) (howned : s.supervisorOwned ≠ none) :
      MissionWrite py s (s.terminal .confirmed)
  | rolledBack (hpending : s.status = .pending) (howned : s.supervisorOwned = some true) :
      MissionWrite py s (s.terminal .rolledBack)
  | legacyRolledBack (hpending : s.status = .pending) (howned : s.supervisorOwned = some false) :
      MissionWrite py s s.legacyTerminal
  | archived {status : MissionStatus} {t : RollbackState} (h : archiveMission py s status = .ok t) :
      MissionWrite py s t

/-- A mission the controller holds: it has prepared it, read it, or written it. -/
inductive MissionHeld (py : Interpreter) : RollbackState → Prop
  | prepared {resolve : OsText → OsText} {uvPath : OsText} {args : Arguments} {options : Options}
      {commit : PyStr} {supervised : Bool} {w : Surroundings} {s : RollbackState}
      (hoptions : buildOptions resolve uvPath args = .ok options)
      (h : prepareLocked py options commit supervised w = .ok s) : MissionHeld py s
  | read {file : FileBytes} {s : RollbackState} (h : readRollbackState py file = .ok (some s)) :
      MissionHeld py s
  | written {s t : RollbackState} (hs : MissionHeld py s) (ht : MissionWrite py s t) :
      MissionHeld py t

/-- A mission the controller writes. -/
def MissionWritten (py : Interpreter) (t : RollbackState) : Prop :=
  ∃ s, MissionHeld py s ∧ MissionWrite py s t

/-! ## What holds of a mission -/

/-- What holds of every mission the controller has. -/
structure RollbackState.Valid (s : RollbackState) : Prop where
  schema : s.schemaVersion = ROLLBACK_SCHEMA_VERSION
  generation : 1 ≤ s.generation
  commit : commitMatches s.commit = true
  previousCommit : commitMatches s.previousCommit = true
  repoText : Joined s.repo
  uvText : Joined s.uvPath
  previousMeta : s.previousMeta.Valid Joined
  newMeta : ∀ m ∈ s.newMeta, m.Valid Joined
  candidate : s.supervisorOwned ≠ some true → s.newMeta.isSome = true
  restartMeta : ∀ m ∈ s.previousRestartMeta, m.Valid Joined
  restart : ∀ m ∈ s.previousRestartMeta, s.supervisorOwned = some false ∧ m.state = .running ∧
    m.repo = s.repo ∧ m.gitCommit = some s.previousCommit
  released : s.previousRestartReleased = true → s.previousRestartMeta.isSome = true

theorem joined_of_commitMatches {s : PyStr} (h : commitMatches s = true) : Joined s := by
  refine PyStr.joinSurrogates_of_not_high fun c hc => ?_
  rw [commitMatches, Bool.and_eq_true, List.all_eq_true] at h
  have hdigit := h.2 c hc
  simp only [Bool.or_eq_true, Bool.and_eq_true, decide_eq_true_eq] at hdigit
  rw [Bool.eq_false_iff, Ne, CodePoint.isHigh_iff]
  omega

theorem firstNonEmpty_text {P : PyStr → Prop} {last : PyStr} (hlast : P last)
    {choices : List (Option PyStr)} (hchoices : ∀ x ∈ choices, ∀ s ∈ x, P s) :
    P (firstNonEmpty last choices) := by
  induction choices with
  | nil => exact hlast
  | cons x rest ih =>
    rw [List.forall_mem_cons] at hchoices
    cases x with
    | none => exact ih hchoices.2
    | some s =>
      rw [firstNonEmpty]
      split_ifs
      · exact ih hchoices.2
      · exact hchoices.1 s rfl

section Gated

variable {p : GatedProcess} {repo commit workerId : PyStr} {m : WorkerMeta}

/-- What the metadata of a gated process says. -/
theorem GatedProcess.workerMeta_valid (h : p.workerMeta repo commit workerId = some m)
    (hrepo : Joined repo) (hcommit : Joined commit) (hworker : Joined workerId) :
    m.Valid Joined ∧ m.state = .running ∧ m.repo = repo ∧ m.gitCommit = some commit := by
  obtain ⟨identity, -, hm⟩ := Option.bind_eq_some_iff.1 h
  split_ifs at hm with hprivate
  obtain ⟨hpgid, hsid⟩ := not_or.1 hprivate
  obtain rfl := Option.some.inj hm
  have hpid := p.pid_pos
  have hidentity := identity.pid_pos
  have hticks := identity.ticks_pos
  refine ⟨⟨rfl, ?_, ?_, ?_, ?_, ?_, hrepo, ?_, ?_, p.logPath.2, ?_, nofun⟩, rfl, rfl, rfl⟩
  all_goals
    intro x hx
    obtain rfl := Option.some.inj hx
  · exact hidentity
  · rw [not_not.1 hpgid]
    exact hpid
  · rw [not_not.1 hsid]
    exact hpid.trans' zero_le_one
  · exact hticks
  · exact p.token.2
  · exact hcommit
  · exact hworker
  · exact p.startedAt.2

/-- The worker names a gated process can get are texts. -/
theorem GatedProcess.workerId_text {others : List (Option PyStr)}
    (hothers : ∀ x ∈ others, ∀ s ∈ x, Joined s) :
    Joined (firstNonEmpty p.hostname (p.workerId.map Subtype.val :: others)) := by
  refine firstNonEmpty_text p.hostname.2 (List.forall_mem_cons.2 ⟨fun s hs => ?_, hothers⟩)
  obtain ⟨t, -, rfl⟩ := Option.map_eq_some_iff.1 hs
  exact t.2

end Gated

/-! ## What was read -/

/-- The texts of the members of a value that was loaded. -/
theorem joined_of_built {members : List (PyStr × Json)} (h : Json.Built (.obj members)) :
    ∀ k s, memberOf members k = some (.str s) → Joined s :=
  fun _ _ hs => (Json.Built.member h hs).joined

theorem readMeta_valid {py : Interpreter} {file : FileBytes} {m : WorkerMeta}
    (h : readMeta py file = .ok (some m)) : m.Valid Joined := by
  have hread : readMetaStrict py file = .ok (some m) := by
    rw [readMeta] at h
    split at h
    · split_ifs at h
      cases h
    · exact h
  cases file with
  | absent dangling => cases dangling <;> cases hread
  | unreadable text => cases hread
  | bytes data =>
    rcases JsonReader.run_bytes_eq_ok hread with ⟨v, hbuilt, hv⟩ | hinvalid
    · cases v with
      | obj members =>
        dsimp only at hv
        cases hm : WorkerMeta.fromDict py (memberOf members) with
        | ok m' =>
          rw [hm] at hv
          obtain rfl : m' = m := by simpa [Except.map, translating] using hv
          exact WorkerMeta.fromDict_valid (fun _ h => h) (joined_of_built hbuilt) hm
        | error exc =>
          rw [hm] at hv
          simp only [Except.map, translating] at hv
          split_ifs at hv
      | null | bool _ | int _ | float _ | str _ | arr _ => cases hv
    · cases hinvalid

section Reading

variable {py : Interpreter} {data : Fields}

theorem required_eq_ok {key : String} {v : Json} : required data key = .ok v ↔ data key = some v := by
  rw [required]
  cases data key with
  | none => simp
  | some w => simp

theorem requiredJsonString_eq_ok {v : Json} {s : PyStr} :
    requiredJsonString v = .ok s ↔ v = .str s := by
  cases v <;> simp [requiredJsonString]

theorem requiredCommit_matches {v : Json} {s : PyStr} (h : requiredCommit v = .ok s) :
    commitMatches s = true := by
  have hends : Ends Handled (fun s => commitMatches s = true) (requiredCommit v) :=
    requiredCommit_ends
  rw [h] at hends
  exact hends

theorem requiredGeneration_pos {v : Json} {n : ℤ} (h : requiredGeneration v = .ok n) : 1 ≤ n := by
  have hends : Ends Handled (1 ≤ ·) (requiredGeneration v) := requiredGeneration_ends
  rw [h] at hends
  exact hends

/-- A candidate record that was read is valid, and only the supervisor's mission has none. -/
theorem parseSupervisorCandidateMeta_valid {replacement : Json} {owned : Option Bool}
    {commit repo : PyStr} {x : Option WorkerMeta} (hbuilt : replacement.Built)
    (h : parseSupervisorCandidateMeta py replacement owned commit repo = .ok x) :
    (∀ m ∈ x, m.Valid Joined) ∧ (owned ≠ some true → x.isSome = true) := by
  have hempty : ∀ m ∈ (none : Option WorkerMeta), m.Valid Joined := fun _ hm => by cases hm
  have howned : ∀ exc : PyError ErrorClass,
      (if owned = some true then Except.ok none else Except.error exc) = Except.ok x →
        (∀ m ∈ x, m.Valid Joined) ∧ (owned ≠ some true → x.isSome = true) := by
    intro exc hx
    split_ifs at hx with hsupervised
    obtain rfl := Except.ok.inj hx
    exact ⟨hempty, fun hno => absurd hsupervised hno⟩
  cases replacement with
  | null => exact howned _ h
  | obj members =>
    rw [parseSupervisorCandidateMeta] at h
    by_cases hdescriptor : eqMapping (supervisorCandidateWireDescriptor commit repo) members = true
    · rw [if_pos hdescriptor] at h
      exact howned _ h
    · rw [if_neg hdescriptor] at h
      cases hm : WorkerMeta.fromDict py (memberOf members) with
      | ok m =>
        rw [hm] at h
        obtain rfl := Except.ok.inj h
        refine ⟨fun m' hm' => ?_, fun _ => rfl⟩
        obtain rfl := Option.some.inj hm'
        exact WorkerMeta.fromDict_valid (fun _ h => h) (joined_of_built hbuilt) hm
      | error exc =>
        rw [hm] at h
        dsimp only at h
        split_ifs at h with hlegacy
        obtain rfl := Except.ok.inj h
        exact ⟨hempty, fun hno => absurd hlegacy.2.1 hno⟩
  | bool _ | int _ | float _ | str _ | arr _ => cases h

/-- The members of an object that stands in a value that was loaded. -/
theorem built_get (hbuilt : ∀ k v, data k = some v → v.Built) (key : String) :
    (data.get key).Built := by
  rw [Fields.get]
  cases hk : data key with
  | none => exact ⟨.null, rfl⟩
  | some v => exact hbuilt key v hk

/-- A restart record that was read is valid and fits its mission. -/
theorem parsePreviousRestart_valid {owned : Option Bool} {status : MissionStatus}
    {repo previousCommit : PyStr} {r : Option WorkerMeta × Bool}
    (hbuilt : ∀ k v, data k = some v → v.Built)
    (h : parsePreviousRestart py data owned status repo previousCommit = .ok r) :
    (∀ m ∈ r.1, m.Valid Joined) ∧
      restartConsistent r.1 r.2 owned status repo previousCommit = true := by
  obtain ⟨restart, hrestart, h⟩ := except_bind_eq_ok.1 h
  obtain ⟨released, -, h⟩ := except_bind_eq_ok.1 h
  split_ifs at h with hconsistent
  obtain rfl := Except.ok.inj h
  refine ⟨fun m hm => ?_, hconsistent⟩
  have hget := built_get hbuilt "previous_restart_meta"
  cases hv : data.get "previous_restart_meta" with
  | obj members =>
    rw [hv] at hrestart hget
    obtain rfl : restart = some m := hm
    cases hmeta : WorkerMeta.fromDict py (memberOf members) with
    | ok m' =>
      rw [parseRestartMeta, hmeta] at hrestart
      obtain rfl := Option.some.inj (Except.ok.inj hrestart)
      exact WorkerMeta.fromDict_valid (fun _ h => h) (joined_of_built hget) hmeta
    | error exc =>
      rw [parseRestartMeta, hmeta] at hrestart
      cases hrestart
  | null =>
    rw [hv] at hrestart
    obtain rfl := Except.ok.inj hrestart
    cases hm
  | bool _ | int _ | float _ | str _ | arr _ =>
    rw [hv] at hrestart
    cases hrestart

/-- What the consistency of a restart record says. -/
theorem restartConsistent_iff {restart : Option WorkerMeta} {released : Bool} {owned : Option Bool}
    {status : MissionStatus} {repo previousCommit : PyStr} :
    restartConsistent restart released owned status repo previousCommit = true ↔
      (∀ m ∈ restart, owned = some false ∧ status = .pending ∧ m.state = .running ∧ m.repo = repo ∧
        m.gitCommit = some previousCommit) ∧ (released = true → restart.isSome = true) := by
  cases restart with
  | none => simp [restartConsistent]
  | some m => simp [restartConsistent, and_assoc]

/-- A text member of what was loaded. -/
theorem requiredString_joined (hbuilt : ∀ k v, data k = some v → v.Built) {key : String} {s : PyStr}
    (h : required data key >>= requiredJsonString = .ok s) : Joined s := by
  obtain ⟨v, hv, hs⟩ := except_bind_eq_ok.1 h
  obtain rfl := requiredJsonString_eq_ok.1 hs
  exact (hbuilt _ _ (required_eq_ok.1 hv)).joined

theorem previousMembers_eq_ok {v : Json} {members : List (PyStr × Json)}
    (h : previousMembers v = .ok members) : v = .obj members := by
  cases v with
  | obj d => exact congrArg Json.obj (Except.ok.inj h)
  | null | bool _ | int _ | float _ | str _ | arr _ => cases h

/-- A mission that was parsed is valid, but for its version. -/
theorem buildFromDict_valid (hbuilt : ∀ k v, data k = some v → v.Built) {s : RollbackState}
    (h : RollbackState.buildFromDict py data = .ok s) :
    RollbackState.Valid { s with schemaVersion := ROLLBACK_SCHEMA_VERSION } := by
  obtain ⟨i, hi, h⟩ := except_bind_eq_ok.1 h
  obtain ⟨deadline, -, h⟩ := except_bind_eq_ok.1 h
  obtain ⟨uvPath, huv, h⟩ := except_bind_eq_ok.1 h
  obtain ⟨stopGraceSeconds, -, h⟩ := except_bind_eq_ok.1 h
  obtain ⟨gitTimeoutSeconds, -, h⟩ := except_bind_eq_ok.1 h
  obtain ⟨previousRetiring, -, h⟩ := except_bind_eq_ok.1 h
  obtain ⟨previousMeta, hprevious, h⟩ := except_bind_eq_ok.1 h
  obtain rfl := Except.ok.inj h
  obtain ⟨rawPrevious, hrawPrevious, hi⟩ := except_bind_eq_ok.1 hi
  obtain ⟨replacement, hreplacement, hi⟩ := except_bind_eq_ok.1 hi
  obtain ⟨previous, hmembers, hi⟩ := except_bind_eq_ok.1 hi
  obtain ⟨owned, -, hi⟩ := except_bind_eq_ok.1 hi
  obtain ⟨generation, hgeneration, hi⟩ := except_bind_eq_ok.1 hi
  obtain ⟨schemaVersion, -, hi⟩ := except_bind_eq_ok.1 hi
  obtain ⟨status, -, hi⟩ := except_bind_eq_ok.1 hi
  obtain ⟨commit, hcommit, hi⟩ := except_bind_eq_ok.1 hi
  obtain ⟨previousCommit, hpreviousCommit, hi⟩ := except_bind_eq_ok.1 hi
  obtain ⟨repo, hrepo, hi⟩ := except_bind_eq_ok.1 hi
  obtain ⟨newMeta, hnew, hi⟩ := except_bind_eq_ok.1 hi
  obtain ⟨restart, hrestart, hi⟩ := except_bind_eq_ok.1 hi
  obtain rfl := Except.ok.inj hi
  obtain ⟨_, -, hgeneration⟩ := except_bind_eq_ok.1 hgeneration
  obtain ⟨_, -, hcommit⟩ := except_bind_eq_ok.1 hcommit
  obtain ⟨_, -, hpreviousCommit⟩ := except_bind_eq_ok.1 hpreviousCommit
  obtain rfl := previousMembers_eq_ok hmembers
  have hcandidate := parseSupervisorCandidateMeta_valid
    (hbuilt _ _ (required_eq_ok.1 hreplacement)) hnew
  obtain ⟨hrestartMeta, hconsistent⟩ := parsePreviousRestart_valid hbuilt hrestart
  obtain ⟨hfits, hreleased⟩ := restartConsistent_iff.1 hconsistent
  exact
    { schema := rfl
      generation := requiredGeneration_pos hgeneration
      commit := requiredCommit_matches hcommit
      previousCommit := requiredCommit_matches hpreviousCommit
      repoText := requiredString_joined hbuilt hrepo
      uvText := requiredString_joined hbuilt huv
      previousMeta := WorkerMeta.fromDict_valid (fun _ h => h)
        (joined_of_built (hbuilt _ _ (required_eq_ok.1 hrawPrevious))) hprevious
      newMeta := hcandidate.1
      candidate := hcandidate.2
      restartMeta := hrestartMeta
      restart := fun m hm => ⟨(hfits m hm).1, (hfits m hm).2.2⟩
      released := hreleased }

/-- **A mission that was read is valid.** -/
theorem readRollbackState_valid {file : FileBytes} {s : RollbackState}
    (h : readRollbackState py file = .ok (some s)) : s.Valid := by
  cases file with
  | absent dangling => cases h
  | unreadable text => cases h
  | bytes data =>
    rcases JsonReader.run_bytes_eq_ok h with ⟨v, hbuilt, hv⟩ | hinvalid
    · cases v with
      | obj members =>
        obtain ⟨t, ht, hv⟩ := except_bind_eq_ok.1 hv
        have hparsed : RollbackState.buildFromDict py (memberOf members) = .ok t := by
          rw [RollbackState.fromDict] at ht
          cases hb : RollbackState.buildFromDict py (memberOf members) with
          | ok t' =>
            rw [hb] at ht
            exact ht
          | error exc =>
            rw [hb, translating] at ht
            split_ifs at ht
        have hvalid := buildFromDict_valid (fun k v hv => Json.Built.member hbuilt hv) hparsed
        rw [normalizeParsedState] at hv
        split_ifs at hv with hcurrent
        · obtain rfl := Option.some.inj (Except.ok.inj hv)
          rwa [← hcurrent] at hvalid
        · obtain rfl := Option.some.inj (Except.ok.inj hv)
          exact hvalid
        · cases hv
      | null | bool _ | int _ | float _ | str _ | arr _ => cases hv
    · cases hinvalid

end Reading

/-! ## Preparation and the later steps -/

theorem nextMissionGeneration_pos {py : Interpreter} {files : Files} {g : ℤ}
    (h : nextMissionGeneration py files = .ok g) : 1 ≤ g := by
  have hnext : nextGeneration py files = .ok g := by
    rw [nextMissionGeneration] at h
    split at h
    · cases h
    · exact h
  obtain ⟨state, -, hnext⟩ := except_bind_eq_ok.1 hnext
  obtain ⟨desired, -, hnext⟩ := except_bind_eq_ok.1 hnext
  obtain ⟨mission, hmission, hnext⟩ := except_bind_eq_ok.1 hnext
  obtain ⟨reserved, -, hnext⟩ := except_bind_eq_ok.1 hnext
  obtain rfl := Except.ok.inj hnext
  have hpos : 0 ≤ mission := by
    rw [missionGeneration] at hmission
    split at hmission
    · exact le_of_eq (Except.ok.inj hmission)
    · rename_i m hm
      obtain rfl := Except.ok.inj hmission
      exact (readRollbackState_valid hm).generation.trans' zero_le_one
    · cases hmission
    · cases hmission
  omega

theorem requireExactCommit_matches {w : Surroundings} {commit : PyStr} {u : Unit}
    (h : requireExactCommit w commit = .ok u) : commitMatches commit = true := by
  rw [requireExactCommit] at h
  split_ifs at h with hmatches
  exact hmatches

theorem knownGood_eq_ok {w : Surroundings} {read : Option WorkerMeta} {found : WorkerMeta × PyStr}
    (h : knownGood w read = .ok found) :
    read = some found.1 ∧ found.1.gitCommit = some found.2 := by
  cases read with
  | none => cases h
  | some previous =>
    rw [knownGood] at h
    cases hcommit : previous.gitCommit with
    | none =>
      rw [hcommit] at h
      cases h
    | some commit =>
      rw [hcommit] at h
      dsimp only at h
      split_ifs at h
      obtain rfl := Except.ok.inj h
      exact ⟨rfl, hcommit⟩

/-- A candidate that was prepared is valid, and the supervisor's own is left out. -/
theorem candidateIdentity_valid {options : Options} {commit : PyStr} {supervised : Bool}
    {p : GatedProcess} {x : Option WorkerMeta} (hcommit : Joined commit)
    (h : candidateIdentity options commit supervised p = .ok x) :
    (∀ m ∈ x, m.Valid Joined ∧ m.state = .running) ∧
      (some supervised ≠ some true → x.isSome = true) := by
  cases supervised with
  | true =>
    obtain rfl := Except.ok.inj h
    exact ⟨fun _ hm => (by cases hm), fun hno => absurd rfl hno⟩
  | false =>
    rw [candidateIdentity, if_neg Bool.false_ne_true, spawnGatedCandidate] at h
    split at h
    · rename_i m hm
      obtain rfl := Except.ok.inj h
      refine ⟨fun m' hm' => ?_, fun _ => rfl⟩
      obtain rfl := Option.some.inj hm'
      obtain ⟨hvalid, hrunning, -, -⟩ := GatedProcess.workerMeta_valid hm options.repo.2 hcommit
        (GatedProcess.workerId_text (List.forall_mem_nil _))
      exact ⟨hvalid, hrunning⟩
    · cases h

/-- What preparation takes from the options and leaves open. -/
structure RollbackState.PreparedFrom (s : RollbackState) (options : Options) (now : Moment) :
    Prop where
  deadline : s.deadline = PyFloat.add (.finite now) options.confirmWindowSeconds
  stopGraceSeconds : s.stopGraceSeconds = options.stopGraceSeconds
  gitTimeoutSeconds : s.gitTimeoutSeconds = options.gitTimeoutSeconds
  pending : s.status = .pending
  fresh : s.previousRestartMeta = none
  running : ∀ m ∈ s.newMeta, m.state = .running

/-- **A mission that was prepared is valid.** -/
theorem prepareLocked_spec {py : Interpreter} {options : Options} {commit : PyStr}
    {supervised : Bool} {w : Surroundings} {s : RollbackState}
    (h : prepareLocked py options commit supervised w = .ok s) :
    s.Valid ∧ s.PreparedFrom options w.now := by
  obtain ⟨_, -, h⟩ := except_bind_eq_ok.1 h
  obtain ⟨⟨previous, previousCommit⟩, hprevious, h⟩ := except_bind_eq_ok.1 h
  obtain ⟨_, hpreviousCommit, h⟩ := except_bind_eq_ok.1 h
  obtain ⟨_, hcommit, h⟩ := except_bind_eq_ok.1 h
  obtain ⟨_, -, h⟩ := except_bind_eq_ok.1 h
  obtain ⟨_, -, h⟩ := except_bind_eq_ok.1 h
  obtain ⟨_, -, h⟩ := except_bind_eq_ok.1 h
  obtain ⟨_, -, h⟩ := except_bind_eq_ok.1 h
  obtain ⟨_, -, h⟩ := except_bind_eq_ok.1 h
  obtain ⟨_, -, h⟩ := except_bind_eq_ok.1 h
  obtain ⟨newMeta, hnew, h⟩ := except_bind_eq_ok.1 h
  obtain ⟨_, -, h⟩ := except_bind_eq_ok.1 h
  obtain ⟨existing, -, h⟩ := except_bind_eq_ok.1 h
  obtain ⟨_, -, h⟩ := except_bind_eq_ok.1 h
  obtain ⟨generation, hgeneration, h⟩ := except_bind_eq_ok.1 h
  obtain rfl := Except.ok.inj h
  obtain ⟨read, hread, hfound⟩ := except_bind_eq_ok.1 hprevious
  obtain ⟨rfl, -⟩ := knownGood_eq_ok hfound
  have hmatches := requireExactCommit_matches hcommit
  have hcandidate := candidateIdentity_valid (joined_of_commitMatches hmatches) hnew
  refine ⟨?_, ⟨rfl, rfl, rfl, rfl, rfl, fun m hm => (hcandidate.1 m hm).2⟩⟩
  exact
    { schema := rfl
      generation := nextMissionGeneration_pos hgeneration
      commit := hmatches
      previousCommit := requireExactCommit_matches hpreviousCommit
      repoText := options.repo.2
      uvText := options.uvPath.2
      previousMeta := readMeta_valid hread
      newMeta := fun m hm => (hcandidate.1 m hm).1
      candidate := hcandidate.2
      restartMeta := fun _ hm => by cases hm
      restart := fun _ hm => by cases hm
      released := fun hreleased => by cases hreleased }

/-- **A step keeps a mission valid.** -/
theorem MissionWrite.valid {py : Interpreter} {s t : RollbackState} (hs : s.Valid)
    (h : MissionWrite py s t) : t.Valid := by
  cases h with
  | published => exact hs
  | refreshed | retiring | confirmed | rolledBack => exact { hs with }
  | restartPrepared _ howned hspawn =>
    obtain ⟨hvalid, hrunning, hrepo, hcommit⟩ := GatedProcess.workerMeta_valid hspawn hs.repoText
      (joined_of_commitMatches hs.previousCommit)
      (GatedProcess.workerId_text (List.forall_mem_singleton.2 hs.previousMeta.workerText))
    refine { hs with restartMeta := fun m hm => ?_, restart := fun m hm => ?_, released := ?_ }
    · obtain rfl := Option.some.inj hm
      exact hvalid
    · obtain rfl := Option.some.inj hm
      exact ⟨howned, hrunning, hrepo, hcommit⟩
    · intro hreleased
      cases hreleased
  | restartReleased _ _ hprepared => exact { hs with released := fun _ => hprepared }
  | restartCleared | legacyRolledBack =>
    refine { hs with restartMeta := ?_, restart := ?_, released := ?_ }
    · intro m hm
      cases hm
    · intro m hm
      cases hm
    · intro hreleased
      cases hreleased
  | archived harchive =>
    rename_i status
    cases status with
    | pending => cases harchive
    | confirmed | rolledBack =>
      obtain rfl := Except.ok.inj harchive
      exact { hs with }

/-- **Every mission the controller has is valid.** -/
theorem MissionHeld.valid {py : Interpreter} {s : RollbackState} (h : MissionHeld py s) :
    s.Valid := by
  induction h with
  | prepared hoptions h => exact (prepareLocked_spec h).1
  | read h => exact readRollbackState_valid h
  | written hs ht ih => exact ht.valid ih

theorem MissionWritten.valid {py : Interpreter} {t : RollbackState} (h : MissionWritten py t) :
    t.Valid := by
  obtain ⟨s, hs, ht⟩ := h
  exact ht.valid hs.valid

end Lubko.Deploy
