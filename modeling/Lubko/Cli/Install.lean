import Lubko.Deploy.PendingRequest
import Lubko.Supervise.Handoff

/-!
# Installing a commit

`_activate_mutation_locked` of `install.py` checks the records of the supervisor, builds the
runtime, switches `cli/current`, and only then asks for the run intent: with the token directly, and
without it over the control socket or by a pending request that the daemon promotes.

Every step may fail in its own way, a read may find nothing to read, an answer may be lost after the
daemon has acted, and the daemon may promote the pending request, or crash half way, whenever the
client waits. No other writer of intents runs, since the deployment lock is held.

* `kept_ensureRunIntentClient` — what the run intent leaves of the records.
* `install_safe_iff` — when an install that fails leaves the pointer, and one that succeeds agrees
  with the records.
-/

namespace Lubko.Cli.Install

open Lubko.Lib Lubko.Supervise Lubko.Deploy

/-! ## The records -/

/-- `pending-request.json`. -/
structure Pending where
  requestId : PyStr
  request : RunRequest

/-- What an install reads and writes: the pointer, the records behind a generation, the commits of
the state, the pending request and the acknowledgements. -/
structure World where
  current : Option PyStr
  records : Records
  stateCommit : Option PyStr
  runtimeCommit : Option PyStr
  pending : Option Pending
  acks : PyStr → Option PendingAck

/-! ## Refusals -/

/-- How a read ends: with the record, with an error the caller takes for its absence, or with
another exception. A malformed record is such an error. -/
inductive ReadEnd where
  | answered
  | unavailable
  | escapes
  deriving DecidableEq

/-- `read_desired_client`, and its callers' `desired = None` on an error. -/
def readDesired (w : World) : ReadEnd → Option (Option SupervisorDesired)
  | .answered => some w.records.desired.value?
  | .unavailable => some none
  | .escapes => none

/-- `supervisor_authoritative_commits`; none when a read raises something else. -/
def supervisorAuthoritativeCommits (w : World) (desiredRead stateRead : ReadEnd) :
    Option (List PyStr) :=
  (readDesired w desiredRead).bind fun desired =>
    let named := desired.toList.map SupervisorDesired.commit
    match stateRead with
    | .answered =>
      some ((named ++ w.stateCommit.toList ++ w.runtimeCommit.toList).filter isValidCommitName)
    | .unavailable => some (named.filter isValidCommitName)
    | .escapes => none

/-- The reads of `_install_refusal`; `missionRead` is whether reading the mission raises something
else than `DeployCtlError`. -/
structure RefusalReads where
  desired : ReadEnd
  state : ReadEnd
  desiredAgain : ReadEnd
  missionEscapes : Bool

/-- How the check of an install ends. -/
inductive Check where
  | proceeds
  | refuses
  | raises
  deriving DecidableEq

/-- `_install_refusal`. -/
def installRefusal (w : World) (r : RefusalReads) (commit : PyStr) : Check :=
  match supervisorAuthoritativeCommits w r.desired r.state with
  | none => .raises
  | some commits =>
    if commits.any (· ≠ commit) then .refuses
    else
      match readDesired w r.desiredAgain with
      | none => .raises
      | some desired =>
        if r.missionEscapes then .raises
        else
          let desiredGeneration := (desired.map SupervisorDesired.generation).getD 0
          match w.records.mission with
          | .malformed => .refuses
          | .holds mission =>
            if mission.generation ≥ desiredGeneration then .refuses
            else if desired.any (·.migration) && w.current ≠ some commit then .refuses
            else .proceeds
          | .absent =>
            if desired.any (·.migration) && w.current ≠ some commit then .refuses
            else .proceeds

/-! ## The run intent -/

/-- How a durable write ends; one that fails may have taken effect. -/
inductive WriteEnd where
  | done
  | failed (leaves : Bool)
  deriving DecidableEq

/-- One call of `ensure_run_intent`: its clock, and its lock and write. -/
structure Handling where
  now : ℚ
  write : WriteEnd

/-- `ensure_run_intent`; false when it raises. -/
def ensureRunIntent (request : RunRequest) (h : Handling) (w : World) : World × Bool :=
  match w.records.ensureRunIntent h.now request with
  | none => (w, false)
  | some (_, records) =>
    match h.write with
    | .done => ({ w with records := records }, true)
    | .failed true => ({ w with records := records }, false)
    | .failed false => (w, false)

/-- How far `promote_pending_request` gets before the daemon crashes. -/
inductive Cut where
  | intent
  | ack
  | whole
  deriving DecidableEq

/-- A promotion by the daemon. -/
structure Promoting where
  now : ℚ
  cut : Cut

/-- `promote_pending_request`, up to the cut. -/
def promote (p : Promoting) (w : World) : World :=
  match w.pending with
  | none => w
  | some pending =>
    let decision := w.records.promote p.now pending.request
    let acks := Function.update w.acks pending.requestId (some decision.ack)
    match p.cut with
    | .intent => { w with records := decision.records }
    | .ack => { w with records := decision.records, acks := acks }
    | .whole => { w with records := decision.records, acks := acks, pending := none }

/-- What the daemon does while the client waits. -/
def during (p : Option Promoting) (w : World) : World :=
  match p with
  | none => w
  | some p => promote p w

/-- How a call for the run intent ends. `listed` exceptions are those the installer handles. -/
inductive Ensured where
  | generation
  | queued
  | raised (listed : Bool)
  deriving DecidableEq

/-- A request over the control socket: no answer, before or after the daemon handled it, an answer
with a generation or an error, an answer without a generation, or one that cannot be decoded. -/
inductive Attempt where
  | noReply (handled : Option Handling)
  | reply (h : Handling)
  | noGeneration (h : Handling)
  | undecodable (handled : Option Handling)

/-- The daemon handles a request. -/
def handle (request : RunRequest) (handled : Option Handling) (w : World) : World :=
  match handled with
  | none => w
  | some h => (ensureRunIntent request h w).1

/-- `_try_socket_ensure_run_intent`; none when the connection fails. -/
def trySocket (request : RunRequest) (a : Attempt) (w : World) : World × Option Ensured :=
  match a with
  | .noReply handled => (handle request handled w, none)
  | .reply h =>
    if (ensureRunIntent request h w).2 then ((ensureRunIntent request h w).1, some .generation)
    else ((ensureRunIntent request h w).1, some (.raised true))
  | .noGeneration h => ((ensureRunIntent request h w).1, some (.raised true))
  | .undecodable handled => (handle request handled w, some (.raised false))

/-- The read of the acknowledgement. -/
inductive AckRead where
  | read
  | unreadable
  | escapes
  deriving DecidableEq

/-- One round of the poll loop. -/
structure Poll where
  daemon : Option Promoting
  ack : AckRead
  attempt : Attempt

/-- `_read_pending_ack`, and what the poll makes of it. -/
def readAck (requestId : PyStr) (r : AckRead) (w : World) : Option Ensured :=
  match r with
  | .escapes => some (.raised false)
  | .unreadable => none
  | .read =>
    match w.acks requestId with
    | none => none
    | some (.promoted _) => some .generation
    | some (.failed _) => some (.raised true)

/-- The loop of `_poll_pending_request`; none when its deadline passes. -/
def pollLoop (request : RunRequest) (requestId : PyStr) : List Poll → World → World × Option Ensured
  | [], w => (w, none)
  | p :: polls, w =>
    let w := during p.daemon w
    match readAck requestId p.ack w with
    | some e => (w, some e)
    | none =>
      match trySocket request p.attempt w with
      | (w, some e) => (w, some e)
      | (w, none) => pollLoop request requestId polls w

/-- `supervisor_alive`. -/
inductive Alive where
  | alive
  | dead
  | escapes
  deriving DecidableEq

/-- What `ensure_run_intent_client` meets. -/
structure EnsureSteps where
  token : Bool
  direct : Handling
  /-- what the direct call raises is handled by the installer -/
  directListed : Bool
  first : Attempt
  requestId : PyStr
  pendingWrite : WriteEnd
  beforeAlive : Option Promoting
  alive : Alive
  polls : List Poll
  last : Option Promoting × Attempt
  beforeLook : Option Promoting
  /-- the pending request can be read at the end -/
  pendingReadable : Bool

/-- `_poll_pending_request`. -/
def pollPendingRequest (request : RunRequest) (o : EnsureSteps) (w : World) : World × Ensured :=
  match pollLoop request o.requestId o.polls w with
  | (w, some e) => (w, e)
  | (w, none) =>
    match trySocket request o.last.2 (during o.last.1 w) with
    | (w, some e) => (w, e)
    | (w, none) =>
      let w := during o.beforeLook w
      if o.pendingReadable && w.pending.any (·.requestId = o.requestId) then (w, .queued)
      else (w, .raised true)

/-- `write_pending_request`, of a fresh identifier: there is no acknowledgement of it yet. -/
def writePendingRequest (request : RunRequest) (requestId : PyStr) (w : World) : World :=
  { w with
    pending := some ⟨requestId, request⟩
    acks := Function.update w.acks requestId none }

/-- `ensure_run_intent_client`. -/
def ensureRunIntentClient (request : RunRequest) (o : EnsureSteps) (w : World) : World × Ensured :=
  if o.token then
    match ensureRunIntent request o.direct w with
    | (w, true) => (w, .generation)
    | (w, false) => (w, .raised o.directListed)
  else
    match trySocket request o.first w with
    | (w, some e) => (w, e)
    | (w, none) =>
      match o.pendingWrite with
      | .failed false => (w, .raised true)
      | .failed true => (writePendingRequest request o.requestId w, .raised true)
      | .done =>
        let w := during o.beforeAlive (writePendingRequest request o.requestId w)
        match o.alive with
        | .escapes => (w, .raised false)
        | .dead => (w, .queued)
        | .alive => pollPendingRequest request o w

/-! ## The install -/

/-- How a step ends that the installer turns into an error exit when it raises `CliError`. -/
inductive StepEnd where
  | done
  | cliError
  | escapes
  deriving DecidableEq

/-- How the switch of the pointer ends: one that fails restores the pointer or not. -/
inductive Switch where
  | switched
  | failed (leaves : Option PyStr) (cliError : Bool)

/-- What an install meets. -/
structure Steps where
  reads : RefusalReads
  build : StepEnd
  launchers : Bool
  switch : Switch
  ensure : EnsureSteps
  /-- `gc_cli_roots` returns -/
  collected : Bool

/-- How an install ends. -/
inductive Exit where
  | ok
  | error
  | raises
  deriving DecidableEq

/-- The end of `_activate_mutation_locked`, behind the switch. -/
def finishActivation (o : Steps) (request : RunRequest) (w : World) : World × Exit :=
  match ensureRunIntentClient request o.ensure w with
  | (w, .raised listed) => (w, if listed then .error else .raises)
  | (w, _) => (w, if o.collected then .ok else .raises)

/-- `_activate_mutation_locked`. -/
def activateMutationLocked (o : Steps) (request : RunRequest) (w : World) : World × Exit :=
  match installRefusal w o.reads request.commit with
  | .raises => (w, .raises)
  | .refuses => (w, .error)
  | .proceeds =>
    match o.build with
    | .escapes => (w, .raises)
    | .cliError => (w, .error)
    | .done =>
      if !o.launchers then (w, .raises)
      else if !isValidCommitName request.commit then (w, .error)
      else
        match o.switch with
        | .failed leaves cliError =>
          ({ w with current := leaves }, if cliError then .error else .raises)
        | .switched => finishActivation o request { w with current := some request.commit }

/-! ## What happens to the records -/

/-- The desired record names the commit. -/
def Names (commit : PyStr) (r : Records) : Prop := ∃ d, r.desired = .holds d ∧ d.commit = commit

/-- The records allow a run intent of the commit: the desired one names it, or there is none, no
mission, and a next generation. -/
def Establishes (commit : PyStr) (r : Records) : Prop :=
  match r.desired with
  | .malformed => False
  | .holds d => d.commit = commit
  | .absent => r.mission = .absent ∧ r.nextGeneration.isSome = true

theorem Names.establishes {commit : PyStr} {r : Records} (h : Names commit r) :
    Establishes commit r := by
  obtain ⟨d, hd, hcommit⟩ := h
  rw [Establishes, hd]
  exact hcommit

section Records

variable {request : RunRequest} {r r₀ : Records}

/-- `ensure_run_intent` succeeds where the records allow it, and then they name the commit. -/
theorem ensureRunIntent_cases (now : ℚ) (request : RunRequest) (r : Records) :
    (Establishes request.commit r ∧ ∃ written r',
      r.ensureRunIntent now request = some (written, r') ∧ Names request.commit r' ∧
        (Names request.commit r → r' = r)) ∨
    (¬ Establishes request.commit r ∧ r.ensureRunIntent now request = none) := by
  rw [Records.ensureRunIntent, Establishes, Names]
  cases hd : r.desired with
  | malformed => exact .inr ⟨id, rfl⟩
  | holds current =>
    dsimp only
    by_cases hcommit : current.commit = request.commit
    · exact .inl ⟨hcommit, none, r, if_neg (not_not.2 hcommit), ⟨current, hd, hcommit⟩,
        fun _ => rfl⟩
    · exact .inr ⟨hcommit, if_pos hcommit⟩
  | absent =>
    cases hm : r.mission with
    | malformed | holds _ =>
      refine .inr ⟨fun h => ?_, rfl⟩
      cases h.1
    | absent =>
      dsimp only
      rw [Records.writeRunIntentLocked]
      cases hg : r.nextGeneration with
      | none =>
        refine .inr ⟨fun h => ?_, rfl⟩
        cases h.2
      | some g =>
        refine .inl ⟨⟨rfl, rfl⟩, _, _, rfl, ⟨_, rfl, rfl⟩, ?_⟩
        rintro ⟨d, hnone, -⟩
        cases hnone

/-- A promotion is acknowledged as done where the records allow it. -/
theorem promote_cases (now : ℚ) (request : RunRequest) (r : Records) :
    (Establishes request.commit r ∧ (∃ g, (r.promote now request).ack = .promoted g) ∧
      Names request.commit (r.promote now request).records ∧
      (Names request.commit r → (r.promote now request).records = r)) ∨
    (¬ Establishes request.commit r ∧ (∃ e, (r.promote now request).ack = .failed e) ∧
      (r.promote now request).records = r) := by
  have hsame := ensureRunIntent_eq_promote now request r
  rcases ensureRunIntent_cases now request r with
    ⟨hallowed, written, r', hsome, hnames, hkeeps⟩ | ⟨hnot, hnone⟩
  · rw [hsome] at hsame
    cases hack : (r.promote now request).ack with
    | failed e =>
      rw [hack] at hsame
      cases hsame
    | promoted g =>
      rw [hack] at hsame
      obtain ⟨-, rfl⟩ := Prod.mk.inj (Option.some.inj hsame)
      exact .inl ⟨hallowed, ⟨g, rfl⟩, hnames, hkeeps⟩
  · rw [hnone] at hsame
    cases hack : (r.promote now request).ack with
    | promoted g =>
      rw [hack] at hsame
      cases hsame
    | failed e =>
      refine .inr ⟨hnot, ⟨e, rfl⟩, ?_⟩
      have hdecided := decided_promote now request r
      generalize r.promote now request = decision at hack hdecided ⊢
      cases hdecided with
      | refused error hd => rfl
      | found hd => rfl
      | fresh hd hc => cases hack

/-- The records are as they were, or they allowed the commit and name it now. -/
def Kept (commit : PyStr) (r₀ r : Records) : Prop :=
  r = r₀ ∨ Establishes commit r₀ ∧ Names commit r

/-- Records that name the commit stay as they are, and others may only come to name it. -/
theorem Kept.trans {commit : PyStr} {r' : Records} (h : Kept commit r₀ r)
    (hstep : r' = r ∨ Establishes commit r ∧ Names commit r' ∧ (Names commit r → r' = r)) :
    Kept commit r₀ r' := by
  rcases hstep with rfl | ⟨hallowed, hnames, -⟩
  · exact h
  · rcases h with rfl | ⟨hallowed₀, -⟩
    · exact .inr ⟨hallowed, hnames⟩
    · exact .inr ⟨hallowed₀, hnames⟩

/-- Records that do not allow the commit are kept as they are. -/
theorem Kept.eq_of_not {commit : PyStr} (h : Kept commit r₀ r) (hnot : ¬ Establishes commit r₀) :
    r = r₀ :=
  h.resolve_right fun hnames => hnot hnames.1

theorem Kept.establishes_iff {commit : PyStr} (h : Kept commit r₀ r) :
    Establishes commit r ↔ Establishes commit r₀ := by
  rcases h with rfl | ⟨hallowed, hnames⟩
  · rfl
  · exact iff_of_true hnames.establishes hallowed

end Records

/-! ## What the client waits for -/

/-- While the client waits: the pointer stands, the records are kept, the pending request is its
own, and an acknowledgement of success means that the records name the commit. -/
structure Waits (request : RunRequest) (requestId : PyStr) (w₀ w : World) : Prop where
  current : w.current = w₀.current
  kept : Kept request.commit w₀.records w.records
  pending : ∀ p ∈ w.pending, p = ⟨requestId, request⟩
  ack : ∀ g, w.acks requestId = some (.promoted g) → Names request.commit w.records

section Waiting

variable {request : RunRequest} {requestId : PyStr} {w₀ w : World}

/-- Only the records move, and only to name a commit they allow. -/
def Moves (request : RunRequest) (w w' : World) : Prop :=
  ∃ r', w' = { w with records := r' } ∧
    (r' = w.records ∨ Establishes request.commit w.records ∧ Names request.commit r' ∧
      (Names request.commit w.records → r' = w.records))

theorem Moves.refl (request : RunRequest) (w : World) : Moves request w w :=
  ⟨w.records, rfl, .inl rfl⟩

/-- What one call of `ensure_run_intent` does to the world. -/
theorem ensureRunIntent_moves (h : Handling) (w : World) :
    Moves request w (ensureRunIntent request h w).1 ∧
      ((ensureRunIntent request h w).2 = true →
        Names request.commit (ensureRunIntent request h w).1.records) := by
  unfold ensureRunIntent
  rcases ensureRunIntent_cases h.now request w.records with
    ⟨hallowed, written, r', hsome, hnames, hkeeps⟩ | ⟨-, hnone⟩
  · rw [hsome]
    have hmoves : Moves request w { w with records := r' } :=
      ⟨r', rfl, .inr ⟨hallowed, hnames, hkeeps⟩⟩
    dsimp only
    cases h.write with
    | done => exact ⟨hmoves, fun _ => hnames⟩
    | failed leaves =>
      cases leaves with
      | true => exact ⟨hmoves, fun _ => hnames⟩
      | false => exact ⟨.refl request w, nofun⟩
  · rw [hnone]
    exact ⟨.refl request w, nofun⟩

theorem handle_moves (handled : Option Handling) (w : World) :
    Moves request w (handle request handled w) := by
  cases handled with
  | none => exact .refl request w
  | some h => exact (ensureRunIntent_moves h w).1

/-- A request over the socket moves the records, and a generation is one of records that name the
commit. -/
theorem trySocket_moves (a : Attempt) (w : World) :
    Moves request w (trySocket request a w).1 ∧
      ((trySocket request a w).2 = some .generation →
        Names request.commit (trySocket request a w).1.records) ∧
      (trySocket request a w).2 ≠ some .queued := by
  cases a with
  | noReply handled => exact ⟨handle_moves handled w, nofun, nofun⟩
  | noGeneration h => exact ⟨(ensureRunIntent_moves h w).1, nofun, nofun⟩
  | undecodable handled => exact ⟨handle_moves handled w, nofun, nofun⟩
  | reply h =>
    obtain ⟨hmoves, hnames⟩ := @ensureRunIntent_moves request h w
    rw [trySocket]
    split_ifs with hreturned
    · exact ⟨hmoves, fun _ => hnames hreturned, nofun⟩
    · exact ⟨hmoves, nofun, nofun⟩

theorem Moves.kept {w' : World} (h : Moves request w w') :
    w'.current = w.current ∧ Kept request.commit w.records w'.records := by
  obtain ⟨r', rfl, hstep⟩ := h
  exact ⟨rfl, Kept.trans (.inl rfl) hstep⟩

theorem Waits.moves {w' : World} (hw : Waits request requestId w₀ w) (h : Moves request w w') :
    Waits request requestId w₀ w' := by
  obtain ⟨r', rfl, hstep⟩ := h
  refine ⟨hw.current, hw.kept.trans hstep, hw.pending, fun g hg => ?_⟩
  have hnames := hw.ack g hg
  rcases hstep with rfl | ⟨-, hnames', -⟩
  · exact hnames
  · exact hnames'

/-- The daemon's promotion keeps what the client waits for. -/
theorem Waits.during (hw : Waits request requestId w₀ w) (p : Option Promoting) :
    Waits request requestId w₀ (during p w) := by
  cases p with
  | none => exact hw
  | some p =>
    show Waits request requestId w₀ (promote p w)
    unfold promote
    cases hpending : w.pending with
    | none => exact hw
    | some pending =>
      obtain rfl := hw.pending pending hpending
      dsimp only
      have hstep : (w.records.promote p.now request).records = w.records ∨
          Establishes request.commit w.records ∧
            Names request.commit (w.records.promote p.now request).records ∧
            (Names request.commit w.records →
              (w.records.promote p.now request).records = w.records) := by
        rcases promote_cases p.now request w.records with ⟨hallowed, -, hrest⟩ | ⟨-, -, hsame⟩
        · exact .inr ⟨hallowed, hrest⟩
        · exact .inl hsame
      have hkept := hw.kept.trans hstep
      have hack : ∀ g, (w.records.promote p.now request).ack = .promoted g →
          Names request.commit (w.records.promote p.now request).records := by
        intro g hg
        rcases promote_cases p.now request w.records with ⟨-, -, hnames, -⟩ | ⟨-, ⟨e, he⟩, -⟩
        · exact hnames
        · rw [he] at hg
          cases hg
      cases p.cut with
      | intent =>
        refine ⟨hw.current, hkept, fun other hother => (Option.mem_some_iff.1 hother).symm,
          fun g hg => ?_⟩
        have hnames := hw.ack g hg
        rcases hstep with hsame | ⟨-, hnames', -⟩
        · dsimp only
          rw [hsame]
          exact hnames
        · exact hnames'
      | ack =>
        refine ⟨hw.current, hkept, fun other hother => (Option.mem_some_iff.1 hother).symm,
          fun g hg => hack g ?_⟩
        dsimp only at hg
        rw [Function.update_self] at hg
        exact Option.some.inj hg
      | whole =>
        refine ⟨hw.current, hkept, fun other hother => absurd hother (Option.not_mem_none other),
          fun g hg => hack g ?_⟩
        dsimp only at hg
        rw [Function.update_self] at hg
        exact Option.some.inj hg

/-- What an acknowledgement read in the loop says. -/
theorem Waits.readAck (hw : Waits request requestId w₀ w) {r : AckRead}
    (h : readAck requestId r w = some .generation) : Names request.commit w.records := by
  cases r with
  | escapes => cases h
  | unreadable => cases h
  | read =>
    unfold Install.readAck at h
    cases hack : w.acks requestId with
    | none =>
      rw [hack] at h
      cases h
    | some a =>
      rw [hack] at h
      cases a with
      | promoted g => exact hw.ack g hack
      | failed e => cases h

theorem readAck_ne_queued (r : AckRead) : readAck requestId r w ≠ some .queued := by
  intro h
  cases r with
  | escapes => cases h
  | unreadable => cases h
  | read =>
    unfold readAck at h
    cases hack : w.acks requestId with
    | none =>
      rw [hack] at h
      cases h
    | some a =>
      rw [hack] at h
      cases a <;> cases h

/-- The poll loop keeps what the client waits for. -/
theorem Waits.pollLoop (hw : Waits request requestId w₀ w) (polls : List Poll) :
    Waits request requestId w₀ (pollLoop request requestId polls w).1 ∧
      ((pollLoop request requestId polls w).2 = some .generation →
        Names request.commit (pollLoop request requestId polls w).1.records) ∧
      (pollLoop request requestId polls w).2 ≠ some .queued := by
  induction polls generalizing w with
  | nil => exact ⟨hw, nofun, nofun⟩
  | cons p polls ih =>
    have hduring := hw.during p.daemon
    have hsocket := @trySocket_moves request p.attempt (Install.during p.daemon w)
    rw [Install.pollLoop]
    cases hread : Install.readAck requestId p.ack (Install.during p.daemon w) with
    | some e =>
      refine ⟨hduring, fun h => hduring.readAck (hread.trans h), fun h => ?_⟩
      exact readAck_ne_queued p.ack (hread.trans h)
    | none =>
      dsimp only
      cases htry : trySocket request p.attempt (Install.during p.daemon w) with
      | mk w' answer =>
        rw [htry] at hsocket
        cases answer with
        | some e => exact ⟨hduring.moves hsocket.1, hsocket.2⟩
        | none => exact ih (hduring.moves hsocket.1)

/-- Polling ends with what the client waited for: a request that stays queued is its own. -/
theorem Waits.poll (hw : Waits request requestId w₀ w) {o : EnsureSteps}
    (hid : o.requestId = requestId) :
    Waits request requestId w₀ (pollPendingRequest request o w).1 ∧
      ((pollPendingRequest request o w).2 = .generation →
        Names request.commit (pollPendingRequest request o w).1.records) ∧
      ((pollPendingRequest request o w).2 = .queued →
        (pollPendingRequest request o w).1.pending = some ⟨requestId, request⟩) := by
  subst hid
  have hloop := hw.pollLoop o.polls
  unfold pollPendingRequest
  cases hpoll : Install.pollLoop request o.requestId o.polls w with
  | mk w₁ answer =>
    rw [hpoll] at hloop
    cases answer with
    | some e =>
      refine ⟨hloop.1, fun h => hloop.2.1 (congrArg some h), fun h => ?_⟩
      exact absurd (congrArg some h) hloop.2.2
    | none =>
      have hduring := hloop.1.during o.last.1
      have hsocket := @trySocket_moves request o.last.2 (Install.during o.last.1 w₁)
      dsimp only
      cases htry : trySocket request o.last.2 (Install.during o.last.1 w₁) with
      | mk w₂ answer =>
        rw [htry] at hsocket
        cases answer with
        | some e =>
          refine ⟨hduring.moves hsocket.1, fun h => hsocket.2.1 (congrArg some h), fun h => ?_⟩
          exact absurd (congrArg some h) hsocket.2.2
        | none =>
          have hlook := (hduring.moves hsocket.1).during o.beforeLook
          dsimp only
          split_ifs with hours
          · refine ⟨hlook, nofun, fun _ => ?_⟩
            rw [Bool.and_eq_true] at hours
            obtain ⟨p, hp, -⟩ := (Option.any_eq_true _ _).1 hours.2
            rw [hp, hlook.pending p hp]
          · exact ⟨hlook, nofun, nofun⟩

end Waiting

/-! ## The client -/

/-- The daemon answers the pending request with a refusal, removes it, and is dead when the client
looks. -/
def Rejected (commit : PyStr) (o : EnsureSteps) (r : Records) : Prop :=
  o.alive = .dead ∧ (∃ p ∈ o.beforeAlive, p.cut = .whole) ∧ ¬ Establishes commit r

/-- The pending request of the client is there. -/
def Queued (request : RunRequest) (o : EnsureSteps) (w : World) : Prop :=
  w.pending = some ⟨o.requestId, request⟩

/-- What the run intent leaves: the pointer stands and the records are kept; a generation means that
they name the commit, and a queued request is pending, or promoted, or rejected. -/
structure Settled (request : RunRequest) (o : EnsureSteps) (w w' : World) (e : Ensured) : Prop where
  current : w'.current = w.current
  kept : Kept request.commit w.records w'.records
  generation : e = .generation → Names request.commit w'.records
  queued : e = .queued → Queued request o w' ∨ Names request.commit w'.records ∨
    Rejected request.commit o w.records
  rejected : e = .queued → Rejected request.commit o w.records → w'.pending = none

/-- What the daemon does before the client looks whether it is alive. -/
theorem beforeAlive_cases {request : RunRequest} {requestId : PyStr} {w₀ w : World}
    (hw : Waits request requestId w₀ w) (hpending : w.pending = some ⟨requestId, request⟩)
    (p : Option Promoting) :
    (during p w).pending = some ⟨requestId, request⟩ ∧ (¬ ∃ q ∈ p, q.cut = .whole) ∨
      (during p w).pending = none ∧ (∃ q ∈ p, q.cut = .whole) ∧
        (Establishes request.commit w₀.records → Names request.commit (during p w).records) := by
  cases p with
  | none => exact .inl ⟨hpending, fun ⟨q, hq, _⟩ => absurd hq (Option.not_mem_none q)⟩
  | some p =>
    have hnot : p.cut ≠ .whole → ¬ ∃ q ∈ some p, q.cut = .whole := by
      rintro hcut ⟨q, hq, hwhole⟩
      obtain rfl := Option.mem_some_iff.1 hq
      exact hcut hwhole
    show (promote p w).pending = _ ∧ _ ∨ (promote p w).pending = none ∧ _ ∧
      (_ → Names request.commit (promote p w).records)
    unfold promote
    rw [hpending]
    cases hcut : p.cut with
    | intent => exact .inl ⟨rfl, hnot (by rw [hcut]; decide)⟩
    | ack => exact .inl ⟨rfl, hnot (by rw [hcut]; decide)⟩
    | whole =>
      refine .inr ⟨rfl, ⟨p, rfl, hcut⟩, fun hallowed => ?_⟩
      rcases promote_cases p.now request w.records with ⟨-, -, hnames, -⟩ | ⟨hnot, -⟩
      · exact hnames
      · exact absurd (hw.kept.establishes_iff.2 hallowed) hnot

/-- **What the run intent leaves of the records**, however its steps end. -/
theorem kept_ensureRunIntentClient (request : RunRequest) (o : EnsureSteps) (w : World) :
    Settled request o w (ensureRunIntentClient request o w).1
      (ensureRunIntentClient request o w).2 := by
  unfold ensureRunIntentClient
  by_cases htoken : o.token = true
  · rw [if_pos htoken]
    obtain ⟨hmoves, hnames⟩ := @ensureRunIntent_moves request o.direct w
    cases hdirect : ensureRunIntent request o.direct w with
    | mk w₁ returned =>
      rw [hdirect] at hmoves hnames
      obtain ⟨hcurrent, hkept⟩ := hmoves.kept
      cases returned with
      | true => exact ⟨hcurrent, hkept, fun _ => hnames rfl, nofun, nofun⟩
      | false => exact ⟨hcurrent, hkept, nofun, nofun, nofun⟩
  rw [if_neg htoken]
  obtain ⟨hmoves, hnames, hqueued⟩ := @trySocket_moves request o.first w
  cases hfirst : trySocket request o.first w with
  | mk w₁ answer =>
    rw [hfirst] at hmoves hnames hqueued
    obtain ⟨hcurrent, hkept⟩ := hmoves.kept
    cases answer with
    | some e =>
      have hnot : e ≠ .queued := fun h => hqueued (congrArg some h)
      exact ⟨hcurrent, hkept, fun h => hnames (congrArg some h), fun h => absurd h hnot,
        fun h => absurd h hnot⟩
    | none =>
      have hwritten : Waits request o.requestId w (writePendingRequest request o.requestId w₁) := by
        refine ⟨hcurrent, hkept, fun p hp => (Option.mem_some_iff.1 hp).symm, fun g hg => ?_⟩
        have hnone : (writePendingRequest request o.requestId w₁).acks o.requestId = none :=
          Function.update_self ..
        rw [hnone] at hg
        cases hg
      dsimp only
      cases o.pendingWrite with
      | failed leaves =>
        cases leaves with
        | true => exact ⟨hcurrent, hkept, nofun, nofun, nofun⟩
        | false => exact ⟨hcurrent, hkept, nofun, nofun, nofun⟩
      | done =>
        have hduring := hwritten.during o.beforeAlive
        dsimp only
        cases halive : o.alive with
        | escapes => exact ⟨hduring.current, hduring.kept, nofun, nofun, nofun⟩
        | alive =>
          obtain ⟨hpoll, hgeneration, hours⟩ := hduring.poll (o := o) rfl
          refine ⟨hpoll.current, hpoll.kept, hgeneration, fun h => .inl (hours h), fun _ h => ?_⟩
          rw [Rejected, halive] at h
          cases h.1
        | dead =>
          rcases beforeAlive_cases hwritten rfl o.beforeAlive with
            ⟨hpending, hnot⟩ | ⟨hpending, hwhole, hnames⟩
          · exact ⟨hduring.current, hduring.kept, nofun, fun _ => .inl hpending,
              fun _ h => absurd h.2.1 hnot⟩
          · refine ⟨hduring.current, hduring.kept, nofun, fun _ => ?_, fun _ _ => hpending⟩
            by_cases hallowed : Establishes request.commit w.records
            · exact .inr (.inl (hnames hallowed))
            · exact .inr (.inr ⟨halive, hwhole, hallowed⟩)

/-! ## Safe installs -/

/-- An install that does not succeed leaves the pointer; one that does selects its commit, which the
desired record or the pending request names, and no other commit is desired. -/
structure Safe (commit : PyStr) (before after : World) (exit : Exit) : Prop where
  refused : exit ≠ .ok → after.current = before.current
  selected : exit = .ok → after.current = some commit
  named : exit = .ok → Names commit after.records ∨ ∃ p ∈ after.pending, p.request.commit = commit
  agrees : exit = .ok → ∀ d, after.records.desired = .holds d → d.commit = commit

/-- The install comes to its switch of the pointer. -/
def Activates (o : Steps) (request : RunRequest) (w : World) : Prop :=
  installRefusal w o.reads request.commit = .proceeds ∧ o.build = .done ∧ o.launchers = true ∧
    isValidCommitName request.commit = true

/-- How the call for the run intent ends. -/
def intentOf (o : Steps) (request : RunRequest) (w : World) : Ensured :=
  (ensureRunIntentClient request o.ensure { w with current := some request.commit }).2

/-- No step behind the switch goes wrong: a switch that fails restores the pointer; a call for the
run intent that raises, or a collection that does, finds the commit selected already; and a request
is queued where no other commit is desired, and not rejected. -/
structure Coherent (o : Steps) (request : RunRequest) (w : World) : Prop where
  restored : ∀ leaves cliError, o.switch = .failed leaves cliError → leaves = w.current
  selected : o.switch = .switched → ((∃ listed, intentOf o request w = .raised listed) ∨
    o.collected = false) → w.current = some request.commit
  queued : o.switch = .switched → o.collected = true → intentOf o request w = .queued →
    (∀ d, w.records.desired = .holds d → d.commit = request.commit) ∧
      ¬ Rejected request.commit o.ensure w.records

section Installs

variable {o : Steps} {request : RunRequest} {w : World}

/-- An install that does not come to its switch changes nothing. -/
theorem activate_of_not (h : ¬ Activates o request w) :
    (activateMutationLocked o request w).1 = w ∧ (activateMutationLocked o request w).2 ≠ .ok := by
  unfold activateMutationLocked
  cases hrefusal : installRefusal w o.reads request.commit with
  | raises => exact ⟨rfl, nofun⟩
  | refuses => exact ⟨rfl, nofun⟩
  | proceeds =>
    dsimp only
    cases hbuild : o.build with
    | escapes => exact ⟨rfl, nofun⟩
    | cliError => exact ⟨rfl, nofun⟩
    | done =>
      dsimp only
      cases hlaunchers : o.launchers with
      | false => exact ⟨rfl, nofun⟩
      | true =>
        cases hvalid : isValidCommitName request.commit with
        | false => exact ⟨rfl, nofun⟩
        | true => exact absurd ⟨hrefusal, hbuild, hlaunchers, hvalid⟩ h

theorem activate_of_activates (h : Activates o request w) : activateMutationLocked o request w =
    match o.switch with
    | .failed leaves cliError =>
      ({ w with current := leaves }, if cliError then .error else .raises)
    | .switched => finishActivation o request { w with current := some request.commit } := by
  obtain ⟨hrefusal, hbuild, hlaunchers, hvalid⟩ := h
  rw [activateMutationLocked, hrefusal]
  dsimp only
  rw [hbuild]
  dsimp only
  rw [hlaunchers, hvalid]
  rfl

theorem Names.unique {commit : PyStr} {r : Records} (h : Names commit r) {d : SupervisorDesired}
    (hd : r.desired = .holds d) : d.commit = commit := by
  obtain ⟨d', hd', hcommit⟩ := h
  rw [hd] at hd'
  obtain rfl : d = d' := Content.holds.inj hd'
  exact hcommit

/-- Records that name no other commit name none after they are kept. -/
theorem Kept.agrees_iff {commit : PyStr} {r₀ r : Records} (h : Kept commit r₀ r) :
    (∀ d, r.desired = .holds d → d.commit = commit) ↔
      ∀ d, r₀.desired = .holds d → d.commit = commit := by
  rcases h with rfl | ⟨hallowed, hnames⟩
  · rfl
  · refine iff_of_true (fun d hd => hnames.unique hd) fun d hd => ?_
    rw [Establishes, hd] at hallowed
    exact hallowed

/-- An install that fails behind the switch is safe when the commit was selected already. -/
theorem safe_of_fails {commit : PyStr} {w' : World} {exit : Exit} (hexit : exit ≠ .ok)
    (hcurrent : w'.current = some commit) :
    Safe commit w w' exit ↔ w.current = some commit := by
  constructor
  · intro h
    exact (h.refused hexit).symm.trans hcurrent
  · intro h
    exact ⟨fun _ => hcurrent.trans h.symm, fun hok => absurd hok hexit, fun hok => absurd hok hexit,
      fun hok => absurd hok hexit⟩

/-- A request that stays queued is safe when no other commit is desired and it was not rejected. -/
theorem safe_of_queued {w' : World} (h : Settled request o.ensure
      { w with current := some request.commit } w' .queued) :
    Safe request.commit w w' .ok ↔
      (∀ d, w.records.desired = .holds d → d.commit = request.commit) ∧
        ¬ Rejected request.commit o.ensure w.records := by
  constructor
  · intro hsafe
    refine ⟨h.kept.agrees_iff.1 (hsafe.agrees rfl), fun hrejected => ?_⟩
    rcases hsafe.named rfl with hnames | ⟨p, hp, hcommit⟩
    · rw [h.kept.eq_of_not hrejected.2.2] at hnames
      exact hrejected.2.2 hnames.establishes
    · rw [h.rejected rfl hrejected] at hp
      cases hp
  · rintro ⟨hagrees, hnot⟩
    refine ⟨fun hok => absurd rfl hok, fun _ => h.current, fun _ => ?_,
      fun _ => h.kept.agrees_iff.2 hagrees⟩
    rcases h.queued rfl with hpending | hnames | hrejected
    · exact .inr ⟨_, hpending, rfl⟩
    · exact .inl hnames
    · exact absurd hrejected hnot

/-- The end of an install is safe when its steps go well. -/
theorem finish_safe_iff : Safe request.commit w
      (finishActivation o request { w with current := some request.commit }).1
      (finishActivation o request { w with current := some request.commit }).2 ↔
    (((∃ listed, intentOf o request w = .raised listed) ∨ o.collected = false) →
      w.current = some request.commit) ∧
    (o.collected = true → intentOf o request w = .queued →
      (∀ d, w.records.desired = .holds d → d.commit = request.commit) ∧
        ¬ Rejected request.commit o.ensure w.records) := by
  have hsettled := kept_ensureRunIntentClient request o.ensure
    { w with current := some request.commit }
  unfold finishActivation intentOf
  cases hensure : ensureRunIntentClient request o.ensure
    { w with current := some request.commit } with
  | mk w' e =>
    rw [hensure] at hsettled
    have hcurrent : w'.current = some request.commit := hsettled.current
    cases e with
    | raised listed =>
      have hexit : (if listed then Exit.error else .raises) ≠ .ok := by cases listed <;> decide
      rw [safe_of_fails hexit hcurrent]
      exact ⟨fun h => ⟨fun _ => h, nofun⟩, fun h => h.1 (.inl ⟨listed, rfl⟩)⟩
    | generation =>
      cases hcollected : o.collected with
      | false =>
        show Safe request.commit w w' .raises ↔ _
        rw [safe_of_fails (by decide) hcurrent]
        exact ⟨fun h => ⟨fun _ => h, nofun⟩, fun h => h.1 (.inr rfl)⟩
      | true =>
        have hnames := hsettled.generation rfl
        refine iff_of_true ?_ ⟨?_, nofun⟩
        · exact ⟨fun hok => absurd rfl hok, fun _ => hcurrent, fun _ => .inl hnames,
            fun _ d hd => hnames.unique hd⟩
        · rintro (⟨listed, h⟩ | h) <;> cases h
    | queued =>
      cases hcollected : o.collected with
      | false =>
        show Safe request.commit w w' .raises ↔ _
        rw [safe_of_fails (by decide) hcurrent]
        exact ⟨fun h => ⟨fun _ => h, nofun⟩, fun h => h.1 (.inr rfl)⟩
      | true =>
        show Safe request.commit w w' .ok ↔ _
        rw [safe_of_queued hsettled]
        constructor
        · intro h
          refine ⟨?_, fun _ _ => h⟩
          rintro (⟨listed, hraised⟩ | hraised) <;> cases hraised
        · intro h
          exact h.2 rfl rfl

end Installs

/-- **An install is safe** exactly when it does not come to its switch of the pointer, or no step
behind the switch goes wrong. -/
theorem install_safe_iff (o : Steps) (request : RunRequest) (w : World) :
    Safe request.commit w (activateMutationLocked o request w).1
      (activateMutationLocked o request w).2 ↔
    (Activates o request w → Coherent o request w) := by
  by_cases h : Activates o request w
  · rw [activate_of_activates h]
    cases hswitch : o.switch with
    | failed leaves cliError =>
      have hexit : (if cliError then Exit.error else .raises) ≠ .ok := by cases cliError <;> decide
      dsimp only
      constructor
      · rintro hsafe -
        refine ⟨fun leaves' cliError' hfailed => ?_, fun hswitched => ?_, fun hswitched => ?_⟩
        · rw [hswitch] at hfailed
          cases hfailed
          exact hsafe.refused hexit
        · rw [hswitch] at hswitched
          cases hswitched
        · rw [hswitch] at hswitched
          cases hswitched
      · intro hcoherent
        exact ⟨fun _ => (hcoherent h).restored leaves cliError hswitch, fun hok => absurd hok hexit,
          fun hok => absurd hok hexit, fun hok => absurd hok hexit⟩
    | switched =>
      dsimp only
      rw [finish_safe_iff]
      constructor
      · rintro ⟨hselected, hqueued⟩ -
        refine ⟨fun leaves cliError hfailed => ?_, fun _ => hselected, fun _ => hqueued⟩
        rw [hswitch] at hfailed
        cases hfailed
      · intro hcoherent
        exact ⟨(hcoherent h).selected hswitch, (hcoherent h).queued hswitch⟩
  · obtain ⟨hworld, hexit⟩ := activate_of_not h
    refine iff_of_true ?_ fun hactivates => absurd hactivates h
    rw [hworld]
    exact ⟨fun _ => rfl, fun hok => absurd hok hexit, fun hok => absurd hok hexit,
      fun hok => absurd hok hexit⟩

/-! ### Pointers that move -/

/-- The commit that is maintained, and the one that is installed. -/
def maintained : PyStr := List.replicate 40 (CodePoint.ofChar 'a')

def installed : PyStr := List.replicate 40 (CodePoint.ofChar 'b')

/-- The request of the install. -/
def installRequest : RunRequest where
  commit := installed
  repo := "repo"
  uvPath := "uv"
  workerId := none

/-- Records with one desired content and nothing else, under the maintained commit. -/
def maintaining (desired : Content SupervisorDesired) : World where
  current := some maintained
  records := { applied := 0, desired := desired, mission := .absent, reserved := .absent }
  stateCommit := some maintained
  runtimeCommit := none
  pending := none
  acks := fun _ => none

/-- An intent of the maintained commit. -/
def maintainedIntent : SupervisorDesired where
  schemaVersion := SCHEMA_VERSION
  generation := 1
  commit := maintained
  repo := "repo"
  uvPath := "uv"
  workerId := none

/-- An install without the token while the supervisor is down; `first` is what its first request for
the run intent meets. -/
def tokenless (first : Attempt) : Steps where
  reads := ⟨.unavailable, .unavailable, .unavailable, false⟩
  build := .done
  launchers := true
  switch := .switched
  ensure :=
    { token := false, direct := ⟨0, .done⟩, directListed := true, first := first,
      requestId := "00000000000000000000000000000000", pendingWrite := .done, beforeAlive := none,
      alive := .dead, polls := [], last := (none, .noReply none), beforeLook := none,
      pendingReadable := true }
  collected := true

/-- The supervisor is down while the records are checked, and answers the request for the run
intent: the install is refused, and the pointer has moved. And where it stays down, the install
succeeds beside a durable intent of another commit. -/
theorem pointer_moves :
    (activateMutationLocked (tokenless (.reply ⟨0, .done⟩)) installRequest
        (maintaining (.holds maintainedIntent))).2 = .error ∧
    (activateMutationLocked (tokenless (.reply ⟨0, .done⟩)) installRequest
        (maintaining (.holds maintainedIntent))).1.current = some installed ∧
    (activateMutationLocked (tokenless (.noReply none)) installRequest
        (maintaining (.holds maintainedIntent))).2 = .ok ∧
    (activateMutationLocked (tokenless (.noReply none)) installRequest
        (maintaining (.holds maintainedIntent))).1.records.desired = .holds maintainedIntent := by
  decide +kernel

end Lubko.Cli.Install
