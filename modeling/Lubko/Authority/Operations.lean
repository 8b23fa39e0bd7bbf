import Lubko.Authority.Row
import Lubko.Lib.Execution

/-!
# Operations on the authority row

Every operation reads the row, decides on what it read, and then either answers or issues one
compare-and-swap over the exact text it read. Between the two, any number of other operations may
run; a compare-and-swap may never reach the database, or run without its answer coming back.

The system keeps the stored text of every server's row and the compare-and-swaps in flight. Above
it, `Request.Transition` says what an operation is for, on parsed rows.

* `Request.decide_eq_swap` — what an operation that issues a compare-and-swap read and writes.
* `System.step_row`, `System.Commits.row` — the rows of the system only change by bootstraps and by
  committed compare-and-swaps, and these are transitions.
-/

namespace Lubko.Authority

open Lubko.Lib

/-- `AuthorityClaim`: an incarnation's in-memory holding of a fencing epoch. -/
structure AuthorityClaim where
  server : PyStr
  epoch : ℤ
  pid : ℤ
  startTimeTicks : ℤ
  bootId : PyStr
  deriving DecidableEq

/-! ## The operations

`fetched` is what the row read returned. -/

/-- What an operation does after its read: it answers, or it issues a compare-and-swap and answers
by whether that updated the row. -/
inductive Decision (α : Type) where
  | answer (a : α)
  | swap (expected candidate : List Char) (won lost : α)

/-- `_read_observed`. -/
def readObserved (fetched : Option (List Char)) (server : PyStr) :
    Except PyStr (List Char × Option AuthorityRow) := do
  let server ← requireServerIdentity server
  match fetched with
  | none => return ([], none)
  | some stored =>
    let row ← parseAuthorityPayload stored server
    return (stored, some row)

/-- `_claim_owner`. -/
def claimOwner (claim : AuthorityClaim) (current : AuthorityRow) : Except PyStr AuthorityOwner :=
  match current.owner with
  | none => .error "lifecycle authority fencing epoch no longer matches the claim; holding"
  | some owner =>
    if current.epoch ≠ claim.epoch ∨ owner.pid ≠ claim.pid ∨
        owner.startTimeTicks ≠ claim.startTimeTicks ∨ owner.bootId ≠ claim.bootId then
      .error "lifecycle authority fencing epoch no longer matches the claim; holding"
    else .ok owner

/-- The error of an operation that finds no row. -/
def noRow : PyStr := "no lifecycle authority row for server "

/-- `take_authority`. -/
def takeAuthority (fetched : Option (List Char)) (server : PyStr) (owner : AuthorityOwner) :
    Except PyStr (Decision (Option AuthorityRow)) := do
  match ← readObserved fetched server with
  | (_, none) => throw noRow
  | (expected, some current) =>
    if current.owner = some owner then return .answer (some current)
    let updated := { current with epoch := current.epoch + 1, owner := some owner }
    return .swap expected (← canonicalRowText updated) (some updated) none

/-- `commit_spawn_obligation`. -/
def commitSpawnObligation (fetched : Option (List Char)) (claim : AuthorityClaim)
    (spawn : SpawnObligation) : Except PyStr (Decision Bool) := do
  match ← readObserved fetched claim.server with
  | (_, none) => throw noRow
  | (expected, some current) =>
    let owner ← claimOwner claim current
    if current.spawn ≠ none ∨ current.worker ≠ none then return .answer false
    let updated := { current with owner := some owner, spawn := some spawn, worker := none }
    return .swap expected (← canonicalRowText updated) true false

/-- `clear_spawn_obligation`. -/
def clearSpawnObligation (fetched : Option (List Char)) (claim : AuthorityClaim) :
    Except PyStr (Decision Bool) :=
  match readObserved fetched claim.server with
  | .error _ => .ok (.answer false)
  | .ok (_, none) => .ok (.answer false)
  | .ok (expected, some current) =>
    match claimOwner claim current with
    | .error _ => .ok (.answer false)
    | .ok owner => do
      if current.spawn = none then return .answer true
      let updated := { current with owner := some owner, spawn := none }
      return .swap expected (← canonicalRowText updated) true false

/-- `publish_worker`. -/
def publishWorker (fetched : Option (List Char)) (claim : AuthorityClaim) (spawnToken : PyStr)
    (worker : WorkerRecord) : Except PyStr (Decision Bool) := do
  match ← readObserved fetched claim.server with
  | (_, none) => throw noRow
  | (expected, some current) =>
    match claimOwner claim current with
    | .error _ => return .answer false
    | .ok owner =>
      if current.spawn.map SpawnObligation.token ≠ some spawnToken then return .answer false
      if current.worker ≠ none then return .answer false
      raiseIf (worker.token ≠ spawnToken)
        "published worker identity must name the obligated incarnation"
      let updated := { current with owner := some owner, spawn := none, worker := some worker }
      return .swap expected (← canonicalRowText updated) true false

/-- `clear_worker`. -/
def clearWorker (fetched : Option (List Char)) (claim : AuthorityClaim) (token : PyStr) :
    Except PyStr (Decision Bool) :=
  match readObserved fetched claim.server with
  | .error _ => .ok (.answer false)
  | .ok (_, none) => .ok (.answer false)
  | .ok (expected, some current) =>
    match claimOwner claim current with
    | .error _ => .ok (.answer false)
    | .ok owner => do
      match current.worker with
      | none => return .answer true
      | some worker =>
        if worker.token ≠ token then return .answer false
        let updated := { current with owner := some owner, worker := none }
        return .swap expected (← canonicalRowText updated) true false

/-- `read_authority`. -/
def readAuthority (fetched : Option (List Char)) (server : PyStr) :
    Except PyStr (Option AuthorityRow) := do
  let server ← requireServerIdentity server
  match fetched with
  | none => return none
  | some stored => return some (← parseAuthorityPayload stored server)

/-- `confirm_authority`. -/
def confirmAuthority (fetched : Option (List Char)) (claim : AuthorityClaim) : Bool :=
  match readAuthority fetched claim.server with
  | .error _ => false
  | .ok none => false
  | .ok (some row) =>
    row.epoch = claim.epoch &&
      row.owner.any fun owner =>
        owner.pid = claim.pid && owner.startTimeTicks = claim.startTimeTicks &&
          owner.bootId = claim.bootId

/-- The row `bootstrap_authority` leaves: `INSERT ... ON CONFLICT DO NOTHING` of the neutral
payload. An error is raised before anything is written. -/
def bootstrapAuthority (stored : Option (List Char)) (server : PyStr) : Option (List Char) :=
  match neutralPayload server with
  | .error _ => stored
  | .ok neutral => some (stored.getD neutral)

/-! ## The system -/

/-- A call of an operation that may write. -/
inductive Request where
  | take (server : PyStr) (owner : AuthorityOwner)
  | commitSpawn (claim : AuthorityClaim) (spawn : SpawnObligation)
  | clearSpawn (claim : AuthorityClaim)
  | publish (claim : AuthorityClaim) (spawnToken : PyStr) (worker : WorkerRecord)
  | clearWorker (claim : AuthorityClaim) (token : PyStr)
  deriving DecidableEq

/-- What a call returns. -/
inductive Answer where
  | row (row : Option AuthorityRow)
  | flag (b : Bool)
  deriving DecidableEq

namespace Request

/-- The server whose row the call is about. -/
def server : Request → PyStr
  | take server _ => server
  | commitSpawn claim _ | clearSpawn claim | publish claim _ _ | clearWorker claim _ => claim.server

/-- The claim the call is made under. -/
def claim? : Request → Option AuthorityClaim
  | take _ _ => none
  | commitSpawn claim _ | clearSpawn claim | publish claim _ _ | clearWorker claim _ => some claim

end Request

/-- Answers of one kind as answers of calls. -/
def Decision.map {α β : Type} (f : α → β) : Decision α → Decision β
  | answer a => answer (f a)
  | swap expected candidate won lost => swap expected candidate (f won) (f lost)

/-- The decision of a call on what its read returned. -/
def Request.decide (fetched : Option (List Char)) : Request → Except PyStr (Decision Answer)
  | take server owner => (takeAuthority fetched server owner).map (Decision.map .row)
  | commitSpawn claim spawn =>
    (commitSpawnObligation fetched claim spawn).map (Decision.map .flag)
  | clearSpawn claim => (clearSpawnObligation fetched claim).map (Decision.map .flag)
  | publish claim spawnToken worker =>
    (publishWorker fetched claim spawnToken worker).map (Decision.map .flag)
  | clearWorker claim token =>
    (Authority.clearWorker fetched claim token).map (Decision.map .flag)

/-- A compare-and-swap in flight. -/
structure Pending where
  request : Request
  expected : List Char
  candidate : List Char
  won : Answer
  lost : Answer

/-- The stored row of every server, and the compare-and-swaps in flight. -/
structure System where
  rows : PyStr → Option (List Char)
  pending : List Pending := []

/-- One atomic step. -/
inductive Label where
  /-- the transaction of `bootstrap_authority` -/
  | bootstrap (server : PyStr)
  /-- the row read of a call, with its decision -/
  | read (request : Request)
  /-- the database runs a compare-and-swap; its answer may be lost -/
  | swap (i : ℕ) (acknowledged : Bool)
  /-- a compare-and-swap never reaches the database: a crash or a lost connection -/
  | drop (i : ℕ)

namespace System

/-- The row a compare-and-swap leaves. -/
def swapped (s : System) (p : Pending) : PyStr → Option (List Char) :=
  if s.rows p.request.server = some p.expected then
    Function.update s.rows p.request.server (some p.candidate)
  else s.rows

/-- The step function. -/
def step (s : System) : Label → Option System
  | .bootstrap server =>
    some { s with rows := Function.update s.rows server
                    (bootstrapAuthority (s.rows server) server) }
  | .read request =>
    match request.decide (s.rows request.server) with
    | .ok (.swap expected candidate won lost) =>
      some { s with pending := s.pending ++ [⟨request, expected, candidate, won, lost⟩] }
    | _ => some s
  | .swap i _ =>
    (s.pending[i]?).map fun p => { rows := s.swapped p, pending := s.pending.eraseIdx i }
  | .drop i => some { s with pending := s.pending.eraseIdx i }

/-- The compare-and-swap of a call commits in this step. -/
def Commits (s : System) (label : Label) (request : Request) : Prop :=
  ∃ i acknowledged p, label = .swap i acknowledged ∧ s.pending[i]? = some p ∧
    p.request = request ∧ s.rows request.server = some p.expected

/-- The answer a call gets in this step. -/
def returned (s : System) : Label → Option (Request × Answer)
  | .read request =>
    match request.decide (s.rows request.server) with
    | .ok (.answer a) => some (request, a)
    | _ => none
  | .swap i true =>
    (s.pending[i]?).map fun p =>
      (p.request, if s.rows p.request.server = some p.expected then p.won else p.lost)
  | _ => none

/-- The row of a server as an operation reads it; `none` when there is none or it is refused. -/
def row (s : System) (server : PyStr) : Option AuthorityRow :=
  (s.rows server).bind fun t => (parseAuthorityPayload t server).toOption

end System

/-! ## What the operations are for -/

/-- The incarnation a claim speaks for. -/
def AuthorityClaim.owner (claim : AuthorityClaim) : AuthorityOwner :=
  { pid := claim.pid, startTimeTicks := claim.startTimeTicks, bootId := claim.bootId }

/-- The row names the claim's epoch and exact owner. -/
def AuthorityClaim.Holds (claim : AuthorityClaim) (row : AuthorityRow) : Prop :=
  row.epoch = claim.epoch ∧ row.owner = some claim.owner

/-- The abstract authority: what a committed call does to the row it read. -/
inductive Request.Transition : Request → AuthorityRow → AuthorityRow → Prop
  | take {server : PyStr} {owner : AuthorityOwner} {row : AuthorityRow}
      (hother : row.owner ≠ some owner) :
      Transition (.take server owner) row { row with epoch := row.epoch + 1, owner := some owner }
  | commitSpawn {claim : AuthorityClaim} {spawn : SpawnObligation} {row : AuthorityRow}
      (hclaim : claim.Holds row) (hspawn : row.spawn = none) (hworker : row.worker = none) :
      Transition (.commitSpawn claim spawn) row { row with spawn := some spawn }
  | clearSpawn {claim : AuthorityClaim} {row : AuthorityRow} (hclaim : claim.Holds row)
      (hspawn : row.spawn ≠ none) :
      Transition (.clearSpawn claim) row { row with spawn := none }
  | publish {claim : AuthorityClaim} {spawn : SpawnObligation} {worker : WorkerRecord}
      {row : AuthorityRow} (hclaim : claim.Holds row) (hspawn : row.spawn = some spawn)
      (hworker : row.worker = none) (htoken : worker.token = spawn.token) :
      Transition (.publish claim spawn.token worker) row
        { row with spawn := none, worker := some worker }
  | clearWorker {claim : AuthorityClaim} {worker : WorkerRecord} {row : AuthorityRow}
      (hclaim : claim.Holds row) (hworker : row.worker = some worker) :
      Transition (.clearWorker claim worker.token) row { row with worker := none }

theorem claimOwner_eq_ok {claim : AuthorityClaim} {row : AuthorityRow} {owner : AuthorityOwner}
    (h : claimOwner claim row = .ok owner) : claim.Holds row ∧ row.owner = some owner := by
  rw [claimOwner] at h
  cases ho : row.owner with
  | none => rw [ho] at h; cases h
  | some o =>
    rw [ho] at h
    dsimp only at h
    split_ifs at h with hmatch
    obtain rfl := Except.ok.inj h
    simp only [not_or, not_not] at hmatch
    obtain ⟨hepoch, hpid, hticks, hboot⟩ := hmatch
    refine ⟨⟨hepoch, ?_⟩, rfl⟩
    rw [ho, AuthorityClaim.owner, ← hpid, ← hticks, ← hboot]

theorem readObserved_eq_ok {fetched : Option (List Char)} {server : PyStr} {t : List Char}
    {row : AuthorityRow} (h : readObserved fetched server = .ok (t, some row)) :
    fetched = some t ∧ parseAuthorityPayload t server = .ok row := by
  simp only [readObserved, except_bind_eq_ok, requireServerIdentity_eq_ok] at h
  obtain ⟨_, ⟨-, rfl⟩, h⟩ := h
  cases fetched with
  | none => cases h
  | some stored =>
    obtain ⟨r, hr, heq⟩ := except_bind_eq_ok.1 h
    obtain ⟨rfl, hrow⟩ := Prod.mk.inj (Except.ok.inj heq)
    obtain rfl := Option.some.inj hrow
    exact ⟨rfl, hr⟩

/-- What a call read and what it writes, when it issues a compare-and-swap. -/
def Request.Swaps (request : Request) (expected candidate : List Char) : Prop :=
  ∃ row row', parseAuthorityPayload expected request.server = .ok row ∧
    request.Transition row row' ∧ canonicalRowText row' = .ok candidate

section Operations

variable {fetched : Option (List Char)} {claim : AuthorityClaim} {e c : List Char} {won lost : Bool}

/-- A swap behind the test of the claim is one of the owner. -/
theorem claimed_eq_swap {row : AuthorityRow}
    {next : AuthorityOwner → Except PyStr (Decision Bool)}
    (h : (match claimOwner claim row with
      | .error _ => .ok (.answer false)
      | .ok owner => next owner : Except PyStr (Decision Bool)) = .ok (.swap e c won lost)) :
    ∃ owner, claimOwner claim row = .ok owner ∧ next owner = .ok (.swap e c won lost) := by
  cases howner : claimOwner claim row with
  | error _ =>
    rw [howner] at h
    cases h
  | ok owner =>
    rw [howner] at h
    exact ⟨owner, rfl, h⟩

/-- A swap behind a lenient read is one of the row that was read. -/
theorem observed_eq_swap {server : PyStr}
    {next : List Char → AuthorityRow → Except PyStr (Decision Bool)}
    (h : (match readObserved fetched server with
      | .error _ => .ok (.answer false)
      | .ok (_, none) => .ok (.answer false)
      | .ok (expected, some current) => next expected current : Except PyStr (Decision Bool)) =
        .ok (.swap e c won lost)) :
    ∃ t row, fetched = some t ∧ parseAuthorityPayload t server = .ok row ∧
      next t row = .ok (.swap e c won lost) := by
  match hread : readObserved fetched server with
  | .error _ =>
    rw [hread] at h
    cases h
  | .ok (_, none) =>
    rw [hread] at h
    cases h
  | .ok (t, some row) =>
    rw [hread] at h
    obtain ⟨hfetched, hparse⟩ := readObserved_eq_ok hread
    exact ⟨t, row, hfetched, hparse, h⟩

theorem takeAuthority_eq_swap {server : PyStr} {owner : AuthorityOwner}
    {won lost : Option AuthorityRow}
    (h : takeAuthority fetched server owner = .ok (.swap e c won lost)) :
    fetched = some e ∧ (Request.take server owner).Swaps e c := by
  obtain ⟨⟨t, current⟩, hread, h⟩ := except_bind_eq_ok.1 h
  cases current with
  | none => cases h
  | some row =>
    obtain ⟨hfetched, hparse⟩ := readObserved_eq_ok hread
    dsimp only at h
    split_ifs at h with hsame
    · cases h
    · obtain ⟨text, htext, heq⟩ := except_bind_eq_ok.1 h
      obtain ⟨rfl, rfl, -, -⟩ := Decision.swap.inj (Except.ok.inj heq)
      exact ⟨hfetched, row, _, hparse, .take hsame, htext⟩

theorem commitSpawnObligation_eq_swap {spawn : SpawnObligation}
    (h : commitSpawnObligation fetched claim spawn = .ok (.swap e c won lost)) :
    fetched = some e ∧ (Request.commitSpawn claim spawn).Swaps e c ∧ lost = false := by
  obtain ⟨⟨t, current⟩, hread, h⟩ := except_bind_eq_ok.1 h
  cases current with
  | none => cases h
  | some row =>
    obtain ⟨hfetched, hparse⟩ := readObserved_eq_ok hread
    obtain ⟨owner, howner, h⟩ := except_bind_eq_ok.1 h
    obtain ⟨hclaim, hown⟩ := claimOwner_eq_ok howner
    dsimp only at h
    split_ifs at h with hbusy
    · cases h
    · obtain ⟨hspawn, hworker⟩ : row.spawn = none ∧ row.worker = none := by simpa using hbusy
      obtain ⟨text, htext, heq⟩ := except_bind_eq_ok.1 h
      obtain ⟨rfl, rfl, -, rfl⟩ := Decision.swap.inj (Except.ok.inj heq)
      rw [← hown, ← hworker] at htext
      exact ⟨hfetched, ⟨row, _, hparse, .commitSpawn hclaim hspawn hworker, htext⟩, rfl⟩

theorem clearSpawnObligation_eq_swap
    (h : clearSpawnObligation fetched claim = .ok (.swap e c won lost)) :
    fetched = some e ∧ (Request.clearSpawn claim).Swaps e c := by
  obtain ⟨t, row, hfetched, hparse, hread⟩ := observed_eq_swap h
  obtain ⟨owner, howner, hswap⟩ := claimed_eq_swap hread
  obtain ⟨hclaim, hown⟩ := claimOwner_eq_ok howner
  split_ifs at hswap with hspawn
  · cases hswap
  · obtain ⟨text, htext, heq⟩ := except_bind_eq_ok.1 hswap
    obtain ⟨rfl, rfl, -, -⟩ := Decision.swap.inj (Except.ok.inj heq)
    rw [← hown] at htext
    exact ⟨hfetched, row, _, hparse, .clearSpawn hclaim hspawn, htext⟩

theorem publishWorker_eq_swap {spawnToken : PyStr} {worker : WorkerRecord}
    (h : publishWorker fetched claim spawnToken worker = .ok (.swap e c won lost)) :
    fetched = some e ∧ (Request.publish claim spawnToken worker).Swaps e c := by
  obtain ⟨⟨t, current⟩, hread, h⟩ := except_bind_eq_ok.1 h
  cases current with
  | none => cases h
  | some row =>
    obtain ⟨hfetched, hparse⟩ := readObserved_eq_ok hread
    obtain ⟨owner, howner, h⟩ := claimed_eq_swap h
    obtain ⟨hclaim, hown⟩ := claimOwner_eq_ok howner
    split_ifs at h with htoken hworker
    · cases h
    · cases h
    · obtain ⟨spawn, hspawn, rfl⟩ := Option.map_eq_some_iff.1 (not_not.1 htoken)
      obtain ⟨hname, h⟩ := raiseIf_bind_eq_ok.1 h
      obtain ⟨text, htext, heq⟩ := except_bind_eq_ok.1 h
      obtain ⟨rfl, rfl, -, -⟩ := Decision.swap.inj (Except.ok.inj heq)
      rw [← hown] at htext
      exact ⟨hfetched, row, _, hparse, .publish hclaim hspawn (not_not.1 hworker)
        (by simpa using hname), htext⟩

theorem clearWorker_eq_swap {token : PyStr}
    (h : clearWorker fetched claim token = .ok (.swap e c won lost)) :
    fetched = some e ∧ (Request.clearWorker claim token).Swaps e c := by
  obtain ⟨t, row, hfetched, hparse, hread⟩ := observed_eq_swap h
  obtain ⟨owner, howner, hswap⟩ := claimed_eq_swap hread
  obtain ⟨hclaim, hown⟩ := claimOwner_eq_ok howner
  cases hworker : row.worker with
  | none =>
    rw [hworker] at hswap
    cases hswap
  | some worker =>
    rw [hworker] at hswap
    dsimp only at hswap
    split_ifs at hswap with htoken
    · cases hswap
    · obtain rfl := not_not.1 htoken
      obtain ⟨text, htext, heq⟩ := except_bind_eq_ok.1 hswap
      obtain ⟨rfl, rfl, -, -⟩ := Decision.swap.inj (Except.ok.inj heq)
      rw [← hown] at htext
      exact ⟨hfetched, row, _, hparse, .clearWorker hclaim hworker, htext⟩

end Operations

theorem Decision.map_eq_swap {α β : Type} {f : α → β} {x : Except PyStr (Decision α)}
    {e c : List Char} {won lost : β} (h : x.map (Decision.map f) = .ok (.swap e c won lost)) :
    ∃ a b, x = .ok (.swap e c a b) ∧ f b = lost := by
  cases x with
  | error _ => cases h
  | ok d =>
    cases d with
    | answer a => cases h
    | swap e' c' a b =>
      obtain ⟨rfl, rfl, -, rfl⟩ := Decision.swap.inj (Except.ok.inj h)
      exact ⟨a, b, rfl, rfl⟩

/-- **A call writes what it read**, changed by one transition. -/
theorem Request.decide_eq_swap {fetched : Option (List Char)} {request : Request}
    {e c : List Char} {won lost : Answer} (h : request.decide fetched = .ok (.swap e c won lost)) :
    fetched = some e ∧ request.Swaps e c := by
  cases request with
  | take server owner =>
    obtain ⟨a, b, hx, -⟩ := Decision.map_eq_swap h
    exact takeAuthority_eq_swap hx
  | commitSpawn claim spawn =>
    obtain ⟨a, b, hx, -⟩ := Decision.map_eq_swap h
    obtain ⟨hfetched, hswaps, -⟩ := commitSpawnObligation_eq_swap hx
    exact ⟨hfetched, hswaps⟩
  | clearSpawn claim =>
    obtain ⟨a, b, hx, -⟩ := Decision.map_eq_swap h
    exact clearSpawnObligation_eq_swap hx
  | publish claim token worker =>
    obtain ⟨a, b, hx, -⟩ := Decision.map_eq_swap h
    exact publishWorker_eq_swap hx
  | clearWorker claim token =>
    obtain ⟨a, b, hx, -⟩ := Decision.map_eq_swap h
    exact clearWorker_eq_swap hx

/-- A commit answers `True` only by its compare-and-swap. -/
theorem commitSpawn_decide {fetched : Option (List Char)} {claim : AuthorityClaim}
    {spawn : SpawnObligation} {d : Decision Answer}
    (h : (Request.commitSpawn claim spawn).decide fetched = .ok d) :
    d = .answer (.flag false) ∨ ∃ e c won, d = .swap e c won (.flag false) := by
  obtain ⟨x, hx, rfl⟩ : ∃ x, commitSpawnObligation fetched claim spawn = .ok x ∧
      x.map .flag = d := by
    cases hx : commitSpawnObligation fetched claim spawn with
    | error _ => rw [Request.decide, hx] at h; cases h
    | ok x =>
      rw [Request.decide, hx] at h
      exact ⟨x, rfl, Except.ok.inj h⟩
  cases x with
  | swap e c won lost =>
    obtain ⟨-, -, rfl⟩ := commitSpawnObligation_eq_swap hx
    exact Or.inr ⟨e, c, .flag won, rfl⟩
  | answer b =>
    obtain ⟨⟨t, current⟩, -, hx⟩ := except_bind_eq_ok.1 hx
    cases current with
    | none => cases hx
    | some row =>
      obtain ⟨owner, -, hx⟩ := except_bind_eq_ok.1 hx
      dsimp only at hx
      split_ifs at hx
      · obtain rfl := Decision.answer.inj (Except.ok.inj hx)
        exact Or.inl rfl
      · obtain ⟨_, -, hx⟩ := except_bind_eq_ok.1 hx
        cases hx

/-! ## Transitions -/

section Transition

variable {request : Request} {row row' : AuthorityRow}

theorem Request.Transition.server_eq (h : request.Transition row row') :
    row'.server = row.server := by
  cases h <;> rfl

theorem Request.Transition.exclusive (h : request.Transition row row')
    (hrow : row.spawn = none ∨ row.worker = none) : row'.spawn = none ∨ row'.worker = none := by
  cases h with
  | take _ => exact hrow
  | commitSpawn _ _ hworker => exact Or.inr hworker
  | clearSpawn _ _ => exact Or.inl rfl
  | publish _ _ _ _ => exact Or.inl rfl
  | clearWorker _ _ => exact Or.inr rfl

/-- A call under a claim finds the claim's epoch and owner in the row. -/
theorem Request.Transition.holds {claim : AuthorityClaim} (h : request.Transition row row')
    (hclaim : request.claim? = some claim) : claim.Holds row := by
  cases h with
  | take _ => cases hclaim
  | commitSpawn hc _ _ | clearSpawn hc _ | publish hc _ _ _ | clearWorker hc _ =>
    obtain rfl := Option.some.inj hclaim
    exact hc

end Transition

/-! ## The system's rows -/

theorem toOption_eq_some {ε α : Type} {x : Except ε α} {a : α} :
    x.toOption = some a ↔ x = .ok a := by
  cases x <;> simp [Except.toOption]

namespace System

variable {s m : System} {label : Label}

theorem row_eq_some {server : PyStr} {r : AuthorityRow} :
    s.row server = some r ↔
      ∃ t, s.rows server = some t ∧ parseAuthorityPayload t server = .ok r := by
  simp [row, Option.bind_eq_some_iff, toOption_eq_some]

theorem row_congr {server : PyStr} (h : m.rows server = s.rows server) :
    m.row server = s.row server := by
  rw [row, row, h]

/-- Every compare-and-swap in flight was decided on the text it expects. -/
def Inv (s : System) : Prop :=
  ∀ p ∈ s.pending,
    p.request.decide (some p.expected) = .ok (.swap p.expected p.candidate p.won p.lost)

theorem Inv.step (hs : s.Inv) (h : s.step label = some m) : m.Inv := by
  cases label with
  | bootstrap server =>
    obtain rfl := Option.some.inj h
    exact hs
  | read request =>
    rw [System.step] at h
    split at h
    · rename_i e c won lost hdecide
      obtain rfl := Option.some.inj h
      obtain ⟨hfetched, -⟩ := Request.decide_eq_swap hdecide
      intro p hp
      rcases List.mem_append.1 hp with hp | hp
      · exact hs p hp
      · obtain rfl := List.mem_singleton.1 hp
        rw [← hfetched]
        exact hdecide
    · obtain rfl := Option.some.inj h
      exact hs
  | swap i acknowledged =>
    obtain ⟨p, -, rfl⟩ := Option.map_eq_some_iff.1 h
    exact fun q hq => hs q (List.mem_of_mem_eraseIdx hq)
  | drop i =>
    obtain rfl := Option.some.inj h
    exact fun q hq => hs q (List.mem_of_mem_eraseIdx hq)

/-- **A committed compare-and-swap is a transition** of the parsed row. -/
theorem Commits.row (hs : s.Inv) {request : Request} (hcommit : s.Commits label request)
    (h : s.step label = some m) :
    ∃ row row' t, s.row request.server = some row ∧ request.Transition row row' ∧
      canonicalRowText row' = .ok t ∧ m.rows request.server = some t ∧
      m.row request.server = some row'.joined := by
  obtain ⟨i, acknowledged, p, rfl, hp, rfl, hrow⟩ := hcommit
  rw [System.step, hp] at h
  obtain rfl := Option.some.inj h
  obtain ⟨-, row, row', hparse, htrans, htext⟩ :=
    Request.decide_eq_swap (hs p (List.mem_of_getElem? hp))
  have hrows : (s.swapped p) p.request.server = some p.candidate := by
    rw [swapped, if_pos hrow, Function.update_self]
  have hname : row'.server = p.request.server := by
    rw [htrans.server_eq, parseAuthorityPayload_server hparse]
  have hjoined : row'.server.joinSurrogates = row'.server := by
    rw [htrans.server_eq]
    exact congrArg AuthorityRow.server (parseAuthorityPayload_joined hparse)
  have hback := parseAuthorityPayload_canonicalRowText htext hjoined
    (htrans.exclusive (parseAuthorityPayload_exclusive hparse))
  exact ⟨row, row', p.candidate, row_eq_some.2 ⟨_, hrow, hparse⟩, htrans, htext, hrows,
    row_eq_some.2 ⟨_, hrows, hname ▸ hback⟩⟩

/-- **What one step does to a server's row**: nothing; or a bootstrap fills the empty place with
the neutral payload; or the compare-and-swap of one call commits. -/
theorem step_row (h : s.step label = some m) (server : PyStr) :
    m.rows server = s.rows server ∨
      (label = .bootstrap server ∧ s.rows server = none ∧
        ∃ t, neutralPayload server = .ok t ∧ m.rows server = some t) ∨
      ∃ request, s.Commits label request ∧ request.server = server := by
  cases label with
  | bootstrap server' =>
    obtain rfl := Option.some.inj h
    by_cases hserver : server = server'
    · subst hserver
      cases hrow : s.rows server with
      | some t =>
        left
        simp only [Function.update_self, bootstrapAuthority]
        cases neutralPayload server <;> rfl
      | none =>
        cases hneutral : neutralPayload server with
        | error _ =>
          left
          simp only [Function.update_self, bootstrapAuthority, hneutral]
        | ok t =>
          right; left
          refine ⟨rfl, rfl, t, rfl, ?_⟩
          simp only [Function.update_self, bootstrapAuthority, hneutral]
          rfl
    · left
      exact Function.update_of_ne hserver _ _
  | read request =>
    left
    rw [System.step] at h
    split at h <;> obtain rfl := Option.some.inj h <;> rfl
  | swap i acknowledged =>
    obtain ⟨p, hp, rfl⟩ := Option.map_eq_some_iff.1 h
    by_cases hcommit : s.rows p.request.server = some p.expected
    · by_cases hserver : server = p.request.server
      · subst hserver
        right; right
        exact ⟨p.request, ⟨i, acknowledged, p, rfl, hp, rfl, hcommit⟩, rfl⟩
      · left
        simp only [swapped, if_pos hcommit]
        exact Function.update_of_ne hserver _ _
    · left
      simp only [swapped, if_neg hcommit]
  | drop i =>
    left
    obtain rfl := Option.some.inj h
    rfl

/-- At most one call commits in a step. -/
theorem Commits.unique {request request' : Request} (h : s.Commits label request)
    (h' : s.Commits label request') : request = request' := by
  obtain ⟨i, a, p, rfl, hp, rfl, -⟩ := h
  obtain ⟨j, b, q, heq, hq, rfl, -⟩ := h'
  obtain ⟨rfl, rfl⟩ := Label.swap.inj heq
  rw [Option.some.inj (hp.symm.trans hq)]

end System

end Lubko.Authority
