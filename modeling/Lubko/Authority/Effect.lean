import Lubko.Authority.Operations

/-!
# Operations without contention

One supervisor runs on a server at a time, so between the read of an operation and its
compare-and-swap nobody else writes the row. What the operation does is then a function of the
parsed row: the row it leaves and the answer it gives. An operation that raises `AuthorityError` is
answered as refused, since its callers in the supervisor catch that error.

* `Request.decide_effect` — what an operation issues or answers is its effect.
* `Request.effect_cases` — what an operation can do, with its guards.
-/

namespace Lubko.Authority

open Lubko.Lib

instance (claim : AuthorityClaim) (row : AuthorityRow) : Decidable (claim.Holds row) :=
  inferInstanceAs (Decidable (_ ∧ _))

/-- The row an operation leaves, and whether it was carried out. -/
def Request.effect (request : Request) (row : AuthorityRow) : AuthorityRow × Bool :=
  match request with
  | .take _ owner =>
    if row.owner = some owner then (row, true)
    else ({ row with epoch := row.epoch + 1, owner := some owner }, true)
  | .commitSpawn claim spawn =>
    if claim.Holds row ∧ row.spawn = none ∧ row.worker = none then
      ({ row with spawn := some spawn }, true)
    else (row, false)
  | .clearSpawn claim =>
    if claim.Holds row then ({ row with spawn := none }, true) else (row, false)
  | .publish claim spawnToken worker =>
    if claim.Holds row ∧ row.spawn.map SpawnObligation.token = some spawnToken ∧
        row.worker = none ∧ worker.token = spawnToken then
      ({ row with spawn := none, worker := some worker }, true)
    else (row, false)
  | .clearWorker claim token =>
    if claim.Holds row ∧ ∀ worker ∈ row.worker, worker.token = token then
      ({ row with worker := none }, true)
    else (row, false)

/-- Whether an answer says that the call was carried out. -/
def Answer.done : Answer → Bool
  | .flag b => b
  | .row r => r.isSome

theorem holds_of_claimOwner {claim : AuthorityClaim} {row : AuthorityRow} :
    (∃ owner, claimOwner claim row = .ok owner) ↔ claim.Holds row := by
  constructor
  · rintro ⟨owner, h⟩
    exact (claimOwner_eq_ok h).1
  · rintro ⟨hepoch, howner⟩
    refine ⟨claim.owner, ?_⟩
    simp [claimOwner, howner, hepoch, AuthorityClaim.owner]

/-- The guards of an operation, and what it does when they hold. -/
inductive Request.Done : Request → AuthorityRow → AuthorityRow → Prop
  | retaken {server : PyStr} {owner : AuthorityOwner} {row : AuthorityRow}
      (howner : row.owner = some owner) : Done (.take server owner) row row
  | taken {server : PyStr} {owner : AuthorityOwner} {row : AuthorityRow} :
      Done (.take server owner) row { row with epoch := row.epoch + 1, owner := some owner }
  | commitSpawn {claim : AuthorityClaim} {spawn : SpawnObligation} {row : AuthorityRow}
      (hclaim : claim.Holds row) (hspawn : row.spawn = none) (hworker : row.worker = none) :
      Done (.commitSpawn claim spawn) row { row with spawn := some spawn }
  | clearSpawn {claim : AuthorityClaim} {row : AuthorityRow} (hclaim : claim.Holds row) :
      Done (.clearSpawn claim) row { row with spawn := none }
  | publish {claim : AuthorityClaim} {spawn : SpawnObligation} {worker : WorkerRecord}
      {row : AuthorityRow} (hclaim : claim.Holds row) (hspawn : row.spawn = some spawn)
      (hworker : row.worker = none) (htoken : worker.token = spawn.token) :
      Done (.publish claim spawn.token worker) row
        { row with spawn := none, worker := some worker }
  | clearWorker {claim : AuthorityClaim} {token : PyStr} {row : AuthorityRow}
      (hclaim : claim.Holds row) (hworker : ∀ worker ∈ row.worker, worker.token = token) :
      Done (.clearWorker claim token) row { row with worker := none }

/-- **What an operation can do.** -/
theorem Request.effect_cases (request : Request) (row : AuthorityRow) :
    request.effect row = (row, false) ∨
      ∃ row', request.effect row = (row', true) ∧ request.Done row row' := by
  cases request with
  | take server owner =>
    by_cases howner : row.owner = some owner
    · exact .inr ⟨row, if_pos howner, .retaken howner⟩
    · exact .inr ⟨_, if_neg howner, .taken⟩
  | commitSpawn claim spawn =>
    by_cases h : claim.Holds row ∧ row.spawn = none ∧ row.worker = none
    · exact .inr ⟨_, if_pos h, .commitSpawn h.1 h.2.1 h.2.2⟩
    · exact .inl (if_neg h)
  | clearSpawn claim =>
    by_cases h : claim.Holds row
    · exact .inr ⟨_, if_pos h, .clearSpawn h⟩
    · exact .inl (if_neg h)
  | publish claim spawnToken worker =>
    by_cases h : claim.Holds row ∧ row.spawn.map SpawnObligation.token = some spawnToken ∧
        row.worker = none ∧ worker.token = spawnToken
    · refine .inr ⟨_, if_pos h, ?_⟩
      obtain ⟨hclaim, hspawn, hworker, htoken⟩ := h
      obtain ⟨spawn, hobligation, rfl⟩ := Option.map_eq_some_iff.1 hspawn
      exact .publish hclaim hobligation hworker htoken
    · exact .inl (if_neg h)
  | clearWorker claim token =>
    by_cases h : claim.Holds row ∧ ∀ worker ∈ row.worker, worker.token = token
    · exact .inr ⟨_, if_pos h, .clearWorker h.1 h.2⟩
    · exact .inl (if_neg h)

/-- A row changes by the transitions of the abstract authority only. -/
theorem Request.Done.transition {request : Request} {row row' : AuthorityRow}
    (h : request.Done row row') : row' = row ∨ request.Transition row row' ∨
      ∃ server owner, request = .take server owner := by
  cases h with
  | retaken howner => exact .inl rfl
  | taken => exact .inr (.inr ⟨_, _, rfl⟩)
  | commitSpawn hclaim hspawn hworker => exact .inr (.inl (.commitSpawn hclaim hspawn hworker))
  | clearSpawn hclaim =>
    cases row with
    | mk server epoch generation owner spawn worker =>
      cases spawn with
      | none => exact .inl rfl
      | some spawn => exact .inr (.inl (.clearSpawn hclaim (by simp)))
  | publish hclaim hspawn hworker htoken =>
    exact .inr (.inl (.publish hclaim hspawn hworker htoken))
  | clearWorker hclaim hworker =>
    cases hw : row.worker with
    | none =>
      refine .inl ?_
      rw [← hw]
    | some worker =>
      obtain rfl := hworker worker hw
      exact .inr (.inl (.clearWorker hclaim hw))

/-! ## The code -/

/-- A decision of the code on a row is the effect: it issues the row the effect leaves, or answers
as the effect does where the row stays, or raises where there is none or it cannot be written. -/
structure Request.Agrees (request : Request) (row : AuthorityRow)
    (decided : Except PyStr (Decision Answer)) : Prop where
  swap : ∀ expected candidate won lost, decided = .ok (.swap expected candidate won lost) →
    canonicalRowText (request.effect row).1 = .ok candidate ∧ (request.effect row).2 = true ∧
      won.done = true ∧ lost.done = false
  answer : ∀ a, decided = .ok (.answer a) → request.effect row = (row, a.done)
  error : ∀ e, decided = .error e → request.effect row = (row, false) ∨
    ∃ e', canonicalRowText (request.effect row).1 = .error e'

section Decide

variable {row : AuthorityRow} {text : List Char}

theorem agrees_answer {request : Request} {a : Answer}
    (h : request.effect row = (row, a.done)) : request.Agrees row (.ok (.answer a)) := by
  refine ⟨fun e c won lost hd => ?_, fun b hb => ?_, fun e he => ?_⟩
  · cases hd
  · cases hb
    exact h
  · cases he

theorem agrees_error {request : Request} {e : PyStr} (h : request.effect row = (row, false)) :
    request.Agrees row (.error e) := by
  refine ⟨fun e c won lost hd => ?_, fun b hb => ?_, fun e he => .inl h⟩
  · cases hd
  · cases hb

/-- A decision that writes the row the effect leaves. -/
theorem agrees_swap {request : Request} {row' : AuthorityRow}
    (h : request.effect row = (row', true)) :
    request.Agrees row
      (((canonicalRowText row').bind fun candidate => .ok (.swap text candidate true false)).map
        (Decision.map .flag)) := by
  cases hc : canonicalRowText row' with
  | ok candidate =>
    refine ⟨fun e c won lost hd => ?_, fun a ha => ?_, fun e he => ?_⟩
    · cases hd
      rw [h]
      exact ⟨hc, rfl, rfl, rfl⟩
    · cases ha
    · cases he
  | error e =>
    refine ⟨fun e c won lost hd => ?_, fun a ha => ?_, fun e' he => .inr ?_⟩
    · cases hd
    · cases ha
    · rw [h]
      exact ⟨e, hc⟩

variable {fetched : Option (List Char)} {claim : AuthorityClaim}

theorem not_holds_of_claimOwner {e : PyStr} (h : claimOwner claim row = .error e) :
    ¬ claim.Holds row := by
  intro hclaim
  obtain ⟨owner, howner⟩ := holds_of_claimOwner.2 hclaim
  rw [h] at howner
  cases howner

theorem commitSpawn_agrees {spawn : SpawnObligation}
    (hread : readObserved fetched claim.server = .ok (text, some row)) :
    (Request.commitSpawn claim spawn).Agrees row
      ((Request.commitSpawn claim spawn).decide fetched) := by
  rw [Request.decide, commitSpawnObligation, hread]
  cases howner : claimOwner claim row with
  | error e =>
    simp only [bind, Except.bind, howner]
    exact agrees_error (if_neg fun h => not_holds_of_claimOwner howner h.1)
  | ok owner =>
    obtain ⟨hclaim, hrow⟩ := claimOwner_eq_ok howner
    simp only [bind, Except.bind, howner]
    by_cases hfree : row.spawn ≠ none ∨ row.worker ≠ none
    · rw [if_pos hfree]
      exact agrees_answer (if_neg fun h => hfree.elim (absurd h.2.1) (absurd h.2.2))
    · rw [if_neg hfree]
      simp only [not_or, not_not] at hfree
      refine agrees_swap ((if_pos ⟨hclaim, hfree.1, hfree.2⟩).trans ?_)
      rw [← hrow, ← hfree.2]

theorem clearSpawn_agrees (hread : readObserved fetched claim.server = .ok (text, some row)) :
    (Request.clearSpawn claim).Agrees row ((Request.clearSpawn claim).decide fetched) := by
  rw [Request.decide, clearSpawnObligation, hread]
  cases howner : claimOwner claim row with
  | error e =>
    simp only [howner]
    exact agrees_answer (if_neg (not_holds_of_claimOwner howner))
  | ok owner =>
    obtain ⟨hclaim, hrow⟩ := claimOwner_eq_ok howner
    simp only [bind, Except.bind, howner]
    by_cases hspawn : row.spawn = none
    · rw [if_pos hspawn]
      refine agrees_answer ((if_pos hclaim).trans ?_)
      rw [← hspawn]
      rfl
    · rw [if_neg hspawn]
      refine agrees_swap ((if_pos hclaim).trans ?_)
      rw [← hrow]

theorem publish_agrees {spawnToken : PyStr} {worker : WorkerRecord}
    (hread : readObserved fetched claim.server = .ok (text, some row)) :
    (Request.publish claim spawnToken worker).Agrees row
      ((Request.publish claim spawnToken worker).decide fetched) := by
  rw [Request.decide, publishWorker, hread]
  cases howner : claimOwner claim row with
  | error e =>
    simp only [bind, Except.bind, howner]
    exact agrees_answer (if_neg fun h => not_holds_of_claimOwner howner h.1)
  | ok owner =>
    obtain ⟨hclaim, hrow⟩ := claimOwner_eq_ok howner
    simp only [bind, Except.bind, howner]
    by_cases hspawn : row.spawn.map SpawnObligation.token = some spawnToken
    · rw [if_neg (not_not.2 hspawn)]
      by_cases hworker : row.worker = none
      · rw [if_neg (not_not.2 hworker)]
        by_cases htoken : worker.token = spawnToken
        · rw [raiseIf, if_neg (by simpa using htoken)]
          refine agrees_swap ((if_pos ⟨hclaim, hspawn, hworker, htoken⟩).trans ?_)
          rw [← hrow]
        · rw [raiseIf, if_pos (by simpa using htoken)]
          exact agrees_error (if_neg fun h => htoken h.2.2.2)
      · rw [if_pos hworker]
        exact agrees_answer (if_neg fun h => hworker h.2.2.1)
    · rw [if_pos hspawn]
      exact agrees_answer (if_neg fun h => hspawn h.2.1)

theorem clearWorker_agrees {token : PyStr}
    (hread : readObserved fetched claim.server = .ok (text, some row)) :
    (Request.clearWorker claim token).Agrees row
      ((Request.clearWorker claim token).decide fetched) := by
  rw [Request.decide, Authority.clearWorker, hread]
  cases howner : claimOwner claim row with
  | error e =>
    simp only [howner]
    exact agrees_answer (if_neg fun h => not_holds_of_claimOwner howner h.1)
  | ok owner =>
    obtain ⟨hclaim, hrow⟩ := claimOwner_eq_ok howner
    simp only [bind, Except.bind, howner]
    cases hworker : row.worker with
    | none =>
      refine agrees_answer ((if_pos ⟨hclaim, by simp [hworker]⟩).trans ?_)
      rw [← hworker]
      rfl
    | some worker =>
      dsimp only
      by_cases htoken : worker.token = token
      · rw [if_neg (not_not.2 htoken)]
        refine agrees_swap ((if_pos ⟨hclaim, by simp [hworker, htoken]⟩).trans ?_)
        rw [← hrow]
      · rw [if_pos htoken]
        exact agrees_answer (if_neg fun h => htoken (h.2 worker hworker))

/-- **The effect is the code's**, for every operation made under a claim. -/
theorem Request.decide_effect {request : Request} (hclaim : request.claim? = some claim)
    (hread : readObserved fetched claim.server = .ok (text, some row)) :
    request.Agrees row (request.decide fetched) := by
  cases request with
  | take server owner => cases hclaim
  | commitSpawn claim' spawn =>
    cases hclaim
    exact commitSpawn_agrees hread
  | clearSpawn claim' =>
    cases hclaim
    exact clearSpawn_agrees hread
  | publish claim' spawnToken worker =>
    cases hclaim
    exact publish_agrees hread
  | clearWorker claim' token =>
    cases hclaim
    exact clearWorker_agrees hread

end Decide

end Lubko.Authority
