import Lubko.Lib.Execution
import Lubko.Worker.Types

/-!
# Spawn attempts across threads

A claimed job is spawned by a lane thread of `_SpawnExecutor` and picked up by the main loop through a
`_SpawnFuture`. The main loop reads the result of a future that is done, or gives the attempt up: it
installs a callback that aborts a late start, and cancels the future. Each method of the future is one
step, and a callback is invoked in a step of its own, outside the lock.

The lanes are not told apart, and a lane may take any queued attempt.

* `Attempt.Inv` — what the fields of a future say about where its result went.
* `spawn_result_consumed_once` — once both threads are through with an attempt, a gated start was
  consumed exactly once; and one cancelled before it is claimed never runs.
-/

namespace Lubko.Worker

open Lubko.Lib

/-- `_SpawnResult`, which has the fields of a `GatedSpawn`. -/
abbrev SpawnResult := GatedSpawn

/-- What a lane publishes. -/
inductive Published where
  | spawned (result : SpawnResult)
  | raised

/-- The gated start of a published result. -/
def Published.spawned? : Published → Option SpawnResult
  | .spawned result => some result
  | .raised => none

/-- `_SpawnFuture`. The callback is the one of `_make_late_completion_callback` for a job. -/
structure SpawnFuture where
  result : Option Published := none
  done : Bool := false
  cancelled : Bool := false
  executed : Bool := false
  callback : Option Uuid := none

namespace SpawnFuture

/-- `set_result` under the lock, with the callback to invoke behind it. -/
def setResult (future : SpawnFuture) (result : Published) : SpawnFuture × Option Uuid :=
  let callback := if !future.cancelled || future.executed then future.callback else none
  ({ future with result := some result, done := true },
    if result.spawned?.isSome then callback else none)

/-- `install_callback` under the lock, with the callback to invoke behind it. -/
def installCallback (future : SpawnFuture) (callback : Uuid) : SpawnFuture × Option Uuid :=
  if future.done then (future, some callback)
  else ({ future with callback := some callback }, none)

/-- `cancel`. -/
def cancel (future : SpawnFuture) : SpawnFuture := { future with cancelled := true, done := true }

/-- `try_claim_execution`. -/
def tryClaimExecution (future : SpawnFuture) : Bool × SpawnFuture :=
  if future.cancelled then (false, future) else (true, { future with executed := true })

theorem setResult_raised (future : SpawnFuture) :
    future.setResult .raised = ({ future with result := some .raised, done := true }, none) := rfl

/-- The result of a callable that ran goes to the callback, cancelled or not. -/
theorem setResult_spawned {future : SpawnFuture} (h : future.executed = true)
    (result : SpawnResult) :
    future.setResult (.spawned result) =
      ({ future with result := some (.spawned result), done := true }, future.callback) := by
  simp [setResult, h, Published.spawned?]

end SpawnFuture

/-- Where a lane thread is with an attempt. -/
inductive LanePhase where
  | queued
  | taken
  | refusing
  | admitted
  | claimed
  | returned (result : Published)
  /-- The result is set, and the callback is to be invoked. -/
  | delivering
  | finished

/-- Where the main loop is with an attempt. -/
inductive MainPhase where
  | polling
  /-- `done()` was true. -/
  | observed
  /-- Timed out or shut down, before `install_callback`. -/
  | abandoning
  /-- `install_callback` found the result, and the callback is to be invoked. -/
  | invoking
  | cancelling
  | settled

/-- Who consumed a gated start. -/
inductive Consumer where
  | mainLoop
  | callback
  deriving DecidableEq

/-- One attempt: its future, the two threads, and what became of its callable and its result. -/
structure Attempt where
  jobId : Uuid
  future : SpawnFuture := {}
  lane : LanePhase := .queued
  main : MainPhase := .polling
  abandoned : Bool := false
  ran : Bool := false
  produced : Option SpawnResult := none
  consumed : List (Consumer × SpawnResult) := []

inductive AttemptEvent where
  /-- A lane gets the attempt from the queue. -/
  | take
  /-- `shutdown` gets the attempt from the queue. -/
  | drain
  /-- The lane looks at the shutdown flag. -/
  | checkFlag
  /-- `set_result` with the `OSError` of a pool that is shut down. -/
  | refuse
  | tryClaim
  /-- The callable ends; `none` when it returns `None`. -/
  | run (result : Option Published)
  | setResult
  /-- The lane invokes the callback. -/
  | deliver
  | pollDone
  | pollTimedOut
  /-- `_cleanup_pending_starts`. -/
  | abandon
  | readResult
  | installCallback
  /-- The main loop invokes the callback. -/
  | invoke
  | cancel

namespace Attempt

/-- What a reader of `result()` consumes. -/
def consume (a : Attempt) (consumer : Consumer) : Attempt :=
  match a.future.result with
  | some (.spawned result) => { a with consumed := a.consumed ++ [(consumer, result)] }
  | _ => a

/-- One event of an attempt. -/
def step (shutdown : Bool) (a : Attempt) : AttemptEvent → Option Attempt
  | .take =>
    match a.lane with
    | .queued => some { a with lane := .taken }
    | _ => none
  | .drain =>
    match a.lane, shutdown with
    | .queued, true => some { a with lane := .refusing }
    | _, _ => none
  | .checkFlag =>
    match a.lane with
    | .taken => some { a with lane := if shutdown then .refusing else .admitted }
    | _ => none
  | .refuse =>
    match a.lane with
    | .refusing => some { a with lane := .finished, future := (a.future.setResult .raised).1 }
    | _ => none
  | .tryClaim =>
    match a.lane with
    | .admitted =>
      match a.future.tryClaimExecution with
      | (true, future) => some { a with lane := .claimed, future }
      | (false, future) => some { a with lane := .finished, future }
    | _ => none
  | .run result =>
    match a.lane with
    | .claimed =>
      match result with
      | some result =>
        some { a with lane := .returned result, ran := true, produced := result.spawned? }
      | none => some { a with lane := .finished, ran := true }
    | _ => none
  | .setResult =>
    match a.lane with
    | .returned result =>
      match a.future.setResult result with
      | (future, some _) => some { a with lane := .delivering, future }
      | (future, none) => some { a with lane := .finished, future }
    | _ => none
  | .deliver =>
    match a.lane with
    | .delivering => some { a.consume .callback with lane := .finished }
    | _ => none
  | .pollDone =>
    match a.main, a.future.done with
    | .polling, true => some { a with main := .observed }
    | _, _ => none
  | .pollTimedOut =>
    match a.main, a.future.done with
    | .polling, false => some { a with main := .abandoning, abandoned := true }
    | _, _ => none
  | .abandon =>
    match a.main with
    | .polling => some { a with main := .abandoning, abandoned := true }
    | _ => none
  | .readResult =>
    match a.main with
    | .observed => some { a.consume .mainLoop with main := .settled }
    | _ => none
  | .installCallback =>
    match a.main with
    | .abandoning =>
      match a.future.installCallback a.jobId with
      | (future, some _) => some { a with main := .invoking, future }
      | (future, none) => some { a with main := .cancelling, future }
    | _ => none
  | .invoke =>
    match a.main with
    | .invoking => some { a.consume .callback with main := .cancelling }
    | _ => none
  | .cancel =>
    match a.main with
    | .cancelling => some { a with main := .settled, future := a.future.cancel }
    | _ => none

/-! ## The invariant of an attempt -/

/-- What the place of the lane says about the result. -/
def LaneInv (a : Attempt) : Prop :=
  match a.lane with
  | .queued | .taken | .refusing | .admitted =>
    a.ran = false ∧ a.future.executed = false ∧ a.future.result = none ∧ a.produced = none
  | .claimed =>
    a.ran = false ∧ a.future.executed = true ∧ a.future.result = none ∧ a.produced = none
  | .returned result =>
    a.future.executed = true ∧ a.future.result = none ∧ a.produced = result.spawned?
  | .delivering =>
    a.future.executed = true ∧ a.future.callback ≠ none ∧
      ∃ result, a.future.result = some (.spawned result) ∧ a.produced = some result
  | .finished =>
    (a.ran = true → a.future.executed = true) ∧ a.produced = a.future.result.bind Published.spawned?

/-- What the place of the main loop says about the callback and the cancellation: without a callback,
an attempt that was given up has its result already. -/
def MainInv (a : Attempt) : Prop :=
  match a.main with
  | .polling => a.future.cancelled = false ∧ a.future.callback = none ∧ a.abandoned = false
  | .observed =>
    a.future.cancelled = false ∧ a.future.callback = none ∧ a.abandoned = false ∧
      a.future.result ≠ none
  | .abandoning => a.future.cancelled = false ∧ a.future.callback = none ∧ a.abandoned = true
  | .invoking =>
    a.future.cancelled = false ∧ a.future.callback = none ∧ a.abandoned = true ∧
      a.future.result ≠ none
  | .cancelling =>
    a.future.cancelled = false ∧ a.abandoned = true ∧
      (a.future.callback = none → a.future.result ≠ none)
  | .settled =>
    (a.abandoned = false → a.future.callback = none) ∧
      (a.future.callback = none → a.future.result ≠ none)

/-- The consumptions of the result so far. -/
def expected (a : Attempt) : List (Consumer × SpawnResult) :=
  match a.future.result, a.lane, a.main with
  | some (.spawned _), .delivering, _ => []
  | some (.spawned result), _, .cancelling | some (.spawned result), _, .settled =>
    [(if a.abandoned then .callback else .mainLoop, result)]
  | _, _, _ => []

structure Inv (a : Attempt) : Prop where
  lane : a.LaneInv
  main : a.MainInv
  done : a.future.done = (a.future.cancelled || a.future.result.isSome)
  consumed : a.consumed = a.expected

variable {a a' : Attempt} {shutdown : Bool}

/-- Without a gated start, nothing is consumed. -/
theorem expected_of_not_spawned (h : ∀ result, a.future.result ≠ some (.spawned result)) :
    a.expected = [] := by
  unfold expected
  split
  · rfl
  · exact absurd ‹_› (h _)
  · exact absurd ‹_› (h _)
  · rfl

/-- A lane that has not published anything moves on. -/
theorem Inv.before (h : a.Inv) (hresult : a.future.result = none) {lane : LanePhase}
    (hlane : LaneInv { a with lane }) : Inv { a with lane } := by
  refine ⟨hlane, h.main, h.done, ?_⟩
  have hnone : ∀ result, a.future.result ≠ some (.spawned result) := by
    intro result heq
    rw [hresult] at heq
    cases heq
  show a.consumed = _
  rw [h.consumed, expected_of_not_spawned hnone]
  exact (expected_of_not_spawned (a := { a with lane }) hnone).symm

theorem Inv.take (h : a.Inv) (hs : a.step shutdown .take = some a') : a'.Inv := by
  have hlane := h.lane
  cases hl : a.lane <;> simp only [step, hl, reduceCtorEq, Option.some.injEq] at hs
  subst hs
  rw [LaneInv, hl] at hlane
  exact h.before hlane.2.2.1 hlane

theorem Inv.drain (h : a.Inv) (hs : a.step shutdown .drain = some a') : a'.Inv := by
  have hlane := h.lane
  cases hl : a.lane <;> cases shutdown <;>
    simp only [step, hl, reduceCtorEq, Option.some.injEq] at hs
  subst hs
  rw [LaneInv, hl] at hlane
  exact h.before hlane.2.2.1 hlane

theorem Inv.checkFlag (h : a.Inv) (hs : a.step shutdown .checkFlag = some a') : a'.Inv := by
  have hlane := h.lane
  cases hl : a.lane <;> simp only [step, hl, reduceCtorEq, Option.some.injEq] at hs
  subst hs
  rw [LaneInv, hl] at hlane
  refine h.before hlane.2.2.1 ?_
  cases shutdown <;> exact hlane

/-- The main loop sees a result that arrives only through `done`. -/
theorem MainInv.published {future : SpawnFuture} {lane : LanePhase} (h : a.MainInv)
    (hcancelled : future.cancelled = a.future.cancelled)
    (hcallback : future.callback = a.future.callback) (hresult : future.result ≠ none) :
    MainInv { a with future, lane } := by
  unfold MainInv at h ⊢
  dsimp only
  rw [hcancelled, hcallback]
  cases hm : a.main with
  | polling => simpa [hm] using h
  | observed => simp_all
  | abandoning => simpa [hm] using h
  | invoking => simp_all
  | cancelling => simp_all
  | settled => simp_all

theorem Inv.refuse (h : a.Inv) (hs : a.step shutdown .refuse = some a') : a'.Inv := by
  have hlane := h.lane
  cases hl : a.lane <;> simp only [step, hl, reduceCtorEq, Option.some.injEq] at hs
  subst hs
  rw [LaneInv, hl] at hlane
  obtain ⟨hran, -, hresult, hproduced⟩ := hlane
  refine ⟨⟨?_, hproduced⟩, h.main.published rfl rfl (by simp [SpawnFuture.setResult]), ?_, ?_⟩
  · intro hran'
    exact absurd hran' (by simp [hran])
  · simp [SpawnFuture.setResult]
  · have hnone : ∀ result, a.future.result ≠ some (.spawned result) := by simp [hresult]
    show a.consumed = _
    rw [h.consumed, expected_of_not_spawned hnone, expected_of_not_spawned]
    simp [SpawnFuture.setResult]

theorem Inv.tryClaim (h : a.Inv) (hs : a.step shutdown .tryClaim = some a') : a'.Inv := by
  have hlane := h.lane
  cases hl : a.lane <;> simp only [step, hl, reduceCtorEq] at hs
  rw [LaneInv, hl] at hlane
  obtain ⟨hran, hexecuted, hresult, hproduced⟩ := hlane
  have hnone : ∀ result, a.future.result ≠ some (.spawned result) := by simp [hresult]
  unfold SpawnFuture.tryClaimExecution at hs
  by_cases hcancelled : a.future.cancelled = true
  · rw [if_pos hcancelled] at hs
    obtain rfl := Option.some.inj hs
    refine h.before hresult ⟨?_, by simp [hresult, hproduced]⟩
    intro hran'
    exact absurd hran' (by simp [hran])
  · rw [if_neg hcancelled] at hs
    obtain rfl := Option.some.inj hs
    refine ⟨⟨hran, rfl, hresult, hproduced⟩, h.main, h.done, ?_⟩
    show a.consumed = _
    rw [h.consumed, expected_of_not_spawned hnone]
    exact (expected_of_not_spawned (by exact hnone)).symm

theorem Inv.run {result : Option Published} (h : a.Inv)
    (hs : a.step shutdown (.run result) = some a') : a'.Inv := by
  have hlane := h.lane
  cases hl : a.lane <;> simp only [step, hl, reduceCtorEq] at hs
  rw [LaneInv, hl] at hlane
  obtain ⟨-, hexecuted, hresult, hproduced⟩ := hlane
  have hnone : ∀ result, a.future.result ≠ some (.spawned result) := by simp [hresult]
  have hconsumed : a.consumed = [] := by rw [h.consumed, expected_of_not_spawned hnone]
  cases result with
  | none =>
    obtain rfl := Option.some.inj hs
    refine ⟨⟨fun _ => hexecuted, by simp [hresult, hproduced]⟩, h.main, h.done, ?_⟩
    exact hconsumed.trans (expected_of_not_spawned (by exact hnone)).symm
  | some result =>
    obtain rfl := Option.some.inj hs
    refine ⟨⟨hexecuted, hresult, rfl⟩, h.main, h.done, ?_⟩
    exact hconsumed.trans (expected_of_not_spawned (by exact hnone)).symm

/-- Until the main loop has given the attempt up or read its result, nothing is consumed. -/
theorem expected_of_main (hcancelling : a.main ≠ .cancelling) (hsettled : a.main ≠ .settled) :
    a.expected = [] := by
  unfold expected
  split
  · rfl
  · exact absurd ‹_› hcancelling
  · exact absurd ‹_› hsettled
  · rfl

/-- Before a callback is installed, a fresh result is one the main loop will still look at. -/
theorem MainInv.looking (h : a.MainInv) (hresult : a.future.result = none)
    (hcallback : a.future.callback = none) : a.main ≠ .cancelling ∧ a.main ≠ .settled := by
  unfold MainInv at h
  constructor
  · intro hm
    rw [hm] at h
    exact h.2.2 hcallback hresult
  · intro hm
    rw [hm] at h
    exact h.2 hcallback hresult

theorem Inv.setResult (h : a.Inv) (hs : a.step shutdown .setResult = some a') : a'.Inv := by
  have hlane := h.lane
  cases hl : a.lane <;> simp only [step, hl, reduceCtorEq] at hs
  rename_i result
  rw [LaneInv, hl] at hlane
  obtain ⟨hexecuted, hresult, hproduced⟩ := hlane
  have hnone : ∀ result, a.future.result ≠ some (.spawned result) := by simp [hresult]
  have hconsumed : a.consumed = [] := by rw [h.consumed, expected_of_not_spawned hnone]
  cases result with
  | raised =>
    rw [SpawnFuture.setResult_raised] at hs
    obtain rfl := Option.some.inj hs
    refine ⟨⟨fun _ => hexecuted, hproduced⟩, h.main.published rfl rfl (by simp), by simp, ?_⟩
    exact hconsumed.trans (expected_of_not_spawned (by simp)).symm
  | spawned result =>
    rw [SpawnFuture.setResult_spawned hexecuted] at hs
    by_cases hcallback : a.future.callback = none
    · simp only [hcallback] at hs
      obtain rfl := Option.some.inj hs
      rw [← hcallback]
      refine ⟨⟨fun _ => hexecuted, hproduced⟩, h.main.published rfl rfl (by simp), by simp, ?_⟩
      obtain ⟨hcancelling, hsettled⟩ := h.main.looking hresult hcallback
      exact hconsumed.trans (expected_of_main (by exact hcancelling) (by exact hsettled)).symm
    · obtain ⟨callback, hsome⟩ := Option.ne_none_iff_exists'.1 hcallback
      simp only [hsome] at hs
      obtain rfl := Option.some.inj hs
      rw [← hsome]
      refine ⟨⟨hexecuted, hcallback, result, rfl, hproduced⟩, h.main.published rfl rfl (by simp),
        by simp, ?_⟩
      exact hconsumed.trans rfl

theorem consume_of_spawned {consumer : Consumer} {result : SpawnResult}
    (h : a.future.result = some (.spawned result)) :
    a.consume consumer = { a with consumed := a.consumed ++ [(consumer, result)] } := by
  unfold consume
  rw [h]

theorem consume_of_not_spawned {consumer : Consumer}
    (h : ∀ result, a.future.result ≠ some (.spawned result)) : a.consume consumer = a := by
  unfold consume
  split
  · exact absurd ‹_› (h _)
  · rfl

/-- Whose callback is to be invoked by the lane has given the attempt up. -/
theorem MainInv.abandoned_of_callback (h : a.MainInv) (hcallback : a.future.callback ≠ none) :
    a.abandoned = true ∧ (a.main = .cancelling ∨ a.main = .settled) := by
  unfold MainInv at h
  cases hm : a.main with
  | polling => simp_all
  | observed => simp_all
  | abandoning => simp_all
  | invoking => simp_all
  | cancelling => simp_all
  | settled =>
    simp only [hm] at h
    refine ⟨?_, .inr rfl⟩
    by_contra habandoned
    exact hcallback (h.1 (by simpa using habandoned))

theorem Inv.deliver (h : a.Inv) (hs : a.step shutdown .deliver = some a') : a'.Inv := by
  have hlane := h.lane
  cases hl : a.lane <;> simp only [step, hl, reduceCtorEq, Option.some.injEq] at hs
  rw [LaneInv, hl] at hlane
  obtain ⟨hexecuted, hcallback, result, hresult, hproduced⟩ := hlane
  rw [consume_of_spawned hresult] at hs
  subst hs
  have hconsumed : a.consumed = [] := by
    rw [h.consumed, expected, hresult, hl]
  obtain ⟨habandoned, hmain⟩ := h.main.abandoned_of_callback hcallback
  refine ⟨⟨fun _ => hexecuted, by simp [hresult, hproduced, Published.spawned?]⟩, h.main, h.done, ?_⟩
  dsimp only
  rw [hconsumed, expected]
  dsimp only
  rw [hresult, habandoned]
  rcases hmain with hm | hm <;> rw [hm] <;> rfl

theorem Inv.pollDone (h : a.Inv) (hs : a.step shutdown .pollDone = some a') : a'.Inv := by
  have hmain := h.main
  cases hm : a.main <;> cases hd : a.future.done <;>
    simp only [step, hm, hd, reduceCtorEq, Option.some.injEq] at hs
  subst hs
  rw [MainInv, hm] at hmain
  obtain ⟨hcancelled, hcallback, habandoned⟩ := hmain
  have hdone := h.done
  rw [hd, hcancelled, Bool.false_or] at hdone
  refine ⟨h.lane, ⟨hcancelled, hcallback, habandoned, ?_⟩, h.done, ?_⟩
  · intro hresult
    rw [hresult] at hdone
    cases hdone
  · show a.consumed = _
    rw [h.consumed, expected_of_main (by simp [hm]) (by simp [hm]), expected_of_main]
    · simp
    · simp

theorem Inv.giveUp (h : a.Inv) (hm : a.main = .polling) :
    Inv { a with main := .abandoning, abandoned := true } := by
  have hmain := h.main
  rw [MainInv, hm] at hmain
  refine ⟨h.lane, ⟨hmain.1, hmain.2.1, rfl⟩, h.done, ?_⟩
  show a.consumed = _
  rw [h.consumed, expected_of_main (by simp [hm]) (by simp [hm]), expected_of_main]
  · simp
  · simp

theorem Inv.pollTimedOut (h : a.Inv) (hs : a.step shutdown .pollTimedOut = some a') : a'.Inv := by
  cases hm : a.main <;> cases hd : a.future.done <;>
    simp only [step, hm, hd, reduceCtorEq, Option.some.injEq] at hs
  subst hs
  exact h.giveUp hm

theorem Inv.abandon (h : a.Inv) (hs : a.step shutdown .abandon = some a') : a'.Inv := by
  cases hm : a.main <;> simp only [step, hm, reduceCtorEq, Option.some.injEq] at hs
  subst hs
  exact h.giveUp hm

/-- A result that is there before any callback was consumed by nobody yet. -/
theorem Inv.unread (h : a.Inv) (hcancelling : a.main ≠ .cancelling) (hsettled : a.main ≠ .settled)
    (hcallback : a.future.callback = none) : a.consumed = [] ∧ a.lane ≠ .delivering := by
  refine ⟨by rw [h.consumed, expected_of_main hcancelling hsettled], ?_⟩
  intro hl
  have hlane := h.lane
  rw [LaneInv, hl] at hlane
  exact hlane.2.1 hcallback

/-- The main loop consumes the result and goes on to a place where it is accounted for. -/
theorem Inv.consumes (h : a.Inv) (hcancelling : a.main ≠ .cancelling) (hsettled : a.main ≠ .settled)
    (hcallback : a.future.callback = none) {main : MainPhase}
    (hmain : main = .cancelling ∨ main = .settled) (hinv : MainInv { a with main }) :
    Inv { a.consume (if a.abandoned then .callback else .mainLoop) with main } := by
  obtain ⟨hconsumed, hlane⟩ := h.unread hcancelling hsettled hcallback
  by_cases hspawned : ∃ result, a.future.result = some (.spawned result)
  · obtain ⟨result, hresult⟩ := hspawned
    rw [consume_of_spawned hresult]
    refine ⟨h.lane, hinv, h.done, ?_⟩
    dsimp only
    rw [hconsumed, List.nil_append, expected]
    dsimp only
    rw [hresult]
    cases hl : a.lane <;> rcases hmain with rfl | rfl <;> first | rfl | exact absurd hl hlane
  · have hnone : ∀ result, a.future.result ≠ some (.spawned result) := by
      simpa using hspawned
    rw [consume_of_not_spawned hnone]
    refine ⟨h.lane, hinv, h.done, ?_⟩
    exact hconsumed.trans (expected_of_not_spawned (by exact hnone)).symm

theorem Inv.readResult (h : a.Inv) (hs : a.step shutdown .readResult = some a') : a'.Inv := by
  have hmain := h.main
  cases hm : a.main <;> simp only [step, hm, reduceCtorEq, Option.some.injEq] at hs
  subst hs
  rw [MainInv, hm] at hmain
  obtain ⟨hcancelled, hcallback, habandoned, hresult⟩ := hmain
  have hconsumes := h.consumes (by simp [hm]) (by simp [hm]) hcallback (.inr rfl)
    ⟨fun _ => hcallback, fun _ => hresult⟩
  rw [habandoned] at hconsumes
  exact hconsumes

theorem Inv.invoke (h : a.Inv) (hs : a.step shutdown .invoke = some a') : a'.Inv := by
  have hmain := h.main
  cases hm : a.main <;> simp only [step, hm, reduceCtorEq, Option.some.injEq] at hs
  subst hs
  rw [MainInv, hm] at hmain
  obtain ⟨hcancelled, hcallback, habandoned, hresult⟩ := hmain
  have hconsumes := h.consumes (by simp [hm]) (by simp [hm]) hcallback (.inl rfl)
    ⟨hcancelled, habandoned, fun _ => hresult⟩
  rw [habandoned] at hconsumes
  exact hconsumes

theorem Inv.installCallback (h : a.Inv) (hs : a.step shutdown .installCallback = some a') :
    a'.Inv := by
  have hmain := h.main
  cases hm : a.main <;> simp only [step, hm, reduceCtorEq] at hs
  rw [MainInv, hm] at hmain
  obtain ⟨hcancelled, hcallback, habandoned⟩ := hmain
  have hdone := h.done
  rw [hcancelled, Bool.false_or] at hdone
  obtain ⟨hconsumed, hlane⟩ := h.unread (by simp [hm]) (by simp [hm]) hcallback
  unfold SpawnFuture.installCallback at hs
  by_cases hd : a.future.done = true
  · rw [if_pos hd] at hs
    obtain rfl := Option.some.inj hs
    have hresult : a.future.result ≠ none := by
      intro hresult
      rw [hd, hresult] at hdone
      cases hdone
    refine ⟨h.lane, ⟨hcancelled, hcallback, habandoned, hresult⟩, h.done, ?_⟩
    exact hconsumed.trans (expected_of_main (by simp) (by simp)).symm
  · rw [if_neg hd] at hs
    obtain rfl := Option.some.inj hs
    have hresult : a.future.result = none := by
      cases hr : a.future.result with
      | none => rfl
      | some result =>
        rw [hr] at hdone
        exact absurd hdone hd
    have hnone : ∀ result, a.future.result ≠ some (.spawned result) := by simp [hresult]
    refine ⟨?_, ⟨hcancelled, habandoned, by simp⟩, h.done, ?_⟩
    · have hlane' := h.lane
      unfold LaneInv at hlane' ⊢
      dsimp only
      cases hl : a.lane <;> simp_all
    · exact hconsumed.trans (expected_of_not_spawned (by exact hnone)).symm

theorem Inv.cancel (h : a.Inv) (hs : a.step shutdown .cancel = some a') : a'.Inv := by
  have hmain := h.main
  cases hm : a.main <;> simp only [step, hm, reduceCtorEq, Option.some.injEq] at hs
  subst hs
  rw [MainInv, hm] at hmain
  obtain ⟨hcancelled, habandoned, hcallback⟩ := hmain
  refine ⟨h.lane, ⟨?_, hcallback⟩, by simp [SpawnFuture.cancel], ?_⟩
  · intro hkept
    rw [habandoned] at hkept
    cases hkept
  · refine h.consumed.trans ?_
    unfold expected
    dsimp only [SpawnFuture.cancel]
    rw [hm]
    cases a.future.result with
    | none => rfl
    | some result => cases result <;> cases a.lane <;> rfl

/-- **Every event keeps the invariant.** -/
theorem Inv.step {e : AttemptEvent} (h : a.Inv) (hs : a.step shutdown e = some a') : a'.Inv := by
  cases e with
  | take => exact h.take hs
  | drain => exact h.drain hs
  | checkFlag => exact h.checkFlag hs
  | refuse => exact h.refuse hs
  | tryClaim => exact h.tryClaim hs
  | run result => exact h.run hs
  | setResult => exact h.setResult hs
  | deliver => exact h.deliver hs
  | pollDone => exact h.pollDone hs
  | pollTimedOut => exact h.pollTimedOut hs
  | abandon => exact h.abandon hs
  | readResult => exact h.readResult hs
  | installCallback => exact h.installCallback hs
  | invoke => exact h.invoke hs
  | cancel => exact h.cancel hs

/-- A lane that is through with the attempt and a main loop that is, too, are the only ones without
an event to take. -/
theorem finished_of_stuck (hstuck : ∀ e, a.step shutdown e = none) :
    a.lane = .finished ∧ a.main = .settled := by
  constructor
  · cases hl : a.lane with
    | queued => exact absurd (hstuck .take) (by simp [Attempt.step, hl])
    | taken => exact absurd (hstuck .checkFlag) (by simp [Attempt.step, hl])
    | refusing => exact absurd (hstuck .refuse) (by simp [Attempt.step, hl])
    | admitted =>
      have hnone := hstuck .tryClaim
      simp only [Attempt.step, hl] at hnone
      split at hnone <;> cases hnone
    | claimed => exact absurd (hstuck (.run none)) (by simp [Attempt.step, hl])
    | returned result =>
      have hnone := hstuck .setResult
      simp only [Attempt.step, hl] at hnone
      split at hnone <;> cases hnone
    | delivering => exact absurd (hstuck .deliver) (by simp [Attempt.step, hl])
    | finished => rfl
  · cases hm : a.main with
    | polling => exact absurd (hstuck .abandon) (by simp [Attempt.step, hm])
    | observed => exact absurd (hstuck .readResult) (by simp [Attempt.step, hm])
    | abandoning =>
      have hnone := hstuck .installCallback
      simp only [Attempt.step, hm] at hnone
      split at hnone <;> cases hnone
    | invoking => exact absurd (hstuck .invoke) (by simp [Attempt.step, hm])
    | cancelling => exact absurd (hstuck .cancel) (by simp [Attempt.step, hm])
    | settled => rfl

/-- What is consumed is what the callable produced. -/
theorem Inv.produced_of_consumed (h : a.Inv) {consumer : Consumer} {result : SpawnResult}
    (hmem : (consumer, result) ∈ a.consumed) : a.produced = some result := by
  have hlane := h.lane
  rw [h.consumed] at hmem
  have hresult : a.future.result = some (.spawned result) := by
    unfold expected at hmem
    split at hmem <;> simp_all
  unfold LaneInv at hlane
  cases hl : a.lane <;> simp_all [Published.spawned?]

/-- The callable of a cancelled attempt that no lane has claimed is not run. -/
def Skipped (a : Attempt) : Prop :=
  a.future.cancelled = true ∧ a.future.executed = false ∧ a.ran = false

theorem Inv.not_ran (h : a.Inv) (hexecuted : a.future.executed = false) : a.ran = false := by
  have hlane := h.lane
  unfold LaneInv at hlane
  cases hl : a.lane <;> simp_all

@[simp] theorem consume_future (a : Attempt) (consumer : Consumer) :
    (a.consume consumer).future = a.future := by
  unfold consume
  split <;> rfl

@[simp] theorem consume_ran (a : Attempt) (consumer : Consumer) :
    (a.consume consumer).ran = a.ran := by
  unfold consume
  split <;> rfl

/-- Only a lane that claims the attempt marks it executed, and only one that has claimed it runs its
callable. -/
theorem Skipped.step {e : AttemptEvent} (hinv : a.Inv) (h : a.Skipped)
    (hs : a.step shutdown e = some a') : a'.Skipped := by
  obtain ⟨hcancelled, hexecuted, hran⟩ := h
  have hkept : ∀ {b : Attempt}, b.future = a.future → b.ran = a.ran → b.Skipped := by
    intro b hfuture hran'
    exact ⟨by rw [hfuture, hcancelled], by rw [hfuture, hexecuted], by rw [hran', hran]⟩
  cases e with
  | take =>
    cases hl : a.lane <;> simp only [Attempt.step, hl, reduceCtorEq, Option.some.injEq] at hs
    exact hs ▸ hkept rfl rfl
  | drain =>
    cases hl : a.lane <;> cases shutdown <;>
      simp only [Attempt.step, hl, reduceCtorEq, Option.some.injEq] at hs
    exact hs ▸ hkept rfl rfl
  | checkFlag =>
    cases hl : a.lane <;> simp only [Attempt.step, hl, reduceCtorEq, Option.some.injEq] at hs
    exact hs ▸ hkept rfl rfl
  | refuse =>
    cases hl : a.lane <;> simp only [Attempt.step, hl, reduceCtorEq, Option.some.injEq] at hs
    exact hs ▸ ⟨hcancelled, hexecuted, hran⟩
  | tryClaim =>
    cases hl : a.lane <;> simp only [Attempt.step, hl, reduceCtorEq] at hs
    rw [SpawnFuture.tryClaimExecution, if_pos hcancelled] at hs
    exact Option.some.inj hs ▸ hkept rfl rfl
  | run result =>
    have hlane := hinv.lane
    cases hl : a.lane <;> simp only [Attempt.step, hl, reduceCtorEq] at hs
    rw [LaneInv, hl] at hlane
    exact absurd hlane.2.1 (by simp [hexecuted])
  | setResult =>
    cases hl : a.lane <;> simp only [Attempt.step, hl, reduceCtorEq] at hs
    have hlane := hinv.lane
    rw [LaneInv, hl] at hlane
    exact absurd hlane.1 (by simp [hexecuted])
  | deliver =>
    cases hl : a.lane <;> simp only [Attempt.step, hl, reduceCtorEq, Option.some.injEq] at hs
    exact hs ▸ hkept (consume_future a _) (consume_ran a _)
  | pollDone =>
    cases hm : a.main <;> cases hd : a.future.done <;>
      simp only [Attempt.step, hm, hd, reduceCtorEq, Option.some.injEq] at hs
    exact hs ▸ hkept rfl rfl
  | pollTimedOut =>
    cases hm : a.main <;> cases hd : a.future.done <;>
      simp only [Attempt.step, hm, hd, reduceCtorEq, Option.some.injEq] at hs
    exact hs ▸ hkept rfl rfl
  | abandon =>
    cases hm : a.main <;> simp only [Attempt.step, hm, reduceCtorEq, Option.some.injEq] at hs
    exact hs ▸ hkept rfl rfl
  | readResult =>
    cases hm : a.main <;> simp only [Attempt.step, hm, reduceCtorEq, Option.some.injEq] at hs
    exact hs ▸ hkept (consume_future a _) (consume_ran a _)
  | installCallback =>
    cases hm : a.main <;> simp only [Attempt.step, hm, reduceCtorEq] at hs
    unfold SpawnFuture.installCallback at hs
    by_cases hd : a.future.done = true
    · rw [if_pos hd] at hs
      exact Option.some.inj hs ▸ hkept rfl rfl
    · rw [if_neg hd] at hs
      exact Option.some.inj hs ▸ ⟨hcancelled, hexecuted, hran⟩
  | invoke =>
    cases hm : a.main <;> simp only [Attempt.step, hm, reduceCtorEq, Option.some.injEq] at hs
    exact hs ▸ hkept (consume_future a _) (consume_ran a _)
  | cancel =>
    cases hm : a.main <;> simp only [Attempt.step, hm, reduceCtorEq, Option.some.injEq] at hs
    exact hs ▸ ⟨rfl, hexecuted, hran⟩

end Attempt

/-! ## The pool -/

/-- The attempts of a worker, by submission, and the shutdown flag of its executor. -/
structure SpawnPool where
  shutdown : Bool
  attempts : ℕ → Option Attempt

inductive PoolEvent where
  /-- `submit` of a new future; a pool that is shut down sets its result at once. -/
  | submit (k : ℕ) (jobId : Uuid)
  | attempt (k : ℕ) (e : AttemptEvent)
  /-- `shutdown` sets the flag; the queue is drained attempt by attempt. -/
  | shutdown

namespace SpawnPool

def step (s : SpawnPool) : PoolEvent → Option SpawnPool
  | .submit k jobId =>
    match s.attempts k with
    | some _ => none
    | none =>
      let attempt : Attempt :=
        if s.shutdown then
          { jobId, lane := .finished, future := (SpawnFuture.setResult {} .raised).1 }
        else { jobId }
      some { s with attempts := Function.update s.attempts k (some attempt) }
  | .attempt k e =>
    (s.attempts k).bind fun a => (a.step s.shutdown e).map fun a' =>
      { s with attempts := Function.update s.attempts k (some a') }
  | .shutdown => some { s with shutdown := true }

/-- The pool of a worker that has just started. -/
def started : SpawnPool := ⟨false, fun _ => none⟩

variable {s s' : SpawnPool}

/-- What an event does to the attempt submitted as `k`. -/
theorem step_cases {e : PoolEvent} (h : s.step e = some s') (k : ℕ) :
    s'.attempts k = s.attempts k ∨
      (s.attempts k = none ∧ ∃ a, s'.attempts k = some a ∧ a.Inv ∧ a.future.cancelled = false) ∨
      ∃ a e a', s.attempts k = some a ∧ a.step s.shutdown e = some a' ∧ s'.attempts k = some a' := by
  cases e with
  | submit j jobId =>
    rw [step] at h
    cases hj : s.attempts j with
    | some a =>
      rw [hj] at h
      cases h
    | none =>
      rw [hj] at h
      obtain rfl := Option.some.inj h
      by_cases hk : k = j
      · subst hk
        right
        left
        refine ⟨hj, _, Function.update_self _ _ _, ?_⟩
        by_cases hshutdown : s.shutdown = true
        · rw [if_pos hshutdown]
          exact ⟨⟨⟨by simp, rfl⟩, ⟨rfl, rfl, rfl⟩, rfl, rfl⟩, rfl⟩
        · rw [if_neg hshutdown]
          exact ⟨⟨⟨rfl, rfl, rfl, rfl⟩, ⟨rfl, rfl, rfl⟩, rfl, rfl⟩, rfl⟩
      · exact .inl (Function.update_of_ne hk _ _)
  | attempt j e =>
    simp only [step, Option.bind_eq_some_iff, Option.map_eq_some_iff] at h
    obtain ⟨a, ha, a', ha', rfl⟩ := h
    by_cases hk : k = j
    · subst hk
      exact .inr (.inr ⟨a, e, a', ha, ha', Function.update_self _ _ _⟩)
    · exact .inl (Function.update_of_ne hk _ _)
  | shutdown =>
    obtain rfl := Option.some.inj h
    exact .inl rfl

/-- Every attempt of the pool satisfies the invariant. -/
def Inv (s : SpawnPool) : Prop := ∀ k a, s.attempts k = some a → a.Inv

theorem Inv.step {e : PoolEvent} (hs : s.Inv) (h : s.step e = some s') : s'.Inv := by
  intro k b hb
  rcases step_cases h k with hsame | ⟨-, a, ha, hinv, -⟩ | ⟨a, e, a', ha, ha', hk⟩
  · exact hs k b (hsame ▸ hb)
  · obtain rfl := Option.some.inj (ha.symm.trans hb)
    exact hinv
  · obtain rfl := Option.some.inj (hk.symm.trans hb)
    exact (hs k a ha).step ha'

theorem inv_of_exec {events : List PoolEvent} (h : exec SpawnPool.step started events = some s) :
    s.Inv := by
  refine exec_invariant (fun _ _ _ hs => hs.step) ?_ h
  intro k a ha
  cases ha

/-- The attempt submitted as `k` was cancelled before any lane claimed it. -/
def SkippedAt (k : ℕ) (s : SpawnPool) : Prop := s.Inv ∧ ∃ a, s.attempts k = some a ∧ a.Skipped

theorem SkippedAt.step {k : ℕ} {e : PoolEvent} (hs : s.SkippedAt k) (h : s.step e = some s') :
    s'.SkippedAt k := by
  obtain ⟨hinv, a, ha, hskipped⟩ := hs
  refine ⟨hinv.step h, ?_⟩
  rcases step_cases h k with hsame | ⟨hnone, -⟩ | ⟨b, e, b', hb, hb', hk⟩
  · exact ⟨a, hsame.trans ha, hskipped⟩
  · rw [ha] at hnone
    cases hnone
  · obtain rfl := Option.some.inj (ha.symm.trans hb)
    exact ⟨b', hk, hskipped.step (hinv k a ha) hb'⟩

/-- **Each gated start is consumed exactly once.** At no time is a result consumed twice, or another
one than the callable produced; the main loop is the consumer exactly of the attempts it has not given
up. When neither thread has anything left to do for an attempt, its gated start has been consumed.
An attempt that is cancelled before a lane claims it never runs. -/
theorem spawn_result_consumed_once {events : List PoolEvent}
    (h : exec SpawnPool.step started events = some s) {k : ℕ} {a : Attempt}
    (ha : s.attempts k = some a) :
    a.consumed.length ≤ 1 ∧
      (∀ consumer result, (consumer, result) ∈ a.consumed →
        a.produced = some result ∧ (consumer = .mainLoop ↔ a.abandoned = false)) ∧
      ((∀ e, a.step s.shutdown e = none) →
        ∀ result, a.produced = some result → ∃ consumer, a.consumed = [(consumer, result)]) ∧
      ∀ pre post m b, pre ++ post = events → exec SpawnPool.step started pre = some m →
        m.attempts k = some b → b.future.cancelled = true → b.future.executed = false →
          a.ran = false := by
  have hinv := inv_of_exec h k a ha
  refine ⟨?_, ?_, ?_, ?_⟩
  · rw [hinv.consumed]
    unfold Attempt.expected
    split <;> simp
  · intro consumer result hmem
    have hproduced := hinv.produced_of_consumed hmem
    rw [hinv.consumed] at hmem
    unfold Attempt.expected at hmem
    split at hmem
    · cases hmem
    all_goals
      simp only [List.mem_singleton, Prod.mk.injEq, List.not_mem_nil] at hmem
    all_goals
      refine ⟨hproduced, ?_⟩
      rw [hmem.1]
      cases a.abandoned <;> simp
  · intro hstuck result hproduced
    obtain ⟨hlane, hmain⟩ := Attempt.finished_of_stuck hstuck
    have hkept := hinv.lane
    rw [Attempt.LaneInv, hlane] at hkept
    rw [hproduced] at hkept
    obtain ⟨published, hresult, hspawned⟩ := Option.bind_eq_some_iff.1 hkept.2.symm
    cases published with
    | raised => cases hspawned
    | spawned r =>
      obtain rfl := Option.some.inj hspawned
      refine ⟨if a.abandoned then .callback else .mainLoop, hinv.consumed.trans ?_⟩
      rw [Attempt.expected, hresult, hlane, hmain]
  · intro pre post m b hevents hpre hb hcancelled hexecuted
    rw [← hevents] at h
    obtain ⟨m', hm', hpost⟩ := exec_append_eq_some.1 h
    obtain rfl := Option.some.inj (hpre.symm.trans hm')
    have hminv := inv_of_exec hpre
    have hskipped : m.SkippedAt k :=
      ⟨hminv, b, hb, hcancelled, hexecuted, (hminv k b hb).not_ran hexecuted⟩
    obtain ⟨-, a', ha', hend⟩ := exec_invariant (fun _ _ _ hs => hs.step) hskipped hpost
    obtain rfl := Option.some.inj (ha.symm.trans ha')
    exact hend.2.2

/-- A start whose gate is still closed. -/
def lateStart : SpawnResult where
  pid := 7
  pgid := 7
  stdout := {}
  stderr := {}
  gateFd := 3
  stdoutReadFd := some 4
  stderrReadFd := some 5

/-- The callable returns while the main loop gives the attempt up. -/
def lateRun : List PoolEvent :=
  [.submit 0 (.ofDigit 1), .attempt 0 .take, .attempt 0 .checkFlag, .attempt 0 .tryClaim,
    .attempt 0 .pollTimedOut, .attempt 0 (.run (some (.spawned lateStart))),
    .attempt 0 .installCallback, .attempt 0 .setResult, .attempt 0 .cancel, .attempt 0 .deliver]

theorem spawn_result_consumed_once_late :
    ∃ s a, exec SpawnPool.step started lateRun = some s ∧ s.attempts 0 = some a ∧
      (∀ e, a.step s.shutdown e = none) ∧ a.produced = some lateStart ∧
      ∃ consumer, a.consumed = [(consumer, lateStart)] := by
  have hrun : (exec SpawnPool.step started lateRun).isSome = true := by decide +kernel
  obtain ⟨s, hs⟩ := Option.isSome_iff_exists.1 hrun
  have hattempt : ((exec SpawnPool.step started lateRun).bind (·.attempts 0)) = some {
      jobId := .ofDigit 1
      future := ⟨some (.spawned lateStart), true, true, true, some (.ofDigit 1)⟩
      lane := .finished
      main := .settled
      abandoned := true
      ran := true
      produced := some lateStart
      consumed := [(.callback, lateStart)] } := rfl
  rw [hs, Option.bind_some] at hattempt
  refine ⟨s, _, hs, hattempt, ?_, rfl, (spawn_result_consumed_once hs hattempt).2.2.1 ?_ lateStart rfl⟩
  all_goals
    intro e
    cases e <;> rfl

end SpawnPool

end Lubko.Worker
