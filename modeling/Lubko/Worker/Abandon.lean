import Lubko.Worker.GatedStart
import Lubko.Worker.SpawnFuture

/-!
# Giving up a pending start

The main loop takes a pending start out of `_pending_starts` when it has timed out or the worker
shuts down, writes the failure of its row, and only then installs the callback for a late result and
cancels the future. The write may raise, and then the loop never comes back to the attempt.

The futures and the lanes are those of `SpawnPool`; what is added is the place of the main thread. A
step is one access to a future or one write to the database, and any number of lane steps may come
between two of them.

* `Starts.Inv` — what the place of the main thread says about every attempt.
* `abandoned_guarded_iff` — an attempt that was given up is cancelled, and its late result is
  aborted, just when the write of its failure did not raise.
-/

namespace Lubko.Worker

open Lubko.Lib

/-- The events of a lane thread. -/
def AttemptEvent.ofLane : AttemptEvent → Bool
  | .take | .drain | .checkFlag | .refuse | .tryClaim | .run _ | .setResult | .deliver => true
  | .pollDone | .pollTimedOut | .abandon | .readResult | .installCallback | .invoke | .cancel =>
    false

/-- The loop that gives an attempt up, with what it has still to visit. -/
inductive Caller where
  | poll (now : ℚ) (todo : List ℕ)
  | cleanup (todo : List ℕ)

/-- The result the row of the attempt is failed with. -/
def Caller.failure : Caller → JobResult
  | .poll _ _ => startFailure "spawn timed out; job not started"
  | .cleanup _ => startFailure "worker shutting down before spawn completed"

/-- Where the main thread is. -/
inductive StartsPc where
  | idle
  /-- A loop over the identifiers it has listed. -/
  | looping (caller : Caller)
  /-- A done attempt is out of `_pending_starts`. -/
  | completing (k : ℕ) (caller : Caller)
  /-- An attempt is out of `_pending_starts`, before `_finalize_immediate`. -/
  | failing (k : ℕ) (caller : Caller)
  /-- `_finalize_immediate` has returned. -/
  | guarding (k : ℕ) (caller : Caller)

/-- The attempt that was given up and is not dealt with yet. -/
def StartsPc.current : StartsPc → Option ℕ
  | .failing k _ | .guarding k _ => some k
  | .idle | .looping _ | .completing _ _ => none

/-- The pending starts of a supervisor. -/
structure Starts where
  pool : SpawnPool
  submittedAt : ℕ → ℚ
  /-- The keys of `_pending_starts`. -/
  pending : List ℕ
  pc : StartsPc
  /-- The attempts whose `_finalize_immediate` has raised. -/
  interrupted : List ℕ

inductive StartsEvent where
  /-- `_pending_starts[claimed.id] = attempt`, after `submit`. -/
  | submit (k : ℕ) (jobId : Uuid) (now : ℚ)
  | lane (k : ℕ) (e : AttemptEvent)
  /-- `shutdown` of the executor. -/
  | shutdown
  /-- `_poll_pending_starts` begins. -/
  | poll (now : ℚ)
  /-- `_cleanup_pending_starts` begins. -/
  | cleanup
  /-- One turn of either loop, up to the first call on the attempt. -/
  | visit
  /-- `_handle_completed_attempt`, which may raise. -/
  | complete (raises : Bool)
  /-- `_finalize_immediate`, with or without a connection. -/
  | finalize (connected : Bool) (o : Outcomes)
  | installCallback
  | invoke
  | cancel

namespace Starts

/-- An event of one future. -/
def attempt (s : Starts) (k : ℕ) (e : AttemptEvent) : Option Starts :=
  (s.pool.step (.attempt k e)).map fun pool => { s with pool }

/-- `_finalize_immediate` raises. -/
def raises (connected : Bool) (o : Outcomes) (jobId : Uuid) (result : JobResult) : Bool :=
  connected && !(finalizeImmediate o jobId result { live := 0 }).1.isOk

/-- The first statements of the loop body of `_poll_pending_starts` or `_cleanup_pending_starts`. -/
def visit (deadline : ℚ) (s : Starts) (k : ℕ) (rest : Caller) : Option Starts :=
  match s.pool.attempts k with
  | none => none
  | some a =>
    match rest with
    | .poll now _ =>
      if a.future.done then
        ({ s with pending := s.pending.erase k, pc := .completing k rest }).attempt k .pollDone
      else if deadline ≤ now - s.submittedAt k then
        ({ s with pending := s.pending.erase k, pc := .failing k rest }).attempt k .pollTimedOut
      else some { s with pc := .looping rest }
    | .cleanup _ =>
      ({ s with pending := s.pending.erase k, pc := .failing k rest }).attempt k .abandon

/-- One event, with the settings' `spawn_deadline_seconds`. -/
def step (deadline : ℚ) (s : Starts) : StartsEvent → Option Starts
  | .submit k jobId now =>
    match s.pc with
    | .idle => (s.pool.step (.submit k jobId)).map fun pool => { s with
        pool
        submittedAt := Function.update s.submittedAt k now
        pending := s.pending ++ [k] }
    | _ => none
  | .lane k e => if e.ofLane then s.attempt k e else none
  | .shutdown => (s.pool.step .shutdown).map fun pool => { s with pool }
  | .poll now =>
    match s.pc with
    | .idle => some { s with pc := .looping (.poll now s.pending) }
    | _ => none
  | .cleanup =>
    match s.pc with
    | .idle => some { s with pc := .looping (.cleanup s.pending) }
    | _ => none
  | .visit =>
    match s.pc with
    | .looping (.poll now (k :: todo)) => s.visit deadline k (.poll now todo)
    | .looping (.cleanup (k :: todo)) => s.visit deadline k (.cleanup todo)
    | .looping (.poll _ []) => some { s with pc := .idle }
    | .looping (.cleanup []) => some { s with pc := .idle }
    | _ => none
  | .complete raises =>
    match s.pc with
    | .completing k caller =>
      ({ s with pc := if raises then .idle else .looping caller }).attempt k .readResult
    | _ => none
  | .finalize connected o =>
    match s.pc with
    | .failing k caller =>
      (s.pool.attempts k).map fun a =>
        if raises connected o a.jobId caller.failure then
          { s with pc := .idle, interrupted := k :: s.interrupted }
        else { s with pc := .guarding k caller }
    | _ => none
  | .installCallback =>
    match s.pc with
    | .guarding k _ => s.attempt k .installCallback
    | _ => none
  | .invoke =>
    match s.pc with
    | .guarding k _ => s.attempt k .invoke
    | _ => none
  | .cancel =>
    match s.pc with
    | .guarding k caller => ({ s with pc := .looping caller }).attempt k .cancel
    | _ => none

/-- A worker that has just started. -/
def started : Starts := ⟨.started, fun _ => 0, [], .idle, []⟩

/-! ## The invariant -/

/-- What the place of the main thread says about the attempt `k`: `current` is the attempt it is
giving up, `interrupted` are those it was thrown out of. -/
def Tracks (current : Option ℕ) (interrupted : List ℕ) (k : ℕ) (a : Attempt) : Prop :=
  match a.main with
  | .polling | .observed => True
  | .abandoning => current = some k ∨ k ∈ interrupted
  | .invoking | .cancelling => current = some k
  | .settled => a.abandoned = true → a.future.cancelled = true

structure Inv (s : Starts) : Prop where
  pool : s.pool.Inv
  tracks : ∀ k a, s.pool.attempts k = some a → Tracks s.pc.current s.interrupted k a
  interrupted : ∀ k ∈ s.interrupted, ∃ a, s.pool.attempts k = some a ∧ a.main = .abandoning
  current : ∀ k, s.pc.current = some k → k ∉ s.interrupted
  failing : ∀ k caller, s.pc = .failing k caller →
    ∃ a, s.pool.attempts k = some a ∧ a.main = .abandoning

variable {s s' : Starts} {deadline : ℚ}

/-- An event of a future changes that attempt alone. -/
theorem attempt_eq_some {k : ℕ} {e : AttemptEvent} (h : s.attempt k e = some s') :
    ∃ a a', s.pool.attempts k = some a ∧ a.step s.pool.shutdown e = some a' ∧
      s.pool.step (.attempt k e) = some s'.pool ∧
      s'.pool.attempts = Function.update s.pool.attempts k (some a') ∧ s'.pc = s.pc ∧
      s'.interrupted = s.interrupted := by
  obtain ⟨pool, hpool, rfl⟩ := Option.map_eq_some_iff.1 h
  have hstep := hpool
  simp only [SpawnPool.step, Option.map_eq_some_iff, Option.bind_eq_some_iff] at hstep
  obtain ⟨a, ha, a', ha', rfl⟩ := hstep
  exact ⟨a, a', ha, ha', hpool, rfl, rfl, rfl⟩

/-- A lane does not move the main thread. -/
theorem main_of_lane {a a' : Attempt} {shutdown : Bool} {e : AttemptEvent} (he : e.ofLane = true)
    (h : a.step shutdown e = some a') :
    a'.main = a.main ∧ a'.abandoned = a.abandoned ∧ a'.future.cancelled = a.future.cancelled := by
  have hconsume : ∀ consumer, (a.consume consumer).main = a.main ∧
      (a.consume consumer).abandoned = a.abandoned := by
    intro consumer
    unfold Attempt.consume
    split <;> exact ⟨rfl, rfl⟩
  cases e with
  | take =>
    cases hl : a.lane <;> simp only [Attempt.step, hl, reduceCtorEq, Option.some.injEq] at h
    exact h ▸ ⟨rfl, rfl, rfl⟩
  | drain =>
    cases hl : a.lane <;> cases shutdown <;>
      simp only [Attempt.step, hl, reduceCtorEq, Option.some.injEq] at h
    exact h ▸ ⟨rfl, rfl, rfl⟩
  | checkFlag =>
    cases hl : a.lane <;> simp only [Attempt.step, hl, reduceCtorEq, Option.some.injEq] at h
    exact h ▸ ⟨rfl, rfl, rfl⟩
  | refuse =>
    cases hl : a.lane <;> simp only [Attempt.step, hl, reduceCtorEq, Option.some.injEq] at h
    exact h ▸ ⟨rfl, rfl, rfl⟩
  | tryClaim =>
    cases hl : a.lane <;> simp only [Attempt.step, hl, reduceCtorEq] at h
    unfold SpawnFuture.tryClaimExecution at h
    split_ifs at h <;> exact Option.some.inj h ▸ ⟨rfl, rfl, rfl⟩
  | run result =>
    cases hl : a.lane <;> cases result <;> simp only [Attempt.step, hl, reduceCtorEq] at h <;>
      exact Option.some.inj h ▸ ⟨rfl, rfl, rfl⟩
  | setResult =>
    cases hl : a.lane <;> simp only [Attempt.step, hl, reduceCtorEq] at h
    split at h
    all_goals
      rename_i hset
      obtain rfl := Option.some.inj h
      exact ⟨rfl, rfl, (congrArg (·.1.cancelled) hset).symm⟩
  | deliver =>
    cases hl : a.lane <;> simp only [Attempt.step, hl, reduceCtorEq, Option.some.injEq] at h
    obtain rfl := h
    exact ⟨(hconsume .callback).1, (hconsume .callback).2,
      congrArg SpawnFuture.cancelled (Attempt.consume_future a .callback)⟩
  | pollDone => cases he
  | pollTimedOut => cases he
  | abandon => cases he
  | readResult => cases he
  | installCallback => cases he
  | invoke => cases he
  | cancel => cases he

/-- What is tracked of an attempt stays so, while the main thread gives it up. -/
theorem Tracks.keep {current current' : Option ℕ} {interrupted : List ℕ} {k : ℕ} {a a' : Attempt}
    (h : Tracks current interrupted k a) (hcurrent : current = some k → current' = some k)
    (hmain : a'.main = a.main) (habandoned : a'.abandoned = a.abandoned)
    (hcancelled : a'.future.cancelled = a.future.cancelled) :
    Tracks current' interrupted k a' := by
  unfold Tracks at h ⊢
  rw [hmain]
  cases hm : a.main with
  | polling => trivial
  | observed => trivial
  | abandoning =>
    rw [hm] at h
    exact h.imp_left hcurrent
  | invoking =>
    rw [hm] at h
    exact hcurrent h
  | cancelling =>
    rw [hm] at h
    exact hcurrent h
  | settled =>
    rw [hm] at h
    rw [habandoned, hcancelled]
    exact h

/-- An event of one attempt, with a move of the main thread that still gives up what it did. -/
theorem Inv.attempt (hs : s.Inv) {p : List ℕ} {c : StartsPc} {k : ℕ} {e : AttemptEvent}
    (h : ({ s with pending := p, pc := c } : Starts).attempt k e = some s')
    (hk : ∀ a a', s.pool.attempts k = some a → a.step s.pool.shutdown e = some a' →
      Tracks c.current s.interrupted k a' ∧ (k ∈ s.interrupted → a'.main = .abandoning))
    (hkeep : ∀ j, j ≠ k → s.pc.current = some j → c.current = some j)
    (hcurrent : ∀ j, c.current = some j → j ∉ s.interrupted)
    (hfailing : ∀ j caller, c = .failing j caller → (j = k → ∀ a a', s.pool.attempts k = some a →
      a.step s.pool.shutdown e = some a' → a'.main = .abandoning) ∧ (j ≠ k → s.pc = c)) :
    s'.Inv := by
  obtain ⟨a, a', ha, ha', hpool, hattempts, hpc, hinterrupted⟩ := attempt_eq_some h
  obtain ⟨htracks, hmain⟩ := hk a a' ha ha'
  have hsame : ∀ j, j ≠ k → s'.pool.attempts j = s.pool.attempts j := by
    intro j hjk
    rw [hattempts, Function.update_of_ne hjk]
  have hself : s'.pool.attempts k = some a' := by rw [hattempts, Function.update_self]
  refine ⟨hs.pool.step hpool, fun j b hb => ?_, fun j hj => ?_, fun j hj => ?_,
    fun j caller hj => ?_⟩
  · rw [hpc, hinterrupted]
    by_cases hjk : j = k
    · subst hjk
      obtain rfl := Option.some.inj (hself.symm.trans hb)
      exact htracks
    · exact (hs.tracks j b ((hsame j hjk).symm.trans hb)).keep (hkeep j hjk) rfl rfl rfl
  · rw [hinterrupted] at hj
    by_cases hjk : j = k
    · subst hjk
      exact ⟨a', hself, hmain hj⟩
    · obtain ⟨b, hb, hbmain⟩ := hs.interrupted j hj
      exact ⟨b, (hsame j hjk).trans hb, hbmain⟩
  · rw [hpc] at hj
    rw [hinterrupted]
    exact hcurrent j hj
  · rw [hpc] at hj
    obtain ⟨hown, hother⟩ := hfailing j caller hj
    by_cases hjk : j = k
    · subst hjk
      exact ⟨a', hself, hown rfl a a' ha ha'⟩
    · obtain ⟨b, hb, hbmain⟩ := hs.failing j caller ((hother hjk).trans hj)
      exact ⟨b, (hsame j hjk).trans hb, hbmain⟩

/-- The main thread moves on, outside the treatment of an attempt it gives up. -/
theorem Inv.move (hs : s.Inv) {pc : StartsPc} (hold : s.pc.current = none)
    (hnew : pc.current = none) : Inv { s with pc } := by
  refine ⟨hs.pool, fun k a ha => ?_, hs.interrupted, fun k hk => ?_, fun k caller hk => ?_⟩
  · exact (hs.tracks k a ha).keep (fun h => absurd (hold.symm.trans h) nofun) rfl rfl rfl
  · exact absurd (hnew.symm.trans hk) nofun
  · rw [show pc = .failing k caller from hk] at hnew
    cases hnew

/-- An attempt that is polled is not one the main thread was thrown out of. -/
theorem Inv.not_interrupted (hs : s.Inv) {k : ℕ} {a : Attempt} (ha : s.pool.attempts k = some a)
    (hmain : a.main ≠ .abandoning) : k ∉ s.interrupted := by
  intro hk
  obtain ⟨b, hb, hbmain⟩ := hs.interrupted k hk
  obtain rfl := Option.some.inj (ha.symm.trans hb)
  exact hmain hbmain

theorem Inv.submit (hs : s.Inv) {k : ℕ} {jobId : Uuid} {now : ℚ}
    (h : s.step deadline (.submit k jobId now) = some s') : s'.Inv := by
  cases hpc : s.pc <;> simp only [Starts.step, hpc, reduceCtorEq] at h
  obtain ⟨pool, hpool, rfl⟩ := Option.map_eq_some_iff.1 h
  have hnew : s.pool.attempts k = none ∧
      ∃ a : Attempt, a.main = .polling ∧
        pool.attempts = Function.update s.pool.attempts k (some a) := by
    rw [SpawnPool.step] at hpool
    cases hk : s.pool.attempts k with
    | some a =>
      rw [hk] at hpool
      cases hpool
    | none =>
      rw [hk] at hpool
      obtain rfl := Option.some.inj hpool
      refine ⟨rfl, _, ?_, rfl⟩
      split_ifs <;> rfl
  obtain ⟨hnone, a, hmain, hattempts⟩ := hnew
  have hsame : ∀ j b, s.pool.attempts j = some b → pool.attempts j = some b := by
    intro j b hb
    have hjk : j ≠ k := by
      rintro rfl
      rw [hnone] at hb
      cases hb
    rw [hattempts, Function.update_of_ne hjk, hb]
  refine ⟨hs.pool.step hpool, fun j b hb => ?_, fun j hj => ?_, fun j hj => ?_,
    fun j caller hj => ?_⟩
  · by_cases hjk : j = k
    · subst hjk
      rw [hattempts, Function.update_self] at hb
      obtain rfl := Option.some.inj hb
      rw [Tracks, hmain]
      trivial
    · rw [hattempts, Function.update_of_ne hjk] at hb
      refine (hs.tracks j b hb).keep (fun hj => ?_) rfl rfl rfl
      rw [hpc] at hj
      cases hj
  · obtain ⟨b, hb, hbmain⟩ := hs.interrupted j hj
    exact ⟨b, hsame j b hb, hbmain⟩
  · cases hj
  · cases hj

theorem Inv.lane (hs : s.Inv) {k : ℕ} {e : AttemptEvent}
    (h : s.step deadline (.lane k e) = some s') : s'.Inv := by
  rw [Starts.step] at h
  split_ifs at h with he
  refine Inv.attempt (p := s.pending) (c := s.pc) hs h (fun a a' ha ha' => ?_)
    (fun _ _ hj => hj) hs.current fun j caller hj => ⟨?_, fun _ => rfl⟩
  · obtain ⟨hmain, habandoned, hcancelled⟩ := main_of_lane he ha'
    refine ⟨(hs.tracks k a ha).keep (fun h => h) hmain habandoned hcancelled, fun hk => ?_⟩
    obtain ⟨b, hb, hbmain⟩ := hs.interrupted k hk
    obtain rfl := Option.some.inj (ha.symm.trans hb)
    rw [hmain, hbmain]
  · rintro rfl a a' ha ha'
    obtain ⟨b, hb, hbmain⟩ := hs.failing j caller hj
    obtain rfl := Option.some.inj (ha.symm.trans hb)
    rw [(main_of_lane he ha').1, hbmain]

/-- The loop has taken an attempt out that is done. -/
theorem Inv.observe (hs : s.Inv) (hold : s.pc.current = none) {pending : List ℕ} {k : ℕ}
    {caller : Caller}
    (h : ({ s with pending, pc := .completing k caller } : Starts).attempt k .pollDone = some s') :
    s'.Inv := by
  refine hs.attempt h (fun a a' ha ha' => ?_) (fun j _ hj => absurd (hold.symm.trans hj) nofun)
    nofun nofun
  cases hm : a.main <;> cases hd : a.future.done <;>
    simp only [Attempt.step, hm, hd, reduceCtorEq, Option.some.injEq] at ha'
  subst ha'
  exact ⟨trivial, fun hk => absurd hk (hs.not_interrupted ha (by simp [hm]))⟩

/-- The loop has taken an attempt out to give it up. -/
theorem Inv.giveUp (hs : s.Inv) (hold : s.pc.current = none) {pending : List ℕ} {k : ℕ}
    {caller : Caller} {e : AttemptEvent}
    (he : ∀ a a' : Attempt, a.step s.pool.shutdown e = some a' →
      a.main = .polling ∧ a'.main = .abandoning)
    (h : ({ s with pending, pc := .failing k caller } : Starts).attempt k e = some s') :
    s'.Inv := by
  obtain ⟨a, a', ha, ha', -⟩ := attempt_eq_some h
  have hnot : k ∉ s.interrupted := hs.not_interrupted ha (by simp [(he a a' ha').1])
  refine hs.attempt h (fun b b' hb hb' => ?_) (fun j _ hj => absurd (hold.symm.trans hj) nofun)
    ?_ fun j caller' hj => ⟨fun _ b b' _ hb' => (he b b' hb').2, fun hjk => ?_⟩
  · rw [Tracks, (he b b' hb').2]
    exact ⟨.inl rfl, fun _ => rfl⟩
  · rintro j hj
    obtain rfl := Option.some.inj hj
    exact hnot
  · injection hj with hj _
    exact absurd hj.symm hjk

theorem Inv.visit (hs : s.Inv) (hold : s.pc.current = none) {k : ℕ} {rest : Caller}
    (h : s.visit deadline k rest = some s') : s'.Inv := by
  have hpolling : ∀ {shutdown : Bool} {e : AttemptEvent}, e = .pollTimedOut ∨ e = .abandon →
      ∀ a a' : Attempt, a.step shutdown e = some a' →
        a.main = .polling ∧ a'.main = .abandoning := by
    rintro shutdown e (rfl | rfl) a a' ha'
    · cases hm : a.main <;> cases hd : a.future.done <;>
        simp only [Attempt.step, hm, hd, reduceCtorEq, Option.some.injEq] at ha'
      exact ⟨rfl, ha' ▸ rfl⟩
    · cases hm : a.main <;> simp only [Attempt.step, hm, reduceCtorEq, Option.some.injEq] at ha'
      exact ⟨rfl, ha' ▸ rfl⟩
  unfold Starts.visit at h
  cases ha : s.pool.attempts k with
  | none =>
    rw [ha] at h
    cases h
  | some a =>
    rw [ha] at h
    cases rest with
    | poll now todo =>
      dsimp only at h
      split_ifs at h
      · exact hs.observe hold h
      · exact hs.giveUp hold (hpolling (.inl rfl)) h
      · exact Option.some.inj h ▸ hs.move hold rfl
    | cleanup todo => exact hs.giveUp hold (hpolling (.inr rfl)) h

theorem Inv.complete (hs : s.Inv) {raises : Bool}
    (h : s.step deadline (.complete raises) = some s') : s'.Inv := by
  cases hpc : s.pc <;> simp only [Starts.step, hpc, reduceCtorEq] at h
  rename_i k caller
  have hnew : (if raises then StartsPc.idle else .looping caller).current = none := by
    split_ifs <;> rfl
  refine Inv.attempt (p := s.pending) hs h (fun a a' ha ha' => ?_) (fun j _ hj => ?_)
    (fun j hj => ?_) fun j other hj => ?_
  · have hmain := (hs.pool k a ha).main
    cases hm : a.main <;> simp only [Attempt.step, hm, reduceCtorEq, Option.some.injEq] at ha'
    subst ha'
    rw [Attempt.MainInv, hm] at hmain
    refine ⟨fun habandoned => ?_, fun hk => absurd hk (hs.not_interrupted ha (by simp [hm]))⟩
    have hsame : (a.consume .mainLoop).abandoned = a.abandoned := by
      unfold Attempt.consume
      split <;> rfl
    rw [show (a.consume .mainLoop).abandoned = true from habandoned, hmain.2.2.1] at hsame
    cases hsame
  · rw [hpc] at hj
    cases hj
  · rw [hnew] at hj
    cases hj
  · rw [hj] at hnew
    cases hnew

/-- Where the write raises, the main thread is thrown out of the treatment. -/
theorem Inv.finalize (hs : s.Inv) {connected : Bool} {o : Outcomes}
    (h : s.step deadline (.finalize connected o) = some s') : s'.Inv := by
  cases hpc : s.pc <;> simp only [Starts.step, hpc, reduceCtorEq] at h
  rename_i k caller
  obtain ⟨a, ha, rfl⟩ := Option.map_eq_some_iff.1 h
  have hcurrent : s.pc.current = some k := by rw [hpc]; rfl
  split_ifs
  · refine ⟨hs.pool, fun j b hb => ?_, fun j hj => ?_, nofun, nofun⟩
    · by_cases hjk : j = k
      · subst hjk
        obtain ⟨b', hb', hmain⟩ := hs.failing j caller hpc
        obtain rfl := Option.some.inj (hb'.symm.trans hb)
        rw [Tracks, hmain]
        exact .inr List.mem_cons_self
      · have hkept : Tracks none s.interrupted j b := by
          refine (hs.tracks j b hb).keep (fun hj => ?_) rfl rfl rfl
          exact absurd (Option.some.inj (hcurrent.symm.trans hj)).symm hjk
        unfold Tracks at hkept ⊢
        cases hm : b.main with
        | abandoning =>
          rw [hm] at hkept
          exact .inr (List.mem_cons_of_mem k (hkept.resolve_left nofun))
        | polling => trivial
        | observed => trivial
        | invoking => rwa [hm] at hkept
        | cancelling => rwa [hm] at hkept
        | settled => rwa [hm] at hkept
    · rcases List.mem_cons.1 hj with rfl | hj
      · exact hs.failing _ caller hpc
      · exact hs.interrupted j hj
  · refine ⟨hs.pool, fun j b hb => ?_, hs.interrupted, fun j hj => ?_, nofun⟩
    · exact (hs.tracks j b hb).keep (fun hj => hcurrent.symm.trans hj) rfl rfl rfl
    · exact hs.current j (hcurrent.trans hj)

/-- The calls that follow a write that has returned. -/
theorem Inv.guard (hs : s.Inv) {k : ℕ} {caller : Caller} (hpc : s.pc = .guarding k caller)
    {e : AttemptEvent} (he : e = .installCallback ∨ e = .invoke)
    (h : s.attempt k e = some s') : s'.Inv := by
  have hcurrent : s.pc.current = some k := by rw [hpc]; rfl
  refine Inv.attempt (p := s.pending) (c := s.pc) hs h (fun a a' ha ha' => ?_) (fun _ _ hj => hj)
    hs.current fun j other hj => ?_
  · refine ⟨?_, fun hk => absurd hk (hs.current k hcurrent)⟩
    rcases he with rfl | rfl
    · cases hm : a.main <;> simp only [Attempt.step, hm, reduceCtorEq] at ha'
      split at ha' <;> exact Option.some.inj ha' ▸ hcurrent
    · cases hm : a.main <;> simp only [Attempt.step, hm, reduceCtorEq, Option.some.injEq] at ha'
      exact ha' ▸ hcurrent
  · cases hpc.symm.trans hj

theorem Inv.cancel (hs : s.Inv) (h : s.step deadline .cancel = some s') : s'.Inv := by
  cases hpc : s.pc <;> simp only [Starts.step, hpc, reduceCtorEq] at h
  rename_i k caller
  have hcurrent : s.pc.current = some k := by rw [hpc]; rfl
  refine Inv.attempt (p := s.pending) hs h (fun a a' ha ha' => ?_) (fun j hjk hj => ?_) nofun nofun
  · cases hm : a.main <;> simp only [Attempt.step, hm, reduceCtorEq, Option.some.injEq] at ha'
    subst ha'
    exact ⟨fun _ => rfl, fun hk => absurd hk (hs.current k hcurrent)⟩
  · exact absurd (Option.some.inj (hcurrent.symm.trans hj)).symm hjk

/-- **Every event keeps the invariant.** -/
theorem Inv.step {e : StartsEvent} (hs : s.Inv) (h : s.step deadline e = some s') : s'.Inv := by
  cases e with
  | submit k jobId now => exact hs.submit h
  | lane k e => exact hs.lane h
  | shutdown =>
    rw [Starts.step, Option.map_eq_some_iff] at h
    obtain ⟨pool, hpool, rfl⟩ := h
    obtain rfl := Option.some.inj hpool
    exact ⟨fun k a ha => hs.pool k a ha, hs.tracks, hs.interrupted, hs.current, hs.failing⟩
  | poll now =>
    cases hpc : s.pc <;> simp only [Starts.step, hpc, reduceCtorEq, Option.some.injEq] at h
    exact h ▸ hs.move (by rw [hpc]; rfl) rfl
  | cleanup =>
    cases hpc : s.pc <;> simp only [Starts.step, hpc, reduceCtorEq, Option.some.injEq] at h
    exact h ▸ hs.move (by rw [hpc]; rfl) rfl
  | visit =>
    rw [Starts.step] at h
    split at h
    · exact hs.visit (by rw [‹s.pc = _›]; rfl) h
    · exact hs.visit (by rw [‹s.pc = _›]; rfl) h
    · exact Option.some.inj h ▸ hs.move (by rw [‹s.pc = _›]; rfl) rfl
    · exact Option.some.inj h ▸ hs.move (by rw [‹s.pc = _›]; rfl) rfl
    · cases h
  | complete raises => exact hs.complete h
  | finalize connected o => exact hs.finalize h
  | installCallback =>
    cases hpc : s.pc <;> simp only [Starts.step, hpc, reduceCtorEq] at h
    exact hs.guard hpc (.inl rfl) h
  | invoke =>
    cases hpc : s.pc <;> simp only [Starts.step, hpc, reduceCtorEq] at h
    exact hs.guard hpc (.inr rfl) h
  | cancel => exact hs.cancel h

theorem inv_started : started.Inv := by
  refine ⟨fun _ _ h => ?_, fun _ _ h => ?_, fun _ h => ?_, fun _ h => ?_, fun _ _ h => ?_⟩
  all_goals cases h

/-! ## Attempts that were given up -/

/-- The terminal write of a result raises: it fails and is not deterministic, or it fails
deterministically and the quarantine write that follows fails and is not. -/
def WriteFails (o : Outcomes) (result : JobResult) : Prop :=
  (∃ e, o.finish result = .error e ∧ e ≠ .deterministic) ∨
    (o.finish result = .error .deterministic ∧ ∃ e, o.quarantine = .error e ∧ e ≠ .deterministic)

theorem raises_iff {connected : Bool} {o : Outcomes} {jobId : Uuid} {result : JobResult} :
    raises connected o jobId result = true ↔ connected = true ∧ WriteFails o result := by
  have hwrite : (finalizeImmediate o jobId result { live := 0 }).1.isOk = false ↔
      WriteFails o result := by
    unfold finalizeImmediate quarantineJob WriteFails
    cases o.finish result with
    | ok u => simp [Except.isOk, Except.toBool]
    | error e =>
      cases e with
      | connectivity => simp [Except.isOk, Except.toBool]
      | deadline => simp [Except.isOk, Except.toBool]
      | deterministic =>
        cases o.quarantine with
        | ok u => simp [Except.isOk, Except.toBool]
        | error e => cases e <;> simp [Except.isOk, Except.toBool]
  rw [raises, Bool.and_eq_true, Bool.not_eq_true', hwrite]

/-- The event is the write of the failure of the attempt `k`, and it raises. -/
def Interrupts (s : Starts) (k : ℕ) : StartsEvent → Prop
  | .finalize connected o => connected = true ∧
    ∃ caller, s.pc = .failing k caller ∧ WriteFails o caller.failure
  | _ => False

theorem attempt_interrupted {t : Starts} {k : ℕ} {e : AttemptEvent} (h : t.attempt k e = some s') :
    s'.interrupted = t.interrupted := by
  obtain ⟨-, -, -, -, -, -, -, hkept⟩ := attempt_eq_some h
  exact hkept

theorem visit_interrupted {k : ℕ} {rest : Caller} (h : s.visit deadline k rest = some s') :
    s'.interrupted = s.interrupted := by
  unfold Starts.visit at h
  split at h
  · cases h
  split at h
  · split_ifs at h
    · exact (attempt_interrupted h).trans rfl
    · exact (attempt_interrupted h).trans rfl
    · exact Option.some.inj h ▸ rfl
  · exact (attempt_interrupted h).trans rfl

/-- Only a write that raises throws the main thread out. -/
theorem interrupted_step {e : StartsEvent} (h : s.step deadline e = some s') (k : ℕ) :
    k ∈ s'.interrupted ↔ k ∈ s.interrupted ∨ s.Interrupts k e := by
  have hkept : s'.interrupted = s.interrupted → ¬ s.Interrupts k e →
      (k ∈ s'.interrupted ↔ k ∈ s.interrupted ∨ s.Interrupts k e) := by
    intro hsame hnot
    rw [hsame, or_iff_left hnot]
  cases e with
  | submit j jobId now =>
    cases hpc : s.pc <;> simp only [Starts.step, hpc, reduceCtorEq] at h
    obtain ⟨pool, -, rfl⟩ := Option.map_eq_some_iff.1 h
    exact hkept rfl not_false
  | lane j e =>
    rw [Starts.step] at h
    split_ifs at h
    exact hkept ((attempt_interrupted h).trans rfl) not_false
  | shutdown =>
    rw [Starts.step, Option.map_eq_some_iff] at h
    obtain ⟨pool, -, rfl⟩ := h
    exact hkept rfl not_false
  | poll now =>
    cases hpc : s.pc <;> simp only [Starts.step, hpc, reduceCtorEq, Option.some.injEq] at h
    exact hkept (h ▸ rfl) not_false
  | cleanup =>
    cases hpc : s.pc <;> simp only [Starts.step, hpc, reduceCtorEq, Option.some.injEq] at h
    exact hkept (h ▸ rfl) not_false
  | visit =>
    rw [Starts.step] at h
    split at h
    · exact hkept (visit_interrupted h) not_false
    · exact hkept (visit_interrupted h) not_false
    · exact hkept (Option.some.inj h ▸ rfl) not_false
    · exact hkept (Option.some.inj h ▸ rfl) not_false
    · cases h
  | complete raises =>
    cases hpc : s.pc <;> simp only [Starts.step, hpc, reduceCtorEq] at h
    exact hkept ((attempt_interrupted h).trans rfl) not_false
  | finalize connected o =>
    cases hpc : s.pc <;> simp only [Starts.step, hpc, reduceCtorEq] at h
    rename_i j caller
    obtain ⟨a, ha, rfl⟩ := Option.map_eq_some_iff.1 h
    have hcaller : s.Interrupts k (.finalize connected o) ↔
        j = k ∧ raises connected o a.jobId caller.failure = true := by
      rw [raises_iff, Interrupts, hpc]
      constructor
      · rintro ⟨hconnected, other, hother, hfails⟩
        obtain ⟨rfl, rfl⟩ := StartsPc.failing.inj hother
        exact ⟨rfl, hconnected, hfails⟩
      · rintro ⟨rfl, hconnected, hfails⟩
        exact ⟨hconnected, caller, rfl, hfails⟩
    rw [hcaller]
    split_ifs with hraises
    · rw [List.mem_cons, and_iff_left hraises, or_comm, eq_comm]
    · rw [or_iff_left fun hboth => hraises hboth.2]
  | installCallback =>
    cases hpc : s.pc <;> simp only [Starts.step, hpc, reduceCtorEq] at h
    exact hkept ((attempt_interrupted h).trans rfl) not_false
  | invoke =>
    cases hpc : s.pc <;> simp only [Starts.step, hpc, reduceCtorEq] at h
    exact hkept ((attempt_interrupted h).trans rfl) not_false
  | cancel =>
    cases hpc : s.pc <;> simp only [Starts.step, hpc, reduceCtorEq] at h
    exact hkept ((attempt_interrupted h).trans rfl) not_false

/-- The attempts the main thread was thrown out of are those of a write that raised. -/
theorem mem_interrupted_iff {events : List StartsEvent} {k : ℕ}
    (h : exec (step deadline) s events = some s') :
    k ∉ s'.interrupted ↔ k ∉ s.interrupted ∧
      Always (step deadline) (fun m e => ¬ m.Interrupts k e) s events := by
  refine exec_iff_always (I := fun _ => True) (P := fun m => k ∉ m.interrupted)
    (fun m e m' _ hm => ⟨trivial, ?_⟩) trivial h
  rw [interrupted_step hm, not_or]

/-- The attempt is cancelled, it carries the callback or had its result already, and once the lane
is through, a gated start that it produced has been aborted by the callback. -/
structure Guarded (a : Attempt) : Prop where
  cancelled : a.future.cancelled = true
  callback : a.future.callback ≠ none ∨ a.future.result ≠ none
  aborted : a.lane = .finished → ∀ result, a.produced = some result →
    a.consumed = [(.callback, result)]

/-- An attempt the main thread is through with. -/
theorem guarded_of_settled {a : Attempt} (ha : a.Inv) (hmain : a.main = .settled)
    (habandoned : a.abandoned = true) (hcancelled : a.future.cancelled = true) : Guarded a := by
  have hsettled := ha.main
  rw [Attempt.MainInv, hmain] at hsettled
  refine ⟨hcancelled, ?_, fun hlane result hproduced => ?_⟩
  · by_cases hcallback : a.future.callback = none
    · exact .inr (hsettled.2 hcallback)
    · exact .inl hcallback
  · have hlaneInv := ha.lane
    rw [Attempt.LaneInv, hlane, hproduced] at hlaneInv
    obtain ⟨published, hresult, hspawned⟩ := Option.bind_eq_some_iff.1 hlaneInv.2.symm
    cases published with
    | raised => cases hspawned
    | spawned r =>
      obtain rfl := Option.some.inj hspawned
      rw [ha.consumed, Attempt.expected, hresult, hlane, hmain, habandoned]
      rfl

/-- **An attempt that was given up never leaks**, once the main thread has moved on from it, just
when no write of its failure has raised. -/
theorem abandoned_guarded_iff {events : List StartsEvent}
    (h : exec (step deadline) started events = some s) {k : ℕ} {a : Attempt}
    (ha : s.pool.attempts k = some a) (habandoned : a.abandoned = true)
    (hmoved : s.pc.current ≠ some k) :
    Guarded a ↔ Always (step deadline) (fun m e => ¬ m.Interrupts k e) started events := by
  have hinv : s.Inv := exec_invariant (fun _ _ _ hs hstep => hs.step hstep) inv_started h
  have hattempt := hinv.pool k a ha
  have htracks := hinv.tracks k a ha
  have hmainInv := hattempt.main
  have hhistory : k ∉ s.interrupted ↔
      Always (step deadline) (fun m e => ¬ m.Interrupts k e) started events := by
    rw [mem_interrupted_iff h]
    exact and_iff_right List.not_mem_nil
  rw [← hhistory]
  unfold Tracks at htracks
  unfold Attempt.MainInv at hmainInv
  cases hmain : a.main with
  | polling =>
    rw [hmain, habandoned] at hmainInv
    cases hmainInv.2.2
  | observed =>
    rw [hmain, habandoned] at hmainInv
    cases hmainInv.2.2.1
  | abandoning =>
    rw [hmain] at htracks hmainInv
    have hlost := htracks.resolve_left hmoved
    refine iff_of_false (fun hguarded => ?_) fun hnot => hnot hlost
    have hcancelled := hguarded.cancelled
    rw [hmainInv.1] at hcancelled
    cases hcancelled
  | invoking =>
    rw [hmain] at htracks
    exact absurd htracks hmoved
  | cancelling =>
    rw [hmain] at htracks
    exact absurd htracks hmoved
  | settled =>
    rw [hmain] at htracks
    have hguarded := guarded_of_settled hattempt hmain habandoned (htracks habandoned)
    exact iff_of_true hguarded (hinv.not_interrupted ha (by simp [hmain]))

/-- A database that ends the terminal write so. -/
def answering (finish : Except DbError Unit) : Outcomes where
  startTicks := none
  persist := .ok false
  releaseWritten := false
  abortTurns := 0
  finish _ := finish
  quarantine := .ok ()
  now := 0

/-- A worker shuts down while the callable runs, and the write of the failure ends so. -/
def shutdownRun (finish : Except DbError Unit) : List StartsEvent :=
  [.submit 0 (.ofDigit 1) 0, .lane 0 .take, .lane 0 .checkFlag, .lane 0 .tryClaim, .cleanup, .visit,
    .finalize true (answering finish)]

/-- The callable returns. -/
def lateReturn : List StartsEvent :=
  [.lane 0 (.run (some (.spawned SpawnPool.lateStart))), .lane 0 .setResult]

/-- A write that breaches its deadline leaves the late start to nobody. -/
theorem abandoned_start_leaks :
    ∃ s a, exec (step 30) started (shutdownRun (.error .deadline) ++ lateReturn) = some s ∧
      s.pool.attempts 0 = some a ∧ a.abandoned = true ∧ s.pc.current ≠ some 0 ∧
      a.produced = some SpawnPool.lateStart ∧ a.lane = .finished ∧ a.future.cancelled = false ∧
      a.future.callback = none ∧ a.consumed = [] := by
  have hrun : (exec (step 30) started (shutdownRun (.error .deadline) ++ lateReturn)).map
      (fun s => (s.pc.current, s.pool.attempts 0)) = some (none, some {
        jobId := .ofDigit 1
        future := ⟨some (.spawned SpawnPool.lateStart), true, false, true, none⟩
        lane := .finished
        main := .abandoning
        abandoned := true
        ran := true
        produced := some SpawnPool.lateStart }) := rfl
  obtain ⟨s, hs, hstate⟩ := Option.map_eq_some_iff.1 hrun
  obtain ⟨hcurrent, hattempt⟩ := Prod.mk.inj hstate
  refine ⟨s, _, hs, hattempt, rfl, ?_, rfl, rfl, rfl, rfl, rfl⟩
  rw [hcurrent]
  exact nofun

/-- A write that returns leaves the late start to the callback. -/
theorem abandoned_guarded_iff_late :
    ∃ s a, exec (step 30) started
        (shutdownRun (.ok ()) ++ [.installCallback, .cancel] ++ lateReturn) = some s ∧
      s.pool.attempts 0 = some a ∧ Guarded a := by
  have hrun : (exec (step 30) started
      (shutdownRun (.ok ()) ++ [.installCallback, .cancel] ++ lateReturn)).map
      (fun s => (s.pc.current, s.interrupted, s.pool.attempts 0)) = some (none, [], some {
        jobId := .ofDigit 1
        future := ⟨some (.spawned SpawnPool.lateStart), true, true, true, some (.ofDigit 1)⟩
        lane := .delivering
        main := .settled
        abandoned := true
        ran := true
        produced := some SpawnPool.lateStart }) := rfl
  obtain ⟨s, hs, hstate⟩ := Option.map_eq_some_iff.1 hrun
  obtain ⟨hcurrent, hrest⟩ := Prod.mk.inj hstate
  obtain ⟨hinterrupted, hattempt⟩ := Prod.mk.inj hrest
  have hnever : 0 ∉ s.interrupted := by
    rw [hinterrupted]
    exact List.not_mem_nil
  have hmoved : s.pc.current ≠ some 0 := by
    rw [hcurrent]
    exact nofun
  refine ⟨s, _, hs, hattempt, (abandoned_guarded_iff hs hattempt rfl hmoved).2 ?_⟩
  exact ((mem_interrupted_iff hs).1 hnever).2

end Starts

end Lubko.Worker
