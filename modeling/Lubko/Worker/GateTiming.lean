import Lubko.Worker.Abandon
import Lubko.Worker.Heartbeat
import Mathlib.Tactic.Linarith
import Mathlib.Tactic.NormNum
import Mathlib.Tactic.Ring

/-!
# When a start gate is released

A claimed job is activated by the poll that finds its spawn done, whatever the time: `done()` is
tested before the deadline of the attempt, the deadline is not compared with the lease, and the
activation looks at neither. What bounds the release is how late the job is submitted after its
claim, and how late it is activated after the loop has last left it pending.

* `TimedStarts.Inv` — an attempt is left pending only before its deadline.
* `releases_safe_iff` — with these two delays bounded, every gate is released before the lease of
  its job becomes unsafe just when the bounds and the spawn deadline add up to no more than the safe
  part of the lease.
-/

namespace Lubko.Worker

open Lubko.Lib

/-- A gate that was released: the claim its lease is anchored to, and the time. -/
structure Release where
  claimMono : ℚ
  time : ℚ

/-- The pending starts of a supervisor and the monotonic clock. -/
structure TimedStarts where
  starts : Starts := .started
  now : ℚ := 0
  /-- The time at the start of the turn. -/
  turn : ℚ := 0
  /-- `claim_mono` of the claim whose jobs are submitted. -/
  claim : ℚ := 0
  claimMono : ℕ → ℚ := fun _ => 0
  /-- The time of the turn whose poll has last left the attempt pending, or of its submission. -/
  seen : ℕ → ℚ := fun _ => 0
  released : List Release := []

/-- What an activation meets. -/
structure Activation where
  connected : Bool
  outcomes : Outcomes
  spec : Job
  version : ℤ
  live : ℕ

inductive TimedEvent where
  | advance (dt : ℚ)
  | beginTurn
  /-- `claim_mono = time.monotonic()`, before the claim. -/
  | claim
  | submit (k : ℕ) (jobId : Uuid)
  | poll
  | visit
  /-- `_handle_completed_attempt`; the time is the one at which the gate is released. -/
  | complete (activation : Activation)
  /-- What the other threads and the other loops do. -/
  | lane (k : ℕ) (e : AttemptEvent)
  | shutdown
  | cleanup
  | finalize (connected : Bool) (o : Outcomes)
  | installCallback
  | invoke
  | cancel

/-- The attempt that a turn of `_poll_pending_starts` has left pending, and the poll's time. -/
def StartsPc.leftPending : StartsPc → StartsPc → Option (ℕ × ℚ)
  | .looping (.poll now (k :: _)), .looping _ => some (k, now)
  | _, _ => none

namespace TimedStarts

/-- An event that does not depend on the time. -/
def within (deadline : ℚ) (s : TimedStarts) (e : StartsEvent) : Option TimedStarts :=
  (s.starts.step deadline e).map fun starts => { s with starts }

/-- `_handle_completed_attempt`: whether it raises, and whether the gate was released. -/
def handleCompleted (activation : Activation) (claimMono : ℚ) (a : Attempt) : Bool × Bool :=
  match a.future.result with
  | none => (true, false)
  | some .raised =>
    (Starts.raises activation.connected activation.outcomes a.jobId
      (startFailure "unable to execute job"), false)
  | some (.spawned gated) =>
    if activation.connected then
      let (result, w) := activateGatedJob activation.outcomes a.jobId activation.spec gated
        claimMono activation.version { live := activation.live }
      (!result.isOk, .releaseByte ∈ w.trace)
    else (false, false)

def step (deadline : ℚ) (s : TimedStarts) : TimedEvent → Option TimedStarts
  | .advance dt => if 0 ≤ dt then some { s with now := s.now + dt } else none
  | .beginTurn =>
    match s.starts.pc with
    | .idle => some { s with turn := s.now }
    | _ => none
  | .claim =>
    match s.starts.pc with
    | .idle => some { s with claim := s.now }
    | _ => none
  | .submit k jobId => (s.starts.step deadline (.submit k jobId s.now)).map fun starts => { s with
      starts
      claimMono := Function.update s.claimMono k s.claim
      seen := Function.update s.seen k s.now }
  | .poll => s.within deadline (.poll s.turn)
  | .visit => (s.starts.step deadline .visit).map fun starts => { s with
      starts
      seen := match s.starts.pc.leftPending starts.pc with
        | some (k, now) => Function.update s.seen k now
        | none => s.seen }
  | .complete activation =>
    match s.starts.pc with
    | .completing k _ =>
      (s.starts.pool.attempts k).bind fun a =>
        let handled := handleCompleted activation (s.claimMono k) a
        (s.starts.step deadline (.complete handled.1)).map fun starts => { s with
          starts
          released := if handled.2 then s.released ++ [⟨s.claimMono k, s.now⟩] else s.released }
    | _ => none
  | .lane k e => s.within deadline (.lane k e)
  | .shutdown => s.within deadline .shutdown
  | .cleanup => s.within deadline .cleanup
  | .finalize connected o => s.within deadline (.finalize connected o)
  | .installCallback => s.within deadline .installCallback
  | .invoke => s.within deadline .invoke
  | .cancel => s.within deadline .cancel

end TimedStarts

/-! ## What a loop leaves pending -/

/-- When each attempt is submitted, after the event. -/
def StartsEvent.submittedAt (times : ℕ → ℚ) : StartsEvent → ℕ → ℚ
  | .submit k _ now => Function.update times k now
  | _ => times

theorem StartsPc.leftPending_eq_some {pc pc' : StartsPc} {k : ℕ} {now : ℚ}
    (h : pc.leftPending pc' = some (k, now)) :
    ∃ todo caller, pc = .looping (.poll now (k :: todo)) ∧ pc' = .looping caller := by
  unfold StartsPc.leftPending at h
  split at h
  · obtain ⟨rfl, rfl⟩ := Prod.mk.inj (Option.some.inj h)
    exact ⟨_, _, rfl, rfl⟩
  · cases h

namespace Starts

variable {s s' : Starts} {deadline : ℚ}

theorem attempt_same {t : Starts} {k : ℕ} {e : AttemptEvent} (h : t.attempt k e = some s') :
    s'.submittedAt = t.submittedAt ∧ s'.pc = t.pc := by
  obtain ⟨pool, -, rfl⟩ := Option.map_eq_some_iff.1 h
  exact ⟨rfl, rfl⟩

/-- A loop passes over an attempt only before its deadline. -/
theorem visit_same {k : ℕ} {rest : Caller} (h : s.visit deadline k rest = some s') :
    s'.submittedAt = s.submittedAt ∧ ∀ caller, s'.pc = .looping caller →
      ∀ now todo, rest = .poll now todo → now < s.submittedAt k + deadline := by
  unfold Starts.visit at h
  split at h
  · cases h
  split at h
  · rename_i now todo
    split_ifs at h with hdone hlate
    · obtain ⟨hsame, hpc⟩ := attempt_same h
      refine ⟨hsame.trans rfl, fun caller hcaller => ?_⟩
      cases hpc.symm.trans hcaller
    · obtain ⟨hsame, hpc⟩ := attempt_same h
      refine ⟨hsame.trans rfl, fun caller hcaller => ?_⟩
      cases hpc.symm.trans hcaller
    · obtain rfl := Option.some.inj h
      refine ⟨rfl, fun _ _ now' todo' hrest => ?_⟩
      obtain ⟨rfl, -⟩ := Caller.poll.inj hrest
      linarith [not_le.1 hlate]
  · exact ⟨(attempt_same h).1.trans rfl, fun _ _ _ _ hrest => by cases hrest⟩

/-- Only a submission is recorded. -/
theorem step_submittedAt {e : StartsEvent} (h : s.step deadline e = some s') :
    s'.submittedAt = e.submittedAt s.submittedAt := by
  cases e with
  | submit j jobId now =>
    cases hpc : s.pc <;> simp only [Starts.step, hpc, reduceCtorEq] at h
    obtain ⟨pool, -, rfl⟩ := Option.map_eq_some_iff.1 h
    rfl
  | lane j e =>
    rw [Starts.step] at h
    split_ifs at h
    exact (attempt_same h).1
  | shutdown =>
    rw [Starts.step, Option.map_eq_some_iff] at h
    obtain ⟨pool, -, rfl⟩ := h
    rfl
  | poll now =>
    cases hpc : s.pc <;> simp only [Starts.step, hpc, reduceCtorEq, Option.some.injEq] at h
    exact h ▸ rfl
  | cleanup =>
    cases hpc : s.pc <;> simp only [Starts.step, hpc, reduceCtorEq, Option.some.injEq] at h
    exact h ▸ rfl
  | visit =>
    rw [Starts.step] at h
    split at h
    · exact (visit_same h).1
    · exact (visit_same h).1
    · exact Option.some.inj h ▸ rfl
    · exact Option.some.inj h ▸ rfl
    · cases h
  | complete raises =>
    cases hpc : s.pc <;> simp only [Starts.step, hpc, reduceCtorEq] at h
    exact (attempt_same h).1.trans rfl
  | finalize connected o =>
    cases hpc : s.pc <;> simp only [Starts.step, hpc, reduceCtorEq] at h
    obtain ⟨a, ha, rfl⟩ := Option.map_eq_some_iff.1 h
    split_ifs <;> rfl
  | installCallback =>
    cases hpc : s.pc <;> simp only [Starts.step, hpc, reduceCtorEq] at h
    exact (attempt_same h).1
  | invoke =>
    cases hpc : s.pc <;> simp only [Starts.step, hpc, reduceCtorEq] at h
    exact (attempt_same h).1
  | cancel =>
    cases hpc : s.pc <;> simp only [Starts.step, hpc, reduceCtorEq] at h
    exact (attempt_same h).1.trans rfl

end Starts

/-! ## Delays -/

/-- How long the worker takes at most from a claim to the submission of its jobs, and from the last
turn that left an attempt pending to its activation. -/
structure Delays where
  submission : ℚ
  activation : ℚ
  submission_nonneg : 0 ≤ submission
  activation_nonneg : 0 ≤ activation

namespace TimedStarts

/-- The worker is within the delays. -/
def Prompt (delays : Delays) (s : TimedStarts) : TimedEvent → Prop
  | .submit _ _ => s.now ≤ s.claim + delays.submission
  | .complete _ => ∀ k caller, s.starts.pc = .completing k caller →
    s.now ≤ s.seen k + delays.activation
  | _ => True

/-- A job is submitted soon after its claim, and left pending only before its deadline. -/
structure Inv (deadline : ℚ) (delays : Delays) (s : TimedStarts) : Prop where
  submitted : ∀ k, s.starts.submittedAt k ≤ s.claimMono k + delays.submission
  seen : ∀ k, s.seen k = s.starts.submittedAt k ∨ s.seen k < s.starts.submittedAt k + deadline
  released : ∀ r ∈ s.released, r.time ≤ r.claimMono + delays.submission + delays.activation ∨
    r.time < r.claimMono + delays.submission + deadline + delays.activation

variable {s s' : TimedStarts} {deadline : ℚ} {delays : Delays}

theorem Inv.within (hs : s.Inv deadline delays) {e : StartsEvent}
    (h : s.within deadline e = some s') (he : ∀ times, e.submittedAt times = times) :
    s'.Inv deadline delays := by
  obtain ⟨starts, hstarts, rfl⟩ := Option.map_eq_some_iff.1 h
  have hsame : starts.submittedAt = s.starts.submittedAt :=
    (Starts.step_submittedAt hstarts).trans (he _)
  exact ⟨fun k => by rw [hsame]; exact hs.submitted k, fun k => by rw [hsame]; exact hs.seen k,
    hs.released⟩

theorem Inv.submit (hs : s.Inv deadline delays) {k : ℕ} {jobId : Uuid}
    (hprompt : s.now ≤ s.claim + delays.submission)
    (h : s.step deadline (.submit k jobId) = some s') : s'.Inv deadline delays := by
  obtain ⟨starts, hstarts, rfl⟩ := Option.map_eq_some_iff.1 h
  have hsubmitted : starts.submittedAt = Function.update s.starts.submittedAt k s.now :=
    Starts.step_submittedAt hstarts
  refine ⟨fun j => ?_, fun j => ?_, hs.released⟩
  · dsimp only
    rw [hsubmitted]
    by_cases hjk : j = k
    · rw [hjk, Function.update_self, Function.update_self]
      exact hprompt
    · rw [Function.update_of_ne hjk, Function.update_of_ne hjk]
      exact hs.submitted j
  · dsimp only
    rw [hsubmitted]
    by_cases hjk : j = k
    · rw [hjk, Function.update_self, Function.update_self]
      exact .inl rfl
    · rw [Function.update_of_ne hjk, Function.update_of_ne hjk]
      exact hs.seen j

/-- A turn that leaves an attempt pending began before its deadline. -/
theorem Inv.visit (hs : s.Inv deadline delays) (h : s.step deadline .visit = some s') :
    s'.Inv deadline delays := by
  obtain ⟨starts, hstarts, rfl⟩ := Option.map_eq_some_iff.1 h
  have hsame : starts.submittedAt = s.starts.submittedAt := Starts.step_submittedAt hstarts
  refine ⟨fun j => ?_, fun j => ?_, hs.released⟩
  · dsimp only
    rw [hsame]
    exact hs.submitted j
  dsimp only
  rw [hsame]
  cases hleft : s.starts.pc.leftPending starts.pc with
  | none => exact hs.seen j
  | some left =>
    obtain ⟨k, now⟩ := left
    obtain ⟨todo, caller, hpc, hpc'⟩ := StartsPc.leftPending_eq_some hleft
    by_cases hjk : j = k
    · rw [Starts.step, hpc] at hstarts
      dsimp only
      rw [hjk, Function.update_self]
      exact .inr ((Starts.visit_same hstarts).2 caller hpc' now todo rfl)
    · dsimp only
      rw [Function.update_of_ne hjk]
      exact hs.seen j

theorem Inv.complete (hs : s.Inv deadline delays) {activation : Activation}
    (hprompt : s.Prompt delays (.complete activation))
    (h : s.step deadline (.complete activation) = some s') : s'.Inv deadline delays := by
  cases hpc : s.starts.pc <;> simp only [step, hpc, reduceCtorEq] at h
  rename_i k caller
  obtain ⟨a, -, h⟩ := Option.bind_eq_some_iff.1 h
  obtain ⟨starts, hstarts, rfl⟩ := Option.map_eq_some_iff.1 h
  have hsame : starts.submittedAt = s.starts.submittedAt := Starts.step_submittedAt hstarts
  refine ⟨fun j => ?_, fun j => ?_, fun r hr => ?_⟩
  · dsimp only
    rw [hsame]
    exact hs.submitted j
  · dsimp only
    rw [hsame]
    exact hs.seen j
  · dsimp only at hr
    split_ifs at hr
    · rcases List.mem_append.1 hr with hr | hr
      · exact hs.released r hr
      · obtain rfl := List.mem_singleton.1 hr
        have htime := hprompt k caller hpc
        have hsubmitted := hs.submitted k
        rcases hs.seen k with hseen | hseen
        · left
          dsimp only
          linarith
        · right
          dsimp only
          linarith
    · exact hs.released r hr

/-- **Every event within the delays keeps the invariant.** -/
theorem Inv.step {e : TimedEvent} (hs : s.Inv deadline delays) (hprompt : s.Prompt delays e)
    (h : s.step deadline e = some s') : s'.Inv deadline delays := by
  cases e with
  | advance dt =>
    rw [TimedStarts.step] at h
    split_ifs at h
    exact Option.some.inj h ▸ ⟨hs.submitted, hs.seen, hs.released⟩
  | beginTurn =>
    cases hpc : s.starts.pc <;>
      simp only [TimedStarts.step, hpc, reduceCtorEq, Option.some.injEq] at h
    exact h ▸ ⟨hs.submitted, hs.seen, hs.released⟩
  | claim =>
    cases hpc : s.starts.pc <;>
      simp only [TimedStarts.step, hpc, reduceCtorEq, Option.some.injEq] at h
    exact h ▸ ⟨hs.submitted, hs.seen, hs.released⟩
  | submit k jobId => exact hs.submit hprompt h
  | visit => exact hs.visit h
  | complete activation => exact hs.complete hprompt h
  | poll => exact hs.within h fun _ => rfl
  | lane k e => exact hs.within h fun _ => rfl
  | shutdown => exact hs.within h fun _ => rfl
  | cleanup => exact hs.within h fun _ => rfl
  | finalize connected o => exact hs.within h fun _ => rfl
  | installCallback => exact hs.within h fun _ => rfl
  | invoke => exact hs.within h fun _ => rfl
  | cancel => exact hs.within h fun _ => rfl

theorem inv_started (deadline : ℚ) (delays : Delays) :
    Inv deadline delays {} := by
  refine ⟨fun k => ?_, fun k => .inl rfl, fun r hr => by cases hr⟩
  show (0 : ℚ) ≤ 0 + delays.submission
  linarith [delays.submission_nonneg]

/-! ## Sharpness -/

/-- A job was claimed at 0, submitted at `c`, and left pending by the turn that has begun at `t`. -/
def waiting (c t : ℚ) : TimedStarts where
  starts :=
    { pool := ⟨false, Function.update (fun _ => none) 0 (some { jobId := .ofDigit 1 })⟩
      submittedAt := Function.update (fun _ => 0) 0 c
      pending := [0]
      pc := .idle
      interrupted := [] }
  now := t
  turn := t
  claimMono := Function.update (fun _ => 0) 0 0
  seen := Function.update (fun _ => 0) 0 t

/-- A database that records the identity. -/
def recording : Activation where
  connected := true
  outcomes :=
    { startTicks := some 1
      persist := .ok true
      releaseWritten := true
      abortTurns := 0
      finish _ := .ok ()
      quarantine := .ok ()
      now := 0 }
  spec := ⟨.ofDigit 1, "/", ["true"]⟩
  version := 2
  live := 0

/-- The callable of the job returns. -/
def spawning : List TimedEvent :=
  [.lane 0 .take, .lane 0 .checkFlag, .lane 0 .tryClaim,
    .lane 0 (.run (some (.spawned SpawnPool.lateStart))), .lane 0 .setResult]

theorem advance_eq {dt : ℚ} (hdt : 0 ≤ dt) (s : TimedStarts) :
    s.step deadline (.advance dt) = some { s with now := s.now + dt } := if_pos hdt

/-- The turn that finds the spawn done activates the job. -/
theorem activation_runs (c t : ℚ) (delays : Delays) :
    ∃ s, Runs (step deadline) (Prompt delays) (waiting c t)
        (spawning ++
          [.beginTurn, .poll, .visit, .advance delays.activation, .complete recording]) s ∧
      s.released = [⟨0, t + delays.activation⟩] := by
  refine ⟨_, .append (.cons trivial rfl <| .cons trivial rfl <| .cons trivial rfl <|
      .cons trivial rfl <| .cons trivial rfl <| .nil _) <|
      .cons trivial rfl <| .cons trivial rfl <| .cons trivial rfl <|
      .cons trivial (advance_eq delays.activation_nonneg _) <| .cons ?_ rfl <| .nil _, ?_⟩
  · intro k caller hpc
    cases hpc
    exact le_refl (t + delays.activation)
  · have hclaim : Function.update (fun _ : ℕ => (0 : ℚ)) 0 0 0 = 0 := Function.update_self ..
    exact congrArg (fun claim => [Release.mk claim (t + delays.activation)]) hclaim

/-- A job may be submitted late. -/
theorem submission_runs (delays : Delays) :
    Runs (step deadline) (Prompt delays) {}
      [.claim, .advance delays.submission, .submit 0 (.ofDigit 1), .beginTurn]
      (waiting delays.submission delays.submission) := by
  have hwaiting : waiting delays.submission delays.submission =
      waiting (0 + delays.submission) (0 + delays.submission) := by rw [zero_add]
  rw [hwaiting]
  exact .cons trivial rfl <| .cons trivial (advance_eq delays.submission_nonneg _) <|
    .cons (le_refl (0 + delays.submission)) rfl <| .cons trivial rfl <| .nil _

/-- The poll of the turn, with what it has still to visit. -/
def polling (c t : ℚ) (todo : List ℕ) : TimedStarts :=
  { waiting c t with starts := { (waiting c t).starts with pc := .looping (.poll t todo) } }

/-- A turn leaves an attempt pending before its deadline. -/
theorem visit_waiting {c wait : ℚ} (h : wait < deadline) :
    step deadline { polling c (c + wait) [0] with seen := (waiting c c).seen } .visit =
      some (polling c (c + wait) []) := by
  have hearly : ¬ deadline ≤ wait := not_le.2 h
  simp [step, Starts.step, Starts.visit, polling, waiting, StartsPc.leftPending, hearly]

theorem pending_runs {c wait : ℚ} (hwait : 0 ≤ wait) (h : wait < deadline) (delays : Delays) :
    Runs (step deadline) (Prompt delays) (waiting c c)
      [.advance wait, .beginTurn, .poll, .visit, .visit] (waiting c (c + wait)) :=
  .cons trivial (advance_eq hwait _) <| .cons trivial rfl <| .cons trivial rfl <|
    .cons trivial (visit_waiting h) <| .cons trivial rfl <| .nil _

/-- A job submitted as late as the delays allow is released as late as they allow, after any time
that it is left pending. -/
theorem release_runs {wait : ℚ} (hwait : 0 ≤ wait) (h : 0 < wait → wait < deadline)
    (delays : Delays) :
    ∃ events s, Runs (step deadline) (Prompt delays) {} events s ∧
      s.released = [⟨0, delays.submission + wait + delays.activation⟩] := by
  obtain ⟨s, hrun, hreleased⟩ :=
    @activation_runs deadline delays.submission (delays.submission + wait) delays
  rcases hwait.eq_or_lt with rfl | hpos
  · rw [add_zero] at hrun hreleased ⊢
    exact ⟨_, s, (submission_runs delays).append hrun, hreleased⟩
  · have hpending := pending_runs (c := delays.submission) hwait (h hpos) delays
    exact ⟨_, s, (submission_runs delays).append (hpending.append hrun), hreleased⟩

/-- The delays leave room for the spawn deadline before the lease becomes unsafe. -/
def FitsLease (settings : Settings) (delays : Delays) : Prop :=
  if 0 < settings.spawnDeadlineSeconds then
    delays.submission + settings.spawnDeadlineSeconds + delays.activation ≤ unsafeAt settings 0
  else delays.submission + delays.activation < unsafeAt settings 0

/-- **Every gate is released before the lease is unsafe**, in every run within the delays, just when
the delays leave room for the spawn deadline. -/
theorem releases_safe_iff (settings : Settings) (delays : Delays) :
    (∀ events s, exec (step settings.spawnDeadlineSeconds) {} events = some s →
      Always (step settings.spawnDeadlineSeconds) (Prompt delays) {} events →
      ∀ r ∈ s.released, r.time < unsafeAt settings r.claimMono) ↔ FitsLease settings delays := by
  have hshift : ∀ t, unsafeAt settings t = t + unsafeAt settings 0 := by
    intro t
    unfold unsafeAt
    ring
  unfold FitsLease
  constructor
  · intro hsafe
    have hrelease : ∀ wait, 0 ≤ wait → (0 < wait → wait < settings.spawnDeadlineSeconds) →
        delays.submission + wait + delays.activation < unsafeAt settings 0 := by
      intro wait hwait hearly
      obtain ⟨events, s, hrun, hreleased⟩ := release_runs hwait hearly delays
      have hmem : (⟨0, delays.submission + wait + delays.activation⟩ : Release) ∈ s.released := by
        rw [hreleased]
        exact List.mem_singleton_self _
      exact hsafe events s hrun.exec hrun.always _ hmem
    split_ifs with hdeadline
    · by_contra hlate
      have hlate := not_le.1 hlate
      have hroom := hrelease 0 le_rfl fun h => absurd h (lt_irrefl 0)
      have hwait := hrelease (unsafeAt settings 0 - delays.submission - delays.activation)
        (by linarith) fun _ => by linarith
      linarith
    · have hroom := hrelease 0 le_rfl fun h => absurd h (lt_irrefl 0)
      linarith
  · intro hfits events s hexec hprompt r hr
    have hinv : s.Inv settings.spawnDeadlineSeconds delays :=
      exec_invariant_of_always (fun _ _ _ hs hC hstep => hs.step hC hstep)
        (inv_started settings.spawnDeadlineSeconds delays) hprompt hexec
    rw [hshift]
    split_ifs at hfits with hdeadline
    · rcases hinv.released r hr with hr | hr
      · linarith
      · linarith
    · rcases hinv.released r hr with hr | hr
      · linarith
      · linarith

/-- The default settings are accepted, and a spawn that takes 26 of its 30 seconds releases its gate
after the 25 seconds its lease is safe for. -/
theorem slow_spawn_outlives_lease_safety :
    Settings.alpha.postInit = .ok () ∧
      ∃ events s, exec (step Settings.alpha.spawnDeadlineSeconds) {} events = some s ∧
        ∃ r ∈ s.released, r.claimMono = 0 ∧ r.time = 26 ∧
          ¬ r.time < unsafeAt Settings.alpha r.claimMono := by
  have hearly : (0 : ℚ) < 26 → (26 : ℚ) < Settings.alpha.spawnDeadlineSeconds := by
    intro _
    show (26 : ℚ) < 30
    norm_num
  obtain ⟨events, s, hrun, hreleased⟩ :=
    release_runs (by norm_num) hearly ⟨0, 0, le_rfl, le_rfl⟩
  refine ⟨Settings.alpha_postInit, events, s, hrun.exec, ⟨0, 0 + 26 + 0⟩, ?_, rfl, ?_, ?_⟩
  · exact hreleased ▸ List.mem_singleton_self _
  · norm_num
  · norm_num [unsafeAt, Settings.alpha]

end TimedStarts

end Lubko.Worker
