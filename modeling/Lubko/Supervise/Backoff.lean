import Lubko.Supervise.Recovery
import Lubko.Supervise.Settings
import Mathlib.Algebra.Order.Field.Rat

/-!
# Crash backoff

`_backoff_seconds` raises two to the number of crashes before it caps the delay. The power is a
float, so from `2.0 ** 1024` on Python raises `OverflowError`, and each handler of a crash computes
the delay before it hands a state to its writer. The count is durable and has no bound of its own.
Apart from the power the arithmetic is exact.

* `backoffSeconds_mono` — a longer crash loop never waits less.
* `crashLoop_eq_ok` — how far a crash loop is recorded.
* `crash_backoff_iff` — the counts at which everything the handlers promise holds.
-/

namespace Lubko.Supervise

open Lubko.Lib Lubko.Supervise.Recovery

/-! ## The delay -/

/-- What a power of floats raises. -/
inductive PowerError where
  | overflowError
  deriving DecidableEq

/-- `2.0 ** exponent`. -/
def twoPower (exponent : ℕ) : Except PowerError ℚ :=
  if exponent < 1024 then .ok (2 ^ exponent) else .error .overflowError

/-- `_backoff_seconds`. -/
def Settings.backoffSeconds (s : Settings) (restartCount : ℤ) : Except PowerError ℚ := do
  let power ← twoPower (max 0 (restartCount - 1)).toNat
  return min (s.backoffBaseSeconds * power) s.backoffMaxSeconds

/-- The delay the settings name for a number of crashes. -/
def Settings.delay (s : Settings) (n : ℕ) : ℚ :=
  min (s.backoffBaseSeconds * 2 ^ (n - 1)) s.backoffMaxSeconds

theorem twoPower_eq_ok {exponent : ℕ} {power : ℚ} :
    twoPower exponent = .ok power ↔ exponent < 1024 ∧ power = 2 ^ exponent := by
  rw [twoPower]
  by_cases h : exponent < 1024
  · simp [h, eq_comm]
  · simp [h]

theorem backoffSeconds_eq_ok {s : Settings} {n : ℕ} {d : ℚ} :
    s.backoffSeconds n = .ok d ↔ n ≤ 1024 ∧ d = s.delay n := by
  have hexponent : (max 0 ((n : ℤ) - 1)).toNat = n - 1 := by omega
  simp only [Settings.backoffSeconds, except_bind_eq_ok, hexponent, twoPower_eq_ok, pure,
    Except.pure, Except.ok.injEq, Settings.delay]
  constructor
  · intro ⟨power, ⟨hlt, hpower⟩, hd⟩
    subst hpower
    exact ⟨by omega, hd.symm⟩
  · intro ⟨hle, hd⟩
    exact ⟨_, ⟨by omega, rfl⟩, hd.symm⟩

/-- A count that is one more than the recorded one. -/
theorem backoffSeconds_succ {s : Settings} {n : ℕ} {restartCount : ℤ} (h : restartCount + 1 = n)
    (hn : n ≤ 1024) : s.backoffSeconds (restartCount + 1) = .ok (s.delay n) := by
  rw [h]
  exact backoffSeconds_eq_ok.2 ⟨hn, rfl⟩

/-- **A longer crash loop never waits less.** -/
theorem delay_mono {s : Settings} (hs : s.Accepted) : Monotone s.delay := by
  intro m n h
  have hpower : (2 : ℚ) ^ (m - 1) ≤ 2 ^ (n - 1) :=
    pow_le_pow_right₀ one_le_two (Nat.sub_le_sub_right h 1)
  exact min_le_min_right _ (mul_le_mul_of_nonneg_left hpower hs.backoffBase_pos.le)

/-! ## The handlers -/

/-- What `_handle_crash` reads and is answered. -/
structure CrashReads where
  returncode : Option ℤ
  wallClock : ℚ
  /-- `drain_sentinel_matches` -/
  drained : Bool
  /-- `recover_owned_groups` returned. -/
  recovered : Bool

namespace CrashReads

def lastExit (r : CrashReads) : LastExit := ⟨r.returncode, r.wallClock⟩

/-- The owned groups of the dead worker had to be recovered, and were not. -/
def withheld (r : CrashReads) (state : SupervisorState) : Bool :=
  state.child.any fun child => !(child.token ≠ [] && r.drained) && !r.recovered

end CrashReads

section Handlers

variable (s : Settings)

/-- `_handle_crash`: the publication it asks for. -/
def handleCrash (r : CrashReads) (state : SupervisorState) (now : ℚ) :
    Except PowerError Maintenance := do
  let backoff ← s.backoffSeconds (state.restartCount + 1)
  if r.withheld state then return .crashHeld r.lastExit (now + backoff)
  else return .crashRecorded r.lastExit (now + backoff)

/-- What `_handle_db_crash` reads and is answered; it reads the state three times. -/
structure DbCrashReads where
  active : Option WorkerChild
  /-- `recover_owned_groups` returned. -/
  recovered : Bool
  /-- `_clear_worker_authority` -/
  cleared : Bool
  forBackoff : SupervisorState
  forSnapshot : SupervisorState
  forCount : SupervisorState
  returncode : Option ℤ
  wallClock : ℚ

/-- `_handle_db_crash`: the publication it asks for, unless the published record or the owned groups
of the worker hold it back. -/
def handleDbCrash (r : DbCrashReads) (now : ℚ) : Except PowerError (Option Maintenance) :=
  if r.active.isNone || !r.recovered || !r.cleared then .ok none
  else do
    let backoff ← s.backoffSeconds (r.forBackoff.restartCount + 1)
    return some (.dbCrashRecorded (r.forCount.restartCount + 1) ⟨r.returncode, r.wallClock⟩
      (now + backoff))

/-- `_record_health_retirement`: the publication it asks for. -/
def recordHealthRetirement (state : SupervisorState) (now : ℚ) : Except PowerError Maintenance := do
  let backoff ← s.backoffSeconds (state.restartCount + 1)
  return .healthRetirement (now + backoff)

/-! ## A crash loop -/

/-- One turn of a crash loop: the crash, and the worker that is started after it. -/
structure CrashTurn where
  reads : CrashReads
  crashed : ℚ
  child : WorkerChild
  spawned : ℚ

/-- `_publish_spawned_child`, without the obligation it settles. -/
def published (child : WorkerChild) (now : ℚ) (state : SupervisorState) : SupervisorState :=
  { state with
    mode := .run
    child := some child
    intent := .run
    nextAttemptAt := none
    lastSpawnAt := some now
    ready := false
    nextReadinessAt := some (now + s.readinessIntervalSeconds) }

/-- The durable state after the turns, when every write is confirmed. -/
def crashLoop : List CrashTurn → SupervisorState → Except PowerError SupervisorState
  | [], state => .ok state
  | turn :: turns, state => do
    let m ← handleCrash s turn.reads state turn.crashed
    let written := ((m.snapshot state).map (preserveAuthority · state)).getD state
    crashLoop turns (published s turn.child turn.spawned written)

end Handlers

/-! ## How far it is recorded -/

variable {s : Settings}

theorem handleCrash_succ {r : CrashReads} {state : SupervisorState} {now : ℚ} {n : ℕ}
    (h : state.restartCount + 1 = n) (hn : n ≤ 1024) :
    handleCrash s r state now = .ok (if r.withheld state then
      .crashHeld r.lastExit (now + s.delay n) else .crashRecorded r.lastExit (now + s.delay n)) := by
  rw [handleCrash, backoffSeconds_succ h hn]
  show (if r.withheld state then _ else _) = _
  split_ifs <;> rfl

/-- A worker whose owned groups were recovered is replaced. -/
theorem withheld_of_recovered {r : CrashReads} (h : r.recovered = true) (state : SupervisorState) :
    r.withheld state = false := by
  rw [CrashReads.withheld, h]
  cases state.child <;> simp

/-- **A crash loop is recorded to its end** while the counts stay within the power. -/
theorem crashLoop_eq_ok {turns : List CrashTurn} {state : SupervisorState} {k : ℕ}
    (hrecovered : ∀ turn ∈ turns, turn.reads.recovered = true) (hcount : state.restartCount = k)
    (hle : k + turns.length ≤ 1024) :
    ∃ t, crashLoop s turns state = .ok t ∧ t.restartCount = k + turns.length := by
  induction turns generalizing state k with
  | nil => exact ⟨state, rfl, by simpa using hcount⟩
  | cons turn turns ih =>
    rw [List.forall_mem_cons] at hrecovered
    rw [List.length_cons] at hle
    have hsucc : state.restartCount + 1 = ((k + 1 : ℕ) : ℤ) := by rw [hcount, Nat.cast_succ]
    have hcrash := @handleCrash_succ s turn.reads state turn.crashed _ hsucc (by omega)
    rw [withheld_of_recovered hrecovered.1] at hcrash
    have hnext : (published s turn.child turn.spawned (((Maintenance.crashRecorded
        turn.reads.lastExit (turn.crashed + s.delay (k + 1))).snapshot state).map
          (preserveAuthority · state) |>.getD state)).restartCount = (k + 1 : ℕ) := hsucc
    obtain ⟨t, ht, htcount⟩ := ih hrecovered.2 hnext (by omega)
    refine ⟨t, ?_, ?_⟩
    · rw [crashLoop, hcrash]
      exact ht
    · rw [htcount, List.length_cons]
      push_cast
      ring

/-! ## What the handlers promise -/

/-- What is promised of `n` consecutive crashes: the delay is the named one, no shorter than after
fewer crashes, every handler hands a state to its writer, and a loop of `n` crashes is recorded. -/
structure Settings.Handles (s : Settings) (n : ℕ) : Prop where
  delay : s.backoffSeconds n = .ok (s.delay n)
  monotone : ∀ m ≤ n, ∃ d, s.backoffSeconds m = .ok d ∧ d ≤ s.delay n
  crash : ∀ r (state : SupervisorState) now, state.restartCount + 1 = n →
    ∃ m target, handleCrash s r state now = .ok m ∧ m.snapshot state = some target
  dbCrash : ∀ (r : DbCrashReads) now, r.active.isSome = true → r.recovered = true →
    r.cleared = true → r.forBackoff.restartCount + 1 = n →
    ∃ m target, handleDbCrash s r now = .ok (some m) ∧ m.snapshot r.forSnapshot = some target
  health : ∀ (state : SupervisorState) now, state.restartCount + 1 = n →
    ∃ m target, recordHealthRetirement s state now = .ok m ∧ m.snapshot state = some target
  loop : ∀ turns : List CrashTurn, turns.length = n →
    (∀ turn ∈ turns, turn.reads.recovered = true) →
    ∃ t, crashLoop s turns freshState = .ok t ∧ t.restartCount = n

/-- **Crash backoff is total, bounded and monotone** up to 1024 consecutive crashes, and no
further. -/
theorem crash_backoff_iff (s : Settings) (hs : s.postInit = .ok ()) (n : ℕ) :
    s.Handles n ↔ n ≤ 1024 := by
  constructor
  · intro h
    exact (backoffSeconds_eq_ok.1 h.delay).1
  · intro hn
    exact {
      delay := backoffSeconds_eq_ok.2 ⟨hn, rfl⟩
      monotone := by
        intro m hm
        exact ⟨_, backoffSeconds_eq_ok.2 ⟨hm.trans hn, rfl⟩,
          delay_mono (Settings.accepted_of_postInit hs) hm⟩
      crash := by
        intro r state now hcount
        have hcrash := @handleCrash_succ s r state now n hcount hn
        by_cases hwithheld : r.withheld state = true
        · rw [if_pos hwithheld] at hcrash
          exact ⟨_, _, hcrash, rfl⟩
        · rw [if_neg hwithheld] at hcrash
          exact ⟨_, _, hcrash, rfl⟩
      dbCrash := by
        intro r now hactive hrecovered hcleared hcount
        have hguards : (r.active.isNone || !r.recovered || !r.cleared) = false := by
          rw [Option.isNone_eq_false_iff.2 hactive, hrecovered, hcleared]
          rfl
        refine ⟨.dbCrashRecorded (r.forCount.restartCount + 1) ⟨r.returncode, r.wallClock⟩
          (now + s.delay n), _, ?_, rfl⟩
        rw [handleDbCrash, hguards, backoffSeconds_succ hcount hn]
        rfl
      health := by
        intro state now hcount
        refine ⟨.healthRetirement (now + s.delay n), _, ?_, rfl⟩
        rw [recordHealthRetirement, backoffSeconds_succ hcount hn]
        rfl
      loop := by
        intro turns hlength hrecovered
        have hfresh : freshState.restartCount = (0 : ℕ) := rfl
        obtain ⟨t, ht, hcount⟩ := crashLoop_eq_ok (s := s) hrecovered hfresh (by omega)
        exact ⟨t, ht, by rw [hcount, hlength]; simp⟩ }

/-- The third crash under the default settings. -/
theorem crash_backoff_iff_default : ({} : Settings).postInit = .ok () ∧
    (({} : Settings).Handles 3 ↔ 3 ≤ 1024) :=
  ⟨Settings.default_postInit, crash_backoff_iff {} Settings.default_postInit 3⟩

/-- The crash after 1024 is not recorded. -/
theorem crash_1025_overflows :
    ({} : Settings).backoffSeconds 1025 = .error .overflowError ∧
    (∀ r state now, state.restartCount = 1024 →
      handleCrash {} r state now = .error .overflowError) ∧
    ¬ ∀ n, ({} : Settings).Handles n := by
  have hoverflow : ({} : Settings).backoffSeconds 1025 = .error .overflowError := rfl
  refine ⟨hoverflow, ?_, ?_⟩
  · intro r state now hcount
    rw [handleCrash, hcount]
    show ({} : Settings).backoffSeconds 1025 >>= _ = _
    rw [hoverflow]
    rfl
  · intro h
    cases hoverflow.symm.trans (h 1025).delay

end Lubko.Supervise
