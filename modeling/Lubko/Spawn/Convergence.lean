import Lubko.Spawn.Calls

/-!
# Proofs of exit

How the daemon convinces itself that a process it spawned has exited: a direct child by its handle,
a recorded hold by the handle when it is the daemon's own child and otherwise by `/proc`. A hold is
converged by signals to one pinned process.

A wait has a deadline, and is granted a number of rounds in case it never comes.

* `Gone` — the process of a hold does not run.
* `ensures_convergeDirectChild`, `ensures_convergeUnresolved` — `True` only after the exit.
* `keeps_resolveUnresolvedChild` — the hold is converged and released.
-/

namespace Lubko.Spawn

open Lubko.Lib Lubko.Supervise Lubko.Authority Lubko.Lifecycle

/-! ## The code -/

/-- The rounds granted to the waits. -/
structure Turns where
  identity : ℕ
  observable : ℕ
  unresolved : ℕ
  settle : ℕ

section Code

variable (settings : Settings) (turns : Turns)

/-- `_converge_direct_child`. -/
def convergeDirectChild (proc : Spawned) : Code Bool := do
  let _ ← whether (.signal proc.pid)
  if ← waited proc then return true
  let _ ← whether (.signal proc.pid)
  waited proc

/-- `_owned_hold_child`. -/
def ownedHoldChild (hold : UnresolvedChild) : Code (Option Spawned) := do
  match (← attributes).proc with
  | none => return none
  | some proc =>
    if proc.pid ≠ hold.pid then return none
    if !(← waitpid proc) then return none
    match hold.startTimeTicks with
    | none => return some proc
    | some recorded =>
      if (← procStartTicks hold.pid) = some recorded then return some proc else return none

/-- `_unresolved_alive`. -/
def unresolvedAlive (hold : UnresolvedChild) : Code Bool := do
  match ← ownedHoldChild hold with
  | some child => return !(← exited child)
  | none =>
    let ticks ← procStartTicks hold.pid
    match hold.startTimeTicks with
    | none => return ticks.isSome
    | some recorded => return ticks = some recorded

/-- `_await_unresolved_exit`. -/
def awaitUnresolvedExit (hold : UnresolvedChild) : ℕ → Code Bool
  | 0 => return false
  | n + 1 => do
    if !(← unresolvedAlive hold) then return true
    if ← whether .deadline then return false
    awaitUnresolvedExit hold n

/-- `_converge_unresolved`. -/
def convergeUnresolved (hold : UnresolvedChild) : Code Bool := do
  if !(← unresolvedAlive hold) then return true
  match hold.startTimeTicks with
  | none => awaitUnresolvedExit hold turns.unresolved
  | some recorded =>
    if !(← whether (.pidfdOpen hold.pid)) then return false
    if (← procStartTicks hold.pid) ≠ some recorded then return false
    let _ ← whether (.signal hold.pid)
    if ← awaitUnresolvedExit hold turns.unresolved then return true
    let _ ← whether (.signal hold.pid)
    awaitUnresolvedExit hold turns.unresolved

/-- The next attempt, one poll interval from now. -/
def deferAttempt : Code Unit := do
  let now ← clock
  let state ← readState
  writeState { state with nextAttemptAt := some (now + settings.pollIntervalSeconds) }

/-- `_resolve_unresolved_child`. -/
def resolveUnresolvedChild : Code Bool := do
  let state ← readState
  if state.ownershipHoldMalformed || state.unresolvedHoldMalformed then
    deferAttempt settings
    return false
  match state.unresolvedChild with
  | none => return true
  | some hold =>
    if !authorizeRecovery (← reconcileAuthorityFacts) then
      deferAttempt settings
      return false
    if !(← convergeUnresolved turns hold) then
      deferAttempt settings
      return false
    if !(← recoverSpawnOwnedGroups hold.token) then return false
    let state ← readState
    writeState { state with unresolvedChild := none }
    return true

end Code

/-! ## The proofs are sound -/

variable {w w' : World} {gone : List Spawned} {settings : Settings} {turns : Turns}

/-- No process runs that the hold may be about. -/
def Gone (hold : UnresolvedChild) (w : World) : Prop :=
  ∀ x ∈ w.live, x.pid = hold.pid → ∃ ticks ∈ hold.startTimeTicks, ticks ≠ x.startTimeTicks

theorem ensures_convergeDirectChild (proc : Spawned) (h : w.Inv) :
    Ensures (convergeDirectChild proc) (fun b w' => w.Later w' ∧ (b = true → proc ∉ w'.live)) w := by
  refine .bind (ensures_whether _ h) ?_
  rintro _ _ hinv hterm
  refine .bind (ensures_waited proc hinv) ?_
  rintro b _ hinv ⟨hwait, hb⟩
  cases b with
  | true => exact .ret hinv ⟨hterm.trans hwait, hb.1⟩
  | false =>
    refine .bind (ensures_whether _ hinv) ?_
    intro _ _ hinv hkill
    refine (ensures_waited proc hinv).mono ?_
    rintro b _ - ⟨hwait', hb⟩
    exact ⟨hterm.trans (hwait.trans (hkill.trans hwait')), hb.1⟩

/-- A child that is recognised has the recorded pid, and its handle is the daemon's. -/
theorem ensures_ownedHoldChild (hold : UnresolvedChild) (h : w.Inv) :
    Ensures (ownedHoldChild hold) (fun child w' => w.Later w' ∧
      ∀ x ∈ child, w'.proc = some x ∧ x.pid = hold.pid) w := by
  refine .bind (ensures_attributes h) ?_
  rintro _ _ hinv ⟨hself, rfl⟩
  dsimp only
  cases hproc : w.proc with
  | none => exact .ret hinv ⟨hself, fun x hx => by cases hx⟩
  | some proc =>
    dsimp only
    split
    · exact .ret hinv ⟨hself, fun x hx => by cases hx⟩
    · rename_i hpid
      rw [not_not] at hpid
      refine .bind (ensures_waitpid proc hinv) ?_
      rintro b _ hinv ⟨hwait, -⟩
      cases b with
      | false => exact .ret hinv ⟨hself.trans hwait, fun x hx => by cases hx⟩
      | true =>
        have hheld : ∀ {v : World}, w.Later v → ∀ x ∈ some proc, v.proc = some x ∧ x.pid = hold.pid := by
          rintro _ ⟨gone, rfl⟩ x hx
          cases hx
          exact ⟨hproc, hpid⟩
        cases hold.startTimeTicks with
        | none => exact .ret hinv ⟨hself.trans hwait, hheld (hself.trans hwait)⟩
        | some recorded =>
          refine .bind (ensures_procStartTicks _ hinv) ?_
          rintro ticks _ hinv ⟨hlook, -⟩
          have hlater := (hself.trans hwait).trans hlook
          split
          · exact .ret hinv ⟨hlater, hheld hlater⟩
          · exact .ret hinv ⟨hlater, fun x hx => by cases hx⟩

theorem ensures_unresolvedAlive (hold : UnresolvedChild) (h : w.Inv) :
    Ensures (unresolvedAlive hold) (fun b w' => w.Later w' ∧ (b = false → Gone hold w')) w := by
  refine .bind (ensures_ownedHoldChild hold h) ?_
  rintro child _ hinv ⟨howned, hchild⟩
  cases child with
  | some child =>
    obtain ⟨hproc, -⟩ := hchild child rfl
    refine .bind (ensures_exited child hinv) ?_
    rintro b _ hinv ⟨hpoll, hb⟩
    refine .ret hinv ⟨howned.trans hpoll, fun hdead x hx _ => ?_⟩
    have hexited : child ∉ _ := hb.1 (by simpa using hdead)
    obtain ⟨gone, rfl⟩ := hpoll
    exact absurd (hinv.eq_of_proc hx hproc ▸ hx) hexited
  | none =>
    refine .bind (ensures_procStartTicks _ hinv) ?_
    rintro ticks _ hinv ⟨hlook, -, hticks⟩
    have hlater := howned.trans hlook
    cases hrecorded : hold.startTimeTicks with
    | none =>
      refine .ret hinv ⟨hlater, fun hdead x hx hpid => ?_⟩
      rw [hticks x hx hpid] at hdead
      cases hdead
    | some recorded =>
      refine .ret hinv ⟨hlater, fun hdead x hx hpid => ?_⟩
      rw [hticks x hx hpid] at hdead
      refine ⟨recorded, hrecorded, fun heq => ?_⟩
      simp [heq] at hdead

theorem ensures_awaitUnresolvedExit (hold : UnresolvedChild) (n : ℕ) (h : w.Inv) :
    Ensures (awaitUnresolvedExit hold n)
      (fun b w' => w.Later w' ∧ (b = true → Gone hold w')) w := by
  induction n generalizing w with
  | zero => exact .ret h ⟨.refl w, fun hb => by cases hb⟩
  | succ n ih =>
    refine .bind (ensures_unresolvedAlive hold h) ?_
    rintro alive _ hinv ⟨hlook, halive⟩
    cases alive with
    | false => exact .ret hinv ⟨hlook, fun _ => halive rfl⟩
    | true =>
      refine .bind (ensures_whether _ hinv) ?_
      intro late _ hinv hclock
      cases late with
      | true => exact .ret hinv ⟨hlook.trans hclock, fun hb => by cases hb⟩
      | false =>
        refine (ih hinv).mono ?_
        rintro b _ - ⟨hrest, hb⟩
        exact ⟨hlook.trans (hclock.trans hrest), hb⟩

theorem ensures_convergeUnresolved (hold : UnresolvedChild) (h : w.Inv) :
    Ensures (convergeUnresolved turns hold)
      (fun b w' => w.Later w' ∧ (b = true → Gone hold w')) w := by
  refine .bind (ensures_unresolvedAlive hold h) ?_
  rintro alive _ hinv ⟨hlook, halive⟩
  cases alive with
  | false => exact .ret hinv ⟨hlook, fun _ => halive rfl⟩
  | true =>
    have hwaits : ∀ {v : World}, v.Inv → w.Later v →
        Ensures (awaitUnresolvedExit hold turns.unresolved)
          (fun b w' => w.Later w' ∧ (b = true → Gone hold w')) v := by
      intro v hinv hlater
      refine (ensures_awaitUnresolvedExit hold _ hinv).mono ?_
      rintro b _ - ⟨hwait, hb⟩
      exact ⟨hlater.trans hwait, hb⟩
    cases hold.startTimeTicks with
    | none => exact hwaits hinv hlook
    | some recorded =>
      refine .bind (ensures_whether _ hinv) ?_
      intro pinned _ hinv hpin
      have hlater := hlook.trans hpin
      cases pinned with
      | false => exact .ret hinv ⟨hlater, fun hb => by cases hb⟩
      | true =>
        refine .bind (ensures_procStartTicks _ hinv) ?_
        rintro ticks _ hinv ⟨hticks, -⟩
        have hlater := hlater.trans hticks
        split
        · exact .ret hinv ⟨hlater, fun hb => by cases hb⟩
        · refine .bind (ensures_whether _ hinv) ?_
          intro _ _ hinv hterm
          refine .bind (hwaits hinv (hlater.trans hterm)) ?_
          rintro b _ hinv ⟨hlater, hb⟩
          cases b with
          | true => exact .ret hinv ⟨hlater, hb⟩
          | false =>
            refine .bind (ensures_whether _ hinv) ?_
            intro _ _ hinv hkill
            exact hwaits hinv (hlater.trans hkill)

/-! ## The durable hold -/

/-- A rewrite of what the file holds beside the obligation and the child. -/
theorem keeps_writeState {state : SupervisorState} (h : w.Inv)
    (hspawning : state.spawning = w.file.spawning) (hchild : state.child = w.file.child) :
    Keeps (writeState state) w := by
  refine (ensures_writeState h ?_).mono fun _ _ _ _ => trivial
  rw [hspawning, hchild]
  exact h.cached

theorem keeps_deferAttempt (h : w.Inv) : Keeps (deferAttempt settings) w := by
  refine .bind (ensures_clock h) ?_
  intro _ _ hinv _
  refine .bind (ensures_readState hinv) ?_
  rintro _ _ hinv ⟨⟨gone, rfl⟩, rfl⟩
  exact keeps_writeState hinv rfl rfl

theorem keeps_resolveUnresolvedChild (h : w.Inv) : Keeps (resolveUnresolvedChild settings turns) w := by
  have hdefers : ∀ {v : World}, v.Inv → Keeps (do deferAttempt settings; return false) v :=
    fun hinv => (keeps_deferAttempt hinv).bind fun _ _ hinv _ => .ret hinv trivial
  refine .bind (ensures_readState h) ?_
  rintro _ _ hinv ⟨⟨gone, rfl⟩, rfl⟩
  split
  · exact hdefers hinv
  · cases w.file.unresolvedChild with
    | none => exact .ret hinv trivial
    | some hold =>
      refine .bind (ensures_reconcileAuthorityFacts hinv) ?_
      rintro facts _ hinv -
      split
      · exact hdefers hinv
      · refine .bind (ensures_convergeUnresolved hold hinv) ?_
        rintro converged _ hinv -
        cases converged with
        | false => exact hdefers hinv
        | true =>
          refine .bind (ensures_recoverSpawnOwnedGroups _ hinv) ?_
          rintro recovered _ hinv -
          cases recovered with
          | false => exact .ret hinv trivial
          | true =>
            refine .bind (ensures_readState hinv) ?_
            rintro _ _ hinv ⟨⟨gone, rfl⟩, rfl⟩
            refine .bind (keeps_writeState hinv rfl rfl) ?_
            intro _ _ hinv _
            exact .ret hinv trivial

end Lubko.Spawn
