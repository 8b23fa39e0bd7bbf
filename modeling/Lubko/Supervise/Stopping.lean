import Lubko.Lib.CrashProgram
import Lubko.Lib.Instances
import Lubko.Supervise.Liveness

/-!
# Stopping a worker among other processes

`stop_worker` pins the recorded process, reads its identity, signals the members of its group that
carry the token, and waits until the worker is seen to be gone. Every look at `/proc` and every
signal is a call of its own, and before each call processes start, change and leave.

An instance of a process is its pid with its start ticks; no instance starts twice. `/proc` shows
every process, though a read may fail. A zombie does not run, and never runs again.

* `ensures_workerRetirementState`, `ensures_waitForDrain` — the waits never take a worker that runs
  for gone.
* `ensures_signalExactGroup` — whom a signal reaches.
* `stopWorker_honest_iff` — when a worker that is reported stopped is gone.
-/

namespace Lubko.Supervise.Stopping

open Lubko.Lib Lubko.Lifecycle Lubko.Supervise.Liveness

/-! ## Processes -/

/-- What `/proc` shows of a process beside its pid and its start ticks. -/
structure Process where
  state : ProcessState
  pgid : ℤ
  sid : ℤ
  environ : List PyStr

/-- Group, session and environment change freely; who has exited does not run again. -/
def may (a a' : Process) : Bool := a.state = .other || a'.state ≠ .other

abbrev Kernel := Population ℤ ℤ Process

/-- The instance still runs. -/
def Running (id : Instance ℤ ℤ) (k : Kernel) : Prop := ∃ a, k.Has id a ∧ a.state = .other

/-- The instance had the token in its environment. -/
def Carried (token : Option PyStr) (k : Kernel) (id : Instance ℤ ℤ) : Prop :=
  ∃ t ∈ token, ∃ a, (id, a) ∈ k.history ∧ processHasToken (.entries a.environ) t = true

inductive Signal where
  | SIGTERM
  | SIGKILL

/-- The processes, and the signals that were delivered. -/
structure World where
  kernel : Kernel
  sent : List (Instance ℤ ℤ × Signal)

/-! ## Calls -/

inductive Call where
  /-- `_open_exact_pidfd`. -/
  | pidfdOpen (pid : ℤ)
  /-- A read of `/proc/<pid>/stat`. -/
  | stat (pid : ℤ)
  | getpgid (pid : ℤ)
  | getsid (pid : ℤ)
  /-- A read of `/proc/<pid>/environ`. -/
  | environ (pid : ℤ)
  /-- The names in `/proc`. -/
  | iterdir
  | processPgrp (pid : ℤ)
  | drainSentinelMatches
  | pidfdSendSignal (pidfd : Instance ℤ ℤ) (sig : Signal)

/-- What a call returns. A descriptor is the instance it refers to. -/
structure Reply where
  stat : StatRead := .notFound
  environ : EnvironRead := .notFound
  number : Option ℤ := none
  pids : List ℤ := []
  pidfd : Option (Instance ℤ ℤ) := none
  flag : Bool := false

/-- What comes before a call, whether it fails, and what it shows of the rest of the system. -/
structure Decision where
  churn : List (Population.Event ℤ ℤ Process) := []
  fails : Bool := false
  entries : List ℤ := []
  drained : Bool := false

namespace World

/-- A read of `stat`. -/
def stat (w : World) (o : Decision) (pid : ℤ) : StatRead :=
  match w.kernel.holder pid with
  | none => .notFound
  | some (ticks, a) => if o.fails then .unreadable else .fields a.state ticks

/-- A read of `environ`: that of a process which has exited is empty. -/
def environ (w : World) (o : Decision) (pid : ℤ) : EnvironRead :=
  match w.kernel.holder pid with
  | none => .notFound
  | some (_, a) =>
    if o.fails then .unreadable else .entries (if a.state = .other then a.environ else [])

/-- `process_pgrp`. -/
def processPgrp (w : World) (o : Decision) (pid : ℤ) : Option ℤ :=
  match w.kernel.holder pid with
  | none => none
  | some (_, a) => if o.fails || a.state ≠ .other then none else some a.pgid

/-- `pidfd_open`. -/
def pidfdOpen (w : World) (o : Decision) (pid : ℤ) : Option (Instance ℤ ℤ) :=
  match w.kernel.holder pid with
  | none => none
  | some (ticks, _) => if o.fails then none else some ⟨pid, ticks⟩

/-- A signal reaches the instance of its descriptor, or nobody. -/
def delivers (w : World) (o : Decision) (pidfd : Instance ℤ ℤ) : Bool :=
  !o.fails && (w.kernel.holder pidfd.number).any fun (ticks, _) => ticks = pidfd.stamp

/-- One call, after what comes before it. -/
def call : Call → Decision → World → Reply × World
  | .pidfdOpen pid, o, w => ({ pidfd := w.pidfdOpen o pid }, w)
  | .stat pid, o, w => ({ stat := w.stat o pid }, w)
  | .getpgid pid, _, w => ({ number := (w.kernel.holder pid).map fun (_, a) => a.pgid }, w)
  | .getsid pid, _, w => ({ number := (w.kernel.holder pid).map fun (_, a) => a.sid }, w)
  | .environ pid, o, w => ({ environ := w.environ o pid }, w)
  | .iterdir, o, w => ({ pids := o.entries }, w)
  | .processPgrp pid, o, w => ({ number := w.processPgrp o pid }, w)
  | .drainSentinelMatches, o, w => ({ flag := o.drained }, w)
  | .pidfdSendSignal pidfd sig, o, w =>
    if w.delivers o pidfd then ({ flag := true }, { w with sent := w.sent ++ [(pidfd, sig)] })
    else ({}, w)

/-- Processes come and go. -/
def passed (w : World) (o : Decision) : World := { w with kernel := w.kernel.run may o.churn }

end World

def sem (c : Call) (o : Decision) (w : World) : Reply × World := World.call c o (w.passed o)

/-! ## The code -/

abbrev Code := Prog Call Reply Empty

def ask (c : Call) : Code Reply := .call c .ret

/-- `process_identity`. -/
def processIdentity (pid : ℤ) : Code (Option ProcessIdentity) := do
  if processIsZombie (← ask (.stat pid)).stat then return none
  else
    match procStartTicks (← ask (.stat pid)).stat with
    | none => return none
    | some startTimeTicks =>
      match (← ask (.getpgid pid)).number with
      | none => return none
      | some pgid =>
        match (← ask (.getsid pid)).number with
        | none => return none
        | some sid => return some { pid, pgid, sid, startTimeTicks }

/-- `process_absence_proven`. -/
def processAbsenceProven (pid : ℤ) (startTimeTicks : Option ℤ) : Code Bool := do
  return Liveness.processAbsenceProven (← ask (.stat pid)).stat startTimeTicks

/-- The loop of `_live_group_member_pids`. -/
def groupMembers (pgid : ℤ) : List ℤ → Code (List ℤ)
  | [] => return []
  | pid :: rest => do
    let pgrp := (← ask (.processPgrp pid)).number
    let found ← groupMembers pgid rest
    return if pgrp = some pgid then pid :: found else found

/-- `_live_group_member_pids`. -/
def liveGroupMemberPids (pgid : ℤ) : Code (List ℤ) := do groupMembers pgid (← ask .iterdir).pids

/-- The body of the loop of `_signal_exact_group`. -/
def signalMember (pgid : ℤ) (sig : Signal) (token : PyStr) (pid : ℤ) : Code Bool := do
  match (← ask (.pidfdOpen pid)).pidfd with
  | none => return false
  | some pidfd =>
    if (← ask (.processPgrp pid)).number ≠ some pgid then return false
    else if !processHasToken (← ask (.environ pid)).environ token then return false
    else return (← ask (.pidfdSendSignal pidfd sig)).flag

/-- The loop of `_signal_exact_group`. -/
def signalMembers (pgid : ℤ) (sig : Signal) (token : PyStr) : List ℤ → Code Bool
  | [] => return false
  | pid :: rest => do
    let attempted ← signalMember pgid sig token pid
    let others ← signalMembers pgid sig token rest
    return attempted || others

/-- `_signal_exact_group`. -/
def signalExactGroup (pgid : ℤ) (sig : Signal) (token : Option PyStr) : Code Bool :=
  match token with
  | none => return false
  | some token => do signalMembers pgid sig token (← liveGroupMemberPids pgid)

section Worker

variable (worker : WorkerMeta)

/-- `_worker_retirement_state`. -/
def workerRetirementState : Code (Option Bool) :=
  match worker.pid with
  | none => return some true
  | some pid => do
    match ← processIdentity pid with
    | none =>
      return if ← processAbsenceProven pid worker.startTimeTicks then some true else none
    | some identity =>
      return if identityMatches worker identity then some false
        else if worker.startTimeTicks.any (· ≠ identity.startTimeTicks) then some true
        else none

/-- `_wait_for_retirement`, with the turns before its deadline. -/
def waitForRetirement : ℕ → Code Bool
  | 0 => do return (← workerRetirementState worker) = some true
  | turns + 1 => do
    if (← workerRetirementState worker) = some true then return true else waitForRetirement turns

/-- The inner loop of `_wait_for_drain`, behind the drain sentinel. -/
def waitDrained : ℕ → Code Bool
  | 0 => return false
  | turns + 1 => do
    if (← workerRetirementState worker) = some true then return true else waitDrained turns

/-- `_wait_for_drain`, with the turns before its deadline. -/
def waitForDrain : ℕ → Code Bool
  | 0 => return false
  | turns + 1 => do
    if (← workerRetirementState worker) = some true then return true
    else
      match worker.token with
      | none => waitForDrain turns
      | some _ =>
        if (← ask .drainSentinelMatches).flag then waitDrained worker (turns + 1)
        else waitForDrain turns

variable (drainTurns retirementTurns : ℕ)

/-- `_stop_pinned`, for an identity that was read. -/
def stopIdentified (pid : ℤ) (identity : ProcessIdentity) : Code Bool :=
  if !identityMatches worker identity then return true
  else
    match worker.token with
    | none => return false
    | some token => do
      if !processHasToken (← ask (.environ pid)).environ token then return false
      else
        let _ ← signalExactGroup identity.pgid .SIGTERM worker.token
        if ← waitForDrain worker drainTurns then return true
        else if (← workerRetirementState worker) = some true then return true
        else
          let _ ← signalExactGroup identity.pgid .SIGKILL worker.token
          waitForRetirement worker retirementTurns

/-- `_stop_pinned`. -/
def stopPinned : Code Bool :=
  match worker.pid with
  | none => return true
  | some pid => do
    match ← processIdentity pid with
    | none => processAbsenceProven pid worker.startTimeTicks
    | some identity => stopIdentified worker drainTurns retirementTurns pid identity

/-- `stop_worker`. -/
def stopWorker : Code Bool :=
  match worker.pid with
  | none => return true
  | some pid => do
    match (← ask (.pidfdOpen pid)).pidfd with
    | none => processAbsenceProven pid worker.startTimeTicks
    | some _ => stopPinned worker drainTurns retirementTurns

end Worker

/-! ## What stays true -/

variable {worker : WorkerMeta} {token : Option PyStr} {id : Instance ℤ ℤ} {w w' : World}
  {α β : Type}

/-- **Who runs later ran before.** -/
theorem running_of_later {k k' : Kernel} (h : k.Later may k') (hid : k.Known id)
    (hruns : Running id k') : Running id k := by
  refine h.has_of (fun a a' hmay ha' => ?_) hid hruns
  simpa [may, ha'] using hmay

theorem Carried.later {k k' : Kernel} (h : k.Later may k') (hid : Carried token k id) :
    Carried token k' id := by
  obtain ⟨t, ht, a, ha, hmarker⟩ := hid
  exact ⟨t, ht, a, h.history ha, hmarker⟩

/-- The history is complete, and every signal went to a process that carried the token. -/
structure Good (token : Option PyStr) (w : World) : Prop where
  coherent : w.kernel.Coherent
  sent : ∀ s ∈ w.sent, Carried token w.kernel s.1

theorem Good.passed (h : Good token w) (o : Decision) :
    Good token (w.passed o) ∧ w.kernel.Later may (w.passed o).kernel := by
  obtain ⟨hcoherent, hlater⟩ : (w.passed o).kernel.Coherent ∧
      w.kernel.Later may (w.passed o).kernel := Population.run_later h.coherent o.churn
  exact ⟨⟨hcoherent, fun s hs => (h.sent s hs).later hlater⟩, hlater⟩

/-- The code keeps `Good`, and ends with `Q`. -/
abbrev Ensures (token : Option PyStr) (code : Code α) (Q : α → World → Prop) (w : World) : Prop :=
  code.Safe sem (Good token)
    (fun a w' => Good token w' ∧ w.kernel.Later may w'.kernel ∧ Q a w') (fun _ _ => True) w

section Rules

variable {Q : α → World → Prop} {R : β → World → Prop}

theorem Ensures.ret {a : α} (h : Good token w) (ha : Q a w) :
    Ensures token (pure a : Code α) Q w := ⟨h, .refl _, ha⟩

theorem Ensures.bind {code : Code α} {f : α → Code β} (h : Ensures token code Q w)
    (hf : ∀ a w', Good token w' → w.kernel.Later may w'.kernel → Q a w' →
      Ensures token (f a) R w') : Ensures token (code >>= f) R w := by
  refine Prog.Safe.bind (h.mono ?_ fun _ _ he => he)
  rintro a w' ⟨hgood, hlater, ha⟩
  exact (hf a w' hgood hlater ha).mono
    (fun _ _ ⟨hgood', hlater', hb⟩ => ⟨hgood', hlater.trans hlater', hb⟩) fun _ _ he => he

theorem Ensures.mono {R : α → World → Prop} {code : Code α} (h : Ensures token code Q w)
    (hR : ∀ a w', Good token w' → w.kernel.Later may w'.kernel → Q a w' → R a w') :
    Ensures token code R w :=
  Prog.Safe.mono h (fun a w' ⟨hgood, hlater, ha⟩ => ⟨hgood, hlater, hR a w' hgood hlater ha⟩)
    fun _ _ he => he

/-- A call that only looks. -/
theorem ensures_ask {c : Call} {Q : Reply → World → Prop} (h : Good token w)
    (hlooks : ∀ o w, (World.call c o w).2 = w)
    (hreply : ∀ o w', w'.kernel.Coherent → w.kernel.Later may w'.kernel →
      Q (World.call c o w').1 w') :
    Ensures token (ask c) Q w := by
  refine ⟨h, fun o => ?_⟩
  obtain ⟨hgood, hlater⟩ := h.passed o
  have hsame : (sem c o w).2 = w.passed o := hlooks o _
  show Good token (sem c o w).2 ∧ w.kernel.Later may (sem c o w).2.kernel ∧
    Q (sem c o w).1 (sem c o w).2
  rw [hsame]
  exact ⟨hgood, hlater, hreply o _ hgood.coherent hlater⟩

/-- A look of which nothing is asked. -/
theorem ensures_look {c : Call} (h : Good token w) (hlooks : ∀ o w, (World.call c o w).2 = w) :
    Ensures token (ask c) (fun _ _ => True) w :=
  ensures_ask h hlooks fun _ _ _ _ => trivial

/-- What holds when a run stops, wherever it does. -/
theorem Ensures.sound {code : Code α} (h : Ensures token code Q w) (decisions : List Decision) :
    Good token (code.run sem decisions w).1 ∧
      ∀ a, (code.run sem decisions w).2 = .returned a →
        w.kernel.Later may (code.run sem decisions w).1.kernel ∧
          Q a (code.run sem decisions w).1 := by
  obtain ⟨hgood, hreturned⟩ := Prog.Safe.sound h (fun _ _ hs => hs.1) (fun e => e.elim) decisions
  exact ⟨hgood, fun a ha => (hreturned a ha).2⟩

end Rules

/-! ## Looking for the worker -/

/-- The record was true of this instance of the worker, when it was made. -/
structure Recorded (worker : WorkerMeta) (id : Instance ℤ ℤ) (k : Kernel) : Prop where
  pid : worker.pid = some id.number
  startTimeTicks : ∀ ticks ∈ worker.startTimeTicks, id.stamp = ticks
  attributes : ∃ a, (id, a) ∈ k.history ∧ (∀ pgid ∈ worker.pgid, a.pgid = pgid) ∧
    (∀ sid ∈ worker.sid, a.sid = sid) ∧
      ∀ token ∈ worker.token, processHasToken (.entries a.environ) token = true

theorem Recorded.known {k : Kernel} (h : Recorded worker id k) : k.Known id := by
  obtain ⟨a, ha, -⟩ := h.attributes
  exact List.mem_map_of_mem ha

theorem Recorded.later {k k' : Kernel} (h : Recorded worker id k) (hlater : k.Later may k') :
    Recorded worker id k' := by
  obtain ⟨a, ha, hrest⟩ := h.attributes
  exact ⟨h.pid, h.startTimeTicks, a, hlater.history ha, hrest⟩

/-- A read of `stat` says of a running worker that it runs, or nothing. -/
theorem stat_of_running (o : Decision) (hticks : ∀ ticks ∈ worker.startTimeTicks, id.stamp = ticks)
    (hruns : Running id w.kernel) :
    (w.stat o id.number).OfRunning worker.startTimeTicks ∧
      ∀ ticks ∈ procStartTicks (w.stat o id.number), ticks = id.stamp := by
  obtain ⟨a, ha, hstate⟩ := hruns
  have hholder : w.kernel.holder id.number = some (id.stamp, a) := ha
  unfold World.stat
  rw [hholder]
  cases hfails : o.fails with
  | true => exact ⟨trivial, fun _ hno => by cases hno⟩
  | false => exact ⟨⟨hstate, hticks⟩, fun ticks ht => (Option.some.inj ht).symm⟩

section Worker

variable (hrec : Recorded worker id w.kernel) (h : Good token w)

include hrec h

theorem ensures_stat : Ensures token (ask (.stat id.number))
    (fun r w' => Running id w'.kernel → r.stat.OfRunning worker.startTimeTicks ∧
      ∀ ticks ∈ procStartTicks r.stat, ticks = id.stamp) w :=
  ensures_ask h (fun _ _ => rfl) fun o _ _ _ hruns =>
    stat_of_running o hrec.startTimeTicks hruns

/-- An absence that is proven is one. -/
theorem ensures_processAbsenceProven :
    Ensures token (processAbsenceProven id.number worker.startTimeTicks)
      (fun gone w' => gone = true → ¬ Running id w'.kernel) w := by
  refine (ensures_stat hrec h).bind fun r w' h _ hr => .ret h fun hgone hruns => ?_
  rw [processAbsenceProven_of_running (hr hruns).1] at hgone
  cases hgone

/-- An identity that is read while the worker runs is the worker's. -/
theorem ensures_processIdentity : Ensures token (processIdentity id.number)
    (fun found w' => Running id w'.kernel → ∀ identity ∈ found,
      identity.pid = id.number ∧ identity.startTimeTicks = id.stamp) w := by
  have hnothing : ∀ w, Good token w → Ensures token (pure none : Code (Option ProcessIdentity))
      (fun found w' => Running id w'.kernel → ∀ identity ∈ found,
        identity.pid = id.number ∧ identity.startTimeTicks = id.stamp) w :=
    fun w h => .ret h fun _ _ hno => by cases hno
  refine (ensures_stat hrec h).bind fun zombie w₁ h₁ hlater₁ _ => ?_
  have hrec₁ := hrec.later hlater₁
  cases processIsZombie zombie.stat with
  | true => exact hnothing w₁ h₁
  | false =>
    refine (ensures_stat hrec₁ h₁).bind fun start w₂ h₂ hlater₂ hstart => ?_
    have hrec₂ := hrec₁.later hlater₂
    cases hticks : procStartTicks start.stat with
    | none => exact hnothing w₂ h₂
    | some startTimeTicks =>
      refine (ensures_look h₂ fun _ _ => rfl).bind fun pgid w₃ h₃ hlater₃ _ => ?_
      cases pgid.number with
      | none => exact hnothing w₃ h₃
      | some pgid =>
        refine (ensures_look h₃ fun _ _ => rfl).bind fun sid w₄ h₄ hlater₄ _ => ?_
        cases sid.number with
        | none => exact hnothing w₄ h₄
        | some sid =>
          refine .ret h₄ fun hruns identity hidentity => ?_
          obtain rfl := Option.some.inj hidentity
          have hran := running_of_later (hlater₃.trans hlater₄) hrec₂.known hruns
          exact ⟨rfl, (hstart hran).2 startTimeTicks hticks⟩

/-- **The state of retirement** is never reported as reached while the worker runs. -/
theorem ensures_workerRetirementState : Ensures token (workerRetirementState worker)
    (fun state w' => state = some true → ¬ Running id w'.kernel) w := by
  unfold workerRetirementState
  rw [hrec.pid]
  refine (ensures_processIdentity hrec h).bind fun found w' h' hlater hfound => ?_
  cases found with
  | none =>
    refine (ensures_processAbsenceProven (hrec.later hlater) h').bind fun gone w'' h'' _ hgone =>
      .ret h'' fun hstate => ?_
    cases gone with
    | true => exact hgone rfl
    | false => cases hstate
  | some identity =>
    refine .ret h' fun hstate hruns => ?_
    obtain ⟨-, hstamp⟩ := hfound hruns identity rfl
    split_ifs at hstate with hmatches hother
    · cases hstate
    · obtain ⟨ticks, hticks, hne⟩ := (Option.any_eq_true _ _).1 hother
      have hsame := hrec.startTimeTicks ticks hticks
      rw [hstamp, hsame] at hne
      simp at hne

/-- Code that goes on until the worker has retired. -/
theorem ensures_untilRetired {code : Code Bool}
    (hcode : ∀ w', Good token w' → Recorded worker id w'.kernel →
      Ensures token code (fun done w'' => done = true → ¬ Running id w''.kernel) w') :
    Ensures token (do
        if (← workerRetirementState worker) = some true then return true else code)
      (fun done w' => done = true → ¬ Running id w'.kernel) w := by
  refine (ensures_workerRetirementState hrec h).bind fun state w' h' hlater hstate => ?_
  by_cases hgone : state = some true
  · rw [if_pos hgone]
    exact .ret h' fun _ => hstate hgone
  · rw [if_neg hgone]
    exact hcode w' h' (hrec.later hlater)

omit h hrec in
/-- Nothing is lost when a wait ends without a proof. -/
theorem ensures_false (h : Good token w) : Ensures token (pure false : Code Bool)
    (fun done w' => done = true → ¬ Running id w'.kernel) w :=
  .ret h fun hno => by cases hno

theorem ensures_waitForRetirement (turns : ℕ) : Ensures token (waitForRetirement worker turns)
    (fun done w' => done = true → ¬ Running id w'.kernel) w := by
  induction turns generalizing w with
  | zero =>
    exact (ensures_workerRetirementState hrec h).bind fun state w' h' _ hstate =>
      .ret h' fun hdone => hstate (of_decide_eq_true hdone)
  | succ turns ih => exact ensures_untilRetired hrec h fun w' h' hrec' => ih hrec' h'

theorem ensures_waitDrained (turns : ℕ) : Ensures token (waitDrained worker turns)
    (fun done w' => done = true → ¬ Running id w'.kernel) w := by
  induction turns generalizing w with
  | zero => exact ensures_false h
  | succ turns ih => exact ensures_untilRetired hrec h fun w' h' hrec' => ih hrec' h'

/-- A drain sentinel alone does not end the wait. -/
theorem ensures_waitForDrain (turns : ℕ) : Ensures token (waitForDrain worker turns)
    (fun done w' => done = true → ¬ Running id w'.kernel) w := by
  induction turns generalizing w with
  | zero => exact ensures_false h
  | succ turns ih =>
    refine ensures_untilRetired hrec h fun w' h' hrec' => ?_
    cases worker.token with
    | none => exact ih hrec' h'
    | some t =>
      refine (ensures_look h' fun _ _ => rfl).bind fun r w'' h'' hlater' _ => ?_
      cases r.flag with
      | true => exact ensures_waitDrained (hrec'.later hlater') h'' (turns + 1)
      | false => exact ih (hrec'.later hlater') h''

end Worker

/-! ## Signalling the group -/

theorem ensures_groupMembers (pgid : ℤ) (pids : List ℤ) (h : Good token w) :
    Ensures token (groupMembers pgid pids) (fun _ _ => True) w := by
  induction pids generalizing w with
  | nil => exact .ret h trivial
  | cons pid rest ih =>
    exact (ensures_look h fun _ _ => rfl).bind fun _ w' h' _ _ =>
      (ih h').bind fun _ w'' h'' _ _ => .ret h'' trivial

/-- Who shows the token carries it. -/
theorem ensures_environ (pid : ℤ) (t : PyStr) (h : Good token w) :
    Ensures token (ask (.environ pid)) (fun r w' => processHasToken r.environ t = true →
      ∃ ticks a, w'.kernel.Has ⟨pid, ticks⟩ a ∧
        processHasToken (.entries a.environ) t = true) w := by
  refine ensures_ask h (fun _ _ => rfl) fun o w' _ _ hmarker => ?_
  change processHasToken (w'.environ o pid) t = true at hmarker
  unfold World.environ at hmarker
  cases hholder : w'.kernel.holder pid with
  | none =>
    rw [hholder] at hmarker
    cases hmarker
  | some found =>
    obtain ⟨ticks, a⟩ := found
    rw [hholder] at hmarker
    refine ⟨ticks, a, hholder, ?_⟩
    cases hfails : o.fails with
    | true =>
      simp only [hfails, if_true] at hmarker
      cases hmarker
    | false =>
      by_cases hstate : a.state = .other
      · simpa [hfails, hstate] using hmarker
      · simp [hfails, hstate, processHasToken] at hmarker

/-- A signal is delivered only to the instance that was pinned, while it is there. -/
theorem ensures_pidfdSendSignal {pidfd : Instance ℤ ℤ} (sig : Signal) (h : Good token w)
    (hcarried : ∀ k', w.kernel.Later may k' → (∃ a, k'.Has pidfd a) → Carried token k' pidfd) :
    Ensures token (ask (.pidfdSendSignal pidfd sig)) (fun _ _ => True) w := by
  refine ⟨h, fun o => ?_⟩
  obtain ⟨hgood, hlater⟩ := h.passed o
  show Good token (sem _ o w).2 ∧ w.kernel.Later may (sem _ o w).2.kernel ∧ True
  unfold sem World.call
  by_cases hdelivers : (w.passed o).delivers o pidfd = true
  · simp only [hdelivers, if_true]
    refine ⟨⟨hgood.coherent, fun s hs => ?_⟩, hlater, trivial⟩
    rcases List.mem_append.1 hs with hs | hs
    · exact hgood.sent s hs
    · obtain rfl := List.mem_singleton.1 hs
      refine hcarried _ hlater ?_
      simp only [World.delivers, Bool.and_eq_true, Option.any_eq_true] at hdelivers
      obtain ⟨-, ⟨ticks, a⟩, hholder, hticks⟩ := hdelivers
      obtain rfl : ticks = pidfd.stamp := of_decide_eq_true hticks
      exact ⟨a, hholder⟩
  · simp only [hdelivers]
    exact ⟨hgood, hlater, trivial⟩

theorem ensures_signalMember (pgid : ℤ) (sig : Signal) (t : PyStr) (pid : ℤ)
    (h : Good (some t) w) :
    Ensures (some t) (signalMember pgid sig t pid) (fun _ _ => True) w := by
  have hpin : Ensures (some t) (ask (.pidfdOpen pid))
      (fun r w' => ∀ pidfd ∈ r.pidfd, pidfd.number = pid ∧ w'.kernel.Known pidfd) w := by
    refine ensures_ask h (fun _ _ => rfl) fun o w' hcoherent _ pidfd hpidfd => ?_
    change w'.pidfdOpen o pid = some pidfd at hpidfd
    unfold World.pidfdOpen at hpidfd
    cases hholder : w'.kernel.holder pid with
    | none =>
      rw [hholder] at hpidfd
      cases hpidfd
    | some found =>
      rw [hholder] at hpidfd
      cases hfails : o.fails with
      | true => simp [hfails] at hpidfd
      | false =>
        simp only [hfails] at hpidfd
        obtain rfl := Option.some.inj hpidfd
        exact ⟨rfl, hcoherent.known hholder⟩
  refine hpin.bind fun r w₁ h₁ _ hpidfd => ?_
  cases hfound : r.pidfd with
  | none => exact .ret h₁ trivial
  | some pidfd =>
    obtain ⟨rfl, hknown⟩ := hpidfd pidfd hfound
    refine (ensures_look h₁ fun _ _ => rfl).bind fun pgrp w₂ h₂ hlater₂ _ => ?_
    by_cases hpgrp : pgrp.number ≠ some pgid
    · rw [if_pos hpgrp]
      exact .ret h₂ trivial
    · rw [if_neg hpgrp]
      refine (ensures_environ pidfd.number t h₂).bind fun r w₃ h₃ hlater₃ henviron => ?_
      cases hmarker : processHasToken r.environ t with
      | false => exact .ret h₃ trivial
      | true =>
        obtain ⟨ticks, a, hhas, htoken⟩ := henviron hmarker
        refine (ensures_pidfdSendSignal sig h₃ fun k' hlater' ⟨a', hhas'⟩ => ?_).bind
          fun _ w₄ h₄ _ _ => .ret h₄ trivial
        -- Who is reached has held the number since it was pinned, and so when the token was read.
        obtain ⟨a₀, hhas₀, -⟩ := hlater'.has pidfd a' hhas' (hlater₃.known (hlater₂.known hknown))
        have hsame : some (ticks, a) = some (pidfd.stamp, a₀) := hhas.symm.trans hhas₀
        obtain ⟨rfl, rfl⟩ := Prod.mk.inj (Option.some.inj hsame)
        exact ⟨t, rfl, a, hlater'.history (h₃.coherent pidfd a hhas₀), htoken⟩

theorem ensures_signalMembers (pgid : ℤ) (sig : Signal) (t : PyStr) (pids : List ℤ)
    (h : Good (some t) w) :
    Ensures (some t) (signalMembers pgid sig t pids) (fun _ _ => True) w := by
  induction pids generalizing w with
  | nil => exact .ret h trivial
  | cons pid rest ih =>
    exact (ensures_signalMember pgid sig t pid h).bind fun _ w' h' _ _ =>
      (ih h').bind fun _ w'' h'' _ _ => .ret h'' trivial

/-- **Every signal goes to a process that carried the token.** -/
theorem ensures_signalExactGroup (pgid : ℤ) (sig : Signal) (h : Good token w) :
    Ensures token (signalExactGroup pgid sig token) (fun _ _ => True) w := by
  cases token with
  | none => exact .ret h trivial
  | some t =>
    have hpids : Ensures (some t) (liveGroupMemberPids pgid) (fun _ _ => True) w :=
      (ensures_look h fun _ _ => rfl).bind fun r w' h' _ _ => ensures_groupMembers pgid r.pids h'
    exact hpids.bind fun pids w' h' _ _ => ensures_signalMembers pgid sig t pids h'

/-! ## Stopping the worker -/

section Stop

variable (hrec : Recorded worker id w.kernel) (h : Good worker.token w)
  (drainTurns retirementTurns : ℕ)

include hrec h

/-- With an identity that matches, a worker that is reported stopped is gone. -/
theorem ensures_stopIdentified {identity : ProcessIdentity}
    (hmatches : identityMatches worker identity = true) :
    Ensures worker.token (stopIdentified worker drainTurns retirementTurns id.number identity)
      (fun stopped w' => stopped = true → ¬ Running id w'.kernel) w := by
  unfold stopIdentified
  rw [hmatches, Bool.not_true, if_neg Bool.false_ne_true]
  split
  · exact ensures_false h
  · rename_i t _
    refine (ensures_environ id.number t h).bind fun r w₁ h₁ hlater₁ _ => ?_
    have hrec₁ := hrec.later hlater₁
    cases processHasToken r.environ t with
    | false => exact ensures_false h₁
    | true =>
      refine (ensures_signalExactGroup identity.pgid .SIGTERM h₁).bind fun _ w₂ h₂ hlater₂ _ => ?_
      have hrec₂ := hrec₁.later hlater₂
      refine (ensures_waitForDrain hrec₂ h₂ drainTurns).bind
        fun drained w₃ h₃ hlater₃ hdrained => ?_
      have hrec₃ := hrec₂.later hlater₃
      cases drained with
      | true => exact .ret h₃ hdrained
      | false =>
        refine ensures_untilRetired hrec₃ h₃ fun w₄ h₄ hrec₄ => ?_
        exact (ensures_signalExactGroup identity.pgid .SIGKILL h₄).bind fun _ w₅ h₅ hlater₅ _ =>
          ensures_waitForRetirement (hrec₄.later hlater₅) h₅ retirementTurns

/-- The record has start ticks, and the identity is in the group and the session of the record,
where it has them. -/
structure Agrees (worker : WorkerMeta) (identity : ProcessIdentity) : Prop where
  startTimeTicks : worker.startTimeTicks.isSome = true
  pgid : ∀ pgid ∈ worker.pgid, identity.pgid = pgid
  sid : ∀ sid ∈ worker.sid, identity.sid = sid

omit h hrec in
/-- What `identity_matches` accepts. -/
theorem agrees_of_identityMatches {identity : ProcessIdentity}
    (hmatches : identityMatches worker identity = true) : Agrees worker identity := by
  unfold identityMatches at hmatches
  split at hmatches
  · cases hmatches
  · split_ifs at hmatches with hticks hpgid hsid
    rw [not_not] at hticks
    refine ⟨by rw [hticks]; rfl, fun pgid hp => ?_, fun sid hs => ?_⟩
    · by_contra hne
      exact hpgid ((Option.any_eq_true _ _).2 ⟨pgid, hp, by simpa using Ne.symm hne⟩)
    · by_contra hne
      exact hsid ((Option.any_eq_true _ _).2 ⟨sid, hs, by simpa using Ne.symm hne⟩)

omit h in
/-- What it accepts of the worker's own identities. -/
theorem identityMatches_of_agrees {identity : ProcessIdentity} (hpid : identity.pid = id.number)
    (hstamp : identity.startTimeTicks = id.stamp) (hagrees : Agrees worker identity) :
    identityMatches worker identity = true := by
  obtain ⟨ticks, hticks⟩ := Option.isSome_iff_exists.1 hagrees.startTimeTicks
  have hsame : worker.startTimeTicks = some identity.startTimeTicks := by
    rw [hticks, hstamp, hrec.startTimeTicks ticks hticks]
  have hpgid : ¬ worker.pgid.any (· ≠ identity.pgid) = true := by
    intro hany
    obtain ⟨pgid, hp, hne⟩ := (Option.any_eq_true _ _).1 hany
    simp [hagrees.pgid pgid hp] at hne
  have hsid : ¬ worker.sid.any (· ≠ identity.sid) = true := by
    intro hany
    obtain ⟨sid, hs, hne⟩ := (Option.any_eq_true _ _).1 hany
    simp [hagrees.sid sid hs] at hne
  unfold identityMatches
  rw [hrec.pid]
  show (if worker.startTimeTicks ≠ some identity.startTimeTicks then false else _) = true
  rw [if_neg (not_not.2 hsame), if_neg hpgid, if_neg hsid, hpid]
  exact decide_eq_true rfl

/-- Whatever it answers, it signals only those who carried the token. -/
theorem ensures_stopWorker :
    Ensures worker.token (stopWorker worker drainTurns retirementTurns) (fun _ _ => True) w := by
  have habsence : ∀ {w}, Recorded worker id w.kernel → Good worker.token w → Ensures worker.token
      (processAbsenceProven id.number worker.startTimeTicks) (fun _ _ => True) w :=
    fun hrec h => (ensures_processAbsenceProven hrec h).mono fun _ _ _ _ _ => trivial
  unfold stopWorker stopPinned
  rw [hrec.pid]
  refine (ensures_look h fun _ _ => rfl).bind fun r w₁ h₁ hlater₁ _ => ?_
  have hrec₁ := hrec.later hlater₁
  cases r.pidfd with
  | none => exact habsence hrec₁ h₁
  | some pidfd =>
    refine (ensures_processIdentity hrec₁ h₁).bind fun found w₂ h₂ hlater₂ _ => ?_
    have hrec₂ := hrec₁.later hlater₂
    cases found with
    | none => exact habsence hrec₂ h₂
    | some identity =>
      cases hmatches : identityMatches worker identity with
      | true =>
        exact (ensures_stopIdentified hrec₂ h₂ drainTurns retirementTurns hmatches).mono
          fun _ _ _ _ _ => trivial
      | false =>
        show Ensures worker.token (stopIdentified ..) _ w₂
        unfold stopIdentified
        rw [hmatches]
        exact .ret h₂ trivial

end Stop

/-! ## When a stopped worker is gone -/

/-- A worker, its record, and the processes at the time of the call. -/
structure Scene where
  worker : WorkerMeta
  id : Instance ℤ ℤ
  kernel : Kernel
  coherent : kernel.Coherent
  recorded : Recorded worker id kernel

/-- Nothing is signalled yet. -/
def Scene.start (scene : Scene) : World := ⟨scene.kernel, []⟩

/-- A call of `stop_worker`, as far as the decisions go. -/
def Scene.stop (scene : Scene) (drainTurns retirementTurns : ℕ) (decisions : List Decision) :
    World × Prog.End Empty Bool :=
  (stopWorker scene.worker drainTurns retirementTurns).run sem decisions scene.start

/-- A worker that is reported stopped runs no more, and every signal went to a process that carried
the token. -/
structure Honest (scene : Scene) (result : World × Prog.End Empty Bool) : Prop where
  retired : result.2 = .returned true → ¬ Running scene.id result.1.kernel
  signalled : ∀ s ∈ result.1.sent, Carried scene.worker.token result.1.kernel s.1

/-- The pin and the read of the identity, with which the call begins. -/
def observe (pid : ℤ) : Code (Option ProcessIdentity) := do
  match (← ask (.pidfdOpen pid)).pidfd with
  | none => return none
  | some _ => processIdentity pid

/-- The identity that is read behind the pin, if there is one. -/
def Scene.observed (scene : Scene) (decisions : List Decision) : Option ProcessIdentity :=
  match ((observe scene.id.number).run sem decisions scene.start).2 with
  | .returned found => found
  | _ => none

section Honest

variable {scene : Scene} {drainTurns retirementTurns : ℕ}

/-- Behind the identity, a worker that runs is reported stopped exactly where its record does not
agree with what was read. -/
theorem retired_identified_iff {w : World} {identity : ProcessIdentity}
    (hrec : Recorded scene.worker scene.id w.kernel) (h : Good scene.worker.token w)
    (hidentity : Running scene.id w.kernel →
      identity.pid = scene.id.number ∧ identity.startTimeTicks = scene.id.stamp)
    (decisions : List Decision) {result : World × Prog.End Empty Bool}
    (hresult : result = (stopIdentified scene.worker drainTurns retirementTurns scene.id.number
      identity).run sem decisions w) :
    (result.2 = .returned true → ¬ Running scene.id result.1.kernel) ↔
      (Running scene.id result.1.kernel → Agrees scene.worker identity) := by
  by_cases hmatches : identityMatches scene.worker identity = true
  · have hensures := ensures_stopIdentified hrec h drainTurns retirementTurns hmatches
    obtain ⟨-, hreturned⟩ := hensures.sound decisions
    rw [← hresult] at hreturned
    exact iff_of_true (fun hdone => (hreturned true hdone).2 rfl) fun _ =>
      agrees_of_identityMatches hmatches
  · have hstops : result = (w, .returned true) := by
      rw [hresult, stopIdentified, Bool.eq_false_of_not_eq_true hmatches]
      rfl
    rw [hstops]
    constructor
    · exact fun hgone hruns => absurd hruns (hgone rfl)
    · intro hagrees _ hruns
      obtain ⟨hpid, hstamp⟩ := hidentity hruns
      exact hmatches (identityMatches_of_agrees hrec hpid hstamp (hagrees hruns))

/-- A proven absence, wherever its run stops. -/
theorem retired_absent {w : World} (hrec : Recorded scene.worker scene.id w.kernel)
    (h : Good scene.worker.token w) (decisions : List Decision)
    {result : World × Prog.End Empty Bool}
    (hresult : result =
      (processAbsenceProven scene.id.number scene.worker.startTimeTicks).run sem decisions w) :
    result.2 = .returned true → ¬ Running scene.id result.1.kernel := by
  intro hdone
  obtain ⟨-, hreturned⟩ := (ensures_processAbsenceProven hrec h).sound decisions
  rw [← hresult] at hreturned
  exact (hreturned true hdone).2 rfl

/-- **A worker that `stop_worker` reports stopped is gone**, unless it runs and its record does not
agree with the identity that was read behind the pin. -/
theorem stopWorker_honest_iff (scene : Scene) (drainTurns retirementTurns : ℕ)
    (decisions : List Decision) :
    Honest scene (scene.stop drainTurns retirementTurns decisions) ↔
      (Running scene.id (scene.stop drainTurns retirementTurns decisions).1.kernel →
        ∀ identity ∈ scene.observed decisions, Agrees scene.worker identity) := by
  have hrec := scene.recorded
  have h : Good scene.worker.token scene.start :=
    ⟨scene.coherent, fun s hs => by cases hs⟩
  have hsignalled := ((ensures_stopWorker hrec h drainTurns retirementTurns).sound decisions).1.sent
  suffices hretired : ((scene.stop drainTurns retirementTurns decisions).2 = .returned true →
      ¬ Running scene.id (scene.stop drainTurns retirementTurns decisions).1.kernel) ↔
        (Running scene.id (scene.stop drainTurns retirementTurns decisions).1.kernel →
          ∀ identity ∈ scene.observed decisions, Agrees scene.worker identity) from
    ⟨fun hhonest => hretired.1 hhonest.retired, fun hagrees => ⟨hretired.2 hagrees, hsignalled⟩⟩
  generalize hresult : scene.stop drainTurns retirementTurns decisions = result
  unfold Scene.stop stopWorker stopPinned at hresult
  unfold Scene.observed
  rw [hrec.pid] at hresult
  cases decisions with
  | nil =>
    subst hresult
    exact iff_of_true (fun hno => by cases hno) fun _ _ hno => by cases hno
  | cons o decisions =>
    obtain ⟨h₁, hlater₁⟩ : Good scene.worker.token (scene.start.passed o) ∧
        scene.start.kernel.Later may (scene.start.passed o).kernel := h.passed o
    have hrec₁ := hrec.later hlater₁
    -- The first call opens the pin.
    show _ ↔ (_ → ∀ identity ∈ (match
      ((match (scene.start.passed o).pidfdOpen o scene.id.number with
        | none => pure none
        | some _ => processIdentity scene.id.number : Code (Option ProcessIdentity)).run sem
          decisions (scene.start.passed o)).2 with
      | .returned found => found
      | _ => none), Agrees scene.worker identity)
    change (match (scene.start.passed o).pidfdOpen o scene.id.number with
      | none => processAbsenceProven scene.id.number scene.worker.startTimeTicks
      | some _ => _ : Code Bool).run sem decisions (scene.start.passed o) = result at hresult
    generalize scene.start.passed o = w₁ at h₁ hrec₁ hresult ⊢
    cases hpinned : w₁.pidfdOpen o scene.id.number with
    | none =>
      rw [hpinned] at hresult
      exact iff_of_true (retired_absent hrec₁ h₁ decisions hresult.symm) fun _ _ hno => by cases hno
    | some pidfd =>
      rw [hpinned] at hresult
      have hidentity := (ensures_processIdentity hrec₁ h₁).sound decisions
      cases hread : ((processIdentity scene.id.number).run sem decisions w₁).2 with
      | raised e => exact e.elim
      | interrupted =>
        refine iff_of_true (fun hdone => ?_) fun _ _ hno => ?_
        · subst hresult
          obtain ⟨found, rest, hreturned, -⟩ := Prog.run_bind_returned hdone
          rw [hread] at hreturned
          cases hreturned
        · cases hno
      | returned found =>
        obtain ⟨h₂, hreturned⟩ := hidentity
        obtain ⟨hlater₂, hfound⟩ := hreturned found hread
        have hrec₂ := hrec₁.later hlater₂
        let settle : Option ProcessIdentity → Code Bool := fun
          | none => processAbsenceProven scene.id.number scene.worker.startTimeTicks
          | some identity =>
            stopIdentified scene.worker drainTurns retirementTurns scene.id.number identity
        obtain ⟨rest, hrest⟩ := Prog.run_bind_of_returned (f := settle) hread
        have hresult' := hresult.symm.trans hrest
        cases found with
        | none =>
          exact iff_of_true (retired_absent hrec₂ h₂ rest hresult') fun _ _ hno => by cases hno
        | some identity =>
          have hiff := retired_identified_iff hrec₂ h₂ (fun hruns => hfound hruns identity rfl) rest
            hresult'
          rw [hiff]
          constructor
          · intro hagrees hruns found hsame
            obtain rfl := Option.some.inj hsame
            exact hagrees hruns
          · exact fun hagrees hruns => hagrees hruns identity rfl

end Honest

/-! ## A record without start ticks -/

/-- A worker that leads its group and its session. -/
def leader : Process where
  state := .other
  pgid := 8
  sid := 8
  environ := ["LUBKO_LIFECYCLE_TOKEN=t1"]

/-- Its metadata, as `meta.json` has it. -/
def untickedMembers : List (PyStr × Json) :=
  [entry "schema_version" (.int 1), entry "state" (.str "running"), entry "pid" (.int 8),
    entry "pgid" (.int 8), entry "sid" (.int 8), entry "token" (.str "t1")]

def untickedWorker : WorkerMeta where
  schemaVersion := 1
  state := .running
  pid := some 8
  pgid := some 8
  sid := some 8
  startTimeTicks := none
  token := some "t1"
  repo := []
  gitCommit := none
  workerId := none
  logPath := []
  startedAt := none
  stoppedAt := none

/-- The worker runs, and nothing else does. -/
def untickedScene : Scene where
  worker := untickedWorker
  id := ⟨8, 10⟩
  kernel := Population.place ⟨fun _ => none, []⟩ ⟨8, 10⟩ leader
  coherent := Population.Coherent.place fun _ _ hno => by cases hno
  recorded :=
    { pid := rfl
      startTimeTicks := fun _ hno => by cases hno
      attributes := by
        refine ⟨leader, List.mem_cons_self, ?_, ?_, ?_⟩
        · exact fun _ h => Option.some.inj h
        · exact fun _ h => Option.some.inj h
        · intro token h
          obtain rfl := Option.some.inj h
          decide }

/-- The metadata is accepted, and the running worker is reported stopped. -/
theorem worker_without_ticks_reported_stopped :
    (∀ py, WorkerMeta.fromDict py (memberOf untickedMembers) = .ok untickedScene.worker) ∧
      ¬ Honest untickedScene (untickedScene.stop 0 0 (List.replicate 5 {})) := by
  refine ⟨fun py => rfl, fun hhonest => ?_⟩
  exact hhonest.retired rfl ⟨leader, rfl, rfl⟩

end Lubko.Supervise.Stopping
