import Mathlib.Data.List.Basic
import Mathlib.Logic.Function.Basic
import Mathlib.Logic.Relation

/-!
# Instances that share their numbers

Things come and go under numbers that are given again: processes under a pid, connections under a
slot. An instance is a number with a stamp, and the same instance never starts twice. While it is
there it has attributes, which change as `may` allows.

* `Later` — what a later population tells about an earlier one.
* `run_later` — events lead to later populations.
* `Later.has_of` — an instance that is there later was there before, if it was known.
-/

namespace Lubko.Lib

/-- A number, and when it was given. -/
structure Instance (ν τ : Type) where
  number : ν
  stamp : τ
  deriving DecidableEq

/-- Who is there. -/
structure Population (ν τ α : Type) where
  /-- Who has the number, with its attributes. -/
  holder : ν → Option (τ × α)
  /-- Every instance there was, with all the attributes it had. -/
  history : List (Instance ν τ × α)

namespace Population

variable {ν τ α : Type}

/-- What happens to instances. -/
inductive Event (ν τ α : Type) where
  | start (id : Instance ν τ) (a : α)
  | become (number : ν) (a : α)
  | leave (number : ν)

/-- The instance is there, with these attributes. -/
def Has (p : Population ν τ α) (id : Instance ν τ) (a : α) : Prop :=
  p.holder id.number = some (id.stamp, a)

/-- The instance was there at some time. -/
def Known (p : Population ν τ α) (id : Instance ν τ) : Prop := id ∈ p.history.map Prod.fst

/-- The history knows of everyone. -/
def Coherent (p : Population ν τ α) : Prop := ∀ id a, p.Has id a → (id, a) ∈ p.history

section Events

variable [DecidableEq ν] [DecidableEq τ]

def place (p : Population ν τ α) (id : Instance ν τ) (a : α) : Population ν τ α where
  holder := Function.update p.holder id.number (some (id.stamp, a))
  history := (id, a) :: p.history

/-- One event, if it can happen. -/
def step (may : α → α → Bool) (p : Population ν τ α) :
    Event ν τ α → Option (Population ν τ α)
  | .start id a =>
    if (p.holder id.number).isNone ∧ id ∉ p.history.map Prod.fst then some (p.place id a) else none
  | .become number a' =>
    (p.holder number).bind fun (stamp, a) =>
      if may a a' then some (p.place ⟨number, stamp⟩ a') else none
  | .leave number =>
    (p.holder number).map fun _ => { p with holder := Function.update p.holder number none }

/-- The events in turn; one that cannot happen does not. -/
def run (may : α → α → Bool) (p : Population ν τ α) (events : List (Event ν τ α)) :
    Population ν τ α :=
  events.foldl (fun p e => (p.step may e).getD p) p

end Events

/-- What is there later, and was known before, was there before; attributes change as they may. -/
structure Later (may : α → α → Bool) (p p' : Population ν τ α) : Prop where
  history : p.history ⊆ p'.history
  has : ∀ id a', p'.Has id a' → p.Known id →
    ∃ a, p.Has id a ∧ Relation.ReflTransGen (fun a a' => may a a' = true) a a'

section Lemmas

variable {may : α → α → Bool} {p p' p'' : Population ν τ α} {id : Instance ν τ} {a : α}

theorem Coherent.known (hp : p.Coherent) (h : p.Has id a) : p.Known id :=
  List.mem_map_of_mem (hp id a h)

theorem Later.known (h : p.Later may p') (hid : p.Known id) : p'.Known id := by
  obtain ⟨entry, hentry, hfst⟩ := List.mem_map.1 hid
  exact List.mem_map.2 ⟨entry, h.history hentry, hfst⟩

theorem Later.refl (p : Population ν τ α) : p.Later may p :=
  ⟨fun _ h => h, fun _ a' h _ => ⟨a', h, .refl⟩⟩

theorem Later.trans (h : p.Later may p') (h' : p'.Later may p'') : p.Later may p'' := by
  refine ⟨fun _ hx => h'.history (h.history hx), fun id a'' hhas hknown => ?_⟩
  obtain ⟨a', hhas', hto'⟩ := h'.has id a'' hhas (h.known hknown)
  obtain ⟨a, hhas₀, hto⟩ := h.has id a' hhas' hknown
  exact ⟨a, hhas₀, hto.trans hto'⟩

/-- **An instance that is there later was there before.** What no change can bring about it had
already. -/
theorem Later.has_of {P : α → Prop} (hP : ∀ a a', may a a' = true → P a' → P a)
    (h : p.Later may p') (hknown : p.Known id) (hlater : ∃ a', p'.Has id a' ∧ P a') :
    ∃ a, p.Has id a ∧ P a := by
  obtain ⟨a', hhas', hPa'⟩ := hlater
  obtain ⟨a, hhas, hto⟩ := h.has id a' hhas' hknown
  exact ⟨a, hhas, hto.head_induction_on hPa' fun hmay _ ih => hP _ _ hmay ih⟩

variable [DecidableEq ν]

theorem has_place {other : Instance ν τ} {b : α} :
    (p.place id a).Has other b ↔
      other = id ∧ b = a ∨ other.number ≠ id.number ∧ p.Has other b := by
  obtain ⟨number, stamp⟩ := id
  obtain ⟨number', stamp'⟩ := other
  show Function.update p.holder number (some (stamp, a)) number' = some (stamp', b) ↔ _
  by_cases h : number' = number
  · rw [h, Function.update_self]
    constructor
    · intro hsome
      obtain ⟨rfl, rfl⟩ := Prod.mk.inj (Option.some.inj hsome)
      exact .inl ⟨rfl, rfl⟩
    · rintro (⟨hid, rfl⟩ | ⟨hno, -⟩)
      · cases hid
        rfl
      · exact absurd rfl hno
  · rw [Function.update_of_ne h]
    constructor
    · exact fun hhas => .inr ⟨h, hhas⟩
    · rintro (⟨hid, -⟩ | ⟨-, hhas⟩)
      · cases hid
        exact absurd rfl h
      · exact hhas

theorem Coherent.place (hp : p.Coherent) : (p.place id a).Coherent := by
  intro other b h
  rcases has_place.1 h with ⟨rfl, rfl⟩ | ⟨-, hhas⟩
  · exact List.mem_cons_self
  · exact List.mem_cons_of_mem _ (hp other b hhas)

variable [DecidableEq τ]

/-- **One event.** -/
theorem step_later {e : Event ν τ α} (hp : p.Coherent) (h : p.step may e = some p') :
    p'.Coherent ∧ p.Later may p' := by
  cases e with
  | start id a =>
    rw [step] at h
    split_ifs at h with hfree
    obtain rfl := Option.some.inj h
    refine ⟨hp.place, fun _ => List.mem_cons_of_mem _, fun other b hhas hknown => ?_⟩
    rcases has_place.1 hhas with ⟨rfl, -⟩ | ⟨-, hhas⟩
    · exact absurd hknown hfree.2
    · exact ⟨b, hhas, .refl⟩
  | become number a' =>
    obtain ⟨⟨stamp, a⟩, hholder, h⟩ := Option.bind_eq_some_iff.1 h
    change (if may a a' then some (p.place ⟨number, stamp⟩ a') else none) = some p' at h
    split_ifs at h with hmay
    obtain rfl := Option.some.inj h
    refine ⟨hp.place, fun _ => List.mem_cons_of_mem _, fun other b hhas _ => ?_⟩
    rcases has_place.1 hhas with ⟨rfl, rfl⟩ | ⟨-, hhas⟩
    · exact ⟨a, hholder, .single hmay⟩
    · exact ⟨b, hhas, .refl⟩
  | leave number =>
    obtain ⟨_, _, rfl⟩ := Option.map_eq_some_iff.1 h
    have hkept : ∀ id a, Has { p with holder := Function.update p.holder number none } id a →
        p.Has id a := by
      intro id a hhas
      by_cases hnumber : id.number = number
      · have hnone : Function.update p.holder number none id.number = some (id.stamp, a) := hhas
        rw [hnumber, Function.update_self] at hnone
        cases hnone
      · have hsome : Function.update p.holder number none id.number = some (id.stamp, a) := hhas
        rwa [Function.update_of_ne hnumber] at hsome
    exact ⟨fun id a hhas => hp id a (hkept id a hhas), fun _ h => h,
      fun id a hhas _ => ⟨a, hkept id a hhas, .refl⟩⟩

theorem run_later (hp : p.Coherent) (events : List (Event ν τ α)) :
    (p.run may events).Coherent ∧ p.Later may (p.run may events) := by
  induction events generalizing p with
  | nil => exact ⟨hp, .refl p⟩
  | cons e events ih =>
    have hstep : ((p.step may e).getD p).Coherent ∧ p.Later may ((p.step may e).getD p) := by
      cases hnext : p.step may e with
      | none => exact ⟨hp, .refl p⟩
      | some p' => exact step_later hp hnext
    obtain ⟨hcoherent, hlater⟩ := ih hstep.1
    exact ⟨hcoherent, hstep.2.trans hlater⟩

end Lemmas

end Population

end Lubko.Lib
