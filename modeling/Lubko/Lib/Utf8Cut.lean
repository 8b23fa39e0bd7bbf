import Lubko.Lib.Utf8Text

/-!
# Decoding a cut range

Decoding with replacement consumes its input in units: a complete sequence, a byte that starts none,
or a sequence cut short, with the bytes that continue it. A unit is read from its own bytes and the
absence of one more. So the decoder at a cut is in one of two states: between two units, where it
has seen the same units as before, or inside one, where it emits one replacement character for the
part it has seen.

* `decodeReplace_cons` — the units one behind the other.
* `decodeUnit_cases`, `decodeUnit_take` — the kinds of units, and a unit of a cut range.
-/

namespace Lubko.Lib

/-- Skipped bytes are dropped. -/
theorem decodeFrom_eq (skip : ℕ) (data : List UInt8) :
    decodeFrom skip data = decodeReplace (data.drop skip) := by
  induction data generalizing skip with
  | nil => rw [List.drop_nil, decodeReplace, decodeFrom, decodeFrom]
  | cons b bs ih =>
    cases skip with
    | zero => rfl
    | succ skip =>
      rw [decodeFrom, List.drop_succ_cons]
      exact ih skip

/-- **The units of a range**, one behind the other. -/
theorem decodeReplace_cons (b : UInt8) (bs : List UInt8) : decodeReplace (b :: bs) =
    (decodeUnit b bs).2 :: decodeReplace (bs.drop ((decodeUnit b bs).1 - 1)) := by
  rw [decodeReplace, decodeFrom, decodeFrom_eq]

theorem continuationRun_take (lead : UInt8) (bs : List UInt8) (j : ℕ) :
    continuationRun lead (bs.take j) = (continuationRun lead bs).take j := by
  cases bs with
  | nil => simp
  | cons b bs =>
    cases j with
    | zero => simp
    | succ j =>
      rw [List.take_succ_cons, continuationRun_cons, continuationRun_cons]
      split_ifs
      · rw [List.take_succ_cons, List.take_takeWhile]
      · rw [List.take_nil]

/-- The bytes of a run continue a sequence. -/
theorem isContinuation_of_mem_run {lead c : UInt8} {bs : List UInt8}
    (h : c ∈ continuationRun lead bs) : isContinuation c = true := by
  rcases continuationRun_cases lead bs with hnil | ⟨b, tl, hcons, hsecond, htl⟩
  · rw [hnil] at h
    cases h
  · rw [hcons] at h
    rcases List.mem_cons.1 h with rfl | hmem
    · rw [isSecond, Bool.and_eq_true] at hsecond
      exact hsecond.1
    · exact htl c hmem

theorem sequenceLength_of_continuation {b : UInt8} (h : isContinuation b = true) :
    sequenceLength b = 0 := by
  simp only [isContinuation, Bool.and_eq_true, decide_eq_true_eq] at h
  unfold sequenceLength
  split_ifs <;> omega

/-- A unit from the run behind its lead. -/
theorem decodeUnit_eq {b : UInt8} {bs run : List UInt8}
    (h : continuationRun b (bs.take (sequenceLength b - 1)) = run) : decodeUnit b bs =
      if sequenceLength b ≠ 0 ∧ run.length = sequenceLength b - 1 then
        (sequenceLength b, Fin.ofNat _ (sequenceValue b run))
      else (1 + run.length, replacement) := by
  rw [← h]
  rfl

/-- **The kinds of units**: a complete sequence, a byte that starts none, and a sequence cut short,
with all the bytes that continue it. -/
theorem decodeUnit_cases (b : UInt8) (bs : List UInt8) :
    (∃ cont rest, bs = cont ++ rest ∧ IsSequence b cont ∧ (decodeUnit b bs).1 = cont.length + 1) ∨
      (sequenceLength b = 0 ∧ decodeUnit b bs = (1, replacement)) ∨
      ((continuationRun b bs).length + 1 < sequenceLength b ∧
        decodeUnit b bs = ((continuationRun b bs).length + 1, replacement)) := by
  have hrun := continuationRun_take b bs (sequenceLength b - 1)
  have hlength : ((continuationRun b bs).take (sequenceLength b - 1)).length =
      min (sequenceLength b - 1) (continuationRun b bs).length := List.length_take
  by_cases hzero : sequenceLength b = 0
  · refine .inr (.inl ⟨hzero, ?_⟩)
    simp [decodeUnit, hzero]
  · by_cases hlong : sequenceLength b - 1 ≤ (continuationRun b bs).length
    · -- the bytes behind the lead are all of the run
      have hprefix := continuationRun_prefix b (bs.take (sequenceLength b - 1))
      have htake := List.length_take_le (sequenceLength b - 1) bs
      rw [hrun] at hprefix
      have hcont := hprefix.eq_of_length_le (by omega)
      rw [hcont] at hlength
      refine .inl ⟨bs.take (sequenceLength b - 1), bs.drop (sequenceLength b - 1),
        (List.take_append_drop _ _).symm, ⟨by omega, hrun.trans hcont⟩, ?_⟩
      have hone : (decodeUnit b bs).1 = sequenceLength b := by
        rw [decodeUnit_eq (hrun.trans hcont), if_pos ⟨hzero, by omega⟩]
      omega
    · refine .inr (.inr ⟨by omega, ?_⟩)
      have hall : (continuationRun b bs).take (sequenceLength b - 1) = continuationRun b bs :=
        List.take_of_length_le (by omega)
      rw [decodeUnit_eq (hrun.trans hall), if_neg (by omega), Nat.add_comm]

theorem decodeUnit_pos (b : UInt8) (bs : List UInt8) : 0 < (decodeUnit b bs).1 := by
  rcases decodeUnit_cases b bs with ⟨cont, rest, -, -, hunit⟩ | ⟨-, hunit⟩ | ⟨-, hunit⟩
  · omega
  · rw [hunit]
    exact one_pos
  · rw [hunit]
    exact Nat.succ_pos _

/-- Induction over the units of a range. -/
theorem unit_induction {P : List UInt8 → Prop} (nil : P [])
    (cons : ∀ b bs, P (bs.drop ((decodeUnit b bs).1 - 1)) → P (b :: bs)) (data : List UInt8) :
    P data := by
  induction hn : data.length using Nat.strong_induction_on generalizing data with
  | _ n ih =>
    cases data with
    | nil => exact nil
    | cons b bs =>
      refine cons b bs (ih _ ?_ _ rfl)
      rw [List.length_cons] at hn
      rw [List.length_drop]
      omega

/-- **The unit of a cut range**: the same one where the cut is behind it, else one replacement
character for what is left of it. -/
theorem decodeUnit_take (b : UInt8) (bs : List UInt8) (j : ℕ) : decodeUnit b (bs.take j) =
    if (decodeUnit b bs).1 ≤ j + 1 then decodeUnit b bs else (j + 1, replacement) := by
  have hrun := continuationRun_take b bs (sequenceLength b - 1)
  have hcut : continuationRun b ((bs.take j).take (sequenceLength b - 1)) =
      ((continuationRun b bs).take (sequenceLength b - 1)).take j := by
    rw [List.take_take, continuationRun_take, List.take_take, min_comm]
  have hlength : ((continuationRun b bs).take (sequenceLength b - 1)).length ≤
      sequenceLength b - 1 := List.length_take_le _ _
  rw [decodeUnit_eq hcut, decodeUnit_eq hrun]
  generalize (continuationRun b bs).take (sequenceLength b - 1) = run at hlength
  have hpart : (run.take j).length = min j run.length := List.length_take
  by_cases hbehind : run.length ≤ j
  · rw [List.take_of_length_le hbehind]
    split_ifs with hcomplete hle hle <;> first | rfl | (dsimp only at hle; omega)
  · have hleft : ¬ (sequenceLength b ≠ 0 ∧ (run.take j).length = sequenceLength b - 1) := by
      omega
    have hright : ¬ (if sequenceLength b ≠ 0 ∧ run.length = sequenceLength b - 1 then
        (sequenceLength b, (Fin.ofNat _ (sequenceValue b run) : CodePoint))
        else (1 + run.length, replacement)).1 ≤ j + 1 := by
      split_ifs <;> dsimp only <;> omega
    rw [if_neg hleft, if_neg hright, hpart, min_eq_left (by omega), Nat.add_comm]

end Lubko.Lib
