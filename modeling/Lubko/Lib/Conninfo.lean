import Lubko.Lib.PyStr
import Mathlib.Data.List.TakeWhile

/-!
# Connection strings

The `keyword=value` strings libpq reads: a value in single quotes, or one that ends at whitespace; a
backslash takes the next character as it is. Keywords are not checked against those libpq knows.

* `quotedFrom_escape` — a value with quotes and backslashes escaped is read back.
* `settingsFrom_quoted`, `settingsFrom_bare` — one setting before others.
-/

namespace Lubko.Lib.Conninfo

/-- `isspace`, on ASCII. -/
def isBlank (c : CodePoint) : Bool := (0x09 ≤ c.val && c.val ≤ 0x0d) || c.val = 0x20

/-- A value behind its opening quote, escaped or not at its first character, and the text behind its
closing quote; `none` is an unterminated string. -/
def quotedFrom : Bool → PyStr → Option (PyStr × PyStr)
  | _, [] => none
  | true, c :: text => (quotedFrom false text).map fun r => (c :: r.1, r.2)
  | false, c :: text =>
    if c = CodePoint.ofChar '\\' then quotedFrom true text
    else if c = CodePoint.ofChar '\'' then some ([], text)
    else (quotedFrom false text).map fun r => (c :: r.1, r.2)

/-- A value that ends at whitespace, and the text behind it. -/
def bareFrom : Bool → PyStr → PyStr × PyStr
  | _, [] => ([], [])
  | true, c :: text => (c :: (bareFrom false text).1, (bareFrom false text).2)
  | false, c :: text =>
    if isBlank c then ([], text)
    else if c = CodePoint.ofChar '\\' then bareFrom true text
    else (c :: (bareFrom false text).1, (bareFrom false text).2)

/-- A character of a keyword. -/
def inKeyword (c : CodePoint) : Bool := c ≠ CodePoint.ofChar '=' && !isBlank c

/-- The value behind an equals sign, and the text behind it. -/
def valueFrom (text : PyStr) : Option (PyStr × PyStr) :=
  match text.dropWhile isBlank with
  | [] => some ([], [])
  | c :: rest =>
    if c = CodePoint.ofChar '\'' then quotedFrom false rest else some (bareFrom false (c :: rest))

/-- The loop of `conninfo_parse`. -/
def settingsFrom : ℕ → PyStr → Option (List (PyStr × PyStr))
  | 0, _ => none
  | fuel + 1, text =>
    match text.dropWhile isBlank with
    | [] => some []
    | c :: rest =>
      match ((c :: rest).dropWhile inKeyword).dropWhile isBlank with
      | [] => none
      | sign :: behind =>
        if sign = CodePoint.ofChar '=' then
          (valueFrom behind).bind fun value =>
            (settingsFrom fuel value.2).map (((c :: rest).takeWhile inKeyword, value.1) :: ·)
        else none

/-- `conninfo_parse`, on a C string. -/
def parse (text : PyStr) : Option (List (PyStr × PyStr)) :=
  settingsFrom (text.length + 1) (text.takeWhile (· ≠ 0))

/-- A value with its quotes and backslashes escaped. -/
def escape (value : PyStr) : PyStr :=
  value.flatMap fun c =>
    if c = CodePoint.ofChar '\\' ∨ c = CodePoint.ofChar '\'' then [CodePoint.ofChar '\\', c]
    else [c]

theorem settingsFrom_mono {fuel fuel' : ℕ} {text : PyStr} {settings : List (PyStr × PyStr)}
    (h : settingsFrom fuel text = some settings) (hle : fuel ≤ fuel') :
    settingsFrom fuel' text = some settings := by
  induction fuel generalizing fuel' text settings with
  | zero => cases h
  | succ fuel ih =>
    obtain ⟨fuel', rfl⟩ : ∃ n, fuel' = n + 1 := ⟨fuel' - 1, by omega⟩
    rw [settingsFrom] at h ⊢
    split at h
    · exact h
    · split at h
      · cases h
      · split_ifs at h ⊢ with hsign
        obtain ⟨value, hvalue, hrest⟩ := Option.bind_eq_some_iff.1 h
        obtain ⟨more, hmore, rfl⟩ := Option.map_eq_some_iff.1 hrest
        rw [hvalue, Option.bind_some, ih hmore (by omega), Option.map_some]

/-- **An escaped value is read back.** -/
theorem quotedFrom_escape (value rest : PyStr) :
    quotedFrom false (escape value ++ CodePoint.ofChar '\'' :: rest) = some (value, rest) := by
  induction value with
  | nil => rfl
  | cons c value ih =>
    have hcons : escape (c :: value) =
        (if c = CodePoint.ofChar '\\' ∨ c = CodePoint.ofChar '\'' then [CodePoint.ofChar '\\', c]
          else [c]) ++ escape value := rfl
    rw [hcons]
    split_ifs with hspecial
    · show quotedFrom false (CodePoint.ofChar '\\' :: c ::
        (escape value ++ CodePoint.ofChar '\'' :: rest)) = _
      rw [quotedFrom, if_pos rfl, quotedFrom, ih]
      rfl
    · rw [not_or] at hspecial
      show quotedFrom false (c :: (escape value ++ CodePoint.ofChar '\'' :: rest)) = _
      rw [quotedFrom, if_neg hspecial.1, if_neg hspecial.2, ih]
      rfl

theorem bareFrom_of_plain {value : PyStr}
    (h : ∀ c ∈ value, isBlank c = false ∧ c ≠ CodePoint.ofChar '\\') (rest : PyStr) :
    bareFrom false (value ++ CodePoint.ofChar ' ' :: rest) = (value, rest) := by
  induction value with
  | nil => rfl
  | cons c value ih =>
    obtain ⟨hblank, hslash⟩ := h c List.mem_cons_self
    rw [List.cons_append, bareFrom, if_neg (Bool.eq_false_iff.1 hblank), if_neg hslash,
      ih fun d hd => h d (List.mem_cons_of_mem c hd)]

/-- One setting before others. -/
theorem settingsFrom_keyword {key : PyStr} (hne : key ≠ []) (hkey : ∀ c ∈ key, inKeyword c = true)
    (fuel : ℕ) (behind : PyStr) : settingsFrom (fuel + 1) (key ++ CodePoint.ofChar '=' :: behind) =
      (valueFrom behind).bind fun value =>
        (settingsFrom fuel value.2).map ((key, value.1) :: ·) := by
  obtain ⟨c, rest, rfl⟩ := List.exists_cons_of_ne_nil hne
  have hc := hkey c List.mem_cons_self
  have hblank : isBlank c = false := by
    rw [inKeyword, Bool.and_eq_true, Bool.not_eq_true'] at hc
    exact hc.2
  have hsign : inKeyword (CodePoint.ofChar '=') = false := by decide
  have hdrop : ((c :: rest) ++ CodePoint.ofChar '=' :: behind).dropWhile inKeyword =
      CodePoint.ofChar '=' :: behind := by
    rw [List.dropWhile_append_of_pos hkey, List.dropWhile_cons_of_neg (Bool.eq_false_iff.1 hsign)]
  have htake : ((c :: rest) ++ CodePoint.ofChar '=' :: behind).takeWhile inKeyword = c :: rest := by
    rw [List.takeWhile_append_of_pos hkey, List.takeWhile_cons_of_neg (Bool.eq_false_iff.1 hsign),
      List.append_nil]
  rw [List.cons_append] at hdrop htake ⊢
  rw [settingsFrom, List.dropWhile_cons_of_neg (Bool.eq_false_iff.1 hblank)]
  dsimp only
  rw [hdrop, List.dropWhile_cons_of_neg (by decide), htake]
  dsimp only
  rw [if_pos rfl]

/-- A quoted setting. -/
theorem settingsFrom_quoted {key : PyStr} (hne : key ≠ []) (hkey : ∀ c ∈ key, inKeyword c = true)
    (fuel : ℕ) (value rest : PyStr) :
    settingsFrom (fuel + 1) (key ++ CodePoint.ofChar '=' :: CodePoint.ofChar '\'' ::
      (escape value ++ CodePoint.ofChar '\'' :: rest)) =
      (settingsFrom fuel rest).map ((key, value) :: ·) := by
  have hvalue : valueFrom (CodePoint.ofChar '\'' ::
      (escape value ++ CodePoint.ofChar '\'' :: rest)) = some (value, rest) := by
    rw [valueFrom, List.dropWhile_cons_of_neg (by decide)]
    dsimp only
    rw [if_pos rfl, quotedFrom_escape]
  rw [settingsFrom_keyword hne hkey, hvalue, Option.bind_some]

/-- A setting without quotes. -/
theorem settingsFrom_bare {key value : PyStr} (hne : key ≠ [])
    (hkey : ∀ c ∈ key, inKeyword c = true) (hvalue : value ≠ [])
    (hplain : ∀ c ∈ value, isBlank c = false ∧ c ≠ CodePoint.ofChar '\\' ∧
      c ≠ CodePoint.ofChar '\'') (fuel : ℕ) (rest : PyStr) :
    settingsFrom (fuel + 1)
        (key ++ CodePoint.ofChar '=' :: (value ++ CodePoint.ofChar ' ' :: rest)) =
      (settingsFrom fuel rest).map ((key, value) :: ·) := by
  obtain ⟨c, text, rfl⟩ := List.exists_cons_of_ne_nil hvalue
  obtain ⟨hblank, -, hquote⟩ := hplain c List.mem_cons_self
  have hread : valueFrom (c :: text ++ CodePoint.ofChar ' ' :: rest) = some (c :: text, rest) := by
    rw [List.cons_append, valueFrom, List.dropWhile_cons_of_neg (Bool.eq_false_iff.1 hblank)]
    dsimp only
    rw [if_neg hquote, ← List.cons_append,
      bareFrom_of_plain fun d hd => ⟨(hplain d hd).1, (hplain d hd).2.1⟩]
  rw [settingsFrom_keyword hne hkey, hread, Option.bind_some]

/-- Whitespace before a setting is skipped. -/
theorem settingsFrom_blank {c : CodePoint} (h : isBlank c = true) (fuel : ℕ) (text : PyStr) :
    settingsFrom fuel (c :: text) = settingsFrom fuel text := by
  cases fuel with
  | zero => rfl
  | succ fuel => rw [settingsFrom, settingsFrom, List.dropWhile_cons_of_pos h]

end Lubko.Lib.Conninfo
