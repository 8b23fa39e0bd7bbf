import Lubko.Lib.PyStr
import Mathlib.Data.List.TakeWhile

/-!
# Taking a text apart

Python's methods that take a string apart: `str.splitlines`, which knows ten line boundaries,
`str.strip`, `str.partition` and `int`, and the newlines `open` translates.

* `splitLines_append` — a text that ends in no boundary, a newline, and the rest.
* `not_isLineBreak_of_mem` — no line contains a boundary.
* `strip_append`, `partition_append` — a line made of a key and a value.
* `not_isLineBreak_of_int` — the text of an integer is one line.
-/

namespace Lubko.Lib

/-! ## Lines -/

/-- The boundaries of `str.splitlines`. -/
def CodePoint.isLineBreak (c : CodePoint) : Bool :=
  (0x0a ≤ c.val && c.val ≤ 0x0d) || (0x1c ≤ c.val && c.val ≤ 0x1e) || c.val = 0x85 ||
    c.val = 0x2028 || c.val = 0x2029

/-- A code point before the first line. -/
def consLine (c : CodePoint) : List PyStr → List PyStr
  | [] => [[c]]
  | line :: lines => (c :: line) :: lines

/-- The lines of a text behind a carriage return or not. -/
def splitFrom : Bool → PyStr → List PyStr
  | _, [] => []
  | afterReturn, c :: text =>
    if afterReturn && c.val = 0x0a then splitFrom false text
    else if c.isLineBreak then [] :: splitFrom (c.val = 0x0d) text
    else consLine c (splitFrom false text)

/-- `text.splitlines()`. -/
def splitLines (text : PyStr) : List PyStr := splitFrom false text

/-- The newlines of a text read behind a carriage return or not. -/
def newlinesFrom : Bool → PyStr → PyStr
  | _, [] => []
  | afterReturn, c :: text =>
    if c.val = 0x0d then 0x0a :: newlinesFrom true text
    else if afterReturn && c.val = 0x0a then newlinesFrom false text
    else c :: newlinesFrom false text

/-- The translation of a text file: every line ends in a line feed. -/
def universalNewlines (text : PyStr) : PyStr := newlinesFrom false text

theorem universalNewlines_eq_self {text : PyStr} (h : ∀ c ∈ text, c.val ≠ 0x0d) :
    universalNewlines text = text := by
  unfold universalNewlines
  induction text with
  | nil => rfl
  | cons c text ih =>
    have hc := h c List.mem_cons_self
    rw [newlinesFrom, if_neg hc, Bool.false_and, if_neg Bool.false_ne_true,
      ih fun d hd => h d (List.mem_cons_of_mem c hd)]

theorem mem_consLine {c : CodePoint} {lines : List PyStr} {line : PyStr}
    (h : line ∈ consLine c lines) :
    line ∈ lines ∨ ∃ rest, line = c :: rest ∧ (rest = [] ∨ rest ∈ lines) := by
  cases lines with
  | nil => exact .inr ⟨[], List.mem_singleton.1 h, .inl rfl⟩
  | cons first lines =>
    rcases List.mem_cons.1 h with rfl | hmem
    · exact .inr ⟨first, rfl, .inr List.mem_cons_self⟩
    · exact .inl (List.mem_cons_of_mem first hmem)

/-- **No line contains a boundary.** -/
theorem not_isLineBreak_of_mem {afterReturn : Bool} {text line : PyStr}
    (h : line ∈ splitFrom afterReturn text) : ∀ c ∈ line, c.isLineBreak = false := by
  induction text generalizing afterReturn line with
  | nil => cases h
  | cons c text ih =>
    rw [splitFrom] at h
    split_ifs at h with hfeed hbreak
    · exact ih h
    · rcases List.mem_cons.1 h with rfl | hmem
      · intro d hd
        cases hd
      · exact ih hmem
    · rcases mem_consLine h with hmem | ⟨rest, rfl, hrest⟩
      · exact ih hmem
      · intro d hd
        rcases List.mem_cons.1 hd with rfl | hd
        · exact Bool.eq_false_iff.2 hbreak
        · rcases hrest with rfl | hrest
          · cases hd
          · exact ih hrest d hd

theorem splitFrom_cons (c : CodePoint) (text : PyStr) : splitFrom false (c :: text) =
    if c.isLineBreak then [] :: splitFrom (c.val = 0x0d) text
    else consLine c (splitFrom false text) := by
  rw [splitFrom, Bool.false_and, if_neg Bool.false_ne_true]

theorem splitFrom_ne_nil {c : CodePoint} {text : PyStr} : splitFrom false (c :: text) ≠ [] := by
  rw [splitFrom_cons]
  split_ifs
  · simp
  · cases splitFrom false text <;> simp [consLine]

theorem consLine_append {c : CodePoint} {lines : List PyStr} (h : lines ≠ []) (more : List PyStr) :
    consLine c (lines ++ more) = consLine c lines ++ more := by
  cases lines with
  | nil => exact absurd rfl h
  | cons line lines => rfl

/-- **A text, a newline and the rest**, where the text has no carriage return and ends in no
boundary. -/
theorem splitLines_append {text : PyStr} (hne : text ≠ []) (hreturn : ∀ c ∈ text, c.val ≠ 0x0d)
    (hlast : ∀ c ∈ text.getLast?, CodePoint.isLineBreak c = false) (rest : PyStr) :
    splitLines (text ++ 0x0a :: rest) = splitLines text ++ splitLines rest := by
  unfold splitLines
  induction text with
  | nil => exact absurd rfl hne
  | cons c text ih =>
    have hc : decide (c.val = 0x0d) = false := decide_eq_false (hreturn c List.mem_cons_self)
    rw [List.cons_append, splitFrom_cons, splitFrom_cons, hc]
    cases text with
    | nil =>
      have hbreak : ¬ c.isLineBreak = true := Bool.eq_false_iff.1 (hlast c rfl)
      rw [if_neg hbreak, if_neg hbreak, List.nil_append, splitFrom_cons, if_pos (by decide)]
      rfl
    | cons d text =>
      have hih := ih (List.cons_ne_nil d text) (fun e he => hreturn e (List.mem_cons_of_mem c he))
        fun e he => hlast e (by rw [List.getLast?_cons_cons]; exact he)
      rw [hih]
      split_ifs
      · rfl
      · exact consLine_append splitFrom_ne_nil _

/-- What precedes the first line of a text stays before it. -/
theorem splitLines_prepend {text : PyStr} (h : ∀ c ∈ text, c.isLineBreak = false) (hne : text ≠ [])
    (rest : PyStr) : splitLines (text ++ rest) =
      (text ++ (splitLines rest).headD []) :: (splitLines rest).tail := by
  unfold splitLines
  induction text with
  | nil => exact absurd rfl hne
  | cons c text ih =>
    have hc := h c List.mem_cons_self
    rw [List.cons_append, splitFrom_cons, if_neg (Bool.eq_false_iff.1 hc)]
    cases text with
    | nil =>
      rw [List.nil_append]
      cases splitFrom false rest <;> rfl
    | cons d text =>
      rw [ih (fun e he => h e (List.mem_cons_of_mem c he)) (List.cons_ne_nil d text)]
      rfl

theorem splitLines_eq_self {text : PyStr} (h : ∀ c ∈ text, c.isLineBreak = false)
    (hne : text ≠ []) : splitLines text = [text] := by
  have hline := splitLines_prepend h hne []
  rw [List.append_nil] at hline
  rw [hline]
  simp [splitLines, splitFrom]

/-! ## Surrounding whitespace -/

/-- No whitespace at either end. -/
structure PyStr.Trimmed (s : PyStr) : Prop where
  head : ∀ c ∈ s.head?, CodePoint.isSpace c = false
  last : ∀ c ∈ s.getLast?, CodePoint.isSpace c = false

/-- `str.rstrip`. -/
def PyStr.rstrip (s : PyStr) : PyStr := (s.reverse.dropWhile CodePoint.isSpace).reverse

theorem dropWhile_isSpace {s : PyStr} (h : ∀ c ∈ s.head?, CodePoint.isSpace c = false) :
    s.dropWhile CodePoint.isSpace = s := by
  cases s with
  | nil => rfl
  | cons c s => exact List.dropWhile_cons_of_neg (Bool.eq_false_iff.1 (h c rfl))

theorem PyStr.Trimmed.rstrip {s : PyStr} (h : s.Trimmed) : s.rstrip = s := by
  rw [PyStr.rstrip, dropWhile_isSpace, List.reverse_reverse]
  rw [List.head?_reverse]
  exact h.last

theorem PyStr.Trimmed.strip {s : PyStr} (h : s.Trimmed) : s.strip = s := by
  rw [PyStr.strip, dropWhile_isSpace h.head]
  exact h.rstrip

/-- Whitespace is stripped from the last part of a text that starts and goes on with something
else. -/
theorem strip_append {key : PyStr} {sep : CodePoint}
    (hhead : ∀ c ∈ (key ++ [sep]).head?, CodePoint.isSpace c = false)
    (hsep : sep.isSpace = false) (value : PyStr) :
    PyStr.strip (key ++ sep :: value) = key ++ sep :: PyStr.rstrip value := by
  have hstart : ∀ c ∈ (key ++ sep :: value).head?, CodePoint.isSpace c = false := by
    intro c hc
    apply hhead
    cases key <;> exact hc
  rw [PyStr.strip, dropWhile_isSpace hstart, PyStr.rstrip, List.reverse_append, List.reverse_cons,
    List.append_assoc, List.dropWhile_append]
  split_ifs with hall
  · rw [List.isEmpty_iff.1 hall, List.singleton_append,
      List.dropWhile_cons_of_neg (Bool.eq_false_iff.1 hsep)]
    simp
  · simp

theorem isSpace_of_isLineBreak {c : CodePoint} (h : c.isLineBreak = true) : c.isSpace = true := by
  simp only [CodePoint.isLineBreak, CodePoint.isSpace, Bool.or_eq_true, Bool.and_eq_true,
    decide_eq_true_eq] at h ⊢
  omega

/-! ## Separators -/

/-- `text.partition(sep)`, for one code point: what is before it, whether it is there, and what is
behind it. -/
def PyStr.partition (sep : CodePoint) (text : PyStr) : PyStr × Bool × PyStr :=
  let before := text.takeWhile (· ≠ sep)
  (before, before.length < text.length, text.drop (before.length + 1))

theorem partition_append {sep : CodePoint} {before : PyStr} (h : sep ∉ before) (after : PyStr) :
    PyStr.partition sep (before ++ sep :: after) = (before, true, after) := by
  have htake : (before ++ sep :: after).takeWhile (· ≠ sep) = before := by
    rw [List.takeWhile_append_of_pos, List.takeWhile_cons_of_neg (by simp), List.append_nil]
    intro c hc
    rw [decide_eq_true_eq]
    rintro rfl
    exact h hc
  have hdrop : (before ++ sep :: after).drop (before.length + 1) = after := by
    rw [List.drop_append]
    simp
  rw [PyStr.partition, htake, hdrop]
  simp

/-! ## Integers -/

/-- The code points of the decimal digit zero. -/
def decimalZeros : List ℕ :=
  [0x30, 0x660, 0x6f0, 0x7c0, 0x966, 0x9e6, 0xa66, 0xae6, 0xb66, 0xbe6, 0xc66, 0xce6, 0xd66,
   0xde6, 0xe50, 0xed0, 0xf20, 0x1040, 0x1090, 0x17e0, 0x1810, 0x1946, 0x19d0, 0x1a80, 0x1a90,
   0x1b50, 0x1bb0, 0x1c40, 0x1c50, 0xa620, 0xa8d0, 0xa900, 0xa9d0, 0xa9f0, 0xaa50, 0xabf0,
   0xff10, 0x104a0, 0x10d30, 0x11066, 0x110f0, 0x11136, 0x111d0, 0x112f0, 0x11450, 0x114d0,
   0x11650, 0x116c0, 0x11730, 0x118e0, 0x11950, 0x11c50, 0x11d50, 0x11da0, 0x11f50, 0x16a60,
   0x16ac0, 0x16b50, 0x1d7ce, 0x1d7d8, 0x1d7e2, 0x1d7ec, 0x1d7f6, 0x1e140, 0x1e2f0, 0x1e4f0,
   0x1e950, 0x1fbf0]

/-- `unicodedata.decimal`. -/
def CodePoint.digit? (c : CodePoint) : Option ℕ :=
  decimalZeros.findSome? fun start =>
    if start ≤ c.val ∧ c.val < start + 10 then some (c.val - start) else none

/-- The value of digits with single underscores between them, behind a digit or not. -/
def digitsFrom : Bool → ℕ → PyStr → Option ℕ
  | afterDigit, value, [] => if afterDigit then some value else none
  | afterDigit, value, c :: text =>
    if c.val = 0x5f then if afterDigit then digitsFrom false value text else none
    else c.digit?.bind fun d => digitsFrom true (value * 10 + d) text

/-- `int(text)`; `none` is a `ValueError`, also for more than 4300 digits. -/
def PyStr.int? (text : PyStr) : Option ℤ :=
  let body := text.strip
  let negative := body.head? = some 0x2d
  let digits := if negative ∨ body.head? = some 0x2b then body.tail else body
  if 4300 < (digits.filter fun c => c.val ≠ 0x5f).length then none
  else (digitsFrom false 0 digits).map fun n : ℕ => if negative then -(n : ℤ) else (n : ℤ)

theorem digit?_of_isLineBreak {c : CodePoint} (h : c.isLineBreak = true) : c.digit? = none := by
  have hzeros : ∀ start ∈ decimalZeros,
      start = 0x30 ∨ (0x660 ≤ start ∧ start ≤ 0x1c50) ∨ 0xa620 ≤ start := by decide
  simp only [CodePoint.isLineBreak, Bool.or_eq_true, Bool.and_eq_true, decide_eq_true_eq] at h
  rw [CodePoint.digit?, List.findSome?_eq_none_iff]
  intro start hstart
  have hrange := hzeros start hstart
  exact if_neg (by omega)

theorem not_isLineBreak_of_digitsFrom {afterDigit : Bool} {value n : ℕ} {text : PyStr}
    (h : digitsFrom afterDigit value text = some n) : ∀ c ∈ text, c.isLineBreak = false := by
  induction text generalizing afterDigit value with
  | nil =>
    intro c hc
    cases hc
  | cons d text ih =>
    rw [digitsFrom] at h
    intro c hc
    by_contra hbreak
    rw [Bool.not_eq_false] at hbreak
    split_ifs at h with hunderscore hafter
    · rcases List.mem_cons.1 hc with rfl | hc
      · simp [CodePoint.isLineBreak, hunderscore] at hbreak
      · rw [ih h c hc] at hbreak
        cases hbreak
    · obtain ⟨value', hdigit, hrest⟩ := Option.bind_eq_some_iff.1 h
      rcases List.mem_cons.1 hc with rfl | hc
      · rw [digit?_of_isLineBreak hbreak] at hdigit
        cases hdigit
      · rw [ih hrest c hc] at hbreak
        cases hbreak

/-- **The text of an integer is one line.** -/
theorem not_isLineBreak_of_int {text : PyStr} (htrimmed : text.Trimmed) {n : ℤ}
    (h : text.int? = some n) : ∀ c ∈ text, c.isLineBreak = false := by
  rw [PyStr.int?, htrimmed.strip] at h
  by_cases hsign : text.head? = some 0x2d ∨ text.head? = some 0x2b
  · rw [if_pos hsign] at h
    by_cases hlong : 4300 < (text.tail.filter fun c => c.val ≠ 0x5f).length
    · rw [if_pos hlong] at h
      cases h
    · rw [if_neg hlong] at h
      obtain ⟨m, hm, -⟩ := Option.map_eq_some_iff.1 h
      cases text with
      | nil => exact fun c hc => absurd hc List.not_mem_nil
      | cons d text =>
        intro c hc
        rcases List.mem_cons.1 hc with rfl | hc
        · rw [List.head?_cons, Option.some.injEq, Option.some.injEq] at hsign
          rcases hsign with rfl | rfl <;> decide
        · exact not_isLineBreak_of_digitsFrom hm c hc
  · rw [if_neg hsign] at h
    by_cases hlong : 4300 < (text.filter fun c => c.val ≠ 0x5f).length
    · rw [if_pos hlong] at h
      cases h
    · rw [if_neg hlong] at h
      obtain ⟨m, hm, -⟩ := Option.map_eq_some_iff.1 h
      exact not_isLineBreak_of_digitsFrom hm

end Lubko.Lib
