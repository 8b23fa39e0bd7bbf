import Lubko.Lib.PyStr
import Mathlib.Data.Int.Log
import Mathlib.Data.Rat.Floor
import Mathlib.Tactic

/-!
# JSON values and texts

The `json` module of the Python standard library, as far as `json.dumps(value, sort_keys=True)` and
`json.loads(text)` go. A text is a list of characters, which are Unicode scalar values, as a
UTF-8 decoded column or file holds them; a string *value* is a Python `str` and may hold
surrogates, because `loads` accepts `\ud800` and `dumps` writes it.

Reading is done in two passes. `scanValue` follows the grammar and keeps every escape as the code
point it names; `Json.build` then makes the Python value: an escaped surrogate pair is one code
point, and a repeated key keeps its first place and takes its last value. A raw character is never
a surrogate, so joining pairs after the scan joins exactly the escaped ones.

Two limits of the interpreter are left out: its nesting limit, and the limit of 4300 digits on the
conversion between `int` and `str`.

* `loads_dumps` — reading back a dumped value gives the value with its surrogate pairs joined.
* `Json.Built` — what every value made by `loads` satisfies, at every depth.
-/

namespace Lubko.Lib

/-- A JSON value as Python holds it. A float is kept as the literal it is written with. -/
inductive Json where
  | null
  | bool (b : Bool)
  | int (n : ℤ)
  | float (lit : List Char)
  | str (s : PyStr)
  | arr (items : List Json)
  | obj (members : List (PyStr × Json))
  deriving Repr

/-! ## Surrogates -/

/-- `0xd800 <= c <= 0xdbff`. -/
def CodePoint.isHigh (c : CodePoint) : Bool := 0xd800 ≤ c.val && c.val ≤ 0xdbff

/-- `0xdc00 <= c <= 0xdfff`. -/
def CodePoint.isLow (c : CodePoint) : Bool := 0xdc00 ≤ c.val && c.val ≤ 0xdfff

/-- The code point a surrogate pair stands for. -/
def CodePoint.joinPair (h l : CodePoint) : CodePoint :=
  Fin.ofNat _ (0x10000 + (h.val - 0xd800) * 0x400 + (l.val - 0xdc00))

/-- Every high surrogate directly before a low one is joined with it. -/
def PyStr.joinSurrogates : PyStr → PyStr
  | [] => []
  | [c] => [c]
  | c :: d :: s =>
    if c.isHigh && d.isLow then CodePoint.joinPair c d :: joinSurrogates s
    else c :: joinSurrogates (d :: s)

/-- The code units `dumps` escapes a code point with. -/
def CodePoint.units (c : CodePoint) : PyStr :=
  if c.val < 0x10000 then [c]
  else [Fin.ofNat _ (0xd800 + (c.val - 0x10000) / 0x400),
    Fin.ofNat _ (0xdc00 + (c.val - 0x10000) % 0x400)]

/-! ## Writing -/

/-- The four hexadecimal digits of a code unit. -/
def hex4 (n : ℕ) : List Char :=
  [(n / 0x1000 % 16).digitChar, (n / 0x100 % 16).digitChar, (n / 0x10 % 16).digitChar,
    (n % 16).digitChar]

/-- The letter after the backslash of a short escape. -/
def CodePoint.shortEscape? (c : CodePoint) : Option Char :=
  if c.val = 0x22 then some '"' else if c.val = 0x5c then some '\\'
  else if c.val = 0x08 then some 'b' else if c.val = 0x0c then some 'f'
  else if c.val = 0x0a then some 'n' else if c.val = 0x0d then some 'r'
  else if c.val = 0x09 then some 't' else none

/-- One code point of a string under `ensure_ascii`. -/
def CodePoint.escape (c : CodePoint) : List Char :=
  match c.shortEscape? with
  | some e => ['\\', e]
  | none =>
    if 0x20 ≤ c.val ∧ c.val ≤ 0x7e then [Char.ofNat c.val]
    else c.units.flatMap fun u => '\\' :: 'u' :: hex4 u.val

/-- The literal of an integer. -/
def intText (n : ℤ) : List Char :=
  if n < 0 then '-' :: Nat.toDigits 10 n.natAbs else Nat.toDigits 10 n.natAbs

/-- The literal of a string. -/
def quote (s : PyStr) : List Char := '"' :: (s.flatMap CodePoint.escape ++ ['"'])

mutual

/-- `json.dumps(value)`, members in the order they stand. -/
def dumps : Json → List Char
  | .null => ['n', 'u', 'l', 'l']
  | .bool true => ['t', 'r', 'u', 'e']
  | .bool false => ['f', 'a', 'l', 's', 'e']
  | .int n => intText n
  | .float lit => lit
  | .str s => quote s
  | .arr items => '[' :: (dumpsItems items ++ [']'])
  | .obj members => '\x7b' :: (dumpsMembers members ++ ['\x7d'])

/-- The items of an array, separated by `", "`. -/
def dumpsItems : List Json → List Char
  | [] => []
  | [v] => dumps v
  | v :: vs => dumps v ++ (',' :: ' ' :: dumpsItems vs)

/-- The members of an object, separated by `", "`. -/
def dumpsMembers : List (PyStr × Json) → List Char
  | [] => []
  | [(k, v)] => quote k ++ (':' :: ' ' :: dumps v)
  | (k, v) :: kvs => quote k ++ (':' :: ' ' :: (dumps v ++ (',' :: ' ' :: dumpsMembers kvs)))

end

/-- The order of Python strings: by code point. -/
def PyStr.before : PyStr → PyStr → Bool
  | [], _ => true
  | _ :: _, [] => false
  | a :: s, b :: t => if a = b then before s t else a < b

/-- Insert a member into sorted ones. -/
def insertMember (kv : PyStr × Json) : List (PyStr × Json) → List (PyStr × Json)
  | [] => [kv]
  | x :: xs => if PyStr.before kv.1 x.1 then kv :: x :: xs else x :: insertMember kv xs

mutual

/-- `sort_keys=True`: the members of every object in the order of their keys. -/
def Json.sortKeys : Json → Json
  | .arr items => .arr (sortItems items)
  | .obj members => .obj (sortMembers members)
  | v => v

/-- `Json.sortKeys` on the items of an array. -/
def sortItems : List Json → List Json
  | [] => []
  | v :: vs => v.sortKeys :: sortItems vs

/-- `Json.sortKeys` on the members of an object. -/
def sortMembers : List (PyStr × Json) → List (PyStr × Json)
  | [] => []
  | (k, v) :: kvs => insertMember (k, v.sortKeys) (sortMembers kvs)

end

/-! ## Reading -/

/-- The value of a hexadecimal digit. -/
def hexValue? (c : Char) : Option ℕ :=
  if '0' ≤ c ∧ c ≤ '9' then some (c.toNat - 0x30)
  else if 'a' ≤ c ∧ c ≤ 'f' then some (c.toNat - 0x61 + 10)
  else if 'A' ≤ c ∧ c ≤ 'F' then some (c.toNat - 0x41 + 10)
  else none

/-- The value of four hexadecimal digits. -/
def hexValue4? (a b c d : Char) : Option ℕ :=
  match hexValue? a, hexValue? b, hexValue? c, hexValue? d with
  | some a, some b, some c, some d => some (a * 0x1000 + b * 0x100 + c * 0x10 + d)
  | _, _, _, _ => none

/-- What a short escape stands for. -/
def unescape? : Char → Option CodePoint
  | '"' => some 0x22
  | '\\' => some 0x5c
  | '/' => some 0x2f
  | 'b' => some 0x08
  | 'f' => some 0x0c
  | 'n' => some 0x0a
  | 'r' => some 0x0d
  | 't' => some 0x09
  | _ => none

/-- Put a code point before a scanned string. -/
def consPoint (c : CodePoint) (p : PyStr × List Char) : PyStr × List Char := (c :: p.1, p.2)

/-- `scanstring` after the opening quote: the code points up to the closing one, an escaped unit
for each `\u` escape, and the text behind it. -/
def scanString : List Char → Option (PyStr × List Char)
  | [] => none
  | c :: t =>
    if c = '"' then some ([], t)
    else if c = '\\' then
      match t with
      | 'u' :: h₁ :: h₂ :: h₃ :: h₄ :: t =>
        (hexValue4? h₁ h₂ h₃ h₄).bind fun n => (scanString t).map (consPoint (Fin.ofNat _ n))
      | e :: t => (unescape? e).bind fun c => (scanString t).map (consPoint c)
      | [] => none
    -- strict mode refuses raw control characters
    else if c.toNat < 0x20 then none
    else (scanString t).map (consPoint (CodePoint.ofChar c))

/-- The whitespace of the grammar. -/
def isWhitespace (c : Char) : Bool := c = ' ' || c = '\t' || c = '\n' || c = '\r'

/-- Skip whitespace. -/
def skipWhitespace (t : List Char) : List Char := t.dropWhile isWhitespace

/-- The integer part of a number: `0`, or digits that do not start with it. -/
def scanWhole : List Char → Option (List Char × List Char)
  | [] => none
  | c :: t =>
    if c = '0' then some (['0'], t)
    else if c.isDigit then some ((c :: t).takeWhile Char.isDigit, (c :: t).dropWhile Char.isDigit)
    else none

/-- The fraction of a number; empty when no digit follows the point. -/
def scanFraction : List Char → List Char × List Char
  | [] => ([], [])
  | c :: t =>
    if c = '.' ∧ t.takeWhile Char.isDigit ≠ [] then
      ('.' :: t.takeWhile Char.isDigit, t.dropWhile Char.isDigit)
    else ([], c :: t)

/-- The optional sign of an exponent. -/
def scanSign : List Char → List Char × List Char
  | [] => ([], [])
  | c :: t => if c = '+' ∨ c = '-' then ([c], t) else ([], c :: t)

/-- The exponent of a number; empty when no digit follows the letter and the sign. -/
def scanExponent : List Char → List Char × List Char
  | [] => ([], [])
  | c :: t =>
    if (c = 'e' ∨ c = 'E') ∧ (scanSign t).2.takeWhile Char.isDigit ≠ [] then
      (c :: ((scanSign t).1 ++ (scanSign t).2.takeWhile Char.isDigit),
        (scanSign t).2.dropWhile Char.isDigit)
    else ([], c :: t)

/-- A number behind its sign: an `int`, or a `float` when there is a fraction or an exponent. -/
def scanUnsigned (neg : Bool) (t : List Char) : Option (Json × List Char) :=
  (scanWhole t).map fun w =>
    let f := scanFraction w.2
    let e := scanExponent f.2
    if f.1 = [] ∧ e.1 = [] then
      let n : ℤ := Nat.ofDigitChars 10 w.1 0
      (.int (if neg then -n else n), e.2)
    else (.float ((if neg then ['-'] else []) ++ w.1 ++ f.1 ++ e.1), e.2)

/-- A number. -/
def scanNumber : List Char → Option (Json × List Char)
  | [] => none
  | c :: t => if c = '-' then scanUnsigned true t else scanUnsigned false (c :: t)

/-- The words of the grammar, with the constants `json` reads on top of it. -/
def constants : List (List Char × Json) :=
  [(['n', 'u', 'l', 'l'], .null), (['t', 'r', 'u', 'e'], .bool true),
    (['f', 'a', 'l', 's', 'e'], .bool false), ("NaN".toList, .float "NaN".toList),
    ("Infinity".toList, .float "Infinity".toList), ("-Infinity".toList, .float "-Infinity".toList)]

/-- The text behind a word, when it starts with the word. -/
def dropWord : List Char → List Char → Option (List Char)
  | [], t => some t
  | _ :: _, [] => none
  | w :: ws, c :: t => if c = w then dropWord ws t else none

/-- One of the constants. -/
def scanConstant (t : List Char) : Option (Json × List Char) :=
  constants.findSome? fun c => (dropWord c.1 t).map fun rest => (c.2, rest)

/-- The key of a member with the colon behind it. -/
def scanKey : List Char → Option (PyStr × List Char)
  | [] => none
  | c :: t =>
    if c = '"' then
      (scanString t).bind fun k =>
        match skipWhitespace k.2 with
        | [] => none
        | c :: t => if c = ':' then some (k.1, skipWhitespace t) else none
    else none

mutual

/-- `scan_once`: one value and the text behind it. Every call passes on less fuel. -/
def scanValue : ℕ → List Char → Option (Json × List Char)
  | 0, _ => none
  | _ + 1, [] => none
  | fuel + 1, c :: t =>
    if c = '"' then (scanString t).map fun p => (.str p.1, p.2)
    else if c = '[' then
      if (skipWhitespace t).head? = some ']' then some (.arr [], (skipWhitespace t).tail)
      else (scanItems fuel (skipWhitespace t)).map fun p => (.arr p.1, p.2)
    else if c = '\x7b' then
      if (skipWhitespace t).head? = some '\x7d' then some (.obj [], (skipWhitespace t).tail)
      else (scanMembers fuel (skipWhitespace t)).map fun p => (.obj p.1, p.2)
    else (scanConstant (c :: t)).or (scanNumber (c :: t))

/-- The items of an array up to its closing bracket. -/
def scanItems : ℕ → List Char → Option (List Json × List Char)
  | 0, _ => none
  | fuel + 1, t =>
    (scanValue fuel t).bind fun p =>
      match skipWhitespace p.2 with
      | [] => none
      | c :: t =>
        if c = ']' then some ([p.1], t)
        else if c = ',' then
          (scanItems fuel (skipWhitespace t)).map fun q => (p.1 :: q.1, q.2)
        else none

/-- The members of an object up to its closing brace. -/
def scanMembers : ℕ → List Char → Option (List (PyStr × Json) × List Char)
  | 0, _ => none
  | fuel + 1, t =>
    (scanKey t).bind fun k =>
      (scanValue fuel k.2).bind fun p =>
        match skipWhitespace p.2 with
        | [] => none
        | c :: t =>
          if c = '\x7d' then some ([(k.1, p.1)], t)
          else if c = ',' then
            (scanMembers fuel (skipWhitespace t)).map fun q => ((k.1, p.1) :: q.1, q.2)
          else none

end

/-- `d[k] = v` on the members of a dict. -/
def setMember (k : PyStr) (v : Json) : List (PyStr × Json) → List (PyStr × Json)
  | [] => [(k, v)]
  | x :: xs => if x.1 = k then (x.1, v) :: xs else x :: setMember k v xs

/-- The dict of a sequence of members. -/
def dictOf (kvs : List (PyStr × Json)) : List (PyStr × Json) :=
  kvs.foldl (fun d kv => setMember kv.1 kv.2 d) []

mutual

/-- The Python value of a scanned one. -/
def Json.build : Json → Json
  | .str s => .str s.joinSurrogates
  | .arr items => .arr (buildItems items)
  | .obj members => .obj (dictOf (buildMembers members))
  | v => v

/-- `Json.build` on the items of an array. -/
def buildItems : List Json → List Json
  | [] => []
  | v :: vs => v.build :: buildItems vs

/-- `Json.build` on the keys and values of an object. -/
def buildMembers : List (PyStr × Json) → List (PyStr × Json)
  | [] => []
  | (k, v) :: kvs => (PyStr.joinSurrogates k, v.build) :: buildMembers kvs

end

/-- `json.loads`; `none` is a `JSONDecodeError`. -/
def loads (t : List Char) : Option Json :=
  (scanValue (2 * t.length) (skipWhitespace t)).bind fun p =>
    if skipWhitespace p.2 = [] then some p.1.build else none

/-- `d.get(k)`; an absent key reads as `None`. -/
def Json.get (members : List (PyStr × Json)) (k : PyStr) : Json :=
  ((members.find? fun kv => kv.1 = k).map Prod.snd).getD .null

/-- `k in d`. -/
def Json.hasKey (members : List (PyStr × Json)) (k : PyStr) : Bool :=
  members.any fun kv => kv.1 = k

/-! ## Comparing with an integer -/

/-- The exact value of an unsigned float literal. -/
def literalValue (t : List Char) : ℚ :=
  ((scanWhole t).map fun w =>
    let f := scanFraction w.2
    let e := scanSign ((scanExponent f.2).1.drop 1)
    let scale : ℤ := if e.1 = ['-'] then -(Nat.ofDigitChars 10 e.2 0) else Nat.ofDigitChars 10 e.2 0
    (Nat.ofDigitChars 10 (w.1 ++ f.1.drop 1) 0 : ℚ) * 10 ^ (scale - ((f.1.drop 1).length : ℤ))).getD 0

/-- Round to an integer, ties to even. -/
def roundEven (q : ℚ) : ℤ :=
  if 2 * Int.fract q < 1 then ⌊q⌋
  else if 1 < 2 * Int.fract q then ⌊q⌋ + 1
  else if ⌊q⌋ % 2 = 0 then ⌊q⌋ else ⌊q⌋ + 1

/-- The binary64 value nearest to a rational that is not negative, ties to even; `none` is
infinity. -/
def roundBinary64 (q : ℚ) : Option ℚ :=
  let ulp : ℚ := 2 ^ max (Int.log 2 q - 52) (-1074)
  let rounded := roundEven (q / ulp) * ulp
  if rounded < 2 ^ (1024 : ℤ) then some rounded else none

/-- `float(lit) == n`. -/
def floatEqInt (lit : List Char) (n : ℤ) : Bool :=
  match lit with
  | '-' :: t => (roundBinary64 (literalValue t)).any fun q => -q = (n : ℚ)
  | 'N' :: _ | 'I' :: _ => false
  | t => (roundBinary64 (literalValue t)).any fun q => q = (n : ℚ)

/-- `value == n`, for an integer `n`. -/
def Json.eqInt (n : ℤ) : Json → Bool
  | .int m => m = n
  | .bool b => (if b then 1 else 0) = n
  | .float lit => floatEqInt lit n
  | _ => false

theorem floatEqInt_unique {lit : List Char} {n k : ℤ} (h : floatEqInt lit n = true)
    (hk : floatEqInt lit k = true) : n = k := by
  unfold floatEqInt at h hk
  split at h
  · obtain ⟨q, hq, hn⟩ := (Option.any_eq_true _ _).1 h
    obtain ⟨r, hr, hm⟩ := (Option.any_eq_true _ _).1 hk
    obtain rfl := Option.some.inj (hq.symm.trans hr)
    exact_mod_cast (of_decide_eq_true hn).symm.trans (of_decide_eq_true hm)
  · cases h
  · cases h
  · rename_i hpositive _ _
    split at hk
    · exact absurd rfl (hpositive _)
    · cases hk
    · cases hk
    obtain ⟨q, hq, hn⟩ := (Option.any_eq_true _ _).1 h
    obtain ⟨r, hr, hm⟩ := (Option.any_eq_true _ _).1 hk
    obtain rfl := Option.some.inj (hq.symm.trans hr)
    exact_mod_cast (of_decide_eq_true hn).symm.trans (of_decide_eq_true hm)

/-- A value is equal to one integer at most. -/
theorem Json.eqInt_unique {v : Json} {n k : ℤ} (h : v.eqInt n = true) (hk : v.eqInt k = true) :
    n = k := by
  cases v with
  | int m => exact (of_decide_eq_true h).symm.trans (of_decide_eq_true hk)
  | bool b => exact (of_decide_eq_true h).symm.trans (of_decide_eq_true hk)
  | float lit => exact floatEqInt_unique h hk
  | null | str _ | arr _ | obj _ => cases h

/-- `value == s`, for a string `s`. -/
def Json.eqStr (s : PyStr) : Json → Bool
  | .str t => t = s
  | _ => false

/-! ## Strings read back -/

theorem hexValue?_digitChar : ∀ d < 16, hexValue? d.digitChar = some d := by decide

theorem hexValue4?_hex4 {n : ℕ} (hn : n < 0x10000) :
    hexValue4? (n / 0x1000 % 16).digitChar (n / 0x100 % 16).digitChar (n / 0x10 % 16).digitChar
      (n % 16).digitChar = some n := by
  rw [hexValue4?, hexValue?_digitChar _ (by omega), hexValue?_digitChar _ (by omega),
    hexValue?_digitChar _ (by omega), hexValue?_digitChar _ (by omega)]
  exact congrArg some (by omega)

theorem scanString_unit {u : CodePoint} (hu : u.val < 0x10000) (t : List Char) :
    scanString ('\\' :: 'u' :: (hex4 u.val ++ t)) = (scanString t).map (consPoint u) := by
  have hnat : Fin.ofNat 0x110000 u.val = u := Fin.ext (by simp)
  simp only [hex4, List.cons_append, List.nil_append]
  rw [scanString, if_neg (by decide), if_pos rfl, hexValue4?_hex4 hu, Option.bind_some, hnat]

theorem CodePoint.units_of_lt {c : CodePoint} (hc : c.val < 0x10000) : c.units = [c] :=
  if_pos hc

/-- A short escape is read back. -/
theorem unescape?_shortEscape? {c : CodePoint} {e : Char} (h : c.shortEscape? = some e) :
    e ≠ 'u' ∧ unescape? e = some c ∧ c.val < 0x10000 := by
  have hc : ∀ n : ℕ, (hn : n < 0x110000) → c.val = n → c = ⟨n, hn⟩ := fun n hn h => Fin.ext h
  rw [CodePoint.shortEscape?] at h
  split_ifs at h with h1 h2 h3 h4 h5 h6 h7
  · rw [hc _ (by decide) h1, ← Option.some.inj h]; decide
  · rw [hc _ (by decide) h2, ← Option.some.inj h]; decide
  · rw [hc _ (by decide) h3, ← Option.some.inj h]; decide
  · rw [hc _ (by decide) h4, ← Option.some.inj h]; decide
  · rw [hc _ (by decide) h5, ← Option.some.inj h]; decide
  · rw [hc _ (by decide) h6, ← Option.some.inj h]; decide
  · rw [hc _ (by decide) h7, ← Option.some.inj h]; decide

theorem scanString_short {e : Char} (he : e ≠ 'u') (t : List Char) :
    scanString ('\\' :: e :: t) = (unescape? e).bind fun c => (scanString t).map (consPoint c) := by
  rw [scanString, if_neg (by decide), if_pos rfl]
  intro _ _ _ _ _ hu
  exact absurd hu he

theorem scanString_plain {c : CodePoint} (h : c.shortEscape? = none)
    (hlo : 0x20 ≤ c.val) (hhi : c.val ≤ 0x7e) (t : List Char) :
    scanString (Char.ofNat c.val :: t) = (scanString t).map (consPoint c) := by
  have hascii : ∀ n < 0x7f, (Char.ofNat n).toNat = n := by decide
  have hval : (Char.ofNat c.val).toNat = c.val := hascii _ (by omega)
  have hq : Char.ofNat c.val ≠ '"' := by
    intro heq
    have : c.val = 0x22 := by rw [← hval, heq]; rfl
    simp [CodePoint.shortEscape?, this] at h
  have hb : Char.ofNat c.val ≠ '\\' := by
    intro heq
    have : c.val = 0x5c := by rw [← hval, heq]; rfl
    simp [CodePoint.shortEscape?, this] at h
  have hpoint : CodePoint.ofChar (Char.ofNat c.val) = c := Fin.ext hval
  rw [scanString.eq_def]
  dsimp only
  rw [if_neg hq, if_neg hb, if_neg (by omega), hpoint]

/-- One escaped code point is read back as its code units. -/
theorem scanString_escape (c : CodePoint) (t : List Char) :
    scanString (c.escape ++ t) = (scanString t).map fun p => (c.units ++ p.1, p.2) := by
  rw [CodePoint.escape]
  cases hs : c.shortEscape? with
  | some e =>
    obtain ⟨heu, hun, hlt⟩ := unescape?_shortEscape? hs
    rw [CodePoint.units_of_lt hlt]
    simp only [List.cons_append, List.nil_append]
    rw [scanString_short heu, hun]
    rfl
  | none =>
    dsimp only
    split_ifs with hp
    · rw [CodePoint.units_of_lt (by omega)]
      simp only [List.cons_append, List.nil_append]
      rw [scanString_plain hs hp.1 hp.2]
      rfl
    · rw [CodePoint.units]
      split_ifs with hlt
      · simp only [List.flatMap_cons, List.flatMap_nil, List.append_nil, List.cons_append,
          List.nil_append]
        rw [scanString_unit hlt]
        rfl
      · have hc : c.val < 0x110000 := c.isLt
        simp only [List.flatMap_cons, List.flatMap_nil, List.append_nil, List.cons_append,
          List.nil_append, List.append_assoc]
        rw [scanString_unit (by simp only [Fin.val_ofNat]; omega),
          scanString_unit (by simp only [Fin.val_ofNat]; omega), Option.map_map]
        rfl

theorem scanString_flatMap_escape (s : PyStr) (t : List Char) :
    scanString (s.flatMap CodePoint.escape ++ '"' :: t) =
      some (s.flatMap CodePoint.units, t) := by
  induction s with
  | nil => rw [List.flatMap_nil, List.nil_append, scanString.eq_def]; rfl
  | cons c s ih =>
    rw [List.flatMap_cons, List.append_assoc, scanString_escape, ih, List.flatMap_cons]
    rfl

/-! ## Surrogate pairs -/

theorem CodePoint.isHigh_iff {c : CodePoint} : c.isHigh = true ↔ 0xd800 ≤ c.val ∧ c.val ≤ 0xdbff := by
  simp [CodePoint.isHigh]

theorem CodePoint.isLow_iff {c : CodePoint} : c.isLow = true ↔ 0xdc00 ≤ c.val ∧ c.val ≤ 0xdfff := by
  simp [CodePoint.isLow]

theorem CodePoint.joinPair_val {h l : CodePoint} (hh : h.isHigh = true) (hl : l.isLow = true) :
    (CodePoint.joinPair h l).val = 0x10000 + (h.val - 0xd800) * 0x400 + (l.val - 0xdc00) := by
  obtain ⟨h1, h2⟩ := CodePoint.isHigh_iff.1 hh
  obtain ⟨l1, l2⟩ := CodePoint.isLow_iff.1 hl
  simp only [CodePoint.joinPair, Fin.val_ofNat]
  omega

theorem PyStr.joinSurrogates_cons_cons (c d : CodePoint) (s : PyStr) :
    PyStr.joinSurrogates (c :: d :: s) =
      if c.isHigh && d.isLow then CodePoint.joinPair c d :: PyStr.joinSurrogates s
      else c :: PyStr.joinSurrogates (d :: s) := rfl

theorem PyStr.joinSurrogates_cons_of_not_pair {c : CodePoint} {s : PyStr}
    (h : ∀ d ∈ s.head?, (c.isHigh && d.isLow) = false) :
    PyStr.joinSurrogates (c :: s) = c :: PyStr.joinSurrogates s := by
  cases s with
  | nil => rfl
  | cons d s => rw [PyStr.joinSurrogates_cons_cons, h d rfl, if_neg (by simp)]

/-- A string without a high surrogate has no pair. -/
theorem PyStr.joinSurrogates_of_not_high {s : PyStr} (h : ∀ c ∈ s, c.isHigh = false) :
    s.joinSurrogates = s := by
  induction s with
  | nil => rfl
  | cons c s ih =>
    have hc : c.isHigh = false := h c (List.mem_cons_self ..)
    rw [PyStr.joinSurrogates_cons_of_not_pair (fun d _ => by rw [hc, Bool.false_and]),
      ih fun d hd => h d (List.mem_cons_of_mem _ hd)]

theorem CodePoint.isHigh_of_ge {c : CodePoint} (h : 0x10000 ≤ c.val) : c.isHigh = false := by
  rw [Bool.eq_false_iff, Ne, CodePoint.isHigh_iff]
  omega

/-- Joining keeps the first code point, or replaces it by one that is no low surrogate. -/
theorem PyStr.joinSurrogates_head_low {s : PyStr} {d : CodePoint} {r : PyStr}
    (h : PyStr.joinSurrogates s = d :: r) (hd : d.isLow = true) : ∃ s', s = d :: s' := by
  match s with
  | [] => simp [PyStr.joinSurrogates] at h
  | [c] => exact ⟨[], by rw [(List.cons.inj h).1]⟩
  | c :: e :: s =>
    rw [PyStr.joinSurrogates_cons_cons] at h
    split_ifs at h with hp
    · obtain ⟨hh, hl⟩ := Bool.and_eq_true_iff.1 hp
      have hv := CodePoint.joinPair_val hh hl
      rw [(List.cons.inj h).1] at hv
      have := CodePoint.isLow_iff.1 hd
      omega
    · exact ⟨e :: s, by rw [(List.cons.inj h).1]⟩

/-- Joined strings hold no pair any more. -/
theorem PyStr.joinSurrogates_idem (s : PyStr) :
    s.joinSurrogates.joinSurrogates = s.joinSurrogates := by
  induction s using PyStr.joinSurrogates.induct with
  | case1 => rfl
  | case2 c => rfl
  | case3 c d s hp ih =>
    obtain ⟨hh, hl⟩ := Bool.and_eq_true_iff.1 hp
    have hv := CodePoint.joinPair_val hh hl
    have hnot : (CodePoint.joinPair c d).isHigh = false := CodePoint.isHigh_of_ge (by omega)
    rw [PyStr.joinSurrogates_cons_cons, if_pos hp, PyStr.joinSurrogates_cons_of_not_pair, ih]
    intro e _
    rw [hnot, Bool.false_and]
  | case4 c d s hp ih =>
    rw [PyStr.joinSurrogates_cons_cons, if_neg hp]
    cases hr : PyStr.joinSurrogates (d :: s) with
    | nil => rfl
    | cons e r =>
      rw [PyStr.joinSurrogates_cons_cons, if_neg, ← hr, ih]
      intro hce
      obtain ⟨hh, hl⟩ := Bool.and_eq_true_iff.1 hce
      obtain ⟨s', hs'⟩ := PyStr.joinSurrogates_head_low hr hl
      exact hp (by rw [hh, (List.cons.inj hs').1, hl]; rfl)

/-- The two units of a code point outside the basic plane are a pair that joins to it. -/
theorem CodePoint.units_of_ge {c : CodePoint} (hc : 0x10000 ≤ c.val) :
    ∃ h l : CodePoint, c.units = [h, l] ∧ h.isHigh = true ∧ h.isLow = false ∧ l.isLow = true ∧
      CodePoint.joinPair h l = c := by
  have hlt : c.val < 0x110000 := c.isLt
  refine ⟨_, _, if_neg (by omega), ?_⟩
  have hh : (Fin.ofNat 0x110000 (0xd800 + (c.val - 0x10000) / 0x400)).val =
      0xd800 + (c.val - 0x10000) / 0x400 := by rw [Fin.val_ofNat]; omega
  have hl : (Fin.ofNat 0x110000 (0xdc00 + (c.val - 0x10000) % 0x400)).val =
      0xdc00 + (c.val - 0x10000) % 0x400 := by rw [Fin.val_ofNat]; omega
  have hhigh := CodePoint.isHigh_iff.2 (by rw [hh]; omega)
  have hlow := CodePoint.isLow_iff.2 (by rw [hl]; omega)
  refine ⟨hhigh, ?_, hlow, Fin.ext ?_⟩
  · rw [Bool.eq_false_iff, Ne, CodePoint.isLow_iff, hh]
    omega
  · rw [CodePoint.joinPair_val hhigh hlow, hh, hl]
    omega

/-- Writing a string as code units and joining the pairs is joining the pairs it had. -/
theorem PyStr.joinSurrogates_units (s : PyStr) :
    PyStr.joinSurrogates (s.flatMap CodePoint.units) = s.joinSurrogates := by
  induction s using PyStr.joinSurrogates.induct with
  | case1 => rfl
  | case2 c =>
    by_cases hc : c.val < 0x10000
    · simp [CodePoint.units_of_lt hc]
    · obtain ⟨h, l, hu, hh, -, hl, hj⟩ := CodePoint.units_of_ge (not_lt.1 hc)
      simp [hu, PyStr.joinSurrogates, hh, hl, hj]
  | case3 c d s hp ih =>
    obtain ⟨hh, hl⟩ := Bool.and_eq_true_iff.1 hp
    have hc := CodePoint.isHigh_iff.1 hh
    have hd := CodePoint.isLow_iff.1 hl
    rw [List.flatMap_cons, List.flatMap_cons, CodePoint.units_of_lt (by omega),
      CodePoint.units_of_lt (by omega)]
    simp only [List.cons_append, List.nil_append]
    rw [PyStr.joinSurrogates_cons_cons, PyStr.joinSurrogates_cons_cons, if_pos hp, if_pos hp, ih]
  | case4 c d s hp ih =>
    rw [PyStr.joinSurrogates_cons_cons, if_neg hp, ← ih, List.flatMap_cons]
    by_cases hc : c.val < 0x10000
    · rw [CodePoint.units_of_lt hc, List.cons_append, List.nil_append,
        PyStr.joinSurrogates_cons_of_not_pair]
      -- the first unit after `c` is `d` itself or a high surrogate
      intro e he
      by_cases hd : d.val < 0x10000
      · rw [List.flatMap_cons, CodePoint.units_of_lt hd] at he
        obtain rfl : d = e := by simpa using he
        exact Bool.eq_false_iff.2 hp
      · obtain ⟨h, l, hu, -, hlow, -, -⟩ := CodePoint.units_of_ge (not_lt.1 hd)
        rw [List.flatMap_cons, hu] at he
        obtain rfl : h = e := by simpa using he
        rw [hlow, Bool.and_false]
    · obtain ⟨h, l, hu, hh, -, hl, hj⟩ := CodePoint.units_of_ge (not_lt.1 hc)
      rw [hu]
      simp only [List.cons_append, List.nil_append]
      rw [PyStr.joinSurrogates_cons_cons, hh, hl, Bool.and_self, if_pos rfl, hj]

/-- A joined pair is written as the pair is. -/
theorem CodePoint.escape_joinPair {h l : CodePoint} (hh : h.isHigh = true) (hl : l.isLow = true) :
    (CodePoint.joinPair h l).escape = h.escape ++ l.escape := by
  have hv := CodePoint.joinPair_val hh hl
  obtain ⟨h1, h2⟩ := CodePoint.isHigh_iff.1 hh
  obtain ⟨l1, l2⟩ := CodePoint.isLow_iff.1 hl
  have hescape : ∀ c : CodePoint, 0xd800 ≤ c.val →
      c.escape = c.units.flatMap fun u => '\\' :: 'u' :: hex4 u.val := by
    intro c hc
    have hshort : c.shortEscape? = none := by
      unfold CodePoint.shortEscape?
      split_ifs <;> first | omega | rfl
    rw [CodePoint.escape, hshort]
    exact if_neg (by omega)
  have hunits : (CodePoint.joinPair h l).units = [h, l] := by
    have hfirst : Fin.ofNat 0x110000
        (0xd800 + ((CodePoint.joinPair h l).val - 0x10000) / 0x400) = h :=
      Fin.ext (by rw [Fin.val_ofNat, hv]; omega)
    have hsecond : Fin.ofNat 0x110000
        (0xdc00 + ((CodePoint.joinPair h l).val - 0x10000) % 0x400) = l :=
      Fin.ext (by rw [Fin.val_ofNat, hv]; omega)
    rw [CodePoint.units, if_neg (by omega), hfirst, hsecond]
  rw [hescape _ (by omega), hescape h h1, hescape l (by omega), hunits,
    CodePoint.units_of_lt (by omega), CodePoint.units_of_lt (by omega)]
  rfl

/-- **Joining pairs does not change the literal of a string.** -/
theorem quote_joinSurrogates (s : PyStr) : quote s.joinSurrogates = quote s := by
  have hflat : s.joinSurrogates.flatMap CodePoint.escape = s.flatMap CodePoint.escape := by
    induction s using PyStr.joinSurrogates.induct with
    | case1 => rfl
    | case2 c => rfl
    | case3 c d s hp ih =>
      obtain ⟨hh, hl⟩ := Bool.and_eq_true_iff.1 hp
      rw [PyStr.joinSurrogates_cons_cons, if_pos hp, List.flatMap_cons, List.flatMap_cons,
        List.flatMap_cons, ih, CodePoint.escape_joinPair hh hl, List.append_assoc]
    | case4 c d s hp ih =>
      rw [PyStr.joinSurrogates_cons_cons, if_neg hp, List.flatMap_cons, ih]
      rfl
  rw [quote, hflat, quote]

/-! ## Numbers read back -/

/-- The text behind a number does not continue it. -/
def NumberEnd (t : List Char) : Prop :=
  ∀ c ∈ t.head?, c.isDigit = false ∧ c ≠ '.' ∧ c ≠ 'e' ∧ c ≠ 'E'

theorem numberEnd_nil : NumberEnd [] := by
  intro c hc
  simp at hc

theorem numberEnd_cons {c : Char} (t : List Char) (hc : c = ',' ∨ c = ']' ∨ c = '\x7d') :
    NumberEnd (c :: t) := by
  intro d hd
  obtain rfl : c = d := by simpa using hd
  rcases hc with rfl | rfl | rfl <;> decide

theorem isDigit_of_mem_toDigits {n : ℕ} {c : Char} (hc : c ∈ Nat.toDigits 10 n) :
    c.isDigit = true :=
  Nat.isDigit_of_mem_toDigits (by decide) le_rfl hc

theorem takeWhile_digits (n : ℕ) {t : List Char} (ht : NumberEnd t) :
    (Nat.toDigits 10 n ++ t).takeWhile Char.isDigit = Nat.toDigits 10 n := by
  rw [List.takeWhile_append_of_pos fun c hc => isDigit_of_mem_toDigits hc]
  cases t with
  | nil => simp
  | cons c t => simp [(ht c rfl).1]

theorem dropWhile_digits (n : ℕ) {t : List Char} (ht : NumberEnd t) :
    (Nat.toDigits 10 n ++ t).dropWhile Char.isDigit = t := by
  rw [List.dropWhile_append_of_pos fun c hc => isDigit_of_mem_toDigits hc]
  cases t with
  | nil => rfl
  | cons c t => simp [(ht c rfl).1]

/-- The digits of a positive number do not start with a zero. -/
theorem toDigits_head {n : ℕ} (hn : 0 < n) : ∃ c cs, Nat.toDigits 10 n = c :: cs ∧ c ≠ '0' := by
  induction n using Nat.strongRecOn with
  | ind n ih =>
    by_cases hlt : n < 10
    · have hdigit : ∀ d < 10, 0 < d → d.digitChar ≠ '0' := by decide
      exact ⟨_, _, Nat.toDigits_of_lt_base hlt, hdigit n hlt hn⟩
    · obtain ⟨c, cs, hcs, hc⟩ := ih (n / 10) (by omega) (by omega)
      refine ⟨c, cs ++ [(n % 10).digitChar], ?_, hc⟩
      rw [Nat.toDigits_of_base_le (by decide) (by omega), hcs, List.cons_append]

theorem scanWhole_toDigits (n : ℕ) {t : List Char} (ht : NumberEnd t) :
    scanWhole (Nat.toDigits 10 n ++ t) = some (Nat.toDigits 10 n, t) := by
  rcases Nat.eq_zero_or_pos n with rfl | hn
  · simp [scanWhole]
  · obtain ⟨c, cs, hcs, hc⟩ := toDigits_head hn
    have hd : c.isDigit = true := isDigit_of_mem_toDigits (n := n) (by simp [hcs])
    have htake := takeWhile_digits n ht
    have hdrop := dropWhile_digits n ht
    rw [hcs, List.cons_append] at htake hdrop ⊢
    rw [scanWhole, if_neg hc, if_pos hd, htake, hdrop]

theorem scanFraction_of_end {t : List Char} (ht : NumberEnd t) : scanFraction t = ([], t) := by
  cases t with
  | nil => rfl
  | cons c t => rw [scanFraction, if_neg fun h => (ht c rfl).2.1 h.1]

theorem scanExponent_of_end {t : List Char} (ht : NumberEnd t) : scanExponent t = ([], t) := by
  cases t with
  | nil => rfl
  | cons c t =>
    obtain ⟨-, -, he, hE⟩ := ht c rfl
    rw [scanExponent, if_neg fun h => h.1.elim he hE]

theorem scanUnsigned_toDigits (neg : Bool) (n : ℕ) {t : List Char} (ht : NumberEnd t) :
    scanUnsigned neg (Nat.toDigits 10 n ++ t) = some (.int (if neg then -(n : ℤ) else n), t) := by
  rw [scanUnsigned, scanWhole_toDigits n ht]
  simp [scanFraction_of_end ht, scanExponent_of_end ht, Nat.ofDigitChars_ten_toDigits]

theorem toDigits_ne_nil_head (n : ℕ) :
    ∃ c cs, Nat.toDigits 10 n = c :: cs ∧ c.isDigit = true := by
  cases h : Nat.toDigits 10 n with
  | nil => exact absurd h Nat.toDigits_ne_nil
  | cons c cs => exact ⟨c, cs, rfl, isDigit_of_mem_toDigits (n := n) (by simp [h])⟩

theorem not_isDigit_of_mem {c : Char} (hc : c.isDigit = true) :
    c ≠ '-' ∧ c ≠ '"' ∧ c ≠ '[' ∧ c ≠ ']' ∧ c ≠ '\x7b' ∧ c ≠ 'n' ∧ c ≠ 't' ∧ c ≠ 'f' ∧ c ≠ 'N' ∧
      c ≠ 'I' ∧ isWhitespace c = false := by
  refine ⟨?_, ?_, ?_, ?_, ?_, ?_, ?_, ?_, ?_, ?_, ?_⟩
  all_goals first
    | (rintro rfl; revert hc; decide)
    | skip
  by_contra hw
  simp only [isWhitespace, Bool.not_eq_false, Bool.or_eq_true, decide_eq_true_eq] at hw
  rcases hw with ((rfl | rfl) | rfl) | rfl <;> revert hc <;> decide

theorem scanNumber_intText (n : ℤ) {t : List Char} (ht : NumberEnd t) :
    scanNumber (intText n ++ t) = some (.int n, t) := by
  rw [intText]
  split_ifs with hn
  · rw [List.cons_append, scanNumber, if_pos rfl, scanUnsigned_toDigits true _ ht, if_pos rfl]
    exact congrArg some (Prod.ext (congrArg Json.int (by omega)) rfl)
  · obtain ⟨c, cs, hcs, hc⟩ := toDigits_ne_nil_head n.natAbs
    have hscan := scanUnsigned_toDigits false n.natAbs ht
    rw [hcs, List.cons_append] at hscan ⊢
    rw [scanNumber, if_neg (not_isDigit_of_mem hc).1, hscan, if_neg (by simp)]
    exact congrArg some (Prod.ext (congrArg Json.int (by omega)) rfl)

theorem scanConstant_intText (n : ℤ) (t : List Char) : scanConstant (intText n ++ t) = none := by
  obtain ⟨c, cs, hcs, hc⟩ := toDigits_ne_nil_head n.natAbs
  obtain ⟨h1, -, -, -, -, h2, h3, h4, h5, h6, -⟩ := not_isDigit_of_mem hc
  rw [intText, hcs]
  split_ifs with hn
  · simp [scanConstant, constants, dropWord, h6]
  · simp [scanConstant, constants, dropWord, h1, h2, h3, h4, h5, h6]

/-! ## Values read back -/

/-- A text that starts as a value does: not with whitespace or a closing bracket. -/
def StartsValue (t : List Char) : Prop :=
  ∃ c r, t = c :: r ∧ isWhitespace c = false ∧ c ≠ ']'

/-- A float literal: the scanner reads it back. -/
def FloatLiteral (lit : List Char) : Prop :=
  StartsValue lit ∧
    ∀ fuel t, NumberEnd t → scanValue (fuel + 1) (lit ++ t) = some (.float lit, t)

mutual

/-- Every float of the value is a literal. -/
def Json.Printable : Json → Prop
  | .float lit => FloatLiteral lit
  | .arr items => PrintableItems items
  | .obj members => PrintableMembers members
  | _ => True

/-- `Json.Printable` on the items of an array. -/
def PrintableItems : List Json → Prop
  | [] => True
  | v :: vs => v.Printable ∧ PrintableItems vs

/-- `Json.Printable` on the members of an object. -/
def PrintableMembers : List (PyStr × Json) → Prop
  | [] => True
  | (_, v) :: kvs => v.Printable ∧ PrintableMembers kvs

end

mutual

/-- The value with every string written as code units. -/
def Json.units : Json → Json
  | .str s => .str (s.flatMap CodePoint.units)
  | .arr items => .arr (unitsItems items)
  | .obj members => .obj (unitsMembers members)
  | v => v

/-- `Json.units` on the items of an array. -/
def unitsItems : List Json → List Json
  | [] => []
  | v :: vs => v.units :: unitsItems vs

/-- `Json.units` on the members of an object. -/
def unitsMembers : List (PyStr × Json) → List (PyStr × Json)
  | [] => []
  | (k, v) :: kvs => (k.flatMap CodePoint.units, v.units) :: unitsMembers kvs

end

mutual

/-- Code units make the same Python value. -/
theorem Json.build_units : ∀ v : Json, v.units.build = v.build
  | .null | .bool _ | .int _ | .float _ => by simp [Json.units]
  | .str s => by rw [Json.units, Json.build, Json.build, PyStr.joinSurrogates_units]
  | .arr items => by rw [Json.units, Json.build, Json.build, buildItems_units items]
  | .obj members => by rw [Json.units, Json.build, Json.build, buildMembers_units members]

theorem buildItems_units : ∀ vs, buildItems (unitsItems vs) = buildItems vs
  | [] => by rw [unitsItems]
  | v :: vs => by rw [unitsItems, buildItems, buildItems, v.build_units, buildItems_units vs]

theorem buildMembers_units : ∀ kvs, buildMembers (unitsMembers kvs) = buildMembers kvs
  | [] => by rw [unitsMembers]
  | (k, v) :: kvs => by
    rw [unitsMembers, buildMembers, buildMembers, v.build_units, buildMembers_units kvs,
      PyStr.joinSurrogates_units]

end

theorem dumps_str (s : PyStr) : dumps (.str s) = quote s := by rw [dumps]

theorem dumps_obj (members : List (PyStr × Json)) :
    dumps (.obj members) = '\x7b' :: (dumpsMembers members ++ ['\x7d']) := by rw [dumps]

theorem dumpsItems_cons_cons (v w : Json) (vs : List Json) :
    dumpsItems (v :: w :: vs) = dumps v ++ (',' :: ' ' :: dumpsItems (w :: vs)) := by
  rw [dumpsItems]
  simp

theorem dumpsMembers_cons_cons (k : PyStr) (v : Json) (kv : PyStr × Json)
    (kvs : List (PyStr × Json)) :
    dumpsMembers ((k, v) :: kv :: kvs) =
      quote k ++ (':' :: ' ' :: (dumps v ++ (',' :: ' ' :: dumpsMembers (kv :: kvs)))) := by
  rw [dumpsMembers]
  simp

theorem startsValue_append {t : List Char} (h : StartsValue t) (r : List Char) :
    StartsValue (t ++ r) := by
  obtain ⟨c, u, rfl, hc⟩ := h
  exact ⟨c, u ++ r, rfl, hc⟩

theorem startsValue_intText (n : ℤ) : StartsValue (intText n) := by
  obtain ⟨c, cs, hcs, hc⟩ := toDigits_ne_nil_head n.natAbs
  rw [intText, hcs]
  split_ifs
  · exact ⟨'-', _, rfl, by decide, by decide⟩
  · obtain ⟨-, -, -, hb, -, -, -, -, -, -, hw⟩ := not_isDigit_of_mem hc
    exact ⟨c, cs, rfl, hw, hb⟩

theorem startsValue_dumps {v : Json} (hv : v.Printable) : StartsValue (dumps v) := by
  cases v with
  | null => exact ⟨'n', _, by rw [dumps], by decide, by decide⟩
  | bool b => cases b with
    | true => exact ⟨'t', _, by rw [dumps], by decide, by decide⟩
    | false => exact ⟨'f', _, by rw [dumps], by decide, by decide⟩
  | int n => rw [dumps]; exact startsValue_intText n
  | float lit => rw [dumps]; rw [Json.Printable] at hv; exact hv.1
  | str s => exact ⟨'"', _, by rw [dumps, quote], by decide, by decide⟩
  | arr items => exact ⟨'[', _, by rw [dumps], by decide, by decide⟩
  | obj members => exact ⟨'\x7b', _, by rw [dumps], by decide, by decide⟩

theorem startsValue_dumpsItems {v : Json} (hv : v.Printable) (vs : List Json) :
    StartsValue (dumpsItems (v :: vs)) := by
  cases vs with
  | nil => rw [dumpsItems]; exact startsValue_dumps hv
  | cons w vs =>
    rw [dumpsItems_cons_cons]
    exact startsValue_append (startsValue_dumps hv) _

theorem skipWhitespace_of_starts {t : List Char} (h : StartsValue t) : skipWhitespace t = t := by
  obtain ⟨c, r, rfl, hc, -⟩ := h
  rw [skipWhitespace, List.dropWhile_cons_of_neg (by simp [hc])]

theorem skipWhitespace_cons {c : Char} (t : List Char) (hc : isWhitespace c = false) :
    skipWhitespace (c :: t) = c :: t := by
  rw [skipWhitespace, List.dropWhile_cons_of_neg (by simp [hc])]

theorem skipWhitespace_space {t : List Char} (h : StartsValue t) :
    skipWhitespace (' ' :: t) = t := by
  have hskip : skipWhitespace (' ' :: t) = skipWhitespace t :=
    List.dropWhile_cons_of_pos (by decide)
  rw [hskip, skipWhitespace_of_starts h]

/-- An integer is scanned as itself. -/
theorem scanValue_int (fuel : ℕ) (n : ℤ) {t : List Char} (ht : NumberEnd t) :
    scanValue (fuel + 1) (intText n ++ t) = some (.int n, t) := by
  have hscan : (scanConstant (intText n ++ t)).or (scanNumber (intText n ++ t)) =
      some (.int n, t) := by
    rw [scanConstant_intText, scanNumber_intText n ht, Option.none_or]
  obtain ⟨c, cs, hcs, hc⟩ := toDigits_ne_nil_head n.natAbs
  obtain ⟨-, h1, h2, -, h3, -⟩ := not_isDigit_of_mem hc
  rw [intText, hcs] at hscan ⊢
  split_ifs at hscan ⊢
  · rw [List.cons_append] at hscan ⊢
    rw [scanValue, if_neg (by decide), if_neg (by decide), if_neg (by decide), hscan]
  · rw [List.cons_append] at hscan ⊢
    rw [scanValue, if_neg h1, if_neg h2, if_neg h3, hscan]

theorem scanString_quote (s : PyStr) (t : List Char) :
    ∃ r, quote s ++ t = '"' :: r ∧ scanString r = some (s.flatMap CodePoint.units, t) := by
  refine ⟨s.flatMap CodePoint.escape ++ '"' :: t, by simp [quote], ?_⟩
  exact scanString_flatMap_escape s t

theorem startsValue_dumpsMembers (k : PyStr) (v : Json) (kvs : List (PyStr × Json))
    (t : List Char) : ∃ r, dumpsMembers ((k, v) :: kvs) ++ t = '"' :: r := by
  cases kvs with
  | nil => exact ⟨_, by rw [dumpsMembers, quote]; rfl⟩
  | cons kv kvs => exact ⟨_, by rw [dumpsMembers_cons_cons, quote]; rfl⟩

theorem scanKey_quote (k : PyStr) {t : List Char} (ht : StartsValue t) :
    scanKey (quote k ++ (':' :: ' ' :: t)) = some (k.flatMap CodePoint.units, t) := by
  obtain ⟨r, hr, hscan⟩ := scanString_quote k (':' :: ' ' :: t)
  rw [hr, scanKey, if_pos rfl, hscan, Option.bind_some, skipWhitespace_cons _ (by decide)]
  dsimp only
  rw [if_pos rfl, skipWhitespace_space ht]

mutual

/-- **The scanner reads back what `dumps` writes**, as code units. -/
theorem scanValue_dumps : ∀ (v : Json) (fuel : ℕ) (t : List Char), v.Printable → NumberEnd t →
    2 * (dumps v).length ≤ fuel + 1 → scanValue fuel (dumps v ++ t) = some (v.units, t)
  | v, 0, t, hv, ht, hf => by
    obtain ⟨c, r, hc, -⟩ := startsValue_dumps hv
    rw [hc, List.length_cons] at hf
    omega
  | .null, fuel + 1, t, hv, ht, hf => by
    simp [dumps, scanValue, scanConstant, constants, dropWord, Json.units]
  | .bool b, fuel + 1, t, hv, ht, hf => by
    cases b <;> simp [dumps, scanValue, scanConstant, constants, dropWord, Json.units]
  | .int n, fuel + 1, t, hv, ht, hf => by
    rw [dumps, Json.units, scanValue_int fuel n ht]
    all_goals simp
  | .float lit, fuel + 1, t, hv, ht, hf => by
    rw [Json.Printable] at hv
    rw [dumps, Json.units, hv.2 fuel t ht]
    all_goals simp
  | .str s, fuel + 1, t, hv, ht, hf => by
    obtain ⟨r, hr, hscan⟩ := scanString_quote s t
    rw [dumps, hr, scanValue, if_pos rfl, hscan, Json.units]
    rfl
  | .arr [], fuel + 1, t, hv, ht, hf => by
    simp [dumps, dumpsItems, scanValue, skipWhitespace_cons _ (by decide : isWhitespace ']' = false),
      Json.units, unitsItems]
  | .arr (v :: vs), fuel + 1, t, hv, ht, hf => by
    rw [Json.Printable] at hv
    have hlen : 2 * (dumpsItems (v :: vs)).length ≤ fuel := by
      simp only [dumps, List.length_cons, List.length_append, List.length_nil] at hf
      omega
    have hitems := scanItems_dumps v vs fuel t hv hlen
    have hstart := startsValue_append (startsValue_dumpsItems hv.1 vs) (']' :: t)
    rw [dumps, List.cons_append, List.append_assoc, List.singleton_append, scanValue,
      if_neg (by decide), if_pos rfl, skipWhitespace_of_starts hstart]
    obtain ⟨c, r, hc, -, hne⟩ := hstart
    rw [hc] at hitems ⊢
    rw [if_neg (by simpa using hne), hitems, Json.units]
    rfl
  | .obj [], fuel + 1, t, hv, ht, hf => by
    simp [dumps, dumpsMembers, scanValue,
      skipWhitespace_cons _ (by decide : isWhitespace '\x7d' = false), Json.units, unitsMembers]
  | .obj ((k, v) :: kvs), fuel + 1, t, hv, ht, hf => by
    rw [Json.Printable] at hv
    have hlen : 2 * (dumpsMembers ((k, v) :: kvs)).length ≤ fuel := by
      simp only [dumps, List.length_cons, List.length_append, List.length_nil] at hf
      omega
    have hmembers := scanMembers_dumps k v kvs fuel t hv hlen
    rw [dumps, List.cons_append, List.append_assoc, List.singleton_append, scanValue,
      if_neg (by decide), if_neg (by decide), if_pos rfl]
    obtain ⟨r, hr⟩ := startsValue_dumpsMembers k v kvs ('\x7d' :: t)
    rw [hr] at hmembers ⊢
    rw [skipWhitespace_cons _ (by decide), if_neg (by simp), hmembers, Json.units]
    rfl

theorem scanItems_dumps : ∀ (v : Json) (vs : List Json) (fuel : ℕ) (t : List Char),
    PrintableItems (v :: vs) → 2 * (dumpsItems (v :: vs)).length ≤ fuel →
      scanItems fuel (dumpsItems (v :: vs) ++ ']' :: t) = some (unitsItems (v :: vs), t)
  | v, vs, 0, t, hv, hf => by
    rw [PrintableItems] at hv
    obtain ⟨c, r, hc, -⟩ := startsValue_dumpsItems hv.1 vs
    rw [hc, List.length_cons] at hf
    omega
  | v, [], fuel + 1, t, hv, hf => by
    rw [PrintableItems] at hv
    rw [dumpsItems] at hf ⊢
    rw [scanItems, scanValue_dumps v fuel (']' :: t) hv.1 (numberEnd_cons t (by simp)) (by omega),
      Option.bind_some, skipWhitespace_cons _ (by decide), unitsItems, unitsItems]
    rfl
  | v, w :: vs, fuel + 1, t, hv, hf => by
    rw [PrintableItems] at hv
    have hw : w.Printable := by
      have h := hv.2
      rw [PrintableItems] at h
      exact h.1
    have hstart := startsValue_append (startsValue_dumpsItems hw vs) (']' :: t)
    rw [dumpsItems_cons_cons] at hf ⊢
    simp only [List.length_append, List.length_cons] at hf
    rw [List.append_assoc, List.cons_append, List.cons_append, scanItems,
      scanValue_dumps v fuel _ hv.1 (numberEnd_cons _ (by simp)) (by omega),
      Option.bind_some, skipWhitespace_cons _ (by decide)]
    dsimp only
    rw [if_neg (by decide), if_pos rfl, skipWhitespace_space hstart,
      scanItems_dumps w vs fuel t hv.2 (by omega), unitsItems]
    rfl

theorem scanMembers_dumps : ∀ (k : PyStr) (v : Json) (kvs : List (PyStr × Json)) (fuel : ℕ)
    (t : List Char), PrintableMembers ((k, v) :: kvs) →
      2 * (dumpsMembers ((k, v) :: kvs)).length ≤ fuel →
        scanMembers fuel (dumpsMembers ((k, v) :: kvs) ++ '\x7d' :: t) =
          some (unitsMembers ((k, v) :: kvs), t)
  | k, v, kvs, 0, t, hv, hf => by
    obtain ⟨r, hr⟩ := startsValue_dumpsMembers k v kvs []
    rw [List.append_nil] at hr
    rw [hr, List.length_cons] at hf
    omega
  | k, v, [], fuel + 1, t, hv, hf => by
    rw [PrintableMembers] at hv
    rw [dumpsMembers] at hf ⊢
    simp only [List.length_append, List.length_cons] at hf
    rw [List.append_assoc, List.cons_append, List.cons_append, scanMembers,
      scanKey_quote k (startsValue_append (startsValue_dumps hv.1) _), Option.bind_some,
      scanValue_dumps v fuel _ hv.1 (numberEnd_cons t (by simp)) (by omega), Option.bind_some,
      skipWhitespace_cons _ (by decide), unitsMembers, unitsMembers]
    rfl
  | k, v, (k', v') :: kvs, fuel + 1, t, hv, hf => by
    rw [PrintableMembers] at hv
    obtain ⟨r', hr'⟩ := startsValue_dumpsMembers k' v' kvs ('\x7d' :: t)
    have hstart : StartsValue (dumpsMembers ((k', v') :: kvs) ++ '\x7d' :: t) :=
      ⟨'"', r', hr', by decide, by decide⟩
    rw [dumpsMembers_cons_cons] at hf ⊢
    simp only [List.length_append, List.length_cons] at hf
    simp only [List.append_assoc, List.cons_append]
    rw [scanMembers, scanKey_quote k (startsValue_append (startsValue_dumps hv.1) _),
      Option.bind_some, scanValue_dumps v fuel _ hv.1 (numberEnd_cons _ (by simp)) (by omega),
      Option.bind_some, skipWhitespace_cons _ (by decide)]
    dsimp only
    rw [if_neg (by decide), if_pos rfl, skipWhitespace_space hstart,
      scanMembers_dumps k' v' kvs fuel t hv.2 (by omega), unitsMembers]
    rfl

end

/-- **Round trip.** Reading a dumped value gives the value with its surrogate pairs joined. -/
theorem loads_dumps {v : Json} (hv : v.Printable) : loads (dumps v) = some v.build := by
  have hscan := scanValue_dumps v (2 * (dumps v).length) [] hv numberEnd_nil (by omega)
  rw [List.append_nil] at hscan
  rw [loads, skipWhitespace_of_starts (startsValue_dumps hv), hscan, Option.bind_some,
    if_pos (by rfl), Json.build_units]

/-- `json.dumps` and `json.loads` round-trip the string. -/
def JsonRoundTrips (s : PyStr) : Prop := loads (dumps (.str s)) = some (.str s)

theorem jsonRoundTrips_iff {s : PyStr} : JsonRoundTrips s ↔ s.joinSurrogates = s := by
  have hprint : (Json.str s).Printable := trivial
  rw [JsonRoundTrips, loads_dumps hprint, Json.build, Option.some.injEq, Json.str.injEq]

/-! ## Values made by `loads` -/

/-- A value as `loads` makes it: its surrogate pairs are joined. -/
def Json.Built (v : Json) : Prop := ∃ w : Json, v = w.build

theorem loads_built {t : List Char} {v : Json} (h : loads t = some v) : v.Built := by
  obtain ⟨p, -, hp⟩ := Option.bind_eq_some_iff.1 h
  split_ifs at hp
  exact ⟨p.1, (Option.some.inj hp).symm⟩

theorem Json.Built.joined {s : PyStr} (h : Json.Built (.str s)) : s.joinSurrogates = s := by
  obtain ⟨w, hw⟩ := h
  cases w with
  | str s' =>
    rw [Json.build] at hw
    obtain rfl : s = s'.joinSurrogates := Json.str.inj hw
    exact PyStr.joinSurrogates_idem s'
  | null | bool _ | int _ | float _ | arr _ | obj _ => simp [Json.build] at hw

theorem mem_setMember {k : PyStr} {v : Json} {kv : PyStr × Json} {d : List (PyStr × Json)}
    (h : kv ∈ setMember k v d) : kv.2 = v ∨ kv ∈ d := by
  induction d with
  | nil =>
    rw [setMember, List.mem_singleton] at h
    exact Or.inl (by rw [h])
  | cons x xs ih =>
    rw [setMember] at h
    split_ifs at h with hx
    · rcases List.mem_cons.1 h with rfl | hmem
      · exact Or.inl rfl
      · exact Or.inr (List.mem_cons_of_mem _ hmem)
    · rcases List.mem_cons.1 h with rfl | hmem
      · exact Or.inr (List.mem_cons_self ..)
      · exact (ih hmem).imp_right (List.mem_cons_of_mem _)

/-- A dict holds no value that was not set. -/
theorem mem_dictOf {kvs : List (PyStr × Json)} {P : Json → Prop} (hP : ∀ kv ∈ kvs, P kv.2) :
    ∀ kv ∈ dictOf kvs, P kv.2 := by
  have hfold : ∀ d : List (PyStr × Json), (∀ kv ∈ d, P kv.2) →
      ∀ kv ∈ kvs.foldl (fun d kv => setMember kv.1 kv.2 d) d, P kv.2 := by
    induction kvs with
    | nil => exact fun d hd => hd
    | cons x xs ih =>
      intro d hd
      refine ih (fun kv hkv => hP kv (List.mem_cons_of_mem _ hkv)) _ fun kv hkv => ?_
      rcases mem_setMember hkv with heq | hmem
      · exact heq ▸ hP x (List.mem_cons_self ..)
      · exact hd kv hmem
  exact hfold [] (by simp)

theorem buildMembers_built (kvs : List (PyStr × Json)) : ∀ kv ∈ buildMembers kvs, kv.2.Built := by
  induction kvs with
  | nil => simp [buildMembers]
  | cons x xs ih =>
    intro kv hkv
    rw [buildMembers] at hkv
    rcases List.mem_cons.1 hkv with rfl | hmem
    · exact ⟨x.2, rfl⟩
    · exact ih kv hmem

theorem Json.Built.get {members : List (PyStr × Json)} (h : Json.Built (.obj members)) (k : PyStr) :
    (Json.get members k).Built := by
  obtain ⟨w, hw⟩ := h
  cases w with
  | obj kvs =>
    rw [Json.build] at hw
    obtain rfl := Json.obj.inj hw
    rw [Json.get]
    cases hfind : (dictOf (buildMembers kvs)).find? fun kv => kv.1 = k with
    | none => exact ⟨.null, by simp [Json.build]⟩
    | some kv => exact mem_dictOf (buildMembers_built kvs) kv (List.mem_of_find?_eq_some hfind)
  | null | bool _ | int _ | float _ | str _ | arr _ => simp [Json.build] at hw

end Lubko.Lib
