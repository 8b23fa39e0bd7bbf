import Lubko.Lib.Json

/-!
# Reading text as `jsonb`

PostgreSQL's `text IS JSON` holds for every text of the JSON grammar. The input conversion of `jsonb`
reads the same grammar and then refuses three kinds of values: a string with `\u0000`, a string with
an unpaired surrogate escape, and a number beyond the range of `numeric`.

* `isJson`, `jsonbIn` — the test and the conversion.
* `Json.storable` — what `jsonb` can hold, at every depth.
* `jsonbIn_isSome` — a JSON text converts exactly when its value is storable.
-/

namespace Lubko.Lib

/-! ## The grammar -/

/-- The value of a text under the grammar of `scanValue`, escapes not yet joined. -/
def scanText (t : List Char) : Option Json :=
  (scanValue (2 * t.length) (skipWhitespace t)).bind fun p =>
    if skipWhitespace p.2 = [] then some p.1 else none

/-- The constants that the JSON grammar does not have. -/
def extraConstants : List (List Char) :=
  ["NaN".toList, "Infinity".toList, "-Infinity".toList]

mutual

/-- The value is written without the extra constants. -/
def Json.standard : Json → Bool
  | .float lit => lit ∉ extraConstants
  | .arr items => standardItems items
  | .obj members => standardMembers members
  | _ => true

/-- `Json.standard` on the items of an array. -/
def standardItems : List Json → Bool
  | [] => true
  | v :: vs => v.standard && standardItems vs

/-- `Json.standard` on the members of an object. -/
def standardMembers : List (PyStr × Json) → Bool
  | [] => true
  | (_, v) :: kvs => v.standard && standardMembers kvs

end

/-- `text IS JSON`. -/
def isJson (t : List Char) : Bool := (scanText t).any Json.standard

/-! ## Numbers -/

/-- A number literal: its sign, the digits before and behind the point, and the exponent. -/
structure Numeral where
  neg : Bool
  whole : List Char
  frac : List Char
  exponent : ℤ

namespace Numeral

def ofLiteral (lit : List Char) : Numeral :=
  let neg := lit.head? = some '-'
  let t := if neg then lit.tail else lit
  let f := scanFraction (t.dropWhile Char.isDigit)
  let e := scanSign ((scanExponent f.2).1.drop 1)
  { neg
    whole := t.takeWhile Char.isDigit
    frac := f.1.drop 1
    exponent := if e.1 = ['-'] then -(Nat.ofDigitChars 10 e.2 0) else Nat.ofDigitChars 10 e.2 0 }

variable (n : Numeral)

/-- The number without its point. -/
def coefficient : ℕ := Nat.ofDigitChars 10 (n.whole ++ n.frac) 0

/-- The digits `numeric` keeps behind the point. -/
def scale : ℕ := ((n.frac.length : ℤ) - n.exponent).toNat

/-- The limits of `numeric`: 131072 digits before the point and 16383 behind it, and an exponent
below half of the greatest `int`. -/
def inRange : Bool :=
  n.exponent.natAbs < 1073741823 && n.scale ≤ 16383 &&
    (n.coefficient = 0 ||
      ((Nat.toDigits 10 n.coefficient).length : ℤ) + n.exponent - n.frac.length ≤ 131072)

/-- The number as `numeric` prints it: no exponent, and as many digits behind the point as its
scale. -/
def toJson : Json :=
  let value := n.coefficient * 10 ^ (n.exponent - n.frac.length + n.scale).toNat
  if n.scale = 0 then .int (if n.neg then -value else value)
  else
    let digits := Nat.toDigits 10 value
    let padded := List.replicate (n.scale + 1 - digits.length) '0' ++ digits
    let point := padded.length - n.scale
    -- `numeric` has no negative zero
    .float ((if n.neg && n.coefficient ≠ 0 then ['-'] else []) ++ padded.take point ++
      '.' :: padded.drop point)

end Numeral

/-! ## The conversion -/

/-- The string of a sequence of escaped units and characters; `none` is an error. -/
def jsonbString? : PyStr → Option PyStr
  | [] => some []
  | [c] => if c = 0 || c.isHigh || c.isLow then none else some [c]
  | c :: d :: s =>
    if c = 0 then none
    else if c.isHigh then
      if d.isLow then (jsonbString? s).map (CodePoint.joinPair c d :: ·) else none
    else if c.isLow then none
    else (jsonbString? (d :: s)).map (c :: ·)

mutual

/-- The `jsonb` value of a scanned one; of a repeated key the last value counts. -/
def Json.toJsonb? : Json → Option Json
  | .null => some .null
  | .bool b => some (.bool b)
  | .int n => if (Nat.toDigits 10 n.natAbs).length ≤ 131072 then some (.int n) else none
  | .float lit =>
    if (Numeral.ofLiteral lit).inRange then some (Numeral.ofLiteral lit).toJson else none
  | .str s => (jsonbString? s).map .str
  | .arr items => (jsonbItems? items).map .arr
  | .obj members => (jsonbMembers? members).map fun kvs => .obj (dictOf kvs)

/-- `Json.toJsonb?` on the items of an array. -/
def jsonbItems? : List Json → Option (List Json)
  | [] => some []
  | v :: vs => v.toJsonb?.bind fun v => (jsonbItems? vs).map (v :: ·)

/-- `Json.toJsonb?` on the keys and values of an object. -/
def jsonbMembers? : List (PyStr × Json) → Option (List (PyStr × Json))
  | [] => some []
  | (k, v) :: kvs =>
    (jsonbString? k).bind fun k => v.toJsonb?.bind fun v => (jsonbMembers? kvs).map ((k, v) :: ·)

end

/-- `text::jsonb`; `none` is an error. -/
def jsonbIn (t : List Char) : Option Json :=
  (scanText t).bind fun v => if v.standard then v.toJsonb? else none

/-! ## What `jsonb` can hold -/

/-- No NUL, and no surrogate outside a pair. -/
def PyStr.storable (s : PyStr) : Bool :=
  s.all (fun c => c ≠ 0) && s.joinSurrogates.all fun c => !c.isHigh && !c.isLow

mutual

/-- Every string is storable and every number in range. -/
def Json.storable : Json → Bool
  | .null => true
  | .bool _ => true
  | .int n => (Nat.toDigits 10 n.natAbs).length ≤ 131072
  | .float lit => (Numeral.ofLiteral lit).inRange
  | .str s => PyStr.storable s
  | .arr items => storableItems items
  | .obj members => storableMembers members

/-- `Json.storable` on the items of an array. -/
def storableItems : List Json → Bool
  | [] => true
  | v :: vs => v.storable && storableItems vs

/-- `Json.storable` on the keys and values of an object. -/
def storableMembers : List (PyStr × Json) → Bool
  | [] => true
  | (k, v) :: kvs => PyStr.storable k && (v.storable && storableMembers kvs)

end

/-- A joined pair is no surrogate. -/
theorem CodePoint.not_surrogate_joinPair {h l : CodePoint} (hh : h.isHigh = true)
    (hl : l.isLow = true) : (joinPair h l).isHigh = false ∧ (joinPair h l).isLow = false := by
  have hval := joinPair_val hh hl
  simp only [isHigh, isLow, Bool.and_eq_false_iff, decide_eq_false_iff_not]
  omega

theorem jsonbString?_isSome (s : PyStr) : (jsonbString? s).isSome = PyStr.storable s := by
  fun_induction jsonbString? s with
  | case1 => rfl
  | case2 c h =>
    rcases (by simpa [or_assoc] using h : c = 0 ∨ c.isHigh = true ∨ c.isLow = true) with h | h | h
    all_goals simp [PyStr.storable, PyStr.joinSurrogates, h]
  | case3 c h =>
    simp only [Bool.or_eq_true, not_or, decide_eq_true_eq] at h
    simp [PyStr.storable, PyStr.joinSurrogates, h.1.1, h.1.2, h.2]
  | case4 d s => simp [PyStr.storable]
  | case5 c d s hc hhigh hlow ih =>
    have hd : d ≠ 0 := by
      rintro rfl
      simp [CodePoint.isLow] at hlow
    have hpair := CodePoint.not_surrogate_joinPair hhigh hlow
    rw [Option.isSome_map, ih]
    simp [PyStr.storable, PyStr.joinSurrogates, hhigh, hlow, hc, hd, hpair.1, hpair.2]
  | case6 c d s hc hhigh hlow =>
    simp [PyStr.storable, PyStr.joinSurrogates, hhigh, hlow]
  | case7 c d s hc hhigh hlow =>
    simp [PyStr.storable, PyStr.joinSurrogates, hhigh, hlow]
  | case8 c d s hc hhigh hlow ih =>
    rw [Option.isSome_map, ih]
    simp [PyStr.storable, PyStr.joinSurrogates, hhigh, hlow, hc]

theorem isSome_bind_map {α β γ : Type} (x : Option α) (y : Option β) (f : α → β → γ) :
    (x.bind fun a => y.map (f a)).isSome = (x.isSome && y.isSome) := by
  cases x <;> simp

mutual

/-- **Exactly the storable values convert.** -/
theorem Json.toJsonb?_isSome : ∀ v : Json, v.toJsonb?.isSome = v.storable
  | .null => rfl
  | .bool _ => rfl
  | .int n => by
    rw [Json.toJsonb?, Json.storable]
    split_ifs with h <;> simp [h]
  | .float lit => by
    rw [Json.toJsonb?, Json.storable]
    split_ifs with h <;> simp [h]
  | .str s => by rw [Json.toJsonb?, Option.isSome_map, jsonbString?_isSome, Json.storable]
  | .arr items => by rw [Json.toJsonb?, Option.isSome_map, jsonbItems?_isSome, Json.storable]
  | .obj members => by rw [Json.toJsonb?, Option.isSome_map, jsonbMembers?_isSome, Json.storable]

theorem jsonbItems?_isSome : ∀ vs, (jsonbItems? vs).isSome = storableItems vs
  | [] => rfl
  | v :: vs => by
    rw [jsonbItems?, isSome_bind_map, Json.toJsonb?_isSome v, jsonbItems?_isSome vs, storableItems]

theorem jsonbMembers?_isSome : ∀ kvs, (jsonbMembers? kvs).isSome = storableMembers kvs
  | [] => rfl
  | (k, v) :: kvs => by
    rw [storableMembers, ← jsonbString?_isSome k, ← Json.toJsonb?_isSome v,
      ← jsonbMembers?_isSome kvs, jsonbMembers?]
    cases jsonbString? k with
    | none => rfl
    | some k => exact isSome_bind_map v.toJsonb? (jsonbMembers? kvs) fun v kvs => (k, v) :: kvs

end

/-- **A JSON text converts exactly when its value is storable.** -/
theorem jsonbIn_isSome {t : List Char} (h : isJson t = true) :
    (jsonbIn t).isSome = (scanText t).any Json.storable := by
  obtain ⟨v, hv, hstandard⟩ := (Option.any_eq_true _ _).1 h
  rw [jsonbIn, hv, Option.bind_some, if_pos hstandard, Json.toJsonb?_isSome, Option.any_some]

end Lubko.Lib
