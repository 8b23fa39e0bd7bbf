import Lubko.Lib.JsonObject
import Lubko.Lib.Utf8

/-!
# Reading a JSON file

What `path.read_text(encoding)` and `json.loads` return or raise on any file content, and the
`try ... except` around them. The exceptions are those of the interpreter and the classes `C` an
application adds. What the interpreter decides is a parameter: when its scanner gives up on a
nested text, when an integer has too many digits, and the codec of the locale.

The translation of line ends by the text layer is left out: `json` skips a carriage return where it
skips a line feed, and takes neither inside a string.

* `utf8_utf8Encode` — a text is decoded from its bytes.
* `JsonReader.Guards.ends_iff` — when a reader returns or raises what it promises.
* `roundBinary64_of_le` — which integers `float` refuses.
-/

namespace Lubko.Lib

/-! ## Exceptions -/

/-- An exception of the interpreter, or of a class of the application with its message. -/
inductive PyError (C : Type) where
  | keyError (key : PyStr)
  | typeError (msg : PyStr)
  | valueError (msg : PyStr)
  | jsonDecodeError
  | unicodeDecodeError
  | overflowError
  | recursionError
  | fileNotFoundError
  | osError (text : PyStr)
  | raised (cls : C) (msg : PyStr)
  deriving DecidableEq

variable {C : Type} {α β : Type}

/-- `isinstance(exc, ValueError)`, for the exceptions of the interpreter. -/
def PyError.isValueError : PyError C → Bool
  | .valueError _ | .jsonDecodeError | .unicodeDecodeError => true
  | _ => false

/-- `isinstance(exc, TypeError)`. -/
def PyError.isTypeError : PyError C → Bool
  | .typeError _ => true
  | _ => false

/-- `isinstance(exc, KeyError)`. -/
def PyError.isKeyError : PyError C → Bool
  | .keyError _ => true
  | _ => false

/-- `isinstance(exc, cls)`, for a class of the application. -/
def PyError.isRaised [DecidableEq C] (cls : C) : PyError C → Bool
  | .raised c _ => c = cls
  | _ => false

/-! ## Results -/

/-- A call returns a value with a property, or raises an exception of a kind. -/
def Ends (expected : PyError C → Prop) (post : α → Prop) : Except (PyError C) α → Prop
  | .ok a => post a
  | .error exc => expected exc

theorem Ends.mono {expected expected' : PyError C → Prop} {post post' : α → Prop}
    {x : Except (PyError C) α} (h : Ends expected post x)
    (he : ∀ exc, expected exc → expected' exc) (hp : ∀ a, post a → post' a) :
    Ends expected' post' x := by
  cases x with
  | ok a => exact hp a h
  | error exc => exact he exc h

theorem Ends.bind {expected : PyError C → Prop} {post : α → Prop} {post' : β → Prop}
    {x : Except (PyError C) α} {f : α → Except (PyError C) β} (hx : Ends expected post x)
    (hf : ∀ a, post a → Ends expected post' (f a)) : Ends expected post' (x >>= f) := by
  cases x with
  | ok a => exact hf a hx
  | error exc => exact hx

/-- A returned value is the one the call returns. -/
theorem Ends.returned {expected : PyError C → Prop} {post : α → Prop} {x : Except (PyError C) α}
    (hx : Ends expected post x) : Ends expected (fun a => x = .ok a ∧ post a) x := by
  cases x with
  | ok a => exact ⟨rfl, hx⟩
  | error exc => exact hx

theorem Ends.map {expected : PyError C → Prop} {post : α → Prop} {post' : β → Prop}
    {x : Except (PyError C) α} {f : α → β} (hx : Ends expected post x)
    (hf : ∀ a, post a → post' (f a)) : Ends expected post' (x.map f) := by
  cases x with
  | ok a => exact hf a hx
  | error exc => exact hx

/-! ## Files -/

/-- What opening a path for reading finds. -/
inductive FileBytes where
  /-- No file; `dangling` says whether a link stands at the path. -/
  | absent (dangling : Bool)
  /-- An `OSError`, with its text. -/
  | unreadable (text : PyStr)
  | bytes (data : List UInt8)
  deriving DecidableEq

/-- Decode UTF-8 strictly, ignoring the first `skip` bytes, which belong to a sequence already
decoded. -/
def decodeStrictFrom : ℕ → List UInt8 → Option (List Char)
  | _, [] => some []
  | 0, b :: bs =>
    let n := sequenceLength b
    let cont := continuationRun b (bs.take (n - 1))
    if n ≠ 0 ∧ cont.length = n - 1 then
      (decodeStrictFrom (n - 1) bs).map fun t => Char.ofNat (sequenceValue b cont) :: t
    else none
  | skip + 1, _ :: bs => decodeStrictFrom skip bs

/-- `data.decode("utf-8")`; `none` is a `UnicodeDecodeError`. -/
def utf8 (data : List UInt8) : Option (List Char) := decodeStrictFrom 0 data

/-! ## Text in UTF-8 -/

/-- The bytes of a character in UTF-8. -/
def utf8EncodeChar (c : Char) : List UInt8 :=
  let v := c.toNat
  if v < 0x80 then [UInt8.ofNat v]
  else if v < 0x800 then [UInt8.ofNat (0xc0 + v / 0x40), UInt8.ofNat (0x80 + v % 0x40)]
  else if v < 0x10000 then
    [UInt8.ofNat (0xe0 + v / 0x1000), UInt8.ofNat (0x80 + v / 0x40 % 0x40),
      UInt8.ofNat (0x80 + v % 0x40)]
  else
    [UInt8.ofNat (0xf0 + v / 0x40000), UInt8.ofNat (0x80 + v / 0x1000 % 0x40),
      UInt8.ofNat (0x80 + v / 0x40 % 0x40), UInt8.ofNat (0x80 + v % 0x40)]

/-- `text.encode("utf-8")`. -/
def utf8Encode (text : List Char) : List UInt8 := text.flatMap utf8EncodeChar

theorem toNat_ofNat {n : ℕ} (h : n < 0x100) : (UInt8.ofNat n).toNat = n := by
  rw [UInt8.toNat_ofNat']
  exact Nat.mod_eq_of_lt h

theorem decodeStrictFrom_skip (bytes rest : List UInt8) :
    decodeStrictFrom bytes.length (bytes ++ rest) = decodeStrictFrom 0 rest := by
  induction bytes with
  | nil => rfl
  | cons b bytes ih => exact ih

/-- A complete sequence is decoded. -/
theorem decodeStrictFrom_sequence {lead : UInt8} {cont : List UInt8} (rest : List UInt8)
    (hlength : sequenceLength lead = cont.length + 1) (hrun : continuationRun lead cont = cont) :
    decodeStrictFrom 0 (lead :: cont ++ rest) =
      (decodeStrictFrom 0 rest).map fun t => Char.ofNat (sequenceValue lead cont) :: t := by
  rw [List.cons_append, decodeStrictFrom]
  simp only [hlength, Nat.add_sub_cancel, List.take_left, hrun, decodeStrictFrom_skip]
  exact if_pos ⟨Nat.succ_ne_zero _, trivial⟩

/-- A byte that continues a sequence. -/
theorem isContinuation_ofNat {n : ℕ} (h : n < 0x40) :
    isContinuation (UInt8.ofNat (0x80 + n)) = true := by
  rw [isContinuation, toNat_ofNat (by omega), Bool.and_eq_true, decide_eq_true_eq,
    decide_eq_true_eq]
  omega

/-- A byte that continues a sequence after its lead. -/
theorem isSecond_ofNat (lead n : ℕ) (hlead : lead < 0x100) (hn : n < 0x40)
    (h : (lead = 0xe0 → 0x20 ≤ n) ∧ (lead = 0xed → n < 0x20) ∧ (lead = 0xf0 → 0x10 ≤ n) ∧
      (lead = 0xf4 → n < 0x10)) :
    isSecond (UInt8.ofNat lead) (UInt8.ofNat (0x80 + n)) = true := by
  rw [isSecond, isContinuation_ofNat hn, Bool.true_and, toNat_ofNat hlead,
    toNat_ofNat (show 0x80 + n < 0x100 by omega)]
  split_ifs <;> simp only [decide_eq_true_eq] <;> omega

/-- **A character is decoded from its bytes.** -/
theorem decodeStrictFrom_encodeChar (c : Char) (rest : List UInt8) :
    decodeStrictFrom 0 (utf8EncodeChar c ++ rest) = (decodeStrictFrom 0 rest).map (c :: ·) := by
  have hvalid : c.toNat < 0xd800 ∨ 0xdfff < c.toNat ∧ c.toNat < 0x110000 := c.valid
  have hofNat : Char.ofNat c.toNat = c := Char.ofNat_toNat c
  rw [utf8EncodeChar]
  generalize c.toNat = v at hvalid hofNat
  -- One case for each length; the bounds of the value are those of the second byte.
  split_ifs with h1 h2 h3
  · have hlead := toNat_ofNat (show v < 0x100 by omega)
    rw [decodeStrictFrom_sequence rest (by rw [sequenceLength, hlead, if_pos h1]; rfl) rfl]
    simp [sequenceValue, hlead, hofNat]
  · have hlead := toNat_ofNat (show 0xc0 + v / 0x40 < 0x100 by omega)
    have hlength : sequenceLength (UInt8.ofNat (0xc0 + v / 0x40)) = 2 := by
      rw [sequenceLength, hlead]
      split_ifs <;> omega
    have hsecond := isSecond_ofNat (0xc0 + v / 0x40) (v % 0x40) (by omega) (by omega)
      (by omega)
    have hvalue : sequenceValue (UInt8.ofNat (0xc0 + v / 0x40)) [UInt8.ofNat (0x80 + v % 0x40)] =
        v := by
      rw [sequenceValue_one, hlead, toNat_ofNat (by omega)]
      omega
    rw [decodeStrictFrom_sequence rest hlength (by rw [continuationRun_cons, if_pos hsecond]; rfl),
      hvalue, hofNat]
  · have hlead := toNat_ofNat (show 0xe0 + v / 0x1000 < 0x100 by omega)
    have hlength : sequenceLength (UInt8.ofNat (0xe0 + v / 0x1000)) = 3 := by
      rw [sequenceLength, hlead]
      split_ifs <;> omega
    have hsecond := isSecond_ofNat (0xe0 + v / 0x1000) (v / 0x40 % 0x40) (by omega)
      (by omega) (by omega)
    have hthird := isContinuation_ofNat (show v % 0x40 < 0x40 by omega)
    have hvalue : sequenceValue (UInt8.ofNat (0xe0 + v / 0x1000))
        [UInt8.ofNat (0x80 + v / 0x40 % 0x40), UInt8.ofNat (0x80 + v % 0x40)] = v := by
      rw [sequenceValue_two, hlead, toNat_ofNat (by omega), toNat_ofNat (by omega)]
      omega
    rw [decodeStrictFrom_sequence rest hlength (by
      rw [continuationRun_cons, if_pos hsecond, List.takeWhile_cons_of_pos hthird]; rfl), hvalue,
      hofNat]
  · have hlead := toNat_ofNat (show 0xf0 + v / 0x40000 < 0x100 by omega)
    have hlength : sequenceLength (UInt8.ofNat (0xf0 + v / 0x40000)) = 4 := by
      rw [sequenceLength, hlead]
      split_ifs <;> omega
    have hsecond := isSecond_ofNat (0xf0 + v / 0x40000) (v / 0x1000 % 0x40) (by omega)
      (by omega) (by omega)
    have hthird := isContinuation_ofNat (show v / 0x40 % 0x40 < 0x40 by omega)
    have hfourth := isContinuation_ofNat (show v % 0x40 < 0x40 by omega)
    have hvalue : sequenceValue (UInt8.ofNat (0xf0 + v / 0x40000))
        [UInt8.ofNat (0x80 + v / 0x1000 % 0x40), UInt8.ofNat (0x80 + v / 0x40 % 0x40),
          UInt8.ofNat (0x80 + v % 0x40)] = v := by
      rw [sequenceValue_three, hlead, toNat_ofNat (by omega), toNat_ofNat (by omega),
        toNat_ofNat (by omega)]
      omega
    rw [decodeStrictFrom_sequence rest hlength (by
      rw [continuationRun_cons, if_pos hsecond, List.takeWhile_cons_of_pos hthird,
        List.takeWhile_cons_of_pos hfourth]; rfl), hvalue, hofNat]

/-- **A text is decoded from its bytes.** -/
theorem utf8_utf8Encode (text : List Char) : utf8 (utf8Encode text) = some text := by
  rw [utf8, utf8Encode]
  induction text with
  | nil => rfl
  | cons c text ih => rw [List.flatMap_cons, decodeStrictFrom_encodeChar, ih, Option.map_some]

/-! ## Loading -/

/-- What the interpreter decides. -/
structure Interpreter where
  /-- The scanner raises `RecursionError` on the text. -/
  tooDeep : List Char → Bool
  /-- The text holds an integer with more digits than `int` converts. -/
  tooManyDigits : List Char → Bool
  /-- The codec `read_text()` uses when it is given no encoding. -/
  locale : List UInt8 → Option (List Char)
  /-- `repr` of a string. -/
  strRepr : PyStr → PyStr

/-- `json.loads`. -/
def jsonLoads (py : Interpreter) (t : List Char) : Except (PyError C) Json :=
  if py.tooDeep t then .error .recursionError
  else if py.tooManyDigits t then
    .error (.valueError "Exceeds the limit for integer string conversion")
  else
    match loads t with
    | some v => .ok v
    | none => .error .jsonDecodeError

/-- A content that the codec decodes, and that the scanner does not give up on. -/
def Legible (py : Interpreter) (codec : List UInt8 → Option (List Char)) (data : List UInt8) :
    Prop :=
  (codec data).any (fun t => !py.tooDeep t) = true

instance (py : Interpreter) (codec : List UInt8 → Option (List Char)) (data : List UInt8) :
    Decidable (Legible py codec data) := inferInstanceAs (Decidable (_ = true))

/-- The text of a content that is legible. -/
theorem Legible.text {py : Interpreter} {codec : List UInt8 → Option (List Char)}
    {data : List UInt8} (h : Legible py codec data) :
    ∃ t, codec data = some t ∧ py.tooDeep t = false := by
  rw [Legible] at h
  cases ht : codec data with
  | none => simp [ht] at h
  | some t => exact ⟨t, rfl, by simpa [ht] using h⟩

theorem not_legible_iff {py : Interpreter} {codec : List UInt8 → Option (List Char)}
    {data : List UInt8} : ¬ Legible py codec data ↔
      codec data = none ∨ ∃ t, codec data = some t ∧ py.tooDeep t = true := by
  rw [Legible]
  cases ht : codec data with
  | none => simp
  | some t => simp

theorem jsonLoads_ends {py : Interpreter} {t : List Char} (h : py.tooDeep t = false) :
    Ends (fun exc : PyError C => exc.isValueError = true) (fun _ => True) (jsonLoads py t) := by
  rw [jsonLoads, h]
  by_cases hd : py.tooManyDigits t = true
  · rw [if_neg (by simp), if_pos hd]
    rfl
  · rw [if_neg (by simp), if_neg hd]
    cases loads t with
    | some v => trivial
    | none => rfl

theorem jsonLoads_tooDeep {py : Interpreter} {t : List Char} (h : py.tooDeep t = true) :
    jsonLoads py t = (.error .recursionError : Except (PyError C) Json) := by
  rw [jsonLoads, if_pos h]

theorem jsonLoads_built {py : Interpreter} {t : List Char} {v : Json}
    (h : (jsonLoads py t : Except (PyError C) Json) = .ok v) : v.Built := by
  rw [jsonLoads] at h
  split_ifs at h
  cases hl : loads t with
  | none =>
    rw [hl] at h
    cases h
  | some w =>
    rw [hl] at h
    obtain rfl := Except.ok.inj h
    exact loads_built hl

/-! ## Readers -/

/-- A function that reads a JSON file: what it does when `read_text` raises `FileNotFoundError` or
another `OSError`, which exceptions of `json.loads` it handles and how, and what it does with the
decoded value. -/
structure JsonReader (C : Type) (α : Type) where
  missing : Bool → Except (PyError C) α
  refused : PyStr → Except (PyError C) α
  handled : PyError C → Bool
  invalid : Except (PyError C) α
  accept : Json → Except (PyError C) α

/-- The call of a reader on a file: `path.read_text(...)`, then `json.loads`. -/
def JsonReader.run (r : JsonReader C α) (py : Interpreter)
    (codec : List UInt8 → Option (List Char)) : FileBytes → Except (PyError C) α
  | .absent dangling => r.missing dangling
  | .unreadable text => r.refused text
  | .bytes data =>
    match codec data with
    -- a `UnicodeDecodeError` is no `OSError`, and leaves the `try` around `read_text`
    | none => .error .unicodeDecodeError
    | some t =>
      match jsonLoads py t with
      | .ok v => r.accept v
      | .error exc => if r.handled exc then r.invalid else .error exc

/-- What a reader returns for a content comes from the value its text decodes to, or from its
handler. -/
theorem JsonReader.run_bytes_decoded {r : JsonReader C α} {py : Interpreter}
    {codec : List UInt8 → Option (List Char)} {data : List UInt8} {a : α}
    (h : r.run py codec (.bytes data) = .ok a) :
    (∃ t v, codec data = some t ∧ jsonLoads py t = (.ok v : Except (PyError C) Json) ∧
      r.accept v = .ok a) ∨ r.invalid = .ok a := by
  rw [JsonReader.run] at h
  cases ht : codec data with
  | none =>
    rw [ht] at h
    cases h
  | some t =>
    simp only [ht] at h
    cases hj : (jsonLoads py t : Except (PyError C) Json) with
    | ok v =>
      simp only [hj] at h
      exact .inl ⟨t, v, rfl, hj, h⟩
    | error exc =>
      simp only [hj] at h
      split_ifs at h
      exact .inr h

theorem JsonReader.run_bytes_eq_ok {r : JsonReader C α} {py : Interpreter}
    {codec : List UInt8 → Option (List Char)} {data : List UInt8} {a : α}
    (h : r.run py codec (.bytes data) = .ok a) :
    (∃ v : Json, v.Built ∧ r.accept v = .ok a) ∨ r.invalid = .ok a := by
  rcases JsonReader.run_bytes_decoded h with ⟨t, v, -, hj, hv⟩ | hinvalid
  · exact .inl ⟨v, jsonLoads_built hj, hv⟩
  · exact .inr hinvalid

/-- A reader is given the value of a file that one dumped value was written to. -/
theorem JsonReader.run_line (r : JsonReader C α) {py : Interpreter}
    {codec : List UInt8 → Option (List Char)} {data : List UInt8} {v : Json} (hv : v.Writable)
    (hdata : codec data = some (dumps v.sortKeys ++ ['\n']))
    (hdeep : py.tooDeep (dumps v.sortKeys ++ ['\n']) = false)
    (hdigits : py.tooManyDigits (dumps v.sortKeys ++ ['\n']) = false) :
    r.run py codec (.bytes data) = r.accept v.readBack := by
  have hloads : (jsonLoads py (dumps v.sortKeys ++ ['\n']) : Except (PyError C) Json) =
      .ok v.readBack := by
    rw [jsonLoads, hdeep, hdigits, loads_dumps_line hv]
    rfl
  rw [JsonReader.run, hdata]
  simp only [hloads]

/-- A reader handles every `ValueError` of `json.loads` as expected, and nothing else of it. -/
structure JsonReader.Guards (r : JsonReader C α) (expected : PyError C → Prop) (post : α → Prop) :
    Prop where
  valueError : ∀ exc : PyError C, exc.isValueError = true → r.handled exc = true
  recursionError : r.handled .recursionError = false
  invalid : Ends expected post r.invalid
  decode_unexpected : ¬ expected .unicodeDecodeError
  recursion_unexpected : ¬ expected .recursionError

/-- **When a reader ends as expected** on a content: the content is legible, and the decoded value
is taken as expected. -/
theorem JsonReader.Guards.ends_iff {r : JsonReader C α} {expected : PyError C → Prop}
    {post : α → Prop} (h : r.Guards expected post) {py : Interpreter}
    {codec : List UInt8 → Option (List Char)} {data : List UInt8} :
    Ends expected post (r.run py codec (.bytes data)) ↔ Legible py codec data ∧
      ∀ t v, codec data = some t → jsonLoads py t = (.ok v : Except (PyError C) Json) →
        Ends expected post (r.accept v) := by
  by_cases hl : Legible py codec data
  · obtain ⟨t, ht, hdeep⟩ := hl.text
    have hends : Ends (fun exc : PyError C => exc.isValueError = true) _ _ := jsonLoads_ends hdeep
    have htext : ∀ t', codec data = some t' → t' = t := fun t' ht' =>
      Option.some.inj (ht'.symm.trans ht)
    rw [and_iff_right hl]
    cases hj : (jsonLoads py t : Except (PyError C) Json) with
    | ok v =>
      have hrun : r.run py codec (.bytes data) = r.accept v := by simp [JsonReader.run, ht, hj]
      rw [hrun]
      constructor
      · intro he t' v' ht' hj'
        rw [htext t' ht', hj] at hj'
        cases hj'
        exact he
      · intro hall
        exact hall t v ht hj
    | error exc =>
      rw [hj] at hends
      have hrun : r.run py codec (.bytes data) = r.invalid := by
        simp [JsonReader.run, ht, hj, h.valueError exc hends]
      rw [hrun]
      refine iff_of_true h.invalid fun t' v' ht' hj' => ?_
      rw [htext t' ht', hj] at hj'
      cases hj'
  · simp only [hl, false_and, iff_false, JsonReader.run]
    rcases not_legible_iff.1 hl with hnone | ⟨t, ht, hdeep⟩
    · rw [hnone]
      exact h.decode_unexpected
    · rw [ht]
      simp only [jsonLoads_tooDeep hdeep, h.recursionError]
      exact h.recursion_unexpected

/-- A reader that takes every decoded value as expected. -/
theorem JsonReader.Guards.ends_iff_legible {r : JsonReader C α} {expected : PyError C → Prop}
    {post : α → Prop} (h : r.Guards expected post) (ha : ∀ v, Ends expected post (r.accept v))
    {py : Interpreter} {codec : List UInt8 → Option (List Char)} {data : List UInt8} :
    Ends expected post (r.run py codec (.bytes data)) ↔ Legible py codec data := by
  rw [h.ends_iff]
  exact ⟨And.left, fun hl => ⟨hl, fun _ v _ _ => ha v⟩⟩

/-! ## Large numbers -/

theorem floor_le_roundEven (q : ℚ) : ⌊q⌋ ≤ roundEven q := by
  rw [roundEven]
  split_ifs
  · exact le_rfl
  · omega
  · exact le_rfl
  · omega

/-- No float reaches a number from `2 ^ 1024` on. -/
theorem roundBinary64_of_le {q : ℚ} (h : 2 ^ (1024 : ℤ) ≤ q) : roundBinary64 q = none := by
  have hq : 0 < q := lt_of_lt_of_le (by positivity) h
  have hlog : 1024 ≤ Int.log 2 q :=
    (Int.zpow_le_iff_le_log one_lt_two hq).1 (by rw [Nat.cast_ofNat]; exact h)
  have hself : (2 : ℚ) ^ Int.log 2 q ≤ q := by
    exact_mod_cast Int.zpow_log_le_self one_lt_two hq
  have hexp : max (Int.log 2 q - 52) (-1074) = Int.log 2 q - 52 := max_eq_left (by omega)
  have hulp : (0 : ℚ) < 2 ^ (Int.log 2 q - 52) := by positivity
  have hquot : (2 : ℚ) ^ (52 : ℤ) ≤ q / 2 ^ (Int.log 2 q - 52) := by
    rw [le_div_iff₀ hulp, ← zpow_add₀ two_ne_zero,
      show (52 : ℤ) + (Int.log 2 q - 52) = Int.log 2 q by omega]
    exact hself
  have hfloor : (2 : ℤ) ^ 52 ≤ roundEven (q / 2 ^ (Int.log 2 q - 52)) :=
    (Int.le_floor.2 (by exact_mod_cast hquot)).trans (floor_le_roundEven _)
  have hrounded : (2 : ℚ) ^ (1024 : ℤ) ≤
      roundEven (q / 2 ^ (Int.log 2 q - 52)) * 2 ^ (Int.log 2 q - 52) := by
    calc (2 : ℚ) ^ (1024 : ℤ) ≤ 2 ^ Int.log 2 q := zpow_le_zpow_right₀ one_le_two hlog
      _ = 2 ^ (52 : ℤ) * 2 ^ (Int.log 2 q - 52) := by
        rw [← zpow_add₀ two_ne_zero]
        congr 1
        omega
      _ ≤ _ := by
        gcongr
        exact_mod_cast hfloor
  simp only [roundBinary64, hexp]
  rw [if_neg (not_lt.2 hrounded)]

end Lubko.Lib
