import Lubko.Lib.JsonFile

/-!
# Compact JSON texts

`json.dumps(value, separators=(",", ":"))`: the text of a value without blanks, as it is sent over a
wire, and its size in bytes.

* `loads_dumpsCompact` — reading a compact text gives the value with its surrogate pairs joined.
* `Json.build_eq_self_iff` — the values that are read back as they are.
* `compactSize_obj` — the size of an object is the sum of the sizes of its members.
-/

namespace Lubko.Lib

mutual

/-- `json.dumps(value, separators=(",", ":"))`, members in the order they stand. -/
def dumpsCompact : Json → List Char
  | .null => ['n', 'u', 'l', 'l']
  | .bool true => ['t', 'r', 'u', 'e']
  | .bool false => ['f', 'a', 'l', 's', 'e']
  | .int n => intText n
  | .float lit => lit
  | .str s => quote s
  | .arr items => '[' :: (compactItems items ++ [']'])
  | .obj members => '\x7b' :: (compactMembers members ++ ['\x7d'])

/-- The items of an array, separated by `","`. -/
def compactItems : List Json → List Char
  | [] => []
  | [v] => dumpsCompact v
  | v :: vs => dumpsCompact v ++ (',' :: compactItems vs)

/-- The members of an object, separated by `","`. -/
def compactMembers : List (PyStr × Json) → List Char
  | [] => []
  | [(k, v)] => quote k ++ (':' :: dumpsCompact v)
  | (k, v) :: kvs => quote k ++ (':' :: (dumpsCompact v ++ (',' :: compactMembers kvs)))

end

theorem compactItems_cons_cons (v w : Json) (vs : List Json) :
    compactItems (v :: w :: vs) = dumpsCompact v ++ (',' :: compactItems (w :: vs)) := by
  rw [compactItems]
  simp

theorem compactMembers_cons_cons (k : PyStr) (v : Json) (kv : PyStr × Json)
    (kvs : List (PyStr × Json)) :
    compactMembers ((k, v) :: kv :: kvs) =
      quote k ++ (':' :: (dumpsCompact v ++ (',' :: compactMembers (kv :: kvs)))) := by
  rw [compactMembers]
  simp

/-! ## Reading a compact text -/

theorem startsValue_dumpsCompact {v : Json} (hv : v.Printable) : StartsValue (dumpsCompact v) := by
  cases v with
  | null => exact ⟨'n', _, by rw [dumpsCompact], by decide, by decide⟩
  | bool b => cases b with
    | true => exact ⟨'t', _, by rw [dumpsCompact], by decide, by decide⟩
    | false => exact ⟨'f', _, by rw [dumpsCompact], by decide, by decide⟩
  | int n => rw [dumpsCompact]; exact startsValue_intText n
  | float lit => rw [dumpsCompact]; rw [Json.Printable] at hv; exact hv.1
  | str s => exact ⟨'"', _, by rw [dumpsCompact, quote], by decide, by decide⟩
  | arr items => exact ⟨'[', _, by rw [dumpsCompact], by decide, by decide⟩
  | obj members => exact ⟨'\x7b', _, by rw [dumpsCompact], by decide, by decide⟩

theorem startsValue_compactItems {v : Json} (hv : v.Printable) (vs : List Json) :
    StartsValue (compactItems (v :: vs)) := by
  cases vs with
  | nil => rw [compactItems]; exact startsValue_dumpsCompact hv
  | cons w vs =>
    rw [compactItems_cons_cons]
    exact startsValue_append (startsValue_dumpsCompact hv) _

theorem startsValue_compactMembers (k : PyStr) (v : Json) (kvs : List (PyStr × Json))
    (t : List Char) : ∃ r, compactMembers ((k, v) :: kvs) ++ t = '"' :: r := by
  cases kvs with
  | nil => exact ⟨_, by rw [compactMembers, quote]; rfl⟩
  | cons kv kvs => exact ⟨_, by rw [compactMembers_cons_cons, quote]; rfl⟩

theorem scanKey_compact (k : PyStr) {t : List Char} (ht : StartsValue t) :
    scanKey (quote k ++ (':' :: t)) = some (k.flatMap CodePoint.units, t) := by
  obtain ⟨r, hr, hscan⟩ := scanString_quote k (':' :: t)
  rw [hr, scanKey, if_pos rfl, hscan, Option.bind_some, skipWhitespace_cons _ (by decide)]
  dsimp only
  rw [if_pos rfl, skipWhitespace_of_starts ht]

mutual

/-- **The scanner reads back what `dumpsCompact` writes**, as code units. -/
theorem scanValue_dumpsCompact : ∀ (v : Json) (fuel : ℕ) (t : List Char), v.Printable →
    NumberEnd t → 2 * (dumpsCompact v).length ≤ fuel + 1 →
      scanValue fuel (dumpsCompact v ++ t) = some (v.units, t)
  | v, 0, t, hv, ht, hf => by
    obtain ⟨c, r, hc, -⟩ := startsValue_dumpsCompact hv
    rw [hc, List.length_cons] at hf
    omega
  | .null, fuel + 1, t, hv, ht, hf => by
    simp [dumpsCompact, scanValue, scanConstant, constants, dropWord, Json.units]
  | .bool b, fuel + 1, t, hv, ht, hf => by
    cases b <;> simp [dumpsCompact, scanValue, scanConstant, constants, dropWord, Json.units]
  | .int n, fuel + 1, t, hv, ht, hf => by
    rw [dumpsCompact, Json.units, scanValue_int fuel n ht]
    all_goals simp
  | .float lit, fuel + 1, t, hv, ht, hf => by
    rw [Json.Printable] at hv
    rw [dumpsCompact, Json.units, hv.2 fuel t ht]
    all_goals simp
  | .str s, fuel + 1, t, hv, ht, hf => by
    obtain ⟨r, hr, hscan⟩ := scanString_quote s t
    rw [dumpsCompact, hr, scanValue, if_pos rfl, hscan, Json.units]
    rfl
  | .arr [], fuel + 1, t, hv, ht, hf => by
    simp [dumpsCompact, compactItems, scanValue,
      skipWhitespace_cons _ (by decide : isWhitespace ']' = false), Json.units, unitsItems]
  | .arr (v :: vs), fuel + 1, t, hv, ht, hf => by
    rw [Json.Printable] at hv
    have hlen : 2 * (compactItems (v :: vs)).length ≤ fuel := by
      simp only [dumpsCompact, List.length_cons, List.length_append, List.length_nil] at hf
      omega
    have hitems := scanItems_compact v vs fuel t hv hlen
    have hstart := startsValue_append (startsValue_compactItems hv.1 vs) (']' :: t)
    rw [dumpsCompact, List.cons_append, List.append_assoc, List.singleton_append, scanValue,
      if_neg (by decide), if_pos rfl, skipWhitespace_of_starts hstart]
    obtain ⟨c, r, hc, -, hne⟩ := hstart
    rw [hc] at hitems ⊢
    rw [if_neg (by simpa using hne), hitems, Json.units]
    rfl
  | .obj [], fuel + 1, t, hv, ht, hf => by
    simp [dumpsCompact, compactMembers, scanValue,
      skipWhitespace_cons _ (by decide : isWhitespace '\x7d' = false), Json.units, unitsMembers]
  | .obj ((k, v) :: kvs), fuel + 1, t, hv, ht, hf => by
    rw [Json.Printable] at hv
    have hlen : 2 * (compactMembers ((k, v) :: kvs)).length ≤ fuel := by
      simp only [dumpsCompact, List.length_cons, List.length_append, List.length_nil] at hf
      omega
    have hmembers := scanMembers_compact k v kvs fuel t hv hlen
    rw [dumpsCompact, List.cons_append, List.append_assoc, List.singleton_append, scanValue,
      if_neg (by decide), if_neg (by decide), if_pos rfl]
    obtain ⟨r, hr⟩ := startsValue_compactMembers k v kvs ('\x7d' :: t)
    rw [hr] at hmembers ⊢
    rw [skipWhitespace_cons _ (by decide), if_neg (by simp), hmembers, Json.units]
    rfl

theorem scanItems_compact : ∀ (v : Json) (vs : List Json) (fuel : ℕ) (t : List Char),
    PrintableItems (v :: vs) → 2 * (compactItems (v :: vs)).length ≤ fuel →
      scanItems fuel (compactItems (v :: vs) ++ ']' :: t) = some (unitsItems (v :: vs), t)
  | v, vs, 0, t, hv, hf => by
    rw [PrintableItems] at hv
    obtain ⟨c, r, hc, -⟩ := startsValue_compactItems hv.1 vs
    rw [hc, List.length_cons] at hf
    omega
  | v, [], fuel + 1, t, hv, hf => by
    rw [PrintableItems] at hv
    rw [compactItems] at hf ⊢
    rw [scanItems, scanValue_dumpsCompact v fuel (']' :: t) hv.1 (numberEnd_cons t (by simp))
      (by omega), Option.bind_some, skipWhitespace_cons _ (by decide), unitsItems, unitsItems]
    rfl
  | v, w :: vs, fuel + 1, t, hv, hf => by
    rw [PrintableItems] at hv
    have hw : w.Printable := by
      have h := hv.2
      rw [PrintableItems] at h
      exact h.1
    obtain ⟨c, r, hc, -⟩ := startsValue_dumpsCompact hv.1
    have hpos : 0 < (dumpsCompact v).length := by rw [hc]; exact Nat.succ_pos _
    have hstart := startsValue_append (startsValue_compactItems hw vs) (']' :: t)
    rw [compactItems_cons_cons] at hf ⊢
    simp only [List.length_append, List.length_cons] at hf
    rw [List.append_assoc, List.cons_append, scanItems,
      scanValue_dumpsCompact v fuel _ hv.1 (numberEnd_cons _ (by simp)) (by omega),
      Option.bind_some, skipWhitespace_cons _ (by decide)]
    dsimp only
    rw [if_neg (by decide), if_pos rfl, skipWhitespace_of_starts hstart,
      scanItems_compact w vs fuel t hv.2 (by omega), unitsItems]
    rfl

theorem scanMembers_compact : ∀ (k : PyStr) (v : Json) (kvs : List (PyStr × Json)) (fuel : ℕ)
    (t : List Char), PrintableMembers ((k, v) :: kvs) →
      2 * (compactMembers ((k, v) :: kvs)).length ≤ fuel →
        scanMembers fuel (compactMembers ((k, v) :: kvs) ++ '\x7d' :: t) =
          some (unitsMembers ((k, v) :: kvs), t)
  | k, v, kvs, 0, t, hv, hf => by
    obtain ⟨r, hr⟩ := startsValue_compactMembers k v kvs []
    rw [List.append_nil] at hr
    rw [hr, List.length_cons] at hf
    omega
  | k, v, [], fuel + 1, t, hv, hf => by
    rw [PrintableMembers] at hv
    rw [compactMembers] at hf ⊢
    simp only [List.length_append, List.length_cons] at hf
    rw [List.append_assoc, List.cons_append, scanMembers,
      scanKey_compact k (startsValue_append (startsValue_dumpsCompact hv.1) _), Option.bind_some,
      scanValue_dumpsCompact v fuel _ hv.1 (numberEnd_cons t (by simp)) (by omega),
      Option.bind_some, skipWhitespace_cons _ (by decide), unitsMembers, unitsMembers]
    rfl
  | k, v, (k', v') :: kvs, fuel + 1, t, hv, hf => by
    rw [PrintableMembers] at hv
    obtain ⟨r', hr'⟩ := startsValue_compactMembers k' v' kvs ('\x7d' :: t)
    have hstart : StartsValue (compactMembers ((k', v') :: kvs) ++ '\x7d' :: t) :=
      ⟨'"', r', hr', by decide, by decide⟩
    rw [compactMembers_cons_cons] at hf ⊢
    simp only [List.length_append, List.length_cons] at hf
    simp only [List.append_assoc, List.cons_append]
    rw [scanMembers, scanKey_compact k (startsValue_append (startsValue_dumpsCompact hv.1) _),
      Option.bind_some, scanValue_dumpsCompact v fuel _ hv.1 (numberEnd_cons _ (by simp))
        (by omega), Option.bind_some, skipWhitespace_cons _ (by decide)]
    dsimp only
    rw [if_neg (by decide), if_pos rfl, skipWhitespace_of_starts hstart,
      scanMembers_compact k' v' kvs fuel t hv.2 (by omega), unitsMembers]
    rfl

end

/-- **Round trip of a compact text.** -/
theorem loads_dumpsCompact {v : Json} (hv : v.Printable) :
    loads (dumpsCompact v) = some v.build := by
  have hscan := scanValue_dumpsCompact v (2 * (dumpsCompact v).length) [] hv numberEnd_nil
    (by omega)
  rw [List.append_nil] at hscan
  rw [loads, skipWhitespace_of_starts (startsValue_dumpsCompact hv), hscan, Option.bind_some,
    if_pos (by rfl), Json.build_units]

mutual

/-- Sorting the keys hides no float. -/
theorem Json.printable_of_sortKeys : ∀ v : Json, v.sortKeys.Printable → v.Printable
  | .null, _ => trivial
  | .bool _, _ => trivial
  | .int _, _ => trivial
  | .float _, h => h
  | .str _, _ => trivial
  | .arr items, h => by
    rw [Json.sortKeys, Json.Printable] at h
    rw [Json.Printable]
    exact printableItems_of_sortItems items h
  | .obj members, h => by
    rw [Json.sortKeys, Json.Printable, printableMembers_iff] at h
    rw [Json.Printable]
    refine printableMembers_of_sortKeys members fun kv hkv => ?_
    exact h (kv.1, kv.2.sortKeys) ((perm_sortMembers members).mem_iff.2 (List.mem_map_of_mem hkv))

theorem printableItems_of_sortItems : ∀ vs, PrintableItems (sortItems vs) → PrintableItems vs
  | [], _ => trivial
  | v :: vs, h => by
    rw [sortItems, PrintableItems] at h
    exact ⟨v.printable_of_sortKeys h.1, printableItems_of_sortItems vs h.2⟩

theorem printableMembers_of_sortKeys : ∀ kvs : List (PyStr × Json),
    (∀ kv ∈ kvs, kv.2.sortKeys.Printable) → PrintableMembers kvs
  | [], _ => trivial
  | (k, v) :: kvs, h => by
    rw [List.forall_mem_cons] at h
    exact ⟨v.printable_of_sortKeys h.1, printableMembers_of_sortKeys kvs h.2⟩

end
/-- A value that can be written with sorted keys can be written as it stands. -/
theorem Json.Writable.compact {v : Json} (h : v.Writable) : v.Printable :=
  v.printable_of_sortKeys h.printable

/-! ## Values that are read back as they are -/

mutual

/-- No text of the value has a surrogate pair to join, and no object repeats a key. -/
def Json.Exact : Json → Prop
  | .str s => s.joinSurrogates = s
  | .arr items => ExactItems items
  | .obj members => (members.map Prod.fst).Nodup ∧ ExactMembers members
  | _ => True

/-- `Json.Exact` on the items of an array. -/
def ExactItems : List Json → Prop
  | [] => True
  | v :: vs => v.Exact ∧ ExactItems vs

/-- `Json.Exact` on the keys and values of an object. -/
def ExactMembers : List (PyStr × Json) → Prop
  | [] => True
  | (k, v) :: kvs => PyStr.joinSurrogates k = k ∧ v.Exact ∧ ExactMembers kvs

end

theorem keys_setMember (k : PyStr) (v : Json) (d : List (PyStr × Json)) :
    (setMember k v d).map Prod.fst =
      if k ∈ d.map Prod.fst then d.map Prod.fst else d.map Prod.fst ++ [k] := by
  induction d with
  | nil => rfl
  | cons x xs ih =>
    rw [setMember]
    by_cases hx : x.1 = k
    · rw [if_pos hx, if_pos (by simp [hx])]
      rfl
    · rw [if_neg hx, List.map_cons, ih, List.map_cons]
      by_cases hmem : k ∈ xs.map Prod.fst
      · rw [if_pos hmem, if_pos (List.mem_cons_of_mem _ hmem)]
      · rw [if_neg hmem, if_neg (by simp [Ne.symm hx, hmem]), List.cons_append]

/-- A dict that has as many members as were set has them under keys of their own. -/
theorem nodup_of_length_dictOf {members : List (PyStr × Json)}
    (h : (dictOf members).length = members.length) : (members.map Prod.fst).Nodup := by
  have hfold : ∀ (rest d : List (PyStr × Json)), (d.map Prod.fst).Nodup →
      (rest.foldl (fun d kv => setMember kv.1 kv.2 d) d).length ≤ d.length + rest.length ∧
      ((rest.foldl (fun d kv => setMember kv.1 kv.2 d) d).length = d.length + rest.length →
        ((d ++ rest).map Prod.fst).Nodup) := by
    intro rest
    induction rest with
    | nil =>
      intro d hd
      rw [List.append_nil]
      exact ⟨le_rfl, fun _ => hd⟩
    | cons x xs ih =>
      intro d hd
      have hkeys := keys_setMember x.1 x.2 d
      have hlength := congrArg List.length hkeys
      rw [List.length_map] at hlength
      rw [List.foldl_cons, List.length_cons]
      by_cases hmem : x.1 ∈ d.map Prod.fst
      · -- the key is there already: the dict stays shorter
        rw [if_pos hmem] at hkeys hlength
        rw [List.length_map] at hlength
        obtain ⟨hle, -⟩ := ih (setMember x.1 x.2 d) (hkeys ▸ hd)
        exact ⟨by omega, fun heq => by omega⟩
      · rw [if_neg hmem] at hkeys hlength
        rw [List.length_append, List.length_map, List.length_singleton] at hlength
        have hnodup : (d.map Prod.fst ++ [x.1]).Nodup := by
          rw [List.nodup_append]
          refine ⟨hd, List.nodup_singleton _, fun a ha b hb => ?_⟩
          rw [List.mem_singleton.1 hb]
          exact fun heq => hmem (heq ▸ ha)
        obtain ⟨hle, hall⟩ := ih (setMember x.1 x.2 d) (hkeys ▸ hnodup)
        refine ⟨by omega, fun heq => ?_⟩
        have hrest := hall (by omega)
        rw [List.map_append, hkeys] at hrest
        simpa using hrest
  have hall := (hfold members [] List.nodup_nil).2
  rw [List.length_nil, Nat.zero_add, List.nil_append] at hall
  exact hall h

theorem length_buildMembers (kvs : List (PyStr × Json)) :
    (buildMembers kvs).length = kvs.length := by
  induction kvs with
  | nil => rfl
  | cons kv kvs ih => rw [buildMembers, List.length_cons, List.length_cons, ih]

mutual

/-- **The values that are read back as they are.** -/
theorem Json.build_eq_self_iff : ∀ v : Json, v.build = v ↔ v.Exact
  | .null => iff_of_true rfl trivial
  | .bool _ => iff_of_true rfl trivial
  | .int _ => iff_of_true rfl trivial
  | .float _ => iff_of_true rfl trivial
  | .str s => by rw [Json.build, Json.str.injEq, Json.Exact]
  | .arr items => by rw [Json.build, Json.arr.injEq, Json.Exact, buildItems_eq_self_iff]
  | .obj members => by
    rw [Json.build, Json.obj.injEq, Json.Exact, ← buildMembers_eq_self_iff]
    constructor
    · intro h
      have hlength : (dictOf (buildMembers members)).length = (buildMembers members).length := by
        rw [h, length_buildMembers]
      have hdict := dictOf_of_nodup (nodup_of_length_dictOf hlength)
      rw [h] at hdict
      exact ⟨hdict ▸ nodup_of_length_dictOf hlength, hdict.symm⟩
    · intro ⟨hnodup, h⟩
      rw [h, dictOf_of_nodup hnodup]

theorem buildItems_eq_self_iff : ∀ vs : List Json, buildItems vs = vs ↔ ExactItems vs
  | [] => iff_of_true rfl trivial
  | v :: vs => by
    rw [buildItems, List.cons.injEq, ExactItems, Json.build_eq_self_iff v,
      buildItems_eq_self_iff vs]

theorem buildMembers_eq_self_iff : ∀ kvs : List (PyStr × Json),
    buildMembers kvs = kvs ↔ ExactMembers kvs
  | [] => iff_of_true rfl trivial
  | (k, v) :: kvs => by
    rw [buildMembers, List.cons.injEq, Prod.mk.injEq, ExactMembers, Json.build_eq_self_iff v,
      buildMembers_eq_self_iff kvs, and_assoc]

end
/-! ## Sizes -/

theorem utf8Encode_append (s t : List Char) :
    utf8Encode (s ++ t) = utf8Encode s ++ utf8Encode t := List.flatMap_append

theorem utf8Encode_cons (c : Char) (t : List Char) :
    utf8Encode (c :: t) = utf8EncodeChar c ++ utf8Encode t := List.flatMap_cons

/-- The size of a text in UTF-8. -/
def utf8Size (t : List Char) : ℕ := (utf8Encode t).length

@[simp] theorem utf8Size_nil : utf8Size [] = 0 := rfl

@[simp] theorem utf8Size_cons (c : Char) (t : List Char) :
    utf8Size (c :: t) = (utf8EncodeChar c).length + utf8Size t := by
  rw [utf8Size, utf8Encode_cons, List.length_append, utf8Size]

@[simp] theorem utf8Size_append (s t : List Char) :
    utf8Size (s ++ t) = utf8Size s + utf8Size t := by
  rw [utf8Size, utf8Encode_append, List.length_append, utf8Size, utf8Size]

/-- The size of a string between its quotes, escaped. -/
def textSize (s : PyStr) : ℕ := utf8Size (quote s)

/-- The size of a compact text. -/
def compactSize (v : Json) : ℕ := utf8Size (dumpsCompact v)

/-- The size of a member, with its colon and one separator. -/
def memberSize (kv : PyStr × Json) : ℕ := textSize kv.1 + compactSize kv.2 + 2

@[simp] theorem compactSize_null : compactSize .null = 4 := by
  rw [compactSize, dumpsCompact]
  decide

@[simp] theorem compactSize_bool (b : Bool) : compactSize (.bool b) = if b then 4 else 5 := by
  rw [compactSize]
  cases b
  · rw [dumpsCompact]
    decide
  · rw [dumpsCompact]
    decide

@[simp] theorem compactSize_str (s : PyStr) : compactSize (.str s) = textSize s := by
  rw [compactSize, dumpsCompact, textSize]

@[simp] theorem compactSize_int (n : ℤ) : compactSize (.int n) = utf8Size (intText n) := by
  rw [compactSize, dumpsCompact]

@[simp] theorem compactSize_float (lit : List Char) : compactSize (.float lit) = utf8Size lit := by
  rw [compactSize, dumpsCompact]

theorem compactSize_members (kv : PyStr × Json) (members : List (PyStr × Json)) :
    utf8Size (compactMembers (kv :: members)) + 1 = ((kv :: members).map memberSize).sum := by
  induction members generalizing kv with
  | nil =>
    obtain ⟨k, v⟩ := kv
    rw [compactMembers]
    simp only [utf8Size_append, utf8Size_cons, List.map_cons, List.map_nil, List.sum_cons,
      List.sum_nil, memberSize, textSize, compactSize]
    have hcolon : (utf8EncodeChar ':').length = 1 := by decide
    omega
  | cons kv' members ih =>
    obtain ⟨k, v⟩ := kv
    rw [compactMembers_cons_cons, List.map_cons, List.sum_cons, ← ih kv']
    simp only [utf8Size_append, utf8Size_cons, memberSize, textSize, compactSize]
    have hcolon : (utf8EncodeChar ':').length = 1 := by decide
    have hcomma : (utf8EncodeChar ',').length = 1 := by decide
    omega

/-- **The size of an object** is the sum of the sizes of its members, and one. -/
theorem compactSize_obj {members : List (PyStr × Json)} (h : members ≠ []) :
    compactSize (.obj members) = (members.map memberSize).sum + 1 := by
  obtain ⟨kv, rest, rfl⟩ := List.exists_cons_of_ne_nil h
  rw [← compactSize_members, compactSize, dumpsCompact, utf8Size_cons, utf8Size_append]
  have hopen : (utf8EncodeChar '\x7b').length = 1 := by decide
  have hclose : utf8Size ['\x7d'] = 1 := by decide
  omega

/-- Joining surrogate pairs does not change the text of a string. -/
@[simp] theorem textSize_joinSurrogates (s : PyStr) : textSize s.joinSurrogates = textSize s := by
  rw [textSize, textSize, quote_joinSurrogates]

/-- A string of one character that is written as it is. -/
theorem textSize_replicate (n : ℕ) {c : CodePoint} {a : Char} (hc : c.escape = [a])
    (ha : (utf8EncodeChar a).length = 1) : textSize (List.replicate n c) = n + 2 := by
  have hbody : ∀ n : ℕ, utf8Size ((List.replicate n c).flatMap CodePoint.escape) = n := by
    intro n
    induction n with
    | zero => rfl
    | succ n ih =>
      rw [List.replicate_succ, List.flatMap_cons, utf8Size_append, ih, hc]
      simp only [utf8Size_cons, utf8Size_nil, ha]
      omega
  have hquote : (utf8EncodeChar '"').length = 1 := by decide
  rw [textSize, quote, utf8Size_cons, utf8Size_append, hbody]
  simp only [utf8Size_cons, utf8Size_nil, hquote]
  omega

end Lubko.Lib
