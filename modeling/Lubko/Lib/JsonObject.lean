import Lubko.Lib.Jsonb

/-!
# Objects read back member by member

A mapping that was dumped with `sort_keys=True` and loaded again: its members stand in another order,
and every value is the one that was read back in turn. A reader that looks its members up by key
sees neither.

* `memberOf_perm` — the order of the members does not matter when no key is repeated.
* `readBack_obj` — the members of a mapping that was written and read.
* `loads_dumps_line` — what a file with one dumped value and a line break holds.
-/

namespace Lubko.Lib

/-- One member of a mapping. -/
def entry (key : String) (value : Json) : PyStr × Json := (key, value)

/-- The value `json.loads` makes of what `json.dumps(value, sort_keys=True)` wrote. -/
def Json.readBack (v : Json) : Json := v.sortKeys.build

/-- Members whose keys are all different and hold no surrogate pair. -/
def WellKeyed (members : List (PyStr × Json)) : Prop :=
  (members.map Prod.fst).Nodup ∧ ∀ k ∈ members.map Prod.fst, k.joinSurrogates = k

theorem WellKeyed.of_keys {members : List (PyStr × Json)} {keys : List PyStr}
    (h : members.map Prod.fst = keys)
    (hk : keys.Nodup ∧ ∀ k ∈ keys, k.joinSurrogates = k) : WellKeyed members := by
  rw [WellKeyed, h]
  exact hk

/-! ## Looking up -/

theorem memberOf_nil (k : PyStr) : memberOf [] k = none := rfl

theorem memberOf_cons (x : PyStr × Json) (members : List (PyStr × Json)) (k : PyStr) :
    memberOf (x :: members) k = if x.1 = k then some x.2 else memberOf members k := by
  by_cases h : x.1 = k
  · simp [memberOf, h]
  · simp [memberOf, h]

theorem get_eq_memberOf (members : List (PyStr × Json)) (k : PyStr) :
    Json.get members k = (memberOf members k).getD .null := rfl

/-- A member of a value made by `loads` is one. -/
theorem Json.Built.member {members : List (PyStr × Json)} (h : Json.Built (.obj members))
    {k : PyStr} {v : Json} (hv : memberOf members k = some v) : v.Built := by
  have hget := h.get k
  rwa [get_eq_memberOf, hv, Option.getD_some] at hget

/-- Without repeated keys, looking a key up is membership. -/
theorem memberOf_eq_some {members : List (PyStr × Json)} (hn : (members.map Prod.fst).Nodup)
    {k : PyStr} {v : Json} : memberOf members k = some v ↔ (k, v) ∈ members := by
  induction members with
  | nil => simp [memberOf_nil]
  | cons x xs ih =>
    rw [List.map_cons, List.nodup_cons] at hn
    rw [memberOf_cons, List.mem_cons]
    by_cases h : x.1 = k
    · have hout : (k, v) ∉ xs := fun hmem => hn.1 (h ▸ List.mem_map_of_mem hmem)
      rw [if_pos h, Option.some.injEq]
      constructor
      · intro heq
        exact .inl (Prod.ext h.symm heq.symm)
      · intro hmem
        exact (congrArg Prod.snd (hmem.resolve_right hout)).symm
    · rw [if_neg h, ih hn.2]
      constructor
      · exact Or.inr
      · intro hmem
        exact hmem.resolve_left fun heq => h (congrArg Prod.fst heq).symm

theorem memberOf_perm {members others : List (PyStr × Json)} (h : members.Perm others)
    (hn : (members.map Prod.fst).Nodup) : memberOf members = memberOf others := by
  have hn' : (others.map Prod.fst).Nodup := (h.map Prod.fst).nodup hn
  funext k
  apply Option.ext
  intro v
  rw [memberOf_eq_some hn, memberOf_eq_some hn', h.mem_iff]

/-- A map on the values. -/
theorem memberOf_map (f : Json → Json) (members : List (PyStr × Json)) (k : PyStr) :
    memberOf (members.map fun kv => (kv.1, f kv.2)) k = (memberOf members k).map f := by
  induction members with
  | nil => rfl
  | cons x xs ih =>
    rw [List.map_cons, memberOf_cons, memberOf_cons, ih]
    by_cases h : x.1 = k
    · simp [h]
    · simp [h]

/-! ## What a written mapping reads as -/

theorem perm_insertMember (kv : PyStr × Json) (members : List (PyStr × Json)) :
    (insertMember kv members).Perm (kv :: members) := by
  induction members with
  | nil => exact .refl _
  | cons x xs ih =>
    rw [insertMember]
    split_ifs
    · exact .refl _
    · exact (ih.cons x).trans (.swap kv x xs)

theorem perm_sortMembers (members : List (PyStr × Json)) :
    (sortMembers members).Perm (members.map fun kv => (kv.1, kv.2.sortKeys)) := by
  induction members with
  | nil => exact .refl _
  | cons x xs ih =>
    rw [sortMembers, List.map_cons]
    exact (perm_insertMember _ _).trans (ih.cons _)

theorem buildMembers_eq_map {members : List (PyStr × Json)}
    (hk : ∀ k ∈ members.map Prod.fst, k.joinSurrogates = k) :
    buildMembers members = members.map fun kv => (kv.1, kv.2.build) := by
  induction members with
  | nil => rfl
  | cons x xs ih =>
    rw [List.map_cons, List.forall_mem_cons] at hk
    rw [buildMembers, List.map_cons, hk.1, ih hk.2]

theorem setMember_of_not_mem {k : PyStr} {members : List (PyStr × Json)}
    (h : k ∉ members.map Prod.fst) (v : Json) : setMember k v members = members ++ [(k, v)] := by
  induction members with
  | nil => rfl
  | cons x xs ih =>
    rw [List.map_cons, List.mem_cons, not_or] at h
    rw [setMember, if_neg (Ne.symm h.1), ih h.2, List.cons_append]

/-- Members without a repeated key are a dict already. -/
theorem dictOf_of_nodup {members : List (PyStr × Json)} (hn : (members.map Prod.fst).Nodup) :
    dictOf members = members := by
  have hfold : ∀ (rest done : List (PyStr × Json)), ((done ++ rest).map Prod.fst).Nodup →
      rest.foldl (fun d kv => setMember kv.1 kv.2 d) done = done ++ rest := by
    intro rest
    induction rest with
    | nil => intro done _; rw [List.foldl_nil, List.append_nil]
    | cons x xs ih =>
      intro done hdone
      have hx : x.1 ∉ done.map Prod.fst := by
        rw [List.map_append, List.map_cons] at hdone
        intro hmem
        exact (List.nodup_append.1 hdone).2.2 _ hmem _ (List.mem_cons_self ..) rfl
      rw [List.foldl_cons, setMember_of_not_mem hx, ih _ (by simpa using hdone)]
      simp
  exact hfold members [] hn

/-- A mapping read back: every member reads as its own value read back, and none is added. -/
theorem readBack_obj_length {members : List (PyStr × Json)} (h : WellKeyed members) :
    ∃ d, (Json.obj members).readBack = .obj d ∧
      (memberOf d = fun k => (memberOf members k).map Json.readBack) ∧
        d.length = members.length := by
  obtain ⟨hn, hk⟩ := h
  have hsort := perm_sortMembers members
  have hkeys : ((sortMembers members).map Prod.fst).Perm (members.map Prod.fst) := by
    have hmap := hsort.map Prod.fst
    rwa [List.map_map, show Prod.fst ∘ (fun kv : PyStr × Json => (kv.1, kv.2.sortKeys)) = Prod.fst
      from rfl] at hmap
  have hbuild := buildMembers_eq_map fun k h => hk k (hkeys.mem_iff.1 h)
  have hfst : ((buildMembers (sortMembers members)).map Prod.fst) =
      (sortMembers members).map Prod.fst := by
    rw [hbuild, List.map_map]
    rfl
  have hnodup : ((buildMembers (sortMembers members)).map Prod.fst).Nodup :=
    hfst ▸ hkeys.nodup_iff.2 hn
  refine ⟨buildMembers (sortMembers members), ?_, ?_, ?_⟩
  · rw [Json.readBack, Json.sortKeys, Json.build, dictOf_of_nodup hnodup]
  · funext k
    rw [hbuild, memberOf_map, memberOf_perm hsort (hkeys.nodup_iff.2 hn), memberOf_map,
      Option.map_map]
    rfl
  · rw [hbuild, List.length_map, hsort.length_eq, List.length_map]

/-- **A mapping read back.** Every member reads as its own value read back. -/
theorem readBack_obj {members : List (PyStr × Json)} (h : WellKeyed members) :
    ∃ d, (Json.obj members).readBack = .obj d ∧
      memberOf d = fun k => (memberOf members k).map Json.readBack := by
  obtain ⟨d, hd, hmembers, -⟩ := readBack_obj_length h
  exact ⟨d, hd, hmembers⟩

/-! ## Writing -/

theorem printableMembers_iff {members : List (PyStr × Json)} :
    PrintableMembers members ↔ ∀ kv ∈ members, kv.2.Printable := by
  induction members with
  | nil => simp [PrintableMembers]
  | cons x xs ih => rw [PrintableMembers, ih, List.forall_mem_cons]

/-- A value that `json.dumps(value, sort_keys=True)` writes as valid text. -/
structure Json.Writable (v : Json) : Prop where
  printable : v.sortKeys.Printable

theorem Json.Writable.null : Json.null.Writable := ⟨trivial⟩

theorem Json.Writable.bool (b : Bool) : (Json.bool b).Writable := ⟨trivial⟩

theorem Json.Writable.int (n : ℤ) : (Json.int n).Writable := ⟨trivial⟩

theorem Json.Writable.str (s : PyStr) : (Json.str s).Writable := ⟨trivial⟩

theorem Json.Writable.float {lit : List Char} (h : FloatLiteral lit) : (Json.float lit).Writable :=
  ⟨h⟩

/-- Sorting the keys of an object keeps it writable. -/
theorem Json.Writable.obj {members : List (PyStr × Json)} (h : ∀ kv ∈ members, kv.2.Writable) :
    (Json.obj members).Writable := by
  refine ⟨?_⟩
  rw [Json.sortKeys, Json.Printable, printableMembers_iff]
  intro kv hkv
  obtain ⟨x, hx, rfl⟩ := List.mem_map.1 ((perm_sortMembers members).mem_iff.1 hkv)
  exact (h x hx).printable

/-- A file that holds one dumped value and a line break. -/
theorem loads_dumps_line {v : Json} (hv : v.Writable) :
    loads (dumps v.sortKeys ++ ['\n']) = some v.readBack := by
  have hend : NumberEnd ['\n'] := by
    intro c hc
    obtain rfl : '\n' = c := by simpa using hc
    decide
  have hscan := scanValue_dumps v.sortKeys (2 * (dumps v.sortKeys ++ ['\n']).length) ['\n']
    hv.printable hend (by rw [List.length_append]; omega)
  have hstart := startsValue_append (startsValue_dumps hv.printable) ['\n']
  have hline : skipWhitespace ['\n'] = [] := by decide
  rw [loads, skipWhitespace_of_starts hstart, hscan, Option.bind_some, if_pos hline,
    Json.build_units, Json.readBack]

/-! ## Float literals -/

/-- A constant of the grammar is a literal. -/
theorem floatLiteral_of_constant {word : List Char} (hstart : StartsValue word)
    (hscan : ∀ t, scanConstant (word ++ t) = some (.float word, t))
    (hword : ∀ c ∈ word.head?, c ≠ '"' ∧ c ≠ '[' ∧ c ≠ '\x7b') : FloatLiteral word := by
  refine ⟨hstart, ?_⟩
  intro fuel t _
  obtain ⟨c, r, rfl, -, -⟩ := hstart
  obtain ⟨hquote, hbracket, hbrace⟩ := hword c rfl
  have hconstant := hscan t
  rw [List.cons_append] at hconstant ⊢
  rw [scanValue, if_neg hquote, if_neg hbracket, if_neg hbrace, hconstant, Option.some_or]

theorem floatLiteral_nan : FloatLiteral "NaN".toList :=
  floatLiteral_of_constant ⟨'N', _, rfl, by decide, by decide⟩ (fun _ => rfl) (by simp)

theorem floatLiteral_infinity : FloatLiteral "Infinity".toList :=
  floatLiteral_of_constant ⟨'I', _, rfl, by decide, by decide⟩ (fun _ => rfl) (by simp)

theorem floatLiteral_negInfinity : FloatLiteral "-Infinity".toList :=
  floatLiteral_of_constant ⟨'-', _, rfl, by decide, by decide⟩ (fun _ => rfl) (by simp)

/-- The integer part is one digit when a point follows it. -/
theorem scanWhole_digit_point {d : Char} (hd : d.isDigit = true) (t : List Char) :
    scanWhole (d :: '.' :: t) = some ([d], '.' :: t) := by
  rw [scanWhole]
  by_cases hzero : d = '0'
  · rw [if_pos hzero, hzero]
  · rw [if_neg hzero, if_pos hd, List.takeWhile_cons_of_pos hd, List.dropWhile_cons_of_pos hd,
      List.takeWhile_cons_of_neg (by decide), List.dropWhile_cons_of_neg (by decide)]

/-- The fraction is one zero when the number ends behind it. -/
theorem scanFraction_point_zero {t : List Char} (ht : NumberEnd t) :
    scanFraction ('.' :: '0' :: t) = (['.', '0'], t) := by
  have hdigits : t.takeWhile Char.isDigit = [] ∧ t.dropWhile Char.isDigit = t := by
    cases t with
    | nil => exact ⟨rfl, rfl⟩
    | cons c r =>
      have hc := (ht c rfl).1
      exact ⟨List.takeWhile_cons_of_neg (by simp [hc]), List.dropWhile_cons_of_neg (by simp [hc])⟩
  have htake : ('0' :: t).takeWhile Char.isDigit = ['0'] := by
    rw [List.takeWhile_cons_of_pos (by decide), hdigits.1]
  have hdrop : ('0' :: t).dropWhile Char.isDigit = t := by
    rw [List.dropWhile_cons_of_pos (by decide), hdigits.2]
  rw [scanFraction, htake, hdrop, if_pos ⟨rfl, by simp⟩]

/-- One digit before the point and a zero behind it. -/
theorem floatLiteral_digit {d : Char} (hd : d.isDigit = true) : FloatLiteral [d, '.', '0'] := by
  obtain ⟨hminus, hquote, hbracket, hclose, hbrace, hn, ht, hf, hN, hI, hspace⟩ :=
    not_isDigit_of_mem hd
  refine ⟨⟨d, ['.', '0'], rfl, hspace, hclose⟩, ?_⟩
  intro fuel t hend
  have hconstant : scanConstant (d :: '.' :: '0' :: t) = none := by
    simp [scanConstant, constants, dropWord, hminus, hn, ht, hf, hN, hI]
  show scanValue (fuel + 1) (d :: '.' :: '0' :: t) = _
  rw [scanValue, if_neg hquote, if_neg hbracket, if_neg hbrace, hconstant, Option.none_or,
    scanNumber, if_neg hminus, scanUnsigned, scanWhole_digit_point hd, Option.map_some]
  dsimp only
  rw [scanFraction_point_zero hend, scanExponent_of_end hend]
  rfl

theorem literalValue_digit {d : Char} (hd : d.isDigit = true) :
    literalValue [d, '.', '0'] = (Nat.ofDigitChars 10 [d] 0 : ℚ) := by
  rw [literalValue, scanWhole_digit_point hd, Option.map_some]
  dsimp only
  rw [scanFraction_point_zero numberEnd_nil, Option.getD_some]
  have htenfold : Nat.ofDigitChars 10 ([d] ++ ['.', '0'].drop 1) 0 =
      10 * Nat.ofDigitChars 10 [d] 0 := by
    simp [Nat.ofDigitChars]
  have hscale : scanExponent [] = ([], []) := rfl
  rw [htenfold, hscale]
  simp only [scanSign, Nat.ofDigitChars, List.drop_nil, reduceCtorEq, if_false, List.foldl_nil,
    List.drop_succ_cons, List.drop_zero, List.length_singleton, Nat.cast_mul, Nat.cast_zero,
    Nat.cast_one, zero_sub, zpow_neg_one, Nat.cast_ofNat]
  ring

end Lubko.Lib
