import Lubko.Lib.Json

/-!
# Nullable `jsonb` expressions

The operators PostgreSQL has on `jsonb`, on values that may be SQL `NULL`, as far as conditions and
updates on members of objects need them. A number stands as `numeric` prints it.

* `arrow`, `arrowText`, `jsonbTypeof` — `->`, `->>` and `jsonb_typeof`.
* `jsonbSet`, `jsonbSetChain` — `jsonb_set`, and a chain of such calls.
* `isTrueIn_iff`, `isTrueNotIn_iff` — a comparison with `NULL` is not true, negated or not.
* `arrow_jsonbSetChain`, `arrow_arrow_jsonbSetChain` — a chain keeps what none of its paths names.
-/

namespace Lubko.Lib

/-! ## Reading -/

/-- The member of an object. -/
def memberOf (members : List (PyStr × Json)) (k : PyStr) : Option Json :=
  (members.find? fun kv => kv.1 = k).map Prod.snd

/-- `v -> k`. -/
def arrow (v : Option Json) (k : PyStr) : Option Json :=
  match v with
  | some (.obj members) => memberOf members k
  | _ => none

/-- The text of a value under `->>`; a JSON null is SQL `NULL`. -/
def Json.text? : Json → Option PyStr
  | .null => none
  | .bool b => some (if b then "true" else "false" : String)
  | .str s => some s
  | v => some ((dumps v).map CodePoint.ofChar)

/-- `v ->> k`. -/
def arrowText (v : Option Json) (k : PyStr) : Option PyStr := (arrow v k).bind Json.text?

/-- The types `jsonb_typeof` tells apart. -/
inductive JsonbType where
  | null | boolean | number | string | array | object
  deriving DecidableEq

/-- `jsonb_typeof`. -/
def jsonbTypeof (v : Option Json) : Option JsonbType :=
  v.map fun
    | .null => .null
    | .bool _ => .boolean
    | .int _ | .float _ => .number
    | .str _ => .string
    | .arr _ => .array
    | .obj _ => .object

/-- `v = 'true'::jsonb`. -/
def isJsonbTrue (v : Option Json) : Bool :=
  match v with
  | some (.bool true) => true
  | _ => false

/-- `v = 'false'::jsonb`. -/
def isJsonbFalse (v : Option Json) : Bool :=
  match v with
  | some (.bool false) => true
  | _ => false

/-- `v = 'null'::jsonb`. -/
def isJsonbNull (v : Option Json) : Bool :=
  match v with
  | some .null => true
  | _ => false

/-! ## Conditions

A condition holds in `WHERE` only when it is true, so `NULL` and false are one case. -/

section Conditions

variable {α : Type} [DecidableEq α]

/-- `x = y` is true. -/
def isTrueEq (x : Option α) (y : α) : Bool := x = some y

/-- `x IN (ys)` is true. -/
def isTrueIn (x : Option α) (ys : List α) : Bool := x.any fun a => a ∈ ys

/-- `x NOT IN (ys)` is true: a `NULL` is not. -/
def isTrueNotIn (x : Option α) (ys : List α) : Bool := x.any fun a => a ∉ ys

/-- `x IS DISTINCT FROM y`: a `NULL` is. -/
def isDistinctFrom (x : Option α) (y : α) : Bool := x ≠ some y

theorem isTrueIn_iff {x : Option α} {ys : List α} :
    isTrueIn x ys = true ↔ ∃ a ∈ ys, x = some a := by
  cases x with
  | none => simp [isTrueIn]
  | some a => simp [isTrueIn]

theorem isTrueNotIn_iff {x : Option α} {ys : List α} :
    isTrueNotIn x ys = true ↔ ∃ a, x = some a ∧ a ∉ ys := by
  cases x with
  | none => simp [isTrueNotIn]
  | some a => simp [isTrueNotIn]

end Conditions

/-! ## Writing -/

/-- `jsonb_set(target, path, value)`: the last key of the path is created when it is missing, the
others must be there. -/
def jsonbSet (value : Json) : List PyStr → Json → Json
  | [], target => target
  | [k], .obj members => .obj (setMember k value members)
  | k :: path, .obj members =>
    match memberOf members k with
    | none => .obj members
    | some inner => .obj (setMember k (jsonbSet value path inner) members)
  | _ :: _, target => target

/-- Nested `jsonb_set` calls, innermost first. -/
def jsonbSetChain (target : Json) (updates : List (List PyStr × Json)) : Json :=
  updates.foldl (fun v u => jsonbSet u.2 u.1 v) target

theorem memberOf_setMember_self (k : PyStr) (v : Json) (members : List (PyStr × Json)) :
    memberOf (setMember k v members) k = some v := by
  induction members with
  | nil => simp [setMember, memberOf]
  | cons x xs ih =>
    rw [setMember]
    split_ifs with hx
    · simp [memberOf, hx]
    · rw [memberOf, List.find?_cons_of_neg (by simpa using hx)]
      exact ih

theorem memberOf_setMember_ne {k k' : PyStr} (hne : k' ≠ k) (v : Json)
    (members : List (PyStr × Json)) :
    memberOf (setMember k v members) k' = memberOf members k' := by
  induction members with
  | nil => simp [setMember, memberOf, hne.symm]
  | cons x xs ih =>
    rw [setMember]
    split_ifs with hx
    · have hx' : ¬ x.1 = k' := fun h => hne (h ▸ hx)
      rw [memberOf, memberOf, List.find?_cons_of_neg (by simpa using hx'),
        List.find?_cons_of_neg (by simpa using hx')]
    · by_cases hx' : x.1 = k'
      · rw [memberOf, memberOf, List.find?_cons_of_pos (by simpa using hx'),
          List.find?_cons_of_pos (by simpa using hx')]
      · rw [memberOf, memberOf, List.find?_cons_of_neg (by simpa using hx'),
          List.find?_cons_of_neg (by simpa using hx')]
        exact ih

theorem get_setMember (k : PyStr) (v : Json) (members : List (PyStr × Json)) :
    Json.get (setMember k v members) k = v := by
  show (memberOf (setMember k v members) k).getD .null = v
  rw [memberOf_setMember_self, Option.getD_some]

theorem get_setMember_of_ne {k k' : PyStr} (hne : k' ≠ k) (v : Json)
    (members : List (PyStr × Json)) :
    Json.get (setMember k v members) k' = Json.get members k' := by
  show (memberOf (setMember k v members) k').getD .null = _
  rw [memberOf_setMember_ne hne]
  rfl

theorem jsonbSet_pair {k j : PyStr} {value inner : Json} {members : List (PyStr × Json)}
    (hk : memberOf members k = some inner) :
    jsonbSet value [k, j] (.obj members) =
      .obj (setMember k (jsonbSet value [j] inner) members) := by
  rw [jsonbSet]
  · rw [hk]
  · simp

/-- A set keeps the members its path does not start with. -/
theorem arrow_jsonbSet_ne {k k' : PyStr} (hne : k' ≠ k) (value : Json) (path : List PyStr)
    (target : Json) :
    arrow (some (jsonbSet value (k :: path) target)) k' = arrow (some target) k' := by
  cases target with
  | obj members =>
    cases path with
    | nil => exact memberOf_setMember_ne hne value members
    | cons k₂ path =>
      rw [jsonbSet]
      · cases memberOf members k with
        | none => rfl
        | some inner => exact memberOf_setMember_ne hne _ members
      · simp
  | null | bool _ | int _ | float _ | str _ | arr _ => cases path <;> rfl

/-- A set of one key below a member keeps the other keys below it. -/
theorem arrow_arrow_jsonbSet_ne {k j j' : PyStr} (hne : j' ≠ j) (value : Json) (target : Json) :
    arrow (arrow (some (jsonbSet value [k, j] target)) k) j' =
      arrow (arrow (some target) k) j' := by
  cases target with
  | obj members =>
    cases hk : memberOf members k with
    | none =>
      rw [jsonbSet]
      · rw [hk]
      · simp
    | some inner =>
      have hself : arrow (some (jsonbSet value [k, j] (.obj members))) k =
          some (jsonbSet value [j] inner) := by
        rw [jsonbSet_pair hk]
        exact memberOf_setMember_self k _ members
      have hinner : arrow (some (Json.obj members)) k = some inner := hk
      rw [hself, hinner]
      exact arrow_jsonbSet_ne hne value [] inner
  | null | bool _ | int _ | float _ | str _ | arr _ => rfl

/-- A set of one key below a member that is an object takes effect. -/
theorem arrow_arrow_jsonbSet_self {k j : PyStr} (value : Json) {target : Json}
    {inner : List (PyStr × Json)} (h : arrow (some target) k = some (.obj inner)) :
    arrow (arrow (some (jsonbSet value [k, j] target)) k) j = some value := by
  cases target with
  | obj members =>
    have hk : memberOf members k = some (.obj inner) := h
    have hself : arrow (some (jsonbSet value [k, j] (.obj members))) k =
        some (jsonbSet value [j] (.obj inner)) := by
      rw [jsonbSet_pair hk]
      exact memberOf_setMember_self k _ members
    rw [hself]
    exact memberOf_setMember_self j value inner
  | null | bool _ | int _ | float _ | str _ | arr _ => cases h

/-! ## Chains -/

/-- The path leaves `k.j` alone: it names neither it nor anything above it. -/
def pathKeeps (k j : PyStr) : List PyStr → Bool
  | [] => true
  | [a] => a ≠ k
  | [a, b] => a ≠ k || b ≠ j
  | a :: _ => a ≠ k

/-- A chain keeps the members none of its paths starts with. -/
theorem arrow_jsonbSetChain {k : PyStr} {updates : List (List PyStr × Json)}
    (h : ((updates.map Prod.fst).all fun path => path.head? ≠ some k) = true) (target : Json) :
    arrow (some (jsonbSetChain target updates)) k = arrow (some target) k := by
  induction updates generalizing target with
  | nil => rfl
  | cons u us ih =>
    rw [List.map_cons, List.all_cons, Bool.and_eq_true] at h
    have hrest := ih h.2 (jsonbSet u.2 u.1 target)
    refine hrest.trans ?_
    cases hu : u.1 with
    | nil => rw [jsonbSet]
    | cons a path =>
      refine arrow_jsonbSet_ne ?_ u.2 path target
      rintro rfl
      simp [hu] at h

/-- A chain keeps what is below a member when its paths leave it alone. -/
theorem arrow_arrow_jsonbSetChain {k j : PyStr} {updates : List (List PyStr × Json)}
    (h : (updates.map Prod.fst).all (pathKeeps k j) = true) (target : Json) :
    arrow (arrow (some (jsonbSetChain target updates)) k) j = arrow (arrow (some target) k) j := by
  induction updates generalizing target with
  | nil => rfl
  | cons u us ih =>
    rw [List.map_cons, List.all_cons, Bool.and_eq_true] at h
    have hrest := ih h.2 (jsonbSet u.2 u.1 target)
    refine hrest.trans ?_
    have hu := h.1
    match hpath : u.1 with
    | [] => rw [jsonbSet]
    | [a] =>
      have ha : k ≠ a := by
        rintro rfl
        simp [hpath, pathKeeps] at hu
      rw [arrow_jsonbSet_ne ha]
    | [a, b] =>
      by_cases ha : k = a
      · subst ha
        have hb : j ≠ b := by
          rintro rfl
          simp [hpath, pathKeeps] at hu
        exact arrow_arrow_jsonbSet_ne hb u.2 target
      · rw [arrow_jsonbSet_ne ha]
    | a :: b :: c :: path =>
      have ha : k ≠ a := by
        rintro rfl
        simp [hpath, pathKeeps] at hu
      rw [arrow_jsonbSet_ne ha]

/-- The first set of a chain takes effect when the others leave it alone. -/
theorem arrow_arrow_jsonbSetChain_head {k j : PyStr} (value : Json)
    {updates : List (List PyStr × Json)} (h : (updates.map Prod.fst).all (pathKeeps k j) = true)
    {target : Json} {inner : List (PyStr × Json)} (hk : arrow (some target) k = some (.obj inner)) :
    arrow (arrow (some (jsonbSetChain target (([k, j], value) :: updates))) k) j = some value :=
  (arrow_arrow_jsonbSetChain h _).trans (arrow_arrow_jsonbSet_self value hk)

/-- A member that has a text below it is an object. -/
theorem exists_obj_of_arrowText {v : Option Json} {j : PyStr} {t : PyStr}
    (h : arrowText v j = some t) : ∃ inner, v = some (.obj inner) := by
  match v with
  | some (.obj inner) => exact ⟨inner, rfl⟩
  | none | some .null | some (.bool _) | some (.int _) | some (.float _) | some (.str _)
  | some (.arr _) => cases h

end Lubko.Lib
