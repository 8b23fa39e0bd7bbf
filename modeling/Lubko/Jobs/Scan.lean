import Lubko.Jobs.Statements
import Lubko.Lib.JsonbInput
import Lubko.Lib.OrderBy
import Lubko.Lib.Table

/-!
# Scans over opaque payloads

Every ambient scan of the worker reads the payload text of all rows through `_safe_payload_sql`: the
text when it `IS JSON`, cast to `jsonb`. The guard keeps malformed texts from the cast, but not the
texts that are JSON and that `jsonb` refuses; on such a row the cast raises, and with it the scan.

* `claimNext_of_storable` — without such rows, a claim depends only on the claimable rows.
* `claim_unaffected_iff` — rows that are not claimable leave a claim alone exactly when no row has a
  text of that kind.
* `nul_escape_stops_claims` — one such row of nobody's makes the claim of every server fail.
-/

namespace Lubko.Jobs

open Lubko.Lib

/-- The error of the `jsonb` input conversion. -/
inductive SqlError where
  | invalidJsonb
  deriving DecidableEq

/-- `_safe_payload_sql` on a payload text. -/
def safePayload (text : List Char) : Except SqlError Payload :=
  if isJson text then
    match jsonbIn text with
    | some v => .ok (some v)
    | none => .error .invalidJsonb
  else .ok none

/-- The rows that meet a condition; every row is read. -/
def scan (guard : Payload → Bool) :
    List (Uuid × List Char) → Except SqlError (List (Uuid × Payload))
  | [] => .ok []
  | (id, text) :: rows => do
    let p ← safePayload text
    let rest ← scan guard rows
    return if guard p then (id, p) :: rest else rest

/-! ## Claiming -/

section Claiming

variable (collation : SortKey PyStr) (worker : WorkerIdentity) (now leaseExpiresAt : PyStr)
  (locked : Uuid → Bool) (limit : ℕ)

/-- `ORDER BY payload->'state'->>'created_at', id`. -/
def claimOrder : SortKey (Uuid × Payload) :=
  (collation.nullsLast.on fun r => arrowText (state r.2) "created_at").thenBy
    (SortKey.ofLinear.on fun r => r.1.digits)

/-- The rows `claim_jobs` selects: those that meet its condition, in order, without the ones another
session has locked, and at most `limit` of them. The limit is at least one. -/
def claimNext (rows : List (Uuid × List Char)) : Except SqlError (List Uuid) := do
  let next ← scan (claimJobs worker now leaseExpiresAt).guard rows
  return ((((claimOrder collation).orderBy next).filter fun r => !locked r.1).take limit).map Prod.fst

/-- The row is one the worker may claim. -/
def isClaimable (text : List Char) : Bool :=
  match safePayload text with
  | .ok p => (claimJobs worker now leaseExpiresAt).guard p
  | .error _ => false

def claimableRows (rows : List (Uuid × List Char)) : List (Uuid × List Char) :=
  rows.filter fun r => isClaimable worker now leaseExpiresAt r.2

end Claiming

/-! ## Texts that convert -/

/-- The text is no JSON, or its value is one that `jsonb` can hold. -/
def Storable (text : List Char) : Prop :=
  ∀ v, scanText text = some v → v.standard = true → v.storable = true

instance (text : List Char) : Decidable (Storable text) :=
  decidable_of_iff ((scanText text).all (fun v => !v.standard || v.storable) = true) (by
    rw [Option.all_eq_true]
    refine forall₂_congr fun v _ => ?_
    cases v.standard <;> simp)

theorem jsonbIn_eq_none {text : List Char} (h : isJson text ≠ true) : jsonbIn text = none := by
  rw [jsonbIn]
  cases hv : scanText text with
  | none => rfl
  | some v =>
    have hstandard : v.standard ≠ true := by
      intro hstandard
      rw [isJson, hv] at h
      exact h hstandard
    rw [Option.bind_some, if_neg hstandard]

/-- **The expression is defined exactly on the storable texts.** -/
theorem safePayload_ok_iff {text : List Char} : (∃ p, safePayload text = .ok p) ↔ Storable text := by
  unfold safePayload
  by_cases hjson : isJson text = true
  · rw [if_pos hjson]
    obtain ⟨v, hv, hstandard⟩ := (Option.any_eq_true _ _).1 hjson
    have hsome := jsonbIn_isSome hjson
    rw [hv, Option.any_some] at hsome
    constructor
    · intro ⟨p, hp⟩ w hw _
      obtain rfl : v = w := Option.some.inj (hv.symm.trans hw)
      rw [← hsome]
      cases hin : jsonbIn text with
      | none =>
        rw [hin] at hp
        cases hp
      | some u => rfl
    · intro hstorable
      rw [hstorable v hv hstandard] at hsome
      obtain ⟨u, hu⟩ := Option.isSome_iff_exists.1 hsome
      rw [hu]
      exact ⟨some u, rfl⟩
  · rw [if_neg hjson]
    refine iff_of_true ⟨none, rfl⟩ fun v hv hstandard => ?_
    rw [isJson, hv] at hjson
    exact absurd hstandard hjson

theorem safePayload_of_storable {text : List Char} (h : Storable text) :
    safePayload text = .ok (jsonbIn text) := by
  obtain ⟨p, hp⟩ := safePayload_ok_iff.2 h
  rw [hp]
  unfold safePayload at hp
  by_cases hjson : isJson text = true
  · rw [if_pos hjson] at hp
    cases hin : jsonbIn text with
    | none =>
      rw [hin] at hp
      cases hp
    | some v =>
      rw [hin] at hp
      exact hp.symm
  · rw [if_neg hjson] at hp
    rw [jsonbIn_eq_none hjson]
    exact hp.symm

/-- A scan over storable texts keeps the rows that meet the condition. -/
theorem scan_of_storable (guard : Payload → Bool) {rows : List (Uuid × List Char)}
    (h : ∀ r ∈ rows, Storable r.2) :
    scan guard rows =
      .ok ((rows.filter fun r => guard (jsonbIn r.2)).map fun r => (r.1, jsonbIn r.2)) := by
  induction rows with
  | nil => rfl
  | cons r rows ih =>
    obtain ⟨id, text⟩ := r
    rw [scan, safePayload_of_storable (h (id, text) List.mem_cons_self),
      ih fun r hr => h r (List.mem_cons_of_mem _ hr)]
    show Except.ok _ = Except.ok _
    by_cases hguard : guard (jsonbIn text) = true
    · simp [hguard]
    · simp [hguard]

/-- **One row with a text that does not convert fails the scan**, whatever its condition. -/
theorem scan_of_not_storable (guard : Payload → Bool) {rows : List (Uuid × List Char)}
    {r : Uuid × List Char} (hr : r ∈ rows) (h : ¬ Storable r.2) :
    scan guard rows = .error .invalidJsonb := by
  induction rows with
  | nil => cases hr
  | cons x rows ih =>
    obtain ⟨id, text⟩ := x
    rw [scan]
    cases hpayload : safePayload text with
    | error e =>
      cases e
      rfl
    | ok p =>
      rcases List.mem_cons.1 hr with rfl | htail
      · exact absurd (safePayload_ok_iff.1 ⟨p, hpayload⟩) h
      · rw [ih htail]
        rfl

/-! ## Two tables -/

section Claims

variable {collation : SortKey PyStr} {worker : WorkerIdentity} {now leaseExpiresAt : PyStr}
  {locked : Uuid → Bool} {limit : ℕ}

theorem isClaimable_of_storable {text : List Char} (h : Storable text) :
    isClaimable worker now leaseExpiresAt text =
      (claimJobs worker now leaseExpiresAt).guard (jsonbIn text) := by
  rw [isClaimable, safePayload_of_storable h]

/-- **Without texts that fail to convert, a claim is a function of the claimable rows.** -/
theorem claimNext_of_storable {rows : List (Uuid × List Char)} (h : ∀ r ∈ rows, Storable r.2) :
    claimNext collation worker now leaseExpiresAt locked limit rows =
      .ok (((((claimOrder collation).orderBy
        ((claimableRows worker now leaseExpiresAt rows).map fun r => (r.1, jsonbIn r.2))).filter
          fun r => !locked r.1).take limit).map Prod.fst) := by
  have hrows : claimableRows worker now leaseExpiresAt rows =
      rows.filter fun r => (claimJobs worker now leaseExpiresAt).guard (jsonbIn r.2) :=
    List.filter_congr fun r hr => isClaimable_of_storable (h r hr)
  rw [claimNext, scan_of_storable _ h, hrows]
  rfl

/-- The keys of a claim tell rows with different identifiers apart. -/
theorem claimOrder_equal {a b : Uuid × Payload} (hab : (claimOrder collation).le a b = true)
    (hba : (claimOrder collation).le b a = true) : a.1 = b.1 := by
  obtain ⟨hle, hge⟩ := SortKey.thenBy_equal hab hba
  exact Uuid.digits_injective (SortKey.ofLinear_equal hle hge)

variable (collation locked limit) in
/-- Tables with the same claimable rows give the same claim. -/
theorem claimNext_eq {t t' : Table Uuid (List Char)} (h : ∀ r ∈ t.rows, Storable r.2)
    (h' : ∀ r ∈ t'.rows, Storable r.2)
    (hperm : (claimableRows worker now leaseExpiresAt t.rows).Perm
      (claimableRows worker now leaseExpiresAt t'.rows)) :
    claimNext collation worker now leaseExpiresAt locked limit t.rows =
      claimNext collation worker now leaseExpiresAt locked limit t'.rows := by
  rw [claimNext_of_storable h, claimNext_of_storable h',
    SortKey.orderBy_eq_of_perm (claimOrder collation) (hperm.map fun r => (r.1, jsonbIn r.2))]
  intro a ha b hb hab hba
  -- both rows are of the second table, whose identifiers are unique
  have ha' := ((hperm.map fun r => (r.1, jsonbIn r.2)).mem_iff).1 ha
  obtain ⟨x, hx, rfl⟩ := List.mem_map.1 ha'
  obtain ⟨y, hy, rfl⟩ := List.mem_map.1 hb
  have hid : x.1 = y.1 := claimOrder_equal hab hba
  have hx' := Table.get_eq_some.2 (List.mem_of_mem_filter hx)
  have hy' := Table.get_eq_some.2 (List.mem_of_mem_filter hy)
  rw [hid] at hx'
  have htext : x.2 = y.2 := Option.some.inj (hx'.symm.trans hy')
  rw [hid, htext]

/-- The expression of every scan is defined on all rows of two tables, and the worker claims the same
rows of both. -/
structure Unaffected (collation : SortKey PyStr) (worker : WorkerIdentity)
    (now leaseExpiresAt : PyStr) (locked : Uuid → Bool) (limit : ℕ)
    (t t' : Table Uuid (List Char)) : Prop where
  defined : ∀ r ∈ t.rows, ∃ p, safePayload r.2 = .ok p
  defined' : ∀ r ∈ t'.rows, ∃ p, safePayload r.2 = .ok p
  claimed : ∃ ids, claimNext collation worker now leaseExpiresAt locked limit t.rows = .ok ids ∧
    claimNext collation worker now leaseExpiresAt locked limit t'.rows = .ok ids

/-- **Rows that are not claimable leave a claim alone exactly when all texts are storable.** The two
tables differ only in rows that the worker may not claim. -/
theorem claim_unaffected_iff {t t' : Table Uuid (List Char)}
    (hperm : (claimableRows worker now leaseExpiresAt t.rows).Perm
      (claimableRows worker now leaseExpiresAt t'.rows)) :
    Unaffected collation worker now leaseExpiresAt locked limit t t' ↔
      (∀ r ∈ t.rows, Storable r.2) ∧ ∀ r ∈ t'.rows, Storable r.2 := by
  constructor
  · intro h
    exact ⟨fun r hr => safePayload_ok_iff.1 (h.defined r hr),
      fun r hr => safePayload_ok_iff.1 (h.defined' r hr)⟩
  · intro ⟨h, h'⟩
    refine ⟨fun r hr => safePayload_ok_iff.2 (h r hr), fun r hr => safePayload_ok_iff.2 (h' r hr),
      ?_⟩
    have heq := claimNext_eq collation locked limit h h' hperm
    rw [claimNext_of_storable h'] at heq
    exact ⟨_, heq, claimNext_of_storable h'⟩

end Claims

/-! ## One row of nobody's -/

/-- A pending command for `alpha`. -/
def pendingText : List Char :=
  ("\x7b\"type\": \"command\", \"v\": 4, \"server\": \"alpha\", " ++
    "\"state\": \x7b\"status\": \"pending\"\x7d\x7d" : String).toList

/-- A JSON string with a NUL escape. -/
def nulText : List Char := "\"\\u0000\"".toList

def alpha : WorkerIdentity := ⟨"alpha", "worker", "incarnation"⟩

/-- Code point order. -/
def codePoints : SortKey PyStr := SortKey.ofLinear

def pendingTable : Table Uuid (List Char) := ⟨[(.ofDigit 1, pendingText)], by decide⟩

/-- The table with a further row whose text is not JSON. -/
def withGarbage : Table Uuid (List Char) :=
  ⟨[(.ofDigit 2, "NaN".toList), (.ofDigit 1, pendingText)], by decide⟩

/-- The table with a further row that holds the NUL escape. -/
def withNul : Table Uuid (List Char) :=
  ⟨[(.ofDigit 1, pendingText), (.ofDigit 2, nulText)], by decide⟩

theorem claimableRows_pending :
    claimableRows alpha [] [] pendingTable.rows = [(.ofDigit 1, pendingText)] := by
  decide +kernel

theorem storable_pendingText : Storable pendingText := by decide +kernel

theorem claim_unaffected_iff_garbage :
    (claimableRows alpha [] [] pendingTable.rows).Perm (claimableRows alpha [] [] withGarbage.rows) ∧
      Unaffected codePoints alpha [] [] (fun _ => false) 1 pendingTable withGarbage := by
  have hrows : claimableRows alpha [] [] withGarbage.rows = [(.ofDigit 1, pendingText)] := by
    decide +kernel
  have hperm : (claimableRows alpha [] [] pendingTable.rows).Perm
      (claimableRows alpha [] [] withGarbage.rows) := by
    rw [claimableRows_pending, hrows]
  refine ⟨hperm, (claim_unaffected_iff hperm).2 ⟨?_, ?_⟩⟩
  · intro r hr
    obtain rfl := List.mem_singleton.1 hr
    exact storable_pendingText
  · intro r hr
    rcases List.mem_pair.1 hr with rfl | rfl
    · show Storable "NaN".toList
      decide +kernel
    · exact storable_pendingText

/-- **A row that no worker may claim stops every claim.** The text is valid JSON, so the guard lets it
through to the cast, which has no NUL character to put into a `jsonb` string. -/
theorem nul_escape_stops_claims :
    (claimableRows alpha [] [] pendingTable.rows).Perm (claimableRows alpha [] [] withNul.rows) ∧
      claimNext codePoints alpha [] [] (fun _ => false) 1 pendingTable.rows = .ok [.ofDigit 1] ∧
      claimNext codePoints alpha [] [] (fun _ => false) 1 withNul.rows = .error .invalidJsonb ∧
      ¬ Unaffected codePoints alpha [] [] (fun _ => false) 1 pendingTable withNul := by
  have hnul : ¬ Storable nulText := by decide +kernel
  have hmem : (Uuid.ofDigit 2, nulText) ∈ withNul.rows :=
    List.mem_cons_of_mem _ (List.mem_singleton_self _)
  have hrows : claimableRows alpha [] [] withNul.rows = [(.ofDigit 1, pendingText)] := by
    decide +kernel
  refine ⟨?_, ?_, ?_, ?_⟩
  · rw [claimableRows_pending, hrows]
  · have hstorable : ∀ r ∈ pendingTable.rows, Storable r.2 := by
      intro r hr
      obtain rfl := List.mem_singleton.1 hr
      exact storable_pendingText
    rw [claimNext_of_storable hstorable, claimableRows_pending]
    simp [SortKey.orderBy]
  · rw [claimNext, scan_of_not_storable _ hmem hnul]
    rfl
  · intro h
    have hdefined : ∃ p, safePayload nulText = .ok p := h.defined' (Uuid.ofDigit 2, nulText) hmem
    rw [safePayload_ok_iff] at hdefined
    exact hnul hdefined

end Lubko.Jobs
