import Lubko.Jobs.Scan
import Lubko.Lib.Decimal
import Lubko.Protocol.Payload

/-!
# What becomes of a pending job

The claim and the reaper read the version of a pending row as text, each by a condition of its own,
and the loop of `reap_unsupported_jobs` reads it again as a Python integer. The claim takes the
current version; the reaper takes what is below it or no integer; what is above is left for a newer
daemon. An integer of `jsonb` is a number that is printed without a point.

* `retiredVersion_int` — the reaper's test on texts compares integers.
* `jsonbIn_float_point` — a number that is no integer is printed with a point.
* `version_disposition` — every pending row meets exactly one of the three fates.
-/

namespace Lubko.Jobs

open Lubko.Lib

/-! ## The reaper -/

/-- `JobVersionDisposition`. -/
inductive JobVersionDisposition where
  | claimable
  | failClosed
  deriving DecidableEq

/-- `reaper_disposition`. -/
def reaperDisposition (version : ℤ) : JobVersionDisposition :=
  if version < Protocol.CURRENT_PROTOCOL_VERSION then .failClosed else .claimable

/-- The loop of `reap_unsupported_jobs` on one row it fetched: the payload `fail_unsupported_job`
leaves, or `none` when the row is skipped. -/
def reapRow (server now : PyStr) (p : Payload) : Option Payload :=
  if (parsedVersion p).any fun n => reaperDisposition n ≠ .failClosed then none
  else some ((failUnsupportedJob server (reapDiagnostic p) now).run p)

section Reaper

variable (collation : SortKey PyStr) (server now : PyStr) (locked : Uuid → Bool) (limit : ℕ)

/-- The rows `_REAP_UNSUPPORTED_TEMPLATE` selects. -/
def reapNext (rows : List (Uuid × List Char)) : Except SqlError (List (Uuid × Payload)) := do
  let next ← scan (reapable server) rows
  return (((claimOrder collation).orderBy next).filter fun r => !locked r.1).take limit

/-- `reap_unsupported_jobs`: the rows it failed, with the payload each one has now. -/
def reapUnsupportedJobs (rows : List (Uuid × List Char)) :
    Except SqlError (List (Uuid × Payload)) := do
  let fetched ← reapNext collation server locked limit rows
  return fetched.filterMap fun r => (reapRow server now r.2).map fun p => (r.1, p)

end Reaper

/-! ## Texts of versions -/

/-- The text of an integer. -/
def integerText (n : ℤ) : PyStr := (intText n).map CodePoint.ofChar

theorem integerText_neg {n : ℤ} (h : n < 0) :
    integerText n = 0x2d :: decimalText n.natAbs := by
  rw [integerText, intText, if_pos h]
  rfl

theorem integerText_nonneg {n : ℤ} (h : 0 ≤ n) : integerText n = decimalText n.natAbs := by
  rw [integerText, intText, if_neg h.not_gt]
  rfl

/-- A text of digits does not start with a sign. -/
theorem decimalText_head (n : ℕ) : (decimalText n).head? ≠ some 0x2d := by
  obtain ⟨c, cs, hcs, hc⟩ := toDigits_ne_nil_head n
  rw [decimalText, hcs]
  intro h
  have hsign : c.toNat = 0x2d := congrArg Fin.val (Option.some.inj h)
  have hdigit := (isDigit_bounds hc).1
  omega

theorem decimalText_ne_nil (n : ℕ) : decimalText n ≠ [] := by
  apply List.ne_nil_of_length_pos
  exact length_decimalText_pos n

theorem integerText_injective : Function.Injective integerText := by
  intro m n h
  rcases lt_or_ge m 0 with hm | hm
  · rcases lt_or_ge n 0 with hn | hn
    · rw [integerText_neg hm, integerText_neg hn, List.cons.injEq] at h
      have habs := decimalText_injective h.2
      omega
    · rw [integerText_neg hm, integerText_nonneg hn] at h
      exact absurd (congrArg List.head? h).symm (decimalText_head _)
  · rcases lt_or_ge n 0 with hn | hn
    · rw [integerText_nonneg hm, integerText_neg hn] at h
      exact absurd (congrArg List.head? h) (decimalText_head _)
    · rw [integerText_nonneg hm, integerText_nonneg hn] at h
      have habs := decimalText_injective h
      omega

theorem integerText_current :
    integerText Protocol.CURRENT_PROTOCOL_VERSION = CURRENT_PROTOCOL_VERSION := rfl

/-! ## Reading texts -/

theorem decimal?_digits {cs : List Char} (h : ∀ c ∈ cs, c.isDigit = true) :
    decimal? (cs.map CodePoint.ofChar) = some (decimalValue cs) := by
  rw [decimal?, decimalValue]
  generalize 0 = n
  induction cs generalizing n with
  | nil => rw [Nat.ofDigitChars_nil]; rfl
  | cons c cs ih =>
    rw [List.forall_mem_cons] at h
    have hdigit : (if 0x30 ≤ (CodePoint.ofChar c).val ∧ (CodePoint.ofChar c).val ≤ 0x39 then
        some (n * 10 + ((CodePoint.ofChar c).val - 0x30)) else none) =
          some (n * 10 + (c.toNat - '0'.toNat)) := if_pos (isDigit_bounds h.1)
    rw [List.map_cons, List.foldl_cons, Option.bind_some, hdigit, ih h.2, Nat.ofDigitChars_cons,
      Nat.mul_comm 10 n]

theorem decimal?_decimalText (n : ℕ) : decimal? (decimalText n) = some n := by
  rw [decimalText, decimal?_digits fun c hc => isDigit_of_mem_toDigits hc, decimalValue_toDigits]

/-- A text with a point is no text of digits. -/
theorem decimal?_of_point {s : PyStr} (h : (0x2e : CodePoint) ∈ s) : decimal? s = none := by
  rw [decimal?]
  generalize some 0 = acc
  have hnone : ∀ t : PyStr, t.foldl (fun n c => n.bind fun n =>
      if 0x30 ≤ c.val ∧ c.val ≤ 0x39 then some (n * 10 + (c.val - 0x30)) else none)
      (none : Option ℕ) = none := by
    intro t
    induction t with
    | nil => rfl
    | cons c t ih => exact ih
  induction s generalizing acc with
  | nil => cases h
  | cons c s ih =>
    rw [List.foldl_cons]
    rcases List.mem_cons.1 h with rfl | h
    · cases acc with
      | none => exact hnone s
      | some n => exact hnone s
    · exact ih h _

theorem isIntegerText_integerText (n : ℤ) : isIntegerText (integerText n) = true := by
  rcases lt_or_ge n 0 with hn | hn
  · rw [integerText_neg hn]
    simp [isIntegerText, decimal?_decimalText, decimalText_ne_nil]
  · rw [integerText_nonneg hn]
    simp [isIntegerText, decimalText_head, decimal?_decimalText, decimalText_ne_nil]

theorem isIntegerText_of_point {t : PyStr} (h : (0x2e : CodePoint) ∈ t) :
    isIntegerText t = false := by
  rw [isIntegerText]
  have hpoint : (0x2e : CodePoint) ∈ if t.head? = some 0x2d then t.tail else t := by
    split_ifs with hsign
    · cases t with
      | nil => cases h
      | cons c t =>
        obtain rfl := Option.some.inj hsign
        exact (List.mem_cons.1 h).resolve_left (by decide)
    · exact h
  simp [decimal?_of_point hpoint]

/-- What Python parses is the number, or nothing when the text is too long for `int`. -/
theorem pyInt?_integerText (n : ℤ) : pyInt? (integerText n) = some n ∨
    pyInt? (integerText n) = none := by
  rcases lt_or_ge n 0 with hn | hn
  · have habs : n = -(n.natAbs : ℤ) := by omega
    rw [integerText_neg hn, pyInt?]
    generalize n.natAbs = k at habs ⊢
    subst habs
    by_cases hlength : 4300 < (decimalText k).length
    · simp [hlength]
    · simp [hlength, decimalText_ne_nil, decimal?_decimalText]
  · have habs : n = (n.natAbs : ℤ) := by omega
    rw [integerText_nonneg hn, pyInt?]
    generalize n.natAbs = k at habs ⊢
    subst habs
    by_cases hlength : 4300 < (decimalText k).length
    · simp [decimalText_head, hlength]
    · simp [decimalText_head, hlength, decimalText_ne_nil, decimal?_decimalText]

theorem pyInt?_of_point {t : PyStr} (h : (0x2e : CodePoint) ∈ t) : pyInt? t = none := by
  have hinteger := isIntegerText_of_point h
  simp only [isIntegerText, Bool.and_eq_false_iff, decide_eq_false_iff_not, not_not,
    Option.isSome_eq_false_iff, Option.isNone_iff_eq_none] at hinteger
  rw [pyInt?]
  rcases hinteger with h | h
  · simp [h]
  · simp [h]

/-! ## Numbers of `jsonb` -/

/-- A number that is no integer is printed with a point. -/
def Pointed (v : Json) : Prop := ∀ lit, v = .float lit → '.' ∈ lit

theorem toJson_pointed (n : Numeral) : Pointed n.toJson := by
  intro lit
  rw [Numeral.toJson]
  by_cases hscale : n.scale = 0
  · rw [if_pos hscale]
    intro h
    cases h
  · rw [if_neg hscale]
    intro h
    rw [← Json.float.inj h]
    simp

theorem toJsonb?_pointed {v w : Json} (h : v.toJsonb? = some w) : Pointed w := by
  intro lit hw
  subst hw
  cases v with
  | float lit' =>
    rw [Json.toJsonb?] at h
    split_ifs at h
    exact toJson_pointed _ lit (Option.some.inj h)
  | null | bool _ => simp [Json.toJsonb?] at h
  | int n =>
    rw [Json.toJsonb?] at h
    split_ifs at h
    cases h
  | str s =>
    rw [Json.toJsonb?] at h
    cases hs : jsonbString? s <;> simp [hs] at h
  | arr items =>
    rw [Json.toJsonb?] at h
    cases hs : jsonbItems? items <;> simp [hs] at h
  | obj members =>
    rw [Json.toJsonb?] at h
    cases hs : jsonbMembers? members <;> simp [hs] at h

theorem jsonbMembers?_pointed {members kvs : List (PyStr × Json)}
    (h : jsonbMembers? members = some kvs) : ∀ kv ∈ kvs, Pointed kv.2 := by
  induction members generalizing kvs with
  | nil =>
    obtain rfl := Option.some.inj h
    intro kv hkv
    cases hkv
  | cons m members ih =>
    obtain ⟨k, v⟩ := m
    rw [jsonbMembers?] at h
    simp only [Option.bind_eq_some_iff, Option.map_eq_some_iff] at h
    obtain ⟨k', -, v', hv, kvs', hrest, rfl⟩ := h
    intro kv hkv
    rcases List.mem_cons.1 hkv with rfl | hkv
    · exact toJsonb?_pointed hv
    · exact ih hrest kv hkv

/-- **A member that is a number but no integer is printed with a point.** -/
theorem jsonbIn_float_point {text : List Char} {v : Json} (h : jsonbIn text = some v) {k : PyStr}
    {lit : List Char} (hk : arrow (some v) k = some (.float lit)) : '.' ∈ lit := by
  cases v with
  | obj members =>
    rw [jsonbIn, Option.bind_eq_some_iff] at h
    obtain ⟨scanned, -, h⟩ := h
    split_ifs at h
    have hpointed : ∀ kv ∈ members, Pointed kv.2 := by
      cases scanned with
      | obj members' =>
        rw [Json.toJsonb?, Option.map_eq_some_iff] at h
        obtain ⟨kvs, hkvs, hmembers⟩ := h
        rw [← Json.obj.inj hmembers]
        exact mem_dictOf (jsonbMembers?_pointed hkvs)
      | float lit' =>
        rw [Json.toJsonb?] at h
        split_ifs at h
        have hnumber := Option.some.inj h
        rw [Numeral.toJson] at hnumber
        split_ifs at hnumber
      | null | bool _ => simp [Json.toJsonb?] at h
      | int n =>
        rw [Json.toJsonb?] at h
        split_ifs at h
        cases h
      | str s =>
        rw [Json.toJsonb?] at h
        cases hs : jsonbString? s <;> simp [hs] at h
      | arr items =>
        rw [Json.toJsonb?] at h
        cases hs : jsonbItems? items <;> simp [hs] at h
    rw [arrow, memberOf, Option.map_eq_some_iff] at hk
    obtain ⟨kv, hfind, hkv⟩ := hk
    exact hpointed kv (List.mem_of_find?_eq_some hfind) lit hkv
  | null | bool _ | int _ | float _ | str _ | arr _ => cases hk

/-! ## The conditions on a version -/

section Conditions

variable {p : Payload}

theorem arrowText_int {n : ℤ} (h : arrow p "v" = some (.int n)) :
    arrowText p "v" = some (integerText n) := by
  rw [arrowText, h]
  rfl

theorem claimVersion_int {n : ℤ} (h : arrow p "v" = some (.int n)) :
    claimVersion p = true ↔ n = Protocol.CURRENT_PROTOCOL_VERSION := by
  rw [claimVersion, arrowText_int h, h, Bool.and_eq_true, isTrueEq_iff, Option.some.injEq,
    ← integerText_current, integerText_injective.eq_iff]
  exact and_iff_right rfl

/-- **The reaper's test on texts compares integers.** A text with a sign is below, and others are
ordered by their length, then character by character. -/
theorem retiredVersion_int {n : ℤ} (h : arrow p "v" = some (.int n)) :
    retiredVersion p = true ↔ n < Protocol.CURRENT_PROTOCOL_VERSION := by
  have hcond : (jsonbTypeof (arrow p "v") = some .number && (arrowText p "v").any isIntegerText) =
      true := by
    rw [arrowText_int h, h]
    exact isIntegerText_integerText n
  rw [retiredVersion, if_pos hcond, arrowText_int h, Option.any_some]
  rcases lt_or_ge n 0 with hn | hn
  · have hlt : n < Protocol.CURRENT_PROTOCOL_VERSION := hn.trans (by decide)
    rw [integerText_neg hn]
    simp [hlt]
  · rw [integerText_nonneg hn]
    have hlt : n < Protocol.CURRENT_PROTOCOL_VERSION ↔ n.natAbs < 4 := by
      rw [Protocol.CURRENT_PROTOCOL_VERSION]
      omega
    have hcurrent : decimalText 4 = CURRENT_PROTOCOL_VERSION := rfl
    rw [hlt, lt_iff_shortlex n.natAbs 4, hcurrent]
    simp [decimalText_head, and_assoc]

/-- What is no integer is retired, and not claimed. -/
theorem of_not_int (hpoint : ∀ lit, arrow p "v" = some (.float lit) → '.' ∈ lit)
    (h : ∀ n, arrow p "v" ≠ some (.int n)) : claimVersion p = false ∧ retiredVersion p = true ∧
      parsedVersion p = none := by
  rw [claimVersion, retiredVersion, parsedVersion, arrowText]
  cases hv : arrow p "v" with
  | none => exact ⟨rfl, rfl, rfl⟩
  | some v =>
    cases v with
    | int n => exact absurd hv (h n)
    | float lit =>
      have hmem : (0x2e : CodePoint) ∈ lit.map CodePoint.ofChar :=
        List.mem_map_of_mem (f := CodePoint.ofChar) (hpoint lit hv)
      have hne : lit.map CodePoint.ofChar ≠ CURRENT_PROTOCOL_VERSION := by
        intro heq
        rw [heq] at hmem
        revert hmem
        decide
      simp only [Option.bind_some, Json.text?, dumps]
      simp [jsonbTypeof, isTrueEq, isIntegerText_of_point hmem, pyInt?_of_point hmem, hne]
    | null | bool _ | str _ | arr _ | obj _ => simp [jsonbTypeof]

/-- What Python parses of an integer is that integer. -/
theorem parsedVersion_int {n m : ℤ} (h : arrow p "v" = some (.int n))
    (hm : parsedVersion p = some m) : m = n := by
  rw [parsedVersion, arrowText_int h, h] at hm
  rcases pyInt?_integerText n with hparsed | hparsed
  · exact (Option.some.inj (hparsed.symm.trans hm)).symm
  · exact absurd (hparsed.symm.trans hm) (by simp)

end Conditions

/-! ## What becomes of a row -/

/-- A row the reaper selects and the loop does not skip is failed. -/
theorem reapRow_failed {server now : PyStr} {p : Payload} (htype : hasType p "command" = true)
    (hserver : serverMatch p server = true) (hstatus : status p = some "pending")
    (hparsed : ∀ m, parsedVersion p = some m → m < Protocol.CURRENT_PROTOCOL_VERSION) :
    ∃ p', reapRow server now p = some p' ∧ status p' = some "failed" := by
  refine ⟨(failUnsupportedJob server (reapDiagnostic p) now).run p, ?_, ?_⟩
  · rw [reapRow, if_neg]
    cases hp : parsedVersion p with
    | none => simp
    | some m => simp [reaperDisposition, hparsed m hp]
  · have hguard : (failUnsupportedJob server (reapDiagnostic p) now).guard p = true := by
      show (hasType p "command" && serverMatch p server &&
        isTrueNotIn (status p) terminalStatuses) = true
      rw [htype, hserver, hstatus]
      decide
    exact status_run hguard rfl rfl hstatus

/-- What can become of a pending row. -/
inductive Fate where
  | claimed
  | left
  | failed
  deriving DecidableEq

/-- The reaper fails the row: in the loop over what it fetched, and in every pass whose limit admits
all the rows it selects. -/
structure Reaped (server : PyStr) (text : List Char) (p : Payload) : Prop where
  selected : reapable server p = true
  failed : ∀ now, ∃ p', reapRow server now p = some p' ∧ status p' = some "failed"
  pass : ∀ (collation : SortKey PyStr) (now : PyStr) (locked : Uuid → Bool) (limit : ℕ)
    (rows : List (Uuid × List Char)) (id : Uuid), (id, text) ∈ rows → locked id = false →
    (∀ r ∈ rows, Storable r.2) → rows.length ≤ limit →
    ∃ reaped p', reapUnsupportedJobs collation server now locked limit rows = .ok reaped ∧
      (id, p') ∈ reaped ∧ status p' = some "failed"

/-- The kinds of versions, with what becomes of a row of each. -/
def Meets (worker : WorkerIdentity) (now leaseExpiresAt : PyStr) (text : List Char) (p : Payload) :
    Fate → Prop
  | .claimed =>
    arrow p "v" = some (.int Protocol.CURRENT_PROTOCOL_VERSION) ∧
      (claimJobs worker now leaseExpiresAt).guard p = true
  | .left =>
    (∃ n > Protocol.CURRENT_PROTOCOL_VERSION, arrow p "v" = some (.int n)) ∧
      (claimJobs worker now leaseExpiresAt).guard p = false ∧ reapable worker.server p = false
  | .failed =>
    ((∃ n < Protocol.CURRENT_PROTOCOL_VERSION, arrow p "v" = some (.int n)) ∨
      ∀ n, arrow p "v" ≠ some (.int n)) ∧ Reaped worker.server text p

/-- The fate the version decides. -/
def fateOf : Option Json → Fate
  | some (.int n) =>
    if n < Protocol.CURRENT_PROTOCOL_VERSION then .failed
    else if n = Protocol.CURRENT_PROTOCOL_VERSION then .claimed else .left
  | _ => .failed

theorem fateOf_of_not_int {v : Option Json} (h : ∀ n, v ≠ some (.int n)) : fateOf v = .failed := by
  cases v with
  | none => rfl
  | some v =>
    cases v with
    | int n => exact absurd rfl (h n)
    | null | bool _ | float _ | str _ | arr _ | obj _ => rfl

theorem Meets.eq_fateOf {worker : WorkerIdentity} {now leaseExpiresAt : PyStr} {text : List Char}
    {p : Payload} {fate : Fate} (h : Meets worker now leaseExpiresAt text p fate) :
    fate = fateOf (arrow p "v") := by
  cases fate with
  | claimed =>
    rw [h.1]
    rfl
  | left =>
    obtain ⟨⟨n, hn, hv⟩, -⟩ := h
    rw [hv, fateOf, if_neg hn.not_gt, if_neg hn.ne']
  | failed =>
    rcases h.1 with ⟨n, hn, hv⟩ | hv
    · rw [hv, fateOf, if_pos hn]
    · rw [fateOf_of_not_int hv]

/-- A row that is selected and failed in the loop is failed by a pass. -/
theorem mem_reapUnsupportedJobs {server : PyStr} {text : List Char} {p p' : Payload}
    {now : PyStr} {id : Uuid} (htext : safePayload text = .ok p)
    (hselected : reapable server p = true) (hrow : reapRow server now p = some p')
    (collation : SortKey PyStr) {locked : Uuid → Bool} {limit : ℕ} {rows : List (Uuid × List Char)}
    (hmem : (id, text) ∈ rows) (hlocked : locked id = false) (hrows : ∀ r ∈ rows, Storable r.2)
    (hlimit : rows.length ≤ limit) :
    ∃ reaped, reapUnsupportedJobs collation server now locked limit rows = .ok reaped ∧
      (id, p') ∈ reaped := by
  have hp : jsonbIn text = p := Except.ok.inj ((safePayload_of_storable (hrows _ hmem)).symm.trans
    htext)
  rw [reapUnsupportedJobs, reapNext, scan_of_storable _ hrows]
  refine ⟨_, rfl, ?_⟩
  have hfetched : (id, p) ∈ ((claimOrder collation).orderBy
      ((rows.filter fun r => reapable server (jsonbIn r.2)).map fun r => (r.1, jsonbIn r.2))).filter
        fun r => !locked r.1 := by
    rw [List.mem_filter, SortKey.orderBy, List.mem_mergeSort]
    refine ⟨List.mem_map.2 ⟨(id, text), List.mem_filter.2 ⟨hmem, ?_⟩, ?_⟩, ?_⟩
    · rw [hp, hselected]
    · rw [hp]
    · rw [hlocked]
      rfl
  have hlength : (((claimOrder collation).orderBy
      ((rows.filter fun r => reapable server (jsonbIn r.2)).map fun r => (r.1, jsonbIn r.2))).filter
        fun r => !locked r.1).length ≤ limit := by
    refine ((List.length_filter_le _ _).trans ?_).trans hlimit
    rw [SortKey.orderBy, List.length_mergeSort, List.length_map]
    exact List.length_filter_le _ _
  refine List.mem_filterMap.2 ⟨(id, p), ?_, ?_⟩
  · rw [List.take_of_length_le hlength]
    exact hfetched
  · show (reapRow server now p).map (fun p => (id, p)) = some (id, p')
    rw [hrow]
    rfl

section Disposition

variable {worker : WorkerIdentity} {now leaseExpiresAt : PyStr} {text : List Char} {p : Payload}

/-- A pending command of the server. -/
structure PendingCommand (worker : WorkerIdentity) (text : List Char) (p : Payload) : Prop where
  payload : safePayload text = .ok p
  type : hasType p "command" = true
  server : serverMatch p worker.server = true
  status : Lubko.Jobs.status p = some "pending"

namespace PendingCommand

theorem claimed_iff (h : PendingCommand worker text p) :
    (claimJobs worker now leaseExpiresAt).guard p = claimVersion p := by
  show (hasType p "command" && claimVersion p && serverMatch p worker.server &&
    isTrueEq (Lubko.Jobs.status p) "pending") = _
  rw [h.type, h.server, isTrueEq_iff.2 h.status]
  simp

theorem reapable_iff (h : PendingCommand worker text p) :
    reapable worker.server p = retiredVersion p := by
  rw [reapable, h.type, h.server, isTrueEq_iff.2 h.status]
  simp

theorem point (h : PendingCommand worker text p) {lit : List Char}
    (hlit : arrow p "v" = some (.float lit)) : '.' ∈ lit := by
  have hstorable := safePayload_of_storable (safePayload_ok_iff.1 ⟨p, h.payload⟩)
  have hjsonb : jsonbIn text = p := Except.ok.inj (hstorable.symm.trans h.payload)
  cases p with
  | none => cases hlit
  | some v => exact jsonbIn_float_point hjsonb hlit

/-- A retired version is reaped. -/
theorem reaped (h : PendingCommand worker text p) (hretired : retiredVersion p = true)
    (hparsed : ∀ m, parsedVersion p = some m → m < Protocol.CURRENT_PROTOCOL_VERSION) :
    Reaped worker.server text p := by
  have hselected : reapable worker.server p = true := h.reapable_iff.trans hretired
  have hfailed := fun now => @reapRow_failed _ now p h.type h.server h.status hparsed
  refine ⟨hselected, hfailed, ?_⟩
  intro collation now locked limit rows id hmem hlocked hrows hlimit
  obtain ⟨p', hrow, hstatus⟩ := hfailed now
  obtain ⟨reaped, hpass, hin⟩ :=
    mem_reapUnsupportedJobs h.payload hselected hrow collation hmem hlocked hrows hlimit
  exact ⟨reaped, p', hpass, hin, hstatus⟩

/-- **A pending row meets the fate its version decides.** -/
theorem meets_fateOf (h : PendingCommand worker text p) :
    Meets worker now leaseExpiresAt text p (fateOf (arrow p "v")) := by
  by_cases hint : ∃ n, arrow p "v" = some (.int n)
  · obtain ⟨n, hv⟩ := hint
    have hclaim := claimVersion_int hv
    have hreap := retiredVersion_int hv
    rw [hv, fateOf]
    rcases lt_trichotomy n Protocol.CURRENT_PROTOCOL_VERSION with hlt | heq | hgt
    · rw [if_pos hlt]
      refine ⟨.inl ⟨n, hlt, hv⟩, h.reaped (hreap.2 hlt) ?_⟩
      intro m hm
      rw [parsedVersion_int hv hm]
      exact hlt
    · rw [if_neg heq.not_lt, if_pos heq]
      exact ⟨heq ▸ hv, h.claimed_iff.trans (hclaim.2 heq)⟩
    · rw [if_neg hgt.not_gt, if_neg hgt.ne']
      refine ⟨⟨n, hgt, hv⟩, ?_, ?_⟩
      · rw [h.claimed_iff, Bool.eq_false_iff, Ne, hclaim]
        exact hgt.ne'
      · rw [h.reapable_iff, Bool.eq_false_iff, Ne, hreap]
        exact hgt.not_gt
  · have hnot : ∀ n, arrow p "v" ≠ some (.int n) := not_exists.1 hint
    obtain ⟨-, hretired, hparsed⟩ := of_not_int (fun lit hlit => h.point hlit) hnot
    rw [fateOf_of_not_int hnot]
    refine ⟨.inr hnot, h.reaped hretired ?_⟩
    intro m hm
    rw [hparsed] at hm
    cases hm

end PendingCommand

/-- **Every pending command of the server meets one fate exactly.** It has the current version and
is claimed; or a newer one, and neither the claim nor the reaper selects it; or an older one or none
that is an integer, and the reaper fails it. On integers the reaper's test compares numbers. -/
theorem version_disposition (worker : WorkerIdentity) (now leaseExpiresAt : PyStr)
    (text : List Char) (p : Payload) (h : PendingCommand worker text p) :
    (∃! fate, Meets worker now leaseExpiresAt text p fate) ∧
      ∀ n, arrow p "v" = some (.int n) →
        (retiredVersion p = true ↔ n < Protocol.CURRENT_PROTOCOL_VERSION) :=
  ⟨⟨_, h.meets_fateOf, fun _ hfate => hfate.eq_fateOf⟩, fun _ hn => retiredVersion_int hn⟩

end Disposition

/-- A pending command of version 4.5. -/
def fractionText : List Char :=
  ("\x7b\"type\": \"command\", \"v\": 45e-1, \"server\": \"alpha\", " ++
    "\"state\": \x7b\"status\": \"pending\"\x7d\x7d" : String).toList

theorem version_disposition_fraction : ∃ p, PendingCommand alpha fractionText p ∧
    (∃! fate, Meets alpha [] [] fractionText p fate) ∧ fateOf (arrow p "v") = .failed := by
  have hrun : ((safePayload fractionText).toOption.any fun p => hasType p "command" &&
      serverMatch p "alpha" && isTrueEq (status p) "pending" &&
      (fateOf (arrow p "v") = .failed)) = true := by decide +kernel
  cases hp : safePayload fractionText with
  | error e =>
    rw [hp] at hrun
    cases hrun
  | ok p =>
    rw [hp] at hrun
    simp only [Except.toOption, Option.any_some, Bool.and_eq_true, isTrueEq_iff,
      decide_eq_true_eq] at hrun
    obtain ⟨⟨⟨htype, hserver⟩, hstatus⟩, hfate⟩ := hrun
    have h : PendingCommand alpha fractionText p := ⟨hp, htype, hserver, hstatus⟩
    exact ⟨p, h, (version_disposition alpha [] [] fractionText p h).1, hfate⟩

end Lubko.Jobs
