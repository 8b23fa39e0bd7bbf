import Lubko.Deploy.MissionCodec
import Lubko.Protocol.Codec
import Lubko.Worker.Snapshot

/-!
# The snapshot of a worker is read back

What every snapshot the worker builds is like, and what `_read_health_file` returns for its file.
The writer does not look at the start ticks and the worker id, which the reader wants to be positive
and to have a character.

* `Supervisor.encodable_buildHealth` — what holds of every snapshot that is built.
* `readHealthFile_fileText` — what the file of such a snapshot reads as.
-/

namespace Lubko.Worker.Snapshot

open Lubko.Lib

open Lubko.Supervise (Fields Joined ReadsBack orNull received strictFiniteFloat
  transparent_readBack validIncarnationToken writable_orNull)

open Lubko.Deploy (PyFloat Moment)

/-! ## Snapshots that can be read -/

/-- The optional times and ages of a snapshot. -/
def WorkerHealth.optionalMoments (h : WorkerHealth) : List (Option PyFloat) :=
  [h.dbConnectedAt, h.dbErrorAt, h.oldestActiveJobAgeSeconds, h.dbLastActivityAt,
    h.dbDeadlineBreachedAt, h.lastCancellationScanAt, h.lastRecoveryAt, h.lastGcAt]

/-- The floats of a snapshot that must not be negative. -/
def WorkerHealth.moments (h : WorkerHealth) : List PyFloat :=
  [h.startedAt, h.publishedAt, h.leaseSafetyMarginSeconds] ++
    h.optionalMoments.flatMap Option.toList

/-- The floats of a snapshot. -/
def WorkerHealth.numbers (h : WorkerHealth) : List PyFloat :=
  h.dbOperationDeadlineSeconds :: (h.minLeaseSafetyRemainingSeconds.toList ++ h.moments)

/-- The counts of a snapshot. -/
def WorkerHealth.counts (h : WorkerHealth) : List ℤ :=
  [h.activeJobs, h.stoppingJobs, h.completedJobs, h.dbDeadlineBreachCount, h.captureStreamsOpen,
    h.spoolHeldBytes, h.lastScanBatchSize]

/-- The batch limits of a snapshot. -/
def WorkerHealth.limits (h : WorkerHealth) : List ℤ :=
  [h.scanBatchLimit, h.gcBatchLimit, h.cancellationBatchLimit, h.recoveryBatchLimit]

/-- What `from_dict` asks of the fields of a snapshot, besides start ticks and a worker id. -/
structure WorkerHealth.InRange (h : WorkerHealth) : Prop where
  token : validIncarnationToken h.workerIncarnation = true
  pid : 1 ≤ h.pid
  moments : ∀ x ∈ h.moments, x.NonNegative
  remaining : ∀ x ∈ h.minLeaseSafetyRemainingSeconds, ∃ q, x = .finite q
  deadline : h.dbOperationDeadlineSeconds.Positive
  counts : ∀ n ∈ h.counts, 0 ≤ n
  limits : ∀ n ∈ h.limits, 1 ≤ n
  jobId : ∀ id ∈ h.oldestActiveJobId, ∃ u : Uuid, id = u.text

/-- What holds of every snapshot that is written. -/
structure WorkerHealth.Encodable (h : WorkerHealth) : Prop extends h.InRange where
  schema : h.schemaVersion = WORKER_HEALTH_SCHEMA_VERSION
  workerIdText : Joined h.workerId

/-- `repr` of every float of the snapshot is read back. -/
def WorkerHealth.FloatsReadBack (floatRepr : ℚ → List Char) (h : WorkerHealth) : Prop :=
  ∀ q, .finite q ∈ h.numbers → ReadsBack floatRepr q

section Members

variable {h : WorkerHealth}

theorem mem_moments_optional {x : Option PyFloat} {y : PyFloat} {i : ℕ}
    (hx : h.optionalMoments[i]? = some x) (hy : y ∈ x) : y ∈ h.moments :=
  List.mem_append_right _ (List.mem_flatMap.2
    ⟨x, List.mem_of_getElem? hx, Option.mem_toList.2 hy⟩)

theorem mem_numbers_moment {y : PyFloat} (hy : y ∈ h.moments) : y ∈ h.numbers :=
  List.mem_cons_of_mem _ (List.mem_append_right _ hy)

theorem mem_numbers_remaining {y : PyFloat} (hy : y ∈ h.minLeaseSafetyRemainingSeconds) :
    y ∈ h.numbers :=
  List.mem_cons_of_mem _ (List.mem_append_left _ (Option.mem_toList.2 hy))

end Members

/-! ## Decoding what was written -/

section Decoders

variable {b : Builtins} {value : Json} {field : String}

theorem requiredJsonInt_eq {n minimum : ℤ} (hvalue : value = .int n) (hn : minimum ≤ n) :
    requiredJsonInt b value field minimum = .ok n := by
  rw [hvalue, requiredJsonInt]
  exact if_neg (not_lt.2 hn)

theorem optionalJsonIntZero_eq {n : ℤ} (hvalue : value = .int n) (hn : 0 ≤ n) :
    optionalJsonIntZero b value field = .ok n := by
  rw [hvalue, optionalJsonIntZero]
  exact if_neg (not_lt.2 hn)

theorem requiredNonemptyStr_eq {s : PyStr} (hvalue : value = .str s) (hs : s ≠ []) :
    requiredNonemptyStr b value field = .ok s := by
  rw [hvalue]
  exact if_neg hs

theorem validateIncarnationToken_eq_ok {token : PyStr} :
    validateIncarnationToken b token = .ok () ↔ validIncarnationToken token = true := by
  rw [validateIncarnationToken]
  by_cases hempty : token = []
  · rw [if_pos hempty, hempty]
    simp [validIncarnationToken]
  · rw [if_neg hempty]
    by_cases hvalid : validIncarnationToken token = true
    · rw [if_pos hvalid]
      simp [hvalid]
    · rw [if_neg hvalid]
      simp [hvalid]

theorem coerceIncarnationToken_eq {s : PyStr} (hvalue : value = .str s)
    (hs : validIncarnationToken s = true) : coerceIncarnationToken b value field = .ok s := by
  rw [hvalue, coerceIncarnationToken, coerceStr]
  exact except_bind_eq_ok.2 ⟨s, rfl, except_bind_eq_ok.2
    ⟨(), validateIncarnationToken_eq_ok.2 hs, rfl⟩⟩

theorem strictBool_eq {data : Fields} {flag : Bool} (hdata : data field = some (.bool flag)) :
    strictBool b data field = .ok flag := by
  rw [strictBool, hdata]

theorem value?_ofUnsigned (t : List Char) :
    (PyFloat.ofUnsigned t).value? = Supervise.literalFloat? t := by
  unfold Supervise.literalFloat?
  split
  · rfl
  · rfl
  · rename_i hN hI
    rw [PyFloat.ofUnsigned]
    · cases roundBinary64 (literalValue t) with
      | none => rfl
      | some q => rfl
    · exact hN
    · exact hI

theorem value?_neg (x : PyFloat) : x.neg.value? = x.value?.map Neg.neg := by
  cases x with
  | finite q => rfl
  | infinite negative => rfl
  | nan => rfl

/-- A literal is a finite float just when its value is one. -/
theorem value?_ofLiteral (lit : List Char) :
    (PyFloat.ofLiteral lit).value? = strictFiniteFloat (.float lit) := by
  unfold PyFloat.ofLiteral
  split
  · rw [value?_neg, value?_ofUnsigned, strictFiniteFloat]
  · rename_i hminus
    rw [value?_ofUnsigned, strictFiniteFloat]
    exact fun t ht => hminus t ht

theorem coerceFloat_of_finite {q : ℚ} (h : strictFiniteFloat value = some q) :
    coerceFloat b value field = .ok (some (.finite q)) := by
  cases value with
  | int n => rw [coerceFloat, h]
  | float lit =>
    have hlit : PyFloat.ofLiteral lit = .finite q := by
      rw [← value?_ofLiteral] at h
      cases hx : PyFloat.ofLiteral lit with
      | finite p =>
        rw [hx] at h
        exact congrArg PyFloat.finite (Option.some.inj h)
      | infinite negative | nan =>
        rw [hx] at h
        cases h
    rw [coerceFloat, hlit]
  | null | bool _ | str _ | arr _ | obj _ => cases h

theorem requiredFiniteFloat_of_finite {minimum exclusive : Option ℚ} {q : ℚ}
    (h : strictFiniteFloat value = some q) (hminimum : ∀ m ∈ minimum, m ≤ q)
    (hexclusive : ∀ m ∈ exclusive, m < q) :
    requiredFiniteFloat b value field minimum exclusive = .ok (.finite q) := by
  have hlow : minimum.any (q < ·) = false := by
    cases minimum with
    | none => rfl
    | some m => simpa using hminimum m rfl
  have hlow' : exclusive.any (q ≤ ·) = false := by
    cases exclusive with
    | none => rfl
    | some m => simpa using hexclusive m rfl
  unfold requiredFiniteFloat
  split
  · cases h
  · rw [coerceFloat_of_finite h]
    simp only [bind, Except.bind, hlow, hlow', Bool.false_eq_true, if_false]
    rfl

theorem optionalFiniteFloat_of_finite {minimum : Option ℚ} {q : ℚ}
    (h : strictFiniteFloat value = some q) (hminimum : ∀ m ∈ minimum, m ≤ q) :
    optionalFiniteFloat b value field minimum = .ok (some (.finite q)) := by
  have hlow : minimum.any (q < ·) = false := by
    cases minimum with
    | none => rfl
    | some m => simpa using hminimum m rfl
  rw [optionalFiniteFloat, coerceFloat_of_finite h]
  simp only [bind, Except.bind, hlow, Bool.false_eq_true, if_false]
  rfl

theorem requiredFiniteFloat_eq {minimum exclusive : Option ℚ} {x : PyFloat} {q : ℚ}
    (hvalue : value = number b.floatRepr (finiteOrZero x)) (hx : x = .finite q)
    (hread : ReadsBack b.floatRepr q) (hminimum : ∀ m ∈ minimum, m ≤ q)
    (hexclusive : ∀ m ∈ exclusive, m < q) :
    requiredFiniteFloat b value field minimum exclusive = .ok x := by
  subst hx
  rw [hvalue]
  exact requiredFiniteFloat_of_finite hread.value hminimum hexclusive

theorem optionalFiniteFloat_eq {minimum : Option ℚ} {x : Option PyFloat}
    (hvalue : value = optionalNumber b.floatRepr x)
    (hx : ∀ y ∈ x, ∃ q, y = .finite q ∧ ReadsBack b.floatRepr q ∧ ∀ m ∈ minimum, m ≤ q) :
    optionalFiniteFloat b value field minimum = .ok x := by
  rw [hvalue]
  cases x with
  | none => rfl
  | some y =>
    obtain ⟨q, rfl, hread, hminimum⟩ := hx y rfl
    exact optionalFiniteFloat_of_finite hread.value hminimum

theorem optionalUuidStr_eq (hUUID : ∀ u : Uuid, b.UUID u.text = some u) {x : Option PyStr}
    (hvalue : value = orNull .str x) (hx : ∀ id ∈ x, ∃ u : Uuid, id = u.text) :
    optionalUuidStr b value field = .ok x := by
  rw [hvalue]
  cases x with
  | none => rfl
  | some id =>
    obtain ⟨u, rfl⟩ := hx id rfl
    have htext : u.text ≠ [] := by simp [Uuid.text]
    have hstr : requiredNonemptyStr b (.str u.text) field = .ok u.text :=
      requiredNonemptyStr_eq rfl htext
    rw [orNull, optionalUuidStr, hstr]
    · simp only [bind, Except.bind, hUUID]
      rfl
    · exact fun h => by cases h

end Decoders

/-! ## The members of the file -/

theorem wellKeyed_toDict (floatRepr : ℚ → List Char) (h : WorkerHealth) :
    WellKeyed (h.toDict floatRepr) :=
  .of_keys (show _ = (["schema_version", "observability_version", "worker_id",
    "worker_incarnation", "pid", "start_time_ticks", "started_at", "published_at", "alive",
    "db_connected", "db_connected_at", "db_error_at", "active_jobs", "stopping_jobs",
    "completed_jobs", "oldest_active_job_age_seconds", "lease_safety_margin_seconds",
    "min_lease_safety_remaining_seconds", "db_operation_deadline_seconds", "db_last_activity_at",
    "db_deadline_breached_at", "db_deadline_breach_count", "capture_streams_open",
    "spool_held_bytes", "scan_batch_limit", "last_scan_batch_size", "last_cancellation_scan_at",
    "last_recovery_at", "last_gc_at", "cancellation_scan_overdue", "recovery_overdue",
    "gc_overdue", "gc_batch_limit", "gc_batch_bound_hit", "cancellation_batch_limit",
    "cancellation_batch_bound_hit", "recovery_batch_limit", "recovery_batch_bound_hit",
    "shutting_down", "oldest_active_job_id"] : List String).map PyStr.ofString from rfl)
    (by decide +kernel)

section Members

variable {r : ℚ → List Char} {h : WorkerHealth}

/-- The member that stands at a place, when reading back keeps its value. -/
theorem member_at (i : ℕ) {key : String} {v : Json} (hi : (h.toDict r)[i]? = some (entry key v))
    (hv : v.readBack = v) : received Json.readBack (h.toDict r) key = some v := by
  rw [received, (memberOf_eq_some (wellKeyed_toDict r h).1).2 (List.mem_of_getElem? hi),
    Option.map_some, hv]

theorem get_at (i : ℕ) {key : String} {v : Json} (hi : (h.toDict r)[i]? = some (entry key v))
    (hv : v.readBack = v) : (received Json.readBack (h.toDict r)).get key = v := by
  rw [Fields.get, member_at i hi hv, Option.getD_some]

theorem legacyDefault_at (i : ℕ) {rich : Bool} {key : String} {v default : Json}
    (hi : (h.toDict r)[i]? = some (entry key v)) (hv : v.readBack = v) :
    legacyDefault rich (received Json.readBack (h.toDict r)) key default = v := by
  rw [legacyDefault, member_at i hi hv, Option.getD_some]

theorem optionalNumber_readBack (x : Option PyFloat) :
    (optionalNumber r x).readBack = optionalNumber r x := by
  rw [optionalNumber]
  cases finiteOrNone x with
  | none => rfl
  | some y => rfl

theorem not_isHigh_of_safeFilenameChar {c : CodePoint} (hc : Supervise.safeFilenameChar c = true) :
    c.isHigh = false := by
  simp only [Supervise.safeFilenameChar, CodePoint.isHigh, Bool.or_eq_true, Bool.and_eq_true,
    decide_eq_true_eq, Bool.and_eq_false_iff, decide_eq_false_iff_not, not_le] at hc ⊢
  rcases hc with (((hc | hc) | hc) | hc) | hc <;> omega

/-- A valid token has no surrogate: what its pattern takes is ASCII. -/
theorem joined_token {token : PyStr} (htoken : validIncarnationToken token = true) :
    Joined token := by
  refine PyStr.joinSurrogates_of_not_high fun c hc => ?_
  simp only [validIncarnationToken, Bool.and_eq_true, List.all_eq_true] at htoken
  by_cases hlast : token.getLast? = some 0x0a
  · rw [if_pos hlast] at htoken
    rw [← List.dropLast_append_getLast? _ hlast] at hc
    cases List.mem_append.1 hc with
    | inl hc => exact not_isHigh_of_safeFilenameChar (htoken.2 c hc)
    | inr hc =>
      rw [List.mem_singleton.1 hc]
      decide
  · rw [if_neg hlast] at htoken
    exact not_isHigh_of_safeFilenameChar (htoken.2 c hc)

theorem jobId_readBack {x : Option PyStr} (hx : ∀ id ∈ x, ∃ u : Uuid, id = u.text) :
    (orNull Json.str x).readBack = orNull .str x := by
  refine transparent_readBack.orNull_str fun id hid => ?_
  obtain ⟨u, rfl⟩ := hx id hid
  exact Protocol.joined_uuidText u

end Members

/-! ## Every field is read back -/

section RoundTrip

variable {b : Builtins} {py : Interpreter} {h : WorkerHealth} (hv : h.Encodable)
  (hx : h.FloatsReadBack b.floatRepr)

section Fields

variable {value : Json} {field : String}

include hv hx

theorem moment_eq {x : PyFloat} (hvalue : value = number b.floatRepr (finiteOrZero x)) (j : ℕ)
    (hj : h.moments[j]? = some x) :
    requiredFiniteFloat b value field (some 0) none = .ok x := by
  have hmem : x ∈ h.moments := List.mem_of_getElem? hj
  obtain ⟨q, rfl, hpos⟩ := hv.moments x hmem
  refine requiredFiniteFloat_eq hvalue rfl (hx q (mem_numbers_moment hmem)) ?_ ?_
  · simpa using hpos
  · simp

theorem optionalMoment_eq {key : String} {x : Option PyFloat} (i j : ℕ)
    (hi : (h.toDict b.floatRepr)[i]? = some (entry key (optionalNumber b.floatRepr x)))
    (hj : h.optionalMoments[j]? = some x) :
    optionalFiniteFloat b ((received Json.readBack (h.toDict b.floatRepr)).get key) field
      (some 0) = .ok x := by
  refine optionalFiniteFloat_eq (get_at i hi (optionalNumber_readBack x)) fun y hy => ?_
  have hmem : y ∈ h.moments := mem_moments_optional hj hy
  obtain ⟨q, rfl, hpos⟩ := hv.moments y hmem
  exact ⟨q, rfl, hx q (mem_numbers_moment hmem), by simpa using hpos⟩

theorem remaining_eq :
    optionalFiniteFloat b ((received Json.readBack (h.toDict b.floatRepr)).get
      "min_lease_safety_remaining_seconds") field none = .ok h.minLeaseSafetyRemainingSeconds := by
  refine optionalFiniteFloat_eq (get_at 17 rfl (optionalNumber_readBack _)) fun y hy => ?_
  obtain ⟨q, rfl⟩ := hv.remaining y hy
  exact ⟨q, rfl, hx q (mem_numbers_remaining hy), by simp⟩

theorem deadline_eq {rich : Bool} {default : Json} :
    requiredFiniteFloat b (legacyDefault rich (received Json.readBack (h.toDict b.floatRepr))
      "db_operation_deadline_seconds" default) field none (some 0) =
        .ok h.dbOperationDeadlineSeconds := by
  obtain ⟨q, hq, hpos⟩ := hv.deadline
  refine requiredFiniteFloat_eq (legacyDefault_at 18 rfl rfl) hq (hx q ?_) ?_ ?_
  · rw [← hq]
    exact List.mem_cons_self
  · simp
  · simpa using hpos

omit hx

theorem count_eq {r : ℚ → List Char} {key : String} {n : ℤ} (i j : ℕ)
    (hi : (h.toDict r)[i]? = some (entry key (.int n))) (hj : h.counts[j]? = some n) :
    optionalJsonIntZero b ((received Json.readBack (h.toDict r)).get key) field = .ok n :=
  optionalJsonIntZero_eq (get_at i hi rfl) (hv.counts n (List.mem_of_getElem? hj))

theorem limit_eq {r : ℚ → List Char} {rich : Bool} {key : String} {n : ℤ} {default : Json}
    (i j : ℕ) (hi : (h.toDict r)[i]? = some (entry key (.int n))) (hj : h.limits[j]? = some n) :
    requiredJsonInt b (legacyDefault rich (received Json.readBack (h.toDict r)) key default) field
      1 = .ok n :=
  requiredJsonInt_eq (legacyDefault_at i hi rfl) (hv.limits n (List.mem_of_getElem? hj))

theorem schemaVersion_eq {r : ℚ → List Char} :
    requiredJsonInt b ((received Json.readBack (h.toDict r)).get "schema_version")
      "schema_version" 0 = .ok WORKER_HEALTH_SCHEMA_VERSION := by
  refine requiredJsonInt_eq ?_ (by decide)
  rw [← hv.schema]
  exact get_at 0 rfl rfl

omit hv in
theorem checkObservabilityVersion_eq {r : ℚ → List Char} :
    checkObservabilityVersion b (received Json.readBack (h.toDict r)) = .ok () := by
  have hget : (received Json.readBack (h.toDict r)).get "observability_version" =
      .int WORKER_HEALTH_OBSERVABILITY_VERSION := get_at 1 rfl rfl
  rw [checkObservabilityVersion, hget]
  rfl

theorem workerId_get {r : ℚ → List Char} :
    (received Json.readBack (h.toDict r)).get "worker_id" = .str h.workerId :=
  get_at 2 rfl (transparent_readBack.str _ hv.workerIdText)

end Fields

include hv hx in
/-- **A snapshot with start ticks and a worker id is read back.** -/
theorem fromDict_toDict (hUUID : ∀ u : Uuid, b.UUID u.text = some u) (hid : h.workerId ≠ [])
    (hticks : 1 ≤ h.startTimeTicks) :
    WorkerHealth.fromDict b (received Json.readBack (h.toDict b.floatRepr)) = .ok h := by
  have htoken := joined_token hv.token
  unfold WorkerHealth.fromDict
  refine except_bind_eq_ok.2 ⟨_, schemaVersion_eq hv, ?_⟩
  rw [if_neg (by decide)]
  refine except_bind_eq_ok.2 ⟨_, checkObservabilityVersion_eq, ?_⟩
  refine except_bind_eq_ok.2 ⟨_, requiredNonemptyStr_eq (workerId_get hv) hid, ?_⟩
  refine except_bind_eq_ok.2 ⟨_, coerceIncarnationToken_eq
    (get_at 3 rfl (transparent_readBack.str _ htoken)) hv.token, ?_⟩
  refine except_bind_eq_ok.2 ⟨_, requiredJsonInt_eq (get_at 4 rfl rfl) hv.pid, ?_⟩
  refine except_bind_eq_ok.2 ⟨_, requiredJsonInt_eq (get_at 5 rfl rfl) hticks, ?_⟩
  refine except_bind_eq_ok.2 ⟨_, moment_eq hv hx (get_at 6 rfl rfl) 0 rfl, ?_⟩
  refine except_bind_eq_ok.2 ⟨_, moment_eq hv hx (get_at 7 rfl rfl) 1 rfl, ?_⟩
  refine except_bind_eq_ok.2 ⟨_, strictBool_eq (member_at 8 rfl rfl), ?_⟩
  refine except_bind_eq_ok.2 ⟨_, strictBool_eq (member_at 9 rfl rfl), ?_⟩
  refine except_bind_eq_ok.2 ⟨_, optionalMoment_eq hv hx 10 0 rfl rfl, ?_⟩
  refine except_bind_eq_ok.2 ⟨_, optionalMoment_eq hv hx 11 1 rfl rfl, ?_⟩
  refine except_bind_eq_ok.2 ⟨_, count_eq hv 12 0 rfl rfl, ?_⟩
  refine except_bind_eq_ok.2 ⟨_, count_eq hv 13 1 rfl rfl, ?_⟩
  refine except_bind_eq_ok.2 ⟨_, count_eq hv 14 2 rfl rfl, ?_⟩
  refine except_bind_eq_ok.2 ⟨_, optionalMoment_eq hv hx 15 2 rfl rfl, ?_⟩
  refine except_bind_eq_ok.2 ⟨_, moment_eq hv hx (legacyDefault_at 16 rfl rfl) 2 rfl, ?_⟩
  refine except_bind_eq_ok.2 ⟨_, remaining_eq hv hx, ?_⟩
  refine except_bind_eq_ok.2 ⟨_, deadline_eq hv hx, ?_⟩
  refine except_bind_eq_ok.2 ⟨_, optionalMoment_eq hv hx 19 3 rfl rfl, ?_⟩
  refine except_bind_eq_ok.2 ⟨_, optionalMoment_eq hv hx 20 4 rfl rfl, ?_⟩
  refine except_bind_eq_ok.2 ⟨_, count_eq hv 21 3 rfl rfl, ?_⟩
  refine except_bind_eq_ok.2 ⟨_, count_eq hv 22 4 rfl rfl, ?_⟩
  refine except_bind_eq_ok.2 ⟨_, count_eq hv 23 5 rfl rfl, ?_⟩
  refine except_bind_eq_ok.2 ⟨_, limit_eq hv 24 0 rfl rfl, ?_⟩
  refine except_bind_eq_ok.2 ⟨_, count_eq hv 25 6 rfl rfl, ?_⟩
  refine except_bind_eq_ok.2 ⟨_, optionalMoment_eq hv hx 26 5 rfl rfl, ?_⟩
  refine except_bind_eq_ok.2 ⟨_, optionalMoment_eq hv hx 27 6 rfl rfl, ?_⟩
  refine except_bind_eq_ok.2 ⟨_, optionalMoment_eq hv hx 28 7 rfl rfl, ?_⟩
  refine except_bind_eq_ok.2 ⟨_, strictBool_eq (member_at 29 rfl rfl), ?_⟩
  refine except_bind_eq_ok.2 ⟨_, strictBool_eq (member_at 30 rfl rfl), ?_⟩
  refine except_bind_eq_ok.2 ⟨_, strictBool_eq (member_at 31 rfl rfl), ?_⟩
  refine except_bind_eq_ok.2 ⟨_, limit_eq hv 32 1 rfl rfl, ?_⟩
  refine except_bind_eq_ok.2 ⟨_, strictBool_eq (member_at 33 rfl rfl), ?_⟩
  refine except_bind_eq_ok.2 ⟨_, limit_eq hv 34 2 rfl rfl, ?_⟩
  refine except_bind_eq_ok.2 ⟨_, strictBool_eq (member_at 35 rfl rfl), ?_⟩
  refine except_bind_eq_ok.2 ⟨_, limit_eq hv 36 3 rfl rfl, ?_⟩
  refine except_bind_eq_ok.2 ⟨_, strictBool_eq (member_at 37 rfl rfl), ?_⟩
  refine except_bind_eq_ok.2 ⟨_, strictBool_eq (member_at 38 rfl rfl), ?_⟩
  refine except_bind_eq_ok.2 ⟨_, optionalUuidStr_eq hUUID
    (get_at 39 rfl (jobId_readBack hv.jobId)) hv.jobId, ?_⟩
  rw [← hv.schema]
  rfl

include hv in
/-- Without start ticks, or without a character in the worker id, a snapshot is refused. -/
theorem fromDict_refused (r : ℚ → List Char) (hno : ¬ (h.workerId ≠ [] ∧ 1 ≤ h.startTimeTicks)) :
    ∃ text, WorkerHealth.fromDict b (received Json.readBack (h.toDict r)) =
      .error (.valueError text) := by
  have hpid : requiredJsonInt b ((received Json.readBack (h.toDict r)).get "pid") "pid" 1 =
      .ok h.pid := requiredJsonInt_eq (get_at 4 rfl rfl) hv.pid
  have htoken : coerceIncarnationToken b ((received Json.readBack (h.toDict r)).get
      "worker_incarnation") "worker_incarnation" = .ok h.workerIncarnation :=
    coerceIncarnationToken_eq (get_at 3 rfl (transparent_readBack.str _ (joined_token hv.token)))
      hv.token
  have hschema : WORKER_HEALTH_SCHEMA_VERSION ∈ READABLE_WORKER_HEALTH_SCHEMA_VERSIONS := by decide
  by_cases hid : h.workerId = []
  · have hnone : requiredNonemptyStr b ((received Json.readBack (h.toDict r)).get "worker_id")
        "worker_id" = .error (.valueError (PyStr.ofString "worker_id" ++
          PyStr.ofString " must not be empty")) := by
      rw [workerId_get hv, hid]
      rfl
    simp only [WorkerHealth.fromDict, schemaVersion_eq hv, checkObservabilityVersion_eq, hnone,
      bind, Except.bind, hschema, not_true_eq_false, if_false]
    exact ⟨_, rfl⟩
  · have hticks : h.startTimeTicks < 1 := by
      by_contra hge
      exact hno ⟨hid, not_lt.1 hge⟩
    have hnone : requiredJsonInt b ((received Json.readBack (h.toDict r)).get "start_time_ticks")
        "start_time_ticks" 1 = .error (.valueError (gotMessage b "start_time_ticks" (atLeast 1)
          (.int h.startTimeTicks))) := by
      have hget : (received Json.readBack (h.toDict r)).get "start_time_ticks" =
          .int h.startTimeTicks := get_at 5 rfl rfl
      rw [hget, requiredJsonInt]
      exact if_pos hticks
    simp only [WorkerHealth.fromDict, schemaVersion_eq hv, checkObservabilityVersion_eq,
      requiredNonemptyStr_eq (workerId_get hv) hid, htoken, hpid, hnone,
      bind, Except.bind, hschema, not_true_eq_false, if_false]
    exact ⟨_, rfl⟩

include hv hx in
theorem writable_toDict : (Json.obj (h.toDict b.floatRepr)).Writable := by
  have number : ∀ q, .finite q ∈ h.numbers → (number b.floatRepr (.finite q)).Writable :=
    fun q hq => .float (hx q hq).literal
  have moment {x : PyFloat} (j : ℕ) (hj : h.moments[j]? = some x) :
      (Snapshot.number b.floatRepr (finiteOrZero x)).Writable := by
    have hmem : x ∈ h.moments := List.mem_of_getElem? hj
    obtain ⟨q, rfl, -⟩ := hv.moments x hmem
    exact number q (mem_numbers_moment hmem)
  have optional {x : Option PyFloat} (hmem : ∀ y ∈ x, y ∈ h.numbers) :
      (optionalNumber b.floatRepr x).Writable := by
    refine writable_orNull fun y hy => ?_
    obtain ⟨hxy, hfinite⟩ := Supervise.filter_eq_some.1 hy
    cases y with
    | finite q => exact number q (hmem _ hxy)
    | infinite negative | nan => cases hfinite
  have time {x : Option PyFloat} (j : ℕ) (hj : h.optionalMoments[j]? = some x) :
      (optionalNumber b.floatRepr x).Writable :=
    optional fun _ hy => mem_numbers_moment (mem_moments_optional hj hy)
  have deadline : (Snapshot.number b.floatRepr
      (finiteOrZero h.dbOperationDeadlineSeconds)).Writable := by
    obtain ⟨q, hq, -⟩ := hv.deadline
    rw [hq]
    refine number q ?_
    rw [← hq]
    exact List.mem_cons_self
  refine .obj ?_
  simp only [WorkerHealth.toDict, List.forall_mem_cons, entry]
  exact ⟨.int _, .int _, .str _, .str _, .int _, .int _, moment 0 rfl, moment 1 rfl, .bool _,
    .bool _, time 0 rfl, time 1 rfl, .int _, .int _, .int _, time 2 rfl, moment 2 rfl,
    optional fun _ => mem_numbers_remaining, deadline, time 3 rfl, time 4 rfl, .int _, .int _,
    .int _, .int _, .int _, time 5 rfl, time 6 rfl, time 7 rfl, .bool _, .bool _, .bool _, .int _,
    .bool _, .int _, .bool _, .int _, .bool _, .bool _, writable_orNull fun _ _ => .str _,
    List.forall_mem_nil _⟩

/-! ## The file -/

section File

variable (hdeep : py.tooDeep (h.fileText b.floatRepr) = false)
  (hdigits : py.tooManyDigits (h.fileText b.floatRepr) = false)

include hv hx hdeep hdigits

theorem readHealthFile_eq : readHealthFile b py (.bytes (utf8Encode (h.fileText b.floatRepr))) =
    healthOrNone (WorkerHealth.fromDict b (received Json.readBack (h.toDict b.floatRepr))) := by
  obtain ⟨d, hd, hmembers⟩ := readBack_obj (wellKeyed_toDict b.floatRepr h)
  have hdata : utf8 (utf8Encode (h.fileText b.floatRepr)) = some (h.fileText b.floatRepr) :=
    utf8_utf8Encode _
  rw [readHealthFile, JsonReader.run_line _ (writable_toDict hv hx) hdata hdeep hdigits, hd]
  dsimp only
  rw [hmembers]
  rfl

/-- **What the file of a snapshot reads as**: the snapshot when there are start ticks and a worker
id, and nothing otherwise. -/
theorem readHealthFile_fileText (hUUID : ∀ u : Uuid, b.UUID u.text = some u) :
    readHealthFile b py (.bytes (utf8Encode (h.fileText b.floatRepr))) =
      .ok (if h.workerId ≠ [] ∧ 1 ≤ h.startTimeTicks then some h else none) := by
  rw [readHealthFile_eq hv hx hdeep hdigits]
  by_cases hread : h.workerId ≠ [] ∧ 1 ≤ h.startTimeTicks
  · rw [if_pos hread, fromDict_toDict hv hx hUUID hread.1 hread.2]
    rfl
  · obtain ⟨text, htext⟩ := fromDict_refused (b := b) hv b.floatRepr hread
    rw [if_neg hread, htext]
    rfl

end File

end RoundTrip

/-! ## What the worker builds -/

/-- A number that no float is beyond rounds to a finite one. -/
theorem rounded_finite {q : ℚ} (h : |q| < maxFloat + 2 ^ (970 : ℤ)) :
    ∃ r, PyFloat.rounded q = .finite r ∧ |r| ≤ maxFloat ∧ (0 ≤ q → 0 ≤ r) := by
  by_cases hneg : q < 0
  · rw [abs_of_neg hneg] at h
    obtain ⟨r, hr, hpos, hle⟩ := roundBinary64_le_maxFloat (neg_nonneg.2 hneg.le) h
    refine ⟨-r, ?_, ?_, fun hq => absurd hneg (not_lt.2 hq)⟩
    · rw [PyFloat.rounded, if_pos hneg, hr]
      rfl
    · rwa [abs_neg, abs_of_nonneg hpos]
  · have hq := not_lt.1 hneg
    rw [abs_of_nonneg hq] at h
    obtain ⟨r, hr, hpos, hle⟩ := roundBinary64_le_maxFloat hq h
    refine ⟨r, ?_, ?_, fun _ => hpos⟩
    · rw [PyFloat.rounded, if_neg hneg, hr]
      rfl
    · rwa [abs_of_nonneg hpos]

/-- What accepted settings keep of what a snapshot shows. -/
structure SettingsShown (s : Settings) : Prop where
  margin : 0 ≤ s.leaseSafetyMarginSeconds
  margin_lt : s.leaseSafetyMarginSeconds < s.leaseDurationSeconds
  timeout : 0 < s.dbOperationTimeoutSeconds
  claimBatch : 0 < s.claimBatchLimit
  gcBatch : 0 < s.gcBatchLimit

theorem settingsShown_of_postInit {s : Settings} (h : s.postInit = .ok ()) : SettingsShown s := by
  simp only [Settings.postInit, Settings.validateLeaseTiming, Settings.validateOutputAndGc,
    except_bind_eq_ok, raiseIf_eq_ok, Bool.or_eq_false_iff, decide_eq_false_iff_not, not_le,
    not_lt, exists_const] at h
  obtain ⟨-, ⟨-, -, -, -, ⟨hmargin, hduration⟩, -⟩, ⟨-, -, hclaim, htimeout, -, -, hgc, -⟩, -⟩ := h
  exact ⟨hmargin, hduration, htimeout, hclaim, hgc⟩

/-- What the loop over the jobs keeps of its variables. -/
structure JobAggregates.Sound (agg : JobAggregates) : Prop where
  age : ∀ x ∈ agg.oldestAge, x.NonNegative
  remaining : ∀ x ∈ agg.minLeaseSafetyRemaining, ∃ q, x = .finite q
  jobId : ∀ id ∈ agg.oldestJobId, ∃ u : Uuid, id = u.text

section Aggregates

variable {s : Supervisor} (now : s.Instant) {agg : JobAggregates} {e : Uuid × ActiveJob}

theorem JobAggregates.Sound.addStream (h : agg.Sound) (stream : OutputStream) :
    (agg.addStream stream).Sound :=
  ⟨h.age, h.remaining, h.jobId⟩

include now

theorem clock_lt {q : ℚ} (h : |q| ≤ maxFloat + now.nowMono) : |q| < maxFloat + 2 ^ (970 : ℤ) :=
  calc |q| ≤ maxFloat + now.nowMono := h
    _ ≤ maxFloat + 2 ^ (63 : ℤ) := by
      gcongr
      exact_mod_cast now.bounded
    _ < maxFloat + 2 ^ (970 : ℤ) := by
      gcongr
      · exact one_lt_two
      · decide

theorem JobAggregates.Sound.addAge (h : agg.Sound) (he : e ∈ s.active) :
    (agg.addAge now.nowMono e.1 e.2).Sound := by
  unfold JobAggregates.addAge
  split_ifs with hclaimed
  · dsimp only
    split_ifs
    · refine ⟨fun x hx => ?_, h.remaining, fun id hid => ⟨e.1, (Option.some.inj hid).symm⟩⟩
      have hage : 0 ≤ now.nowMono + -e.2.claimedAt := by linarith [now.claimed e he]
      obtain ⟨r, hr, -, hpos⟩ := rounded_finite (clock_lt now (q := now.nowMono + -e.2.claimedAt)
        (by rw [abs_of_nonneg hage]; linarith [maxFloat_nonneg]))
      exact ⟨r, (Option.some.inj hx).symm.trans hr, hpos hage⟩
    · exact h
  · exact h

theorem JobAggregates.Sound.addLease (h : agg.Sound) (he : e ∈ s.active) :
    (agg.addLease s.settings now.nowMono e.2).Sound := by
  unfold JobAggregates.addLease
  split_ifs
  · dsimp only
    split_ifs
    · refine ⟨h.age, fun x hx => ?_, h.jobId⟩
      obtain ⟨hbeat, hnow⟩ := now.heartbeat e he
      obtain ⟨hmargin, hduration, -, -, -⟩ := settingsShown_of_postInit s.accepted
      have hlease := s.leaseFloat
      obtain ⟨end_, hend, hendmax, hendpos⟩ := rounded_finite (clock_lt now
        (q := e.2.lastHeartbeatAt + s.settings.leaseDurationSeconds)
        (by rw [abs_of_nonneg] <;> linarith))
      have hend0 : 0 ≤ end_ := hendpos (by linarith)
      rw [abs_of_nonneg hend0] at hendmax
      obtain ⟨safe, hsafe, hsafemax, -⟩ := rounded_finite (clock_lt now
        (q := end_ + -s.settings.leaseSafetyMarginSeconds)
        (abs_le.2 (by constructor <;> linarith)))
      obtain ⟨left, hleft, -, -⟩ := rounded_finite (clock_lt now (q := safe + -now.nowMono)
        (abs_le.2 (by constructor <;> linarith [abs_le.1 hsafemax])))
      have hadd : (PyFloat.finite e.2.lastHeartbeatAt).add
          (.finite s.settings.leaseDurationSeconds) = .finite end_ := hend
      have hsub : (PyFloat.finite end_).sub (.finite s.settings.leaseSafetyMarginSeconds) =
          .finite safe := hsafe
      refine ⟨left, (Option.some.inj hx).symm.trans ?_⟩
      rw [hadd, hsub]
      exact hleft
    · exact h
  · exact h

theorem JobAggregates.Sound.addJob (h : agg.Sound) (he : e ∈ s.active) :
    (agg.addJob s.settings now.nowMono e).Sound := by
  have hstopping (n : ℕ) : { agg with stopping := n }.Sound := ⟨h.age, h.remaining, h.jobId⟩
  exact .addStream (.addStream (.addLease now ((hstopping _).addAge now he) he) _) _

theorem sound_jobAggregates : (s.jobAggregates now.nowMono).Sound := by
  have hfold (jobs : List (Uuid × ActiveJob)) (hjobs : ∀ e ∈ jobs, e ∈ s.active)
      (agg : JobAggregates) (h : agg.Sound) :
      (jobs.foldl (JobAggregates.addJob s.settings now.nowMono) agg).Sound := by
    induction jobs generalizing agg with
    | nil => exact h
    | cons e jobs ih =>
      exact ih (fun e he => hjobs e (List.mem_cons_of_mem _ he)) _
        (h.addJob now (hjobs e List.mem_cons_self))
  exact hfold s.active (fun _ he => he) {} ⟨by simp, by simp, by simp⟩

end Aggregates

theorem nonNegative_of_map {x : Option Moment} {y : PyFloat}
    (hy : y ∈ x.map fun m : Moment => PyFloat.finite m) : y.NonNegative := by
  obtain ⟨m, -, rfl⟩ := Option.mem_map.1 hy
  exact ⟨m, rfl, m.2⟩

/-- **What is built can be read**, apart from the start ticks and the worker id. -/
theorem Supervisor.encodable_buildHealth (s : Supervisor) (now : s.Instant)
    (alive shuttingDown : Bool)
    (htoken : validIncarnationToken s.settings.workerIncarnation = true) :
    (s.buildHealth now alive shuttingDown).Encodable := by
  have hsettings := settingsShown_of_postInit s.accepted
  have hagg := sound_jobAggregates now
  refine ⟨?_, rfl, s.workerIdText⟩
  constructor
  · exact htoken
  · show (1 : ℤ) ≤ s.pid
    exact_mod_cast s.pid_pos
  · have hoptional (y : PyFloat) : ∀ x ∈ (s.buildHealth now alive shuttingDown).optionalMoments,
        y ∈ x → y.NonNegative := by
      simp only [WorkerHealth.optionalMoments, List.forall_mem_cons]
      exact ⟨nonNegative_of_map, nonNegative_of_map, hagg.age y, nonNegative_of_map,
        nonNegative_of_map, nonNegative_of_map, nonNegative_of_map, nonNegative_of_map,
        List.forall_mem_nil _⟩
    refine List.forall_mem_append.2 ⟨?_, fun y hy => ?_⟩
    · simp only [List.forall_mem_cons]
      exact ⟨⟨_, rfl, s.startedAt.2⟩, ⟨_, rfl, now.nowWall.2⟩, ⟨_, rfl, hsettings.margin⟩,
        List.forall_mem_nil _⟩
    · obtain ⟨x, hx, hxy⟩ := List.mem_flatMap.1 hy
      exact hoptional y x hx (Option.mem_toList.1 hxy)
  · exact hagg.remaining
  · exact ⟨_, rfl, hsettings.timeout⟩
  · simp only [WorkerHealth.counts, List.forall_mem_cons]
    exact ⟨Int.natCast_nonneg _, Int.natCast_nonneg _, Int.natCast_nonneg _, Int.natCast_nonneg _,
      Int.natCast_nonneg _, Int.natCast_nonneg _, Int.natCast_nonneg _, List.forall_mem_nil _⟩
  · simp only [WorkerHealth.limits, List.forall_mem_cons]
    exact ⟨hsettings.claimBatch, hsettings.gcBatch,
      show 1 ≤ CANCEL_DISCOVERY_LIMIT from by decide, show 1 ≤ LEASE_RECOVERY_LIMIT from by decide,
      List.forall_mem_nil _⟩
  · exact hagg.jobId

end Lubko.Worker.Snapshot
