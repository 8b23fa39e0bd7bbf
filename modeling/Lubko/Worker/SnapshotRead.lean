import Lubko.Worker.SnapshotCodec

/-!
# What a health file is taken for

`_read_health_file` on files the worker did not write. Whatever a file holds, a snapshot that is
returned is in the range of its fields. `float` raises an `OverflowError` on an integer beyond the
largest float, and `read_text` a `UnicodeDecodeError`, and neither is handled.

* `WorkerHealth.fromDict_ends` — how `from_dict` ends on any mapping.
* `readHealthFile_trusted` — what is returned for a file that can be read.
* `Envelope.fromDict_eq` — the snapshot of a mapping of the prior release.
* `health_snapshot_codec` — the three together.
-/

namespace Lubko.Worker.Snapshot

open Lubko.Lib

open Lubko.Supervise (Fields strictFiniteFloat validIncarnationToken)

open Lubko.Deploy (PyFloat Moment bitRepr epoch readsBack_bit_one readsBack_bit_zero)

/-! ## How the decoders end -/

/-- What is kept of every snapshot that is read. -/
structure WorkerHealth.Trusted (h : WorkerHealth) : Prop extends h.InRange where
  schema : h.schemaVersion ∈ READABLE_WORKER_HEALTH_SCHEMA_VERSIONS
  workerId : h.workerId ≠ []
  ticks : 1 ≤ h.startTimeTicks

/-- The fields that are decoded as floats. -/
def floatKeys : List String :=
  ["started_at", "published_at", "db_connected_at", "db_error_at", "oldest_active_job_age_seconds",
    "lease_safety_margin_seconds", "min_lease_safety_remaining_seconds",
    "db_operation_deadline_seconds", "db_last_activity_at", "db_deadline_breached_at",
    "last_cancellation_scan_at", "last_recovery_at", "last_gc_at"]

/-- An integer that is too large for a float. -/
def Oversized (value : Json) : Prop := ∃ n, value = .int n ∧ strictFiniteFloat value = none

/-- A field that is decoded as a float holds an integer that is too large for it. -/
def HasOversized (data : Fields) : Prop := ∃ key ∈ floatKeys, ∃ value ∈ data key, Oversized value

/-- What `from_dict` raises: an exception that is handled, or an `OverflowError`. -/
def Refusal (data : Fields) (exc : PyError Empty) : Prop :=
  typeValueOrKeyError exc = true ∨ exc = .overflowError ∧ HasOversized data

section Decoders

variable {b : Builtins} {data : Fields} {value : Json} {field : String}

theorem requiredJsonInt_ends (minimum : ℤ) :
    Ends (Refusal data) (minimum ≤ ·) (requiredJsonInt b value field minimum) := by
  cases value with
  | int n =>
    rw [requiredJsonInt]
    by_cases hn : n < minimum
    · rw [if_pos hn]
      exact .inl rfl
    · rw [if_neg hn]
      exact not_lt.1 hn
  | null | bool _ | float _ | str _ | arr _ | obj _ => exact .inl rfl

theorem optionalJsonIntZero_ends :
    Ends (Refusal data) (0 ≤ ·) (optionalJsonIntZero b value field) := by
  cases value with
  | int n =>
    rw [optionalJsonIntZero]
    by_cases hn : n < 0
    · rw [if_pos hn]
      exact .inl rfl
    · rw [if_neg hn]
      exact not_lt.1 hn
  | null => exact le_refl (0 : ℤ)
  | bool _ | float _ | str _ | arr _ | obj _ => exact .inl rfl

theorem requiredNonemptyStr_ends :
    Ends (Refusal data) (· ≠ []) (requiredNonemptyStr b value field) := by
  cases value with
  | str s =>
    by_cases hs : s = []
    · rw [hs]
      exact .inl rfl
    · rw [requiredNonemptyStr_eq rfl hs]
      exact hs
  | null | bool _ | int _ | float _ | arr _ | obj _ => exact .inl rfl

theorem coerceIncarnationToken_ends :
    Ends (Refusal data) (validIncarnationToken · = true)
      (coerceIncarnationToken b value field) := by
  have htoken (token : PyStr) : Ends (Refusal data) (validIncarnationToken · = true)
      (do validateIncarnationToken b token; return token) := by
    rw [validateIncarnationToken]
    split_ifs with hempty hvalid
    · exact .inl rfl
    · exact hvalid
    · exact .inl rfl
  cases value with
  | null => exact htoken []
  | str s => exact htoken s
  | bool _ | int _ | float _ | arr _ | obj _ => exact .inl rfl

theorem strictBool_ends : Ends (Refusal data) (fun _ => True) (strictBool b data field) := by
  rw [strictBool]
  split
  · trivial
  · trivial
  · exact .inl rfl

theorem optionalUuidStr_ends : Ends (Refusal data) (fun x => ∀ id ∈ x, ∃ u : Uuid, id = u.text)
    (optionalUuidStr b value field) := by
  unfold optionalUuidStr
  split
  · simp [Ends]
  · refine requiredNonemptyStr_ends.bind fun text _ => ?_
    cases b.UUID text with
    | none => exact .inl rfl
    | some u => exact fun id hid => ⟨u, (Option.some.inj hid).symm⟩

theorem coerceFloat_ends (hover : Oversized value → HasOversized data) :
    Ends (Refusal data) (fun _ => True) (coerceFloat b value field) := by
  cases value with
  | int n =>
    rw [coerceFloat]
    cases hq : strictFiniteFloat (.int n) with
    | none => exact .inr ⟨rfl, hover ⟨n, rfl, hq⟩⟩
    | some q => trivial
  | null | float _ => trivial
  | bool _ | str _ | arr _ | obj _ => exact .inl rfl

theorem requiredFiniteFloat_ends {minimum exclusive : Option ℚ}
    (hover : Oversized value → HasOversized data) :
    Ends (Refusal data)
      (fun x => ∃ q, x = .finite q ∧ (∀ m ∈ minimum, m ≤ q) ∧ ∀ m ∈ exclusive, m < q)
      (requiredFiniteFloat b value field minimum exclusive) := by
  unfold requiredFiniteFloat
  split
  · exact .inl rfl
  · refine (coerceFloat_ends hover).bind fun x _ => ?_
    split
    · rename_i q
      by_cases hlow : minimum.any (q < ·) = true
      · rw [if_pos hlow]
        exact .inl rfl
      · rw [if_neg hlow]
        by_cases hlow' : exclusive.any (q ≤ ·) = true
        · rw [if_pos hlow']
          exact .inl rfl
        · rw [if_neg hlow']
          simp only [Option.any_eq_true, decide_eq_true_eq, not_exists, not_and, not_lt,
            not_le] at hlow hlow'
          exact ⟨q, rfl, hlow, hlow'⟩
    · exact .inl rfl

theorem optionalFiniteFloat_ends {minimum : Option ℚ}
    (hover : Oversized value → HasOversized data) :
    Ends (Refusal data) (fun x => ∀ y ∈ x, ∃ q, y = .finite q ∧ ∀ m ∈ minimum, m ≤ q)
      (optionalFiniteFloat b value field minimum) := by
  unfold optionalFiniteFloat
  refine (coerceFloat_ends hover).bind fun x _ => ?_
  split
  · simp [Ends, pure, Except.pure]
  · rename_i q
    by_cases hlow : minimum.any (q < ·) = true
    · rw [if_pos hlow]
      exact .inl rfl
    · rw [if_neg hlow]
      simp only [Option.any_eq_true, decide_eq_true_eq, not_exists, not_and, not_lt] at hlow
      rintro y hy
      exact ⟨q, (Option.some.inj hy).symm, hlow⟩
  · exact .inl rfl

/-! ## How `from_dict` ends -/

theorem hasOversized_get {key : String} (hkey : key ∈ floatKeys) (h : Oversized (data.get key)) :
    HasOversized data := by
  obtain ⟨n, hn, hnone⟩ := h
  rw [Fields.get] at hn hnone
  cases hvalue : data key with
  | none =>
    rw [hvalue] at hn
    cases hn
  | some value =>
    rw [hvalue, Option.getD_some] at hn hnone
    exact ⟨key, hkey, value, hvalue, n, hn, hnone⟩

theorem hasOversized_legacyDefault {rich : Bool} {key : String} {lit : List Char}
    (hkey : key ∈ floatKeys) (h : Oversized (legacyDefault rich data key (.float lit))) :
    HasOversized data := by
  obtain ⟨n, hn, hnone⟩ := h
  rw [legacyDefault] at hn hnone
  cases hvalue : data key with
  | none =>
    rw [hvalue] at hn
    cases rich <;> cases hn
  | some value =>
    rw [hvalue, Option.getD_some] at hn hnone
    exact ⟨key, hkey, value, hvalue, n, hn, hnone⟩

theorem moment_ends {exclusive : Option ℚ} (hover : Oversized value → HasOversized data) :
    Ends (Refusal data) PyFloat.NonNegative
      (requiredFiniteFloat b value field (some 0) exclusive) := by
  refine (requiredFiniteFloat_ends hover).mono (fun _ => id) fun x hx => ?_
  obtain ⟨q, rfl, hpos, -⟩ := hx
  exact ⟨q, rfl, hpos 0 rfl⟩

theorem deadline_ends {minimum : Option ℚ} (hover : Oversized value → HasOversized data) :
    Ends (Refusal data) PyFloat.Positive
      (requiredFiniteFloat b value field minimum (some 0)) := by
  refine (requiredFiniteFloat_ends hover).mono (fun _ => id) fun x hx => ?_
  obtain ⟨q, rfl, -, hpos⟩ := hx
  exact ⟨q, rfl, hpos 0 rfl⟩

theorem optionalMoment_ends (hover : Oversized value → HasOversized data) :
    Ends (Refusal data) (fun x => ∀ y ∈ x, y.NonNegative)
      (optionalFiniteFloat b value field (some 0)) := by
  refine (optionalFiniteFloat_ends hover).mono (fun _ => id) fun x hx y hy => ?_
  obtain ⟨q, rfl, hpos⟩ := hx y hy
  exact ⟨q, rfl, hpos 0 rfl⟩

theorem remaining_ends (hover : Oversized value → HasOversized data) :
    Ends (Refusal data) (fun x => ∀ y ∈ x, ∃ q, y = .finite q)
      (optionalFiniteFloat b value field none) := by
  refine (optionalFiniteFloat_ends hover).mono (fun _ => id) fun x hx y hy => ?_
  obtain ⟨q, rfl, -⟩ := hx y hy
  exact ⟨q, rfl⟩

theorem checkObservabilityVersion_ends :
    Ends (Refusal data) (fun _ => True) (checkObservabilityVersion b data) := by
  unfold checkObservabilityVersion
  split
  · trivial
  · refine (requiredJsonInt_ends 1).bind fun version _ => ?_
    split_ifs
    · exact .inl rfl
    · trivial

/-- **How `from_dict` ends on any mapping**: it returns a snapshot whose fields are in their ranges,
raises an exception that is handled, or meets an integer that is too large for a float. -/
theorem WorkerHealth.fromDict_ends (b : Builtins) (data : Fields) :
    Ends (Refusal data) WorkerHealth.Trusted (WorkerHealth.fromDict b data) := by
  have moment (key : String) (hkey : key ∈ floatKeys) : Ends (Refusal data) PyFloat.NonNegative
      (requiredFiniteFloat b (data.get key) key (some 0) none) :=
    moment_ends (hasOversized_get hkey)
  have optionalMoment (key : String) (hkey : key ∈ floatKeys) :
      Ends (Refusal data) (fun x => ∀ y ∈ x, y.NonNegative)
        (optionalFiniteFloat b (data.get key) key (some 0)) :=
    optionalMoment_ends (hasOversized_get hkey)
  unfold WorkerHealth.fromDict
  refine (requiredJsonInt_ends 0).bind fun schemaVersion _ => ?_
  by_cases hschema : schemaVersion ∉ READABLE_WORKER_HEALTH_SCHEMA_VERSIONS
  · rw [if_pos hschema]
    exact Or.inl (a := typeValueOrKeyError (.valueError _) = true) rfl
  rw [if_neg hschema]
  refine checkObservabilityVersion_ends.bind fun _ _ => ?_
  refine requiredNonemptyStr_ends.bind fun _ hworker => ?_
  refine coerceIncarnationToken_ends.bind fun _ htoken => ?_
  refine (requiredJsonInt_ends 1).bind fun _ hpid => ?_
  refine (requiredJsonInt_ends 1).bind fun _ hticks => ?_
  refine (moment _ (by decide)).bind fun _ hstarted => ?_
  refine (moment _ (by decide)).bind fun _ hpublished => ?_
  refine strictBool_ends.bind fun _ _ => ?_
  refine strictBool_ends.bind fun _ _ => ?_
  refine (optionalMoment _ (by decide)).bind fun _ hconnected => ?_
  refine (optionalMoment _ (by decide)).bind fun _ herror => ?_
  refine optionalJsonIntZero_ends.bind fun _ hactive => ?_
  refine optionalJsonIntZero_ends.bind fun _ hstopping => ?_
  refine optionalJsonIntZero_ends.bind fun _ hcompleted => ?_
  refine (optionalMoment _ (by decide)).bind fun _ hage => ?_
  refine (moment_ends (hasOversized_legacyDefault (by decide))).bind fun _ hmargin => ?_
  refine (remaining_ends (hasOversized_get (by decide))).bind fun _ hremaining => ?_
  refine (deadline_ends (hasOversized_legacyDefault (by decide))).bind fun _ hdeadline => ?_
  refine (optionalMoment _ (by decide)).bind fun _ hactivity => ?_
  refine (optionalMoment _ (by decide)).bind fun _ hbreached => ?_
  refine optionalJsonIntZero_ends.bind fun _ hbreaches => ?_
  refine optionalJsonIntZero_ends.bind fun _ hstreams => ?_
  refine optionalJsonIntZero_ends.bind fun _ hspool => ?_
  refine (requiredJsonInt_ends 1).bind fun _ hscan => ?_
  refine optionalJsonIntZero_ends.bind fun _ hbatch => ?_
  refine (optionalMoment _ (by decide)).bind fun _ hcancellation => ?_
  refine (optionalMoment _ (by decide)).bind fun _ hrecovery => ?_
  refine (optionalMoment _ (by decide)).bind fun _ hgc => ?_
  refine strictBool_ends.bind fun _ _ => ?_
  refine strictBool_ends.bind fun _ _ => ?_
  refine strictBool_ends.bind fun _ _ => ?_
  refine (requiredJsonInt_ends 1).bind fun _ hgcLimit => ?_
  refine strictBool_ends.bind fun _ _ => ?_
  refine (requiredJsonInt_ends 1).bind fun _ hcancellationLimit => ?_
  refine strictBool_ends.bind fun _ _ => ?_
  refine (requiredJsonInt_ends 1).bind fun _ hrecoveryLimit => ?_
  refine strictBool_ends.bind fun _ _ => ?_
  refine strictBool_ends.bind fun _ _ => ?_
  refine optionalUuidStr_ends.bind fun _ hjobId => ?_
  refine ⟨⟨htoken, hpid, ?_, hremaining, hdeadline, ?_, ?_, hjobId⟩, not_not.1 hschema, hworker,
    hticks⟩
  · refine List.forall_mem_append.2 ⟨?_, fun y hy => ?_⟩
    · simp only [List.forall_mem_cons]
      exact ⟨hstarted, hpublished, hmargin, List.forall_mem_nil _⟩
    · obtain ⟨x, hx, hxy⟩ := List.mem_flatMap.1 hy
      rw [Option.mem_toList] at hxy
      revert x
      simp only [WorkerHealth.optionalMoments, List.forall_mem_cons]
      exact ⟨hconnected y, herror y, hage y, hactivity y, hbreached y, hcancellation y,
        hrecovery y, hgc y, List.forall_mem_nil _⟩
  · simp only [WorkerHealth.counts, List.forall_mem_cons]
    exact ⟨hactive, hstopping, hcompleted, hbreaches, hstreams, hspool, hbatch,
      List.forall_mem_nil _⟩
  · simp only [WorkerHealth.limits, List.forall_mem_cons]
    exact ⟨hscan, hgcLimit, hcancellationLimit, hrecoveryLimit, List.forall_mem_nil _⟩

end Decoders

/-- A file that `_read_health_file` can read: it is legible, or there is none, and no float is too
large an integer. -/
def CanRead (py : Interpreter) : FileBytes → Prop
  | .bytes data => Legible py utf8 data ∧ ∀ t members, utf8 data = some t →
      jsonLoads py t = (.ok (.obj members) : Outcome Json) → ¬ HasOversized (memberOf members)
  | _ => True

/-- **A file that can be read raises nothing**, and a snapshot returned for it is in range. -/
theorem readHealthFile_trusted (b : Builtins) {py : Interpreter} {file : FileBytes}
    (hread : CanRead py file) :
    Ends (fun _ => False) (fun found => ∀ h ∈ found, WorkerHealth.Trusted h)
      (readHealthFile b py file) := by
  have hnone : Ends (fun _ : PyError Empty => False) (fun found => ∀ h ∈ found,
      WorkerHealth.Trusted h) (.ok none) := by simp [Ends]
  cases file with
  | absent dangling => exact hnone
  | unreadable text => exact hnone
  | bytes data =>
    obtain ⟨hlegible, hover⟩ := hread
    obtain ⟨t, ht, hdeep⟩ := hlegible.text
    have hends : Ends (fun exc : PyError Empty => exc.isValueError = true) _ _ :=
      jsonLoads_ends hdeep
    simp only [readHealthFile, JsonReader.run, ht]
    cases hj : (jsonLoads py t : Outcome Json) with
    | error exc =>
      rw [hj] at hends
      simp only [show exc.isValueError = true from hends, if_true]
      exact hnone
    | ok v =>
      cases v with
      | obj members =>
        have hdict := WorkerHealth.fromDict_ends b (memberOf members)
        dsimp only
        cases hd : WorkerHealth.fromDict b (memberOf members) with
        | ok h =>
          rw [hd] at hdict
          exact fun h' hh' => Option.some.inj hh' ▸ hdict
        | error exc =>
          rw [hd] at hdict
          rcases hdict with hhandled | ⟨-, hlarge⟩
          · rw [healthOrNone, if_pos hhandled]
            exact hnone
          · exact absurd hlarge (hover t members ht hj)
      | null | bool _ | int _ | float _ | str _ | arr _ => exact hnone

/-- A file that was written holds the text of its snapshot, and the token of its name is valid. -/
theorem writeWorkerHealth_eq_true {b : Builtins} {storage : Storage} {h : WorkerHealth}
    {before after : FileBytes} (hwrite : writeWorkerHealth b storage h before = (.ok true, after)) :
    validIncarnationToken h.workerIncarnation = true ∧
      after = .bytes (utf8Encode (h.fileText b.floatRepr)) := by
  have hdropped (f : OsFailure) : f.dropped ≠ .ok true := by
    rw [OsFailure.dropped]
    split_ifs <;> simp
  rw [writeWorkerHealth] at hwrite
  cases htoken : validateIncarnationToken b h.workerIncarnation with
  | error exc => simp [htoken] at hwrite
  | ok u =>
    simp only [htoken] at hwrite
    split at hwrite
    · exact absurd (congrArg Prod.fst hwrite) (hdropped _)
    · exact absurd (congrArg Prod.fst hwrite) (hdropped _)
    · exact ⟨validateIncarnationToken_eq_ok.1 htoken, (congrArg Prod.snd hwrite).symm⟩

/-! ## Mappings of the prior release -/

/-- The fields the prior release did not write. -/
def observabilityKeys : List String :=
  ["observability_version", "active_jobs", "stopping_jobs", "completed_jobs",
    "oldest_active_job_age_seconds", "lease_safety_margin_seconds",
    "min_lease_safety_remaining_seconds", "db_operation_deadline_seconds", "db_last_activity_at",
    "db_deadline_breached_at", "db_deadline_breach_count", "capture_streams_open",
    "spool_held_bytes", "scan_batch_limit", "last_scan_batch_size", "last_cancellation_scan_at",
    "last_recovery_at", "last_gc_at", "cancellation_scan_overdue", "recovery_overdue",
    "gc_overdue", "gc_batch_limit", "gc_batch_bound_hit", "cancellation_batch_limit",
    "cancellation_batch_bound_hit", "recovery_batch_limit", "recovery_batch_bound_hit",
    "oldest_active_job_id"]

/-- What the prior release wrote of a worker. -/
structure Envelope where
  workerId : PyStr
  workerIncarnation : PyStr
  pid : ℤ
  startTimeTicks : ℤ
  startedAt : Moment
  publishedAt : Moment
  alive : Bool
  dbConnected : Bool
  dbConnectedAt : Option Moment
  dbErrorAt : Option Moment
  shuttingDown : Bool
  workerId_ne : workerId ≠ []
  token : validIncarnationToken workerIncarnation = true
  pid_pos : 1 ≤ pid
  ticks_pos : 1 ≤ startTimeTicks

/-- A value is a moment, or null for none. -/
def HoldsMoment (value : Json) : Option Moment → Prop
  | none => value = .null
  | some m => strictFiniteFloat value = some m.1

/-- A mapping holds what the prior release wrote, and no other field of a snapshot. -/
structure Envelope.Carried (e : Envelope) (data : Fields) : Prop where
  schema : data.get "schema_version" = .int WORKER_HEALTH_SCHEMA_VERSION
  workerId : data.get "worker_id" = .str e.workerId
  workerIncarnation : data.get "worker_incarnation" = .str e.workerIncarnation
  pid : data.get "pid" = .int e.pid
  startTimeTicks : data.get "start_time_ticks" = .int e.startTimeTicks
  startedAt : HoldsMoment (data.get "started_at") (some e.startedAt)
  publishedAt : HoldsMoment (data.get "published_at") (some e.publishedAt)
  alive : data "alive" = some (.bool e.alive)
  dbConnected : data "db_connected" = some (.bool e.dbConnected)
  dbConnectedAt : HoldsMoment (data.get "db_connected_at") e.dbConnectedAt
  dbErrorAt : HoldsMoment (data.get "db_error_at") e.dbErrorAt
  shuttingDown : data "shutting_down" = some (.bool e.shuttingDown)
  absent : ∀ key ∈ observabilityKeys, data key = none

/-- The snapshot of such a mapping, with the defaults of the other fields. -/
def Envelope.health (e : Envelope) : WorkerHealth where
  schemaVersion := WORKER_HEALTH_SCHEMA_VERSION
  workerId := e.workerId
  workerIncarnation := e.workerIncarnation
  pid := e.pid
  startTimeTicks := e.startTimeTicks
  startedAt := .finite e.startedAt
  publishedAt := .finite e.publishedAt
  alive := e.alive
  dbConnected := e.dbConnected
  dbConnectedAt := e.dbConnectedAt.map fun m : Moment => .finite m
  dbErrorAt := e.dbErrorAt.map fun m : Moment => .finite m
  activeJobs := 0
  stoppingJobs := 0
  completedJobs := 0
  oldestActiveJobAgeSeconds := none
  leaseSafetyMarginSeconds := .finite 0
  minLeaseSafetyRemainingSeconds := none
  dbOperationDeadlineSeconds := .finite 1
  dbLastActivityAt := none
  dbDeadlineBreachedAt := none
  dbDeadlineBreachCount := 0
  captureStreamsOpen := 0
  spoolHeldBytes := 0
  scanBatchLimit := 1
  lastScanBatchSize := 0
  lastCancellationScanAt := none
  lastRecoveryAt := none
  lastGcAt := none
  cancellationScanOverdue := false
  recoveryOverdue := false
  gcOverdue := false
  gcBatchLimit := 1
  gcBatchBoundHit := false
  cancellationBatchLimit := 1
  cancellationBatchBoundHit := false
  recoveryBatchLimit := 1
  recoveryBatchBoundHit := false
  shuttingDown := e.shuttingDown

section Legacy

variable {b : Builtins} {data : Fields} {e : Envelope} (hc : e.Carried data) {key : String}

include hc

theorem get_absent (hkey : key ∈ observabilityKeys) : data.get key = .null := by
  rw [Fields.get, hc.absent key hkey, Option.getD_none]

theorem default_absent (hkey : key ∈ observabilityKeys) {default : Json} :
    legacyDefault false data key default = default := by
  rw [legacyDefault, hc.absent key hkey, Option.getD_none, if_neg (by simp)]

theorem flag_absent (hkey : key ∈ observabilityKeys) : strictBool b data key = .ok false := by
  rw [strictBool, hc.absent key hkey]

omit hc

theorem requiredFiniteFloat_moment {value : Json} {m : Moment}
    (hvalue : HoldsMoment value (some m)) :
    requiredFiniteFloat b value key (some 0) none = .ok (.finite m) :=
  requiredFiniteFloat_of_finite hvalue (by simpa using m.2) (by simp)

theorem optionalFiniteFloat_moment {value : Json} {x : Option Moment}
    (hvalue : HoldsMoment value x) :
    optionalFiniteFloat b value key (some 0) = .ok (x.map fun m : Moment => .finite m) := by
  cases x with
  | none =>
    rw [show value = .null from hvalue]
    rfl
  | some m => exact optionalFiniteFloat_of_finite hvalue (by simpa using m.2)

theorem strictFiniteFloat_zero : strictFiniteFloat (.float "0.0".toList) = some 0 := by
  simpa [bitRepr] using readsBack_bit_zero.value

theorem strictFiniteFloat_one : strictFiniteFloat (.float "1.0".toList) = some 1 := by
  simpa [bitRepr] using readsBack_bit_one.value

include hc

/-- **A mapping of the prior release is accepted**, with the defaults of the fields it lacks. -/
theorem Envelope.fromDict_eq : WorkerHealth.fromDict b data = .ok e.health := by
  have hschema : requiredJsonInt b (data.get "schema_version") "schema_version" 0 =
      .ok WORKER_HEALTH_SCHEMA_VERSION := requiredJsonInt_eq hc.schema (by decide)
  have hlisted : WORKER_HEALTH_SCHEMA_VERSION ∈ READABLE_WORKER_HEALTH_SCHEMA_VERSIONS := by decide
  have hplain : richObservability WORKER_HEALTH_SCHEMA_VERSION data = false := by
    rw [richObservability, get_absent hc (by decide)]
    rfl
  have hchecked : checkObservabilityVersion b data = .ok () := by
    rw [checkObservabilityVersion, get_absent hc (by decide)]
  have hcount : ∀ k ∈ observabilityKeys, optionalJsonIntZero b (data.get k) k = .ok 0 :=
    fun k hk => by rw [get_absent hc hk, optionalJsonIntZero]
  have hmoment (minimum : Option ℚ) : ∀ k ∈ observabilityKeys,
      optionalFiniteFloat b (data.get k) k minimum = .ok none :=
    fun k hk => by rw [get_absent hc hk]; rfl
  have hlimit : ∀ k ∈ observabilityKeys,
      requiredJsonInt b (legacyDefault false data k (.int 1)) k 1 = .ok 1 :=
    fun k hk => by rw [default_absent hc hk]; rfl
  have hmargin : ∀ k ∈ observabilityKeys, requiredFiniteFloat b
      (legacyDefault false data k (.float "0.0".toList)) k (some 0) none = .ok (.finite 0) :=
    fun k hk => by
      rw [default_absent hc hk]
      exact requiredFiniteFloat_of_finite strictFiniteFloat_zero (by simp) (by simp)
  have hdeadline : ∀ k ∈ observabilityKeys, requiredFiniteFloat b
      (legacyDefault false data k (.float "1.0".toList)) k none (some 0) = .ok (.finite 1) :=
    fun k hk => by
      rw [default_absent hc hk]
      exact requiredFiniteFloat_of_finite strictFiniteFloat_one (by simp) (by simp)
  have hjob : ∀ k ∈ observabilityKeys, optionalUuidStr b (data.get k) k = .ok none :=
    fun k hk => by rw [get_absent hc hk]; rfl
  have hflag : ∀ k ∈ observabilityKeys, strictBool b data k = .ok false :=
    fun k hk => flag_absent hc hk
  simp (disch := decide) only [WorkerHealth.fromDict, hschema, hlisted, not_true_eq_false, if_false,
    hchecked, hplain, requiredNonemptyStr_eq hc.workerId e.workerId_ne,
    coerceIncarnationToken_eq hc.workerIncarnation e.token, requiredJsonInt_eq hc.pid e.pid_pos,
    requiredJsonInt_eq hc.startTimeTicks e.ticks_pos, requiredFiniteFloat_moment hc.startedAt,
    requiredFiniteFloat_moment hc.publishedAt, strictBool_eq hc.alive, strictBool_eq hc.dbConnected,
    optionalFiniteFloat_moment hc.dbConnectedAt, optionalFiniteFloat_moment hc.dbErrorAt, hcount,
    hmoment, hlimit, hmargin, hdeadline, hflag, strictBool_eq hc.shuttingDown, hjob, bind,
    Except.bind]
  rfl

end Legacy

/-! ## Health snapshots on the disk -/

/-- The standard library for numbers that are zero or one. -/
def bitBuiltins : Builtins := ⟨bitRepr, fun _ => [], Uuid.ofText⟩

/-- Accepted settings whose times that a snapshot shows are one second. -/
def secondSettings : Settings :=
  { Settings.alpha with leaseSafetyMarginSeconds := 1, dbOperationTimeoutSeconds := 1 }

theorem secondSettings_postInit : secondSettings.postInit = .ok () := by decide +kernel

theorem secondSettings_worker : Supervise.Joined secondSettings.workerId := by
  unfold Supervise.Joined
  decide

theorem secondSettings_lease : secondSettings.leaseDurationSeconds ≤ maxFloat := by
  have hunit : (1 : ℚ) ≤ 2 ^ (970 : ℤ) := one_le_zpow₀ one_le_two (by decide)
  have hlease : secondSettings.leaseDurationSeconds = 30 := rfl
  rw [hlease, maxFloat, powers_around_maxFloat.1, powers_around_maxFloat.2.2]
  generalize (2 : ℚ) ^ (970 : ℤ) = unit at *
  linarith

/-- The identifier of the job of that worker. -/
def firstJob : Uuid := Uuid.ofDigit 0

/-- A worker with one job, and with what `proc_start_ticks` returned for it. -/
def busySupervisor (procStartTicks : Option ℕ) : Supervisor where
  settings := secondSettings
  pid := 7
  procStartTicks
  connected := true
  startedAt := epoch
  dbConnectedAt := some epoch
  dbErrorAt := none
  active := [(firstJob, ActiveJob.spawned firstJob)]
  completedCount := 0
  lastDbActivityAt := some epoch
  dbDeadlineBreachedAt := none
  dbDeadlineBreachCount := 0
  lastClaimBatch := 1
  lastCancellationScanAt := none
  lastRecoveryAt := none
  gcRunner := none
  nextCancelScanAt := 0
  nextRecoveryAt := 0
  cancellationBatchBoundHit := false
  recoveryBatchBoundHit := false
  accepted := secondSettings_postInit
  workerIdText := secondSettings_worker
  leaseFloat := secondSettings_lease
  pid_pos := Nat.succ_pos 6

theorem busySupervisor_active {procStartTicks : Option ℕ} {e : Uuid × ActiveJob}
    (he : e ∈ (busySupervisor procStartTicks).active) :
    e.2.claimedAt ≤ 2 ∧ 0 ≤ e.2.lastHeartbeatAt ∧ e.2.lastHeartbeatAt ≤ 2 := by
  obtain rfl := List.mem_singleton.1 he
  norm_num [ActiveJob.spawned]

theorem two_le_clock : (2 : ℚ) ≤ 2 ^ 63 := by norm_num

/-- The clocks one second after its job was claimed. -/
def busyInstant (procStartTicks : Option ℕ) : (busySupervisor procStartTicks).Instant where
  nowMono := 2
  nowWall := epoch
  bounded := two_le_clock
  claimed _ he := (busySupervisor_active he).1
  heartbeat _ he := (busySupervisor_active he).2

/-- The snapshot of that worker. -/
def busyHealth (procStartTicks : Option ℕ) : WorkerHealth :=
  (busySupervisor procStartTicks).buildHealth (busyInstant procStartTicks) true false

theorem busyHealth_floatsReadBack (procStartTicks : Option ℕ) :
    (busyHealth procStartTicks).FloatsReadBack bitRepr := by
  have hage : PyFloat.rounded (2 + -1) = .finite 1 := by
    rw [show (2 : ℚ) + -1 = 1 by norm_num, PyFloat.rounded, if_neg (by norm_num),
      Deploy.roundBinary64_one]
    rfl
  have hnumbers : (busyHealth procStartTicks).numbers = [.finite 1, .finite 0, .finite 0, .finite 1,
      .finite 0, .rounded (2 + -1), .finite 0] := rfl
  intro q hq
  rw [hnumbers, hage] at hq
  simp only [List.mem_cons, PyFloat.finite.injEq, List.not_mem_nil, or_false] at hq
  have hbit : q = 0 ∨ q = 1 := by tauto
  rcases hbit with rfl | rfl
  · exact readsBack_bit_zero
  · exact readsBack_bit_one

/-- What the prior release wrote of a worker that was just started. -/
def priorRelease : Envelope where
  workerId := "worker"
  workerIncarnation := "token"
  pid := 7
  startTimeTicks := 5
  startedAt := epoch
  publishedAt := epoch
  alive := true
  dbConnected := true
  dbConnectedAt := some epoch
  dbErrorAt := none
  shuttingDown := false
  workerId_ne := by decide
  token := by decide
  pid_pos := by decide
  ticks_pos := by decide

/-- The mapping it wrote. -/
def priorFields : Fields := memberOf
  [entry "schema_version" (.int 1), entry "worker_id" (.str "worker"),
    entry "worker_incarnation" (.str "token"), entry "pid" (.int 7),
    entry "start_time_ticks" (.int 5), entry "started_at" (.int 0), entry "published_at" (.int 0),
    entry "alive" (.bool true), entry "db_connected" (.bool true), entry "db_connected_at" (.int 0),
    entry "db_error_at" .null, entry "current_job_id" .null, entry "shutting_down" (.bool false)]

theorem carried_priorRelease : priorRelease.Carried priorFields := by
  have hzero : strictFiniteFloat (.int 0) = some 0 := by
    rw [strictFiniteFloat, if_neg (by decide), Int.cast_zero]
    exact roundBinary64_zero
  constructor
  all_goals first | rfl | exact hzero | decide

end Lubko.Worker.Snapshot
