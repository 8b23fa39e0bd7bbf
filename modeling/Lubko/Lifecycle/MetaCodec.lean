import Lubko.Lifecycle.Meta
import Lubko.Supervise.StateCodec

/-!
# Worker metadata is read back

What `WorkerMeta.from_dict` returns is valid, and valid metadata that `to_dict` wrote is what
`from_dict` returns, through any channel that keeps values.

* `WorkerMeta.fromDict_valid` — metadata that was read is valid.
* `WorkerMeta.fromDict_toDict` — metadata that was written is read.
* `readMetaStrict_fileText` — the same for the file.
-/

namespace Lubko.Lifecycle

open Lubko.Lib Lubko.Supervise

/-- What reading guarantees of worker metadata, the texts being those with a property. -/
structure WorkerMeta.Valid (P : PyStr → Prop) (m : WorkerMeta) : Prop where
  schema : m.schemaVersion = META_SCHEMA_VERSION
  pid : ∀ n ∈ m.pid, 1 ≤ n
  pgid : ∀ n ∈ m.pgid, 1 ≤ n
  sid : ∀ n ∈ m.sid, 0 ≤ n
  ticks : ∀ n ∈ m.startTimeTicks, 1 ≤ n
  tokenText : ∀ s ∈ m.token, P s
  repoText : P m.repo
  commitText : ∀ s ∈ m.gitCommit, P s
  workerText : ∀ s ∈ m.workerId, P s
  logText : P m.logPath
  startedAt : ∀ x ∈ m.startedAt, 0 ≤ x
  stoppedAt : ∀ x ∈ m.stoppedAt, 0 ≤ x

/-- The floats of worker metadata. -/
def WorkerMeta.floats (m : WorkerMeta) : List ℚ := m.startedAt.toList ++ m.stoppedAt.toList

theorem mem_floats_startedAt {m : WorkerMeta} {x : ℚ} (h : x ∈ m.startedAt) : x ∈ m.floats :=
  List.mem_append_left _ (by simpa using h)

theorem mem_floats_stoppedAt {m : WorkerMeta} {x : ℚ} (h : x ∈ m.stoppedAt) : x ∈ m.floats :=
  List.mem_append_right _ (by simpa using h)

/-! ## Fields that were written -/

section Fields

variable {data : Fields} {field : String}

theorem requiredMetaInt_eq {n minimum : ℤ} (hdata : data field = some (.int n))
    (hn : minimum ≤ n) : requiredMetaInt data field minimum = .ok n := by
  rw [requiredMetaInt, hdata]
  exact if_neg (not_lt.2 hn)

theorem metaOptionalInt_eq {x : Option ℤ} {minimum : ℤ}
    (hdata : data field = some (orNull .int x)) (hx : ∀ n ∈ x, minimum ≤ n) :
    metaOptionalInt data field minimum = .ok x := by
  cases x with
  | none => rw [metaOptionalInt, hdata, orNull]
  | some n =>
    rw [orNull] at hdata
    rw [metaOptionalInt, requiredMetaInt_eq hdata (hx n rfl), hdata]
    rfl

theorem metaString_eq {s default : PyStr} (hdata : data field = some (.str s)) :
    metaString data field default = .ok s := by
  rw [metaString, hdata]

theorem metaOptionalString_eq {x : Option PyStr} (hdata : data field = some (orNull .str x)) :
    metaOptionalString data field = .ok x := by
  cases x with
  | none => rw [metaOptionalString, hdata, orNull]
  | some s =>
    rw [orNull] at hdata
    rw [metaOptionalString, metaString_eq hdata, hdata]
    rfl

theorem workerState?_text (state : WorkerState) : workerState? state.text = some state := by
  cases state <;> rfl

theorem metaWorkerState_eq {py : Interpreter} {state : WorkerState}
    (hdata : data "state" = some (.str state.text)) : metaWorkerState py data = .ok state := by
  rw [metaWorkerState, metaString_eq hdata]
  refine except_bind_eq_ok.2 ⟨state.text, rfl, ?_⟩
  simp only [workerState?_text]
  rfl

theorem metaOptionalFiniteFloat_eq {floatRepr : ℚ → List Char} {x : Option ℚ}
    (hdata : data field = some (orNull (fun q => .float (floatRepr q)) x))
    (hx : ∀ q ∈ x, 0 ≤ q ∧ ReadsBack floatRepr q) :
    metaOptionalFiniteFloat data field = .ok x := by
  cases x with
  | none => rw [metaOptionalFiniteFloat, hdata, orNull]
  | some q =>
    obtain ⟨hpos, hback⟩ := hx q rfl
    rw [orNull] at hdata
    rw [metaOptionalFiniteFloat, hdata]
    simp only [hback.value]
    exact if_neg (not_lt.2 hpos)

end Fields

/-! ## Keys and values -/

theorem wellKeyed_metaToDict (floatRepr : ℚ → List Char) (m : WorkerMeta) :
    WellKeyed (m.toDict floatRepr) :=
  .of_keys (show _ = (["schema_version", "state", "pid", "pgid", "sid", "start_time_ticks", "token",
    "repo", "git_commit", "worker_id", "log_path", "started_at", "stopped_at"] : List String).map
    PyStr.ofString from rfl) (by decide)

theorem writable_metaToDict {floatRepr : ℚ → List Char} {m : WorkerMeta}
    (h : ∀ x ∈ m.floats, FloatLiteral (floatRepr x)) :
    (Json.obj (m.toDict floatRepr)).Writable := by
  refine .obj ?_
  simp only [WorkerMeta.toDict, List.forall_mem_cons, entry]
  exact ⟨.int _, .str _, writable_orNull fun _ _ => .int _, writable_orNull fun _ _ => .int _,
    writable_orNull fun _ _ => .int _, writable_orNull fun _ _ => .int _,
    writable_orNull fun _ _ => .str _, .str _, writable_orNull fun _ _ => .str _,
    writable_orNull fun _ _ => .str _, .str _,
    writable_orNull fun x hx => Json.Writable.float (h x (mem_floats_startedAt hx)),
    writable_orNull fun x hx => Json.Writable.float (h x (mem_floats_stoppedAt hx)),
    List.forall_mem_nil _⟩

/-! ## Round trip -/

/-- **Metadata that was written is read**, through any channel that keeps values. -/
theorem WorkerMeta.fromDict_toDict {P : PyStr → Prop} {f : Json → Json} (hf : Transparent P f)
    {floatRepr : ℚ → List Char} {py : Interpreter} {m : WorkerMeta} (hv : m.Valid P)
    (hx : ∀ x ∈ m.floats, ReadsBack floatRepr x) :
    WorkerMeta.fromDict py (received f (m.toDict floatRepr)) = .ok m := by
  have hint : ∀ x : Option ℤ, some (f (orNull .int x)) = some (orNull .int x) :=
    fun x => congrArg some (hf.orNull_int x)
  have htext : ∀ x : Option PyStr, (∀ s ∈ x, P s) →
      some (f (orNull .str x)) = some (orNull .str x) :=
    fun x h => congrArg some (hf.orNull_str h)
  have hfloat : ∀ x : Option ℚ, some (f (orNull (fun q => .float (floatRepr q)) x)) =
      some (orNull (fun q => .float (floatRepr q)) x) :=
    fun x => congrArg some (hf.orNull_float floatRepr x)
  have hstr : ∀ s : PyStr, P s → some (f (.str s)) = some (.str s) :=
    fun s h => congrArg some (hf.str s h)
  have hstate : P m.state.text := hf.covers _ (by cases m.state <;> decide)
  have hstarted : ∀ q ∈ m.startedAt, 0 ≤ q ∧ ReadsBack floatRepr q := fun q hq =>
    ⟨hv.startedAt q hq, hx q (mem_floats_startedAt hq)⟩
  have hstopped : ∀ q ∈ m.stoppedAt, 0 ≤ q ∧ ReadsBack floatRepr q := fun q hq =>
    ⟨hv.stoppedAt q hq, hx q (mem_floats_stoppedAt hq)⟩
  have hschema : requiredMetaInt (received f (m.toDict floatRepr)) "schema_version" 1 =
      .ok META_SCHEMA_VERSION :=
    requiredMetaInt_eq ((congrArg some (hf.int _)).trans (by rw [hv.schema])) (by decide)
  rw [WorkerMeta.fromDict, hschema, metaWorkerState_eq (hstr _ hstate),
    metaOptionalInt_eq (hint m.pid) hv.pid, metaOptionalInt_eq (hint m.pgid) hv.pgid,
    metaOptionalInt_eq (hint m.sid) hv.sid, metaOptionalInt_eq (hint m.startTimeTicks) hv.ticks,
    metaOptionalString_eq (htext m.token hv.tokenText), metaString_eq (hstr m.repo hv.repoText),
    metaOptionalString_eq (htext m.gitCommit hv.commitText),
    metaOptionalString_eq (htext m.workerId hv.workerText),
    metaString_eq (hstr m.logPath hv.logText),
    metaOptionalFiniteFloat_eq (hfloat m.startedAt) hstarted,
    metaOptionalFiniteFloat_eq (hfloat m.stoppedAt) hstopped]
  show Except.ok { m with schemaVersion := META_SCHEMA_VERSION } = _
  rw [← hv.schema]

/-- The text `write_meta` leaves in `meta.json`. -/
def WorkerMeta.fileText (floatRepr : ℚ → List Char) (m : WorkerMeta) : List Char :=
  dumps (Json.obj (m.toDict floatRepr)).sortKeys ++ ['\n']

/-- **The file that was written is read**, by an interpreter that meets none of its limits on it. -/
theorem readMetaStrict_fileText {floatRepr : ℚ → List Char} {py : Interpreter} {m : WorkerMeta}
    {data : List UInt8} (hv : m.Valid Joined) (hx : ∀ x ∈ m.floats, ReadsBack floatRepr x)
    (hdata : py.locale data = some (m.fileText floatRepr))
    (hdeep : py.tooDeep (m.fileText floatRepr) = false)
    (hdigits : py.tooManyDigits (m.fileText floatRepr) = false) :
    readMetaStrict py (.bytes data) = .ok (some m) := by
  obtain ⟨d, hd, hmembers⟩ := readBack_obj (wellKeyed_metaToDict floatRepr m)
  have hread : WorkerMeta.fromDict py (memberOf d) = .ok m := by
    rw [hmembers]
    exact WorkerMeta.fromDict_toDict transparent_readBack hv hx
  rw [readMetaStrict, JsonReader.run_line _ (writable_metaToDict fun x h => (hx x h).literal) hdata
    hdeep hdigits, hd]
  simp only [hread]
  rfl

/-! ## What was read is valid -/

section Reading

variable {P : PyStr → Prop} {data : Fields} {field : String} (hcovers : CoversJoined P)
  (hdata : ∀ k s, data k = some (.str s) → P s)

include hdata in
theorem metaString_texts {default : PyStr} (hdefault : P default) :
    Ends (fun _ : PyError ErrorClass => True) P (metaString data field default) := by
  rw [metaString]
  split
  · exact hdefault
  · rename_i s hs
    exact hdata _ s hs
  · trivial

include hcovers hdata in
theorem metaOptionalString_texts :
    Ends (fun _ : PyError ErrorClass => True) (fun x => ∀ s ∈ x, P s)
      (metaOptionalString data field) := by
  have hstring : Ends (fun _ : PyError ErrorClass => True) (fun x : Option PyStr => ∀ s ∈ x, P s)
      ((metaString data field []).map some) := by
    refine (metaString_texts hdata (hcovers [] rfl)).map fun s hs t ht => ?_
    obtain rfl : s = t := by simpa using ht
    exact hs
  rw [metaOptionalString]
  split
  · intro s hs
    cases hs
  · intro s hs
    cases hs
  · exact hstring

include hcovers hdata in
/-- **Metadata that was read is valid.** -/
theorem WorkerMeta.fromDict_valid {py : Interpreter} {m : WorkerMeta}
    (h : WorkerMeta.fromDict py data = .ok m) : m.Valid P := by
  have hends : Ends (fun _ => True) (WorkerMeta.Valid P) (WorkerMeta.fromDict py data) := by
    have hany : ∀ exc : PyError ErrorClass, Refusal exc → True := fun _ _ => trivial
    have hsame : ∀ {α : Type} {Q : α → Prop} (a : α), Q a → Q a := fun _ h => h
    rw [WorkerMeta.fromDict]
    refine ((requiredMetaInt_ends 1).mono hany hsame).bind fun schemaVersion _ => ?_
    by_cases hschema : schemaVersion ≠ META_SCHEMA_VERSION
    · rw [if_pos hschema]
      trivial
    rw [if_neg hschema]
    refine (metaWorkerState_ends.mono hany hsame).bind fun state _ => ?_
    refine ((metaOptionalInt_ends 1).mono hany hsame).bind fun pid hpid => ?_
    refine ((metaOptionalInt_ends 1).mono hany hsame).bind fun pgid hpgid => ?_
    refine ((metaOptionalInt_ends 0).mono hany hsame).bind fun sid hsid => ?_
    refine ((metaOptionalInt_ends 1).mono hany hsame).bind fun ticks hticks => ?_
    refine (metaOptionalString_texts hcovers hdata).bind fun token htoken => ?_
    refine (metaString_texts hdata (hcovers [] rfl)).bind fun repo hrepo => ?_
    refine (metaOptionalString_texts hcovers hdata).bind fun gitCommit hcommit => ?_
    refine (metaOptionalString_texts hcovers hdata).bind fun workerId hworker => ?_
    refine (metaString_texts hdata (hcovers [] rfl)).bind fun logPath hlog => ?_
    refine (metaOptionalFiniteFloat_ends.mono hany hsame).bind fun startedAt hstarted => ?_
    refine (metaOptionalFiniteFloat_ends.mono hany hsame).bind fun stoppedAt hstopped => ?_
    exact ⟨not_not.1 hschema, hpid, hpgid, hsid, hticks, htoken, hrepo, hcommit, hworker, hlog,
      hstarted, hstopped⟩
  rw [h] at hends
  exact hends

end Reading

end Lubko.Lifecycle
