import Lubko.Protocol.Codec

/-!
# Which payloads stop the parser

`worker.py` guards the call of `parse_payload` with `ProtocolError` alone, so any other exception
stops the daemon. Two operations of the parsers are partial: a list or a dict has no hash and cannot
be looked up among the job types, and a text with a surrogate cannot be encoded to be measured. Both
are met only when every check before them has passed.

The argument is any JSON value; a text is decoded first. What `json.loads` makes of a text is a
parameter, with the exceptions it raises on a text that is well formed but beyond a limit of the
interpreter.

* `throws_bind` — where a sequence of calls raises.
* `parsePayload_throws`, `parseChunkPayload_throws` — the payloads on which a parser raises another
  exception.
* `parsing_total_iff` — when a parser returns a valid value or raises `ProtocolError`.
-/

namespace Lubko.Protocol

open Lubko.Lib

/-! ## Exceptions -/

section Throws

variable {E α β : Type} {bad : E → Prop}

/-- The call raises an exception of a kind. -/
def Throws (bad : E → Prop) : Except E α → Prop
  | .ok _ => False
  | .error exc => bad exc

@[simp] theorem throws_ok {a : α} : ¬ Throws bad (.ok a : Except E α) := id

@[simp] theorem throws_pure {a : α} : ¬ Throws bad (pure a : Except E α) := id

@[simp] theorem throws_error {exc : E} : Throws bad (.error exc : Except E α) ↔ bad exc := Iff.rfl

/-- A sequence raises in its first call, or after it has returned. -/
@[simp] theorem throws_bind {x : Except E α} {f : α → Except E β} :
    Throws bad (x >>= f) ↔ Throws bad x ∨ ∃ a, x = .ok a ∧ Throws bad (f a) := by
  cases x with
  | error exc => simp [bind, Except.bind]
  | ok a => simp [bind, Except.bind]

@[simp] theorem throws_map {x : Except E α} {f : α → β} : Throws bad (x.map f) ↔ Throws bad x := by
  cases x with
  | error exc => rfl
  | ok a => rfl

@[simp] theorem throws_fmap {x : Except E α} {f : α → β} : Throws bad (f <$> x) ↔ Throws bad x :=
  throws_map

end Throws

/-- Not a `ProtocolError`. -/
def Raised.Escapes : Raised → Prop
  | .protocolError _ => False
  | .unicodeEncodeError | .typeError => True

/-! ## Shapes of values -/

/-- A text that cannot be encoded. -/
def LoneText (v : Json) : Prop := ∃ s, v = .str s ∧ ∃ c ∈ s, c.isHigh = true ∨ c.isLow = true

/-- A text that can be encoded, in at most `limit` bytes. -/
def Bounded (limit : ℕ) (s : PyStr) : Prop :=
  (∀ c ∈ s, c.isHigh = false ∧ c.isLow = false) ∧ s.utf8ByteLength ≤ limit

def BoundedText (limit : ℕ) (v : Json) : Prop := ∃ s, v = .str s ∧ Bounded limit s

/-- A value without a hash. -/
def Unhashable (v : Json) : Prop := (∃ items, v = .arr items) ∨ ∃ members, v = .obj members

def ServerShape (v : Json) : Prop := ∃ s, v = .str s ∧ s ≠ []

def RequestShape (v : Json) : Prop :=
  ∃ raw, v = .obj raw ∧ Json.hasKey raw "command" = false ∧ Json.hasKey raw "args" = false ∧
    (∃ cwd, Json.get raw "cwd" = .str cwd ∧ cwd.head? = some (CodePoint.ofChar '/')) ∧
    ∃ parts : List PyStr, Json.get raw "process" = .arr (parts.map .str) ∧ parts ≠ [] ∧
      ∀ p ∈ parts, p ≠ []

def StateShape (v : Json) : Prop :=
  ∃ raw status, v = .obj raw ∧ Json.get raw "status" = .str status ∧ status ∈ KNOWN_STATUSES

/-- The `start` and the `end` of a mapping: at most `limit` bytes between them. -/
def OffsetsShape (limit : ℕ) (raw : List (PyStr × Json)) : Prop :=
  ∃ start stop, Json.get raw "start" = .int start ∧ Json.get raw "end" = .int stop ∧
    0 ≤ start ∧ start ≤ stop ∧ stop - start ≤ limit

section Shapes

variable (UUID : PyStr → Option Uuid)

def UuidShape (v : Json) : Prop := v = .null ∨ ∃ s u, v = .str s ∧ UUID s = some u

def WindowShape (v : Json) : Prop :=
  v = .null ∨ ∃ raw, v = .obj raw ∧ BoundedText OUTPUT_TAIL_MAX_BYTES (Json.get raw "tail") ∧
    OffsetsShape OUTPUT_TAIL_MAX_BYTES raw ∧ UuidShape UUID (Json.get raw "previous")

def OutputShape (v : Json) : Prop :=
  v = .null ∨ ∃ raw, v = .obj raw ∧ WindowShape UUID (Json.get raw "stdout") ∧
    WindowShape UUID (Json.get raw "stderr")

/-! ## Where a measured text is met -/

/-- The tail of a window is the first field that is checked. -/
def WindowEscapes (v : Json) : Prop := ∃ raw, v = .obj raw ∧ LoneText (Json.get raw "tail")

def OutputEscapes (v : Json) : Prop :=
  ∃ raw, v = .obj raw ∧ (WindowEscapes (Json.get raw "stdout") ∨
    WindowShape UUID (Json.get raw "stdout") ∧ WindowEscapes (Json.get raw "stderr"))

def ResultEscapes (v : Json) : Prop :=
  ∃ raw, v = .obj raw ∧ (LoneText (Json.get raw "stdout") ∨
    BoundedText OUTPUT_TAIL_MAX_BYTES (Json.get raw "stdout") ∧ LoneText (Json.get raw "stderr"))

/-- A job of the current version whose type has no hash, or a command that is well formed up to a
measured text that cannot be encoded. -/
def CommandEscapes (d : List (PyStr × Json)) : Prop :=
  Json.get d "v" = .int CURRENT_PROTOCOL_VERSION ∧ (Unhashable (Json.get d "type") ∨
    Json.get d "type" = .str JOB_TYPE_COMMAND ∧ ServerShape (Json.get d "server") ∧
      RequestShape (Json.get d "request") ∧ StateShape (Json.get d "state") ∧
      (OutputEscapes UUID (Json.get d "output") ∨
        OutputShape UUID (Json.get d "output") ∧ ResultEscapes (Json.get d "result")))

/-- The same for a chunk, whose value is measured after its offsets. -/
def ChunkEscapes (d : List (PyStr × Json)) : Prop :=
  Json.get d "v" = .int CURRENT_PROTOCOL_VERSION ∧ (Unhashable (Json.get d "type") ∨
    Json.get d "type" = .str JOB_TYPE_OUTPUT_CHUNK ∧
      (∃ s u, Json.get d "thread" = .str s ∧ UUID s = some u) ∧
      (∃ stream ∈ CHUNK_STREAMS, Json.get d "stream" = .str stream) ∧
      (∃ n, Json.get d "sequence" = .int n ∧ 0 ≤ n) ∧ OffsetsShape OUTPUT_CHUNK_MAX_BYTES d ∧
      LoneText (Json.get d "value"))

end Shapes

/-! ## What a check returns -/

theorem requireBounded_iff {limit : ℕ} {msg : PyStr} {v : Json} {s : PyStr} :
    requireBounded limit msg v = .ok s ↔ v = .str s ∧ Bounded limit s := by
  simp only [requireBounded_eq_ok, utf8ByteLength_eq_ok, Bounded]
  constructor
  · intro ⟨hv, n, ⟨hclean, hn⟩, hle⟩
    exact ⟨hv, hclean, hn ▸ hle⟩
  · intro ⟨hv, hclean, hle⟩
    exact ⟨hv, _, ⟨hclean, rfl⟩, hle⟩

theorem requireBounded_ok {limit : ℕ} {msg : PyStr} {v : Json} :
    (∃ s, requireBounded limit msg v = .ok s) ↔ BoundedText limit v := by
  simp only [requireBounded_iff, BoundedText]

theorem parseServer_ok {v : Json} : (∃ s, parseServer v = .ok s) ↔ ServerShape v := by
  simp only [parseServer_eq_ok, ServerShape]

theorem parseRequest_ok {v : Json} : (∃ r, parseRequest v = .ok r) ↔ RequestShape v := by
  cases v with
  | obj raw =>
    simp only [parseRequest, except_bind_eq_ok, refuseIf_eq_ok, Bool.or_eq_false_iff,
      validateCwd_eq_ok, parseProcess_eq_ok, pure, Except.pure, Except.ok.injEq, RequestShape,
      Json.obj.injEq]
    constructor
    · intro ⟨_, _, ⟨hcommand, hargs⟩, cwd, hcwd, parts, hparts, _⟩
      exact ⟨raw, rfl, hcommand, hargs, ⟨cwd, hcwd⟩, parts, hparts⟩
    · intro ⟨_, heq, hcommand, hargs, ⟨cwd, hcwd⟩, parts, hparts⟩
      subst heq
      exact ⟨_, (), ⟨hcommand, hargs⟩, cwd, hcwd, parts, hparts, rfl⟩
  | null | bool _ | int _ | float _ | str _ | arr _ => simp [parseRequest, refuse, RequestShape]

theorem parseStatus_eq_ok {v : Json} {status : PyStr} : parseStatus v = .ok status ↔
    ∃ raw, v = .obj raw ∧ Json.get raw "status" = .str status ∧ status ∈ KNOWN_STATUSES := by
  cases v with
  | obj raw =>
    simp only [parseStatus, Json.obj.injEq, exists_eq_left']
    cases Json.get raw "status" with
    | str s =>
      simp only [Json.str.injEq]
      by_cases h : s ∈ KNOWN_STATUSES
      · rw [if_pos h, Except.ok.injEq]
        exact ⟨fun heq => ⟨heq, heq ▸ h⟩, fun heq => heq.1⟩
      · rw [if_neg h]
        constructor
        · intro heq
          cases heq
        · intro ⟨heq, hmem⟩
          exact absurd (heq ▸ hmem) h
    | null | bool _ | int _ | float _ | arr _ | obj _ => simp [refuse]
  | null | bool _ | int _ | float _ | str _ | arr _ => simp [parseStatus, refuse]

theorem parseStatus_ok {v : Json} : (∃ status, parseStatus v = .ok status) ↔ StateShape v := by
  simp only [parseStatus_eq_ok, StateShape]
  exact exists_comm

theorem validateStream_ok {v : Json} {u : Unit} :
    validateStream v = .ok u ↔ ∃ stream ∈ CHUNK_STREAMS, v = .str stream := by
  rw [validateStream, refuseIf_eq_ok, Bool.not_eq_false', List.any_eq_true]
  apply exists_congr
  intro stream
  rw [and_congr_right_iff]
  intro _
  cases v with
  | str s => simp [Json.eqStr]
  | null | bool _ | int _ | float _ | arr _ | obj _ => simp [Json.eqStr]

section Parsers

variable {UUID : PyStr → Option Uuid}

theorem parseUuid_eq_some {v : Json} {u : Uuid} :
    parseUuid UUID v = .ok (some u) ↔ ∃ s, v = .str s ∧ UUID s = some u := by
  cases v with
  | str s =>
    rw [parseUuid]
    cases h : UUID s with
    | none => simp [refuse, h]
    | some u' => simp [h]
  | null | bool _ | int _ | float _ | arr _ | obj _ => simp [parseUuid, refuse]

theorem parseUuid_ok {v : Json} : (∃ u, parseUuid UUID v = .ok u) ↔ UuidShape UUID v := by
  cases v with
  | str s =>
    rw [UuidShape]
    cases h : UUID s with
    | none => simp [parseUuid, refuse, h]
    | some u => simp [parseUuid, h]
  | null => simp [parseUuid, UuidShape]
  | bool _ | int _ | float _ | arr _ | obj _ => simp [parseUuid, refuse, UuidShape]

theorem parseOptionalWindow_ok {v : Json} :
    (∃ w, parseOptionalWindow UUID v = .ok w) ↔ WindowShape UUID v := by
  cases v with
  | null => simp [parseOptionalWindow, WindowShape]
  | obj raw =>
    have hmap : (∃ w, parseOptionalWindow UUID (.obj raw) = .ok w) ↔
        ∃ w, parseWindow UUID (.obj raw) = .ok w := by
      rw [parseOptionalWindow]
      · cases parseWindow UUID (.obj raw) with
        | ok w => simp [Except.map]
        | error exc => simp [Except.map]
      · intro h
        cases h
    rw [hmap, WindowShape]
    simp only [parseWindow_obj_eq_ok, reduceCtorEq, Json.obj.injEq, exists_eq_left', false_or]
    rw [← requireBounded_ok, ← parseUuid_ok, OffsetsShape]
    constructor
    · rintro ⟨w, htail, hstart, hstop, hoff, hprevious⟩
      exact ⟨⟨_, htail⟩, ⟨_, _, hstart, hstop, hoff⟩, ⟨_, hprevious⟩⟩
    · rintro ⟨⟨tail, htail⟩, ⟨start, stop, hstart, hstop, hoff⟩, ⟨previous, hprevious⟩⟩
      exact ⟨⟨tail, start, stop, previous⟩, htail, hstart, hstop, hoff, hprevious⟩
  | bool _ | int _ | float _ | str _ | arr _ =>
    simp [parseOptionalWindow, parseWindow, refuse, Except.map, WindowShape]

theorem parseOutputSection_ok {v : Json} :
    (∃ o, parseOutputSection UUID v = .ok o) ↔ OutputShape UUID v := by
  cases v with
  | null => simp [parseOutputSection, OutputShape]
  | obj raw =>
    simp only [parseOutputSection, except_bind_eq_ok, pure, Except.pure, Except.ok.injEq,
      OutputShape, reduceCtorEq, Json.obj.injEq, exists_eq_left', false_or]
    rw [← parseOptionalWindow_ok, ← parseOptionalWindow_ok]
    constructor
    · intro ⟨_, stdout, hout, stderr, herr, _⟩
      exact ⟨⟨stdout, hout⟩, stderr, herr⟩
    · intro ⟨⟨stdout, hout⟩, stderr, herr⟩
      exact ⟨_, stdout, hout, stderr, herr, rfl⟩
  | bool _ | int _ | float _ | str _ | arr _ => simp [parseOutputSection, refuse, OutputShape]

/-! ## What a check raises -/

@[simp] theorem refuse_throws {α : Type} {msg : PyStr} :
    ¬ Throws Raised.Escapes (refuse msg : Except Raised α) := id

@[simp] theorem refuseIf_throws {refused : Bool} {msg : PyStr} :
    ¬ Throws Raised.Escapes (refuseIf refused msg) := by
  cases refused with
  | false => exact id
  | true => exact id

@[simp] theorem utf8ByteLength_throws {s : PyStr} :
    Throws Raised.Escapes (utf8ByteLength s) ↔ ∃ c ∈ s, c.isHigh = true ∨ c.isLow = true := by
  rw [utf8ByteLength]
  by_cases h : (s.any fun c => c.isHigh || c.isLow) = true
  · rw [if_pos h]
    simpa [Raised.Escapes] using h
  · rw [if_neg h]
    simpa using h

@[simp] theorem requireInt_throws {msg : PyStr} {v : Json} :
    ¬ Throws Raised.Escapes (requireInt msg v) := by
  cases v <;> exact id

@[simp] theorem requireNote_throws {msg : PyStr} {v : Json} :
    ¬ Throws Raised.Escapes (requireNote msg v) := by
  cases v <;> exact id

@[simp] theorem requireBounded_throws {limit : ℕ} {msg : PyStr} {v : Json} :
    Throws Raised.Escapes (requireBounded limit msg v) ↔ LoneText v := by
  cases v with
  | str s => simp [requireBounded, LoneText]
  | null | bool _ | int _ | float _ | arr _ | obj _ => simp [requireBounded, LoneText]

@[simp] theorem parseServer_throws {v : Json} : ¬ Throws Raised.Escapes (parseServer v) := by
  cases v with
  | str s =>
    rw [parseServer]
    split_ifs <;> exact id
  | null | bool _ | int _ | float _ | arr _ | obj _ => exact id

@[simp] theorem validateCwd_throws {v : Json} : ¬ Throws Raised.Escapes (validateCwd v) := by
  cases v with
  | str s =>
    rw [validateCwd]
    split_ifs <;> exact id
  | null | bool _ | int _ | float _ | arr _ | obj _ => exact id

@[simp] theorem parseProcess_throws {v : Json} : ¬ Throws Raised.Escapes (parseProcess v) := by
  cases v with
  | arr items =>
    rw [parseProcess]
    split_ifs
    · exact id
    · cases items.mapM argvPart? <;> exact id
  | null | bool _ | int _ | float _ | str _ | obj _ => exact id

@[simp] theorem parseRequest_throws {v : Json} : ¬ Throws Raised.Escapes (parseRequest v) := by
  cases v with
  | obj raw => simp [parseRequest]
  | null | bool _ | int _ | float _ | str _ | arr _ => exact id

@[simp] theorem parseStatus_throws {v : Json} : ¬ Throws Raised.Escapes (parseStatus v) := by
  cases v with
  | obj raw =>
    rw [parseStatus]
    cases Json.get raw "status" with
    | str s =>
      show ¬ Throws Raised.Escapes (if s ∈ KNOWN_STATUSES then _ else _)
      split_ifs <;> exact id
    | null | bool _ | int _ | float _ | arr _ | obj _ => exact id
  | null | bool _ | int _ | float _ | str _ | arr _ => exact id

@[simp] theorem parseUuid_throws {v : Json} : ¬ Throws Raised.Escapes (parseUuid UUID v) := by
  cases v with
  | str s =>
    rw [parseUuid]
    cases UUID s <;> exact id
  | null | bool _ | int _ | float _ | arr _ | obj _ => exact id

@[simp] theorem validateOffsets_throws {start stop : PyInt} :
    ¬ Throws Raised.Escapes (validateOffsets start stop) := by
  simp [validateOffsets]

@[simp] theorem validateStream_throws {v : Json} : ¬ Throws Raised.Escapes (validateStream v) := by
  simp [validateStream]

@[simp] theorem parseSequence_throws {v : Json} : ¬ Throws Raised.Escapes (parseSequence v) := by
  simp [parseSequence]

@[simp] theorem parseExitCode_throws {v : Json} : ¬ Throws Raised.Escapes (parseExitCode v) := by
  cases v <;> exact id

/-! ## What a parser raises -/

theorem parseWindow_throws {v : Json} :
    Throws Raised.Escapes (parseWindow UUID v) ↔ WindowEscapes v := by
  cases v with
  | obj raw => simp [parseWindow, WindowEscapes]
  | null | bool _ | int _ | float _ | str _ | arr _ => simp [parseWindow, WindowEscapes]

theorem parseOptionalWindow_throws {v : Json} :
    Throws Raised.Escapes (parseOptionalWindow UUID v) ↔ WindowEscapes v := by
  cases v with
  | null => simp [parseOptionalWindow, WindowEscapes]
  | obj _ | bool _ | int _ | float _ | str _ | arr _ =>
    simp [parseOptionalWindow, parseWindow_throws]

theorem parseOutputSection_throws {v : Json} :
    Throws Raised.Escapes (parseOutputSection UUID v) ↔ OutputEscapes UUID v := by
  cases v with
  | obj raw =>
    simp [parseOutputSection, OutputEscapes, parseOptionalWindow_throws, ← parseOptionalWindow_ok]
  | null | bool _ | int _ | float _ | str _ | arr _ => simp [parseOutputSection, OutputEscapes]

theorem parseResult_throws {v : Json} :
    Throws Raised.Escapes (parseResult v) ↔ ResultEscapes v := by
  cases v with
  | obj raw =>
    simp [parseResult, ResultEscapes, requireBounded_ok]
  | null | bool _ | int _ | float _ | str _ | arr _ => simp [parseResult, ResultEscapes]

theorem parseType_throws {v : Json} : Throws Raised.Escapes (parseType v) ↔ Unhashable v := by
  cases v with
  | str s =>
    rw [parseType]
    split_ifs <;> simp [Unhashable]
  | arr _ | obj _ => simp [parseType, Unhashable, Raised.Escapes]
  | null | bool _ | int _ | float _ => simp [parseType, Unhashable]

theorem parseVersionAndType_throws {d : List (PyStr × Json)} :
    Throws Raised.Escapes (parseVersionAndType d) ↔
      Json.get d "v" = .int CURRENT_PROTOCOL_VERSION ∧ Unhashable (Json.get d "type") := by
  simp only [parseVersionAndType, throws_bind, requireInt_throws, requireInt_eq_ok, false_or]
  constructor
  · rintro ⟨n, hn, hrest⟩
    cases hd : unsupportedVersionDiagnostic n with
    | none =>
      obtain rfl := unsupportedVersionDiagnostic_eq_none.1 hd
      rw [hd] at hrest
      simpa [hn, parseType_throws, PROTOCOL_VERSION, CURRENT_PROTOCOL_VERSION] using hrest
    | some msg =>
      rw [hd] at hrest
      cases hrest
  · rintro ⟨hv, htype⟩
    have hsupported : unsupportedVersionDiagnostic CURRENT_PROTOCOL_VERSION = none :=
      unsupportedVersionDiagnostic_eq_none.2 rfl
    refine ⟨_, hv, ?_⟩
    rw [hsupported]
    simpa [parseType_throws] using htype

theorem decodePayload_obj {v : Json} {d : List (PyStr × Json)} :
    decodePayload (.decoded v) = .ok d ↔ v = .obj d := by
  cases v <;> simp [decodePayload, refuse, pure, Except.pure, bind, Except.bind]

theorem decodePayload_throws {v : Json} : ¬ Throws Raised.Escapes (decodePayload (.decoded v)) := by
  cases v <;> exact id

/-- **The jobs on which `parse_payload` raises another exception.** -/
theorem parsePayload_throws {v : Json} :
    Throws Raised.Escapes (parsePayload UUID (.decoded v)) ↔
      ∃ d, v = .obj d ∧ CommandEscapes UUID d := by
  simp only [parsePayload, throws_bind, decodePayload_throws, decodePayload_obj, false_or,
    parseVersionAndType_throws, refuseIf_throws, parseServer_throws, parseRequest_throws,
    parseStatus_throws, parseOutputSection_throws, parseResult_throws, throws_pure, and_false,
    exists_false, or_false, parseVersionAndType_eq_ok, refuseIf_eq_ok, decide_eq_false_iff_not,
    not_not]
  apply exists_congr
  intro d
  rw [and_congr_right_iff, CommandEscapes, ← parseServer_ok, ← parseRequest_ok, ← parseStatus_ok,
    ← parseOutputSection_ok]
  intro _
  constructor
  · intro h
    rcases h with ⟨hv, hunhashable⟩ | ⟨vt, ⟨hv, _, htype, _⟩, _, hcommand, server, hserver, request,
      hrequest, status, hstatus, hrest⟩
    · exact ⟨hv, .inl hunhashable⟩
    · refine ⟨hv, .inr ⟨hcommand ▸ htype, ⟨server, hserver⟩, ⟨request, hrequest⟩,
        ⟨status, hstatus⟩, ?_⟩⟩
      rcases hrest with h | ⟨output, houtput, h⟩
      · exact .inl h
      · exact .inr ⟨⟨output, houtput⟩, h⟩
  · rintro ⟨hv, h⟩
    rcases h with hunhashable | ⟨htype, ⟨server, hserver⟩, ⟨request, hrequest⟩, ⟨status, hstatus⟩,
      hrest⟩
    · exact .inl ⟨hv, hunhashable⟩
    · refine .inr ⟨(PROTOCOL_VERSION, JOB_TYPE_COMMAND), ⟨hv, rfl, htype, by decide⟩, (), rfl,
        server, hserver, request, hrequest, status, hstatus, ?_⟩
      rcases hrest with h | ⟨⟨output, houtput⟩, h⟩
      · exact .inl h
      · exact .inr ⟨output, houtput, h⟩

/-- **The chunks on which `parse_chunk_payload` raises another exception.** -/
theorem parseChunkPayload_throws {v : Json} :
    Throws Raised.Escapes (parseChunkPayload UUID (.decoded v)) ↔
      ∃ d, v = .obj d ∧ ChunkEscapes UUID d := by
  simp only [parseChunkPayload, throws_bind, decodePayload_throws, decodePayload_obj, false_or,
    parseVersionAndType_throws, refuseIf_throws, parseUuid_throws, parseVersionAndType_eq_ok,
    refuseIf_eq_ok, decide_eq_false_iff_not, not_not]
  apply exists_congr
  intro d
  rw [and_congr_right_iff, ChunkEscapes]
  intro _
  constructor
  · intro h
    rcases h with ⟨hv, hunhashable⟩ | ⟨vt, ⟨hv, _, htype, _⟩, _, hchunk, thread, hthread, hrest⟩
    · exact ⟨hv, .inl hunhashable⟩
    · cases thread with
      | none => cases hrest
      | some u =>
        simp only [throws_bind, validateStream_throws, validateStream_ok, parseSequence_throws,
          parseSequence_eq_ok, requireInt_throws, requireInt_eq_ok, validateOffsets_throws,
          validateOffsets_eq_ok, refuseIf_throws, refuseIf_eq_ok, requireBounded_throws,
          parseUuid_throws, parseServer_throws, throws_pure, decide_eq_false_iff_not, not_lt,
          false_or, and_false, exists_false, or_false] at hrest
        obtain ⟨_, hstream, n, hseq, start, hstart, stop, hstop, _, hoff, _, hspan, hlone⟩ := hrest
        obtain ⟨s, hs⟩ := parseUuid_eq_some.1 hthread
        exact ⟨hv, .inr ⟨hchunk ▸ htype, ⟨s, u, hs⟩, hstream, ⟨n, hseq⟩,
          ⟨start, stop, hstart, hstop, hoff.1, hoff.2, hspan⟩, hlone⟩⟩
  · rintro ⟨hv, h⟩
    rcases h with hunhashable | ⟨htype, ⟨s, u, hs⟩, hstream, ⟨n, hseq⟩,
      ⟨start, stop, hstart, hstop, hpos, hle, hspan⟩, hlone⟩
    · exact .inl ⟨hv, hunhashable⟩
    · refine .inr ⟨(PROTOCOL_VERSION, JOB_TYPE_OUTPUT_CHUNK), ⟨hv, rfl, htype, by decide⟩, (), rfl,
        some u, parseUuid_eq_some.2 ⟨s, hs⟩, ?_⟩
      simp only [throws_bind, validateStream_throws, validateStream_ok, parseSequence_throws,
        parseSequence_eq_ok, requireInt_throws, requireInt_eq_ok, validateOffsets_throws,
        validateOffsets_eq_ok, refuseIf_throws, refuseIf_eq_ok, requireBounded_throws,
        parseUuid_throws, parseServer_throws, throws_pure, decide_eq_false_iff_not, not_lt,
        false_or, and_false, exists_false, or_false]
      exact ⟨(), hstream, n, hseq, start, hstart, stop, hstop, (), ⟨hpos, hle⟩, (), hspan, hlone⟩

/-! ## Valid values -/

structure OutputWindow.Valid (w : OutputWindow) : Prop where
  tail : Bounded OUTPUT_TAIL_MAX_BYTES w.tail
  offsets : 0 ≤ w.start ∧ w.start ≤ w.stop ∧ w.stop - w.start ≤ OUTPUT_TAIL_MAX_BYTES

structure JobPayload.Valid (p : JobPayload) : Prop where
  version : p.version = CURRENT_PROTOCOL_VERSION
  type : p.type = JOB_TYPE_COMMAND
  server : p.server ≠ []
  cwd : p.request.cwd.head? = some (CodePoint.ofChar '/')
  process : p.request.process ≠ [] ∧ ∀ part ∈ p.request.process, part ≠ []
  status : p.status ∈ KNOWN_STATUSES
  output : ∀ o ∈ p.output, (∀ w ∈ o.stdout, w.Valid) ∧ ∀ w ∈ o.stderr, w.Valid
  result : ∀ r ∈ p.result,
    Bounded OUTPUT_TAIL_MAX_BYTES r.stdout ∧ Bounded OUTPUT_TAIL_MAX_BYTES r.stderr

structure OutputChunk.Valid (c : OutputChunk) : Prop where
  server : c.server ≠ []
  stream : c.stream ∈ CHUNK_STREAMS
  sequence : 0 ≤ c.sequence
  offsets : 0 ≤ c.start ∧ c.start ≤ c.stop ∧ c.stop - c.start ≤ OUTPUT_CHUNK_MAX_BYTES
  value : Bounded OUTPUT_CHUNK_MAX_BYTES c.value

theorem parseOptionalWindow_valid {v : Json} {window : Option OutputWindow}
    (h : parseOptionalWindow UUID v = .ok window) : ∀ w ∈ window, w.Valid := by
  intro w hw
  obtain rfl := Option.mem_def.1 hw
  cases v with
  | obj raw =>
    have hparsed : parseWindow UUID (.obj raw) = .ok w := by
      cases hp : parseWindow UUID (.obj raw) with
      | ok w' =>
        simp only [parseOptionalWindow, hp, Except.map, Except.ok.injEq, Option.some.injEq] at h
        rw [h]
      | error exc => simp [parseOptionalWindow, hp, Except.map] at h
    obtain ⟨htail, -, -, hoff, -⟩ := parseWindow_obj_eq_ok.1 hparsed
    exact ⟨(requireBounded_iff.1 htail).2, hoff⟩
  | null => simp [parseOptionalWindow] at h
  | bool _ | int _ | float _ | str _ | arr _ =>
    simp [parseOptionalWindow, parseWindow, refuse, Except.map] at h

theorem parseOutputSection_valid {v : Json} {section_ : Option OutputSection}
    (h : parseOutputSection UUID v = .ok section_) :
    ∀ o ∈ section_, (∀ w ∈ o.stdout, w.Valid) ∧ ∀ w ∈ o.stderr, w.Valid := by
  intro o ho
  obtain rfl := Option.mem_def.1 ho
  cases v with
  | obj raw =>
    simp only [parseOutputSection, except_bind_eq_ok, pure, Except.pure, Except.ok.injEq,
      Option.some.injEq] at h
    obtain ⟨stdout, hout, stderr, herr, rfl⟩ := h
    exact ⟨parseOptionalWindow_valid hout, parseOptionalWindow_valid herr⟩
  | null => simp [parseOutputSection] at h
  | bool _ | int _ | float _ | str _ | arr _ => simp [parseOutputSection, refuse] at h

theorem parseResult_valid {v : Json} {result : Option ResultView}
    (h : parseResult v = .ok result) : ∀ r ∈ result,
      Bounded OUTPUT_TAIL_MAX_BYTES r.stdout ∧ Bounded OUTPUT_TAIL_MAX_BYTES r.stderr := by
  intro r hr
  obtain rfl := Option.mem_def.1 hr
  cases v with
  | obj raw =>
    simp only [parseResult, except_bind_eq_ok, requireBounded_iff, pure, Except.pure,
      Except.ok.injEq, Option.some.injEq] at h
    obtain ⟨stdout, hout, stderr, herr, _, _, _, _, _, _, rfl⟩ := h
    exact ⟨hout.2, herr.2⟩
  | null => simp [parseResult] at h
  | bool _ | int _ | float _ | str _ | arr _ => simp [parseResult, refuse] at h

theorem parsePayload_valid {data : Stored} {p : JobPayload} (h : parsePayload UUID data = .ok p) :
    p.Valid := by
  obtain ⟨d, -, -, hversion, -, htype, hserver, hrequest, hstatus, houtput, hresult⟩ :=
    parsePayload_eq_ok.1 h
  obtain ⟨_, -, -, hknown⟩ := parseStatus_eq_ok.1 hstatus
  cases hd : Json.get d "request" with
  | obj raw =>
    simp only [hd, parseRequest, except_bind_eq_ok, validateCwd_eq_ok, parseProcess_eq_ok, pure,
      Except.pure, Except.ok.injEq] at hrequest
    obtain ⟨_, _, cwd, hcwd, parts, hparts, hrequest⟩ := hrequest
    have hcwd_eq : cwd = p.request.cwd := congrArg JobRequest.cwd hrequest
    have hparts_eq : parts = p.request.process := congrArg JobRequest.process hrequest
    exact {
      version := hversion
      type := htype
      server := (parseServer_eq_ok.1 hserver).2
      cwd := hcwd_eq ▸ hcwd.2
      process := hparts_eq ▸ hparts.2
      status := hknown
      output := parseOutputSection_valid houtput
      result := parseResult_valid hresult }
  | null | bool _ | int _ | float _ | str _ | arr _ => simp [hd, parseRequest, refuse] at hrequest

theorem parseChunkPayload_valid {data : Stored} {c : OutputChunk}
    (h : parseChunkPayload UUID data = .ok c) : c.Valid := by
  obtain ⟨d, -, -, -, -, hstream, hname, hsequence, -, -, hoff, hvalue, -, hserver⟩ :=
    parseChunkPayload_eq_ok.1 h
  obtain ⟨stream, hmem, hraw⟩ := validateStream_ok.1 hstream
  rw [hraw, streamName] at hname
  exact {
    server := (parseServer_eq_ok.1 hserver).2
    stream := hname ▸ hmem
    sequence := (parseSequence_eq_ok.1 hsequence).2
    offsets := hoff
    value := (requireBounded_iff.1 hvalue).2 }

end Parsers

/-! ## The calls -/

/-- What `json.loads` raises: on a malformed text, or on one beyond a limit of the interpreter. -/
inductive LoadsError where
  | jsonDecodeError
  | recursionError
  | valueError
  deriving DecidableEq

/-- What a call raises: an exception of the parser, or of `json.loads`. -/
inductive Thrown where
  | raised (exc : Raised)
  | loads (exc : LoadsError)
  deriving DecidableEq

section Calls

variable {α : Type} (jsonLoads : PyStr → Except LoadsError Json)

/-- A parser called on any value: `_decode_payload` decodes a text once. -/
def onArgument (parse : Stored → Except Raised α) : Json → Except Thrown α
  | .str t =>
    match jsonLoads t with
    | .ok value => (parse (.decoded value)).mapError .raised
    | .error .jsonDecodeError =>
      .error (.raised (.protocolError "payload is not valid JSON: "))
    | .error exc => .error (.loads exc)
  | value => (parse (.decoded value)).mapError .raised

/-- A valid value is returned, or `ProtocolError` is raised. -/
def Total (valid : α → Prop) : Except Thrown α → Prop
  | .ok a => valid a
  | .error exc => ∃ msg, exc = .raised (.protocolError msg)

/-- `json.loads` raises an exception that `_decode_payload` does not handle. -/
def GivesUp (data : Json) : Prop :=
  ∃ t exc, data = .str t ∧ jsonLoads t = .error exc ∧ exc ≠ .jsonDecodeError

/-- The mapping that an argument is, or is the text of. -/
def Decodes (data : Json) (d : List (PyStr × Json)) : Prop :=
  data = .obj d ∨ ∃ t, data = .str t ∧ jsonLoads t = .ok (.obj d)

variable {jsonLoads}

theorem total_mapError {valid : α → Prop} {x : Except Raised α}
    (hvalid : ∀ a, x = .ok a → valid a) :
    Total valid (x.mapError .raised) ↔ ¬ Throws Raised.Escapes x := by
  cases x with
  | ok a => simpa [Total, Except.mapError] using hvalid a rfl
  | error exc => cases exc <;> simp [Total, Except.mapError, Raised.Escapes]

/-- A parser whose values are valid, and the mappings on which it raises another exception. -/
theorem total_onArgument {parse : Stored → Except Raised α} {valid : α → Prop}
    {escapes : List (PyStr × Json) → Prop} (hvalid : ∀ data a, parse data = .ok a → valid a)
    (hescapes : ∀ v, Throws Raised.Escapes (parse (.decoded v)) ↔ ∃ d, v = .obj d ∧ escapes d)
    (data : Json) : Total valid (onArgument jsonLoads parse data) ↔
      ¬ GivesUp jsonLoads data ∧ ∀ d, Decodes jsonLoads data d → ¬ escapes d := by
  cases data with
  | str t =>
    rw [onArgument]
    cases h : jsonLoads t with
    | ok value =>
      show Total valid ((parse (.decoded value)).mapError .raised) ↔ _
      rw [total_mapError (hvalid _), hescapes]
      simp [GivesUp, Decodes, h]
    | error exc => cases exc <;> simp [Total, GivesUp, Decodes, h]
  | null | bool _ | int _ | float _ | arr _ | obj _ =>
    rw [onArgument, total_mapError (hvalid _), hescapes]
    · simp [GivesUp, Decodes]
    · intro t heq
      cases heq

end Calls

/-! ## A job whose type is a list -/

/-- `json.loads` without limits, on a text without surrogates. -/
def unlimitedLoads (t : PyStr) : Except LoadsError Json :=
  if t.any fun c => c.isHigh || c.isLow then .error .jsonDecodeError
  else
    match loads (t.map fun c => Char.ofNat c.val) with
    | some value => .ok value
    | none => .error .jsonDecodeError

/-- On a text, the call decodes as the parser of the text does. -/
theorem onArgument_text (UUID : PyStr → Option Uuid) (t : List Char) :
    onArgument unlimitedLoads (parsePayload UUID) (.str (t.map CodePoint.ofChar)) =
      (parsePayload UUID (.text t)).mapError .raised := by
  have hclean : ((t.map CodePoint.ofChar).any fun c => c.isHigh || c.isLow) = false := by
    rw [List.any_eq_false]
    intro c hc
    obtain ⟨a, -, rfl⟩ := List.mem_map.1 hc
    have hvalid : a.toNat < 0xd800 ∨ 0xdfff < a.toNat ∧ a.toNat < 0x110000 := a.valid
    rw [Bool.or_eq_true, CodePoint.isHigh_iff, CodePoint.isLow_iff]
    show ¬ (0xd800 ≤ a.toNat ∧ a.toNat ≤ 0xdbff ∨ 0xdc00 ≤ a.toNat ∧ a.toNat ≤ 0xdfff)
    omega
  have hchars : (t.map CodePoint.ofChar).map (fun c => Char.ofNat c.val) = t := by
    rw [List.map_map]
    exact (List.map_congr_left fun a _ => Char.ofNat_toNat a).trans (List.map_id t)
  have hloads : unlimitedLoads (t.map CodePoint.ofChar) = match loads t with
      | some value => .ok value
      | none => .error .jsonDecodeError := by
    rw [unlimitedLoads, hclean, hchars]
    rfl
  rw [onArgument, hloads]
  cases h : loads t with
  | none =>
    simp only [parsePayload, decodePayload, h]
    rfl
  | some value =>
    simp only [parsePayload, decodePayload, h]

/-- The text of a job of the current version with a list for its type. -/
def unhashableJob : List Char := dumps (.obj [entry "v" (.int 4), entry "type" (.arr [])])

end Lubko.Protocol
