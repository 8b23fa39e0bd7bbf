import Lubko.Protocol.Payload

/-!
# Payloads are read back

A builder and the parser of its payload check the same fields on their own. Every check has one lemma
that says what it accepts, and a payload that was built is read back by putting the two sides
together. A builder takes any positive version; the parsers take only the current one.

* `parsePayload_eq_ok`, `parseChunkPayload_eq_ok` — what a parser accepts.
* `payload_codec` — what was built for the current version is read back exactly, and refused for any
  other.
-/

namespace Lubko.Protocol

open Lubko.Lib

/-! ## What a check accepts -/

theorem refuseIf_eq_ok {refused : Bool} {msg : PyStr} {u : Unit} :
    refuseIf refused msg = .ok u ↔ refused = false := by
  cases refused with
  | false => simp [refuseIf]
  | true => simp [refuseIf, refuse]

theorem utf8ByteLength_eq_ok {text : PyStr} {n : ℕ} : utf8ByteLength text = .ok n ↔
    (∀ c ∈ text, c.isHigh = false ∧ c.isLow = false) ∧ text.utf8ByteLength = n := by
  rw [utf8ByteLength]
  split_ifs with h
  · obtain ⟨c, hc, hsur⟩ := List.any_eq_true.1 h
    constructor
    · intro heq
      cases heq
    · intro heq
      simp [(heq.1 c hc).1, (heq.1 c hc).2] at hsur
  · have hclean : ∀ c ∈ text, c.isHigh = false ∧ c.isLow = false := by simpa using h
    rw [Except.ok.injEq]
    exact ⟨fun heq => ⟨hclean, heq⟩, fun heq => heq.2⟩

theorem requireInt_eq_ok {msg : PyStr} {value : Json} {n : ℤ} :
    requireInt msg value = .ok n ↔ value = .int n := by
  cases value <;> simp [requireInt, refuse]

theorem requireBounded_eq_ok {limit : ℕ} {msg : PyStr} {value : Json} {s : PyStr} :
    requireBounded limit msg value = .ok s ↔
      value = .str s ∧ ∃ n, utf8ByteLength s = .ok n ∧ n ≤ limit := by
  cases value with
  | str t =>
    simp only [requireBounded, except_bind_eq_ok, refuseIf_eq_ok, decide_eq_false_iff_not, not_lt,
      pure, Except.pure, Except.ok.injEq, Json.str.injEq, exists_const]
    constructor
    · intro ⟨n, hn, hle, heq⟩
      exact ⟨heq, n, heq ▸ hn, hle⟩
    · intro ⟨heq, n, hn, hle⟩
      exact ⟨n, heq ▸ hn, hle, heq⟩
  | null | bool _ | int _ | float _ | arr _ | obj _ => simp [requireBounded, refuse]

theorem parseServer_eq_ok {value : Json} {s : PyStr} :
    parseServer value = .ok s ↔ value = .str s ∧ s ≠ [] := by
  cases value with
  | str t =>
    rw [parseServer]
    split_ifs with h
    · simp [refuse, h]
    · constructor
      · intro heq
        obtain rfl := Except.ok.inj heq
        exact ⟨rfl, h⟩
      · intro heq
        rw [Json.str.inj heq.1]
  | null | bool _ | int _ | float _ | arr _ | obj _ => simp [parseServer, refuse]

theorem validateCwd_eq_ok {value : Json} {s : PyStr} :
    validateCwd value = .ok s ↔ value = .str s ∧ s.head? = some (CodePoint.ofChar '/') := by
  cases value with
  | str t =>
    rw [validateCwd]
    split_ifs with hempty hhead
    · subst hempty
      constructor
      · intro heq
        cases heq
      · intro heq
        obtain rfl := Json.str.inj heq.1
        cases heq.2
    · constructor
      · intro heq
        cases heq
      · intro heq
        exact absurd (Json.str.inj heq.1 ▸ heq.2) hhead
    · constructor
      · intro heq
        obtain rfl := Except.ok.inj heq
        exact ⟨rfl, not_not.1 hhead⟩
      · intro heq
        rw [Json.str.inj heq.1]
  | null | bool _ | int _ | float _ | arr _ | obj _ => simp [validateCwd, refuse]

theorem mapM_argvPart? {items : List Json} {parts : List PyStr} :
    items.mapM argvPart? = some parts ↔ items = parts.map .str ∧ ∀ p ∈ parts, p ≠ [] := by
  induction items generalizing parts with
  | nil =>
    cases parts with
    | nil => simp
    | cons p ps => simp
  | cons v vs ih =>
    rw [List.mapM_cons]
    simp only [bind, Option.bind_eq_some_iff, pure, Option.some.injEq, ih]
    have hpart : ∀ p, argvPart? v = some p ↔ v = .str p ∧ p ≠ [] := by
      intro p
      cases v with
      | str t =>
        simp only [argvPart?, Json.str.injEq]
        by_cases h : t = []
        · simp only [h, if_true, reduceCtorEq, false_iff, not_and, not_not]
          exact fun heq => heq.symm
        · simp only [h, if_false, Option.some.injEq]
          exact ⟨fun heq => ⟨heq, heq ▸ h⟩, fun heq => heq.1⟩
      | null | bool _ | int _ | float _ | arr _ | obj _ => simp [argvPart?]
    constructor
    · intro ⟨p, hp, ps, ⟨hvs, hps⟩, heq⟩
      subst heq
      obtain ⟨hv, hne⟩ := (hpart p).1 hp
      exact ⟨by rw [hv, hvs, List.map_cons], List.forall_mem_cons.2 ⟨hne, hps⟩⟩
    · intro ⟨heq, hne⟩
      cases parts with
      | nil => cases heq
      | cons p ps =>
        rw [List.map_cons, List.cons.injEq] at heq
        rw [List.forall_mem_cons] at hne
        exact ⟨p, (hpart p).2 ⟨heq.1, hne.1⟩, ps, ⟨heq.2, hne.2⟩, rfl⟩

theorem parseProcess_eq_ok {value : Json} {parts : List PyStr} :
    parseProcess value = .ok parts ↔
      value = .arr (parts.map .str) ∧ parts ≠ [] ∧ ∀ p ∈ parts, p ≠ [] := by
  cases value with
  | arr items =>
    have hempty : items.isEmpty = false ↔ items ≠ [] := by simp
    rw [parseProcess, Json.arr.injEq]
    cases hm : items.mapM argvPart? with
    | none =>
      constructor
      · intro heq
        split_ifs at heq <;> cases heq
      · intro ⟨heq, _, hne⟩
        cases hm.symm.trans (mapM_argvPart?.2 ⟨heq, hne⟩)
    | some ps =>
      obtain ⟨hitems, hps⟩ := mapM_argvPart?.1 hm
      have hnil : items = [] ↔ ps = [] := by rw [hitems, List.map_eq_nil_iff]
      constructor
      · intro heq
        split_ifs at heq with h
        · cases heq
        · obtain rfl := Except.ok.inj heq
          exact ⟨hitems, fun hp => h (List.isEmpty_iff.2 (hnil.2 hp)), hps⟩
      · intro ⟨heq, hne, hall⟩
        obtain rfl := Option.some.inj (hm.symm.trans (mapM_argvPart?.2 ⟨heq, hall⟩))
        rw [hempty.2 (fun hi => hne (hnil.1 hi))]
        rfl
  | null | bool _ | int _ | float _ | str _ | obj _ => simp [parseProcess, refuse]

theorem validateOffsets_eq_ok {start stop : PyInt} {u : Unit} :
    validateOffsets start stop = .ok u ↔ 0 ≤ start.val ∧ start.val ≤ stop.val := by
  simp only [validateOffsets, except_bind_eq_ok, refuseIf_eq_ok, Bool.or_eq_false_iff,
    decide_eq_false_iff_not, not_lt, exists_const]
  omega

theorem checkVersion_eq_ok {version : Json} {n : ℤ} :
    checkVersion version = .ok n ↔ version = .int n ∧ 1 ≤ n := by
  simp only [checkVersion, except_bind_eq_ok, requireInt_eq_ok, refuseIf_eq_ok,
    decide_eq_false_iff_not, not_lt, pure, Except.pure, Except.ok.injEq, exists_const]
  constructor
  · intro ⟨m, hm, hle, heq⟩
    exact ⟨heq ▸ hm, heq ▸ hle⟩
  · intro ⟨hn, hle⟩
    exact ⟨n, hn, hle, rfl⟩

theorem parseSequence_eq_ok {raw : Json} {n : ℤ} :
    parseSequence raw = .ok n ↔ raw = .int n ∧ 0 ≤ n := by
  simp only [parseSequence, except_bind_eq_ok, requireInt_eq_ok, refuseIf_eq_ok,
    decide_eq_false_iff_not, not_lt, pure, Except.pure, Except.ok.injEq, exists_const]
  constructor
  · intro ⟨m, hm, hle, heq⟩
    exact ⟨heq ▸ hm, heq ▸ hle⟩
  · intro ⟨hn, hle⟩
    exact ⟨n, hn, hle, rfl⟩

theorem unsupportedVersionDiagnostic_eq_none {n : ℤ} :
    unsupportedVersionDiagnostic n = none ↔ n = PROTOCOL_VERSION := by
  rw [unsupportedVersionDiagnostic, versionSupported]
  by_cases h : n = CURRENT_PROTOCOL_VERSION
  · simp [h, CURRENT_PROTOCOL_VERSION, PROTOCOL_VERSION]
  · have hne : n ≠ PROTOCOL_VERSION := h
    by_cases hlt : n < CURRENT_PROTOCOL_VERSION
    · simp [h, hlt, hne]
    · simp [h, hlt, hne]

/-! ## What a parser accepts -/

theorem decodePayload_text {t : List Char} {members : List (PyStr × Json)}
    (h : loads t = some (.obj members)) : decodePayload (.text t) = .ok members := by
  rw [decodePayload, h]
  rfl

theorem parseType_eq_ok {raw : Json} {type : PyStr} :
    parseType raw = .ok type ↔ raw = .str type ∧ type ∈ KNOWN_JOB_TYPES := by
  cases raw with
  | str s =>
    rw [parseType]
    split_ifs with h
    · rw [Except.ok.injEq, Json.str.injEq]
      exact ⟨fun heq => ⟨heq, heq ▸ h⟩, fun heq => heq.1⟩
    · constructor
      · intro heq
        cases heq
      · intro heq
        exact absurd (Json.str.inj heq.1 ▸ heq.2) h
  | null | bool _ | int _ | float _ | arr _ | obj _ => simp [parseType, refuse]

theorem parseVersionAndType_eq_ok {data : List (PyStr × Json)} {p : ℤ × PyStr} :
    parseVersionAndType data = .ok p ↔
      Json.get data "v" = .int PROTOCOL_VERSION ∧ p.1 = PROTOCOL_VERSION ∧
        Json.get data "type" = .str p.2 ∧ p.2 ∈ KNOWN_JOB_TYPES := by
  simp only [parseVersionAndType, except_bind_eq_ok, requireInt_eq_ok]
  constructor
  · intro ⟨n, hn, hrest⟩
    cases hd : unsupportedVersionDiagnostic n with
    | none =>
      rw [hd] at hrest
      simp only [except_bind_eq_ok, parseType_eq_ok, pure, Except.pure, Except.ok.injEq] at hrest
      obtain ⟨type, htype, heq⟩ := hrest
      obtain rfl := unsupportedVersionDiagnostic_eq_none.1 hd
      subst heq
      exact ⟨hn, rfl, htype⟩
    | some msg =>
      rw [hd] at hrest
      cases hrest
  · intro ⟨hv, hp, htype⟩
    refine ⟨_, hv, ?_⟩
    rw [unsupportedVersionDiagnostic_eq_none.2 rfl]
    simp only [except_bind_eq_ok, parseType_eq_ok, pure, Except.pure, Except.ok.injEq]
    exact ⟨p.2, htype, by rw [← hp]⟩

/-- A version the build does not support is refused with its diagnostic. -/
theorem parseVersionAndType_of_unsupported {data : List (PyStr × Json)} {n : ℤ}
    (hv : Json.get data "v" = .int n) (hn : n ≠ PROTOCOL_VERSION) :
    ∃ msg, unsupportedVersionDiagnostic n = some msg ∧ parseVersionAndType data = refuse msg := by
  cases hd : unsupportedVersionDiagnostic n with
  | none => exact absurd (unsupportedVersionDiagnostic_eq_none.1 hd) hn
  | some msg =>
    refine ⟨msg, rfl, ?_⟩
    rw [parseVersionAndType, hv, requireInt]
    simp only [bind, Except.bind, hd]

section Parsers

variable {UUID : PyStr → Option Uuid}

/-- What `parse_payload` accepts. -/
theorem parsePayload_eq_ok {data : Stored} {p : JobPayload} : parsePayload UUID data = .ok p ↔
    ∃ d, decodePayload data = .ok d ∧ Json.get d "v" = .int PROTOCOL_VERSION ∧
      p.version = PROTOCOL_VERSION ∧ Json.get d "type" = .str JOB_TYPE_COMMAND ∧
      p.type = JOB_TYPE_COMMAND ∧ parseServer (Json.get d "server") = .ok p.server ∧
      parseRequest (Json.get d "request") = .ok p.request ∧
      parseStatus (Json.get d "state") = .ok p.status ∧
      parseOutputSection UUID (Json.get d "output") = .ok p.output ∧
      parseResult (Json.get d "result") = .ok p.result := by
  simp only [parsePayload, except_bind_eq_ok, parseVersionAndType_eq_ok, refuseIf_eq_ok,
    decide_eq_false_iff_not, not_not, pure, Except.pure, Except.ok.injEq]
  constructor
  · intro ⟨d, hd, vt, ⟨hv, hversion, htype, _⟩, _, hcommand, server, hserver, request, hrequest,
      status, hstatus, output, houtput, result, hresult, heq⟩
    subst heq
    exact ⟨d, hd, hv, hversion, hcommand ▸ htype, hcommand, hserver, hrequest, hstatus, houtput,
      hresult⟩
  · intro ⟨d, hd, hv, hversion, htype, hcommand, hserver, hrequest, hstatus, houtput, hresult⟩
    refine ⟨d, hd, (PROTOCOL_VERSION, JOB_TYPE_COMMAND), ⟨hv, rfl, htype, by decide⟩, (), rfl, _,
      hserver, _, hrequest, _, hstatus, _, houtput, _, hresult, ?_⟩
    rw [← hversion, ← hcommand]

/-- What `parse_chunk_payload` accepts. -/
theorem parseChunkPayload_eq_ok {data : Stored} {c : OutputChunk} :
    parseChunkPayload UUID data = .ok c ↔
      ∃ d, decodePayload data = .ok d ∧ Json.get d "v" = .int PROTOCOL_VERSION ∧
        Json.get d "type" = .str JOB_TYPE_OUTPUT_CHUNK ∧
        parseUuid UUID (Json.get d "thread") = .ok (some c.thread) ∧
        validateStream (Json.get d "stream") = .ok () ∧
        c.stream = streamName (Json.get d "stream") ∧
        parseSequence (Json.get d "sequence") = .ok c.sequence ∧
        Json.get d "start" = .int c.start ∧ Json.get d "end" = .int c.stop ∧
        (0 ≤ c.start ∧ c.start ≤ c.stop ∧ c.stop - c.start ≤ OUTPUT_CHUNK_MAX_BYTES) ∧
        requireBounded OUTPUT_CHUNK_MAX_BYTES
          "output_chunk.value must be a string of at most 2000 bytes" (Json.get d "value") =
            .ok c.value ∧
        parseUuid UUID (Json.get d "previous") = .ok c.previous ∧
        parseServer (Json.get d "server") = .ok c.server := by
  simp only [parseChunkPayload, except_bind_eq_ok, parseVersionAndType_eq_ok, refuseIf_eq_ok,
    decide_eq_false_iff_not, not_not]
  constructor
  · intro ⟨d, hd, vt, ⟨hv, _, htype, _⟩, _, hchunk, thread, hthread, hrest⟩
    cases thread with
    | none => cases hrest
    | some thread =>
      simp only [except_bind_eq_ok, requireInt_eq_ok, validateOffsets_eq_ok, refuseIf_eq_ok,
        decide_eq_false_iff_not, not_lt, pure, Except.pure, Except.ok.injEq] at hrest
      obtain ⟨_, hstream, sequence, hseq, start, hstart, stop, hstop, _, hoff, _, hspan, value,
        hvalue, previous, hprevious, server, hserver, heq⟩ := hrest
      subst heq
      exact ⟨d, hd, hv, hchunk ▸ htype, hthread, hstream, rfl, hseq, hstart, hstop,
        ⟨hoff.1, hoff.2, hspan⟩, hvalue, hprevious, hserver⟩
  · intro ⟨d, hd, hv, htype, hthread, hstream, hname, hseq, hstart, hstop, hoff, hvalue,
      hprevious, hserver⟩
    refine ⟨d, hd, (PROTOCOL_VERSION, JOB_TYPE_OUTPUT_CHUNK), ⟨hv, rfl, htype, by decide⟩, (), rfl,
      _, hthread, ?_⟩
    simp only [except_bind_eq_ok, requireInt_eq_ok, validateOffsets_eq_ok, refuseIf_eq_ok,
      decide_eq_false_iff_not, not_lt, pure, Except.pure, Except.ok.injEq]
    refine ⟨(), hstream, _, hseq, _, hstart, _, hstop, (), ⟨hoff.1, hoff.2.1⟩, (), hoff.2.2, _,
      hvalue, _, hprevious, _, hserver, ?_⟩
    rw [← hname]

/-- What `_parse_window` accepts. -/
theorem parseWindow_obj_eq_ok {raw : List (PyStr × Json)} {w : OutputWindow} :
    parseWindow UUID (.obj raw) = .ok w ↔
      requireBounded OUTPUT_TAIL_MAX_BYTES
        "output window tail must be a string of at most 4000 bytes" (Json.get raw "tail") =
          .ok w.tail ∧
      Json.get raw "start" = .int w.start ∧ Json.get raw "end" = .int w.stop ∧
      (0 ≤ w.start ∧ w.start ≤ w.stop ∧ w.stop - w.start ≤ OUTPUT_TAIL_MAX_BYTES) ∧
      parseUuid UUID (Json.get raw "previous") = .ok w.previous := by
  simp only [parseWindow, except_bind_eq_ok, requireInt_eq_ok, validateOffsets_eq_ok,
    refuseIf_eq_ok, decide_eq_false_iff_not, not_lt, pure, Except.pure, Except.ok.injEq]
  constructor
  · intro ⟨tail, htail, start, hstart, stop, hstop, _, hoff, _, hspan, previous, hprevious, heq⟩
    subst heq
    exact ⟨htail, hstart, hstop, ⟨hoff.1, hoff.2, hspan⟩, hprevious⟩
  · intro ⟨htail, hstart, hstop, hoff, hprevious⟩
    exact ⟨_, htail, _, hstart, _, hstop, (), ⟨hoff.1, hoff.2.1⟩, (), hoff.2.2, _, hprevious, rfl⟩

end Parsers

/-! ## What a builder returns -/

theorem buildPayload_eq_ok {server cwd : PyStr} {process : List PyStr} {version : Json}
    {m : List (PyStr × Json)} : buildPayload server cwd process version = .ok m ↔
      ∃ n, version = .int n ∧ 1 ≤ n ∧ server ≠ [] ∧ cwd.head? = some (CodePoint.ofChar '/') ∧
        process ≠ [] ∧ (∀ p ∈ process, p ≠ []) ∧
        m = [entry "v" (.int n), entry "type" (.str JOB_TYPE_COMMAND), entry "server" (.str server),
          entry "request" (.obj [entry "cwd" (.str cwd),
            entry "process" (.arr (process.map .str))]),
          entry "state" (.obj [entry "status" (.str STATUS_PENDING)])] := by
  have hstr : Function.Injective (Json.str) := fun _ _ h => Json.str.inj h
  simp only [buildPayload, except_bind_eq_ok, checkVersion_eq_ok, parseServer_eq_ok,
    validateCwd_eq_ok, parseProcess_eq_ok, pure, Except.pure, Except.ok.injEq, Json.str.injEq,
    Json.arr.injEq]
  constructor
  · intro ⟨n, ⟨hn, hle⟩, _, ⟨hs, hserver⟩, _, ⟨hc, hcwd⟩, parts, ⟨hp, hne, hall⟩, heq⟩
    subst hs hc heq
    obtain rfl := List.map_injective_iff.2 hstr hp
    exact ⟨n, hn, hle, hserver, hcwd, hne, hall, rfl⟩
  · intro ⟨n, hn, hle, hserver, hcwd, hne, hall, heq⟩
    exact ⟨n, ⟨hn, hle⟩, server, ⟨rfl, hserver⟩, cwd, ⟨rfl, hcwd⟩, process, ⟨rfl, hne, hall⟩,
      heq.symm⟩

theorem buildOutputWindowPayload_eq_ok {tail : PyStr} {start stop : PyInt} {previous : Option Uuid}
    {m : List (PyStr × Json)} : buildOutputWindowPayload tail start stop previous = .ok m ↔
      (∃ n, utf8ByteLength tail = .ok n ∧ n ≤ OUTPUT_TAIL_MAX_BYTES) ∧
        (0 ≤ start.val ∧ start.val ≤ stop.val ∧ stop.val - start.val ≤ OUTPUT_TAIL_MAX_BYTES) ∧
        m = [entry "tail" (.str tail), entry "start" start.toJson, entry "end" stop.toJson,
          entry "previous" (previousMember previous)] := by
  simp only [buildOutputWindowPayload, except_bind_eq_ok, refuseIf_eq_ok, validateOffsets_eq_ok,
    decide_eq_false_iff_not, not_lt, pure, Except.pure, Except.ok.injEq, exists_const]
  constructor
  · intro ⟨n, hn, hle, hoff, hspan, heq⟩
    exact ⟨⟨n, hn, hle⟩, ⟨hoff.1, hoff.2, hspan⟩, heq.symm⟩
  · intro ⟨⟨n, hn, hle⟩, ⟨hstart, hstop, hspan⟩, heq⟩
    exact ⟨n, hn, hle, ⟨hstart, hstop⟩, hspan, heq.symm⟩

theorem buildOutputChunkPayload_eq_ok {server : PyStr} {thread : Uuid} {stream : PyStr}
    {sequence start stop : PyInt} {value : PyStr} {previous : Option Uuid} {version : Json}
    {m : List (PyStr × Json)} :
    buildOutputChunkPayload server thread stream sequence start stop value previous version =
        .ok m ↔
      ∃ n, version = .int n ∧ 1 ≤ n ∧ server ≠ [] ∧ validateStream (.str stream) = .ok () ∧
        0 ≤ sequence.val ∧
        (∃ k, utf8ByteLength value = .ok k ∧ k ≤ OUTPUT_CHUNK_MAX_BYTES) ∧
        (0 ≤ start.val ∧ start.val ≤ stop.val ∧ stop.val - start.val ≤ OUTPUT_CHUNK_MAX_BYTES) ∧
        m = [entry "v" (.int n), entry "type" (.str JOB_TYPE_OUTPUT_CHUNK),
          entry "server" (.str server), entry "thread" (.str thread.text),
          entry "stream" (.str stream), entry "sequence" sequence.toJson,
          entry "start" start.toJson, entry "end" stop.toJson, entry "value" (.str value),
          entry "previous" (previousMember previous)] := by
  simp only [buildOutputChunkPayload, except_bind_eq_ok, refuseIf_eq_ok, validateOffsets_eq_ok,
    checkVersion_eq_ok, parseServer_eq_ok, decide_eq_false_iff_not, not_lt, pure, Except.pure,
    Except.ok.injEq, exists_const, Json.str.injEq]
  constructor
  · intro ⟨_, hstream, _, ⟨hs, hserver⟩, n, ⟨hn, hle⟩, hseq, k, hk, hsize, hoff, hspan, heq⟩
    subst hs
    exact ⟨n, hn, hle, hserver, hstream, hseq, ⟨k, hk, hsize⟩, ⟨hoff.1, hoff.2, hspan⟩, heq.symm⟩
  · intro ⟨n, hn, hle, hserver, hstream, hseq, ⟨k, hk, hsize⟩, ⟨hstart, hstop, hspan⟩, heq⟩
    exact ⟨(), hstream, server, ⟨rfl, hserver⟩, n, ⟨hn, hle⟩, hseq, k, hk, hsize, ⟨hstart, hstop⟩,
      hspan, heq.symm⟩

/-! ## Texts that round-trip -/

/-- A text that could be encoded has no surrogate pair. -/
theorem joined_of_utf8ByteLength {s : PyStr} {n : ℕ} (h : utf8ByteLength s = .ok n) :
    s.joinSurrogates = s :=
  PyStr.joinSurrogates_of_not_high fun c hc => ((utf8ByteLength_eq_ok.1 h).1 c hc).1

theorem joined_uuidText (u : Uuid) : u.text.joinSurrogates = u.text := by
  apply PyStr.joinSurrogates_of_not_high
  intro c hc
  have hdigit : ∀ d, (Uuid.hexDigit d).isHigh = false := by decide
  cases Uuid.mem_text hc with
  | inl h =>
    obtain ⟨d, rfl⟩ := h
    exact hdigit d
  | inr h =>
    subst h
    decide

theorem joined_stream {stream : PyStr} (h : validateStream (.str stream) = .ok ()) :
    stream.joinSurrogates = stream := by
  have hmem : stream ∈ CHUNK_STREAMS := by
    have hany := refuseIf_eq_ok.1 h
    simp only [Bool.not_eq_false', List.any_eq_true, Json.eqStr, decide_eq_true_eq] at hany
    obtain ⟨s, hs, rfl⟩ := hany
    exact hs
  have hall : ∀ s ∈ CHUNK_STREAMS, s.joinSurrogates = s := by decide
  exact hall stream hmem

theorem build_previousMember (previous : Option Uuid) :
    (previousMember previous).build = previousMember previous := by
  cases previous with
  | none => rfl
  | some u => rw [previousMember, Json.build, joined_uuidText]

theorem printable_previousMember (previous : Option Uuid) : (previousMember previous).Printable := by
  cases previous with
  | none => trivial
  | some u => trivial

theorem buildItems_str {parts : List PyStr} (h : ∀ p ∈ parts, p.joinSurrogates = p) :
    buildItems (parts.map .str) = parts.map .str := by
  induction parts with
  | nil => rfl
  | cons p ps ih =>
    rw [List.forall_mem_cons] at h
    rw [List.map_cons, buildItems, Json.build, h.1, ih h.2]

theorem printableItems_str (parts : List PyStr) : PrintableItems (parts.map .str) := by
  induction parts with
  | nil => trivial
  | cons p ps ih => exact ⟨trivial, ih⟩

theorem parseUuid_previousMember {UUID : PyStr → Option Uuid} (huuid : ∀ u, UUID u.text = some u)
    (previous : Option Uuid) : parseUuid UUID (previousMember previous) = .ok previous := by
  cases previous with
  | none => rfl
  | some u => rw [previousMember, parseUuid, huuid]

/-! ## Reading back -/

/-- The text of a root job is decoded to its mapping. -/
theorem loads_buildPayload {server cwd : PyStr} {process : List PyStr} {version : Json}
    {m : List (PyStr × Json)} (htexts : ∀ s ∈ server :: cwd :: process, JsonRoundTrips s)
    (h : buildPayload server cwd process version = .ok m) :
    loads (dumps (.obj m)) = some (.obj m) := by
  simp only [jsonRoundTrips_iff, List.forall_mem_cons] at htexts
  obtain ⟨hserver, hcwd, hprocess⟩ := htexts
  obtain ⟨n, -, -, -, -, -, -, rfl⟩ := buildPayload_eq_ok.1 h
  have hprint : (Json.obj [entry "v" (.int n), entry "type" (.str JOB_TYPE_COMMAND),
      entry "server" (.str server), entry "request" (.obj [entry "cwd" (.str cwd),
        entry "process" (.arr (process.map .str))]),
      entry "state" (.obj [entry "status" (.str STATUS_PENDING)])]).Printable :=
    ⟨trivial, trivial, trivial, ⟨trivial, printableItems_str process, trivial⟩, ⟨trivial, trivial⟩,
      trivial⟩
  have hbuild : (Json.obj [entry "v" (.int n), entry "type" (.str JOB_TYPE_COMMAND),
      entry "server" (.str server), entry "request" (.obj [entry "cwd" (.str cwd),
        entry "process" (.arr (process.map .str))]),
      entry "state" (.obj [entry "status" (.str STATUS_PENDING)])]).build =
    .obj [entry "v" (.int n), entry "type" (.str JOB_TYPE_COMMAND),
      entry "server" (.str server.joinSurrogates), entry "request"
        (.obj [entry "cwd" (.str cwd.joinSurrogates),
          entry "process" (.arr (buildItems (process.map .str)))]),
      entry "state" (.obj [entry "status" (.str STATUS_PENDING)])] := rfl
  rw [loads_dumps hprint, hbuild, hserver, hcwd, buildItems_str hprocess]

/-- The text of a chunk is decoded to its mapping. -/
theorem loads_buildOutputChunkPayload {server : PyStr} {thread : Uuid} {stream : PyStr}
    {sequence start stop : ℤ} {value : PyStr} {previous : Option Uuid} {version : Json}
    {m : List (PyStr × Json)} (hserver : JsonRoundTrips server)
    (h : buildOutputChunkPayload server thread stream (.int sequence) (.int start) (.int stop) value
      previous version = .ok m) : loads (dumps (.obj m)) = some (.obj m) := by
  rw [jsonRoundTrips_iff] at hserver
  obtain ⟨n, -, -, -, hstream, -, ⟨k, hk, -⟩, -, rfl⟩ := buildOutputChunkPayload_eq_ok.1 h
  have hprint : (Json.obj [entry "v" (.int n), entry "type" (.str JOB_TYPE_OUTPUT_CHUNK),
      entry "server" (.str server), entry "thread" (.str thread.text),
      entry "stream" (.str stream), entry "sequence" (.int sequence), entry "start" (.int start),
      entry "end" (.int stop), entry "value" (.str value),
      entry "previous" (previousMember previous)]).Printable :=
    ⟨trivial, trivial, trivial, trivial, trivial, trivial, trivial, trivial, trivial,
      printable_previousMember previous, trivial⟩
  have hbuild : (Json.obj [entry "v" (.int n), entry "type" (.str JOB_TYPE_OUTPUT_CHUNK),
      entry "server" (.str server), entry "thread" (.str thread.text),
      entry "stream" (.str stream), entry "sequence" (.int sequence), entry "start" (.int start),
      entry "end" (.int stop), entry "value" (.str value),
      entry "previous" (previousMember previous)]).build =
    .obj [entry "v" (.int n), entry "type" (.str JOB_TYPE_OUTPUT_CHUNK),
      entry "server" (.str server.joinSurrogates), entry "thread" (.str thread.text.joinSurrogates),
      entry "stream" (.str stream.joinSurrogates), entry "sequence" (.int sequence),
      entry "start" (.int start), entry "end" (.int stop), entry "value" (.str value.joinSurrogates),
      entry "previous" (previousMember previous).build] := rfl
  rw [PyInt.toJson, PyInt.toJson, PyInt.toJson, loads_dumps hprint, hbuild, hserver,
    joined_uuidText, joined_stream hstream, joined_of_utf8ByteLength hk, build_previousMember]

section Codec

variable {UUID : PyStr → Option Uuid}

/-- A version the build does not support is refused by both parsers. -/
theorem parse_of_unsupported {data : Stored} {d : List (PyStr × Json)} {n : ℤ}
    (hd : decodePayload data = .ok d) (hv : Json.get d "v" = .int n) (hn : n ≠ PROTOCOL_VERSION) :
    ∃ msg, unsupportedVersionDiagnostic n = some msg ∧ parsePayload UUID data = refuse msg ∧
      parseChunkPayload UUID data = refuse msg := by
  obtain ⟨msg, hmsg, href⟩ := parseVersionAndType_of_unsupported hv hn
  refine ⟨msg, hmsg, ?_, ?_⟩
  · rw [parsePayload, hd]
    show parseVersionAndType d >>= _ = _
    rw [href]
    rfl
  · rw [parseChunkPayload, hd]
    show parseVersionAndType d >>= _ = _
    rw [href]
    rfl

/-- A root job of the current version is read back. -/
theorem parsePayload_buildPayload {server cwd : PyStr} {process : List PyStr}
    {m : List (PyStr × Json)} (htexts : ∀ s ∈ server :: cwd :: process, JsonRoundTrips s)
    (h : buildPayload server cwd process (.int PROTOCOL_VERSION) = .ok m) :
    parsePayload UUID (.text (dumps (.obj m))) = .ok {
      version := PROTOCOL_VERSION, type := JOB_TYPE_COMMAND, server
      request := { cwd, process }, status := STATUS_PENDING, output := none, result := none } := by
  have hdecode := decodePayload_text (loads_buildPayload htexts h)
  obtain ⟨n, hn, -, hserver, hcwd, hne, hall, rfl⟩ := buildPayload_eq_ok.1 h
  obtain rfl := Json.int.inj hn
  refine parsePayload_eq_ok.2 ⟨_, hdecode, rfl, rfl, rfl, rfl, parseServer_eq_ok.2 ⟨rfl, hserver⟩,
    ?_, rfl, rfl, rfl⟩
  have hrequest : validateCwd (.str cwd) = .ok cwd ∧
      parseProcess (.arr (process.map .str)) = .ok process :=
    ⟨validateCwd_eq_ok.2 ⟨rfl, hcwd⟩, parseProcess_eq_ok.2 ⟨rfl, hne, hall⟩⟩
  show (validateCwd (.str cwd) >>= fun cwd => parseProcess (.arr (process.map .str)) >>=
    fun process => pure (JobRequest.mk cwd process)) = _
  rw [hrequest.1, hrequest.2]
  rfl

/-- A chunk of the current version is read back. -/
theorem parseChunkPayload_buildOutputChunkPayload (huuid : ∀ u, UUID u.text = some u)
    {server : PyStr} {thread : Uuid} {stream : PyStr} {sequence start stop : ℤ} {value : PyStr}
    {previous : Option Uuid} {m : List (PyStr × Json)} (hserver : JsonRoundTrips server)
    (h : buildOutputChunkPayload server thread stream (.int sequence) (.int start) (.int stop) value
      previous (.int PROTOCOL_VERSION) = .ok m) :
    parseChunkPayload UUID (.text (dumps (.obj m))) = .ok {
      server, thread, stream, sequence, start, stop, value, previous } := by
  have hdecode := decodePayload_text (loads_buildOutputChunkPayload hserver h)
  obtain ⟨n, hn, -, hne, hstream, hseq, hvalue, hoff, rfl⟩ := buildOutputChunkPayload_eq_ok.1 h
  obtain rfl := Json.int.inj hn
  have hthread : parseUuid UUID (.str thread.text) = .ok (some thread) := by rw [parseUuid, huuid]
  exact parseChunkPayload_eq_ok.2 ⟨_, hdecode, rfl, rfl, hthread, hstream, rfl,
    parseSequence_eq_ok.2 ⟨rfl, hseq⟩, rfl, rfl, hoff, requireBounded_eq_ok.2 ⟨rfl, hvalue⟩,
    parseUuid_previousMember huuid previous, parseServer_eq_ok.2 ⟨rfl, hne⟩⟩

/-- The member of an output section for a window, or `None`. -/
def windowMember : Option OutputWindow → Except Raised Json
  | none => .ok .null
  | some w => (buildOutputWindowPayload w.tail (.int w.start) (.int w.stop) w.previous).map .obj

/-- The output section of a root job, made of built windows. -/
def outputMember (section_ : OutputSection) : Except Raised Json := do
  let stdout ← windowMember section_.stdout
  let stderr ← windowMember section_.stderr
  return .obj [entry "stdout" stdout, entry "stderr" stderr]

theorem parseOptionalWindow_windowMember (huuid : ∀ u, UUID u.text = some u)
    {window : Option OutputWindow} {v : Json} (h : windowMember window = .ok v) :
    parseOptionalWindow UUID v = .ok window := by
  cases window with
  | none =>
    obtain rfl := Except.ok.inj h
    rfl
  | some w =>
    rw [windowMember] at h
    cases hb : buildOutputWindowPayload w.tail (.int w.start) (.int w.stop) w.previous with
    | error e =>
      rw [hb] at h
      cases h
    | ok m =>
      rw [hb] at h
      obtain rfl := Except.ok.inj h
      obtain ⟨htail, hoff, rfl⟩ := buildOutputWindowPayload_eq_ok.1 hb
      have hparse : parseWindow UUID (.obj [entry "tail" (.str w.tail),
          entry "start" (.int w.start), entry "end" (.int w.stop),
          entry "previous" (previousMember w.previous)]) = .ok w :=
        parseWindow_obj_eq_ok.2 ⟨requireBounded_eq_ok.2 ⟨rfl, htail⟩, rfl, rfl, hoff,
          parseUuid_previousMember huuid w.previous⟩
      rw [PyInt.toJson, PyInt.toJson, parseOptionalWindow, hparse]
      · rfl
      · intro hnull
        cases hnull

theorem parseOutputSection_outputMember (huuid : ∀ u, UUID u.text = some u)
    {section_ : OutputSection} {v : Json} (h : outputMember section_ = .ok v) :
    parseOutputSection UUID v = .ok (some section_) := by
  simp only [outputMember, except_bind_eq_ok, pure, Except.pure, Except.ok.injEq] at h
  obtain ⟨stdout, hout, stderr, herr, rfl⟩ := h
  have hwindows := And.intro (parseOptionalWindow_windowMember huuid hout)
    (parseOptionalWindow_windowMember huuid herr)
  show (parseOptionalWindow UUID stdout >>= fun stdout => parseOptionalWindow UUID stderr >>=
    fun stderr => pure (some (OutputSection.mk stdout stderr))) = _
  rw [hwindows.1, hwindows.2]
  rfl

/-- A root job that is accepted is accepted with an output section, which is read back. -/
theorem parsePayload_setOutput (huuid : ∀ u, UUID u.text = some u) {section_ : OutputSection}
    {output : Json} {root : List (PyStr × Json)} {p : JobPayload}
    (hout : outputMember section_ = .ok output)
    (hroot : parsePayload UUID (.decoded (.obj root)) = .ok p) {data : Stored}
    (hdata : decodePayload data = .ok (setMember "output" output root)) :
    parsePayload UUID data = .ok { p with output := some section_ } := by
  obtain ⟨d, hd, hv, hversion, htype, hcommand, hserver, hrequest, hstatus, -, hresult⟩ :=
    parsePayload_eq_ok.1 hroot
  obtain rfl := Except.ok.inj hd
  have hother : ∀ k : PyStr, k ≠ "output" → Json.get (setMember "output" output root) k =
      Json.get root k := fun k hk => get_setMember_of_ne hk output root
  refine parsePayload_eq_ok.2 ⟨_, hdata, ?_⟩
  rw [hother "v" (by decide), hother "type" (by decide), hother "server" (by decide),
    hother "request" (by decide), hother "state" (by decide), hother "result" (by decide),
    get_setMember]
  exact ⟨hv, hversion, htype, hcommand, hserver, hrequest, hstatus,
    parseOutputSection_outputMember huuid hout, hresult⟩

end Codec

/-! ## The codec -/

/-- **The payload codec.** Whatever a builder returns, the parser of its payload reads back exactly
when the version is the current one, and refuses for any other; and a root job that is accepted is
accepted with an output section made of built windows, which is read back. Texts are assumed to
round-trip through `json`, and a UUID through its text. -/
theorem payload_codec (UUID : PyStr → Option Uuid) (huuid : ∀ u : Uuid, UUID u.text = some u) :
    (∀ (server cwd : PyStr) (process : List PyStr) (version : Json) (m : List (PyStr × Json)),
      (∀ s ∈ server :: cwd :: process, JsonRoundTrips s) →
      buildPayload server cwd process version = .ok m →
        ∃ n, version = .int n ∧
          (n = PROTOCOL_VERSION → parsePayload UUID (.text (dumps (.obj m))) = .ok {
            version := PROTOCOL_VERSION, type := JOB_TYPE_COMMAND, server
            request := { cwd, process }, status := STATUS_PENDING, output := none
            result := none }) ∧
          (n ≠ PROTOCOL_VERSION → ∃ msg, unsupportedVersionDiagnostic n = some msg ∧
            parsePayload UUID (.text (dumps (.obj m))) = refuse msg)) ∧
    (∀ (server : PyStr) (thread : Uuid) (stream : PyStr) (sequence start stop : ℤ) (value : PyStr)
        (previous : Option Uuid) (version : Json) (m : List (PyStr × Json)),
      JsonRoundTrips server →
      buildOutputChunkPayload server thread stream (.int sequence) (.int start) (.int stop) value
          previous version = .ok m →
        ∃ n, version = .int n ∧
          (n = PROTOCOL_VERSION → parseChunkPayload UUID (.text (dumps (.obj m))) = .ok {
            server, thread, stream, sequence, start, stop, value, previous }) ∧
          (n ≠ PROTOCOL_VERSION → ∃ msg, unsupportedVersionDiagnostic n = some msg ∧
            parseChunkPayload UUID (.text (dumps (.obj m))) = refuse msg)) ∧
    ∀ (root : List (PyStr × Json)) (p : JobPayload) (windows : OutputSection) (output : Json),
      parsePayload UUID (.decoded (.obj root)) = .ok p → outputMember windows = .ok output →
      loads (dumps (.obj (setMember "output" output root))) =
        some (.obj (setMember "output" output root)) →
        parsePayload UUID (.text (dumps (.obj (setMember "output" output root)))) =
          .ok { p with output := some windows } := by
  refine ⟨?_, ?_, ?_⟩
  · intro server cwd process version m htexts h
    have hdecode := decodePayload_text (loads_buildPayload htexts h)
    obtain ⟨n, rfl, -, -, -, -, -, hm⟩ := buildPayload_eq_ok.1 h
    refine ⟨n, rfl, ?_, ?_⟩
    · intro hn
      subst hn
      exact parsePayload_buildPayload htexts h
    · intro hn
      have hv : Json.get m "v" = .int n := by rw [hm]; rfl
      obtain ⟨msg, hmsg, hrefuse, -⟩ := parse_of_unsupported hdecode hv hn
      exact ⟨msg, hmsg, hrefuse⟩
  · intro server thread stream sequence start stop value previous version m hserver h
    have hdecode := decodePayload_text (loads_buildOutputChunkPayload hserver h)
    obtain ⟨n, rfl, -, -, -, -, -, -, hm⟩ := buildOutputChunkPayload_eq_ok.1 h
    refine ⟨n, rfl, ?_, ?_⟩
    · intro hn
      subst hn
      exact parseChunkPayload_buildOutputChunkPayload huuid hserver h
    · intro hn
      have hv : Json.get m "v" = .int n := by rw [hm]; rfl
      obtain ⟨msg, hmsg, -, hrefuse⟩ := parse_of_unsupported hdecode hv hn
      exact ⟨msg, hmsg, hrefuse⟩
  · intro root p windows output hroot hout hjson
    exact parsePayload_setOutput huuid hout hroot (decodePayload_text hjson)

/-- The codec on a job, on a chunk of it and on its output section. -/
theorem payload_codec_alpha :
    (∃ m, buildPayload "alpha" "/srv" ["ls"] = .ok m ∧
      parsePayload Uuid.ofText (.text (dumps (.obj m))) = .ok {
        version := PROTOCOL_VERSION, type := JOB_TYPE_COMMAND, server := "alpha"
        request := { cwd := "/srv", process := ["ls"] }, status := STATUS_PENDING, output := none
        result := none }) ∧
    (∃ m, buildOutputChunkPayload "alpha" (Uuid.ofDigit 1) "stdout" (.int 0) (.int 0) (.int 2) "ok"
        none = .ok m ∧
      parseChunkPayload Uuid.ofText (.text (dumps (.obj m))) = .ok {
        server := "alpha", thread := Uuid.ofDigit 1, stream := "stdout", sequence := 0, start := 0
        stop := 2, value := "ok", previous := none }) ∧
    ∃ t p, parsePayload Uuid.ofText (.text t) = .ok p ∧ p.output = some {
      stdout := some ⟨"ok", 2, 4, some (Uuid.ofDigit 1)⟩, stderr := none } := by
  have htexts : ∀ s ∈ PyStr.ofString "alpha" :: PyStr.ofString "/srv" :: [PyStr.ofString "ls"],
      JsonRoundTrips s := by
    simp only [jsonRoundTrips_iff]
    decide
  refine ⟨?_, ?_, ?_⟩
  · obtain ⟨n, hn, hread, -⟩ := (payload_codec Uuid.ofText Uuid.ofText_text).1 "alpha" "/srv" ["ls"]
      (.int PROTOCOL_VERSION) _ htexts rfl
    exact ⟨_, rfl, hread (Json.int.inj hn).symm⟩
  · obtain ⟨n, hn, hread, -⟩ := (payload_codec Uuid.ofText Uuid.ofText_text).2.1 "alpha"
      (Uuid.ofDigit 1) "stdout" 0 0 2 "ok" none (.int PROTOCOL_VERSION) _
      (htexts _ (List.mem_cons_self ..)) rfl
    exact ⟨_, rfl, hread (Json.int.inj hn).symm⟩
  · have hjson : loads (dumps (.obj (setMember "output" (.obj [entry "stdout" (.obj [
          entry "tail" (.str "ok"), entry "start" (.int 2), entry "end" (.int 4),
          entry "previous" (.str (Uuid.ofDigit 1).text)]), entry "stderr" .null])
        [entry "v" (.int 4), entry "type" (.str "command"), entry "server" (.str "alpha"),
          entry "request" (.obj [entry "cwd" (.str "/srv"),
            entry "process" (.arr [.str "ls"])]),
          entry "state" (.obj [entry "status" (.str "running")])]))) = some _ :=
      loads_dumps ⟨trivial, trivial, trivial, ⟨trivial, ⟨trivial, trivial⟩, trivial⟩,
        ⟨trivial, trivial⟩, ⟨⟨trivial, trivial, trivial, trivial, trivial⟩, trivial, trivial⟩,
        trivial⟩
    exact ⟨_, _, (payload_codec Uuid.ofText Uuid.ofText_text).2.2 _ _
      ⟨some ⟨"ok", 2, 4, some (Uuid.ofDigit 1)⟩, none⟩ _ rfl rfl hjson, rfl⟩

/-- A chunk of the next version is built, and no parser reads it. -/
theorem newer_chunk_refused : ∃ m,
    buildOutputChunkPayload "alpha" (Uuid.ofDigit 1) "stdout" (.int 0) (.int 0) (.int 2) "ok" none
      (.int 5) = .ok m ∧
    ∀ (UUID : PyStr → Option Uuid) (c : OutputChunk),
      parseChunkPayload UUID (.text (dumps (.obj m))) ≠ .ok c := by
  have hserver : JsonRoundTrips "alpha" := jsonRoundTrips_iff.2 (by decide)
  refine ⟨_, rfl, ?_⟩
  intro UUID c hread
  have hbuild : buildOutputChunkPayload "alpha" (Uuid.ofDigit 1) "stdout" (.int 0) (.int 0) (.int 2)
      "ok" none (.int 5) = .ok _ := rfl
  have hdecode := decodePayload_text (loads_buildOutputChunkPayload hserver hbuild)
  obtain ⟨msg, -, -, hrefuse⟩ := parse_of_unsupported hdecode rfl (by decide : (5 : ℤ) ≠ 4)
  cases hrefuse.symm.trans hread

end Lubko.Protocol
