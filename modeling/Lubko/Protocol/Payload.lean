import Lubko.Lib.JsonObject
import Lubko.Lib.Uuid

/-!
# Job payloads

`protocol.py`: the builders and the parsers of the two kinds of payload, a root `command` job and an
immutable `output_chunk`, and the version policy of `protocol_versioning.py`. The builders and the
parsers check the same bounds on their own, in their own order. `UUID(text)` is a parameter, `none`
being its `ValueError`; an argument annotated `int` may be a `bool`, and an argument annotated
`object` is any JSON value. A message is cut where the source shows the `repr` of a value or the
text of another exception.
-/

namespace Lubko.Protocol

open Lubko.Lib

/-! ## Constants -/

def PROTOCOL_VERSION : ℤ := 4

def CURRENT_PROTOCOL_VERSION : ℤ := 4

def JOB_TYPE_COMMAND : PyStr := "command"

def JOB_TYPE_OUTPUT_CHUNK : PyStr := "output_chunk"

def KNOWN_JOB_TYPES : List PyStr := [JOB_TYPE_COMMAND, JOB_TYPE_OUTPUT_CHUNK]

def STATUS_PENDING : PyStr := "pending"

def STATUS_RUNNING : PyStr := "running"

def STATUS_SUCCEEDED : PyStr := "succeeded"

def STATUS_FAILED : PyStr := "failed"

def STATUS_CANCELLED : PyStr := "cancelled"

def KNOWN_STATUSES : List PyStr :=
  [STATUS_PENDING, STATUS_RUNNING, STATUS_SUCCEEDED, STATUS_FAILED, STATUS_CANCELLED]

def CHUNK_STREAMS : List PyStr := [PyStr.ofString "stdout", PyStr.ofString "stderr"]

def OUTPUT_TAIL_MAX_BYTES : ℕ := 4000

def OUTPUT_CHUNK_MAX_BYTES : ℕ := 2000

/-! ## Data classes -/

/-- `JobRequest`. -/
structure JobRequest where
  cwd : PyStr
  process : List PyStr
  deriving DecidableEq

/-- `OutputWindow`. -/
structure OutputWindow where
  tail : PyStr
  start : ℤ
  stop : ℤ
  previous : Option Uuid
  deriving DecidableEq

/-- `OutputSection`. -/
structure OutputSection where
  stdout : Option OutputWindow
  stderr : Option OutputWindow
  deriving DecidableEq

/-- `ResultView`. -/
structure ResultView where
  stdout : PyStr
  stderr : PyStr
  exitCode : Option ℤ
  cancellationNote : Option PyStr
  recoveryNote : Option PyStr
  deriving DecidableEq

/-- `JobPayload`. -/
structure JobPayload where
  version : ℤ
  type : PyStr
  server : PyStr
  request : JobRequest
  status : PyStr
  output : Option OutputSection
  result : Option ResultView
  deriving DecidableEq

/-- `OutputChunk`. -/
structure OutputChunk where
  server : PyStr
  thread : Uuid
  stream : PyStr
  sequence : ℤ
  start : ℤ
  stop : ℤ
  value : PyStr
  previous : Option Uuid
  deriving DecidableEq

/-! ## Exceptions -/

/-- What the functions raise. -/
inductive Raised where
  | protocolError (msg : PyStr)
  | unicodeEncodeError
  | typeError
  deriving DecidableEq

/-- `raise ProtocolError(msg)`. -/
def refuse {α : Type} (msg : PyStr) : Except Raised α := .error (.protocolError msg)

/-- `if refused: raise ProtocolError(msg)`. -/
def refuseIf (refused : Bool) (msg : PyStr) : Except Raised Unit :=
  if refused then refuse msg else .ok ()

/-- `_utf8_byte_length`; a surrogate cannot be encoded. -/
def utf8ByteLength (text : PyStr) : Except Raised ℕ :=
  if text.any fun c => c.isHigh || c.isLow then .error .unicodeEncodeError
  else .ok (PyStr.utf8ByteLength text)

/-! ## Integers -/

/-- A value of `int`, of which `bool` is a subtype. -/
inductive PyInt where
  | int (n : ℤ)
  | bool (b : Bool)
  deriving DecidableEq

namespace PyInt

/-- The number, as `<` and `-` see it. -/
def val : PyInt → ℤ
  | .int n => n
  | .bool b => if b then 1 else 0

/-- The JSON value `dumps` writes. -/
def toJson : PyInt → Json
  | .int n => .int n
  | .bool b => .bool b

/-- The text of an f-string. -/
def text : PyInt → PyStr
  | .int n => (toString n : String)
  | .bool b => if b then "True" else "False"

end PyInt

/-- `if not isinstance(value, int) or isinstance(value, bool): raise ProtocolError(msg)`. -/
def requireInt (msg : PyStr) : Json → Except Raised ℤ
  | .int n => .ok n
  | _ => refuse msg

/-- `if not isinstance(value, str) or _utf8_byte_length(value) > limit: raise ProtocolError(msg)`. -/
def requireBounded (limit : ℕ) (msg : PyStr) : Json → Except Raised PyStr
  | .str s => do
    let size ← utf8ByteLength s
    refuseIf (limit < size) msg
    return s
  | _ => refuse msg

/-- `if value is not None and not isinstance(value, str): raise ProtocolError(msg)`. -/
def requireNote (msg : PyStr) : Json → Except Raised (Option PyStr)
  | .null => .ok none
  | .str s => .ok (some s)
  | _ => refuse msg

/-! ## Field checks -/

/-- `parse_server`. -/
def parseServer : Json → Except Raised PyStr
  | .str s => if s = [] then refuse "payload server must be a non-empty string" else .ok s
  | _ => refuse "payload server must be a non-empty string"

/-- `_validate_cwd`. -/
def validateCwd : Json → Except Raised PyStr
  | .str s =>
    if s = [] then refuse "request.cwd must be a non-empty string"
    else if s.head? ≠ some (CodePoint.ofChar '/') then
      refuse "request.cwd must be an absolute POSIX path beginning with '/'"
    else .ok s
  | _ => refuse "request.cwd must be a non-empty string"

/-- A part of an argv: a non-empty string. -/
def argvPart? : Json → Option PyStr
  | .str s => if s = [] then none else some s
  | _ => none

/-- `_parse_process`. -/
def parseProcess : Json → Except Raised (List PyStr)
  | .arr items =>
    if items.isEmpty then refuse "request.process must be a non-empty array of non-empty strings"
    else match items.mapM argvPart? with
      | some parts => .ok parts
      | none => refuse "request.process must be a non-empty array of non-empty strings"
  | _ => refuse "request.process must be a non-empty array of non-empty strings"

/-- `_validate_offsets`. -/
def validateOffsets (start stop : PyInt) : Except Raised Unit := do
  refuseIf (start.val < 0 || stop.val < 0) "output offsets must be non-negative integers"
  refuseIf (stop.val < start.val)
    (PyStr.ofString "output window end " ++ stop.text ++ PyStr.ofString " precedes start " ++
      start.text)

/-- `_validate_stream`. -/
def validateStream (stream : Json) : Except Raised Unit :=
  refuseIf (!CHUNK_STREAMS.any fun s => stream.eqStr s) "unknown output stream: "

/-- The check both builders make on `version`. -/
def checkVersion (version : Json) : Except Raised ℤ := do
  let n ← requireInt "payload version must be a positive integer" version
  refuseIf (n < 1) "payload version must be a positive integer"
  return n

/-- `str(previous)`, or `None`. -/
def previousMember : Option Uuid → Json
  | none => .null
  | some u => .str u.text

/-! ## Builders -/

/-- `build_payload`; the mapping is its members in order. -/
def buildPayload (server cwd : PyStr) (process : List PyStr)
    (version : Json := .int PROTOCOL_VERSION) : Except Raised (List (PyStr × Json)) := do
  let version ← checkVersion version
  let validatedServer ← parseServer (.str server)
  let validatedCwd ← validateCwd (.str cwd)
  let parts ← parseProcess (.arr (process.map .str))
  return [entry "v" (.int version), entry "type" (.str JOB_TYPE_COMMAND),
    entry "server" (.str validatedServer),
    entry "request" (.obj [entry "cwd" (.str validatedCwd),
      entry "process" (.arr (parts.map .str))]),
    entry "state" (.obj [entry "status" (.str STATUS_PENDING)])]

/-- `build_output_window_payload`. -/
def buildOutputWindowPayload (tail : PyStr) (start stop : PyInt) (previous : Option Uuid) :
    Except Raised (List (PyStr × Json)) := do
  let size ← utf8ByteLength tail
  refuseIf (OUTPUT_TAIL_MAX_BYTES < size) "output tail must be at most 4000 bytes"
  validateOffsets start stop
  refuseIf ((OUTPUT_TAIL_MAX_BYTES : ℤ) < stop.val - start.val)
    "output window span must be at most 4000 raw bytes"
  return [entry "tail" (.str tail), entry "start" start.toJson, entry "end" stop.toJson,
    entry "previous" (previousMember previous)]

/-- `build_output_chunk_payload`. -/
def buildOutputChunkPayload (server : PyStr) (thread : Uuid) (stream : PyStr)
    (sequence start stop : PyInt) (value : PyStr) (previous : Option Uuid)
    (version : Json := .int PROTOCOL_VERSION) : Except Raised (List (PyStr × Json)) := do
  validateStream (.str stream)
  let validatedServer ← parseServer (.str server)
  let version ← checkVersion version
  refuseIf (sequence.val < 0) "output_chunk.sequence must be a non-negative integer"
  let size ← utf8ByteLength value
  refuseIf (OUTPUT_CHUNK_MAX_BYTES < size) "output_chunk.value must be at most 2000 bytes"
  validateOffsets start stop
  refuseIf ((OUTPUT_CHUNK_MAX_BYTES : ℤ) < stop.val - start.val)
    "output_chunk span must be at most 2000 raw bytes"
  return [entry "v" (.int version), entry "type" (.str JOB_TYPE_OUTPUT_CHUNK),
    entry "server" (.str validatedServer), entry "thread" (.str thread.text),
    entry "stream" (.str stream), entry "sequence" sequence.toJson, entry "start" start.toJson,
    entry "end" stop.toJson, entry "value" (.str value),
    entry "previous" (previousMember previous)]

/-! ## The version policy -/

/-- `version_supported`. -/
def versionSupported (version : ℤ) : Bool := version = CURRENT_PROTOCOL_VERSION

/-- `unsupported_version_diagnostic`. -/
def unsupportedVersionDiagnostic (version : ℤ) : Option PyStr :=
  if versionSupported version then none
  else if version < CURRENT_PROTOCOL_VERSION then
    some ("protocol version " ++ toString version ++ " is below the current supported version " ++
      toString CURRENT_PROTOCOL_VERSION ++ "; the job targets a retired generation " ++
      "and must not be executed" : String)
  else
    some ("protocol version " ++ toString version ++ " is above the current supported version " ++
      toString CURRENT_PROTOCOL_VERSION ++ "; the job targets a newer generation than " ++
      "this daemon understands and must not be executed" : String)

/-! ## Parsers -/

/-- What is stored in the `payload` column: a text, or a value that was decoded already. -/
inductive Stored where
  | text (t : List Char)
  | decoded (value : Json)

section Parsers

variable (UUID : PyStr → Option Uuid)

/-- `_parse_uuid`. -/
def parseUuid : Json → Except Raised (Option Uuid)
  | .null => .ok none
  | .str s =>
    match UUID s with
    | some u => .ok (some u)
    | none => refuse "payload UUID field is not a valid UUID: "
  | _ => refuse "payload UUID field must be a string"

/-- `_parse_request`. -/
def parseRequest : Json → Except Raised JobRequest
  | .obj raw => do
    refuseIf (Json.hasKey raw "command" || Json.hasKey raw "args")
      ("request.command and request.args are legacy protocol v2 fields and " ++
        "are not accepted in v4" : String)
    let cwd ← validateCwd (Json.get raw "cwd")
    let process ← parseProcess (Json.get raw "process")
    return { cwd, process }
  | _ => refuse "payload must contain a request object"

/-- `_parse_status`. -/
def parseStatus : Json → Except Raised PyStr
  | .obj raw =>
    match Json.get raw "status" with
    | .str status => if status ∈ KNOWN_STATUSES then .ok status else refuse "unknown job status: "
    | _ => refuse "unknown job status: "
  | _ => refuse "payload must contain a state object"

/-- `_parse_window`. -/
def parseWindow : Json → Except Raised OutputWindow
  | .obj raw => do
    let tail ← requireBounded OUTPUT_TAIL_MAX_BYTES
      "output window tail must be a string of at most 4000 bytes" (Json.get raw "tail")
    let start ← requireInt "output window start must be an integer" (Json.get raw "start")
    let stop ← requireInt "output window end must be an integer" (Json.get raw "end")
    validateOffsets (.int start) (.int stop)
    refuseIf ((OUTPUT_TAIL_MAX_BYTES : ℤ) < stop - start)
      "output window span must be at most 4000 raw bytes"
    let previous ← parseUuid UUID (Json.get raw "previous")
    return { tail, start, stop, previous }
  | _ => refuse "output window must be an object"

/-- `_parse_window(raw[name]) if raw.get(name) is not None else None`. -/
def parseOptionalWindow : Json → Except Raised (Option OutputWindow)
  | .null => .ok none
  | raw => (parseWindow UUID raw).map some

/-- `_parse_output_section`. -/
def parseOutputSection : Json → Except Raised (Option OutputSection)
  | .null => .ok none
  | .obj raw => do
    let stdout ← parseOptionalWindow UUID (Json.get raw "stdout")
    let stderr ← parseOptionalWindow UUID (Json.get raw "stderr")
    return some { stdout, stderr }
  | _ => refuse "payload output must be an object"

/-- The exit code of `_parse_result`. -/
def parseExitCode : Json → Except Raised (Option ℤ)
  | .null => .ok none
  | raw => (requireInt "result.exit_code must be an integer or null" raw).map some

/-- `_parse_result`. -/
def parseResult : Json → Except Raised (Option ResultView)
  | .null => .ok none
  | .obj raw => do
    let stdout ← requireBounded OUTPUT_TAIL_MAX_BYTES
      "result.stdout must be a string of at most 4000 bytes" (Json.get raw "stdout")
    let stderr ← requireBounded OUTPUT_TAIL_MAX_BYTES
      "result.stderr must be a string of at most 4000 bytes" (Json.get raw "stderr")
    let exitCode ← parseExitCode (Json.get raw "exit_code")
    let cancellationNote ← requireNote "result.cancellation_note must be a string or null"
      (Json.get raw "cancellation_note")
    let recoveryNote ← requireNote "result.recovery_note must be a string or null"
      (Json.get raw "recovery_note")
    return some { stdout, stderr, exitCode, cancellationNote, recoveryNote }
  | _ => refuse "payload result must be an object"

/-- `_decode_payload`. -/
def decodePayload (data : Stored) : Except Raised (List (PyStr × Json)) := do
  let value ← match data with
    | .text t =>
      match loads t with
      | some value => .ok value
      | none => refuse "payload is not valid JSON: "
    | .decoded value => .ok value
  match value with
  | .obj members => return members
  | _ => refuse "payload must be a JSON object"

/-- `job_type not in KNOWN_JOB_TYPES`: a list or a dict has no hash. -/
def parseType : Json → Except Raised PyStr
  | .str type => if type ∈ KNOWN_JOB_TYPES then .ok type else refuse "unknown job type: "
  | .arr _ | .obj _ => .error .typeError
  | _ => refuse "unknown job type: "

/-- `_parse_version_and_type`. -/
def parseVersionAndType (data : List (PyStr × Json)) : Except Raised (ℤ × PyStr) := do
  let version ← requireInt "payload 'v' must be an integer protocol version" (Json.get data "v")
  match unsupportedVersionDiagnostic version with
  | some diagnostic => refuse diagnostic
  | none =>
    let jobType ← parseType (Json.get data "type")
    return (version, jobType)

/-- `parse_payload`. -/
def parsePayload (data : Stored) : Except Raised JobPayload := do
  let decoded ← decodePayload data
  let (version, jobType) ← parseVersionAndType decoded
  refuseIf (jobType ≠ JOB_TYPE_COMMAND) "payload is not a command job: "
  let server ← parseServer (Json.get decoded "server")
  let request ← parseRequest (Json.get decoded "request")
  let status ← parseStatus (Json.get decoded "state")
  let output ← parseOutputSection UUID (Json.get decoded "output")
  let result ← parseResult (Json.get decoded "result")
  return { version, type := jobType, server, request, status, output, result }

/-- The sequence check of `parse_chunk_payload`. -/
def parseSequence (raw : Json) : Except Raised ℤ := do
  let n ← requireInt "output_chunk.sequence must be a non-negative integer" raw
  refuseIf (n < 0) "output_chunk.sequence must be a non-negative integer"
  return n

/-- `str(decoded.get("stream"))`, for a stream that was validated. -/
def streamName : Json → PyStr
  | .str s => s
  | _ => []

/-- `parse_chunk_payload`. -/
def parseChunkPayload (data : Stored) : Except Raised OutputChunk := do
  let decoded ← decodePayload data
  let (_, jobType) ← parseVersionAndType decoded
  refuseIf (jobType ≠ JOB_TYPE_OUTPUT_CHUNK) "payload is not an output_chunk: "
  match ← parseUuid UUID (Json.get decoded "thread") with
  | none => refuse "output_chunk must carry an owning thread UUID"
  | some thread =>
    validateStream (Json.get decoded "stream")
    let sequence ← parseSequence (Json.get decoded "sequence")
    let start ← requireInt "output_chunk.start must be an integer" (Json.get decoded "start")
    let stop ← requireInt "output_chunk.end must be an integer" (Json.get decoded "end")
    validateOffsets (.int start) (.int stop)
    refuseIf ((OUTPUT_CHUNK_MAX_BYTES : ℤ) < stop - start)
      "output_chunk span must be at most 2000 raw bytes"
    let value ← requireBounded OUTPUT_CHUNK_MAX_BYTES
      "output_chunk.value must be a string of at most 2000 bytes" (Json.get decoded "value")
    let previous ← parseUuid UUID (Json.get decoded "previous")
    let server ← parseServer (Json.get decoded "server")
    return {
      server, thread, stream := streamName (Json.get decoded "stream"), sequence, start, stop, value,
      previous }

end Parsers

end Lubko.Protocol
