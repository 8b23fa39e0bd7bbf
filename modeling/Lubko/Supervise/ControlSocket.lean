import Lubko.Lib.JsonCompact
import Lubko.Lifecycle.Meta

/-!
# Messages of the control socket

`control_socket.py`: a message is a JSON object in compact text, behind its length in four bytes.
The stream is read in pieces as the kernel hands them out, and only the receiver knows the limit.

* `recvExact_eq` — the pieces do not matter.
* `recvMessage_frame` — an object that was sent is received, when its text is within the limit.
* `recvMessage_tooLarge` — and refused when it is not.
-/

namespace Lubko.Supervise

open Lubko.Lib Lubko.Lifecycle

/-! ## The stream -/

/-- What a connection still delivers until its peer closes it. A `recv` returns at most as many
bytes as the next split says, but one at least; without a split, as many as it is asked for. -/
structure Conn where
  unread : List UInt8
  splits : List ℕ := []

/-- `conn.recv(n)`; no bytes at the end of the stream. -/
def Conn.recv (c : Conn) (n : ℕ) : List UInt8 × Conn :=
  let k := max 1 (min n (c.splits.headD n))
  (c.unread.take k, { unread := c.unread.drop k, splits := c.splits.tail })

/-- `while len(buf) < n: ...` of `_recv_exact`. -/
def recvExactLoop (n : ℕ) (buf : List UInt8) (c : Conn) : Option (List UInt8) × Conn :=
  if buf.length < n then
    if (c.recv (n - buf.length)).1 = [] then (none, (c.recv (n - buf.length)).2)
    else recvExactLoop n (buf ++ (c.recv (n - buf.length)).1) (c.recv (n - buf.length)).2
  else (some buf, c)
termination_by n - buf.length
decreasing_by
  rename_i hshort hchunk
  have hpos := List.length_pos_iff.2 hchunk
  rw [List.length_append]
  omega

/-- `_recv_exact`. -/
def recvExact (n : ℕ) (c : Conn) : Option (List UInt8) × Conn := recvExactLoop n [] c

/-! ## Messages -/

/-- `_MAX_MESSAGE_BYTES`. -/
def MAX_MESSAGE_BYTES : ℕ := 65536

/-- `struct.pack("!I", n)`, for a length that fits. -/
def packLength (n : ℕ) : List UInt8 :=
  [UInt8.ofNat (n / 0x1000000), UInt8.ofNat (n / 0x10000 % 0x100), UInt8.ofNat (n / 0x100 % 0x100),
    UInt8.ofNat (n % 0x100)]

/-- `struct.unpack("!I", header)[0]`. -/
def unpackLength (header : List UInt8) : ℕ := header.foldl (fun n b => 0x100 * n + b.toNat) 0

/-- A message object; its members in the order of the dict. -/
abbrev Message := List (PyStr × Json)

/-- `json.dumps(data, separators=(",", ":")).encode("utf-8")`. -/
def payloadOf (data : Message) : List UInt8 := utf8Encode (dumpsCompact (.obj data))

/-- `_send_message`: the bytes it sends; `none` is the `struct.error` of a length that does not
fit. -/
def sendMessage (data : Message) : Option (List UInt8) :=
  if (payloadOf data).length < 0x100000000 then
    some (packLength (payloadOf data).length ++ payloadOf data)
  else none

/-- `json.detect_encoding(b) == "utf-8"`. -/
def detectsUtf8 (b : List UInt8) : Bool :=
  !([0xff, 0xfe].isPrefixOf b || [0xfe, 0xff].isPrefixOf b || [0xef, 0xbb, 0xbf].isPrefixOf b) &&
    if 4 ≤ b.length ∨ b.length = 2 then (b.take 2).all (· ≠ 0) else true

/-- `json.loads` of bytes. `other` is what it does with bytes in another encoding, and with encoded
surrogates. -/
def jsonLoadsBytes (py : Interpreter) (other : List UInt8 → Outcome Json) (data : List UInt8) :
    Outcome Json :=
  if detectsUtf8 data then
    match utf8 data with
    | some t => jsonLoads py t
    | none => other data
  else other data

/-- `json.loads(payload)`, and the check that it is a dict. -/
def decodeMessage (py : Interpreter) (other : List UInt8 → Outcome Json) (payload : List UInt8) :
    Outcome (Option Message) := do
  match ← jsonLoadsBytes py other payload with
  | .obj decoded => return some decoded
  | _ => throw (.typeError "control message is not a JSON object")

/-- The `ValueError` of a message that is too large. -/
def messageTooLarge (length : ℕ) : PyError ErrorClass :=
  .valueError (PyStr.ofString "control message too large: " ++
    (intText length).map CodePoint.ofChar ++ PyStr.ofString " bytes")

/-- `_recv_message`; `none` is a connection that was closed early. -/
def recvMessage (py : Interpreter) (other : List UInt8 → Outcome Json) (c : Conn) :
    Outcome (Option Message) :=
  match recvExact 4 c with
  | (none, _) => .ok none
  | (some header, c) =>
    if MAX_MESSAGE_BYTES < unpackLength header then .error (messageTooLarge (unpackLength header))
    else
      match recvExact (unpackLength header) c with
      | (none, _) => .ok none
      | (some payload, _) => decodeMessage py other payload

/-! ## Reading in pieces -/

theorem Conn.recv_eq (c : Conn) (n : ℕ) (hn : 0 < n) : ∃ k, 0 < k ∧ k ≤ n ∧
    (c.recv n).1 = c.unread.take k ∧ (c.recv n).2.unread = c.unread.drop k := by
  refine ⟨max 1 (min n (c.splits.headD n)), ?_, ?_, rfl, rfl⟩
  · omega
  · omega

/-- The loop reads what is missing, whatever the pieces. -/
theorem recvExactLoop_eq (n : ℕ) (buf : List UInt8) (c : Conn) (hbuf : buf.length ≤ n) :
    ((recvExactLoop n buf c).1 = if n ≤ buf.length + c.unread.length then
      some (buf ++ c.unread.take (n - buf.length)) else none) ∧
    (n ≤ buf.length + c.unread.length →
      (recvExactLoop n buf c).2.unread = c.unread.drop (n - buf.length)) := by
  induction buf, c using recvExactLoop.induct (n := n) with
  | case1 buf c hshort hempty =>
    -- no bytes are left, and some are missing
    obtain ⟨k, hpos, -, hchunk, -⟩ := c.recv_eq (n - buf.length) (by omega)
    have hunread : c.unread = [] := by
      rw [hchunk, List.take_eq_nil_iff] at hempty
      exact hempty.resolve_left (by omega)
    have hmissing : ¬ n ≤ buf.length + c.unread.length := by
      rw [hunread]
      simpa using hshort
    rw [recvExactLoop, if_pos hshort, if_pos hempty, if_neg hmissing]
    exact ⟨rfl, fun h => absurd h hmissing⟩
  | case2 buf c hshort hchunk ih =>
    obtain ⟨k, hpos, hle, htake, hdrop⟩ := c.recv_eq (n - buf.length) (by omega)
    rw [recvExactLoop, if_pos hshort, if_neg hchunk]
    rw [htake, hdrop, List.length_append, List.length_drop] at ih
    rw [htake]
    have hlength : (c.unread.take k).length = min k c.unread.length := List.length_take
    have hih := ih (by omega)
    by_cases henough : n ≤ buf.length + c.unread.length
    · have hk : min k c.unread.length = k := by omega
      have hsub : n - (buf.length + k) = n - buf.length - k := by omega
      rw [hlength, hk, if_pos (by omega), hsub] at hih
      obtain ⟨hread, hrest⟩ := hih
      rw [if_pos henough]
      refine ⟨?_, fun _ => ?_⟩
      · rw [hread, List.append_assoc, ← List.take_add]
        congr 3
        omega
      · rw [hrest (by omega), List.drop_drop]
        congr 1
        omega
    · rw [hlength, if_neg (by omega)] at hih
      rw [if_neg henough]
      exact ⟨hih.1, fun h => absurd h henough⟩
  | case3 buf c hfull =>
    have hsub : n - buf.length = 0 := by omega
    rw [recvExactLoop, if_neg hfull, if_pos (by omega), hsub, List.take_zero, List.append_nil]
    exact ⟨rfl, fun _ => rfl⟩

/-- **The pieces do not matter.** -/
theorem recvExact_eq (n : ℕ) (c : Conn) :
    ((recvExact n c).1 = if n ≤ c.unread.length then some (c.unread.take n) else none) ∧
    (n ≤ c.unread.length → (recvExact n c).2.unread = c.unread.drop n) := by
  have hloop := recvExactLoop_eq n [] c (Nat.zero_le n)
  simpa [recvExact] using hloop

/-- What stands in front of the stream is read whole. -/
theorem recvExact_append {c : Conn} {bytes rest : List UInt8} (h : c.unread = bytes ++ rest) :
    ∃ c', recvExact bytes.length c = (some bytes, c') ∧ c'.unread = rest := by
  obtain ⟨hread, hrest⟩ := recvExact_eq bytes.length c
  have henough : bytes.length ≤ c.unread.length := by
    rw [h, List.length_append]
    omega
  refine ⟨(recvExact bytes.length c).2, Prod.ext ?_ rfl, ?_⟩
  · rw [hread, if_pos henough, h, List.take_left]
  · rw [hrest henough, h, List.drop_left]

/-! ## Messages received -/

theorem unpackLength_packLength {n : ℕ} (h : n < 0x100000000) :
    unpackLength (packLength n) = n := by
  have h1 := toNat_ofNat (show n / 0x1000000 < 0x100 by omega)
  have h2 := toNat_ofNat (show n / 0x10000 % 0x100 < 0x100 by omega)
  have h3 := toNat_ofNat (show n / 0x100 % 0x100 < 0x100 by omega)
  have h4 := toNat_ofNat (show n % 0x100 < 0x100 by omega)
  simp only [unpackLength, packLength, List.foldl_cons, List.foldl_nil, h1, h2, h3, h4]
  omega

/-- The text of an object starts with two ASCII characters. -/
theorem payloadOf_head (data : Message) : ∃ b rest, payloadOf data = 0x7b :: b :: rest ∧
    (b = 0x22 ∨ b = 0x7d) := by
  rw [payloadOf, dumpsCompact]
  cases data with
  | nil => exact ⟨0x7d, [], by decide, Or.inr rfl⟩
  | cons kv kvs =>
    obtain ⟨k, v⟩ := kv
    obtain ⟨r, hr⟩ := startsValue_compactMembers k v kvs ['\x7d']
    rw [hr]
    exact ⟨0x22, utf8Encode r, rfl, Or.inl rfl⟩

/-- `json.loads` takes it for UTF-8. -/
theorem detectsUtf8_payloadOf (data : Message) : detectsUtf8 (payloadOf data) = true := by
  obtain ⟨b, rest, hpayload, hb⟩ := payloadOf_head data
  rw [hpayload]
  rcases hb with rfl | rfl
  · simp [detectsUtf8, List.isPrefixOf]
  · simp [detectsUtf8, List.isPrefixOf]

/-- A text that meets no limit of the interpreter. -/
structure Plain (py : Interpreter) (t : List Char) : Prop where
  deep : py.tooDeep t = false
  digits : py.tooManyDigits t = false

theorem jsonLoads_plain {py : Interpreter} {t : List Char} (hpy : Plain py t) {v : Json}
    (h : loads t = some v) : (jsonLoads py t : Outcome Json) = .ok v := by
  rw [jsonLoads, hpy.deep, hpy.digits, h]
  rfl

/-- A message that was sent, in whatever pieces: its length is read, and then its text. -/
theorem recvMessage_sent (py : Interpreter) (other : List UInt8 → Outcome Json) {data : Message}
    {bytes rest : List UInt8} (hsend : sendMessage data = some bytes) (splits : List ℕ) :
    recvMessage py other { unread := bytes ++ rest, splits := splits } =
      if MAX_MESSAGE_BYTES < (payloadOf data).length then
        .error (messageTooLarge (payloadOf data).length)
      else decodeMessage py other (payloadOf data) := by
  rw [sendMessage] at hsend
  split_ifs at hsend with hlength
  obtain rfl := Option.some.inj hsend
  have hheader : (packLength (payloadOf data).length).length = 4 := rfl
  have hunread : (Conn.mk (packLength (payloadOf data).length ++ payloadOf data ++ rest)
      splits).unread = packLength (payloadOf data).length ++ (payloadOf data ++ rest) :=
    List.append_assoc _ _ _
  obtain ⟨c, hfirst, hc⟩ := recvExact_append hunread
  obtain ⟨c', hsecond, -⟩ := recvExact_append hc
  rw [hheader] at hfirst
  rw [recvMessage, hfirst]
  dsimp only
  rw [unpackLength_packLength hlength, hsecond]

/-- **An object that is too large is refused**, in whatever pieces. -/
theorem recvMessage_tooLarge (py : Interpreter) (other : List UInt8 → Outcome Json)
    {data : Message} (hsize : MAX_MESSAGE_BYTES < (payloadOf data).length)
    {bytes rest : List UInt8} (hsend : sendMessage data = some bytes) (splits : List ℕ) :
    recvMessage py other { unread := bytes ++ rest, splits := splits } =
      .error (messageTooLarge (payloadOf data).length) := by
  rw [recvMessage_sent py other hsend, if_pos hsize]

section Received

variable {py : Interpreter} (other : List UInt8 → Outcome Json) {data : Message}
  (hpy : Plain py (dumpsCompact (.obj data)))

include hpy

theorem jsonLoadsBytes_payloadOf (hdata : (Json.obj data).Printable) :
    jsonLoadsBytes py other (payloadOf data) = .ok (Json.obj data).build := by
  rw [jsonLoadsBytes, if_pos (detectsUtf8_payloadOf data), payloadOf, utf8_utf8Encode]
  exact jsonLoads_plain hpy (loads_dumpsCompact hdata)

/-- **An object that was sent is received**, in whatever pieces, as `json` reads its text. -/
theorem recvMessage_frame (hdata : (Json.obj data).Printable)
    (hsize : (payloadOf data).length ≤ MAX_MESSAGE_BYTES) {bytes rest : List UInt8}
    (hsend : sendMessage data = some bytes) (splits : List ℕ) :
    recvMessage py other { unread := bytes ++ rest, splits := splits } =
      .ok (some (dictOf (buildMembers data))) := by
  rw [recvMessage_sent py other hsend, if_neg (not_lt.2 hsize), decodeMessage,
    jsonLoadsBytes_payloadOf other hpy hdata, Json.build]
  rfl

end Received

theorem sendMessage_of_fits {data : Message} (h : (payloadOf data).length ≤ MAX_MESSAGE_BYTES) :
    sendMessage data = some (packLength (payloadOf data).length ++ payloadOf data) := by
  rw [sendMessage, if_pos (lt_of_le_of_lt h (by decide))]

end Lubko.Supervise
