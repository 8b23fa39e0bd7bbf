import Lubko.Lib.Utf8Text
import Lubko.Output.Trim

/-!
# Output that is text

Captured bytes may be anything. Where they are valid UTF-8 without NUL, the replacement policy has
nothing to replace: the boundaries the alignments find are those between characters, and a range from
one boundary to another decodes to the characters between them.

* `utf8_split` — a boundary of valid bytes falls between two characters.
* `live_window` — the window of `output_window_text` for any buffer at any base.
-/

namespace Lubko.Output

open Lubko.Lib Lubko.Worker

/-! ## Complete sequences are valid code points -/

/-- One step of `_code_point_scalar`. -/
theorem scalar_step (cp : ℕ) {b : UInt8} (h : isContinuation b = true) :
    (cp <<< 6) ||| (b.toNat &&& 0x3f) = cp * 0x40 + (b.toNat - 0x80) := by
  simp only [isContinuation, Bool.and_eq_true, decide_eq_true_eq] at h
  have hmask : b.toNat &&& 0x3f = b.toNat % 0x40 := Nat.and_two_pow_sub_one_eq_mod b.toNat 6
  have hlt : b.toNat % 0x40 < 2 ^ 6 := Nat.mod_lt _ (by norm_num)
  calc (cp <<< 6) ||| (b.toNat &&& 0x3f) = (cp <<< 6) ||| (b.toNat % 0x40) := congrArg _ hmask
    _ = (cp <<< 6) + b.toNat % 0x40 := (Nat.shiftLeft_add_eq_or_of_lt hlt cp).symm
    _ = cp * 0x40 + b.toNat % 0x40 := congrArg (· + b.toNat % 0x40) (Nat.shiftLeft_eq cp 6)
    _ = cp * 0x40 + (b.toNat - 0x80) := by omega

theorem scalar_foldl (cp : ℕ) {cont : List UInt8} (h : ∀ b ∈ cont, isContinuation b = true) :
    cont.foldl (fun cp byte => (cp <<< 6) ||| (byte.toNat &&& 0x3f)) cp =
      cont.foldl (fun acc b => acc * 0x40 + (b.toNat - 0x80)) cp := by
  induction cont generalizing cp with
  | nil => simp only [List.foldl_nil]
  | cons b cont ih =>
    simp only [List.foldl_cons]
    rw [scalar_step cp (h b List.mem_cons_self)]
    exact ih _ fun c hc => h c (List.mem_cons_of_mem b hc)

theorem isContinuation_of_isSecond {lead b : UInt8} (h : isSecond lead b = true) :
    isContinuation b = true := by
  rw [isSecond, Bool.and_eq_true] at h
  exact h.1

theorem isContinuation_of_mem {lead b : UInt8} {cont : List UInt8} (h : IsSequence lead cont)
    (hb : b ∈ cont) : isContinuation b = true := by
  rcases continuationRun_cases lead cont with hnil | ⟨c, tl, hcons, hsecond, htl⟩
  · rw [← h.run, hnil] at hb
    cases hb
  · rw [← h.run, hcons] at hb
    rcases List.mem_cons.1 hb with rfl | hb
    · exact isContinuation_of_isSecond hsecond
    · exact htl b hb

theorem codePointLength_of_sequence {lead : UInt8} {cont : List UInt8} (h : IsSequence lead cont)
    (hne : cont ≠ []) : codePointLength lead = cont.length + 1 := by
  have hcases := sequenceLength_cases lead
  have hlength := h.length
  have hpos := List.length_pos_iff.2 hne
  unfold codePointLength
  split_ifs <;> omega

/-- The lead byte without its mark. -/
theorem lead_mask {lead : UInt8} {cont : List UInt8} (h : IsSequence lead cont) (hne : cont ≠ []) :
    lead.toNat &&& ((1 <<< (7 - (cont.length + 1))) - 1) =
      lead.toNat - (if cont.length = 0 then 0 else if cont.length = 1 then 0xc0
        else if cont.length = 2 then 0xe0 else 0xf0) := by
  have hmask : ∀ k, lead.toNat &&& ((1 <<< k) - 1) = lead.toNat % 2 ^ k := by
    intro k
    rw [Nat.shiftLeft_eq, Nat.one_mul]
    exact Nat.and_two_pow_sub_one_eq_mod lead.toNat k
  rw [hmask]
  rcases h.cases with ⟨rfl, -⟩ | ⟨b, rfl, hlo, hhi, -⟩ | ⟨b, c, rfl, hlo, hhi, -, -⟩ |
    ⟨b, c, d, rfl, hlo, hhi, -, -, -⟩
  · exact absurd rfl hne
  · show lead.toNat % 32 = lead.toNat - 0xc0
    omega
  · show lead.toNat % 16 = lead.toNat - 0xe0
    omega
  · show lead.toNat % 8 = lead.toNat - 0xf0
    omega

theorem codePointScalar_of_sequence {lead : UInt8} {cont : List UInt8} (h : IsSequence lead cont)
    (hne : cont ≠ []) :
    codePointScalar lead cont (cont.length + 1) = some (sequenceValue lead cont) := by
  have hvalue : cont.foldl (fun cp byte => (cp <<< 6) ||| (byte.toNat &&& 0x3f))
      (lead.toNat &&& ((1 <<< (7 - (cont.length + 1))) - 1)) = sequenceValue lead cont := by
    rw [lead_mask h hne, scalar_foldl _ fun b hb => isContinuation_of_mem h hb]
    rfl
  have hpos := List.length_pos_iff.2 hne
  have hbounds := h.bounds.2
  unfold codePointScalar
  dsimp only
  rw [hvalue, if_neg]
  unfold codePointMinValue
  split_ifs <;> omega

/-- A complete sequence of several bytes is a valid code point. -/
theorem validCodePointAt_sequence {lead : UInt8} {cont : List UInt8} (h : IsSequence lead cont)
    (hne : cont ≠ []) (rest : List UInt8) :
    validCodePointAt (lead :: cont ++ rest) 0 (cont.length + 1) = true := by
  have hlength : cont.length + 1 ≤ 4 := by
    have hcases := sequenceLength_cases lead
    have := h.length
    omega
  have hpos := List.length_pos_iff.2 hne
  have hcont : ((lead :: cont ++ rest).take (0 + (cont.length + 1))).drop (0 + 1) = cont := by
    rw [Nat.zero_add, Nat.zero_add, List.cons_append, List.take_succ_cons, List.take_left]
    rfl
  have hall : cont.all isContinuation = true :=
    List.all_eq_true.2 fun b hb => isContinuation_of_mem h hb
  have hvalid := h.bounds.1
  have hlt := h.value_lt
  have hlead : codePointLength ((lead :: cont ++ rest).getD 0 0) = cont.length + 1 :=
    codePointLength_of_sequence h hne
  unfold validCodePointAt
  rw [if_neg (by omega), if_neg (by simp), if_neg (not_not.2 hlead), hcont]
  dsimp only
  have hscalar : codePointScalar ((lead :: cont ++ rest).getD 0 0) cont (cont.length + 1) =
      some (sequenceValue lead cont) := codePointScalar_of_sequence h hne
  rw [hall, if_neg (by simp), hscalar]
  show (if 0x10ffff < sequenceValue lead cont then false else
    !(0xd800 ≤ sequenceValue lead cont && sequenceValue lead cont ≤ 0xdfff)) = true
  rw [if_neg (by omega)]
  rcases hvalid with hlow | hhigh
  · simp [show ¬ 0xd800 ≤ sequenceValue lead cont by omega]
  · simp [show ¬ sequenceValue lead cont ≤ 0xdfff by omega]

/-- The offset lies strictly inside a complete sequence. -/
def InsideCodePoint (data : List UInt8) (k : ℕ) : Prop :=
  ∃ before lead cont rest, data = before ++ (lead :: cont ++ rest) ∧ IsSequence lead cont ∧
    before.length < k ∧ k < before.length + cont.length + 1

theorem InsideCodePoint.splits {data : List UInt8} {k : ℕ} (h : InsideCodePoint data k) :
    Splits data k := by
  obtain ⟨before, lead, cont, rest, rfl, hseq, hlo, hhi⟩ := h
  have hne : cont ≠ [] := by
    intro hnil
    rw [hnil, List.length_nil] at hhi
    omega
  refine ⟨before.length, cont.length + 1, hlo, by omega, ?_⟩
  have hdrop := validCodePointAt_drop (before ++ (lead :: cont ++ rest)) before.length 0
    (cont.length + 1)
  rw [List.drop_left] at hdrop
  exact hdrop.symm.trans (validCodePointAt_sequence hseq hne rest)

/-! ## Text -/

/-- Valid UTF-8 without NUL. -/
structure Readable (data : List UInt8) (text : List Char) : Prop where
  decodes : utf8 data = some text
  plain : '\x00' ∉ text

theorem pgSafeDecode_of_readable {data : List UInt8} {text : List Char} (h : Readable data text) :
    pgSafeDecode data = text.map CodePoint.ofChar := by
  rw [pgSafeDecode, decodeReplace_of_utf8 h.decodes, List.map_map]
  refine List.map_congr_left fun c hc => ?_
  have hne : CodePoint.ofChar c ≠ 0 := by
    intro hzero
    have htoNat : c.toNat = 0 := congrArg Fin.val hzero
    have hnul : c = '\x00' := Char.ext (UInt32.toNat_inj.1 htoNat)
    rw [hnul] at hc
    exact h.plain hc
  exact if_neg hne

theorem utf8ByteLength_of_readable {data : List UInt8} {text : List Char} (h : Readable data text) :
    (pgSafeDecode data).utf8ByteLength = data.length := by
  rw [pgSafeDecode_of_readable h, utf8ByteLength_of_utf8 h.decodes]

/-- **A boundary of valid bytes** falls between two characters. -/
theorem utf8_split {data : List UInt8} {text : List Char} (h : utf8 data = some text) {k : ℕ}
    (hk : k ≤ data.length) (hsplit : ¬ Splits data k) :
    ∃ before after, text = before ++ after ∧ utf8 (data.take k) = some before ∧
      utf8 (data.drop k) = some after := by
  induction text generalizing data k with
  | nil =>
    cases data with
    | nil => exact ⟨[], [], rfl, by simp [utf8, decodeStrictFrom], by simp [utf8, decodeStrictFrom]⟩
    | cons b bs =>
      obtain ⟨cont, rest, text', -, -, -, hcons⟩ := utf8_cons h
      cases hcons
  | cons c text ih =>
    cases data with
    | nil => cases h
    | cons b bs =>
      obtain ⟨cont, rest, text', rfl, hseq, hrest, hcons⟩ := utf8_cons h
      obtain ⟨rfl, rfl⟩ := List.cons.inj hcons
      rcases Nat.eq_zero_or_pos k with rfl | hpos
      · exact ⟨[], _, rfl, rfl, h⟩
      · -- the boundary is not inside the first character
        have hge : cont.length + 1 ≤ k := by
          by_contra hlt
          refine hsplit (InsideCodePoint.splits ⟨[], b, cont, rest, rfl, hseq, hpos, ?_⟩)
          rw [List.length_nil]
          omega
        obtain ⟨j, rfl⟩ := Nat.exists_eq_add_of_le hge
        have htake : (b :: cont ++ rest).take ((b :: cont).length + j) = b :: cont ++ rest.take j :=
          List.take_length_add_append j
        have hdrop : (b :: cont ++ rest).drop ((b :: cont).length + j) = rest.drop j :=
          List.drop_length_add_append j
        rw [List.cons_append, List.length_cons] at htake hdrop
        have hsplit' : ¬ Splits rest j := by
          intro hin
          obtain ⟨lead, length, hlo, hhi, hvalid⟩ := hin
          refine hsplit ⟨cont.length + 1 + lead, length, by omega, by omega, ?_⟩
          rw [← validCodePointAt_drop]
          have hall : (b :: cont ++ rest).drop (b :: cont).length = rest := List.drop_left
          rw [List.cons_append, List.length_cons] at hall
          rw [hall]
          exact hvalid
        have hle : j ≤ rest.length := by
          simp only [List.length_cons, List.length_append] at hk
          omega
        obtain ⟨before, after, rfl, hbefore, hafter⟩ := ih hrest hle hsplit'
        refine ⟨sequenceChar b cont :: before, after, rfl, ?_, ?_⟩
        · rw [htake]
          exact utf8_sequence hseq hbefore
        · rw [hdrop]
          exact hafter

/-- A range of a readable buffer from one boundary on is readable. -/
theorem Readable.drop {data : List UInt8} {text : List Char} (h : Readable data text) {k : ℕ}
    (hk : k ≤ data.length) (hsplit : ¬ Splits data k) :
    ∃ after, Readable (data.drop k) after := by
  obtain ⟨before, after, rfl, -, hafter⟩ := utf8_split h.decodes hk hsplit
  exact ⟨after, hafter, fun hmem => h.plain (List.mem_append_right before hmem)⟩

/-! ## The live window -/

/-- What `output_window_text` promises of a text and its offsets, for a buffer at a base. -/
structure LiveWindow (data : List UInt8) (base : ℕ) (text : PyStr) (start stop : ℕ) : Prop where
  stop_eq : stop = base + data.length
  base_le : base ≤ start
  le : start ≤ stop
  span : stop - start ≤ OUTPUT_TAIL_MAX_BYTES
  text_eq : text = pgSafeDecode (data.drop (start - base))
  fits : text.utf8ByteLength ≤ OUTPUT_TAIL_MAX_BYTES
  boundary : ¬ InsideCodePoint data (start - base)
  /-- `build_output_window_payload` never raises on it. -/
  builds : ∀ previous, ∃ window, buildOutputWindowPayload text start stop previous = .ok window
  /-- Where the newest bytes and the three before them are text, nothing is replaced and at most
  three bytes are left out. -/
  readable : ∀ newest, Readable
      (data.drop (data.length - min OUTPUT_TAIL_MAX_BYTES data.length - 3)) newest →
    (∃ shown, Readable (data.drop (start - base)) shown ∧ text = shown.map CodePoint.ofChar) ∧
      min OUTPUT_TAIL_MAX_BYTES data.length - 3 ≤ stop - start

/-- A window whose newest bytes are text is the aligned tail, whole. -/
theorem alignedWindow_of_readable (stream : OutputStream) {n limit : ℕ}
    (hn : n ≤ stream.data.length) (hspan : stream.data.length - n ≤ limit) {newest : List Char}
    (h : Readable (stream.data.drop (n - 3)) newest) :
    (alignedWindow stream n stream.data.length limit).1 = alignCodePointStart stream.data n ∧
      ∃ shown, Readable (stream.data.drop (alignCodePointStart stream.data n)) shown := by
  obtain ⟨hsplit, hge, hle⟩ := alignCodePointStart_spec stream.data hn
  rw [alignedWindow_eq stream hn]
  generalize alignCodePointStart stream.data n = head at hsplit hge hle ⊢
  have hinner : ¬ Splits (stream.data.drop (n - 3)) (head - (n - 3)) := by
    rintro ⟨lead, length, hlo, hhi, hvalid⟩
    rw [validCodePointAt_drop] at hvalid
    exact hsplit ⟨n - 3 + lead, length, by omega, by omega, hvalid⟩
  obtain ⟨shown, hshown⟩ := h.drop (by rw [List.length_drop]; omega) hinner
  rw [List.drop_drop, show n - 3 + (head - (n - 3)) = head by omega] at hshown
  refine ⟨?_, shown, hshown⟩
  have hfull : (pgSafeDecode (stream.data.drop head)).utf8ByteLength ≤ limit := by
    rw [utf8ByteLength_of_readable hshown, List.length_drop]
    omega
  rw [boundedSuffix_fst, if_pos hfull, Nat.add_zero]

/-- **The live window** is sound for every buffer at every base. -/
theorem live_window (stream : OutputStream) (base : ℕ) :
    LiveWindow stream.data base (outputWindowText stream OUTPUT_TAIL_MAX_BYTES base).1
      (outputWindowText stream OUTPUT_TAIL_MAX_BYTES base).2.1
      (outputWindowText stream OUTPUT_TAIL_MAX_BYTES base).2.2 := by
  obtain ⟨cut, hwindow, hok, hcut⟩ := outputWindowText_base stream OUTPUT_TAIL_MAX_BYTES base
  rw [hwindow]
  dsimp only
  have hle := hok.le
  have hspan := hok.span
  have hbuild : cut.2.utf8ByteLength ≤ OUTPUT_TAIL_MAX_BYTES ∧
      cut.1 + base ≤ stream.data.length + base ∧
        stream.data.length + base - (cut.1 + base) ≤ OUTPUT_TAIL_MAX_BYTES :=
    ⟨hok.fits, by omega, by omega⟩
  refine ⟨by omega, by omega, hbuild.2.1, hbuild.2.2, ?_, hok.fits, ?_, fun previous => ?_, ?_⟩
  · rw [Nat.add_sub_cancel]
    exact hok.text
  · rw [Nat.add_sub_cancel]
    exact fun hinside => hok.boundary hinside.splits
  · exact ⟨_, buildOutputWindowPayload_eq_ok.2 ⟨hbuild.1, hbuild.2.1, hbuild.2.2, rfl⟩⟩
  · intro newest hnewest
    have hfrom : stream.data.length - min OUTPUT_TAIL_MAX_BYTES stream.data.length =
        stream.data.length - OUTPUT_TAIL_MAX_BYTES := by omega
    rw [hfrom] at hnewest
    obtain ⟨hhead, shown, hshown⟩ := alignedWindow_of_readable stream
      (Nat.sub_le _ OUTPUT_TAIL_MAX_BYTES) (show _ ≤ OUTPUT_TAIL_MAX_BYTES by omega) hnewest
    rw [← hcut] at hhead
    have hnear := alignCodePointStart_le stream.data (stream.data.length - OUTPUT_TAIL_MAX_BYTES)
    rw [Nat.add_sub_cancel, hhead]
    refine ⟨⟨shown, hshown, ?_⟩, by omega⟩
    rw [hok.text, hhead]
    exact pgSafeDecode_of_readable hshown

end Lubko.Output
