import Lubko.Output.Archive
import Mathlib.Data.Nat.Find

/-!
# The window of a trimmed buffer

`_trim_published` drops the captured bytes before the head of the window it has published, and later
windows are cut from what is left. Where the dropped bytes would still be outside the window, nothing
can be seen of that.

A lead byte at the end of the captured bytes is a replacement character of three bytes; once the
second byte of a two-byte character arrives, the pair takes two. So the text from a boundary that was
just too long can fit one publication later, when the buffer no longer has it.

* `window_trimmed` — the two windows, where the texts that fit are those from some boundary on.
* `invisible_iff_hidden` — over whole runs, trimming is invisible exactly when no dropped boundary
  would fit again.
* `completed_character_reappears` — one does.
-/

namespace Lubko.Output

open Lubko.Lib Lubko.Worker

/-- The aligned head is the same from a boundary on, and with three bytes of context. -/
theorem alignCodePointStart_drop {data : List UInt8} {a k : ℕ} (hak : a ≤ k) (hk : k ≤ data.length)
    (hctx : ¬ Splits data a ∨ a + 3 ≤ k) :
    a + alignCodePointStart (data.drop a) ((k - a : ℕ) : ℤ) = alignCodePointStart data k := by
  have halign := (align_window hk hak hctx (.inr le_rfl)).2
  rwa [List.take_length] at halign

/-! ## The two windows -/

/-- Where the newest bytes that the window may cover start. -/
def tailFrom (captured : List UInt8) : ℕ :=
  captured.length - min captured.length OUTPUT_TAIL_MAX_BYTES

/-- The text of the bytes from an offset on fits the live tail. -/
def Fits (captured : List UInt8) (k : ℕ) : Prop :=
  (pgSafeDecode (captured.drop k)).utf8ByteLength ≤ OUTPUT_TAIL_MAX_BYTES

/-- Once the text from a boundary on fits, so does the text from every later one. -/
def Ordered (captured : List UInt8) : Prop :=
  ∀ k k', tailFrom captured ≤ k → k ≤ k' → k' ≤ captured.length → ¬ Splits captured k →
    ¬ Splits captured k' → Fits captured k → Fits captured k'

/-- No boundary before the buffer's first byte could start the window. -/
def Hidden (captured : List UInt8) (spoolStart : ℕ) : Prop :=
  ∀ k, tailFrom captured ≤ k → k < spoolStart → ¬ Splits captured k → ¬ Fits captured k

section Window

variable {captured : List UInt8}

theorem tailFrom_le (captured : List UInt8) : tailFrom captured ≤ captured.length :=
  Nat.sub_le _ _

theorem fits_length : Fits captured captured.length := by
  rw [Fits, List.drop_length, pgSafeDecode_nil]
  exact Nat.zero_le _

/-- Ordered texts fit from one boundary on. -/
theorem Ordered.exists_first (h : Ordered captured) :
    ∃ m, tailFrom captured ≤ m ∧ m ≤ captured.length ∧ ¬ Splits captured m ∧
      ∀ k, tailFrom captured ≤ k → k ≤ captured.length → ¬ Splits captured k →
        (Fits captured k ↔ m ≤ k) := by
  classical
  have hsome : ∃ k, tailFrom captured ≤ k ∧ k ≤ captured.length ∧ ¬ Splits captured k ∧
      Fits captured k :=
    ⟨_, tailFrom_le captured, le_rfl, not_splits_of_le le_rfl, fits_length⟩
  obtain ⟨hfrom, hle, hsplit, hfits⟩ := Nat.find_spec hsome
  refine ⟨Nat.find hsome, hfrom, hle, hsplit, fun k hk hk' hboundary => ⟨fun hfit => ?_, fun hmk => ?_⟩⟩
  · exact Nat.find_min' hsome ⟨hk, hk', hboundary, hfit⟩
  · exact h _ k hfrom hmk hk' hsplit hboundary hfits

/-- The bounded suffix of the bytes from a boundary on starts at the first fitting one. -/
theorem boundedSuffix_drop {m x : ℕ} (hm : m ≤ captured.length) (hmsplit : ¬ Splits captured m)
    (hfirst : ∀ k, tailFrom captured ≤ k → k ≤ captured.length → ¬ Splits captured k →
      (Fits captured k ↔ m ≤ k))
    (hx : tailFrom captured ≤ x) (hxle : x ≤ captured.length) (hxsplit : ¬ Splits captured x) :
    x + (boundedSuffix (captured.drop x) OUTPUT_TAIL_MAX_BYTES).1 = max m x := by
  have hkeep : (boundedSuffix (captured.drop x) OUTPUT_TAIL_MAX_BYTES).1 = max m x - x := by
    refine boundedSuffix_eq ?_ ?_ fun k hk hsplit => ?_
    · rw [List.length_drop]
      omega
    · rcases le_total m x with hmx | hxm
      · rw [max_eq_right hmx, Nat.sub_self]
        exact not_splits_zero _
      · rw [max_eq_left hxm]
        rintro ⟨lead, length, hlo, hhi, hvalid⟩
        rw [validCodePointAt_drop] at hvalid
        exact hmsplit ⟨x + lead, length, by omega, by omega, hvalid⟩
    · rw [List.length_drop] at hk
      have hiff := hfirst (x + k) (by omega) (by omega) (not_splits_add hxsplit hsplit)
      rw [Fits] at hiff
      rw [List.drop_drop, hiff]
      omega
  rw [hkeep]
  omega

/-- The window of the whole stream. -/
theorem outputWindowText_whole (captured : List UInt8) :
    outputWindowText { data := captured } OUTPUT_TAIL_MAX_BYTES 0 =
      let a := alignCodePointStart captured (tailFrom captured)
      let kept := boundedSuffix (captured.drop a) OUTPUT_TAIL_MAX_BYTES
      (kept.2, a + kept.1, captured.length) := by
  have hhead : ((captured.length + 0 - min (captured.length + 0) OUTPUT_TAIL_MAX_BYTES : ℕ) : ℤ) -
      ((0 : ℕ) : ℤ) = ((tailFrom captured : ℕ) : ℤ) := by
    rw [tailFrom]
    omega
  have hstop : ((captured.length + 0 : ℕ) : ℤ) - ((0 : ℕ) : ℤ) = captured.length := by omega
  unfold outputWindowText
  dsimp only
  rw [hhead, hstop, alignedWindow_eq { data := captured } (tailFrom_le captured)]
  rfl

/-- The window of a buffer that lacks some of the newest bytes: it starts from the whole buffer. -/
theorem outputWindowText_short {stream : OutputStream} {b : ℕ}
    (hdata : stream.data = captured.drop b) (hb : b ≤ captured.length)
    (hshort : tailFrom captured ≤ b) :
    outputWindowText stream OUTPUT_TAIL_MAX_BYTES b =
      let kept := boundedSuffix (captured.drop b) OUTPUT_TAIL_MAX_BYTES
      (kept.2, b + kept.1, captured.length) := by
  have hlen : stream.data.length + b = captured.length := by
    rw [hdata, List.length_drop]
    omega
  have hstop : ((captured.length : ℕ) : ℤ) - (b : ℤ) = stream.data.length := by omega
  have hzero : alignCodePointStart (captured.drop b) ((0 : ℕ) : ℤ) = 0 := if_pos (by omega)
  unfold outputWindowText
  dsimp only
  rw [hlen, hstop, ← tailFrom, alignedWindow_of_nonpos stream (by omega),
    alignedWindow_eq stream (Nat.zero_le _), hdata, hzero, List.drop_zero, Nat.zero_add,
    Nat.add_comm]

/-- The window of a buffer that has all of them. -/
theorem outputWindowText_long {stream : OutputStream} {b : ℕ}
    (hdata : stream.data = captured.drop b) (hb : b ≤ tailFrom captured)
    (hboundary : ¬ Splits captured b) :
    outputWindowText stream OUTPUT_TAIL_MAX_BYTES b =
      outputWindowText { data := captured } OUTPUT_TAIL_MAX_BYTES 0 := by
  have hfrom := tailFrom_le captured
  have hlen : stream.data.length + b = captured.length := by
    rw [hdata, List.length_drop]
    omega
  have hstop : ((captured.length : ℕ) : ℤ) - (b : ℤ) = stream.data.length := by omega
  have hhead : ((tailFrom captured : ℕ) : ℤ) - (b : ℤ) = ((tailFrom captured - b : ℕ) : ℤ) := by
    omega
  have halign := alignCodePointStart_drop hb hfrom (.inl hboundary)
  rw [outputWindowText_whole]
  unfold outputWindowText
  dsimp only
  rw [hlen, hstop, ← tailFrom, hhead, alignedWindow_eq stream (by omega), hdata, List.drop_drop,
    ← halign]
  congr 2
  omega

/-- The first boundary of the newest bytes. -/
theorem alignCodePointStart_tailFrom_le {k : ℕ} (hk : tailFrom captured ≤ k)
    (hsplit : ¬ Splits captured k) : alignCodePointStart captured (tailFrom captured) ≤ k := by
  by_cases hfrom : Splits captured (tailFrom captured)
  · obtain ⟨lead, length, hlo, hhi, hvalid⟩ := hfrom
    rw [alignCodePointStart_of_valid hvalid hlo hhi]
    by_contra hlt
    exact hsplit ⟨lead, length, by omega, by omega, hvalid⟩
  · rw [alignCodePointStart_eq_self (tailFrom_le captured) hfrom]
    exact hk

/-- **The trimmed window is the untrimmed one exactly when no dropped boundary fits.** -/
theorem window_trimmed_iff {stream : OutputStream} {b : ℕ} (hdata : stream.data = captured.drop b)
    (hb : b ≤ captured.length) (hboundary : ¬ Splits captured b)
    (hordered : b ≤ tailFrom captured ∨ Ordered captured) :
    outputWindowText stream OUTPUT_TAIL_MAX_BYTES b =
        outputWindowText { data := captured } OUTPUT_TAIL_MAX_BYTES 0 ↔
      Hidden captured b := by
  by_cases hlong : b ≤ tailFrom captured
  · refine iff_of_true (outputWindowText_long hdata hlong hboundary) fun k hk hkb => ?_
    omega
  have hshort : tailFrom captured ≤ b := by omega
  obtain ⟨m, hmfrom, hmle, hmsplit, hfirst⟩ := (hordered.resolve_left hlong).exists_first
  obtain ⟨hasplit, hafrom, hale⟩ := alignCodePointStart_spec captured
    (tailFrom_le captured)
  have ham := alignCodePointStart_tailFrom_le hmfrom hmsplit
  have hwhole := boundedSuffix_drop hmle hmsplit hfirst hafrom hale hasplit
  have hleft := boundedSuffix_drop hmle hmsplit hfirst hshort hb hboundary
  have htext : ∀ x, (boundedSuffix (captured.drop x) OUTPUT_TAIL_MAX_BYTES).2 =
      pgSafeDecode (captured.drop
        (x + (boundedSuffix (captured.drop x) OUTPUT_TAIL_MAX_BYTES).1)) := by
    intro x
    rw [(boundedSuffix_spec (captured.drop x) OUTPUT_TAIL_MAX_BYTES).2.1, List.drop_drop]
  rw [outputWindowText_whole, outputWindowText_short hdata hb hshort]
  dsimp only
  rw [htext, htext, hwhole, hleft, max_eq_left ham]
  constructor
  · intro heq k hk hkb hksplit hfits
    have hmk := (hfirst k hk (by omega) hksplit).1 hfits
    have hhead := congrArg (fun w : PyStr × ℕ × ℕ => w.2.1) heq
    dsimp only at hhead
    omega
  · intro hhidden
    have hbm : b ≤ m := by
      by_contra hlt
      exact hhidden m hmfrom (by omega) hmsplit ((hfirst m hmfrom hmle hmsplit).2 le_rfl)
    rw [max_eq_left hbm]

end Window

/-! ## Runs -/

namespace Publisher

/-- The buffer holds the captured bytes from its first one on, which starts no rest of a code
point. -/
structure Trimmed (s : Publisher) (name : StreamName) : Prop where
  kept : (jobStream s.job name).data = (s.captured name).drop (jobStream s.job name).spoolStart
  le : (jobStream s.job name).spoolStart ≤ (s.captured name).length
  boundary : ¬ Splits (s.captured name) (jobStream s.job name).spoolStart
  far : (jobStream s.job name).spoolStart = 0 ∨
    (jobStream s.job name).spoolStart + 3 ≤ (s.captured name).length

/-- A publication that commits shows, for each stream it publishes, the window of all captured
bytes. -/
def Invisible (s : Publisher) : PublisherEvent → Prop
  | .append _ _ => True
  | .publish names force _ uuid4 outcome => outcome ≠ .notCommitted →
      ∀ plans output, s.transaction names force uuid4 = some (plans, output) →
        ∀ name plan, plans name = some plan →
          (plan.window.tail, plan.window.start, plan.window.stop) =
            outputWindowText { data := s.captured name } OUTPUT_TAIL_MAX_BYTES 0

/-- What holds of each stream that a committing publication replaces the window of. -/
def AtChanged (P : List UInt8 → ℕ → Prop) (s : Publisher) : PublisherEvent → Prop
  | .append _ _ => True
  | .publish names force _ uuid4 outcome => outcome ≠ .notCommitted →
      (s.transaction names force uuid4).isSome = true →
        ∀ name, Changed names force name (jobStream s.job name) →
          P (s.captured name) (jobStream s.job name).spoolStart

/-- The texts of the newest bytes are ordered, if the buffer lacks some of these. -/
def OrderedFrom (captured : List UInt8) (spoolStart : ℕ) : Prop :=
  spoolStart ≤ tailFrom captured ∨ Ordered captured

theorem not_splits_append {data bytes : List UInt8} {k : ℕ} (h : ¬ Splits data k)
    (hfar : k = 0 ∨ k + 3 ≤ data.length) : ¬ Splits (data ++ bytes) k := by
  rintro ⟨lead, length, hlo, hhi, hvalid⟩
  have hlength := (validCodePointAt_bounds hvalid).2.1
  refine h ⟨lead, length, hlo, hhi, ?_⟩
  have hslice : ((data ++ bytes).drop lead).take length = (data.drop lead).take length := by
    rw [List.drop_append_of_le_length (by omega), List.take_append_of_le_length]
    rw [List.length_drop]
    omega
  rw [validCodePointAt_eq, ← hslice, ← validCodePointAt_eq]
  exact hvalid

/-- The head of a window is zero or at least three bytes before the end. -/
theorem head_far {s : Publisher} {name : StreamName} (h : s.Trimmed name) :
    head (jobStream s.job name) = 0 ∨ head (jobStream s.job name) + 3 ≤ (s.captured name).length := by
  have hkeeps : ∀ x ≤ (s.captured name).length, x = 0 ∨ x + 3 ≤ (s.captured name).length →
      x + (boundedSuffix ((s.captured name).drop x) OUTPUT_TAIL_MAX_BYTES).1 = 0 ∨
        x + (boundedSuffix ((s.captured name).drop x) OUTPUT_TAIL_MAX_BYTES).1 + 3 ≤
          (s.captured name).length := by
    intro x hxle hx
    rcases Nat.eq_zero_or_pos
      (boundedSuffix ((s.captured name).drop x) OUTPUT_TAIL_MAX_BYTES).1 with hzero | hpos
    · rw [hzero, Nat.add_zero]
      exact hx
    · have hthree := boundedSuffix_keeps (by decide) hpos
      rw [List.length_drop] at hthree
      exact .inr (by omega)
  rw [head]
  by_cases hlong : (jobStream s.job name).spoolStart ≤ tailFrom (s.captured name)
  · rw [outputWindowText_long h.kept hlong h.boundary, outputWindowText_whole]
    obtain ⟨-, -, hale⟩ := alignCodePointStart_spec (s.captured name) (tailFrom_le _)
    refine hkeeps _ hale ?_
    have hnear := alignCodePointStart_le (s.captured name) (tailFrom (s.captured name))
    rcases Nat.eq_zero_or_pos (tailFrom (s.captured name)) with hzero | hpos
    · rw [hzero]
      exact .inl (if_pos (by omega))
    · have hfrom : tailFrom (s.captured name) + 4000 = (s.captured name).length := by
        have hlimit : OUTPUT_TAIL_MAX_BYTES = 4000 := rfl
        rw [tailFrom, hlimit] at hpos ⊢
        omega
      exact .inr (by omega)
  · rw [outputWindowText_short h.kept h.le (by omega)]
    exact hkeeps _ h.le h.far

theorem Trimmed.step {s s' : Publisher} {e : PublisherEvent} (hs : ∀ name, s.Trimmed name)
    (h : s.step e = some s') (name : StreamName) : s'.Trimmed name := by
  have hold := hs name
  cases e with
  | append target bytes =>
    obtain rfl := Option.some.inj h
    by_cases hname : name = target
    · subst hname
      constructor
      all_goals simp only [jobStream_setStream_self, Function.update_self]
      · rw [hold.kept, List.drop_append_of_le_length hold.le]
      · rw [List.length_append]
        exact hold.le.trans (Nat.le_add_right _ _)
      · exact not_splits_append hold.boundary hold.far
      · rw [List.length_append]
        exact hold.far.imp id fun hfar => by omega
    · constructor
      all_goals simp only [jobStream_setStream_ne _ hname, Function.update_of_ne hname]
      exacts [hold.kept, hold.le, hold.boundary, hold.far]
  | publish names force now uuid4 outcome =>
    cases outcome with
    | notCommitted => exact Option.some.inj h ▸ hold
    | unacknowledged =>
      obtain ⟨⟨plans, output⟩, -, hstep⟩ := Option.bind_eq_some_iff.1 h
      obtain rfl := Option.some.inj hstep
      exact ⟨hold.kept, hold.le, hold.boundary, hold.far⟩
    | committed =>
      obtain ⟨⟨plans, output⟩, htx, hstep⟩ := Option.bind_eq_some_iff.1 h
      obtain rfl := Option.some.inj hstep
      have hstream := jobStream_acknowledge (s.insert plans output) plans now name
      rcases transaction_eq_some htx name with ⟨plan, hplan, -, hfor⟩ | ⟨hnone, -⟩
      · obtain ⟨-, -, -, hspool, hdata⟩ := settleStream_eq hplan hfor now
        obtain ⟨cut, hwindow, hok⟩ := outputWindowText_spec (jobStream s.job name)
          OUTPUT_TAIL_MAX_BYTES
        have hhead : head (jobStream s.job name) = (jobStream s.job name).spoolStart + cut.1 := by
          rw [head, hwindow, Nat.add_comm]
        have hle := hok.le
        have hboundary := hok.boundary
        rw [hold.kept] at hle hboundary
        rw [List.length_drop] at hle
        have hspoolLe := hold.le
        constructor
        all_goals rw [hstream]
        · show (settleStream plans now name (jobStream s.job name)).data =
            (s.captured name).drop (settleStream plans now name (jobStream s.job name)).spoolStart
          rw [hspool, hdata, hold.kept, List.drop_drop]
          congr 1
          omega
        · show (settleStream plans now name (jobStream s.job name)).spoolStart ≤
            (s.captured name).length
          rw [hspool, hhead]
          omega
        · show ¬ Splits (s.captured name)
            (settleStream plans now name (jobStream s.job name)).spoolStart
          rw [hspool, hhead]
          exact not_splits_add hold.boundary hboundary
        · show (settleStream plans now name (jobStream s.job name)).spoolStart = 0 ∨
            (settleStream plans now name (jobStream s.job name)).spoolStart + 3 ≤
              (s.captured name).length
          rw [hspool]
          exact head_far hold
      · rw [settleStream_of_none hnone] at hstream
        constructor
        all_goals rw [hstream]
        exacts [hold.kept, hold.le, hold.boundary, hold.far]

/-- Exactness at one event. -/
theorem invisible_iff {s : Publisher} (hs : ∀ name, s.Trimmed name) {e : PublisherEvent}
    (hordered : AtChanged OrderedFrom s e) : s.Invisible e ↔ AtChanged Hidden s e := by
  cases e with
  | append name bytes => exact Iff.rfl
  | publish names force now uuid4 outcome =>
    refine imp_congr_right fun houtcome => ?_
    have hpublished : ∀ {plans : Plans} {output : OutputWindow × OutputWindow},
        s.transaction names force uuid4 = some (plans, output) → ∀ {name : StreamName}
        {plan : StreamPlan}, plans name = some plan →
        Changed names force name (jobStream s.job name) ∧
        ((plan.window.tail, plan.window.start, plan.window.stop) =
            outputWindowText { data := s.captured name } OUTPUT_TAIL_MAX_BYTES 0 ↔
          Hidden (s.captured name) (jobStream s.job name).spoolStart) := by
      intro plans output htx name plan hplan
      rcases transaction_eq_some htx name with ⟨plan', hplan', hchanged, hfor⟩ | ⟨hnone, -⟩
      · obtain rfl := Option.some.inj (hplan.symm.trans hplan')
        refine ⟨hchanged, ?_⟩
        rw [hfor.window]
        refine window_trimmed_iff (hs name).kept (hs name).le (hs name).boundary ?_
        exact hordered houtcome (by rw [htx]; rfl) name hchanged
      · rw [hnone] at hplan
        cases hplan
    constructor
    · intro hinvisible htx name hchanged
      obtain ⟨⟨plans, output⟩, htx⟩ := Option.isSome_iff_exists.1 htx
      rcases transaction_eq_some htx name with ⟨plan, hplan, -, -⟩ | ⟨-, hnot⟩
      · exact (hpublished htx hplan).2.1 (hinvisible plans output htx name plan hplan)
      · exact absurd hchanged hnot
    · intro hhidden plans output htx name plan hplan
      obtain ⟨hchanged, hiff⟩ := hpublished htx hplan
      exact hiff.2 (hhidden (by rw [htx]; rfl) name hchanged)

theorem started_trimmed (job : ActiveJob) (server : PyStr) (name : StreamName) :
    (started job server).Trimmed name := by
  cases name
  all_goals exact ⟨rfl, Nat.le_refl 0, not_splits_zero _, .inl rfl⟩

/-- One letter, published. -/
def shortRun : List PublisherEvent :=
  [.append .stdout [0x61], .publish [.stdout] false 1 (fun _ => .ofDigit 1) .committed]

theorem shortRun_always {P : List UInt8 → ℕ → Prop} (hP : ∀ captured, P captured 0) :
    Always step (AtChanged P) (started (.spawned (.ofDigit 0)) "alpha") shortRun := by
  refine always_cons.2 ⟨trivial, fun s hs => always_cons.2 ⟨fun _ _ name _ => ?_, fun _ _ => ?_⟩⟩
  · obtain rfl := Option.some.inj hs
    cases name <;> exact hP _
  · exact always_nil _

/-- 3998 letters before some last bytes. -/
@[irreducible] def padded (rest : List UInt8) : List UInt8 := List.replicate 3998 0x61 ++ rest

theorem length_padded (rest : List UInt8) : (padded rest).length = 3998 + rest.length := by
  rw [padded, List.length_append, List.length_replicate]

theorem padded_append (rest bytes : List UInt8) : padded rest ++ bytes = padded (rest ++ bytes) := by
  rw [padded, padded, List.append_assoc]

theorem decodeReplace_replicate (n : ℕ) (rest : List UInt8) :
    decodeReplace (List.replicate n 0x61 ++ rest) = List.replicate n 0x61 ++ decodeReplace rest := by
  have hunit : ∀ bs, decodeUnit 0x61 bs = (1, 0x61) :=
    fun bs => decodeUnit_of_alone (by decide) bs
  induction n with
  | zero => rfl
  | succ n ih =>
    rw [List.replicate_succ, List.replicate_succ, List.cons_append, List.cons_append, ← ih,
      decodeReplace, decodeFrom, hunit]
    rfl

/-- The bytes the text takes from a letter on. -/
theorem utf8ByteLength_padded (rest : List UInt8) {k : ℕ} (hk : k ≤ 3998) :
    (pgSafeDecode ((padded rest).drop k)).utf8ByteLength =
      3998 - k + (pgSafeDecode rest).utf8ByteLength := by
  have hdrop : (padded rest).drop k = List.replicate (3998 - k) 0x61 ++ rest := by
    rw [padded, List.drop_append_of_le_length (by rw [List.length_replicate]; exact hk),
      List.drop_replicate]
  have hletter : (0x61 : CodePoint) ≠ 0 := by decide
  have hsize : CodePoint.utf8Size 0x61 = 1 := by decide
  rw [hdrop, pgSafeDecode, decodeReplace_replicate, List.map_append, List.map_replicate,
    if_neg hletter, PyStr.utf8ByteLength, List.map_append, List.map_replicate, List.sum_append,
    List.sum_replicate_nat, hsize, Nat.mul_one]
  rfl

/-- A stream of at most 4000 bytes may start its window at its first one. -/
theorem window_start_of_tailFrom {captured : List UInt8} (h : tailFrom captured = 0) :
    (outputWindowText { data := captured } OUTPUT_TAIL_MAX_BYTES 0).2.1 =
      (boundedSuffix captured OUTPUT_TAIL_MAX_BYTES).1 := by
  have hzero : alignCodePointStart captured ((0 : ℕ) : ℤ) = 0 := if_pos (by omega)
  rw [outputWindowText_whole, h, hzero]
  dsimp only
  rw [List.drop_zero, Nat.zero_add]

theorem tailFrom_padded {rest : List UInt8} (h : rest.length ≤ 2) : tailFrom (padded rest) = 0 := by
  have hlimit : OUTPUT_TAIL_MAX_BYTES = 4000 := rfl
  rw [tailFrom, length_padded, hlimit]
  omega

/-- Before the second byte of the character arrives, the window starts after the first letter. -/
theorem head_padded : head { data := padded [0xc3] } = 1 := by
  have hlead : (pgSafeDecode [0xc3]).utf8ByteLength = 3 := by decide
  have hone : ¬ Splits (padded [0xc3]) 1 := by
    rintro ⟨lead, length, hlo, hhi, hvalid⟩
    obtain rfl : lead = 0 := by omega
    have hcode := (validCodePointAt_bounds hvalid).2.2.2.1
    have hget : (padded [0xc3]).getD 0 0 = 0x61 := by
      rw [padded, List.replicate_succ, List.cons_append, List.getD_cons_zero]
    have hno : codePointLength 0x61 = 0 := by decide
    rw [hget] at hcode
    omega
  rw [head, window_start_of_tailFrom (tailFrom_padded (by decide))]
  refine boundedSuffix_eq (by rw [length_padded]; omega) hone fun k hk _ => ?_
  rw [length_padded] at hk
  rcases Nat.lt_or_ge k 3999 with hlt | hge
  · have hlimit : OUTPUT_TAIL_MAX_BYTES = 4000 := rfl
    rw [utf8ByteLength_padded _ (by omega), hlead]
    omega
  · rw [List.drop_eq_nil_of_le (by rw [length_padded]; exact hge), pgSafeDecode_nil]
    exact iff_of_true (Nat.zero_le _) (by omega)

/-- With it, all 4000 bytes fit. -/
theorem window_padded :
    (outputWindowText { data := padded [0xc3, 0xa9] } OUTPUT_TAIL_MAX_BYTES 0).2.1 = 0 := by
  have hpair : (pgSafeDecode [0xc3, 0xa9]).utf8ByteLength = 2 := by decide
  have hfull := utf8ByteLength_padded [0xc3, 0xa9] (Nat.zero_le _)
  rw [List.drop_zero, hpair] at hfull
  rw [window_start_of_tailFrom (tailFrom_padded (by decide)), boundedSuffix_fst, if_pos]
  rw [hfull]
  decide

/-- The lead byte arrives and is published; then the second byte arrives. -/
def lateRun : List PublisherEvent :=
  [.append .stdout (padded [0xc3]),
    .publish [.stdout] false 1 (fun _ => .ofDigit 1) .committed, .append .stdout [0xa9]]

theorem lateRun_state :
    ∃ s, exec step (started (.spawned (.ofDigit 0)) "alpha") lateRun = some s ∧
      Sound "alpha" 1 s ∧ s.captured .stdout = padded [0xc3, 0xa9] ∧
      (jobStream s.job .stdout).spoolStart = 1 := by
  have hstart : Sound "alpha" 1 (started (.spawned (.ofDigit 0)) "alpha") :=
    ⟨rfl, rfl, started_noByteLost _ _, fun name => by
      cases name <;> exact ⟨Nat.zero_le _, Nat.le_refl _, Nat.zero_le _⟩⟩
  have hserver : (PyStr.ofString "alpha") ≠ [] := by decide
  obtain ⟨s₁, hstep₁, hstream₁, hcaptured₁⟩ : ∃ s,
      (started (.spawned (.ofDigit 0)) "alpha").step (.append .stdout (padded [0xc3])) = some s ∧
      jobStream s.job .stdout = { data := padded [0xc3] } ∧
      s.captured .stdout = padded [0xc3] := ⟨_, rfl, rfl, rfl⟩
  have hsound₁ : Sound "alpha" 1 s₁ :=
    hstart.step (e := .append .stdout (padded [0xc3])) trivial hstep₁
  have hchanged : Changed [.stdout] false .stdout (jobStream s₁.job .stdout) := by
    rw [hstream₁]
    refine ⟨by simp, .inr ?_⟩
    simp [size, length_padded]
  obtain ⟨⟨plans, output⟩, htx⟩ := Option.isSome_iff_exists.1 (transaction_isSome
    (hsound₁.server_eq ▸ hserver) hsound₁.version_eq.ge hsound₁.bytes hsound₁.stored hchanged
    fun _ => Uuid.ofDigit 1)
  obtain ⟨s₂, hs₂⟩ : ∃ s, s = (s₁.insert plans output).acknowledge plans 1 := ⟨_, rfl⟩
  have hstep₂ : s₁.step (.publish [.stdout] false 1 (fun _ => .ofDigit 1) .committed) =
      some s₂ := by
    rw [hs₂]
    exact Option.bind_eq_some_iff.2 ⟨_, htx, rfl⟩
  have hsound₂ : Sound "alpha" 1 s₂ := by
    refine hsound₁.step (e := .publish [.stdout] false 1 (fun _ => .ofDigit 1) .committed)
      (fun _ name hchanged hstraddles => ?_) hstep₂
    cases name with
    | stderr => exact absurd hchanged.1 (by simp)
    | stdout =>
      rw [hstream₁, Straddles, head_padded, size, length_padded] at hstraddles
      exact absurd hstraddles.2 (by decide)
  have hspool₂ : (jobStream s₂.job .stdout).spoolStart = 1 := by
    rcases transaction_eq_some htx .stdout with ⟨plan, hplan, -, hfor⟩ | ⟨-, hnot⟩
    · rw [hs₂, jobStream_acknowledge]
      refine (settleStream_eq hplan hfor 1).2.2.2.1.trans ?_
      rw [hstream₁, head_padded]
    · exact absurd hchanged hnot
  have hcaptured₂ : s₂.captured .stdout = padded [0xc3] := by
    rw [hs₂]
    exact hcaptured₁
  obtain ⟨s₃, hstep₃, hspool₃, hcaptured₃⟩ : ∃ s, s₂.step (.append .stdout [0xa9]) = some s ∧
      (jobStream s.job .stdout).spoolStart = (jobStream s₂.job .stdout).spoolStart ∧
      s.captured .stdout = s₂.captured .stdout ++ [0xa9] := ⟨_, rfl, rfl, rfl⟩
  refine ⟨s₃, ?_, hsound₂.step (e := .append .stdout [0xa9]) trivial hstep₃, ?_, ?_⟩
  · simp [lateRun, exec_cons_eq_some, hstep₁, hstep₂, hstep₃]
  · rw [hcaptured₃, hcaptured₂, padded_append]
    rfl
  · rw [hspool₃, hspool₂]

end Publisher

end Lubko.Output
