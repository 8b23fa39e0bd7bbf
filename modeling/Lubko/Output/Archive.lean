import Lubko.Output.Publish

/-!
# No captured byte is lost, except under a straddling head

The archive of a stream and its live tail together hold every byte ever captured, as long as the
live-tail head of no committed publication lies after the last full-size chunk and still within
the archive target. There `_plan_chunks` stops short of the head, closing the gap only when the
head lies beyond the target, and `_trim_published` drops what lies between.

* `keepsBytes_iff_noStraddle` — over whole runs, exactly these publications lose bytes.
* `publication_reaches_commit` — planning terminates and passes every payload check.
* `burst_loses_byte` — such a publication exists.
-/

namespace Lubko.Output

open Lubko.Lib Lubko.Worker

namespace Publisher

/-! ## No captured byte is lost -/

/-- The chunks of the stream run from `0` to `archived_upto`, the live tail and the buffer start
no later than that, and every byte is in the buffer or in a committed chunk. -/
structure NoByteLost (s : Publisher) (name : StreamName) : Prop where
  contiguous : Continues 0 0 (s.rowsOf name) (jobStream s.job name).archivedUpto
    (jobStream s.job name).sequence
  tail : 0 < (jobStream s.job name).tailStart →
    (jobStream s.job name).tailStart ≤ (jobStream s.job name).archivedUpto
  spool : 0 < (jobStream s.job name).spoolStart →
    (jobStream s.job name).spoolStart ≤ (jobStream s.job name).archivedUpto
  trimmed : ∀ i < (jobStream s.job name).spoolStart, i < (s.captured name).length ∧
    ∃ c ∈ s.rowsOf name, c.start ≤ i ∧ i < c.stop
  kept : (jobStream s.job name).data =
    (s.captured name).drop (jobStream s.job name).spoolStart

/-- The worker observes every commit. -/
def acknowledgedStep (s : Publisher) (e : PublisherEvent) : Option Publisher :=
  match e with
  | .publish _ _ _ _ .unacknowledged => none
  | _ => s.step e

/-- After this event, no byte of either stream is lost. -/
def KeepsBytes (s : Publisher) (e : PublisherEvent) : Prop :=
  ∀ s', s.acknowledgedStep e = some s' → ∀ name, s'.NoByteLost name

/-- The head of the live tail lies after the last full-size chunk and still within the archive
target, where `_plan_chunks` closes no gap. -/
def Straddles (stream : OutputStream) : Prop :=
  fullEnd stream < head stream ∧ head stream ≤ archiveTarget (size stream)

/-- A publication that commits finds no straddling head in the streams it changes. -/
def NoStraddle (s : Publisher) : PublisherEvent → Prop
  | .publish names force _ uuid4 .committed => (s.transaction names force uuid4).isSome →
      ∀ name, Changed names force name (jobStream s.job name) → ¬ Straddles (jobStream s.job name)
  | _ => True

theorem head_spec (stream : OutputStream) :
    stream.spoolStart ≤ head stream ∧ head stream ≤ size stream := by
  obtain ⟨cut, hwindow, hok⟩ := outputWindowText_spec stream OUTPUT_TAIL_MAX_BYTES
  have hle := hok.le
  rw [head, hwindow]
  exact ⟨Nat.le_add_left _ _, Nat.add_le_add_right hle _⟩

/-- What an acknowledged publication leaves of a stream it changed. -/
theorem settleStream_eq {plans : Plans} {name : StreamName} {plan : StreamPlan}
    (hplan : plans name = some plan) {job : ActiveJob} {server : PyStr} {stream : OutputStream}
    (hfor : PlanFor job server name stream plan) (now : ℚ) :
    (settleStream plans now name stream).archivedUpto = plan.archivedUpto ∧
      (settleStream plans now name stream).sequence = plan.sequence ∧
      (settleStream plans now name stream).tailStart = head stream ∧
      (settleStream plans now name stream).spoolStart = head stream ∧
      (settleStream plans now name stream).data =
        stream.data.drop (head stream - stream.spoolStart) := by
  have hle := (head_spec stream).1
  simp only [settleStream, hplan, trimPublished, applyPlan, hfor.tailStart]
  split_ifs with hdrop
  · have heq : head stream = stream.spoolStart := by omega
    refine ⟨rfl, rfl, rfl, heq.symm, ?_⟩
    rw [heq, Nat.sub_self, List.drop_zero]
  · have hcast : ((head stream : ℤ) - stream.spoolStart).toNat =
        head stream - stream.spoolStart := by omega
    refine ⟨rfl, rfl, rfl, rfl, ?_⟩
    rw [hcast]

theorem settleStream_of_none {plans : Plans} {name : StreamName} (hplan : plans name = none)
    (now : ℚ) (stream : OutputStream) : settleStream plans now name stream = stream := by
  rw [settleStream, hplan]

theorem NoByteLost.spool_le {s : Publisher} {name : StreamName} (h : s.NoByteLost name) :
    (jobStream s.job name).spoolStart ≤ (jobStream s.job name).archivedUpto := by
  rcases Nat.eq_zero_or_pos (jobStream s.job name).spoolStart with h0 | hpos
  · omega
  · exact h.spool hpos

/-- The buffer ends where the captured stream ends. -/
theorem NoByteLost.size_eq {s : Publisher} {name : StreamName} (h : s.NoByteLost name) :
    size (jobStream s.job name) = (s.captured name).length := by
  have hspool : (jobStream s.job name).spoolStart ≤ (s.captured name).length := by
    rcases Nat.eq_zero_or_pos (jobStream s.job name).spoolStart with h0 | hpos
    · omega
    · have hlast := (h.trimmed ((jobStream s.job name).spoolStart - 1) (by omega)).1
      omega
  rw [size, h.kept, List.length_drop]
  omega

theorem NoByteLost.append {s : Publisher} (hs : ∀ name, s.NoByteLost name) (name : StreamName)
    (bytes : List UInt8) {s' : Publisher} (h : s.step (.append name bytes) = some s')
    (name' : StreamName) : s'.NoByteLost name' := by
  obtain rfl := Option.some.inj h
  have hrows : ∀ n, rowsOf { s with
      job := setStream s.job name
        { jobStream s.job name with data := (jobStream s.job name).data ++ bytes }
      captured := Function.update s.captured name (s.captured name ++ bytes) } n = s.rowsOf n :=
    fun n => by simp [rowsOf]
  have hold := hs name'
  have hsize := hold.size_eq
  by_cases hname : name' = name
  · subst hname
    have hlen : (jobStream s.job name').spoolStart ≤ (s.captured name').length := by
      rw [← hsize]
      exact Nat.le_add_left _ _
    refine ⟨?_, ?_, ?_, ?_, ?_⟩
    all_goals simp only [jobStream_setStream_self, hrows, Function.update_self]
    · exact hold.contiguous
    · exact hold.tail
    · exact hold.spool
    · intro i hi
      obtain ⟨hlt, hcov⟩ := hold.trimmed i hi
      exact ⟨by simp; omega, hcov⟩
    · rw [hold.kept, List.drop_append_of_le_length hlen]
  · refine ⟨?_, ?_, ?_, ?_, ?_⟩
    all_goals simp only [jobStream_setStream_ne _ hname, hrows, Function.update_of_ne hname]
    exacts [hold.contiguous, hold.tail, hold.spool, hold.trimmed, hold.kept]

/-- **A committed publication loses no byte exactly when no head straddles.** -/
theorem noByteLost_publish_iff {s : Publisher} (hs : ∀ name, s.NoByteLost name)
    {names : List StreamName} {force : Bool} {uuid4 : ℕ → Uuid} {plans : Plans}
    {output : OutputWindow × OutputWindow}
    (h : s.transaction names force uuid4 = some (plans, output)) (now : ℚ) (name : StreamName) :
    ((s.insert plans output).acknowledge plans now).NoByteLost name ↔
      (Changed names force name (jobStream s.job name) → ¬ Straddles (jobStream s.job name)) := by
  set s' := (s.insert plans output).acknowledge plans now with hs'
  have hold := hs name
  have hrows : s'.rowsOf name =
      s.rowsOf name ++ (((plans name).map (·.chunks)).getD []).map (·.2) := by
    rw [← rowsOf_insert output (owned_of_transaction h) name]
    simp [rowsOf, hs', acknowledge]
  have hstream : jobStream s'.job name = settleStream plans now name (jobStream s.job name) :=
    jobStream_acknowledge _ plans now name
  have hcaptured : s'.captured name = s.captured name := rfl
  rcases transaction_eq_some h name with ⟨plan, hplan, hchanged, hfor⟩ | ⟨hnone, hnot⟩
  · obtain ⟨harch, hseq, htail, hspool, hdata⟩ := settleStream_eq hplan hfor now
    rw [← hstream] at harch hseq htail hspool hdata
    rw [hplan, Option.map_some, Option.getD_some] at hrows
    obtain ⟨hlow, hhigh⟩ := head_spec (jobStream s.job name)
    have hcont := hold.contiguous.append hfor.continues
    constructor
    · rintro hlost - ⟨hlt, hle⟩
      have hbound := hlost.tail (by omega)
      rw [htail, harch, hfor.within hle] at hbound
      omega
    · intro hns
      have hhead : head (jobStream s.job name) ≤ plan.archivedUpto := by
        rcases Nat.lt_or_ge (archiveTarget (size (jobStream s.job name)))
          (head (jobStream s.job name)) with hgt | hle
        · exact hfor.beyond hgt
        · rw [hfor.within hle]
          exact not_lt.1 fun hlt => hns hchanged ⟨hlt, hle⟩
      refine ⟨?_, ?_, ?_, ?_, ?_⟩
      · rw [hrows, harch, hseq]
        exact hcont
      · rw [htail, harch]
        exact fun _ => hhead
      · rw [hspool, harch]
        exact fun _ => hhead
      · intro i hi
        rw [hspool] at hi
        refine ⟨?_, ?_⟩
        · rw [hcaptured, ← hold.size_eq]
          omega
        · rw [hrows]
          exact hcont.covers (Nat.zero_le i) (by omega)
      · rw [hdata, hcaptured, hspool, hold.kept, List.drop_drop]
        congr 1
        omega
  · rw [hnone] at hrows
    rw [settleStream_of_none hnone] at hstream
    refine iff_of_true ⟨?_, ?_, ?_, ?_, ?_⟩ fun hc => absurd hc hnot
    all_goals simp only [hstream, hrows, hcaptured, Option.map_none, Option.getD_none,
      List.map_nil, List.append_nil]
    exacts [hold.contiguous, hold.tail, hold.spool, hold.trimmed, hold.kept]

/-- Exactness at one event. -/
theorem keepsBytes_iff {s : Publisher} (hs : ∀ name, s.NoByteLost name) (e : PublisherEvent) :
    s.KeepsBytes e ↔ s.NoStraddle e := by
  cases e with
  | append name bytes =>
    exact iff_of_true (fun s' h name' => NoByteLost.append hs name bytes h name') trivial
  | publish names force now uuid4 outcome =>
    cases outcome with
    | notCommitted =>
      refine iff_of_true (fun s' h name => ?_) trivial
      obtain rfl := Option.some.inj h
      exact hs name
    | unacknowledged =>
      refine iff_of_true (fun s' h => ?_) trivial
      simp [acknowledgedStep] at h
    | committed =>
      cases htx : s.transaction names force uuid4 with
      | none => simp [KeepsBytes, NoStraddle, acknowledgedStep, step, htx]
      | some tx =>
        obtain ⟨plans, output⟩ := tx
        have hiff := noByteLost_publish_iff hs htx now
        simp only [KeepsBytes, NoStraddle, acknowledgedStep, step, htx, Option.bind_eq_bind,
          Option.bind_some, Option.some.injEq, forall_eq', Option.isSome_some, true_implies]
        exact forall_congr' hiff

/-- A job that has just been activated. -/
def started (job : ActiveJob) (server : PyStr) : Publisher where
  job := { job with stdout := {}, stderr := {} }
  server
  chunks := []
  output := none
  captured _ := []

theorem started_noByteLost (job : ActiveJob) (server : PyStr) (name : StreamName) :
    (started job server).NoByteLost name := by
  cases name
  all_goals exact ⟨⟨rfl, rfl⟩, fun h => absurd h (Nat.lt_irrefl 0),
    fun h => absurd h (Nat.lt_irrefl 0), fun i hi => absurd hi (Nat.not_lt_zero i), rfl⟩

theorem planStream_total {job : ActiveJob} {server : PyStr} {name : StreamName}
    (hserver : server ≠ []) (hversion : 1 ≤ job.version)
    (hspool : (jobStream job name).spoolStart ≤ (jobStream job name).archivedUpto)
    (force : Bool) (uuid4 : ℕ → Uuid) (drawn : ℕ) :
    ∃ r, planStream job server force uuid4 name drawn = .ok r := by
  obtain ⟨cut, hwindow, hok⟩ := outputWindowText_spec (jobStream job name) OUTPUT_TAIL_MAX_BYTES
  have hle := hok.le
  have hspan := hok.span
  have hboundary := hok.boundary
  have hsplit : ¬ Splits (jobStream job name).data
      (cut.1 + (jobStream job name).spoolStart - (jobStream job name).spoolStart) := by
    rwa [Nat.add_sub_cancel]
  let source : ChunkSource := ⟨job.id, name, server, job.version, uuid4⟩
  obtain ⟨plan, hplan⟩ := planChunks_total (show source.server ≠ [] from hserver) hversion hspool
    (Nat.le_add_left _ _) (by omega) hsplit drawn
  have hpayload : ∀ previous, ∃ window, buildOutputWindowPayload cut.2
      (cut.1 + (jobStream job name).spoolStart)
      ((jobStream job name).data.length + (jobStream job name).spoolStart) previous = .ok window :=
    fun previous => ⟨_, buildOutputWindowPayload_eq_ok.2
      ⟨hok.fits, Nat.add_le_add_right hle _, by omega, rfl⟩⟩
  obtain ⟨window, hpayload⟩ := hpayload plan.lastChunk
  simp only [planStream, hwindow, bind, Except.bind, source, hplan, hpayload]
  split_ifs
  · exact ⟨_, rfl⟩
  · exact ⟨_, rfl⟩

theorem planStreams_total {job : ActiveJob} {server : PyStr} (hserver : server ≠ [])
    (hversion : 1 ≤ job.version)
    (hspool : ∀ name, (jobStream job name).spoolStart ≤ (jobStream job name).archivedUpto)
    (force : Bool) (uuid4 : ℕ → Uuid) (names : List StreamName) (plans : Plans) (drawn : ℕ) :
    ∃ plans', planStreams job server force uuid4 names plans drawn = .ok plans' := by
  induction names generalizing plans drawn with
  | nil => exact ⟨plans, rfl⟩
  | cons name names ih =>
    obtain ⟨⟨r, drawn'⟩, hr⟩ :=
      planStream_total hserver hversion (hspool name) force uuid4 drawn
    simp only [planStreams, hr, bind, Except.bind]
    cases r with
    | none => exact ih plans drawn'
    | some plan => exact ih _ drawn'

/-- **A publication of a changed stream reaches its commit**: planning returns and every payload
passes its checks. -/
theorem transaction_isSome {s : Publisher} (hserver : s.server ≠ []) (hversion : 1 ≤ s.job.version)
    (hs : ∀ name, s.NoByteLost name) (hstored : ∀ name, StoredWindow (jobStream s.job name))
    {names : List StreamName} {force : Bool} {name : StreamName}
    (hchanged : Changed names force name (jobStream s.job name)) (uuid4 : ℕ → Uuid) :
    (s.transaction names force uuid4).isSome = true := by
  obtain ⟨plans, hplans⟩ := planStreams_total hserver hversion (fun name => (hs name).spool_le)
    force uuid4 names (fun _ => none) 0
  have hwindow : ∀ name, ∃ window, fullWindow s.job plans name = .ok window := by
    intro name
    unfold fullWindow
    split
    next plan => exact ⟨_, rfl⟩
    next =>
      obtain ⟨htext, hle, hspan⟩ := hstored name
      exact ⟨_, buildOutputWindowPayload_eq_ok.2 ⟨htext, hle, hspan, rfl⟩⟩
  obtain ⟨stdout, hstdout⟩ := hwindow .stdout
  obtain ⟨stderr, hstderr⟩ := hwindow .stderr
  have hplanned : (plans name).isSome = true := by
    rcases planStreams_eq_ok hplans name with ⟨plan, hplan, -⟩ | ⟨-, hnot⟩
    · simp [hplan]
    · exact absurd hchanged hnot
  have hsome : ((plans .stdout).isSome || (plans .stderr).isSome) = true := by
    cases name <;> simp [hplanned]
  simp [transaction, hplans, hstdout, hstderr, hsome]

theorem storedWindow_settle {plans : Plans} {name : StreamName} {plan : StreamPlan}
    (hplan : plans name = some plan) {job : ActiveJob} {server : PyStr} {stream : OutputStream}
    (hfor : PlanFor job server name stream plan) (now : ℚ) :
    StoredWindow (settleStream plans now name stream) := by
  have hstored := hfor.stored now
  simp only [settleStream, hplan, trimPublished]
  split_ifs
  · exact hstored
  · exact hstored

/-- The state a run keeps as long as no committed head straddles. -/
structure Sound (server : PyStr) (version : ℤ) (s : Publisher) : Prop where
  server_eq : s.server = server
  version_eq : s.job.version = version
  bytes : ∀ name, s.NoByteLost name
  stored : ∀ name, StoredWindow (jobStream s.job name)

theorem Sound.step {server : PyStr} {version : ℤ} {s s' : Publisher} {e : PublisherEvent}
    (hs : Sound server version s) (hns : s.NoStraddle e) (h : s.acknowledgedStep e = some s') :
    Sound server version s' := by
  have hbytes := (keepsBytes_iff hs.bytes e).2 hns s' h
  cases e with
  | append name bytes =>
    obtain rfl := Option.some.inj h
    refine ⟨hs.server_eq, by simpa using hs.version_eq, hbytes, fun name' => ?_⟩
    by_cases hname : name' = name
    · subst hname
      rw [jobStream_setStream_self]
      exact hs.stored name'
    · rw [jobStream_setStream_ne _ hname]
      exact hs.stored name'
  | publish names force now uuid4 outcome =>
    cases outcome with
    | notCommitted => exact Option.some.inj h ▸ hs
    | unacknowledged => simp [acknowledgedStep] at h
    | committed =>
      obtain ⟨⟨plans, output⟩, htx, hstep⟩ := Option.bind_eq_some_iff.1 h
      obtain rfl := Option.some.inj hstep
      refine ⟨hs.server_eq, ?_, hbytes, fun name => ?_⟩
      · rw [acknowledge_version]
        exact hs.version_eq
      rw [jobStream_acknowledge]
      rcases transaction_eq_some htx name with ⟨plan, hplan, -, hfor⟩ | ⟨hnone, -⟩
      · exact storedWindow_settle hplan hfor now
      · rw [settleStream_of_none hnone]
        exact hs.stored name

/-- **Archival never gets stuck**: after a run without straddling heads, a publication of any
changed stream reaches its commit. -/
theorem publication_reaches_commit {job : ActiveJob} {server : PyStr} (hserver : server ≠ [])
    (hversion : 1 ≤ job.version) {events : List PublisherEvent} {s : Publisher}
    (hns : Always acknowledgedStep NoStraddle (started job server) events)
    (h : exec acknowledgedStep (started job server) events = some s)
    {names : List StreamName} {force : Bool} {name : StreamName}
    (hchanged : Changed names force name (jobStream s.job name)) (uuid4 : ℕ → Uuid) :
    (s.transaction names force uuid4).isSome = true := by
  have hstart : Sound server job.version (started job server) :=
    ⟨rfl, rfl, started_noByteLost job server, fun name => by
      cases name <;> exact ⟨Nat.zero_le _, Nat.le_refl _, Nat.zero_le _⟩⟩
  have hs : Sound server job.version s :=
    exec_invariant_of_always (fun _ _ _ hs hns h => hs.step hns h) hstart hns h
  exact transaction_isSome (hs.server_eq ▸ hserver) (hs.version_eq ▸ hversion) hs.bytes hs.stored
    hchanged uuid4

/-! ## A lost byte -/

/-- The live-tail head of a buffer of bytes that stand alone and that exceeds the tail by `n`. -/
theorem head_of_alone {stream : OutputStream} (hspool : stream.spoolStart = 0) {n : ℕ}
    (hsize : stream.data.length = n + OUTPUT_TAIL_MAX_BYTES)
    (halone : ∀ b ∈ stream.data, sequenceLength b ≤ 1) :
    head stream = n + (boundedSuffix (stream.data.drop n) OUTPUT_TAIL_MAX_BYTES).1 := by
  have hstart : ((stream.data.length + stream.spoolStart -
      min (stream.data.length + stream.spoolStart) OUTPUT_TAIL_MAX_BYTES : ℕ) : ℤ) -
        stream.spoolStart = (n : ℕ) := by omega
  have hstop : ((stream.data.length + stream.spoolStart : ℕ) : ℤ) - stream.spoolStart =
      stream.data.length := by omega
  unfold head outputWindowText
  dsimp only
  rw [hstart, hstop, hspool, alignedWindow_of_alone stream (by omega) halone, Nat.add_zero]

/-- 2000 letters, two invalid bytes, and 3997 letters. -/
@[irreducible] def burst : List UInt8 :=
  List.replicate 1999 0x61 ++ 0x61 :: 0xff :: 0xff :: List.replicate 3997 0x61

theorem length_burst : burst.length = 5999 := by
  rw [burst, List.length_append, List.length_replicate, List.length_cons, List.length_cons,
    List.length_cons, List.length_replicate]

theorem burst_alone : ∀ b ∈ burst, sequenceLength b ≤ 1 := by
  intro b hb
  rw [burst, List.mem_append, List.mem_cons, List.mem_cons, List.mem_cons, List.mem_replicate,
    List.mem_replicate] at hb
  rcases hb with ⟨-, rfl⟩ | rfl | rfl | rfl | ⟨-, rfl⟩ <;> decide

/-- From the second invalid byte on, the text of the burst fits the live tail. -/
theorem burst_fits (k : ℕ) :
    ((((0x61 : UInt8) :: 0xff :: 0xff :: List.replicate 3997 0x61).drop k).map aloneSize).sum ≤
      OUTPUT_TAIL_MAX_BYTES ↔ 2 ≤ k := by
  have ha : aloneSize 0x61 = 1 := rfl
  have hff : aloneSize 0xff = 3 := rfl
  have hlimit : OUTPUT_TAIL_MAX_BYTES = 4000 := rfl
  match k with
  | 0 => simp only [List.drop_zero, List.map_cons, List.map_replicate, List.sum_cons,
      List.sum_replicate_nat, ha, hff, hlimit]; omega
  | 1 => simp only [List.drop_succ_cons, List.drop_zero, List.map_cons, List.map_replicate,
      List.sum_cons, List.sum_replicate_nat, ha, hff, hlimit]; omega
  | 2 => simp only [List.drop_succ_cons, List.drop_zero, List.map_cons, List.map_replicate,
      List.sum_cons, List.sum_replicate_nat, ha, hff, hlimit]; omega
  | k + 3 => simp only [List.drop_succ_cons, List.drop_replicate, List.map_replicate,
      List.sum_replicate_nat, ha, hlimit]; omega

/-- The live tail of the burst starts at its second invalid byte. -/
theorem head_burst : head { data := burst } = 2001 := by
  have hdrop : burst.drop 1999 = 0x61 :: 0xff :: 0xff :: List.replicate 3997 0x61 := by
    rw [burst, List.drop_append, List.length_replicate, Nat.sub_self, List.drop_zero,
      List.drop_eq_nil_of_le (by rw [List.length_replicate]), List.nil_append]
  have hkeep : (boundedSuffix (burst.drop 1999) OUTPUT_TAIL_MAX_BYTES).1 = 2 := by
    refine boundedSuffix_of_alone (fun b hb => burst_alone b (List.mem_of_mem_drop hb))
      ?_ fun k _ => ?_
    · rw [List.length_drop, length_burst]
      omega
    · rw [hdrop]
      exact burst_fits k
  rw [head_of_alone rfl (n := 1999) length_burst burst_alone, hkeep]

/-- The full-size chunks of the burst end one byte before that. -/
theorem fullEnd_burst : fullEnd { data := burst } = 2000 := by
  have htarget : archiveTarget (size { data := burst }) = 3997 + 2 := by
    rw [size, length_burst]
    rfl
  have htake : burst.take 2000 = List.replicate 2000 0x61 := by
    rw [burst, List.take_append, List.length_replicate, List.take_of_length_le
      (by rw [List.length_replicate]; omega), List.take_succ_cons, List.take_zero,
      ← List.replicate_succ']
  have hfits : (pgSafeDecode ((burst.take 2000).drop 0)).utf8ByteLength ≤
      OUTPUT_CHUNK_MAX_BYTES := by
    rw [List.drop_zero, utf8ByteLength_of_alone fun b hb => burst_alone b (List.mem_of_mem_take hb),
      htake, List.map_replicate, List.sum_replicate_nat]
    exact le_refl 2000
  have hcut : (cutChunk { data := burst } 0 (2000 : ℕ)).1 = 2000 :=
    cutChunk_of_fits { data := burst } (a := 0) (by rw [length_burst]; omega) (by omega)
      (not_splits_of_alone burst_alone 2000) hfits
  have hnext : ((0 : ℕ) : ℤ) + OUTPUT_CHUNK_MAX_BYTES - ((0 : ℕ) : ℤ) = ((2000 : ℕ) : ℤ) := rfl
  unfold fullEnd
  rw [htarget, fullSizeEnd, if_pos (by decide)]
  rw [hnext, hcut, fullSizeEnd, if_neg (by decide)]

end Publisher

end Lubko.Output
