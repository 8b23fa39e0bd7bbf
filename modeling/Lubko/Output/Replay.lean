import Lubko.Output.Archive

/-!
# Publications whose acknowledgement is lost

The archive position lives in memory and in the committed rows. A publication that commits while
the worker sees an error advances only the rows, and the next one starts again from the memory.

* `keepsOnce_iff_inSync` — over whole runs, chunks stay unique exactly when every publication that
  commits chunks of a stream starts from the sequence after the committed ones.
* `retry_archives_twice` — a retry after one lost acknowledgement archives the same bytes again.
-/

namespace Lubko.Output

open Lubko.Lib Lubko.Worker

namespace Publisher

/-- No two committed chunks of a stream carry the same sequence or overlap. -/
def ExactlyOnce (s : Publisher) : Prop :=
  ∀ name, (s.rowsOf name).Pairwise fun c d =>
    c.sequence ≠ d.sequence ∧ (c.stop ≤ d.start ∨ d.stop ≤ c.start)

/-- After this event, every chunk is still in the table exactly once. -/
def KeepsOnce (s : Publisher) (e : PublisherEvent) : Prop :=
  ∀ s', s.step e = some s' → s'.ExactlyOnce

/-- A publication that commits chunks of a stream starts from the sequence that follows the chunks
committed so far: none of them is still unknown to the worker. -/
def InSync (s : Publisher) : PublisherEvent → Prop
  | .append _ _ => True
  | .publish names force _ uuid4 outcome => outcome ≠ .notCommitted →
      (s.transaction names force uuid4).isSome →
      ∀ name, Changed names force name (jobStream s.job name) →
        ChunkDue (jobStream s.job name) →
        (jobStream s.job name).sequence = (s.rowsOf name).length

/-- The committed chunks of a stream continue each other, and the worker is behind them or knows
where they end. -/
structure Archived (s : Publisher) (name : StreamName) : Prop where
  contiguous : ∃ upto, Continues 0 0 (s.rowsOf name) upto (s.rowsOf name).length ∧
    ((jobStream s.job name).sequence = (s.rowsOf name).length →
      (jobStream s.job name).archivedUpto = upto)
  behind : (jobStream s.job name).sequence ≤ (s.rowsOf name).length

theorem Archived.exactlyOnce {s : Publisher} (h : ∀ name, s.Archived name) : s.ExactlyOnce := by
  intro name
  obtain ⟨upto, hcont, -⟩ := (h name).contiguous
  exact hcont.pairwise

/-- A step that leaves a stream's rows and archive position alone. -/
theorem Archived.of_eq {s s' : Publisher} {name : StreamName} (h : s.Archived name)
    (hrows : s'.rowsOf name = s.rowsOf name)
    (hseq : (jobStream s'.job name).sequence = (jobStream s.job name).sequence)
    (harch : (jobStream s'.job name).archivedUpto = (jobStream s.job name).archivedUpto) :
    s'.Archived name := by
  obtain ⟨⟨upto, hcont, hupto⟩, hbehind⟩ := h
  refine ⟨⟨upto, ?_, ?_⟩, ?_⟩
  · rwa [hrows]
  · rwa [hseq, harch, hrows]
  · rwa [hseq, hrows]

section Commit

variable {s : Publisher} {names : List StreamName} {force : Bool} {uuid4 : ℕ → Uuid}
  {plans : Plans} {output : OutputWindow × OutputWindow}

/-- A publication in step with the rows appends to them. -/
theorem Archived.commit (hs : ∀ name, s.Archived name)
    (h : s.transaction names force uuid4 = some (plans, output))
    (hsync : ∀ name, Changed names force name (jobStream s.job name) →
      ChunkDue (jobStream s.job name) →
      (jobStream s.job name).sequence = (s.rowsOf name).length) (name : StreamName) :
    (s.insert plans output).Archived name ∧
      ∀ now, ((s.insert plans output).acknowledge plans now).Archived name := by
  have hrows := rowsOf_insert output (fun name plan => owned_of_transaction h name plan) name
  have hackRows : ∀ now, ((s.insert plans output).acknowledge plans now).rowsOf name =
      (s.insert plans output).rowsOf name := fun now => by simp [rowsOf, acknowledge]
  rcases transaction_eq_some h name with ⟨plan, hplan, hchanged, hfor⟩ | ⟨hnone, -⟩
  · obtain ⟨⟨upto, hcont, hupto⟩, hbehind⟩ := hs name
    have hfresh := hfor.continues
    have hack : ∀ now,
        (jobStream ((s.insert plans output).acknowledge plans now).job name).archivedUpto =
          plan.archivedUpto ∧
        (jobStream ((s.insert plans output).acknowledge plans now).job name).sequence =
          plan.sequence := by
      intro now
      obtain ⟨harch, hseq, -⟩ := settleStream_eq hplan hfor now
      rw [jobStream_acknowledge]
      exact ⟨harch, hseq⟩
    rw [hplan, Option.map_some, Option.getD_some] at hrows
    by_cases hempty : plan.chunks = []
    · rw [hempty] at hfresh hrows
      obtain ⟨harch, hseq⟩ := hfresh
      rw [List.map_nil, List.append_nil] at hrows
      refine ⟨(hs name).of_eq hrows rfl rfl, fun now => (hs name).of_eq ?_ ?_ ?_⟩
      · rw [hackRows, hrows]
      · rw [(hack now).2, hseq]
      · rw [(hack now).1, harch]
    · -- chunks are due, so the worker stands where the rows end
      have hend := hsync name hchanged (hfor.due.1 hempty)
      rw [hupto hend, hend] at hfresh
      have hall := hcont.append hfresh
      have hlen := hall.le.2
      rw [Nat.zero_add] at hlen
      rw [hlen] at hall
      have hpos := List.length_pos_iff.2 hempty
      refine ⟨⟨⟨plan.archivedUpto, by rw [hrows]; exact hall, fun heq => ?_⟩, ?_⟩,
        fun now => ⟨⟨plan.archivedUpto, by rw [hackRows, hrows]; exact hall,
          fun _ => (hack now).1⟩, ?_⟩⟩
      · have heq' : (jobStream s.job name).sequence = _ := heq
        rw [hrows, List.length_append, List.length_map] at heq'
        omega
      · have hle : (jobStream s.job name).sequence ≤ _ := hbehind
        rw [hrows, List.length_append]
        exact hle.trans (Nat.le_add_right _ _)
      · rw [(hack now).2, hackRows, hrows, hlen]
  · rw [hnone, Option.map_none, Option.getD_none, List.map_nil, List.append_nil] at hrows
    refine ⟨(hs name).of_eq hrows rfl rfl, fun now => (hs name).of_eq ?_ ?_ ?_⟩
    · rw [hackRows, hrows]
    all_goals rw [jobStream_acknowledge, settleStream_of_none hnone]; rfl

/-- **A commit keeps chunks unique exactly when it is in step with the rows.** Otherwise its first
chunk repeats a sequence. -/
theorem exactlyOnce_insert_iff (hs : ∀ name, s.Archived name)
    (h : s.transaction names force uuid4 = some (plans, output)) :
    (s.insert plans output).ExactlyOnce ↔
      ∀ name, Changed names force name (jobStream s.job name) →
        ChunkDue (jobStream s.job name) →
        (jobStream s.job name).sequence = (s.rowsOf name).length := by
  constructor
  · intro honce name hchanged hdue
    by_contra hne
    obtain ⟨⟨upto, hcont, -⟩, hbehind⟩ := hs name
    obtain ⟨plan, hplan, -, hfor⟩ | ⟨-, hnot⟩ := transaction_eq_some h name
    · have hpair := honce name
      rw [rowsOf_insert output (owned_of_transaction h) name, hplan, Option.map_some,
        Option.getD_some] at hpair
      obtain ⟨first, rest, hchunks⟩ := List.exists_cons_of_ne_nil (hfor.due.2 hdue)
      have hfresh := hfor.continues
      rw [hchunks, List.map_cons] at hfresh hpair
      obtain ⟨old, hold, hseq⟩ := hcont.exists_sequence (Nat.zero_le _) (lt_of_le_of_ne hbehind hne)
      exact ((List.pairwise_append.1 hpair).2.2 old hold first.2 (by simp)).1
        (hseq.trans hfresh.2.1.symm)
    · exact hnot hchanged
  · intro hsync
    exact Archived.exactlyOnce fun name => (Archived.commit hs h hsync name).1

end Commit

/-- Exactness at one event. -/
theorem keepsOnce_iff {s : Publisher} (hs : ∀ name, s.Archived name) (e : PublisherEvent) :
    s.KeepsOnce e ↔ s.InSync e := by
  cases e with
  | append name bytes =>
    refine iff_of_true (fun s' h => ?_) trivial
    obtain rfl := Option.some.inj h
    intro name'
    have hold := Archived.exactlyOnce hs name'
    simpa [rowsOf] using hold
  | publish names force now uuid4 outcome =>
    cases htx : s.transaction names force uuid4 with
    | none =>
      refine iff_of_true (fun s' h => ?_) (by simp [InSync, htx])
      cases outcome with
      | notCommitted => exact Option.some.inj h ▸ Archived.exactlyOnce hs
      | unacknowledged => simp [step, htx] at h
      | committed => simp [step, htx] at h
    | some tx =>
      obtain ⟨plans, output⟩ := tx
      have hiff := exactlyOnce_insert_iff hs htx
      cases outcome with
      | notCommitted =>
        refine iff_of_true (fun s' h => ?_) (by simp [InSync])
        exact Option.some.inj h ▸ Archived.exactlyOnce hs
      | unacknowledged => simpa [KeepsOnce, InSync, step, htx] using hiff
      | committed =>
        have hrows : ((s.insert plans output).acknowledge plans now).ExactlyOnce ↔
            (s.insert plans output).ExactlyOnce := by
          simp [ExactlyOnce, rowsOf, acknowledge]
        simpa [KeepsOnce, InSync, step, htx, hrows] using hiff

theorem Archived.step {s s' : Publisher} {e : PublisherEvent} (hs : ∀ name, s.Archived name)
    (hsync : s.InSync e) (h : s.step e = some s') (name : StreamName) : s'.Archived name := by
  cases e with
  | append name' bytes =>
    obtain rfl := Option.some.inj h
    refine (hs name).of_eq (by simp [rowsOf]) ?_ ?_
    all_goals
      by_cases hname : name = name'
      · subst hname
        rw [jobStream_setStream_self]
      · rw [jobStream_setStream_ne _ hname]
  | publish names force now uuid4 outcome =>
    cases outcome with
    | notCommitted => exact Option.some.inj h ▸ hs name
    | unacknowledged =>
      obtain ⟨⟨plans, output⟩, htx, hstep⟩ := Option.bind_eq_some_iff.1 h
      obtain rfl := Option.some.inj hstep
      exact (Archived.commit hs htx (hsync (by simp) (by simp [htx])) name).1
    | committed =>
      obtain ⟨⟨plans, output⟩, htx, hstep⟩ := Option.bind_eq_some_iff.1 h
      obtain rfl := Option.some.inj hstep
      exact (Archived.commit hs htx (hsync (by simp) (by simp [htx])) name).2 now

theorem started_archived (job : ActiveJob) (server : PyStr) (name : StreamName) :
    (started job server).Archived name := by
  cases name <;> exact ⟨⟨0, ⟨rfl, rfl⟩, fun _ => rfl⟩, Nat.zero_le _⟩

/-- **Archival is exactly-once**, over a whole run with lost acknowledgements, exactly when every
publication that commits chunks is in step with the committed rows. -/
theorem keepsOnce_iff_inSync (job : ActiveJob) (server : PyStr) (events : List PublisherEvent) :
    Always step KeepsOnce (started job server) events ↔
      Always step InSync (started job server) events :=
  always_iff_of_inv (fun _ e hs => keepsOnce_iff hs e)
    (fun _ e _ hs honce h => Archived.step hs ((keepsOnce_iff hs e).1 honce) h)
    (started_archived job server)

/-- 6000 letters: two full-size chunks are due. -/
@[irreducible] def letters : List UInt8 := List.replicate 6000 0x61

theorem length_letters : letters.length = 6000 := by
  rw [letters, List.length_replicate]

/-- **A retry after a lost acknowledgement archives the same bytes again.** -/
theorem retry_archives_twice :
    ¬ ∀ events, Always step KeepsOnce (started (.spawned (.ofDigit 0)) "alpha") events := by
  intro h
  let attempt (outcome : Outcome) : PublisherEvent :=
    .publish [.stdout] false 1 (fun _ => .ofDigit 1) outcome
  obtain ⟨s, hstep, hserver, hversion, hstream⟩ :
      ∃ s, (started (.spawned (.ofDigit 0)) "alpha").step (.append .stdout letters) = some s ∧
      s.server = "alpha" ∧ s.job.version = 1 ∧
      ∀ name, jobStream s.job name = { data := if name = .stdout then letters else [] } :=
    ⟨_, rfl, rfl, rfl, fun name => by cases name <;> rfl⟩
  have hbytes : ∀ name, s.NoByteLost name :=
    NoByteLost.append (started_noByteLost _ _) .stdout letters hstep
  have harch : ∀ name, s.Archived name := Archived.step (started_archived _ _) (by trivial) hstep
  have hchanged : Changed [.stdout] false .stdout (jobStream s.job .stdout) := by
    rw [hstream]
    refine ⟨by simp, .inr ?_⟩
    simp [size, length_letters]
  have hdue : ChunkDue (jobStream s.job .stdout) := by
    rw [hstream]
    refine .inl ?_
    rw [if_pos rfl, size, length_letters]
    decide
  have hstored : ∀ name, StoredWindow (jobStream s.job name) := by
    intro name
    rw [hstream]
    exact ⟨Nat.zero_le _, Nat.le_refl _, Nat.zero_le _⟩
  -- the first attempt commits and is not acknowledged
  obtain ⟨⟨plans, output⟩, htx⟩ := Option.isSome_iff_exists.1 (transaction_isSome (s := s)
    (by rw [hserver]; decide) hversion.ge hbytes hstored hchanged (fun _ => .ofDigit 1))
  have hfirst : s.step (attempt .unacknowledged) = some (s.insert plans output) := by
    simp [attempt, step, htx]
  have hruns := h [.append .stdout letters, attempt .unacknowledged, attempt .committed]
  obtain ⟨honce, hrest⟩ := always_cons.1 ((always_cons.1 hruns).2 s hstep)
  have hsync := (keepsOnce_iff harch _).1 honce
  have harch' : ∀ name, (s.insert plans output).Archived name := Archived.step harch hsync hfirst
  -- the second one plans the same chunks from the same memory
  have hretry := (keepsOnce_iff harch' _).1 (always_cons.1 (hrest _ hfirst)).1
  have hseq := hretry (by simp) (Option.isSome_of_eq_some (show
    (s.insert plans output).transaction [.stdout] false (fun _ => .ofDigit 1) = _ from htx))
    .stdout hchanged hdue
  have hmemory : (jobStream (s.insert plans output).job .stdout).sequence = 0 := by
    have hjob : (s.insert plans output).job = s.job := rfl
    rw [hjob, hstream]
  rw [hmemory, rowsOf_insert output (owned_of_transaction htx)] at hseq
  obtain ⟨plan, hplan, -, hfor⟩ | ⟨-, hnot⟩ := transaction_eq_some htx .stdout
  · have hpos := List.length_pos_iff.2 (hfor.due.2 hdue)
    rw [hplan, Option.map_some, Option.getD_some, List.length_append, List.length_map] at hseq
    omega
  · exact hnot hchanged

end Publisher

end Lubko.Output
