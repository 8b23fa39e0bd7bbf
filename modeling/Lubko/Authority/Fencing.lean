import Lubko.Authority.Operations

/-!
# Fencing

Safety of the authority row over every interleaving of reads and compare-and-swaps, by any number
of incarnations on any number of servers, from any stored rows. The epoch carries the argument: a
committed call under a claim keeps the epoch and the owner, a committed take raises the epoch. A
text may come back after it was replaced, but only with its epoch, and no epoch comes back.

* `fencing` — epochs do not decrease, an epoch has one owner, and a superseded claim is dead.
* `one_unresolved_spawn` — at most one obligation or worker, removed only by its own resolution.
-/

namespace Lubko.Authority

open Lubko.Lib

/-! ## Epochs -/

/-- How a row may go on: to a later epoch, or with the same epoch and owner. -/
def AuthorityRow.Evolves (row row' : AuthorityRow) : Prop :=
  row.epoch < row'.epoch ∨ (row'.epoch = row.epoch ∧ row'.owner = row.owner)

theorem AuthorityRow.Evolves.refl (row : AuthorityRow) : row.Evolves row := Or.inr ⟨rfl, rfl⟩

theorem AuthorityRow.Evolves.trans {a b c : AuthorityRow} (hab : a.Evolves b) (hbc : b.Evolves c) :
    a.Evolves c := by
  rcases hab with hab | ⟨hab, howner⟩
  · rcases hbc with hbc | ⟨hbc, -⟩
    · exact Or.inl (hab.trans hbc)
    · exact Or.inl (hbc ▸ hab)
  · rcases hbc with hbc | ⟨hbc, howner'⟩
    · exact Or.inl (hab ▸ hbc)
    · exact Or.inr ⟨hbc.trans hab, howner'.trans howner⟩

theorem AuthorityRow.Evolves.epoch_le {row row' : AuthorityRow} (h : row.Evolves row') :
    row.epoch ≤ row'.epoch := by
  rcases h with h | ⟨h, -⟩
  · exact h.le
  · exact h.ge

theorem Request.Transition.evolves {request : Request} {row row' : AuthorityRow}
    (h : request.Transition row row') (hrow : row.joined = row) : row.Evolves row'.joined := by
  have howner : row.owner.map AuthorityOwner.joined = row.owner := congrArg AuthorityRow.owner hrow
  cases h with
  | take _ => exact Or.inl (Int.lt_succ row.epoch)
  | commitSpawn _ _ _ | clearSpawn _ _ | publish _ _ _ _ | clearWorker _ _ =>
    exact Or.inr ⟨rfl, howner⟩

namespace System

variable {s m t : System} {label : Label}

theorem joined_of_row {server : PyStr} {row : AuthorityRow} (h : s.row server = some row) :
    row.joined = row := by
  obtain ⟨t, -, hparse⟩ := row_eq_some.1 h
  exact parseAuthorityPayload_joined hparse

/-- Every parsed row of `s` is still parsed in `t`, and has evolved. -/
def EvolvesTo (s t : System) : Prop :=
  ∀ server row, s.row server = some row → ∃ row', t.row server = some row' ∧ row.Evolves row'

theorem EvolvesTo.trans {s t u : System} (hst : s.EvolvesTo t) (htu : t.EvolvesTo u) :
    s.EvolvesTo u := by
  intro server row hrow
  obtain ⟨row', hrow', he⟩ := hst server row hrow
  obtain ⟨row'', hrow'', he'⟩ := htu server row' hrow'
  exact ⟨row'', hrow'', he.trans he'⟩

theorem step_evolves (hs : s.Inv) (h : s.step label = some m) : s.EvolvesTo m := by
  intro server row hrow
  rcases step_row h server with hsame | ⟨-, hnone, -⟩ | ⟨request, hcommit, rfl⟩
  · exact ⟨row, (row_congr hsame).trans hrow, .refl row⟩
  · rw [System.row, hnone] at hrow
    cases hrow
  · obtain ⟨r, r', -, hr, htrans, -, -, hr'⟩ := hcommit.row hs h
    obtain rfl := Option.some.inj (hr.symm.trans hrow)
    exact ⟨r'.joined, hr', htrans.evolves (joined_of_row hr)⟩

theorem exec_evolves (hs : s.Inv) {labels : List Label} (h : exec step s labels = some t) :
    s.EvolvesTo t := by
  have hstep : ∀ (s : System) (label : Label) (m : System), s.Inv → s.step label = some m →
      m.Inv ∧ s.EvolvesTo m := fun s label m hs h => ⟨hs.step h, step_evolves hs h⟩
  exact exec_rel (fun s server row hrow => ⟨row, hrow, .refl row⟩)
    (fun s t u hst htu => hst.trans htu) hstep hs h

theorem exec_inv (hs : s.Inv) {labels : List Label} (h : exec step s labels = some t) : t.Inv :=
  exec_invariant (fun _ _ _ hs h => Inv.step hs h) hs h

/-- The row a committed call was decided on is the current one. -/
theorem Commits.transition (hs : s.Inv) {request : Request} (h : s.Commits label request) :
    ∃ row row', s.row request.server = some row ∧ request.Transition row row' := by
  obtain ⟨i, acknowledged, p, -, hp, rfl, hrow⟩ := h
  obtain ⟨-, row, row', hparse, htrans, -⟩ :=
    Request.decide_eq_swap (hs p (List.mem_of_getElem? hp))
  exact ⟨row, row', row_eq_some.2 ⟨_, hrow, hparse⟩, htrans⟩

theorem holds_of_confirm {claim : AuthorityClaim}
    (h : confirmAuthority (s.rows claim.server) claim = true) :
    ∃ row, s.row claim.server = some row ∧ claim.Holds row := by
  rw [confirmAuthority] at h
  cases hread : readAuthority (s.rows claim.server) claim.server with
  | error _ => rw [hread] at h; cases h
  | ok row =>
    rw [hread] at h
    cases row with
    | none => cases h
    | some row =>
      simp only [Bool.and_eq_true, decide_eq_true_eq, Option.any_eq_true] at h
      obtain ⟨hepoch, owner, howner, ⟨hpid, hticks⟩, hboot⟩ := h
      simp only [readAuthority, except_bind_eq_ok, requireServerIdentity_eq_ok] at hread
      obtain ⟨_, ⟨-, rfl⟩, hread⟩ := hread
      cases hrow : s.rows claim.server with
      | none => rw [hrow] at hread; cases hread
      | some text =>
        rw [hrow] at hread
        obtain ⟨r, hparse, heq⟩ := except_bind_eq_ok.1 hread
        obtain rfl := Option.some.inj (Except.ok.inj heq)
        refine ⟨r, row_eq_some.2 ⟨text, hrow, hparse⟩, hepoch, ?_⟩
        rw [howner, AuthorityClaim.owner, ← hpid, ← hticks, ← hboot]

/-- A claim on an epoch before the row's is dead: it is not confirmed and nothing commits under
it. -/
theorem claim_dead (hs : s.Inv) {claim : AuthorityClaim} {row : AuthorityRow}
    (hrow : s.row claim.server = some row) (hlt : claim.epoch < row.epoch) :
    confirmAuthority (s.rows claim.server) claim = false ∧
      ∀ label request, s.Commits label request → request.claim? ≠ some claim := by
  constructor
  · rw [Bool.eq_false_iff]
    intro hconfirm
    obtain ⟨r, hr, hepoch, -⟩ := holds_of_confirm hconfirm
    obtain rfl := Option.some.inj (hr.symm.trans hrow)
    omega
  · intro label request hcommit hclaim
    obtain ⟨r, r', hr, htrans⟩ := hcommit.transition hs
    have hserver : request.server = claim.server := by
      cases request with
      | take _ _ => cases hclaim
      | commitSpawn c _ | clearSpawn c | publish c _ _ | clearWorker c _ =>
        exact congrArg AuthorityClaim.server (Option.some.inj hclaim)
    obtain ⟨hepoch, -⟩ := htrans.holds hclaim
    rw [hserver] at hr
    obtain rfl := Option.some.inj (hr.symm.trans hrow)
    omega

/-- A committed take leaves a row with a later epoch. -/
theorem Commits.take_epoch (hs : s.Inv) {server : PyStr} {owner : AuthorityOwner}
    (hcommit : s.Commits label (.take server owner)) (h : s.step label = some m) :
    ∃ row row', s.row server = some row ∧ m.row server = some row' ∧ row.epoch < row'.epoch := by
  obtain ⟨row, row', -, hrow, htrans, -, -, hrow'⟩ := hcommit.row hs h
  refine ⟨row, _, hrow, hrow', ?_⟩
  cases htrans with
  | take _ => exact Int.lt_succ row.epoch

theorem initial_inv (rows : PyStr → Option (List Char)) : Inv { rows := rows } := by
  intro p hp
  cases hp

/-- **Fencing.** From any state `s` of any run: along the rest of the run a server's row keeps
being readable, its epoch does not decrease, and an epoch keeps its owner. A claim that the row
confirms has an epoch that is never after the row's again; and once a take commits on a row whose
epoch is the claim's or a later one, the claim is never confirmed again and no call under it
commits. -/
theorem fencing (rows : PyStr → Option (List Char)) {labels : List Label}
    (h : exec step { rows := rows } labels = some s) :
    (∀ labels' t, exec step s labels' = some t → ∀ server row, s.row server = some row →
      ∃ row', t.row server = some row' ∧ row.epoch ≤ row'.epoch ∧
        (row'.epoch = row.epoch → row'.owner = row.owner)) ∧
    (∀ claim, confirmAuthority (s.rows claim.server) claim = true →
      ∀ labels' t, exec step s labels' = some t →
        ∃ row, t.row claim.server = some row ∧ claim.epoch ≤ row.epoch) ∧
    ∀ claim owner label m row, s.Commits label (.take claim.server owner) →
      s.step label = some m → s.row claim.server = some row → claim.epoch ≤ row.epoch →
        ∀ labels' t, exec step m labels' = some t →
          confirmAuthority (t.rows claim.server) claim = false ∧
            ∀ label' request, t.Commits label' request → request.claim? ≠ some claim := by
  have hs : s.Inv := exec_inv (initial_inv rows) h
  refine ⟨fun labels' t ht server row hrow => ?_, fun claim hclaim labels' t ht => ?_,
    fun claim owner label m row hcommit hstep hrow hle labels' t ht => ?_⟩
  · obtain ⟨row', hrow', he⟩ := exec_evolves hs ht server row hrow
    refine ⟨row', hrow', he.epoch_le, fun hsame => ?_⟩
    rcases he with hlt | ⟨-, howner⟩
    · omega
    · exact howner
  · obtain ⟨row, hrow, hepoch, -⟩ := holds_of_confirm hclaim
    obtain ⟨row', hrow', he⟩ := exec_evolves hs ht _ row hrow
    exact ⟨row', hrow', hepoch ▸ he.epoch_le⟩
  · obtain ⟨r, r', hr, hr', hlt⟩ := hcommit.take_epoch hs hstep
    obtain rfl := Option.some.inj (hr.symm.trans hrow)
    have hm : m.Inv := hs.step hstep
    obtain ⟨row'', hrow'', he⟩ := exec_evolves hm ht _ r' hr'
    exact claim_dead (exec_inv hm ht) hrow'' (by have := he.epoch_le; omega)

/-! ### A superseded owner

Two incarnations race on a fresh server. The first takes epoch 1 and decides to commit an
obligation; before its compare-and-swap runs, the second takes epoch 2. -/

/-- The first incarnation. -/
def first : AuthorityOwner := { pid := 11, startTimeTicks := 100, bootId := "boot" }

/-- The second incarnation. -/
def second : AuthorityOwner := { pid := 12, startTimeTicks := 200, bootId := "boot" }

/-- The first incarnation's claim. -/
def firstClaim : AuthorityClaim :=
  { server := "alpha", epoch := 1, pid := 11, startTimeTicks := 100, bootId := "boot" }

/-- The obligation the first incarnation commits. -/
def firstSpawn : SpawnObligation :=
  { token := "t1", commit := "c1", creatorPid := 11, creatorStartTimeTicks := 100,
    bootId := some "boot", pid := none, startTimeTicks := none, parentDeathSignal := true }

/-- An empty table. -/
def empty : System := { rows := fun _ => none }

/-- The steps up to the second incarnation's take. -/
def race : List Label :=
  [.bootstrap "alpha", .read (.take "alpha" first), .swap 0 true,
    .read (.commitSpawn firstClaim firstSpawn), .read (.take "alpha" second)]

/-- The first claim dies when the second take commits, even if its answer is lost. -/
theorem fencing_race :
    ∃ s m, exec step empty race = some s ∧ s.step (.swap 1 false) = some m ∧
      s.Commits (.swap 1 false) (.take firstClaim.server second) ∧
      confirmAuthority (s.rows firstClaim.server) firstClaim = true ∧
      confirmAuthority (m.rows firstClaim.server) firstClaim = false ∧
      ∀ label request, m.Commits label request → request.claim? ≠ some firstClaim := by
  have hrun : ((exec step empty race).any fun s =>
      (s.step (.swap 1 false)).isSome && confirmAuthority (s.rows firstClaim.server) firstClaim &&
      ((s.pending[1]?).any fun p => p.request = .take firstClaim.server second &&
        s.rows firstClaim.server = some p.expected) &&
      ((s.row firstClaim.server).any fun row => firstClaim.epoch ≤ row.epoch)) = true := by
    decide +kernel
  obtain ⟨s, hs, hall⟩ := (Option.any_eq_true _ _).1 hrun
  simp only [Bool.and_eq_true] at hall
  obtain ⟨⟨⟨hstep, hconfirm⟩, hpending⟩, hrow⟩ := hall
  obtain ⟨m, hm⟩ := Option.isSome_iff_exists.1 hstep
  obtain ⟨p, hp, hboth⟩ := (Option.any_eq_true _ _).1 hpending
  obtain ⟨row, hrow, hepoch⟩ := (Option.any_eq_true _ _).1 hrow
  simp only [Bool.and_eq_true, decide_eq_true_eq] at hboth
  have hcommit : s.Commits (.swap 1 false) (.take firstClaim.server second) :=
    ⟨1, false, p, rfl, hp, hboth.1, hboth.2⟩
  obtain ⟨-, -, hfence⟩ := fencing (fun _ => none) hs
  obtain ⟨hdead, hnone⟩ :=
    hfence firstClaim second _ m row hcommit hm hrow (of_decide_eq_true hepoch) [] m rfl
  exact ⟨s, m, hs, hm, hcommit, hconfirm, hdead, hnone⟩

/-! ## Obligations -/

/-- The row of the server carries the obligation. -/
def Carries (s : System) (server : PyStr) (spawn : SpawnObligation) : Prop :=
  ∃ row, s.row server = some row ∧ row.spawn = some spawn

/-- The row of the server carries the worker record. -/
def Publishes (s : System) (server : PyStr) (worker : WorkerRecord) : Prop :=
  ∃ row, s.row server = some row ∧ row.worker = some worker

theorem commits_of_returned (hs : s.Inv) {claim : AuthorityClaim} {spawn : SpawnObligation}
    (h : s.returned label = some (.commitSpawn claim spawn, .flag true)) :
    s.Commits label (.commitSpawn claim spawn) := by
  cases label with
  | bootstrap server | drop i => cases h
  | read request =>
    rw [returned] at h
    split at h
    · rename_i a hdecide
      obtain ⟨rfl, rfl⟩ := Prod.mk.inj (Option.some.inj h)
      rcases commitSpawn_decide hdecide with heq | ⟨_, _, _, heq⟩ <;> cases heq
    · cases h
  | swap i acknowledged =>
    cases acknowledged with
    | false => cases h
    | true =>
      obtain ⟨p, hp, heq⟩ := Option.map_eq_some_iff.1 h
      obtain ⟨hrequest, hanswer⟩ := Prod.mk.inj heq
      by_cases hrow : s.rows p.request.server = some p.expected
      · exact ⟨i, true, p, rfl, hp, hrequest, hrequest ▸ hrow⟩
      · rw [if_neg hrow] at hanswer
        have hdecide := hs p (List.mem_of_getElem? hp)
        rw [hrequest, hanswer] at hdecide
        rcases commitSpawn_decide hdecide with heq | ⟨_, _, _, heq⟩ <;> cases heq

theorem exclusive_of_row {server : PyStr} {row : AuthorityRow} (h : s.row server = some row) :
    row.spawn = none ∨ row.worker = none := by
  obtain ⟨t, -, hparse⟩ := row_eq_some.1 h
  exact parseAuthorityPayload_exclusive hparse

/-- What a step may do to the obligations and worker records of the servers. -/
structure SpawnDiscipline (s : System) (label : Label) (m : System) : Prop where
  /-- An obligation commits only on a row without one and without a worker, and is then carried. -/
  commit : ∀ claim spawn, s.Commits label (.commitSpawn claim spawn) →
    (∃ row, s.row claim.server = some row ∧ row.spawn = none ∧ row.worker = none) ∧
      m.Carries claim.server spawn.joined
  /-- A commit that returns `True` has committed. -/
  answered : ∀ claim spawn, s.returned label = some (.commitSpawn claim spawn, .flag true) →
    s.Commits label (.commitSpawn claim spawn)
  /-- An obligation is removed by a clearance or by the publication of its own token, under the
  row's epoch and owner. -/
  removed : ∀ server spawn, s.Carries server spawn → ¬ m.Carries server spawn →
    ∃ claim row, claim.server = server ∧ s.row server = some row ∧ claim.Holds row ∧
      (s.Commits label (.clearSpawn claim) ∨
        ∃ worker, s.Commits label (.publish claim spawn.token worker) ∧
          m.Publishes server worker.joined ∧ worker.joined.token = spawn.token)
  /-- A worker record is removed by a clearance of its own token. -/
  retired : ∀ server worker, s.Publishes server worker → ¬ m.Publishes server worker →
    ∃ claim row, claim.server = server ∧ s.row server = some row ∧ claim.Holds row ∧
      s.Commits label (.clearWorker claim worker.token)
  /-- Takes and bootstraps keep the obligation, the worker and the generation. -/
  kept : ((∃ server, label = .bootstrap server) ∨
      ∃ server owner, s.Commits label (.take server owner)) →
    ∀ server row, s.row server = some row → ∃ row', m.row server = some row' ∧
      row'.spawn = row.spawn ∧ row'.worker = row.worker ∧ row'.generation = row.generation
  /-- No row carries both. -/
  exclusive : ∀ server row, m.row server = some row → row.spawn = none ∨ row.worker = none

/-- A row that changes was changed by a committed call. -/
theorem commits_of_row_ne (h : s.step label = some m) {server : PyStr} {row : AuthorityRow}
    (hrow : s.row server = some row) (hne : m.row server ≠ some row) :
    ∃ request, s.Commits label request ∧ request.server = server := by
  rcases step_row h server with hsame | ⟨-, hnone, -⟩ | hcommit
  · exact absurd ((row_congr hsame).trans hrow) hne
  · rw [System.row, hnone] at hrow
    cases hrow
  · exact hcommit

theorem removed_of_step (hs : s.Inv) (h : s.step label = some m) {server : PyStr}
    {spawn : SpawnObligation} (hcarries : s.Carries server spawn)
    (hgone : ¬ m.Carries server spawn) :
    ∃ claim row, claim.server = server ∧ s.row server = some row ∧ claim.Holds row ∧
      (s.Commits label (.clearSpawn claim) ∨
        ∃ worker, s.Commits label (.publish claim spawn.token worker) ∧
          m.Publishes server worker.joined ∧ worker.joined.token = spawn.token) := by
  obtain ⟨row, hrow, hspawn⟩ := hcarries
  obtain ⟨request, hcommit, rfl⟩ := commits_of_row_ne h hrow fun hm => hgone ⟨row, hm, hspawn⟩
  obtain ⟨r, r', -, hr, htrans, -, -, hr'⟩ := hcommit.row hs h
  obtain rfl := Option.some.inj (hr.symm.trans hrow)
  have hjoined : r.spawn.map SpawnObligation.joined = r.spawn :=
    congrArg AuthorityRow.spawn (joined_of_row hr)
  cases htrans with
  | take _ => exact absurd ⟨_, hr', hjoined.trans hspawn⟩ hgone
  | commitSpawn _ hnone _ => rw [hnone] at hspawn; cases hspawn
  | clearSpawn hclaim _ => exact ⟨_, r, rfl, hr, hclaim, Or.inl hcommit⟩
  | publish hclaim hspawn' _ htoken =>
    obtain rfl := Option.some.inj (hspawn'.symm.trans hspawn)
    refine ⟨_, r, rfl, hr, hclaim, Or.inr ⟨_, hcommit, ⟨_, hr', rfl⟩, ?_⟩⟩
    rw [hspawn] at hjoined
    exact (congrArg PyStr.joinSurrogates htoken).trans
      (congrArg SpawnObligation.token (Option.some.inj hjoined))
  | clearWorker _ _ => exact absurd ⟨_, hr', hjoined.trans hspawn⟩ hgone

theorem retired_of_step (hs : s.Inv) (h : s.step label = some m) {server : PyStr}
    {worker : WorkerRecord} (hpublishes : s.Publishes server worker)
    (hgone : ¬ m.Publishes server worker) :
    ∃ claim row, claim.server = server ∧ s.row server = some row ∧ claim.Holds row ∧
      s.Commits label (.clearWorker claim worker.token) := by
  obtain ⟨row, hrow, hworker⟩ := hpublishes
  obtain ⟨request, hcommit, rfl⟩ := commits_of_row_ne h hrow fun hm => hgone ⟨row, hm, hworker⟩
  obtain ⟨r, r', -, hr, htrans, -, -, hr'⟩ := hcommit.row hs h
  obtain rfl := Option.some.inj (hr.symm.trans hrow)
  have hjoined : r.worker.map WorkerRecord.joined = r.worker :=
    congrArg AuthorityRow.worker (joined_of_row hr)
  cases htrans with
  | take _ | commitSpawn _ _ _ | clearSpawn _ _ =>
    exact absurd ⟨_, hr', hjoined.trans hworker⟩ hgone
  | publish _ _ hnone _ => rw [hnone] at hworker; cases hworker
  | clearWorker hclaim hworker' =>
    obtain rfl := Option.some.inj (hworker'.symm.trans hworker)
    exact ⟨_, r, rfl, hr, hclaim, hcommit⟩

theorem commit_of_step (hs : s.Inv) (h : s.step label = some m) {claim : AuthorityClaim}
    {spawn : SpawnObligation} (hcommit : s.Commits label (.commitSpawn claim spawn)) :
    (∃ row, s.row claim.server = some row ∧ row.spawn = none ∧ row.worker = none) ∧
      m.Carries claim.server spawn.joined := by
  obtain ⟨row, row', -, hrow, htrans, -, -, hrow'⟩ := hcommit.row hs h
  cases htrans with
  | commitSpawn _ hspawn hworker => exact ⟨⟨row, hrow, hspawn, hworker⟩, _, hrow', rfl⟩

theorem kept_of_step (hs : s.Inv) (h : s.step label = some m)
    (hlabel : (∃ server, label = .bootstrap server) ∨
      ∃ server owner, s.Commits label (.take server owner))
    {server : PyStr} {row : AuthorityRow} (hrow : s.row server = some row) :
    ∃ row', m.row server = some row' ∧ row'.spawn = row.spawn ∧ row'.worker = row.worker ∧
      row'.generation = row.generation := by
  by_cases hsame : m.row server = some row
  · exact ⟨row, hsame, rfl, rfl, rfl⟩
  · obtain ⟨request, hcommit, rfl⟩ := commits_of_row_ne h hrow hsame
    rcases hlabel with ⟨server', rfl⟩ | ⟨server', owner, htake⟩
    · obtain ⟨i, acknowledged, p, heq, -⟩ := hcommit
      cases heq
    · obtain rfl := hcommit.unique htake
      obtain ⟨r, r', -, hr, htrans, -, -, hr'⟩ := hcommit.row hs h
      obtain rfl := Option.some.inj (hr.symm.trans hrow)
      have hspawn : r.spawn.map SpawnObligation.joined = r.spawn :=
        congrArg AuthorityRow.spawn (joined_of_row hr)
      have hworker : r.worker.map WorkerRecord.joined = r.worker :=
        congrArg AuthorityRow.worker (joined_of_row hr)
      cases htrans with
      | take _ => exact ⟨_, hr', hspawn, hworker, rfl⟩

theorem spawnDiscipline (hs : s.Inv) (h : s.step label = some m) : SpawnDiscipline s label m where
  commit _ _ := commit_of_step hs h
  answered _ _ := commits_of_returned hs
  removed _ _ := removed_of_step hs h
  retired _ _ := retired_of_step hs h
  kept hlabel _ _ := kept_of_step hs h hlabel
  exclusive _ _ := exclusive_of_row

/-- A stored text is the initial one or the canonical text of a row without both sections. -/
def Written (rows : PyStr → Option (List Char)) (s : System) : Prop :=
  ∀ server t, s.rows server = some t → rows server = some t ∨
    ∃ row, canonicalRowText row = .ok t ∧ (row.spawn = none ∨ row.worker = none)

theorem Written.step {rows : PyStr → Option (List Char)} (hs : s.Inv) (hw : Written rows s)
    (h : s.step label = some m) : Written rows m := by
  intro server t ht
  rcases step_row h server with hsame | ⟨-, -, t', hneutral, hrow⟩ | ⟨request, hcommit, rfl⟩
  · exact hw server t (hsame ▸ ht)
  · obtain rfl := Option.some.inj (hrow.symm.trans ht)
    obtain ⟨_, -, htext⟩ := except_bind_eq_ok.1 hneutral
    exact Or.inr ⟨_, htext, Or.inl rfl⟩
  · obtain ⟨row, row', t', hr, htrans, htext, hrow, -⟩ := hcommit.row hs h
    obtain rfl := Option.some.inj (hrow.symm.trans ht)
    exact Or.inr ⟨row', htext, htrans.exclusive (exclusive_of_row hr)⟩

/-- **At most one unresolved spawn.** In every state of every run the stored texts never carry both
an obligation and a worker beyond what was there at the start, and every step keeps the discipline.
Once a commit has returned `True`, no call commits another obligation on that server while the row
carries the first; the row carries it with its surrogate pairs joined, that is, unchanged unless
one of its texts spells a character as two surrogates. -/
theorem one_unresolved_spawn (rows : PyStr → Option (List Char)) {labels : List Label}
    (h : exec step { rows := rows } labels = some s) :
    Written rows s ∧ (∀ label m, s.step label = some m → SpawnDiscipline s label m) ∧
    ∀ label m claim spawn, s.step label = some m →
      s.returned label = some (.commitSpawn claim spawn, .flag true) →
        ∀ labels' t, exec step m labels' = some t →
          (∀ before u, before <+: labels' → exec step m before = some u →
            u.Carries claim.server spawn.joined) →
          ∀ label' claim' spawn', claim'.server = claim.server →
            ¬ t.Commits label' (.commitSpawn claim' spawn') := by
  have hstep : ∀ (s : System) (label : Label) (m : System), s.Inv ∧ Written rows s →
      s.step label = some m → m.Inv ∧ Written rows m :=
    fun s label m hs h => ⟨hs.1.step h, hs.2.step hs.1 h⟩
  have hinv : s.Inv ∧ Written rows s :=
    exec_invariant hstep ⟨initial_inv rows, fun server t ht => Or.inl ht⟩ h
  refine ⟨hinv.2, fun label m hm => spawnDiscipline hinv.1 hm, ?_⟩
  intro label m claim spawn hm _ labels' t ht hcarries label' claim' spawn' hserver hcommit
  obtain ⟨row, hrow, hspawn⟩ := hcarries labels' t (List.prefix_refl _) ht
  obtain ⟨r, r', hr, htrans⟩ := hcommit.transition (exec_inv (hinv.1.step hm) ht)
  have hr : t.row claim.server = some r := hserver ▸ hr
  obtain rfl := Option.some.inj (hr.symm.trans hrow)
  cases htrans with
  | commitSpawn _ hnone _ => rw [hnone] at hspawn; cases hspawn

/-- The first incarnation commits its obligation and publishes the worker it spawned. -/
def spawnRun : List Label :=
  [.bootstrap "alpha", .read (.take "alpha" first), .swap 0 true,
    .read (.commitSpawn firstClaim firstSpawn)]

/-- After the first commit returns `True`, a second one cannot commit. -/
theorem one_unresolved_spawn_blocks :
    ∃ s m, exec step empty spawnRun = some s ∧ s.step (.swap 0 true) = some m ∧
      s.returned (.swap 0 true) = some (.commitSpawn firstClaim firstSpawn, .flag true) ∧
      ∀ label claim spawn, claim.server = firstClaim.server →
        ¬ m.Commits label (.commitSpawn claim spawn) := by
  have hrun : ((exec step empty spawnRun).any fun s => (s.step (.swap 0 true)).isSome &&
      s.returned (.swap 0 true) = some (.commitSpawn firstClaim firstSpawn, .flag true)) = true := by
    decide +kernel
  obtain ⟨s, hs, hall⟩ := (Option.any_eq_true _ _).1 hrun
  simp only [Bool.and_eq_true, decide_eq_true_eq] at hall
  obtain ⟨hstep, hreturned⟩ := hall
  obtain ⟨m, hm⟩ := Option.isSome_iff_exists.1 hstep
  obtain ⟨-, hdiscipline, hblocked⟩ := one_unresolved_spawn (fun _ => none) hs
  have hd := hdiscipline _ m hm
  obtain ⟨-, hcarries⟩ := hd.commit _ _ (hd.answered _ _ hreturned)
  refine ⟨s, m, hs, hm, hreturned, ?_⟩
  refine hblocked _ m firstClaim firstSpawn hm hreturned [] m rfl fun before u hbefore hu => ?_
  obtain rfl := List.prefix_nil.1 hbefore
  obtain rfl := Option.some.inj hu
  exact hcarries

end System

end Lubko.Authority
