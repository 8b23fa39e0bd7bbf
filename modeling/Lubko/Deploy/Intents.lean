import Lubko.Lib.Execution
import Lubko.Supervise.FailClosed

/-!
# Intent generations

The desired record, the mission and the reservation share one space of generations. Run intents are
numbered and written under the generation lock, which makes each of them one step here. A mission is
numbered in one step and published in a later one, both under the deployment lock: over the control
socket the daemon reserves the number, and with the token nothing does.

So a run intent written in between takes the number of a mission that was allocated with the token,
and what keeps the numbers apart is that none is written.

* `nextGeneration_of_files` — the numbers of the model are those `next_generation` returns.
* `generations_unique` — over whole runs, generations are unique and the desired one grows.
-/

namespace Lubko.Deploy

open Lubko.Lib Lubko.Supervise Lubko.Lifecycle

/-! ## Records -/

/-- What a reader of a durable record finds. -/
inductive Content (α : Type) where
  | absent
  | malformed
  | holds (a : α)
  deriving DecidableEq

/-- The generation of a record: `0` when it is absent, and none when it is malformed. -/
def Content.generation {α : Type} (f : α → ℤ) : Content α → Option ℤ
  | .absent => some 0
  | .malformed => none
  | .holds a => some (f a)

/-- The record behind a content. -/
def Content.value? {α : Type} : Content α → Option α
  | .holds a => some a
  | _ => none

/-- The sources of a generation: `read_state().applied_generation`, the desired record, the mission
and the reservation. -/
structure Records where
  applied : ℤ
  desired : Content SupervisorDesired
  mission : Content RollbackState
  reserved : Content ℤ
  deriving DecidableEq

namespace Records

/-- The generation of the desired record. -/
def desiredGeneration (r : Records) : Option ℤ := r.desired.generation SupervisorDesired.generation

/-- The generation of the mission. -/
def missionGeneration (r : Records) : Option ℤ := r.mission.generation RollbackState.generation

/-- The reserved generation. -/
def reservedGeneration (r : Records) : Option ℤ := r.reserved.generation id

/-- The greatest generation on record; none when a source is malformed. -/
def top (r : Records) : Option ℤ := do
  let desired ← r.desiredGeneration
  let mission ← r.missionGeneration
  let reserved ← r.reservedGeneration
  return max (max (max r.applied desired) mission) reserved

/-- `next_generation`. -/
def nextGeneration (r : Records) : Option ℤ := r.top.map (· + 1)

/-- `_write_run_intent_locked`. -/
def writeRunIntentLocked (now : ℚ) (request : RunRequest) (r : Records) :
    Option (SupervisorDesired × Records) :=
  r.nextGeneration.map fun generation =>
    let desired : SupervisorDesired :=
      { schemaVersion := SCHEMA_VERSION
        generation := generation
        commit := request.commit
        repo := request.repo
        uvPath := request.uvPath
        workerId := request.workerId
        restart := request.restart
        requestedAt := now
        migration := request.migration }
    (desired, { r with desired := .holds desired })

/-- `ensure_run_intent`: the record it wrote, if it wrote one; none when it raises. -/
def ensureRunIntent (now : ℚ) (request : RunRequest) (r : Records) :
    Option (Option SupervisorDesired × Records) :=
  match r.desired with
  | .malformed => none
  | .holds current => if current.commit ≠ request.commit then none else some (none, r)
  | .absent =>
    match r.mission with
    | .absent =>
      (r.writeRunIntentLocked now { request with restart := false, migration := false }).map
        fun p => (some p.1, p.2)
    | _ => none

/-- `clear_migration_flag`. -/
def clearMigrationFlag (generation : ℤ) (r : Records) : Records :=
  match r.desired with
  | .holds current =>
    if current.migration ∧ current.generation = generation then
      { r with desired := .holds { current with migration := false } }
    else r
  | _ => r

end Records

/-! ## Runs -/

/-- How a mission generation is allocated. -/
inductive Transport where
  /-- `next_generation` under the generation lock, with the token. -/
  | direct
  /-- `allocate_generation` over the control socket: the daemon reserves the generation. -/
  | socket
  deriving DecidableEq

/-- A mission that is numbered and not yet published. -/
structure Draft where
  transport : Transport
  mission : RollbackState
  deriving DecidableEq

/-- An intent that was put on record. -/
inductive Intent where
  | run (record : SupervisorDesired)
  | mission (record : RollbackState)
  deriving DecidableEq

/-- The generation an intent carries. -/
def Intent.generation : Intent → ℤ
  | .run record => record.generation
  | .mission record => record.generation

/-- The records, the mission under preparation, the generation the daemon is about to record as
applied, and every intent that was ever put on record, newest first. -/
structure World where
  records : Records
  preparing : Option Draft
  observed : Option ℤ
  issued : List Intent
  deriving DecidableEq

/-- A step of the system. A crash before the write of a step is no step, and a crash after it loses
its result. -/
inductive Act where
  | requestRun (now : ℚ) (request : RunRequest)
  | ensureRunIntent (now : ℚ) (request : RunRequest)
  | promotePendingRequest (now : ℚ) (request : RunRequest)
  | clearMigrationFlag (generation : ℤ)
  /-- `next_mission_generation`, at the end of the preparation of a mission. -/
  | prepareMission (transport : Transport) (mission : RollbackState)
  /-- An `allocate_generation` whose reply is lost. -/
  | loseReservation
  | publishMission
  /-- The preparation fails, or its process crashes. -/
  | abandonMission
  /-- A later write of the published mission. -/
  | rewriteMission (mission : RollbackState)
  /-- The daemon reads the desired record, or the mission. -/
  | observeDesired
  | observeMission
  | recordApplied

/-- Put the result of a run intent into the world. -/
def World.withRun (w : World) (p : Option SupervisorDesired × Records) : World :=
  { w with records := p.2, issued := (p.1.map Intent.run).toList ++ w.issued }

/-- The reservation of the next generation. -/
def Records.reserve (r : Records) (generation : ℤ) : Records :=
  { r with reserved := .holds generation }

/-- What an allocation leaves on record. -/
def Records.allocate (r : Records) (generation : ℤ) : Transport → Records
  | .direct => r
  | .socket => r.reserve generation

/-- One step; `none` when it is not enabled, or raises without a write. -/
def World.step (w : World) : Act → Option World
  | .requestRun now request =>
    (w.records.writeRunIntentLocked now request).map fun p => w.withRun (some p.1, p.2)
  | .ensureRunIntent now request | .promotePendingRequest now request =>
    (w.records.ensureRunIntent now request).map w.withRun
  | .clearMigrationFlag generation =>
    some { w with records := w.records.clearMigrationFlag generation }
  | .prepareMission transport mission =>
    match w.preparing with
    | some _ => none
    | none =>
      w.records.nextGeneration.map fun generation =>
        { w with
          records := w.records.allocate generation transport
          preparing := some ⟨transport, { mission with generation := generation }⟩ }
  | .loseReservation =>
    w.records.nextGeneration.map fun generation =>
      { w with records := w.records.reserve generation }
  | .publishMission =>
    w.preparing.map fun draft =>
      { w with
        records := { w.records with mission := .holds draft.mission }
        preparing := none
        issued := .mission draft.mission :: w.issued }
  | .abandonMission => some { w with preparing := none }
  | .rewriteMission mission =>
    match w.records.mission with
    | .holds current =>
      if mission.generation = current.generation then
        some { w with records := { w.records with mission := .holds mission } }
      else none
    | _ => none
  | .observeDesired => some { w with observed := w.records.desiredGeneration }
  | .observeMission => some { w with observed := w.records.missionGeneration }
  | .recordApplied =>
    w.observed.bind fun generation =>
      if w.records.applied < generation then
        some { w with records := { w.records with applied := generation } }
      else none

/-- A host on which nothing was recorded yet. -/
def World.fresh : World := ⟨⟨0, .absent, .absent, .absent⟩, none, none, []⟩

/-- No run intent was written since a mission got its number with the token. -/
def Unraced (w : World) : Act → Prop
  | .publishMission => ∀ draft ∈ w.preparing, draft.transport = .direct →
    ∀ desired ∈ w.records.desiredGeneration, desired < draft.mission.generation
  | _ => True

/-! ## The greatest generation -/

namespace Records

variable {r : Records} {t : ℤ}

theorem top_eq_some : r.top = some t ↔ ∃ desired mission reserved,
    r.desiredGeneration = some desired ∧ r.missionGeneration = some mission ∧
      r.reservedGeneration = some reserved ∧
        t = max (max (max r.applied desired) mission) reserved := by
  rw [top]
  cases r.desiredGeneration with
  | none => simp
  | some desired =>
    cases r.missionGeneration with
    | none => simp
    | some mission =>
      cases r.reservedGeneration with
      | none => simp
      | some reserved => simp [eq_comm]

/-- The sources, each bounded by the greatest. -/
theorem bounds_of_top (h : r.top = some t) : ∃ desired mission reserved,
    r.desiredGeneration = some desired ∧ r.missionGeneration = some mission ∧
      r.reservedGeneration = some reserved ∧
        r.applied ≤ t ∧ desired ≤ t ∧ mission ≤ t ∧ reserved ≤ t := by
  obtain ⟨desired, mission, reserved, hd, hm, hr, rfl⟩ := top_eq_some.1 h
  refine ⟨desired, mission, reserved, hd, hm, hr, ?_, ?_, ?_, le_max_right _ _⟩
  · exact le_max_of_le_left (le_max_of_le_left (le_max_left _ _))
  · exact le_max_of_le_left (le_max_of_le_left (le_max_right _ _))
  · exact le_max_of_le_left (le_max_right _ _)

theorem nextGeneration_eq_some {g : ℤ} : r.nextGeneration = some g ↔ r.top = some (g - 1) := by
  rw [nextGeneration, Option.map_eq_some_iff]
  constructor
  · rintro ⟨t, ht, rfl⟩
    rw [ht, add_sub_cancel_right]
  · intro h
    exact ⟨g - 1, h, sub_add_cancel g 1⟩

/-- A source stays on record and does not fall. -/
def GrowsTo (a b : Option ℤ) : Prop := ∀ x ∈ a, ∃ y ∈ b, x ≤ y

theorem GrowsTo.refl (a : Option ℤ) : GrowsTo a a := fun x hx => ⟨x, hx, le_rfl⟩

theorem GrowsTo.trans {a b c : Option ℤ} (hab : GrowsTo a b) (hbc : GrowsTo b c) :
    GrowsTo a c := by
  intro x hx
  obtain ⟨y, hy, hxy⟩ := hab x hx
  obtain ⟨z, hz, hyz⟩ := hbc y hy
  exact ⟨z, hz, hxy.trans hyz⟩

theorem GrowsTo.le {a b : Option ℤ} (h : GrowsTo a b) {x y : ℤ} (hx : x ∈ a) (hy : y ∈ b) :
    x ≤ y := by
  obtain ⟨z, hz, hle⟩ := h x hx
  rwa [Option.mem_unique hy hz]

/-- Every source stays on record and does not fall. -/
structure Grows (r r' : Records) : Prop where
  applied : r.applied ≤ r'.applied
  desired : GrowsTo r.desiredGeneration r'.desiredGeneration
  mission : GrowsTo r.missionGeneration r'.missionGeneration
  reserved : GrowsTo r.reservedGeneration r'.reservedGeneration

/-- The greatest generation does not fall either. -/
theorem Grows.top {r' : Records} (h : Grows r r') (ht : r.top = some t) :
    ∃ t', r'.top = some t' ∧ t ≤ t' := by
  obtain ⟨d, m, v, hd, hm, hr, rfl⟩ := top_eq_some.1 ht
  obtain ⟨d', hd', hdd⟩ := h.desired d hd
  obtain ⟨m', hm', hmm⟩ := h.mission m hm
  obtain ⟨v', hv', hvv⟩ := h.reserved v hr
  exact ⟨_, top_eq_some.2 ⟨d', m', v', hd', hm', hv', rfl⟩,
    max_le_max (max_le_max (max_le_max h.applied hdd) hmm) hvv⟩

end Records

/-! ## What the operations write -/

/-- A run intent leaves the records as they are, or writes a record with the next generation. -/
inductive Written (r : Records) : Option SupervisorDesired × Records → Prop
  | unchanged : Written r (none, r)
  | fresh {desired : SupervisorDesired} {t : ℤ} (htop : r.top = some t)
      (hgen : desired.generation = t + 1) :
      Written r (some desired, { r with desired := .holds desired })

theorem written_of_writeRunIntentLocked {now : ℚ} {request : RunRequest} {r : Records}
    {p : SupervisorDesired × Records} (h : r.writeRunIntentLocked now request = some p) :
    Written r (some p.1, p.2) := by
  obtain ⟨g, hg, rfl⟩ := Option.map_eq_some_iff.1 h
  exact .fresh (Records.nextGeneration_eq_some.1 hg) (sub_add_cancel g 1).symm

theorem written_of_ensureRunIntent {now : ℚ} {request : RunRequest} {r : Records}
    {p : Option SupervisorDesired × Records} (h : r.ensureRunIntent now request = some p) :
    Written r p := by
  rw [Records.ensureRunIntent] at h
  cases hd : r.desired with
  | malformed =>
    rw [hd] at h
    cases h
  | holds current =>
    simp only [hd] at h
    by_cases hc : current.commit ≠ request.commit
    · rw [if_pos hc] at h
      cases h
    · rw [if_neg hc] at h
      cases h
      exact .unchanged
  | absent =>
    rw [hd] at h
    cases hm : r.mission with
    | absent =>
      rw [hm] at h
      obtain ⟨q, hq, rfl⟩ := Option.map_eq_some_iff.1 h
      exact written_of_writeRunIntentLocked hq
    | malformed | holds _ =>
      rw [hm] at h
      cases h

/-- Clearing the flag changes no generation. -/
theorem clearMigrationFlag_sources (r : Records) (generation : ℤ) :
    (r.clearMigrationFlag generation).applied = r.applied ∧
      (r.clearMigrationFlag generation).desiredGeneration = r.desiredGeneration ∧
      (r.clearMigrationFlag generation).mission = r.mission ∧
      (r.clearMigrationFlag generation).reserved = r.reserved := by
  rw [Records.clearMigrationFlag]
  cases hd : r.desired with
  | absent | malformed => simp
  | holds current =>
    by_cases hc : current.migration = true ∧ current.generation = generation
    · simp [hc, Records.desiredGeneration, hd, Content.generation]
    · simp [hc]

/-! ## The invariant -/

/-- What holds of the numbers after every step. -/
structure World.Inv (w : World) : Prop where
  bounded : ∃ t, w.records.top = some t ∧ (∀ i ∈ w.issued, i.generation ≤ t) ∧
    (∀ g ∈ w.observed, g ≤ t) ∧ ∀ d ∈ w.preparing, d.mission.generation ≤ t + 1
  distinct : w.issued.Pairwise fun i j => i.generation ≠ j.generation
  newer : ∀ d ∈ w.preparing, ∀ m ∈ w.records.missionGeneration, m < d.mission.generation
  /-- A reserved number is given to nobody else. -/
  reserved : ∀ d ∈ w.preparing, d.transport = .socket →
    (∀ v ∈ w.records.reservedGeneration, d.mission.generation ≤ v) ∧
      ∀ i ∈ w.issued, i.generation ≠ d.mission.generation
  /-- A number that is not reserved is given to a run intent next, and that one is on record. -/
  unreserved : ∀ d ∈ w.preparing, d.transport = .direct → ∀ i ∈ w.issued,
    i.generation < d.mission.generation ∨
      ∀ g ∈ w.records.desiredGeneration, d.mission.generation ≤ g

theorem World.fresh_inv : World.fresh.Inv where
  bounded := ⟨0, rfl, List.forall_mem_nil _, fun _ h => absurd h (Option.not_mem_none _),
    fun _ h => absurd h (Option.not_mem_none _)⟩
  distinct := List.Pairwise.nil
  newer _ h := absurd h (Option.not_mem_none _)
  reserved _ h := absurd h (Option.not_mem_none _)
  unreserved _ h := absurd h (Option.not_mem_none _)

/-- A step that grows the sources, and puts no intent on record. -/
theorem World.Inv.grow {w : World} (h : w.Inv) {r : Records} {observed : Option ℤ}
    (hr : w.records.Grows r) (hm : r.missionGeneration = w.records.missionGeneration)
    (hobs : ∀ t, w.records.top = some t → ∀ g ∈ observed, g ≤ t) :
    World.Inv { w with records := r, observed := observed } := by
  obtain ⟨t, ht, hissued, -, hdraft⟩ := h.bounded
  obtain ⟨d, m, v, hd, -, hv, -⟩ := Records.bounds_of_top ht
  obtain ⟨t', ht', hle⟩ := hr.top ht
  refine ⟨⟨t', ht', fun i hi => (hissued i hi).trans hle, fun g hg => (hobs t ht g hg).trans hle,
    fun e he => (hdraft e he).trans (by omega)⟩, h.distinct, fun e he x hx => ?_, ?_, ?_⟩
  · exact h.newer e he x (hm ▸ hx)
  · intro e he hs
    obtain ⟨hres, hne⟩ := h.reserved e he hs
    exact ⟨fun x hx => (hres v hv).trans (hr.reserved.le hv hx), hne⟩
  · intro e he hs i hi
    rcases h.unreserved e he hs i hi with hlt | hge
    · exact .inl hlt
    · exact .inr fun g hg => (hge d hd).trans (hr.desired.le hd hg)

/-- A run intent. -/
theorem World.Inv.withRun {w : World} (h : w.Inv) {p : Option SupervisorDesired × Records}
    (hp : Written w.records p) : (w.withRun p).Inv := by
  cases hp with
  | unchanged => exact h
  | @fresh desired t htop hgen =>
    obtain ⟨t₀, ht₀, hissued, hobs, hdraft⟩ := h.bounded
    obtain rfl : t = t₀ := Option.some.inj (htop.symm.trans ht₀)
    obtain ⟨d, m, v, hd, hm, hv, -, hdt, -, hvt⟩ := Records.bounds_of_top htop
    have hd' : ({ w.records with desired := .holds desired } : Records).desiredGeneration =
        some (t + 1) := by rw [← hgen]; rfl
    have hgrows : w.records.Grows { w.records with desired := .holds desired } :=
      ⟨le_rfl, fun x hx => ⟨t + 1, hd', by rw [Option.mem_unique hx hd]; omega⟩,
        .refl _, .refl _⟩
    obtain ⟨t', ht', hle⟩ := hgrows.top htop
    have hnew : t + 1 ≤ t' := by
      obtain ⟨x, _, _, hx, -, -, -, hxt, -⟩ := Records.bounds_of_top ht'
      rw [hd', Option.some.injEq] at hx
      omega
    refine ⟨⟨t', ht', fun i hi => ?_, fun g hg => (hobs g hg).trans hle, fun e he =>
      (hdraft e he).trans (by omega)⟩, ?_, h.newer, fun e he hs => ?_, fun e he _ i _ => ?_⟩
    · rcases List.mem_cons.1 hi with rfl | hi
      · show desired.generation ≤ t'
        omega
      · exact (hissued i hi).trans hle
    · refine List.pairwise_cons.2 ⟨fun i hi => ?_, h.distinct⟩
      have hi' := hissued i hi
      show desired.generation ≠ i.generation
      omega
    · obtain ⟨hres, hne⟩ := h.reserved e he hs
      refine ⟨hres, fun i hi => ?_⟩
      rcases List.mem_cons.1 hi with rfl | hi
      · have hev := hres v hv
        show desired.generation ≠ _
        omega
      · exact hne i hi
    · right
      intro g hg
      have hgt : g = t + 1 := Option.mem_unique hg hd'
      have he' := hdraft e he
      omega

/-- A mission that gets its number. -/
theorem World.Inv.prepare {w : World} (h : w.Inv) {t : ℤ} (ht : w.records.top = some t)
    (transport : Transport) (mission : RollbackState) :
    World.Inv { w with
      records := w.records.allocate (t + 1) transport
      preparing := some ⟨transport, { mission with generation := t + 1 }⟩ } := by
  obtain ⟨t₀, ht₀, hissued, hobs, -⟩ := h.bounded
  obtain rfl : t = t₀ := Option.some.inj (ht.symm.trans ht₀)
  obtain ⟨d, m, v, hd, hm, hv, -, -, hmt, hvt⟩ := Records.bounds_of_top ht
  have hmission : ∀ x ∈ w.records.missionGeneration, x < t + 1 := fun x hx => by
    rw [Option.mem_unique hx hm]
    omega
  cases transport with
  | direct =>
    refine ⟨⟨t, ht, hissued, hobs, fun e he => ?_⟩, h.distinct, fun e he x hx => ?_,
      fun e he hs => ?_, fun e he _ i hi => ?_⟩
    · cases he
      exact le_rfl
    · cases he
      exact hmission x hx
    · cases he
      cases hs
    · cases he
      exact .inl (Int.lt_add_one_of_le (hissued i hi))
  | socket =>
    have hgrows : w.records.Grows (w.records.reserve (t + 1)) :=
      ⟨le_rfl, .refl _, .refl _, fun x hx => ⟨t + 1, rfl, by rw [Option.mem_unique hx hv]; omega⟩⟩
    obtain ⟨t', ht', hle⟩ := hgrows.top ht
    have hnew : t + 1 ≤ t' := by
      obtain ⟨_, _, x, -, -, hx, -, -, -, hxt⟩ := Records.bounds_of_top ht'
      cases hx
      exact hxt
    refine ⟨⟨t', ht', fun i hi => (hissued i hi).trans hle, fun g hg => (hobs g hg).trans hle,
      fun e he => ?_⟩, h.distinct, fun e he x hx => ?_, fun e he _ => ⟨fun x hx => ?_, fun i hi => ?_⟩,
      fun e he hs => ?_⟩
    · cases he
      show t + 1 ≤ t' + 1
      omega
    · cases he
      exact hmission x hx
    · cases he
      cases hx
      exact le_rfl
    · cases he
      have hi' := hissued i hi
      show i.generation ≠ t + 1
      omega
    · cases he
      cases hs

/-- A mission that is published with a number nobody else got. -/
theorem World.Inv.publish {w : World} (h : w.Inv) {draft : Draft} (hp : w.preparing = some draft)
    (hu : Unraced w .publishMission) :
    World.Inv { w with
      records := { w.records with mission := .holds draft.mission }
      preparing := none
      issued := .mission draft.mission :: w.issued } := by
  obtain ⟨t, ht, hissued, hobs, hdraft⟩ := h.bounded
  obtain ⟨d, m, v, hd, hm, hv, -⟩ := Records.bounds_of_top ht
  have hmem : draft ∈ w.preparing := hp
  have hne : ∀ i ∈ w.issued, i.generation ≠ draft.mission.generation := by
    cases htransport : draft.transport with
    | socket => exact (h.reserved draft hmem htransport).2
    | direct =>
      intro i hi
      have hlt := hu draft hmem htransport d hd
      rcases h.unreserved draft hmem htransport i hi with hlt' | hge
      · exact hlt'.ne
      · exact absurd (hge d hd) (not_le.2 hlt)
  have hgrows : w.records.Grows { w.records with mission := .holds draft.mission } :=
    ⟨le_rfl, .refl _, fun x hx => ⟨_, rfl, (h.newer draft hmem x hx).le⟩, .refl _⟩
  obtain ⟨t', ht', hle⟩ := hgrows.top ht
  refine ⟨⟨t', ht', fun i hi => ?_, fun g hg => (hobs g hg).trans hle,
    fun _ he => absurd he (Option.not_mem_none _)⟩,
    List.pairwise_cons.2 ⟨fun i hi => (hne i hi).symm, h.distinct⟩,
    fun _ he => absurd he (Option.not_mem_none _), fun _ he => absurd he (Option.not_mem_none _),
    fun _ he => absurd he (Option.not_mem_none _)⟩
  rcases List.mem_cons.1 hi with rfl | hi
  · obtain ⟨_, x, _, -, hx, -, -, -, hxt, -⟩ := Records.bounds_of_top ht'
    cases hx
    exact hxt
  · exact (hissued i hi).trans hle

/-- **One step keeps the numbers apart.** -/
theorem World.Inv.step {w w' : World} {a : Act} (h : w.Inv) (hu : Unraced w a)
    (hs : w.step a = some w') : w'.Inv := by
  obtain ⟨t, ht, -, hobs', -⟩ := h.bounded
  have hobs : ∀ t, w.records.top = some t → ∀ g ∈ w.observed, g ≤ t := fun t₁ ht₁ g hg => by
    rw [← Option.some.inj (ht.symm.trans ht₁)]
    exact hobs' g hg
  obtain ⟨d, m, v, hd, hm, hv, -, hdt, hmt, hvt⟩ := Records.bounds_of_top ht
  cases a with
  | requestRun now request =>
    obtain ⟨p, hp, rfl⟩ := Option.map_eq_some_iff.1 hs
    exact h.withRun (written_of_writeRunIntentLocked hp)
  | ensureRunIntent now request | promotePendingRequest now request =>
    obtain ⟨p, hp, rfl⟩ := Option.map_eq_some_iff.1 hs
    exact h.withRun (written_of_ensureRunIntent hp)
  | clearMigrationFlag generation =>
    obtain rfl := Option.some.inj hs
    obtain ⟨ha, hdesired, hmission, hreserved⟩ := clearMigrationFlag_sources w.records generation
    have hm' : (w.records.clearMigrationFlag generation).missionGeneration =
        w.records.missionGeneration := by
      rw [Records.missionGeneration, hmission]
      rfl
    have hgrows : w.records.Grows (w.records.clearMigrationFlag generation) :=
      ⟨ha.ge, hdesired ▸ .refl _, hm' ▸ .refl _, by
        rw [Records.reservedGeneration, Records.reservedGeneration, hreserved]
        exact .refl _⟩
    exact h.grow hgrows hm' hobs
  | prepareMission transport mission =>
    rw [World.step] at hs
    cases hp : w.preparing with
    | some draft =>
      rw [hp] at hs
      cases hs
    | none =>
      rw [hp] at hs
      obtain ⟨g, hg, rfl⟩ := Option.map_eq_some_iff.1 hs
      obtain rfl : g = t + 1 := by
        have htop := Records.nextGeneration_eq_some.1 hg
        rw [ht, Option.some.injEq] at htop
        omega
      exact h.prepare ht transport mission
  | loseReservation =>
    obtain ⟨g, hg, rfl⟩ := Option.map_eq_some_iff.1 hs
    have htop := Records.nextGeneration_eq_some.1 hg
    rw [ht, Option.some.injEq] at htop
    have hgrows : w.records.Grows (w.records.reserve g) :=
      ⟨le_rfl, .refl _, .refl _, fun x hx => ⟨g, rfl, by rw [Option.mem_unique hx hv]; omega⟩⟩
    exact h.grow hgrows rfl hobs
  | publishMission =>
    obtain ⟨draft, hp, rfl⟩ := Option.map_eq_some_iff.1 hs
    exact h.publish hp hu
  | abandonMission =>
    obtain rfl := Option.some.inj hs
    obtain ⟨t, ht, hissued, hobs, -⟩ := h.bounded
    exact ⟨⟨t, ht, hissued, hobs, fun _ he => absurd he (Option.not_mem_none _)⟩, h.distinct,
      fun _ he => absurd he (Option.not_mem_none _), fun _ he => absurd he (Option.not_mem_none _),
      fun _ he => absurd he (Option.not_mem_none _)⟩
  | rewriteMission mission =>
    rw [World.step] at hs
    cases hc : w.records.mission with
    | absent | malformed =>
      rw [hc] at hs
      cases hs
    | holds current =>
      simp only [hc] at hs
      by_cases hg : mission.generation = current.generation
      · rw [if_pos hg] at hs
        obtain rfl := Option.some.inj hs
        have hm' : ({ w.records with mission := .holds mission } : Records).missionGeneration =
            w.records.missionGeneration := by
          rw [Records.missionGeneration, Records.missionGeneration, hc]
          exact congrArg some hg
        have hgrows : w.records.Grows { w.records with mission := .holds mission } :=
          ⟨le_rfl, .refl _, hm' ▸ .refl _, .refl _⟩
        exact h.grow hgrows hm' hobs
      · rw [if_neg hg] at hs
        cases hs
  | observeDesired =>
    obtain rfl := Option.some.inj hs
    refine h.grow ⟨le_rfl, .refl _, .refl _, .refl _⟩ rfl fun t₁ ht₁ x hx => ?_
    rw [Option.mem_unique hx hd, ← Option.some.inj (ht.symm.trans ht₁)]
    exact hdt
  | observeMission =>
    obtain rfl := Option.some.inj hs
    refine h.grow ⟨le_rfl, .refl _, .refl _, .refl _⟩ rfl fun t₁ ht₁ x hx => ?_
    rw [Option.mem_unique hx hm, ← Option.some.inj (ht.symm.trans ht₁)]
    exact hmt
  | recordApplied =>
    obtain ⟨g, hg, hif⟩ := Option.bind_eq_some_iff.1 hs
    by_cases hlt : w.records.applied < g
    · rw [if_pos hlt] at hif
      obtain rfl := Option.some.inj hif
      exact h.grow ⟨hlt.le, .refl _, .refl _, .refl _⟩ rfl hobs
    · rw [if_neg hlt] at hif
      cases hif

/-! ## What is on record was issued -/

/-- The records on file carry intents that were put on record: the desired record up to its flag,
the mission up to its later writes. -/
structure World.Recorded (w : World) : Prop where
  desired : ∀ d, w.records.desired = .holds d → ∃ d', Intent.run d' ∈ w.issued ∧
    (d = d' ∨ d = { d' with migration := false })
  mission : ∀ m, w.records.mission = .holds m → ∃ m', Intent.mission m' ∈ w.issued ∧
    m.generation = m'.generation

theorem World.Recorded.withRun {w : World} (h : w.Recorded)
    {p : Option SupervisorDesired × Records} (hp : Written w.records p) : (w.withRun p).Recorded := by
  cases hp with
  | unchanged => exact h
  | @fresh desired t htop hgen =>
    refine ⟨fun d hd => ⟨desired, List.mem_cons_self .., ?_⟩, fun m hm => ?_⟩
    · exact .inl (Content.holds.inj hd).symm
    · obtain ⟨m', hm', hgen⟩ := h.mission m hm
      exact ⟨m', List.mem_cons_of_mem _ hm', hgen⟩

theorem World.Recorded.step {w w' : World} {a : Act} (h : w.Recorded) (hs : w.step a = some w') :
    w'.Recorded := by
  cases a with
  | requestRun now request =>
    obtain ⟨p, hp, rfl⟩ := Option.map_eq_some_iff.1 hs
    exact h.withRun (written_of_writeRunIntentLocked hp)
  | ensureRunIntent now request | promotePendingRequest now request =>
    obtain ⟨p, hp, rfl⟩ := Option.map_eq_some_iff.1 hs
    exact h.withRun (written_of_ensureRunIntent hp)
  | clearMigrationFlag generation =>
    obtain rfl := Option.some.inj hs
    refine ⟨fun d hd => ?_, fun m hm => h.mission m ?_⟩
    · simp only [Records.clearMigrationFlag] at hd
      cases hc : w.records.desired with
      | absent | malformed => simp [hc] at hd
      | holds current =>
        obtain ⟨d', hd', hor⟩ := h.desired current hc
        simp only [hc] at hd
        split_ifs at hd with hflag
        · cases hd
          refine ⟨d', hd', .inr ?_⟩
          rcases hor with rfl | rfl
          · rfl
          · rfl
        · rw [hc] at hd
          cases hd
          exact ⟨d', hd', hor⟩
    · rw [← (clearMigrationFlag_sources w.records generation).2.2.1]
      exact hm
  | prepareMission transport mission =>
    rw [World.step] at hs
    cases hp : w.preparing with
    | some draft =>
      rw [hp] at hs
      cases hs
    | none =>
      rw [hp] at hs
      obtain ⟨g, -, rfl⟩ := Option.map_eq_some_iff.1 hs
      cases transport with
      | direct | socket => exact ⟨h.desired, h.mission⟩
  | loseReservation =>
    obtain ⟨g, -, rfl⟩ := Option.map_eq_some_iff.1 hs
    exact ⟨h.desired, h.mission⟩
  | publishMission =>
    obtain ⟨draft, -, rfl⟩ := Option.map_eq_some_iff.1 hs
    refine ⟨fun d hd => ?_, fun m hm => ⟨draft.mission, List.mem_cons_self .., ?_⟩⟩
    · obtain ⟨d', hd', hor⟩ := h.desired d hd
      exact ⟨d', List.mem_cons_of_mem _ hd', hor⟩
    · rw [← Content.holds.inj hm]
  | abandonMission | observeDesired | observeMission =>
    obtain rfl := Option.some.inj hs
    exact ⟨h.desired, h.mission⟩
  | rewriteMission mission =>
    rw [World.step] at hs
    cases hc : w.records.mission with
    | absent | malformed =>
      rw [hc] at hs
      cases hs
    | holds current =>
      simp only [hc] at hs
      split_ifs at hs with hg
      obtain rfl := Option.some.inj hs
      refine ⟨h.desired, fun m hm => ?_⟩
      obtain ⟨m', hm', hgen⟩ := h.mission current hc
      exact ⟨m', hm', by rw [← Content.holds.inj hm, hg, hgen]⟩
  | recordApplied =>
    obtain ⟨g, -, hif⟩ := Option.bind_eq_some_iff.1 hs
    split_ifs at hif
    obtain rfl := Option.some.inj hif
    exact ⟨h.desired, h.mission⟩

/-! ## The desired generation -/

/-- What a step does to the records. -/
inductive RecordsStep (r : Records) : Records → Prop
  | run {p : Option SupervisorDesired × Records} (hp : Written r p) : RecordsStep r p.2
  | cleared (generation : ℤ) : RecordsStep r (r.clearMigrationFlag generation)
  | reserved (generation : ℤ) : RecordsStep r (r.reserve generation)
  | mission (mission : RollbackState) : RecordsStep r { r with mission := .holds mission }
  | applied (generation : ℤ) : RecordsStep r { r with applied := generation }

theorem recordsStep_of_step {w w' : World} {a : Act} (hs : w.step a = some w') :
    RecordsStep w.records w'.records := by
  have hsame : RecordsStep w.records w.records := .run .unchanged
  cases a with
  | requestRun now request =>
    obtain ⟨p, hp, rfl⟩ := Option.map_eq_some_iff.1 hs
    exact .run (written_of_writeRunIntentLocked hp)
  | ensureRunIntent now request | promotePendingRequest now request =>
    obtain ⟨p, hp, rfl⟩ := Option.map_eq_some_iff.1 hs
    exact .run (written_of_ensureRunIntent hp)
  | clearMigrationFlag generation =>
    obtain rfl := Option.some.inj hs
    exact .cleared generation
  | prepareMission transport mission =>
    rw [World.step] at hs
    cases hp : w.preparing with
    | some draft =>
      rw [hp] at hs
      cases hs
    | none =>
      rw [hp] at hs
      obtain ⟨g, -, rfl⟩ := Option.map_eq_some_iff.1 hs
      cases transport with
      | direct => exact hsame
      | socket => exact .reserved g
  | loseReservation =>
    obtain ⟨g, -, rfl⟩ := Option.map_eq_some_iff.1 hs
    exact .reserved g
  | publishMission =>
    obtain ⟨draft, -, rfl⟩ := Option.map_eq_some_iff.1 hs
    exact .mission draft.mission
  | abandonMission | observeDesired | observeMission =>
    obtain rfl := Option.some.inj hs
    exact hsame
  | rewriteMission mission =>
    rw [World.step] at hs
    cases hc : w.records.mission with
    | absent | malformed =>
      rw [hc] at hs
      cases hs
    | holds current =>
      simp only [hc] at hs
      split_ifs at hs
      obtain rfl := Option.some.inj hs
      exact .mission mission
  | recordApplied =>
    obtain ⟨g, -, hif⟩ := Option.bind_eq_some_iff.1 hs
    split_ifs at hif
    obtain rfl := Option.some.inj hif
    exact .applied g

/-- No source becomes malformed, and the desired generation does not fall. -/
theorem RecordsStep.desired {r r' : Records} (h : RecordsStep r r') {t : ℤ}
    (ht : r.top = some t) : (∃ t', r'.top = some t') ∧
      Records.GrowsTo r.desiredGeneration r'.desiredGeneration := by
  obtain ⟨d, m, v, hd, hm, hv, -, hdt, -⟩ := Records.bounds_of_top ht
  cases h with
  | run hp =>
    cases hp with
    | unchanged => exact ⟨⟨t, ht⟩, .refl _⟩
    | @fresh desired t' htop hgen =>
      refine ⟨⟨_, Records.top_eq_some.2 ⟨desired.generation, m, v, rfl, hm, hv, rfl⟩⟩,
        fun x hx => ⟨desired.generation, rfl, ?_⟩⟩
      rw [Option.mem_unique hx hd, hgen, ← Option.some.inj (ht.symm.trans htop)]
      omega
  | cleared generation =>
    obtain ⟨-, hdesired, hmission, hreserved⟩ := clearMigrationFlag_sources r generation
    rw [hdesired]
    refine ⟨⟨_, Records.top_eq_some.2 ⟨d, m, v, hdesired.trans hd, ?_, ?_, rfl⟩⟩, .refl _⟩
    · rw [Records.missionGeneration, hmission]
      exact hm
    · rw [Records.reservedGeneration, hreserved]
      exact hv
  | reserved generation =>
    exact ⟨⟨_, Records.top_eq_some.2 ⟨d, m, generation, hd, hm, rfl, rfl⟩⟩, .refl _⟩
  | mission mission =>
    exact ⟨⟨_, Records.top_eq_some.2 ⟨d, mission.generation, v, hd, rfl, hv, rfl⟩⟩, .refl _⟩
  | applied generation =>
    exact ⟨⟨_, Records.top_eq_some.2 ⟨d, m, v, hd, hm, hv, rfl⟩⟩, .refl _⟩

/-- The desired generation of the second world is no smaller. -/
def World.DesiredGrows (v w : World) : Prop :=
  Records.GrowsTo v.records.desiredGeneration w.records.desiredGeneration

/-- From readable sources, the desired generation does not fall in any run. -/
theorem desired_grows {v w : World} {acts : List Act} (hv : ∃ t, v.records.top = some t)
    (h : exec World.step v acts = some w) : v.DesiredGrows w := by
  have hstep : ∀ (s : World) (a : Act) (s' : World), (∃ t, s.records.top = some t) →
      s.step a = some s' → (∃ t, s'.records.top = some t) ∧ s.DesiredGrows s' := by
    rintro s a s' ⟨t, ht⟩ hs
    exact (recordsStep_of_step hs).desired ht
  exact exec_rel (R := World.DesiredGrows) (fun w => .refl w.records.desiredGeneration)
    (fun _ _ _ => .trans) hstep hv h

theorem readable_of_exec {v w : World} {acts : List Act} (hv : ∃ t, v.records.top = some t)
    (h : exec World.step v acts = some w) : ∃ t, w.records.top = some t := by
  have hstep : ∀ (s : World) (a : Act) (s' : World), (∃ t, s.records.top = some t) →
      s.step a = some s' → ∃ t, s'.records.top = some t := by
    rintro s a s' ⟨t, ht⟩ hs
    exact ((recordsStep_of_step hs).desired ht).1
  exact exec_invariant hstep hv h

/-! ## The numbers of `next_generation` -/

/-- The content of a record, as its reader finds it. -/
def Content.ofRead {α : Type} : Outcome (Option α) → Content α
  | .ok none => .absent
  | .ok (some a) => .holds a
  | .error _ => .malformed

/-- The content of the reservation, as `_reserved_generation` finds it. -/
def Content.ofReserved : Outcome ℤ → Content ℤ
  | .ok 0 => .absent
  | .ok generation => .holds generation
  | .error _ => .malformed

/-- The records behind the files, with the state `read_state` returns. -/
def recordsOf (py : Interpreter) (files : Files) (state : SupervisorState) : Records where
  applied := state.appliedGeneration
  desired := .ofRead (readDesiredStrict py files.desired)
  mission := .ofRead (readRollbackState py files.mission)
  reserved := .ofReserved (Supervise.reservedGeneration py files.reserved)

theorem generation_ofRead {α : Type} (f : α → ℤ) (x : Outcome (Option α)) :
    (Content.ofRead x).generation f = x.toOption.map fun a => (a.map f).getD 0 := by
  cases x with
  | error exc => rfl
  | ok a => cases a <;> rfl

theorem generation_ofReserved (x : Outcome ℤ) :
    (Content.ofReserved x).generation id = x.toOption := by
  cases x with
  | error exc => rfl
  | ok g =>
    by_cases hg : g = 0
    · rw [hg]
      rfl
    · rw [Content.ofReserved]
      · rfl
      · exact hg

theorem toOption_missionGeneration (py : Interpreter) (mission : FileBytes) :
    (Supervise.missionGeneration py mission).toOption =
      (readRollbackState py mission).toOption.map fun a => (a.map RollbackState.generation).getD 0 := by
  rw [Supervise.missionGeneration]
  cases readRollbackState py mission with
  | ok m => cases m <;> rfl
  | error exc =>
    cases exc with
    | raised cls msg => cases cls <;> rfl
    | keyError _ | typeError _ | valueError _ | jsonDecodeError | unicodeDecodeError
      | overflowError | recursionError | fileNotFoundError | osError _ => rfl

theorem toOption_bind {α β : Type} (x : Outcome α) (f : α → Outcome β) :
    (x >>= f).toOption = x.toOption.bind fun a => (f a).toOption := by
  cases x <;> rfl

/-- **`next_generation` returns the numbers of the model.** -/
theorem nextGeneration_of_files {py : Interpreter} {files : Files} {state : SupervisorState}
    (h : readStateFile py files.state = .ok state) :
    (Supervise.nextGeneration py files).toOption = (recordsOf py files state).nextGeneration := by
  rw [Supervise.nextGeneration, h, Records.nextGeneration, Records.top]
  simp only [Records.desiredGeneration, Records.missionGeneration, Records.reservedGeneration,
    recordsOf, generation_ofRead, generation_ofReserved, ← toOption_missionGeneration]
  show (readDesiredStrict py files.desired >>= _).toOption = _
  simp only [toOption_bind]
  cases (readDesiredStrict py files.desired).toOption with
  | none => rfl
  | some desired =>
    cases (Supervise.missionGeneration py files.mission).toOption with
    | none => rfl
    | some mission =>
      cases (Supervise.reservedGeneration py files.reserved).toOption with
      | none => rfl
      | some reserved => rfl

/-! ## Malformed sources -/

/-- A present file that its reader does not return a record for. -/
def Malformed {α : Type} (read : FileBytes → Outcome (Option α)) : FileBytes → Prop
  | .absent _ => False
  | file => ¬ ∃ a, read file = .ok (some a)

/-- A present `state.json` that is no state object. -/
def StateMalformed (py : Interpreter) : FileBytes → Prop
  | .absent _ => False
  | .unreadable _ => True
  | .bytes data => ¬ WellFormedState py data

/-- A present reservation that `_reserved_generation` refuses. -/
def ReservedMalformed (py : Interpreter) : FileBytes → Prop
  | .absent _ => False
  | file => ¬ ∃ g, Supervise.reservedGeneration py file = .ok g

theorem readDesiredStrict_bytes {py : Interpreter} {data : List UInt8}
    {d : Option SupervisorDesired} (h : readDesiredStrict py (.bytes data) = .ok d) :
    ∃ a, d = some a := by
  rcases JsonReader.run_bytes_eq_ok h with ⟨v, -, hv⟩ | hinvalid
  · cases v with
    | obj members =>
      obtain ⟨desired, -, hd⟩ := except_bind_eq_ok.1 hv
      split_ifs at hd
      exact ⟨desired, (Except.ok.inj hd).symm⟩
    | null | bool _ | int _ | float _ | str _ | arr _ => cases hv
  · cases hinvalid

theorem readRollbackState_bytes {py : Interpreter} {data : List UInt8} {m : Option RollbackState}
    (h : readRollbackState py (.bytes data) = .ok m) : ∃ a, m = some a := by
  rcases JsonReader.run_bytes_eq_ok h with ⟨v, -, hv⟩ | hinvalid
  · cases v with
    | obj members =>
      obtain ⟨state, -, hs⟩ := except_bind_eq_ok.1 hv
      cases hn : normalizeParsedState state with
      | ok t =>
        rw [hn] at hs
        exact ⟨t, (Except.ok.inj hs).symm⟩
      | error exc =>
        rw [hn] at hs
        cases hs
    | null | bool _ | int _ | float _ | str _ | arr _ => cases hv
  · cases hinvalid

/-- What `next_generation` has read when it returns. -/
theorem not_malformed_of_nextGeneration {py : Interpreter} {files : Files} {g : ℤ}
    (h : Supervise.nextGeneration py files = .ok g) :
    ¬ Malformed (readDesiredStrict py) files.desired ∧
      ¬ Malformed (readRollbackState py) files.mission ∧
        ¬ ReservedMalformed py files.reserved := by
  obtain ⟨state, -, h⟩ := except_bind_eq_ok.1 h
  obtain ⟨desired, hdesired, h⟩ := except_bind_eq_ok.1 h
  obtain ⟨mission, hmission, h⟩ := except_bind_eq_ok.1 h
  obtain ⟨reserved, hreserved, -⟩ := except_bind_eq_ok.1 h
  have hread : ∃ m, readRollbackState py files.mission = .ok m := by
    cases hr : readRollbackState py files.mission with
    | ok m => exact ⟨m, rfl⟩
    | error exc =>
      have hnone := toOption_missionGeneration py files.mission
      rw [hmission, hr] at hnone
      cases hnone
  refine ⟨?_, ?_, ?_⟩
  · cases hf : files.desired with
    | absent dangling => exact id
    | unreadable text =>
      rw [hf] at hdesired
      cases hdesired
    | bytes data =>
      rw [hf] at hdesired
      obtain ⟨a, rfl⟩ := readDesiredStrict_bytes hdesired
      exact fun hno => hno ⟨a, hdesired⟩
  · obtain ⟨m, hm⟩ := hread
    cases hf : files.mission with
    | absent dangling => exact id
    | unreadable text =>
      rw [hf] at hm
      cases hm
    | bytes data =>
      rw [hf] at hm
      obtain ⟨a, rfl⟩ := readRollbackState_bytes hm
      exact fun hno => hno ⟨a, hm⟩
  · cases hf : files.reserved with
    | absent dangling => exact id
    | unreadable text =>
      rw [hf] at hreserved
      cases hreserved
    | bytes data => exact fun hno => hno ⟨reserved, hf ▸ hreserved⟩

/-- Some source of a generation is present and malformed. -/
def SourceMalformed (py : Interpreter) (files : Files) : Prop :=
  StateMalformed py files.state ∨ Malformed (readDesiredStrict py) files.desired ∨
    Malformed (readRollbackState py) files.mission ∨ ReservedMalformed py files.reserved

/-! ## Where numbers collide -/

/-- No reservation is lost while a mission that was numbered with the token is prepared. -/
def Quiet (w : World) : Act → Prop
  | .loseReservation => ∀ draft ∈ w.preparing, draft.transport ≠ .direct
  | _ => True

/-- After the step, all intents on record have different generations. -/
def KeepsApart (w : World) (a : Act) : Prop :=
  ∀ w', w.step a = some w' → w'.issued.Pairwise fun i j => i.generation ≠ j.generation

/-- A number that is not reserved is above all sources, or already carried by an intent. -/
def World.Tight (w : World) : Prop :=
  ∀ draft ∈ w.preparing, draft.transport = .direct → ∀ t ∈ w.records.top,
    t < draft.mission.generation ∨ ∃ i ∈ w.issued, i.generation = draft.mission.generation

theorem World.Tight.of_none {w : World} (h : w.preparing = none) : w.Tight := by
  intro draft hd
  rw [h] at hd
  exact absurd hd (Option.not_mem_none _)

/-- A step that puts no intent on record, and does not raise the greatest generation. -/
theorem World.Tight.same {w : World} (h : w.Tight) {r : Records} {observed : Option ℤ}
    (hr : ∀ t' ∈ r.top, ∃ t ∈ w.records.top, t' ≤ t) :
    World.Tight { w with records := r, observed := observed } := by
  intro draft hd hdirect t' ht'
  obtain ⟨t, ht, hle⟩ := hr t' ht'
  rcases h draft hd hdirect t ht with hlt | hcarried
  · exact .inl (hle.trans_lt hlt)
  · exact .inr hcarried

theorem World.Tight.withRun {w : World} (hinv : w.Inv) (h : w.Tight)
    {p : Option SupervisorDesired × Records} (hp : Written w.records p) : (w.withRun p).Tight := by
  cases hp with
  | unchanged => exact h
  | @fresh desired t htop hgen =>
    obtain ⟨t₀, ht₀, -, -, hdraft⟩ := hinv.bounded
    obtain rfl : t = t₀ := Option.some.inj (htop.symm.trans ht₀)
    intro draft hd hdirect _ _
    right
    rcases h draft hd hdirect t htop with hlt | ⟨i, hi, hgen⟩
    · have hle := hdraft draft hd
      refine ⟨.run desired, List.mem_cons_self .., ?_⟩
      show desired.generation = _
      omega
    · exact ⟨i, List.mem_cons_of_mem _ hi, hgen⟩

theorem top_congr {r r' : Records} (ha : r'.applied = r.applied)
    (hd : r'.desiredGeneration = r.desiredGeneration)
    (hm : r'.missionGeneration = r.missionGeneration)
    (hv : r'.reservedGeneration = r.reservedGeneration) : r'.top = r.top := by
  rw [Records.top, Records.top, ha, hd, hm, hv]

theorem World.Tight.step {w w' : World} {a : Act} (hinv : w.Inv) (h : w.Tight) (hq : Quiet w a)
    (hs : w.step a = some w') : w'.Tight := by
  have hsame : ∀ r : Records, r.top = w.records.top → ∀ t' ∈ r.top, ∃ t ∈ w.records.top, t' ≤ t :=
    fun r hr t' ht' => ⟨t', hr ▸ ht', le_rfl⟩
  cases a with
  | requestRun now request =>
    obtain ⟨p, hp, rfl⟩ := Option.map_eq_some_iff.1 hs
    exact h.withRun hinv (written_of_writeRunIntentLocked hp)
  | ensureRunIntent now request | promotePendingRequest now request =>
    obtain ⟨p, hp, rfl⟩ := Option.map_eq_some_iff.1 hs
    exact h.withRun hinv (written_of_ensureRunIntent hp)
  | clearMigrationFlag generation =>
    obtain rfl := Option.some.inj hs
    obtain ⟨ha, hd, hm, hv⟩ := clearMigrationFlag_sources w.records generation
    refine h.same (hsame _ (top_congr ha hd ?_ ?_))
    · rw [Records.missionGeneration, hm]
      rfl
    · rw [Records.reservedGeneration, hv]
      rfl
  | prepareMission transport mission =>
    rw [World.step] at hs
    cases hp : w.preparing with
    | some draft =>
      rw [hp] at hs
      cases hs
    | none =>
      rw [hp] at hs
      obtain ⟨g, hg, rfl⟩ := Option.map_eq_some_iff.1 hs
      intro draft hd hdirect t ht
      cases hd
      obtain rfl : transport = .direct := hdirect
      have htop := Records.nextGeneration_eq_some.1 hg
      left
      rw [Option.mem_unique ht htop]
      exact sub_one_lt g
  | loseReservation =>
    obtain ⟨g, -, rfl⟩ := Option.map_eq_some_iff.1 hs
    intro draft hd hdirect
    exact absurd hdirect (hq draft hd)
  | publishMission =>
    obtain ⟨draft, -, rfl⟩ := Option.map_eq_some_iff.1 hs
    exact .of_none rfl
  | abandonMission =>
    obtain rfl := Option.some.inj hs
    exact .of_none rfl
  | rewriteMission mission =>
    rw [World.step] at hs
    cases hc : w.records.mission with
    | absent | malformed =>
      rw [hc] at hs
      cases hs
    | holds current =>
      simp only [hc] at hs
      split_ifs at hs with hg
      obtain rfl := Option.some.inj hs
      refine h.same (hsame _ (top_congr rfl rfl ?_ rfl))
      rw [Records.missionGeneration, Records.missionGeneration, hc]
      exact congrArg some hg
  | observeDesired | observeMission =>
    obtain rfl := Option.some.inj hs
    exact h.same (hsame _ rfl)
  | recordApplied =>
    obtain ⟨g, hg, hif⟩ := Option.bind_eq_some_iff.1 hs
    split_ifs at hif
    obtain rfl := Option.some.inj hif
    obtain ⟨t, ht, -, hobs, -⟩ := hinv.bounded
    obtain ⟨d, m, v, hd, hm, hv, -, hdt, hmt, hvt⟩ := Records.bounds_of_top ht
    refine h.same fun t' ht' => ⟨t, ht, ?_⟩
    obtain ⟨d', m', v', hd', hm', hv', rfl⟩ := Records.top_eq_some.1 ht'
    have hgt := hobs g hg
    rw [Option.mem_unique hd' hd, Option.mem_unique hm' hm, Option.mem_unique hv' hv]
    exact max_le (max_le (max_le hgt hdt) hmt) hvt

/-- A publication that was overtaken puts a second intent with its number on record. -/
theorem keepsApart_iff {w : World} {a : Act} (hinv : w.Inv) (h : w.Tight) :
    KeepsApart w a ↔ Unraced w a := by
  constructor
  · intro hk
    cases a with
    | publishMission =>
      intro draft hd hdirect desired hdesired
      by_contra hlt
      obtain ⟨t, ht, -⟩ := hinv.bounded
      obtain ⟨d, _, _, hd', -, -, -, hdt, -⟩ := Records.bounds_of_top ht
      have hge : draft.mission.generation ≤ t := by
        rw [Option.mem_unique hdesired hd'] at hlt
        omega
      rcases h draft hd hdirect t ht with hlt' | ⟨i, hi, hgen⟩
      · omega
      · have hpublish : w.step .publishMission = some
            { w with
              records := { w.records with mission := .holds draft.mission }
              preparing := none
              issued := .mission draft.mission :: w.issued } := by
          rw [World.step, show w.preparing = some draft from hd]
          rfl
        exact (List.pairwise_cons.1 (hk _ hpublish)).1 i hi hgen.symm
    | requestRun _ _ | ensureRunIntent _ _ | promotePendingRequest _ _ | clearMigrationFlag _
      | prepareMission _ _ | loseReservation | abandonMission | rewriteMission _ | observeDesired
      | observeMission | recordApplied => trivial
  · intro hu w' hs
    exact (hinv.step hu hs).distinct

/-- Where no reservation is lost in the meantime, generations stay apart exactly in the runs in
which no publication is overtaken. -/
theorem keepsApart_run_iff {acts : List Act} (hq : Always World.step Quiet .fresh acts) :
    Always World.step KeepsApart .fresh acts ↔ Always World.step Unraced .fresh acts := by
  have hiff : ∀ (w : World) (a : Act), w.Inv ∧ w.Tight →
      (Quiet w a ∧ KeepsApart w a ↔ Quiet w a ∧ Unraced w a) := fun w a hw =>
    and_congr_right fun _ => keepsApart_iff hw.1 hw.2
  have hstep : ∀ (w : World) (a : Act) (w' : World), w.Inv ∧ w.Tight →
      Quiet w a ∧ KeepsApart w a → w.step a = some w' → w'.Inv ∧ w'.Tight := by
    intro w a w' hw hc hs
    exact ⟨hw.1.step ((keepsApart_iff hw.1 hw.2).1 hc.2) hs, hw.2.step hw.1 hc.1 hs⟩
  have hboth : Always World.step _ .fresh acts ↔ Always World.step _ .fresh acts :=
    always_iff_of_inv hiff hstep ⟨World.fresh_inv, .of_none rfl⟩
  have hand : ∀ C : World → Act → Prop, Always World.step C .fresh acts ↔
      Always World.step (fun w a => Quiet w a ∧ C w a) .fresh acts := fun C =>
    always_congr fun pre a hpre m hm => (and_iff_right (hq pre a hpre m hm)).symm
  rw [hand KeepsApart, hand Unraced]
  exact hboth

/-! ## The claim and its failure -/

/-- **Intent generations.** In every run in which no run intent is written between the allocation of
a mission generation with the token and its publication, all intents put on record have different
generations, and the records on file are among them; unless a reservation was lost in between, in no
other run. In every run the desired generation does not fall. And when `next_generation` returns a
value, a malformed source can only be the state file. -/
theorem generations_unique (acts : List Act) :
    (∀ w, Always World.step Unraced .fresh acts → exec World.step .fresh acts = some w →
      w.issued.Pairwise (fun i j => i.generation ≠ j.generation) ∧ w.Recorded) ∧
    (Always World.step Quiet .fresh acts →
      (Always World.step KeepsApart .fresh acts ↔ Always World.step Unraced .fresh acts)) ∧
    (∀ acts' v w, exec World.step .fresh acts = some v → exec World.step v acts' = some w →
      v.DesiredGrows w) ∧
    ∀ py files g, Supervise.nextGeneration py files = .ok g →
      (¬ SourceMalformed py files ↔ ¬ StateMalformed py files.state) := by
  have hfresh : World.fresh.Recorded := by
    constructor
    · intro d hd
      cases hd
    · intro m hm
      cases hm
  refine ⟨fun w hu h => ⟨?_, ?_⟩, keepsApart_run_iff, fun acts' v w hv hw => ?_,
    fun py files g h => ?_⟩
  · exact (exec_invariant_of_always (fun _ _ _ => World.Inv.step) World.fresh_inv hu h).distinct
  · exact exec_invariant (fun _ _ _ => World.Recorded.step) hfresh h
  · exact desired_grows (readable_of_exec ⟨0, rfl⟩ hv) hw
  · obtain ⟨hdesired, hmission, hreserved⟩ := not_malformed_of_nextGeneration h
    rw [SourceMalformed, or_iff_left]
    rintro (hd | hm | hv)
    · exact hdesired hd
    · exact hmission hm
    · exact hreserved hv

/-- A worker record without an identity. -/
def stoppedMeta : WorkerMeta where
  schemaVersion := META_SCHEMA_VERSION
  state := .stopped
  pid := none
  pgid := none
  sid := none
  startTimeTicks := none
  token := none
  repo := []
  gitCommit := none
  workerId := none
  logPath := []
  startedAt := none
  stoppedAt := none

/-- A supervisor-owned mission from commit `b…` to commit `a…`. -/
def supervisedMission : RollbackState where
  schemaVersion := ROLLBACK_SCHEMA_VERSION
  generation := 1
  status := .pending
  commit := List.replicate 40 0x61
  previousCommit := List.replicate 40 0x62
  deadline := .finite 120
  repo := []
  uvPath := []
  stopGraceSeconds := .finite 5
  gitTimeoutSeconds := .finite 10
  previousRetiring := false
  previousMeta := stoppedMeta
  newMeta := none
  supervisorOwned := some true

/-- A restart of the previous commit. -/
def restartPrevious : RunRequest where
  commit := List.replicate 40 0x62
  repo := []
  uvPath := []
  workerId := none
  restart := true

/-- The steps of a mission numbered over a transport, with a restart before its publication. -/
def overtakenRun (transport : Transport) : List Act :=
  [.prepareMission transport supervisedMission, .requestRun 0 restartPrevious, .publishMission]

/-- With the reservation of the daemon the restart gets a number of its own. -/
theorem generations_unique_reserved : ∃ w,
    exec World.step .fresh (overtakenRun .socket) = some w ∧
      w.issued.map Intent.generation = [1, 2] ∧
        w.issued.Pairwise fun i j => i.generation ≠ j.generation := by
  have hu : Always World.step Unraced .fresh (overtakenRun .socket) := by
    refine always_cons.2 ⟨trivial, fun s hs => always_cons.2 ⟨trivial, fun s' hs' =>
      always_cons.2 ⟨fun draft hd hdirect => ?_, fun _ _ => always_nil _⟩⟩⟩
    cases hs
    cases hs'
    cases hd
    cases hdirect
  exact ⟨_, rfl, rfl, ((generations_unique _).1 _ hu rfl).1⟩

/-- The files of an unused daemon whose `state.json` is an opening brace. -/
def brokenStateFiles : Files := { unusedFiles [] with state := .bytes [0x7b] }

/-- A mission numbered with the token and the restart that overtakes it carry one generation; and
`next_generation` returns a value over a `state.json` that is not JSON. -/
theorem overtaken_mission_shares_generation :
    (∃ w, exec World.step .fresh (overtakenRun .direct) = some w ∧
      ∃ d m, Intent.run d ∈ w.issued ∧ Intent.mission m ∈ w.issued ∧ d.commit ≠ m.commit ∧
        d.generation = m.generation) ∧
    Supervise.nextGeneration plainInterpreter brokenStateFiles = .ok 1 ∧
      SourceMalformed plainInterpreter brokenStateFiles := by
  refine ⟨⟨_, rfl, _, _, List.mem_cons_of_mem _ (List.mem_cons_self ..), List.mem_cons_self ..,
    by decide, rfl⟩, rfl, .inl ?_⟩
  rintro ⟨t, members, ht, hj, -⟩
  rw [show utf8 [0x7b] = some ['\x7b'] from rfl, Option.some.injEq] at ht
  rw [← ht] at hj
  cases hj

end Lubko.Deploy
