import Lubko.Lib.Execution
import Lubko.Lib.ReadCommitted

/-!
# Proof outlines for concurrent transactions

Rules of rely and guarantee for the sessions of `ReadCommitted`. An assertion of a session is
`Stable` when no move of another session can break it. An `Outline` proves a program point by point,
one constructor for each command, and a `ScanRule` carries the invariant of a statement's visits.

* `ScanRule.locking`, `ScanRule.nothing`, `ScanRule.constant` — rules for kinds of statements.
* `system_sound` — if every program has an outline, the shared invariant holds in every state of every
  run, and every change of the committed table is a commit with the guarantee of its program.
-/

namespace Lubko.Lib

/-! ## Assertions and rules -/

section Outline

variable {τ ρ κ α : Type} [DecidableEq τ] [DecidableEq κ] (J : Db τ κ α → Prop)

/-- No move of another session breaks the assertion. -/
def Stable (t : τ) (A : Db τ κ α → Prop) : Prop :=
  ∀ u db db', u ≠ t → J db → J db' → db.Move u db' → A db → A db'

/-- What every session may do at any time keeps the invariant. -/
structure Robust : Prop where
  release : ∀ {db : Db τ κ α} (t : τ), J db → J (db.release t)
  hold : ∀ {db : Db τ κ α} {t : τ} {k : κ}, J db → db.available t k = true → J (db.lock t k none)

/-- The invariant `L` of a statement's visits, from its precondition `A` to its postcondition `B`. -/
structure ScanRule (t : τ) (s : Statement κ α) (A : Db τ κ α → Prop)
    (L : Table κ α → List κ → List κ → Db τ κ α → Prop) (B : List κ → Db τ κ α → Prop) : Prop where
  stable : ∀ snapshot todo found, Stable J t (L snapshot todo found)
  start : ∀ {db}, J db → A db → L (db.view t) (s.candidates (db.view t)) [] db
  gone : ∀ {snapshot todo found db k}, J db → L snapshot todo found db →
    (db.view t).get k = none → L snapshot (todo.filter (· ≠ k)) found db
  hit : ∀ {snapshot todo found db k a}, J db → L snapshot todo found db → k ∈ todo →
    db.available t k = true → (db.view t).get k = some a → s.condition snapshot k a = true →
    J (db.lock t k (s.write a)) ∧
      L snapshot (todo.filter (· ≠ k)) (found ++ [k]) (db.lock t k (s.write a))
  miss : ∀ {snapshot todo found db k a}, J db → L snapshot todo found db → k ∈ todo →
    db.available t k = true → (db.view t).get k = some a → s.condition snapshot k a = false →
    L snapshot (todo.filter (· ≠ k)) found (db.lock t k none)
  skip : ∀ {snapshot todo found db k}, s.skipLocked = true → L snapshot todo found db →
    L snapshot (todo.filter (· ≠ k)) found db
  finish : ∀ {snapshot todo found db}, J db → L snapshot todo found db →
    todo = [] ∨ s.full found = true → B found db

/-- A program proved from an assertion on, with the guarantee of its commits. -/
inductive Outline (G : Table κ α → Table κ α → Prop) (t : τ) :
    (Db τ κ α → Prop) → Program κ α → Prop
  | commit {A : Db τ κ α → Prop} (stable : Stable J t A)
      (ok : ∀ db, J db → A db → J (db.commit t) ∧ G db.committed (db.view t)) :
      Outline G t A .commit
  | rollback {A : Db τ κ α → Prop} (stable : Stable J t A) : Outline G t A .rollback
  | read {A : Db τ κ α → Prop} {next : Table κ α → Program κ α} (stable : Stable J t A)
      (rest : ∀ snapshot, Outline G t A (next snapshot)) : Outline G t A (.read next)
  | insert {A B : Db τ κ α → Prop} {k : κ} {a : α} {next : Program κ α} (stable : Stable J t A)
      (ok : ∀ db, J db → A db → db.available t k = true → (db.view t).get k = none →
        J (db.lock t k (some (some a))) ∧ B (db.lock t k (some (some a))))
      (rest : Outline G t B next) : Outline G t A (.insert k a next)
  | run {A : Db τ κ α → Prop} {s : Statement κ α} {next : List κ → Program κ α}
      {L : Table κ α → List κ → List κ → Db τ κ α → Prop} {B : List κ → Db τ κ α → Prop}
      (stable : Stable J t A) (rule : ScanRule J t s A L B)
      (rest : ∀ found, Outline G t (B found) (next found)) : Outline G t A (.run s next)

variable {J}

theorem Outline.stable {G : Table κ α → Table κ α → Prop} {t : τ} {A : Db τ κ α → Prop}
    {p : Program κ α} (h : Outline J G t A p) : Stable J t A := by
  cases h <;> assumption

/-- A program is proved from every stronger assertion. -/
theorem Outline.weaken {G : Table κ α → Table κ α → Prop} {t : τ} {A A' : Db τ κ α → Prop}
    {p : Program κ α} (h : Outline J G t A p) (hstable : Stable J t A')
    (hA : ∀ db, A' db → A db) : Outline J G t A' p := by
  induction h with
  | commit _ ok => exact .commit hstable fun db hJ h => ok db hJ (hA db h)
  | rollback => exact .rollback hstable
  | read _ _ ih => exact .read hstable fun snapshot => ih snapshot hA
  | insert _ ok rest => exact .insert hstable (fun db hJ h => ok db hJ (hA db h)) rest
  | run _ rule rest =>
    exact .run hstable ⟨rule.stable, fun hJ h => rule.start hJ (hA _ h), rule.gone, rule.hit,
      rule.miss, rule.skip, rule.finish⟩ rest

theorem Stable.and {t : τ} {A B : Db τ κ α → Prop} (hA : Stable J t A) (hB : Stable J t B) :
    Stable J t fun db => A db ∧ B db :=
  fun u db db' hne hJ hJ' hm h =>
    ⟨hA u db db' hne hJ hJ' hm h.1, hB u db db' hne hJ hJ' hm h.2⟩

/-- From a false assertion every program is proved. -/
theorem Outline.of_false (G : Table κ α → Table κ α → Prop) (t : τ) (p : Program κ α) :
    Outline J G t (fun _ => False) p := by
  have hstable : Stable J t fun _ : Db τ κ α => False := fun _ _ _ _ _ _ _ h => h
  induction p with
  | commit => exact .commit hstable fun _ _ h => h.elim
  | rollback => exact .rollback hstable
  | read next ih => exact .read hstable ih
  | insert k a next ih => exact .insert hstable (fun _ _ h => h.elim) ih
  | run s next ih =>
    refine .run (L := fun _ _ _ _ => False) hstable ⟨fun _ _ _ => hstable, ?_, ?_, ?_, ?_, ?_, ?_⟩ ih
    · exact fun _ h => h.elim
    · exact fun _ h => h.elim
    · exact fun _ h => h.elim
    · exact fun _ h => h.elim
    · exact fun _ h => h
    · exact fun _ h => h.elim

/-- An assertion on what the session itself holds is stable. -/
theorem stable_of_holding {t : τ} {P : (κ → Option (Holding α)) → Prop} :
    Stable J t fun db : Db τ κ α => P (db.holding t) := by
  intro u db db' hne _ _ hm h
  have heq : db'.holding t = db.holding t := funext fun k => hm.holding_eq hne.symm k
  show P (db'.holding t)
  rw [heq]
  exact h

/-! ### Rules for kinds of statements -/

section Rules

variable {t : τ} {s : Statement κ α}

/-- The session has written nothing and holds the given rows, each with a property. -/
def Locked (Q : κ → α → Prop) (found : List κ) (own : κ → Option (Holding α)) : Prop :=
  (∀ k h, own k = some h → h.version = none) ∧
    ∀ k ∈ found, ∃ a, own k = some ⟨none, some a⟩ ∧ Q k a

/-- A statement that only locks: what it found is held as it was found. -/
theorem ScanRule.locking {Q : κ → α → Prop} (hrobust : Robust J) (hwrite : ∀ a, s.write a = none)
    (hQ : ∀ snapshot k a, s.condition snapshot k a = true → Q k a) :
    ScanRule J t s (fun db => db.Unwritten t) (fun _ _ found db => Locked Q found (db.holding t))
      (fun found db => Locked Q found (db.holding t)) := by
  have hkeep : ∀ {db : Db τ κ α} {k k' : κ} {a : α}, db.holding t k' = some ⟨none, some a⟩ →
      (db.lock t k none).holding t k' = some ⟨none, some a⟩ := by
    intro db k k' a hk'
    obtain ⟨v, hv, rfl | ⟨-, hnone, -⟩⟩ := Db.holding_lock_of_holding none hk'
    · exact hv
    · exact absurd rfl hnone
  refine ⟨fun _ _ found => stable_of_holding, ?_, ?_, ?_, ?_, ?_, ?_⟩
  · exact fun _ h => ⟨h, fun _ hk => absurd hk List.not_mem_nil⟩
  · exact fun _ h _ => h
  · intro snapshot todo found db k a hJ h _ havail hrow hcond
    have hunwritten : db.Unwritten t := h.1
    rw [hwrite]
    refine ⟨hrobust.hold hJ havail, hunwritten.lock k, fun k' hk' => ?_⟩
    rcases List.mem_append.1 hk' with hold | hnew
    · obtain ⟨a', ha', hq⟩ := h.2 k' hold
      exact ⟨a', hkeep ha', hq⟩
    · obtain rfl := List.mem_singleton.1 hnew
      refine ⟨a, ?_, hQ snapshot k' a hcond⟩
      rw [hunwritten.get_view] at hrow
      rw [Db.holding_lock, Function.update_self, hrow]
      cases hheld : db.holding t k' with
      | none => rfl
      | some held =>
        rw [Option.bind_some, hunwritten k' held hheld]
        rfl
  · intro snapshot todo found db k a _ h _ _ _ _
    have hunwritten : db.Unwritten t := h.1
    refine ⟨hunwritten.lock k, fun k' hk' => ?_⟩
    obtain ⟨a', ha', hq⟩ := h.2 k' hk'
    exact ⟨a', hkeep ha', hq⟩
  · exact fun _ h => h
  · exact fun _ h _ => h

/-- A statement that finds nothing in its snapshot. -/
theorem ScanRule.nothing {A : Db τ κ α → Prop} (hstable : Stable J t A)
    (hempty : ∀ db, J db → A db → s.candidates (db.view t) = []) :
    ScanRule J t s A (fun _ todo found db => todo = [] ∧ found = [] ∧ A db)
      (fun found db => found = [] ∧ A db) := by
  refine ⟨fun _ todo found => ?_, fun hJ hA => ⟨hempty _ hJ hA, rfl, hA⟩, ?_, ?_, ?_, ?_, ?_⟩
  · intro u db db' hne hJ hJ' hm h
    exact ⟨h.1, h.2.1, hstable u db db' hne hJ hJ' hm h.2.2⟩
  · rintro snapshot todo found db k _ ⟨rfl, hfound, hA⟩ _
    exact ⟨rfl, hfound, hA⟩
  · rintro snapshot todo found db k a _ ⟨rfl, -, -⟩ hk
    cases hk
  · rintro snapshot todo found db k a _ ⟨rfl, -, -⟩ hk
    cases hk
  · rintro snapshot todo found db k _ ⟨rfl, hfound, hA⟩
    exact ⟨rfl, hfound, hA⟩
  · exact fun _ h _ => h.2

/-- A statement whose every visit keeps an assertion. -/
theorem ScanRule.constant {A : Db τ κ α → Prop} (hstable : Stable J t A)
    (hhit : ∀ snapshot db k a, J db → A db → db.available t k = true →
      (db.view t).get k = some a → s.condition snapshot k a = true →
      J (db.lock t k (s.write a)) ∧ A (db.lock t k (s.write a)))
    (hmiss : ∀ db k, A db → A (db.lock t k none)) :
    ScanRule J t s A (fun _ _ _ => A) (fun _ => A) := by
  refine ⟨fun _ _ _ => hstable, fun _ h => h, fun _ h _ => h, ?_, ?_, fun _ h => h, fun _ h _ => h⟩
  · exact fun hJ hA _ havail hrow hcond => hhit _ _ _ _ hJ hA havail hrow hcond
  · exact fun _ hA _ _ _ _ => hmiss _ _ hA

end Rules

/-! ## Soundness -/

/-- A session stands at a point some outline has proved. -/
def SessionOk (J : Db τ κ α → Prop) (G : ρ → Table κ α → Table κ α → Prop) (db : Db τ κ α) (t : τ) :
    Session ρ κ α → Prop
  | .idle => db.Unheld t
  | .ready r p => ∃ A, Outline J (G r) t A p ∧ A db
  | .scan r s snapshot todo found next =>
    ∃ A L B, ScanRule J t s A L B ∧ (∀ found, Outline J (G r) t (B found) (next found)) ∧
      L snapshot todo found db

variable {G : ρ → Table κ α → Table κ α → Prop} {db db' : Db τ κ α} {t u : τ}

theorem SessionOk.stable {session : Session ρ κ α} (hne : u ≠ t) (hJ : J db) (hJ' : J db')
    (hm : db.Move u db') (h : SessionOk J G db t session) : SessionOk J G db' t session := by
  cases session with
  | idle => exact fun k => (hm.holding_eq hne.symm k).trans (h k)
  | ready r p =>
    obtain ⟨A, houtline, hA⟩ := h
    exact ⟨A, houtline, houtline.stable u db db' hne hJ hJ' hm hA⟩
  | scan r s snapshot todo found next =>
    obtain ⟨A, L, B, hrule, hrest, hL⟩ := h
    exact ⟨A, L, B, hrule, hrest, hrule.stable _ _ _ u db db' hne hJ hJ' hm hL⟩

/-- What a step of a session establishes. -/
structure StepOk (J : Db τ κ α → Prop) (G : ρ → Table κ α → Table κ α → Prop) (db : Db τ κ α)
    (t : τ) (session : Session ρ κ α) (db' : Db τ κ α) (session' : Session ρ κ α) : Prop where
  invariant : J db'
  move : db' = db ∨ db.Move t db'
  next : SessionOk J G db' t session'
  guarantee : db'.committed = db.committed ∨
    ∃ r, session.request? = some r ∧ G r db.committed db'.committed

theorem stepOk_release {session : Session ρ κ α} (hrobust : Robust J) (hJ : J db) :
    StepOk J G db t session (db.release t) .idle :=
  ⟨hrobust.release t hJ, Or.inr .release, fun _ => Db.holding_release, Or.inl rfl⟩

theorem advance_ok {r : ρ} {p : Program κ α} {A : Db τ κ α → Prop} {session' : Session ρ κ α}
    (hrobust : Robust J) (hJ : J db) (houtline : Outline J (G r) t A p) (hA : A db)
    (h : advance db t r p = some (db', session')) :
    StepOk J G db t (.ready r p) db' session' := by
  cases houtline with
  | commit _ ok =>
    obtain ⟨rfl, rfl⟩ := Prod.mk.inj (Option.some.inj h)
    obtain ⟨hJ', hG⟩ := ok db hJ hA
    exact ⟨hJ', Or.inr .commit, fun _ => Db.holding_commit, Or.inr ⟨r, rfl, hG⟩⟩
  | rollback =>
    obtain ⟨rfl, rfl⟩ := Prod.mk.inj (Option.some.inj h)
    exact stepOk_release hrobust hJ
  | read _ rest =>
    obtain ⟨rfl, rfl⟩ := Prod.mk.inj (Option.some.inj h)
    exact ⟨hJ, Or.inl rfl, ⟨A, rest _, hA⟩, Or.inl rfl⟩
  | @insert _ B k a next _ ok rest =>
    rw [advance] at h
    split_ifs at h with havail hfree
    · obtain ⟨rfl, rfl⟩ := Prod.mk.inj (Option.some.inj h)
      obtain ⟨hJ', hB⟩ := ok db hJ hA havail (Option.isNone_iff_eq_none.1 hfree)
      exact ⟨hJ', Or.inr (.lock k _ havail), ⟨B, rest, hB⟩, Or.inl rfl⟩
    · obtain ⟨rfl, rfl⟩ := Prod.mk.inj (Option.some.inj h)
      exact stepOk_release hrobust hJ
  | @run _ s next L B _ rule rest =>
    obtain ⟨rfl, rfl⟩ := Prod.mk.inj (Option.some.inj h)
    exact ⟨hJ, Or.inl rfl, ⟨A, L, B, rule, rest, rule.start hJ hA⟩, Or.inl rfl⟩

theorem visit_ok {r : ρ} {s : Statement κ α} {snapshot : Table κ α} {todo found : List κ} {k : κ}
    {next : List κ → Program κ α} {session : Session ρ κ α} {hit : Bool} (hrobust : Robust J)
    (hJ : J db) (hsession : SessionOk J G db t (.scan r s snapshot todo found next)) (hk : k ∈ todo)
    (havail : db.available t k = true) (h : visit db t s snapshot k = (db', hit)) :
    StepOk J G db t session db'
      (.scan r s snapshot (todo.filter (· ≠ k)) (if hit then found ++ [k] else found) next) := by
  obtain ⟨A, L, B, hrule, hrest, hL⟩ := hsession
  rw [visit] at h
  cases hrow : (db.view t).get k with
  | none =>
    rw [hrow] at h
    obtain ⟨rfl, rfl⟩ := Prod.mk.inj h
    exact ⟨hJ, Or.inl rfl, ⟨A, L, B, hrule, hrest, hrule.gone hJ hL hrow⟩, Or.inl rfl⟩
  | some a =>
    rw [hrow] at h
    dsimp only at h
    split_ifs at h with hcond
    · obtain ⟨rfl, rfl⟩ := Prod.mk.inj h
      obtain ⟨hJ', hL'⟩ := hrule.hit hJ hL hk havail hrow hcond
      exact ⟨hJ', Or.inr (.lock k _ havail), ⟨A, L, B, hrule, hrest, hL'⟩, Or.inl rfl⟩
    · obtain ⟨rfl, rfl⟩ := Prod.mk.inj h
      have hL' := hrule.miss hJ hL hk havail hrow (Bool.eq_false_iff.2 hcond)
      exact ⟨hrobust.hold hJ havail, Or.inr (.lock k none havail),
        ⟨A, L, B, hrule, hrest, hL'⟩, Or.inl rfl⟩

/-- One step of a session that stands at a proved point. -/
theorem sessionStep_ok {program : ρ → Program κ α} {session session' : Session ρ κ α}
    {action : Action ρ κ} (hrobust : Robust J)
    (hprogram : ∀ r, Outline J (G r) t (fun db => db.Unheld t) (program r)) (hJ : J db)
    (hsession : SessionOk J G db t session)
    (h : sessionStep program db t session action = some (db', session')) :
    StepOk J G db t session db' session' := by
  cases session with
  | idle =>
    cases action <;> try cases h
    exact ⟨hJ, Or.inl rfl, ⟨_, hprogram _, hsession⟩, Or.inl rfl⟩
  | ready r p =>
    cases action <;> try cases h
    · obtain ⟨A, houtline, hA⟩ := hsession
      exact advance_ok hrobust hJ houtline hA h
    · exact stepOk_release hrobust hJ
  | scan r s snapshot todo found next =>
    cases action with
    | begin r' => cases h
    | advance => cases h
    | visit k =>
      rw [sessionStep] at h
      split_ifs at h with hok
      simp only [Bool.and_eq_true, decide_eq_true_eq] at hok
      obtain ⟨rfl, rfl⟩ := Prod.mk.inj (Option.some.inj h)
      exact visit_ok hrobust hJ hsession hok.1.1 hok.1.2 rfl
    | skip k =>
      rw [sessionStep] at h
      split_ifs at h with hok
      rw [Bool.and_eq_true] at hok
      obtain ⟨rfl, rfl⟩ := Prod.mk.inj (Option.some.inj h)
      obtain ⟨A, L, B, hrule, hrest, hL⟩ := hsession
      exact ⟨hJ, Or.inl rfl, ⟨A, L, B, hrule, hrest, hrule.skip hok.1 hL⟩, Or.inl rfl⟩
    | finish =>
      rw [sessionStep] at h
      split_ifs at h with hok
      rw [Bool.or_eq_true, List.isEmpty_iff] at hok
      obtain ⟨rfl, rfl⟩ := Prod.mk.inj (Option.some.inj h)
      obtain ⟨A, L, B, hrule, hrest, hL⟩ := hsession
      exact ⟨hJ, Or.inl rfl, ⟨B found, hrest found, hrule.finish hJ hL hok⟩, Or.inl rfl⟩
    | abort =>
      obtain ⟨rfl, rfl⟩ := Prod.mk.inj (Option.some.inj h)
      exact stepOk_release hrobust hJ

/-- The invariant of the system. -/
structure SystemOk (J : Db τ κ α → Prop) (G : ρ → Table κ α → Table κ α → Prop)
    (sys : System τ ρ κ α) : Prop where
  invariant : J sys.db
  sessions : ∀ t, SessionOk J G sys.db t (sys.sessions t)

/-- What a step does to the committed table, with the request of the session that made it. -/
def Guaranteed (G : ρ → Table κ α → Table κ α → Prop) (sys : System τ ρ κ α) (t : τ)
    (sys' : System τ ρ κ α) : Prop :=
  sys'.db.committed = sys.db.committed ∨
    ∃ r, (sys.sessions t).request? = some r ∧ G r sys.db.committed sys'.db.committed

theorem systemStep_ok {program : ρ → Program κ α} {sys sys' : System τ ρ κ α}
    {label : τ × Action ρ κ} (hrobust : Robust J)
    (hprogram : ∀ t r, Outline J (G r) t (fun db => db.Unheld t) (program r))
    (hsys : SystemOk J G sys) (h : systemStep program sys label = some sys') :
    SystemOk J G sys' ∧ Guaranteed G sys label.1 sys' := by
  obtain ⟨⟨db', session'⟩, hstep, rfl⟩ := Option.map_eq_some_iff.1 h
  have hok := sessionStep_ok hrobust (hprogram label.1) hsys.invariant (hsys.sessions label.1) hstep
  refine ⟨⟨hok.invariant, fun t => ?_⟩, hok.guarantee⟩
  show SessionOk J G db' t (Function.update sys.sessions label.1 session' t)
  by_cases ht : t = label.1
  · subst ht
    rw [Function.update_self]
    exact hok.next
  · rw [Function.update_of_ne ht]
    rcases hok.move with heq | hm
    · rw [heq]
      exact hsys.sessions t
    · exact (hsys.sessions t).stable (Ne.symm ht) hsys.invariant hok.invariant hm

/-- **Soundness**: with an outline for every program, the invariant holds in every state of every run
from a table where it holds, and every step keeps the committed table or commits with the guarantee
of its request. -/
theorem system_sound {program : ρ → Program κ α} {start : Table κ α} (hrobust : Robust J)
    (hprogram : ∀ t r, Outline J (G r) t (fun db => db.Unheld t) (program r))
    (hstart : J (System.start (ρ := ρ) start).db) {labels : List (τ × Action ρ κ)}
    {sys : System τ ρ κ α} (h : exec (systemStep program) (System.start start) labels = some sys) :
    J sys.db ∧ ∀ label sys', systemStep program sys label = some sys' →
      Guaranteed G sys label.1 sys' := by
  have hinit : SystemOk J G (System.start start) := ⟨hstart, fun _ _ => rfl⟩
  have hsys : SystemOk J G sys :=
    exec_invariant (fun _ _ _ hs hstep => (systemStep_ok hrobust hprogram hs hstep).1) hinit h
  exact ⟨hsys.invariant, fun _ _ hstep => (systemStep_ok hrobust hprogram hsys hstep).2⟩

end Outline

end Lubko.Lib
