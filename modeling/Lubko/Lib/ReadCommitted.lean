import Lubko.Lib.Table
import Mathlib.Logic.Function.Basic

/-!
# READ COMMITTED transactions with row locks

Sessions run transactions against one table. A lock on a row carries its owner's uncommitted version
of the row; a row has one lock. A statement reads a snapshot taken when it starts: the committed rows
overlaid with the session's own versions. It then visits the rows that met its condition in the
snapshot, one at a time and in any order. A visit waits for the lock, or skips a row that another
session has locked; once it has the lock it evaluates the condition again on the row as it is now,
while subqueries keep reading the snapshot. A commit installs the session's versions and drops its
locks; a session may abort at any point. The steps of all sessions interleave freely.

* `Db.holding` — what a session has of a row it locked.
* `Db.Move.holding_eq` — no move of another session changes what a session holds.
* `systemStep` — a step of one of the sessions.
-/

namespace Lubko.Lib

/-! ## The database -/

/-- A row lock, with the owner's version of the row: `some none` is a deletion. -/
structure Lock (τ α : Type) where
  owner : τ
  version : Option (Option α)

/-- The committed rows and the locks of open transactions. -/
structure Db (τ κ α : Type) where
  committed : Table κ α
  locks : Table κ (Lock τ α)

/-- What a transaction has of a row it locked: its version, and the committed row below it. -/
structure Holding (α : Type) where
  version : Option (Option α)
  base : Option α

/-- The row as its owner sees it. -/
def Holding.current {α : Type} (h : Holding α) : Option α := h.version.getD h.base

namespace Db

variable {τ κ α : Type} [DecidableEq τ] [DecidableEq κ]

/-- No other session has the lock. -/
def available (db : Db τ κ α) (t : τ) (k : κ) : Bool := (db.locks.get k).all fun l => l.owner = t

/-- What a session holds of a row. -/
def holding (db : Db τ κ α) (t : τ) (k : κ) : Option (Holding α) :=
  ((db.locks.get k).filter fun l => l.owner = t).map fun l => ⟨l.version, db.committed.get k⟩

/-- The table as a session sees it. -/
def view (db : Db τ κ α) (t : τ) : Table κ α :=
  db.committed.merge (db.locks.filterMap fun _ l => if l.owner = t then l.version else none)

/-- Lock a row, and write a version of it if there is one to write. -/
def lock (db : Db τ κ α) (t : τ) (k : κ) (write : Option (Option α)) : Db τ κ α :=
  { db with locks := db.locks.set k ⟨t, write.or ((db.holding t k).bind Holding.version)⟩ }

/-- Drop the locks of a session. -/
def release (db : Db τ κ α) (t : τ) : Db τ κ α :=
  { db with locks := db.locks.delete fun _ l => l.owner = t }

/-- Install the versions of a session and drop its locks. -/
def commit (db : Db τ κ α) (t : τ) : Db τ κ α := { db.release t with committed := db.view t }

/-- What a session can do to the database. -/
inductive Move (t : τ) (db : Db τ κ α) : Db τ κ α → Prop
  | lock (k : κ) (write : Option (Option α)) (h : db.available t k = true) :
      Move t db (db.lock t k write)
  | release : Move t db (db.release t)
  | commit : Move t db (db.commit t)

variable {db : Db τ κ α} {t u : τ} {k k' : κ}

/-- The session holds nothing. -/
def Unheld (db : Db τ κ α) (t : τ) : Prop := ∀ k, db.holding t k = none

/-- The session has written nothing. -/
def Unwritten (db : Db τ κ α) (t : τ) : Prop := ∀ k h, db.holding t k = some h → h.version = none

theorem Unheld.unwritten (h : db.Unheld t) : db.Unwritten t := by
  intro k held hk
  rw [h k] at hk
  cases hk

theorem holding_base {h : Holding α} (hk : db.holding t k = some h) :
    h.base = db.committed.get k := by
  obtain ⟨l, -, rfl⟩ := Option.map_eq_some_iff.1 hk
  rfl

/-- A row has one owner. -/
theorem holding_unique {h h' : Holding α} (hk : db.holding t k = some h)
    (hk' : db.holding u k = some h') : t = u := by
  obtain ⟨l, hl, -⟩ := Option.map_eq_some_iff.1 hk
  obtain ⟨l', hl', -⟩ := Option.map_eq_some_iff.1 hk'
  rw [Option.filter_eq_some_iff] at hl hl'
  obtain rfl := Option.some.inj (hl.1.symm.trans hl'.1)
  exact (of_decide_eq_true hl.2).symm.trans (of_decide_eq_true hl'.2)

/-- The lock is free for `t` only if nobody else holds the row. -/
theorem holding_of_available (h : db.available t k = true) (hne : u ≠ t) :
    db.holding u k = none := by
  rw [available] at h
  rw [holding]
  cases hl : db.locks.get k with
  | none => rfl
  | some l =>
    rw [hl] at h
    have howner : l.owner = t := by simpa using h
    rw [Option.filter_some, if_neg (by simpa [howner] using Ne.symm hne), Option.map_none]

theorem get_view (db : Db τ κ α) (t : τ) (k : κ) :
    (db.view t).get k = ((db.holding t k).map Holding.current).getD (db.committed.get k) := by
  rw [view, Table.get_merge, Table.get_filterMap, holding]
  cases db.locks.get k with
  | none => rfl
  | some l =>
    by_cases howner : l.owner = t
    · rw [Option.bind_some, if_pos howner, Option.filter_some, if_pos (by simpa using howner)]
      rfl
    · rw [Option.bind_some, if_neg howner, Option.filter_some, if_neg (by simpa using howner)]
      rfl

theorem get_view_of_holding {h : Holding α} (hk : db.holding t k = some h) :
    (db.view t).get k = h.current := by
  rw [get_view, hk]
  rfl

theorem get_view_of_not_holding (hk : db.holding t k = none) :
    (db.view t).get k = db.committed.get k := by
  rw [get_view, hk]
  rfl

/-! ### What a move does to what is held -/

theorem holding_lock (write : Option (Option α)) :
    (db.lock t k write).holding t = Function.update (db.holding t) k
      (some ⟨write.or ((db.holding t k).bind Holding.version), db.committed.get k⟩) := by
  funext k'
  rw [holding, lock, Table.get_set]
  by_cases hk : k' = k
  · subst hk
    simp
  · rw [if_neg hk, Function.update_of_ne hk]
    rfl

/-- A lock keeps every row that is held, with the committed row below it. -/
theorem holding_lock_of_holding {h : Holding α} (write : Option (Option α))
    (hk : db.holding t k' = some h) :
    ∃ v, (db.lock t k write).holding t k' = some ⟨v, h.base⟩ ∧
      (v = h.version ∨ v = write ∧ write ≠ none ∧ k' = k) := by
  rw [holding_lock]
  by_cases heq : k' = k
  · subst heq
    rw [Function.update_self, hk, ← holding_base hk]
    cases write with
    | none => exact ⟨_, rfl, Or.inl rfl⟩
    | some w => exact ⟨_, rfl, Or.inr ⟨rfl, by simp, rfl⟩⟩
  · rw [Function.update_of_ne heq, hk]
    exact ⟨_, rfl, Or.inl rfl⟩

/-- What is held after a lock was held before, or is the row just locked. -/
theorem holding_of_holding_lock {h : Holding α} {write : Option (Option α)}
    (hk : (db.lock t k write).holding t k' = some h) :
    db.holding t k' = some h ∨ k' = k ∧ h = ⟨write, db.committed.get k⟩ := by
  rw [holding_lock] at hk
  by_cases heq : k' = k
  · subst heq
    rw [Function.update_self] at hk
    obtain rfl := Option.some.inj hk
    cases write with
    | some w => exact Or.inr ⟨rfl, rfl⟩
    | none =>
      cases hheld : db.holding t k' with
      | none => exact Or.inr ⟨rfl, rfl⟩
      | some h =>
        have hbase := holding_base hheld
        exact Or.inl (by rw [← hbase]; rfl)
  · rw [Function.update_of_ne heq] at hk
    exact Or.inl hk

/-- A session that has written nothing sees the committed rows. -/
theorem Unwritten.get_view (h : db.Unwritten t) (k : κ) :
    (db.view t).get k = db.committed.get k := by
  cases hk : db.holding t k with
  | none => exact get_view_of_not_holding hk
  | some held => rw [get_view_of_holding hk, Holding.current, h k held hk, ← holding_base hk]; rfl

theorem Unwritten.lock (h : db.Unwritten t) (k : κ) : (db.lock t k none).Unwritten t := by
  intro k' held hk'
  rcases holding_of_holding_lock hk' with hold | ⟨-, rfl⟩
  · exact h k' held hold
  · rfl

/-- A committed row that the session no longer sees is one it deleted. -/
theorem holding_of_get_view_eq_none {a : α} (hview : (db.view t).get k = none)
    (hk : db.committed.get k = some a) : db.holding t k = some ⟨some none, some a⟩ := by
  cases hheld : db.holding t k with
  | none =>
    rw [get_view_of_not_holding hheld, hk] at hview
    cases hview
  | some h =>
    obtain ⟨v, b⟩ := h
    have hbase : b = some a := (holding_base hheld).trans hk
    rw [get_view_of_holding hheld, Holding.current, hbase] at hview
    cases v with
    | none => cases hview
    | some v => rw [hbase, show v = none from hview]

theorem filter_delete (locks : Table κ (Lock τ α)) (t : τ) (k : κ) :
    ((locks.delete fun _ l => l.owner = t).get k).filter (fun l => l.owner = t) = none := by
  rw [Table.get_delete]
  cases locks.get k with
  | none => rfl
  | some l => by_cases howner : l.owner = t <;> simp [Option.filter_some, howner]

theorem holding_release : (db.release t).holding t k = none := by
  rw [holding, release, filter_delete]
  rfl

theorem holding_commit : (db.commit t).holding t k = none := by
  rw [holding, commit, release, filter_delete]
  rfl

/-- **The frame**: a move of another session leaves what a session holds, and the committed rows
below it. -/
theorem Move.holding_eq {db' : Db τ κ α} (hm : Move u db db') (hne : t ≠ u) (k : κ) :
    db'.holding t k = db.holding t k := by
  have hreleased : ((db.locks.delete fun _ l => l.owner = u).get k).filter (fun l => l.owner = t) =
      (db.locks.get k).filter fun l => l.owner = t := by
    rw [Table.get_delete]
    cases db.locks.get k with
    | none => rfl
    | some l =>
      by_cases howner : l.owner = t
      · simp [Option.filter_some, howner, hne]
      · by_cases hother : l.owner = u <;> simp [Option.filter_some, howner, hother, hne.symm]
  cases hm with
  | lock k' write h =>
    by_cases hk : k = k'
    · subst hk
      rw [holding_of_available h hne, holding, Db.lock, Table.get_set, if_pos rfl, Option.filter_some,
        if_neg (by simpa using hne.symm), Option.map_none]
    · rw [holding, Db.lock, Table.get_set, if_neg hk]
      rfl
  | release =>
    rw [holding, Db.release, hreleased]
    rfl
  | commit =>
    have hown : (db.commit u).holding t k =
        ((db.locks.get k).filter fun l => l.owner = t).map fun l =>
          ⟨l.version, (db.view u).get k⟩ := by
      rw [holding, Db.commit, Db.release, hreleased]
    rw [hown]
    cases hk : db.holding u k with
    | none => rw [get_view_of_not_holding hk, holding]
    | some h =>
      cases hk' : db.holding t k with
      | none => rw [holding, Option.map_eq_none_iff] at hk'; rw [hk']; rfl
      | some h' => exact absurd (holding_unique hk' hk) hne

/-- A move changes a committed row only to the version its session holds. -/
theorem Move.committed_get {db' : Db τ κ α} (hm : Move u db db') (k : κ) :
    db'.committed.get k = db.committed.get k ∨
      ∃ h, db.holding u k = some h ∧ db'.committed.get k = h.current := by
  cases hm with
  | lock k' write h => exact Or.inl rfl
  | release => exact Or.inl rfl
  | commit =>
    show (db.view u).get k = _ ∨ ∃ h, _ ∧ (db.view u).get k = _
    cases hk : db.holding u k with
    | none => exact Or.inl (get_view_of_not_holding hk)
    | some h => exact Or.inr ⟨h, rfl, get_view_of_holding hk⟩

end Db

/-! ## Programs and sessions -/

/-- A statement that locks the rows it finds. `write` is the new version of a row, if the statement
writes; a condition may have subqueries, which read the snapshot. -/
structure Statement (κ α : Type) where
  condition : Table κ α → κ → α → Bool
  write : α → Option (Option α)
  skipLocked : Bool := false
  limit : Option ℕ := none

/-- The rows of the snapshot that meet the condition. -/
def Statement.candidates {κ α : Type} (s : Statement κ α) (snapshot : Table κ α) : List κ :=
  (snapshot.rows.filter fun r => s.condition snapshot r.1 r.2).map Prod.fst

theorem Statement.mem_candidates {κ α : Type} [DecidableEq κ] {s : Statement κ α}
    {snapshot : Table κ α} {k : κ} :
    k ∈ s.candidates snapshot ↔ ∃ a, snapshot.get k = some a ∧ s.condition snapshot k a = true := by
  simp only [candidates, List.mem_map, List.mem_filter, Table.get_eq_some]
  constructor
  · rintro ⟨r, ⟨hr, hcond⟩, rfl⟩
    exact ⟨r.2, hr, hcond⟩
  · rintro ⟨a, ha, hcond⟩
    exact ⟨(k, a), ⟨ha, hcond⟩, rfl⟩

/-- The limit is reached. -/
def Statement.full {κ α : Type} (s : Statement κ α) (found : List κ) : Bool :=
  s.limit.any fun n => n ≤ found.length

/-- The rest of a transaction, with what the client does between its statements. -/
inductive Program (κ α : Type) where
  | commit
  | rollback
  | read (next : Table κ α → Program κ α)
  | insert (k : κ) (a : α) (next : Program κ α)
  | run (s : Statement κ α) (next : List κ → Program κ α)

/-- Where a session stands: between statements, or in one with rows still to visit. -/
inductive Session (ρ κ α : Type) where
  | idle
  | ready (request : ρ) (program : Program κ α)
  | scan (request : ρ) (s : Statement κ α) (snapshot : Table κ α) (todo found : List κ)
      (next : List κ → Program κ α)

/-- The request a session works on. -/
def Session.request? {ρ κ α : Type} : Session ρ κ α → Option ρ
  | .idle => none
  | .ready r _ => some r
  | .scan r _ _ _ _ _ => some r

/-- The steps of a session. -/
inductive Action (ρ κ : Type) where
  | begin (request : ρ)
  | advance
  | visit (k : κ)
  | skip (k : κ)
  | finish
  | abort

section Step

variable {τ ρ κ α : Type} [DecidableEq τ] [DecidableEq κ]

/-- The next command of a program. A key that is taken fails the transaction. -/
def advance (db : Db τ κ α) (t : τ) (r : ρ) : Program κ α → Option (Db τ κ α × Session ρ κ α)
  | .commit => some (db.commit t, .idle)
  | .rollback => some (db.release t, .idle)
  | .read next => some (db, .ready r (next (db.view t)))
  | .insert k a next =>
    if db.available t k then
      if ((db.view t).get k).isNone then some (db.lock t k (some (some a)), .ready r next)
      else some (db.release t, .idle)
    else none
  | .run s next =>
    some (db, .scan r s (db.view t) (s.candidates (db.view t)) [] next)

/-- A visit, with the lock free or held: the row may be gone, or meet the condition no more. -/
def visit (db : Db τ κ α) (t : τ) (s : Statement κ α) (snapshot : Table κ α) (k : κ) :
    Db τ κ α × Bool :=
  match (db.view t).get k with
  | none => (db, false)
  | some a =>
    if s.condition snapshot k a then (db.lock t k (s.write a), true)
    else (db.lock t k none, false)

/-- One step of a session. -/
def sessionStep (program : ρ → Program κ α) (db : Db τ κ α) (t : τ) :
    Session ρ κ α → Action ρ κ → Option (Db τ κ α × Session ρ κ α)
  | .idle, .begin r => some (db, .ready r (program r))
  | .ready r p, .advance => advance db t r p
  | .scan r s snapshot todo found next, .visit k =>
    if k ∈ todo && db.available t k && !s.full found then
      let (db', hit) := visit db t s snapshot k
      some (db', .scan r s snapshot (todo.filter (· ≠ k)) (if hit then found ++ [k] else found) next)
    else none
  | .scan r s snapshot todo found next, .skip k =>
    if s.skipLocked && !db.available t k then
      some (db, .scan r s snapshot (todo.filter (· ≠ k)) found next)
    else none
  | .scan r s _ todo found next, .finish =>
    if todo.isEmpty || s.full found then some (db, .ready r (next found)) else none
  | .ready _ _, .abort => some (db.release t, .idle)
  | .scan _ _ _ _ _ _, .abort => some (db.release t, .idle)
  | _, _ => none

/-- The database and the sessions on it. -/
structure System (τ ρ κ α : Type) where
  db : Db τ κ α
  sessions : τ → Session ρ κ α

/-- No session is at work. -/
def System.start (t : Table κ α) : System τ ρ κ α :=
  { db := { committed := t, locks := Table.empty }, sessions := fun _ => .idle }

/-- One step of the system: a step of one session. -/
def systemStep (program : ρ → Program κ α) (sys : System τ ρ κ α) (label : τ × Action ρ κ) :
    Option (System τ ρ κ α) :=
  (sessionStep program sys.db label.1 (sys.sessions label.1) label.2).map fun next =>
    { db := next.1, sessions := Function.update sys.sessions label.1 next.2 }

end Step

end Lubko.Lib
