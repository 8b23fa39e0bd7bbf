import Mathlib.Data.List.Basic
import Mathlib.Logic.Function.Basic

/-!
# A directory under crashes

Files keep what is written to them over a crash once they are flushed. A directory entry that was
created, replaced or removed may or may not keep its change until the directory itself is flushed: a
crash leaves any of the entries the name had since the last flush.

* `Disk.CrashValue` — what a crash can leave under a name.
* `Disk.Kept` — every value a crash can leave under a name is a whole one of a given kind, and no
  other name leads to the same file.
* `Kept.rename`, `Kept.unlink` and the like — what keeps that up.
-/

namespace Lubko.Lib

/-- The bytes of a file, and whether they are on stable storage. -/
structure File where
  data : List UInt8 := []
  flushed : Bool := false

/-- One directory: its files by inode, the entries one sees, and those a crash can leave. -/
structure Disk (N : Type) where
  files : ℕ → File
  next : ℕ
  entries : N → Option ℕ
  stored : N → List (Option ℕ)

namespace Disk

variable {N : Type} [DecidableEq N]

/-- A change of an entry that is not flushed yet. -/
def setEntry (d : Disk N) (name : N) (entry : Option ℕ) : Disk N :=
  { d with
    entries := Function.update d.entries name entry
    stored := Function.update d.stored name (entry :: d.stored name) }

def setFile (d : Disk N) (ino : ℕ) (file : File) : Disk N :=
  { d with files := Function.update d.files ino file }

/-- `open` with `O_CREAT | O_TRUNC`. -/
def openTruncated (d : Disk N) (name : N) : ℕ × Disk N :=
  match d.entries name with
  | some ino => (ino, d.setFile ino {})
  | none => (d.next, ({ d with next := d.next + 1 }.setFile d.next {}).setEntry name (some d.next))

/-- `write` at the end of a file. -/
def write (d : Disk N) (ino : ℕ) (bytes : List UInt8) : Disk N :=
  d.setFile ino ⟨(d.files ino).data ++ bytes, false⟩

/-- `fsync` of a file. -/
def fsync (d : Disk N) (ino : ℕ) : Disk N := d.setFile ino ⟨(d.files ino).data, true⟩

/-- `rename`. -/
def rename (d : Disk N) (source target : N) : Disk N :=
  match d.entries source with
  | some ino => (d.setEntry source none).setEntry target (some ino)
  | none => d

/-- `unlink`, of an entry that may be missing. -/
def unlink (d : Disk N) (name : N) : Disk N :=
  match d.entries name with
  | some _ => d.setEntry name none
  | none => d

/-- `fsync` of the directory. -/
def fsyncDir (d : Disk N) : Disk N := { d with stored := fun name => [d.entries name] }

/-- The bytes one reads under a name. -/
def contents (d : Disk N) (name : N) : Option (List UInt8) :=
  (d.entries name).map fun ino => (d.files ino).data

/-- The bytes a file may have after a crash: any at all when they were not flushed. -/
def CrashBytes (d : Disk N) (ino : ℕ) (bytes : List UInt8) : Prop :=
  (d.files ino).flushed = true → bytes = (d.files ino).data

/-- What a crash can leave under a name. -/
def CrashValue (d : Disk N) (name : N) (value : Option (List UInt8)) : Prop :=
  (none ∈ d.stored name ∧ value = none) ∨
    ∃ ino bytes, some ino ∈ d.stored name ∧ d.CrashBytes ino bytes ∧ value = some bytes

/-! ## Names that keep whole values -/

/-- The entry leads to flushed bytes of the kind `P`, or to none when `P` allows that. -/
def EntryOk (P : Option (List UInt8) → Prop) (d : Disk N) : Option ℕ → Prop
  | none => P none
  | some ino => (d.files ino).flushed = true ∧ P (some (d.files ino).data)

/-- Every entry leads to a file of its own. -/
structure Linked (d : Disk N) : Prop where
  lt : ∀ name ino, d.entries name = some ino → ino < d.next
  injective : ∀ name other ino, d.entries name = some ino → d.entries other = some ino → name = other

/-- Whatever a crash leaves under the name is a whole value of the kind `P`. -/
structure Kept (P : Option (List UInt8) → Prop) (d : Disk N) (name : N) : Prop where
  linked : d.Linked
  values : ∀ entry ∈ d.stored name, d.EntryOk P entry
  current : d.entries name ∈ d.stored name
  alone : ∀ other, other ≠ name → ∀ ino, d.entries other = some ino → some ino ∉ d.stored name
  bounded : ∀ ino, some ino ∈ d.stored name → ino < d.next

variable {P : Option (List UInt8) → Prop} {d : Disk N} {name other : N} {ino : ℕ}

omit [DecidableEq N] in
theorem Kept.crashValue (h : d.Kept P name) {value : Option (List UInt8)}
    (hvalue : d.CrashValue name value) : P value := by
  rcases hvalue with ⟨hnone, rfl⟩ | ⟨ino, bytes, hsome, hbytes, rfl⟩
  · exact h.values none hnone
  · obtain ⟨hflushed, hP⟩ := h.values (some ino) hsome
    rw [hbytes hflushed]
    exact hP

omit [DecidableEq N] in
theorem Kept.contents (h : d.Kept P name) : P (d.contents name) := by
  have hok := h.values _ h.current
  unfold Disk.contents
  cases hentry : d.entries name with
  | none =>
    rw [hentry] at hok
    exact hok
  | some ino =>
    rw [hentry] at hok
    exact hok.2

omit [DecidableEq N] in
/-- Another file changes. -/
theorem Kept.setFile (h : d.Kept P name) (hino : some ino ∉ d.stored name) (file : File) :
    (d.setFile ino file).Kept P name := by
  refine ⟨⟨h.linked.lt, h.linked.injective⟩, fun entry hentry => ?_, h.current, h.alone, h.bounded⟩
  have hok := h.values entry hentry
  cases entry with
  | none => exact hok
  | some i =>
    have hne : i ≠ ino := by
      intro heq
      rw [heq] at hentry
      exact hino hentry
    unfold EntryOk at hok ⊢
    unfold Disk.setFile
    dsimp only
    rw [Function.update_of_ne hne]
    exact hok

theorem entries_setEntry_self (d : Disk N) (name : N) (entry : Option ℕ) :
    (d.setEntry name entry).entries name = entry := Function.update_self _ _ _

theorem entries_setEntry_ne (d : Disk N) (h : other ≠ name) (entry : Option ℕ) :
    (d.setEntry name entry).entries other = d.entries other := Function.update_of_ne h _ _

theorem stored_setEntry_self (d : Disk N) (name : N) (entry : Option ℕ) :
    (d.setEntry name entry).stored name = entry :: d.stored name := Function.update_self _ _ _

theorem stored_setEntry_ne (d : Disk N) (h : other ≠ name) (entry : Option ℕ) :
    (d.setEntry name entry).stored other = d.stored other := Function.update_of_ne h _ _

/-- A name gets an entry to a file that no name has. -/
theorem Linked.setEntry (h : d.Linked) {entry : Option ℕ}
    (hentry : ∀ ino, entry = some ino → ino < d.next ∧ ∀ x, d.entries x ≠ some ino) :
    (d.setEntry name entry).Linked := by
  have hcases : ∀ x ino, (d.setEntry name entry).entries x = some ino →
      x = name ∧ entry = some ino ∨ x ≠ name ∧ d.entries x = some ino := by
    intro x ino hx
    by_cases hxn : x = name
    · rw [hxn, entries_setEntry_self] at hx
      exact .inl ⟨hxn, hx⟩
    · rw [entries_setEntry_ne d hxn] at hx
      exact .inr ⟨hxn, hx⟩
  constructor
  · intro x ino hx
    rcases hcases x ino hx with ⟨-, he⟩ | ⟨-, hold⟩
    · exact (hentry ino he).1
    · exact h.lt x ino hold
  · intro x y ino hx hy
    rcases hcases x ino hx with ⟨hxn, he⟩ | ⟨-, hxold⟩
    · rcases hcases y ino hy with ⟨hyn, -⟩ | ⟨-, hyold⟩
      · rw [hxn, hyn]
      · exact absurd hyold ((hentry ino he).2 y)
    · rcases hcases y ino hy with ⟨-, he⟩ | ⟨-, hyold⟩
      · exact absurd hxold ((hentry ino he).2 x)
      · exact h.injective x y ino hxold hyold

/-- Another name gets an entry to another file. -/
theorem Kept.setEntry (h : d.Kept P name) (hother : other ≠ name) {entry : Option ℕ}
    (hlinked : (d.setEntry other entry).Linked)
    (hentry : ∀ ino, entry = some ino → some ino ∉ d.stored name) :
    (d.setEntry other entry).Kept P name := by
  have hstored := stored_setEntry_ne d hother.symm entry
  refine ⟨hlinked, fun e he => ?_, ?_, fun x hx ino hino => ?_, fun ino hino => ?_⟩
  · rw [hstored] at he
    exact h.values e he
  · rw [hstored, entries_setEntry_ne d hother.symm]
    exact h.current
  · rw [hstored]
    by_cases hxo : x = other
    · rw [hxo, entries_setEntry_self] at hino
      exact hentry ino hino
    · rw [entries_setEntry_ne d hxo] at hino
      exact h.alone x hx ino hino
  · rw [hstored] at hino
    exact h.bounded ino hino

/-- The name itself gets a new entry. -/
theorem Kept.setOwn (h : d.Kept P name) {entry : Option ℕ} (hok : d.EntryOk P entry)
    (hentry : ∀ ino, entry = some ino → ino < d.next ∧ ∀ x, d.entries x ≠ some ino) :
    (d.setEntry name entry).Kept P name := by
  have hstored := stored_setEntry_self d name entry
  refine ⟨h.linked.setEntry hentry, fun e he => ?_, ?_, fun x hx ino hino => ?_,
    fun ino hino => ?_⟩
  · rw [hstored] at he
    rcases List.mem_cons.1 he with rfl | he
    · exact hok
    · exact h.values e he
  · rw [hstored, entries_setEntry_self]
    exact List.mem_cons_self
  · rw [hstored]
    rw [entries_setEntry_ne d hx] at hino
    intro hmem
    rcases List.mem_cons.1 hmem with heq | hmem
    · exact (hentry ino heq.symm).2 x hino
    · exact h.alone x hx ino hino hmem
  · rw [hstored] at hino
    rcases List.mem_cons.1 hino with heq | hmem
    · exact (hentry ino heq.symm).1
    · exact h.bounded ino hmem

theorem Linked.setEntry_none (h : d.Linked) : (d.setEntry name none).Linked :=
  h.setEntry (by simp)

theorem Kept.unlink (h : d.Kept P name) (hother : other ≠ name) : (d.unlink other).Kept P name := by
  unfold Disk.unlink
  cases d.entries other with
  | none => exact h
  | some ino => exact h.setEntry hother h.linked.setEntry_none (by simp)

theorem Kept.unlinkOwn (h : d.Kept P name) (hP : P none) : (d.unlink name).Kept P name := by
  unfold Disk.unlink
  cases d.entries name with
  | none => exact h
  | some ino => exact h.setOwn hP (by simp)

/-- **A flushed file is renamed over the name.** -/
theorem Kept.rename (h : d.Kept P name) (hother : other ≠ name) (hentry : d.entries other = some ino)
    (hflushed : (d.files ino).flushed = true) (hP : P (some (d.files ino).data)) :
    (d.rename other name).Kept P name ∧
      (d.rename other name).entries name = some ino ∧
      (d.rename other name).files = d.files := by
  rw [Disk.rename, hentry]
  refine ⟨?_, entries_setEntry_self _ _ _, rfl⟩
  have hremoved := h.setEntry hother h.linked.setEntry_none (by simp)
  refine hremoved.setOwn ⟨hflushed, hP⟩ ?_
  intro i hi
  obtain rfl := Option.some.inj hi
  refine ⟨h.linked.lt other _ hentry, fun x hx => ?_⟩
  by_cases hxo : x = other
  · rw [hxo, entries_setEntry_self] at hx
    cases hx
  · rw [entries_setEntry_ne d hxo] at hx
    exact hxo (h.linked.injective x other _ hx hentry)

omit [DecidableEq N] in
theorem Kept.fsyncDir (h : d.Kept P name) : d.fsyncDir.Kept P name := by
  have hown : ∀ entry, entry ∈ d.fsyncDir.stored name → entry ∈ d.stored name := by
    intro entry hentry
    rw [List.mem_singleton.1 hentry]
    exact h.current
  refine ⟨⟨h.linked.lt, h.linked.injective⟩, fun e he => h.values e (hown e he),
    List.mem_singleton_self _, ?_, ?_⟩
  · intro other hother ino hino hmem
    exact h.alone other hother ino hino (hown _ hmem)
  · intro ino hino
    exact h.bounded ino (hown _ hino)

omit [DecidableEq N] in
/-- After the directory is flushed, a crash leaves what one reads. -/
theorem Kept.fsyncDir_crashValue (h : d.Kept P name) {value : Option (List UInt8)}
    (hvalue : d.fsyncDir.CrashValue name value) : value = d.contents name := by
  have hok := h.values _ h.current
  unfold Disk.contents
  rcases hvalue with ⟨hnone, rfl⟩ | ⟨ino, bytes, hsome, hbytes, rfl⟩
  · rw [← List.mem_singleton.1 hnone]
    rfl
  · rw [← List.mem_singleton.1 hsome] at hok ⊢
    rw [Option.map_some, hbytes hok.1]
    rfl

/-- The file under another name is a fresh one as far as this name is concerned. -/
theorem Kept.openTruncated (h : d.Kept P name) (hother : other ≠ name) :
    (d.openTruncated other).2.Kept P name ∧
      (d.openTruncated other).2.entries other = some (d.openTruncated other).1 ∧
      ((d.openTruncated other).2.files (d.openTruncated other).1).data = [] := by
  unfold Disk.openTruncated
  cases hentry : d.entries other with
  | some ino =>
    refine ⟨h.setFile (h.alone other hother ino hentry) {}, hentry, ?_⟩
    show (Function.update d.files ino {} ino).data = []
    rw [Function.update_self]
  | none =>
    have hfresh : some d.next ∉ d.stored name := by
      intro hmem
      exact absurd (h.bounded d.next hmem) (Nat.lt_irrefl _)
    have hunlinked : ∀ x, d.entries x ≠ some d.next := by
      intro x hx
      exact absurd (h.linked.lt x d.next hx) (Nat.lt_irrefl _)
    have hgrown : Kept P { d with next := d.next + 1 } name :=
      ⟨⟨fun x ino hx => Nat.lt_succ_of_lt (h.linked.lt x ino hx), h.linked.injective⟩, h.values,
        h.current, h.alone, fun ino hino => Nat.lt_succ_of_lt (h.bounded ino hino)⟩
    have hempty := hgrown.setFile hfresh {}
    refine ⟨?_, entries_setEntry_self _ _ _, ?_⟩
    · refine hempty.setEntry hother (hempty.linked.setEntry ?_) ?_
      · intro i hi
        obtain rfl := Option.some.inj hi
        exact ⟨Nat.lt_succ_self _, hunlinked⟩
      · intro i hi
        obtain rfl := Option.some.inj hi
        exact hfresh
    · show (Function.update d.files d.next {} d.next).data = []
      rw [Function.update_self]

end Disk

end Lubko.Lib
