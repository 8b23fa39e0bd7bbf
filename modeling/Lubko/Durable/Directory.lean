import Lubko.Lib.Execution
import Mathlib.Data.Finset.Basic
import Mathlib.Data.Finset.Union
import Mathlib.Data.List.Infix

/-!
# `make_directory_durable` under concurrent creators

`durable.py` creates a missing hierarchy top-down, flushes the parent after every `mkdir`, and
then anchors only the boundary level, the deepest one its scan found visible, by flushing that
level's parent. The deeper ancestors are assumed durable from the writes that created them.

**The tree** (`Tree`). A directory entry is visible once it exists and durable once its parent
has been flushed after that. `mkdir` adds a visible entry, `fsync` of a directory makes its
visible entries durable. A path lists its components from the innermost outwards, so that
`Path.parent` is the tail and the components of a path are its suffixes.

**The processes.** Each call is a little machine with one system call per step (`Pc`), and the
steps of any number of calls interleave. A `mkdir` or an `fsync` may also fail, and then the
call raises.

Main result: `durable_iff_anchorSafe`. The calls of a run leave every component durable exactly
when each of them reaches its last flush with everything strictly above its boundary level
already durable. Two nested levels left unflushed by stalled creators break it
(`stalled_creators_lose_ancestor`).
-/

namespace Lubko.Durable

open Lubko.Lib

/-- A path, innermost component first; `[]` is the root. -/
abbrev Path (Name : Type) := List Name

/-- `Path.parent`; the root is its own parent. -/
def Path.parent {Name : Type} (p : Path Name) : Path Name := List.tail p

/-! ## The directory tree -/

/-- The directories that exist, and those among them whose entry is on stable storage. -/
structure Tree (Name : Type) where
  visible : Finset (Path Name)
  durable : Finset (Path Name)
  root : [] ∈ durable
  durable_sub : durable ⊆ visible

section

variable {Name : Type} [DecidableEq Name]

namespace Tree

/-- `os.mkdir`, with `exist_ok=True`: the entry becomes visible. -/
def mkdir (t : Tree Name) (p : Path Name) : Tree Name where
  visible := insert p t.visible
  durable := t.durable
  root := t.root
  durable_sub := t.durable_sub.trans (Finset.subset_insert p t.visible)

/-- `os.fsync` of the directory `d`: its visible entries become durable. -/
def fsync (t : Tree Name) (d : Path Name) : Tree Name where
  visible := t.visible
  durable := t.durable ∪ t.visible.filter fun p => p.parent = d
  root := Finset.mem_union_left _ t.root
  durable_sub := Finset.union_subset t.durable_sub (Finset.filter_subset _ _)

/-- Every existing directory is durable. -/
def Flushed (t : Tree Name) : Prop := t.visible ⊆ t.durable

/-- Every component of `p`, from the root down, is durable. -/
def PathDurable (t : Tree Name) (p : Path Name) : Prop := ∀ q, q <:+ p → q ∈ t.durable

@[simp] theorem mem_visible_mkdir {t : Tree Name} {p q : Path Name} :
    q ∈ (t.mkdir p).visible ↔ q = p ∨ q ∈ t.visible := Finset.mem_insert

@[simp] theorem durable_mkdir (t : Tree Name) (p : Path Name) :
    (t.mkdir p).durable = t.durable := rfl

@[simp] theorem visible_fsync (t : Tree Name) (d : Path Name) :
    (t.fsync d).visible = t.visible := rfl

@[simp] theorem mem_durable_fsync {t : Tree Name} {d q : Path Name} :
    q ∈ (t.fsync d).durable ↔ q ∈ t.durable ∨ q ∈ t.visible ∧ q.parent = d := by
  simp [fsync]

/-- Flushing a directory settles nothing above it. -/
theorem mem_durable_of_fsync_parent {t : Tree Name} {p q : Path Name} (hq : q <:+ p.parent)
    (h : q ∈ (t.fsync p.parent).durable) : q ∈ t.durable := by
  rcases mem_durable_fsync.1 h with h | ⟨-, h⟩
  · exact h
  · -- `q` would be an entry of a directory it is itself a component of.
    have hle : q.length ≤ q.parent.length := h ▸ hq.length_le
    have hnil : q = [] := by
      cases q with
      | nil => rfl
      | cons a q =>
        simp only [Path.parent, List.tail_cons, List.length_cons] at hle
        omega
    exact hnil ▸ t.root

end Tree

/-! ## One call -/

/-- Where a call of `make_directory_durable` stands: the next system call it makes. -/
inductive Pc (Name : Type) where
  /-- `current.is_dir()`; `missing` is kept top-down, as `reversed(missing)` lists it. -/
  | probe (current : Path Name) (missing : List (Path Name))
  /-- The loop over `reversed(missing)`, before the `mkdir` of the next child. -/
  | make (firstExisting : Path Name) (children : List (Path Name))
  /-- `_fsync_directory(child.parent)`. -/
  | flush (firstExisting child : Path Name) (children : List (Path Name))
  /-- The last flush, which anchors the boundary level. -/
  | anchor (firstExisting : Path Name)
  | returned
  | raised

/-- A call: its argument and where it stands. -/
structure Call (Name : Type) where
  directory : Path Name
  pc : Pc Name

/-- The directory flushed last: the parent of the boundary level, or of `directory` itself when
it already existed. -/
def anchorDir (directory firstExisting : Path Name) : Path Name :=
  if firstExisting ≠ directory then firstExisting.parent else directory.parent

/-- One system call of `make_directory_durable`, with `ok = false` when the operating system
refuses it. Reaching the end of `reversed(missing)` costs no system call. -/
def Pc.step (directory : Path Name) (t : Tree Name) (ok : Bool) :
    Pc Name → Option (Pc Name × Tree Name)
  | .probe current missing =>
    if current ∈ t.visible then some (.make current missing, t)
    else if current.parent = current then some (.make current (current :: missing), t)
    else some (.probe current.parent (current :: missing), t)
  | .make first [] => some (.anchor first, t)
  | .make first (child :: children) =>
    if ok then some (.flush first child children, t.mkdir child) else some (.raised, t)
  | .flush first child children =>
    if ok then some (.make first children, t.fsync child.parent) else some (.raised, t)
  | .anchor first =>
    if ok then some (.returned, t.fsync (anchorDir directory first)) else some (.raised, t)
  | .returned => none
  | .raised => none

/-! ## Any number of calls -/

/-- The shared tree and the calls, numbered by process. -/
structure Sys (Name : Type) where
  tree : Tree Name
  calls : ℕ → Option (Call Name)

inductive Act (Name : Type) where
  /-- Process `pid` calls `make_directory_durable(directory)`. -/
  | call (pid : ℕ) (directory : Path Name)
  /-- Process `pid` makes its next system call, which succeeds when `ok`. -/
  | sys (pid : ℕ) (ok : Bool)

/-- A process may start a call when it has none under way. -/
def Call.finished : Option (Call Name) → Bool
  | none => true
  | some ⟨_, .returned⟩ => true
  | some ⟨_, .raised⟩ => true
  | some _ => false

def Sys.step (s : Sys Name) : Act Name → Option (Sys Name)
  | .call pid directory =>
    if Call.finished (s.calls pid) then
      some { s with calls := Function.update s.calls pid (some ⟨directory, .probe directory []⟩) }
    else none
  | .sys pid ok => do
    let c ← s.calls pid
    let (pc, tree) ← c.pc.step c.directory s.tree ok
    return ⟨tree, Function.update s.calls pid (some { c with pc })⟩

/-- No call under way. -/
def Sys.idle (t : Tree Name) : Sys Name := ⟨t, fun _ => none⟩

/-! ## What a call has settled so far -/

/-- The components of `directory` are accounted for: those at or above the boundary level are
not this call's business yet, the others are still to be created or already durable. -/
def Pc.Inv (t : Tree Name) (directory : Path Name) : Pc Name → Prop
  | .probe current missing =>
    current <:+ directory ∧ ∀ q, q <:+ directory → q <:+ current ∨ q ∈ missing
  | .make first children =>
    first <:+ directory ∧ (first ∈ t.visible ∨ first ∈ children) ∧
      ∀ q, q <:+ directory → q <:+ first ∨ q ∈ children ∨ q ∈ t.durable
  | .flush first child children =>
    first <:+ directory ∧ (first ∈ t.visible ∨ first ∈ children) ∧ child ∈ t.visible ∧
      ∀ q, q <:+ directory → q <:+ first ∨ q = child ∨ q ∈ children ∨ q ∈ t.durable
  | .anchor first =>
    first <:+ directory ∧ first ∈ t.visible ∧
      ∀ q, q <:+ directory → q <:+ first ∨ q ∈ t.durable
  | .returned => True
  | .raised => True

/-- Entries never disappear and durable entries stay durable. -/
def Tree.Le (t u : Tree Name) : Prop := t.visible ⊆ u.visible ∧ t.durable ⊆ u.durable

theorem Tree.le_mkdir (t : Tree Name) (p : Path Name) : t.Le (t.mkdir p) :=
  ⟨Finset.subset_insert p t.visible, subset_rfl⟩

theorem Tree.le_fsync (t : Tree Name) (d : Path Name) : t.Le (t.fsync d) :=
  ⟨subset_rfl, Finset.subset_union_left⟩

omit [DecidableEq Name] in
/-- What a call has settled survives the steps of the others. -/
theorem Pc.Inv.mono {t u : Tree Name} (h : t.Le u) {directory : Path Name} {pc : Pc Name}
    (hpc : pc.Inv t directory) : pc.Inv u directory := by
  obtain ⟨hv, hd⟩ := h
  cases pc with
  | probe | returned | raised => exact hpc
  | make first children =>
    obtain ⟨hf, hv', hq⟩ := hpc
    exact ⟨hf, hv'.imp_left (hv ·), fun q h => (hq q h).imp_right (.imp_right (hd ·))⟩
  | flush first child children =>
    obtain ⟨hf, hv', hc, hq⟩ := hpc
    exact ⟨hf, hv'.imp_left (hv ·), hv hc,
      fun q h => (hq q h).imp_right (.imp_right (.imp_right (hd ·)))⟩
  | anchor first =>
    obtain ⟨hf, hv', hq⟩ := hpc
    exact ⟨hf, hv hv', fun q h => (hq q h).imp_right (hd ·)⟩

omit [DecidableEq Name] in
theorem suffix_iff_eq_or_suffix_parent {q p : Path Name} :
    q <:+ p ↔ q = p ∨ q <:+ p.parent := by
  cases p with
  | nil => simp [Path.parent]
  | cons a p => exact List.suffix_cons_iff

theorem anchorDir_eq (directory first : Path Name) : anchorDir directory first = first.parent := by
  unfold anchorDir
  split_ifs with h
  · rfl
  · rw [not_not.1 h]

/-- One system call keeps a call's own account and only adds to the tree. -/
theorem Pc.Inv.step {t u : Tree Name} {directory : Path Name} {ok : Bool} {pc pc' : Pc Name}
    (hpc : pc.Inv t directory) (h : pc.step directory t ok = some (pc', u)) :
    pc'.Inv u directory ∧ t.Le u := by
  cases pc with
  | probe current missing =>
    obtain ⟨hcur, hmiss⟩ := hpc
    simp only [Pc.step] at h
    split_ifs at h with hvis hroot
    · obtain ⟨rfl, rfl⟩ : Pc.make current missing = pc' ∧ t = u := by simpa using h
      refine ⟨⟨hcur, .inl hvis, fun q hq => (hmiss q hq).imp_right .inl⟩, subset_rfl, subset_rfl⟩
    · obtain ⟨rfl, rfl⟩ : Pc.make current (current :: missing) = pc' ∧ t = u := by simpa using h
      refine ⟨⟨hcur, .inr List.mem_cons_self, fun q hq => ?_⟩, subset_rfl, subset_rfl⟩
      exact (hmiss q hq).imp_right fun h => .inl (List.mem_cons_of_mem _ h)
    · obtain ⟨rfl, rfl⟩ : Pc.probe current.parent (current :: missing) = pc' ∧ t = u := by
        simpa using h
      refine ⟨⟨(List.tail_suffix current).trans hcur, fun q hq => ?_⟩, subset_rfl, subset_rfl⟩
      rcases hmiss q hq with h | h
      · rcases suffix_iff_eq_or_suffix_parent.1 h with rfl | h
        · exact .inr List.mem_cons_self
        · exact .inl h
      · exact .inr (List.mem_cons_of_mem _ h)
  | make first children =>
    obtain ⟨hf, hv, hq⟩ := hpc
    cases children with
    | nil =>
      obtain ⟨rfl, rfl⟩ : Pc.anchor first = pc' ∧ t = u := by simpa [Pc.step] using h
      refine ⟨⟨hf, by simpa using hv, fun q h => ?_⟩, subset_rfl, subset_rfl⟩
      simpa using hq q h
    | cons child children =>
      cases ok with
      | false =>
        obtain ⟨rfl, rfl⟩ : Pc.raised = pc' ∧ t = u := by simpa [Pc.step] using h
        exact ⟨trivial, subset_rfl, subset_rfl⟩
      | true =>
        obtain ⟨rfl, rfl⟩ : Pc.flush first child children = pc' ∧ t.mkdir child = u := by
          simpa [Pc.step] using h
        refine ⟨⟨hf, ?_, by simp, fun q h => ?_⟩, t.le_mkdir child⟩
        · rcases hv with hv | hv
          · exact .inl (by simp [hv])
          · rcases List.mem_cons.1 hv with rfl | hv
            · exact .inl (by simp)
            · exact .inr hv
        · rcases hq q h with h | h | h
          · exact .inl h
          · rcases List.mem_cons.1 h with rfl | h
            · exact .inr (.inl rfl)
            · exact .inr (.inr (.inl h))
          · exact .inr (.inr (.inr h))
  | flush first child children =>
    obtain ⟨hf, hv, hc, hq⟩ := hpc
    cases ok with
    | false =>
      obtain ⟨rfl, rfl⟩ : Pc.raised = pc' ∧ t = u := by simpa [Pc.step] using h
      exact ⟨trivial, subset_rfl, subset_rfl⟩
    | true =>
      obtain ⟨rfl, rfl⟩ : Pc.make first children = pc' ∧ t.fsync child.parent = u := by
        simpa [Pc.step] using h
      refine ⟨⟨hf, hv, fun q h => ?_⟩, t.le_fsync child.parent⟩
      rcases hq q h with h | rfl | h | h
      · exact .inl h
      · exact .inr (.inr (Tree.mem_durable_fsync.2 (.inr ⟨hc, rfl⟩)))
      · exact .inr (.inl h)
      · exact .inr (.inr (Tree.mem_durable_fsync.2 (.inl h)))
  | anchor first =>
    cases ok with
    | false =>
      obtain ⟨rfl, rfl⟩ : Pc.raised = pc' ∧ t = u := by simpa [Pc.step] using h
      exact ⟨trivial, subset_rfl, subset_rfl⟩
    | true =>
      obtain ⟨rfl, rfl⟩ : Pc.returned = pc' ∧ t.fsync (anchorDir directory first) = u := by
        simpa [Pc.step] using h
      exact ⟨trivial, t.le_fsync _⟩
  | returned => simp [Pc.step] at h
  | raised => simp [Pc.step] at h

/-- **The last flush.** Everything below the boundary level is durable by then and the flush
settles the boundary level itself, so the path ends up durable exactly when what lies strictly
above that level already was. -/
theorem pathDurable_anchor_iff {t : Tree Name} {directory first : Path Name}
    (h : (Pc.anchor first).Inv t directory) :
    (t.fsync (anchorDir directory first)).PathDurable directory ↔ t.PathDurable first.parent := by
  obtain ⟨hf, hv, hq⟩ := h
  rw [anchorDir_eq]
  constructor
  · intro hdur q hqp
    refine Tree.mem_durable_of_fsync_parent hqp (hdur q ?_)
    exact (hqp.trans (List.tail_suffix first)).trans hf
  · intro habove q hqd
    rcases hq q hqd with h | h
    · rcases suffix_iff_eq_or_suffix_parent.1 h with rfl | h
      · exact Tree.mem_durable_fsync.2 (.inr ⟨hv, rfl⟩)
      · exact Tree.mem_durable_fsync.2 (.inl (habove q h))
    · exact Tree.mem_durable_fsync.2 (.inl h)

/-! ## Runs -/

def Sys.Inv (s : Sys Name) : Prop := ∀ pid c, s.calls pid = some c → c.pc.Inv s.tree c.directory

omit [DecidableEq Name] in
theorem Sys.inv_idle (t : Tree Name) : (Sys.idle t).Inv := fun _ _ h => by simp [Sys.idle] at h

theorem Sys.step_sys_eq_some {s s' : Sys Name} {pid : ℕ} {ok : Bool} :
    s.step (.sys pid ok) = some s' ↔
      ∃ c pc tree, s.calls pid = some c ∧ c.pc.step c.directory s.tree ok = some (pc, tree) ∧
        s' = ⟨tree, Function.update s.calls pid (some { c with pc })⟩ := by
  simp only [Sys.step, Option.bind_eq_bind, Option.bind_eq_some_iff, Prod.exists,
    Option.pure_def, Option.some.injEq]
  constructor
  · rintro ⟨c, hc, pc, tree, h, rfl⟩
    exact ⟨c, pc, tree, hc, h, rfl⟩
  · rintro ⟨c, pc, tree, hc, h, rfl⟩
    exact ⟨c, hc, pc, tree, h, rfl⟩

theorem Sys.Inv.step {s s' : Sys Name} {a : Act Name} (hs : s.Inv) (h : s.step a = some s') :
    s'.Inv := by
  cases a with
  | call pid directory =>
    simp only [Sys.step] at h
    split_ifs at h
    obtain rfl := Option.some.inj h
    intro pid' c hc
    by_cases hp : pid' = pid
    · subst hp
      obtain rfl : (⟨directory, .probe directory []⟩ : Call Name) = c := by simpa using hc
      exact ⟨List.suffix_rfl, fun q hq => .inl hq⟩
    · exact hs pid' c (by simpa [hp] using hc)
  | sys pid ok =>
    obtain ⟨c, pc, tree, hc, hpc, rfl⟩ := Sys.step_sys_eq_some.1 h
    obtain ⟨hinv, hle⟩ := (hs pid c hc).step hpc
    intro pid' c' hc'
    by_cases hp : pid' = pid
    · subst hp
      obtain rfl : { c with pc } = c' := by simpa using hc'
      exact hinv
    · exact (hs pid' c' (by simpa [hp] using hc')).mono hle

/-- If this step makes a call return, every component of its path is durable afterwards. -/
def ReturnsDurable (s : Sys Name) (a : Act Name) : Prop :=
  ∀ pid ok s' directory, a = .sys pid ok → s.step a = some s' →
    s'.calls pid = some ⟨directory, .returned⟩ → s'.tree.PathDurable directory

/-- If this step is the last flush of a call, everything strictly above the boundary level is
durable already. -/
def AnchorSafe (s : Sys Name) (a : Act Name) : Prop :=
  ∀ pid directory first, a = .sys pid true → s.calls pid = some ⟨directory, .anchor first⟩ →
    s.tree.PathDurable first.parent

theorem Pc.step_eq_returned {t u : Tree Name} {directory : Path Name} {ok : Bool} {pc : Pc Name}
    (h : pc.step directory t ok = some (.returned, u)) :
    ∃ first, pc = .anchor first ∧ ok = true ∧ u = t.fsync (anchorDir directory first) := by
  cases pc with
  | probe current missing =>
    simp only [Pc.step] at h
    split_ifs at h <;> simp at h
  | make first children =>
    cases children <;> cases ok <;> simp [Pc.step] at h
  | flush first child children => cases ok <;> simp [Pc.step] at h
  | anchor first =>
    cases ok with
    | false => simp [Pc.step] at h
    | true => exact ⟨first, rfl, rfl, by simpa [Pc.step] using h.symm⟩
  | returned => simp [Pc.step] at h
  | raised => simp [Pc.step] at h

theorem returnsDurable_iff_anchorSafe {s : Sys Name} (hs : s.Inv) (a : Act Name) :
    ReturnsDurable s a ↔ AnchorSafe s a := by
  constructor
  · rintro h pid directory first rfl hc
    have hstep : s.step (.sys pid true) = some ⟨s.tree.fsync (anchorDir directory first),
        Function.update s.calls pid (some ⟨directory, .returned⟩)⟩ :=
      Sys.step_sys_eq_some.2 ⟨_, _, _, hc, rfl, rfl⟩
    exact (pathDurable_anchor_iff (hs pid _ hc)).1 (h pid true _ directory rfl hstep (by simp))
  · rintro h pid ok s' directory rfl hstep hret
    obtain ⟨c, pc, tree, hc, hpc, rfl⟩ := Sys.step_sys_eq_some.1 hstep
    obtain ⟨rfl, rfl⟩ : c.directory = directory ∧ pc = .returned := by simpa using hret
    obtain ⟨first, hfirst, rfl, rfl⟩ := Pc.step_eq_returned hpc
    have hc' : s.calls pid = some ⟨c.directory, .anchor first⟩ := by rw [hc, ← hfirst]
    exact (pathDurable_anchor_iff (hs pid _ hc')).2 (h pid _ first rfl hc')

/-- **When a returned call's path is durable.** In every run, of any number of processes and any
interleaving of their system calls, all calls return with a durable path exactly when each of
them runs its last flush with everything strictly above its boundary level already durable. -/
theorem durable_iff_anchorSafe (t : Tree Name) (acts : List (Act Name)) :
    Always Sys.step ReturnsDurable (Sys.idle t) acts ↔
      Always Sys.step AnchorSafe (Sys.idle t) acts :=
  always_iff_of_inv (fun _ a hs => returnsDurable_iff_anchorSafe hs a)
    (fun _ _ _ hs _ h => hs.step h) (Sys.inv_idle t)

end

/-! ## Two stalled creators -/

/-- A file system that holds only its root. -/
def Tree.empty : Tree ℕ where
  visible := {[]}
  durable := {[]}
  root := by simp
  durable_sub := subset_rfl

/-- Process 0 creates `/0` and stalls before flushing `/`; process 1 creates `/0/1` and stalls
before flushing `/0`; process 2 then makes `/0/1/2` durable, flushing `/0/1` and `/0` only. -/
def stalledCreators : List (Act ℕ) :=
  [.call 0 [0], .sys 0 true, .sys 0 true, .sys 0 true,
   .call 1 [1, 0], .sys 1 true, .sys 1 true, .sys 1 true,
   .call 2 [2, 1, 0], .sys 2 true, .sys 2 true, .sys 2 true, .sys 2 true, .sys 2 true,
   .sys 2 true]

/-- **Two unflushed levels defeat the anchor.** The tree starts with every directory durable,
the third call returns, and the topmost directory it relies on is not durable. -/
theorem stalled_creators_lose_ancestor :
    Tree.empty.Flushed ∧ ∃ s, exec Sys.step (Sys.idle Tree.empty) stalledCreators = some s ∧
      (∃ c, s.calls 2 = some c ∧ c.directory = [2, 1, 0] ∧ c.pc = .returned) ∧
      ¬ s.tree.PathDurable [2, 1, 0] := by
  refine ⟨subset_rfl, _, rfl, ⟨_, rfl, rfl, rfl⟩, fun h => ?_⟩
  exact absurd (h [0] (by decide)) (by decide)

end Lubko.Durable
