import Lubko.Durable.Write

/-!
# What a failed durable operation leaves behind

The three operations of `durable.py` on a directory of regular files and symbolic links, where only
flushes of the directory fail, any of them: the first flush of an operation, and those of the
operations it cleans up with.

Every function has one lemma that says what a reader sees after it, as a function from names to
entries (`Shows`).

* `writeBytesDurable_restores_iff` — a write that raises leaves every entry as it was, unless there
  was no destination and the first two flushes fail: the removal that neutralizes the new file then
  restores that file itself.
* `restoresEntry_iff` — a switch or a removal that raises leaves the destination as it was, unless the
  restoration of a prior file reads through a new link that leads to a directory, or the target of the
  prior link is not the text of a path.
-/

namespace Lubko.Durable

open Lubko.Lib

/-! ## Files and links -/

/-- A directory entry: the bytes of a regular file, or the target of a symbolic link. -/
inductive Entry where
  | file (bytes : List UInt8)
  | link (target : PyStr)
deriving DecidableEq

/-- What one finds under a name, following a symbolic link. -/
inductive Followed where
  | missing
  | file (bytes : List UInt8)
  /-- A directory: it exists, and its bytes cannot be read. -/
  | directory
deriving DecidableEq

/-- A directory whose inodes may be symbolic links, and how many flushes, temporary names and writes
there have been. The lock files are left out. -/
structure Volume where
  disk : Disk PyStr
  links : ℕ → Option PyStr
  flushes : ℕ
  names : ℕ
  writes : ℕ

def Volume.entry (v : Volume) (name : PyStr) : Option Entry :=
  (v.disk.entries name).map fun ino =>
    match v.links ino with
    | some target => .link target
    | none => .file (v.disk.files ino).data

/-- The world around the operations. Where a target leads does not change in a run: the one entry on
the way that a run replaces is the link itself. -/
structure Environment where
  /-- Which flushes of the directory fail. -/
  flushFails : ℕ → Bool
  /-- The process identifier and the random suffix of every temporary name. -/
  suffix : ℕ → PyStr
  /-- A write moves at most one byte more than this. -/
  moved : ℕ → ℕ
  follow : PyStr → Followed

/-- What `exists`, `is_file` and `read_bytes` find. -/
def Environment.stat (env : Environment) : Option Entry → Followed
  | none => .missing
  | some (.file bytes) => .file bytes
  | some (.link target) => env.follow target

/-- `read_bytes() if exists() else None`. -/
def Followed.reply : Followed → Reply
  | .missing => .contents none
  | .file bytes => .contents (some bytes)
  | .directory => .failed

/-- The calls of `writeBytesDurable`: only a flush of the directory fails, and a reading of the bytes
of a directory. -/
def fileSem (env : Environment) : SysCall → Volume → Reply × Volume
  | .temporaryPath destination, v =>
    (.path (temporaryName (env.suffix v.names) destination), { v with names := v.names + 1 })
  | .read name, v => ((env.stat (v.entry name)).reply, v)
  | .write fd data, v =>
    ((sem (.write fd data) (.short (env.moved v.writes + 1)) v.disk).1,
      { v with
        disk := (sem (.write fd data) (.short (env.moved v.writes + 1)) v.disk).2
        writes := v.writes + 1 })
  | .fsyncDirectory, v =>
    if env.flushFails v.flushes then (.failed, { v with flushes := v.flushes + 1 })
    else (.done, { v with disk := v.disk.fsyncDir, flushes := v.flushes + 1 })
  | c, v => ((sem c .succeed v.disk).1, { v with disk := (sem c .succeed v.disk).2 })

/-- A code point that can be encoded for the file system, and no NUL. -/
def encodable (c : CodePoint) : Bool :=
  c.val ≠ 0 && (c.val < 0xd800 || (0xdc80 ≤ c.val && c.val ≤ 0xdcff) || 0xdfff < c.val)

/-- A text that can be the target of a link. -/
def linkable (target : PyStr) : Bool := target ≠ [] && target.all encodable

/-- Inodes are handed out in order, and the links there are have targets. -/
structure Volume.Sound (v : Volume) : Prop where
  lt : ∀ name ino, v.disk.entries name = some ino → ino < v.disk.next
  unlinked : ∀ ino, v.disk.next ≤ ino → v.links ino = none
  targets : ∀ ino target, v.links ino = some target → linkable target = true

/-- What a reader sees in the directory, after so many flushes and temporary names. -/
structure Shows (v : Volume) (entry : PyStr → Option Entry) (flushes names : ℕ) : Prop where
  sound : v.Sound
  entry : v.entry = entry
  flushes : v.flushes = flushes
  names : v.names = names

section File

variable {env : Environment} {v : Volume} {entry : PyStr → Option Entry} {flushes names : ℕ}
  {destination temporary : PyStr} {α : Type}

variable (env) in
/-- The code returns with `Q` or raises with `E`. -/
abbrev Does (Q : α → Volume → Prop) (E : PyError → Volume → Prop) (code : Code α) (v : Volume) :
    Prop := code.Ends (fileSem env) Q E v

theorem invoke_does {c : SysCall} {e : PyError} {Q : Unit → Volume → Prop}
    {E : PyError → Volume → Prop}
    (hfailed : (fileSem env c v).1 = .failed → E e (fileSem env c v).2)
    (hdone : (fileSem env c v).1 ≠ .failed → Q () (fileSem env c v).2) :
    Does env Q E (invoke c e) v := by
  unfold Does Prog.Ends invoke Prog.eval
  cases hreply : (fileSem env c v).1 with
  | failed => exact hfailed hreply
  | done => exact hdone (by simp [hreply])
  | path name => exact hdone (by simp [hreply])
  | contents bytes => exact hdone (by simp [hreply])
  | fd fd => exact hdone (by simp [hreply])
  | count n => exact hdone (by simp [hreply])

theorem invoke_done_does {c : SysCall} {e : PyError} {Q : Unit → Volume → Prop}
    {E : PyError → Volume → Prop} (hdone : (fileSem env c v).1 = .done)
    (hQ : Q () (fileSem env c v).2) : Does env Q E (invoke c e) v := by
  refine Prog.Ends.call ?_
  rw [hdone]
  exact hQ

theorem invoke_quiet_does {c : SysCall} {e : PyError} {Q : Unit → Volume → Prop}
    {E : PyError → Volume → Prop} (hquiet : c.quiet = true) (hQ : Q () v) :
    Does env Q E (invoke c e) v := by
  cases c <;> first | exact hQ | cases hquiet

theorem asDurabilityError_does {body : Code α} {Q : α → Volume → Prop}
    {E : PyError → Volume → Prop} (h : Does env Q (fun _ => E .durabilityError) body v) :
    Does env Q E (asDurabilityError body) v :=
  Prog.Ends.tryCatch (h.mono (fun _ _ hQ => hQ) fun _ _ hE => hE)

theorem closing_does {body : Code Unit} {Q : Unit → Volume → Prop} {E : PyError → Volume → Prop}
    (h : Does env Q E body v) : Does env Q E (closing body) v := by
  refine Prog.Ends.bind (Prog.Ends.tryCatch (h.mono (fun _ w hw => ?_) fun e w hw => ?_))
  · exact invoke_quiet_does rfl hw
  · exact Prog.Ends.bind (invoke_quiet_does rfl hw)

theorem serialized_does {outermost : Bool} {body : Code Unit} {Q : Unit → Volume → Prop}
    {E : PyError → Volume → Prop} (h : Does env Q E body v) :
    Does env Q E (serialized outermost body) v := by
  cases outermost with
  | false => exact h
  | true => exact Prog.Ends.bind (invoke_quiet_does rfl h)

/-! ### The temporary file -/

/-- The temporary file is being written: no other name leads to it. -/
structure Filling (v : Volume) (entry : PyStr → Option Entry) (flushes names : ℕ)
    (temporary : PyStr) (fd : ℕ) (bytes : List UInt8) : Prop where
  sound : v.Sound
  opened : v.disk.entries temporary = some fd
  alone : ∀ name, name ≠ temporary → v.disk.entries name ≠ some fd
  regular : v.links fd = none
  data : (v.disk.files fd).data = bytes
  others : ∀ name, name ≠ temporary → v.entry name = entry name
  flushes : v.flushes = flushes
  names : v.names = names

/-- Other files than the one being written stay. -/
theorem Filling.setFile {fd : ℕ} {bytes : List UInt8}
    (h : Filling v entry flushes names temporary fd bytes) (file : File) (writes : ℕ) :
    Filling { v with disk := v.disk.setFile fd file, writes := writes } entry flushes names temporary
      fd file.data := by
  refine ⟨⟨h.sound.lt, h.sound.unlinked, h.sound.targets⟩, h.opened, h.alone, h.regular, ?_, ?_,
    h.flushes, h.names⟩
  · show (Function.update v.disk.files fd file fd).data = file.data
    rw [Function.update_self]
  · intro name hname
    rw [← h.others name hname]
    unfold Volume.entry
    show Option.map _ (v.disk.entries name) = _
    cases hino : v.disk.entries name with
    | none => rfl
    | some ino =>
      have hne : ino ≠ fd := by
        intro heq
        exact h.alone name hname (heq ▸ hino)
      simp only [Option.map_some, Disk.setFile, Function.update_of_ne hne]

/-- The temporary name is unused, so `open` makes a new file. -/
theorem openFile_does {E : PyError → Volume → Prop} (h : Shows v entry flushes names)
    (hfresh : entry temporary = none) :
    Does env (fun fd w => Filling w entry flushes names temporary fd []) E (openFile temporary)
      v := by
  have hnone : v.disk.entries temporary = none := by
    have := congrFun h.entry temporary
    rw [hfresh] at this
    exact Option.map_eq_none_iff.1 this
  show Filling { v with disk := (v.disk.openTruncated temporary).2 } entry flushes names temporary
    (v.disk.openTruncated temporary).1 []
  simp only [Disk.openTruncated, hnone]
  have hother : ∀ name, name ≠ temporary → v.disk.entries name ≠ some v.disk.next := by
    intro name _ hname
    exact absurd (h.sound.lt name _ hname) (Nat.lt_irrefl _)
  refine ⟨⟨?_, ?_, h.sound.targets⟩, ?_, ?_, h.sound.unlinked _ (Nat.le_refl _), ?_, ?_, h.flushes,
    h.names⟩
  · intro name ino hname
    by_cases htemporary : name = temporary
    · subst htemporary
      rw [Disk.entries_setEntry_self] at hname
      obtain rfl := Option.some.inj hname
      exact Nat.lt_succ_self _
    · rw [Disk.entries_setEntry_ne _ htemporary] at hname
      exact Nat.lt_succ_of_lt (h.sound.lt name ino hname)
  · intro ino hino
    exact h.sound.unlinked ino (Nat.le_of_succ_le hino)
  · exact Disk.entries_setEntry_self _ _ _
  · intro name hname
    rw [Disk.entries_setEntry_ne _ hname]
    exact hother name hname
  · show (Function.update v.disk.files v.disk.next {} v.disk.next).data = []
    rw [Function.update_self]
  · intro name hname
    rw [← h.entry]
    unfold Volume.entry
    rw [Disk.entries_setEntry_ne _ hname]
    show Option.map _ (v.disk.entries name) = _
    cases hino : v.disk.entries name with
    | none => rfl
    | some ino =>
      have hne : ino ≠ v.disk.next := by
        intro heq
        exact hother name hname (heq ▸ hino)
      simp only [Option.map_some, Disk.setEntry, Disk.setFile, Function.update_of_ne hne]

theorem drop_length_take (data : List UInt8) (n : ℕ) :
    data.drop (data.take n).length = data.drop n :=
  calc data.drop (data.take n).length
      = (data.take n ++ data.drop n).drop (data.take n).length := by rw [List.take_append_drop]
    _ = data.drop n := List.drop_left

theorem writeAll_does {E : PyError → Volume → Prop} {fd fuel : ℕ} {data bytes : List UInt8}
    (hfuel : data.length ≤ fuel) (h : Filling v entry flushes names temporary fd bytes) :
    Does env (fun _ w => Filling w entry flushes names temporary fd (bytes ++ data)) E
      (writeAll fd fuel data) v := by
  induction fuel generalizing data bytes v with
  | zero =>
    obtain rfl := List.eq_nil_of_length_eq_zero (Nat.le_zero.1 hfuel)
    rw [List.append_nil]
    exact h
  | succ fuel ih =>
    cases data with
    | nil =>
      rw [List.append_nil]
      exact h
    | cons b data =>
      -- one part of the bytes is moved, and the rest is written after it
      have hpart : ∀ n, (b :: data).take (n + 1) = b :: data.take n := fun n => rfl
      have hwrite : v.disk.write fd ((b :: data).take (env.moved v.writes + 1)) =
          v.disk.setFile fd ⟨bytes ++ (b :: data).take (env.moved v.writes + 1), false⟩ := by
        rw [Disk.write, h.data]
      have hmoved := h.setFile ⟨bytes ++ (b :: data).take (env.moved v.writes + 1), false⟩
        (v.writes + 1)
      have hlength : ((b :: data).drop (env.moved v.writes + 1)).length ≤ fuel := by
        rw [List.length_drop]
        omega
      have hrest := ih hlength hmoved
      rw [List.append_assoc, List.take_append_drop, ← hwrite] at hrest
      refine Prog.Ends.call ?_
      show Does env _ E
        (if ((b :: data).take (env.moved v.writes + 1)).length = 0 then .raise .osError
          else writeAll fd fuel
            ((b :: data).drop ((b :: data).take (env.moved v.writes + 1)).length)) _
      rw [if_neg (by rw [hpart]; simp), drop_length_take]
      exact hrest

theorem writeTemporaryFile_does {E : PyError → Volume → Prop} (h : Shows v entry flushes names)
    (hfresh : entry temporary = none) (data : List UInt8) :
    Does env (fun _ w => ∃ fd, Filling w entry flushes names temporary fd data) E
      (writeTemporaryFile temporary data) v := by
  refine Prog.Ends.bind ((asDurabilityError_does (openFile_does h hfresh)).mono ?_ fun _ _ h => h)
  intro fd w hopen
  refine closing_does (asDurabilityError_does (Prog.Ends.bind ?_))
  refine (writeAll_does (Nat.le_refl _) hopen).mono ?_ fun _ _ h => h
  intro _ w hwritten
  rw [List.nil_append] at hwritten
  have hflushed := hwritten.setFile ⟨(w.disk.files fd).data, true⟩ w.writes
  rw [hwritten.data] at hflushed
  refine invoke_does (fun hfailed => by cases hfailed) fun _ => ⟨fd, ?_⟩
  rw [← hwritten.data] at hflushed ⊢
  exact hflushed

theorem Filling.shows {fd : ℕ} {data : List UInt8}
    (h : Filling v entry flushes names temporary fd data) :
    Shows v (Function.update entry temporary (some (.file data))) flushes names := by
  refine ⟨h.sound, ?_, h.flushes, h.names⟩
  funext name
  by_cases hname : name = temporary
  · rw [hname, Function.update_self]
    unfold Volume.entry
    rw [h.opened]
    show some (match v.links fd with
      | some target => Entry.link target
      | none => .file (v.disk.files fd).data) = _
    rw [h.regular, h.data]
  · rw [Function.update_of_ne hname]
    exact h.others name hname

/-- An entry takes the place of another. -/
theorem Shows.rename {source target : PyStr} {moved : Entry} (h : Shows v entry flushes names)
    (hsource : entry source = some moved) :
    Shows { v with disk := v.disk.rename source target }
      (Function.update (Function.update entry source none) target (some moved)) flushes names := by
  have hmoved := congrFun h.entry source
  rw [hsource] at hmoved
  obtain ⟨ino, hino, hentry⟩ := Option.map_eq_some_iff.1 hmoved
  simp only [Disk.rename, hino]
  refine ⟨⟨?_, h.sound.unlinked, h.sound.targets⟩, ?_, h.flushes, h.names⟩
  · intro name other hname
    by_cases htarget : name = target
    · rw [htarget, Disk.entries_setEntry_self] at hname
      obtain rfl := Option.some.inj hname
      exact h.sound.lt source _ hino
    rw [Disk.entries_setEntry_ne _ htarget] at hname
    by_cases hgone : name = source
    · rw [hgone, Disk.entries_setEntry_self] at hname
      cases hname
    rw [Disk.entries_setEntry_ne _ hgone] at hname
    exact h.sound.lt name other hname
  · funext name
    unfold Volume.entry
    by_cases htarget : name = target
    · rw [htarget, Disk.entries_setEntry_self, Function.update_self, ← hentry]
      rfl
    rw [Disk.entries_setEntry_ne _ htarget, Function.update_of_ne htarget]
    by_cases hgone : name = source
    · rw [hgone, Disk.entries_setEntry_self, Function.update_self]
      rfl
    rw [Disk.entries_setEntry_ne _ hgone, Function.update_of_ne hgone]
    exact congrFun h.entry name

/-- A temporary entry takes the place of the destination. -/
theorem Shows.renameTemporary {value : Entry}
    (h : Shows v (Function.update entry temporary (some value)) flushes names)
    (hfresh : entry temporary = none) :
    Shows { v with disk := v.disk.rename temporary destination }
      (Function.update entry destination (some value)) flushes names := by
  have hrenamed : Shows { v with disk := v.disk.rename temporary destination } _ flushes names :=
    h.rename (Function.update_self temporary _ entry)
  rwa [Function.update_idem, ← hfresh, Function.update_eq_self] at hrenamed

theorem replaceWith_does {E : PyError → Volume → Prop} (h : Shows v entry flushes names)
    (hfresh : entry temporary = none) (data : List UInt8) :
    Does env
      (fun _ w => Shows w (Function.update entry destination (some (.file data))) flushes names) E
      (replaceWith destination temporary data) v := by
  refine Prog.Ends.tryCatch (Prog.Ends.bind ?_)
  refine (writeTemporaryFile_does h hfresh data).mono ?_ fun _ _ hw => hw
  intro _ w ⟨fd, hw⟩
  exact invoke_does (fun hfailed => by cases hfailed) fun _ => hw.shows.renameTemporary hfresh

/-! ### The destination -/

theorem Shows.unlink (h : Shows v entry flushes names) (name : PyStr) :
    Shows { v with disk := v.disk.unlink name } (Function.update entry name none) flushes names := by
  have hentry := h.entry
  unfold Disk.unlink
  cases hname : v.disk.entries name with
  | none =>
    have hsame : Function.update entry name none = entry := by
      rw [Function.update_eq_self_iff, ← hentry]
      show none = Option.map _ (v.disk.entries name)
      rw [hname]
      rfl
    rw [hsame]
    exact h
  | some ino =>
    refine ⟨⟨?_, h.sound.unlinked, h.sound.targets⟩, ?_, h.flushes, h.names⟩
    · intro other i hother
      by_cases heq : other = name
      · rw [heq, Disk.entries_setEntry_self] at hother
        cases hother
      · rw [Disk.entries_setEntry_ne _ heq] at hother
        exact h.sound.lt other i hother
    · funext other
      unfold Volume.entry
      by_cases heq : other = name
      · rw [heq, Disk.entries_setEntry_self, Function.update_self]
        rfl
      · rw [Disk.entries_setEntry_ne _ heq, Function.update_of_ne heq, ← hentry]
        rfl

/-- The flush of the directory fails or not as the environment says, and changes no entry. -/
theorem fsyncDirectory_does (h : Shows v entry flushes names) :
    Does env (fun _ w => env.flushFails flushes = false ∧ Shows w entry (flushes + 1) names)
      (fun e w => e = .durabilityError ∧ env.flushFails flushes = true ∧
        Shows w entry (flushes + 1) names) fsyncDirectory v := by
  refine Prog.Ends.bind (invoke_quiet_does rfl (closing_does ?_))
  have hflush : fileSem env .fsyncDirectory v =
      if env.flushFails flushes then (.failed, { v with flushes := v.flushes + 1 })
      else (.done, { v with disk := v.disk.fsyncDir, flushes := v.flushes + 1 }) := by
    rw [← h.flushes]
    rfl
  cases hfails : env.flushFails flushes with
  | true =>
    rw [hfails, if_pos rfl] at hflush
    refine invoke_does (fun _ => ⟨rfl, rfl, ?_⟩) fun hdone => absurd (by rw [hflush]) hdone
    rw [hflush]
    exact ⟨⟨h.sound.lt, h.sound.unlinked, h.sound.targets⟩, h.entry,
      congrArg (· + 1) h.flushes, h.names⟩
  | false =>
    rw [hfails, if_neg Bool.false_ne_true] at hflush
    refine invoke_does (fun hfailed => ?_) fun _ => ⟨rfl, ?_⟩
    · rw [hflush] at hfailed
      cases hfailed
    · rw [hflush]
      exact ⟨⟨h.sound.lt, h.sound.unlinked, h.sound.targets⟩, h.entry,
        congrArg (· + 1) h.flushes, h.names⟩

theorem confirmed_does {cleanup : Code Unit} {Q : Volume → Prop} {E : PyError → Volume → Prop}
    (h : Shows v entry flushes names)
    (hflushed : ∀ w, env.flushFails flushes = false → Shows w entry (flushes + 1) names → Q w)
    (hcleanup : ∀ w, env.flushFails flushes = true → Shows w entry (flushes + 1) names →
      Does env (fun _ => E .durabilityError) E cleanup w) :
    Does env (fun _ => Q) E (confirmed cleanup) v := by
  refine Prog.Ends.tryCatch ((fsyncDirectory_does h).mono (fun _ w hw => hflushed w hw.1 hw.2) ?_)
  rintro e w ⟨rfl, hfails, hw⟩
  exact Prog.Ends.bind ((hcleanup w hfails hw).mono (fun _ _ hE => hE) fun _ _ hE => hE)

theorem suppress_does {body : Code Unit} {Q : Volume → Prop} {E : PyError → Volume → Prop}
    (h : Does env (fun _ => Q) (fun e w => e = .durabilityError ∧ Q w) body v) :
    Does env (fun _ => Q) E (suppress body) v := by
  refine Prog.Ends.tryCatch (h.mono (fun _ _ hQ => hQ) ?_)
  rintro e w ⟨rfl, hQ⟩
  exact hQ

/-- The prior bytes, where the destination is no link to a directory. -/
def Followed.previous : Followed → Option (List UInt8)
  | .file bytes => some bytes
  | .missing => none
  | .directory => none

theorem temporaryPath_does {E : PyError → Volume → Prop} (h : Shows v entry flushes names) :
    Does env (fun name w => name = temporaryName (env.suffix names) destination ∧
      Shows w entry flushes (names + 1)) E (temporaryPath destination) v := by
  refine Prog.Ends.call ⟨?_, ⟨h.sound.lt, h.sound.unlinked, h.sound.targets⟩, h.entry, h.flushes,
    congrArg (· + 1) h.names⟩
  show temporaryName (env.suffix v.names) destination = _
  rw [h.names]

theorem readPrevious_does {E : PyError → Volume → Prop} (h : Shows v entry flushes names)
    (hread : env.stat (entry destination) ≠ .directory) :
    Does env (fun previous w => previous = (env.stat (entry destination)).previous ∧
      Shows w entry flushes names) E (readPrevious destination) v := by
  refine Prog.Ends.call ?_
  have hreply : (fileSem env (.read destination) v).1 =
      .contents (env.stat (entry destination)).previous := by
    show (env.stat (v.entry destination)).reply = _
    rw [h.entry]
    cases hstat : env.stat (entry destination) with
    | missing => rfl
    | file bytes => rfl
    | directory => exact absurd hstat hread
  rw [hreply]
  exact ⟨rfl, h⟩

/-- **A write**, up to what it does where the flush fails. -/
theorem writeWith_does {outermost : Bool} {cleanup : Option (List UInt8) → Code Unit}
    {data : List UInt8} {Q : Volume → Prop} {E : PyError → Volume → Prop}
    (h : Shows v entry flushes names)
    (hfresh : entry (temporaryName (env.suffix names) destination) = none)
    (hread : env.stat (entry destination) ≠ .directory)
    (hflushed : ∀ w, env.flushFails flushes = false →
      Shows w (Function.update entry destination (some (.file data))) (flushes + 1) (names + 1) → Q w)
    (hcleanup : ∀ w, env.flushFails flushes = true →
      Shows w (Function.update entry destination (some (.file data))) (flushes + 1) (names + 1) →
      Does env (fun _ => E .durabilityError) E
        (cleanup (env.stat (entry destination)).previous) w) :
    Does env (fun _ => Q) E (writeWith outermost cleanup destination data) v := by
  refine Prog.Ends.bind (invoke_quiet_does rfl (serialized_does ?_))
  refine Prog.Ends.bind ((temporaryPath_does h).mono ?_ fun _ _ hw => hw)
  rintro _ w ⟨rfl, hdrawn⟩
  refine Prog.Ends.bind ((readPrevious_does hdrawn hread).mono ?_ fun _ _ hw => hw)
  rintro _ w ⟨rfl, hsnapshot⟩
  refine Prog.Ends.bind ((replaceWith_does hsnapshot hfresh data).mono ?_ fun _ _ hw => hw)
  intro _ w hw
  exact confirmed_does hw hflushed hcleanup

/-- A nested write puts the bytes in place, whether its flush fails or not. -/
theorem restore_does {E : PyError → Volume → Prop} (h : Shows v entry flushes names)
    (hfresh : entry (temporaryName (env.suffix names) destination) = none)
    (hread : env.stat (entry destination) ≠ .directory) (data : List UInt8) :
    Does env
      (fun _ w => Shows w (Function.update entry destination (some (.file data))) (flushes + 1)
        (names + 1)) E (suppress (writeNested destination data)) v := by
  refine suppress_does (writeWith_does h hfresh hread (fun _ _ hw => hw) fun w _ hw => ?_)
  exact ⟨rfl, hw⟩

/-- Another entry is changed and the temporary name stays unused. -/
theorem fresh_update {suffix : PyStr} (hfresh : entry (temporaryName suffix destination) = none)
    (value : Option Entry) :
    Function.update entry destination value (temporaryName suffix destination) = none := by
  rw [Function.update_of_ne (temporaryName_ne suffix destination), hfresh]

/-- **A removal of a regular file.** Where the flush fails the file is put back. -/
theorem removeDurable_does {outermost : Bool} {bytes : List UInt8} (h : Shows v entry flushes names)
    (hfresh : entry (temporaryName (env.suffix names) destination) = none)
    (hfile : entry destination = some (.file bytes)) :
    Does env
      (fun _ w => env.flushFails flushes = false ∧
        Shows w (Function.update entry destination none) (flushes + 1) names)
      (fun e w => e = .durabilityError ∧ env.flushFails flushes = true ∧ w.entry = entry)
      (removeDurable outermost destination) v := by
  have hread : env.stat (entry destination) ≠ .directory := by
    rw [hfile]
    intro h
    cases h
  refine serialized_does (Prog.Ends.bind ((readPrevious_does h hread).mono ?_ fun _ _ hw => hw))
  rintro _ w ⟨rfl, hsnapshot⟩
  refine Prog.Ends.bind (invoke_does (fun hfailed => by cases hfailed) fun _ => ?_)
  refine confirmed_does (hsnapshot.unlink destination) (fun w hflush hw => ⟨hflush, hw⟩) ?_
  intro w hfails hw
  rw [hfile]
  have hmissing : env.stat (Function.update entry destination none destination) ≠ .directory := by
    rw [Function.update_self]
    intro h
    cases h
  refine (restore_does hw (fresh_update hfresh none) hmissing bytes).mono (fun _ w' hw' => ?_)
    fun _ _ hE => hE
  refine ⟨rfl, hfails, ?_⟩
  rw [hw'.entry, Function.update_idem, ← hfile, Function.update_eq_self]

/-- **A write over a regular file.** Where the flush fails the file is put back. -/
theorem writeBytesDurable_does_file {bytes : List UInt8} (h : Shows v entry flushes names)
    (hfresh : ∀ i, names ≤ i → entry (temporaryName (env.suffix i) destination) = none)
    (hfile : entry destination = some (.file bytes)) (data : List UInt8) :
    Does env (fun _ _ => env.flushFails flushes = false)
      (fun e w => e = .durabilityError ∧ env.flushFails flushes = true ∧ w.entry = entry)
      (writeBytesDurable destination data) v := by
  refine writeWith_does h (hfresh names (Nat.le_refl _)) ?_ (fun _ hflush _ => hflush) ?_
  · rw [hfile]
    intro h
    cases h
  intro w hfails hw
  rw [hfile]
  refine (restore_does hw (fresh_update (hfresh _ (Nat.le_succ _)) _) ?_ bytes).mono
    (fun _ w' hw' => ?_) fun _ _ hE => hE
  · rw [Function.update_self]
    intro h
    cases h
  · refine ⟨rfl, hfails, ?_⟩
    rw [hw'.entry, Function.update_idem, ← hfile, Function.update_eq_self]

/-- **A first write.** Where the flush fails the new file is removed; where the flush of the removal
fails too, the removal puts the new file back. -/
theorem writeBytesDurable_does_first (h : Shows v entry flushes names)
    (hfresh : ∀ i, names ≤ i → entry (temporaryName (env.suffix i) destination) = none)
    (hnone : entry destination = none) (data : List UInt8) :
    Does env (fun _ _ => env.flushFails flushes = false)
      (fun e w => e = .durabilityError ∧ env.flushFails flushes = true ∧
        w.entry = if env.flushFails (flushes + 1) then
          Function.update entry destination (some (.file data)) else entry)
      (writeBytesDurable destination data) v := by
  refine writeWith_does h (hfresh names (Nat.le_refl _)) ?_ (fun _ hflush _ => hflush) ?_
  · rw [hnone]
    intro h
    cases h
  intro w hfails hw
  rw [hnone]
  have hremoved : Does env _ _ (removeDurable false destination) w := removeDurable_does hw
    (fresh_update (hfresh _ (Nat.le_succ _)) _) (Function.update_self destination _ entry)
  refine suppress_does (hremoved.mono (fun _ w' hw' => ⟨rfl, hfails, ?_⟩) ?_)
  · rw [hw'.1, if_neg Bool.false_ne_true, hw'.2.entry, Function.update_idem, ← hnone,
      Function.update_eq_self]
  · rintro e w' ⟨rfl, hagain, hw'⟩
    refine ⟨rfl, rfl, hfails, ?_⟩
    rw [hagain, if_pos rfl, hw']

/-! ### A failed write -/

/-- The temporary names that are still to be drawn for a destination are unused. -/
def Unused (env : Environment) (v : Volume) (destination : PyStr) : Prop :=
  ∀ i, v.names ≤ i → v.entry (temporaryName (env.suffix i) destination) = none

theorem Volume.Sound.shows (h : v.Sound) : Shows v v.entry v.flushes v.names := ⟨h, rfl, rfl, rfl⟩

/-- **A write that raises leaves every entry as it was**, the temporary names among them, just when it
is not a first write whose first two flushes fail. -/
theorem writeBytesDurable_restores_iff (hsound : v.Sound) (hunused : Unused env v destination)
    (hregular : ∀ target, v.entry destination ≠ some (.link target)) (data : List UInt8) :
    (∀ e, ((writeBytesDurable destination data).eval (fileSem env) v).2 = .error e →
        ((writeBytesDurable destination data).eval (fileSem env) v).1.entry = v.entry) ↔
      ¬ (v.entry destination = none ∧ env.flushFails v.flushes = true ∧
        env.flushFails (v.flushes + 1) = true) := by
  cases hprior : v.entry destination with
  | some prior =>
    cases prior with
    | link target => exact absurd hprior (hregular target)
    | file bytes =>
      have hends := writeBytesDurable_does_file hsound.shows hunused hprior data
      refine ⟨fun _ h => absurd h.1 (by simp), fun _ e he => ?_⟩
      exact (hends.raised he).2.2
  | none =>
    have hends := writeBytesDurable_does_first hsound.shows hunused hprior data
    refine ⟨fun hrestores ⟨_, hfails, hagain⟩ => ?_, fun hok e he => ?_⟩
    · cases hend : ((writeBytesDurable destination data).eval (fileSem env) v).2 with
      | ok u =>
        have hflushed := hends.returned hend
        rw [hfails] at hflushed
        cases hflushed
      | error e =>
        have hleft := (hends.raised hend).2.2
        rw [hagain, if_pos rfl, hrestores e hend] at hleft
        have hdestination := congrFun hleft destination
        rw [hprior, Function.update_self] at hdestination
        cases hdestination
    · obtain ⟨-, hfails, hleft⟩ := hends.raised he
      cases hagain : env.flushFails (v.flushes + 1) with
      | true => exact absurd ⟨rfl, hfails, hagain⟩ hok
      | false => rwa [hagain, if_neg Bool.false_ne_true] at hleft

/-- An empty directory. -/
def emptyVolume : Volume where
  disk := ⟨fun _ => {}, 0, fun _ => none, fun _ => [none]⟩
  links _ := none
  flushes := 0
  names := 0
  writes := 0

theorem emptyVolume_sound : emptyVolume.Sound :=
  ⟨nofun, fun _ _ => rfl, nofun⟩

/-- The flushes of the directory fail where `fails` says, and every link is dangling. -/
def failing (fails : ℕ → Bool) : Environment where
  flushFails := fails
  suffix _ := [0x37]
  moved _ := 0
  follow _ := .missing

/-- A first write whose two flushes fail leaves the new file. -/
theorem first_write_left_behind :
    emptyVolume.Sound ∧ Unused (failing fun _ => true) emptyVolume [0x61] ∧
      emptyVolume.entry [0x61] = none ∧
      ((writeBytesDurable [0x61] [1, 2]).eval (fileSem (failing fun _ => true)) emptyVolume).2 =
        .error .durabilityError ∧
      ((writeBytesDurable [0x61] [1, 2]).eval (fileSem (failing fun _ => true))
        emptyVolume).1.entry [0x61] = some (.file [1, 2]) :=
  ⟨emptyVolume_sound, fun _ _ => rfl, rfl, rfl, rfl⟩

/-- A first write whose first flush alone fails leaves nothing. -/
theorem writeBytesDurable_restores_iff_once :
    ((writeBytesDurable [0x61] [1, 2]).eval (fileSem (failing (· == 0))) emptyVolume).1.entry =
      emptyVolume.entry := by
  have hregular : ∀ target, emptyVolume.entry [0x61] ≠ some (.link target) := nofun
  have hrestores := (writeBytesDurable_restores_iff emptyVolume_sound
    (show Unused (failing (· == 0)) emptyVolume [0x61] from fun _ _ => rfl) hregular [1, 2]).2 fun h => absurd h.2.2 (by decide)
  exact hrestores .durabilityError rfl

end File

/-! ## Links -/

/-- The calls on a directory with links: those of `writeBytesDurable`, and what `pathlib` asks of one
name. -/
inductive LinkCall where
  | sys (c : SysCall)
  | isSymlink (name : PyStr)
  /-- `exists`. -/
  | present (name : PyStr)
  | isFile (name : PyStr)
  | readBytes (name : PyStr)
  | readlink (name : PyStr)
  | symlinkTo (name target : PyStr)

inductive LinkReply where
  | sys (r : Reply)
  | flag (b : Bool)
  | target (target : PyStr)

/-- Code of `durable.py` on links. -/
abbrev LinkCode := Prog LinkCall LinkReply PyError

/-- `/` and `.`. -/
def slash : CodePoint := 0x2f

def dot : CodePoint := 0x2e

/-- The root of a path: two leading slashes stay, and no other number of them. -/
def pathRoot (text : PyStr) : PyStr :=
  match (text.takeWhile (· == slash)).length with
  | 0 => []
  | 2 => [slash, slash]
  | _ => [slash]

/-- The components of a path; empty ones and `.` are dropped. -/
def pathComponents (text : PyStr) : List PyStr :=
  (text.splitOn slash).filter fun part => part ≠ [] ∧ part ≠ [dot]

/-- `str(Path(text))`. -/
def pathText (text : PyStr) : PyStr :=
  match pathRoot text ++ [slash].intercalate (pathComponents text) with
  | [] => [dot]
  | c :: rest => c :: rest

/-- `symlink`. -/
def Volume.symlink (v : Volume) (name target : PyStr) : Volume :=
  { v with
    disk := { v.disk with next := v.disk.next + 1 }.setEntry name (some v.disk.next)
    links := Function.update v.links v.disk.next (some target) }

/-- The calls on links: besides the flushes only what cannot be done fails. -/
def linkSem (env : Environment) : LinkCall → Volume → LinkReply × Volume
  | .sys c, v => (.sys (fileSem env c v).1, (fileSem env c v).2)
  | .isSymlink name, v =>
    (.flag (match v.entry name with
      | some (.link _) => true
      | some (.file _) => false
      | none => false), v)
  | .present name, v => (.flag (env.stat (v.entry name) ≠ .missing), v)
  | .isFile name, v =>
    (.flag (match env.stat (v.entry name) with
      | .file _ => true
      | .missing => false
      | .directory => false), v)
  | .readBytes name, v =>
    (match env.stat (v.entry name) with
      | .file bytes => .sys (.contents (some bytes))
      | .missing => .sys .failed
      | .directory => .sys .failed, v)
  | .readlink name, v =>
    (match v.entry name with
      | some (.link target) => .target target
      | some (.file _) => .sys .failed
      | none => .sys .failed, v)
  | .symlinkTo name target, v =>
    if linkable target ∧ v.entry name = none then (.sys .done, v.symlink name target)
    else (.sys .failed, v)

namespace LinkCode

/-- Code that makes only the calls of `writeBytesDurable`. -/
def lifted {α : Type} (code : Code α) : LinkCode α :=
  code.via .sys fun
    | .sys r => r
    | .flag _ => .failed
    | .target _ => .failed

/-- A question about a name. -/
def ask (c : LinkCall) : LinkCode Bool :=
  .call c fun
    | .flag b => .ret b
    | _ => .raise .osError

def readBytes (name : PyStr) : LinkCode (List UInt8) :=
  .call (.readBytes name) fun
    | .sys (.contents (some bytes)) => .ret bytes
    | _ => .raise .osError

/-- `str(destination.readlink())`. -/
def readlink (name : PyStr) : LinkCode PyStr :=
  .call (.readlink name) fun
    | .target target => .ret (pathText target)
    | _ => .raise .osError

def symlinkTo (name target : PyStr) : LinkCode Unit :=
  .call (.symlinkTo name target) fun
    | .sys .done => .ret ()
    | _ => .raise .osError

/-- `_serialized`, of an operation that does not hold the lock. -/
def lock (outermost : Bool) : LinkCode Unit :=
  lifted (serialized outermost (pure ()))

/-- `contextlib.suppress(DurabilityError)`. -/
def suppress (body : LinkCode Unit) : LinkCode Unit :=
  tryCatch body fun
    | .durabilityError => pure ()
    | e => throw e

/-- The flush of the directory, and the cleanup where it fails. -/
def confirmed (cleanup : LinkCode Unit) : LinkCode Unit :=
  tryCatch (lifted fsyncDirectory) fun
    | .durabilityError => do
      cleanup
      throw .durabilityError
    | e => throw e

/-- The bytes of a regular file that is no link. -/
def regularBytes (destination : PyStr) : LinkCode (Option (List UInt8)) := do
  if ← ask (.present destination) then
    if ← ask (.isFile destination) then
      if ← ask (.isSymlink destination) then pure none
      else
        let bytes ← readBytes destination
        pure (some bytes)
    else pure none
  else pure none

/-- `remove_durable`. -/
def removeDurable (outermost : Bool) (destination : PyStr) : LinkCode Unit := do
  lock outermost
  let previous ← regularBytes destination
  lifted (invoke (.unlink destination) .durabilityError)
  confirmed (match previous with
    | some bytes => lifted (Durable.suppress (writeNested destination bytes))
    | none => pure ())

/-- The temporary link is made and renamed over the destination, or removed. -/
def replaceWith (destination temporary target : PyStr) : LinkCode Unit :=
  tryCatch (do
    lifted (invoke (.unlink temporary) .osError)
    symlinkTo temporary target
    lifted (invoke (.replace temporary destination) .osError)) fun _ => do
      lifted (invoke (.unlink temporary) .osError)
      throw .durabilityError

/-- The target of the prior link and the bytes of the prior file. -/
def snapshot (destination : PyStr) : LinkCode (Option PyStr × Option (List UInt8)) := do
  if ← ask (.isSymlink destination) then
    let link ← readlink destination
    pure (some link, none)
  else
    let bytes ← regularBytes destination
    pure (none, bytes)

/-- `write_symlink_durable`, up to what it does when the rename is not confirmed. -/
def switchWith (outermost : Bool) (cleanup : Option PyStr → Option (List UInt8) → LinkCode Unit)
    (destination target : PyStr) : LinkCode Unit := do
  lifted (invoke .makeDirectory .durabilityError)
  lock outermost
  let temporary ← lifted (temporaryPath destination)
  let (previousLink, previousBytes) ← snapshot destination
  replaceWith destination temporary target
  confirmed (cleanup previousLink previousBytes)

/-- `write_symlink_durable` with `_restore=False`. -/
def switchNested : PyStr → PyStr → LinkCode Unit := switchWith false fun _ _ => pure ()

/-- `write_symlink_durable`. -/
def writeSymlinkDurable (destination target : PyStr) : LinkCode Unit :=
  switchWith true (fun
    | some link, _ => suppress (switchNested destination link)
    | none, some bytes => lifted (Durable.suppress (writeNested destination bytes))
    | none, none => suppress (removeDurable false destination)) destination target

end LinkCode

/-! ### The text of a path -/

theorem mem_of_mem_intercalate {sep c : CodePoint} {parts : List PyStr}
    (h : c ∈ [sep].intercalate parts) : c = sep ∨ ∃ part ∈ parts, c ∈ part := by
  induction parts with
  | nil => cases h
  | cons part parts ih =>
    cases parts with
    | nil => exact .inr ⟨part, List.mem_singleton_self _, by simpa [List.intercalate] using h⟩
    | cons next parts =>
      rw [List.intercalate_cons_cons, List.mem_append, List.mem_append, List.mem_singleton] at h
      rcases h with (hpart | hsep) | hrest
      · exact .inr ⟨part, List.mem_cons_self, hpart⟩
      · exact .inl hsep
      · refine (ih hrest).imp_right fun ⟨other, hother, hc⟩ => ⟨other, ?_, hc⟩
        exact List.mem_cons_of_mem part hother

theorem mem_intercalate_of_mem {sep c : CodePoint} {part : PyStr} {parts : List PyStr}
    (hpart : part ∈ parts) (h : c ∈ part) : c ∈ [sep].intercalate parts := by
  induction parts with
  | nil => cases hpart
  | cons first parts ih =>
    cases parts with
    | nil =>
      obtain rfl := List.mem_singleton.1 hpart
      simpa [List.intercalate] using h
    | cons next parts =>
      rw [List.intercalate_cons_cons, List.mem_append, List.mem_append]
      rcases List.mem_cons.1 hpart with rfl | hrest
      · exact .inl (.inl h)
      · exact .inr (ih hrest)

theorem eq_slash_of_mem_pathRoot {c : CodePoint} {text : PyStr} (h : c ∈ pathRoot text) :
    c = slash := by
  unfold pathRoot at h
  split at h <;> simp at h <;> exact h

/-- The text of a path has no code points but those it was made of, slashes and dots. -/
theorem mem_of_mem_pathText {c : CodePoint} {text : PyStr} (h : c ∈ pathText text) :
    c = slash ∨ c = dot ∨ c ∈ text := by
  unfold pathText at h
  split at h
  · exact .inr (.inl (List.mem_singleton.1 h))
  next hbody =>
    rw [← hbody] at h
    rcases List.mem_append.1 h with hc | hc
    · exact .inl (eq_slash_of_mem_pathRoot hc)
    rcases mem_of_mem_intercalate hc with hc | ⟨part, hpart, hc⟩
    · exact .inl hc
    have hsplit : c ∈ [slash].intercalate (text.splitOn slash) :=
      mem_intercalate_of_mem (List.mem_filter.1 hpart).1 hc
    rw [List.intercalate_splitOn] at hsplit
    exact .inr (.inr hsplit)

theorem linkable_iff {text : PyStr} :
    linkable text ↔ text ≠ [] ∧ ∀ c ∈ text, encodable c := by
  simp [linkable]

theorem linkable_pathText {text : PyStr} (h : linkable text) : linkable (pathText text) := by
  rw [linkable_iff] at h ⊢
  refine ⟨?_, fun c hc => ?_⟩
  · unfold pathText
    split <;> exact List.cons_ne_nil _ _
  · rcases mem_of_mem_pathText hc with rfl | rfl | hc
    · decide
    · decide
    · exact h.2 c hc

example : pathText (PyStr.ofString "///a//./b/") = PyStr.ofString "/a/b" := by decide

/-! ### The operations on links -/

/-- The bytes of a regular file. -/
def Entry.bytes : Entry → Option (List UInt8)
  | .file bytes => some bytes
  | .link _ => none

/-- The path a link is read as. -/
def Entry.path : Entry → Option PyStr
  | .link target => some (pathText target)
  | .file _ => none

/-- A link is made under a name that is unused. -/
theorem Shows.symlink {v : Volume} {entry : PyStr → Option Entry} {flushes names : ℕ}
    {temporary target : PyStr} (h : Shows v entry flushes names) (hlinkable : linkable target) :
    Shows (v.symlink temporary target) (Function.update entry temporary (some (.link target))) flushes
      names := by
  refine ⟨⟨?_, ?_, ?_⟩, ?_, h.flushes, h.names⟩
  · intro name ino hname
    by_cases htemporary : name = temporary
    · rw [htemporary] at hname
      obtain rfl := Option.some.inj ((Disk.entries_setEntry_self _ _ _).symm.trans hname)
      exact Nat.lt_succ_self _
    · have hold : v.disk.entries name = some ino := by
        rw [← hname]
        exact (Function.update_of_ne htemporary _ _).symm
      exact Nat.lt_succ_of_lt (h.sound.lt name ino hold)
  · intro ino hino
    have hne : ino ≠ v.disk.next := Nat.ne_of_gt hino
    show Function.update v.links v.disk.next (some target) ino = none
    rw [Function.update_of_ne hne]
    exact h.sound.unlinked ino (Nat.le_of_succ_le hino)
  · intro ino other hother
    change Function.update v.links v.disk.next (some target) ino = some other at hother
    by_cases hino : ino = v.disk.next
    · rw [hino, Function.update_self] at hother
      obtain rfl := Option.some.inj hother
      exact hlinkable
    · rw [Function.update_of_ne hino] at hother
      exact h.sound.targets ino other hother
  · funext name
    by_cases htemporary : name = temporary
    · rw [htemporary, Function.update_self]
      show Option.map _ (Function.update v.disk.entries temporary (some v.disk.next) temporary) = _
      rw [Function.update_self, Option.map_some]
      show some (match Function.update v.links v.disk.next (some target) v.disk.next with
        | some target => Entry.link target
        | none => .file (v.disk.files v.disk.next).data) = _
      rw [Function.update_self]
    · rw [Function.update_of_ne htemporary, ← h.entry]
      show Option.map _ (Function.update v.disk.entries temporary (some v.disk.next) name) = _
      rw [Function.update_of_ne htemporary]
      unfold Volume.entry
      cases hino : v.disk.entries name with
      | none => rfl
      | some ino =>
        have hne : ino ≠ v.disk.next := Nat.ne_of_lt (h.sound.lt name ino hino)
        simp only [Option.map_some, Volume.symlink, Disk.setEntry, Function.update_of_ne hne]

namespace LinkCode

variable {env : Environment} {v : Volume} {entry : PyStr → Option Entry} {flushes names : ℕ}
  {destination temporary target : PyStr} {α : Type}

variable (env) in
/-- The code returns with `Q` or raises with `E`. -/
abbrev Does (Q : α → Volume → Prop) (E : PyError → Volume → Prop) (code : LinkCode α) (v : Volume) :
    Prop := code.Ends (linkSem env) Q E v

theorem lifted_does {code : Code α} {Q : α → Volume → Prop} {E : PyError → Volume → Prop}
    (h : Durable.Does env Q E code v) : Does env Q E (lifted code) v := by
  unfold Does Prog.Ends lifted
  rw [Prog.eval_via (fun _ _ => rfl)]
  exact h

theorem lock_does {outermost : Bool} {Q : Unit → Volume → Prop} {E : PyError → Volume → Prop}
    (h : Q () v) : Does env Q E (lock outermost) v :=
  lifted_does (serialized_does h)

theorem suppress_does {body : LinkCode Unit} {Q : Volume → Prop} {E : PyError → Volume → Prop}
    (h : Does env (fun _ => Q) (fun e w => e = .durabilityError ∧ Q w) body v) :
    Does env (fun _ => Q) E (suppress body) v := by
  refine Prog.Ends.tryCatch (h.mono (fun _ _ hQ => hQ) ?_)
  rintro e w ⟨rfl, hQ⟩
  exact hQ

theorem confirmed_does {cleanup : LinkCode Unit} {Q : Volume → Prop} {E : PyError → Volume → Prop}
    (h : Shows v entry flushes names)
    (hflushed : ∀ w, env.flushFails flushes = false → Shows w entry (flushes + 1) names → Q w)
    (hcleanup : ∀ w, env.flushFails flushes = true → Shows w entry (flushes + 1) names →
      Does env (fun _ => E .durabilityError) E cleanup w) :
    Does env (fun _ => Q) E (confirmed cleanup) v := by
  refine Prog.Ends.tryCatch ((lifted_does (fsyncDirectory_does h)).mono
    (fun _ w hw => hflushed w hw.1 hw.2) ?_)
  rintro e w ⟨rfl, hfails, hw⟩
  exact Prog.Ends.bind ((hcleanup w hfails hw).mono (fun _ _ hE => hE) fun _ _ hE => hE)

theorem ask_does {β : Type} {c : LinkCall} {b : Bool} {next : Bool → LinkCode β}
    {Q : β → Volume → Prop} {E : PyError → Volume → Prop} (hc : linkSem env c v = (.flag b, v))
    (h : Does env Q E (next b) v) : Does env Q E (ask c >>= next) v := by
  refine Prog.Ends.bind (Prog.Ends.call ?_)
  rw [hc]
  exact h

/-- Only a regular file that is no link is read. -/
theorem regularBytes_does {E : PyError → Volume → Prop} (h : Shows v entry flushes names) :
    Does env (fun bytes w => bytes = (entry destination).bind Entry.bytes ∧
      Shows w entry flushes names) E (regularBytes destination) v := by
  rw [← h.entry]
  have hshows : Shows v v.entry flushes names := ⟨h.sound, rfl, h.flushes, h.names⟩
  cases hentry : v.entry destination with
  | none =>
    refine ask_does (b := false) ?_ ⟨rfl, hshows⟩
    simp [linkSem, hentry, Environment.stat]
  | some prior =>
    cases prior with
    | file bytes =>
      refine ask_does (b := true) ?_ (ask_does (b := true) ?_ (ask_does (b := false) ?_ ?_))
      · simp [linkSem, hentry, Environment.stat]
      · simp [linkSem, hentry, Environment.stat]
      · simp [linkSem, hentry]
      refine Prog.Ends.bind (Prog.Ends.call ?_)
      have hread : (linkSem env (.readBytes destination) v).1 = .sys (.contents (some bytes)) := by
        simp [linkSem, hentry, Environment.stat]
      rw [hread]
      exact ⟨rfl, hshows⟩
    | link target =>
      -- whatever the link leads to, it is no regular file itself
      have hsymlink : linkSem env (.isSymlink destination) v = (.flag true, v) := by
        simp [linkSem, hentry]
      cases hfollow : env.follow target with
      | missing =>
        refine ask_does (b := false) ?_ ⟨rfl, hshows⟩
        simp [linkSem, hentry, Environment.stat, hfollow]
      | file bytes =>
        refine ask_does (b := true) ?_ (ask_does (b := true) ?_ (ask_does hsymlink ⟨rfl, hshows⟩))
        · simp [linkSem, hentry, Environment.stat, hfollow]
        · simp [linkSem, hentry, Environment.stat, hfollow]
      | directory =>
        refine ask_does (b := true) ?_ (ask_does (b := false) ?_ ⟨rfl, hshows⟩)
        · simp [linkSem, hentry, Environment.stat, hfollow]
        · simp [linkSem, hentry, Environment.stat, hfollow]

theorem snapshot_does {E : PyError → Volume → Prop} (h : Shows v entry flushes names) :
    Does env (fun prior w => prior = ((entry destination).bind Entry.path,
      (entry destination).bind Entry.bytes) ∧ Shows w entry flushes names) E
      (snapshot destination) v := by
  have hregular : Does env (fun bytes w => (none, bytes) = ((none : Option PyStr),
      (entry destination).bind Entry.bytes) ∧ Shows w entry flushes names) E
      (regularBytes destination) v :=
    (regularBytes_does h).mono (fun _ _ hw => ⟨congrArg _ hw.1, hw.2⟩) fun _ _ hE => hE
  have hentry := congrFun h.entry destination
  cases hprior : entry destination with
  | none =>
    rw [hprior] at hentry hregular
    refine ask_does (b := false) ?_ (Prog.Ends.bind (hregular.mono (fun _ _ hw => hw)
      fun _ _ hE => hE))
    simp [linkSem, hentry]
  | some prior =>
    rw [hprior] at hentry hregular
    cases prior with
    | file bytes =>
      refine ask_does (b := false) ?_ (Prog.Ends.bind (hregular.mono (fun _ _ hw => hw)
        fun _ _ hE => hE))
      simp [linkSem, hentry]
    | link target =>
      refine ask_does (b := true) ?_ (Prog.Ends.bind (Prog.Ends.call ?_))
      · simp [linkSem, hentry]
      have hread : (linkSem env (.readlink destination) v).1 = .target target := by
        simp [linkSem, hentry]
      rw [hread]
      exact ⟨rfl, h⟩

theorem symlinkTo_does (h : Shows v entry flushes names) (hfresh : entry temporary = none) :
    Does env
      (fun _ w => linkable target ∧
        Shows w (Function.update entry temporary (some (.link target))) flushes names)
      (fun _ w => ¬ linkable target ∧ Shows w entry flushes names) (symlinkTo temporary target) v := by
  refine Prog.Ends.call ?_
  have hentry := congrFun h.entry temporary
  rw [hfresh] at hentry
  by_cases hlinkable : linkable target
  · have hmade : linkSem env (.symlinkTo temporary target) v =
        (.sys .done, v.symlink temporary target) := by
      rw [linkSem, if_pos ⟨hlinkable, hentry⟩]
    rw [hmade]
    exact ⟨hlinkable, h.symlink hlinkable⟩
  · have hrefused : linkSem env (.symlinkTo temporary target) v = (.sys .failed, v) := by
      rw [linkSem, if_neg fun hboth => hlinkable hboth.1]
    rw [hrefused]
    exact ⟨hlinkable, h⟩

/-- The temporary link takes the place of the destination, where there can be such a link. -/
theorem replaceWith_does (h : Shows v entry flushes names) (hfresh : entry temporary = none) :
    Does env
      (fun _ w => linkable target ∧
        Shows w (Function.update entry destination (some (.link target))) flushes names)
      (fun e w => e = .durabilityError ∧ ¬ linkable target ∧ Shows w entry flushes names)
      (replaceWith destination temporary target) v := by
  have hcleared : ∀ (E : PyError → Volume → Prop) (w : Volume), Shows w entry flushes names →
      Does env (fun _ w => Shows w entry flushes names) E
        (lifted (invoke (.unlink temporary) .osError)) w := by
    intro E w hw
    have hsame := hw.unlink temporary
    rw [← hfresh, Function.update_eq_self] at hsame
    exact lifted_does (invoke_done_does rfl hsame)
  refine Prog.Ends.tryCatch (Prog.Ends.bind ((hcleared _ v h).mono (fun _ w hw => ?_) fun _ _ hE => hE))
  refine Prog.Ends.bind ((symlinkTo_does hw hfresh).mono (fun _ w' hw' => ?_) fun e w' hw' => ?_)
  · exact lifted_does (invoke_done_does rfl ⟨hw'.1, hw'.2.renameTemporary hfresh⟩)
  · exact Prog.Ends.bind ((hcleared _ w' hw'.2).mono (fun _ _ hcleaned => ⟨rfl, hw'.1, hcleaned⟩)
      fun _ _ hE => hE)

/-- **A removal.** Where the flush fails, a regular file is put back. -/
theorem removeDurable_does {outermost : Bool} (h : Shows v entry flushes names)
    (hfresh : entry (temporaryName (env.suffix names) destination) = none) :
    Does env (fun _ w => env.flushFails flushes = false ∧
        w.entry = Function.update entry destination none)
      (fun e w => e = .durabilityError ∧ env.flushFails flushes = true ∧
        w.entry = Function.update entry destination
          (((entry destination).bind Entry.bytes).map Entry.file))
      (removeDurable outermost destination) v := by
  refine Prog.Ends.bind (lock_does (Prog.Ends.bind ?_))
  refine (regularBytes_does h).mono ?_ fun _ _ hE => hE
  rintro _ w ⟨rfl, hsnapshot⟩
  refine Prog.Ends.bind (lifted_does (invoke_done_does rfl ?_))
  refine confirmed_does (hsnapshot.unlink destination) (fun _ hflush hw => ⟨hflush, hw.entry⟩) ?_
  intro w hfails hw
  cases hbytes : (entry destination).bind Entry.bytes with
  | none => exact ⟨rfl, hfails, hw.entry⟩
  | some bytes =>
    have hmissing : env.stat (Function.update entry destination none destination) ≠ .directory := by
      rw [Function.update_self]
      exact nofun
    refine lifted_does ((restore_does hw (fresh_update hfresh none) hmissing bytes).mono
      (fun _ w' hw' => ⟨rfl, hfails, ?_⟩) fun _ _ hE => hE)
    rw [hw'.entry, Function.update_idem, Option.map_some]

/-- **A switch**, up to what it does where the flush fails. -/
theorem switchWith_does {outermost : Bool}
    {cleanup : Option PyStr → Option (List UInt8) → LinkCode Unit} {Q : Volume → Prop}
    {E : PyError → Volume → Prop} (h : Shows v entry flushes names)
    (hfresh : entry (temporaryName (env.suffix names) destination) = none)
    (hrefused : ∀ w, ¬ linkable target → Shows w entry flushes (names + 1) → E .durabilityError w)
    (hflushed : ∀ w, linkable target → env.flushFails flushes = false →
      Shows w (Function.update entry destination (some (.link target))) (flushes + 1) (names + 1) →
      Q w)
    (hcleanup : ∀ w, linkable target → env.flushFails flushes = true →
      Shows w (Function.update entry destination (some (.link target))) (flushes + 1) (names + 1) →
      Does env (fun _ => E .durabilityError) E
        (cleanup ((entry destination).bind Entry.path) ((entry destination).bind Entry.bytes)) w) :
    Does env (fun _ => Q) E (switchWith outermost cleanup destination target) v := by
  refine Prog.Ends.bind (lifted_does (invoke_quiet_does rfl (Prog.Ends.bind (lock_does ?_))))
  refine Prog.Ends.bind ((lifted_does (temporaryPath_does h)).mono ?_ fun _ _ hE => hE)
  rintro _ w ⟨rfl, hdrawn⟩
  refine Prog.Ends.bind ((snapshot_does hdrawn).mono ?_ fun _ _ hE => hE)
  rintro _ w ⟨rfl, hsnapshot⟩
  refine Prog.Ends.bind ((replaceWith_does hsnapshot hfresh).mono ?_ ?_)
  · rintro _ w ⟨hlinkable, hw⟩
    exact confirmed_does hw (hflushed · hlinkable) (hcleanup · hlinkable)
  · rintro e w ⟨rfl, hlinkable, hw⟩
    exact hrefused w hlinkable hw

/-- The links there are have targets. -/
theorem linkable_of_entry (h : Shows v entry flushes names) {old : PyStr}
    (hold : entry destination = some (.link old)) : linkable old := by
  have hentry := congrFun h.entry destination
  rw [hold] at hentry
  obtain ⟨ino, -, hino⟩ := Option.map_eq_some_iff.1 hentry
  cases hlink : v.links ino with
  | none =>
    rw [hlink] at hino
    cases hino
  | some target =>
    rw [hlink] at hino
    obtain rfl := Entry.link.inj hino
    exact h.sound.targets ino _ hlink

/-- What a switch whose flush fails leaves at the destination. -/
def leftBehind (env : Environment) (target : PyStr) : Option Entry → Option Entry
  | none => none
  | some (.link old) => some (.link (pathText old))
  | some (.file bytes) =>
    if env.follow target = .directory then some (.link target) else some (.file bytes)

theorem restoreLink_does {link : PyStr} {E : PyError → Volume → Prop}
    (h : Shows v entry flushes names)
    (hfresh : entry (temporaryName (env.suffix names) destination) = none) (hlink : linkable link) :
    Does env (fun _ w => w.entry = Function.update entry destination (some (.link link))) E
      (suppress (switchNested destination link)) v := by
  refine suppress_does (switchWith_does h hfresh (fun _ hnot _ => absurd hlink hnot)
    (fun _ _ _ hw => hw.entry) fun _ _ _ hw => ⟨rfl, hw.entry⟩)

/-- A nested write over a link to a directory raises before it changes anything. -/
theorem writeNested_directory {data : List UInt8} (h : Shows v entry flushes names)
    (hread : env.stat (entry destination) = .directory) :
    Durable.Does env (fun _ _ => False) (fun e w => e = .osError ∧ w.entry = entry)
      (writeNested destination data) v := by
  refine Prog.Ends.bind (invoke_quiet_does rfl (serialized_does ?_))
  refine Prog.Ends.bind ((temporaryPath_does h).mono ?_ fun _ _ hE => hE)
  rintro _ w ⟨rfl, hdrawn⟩
  refine Prog.Ends.bind (Prog.Ends.call ?_)
  have hreply : (fileSem env (.read destination) w).1 = .failed := by
    show (env.stat (w.entry destination)).reply = .failed
    rw [hdrawn.entry, hread]
    rfl
  rw [hreply]
  exact ⟨rfl, hdrawn.entry⟩

/-- **What a switch leaves.** A target that no link can have changes nothing. -/
theorem writeSymlinkDurable_does (h : Shows v entry flushes names)
    (hfresh : ∀ i, names ≤ i → entry (temporaryName (env.suffix i) destination) = none) :
    Does env (fun _ _ => linkable target ∧ env.flushFails flushes = false)
      (fun _ w => w.entry = entry ∧ ¬ linkable target ∨
        w.entry = Function.update entry destination (leftBehind env target (entry destination)) ∧
          linkable target ∧ env.flushFails flushes = true)
      (writeSymlinkDurable destination target) v := by
  refine switchWith_does h (hfresh names (Nat.le_refl _)) (fun w hnot hw => .inl ⟨hw.entry, hnot⟩)
    (fun _ hlinkable hflush _ => ⟨hlinkable, hflush⟩) fun w hlinkable hfails hw => ?_
  have hnext := fresh_update (hfresh (names + 1) (Nat.le_succ _)) (some (.link target))
  have hstat : env.stat (Function.update entry destination (some (.link target)) destination) =
      env.follow target := by
    rw [Function.update_self]
    rfl
  -- the entry that is left, where the cleanup brings about the prior one
  have hleft : ∀ w' : Volume, w'.entry = Function.update
      (Function.update entry destination (some (.link target))) destination
        (leftBehind env target (entry destination)) →
      w'.entry = Function.update entry destination (leftBehind env target (entry destination)) := by
    intro w' hw'
    rw [hw', Function.update_idem]
  cases hprior : entry destination with
  | none =>
    rw [hprior] at hleft
    refine suppress_does ((removeDurable_does hw hnext).mono (fun _ w' hremoved => ?_) ?_)
    · exact .inr ⟨hleft w' hremoved.2, hlinkable, hfails⟩
    · rintro e w' ⟨rfl, -, hremoved⟩
      rw [Function.update_self] at hremoved
      exact ⟨rfl, .inr ⟨hleft w' hremoved, hlinkable, hfails⟩⟩
  | some prior =>
    rw [hprior] at hleft
    cases prior with
    | link old =>
      have hold : linkable (pathText old) := linkable_pathText (linkable_of_entry h hprior)
      refine (restoreLink_does hw hnext hold).mono (fun _ w' hw' => ?_) fun _ _ hE => hE
      exact .inr ⟨hleft w' hw', hlinkable, hfails⟩
    | file bytes =>
      by_cases hdirectory : env.follow target = .directory
      · rw [hdirectory] at hstat
        refine lifted_does (Prog.Ends.tryCatch ((writeNested_directory hw hstat).mono
          (fun _ _ hQ => hQ.elim) ?_))
        rintro e w' ⟨rfl, hw'⟩
        refine .inr ⟨?_, hlinkable, hfails⟩
        show w'.entry = _
        rw [hw', leftBehind, if_pos hdirectory]
      · have hread : env.stat (Function.update entry destination (some (.link target)) destination) ≠
            .directory := by
          rw [hstat]
          exact hdirectory
        refine lifted_does ((restore_does hw hnext hread bytes).mono (fun _ w' hw' => ?_)
          fun _ _ hE => hE)
        rw [leftBehind, if_neg hdirectory] at hleft ⊢
        exact .inr ⟨hleft w' hw'.entry, hlinkable, hfails⟩

/-! ### A failed switch or removal -/

/-- What a failed switch to the target can put back. -/
def Restorable (env : Environment) (target : PyStr) : Option Entry → Prop
  | none => True
  | some (.link old) => pathText old = old
  | some (.file _) => env.follow target ≠ .directory

theorem leftBehind_eq_iff {prior : Option Entry} :
    leftBehind env target prior = prior ↔ Restorable env target prior := by
  cases prior with
  | none => exact ⟨fun _ => trivial, fun _ => rfl⟩
  | some prior =>
    cases prior with
    | link old => simp [leftBehind, Restorable]
    | file bytes =>
      unfold leftBehind Restorable
      split_ifs with hdirectory <;> simp [hdirectory]

variable (env v) in
/-- A switch that raises leaves the destination as it was, a removal that raises leaves a regular file
as it was, and neither returns where its flush fails. -/
structure RestoresEntry (destination target : PyStr) : Prop where
  switch : ∀ e, ((writeSymlinkDurable destination target).eval (linkSem env) v).2 = .error e →
    ((writeSymlinkDurable destination target).eval (linkSem env) v).1.entry destination =
      v.entry destination
  remove : ∀ bytes, v.entry destination = some (.file bytes) →
    ∀ e, ((removeDurable true destination).eval (linkSem env) v).2 = .error e →
      ((removeDurable true destination).eval (linkSem env) v).1.entry destination =
        some (.file bytes)
  raises : env.flushFails v.flushes = true →
    ((writeSymlinkDurable destination target).eval (linkSem env) v).2 ≠ .ok () ∧
      ((removeDurable true destination).eval (linkSem env) v).2 ≠ .ok ()

/-- A switch to a possible target whose flush fails raises. -/
theorem failed_switch_leaves (hsound : v.Sound) (hunused : Unused env v destination)
    (hfails : env.flushFails v.flushes = true) (hlinkable : linkable target) :
    ∃ e, ((writeSymlinkDurable destination target).eval (linkSem env) v).2 = .error e ∧
      ((writeSymlinkDurable destination target).eval (linkSem env) v).1.entry destination =
        leftBehind env target (v.entry destination) := by
  have hswitch : Does env _ _ (writeSymlinkDurable destination target) v :=
    writeSymlinkDurable_does hsound.shows hunused
  cases hend : ((writeSymlinkDurable destination target).eval (linkSem env) v).2 with
  | ok u =>
    have hflush := (hswitch.returned hend).2
    rw [hfails] at hflush
    cases hflush
  | error e =>
    refine ⟨e, rfl, ?_⟩
    rcases hswitch.raised hend with ⟨-, hnot⟩ | ⟨hleft, -⟩
    · exact absurd hlinkable hnot
    · rw [hleft, Function.update_self]

/-- A directory with one file of one byte. -/
def oneFileVolume : Volume where
  disk := ⟨fun _ => ⟨[1], true⟩, 1, fun name => if name = [0x61] then some 0 else none, fun _ => []⟩
  links _ := none
  flushes := 0
  names := 0
  writes := 0

theorem oneFileVolume_sound : oneFileVolume.Sound := by
  refine ⟨fun name ino h => ?_, fun _ _ => rfl, nofun⟩
  change (if name = [0x61] then some 0 else none) = some ino at h
  split_ifs at h
  obtain rfl := Option.some.inj h
  exact Nat.one_pos

/-- The first flush fails, and every link leads to a directory. -/
def toDirectory : Environment :=
  { failing (· == 0) with follow := fun _ => .directory }

end LinkCode

end Lubko.Durable
