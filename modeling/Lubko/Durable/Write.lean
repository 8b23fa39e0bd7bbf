import Lubko.Lib.CrashProgram
import Lubko.Lib.Disk
import Lubko.Lib.PyStr

/-!
# Crash-durable writes

`write_bytes_durable` writes a temporary file, flushes it, renames it over the destination and flushes
the directory. When that last flush cannot be confirmed, it puts the previous contents back the same
way, or removes the destination where there were none; both attempts may fail in turn.

The program is run call by call. Every call may fail, a write may move any part of what it is given,
and a run of any length is the program up to a crash.

* `writeBytesDurable_keeps` — whatever whole values a crash could leave at the destination before, it
  leaves one of those or the new data, at every call.
* `write_crash_atomic` — a crash leaves the old contents or the new ones, and after a return the new.
-/

namespace Lubko.Durable

open Lubko.Lib

/-! ## System calls -/

/-- The calls of `durable.py` on the directory of the destination. Descriptors are inodes. -/
inductive SysCall where
  /-- `make_directory_durable`, which changes no entry of the directory itself. -/
  | makeDirectory
  /-- `os.open` and `flock` of the lock file. -/
  | lock
  | temporaryPath (destination : PyStr)
  /-- `exists` and `read_bytes`. -/
  | read (name : PyStr)
  | openFile (name : PyStr)
  | write (fd : ℕ) (data : List UInt8)
  | fsync (fd : ℕ)
  | close
  | replace (source target : PyStr)
  /-- `unlink(missing_ok=True)`. -/
  | unlink (name : PyStr)
  | openDirectory
  | fsyncDirectory

inductive Reply where
  | done
  | failed
  | path (name : PyStr)
  | contents (bytes : Option (List UInt8))
  | fd (fd : ℕ)
  | count (n : ℕ)

/-- What the environment decides about a call. -/
inductive Decision where
  | succeed
  | fail
  /-- `os.write` moves at most this many bytes. -/
  | short (n : ℕ)
  /-- The process identifier and the random suffix of a temporary name. -/
  | suffix (s : PyStr)

/-- `DURABLE_TEMP_PREFIX`, the suffix and the name of the destination. -/
def temporaryName (suffix destination : PyStr) : PyStr :=
  PyStr.ofString ".lubko-durable-" ++ suffix ++ PyStr.ofString "-" ++ destination

/-- What a call does to the directory; one that fails does nothing. A flush that fails after the fact
only rules out some of what a crash could leave. -/
def sem : SysCall → Decision → Disk PyStr → Reply × Disk PyStr
  | _, .fail, d => (.failed, d)
  | .temporaryPath destination, .suffix s, d => (.path (temporaryName s destination), d)
  | .temporaryPath destination, _, d => (.path (temporaryName [] destination), d)
  | .read name, _, d => (.contents (d.contents name), d)
  | .openFile name, _, d => (.fd (d.openTruncated name).1, (d.openTruncated name).2)
  | .write fd data, .short n, d => (.count (data.take n).length, d.write fd (data.take n))
  | .write fd data, _, d => (.count data.length, d.write fd data)
  | .fsync fd, _, d => (.done, d.fsync fd)
  | .replace source target, _, d => (.done, d.rename source target)
  | .unlink name, _, d => (.done, d.unlink name)
  | .fsyncDirectory, _, d => (.done, d.fsyncDir)
  | .makeDirectory, _, d => (.done, d)
  | .lock, _, d => (.done, d)
  | .close, _, d => (.done, d)
  | .openDirectory, _, d => (.done, d)

/-! ## The operations -/

inductive PyError where
  | osError
  | durabilityError

/-- Code of `durable.py`. -/
abbrev Code := Prog SysCall Reply PyError

/-- A call without a result, and what is raised when it fails. -/
def invoke (c : SysCall) (e : PyError) : Code Unit :=
  .call c fun
    | .failed => .raise e
    | _ => .ret ()

/-- `_write_all`: every write that succeeds moves at least one byte. -/
def writeAll (fd : ℕ) : ℕ → List UInt8 → Code Unit
  | _, [] => .ret ()
  | 0, _ :: _ => .ret ()
  | fuel + 1, b :: data =>
    .call (.write fd (b :: data)) fun
      | .count n => if n = 0 then .raise .osError else writeAll fd fuel ((b :: data).drop n)
      | _ => .raise .osError

/-- `except OSError as exc: raise DurabilityError from exc`. -/
def asDurabilityError {α : Type} (body : Code α) : Code α :=
  tryCatch body fun _ => throw .durabilityError

/-- `finally: os.close(fd)`. -/
def closing (body : Code Unit) : Code Unit := do
  tryCatch body fun e => do
    invoke .close .osError
    throw e
  invoke .close .osError

/-- `os.open(..., os.O_WRONLY | os.O_CREAT | os.O_TRUNC)`. -/
def openFile (name : PyStr) : Code ℕ :=
  .call (.openFile name) fun
    | .fd fd => .ret fd
    | _ => .raise .osError

/-- `_write_temporary_file`. -/
def writeTemporaryFile (temporary : PyStr) (data : List UInt8) : Code Unit := do
  let fd ← asDurabilityError (openFile temporary)
  closing (asDurabilityError do
    writeAll fd data.length data
    invoke (.fsync fd) .osError)

/-- `fsync_directory`. -/
def fsyncDirectory : Code Unit := do
  invoke .openDirectory .durabilityError
  closing (invoke .fsyncDirectory .durabilityError)

/-- `_serialized`; a nested operation on the same path holds the lock already. -/
def serialized (outermost : Bool) (body : Code Unit) : Code Unit := do
  if outermost then invoke .lock .durabilityError
  body

/-- `temporary_path`. -/
def temporaryPath (destination : PyStr) : Code PyStr :=
  .call (.temporaryPath destination) fun
    | .path name => .ret name
    | _ => .raise .osError

/-- The prior bytes of the destination. -/
def readPrevious (destination : PyStr) : Code (Option (List UInt8)) :=
  .call (.read destination) fun
    | .contents bytes => .ret bytes
    | _ => .raise .osError

/-- The temporary file is written and renamed over the destination, or removed. -/
def replaceWith (destination temporary : PyStr) (data : List UInt8) : Code Unit :=
  tryCatch (do
    writeTemporaryFile temporary data
    invoke (.replace temporary destination) .osError) fun _ => do
      invoke (.unlink temporary) .osError
      throw .durabilityError

/-- The flush of the directory; where it is not confirmed, the cleanup runs and the error is raised
all the same. -/
def confirmed (cleanup : Code Unit) : Code Unit :=
  tryCatch fsyncDirectory fun
    | .durabilityError => do
      cleanup
      throw .durabilityError
    | e => throw e

/-- `write_bytes_durable`, up to what it does when the rename is not confirmed. -/
def writeWith (outermost : Bool) (cleanup : Option (List UInt8) → Code Unit) (destination : PyStr)
    (data : List UInt8) : Code Unit := do
  invoke .makeDirectory .durabilityError
  serialized outermost do
    let temporary ← temporaryPath destination
    let previous ← readPrevious destination
    replaceWith destination temporary data
    confirmed (cleanup previous)

/-- `contextlib.suppress(DurabilityError)`. -/
def suppress (body : Code Unit) : Code Unit :=
  tryCatch body fun
    | .durabilityError => pure ()
    | e => throw e

/-- `write_bytes_durable` with `_restore=False`, within another operation on the path. -/
def writeNested : PyStr → List UInt8 → Code Unit := writeWith false fun _ => pure ()

/-- `remove_durable`. -/
def removeDurable (outermost : Bool) (destination : PyStr) : Code Unit :=
  serialized outermost do
    let previous ← readPrevious destination
    invoke (.unlink destination) .durabilityError
    confirmed (match previous with
      | some bytes => suppress (writeNested destination bytes)
      | none => pure ())

/-- `write_bytes_durable`. -/
def writeBytesDurable (destination : PyStr) (data : List UInt8) : Code Unit :=
  writeWith true (fun
    | some bytes => suppress (writeNested destination bytes)
    | none => suppress (removeDurable false destination)) destination data

/-! ## What a crash can leave at the destination -/

theorem temporaryName_ne (suffix destination : PyStr) :
    temporaryName suffix destination ≠ destination := by
  intro h
  have hlength := congrArg List.length h
  simp only [temporaryName, List.length_append] at hlength
  have hprefix : (PyStr.ofString ".lubko-durable-").length = 15 := rfl
  omega

section Safe

variable {P : Option (List UInt8) → Prop} {destination temporary : PyStr} {d : Disk PyStr}
  {α : Type} {Q : α → Disk PyStr → Prop}

variable (P destination) in
/-- The code keeps the destination at every call and when it raises, and returns with `Q`. -/
abbrev Keeps (Q : α → Disk PyStr → Prop) (code : Code α) (d : Disk PyStr) : Prop :=
  code.Safe sem (fun d => d.Kept P destination) Q (fun _ d => d.Kept P destination) d

/-- Only a call that is made to fail fails, and then it does nothing. -/
theorem sem_failed {c : SysCall} {o : Decision} (h : (sem c o d).1 = .failed) :
    (sem c o d).2 = d := by
  cases o with
  | fail => rfl
  | succeed => cases c <;> cases h
  | short n => cases c <;> cases h
  | suffix s => cases c <;> cases h

theorem invoke_keeps {c : SysCall} {e : PyError} {Q : Unit → Disk PyStr → Prop}
    (h : d.Kept P destination) (hdone : ∀ o, (sem c o d).1 ≠ .failed → Q () (sem c o d).2) :
    Keeps P destination Q (invoke c e) d := by
  refine ⟨h, fun o => ?_⟩
  have hQ := hdone o
  have hsame := sem_failed (c := c) (o := o) (d := d)
  cases hreply : (sem c o d).1 with
  | failed =>
    rw [hsame hreply]
    exact h
  | done => exact hQ (by simp [hreply])
  | path name => exact hQ (by simp [hreply])
  | contents bytes => exact hQ (by simp [hreply])
  | fd fd => exact hQ (by simp [hreply])
  | count n => exact hQ (by simp [hreply])

/-- The calls that leave the directory alone. -/
def SysCall.quiet : SysCall → Bool
  | .makeDirectory | .lock | .close | .openDirectory => true
  | _ => false

theorem invoke_quiet {c : SysCall} {e : PyError} {Q : Unit → Disk PyStr → Prop}
    (hquiet : c.quiet = true) (h : d.Kept P destination) (hQ : Q () d) :
    Keeps P destination Q (invoke c e) d := by
  refine invoke_keeps h fun o _ => ?_
  have hsame : (sem c o d).2 = d := by
    cases c <;> cases o <;> first | rfl | cases hquiet
  rw [hsame]
  exact hQ

theorem asDurabilityError_keeps {body : Code α} (h : Keeps P destination Q body d) :
    Keeps P destination Q (asDurabilityError body) d :=
  Prog.Safe.tryCatch (h.mono (fun _ _ hQ => hQ) fun _ _ hkept => hkept)

theorem closing_keeps {Q : Unit → Disk PyStr → Prop} {body : Code Unit}
    (hQ : ∀ d, Q () d → d.Kept P destination) (h : Keeps P destination Q body d) :
    Keeps P destination Q (closing body) d := by
  refine Prog.Safe.bind (Prog.Safe.tryCatch (h.mono (fun _ d hd => ?_) fun e d hkept => ?_))
  · exact invoke_quiet rfl (hQ d hd) hd
  · exact Prog.Safe.bind (invoke_quiet rfl hkept hkept)

theorem serialized_keeps {Q : Unit → Disk PyStr → Prop} {outermost : Bool} {body : Code Unit}
    (hkept : d.Kept P destination) (h : Keeps P destination Q body d) :
    Keeps P destination Q (serialized outermost body) d := by
  cases outermost with
  | false => exact h
  | true => exact Prog.Safe.bind (invoke_quiet rfl hkept h)

/-! ### The temporary file -/

/-- The temporary file holds these bytes, and a crash cannot find it at the destination. -/
structure Writing (P : Option (List UInt8) → Prop) (destination temporary : PyStr) (fd : ℕ)
    (bytes : List UInt8) (d : Disk PyStr) : Prop where
  kept : d.Kept P destination
  entry : d.entries temporary = some fd
  data : (d.files fd).data = bytes

theorem openFile_keeps (hne : temporary ≠ destination) (h : d.Kept P destination) :
    Keeps P destination (fun fd d => Writing P destination temporary fd [] d) (openFile temporary)
      d := by
  obtain ⟨hkept, hentry, hdata⟩ := h.openTruncated hne
  refine ⟨h, fun o => ?_⟩
  cases o with
  | fail => exact h
  | succeed => exact ⟨hkept, hentry, hdata⟩
  | short n => exact ⟨hkept, hentry, hdata⟩
  | suffix s => exact ⟨hkept, hentry, hdata⟩

theorem Writing.write {fd : ℕ} {bytes : List UInt8} (hne : temporary ≠ destination)
    (h : Writing P destination temporary fd bytes d) (more : List UInt8) :
    Writing P destination temporary fd (bytes ++ more) (d.write fd more) := by
  refine ⟨h.kept.setFile (h.kept.alone temporary hne fd h.entry) _, h.entry, ?_⟩
  show (Function.update d.files fd _ fd).data = _
  rw [Function.update_self, h.data]

theorem writeAll_keeps {fd : ℕ} (hne : temporary ≠ destination) {fuel : ℕ} {data bytes : List UInt8}
    (hfuel : data.length ≤ fuel) (h : Writing P destination temporary fd bytes d) :
    Keeps P destination (fun _ d => Writing P destination temporary fd (bytes ++ data) d)
      (writeAll fd fuel data) d := by
  induction fuel generalizing data bytes d with
  | zero =>
    obtain rfl := List.eq_nil_of_length_eq_zero (Nat.le_zero.1 hfuel)
    rw [List.append_nil]
    exact h
  | succ fuel ih =>
    cases data with
    | nil =>
      rw [List.append_nil]
      exact h
    | cons b data =>
      -- whatever part of the bytes the call moves, the rest is written after it
      have hmoved : ∀ part rest, part ++ rest = b :: data → part ≠ [] →
          Keeps P destination
            (fun _ d => Writing P destination temporary fd (bytes ++ (b :: data)) d)
            (if part.length = 0 then .raise .osError
              else writeAll fd fuel ((b :: data).drop part.length)) (d.write fd part) := by
        intro part rest hsplit hpart
        rw [if_neg (by simpa using hpart), ← hsplit, List.drop_left, ← List.append_assoc]
        refine ih ?_ (h.write hne part)
        have hlength := congrArg List.length hsplit
        have hpos := List.length_pos_iff.2 hpart
        rw [List.length_append] at hlength
        omega
      refine ⟨h.kept, fun o => ?_⟩
      cases o with
      | fail => exact h.kept
      | succeed => exact hmoved (b :: data) [] (List.append_nil _) (by simp)
      | suffix s => exact hmoved (b :: data) [] (List.append_nil _) (by simp)
      | short n =>
        by_cases hnone : (b :: data).take n = []
        · show Keeps P destination _ (if ((b :: data).take n).length = 0 then _ else _) _
          rw [if_pos (by rw [hnone]; rfl)]
          exact (h.write hne ((b :: data).take n)).kept
        · exact hmoved ((b :: data).take n) ((b :: data).drop n) (List.take_append_drop _ _) hnone

/-- The temporary file is complete and flushed. -/
theorem writeTemporaryFile_keeps (hne : temporary ≠ destination) (data : List UInt8)
    (h : d.Kept P destination) :
    Keeps P destination (fun _ d => ∃ fd, Writing P destination temporary fd data d ∧
      (d.files fd).flushed = true) (writeTemporaryFile temporary data) d := by
  refine Prog.Safe.bind ((asDurabilityError_keeps (openFile_keeps hne h)).mono ?_ fun _ _ h => h)
  intro fd d hopen
  refine closing_keeps (fun d ⟨_, hd, _⟩ => hd.kept) (asDurabilityError_keeps (Prog.Safe.bind ?_))
  refine (writeAll_keeps hne (Nat.le_refl _) hopen).mono ?_ fun _ _ h => h
  intro _ d hwritten
  refine invoke_keeps hwritten.kept fun o ho => ?_
  have hflushed : ∃ fd', Writing P destination temporary fd' data (d.fsync fd) ∧
      ((d.fsync fd).files fd').flushed = true := by
    refine ⟨fd, ⟨hwritten.kept.setFile (hwritten.kept.alone temporary hne fd hwritten.entry) _,
      hwritten.entry, ?_⟩, ?_⟩
    · show (Function.update d.files fd _ fd).data = data
      rw [Function.update_self]
      exact hwritten.data
    · show (Function.update d.files fd _ fd).flushed = true
      rw [Function.update_self]
  cases o with
  | fail => exact absurd rfl ho
  | succeed => exact hflushed
  | short n => exact hflushed
  | suffix s => exact hflushed

/-! ### The destination -/

/-- The destination holds the data, whole. -/
structure Replaced (P : Option (List UInt8) → Prop) (destination : PyStr) (data : List UInt8)
    (d : Disk PyStr) : Prop where
  kept : d.Kept P destination
  contents : d.contents destination = some data

theorem replaceWith_keeps (hne : temporary ≠ destination) {data : List UInt8} (hP : P (some data))
    (h : d.Kept P destination) :
    Keeps P destination (fun _ d => Replaced P destination data d)
      (replaceWith destination temporary data) d := by
  have hbody : Keeps P destination (fun _ d => Replaced P destination data d) (do
      writeTemporaryFile temporary data
      invoke (.replace temporary destination) .osError) d := by
    refine Prog.Safe.bind ((writeTemporaryFile_keeps hne data h).mono ?_ fun _ _ hkept => hkept)
    intro _ d ⟨fd, hwritten, hflushed⟩
    refine invoke_keeps hwritten.kept fun o ho => ?_
    obtain ⟨hkept, hentry, hfiles⟩ := hwritten.kept.rename hne hwritten.entry hflushed
      (by rw [hwritten.data]; exact hP)
    have hreplaced : Replaced P destination data (d.rename temporary destination) := by
      refine ⟨hkept, ?_⟩
      rw [Disk.contents, hentry, Option.map_some, hfiles, hwritten.data]
    cases o with
    | fail => exact absurd rfl ho
    | succeed => exact hreplaced
    | short n => exact hreplaced
    | suffix s => exact hreplaced
  refine Prog.Safe.tryCatch (hbody.mono (fun _ _ hd => hd) fun e d hkept => ?_)
  refine Prog.Safe.bind (invoke_keeps hkept fun o ho => ?_)
  cases o with
  | fail => exact absurd rfl ho
  | succeed => exact hkept.unlink hne
  | short n => exact hkept.unlink hne
  | suffix s => exact hkept.unlink hne

/-- After the directory is flushed, the destination keeps its contents over a crash. -/
def Confirmed (P : Option (List UInt8) → Prop) (destination : PyStr)
    (contents : Option (List UInt8)) (d : Disk PyStr) : Prop :=
  d.Kept P destination ∧ ∀ value, d.CrashValue destination value → value = contents

/-- The flush of the directory, with a cleanup that keeps the destination. -/
theorem confirmed_keeps {cleanup : Code Unit} (h : d.Kept P destination)
    (hcleanup : ∀ d, d.Kept P destination →
      Keeps P destination (fun _ d => d.Kept P destination) cleanup d) :
    Keeps P destination (fun _ d' => Confirmed P destination (d.contents destination) d')
      (confirmed cleanup) d := by
  have hflush : Keeps P destination
      (fun _ d' => Confirmed P destination (d.contents destination) d') fsyncDirectory d := by
    refine Prog.Safe.bind (invoke_quiet rfl h (closing_keeps (fun d hd => hd.1) ?_))
    refine invoke_keeps h fun o ho => ?_
    have hflushed : Confirmed P destination (d.contents destination) d.fsyncDir :=
      ⟨h.fsyncDir, fun value hvalue => h.fsyncDir_crashValue hvalue⟩
    cases o with
    | fail => exact absurd rfl ho
    | succeed => exact hflushed
    | short n => exact hflushed
    | suffix s => exact hflushed
  refine Prog.Safe.tryCatch (hflush.mono (fun _ _ hd => hd) fun e d hkept => ?_)
  cases e with
  | osError => exact hkept
  | durabilityError =>
    exact Prog.Safe.bind ((hcleanup d hkept).mono (fun _ _ hd => hd) fun _ _ hd => hd)

theorem suppress_keeps {body : Code Unit}
    (h : Keeps P destination (fun _ d => d.Kept P destination) body d) :
    Keeps P destination (fun _ d => d.Kept P destination) (suppress body) d := by
  refine Prog.Safe.tryCatch (h.mono (fun _ _ hd => hd) fun e d hkept => ?_)
  cases e with
  | osError => exact hkept
  | durabilityError => exact hkept

theorem temporaryPath_keeps {Q : PyStr → Disk PyStr → Prop} (h : d.Kept P destination)
    (hQ : ∀ name, name ≠ destination → Q name d) :
    Keeps P destination Q (temporaryPath destination) d := by
  refine ⟨h, fun o => ?_⟩
  cases o with
  | fail => exact h
  | succeed => exact hQ _ (temporaryName_ne _ _)
  | short n => exact hQ _ (temporaryName_ne _ _)
  | suffix s => exact hQ _ (temporaryName_ne _ _)

theorem readPrevious_keeps {Q : Option (List UInt8) → Disk PyStr → Prop} (h : d.Kept P destination)
    (hQ : Q (d.contents destination) d) : Keeps P destination Q (readPrevious destination) d := by
  refine ⟨h, fun o => ?_⟩
  cases o with
  | fail => exact h
  | succeed => exact hQ
  | short n => exact hQ
  | suffix s => exact hQ

/-- **A write of a whole value of the kind `P`**, with a cleanup that keeps the destination for every
previous value of the kind. -/
theorem writeWith_keeps {outermost : Bool} {cleanup : Option (List UInt8) → Code Unit}
    {data : List UInt8} (hP : P (some data)) (h : d.Kept P destination)
    (hcleanup : ∀ previous, P previous → ∀ d, d.Kept P destination →
      Keeps P destination (fun _ d => d.Kept P destination) (cleanup previous) d) :
    Keeps P destination (fun _ d => Confirmed P destination (some data) d)
      (writeWith outermost cleanup destination data) d := by
  refine Prog.Safe.bind (invoke_quiet rfl h (serialized_keeps h ?_))
  refine Prog.Safe.bind (temporaryPath_keeps h fun temporary hne => ?_)
  refine Prog.Safe.bind (readPrevious_keeps h ?_)
  refine Prog.Safe.bind ((replaceWith_keeps hne hP h).mono ?_ fun _ _ hd => hd)
  intro _ d' hreplaced
  have hconfirmed := confirmed_keeps hreplaced.kept (hcleanup (d.contents destination) h.contents)
  rw [hreplaced.contents] at hconfirmed
  exact hconfirmed

theorem writeNested_keeps {data : List UInt8} (hP : P (some data)) (h : d.Kept P destination) :
    Keeps P destination (fun _ d => Confirmed P destination (some data) d)
      (writeNested destination data) d :=
  writeWith_keeps hP h fun _ _ _ hkept => hkept

theorem restore_keeps {data : List UInt8} (hP : P (some data)) (h : d.Kept P destination) :
    Keeps P destination (fun _ d => d.Kept P destination) (suppress (writeNested destination data))
      d :=
  suppress_keeps ((writeNested_keeps hP h).mono (fun _ _ hd => hd.1) fun _ _ hd => hd)

/-- The removal of a destination that may be missing. -/
theorem removeDurable_keeps {outermost : Bool} (hP : P none) (h : d.Kept P destination) :
    Keeps P destination (fun _ d => d.Kept P destination) (removeDurable outermost destination)
      d := by
  refine serialized_keeps h (Prog.Safe.bind (readPrevious_keeps h ?_))
  refine Prog.Safe.bind (invoke_keeps h fun o ho => ?_)
  have hprevious := h.contents
  have hconfirm : ∀ d', d'.Kept P destination →
      Keeps P destination (fun _ d => d.Kept P destination)
        (confirmed (match d.contents destination with
          | some bytes => suppress (writeNested destination bytes)
          | none => pure ())) d' := by
    intro d' hd'
    refine (confirmed_keeps hd' fun d'' hd'' => ?_).mono (fun _ _ hd => hd.1) fun _ _ hd => hd
    cases hcontents : d.contents destination with
    | none => exact hd''
    | some bytes =>
      rw [hcontents] at hprevious
      exact restore_keeps hprevious hd''
  cases o with
  | fail => exact absurd rfl ho
  | succeed => exact hconfirm _ (h.unlinkOwn hP)
  | short n => exact hconfirm _ (h.unlinkOwn hP)
  | suffix s => exact hconfirm _ (h.unlinkOwn hP)

/-- **A durable write keeps whole values at the destination**, through every way it can fail and be
cleaned up, and confirms the new one when it returns. -/
theorem writeBytesDurable_keeps {data : List UInt8} (hP : P (some data)) (h : d.Kept P destination) :
    Keeps P destination (fun _ d => Confirmed P destination (some data) d)
      (writeBytesDurable destination data) d := by
  refine writeWith_keeps hP h fun previous hprevious d hkept => ?_
  cases previous with
  | some bytes => exact restore_keeps hprevious hkept
  | none => exact suppress_keeps (removeDurable_keeps hprevious hkept)

end Safe

/-! ## Crash atomicity -/

/-- The destination has these contents, flushed and with its entry; every name has its own file. -/
structure Settled (d : Disk PyStr) (destination : PyStr) (contents : Option (List UInt8)) : Prop where
  linked : d.Linked
  contents : d.contents destination = contents
  flushed : ∀ ino, d.entries destination = some ino → (d.files ino).flushed = true
  stored : d.stored destination = [d.entries destination]

theorem Settled.kept {d : Disk PyStr} {destination : PyStr} {old : Option (List UInt8)}
    {P : Option (List UInt8) → Prop} (h : Settled d destination old) (hP : P old) :
    d.Kept P destination := by
  refine ⟨h.linked, fun entry hentry => ?_, ?_, fun other hother ino hino hmem => ?_,
    fun ino hino => ?_⟩
  · rw [h.stored] at hentry
    obtain rfl := List.mem_singleton.1 hentry
    rw [← h.contents] at hP
    unfold Disk.contents at hP
    cases he : d.entries destination with
    | none =>
      rw [he] at hP
      exact hP
    | some ino =>
      rw [he] at hP
      exact ⟨h.flushed ino he, hP⟩
  · rw [h.stored]
    exact List.mem_singleton_self _
  · rw [h.stored] at hmem
    exact hother (h.linked.injective other destination ino hino (List.mem_singleton.1 hmem).symm)
  · rw [h.stored] at hino
    exact h.linked.lt destination ino (List.mem_singleton.1 hino).symm

/-- **A crash leaves the old contents or the new data, and after a return the new data.** The calls of
the write fail, or move part of what they are given, as the decisions say; after the last one there is
a crash. -/
theorem write_crash_atomic {d : Disk PyStr} {destination : PyStr} {old : Option (List UInt8)}
    (h : Settled d destination old) (data : List UInt8) (decisions : List Decision) :
    (∀ value, ((writeBytesDurable destination data).run sem decisions d).1.CrashValue destination
        value → value = old ∨ value = some data) ∧
      (((writeBytesDurable destination data).run sem decisions d).2 = .returned () →
        ∀ value, ((writeBytesDurable destination data).run sem decisions d).1.CrashValue destination
          value → value = some data) := by
  have hkept : d.Kept (fun value => value = old ∨ value = some data) destination :=
    h.kept (.inl rfl)
  have hsafe := (writeBytesDurable_keeps (.inr rfl) hkept).sound (fun _ _ hd => hd.1)
    (fun _ _ hd => hd) decisions
  refine ⟨fun value hvalue => hsafe.1.crashValue hvalue, fun hreturned value hvalue => ?_⟩
  exact (hsafe.2 () hreturned).2 value hvalue

/-- A directory that holds one flushed file of one byte. -/
def oneByteDisk : Disk PyStr where
  files _ := ⟨[1], true⟩
  next := 1
  entries name := if name = PyStr.ofString "state.json" then some 0 else none
  stored name := [if name = PyStr.ofString "state.json" then some 0 else none]

/-- The bytes are written one at a time. -/
def shortWrites : List Decision :=
  [.succeed, .succeed, .suffix [0x37], .succeed, .succeed, .short 1, .short 1, .succeed, .succeed,
    .succeed, .succeed, .succeed, .succeed]

theorem write_crash_atomic_short :
    Settled oneByteDisk (PyStr.ofString "state.json") (some [1]) ∧
      ((writeBytesDurable (PyStr.ofString "state.json") [2, 3]).run sem shortWrites oneByteDisk).2 =
        .returned () ∧
      ∀ value, ((writeBytesDurable (PyStr.ofString "state.json") [2, 3]).run sem shortWrites
        oneByteDisk).1.CrashValue (PyStr.ofString "state.json") value → value = some [2, 3] := by
  have hsettled : Settled oneByteDisk (PyStr.ofString "state.json") (some [1]) := by
    refine ⟨⟨?_, ?_⟩, rfl, fun _ _ => rfl, rfl⟩
    · intro name ino h
      unfold oneByteDisk at h
      dsimp only at h
      split_ifs at h
      obtain rfl := Option.some.inj h
      exact Nat.one_pos
    · intro name other ino h h'
      unfold oneByteDisk at h h'
      dsimp only at h h'
      split_ifs at h h' with hname hother
      rw [hname, hother]
  have hreturned : ((writeBytesDurable (PyStr.ofString "state.json") [2, 3]).run sem shortWrites
      oneByteDisk).2 = .returned () := rfl
  exact ⟨hsettled, hreturned, (write_crash_atomic hsettled [2, 3] shortWrites).2 hreturned⟩

end Lubko.Durable
