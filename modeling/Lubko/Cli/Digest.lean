import Lubko.Lib.Frames
import Lubko.Lib.FsText

/-!
# The digest of a runtime tree

`_runtime_content_digest` of `cli.py` lists a tree, sorts what it found by relative path, and hashes
one stream: for every entry its path, its kind, and what the kind has, each behind its length. The
manifest at the root is left out, write bits are masked, and links are not followed.

A tree here is what the process finds of it. A file that cannot be opened has no content, and a
directory that is not `listed` raises an `OSError` when it is listed or its entries are inspected.
The tree does not change while it is read, and the file system encoding is UTF-8.

* `digestInput_eq` — the stream from the entries of the tree, with the write bits masked.
* `runtimeContentDigest_chmodTree` — write bits do not matter.
-/

namespace Lubko.Cli.Digest

open Lubko.Lib

/-! ## Trees -/

/-- The exceptions of a digest. -/
inductive Raised where
  | osError
  | recursionError
  | unicodeEncodeError
  | overflowError
  deriving DecidableEq

/-- A name in a directory. -/
structure FileName where
  bytes : List UInt8
  nonempty : bytes ≠ []
  noSlash : 0x2f ∉ bytes
  deriving DecidableEq

/-- The name as `os.scandir` gives it. -/
def FileName.text (name : FileName) : PyStr := fsdecode name.bytes

/-- `st_mode & 0o777`. -/
abbrev Mode := BitVec 9

/-- `_WRITE_BITS`. -/
def writeBits : Mode := 0o222

/-- `stat.S_IWUSR`. -/
def ownerWrite : Mode := 0o200

/-- The mode of an entry, and whether the process may change it. -/
structure Perm where
  mode : Mode
  owned : Bool

/-- An entry of a directory, and what is below it. -/
inductive Node where
  | file (perm : Perm) (content : Option (List UInt8))
  | link (target : List UInt8)
  | dir (perm : Perm) (listed : Bool) (entries : List (FileName × Node))
  | other (perm : Perm)

/-- The directory of a runtime. Like those of every directory, the names of its entries are
distinct. -/
structure Tree where
  perm : Perm
  listed : Bool
  entries : List (FileName × Node)
  distinct : (entries.map Prod.fst).Nodup

/-- `RUNTIME_MANIFEST_NAME`. -/
def runtimeManifestName : PyStr := PyStr.ofString "lubko-runtime.json"

/-! ## The digest -/

/-- What `os.lstat` tells of an entry, with the content a read finds. -/
inductive Entry where
  | file (mode : Mode) (content : Option (List UInt8))
  | link (target : List UInt8)
  | dir (listed : Bool)
  | other (mode : Mode)
  deriving DecidableEq

def Node.entry : Node → Entry
  | .file perm content => .file perm.mode content
  | .link target => .link target
  | .dir _ listed _ => .dir listed
  | .other perm => .other perm.mode

/-- The relative path of an entry. -/
def relOf (pre : PyStr) (name : FileName) : PyStr :=
  if pre = [] then name.text else pre ++ PyStr.ofString "/" ++ name.text

mutual

/-- `_collect`, with room for `stack` calls below this one. -/
def collect (stack : ℕ) (pre : PyStr) :
    List (FileName × Node) → Except Raised (List (PyStr × Entry))
  | [] => .ok []
  | (name, node) :: rest =>
    if pre = [] ∧ name.text = runtimeManifestName then collect stack pre rest
    else do
      let below ← collectBelow stack (relOf pre name) node
      let others ← collect stack pre rest
      return (relOf pre name, node.entry) :: below ++ others

/-- The call of `_collect` for an entry that is a directory. -/
def collectBelow (stack : ℕ) (rel : PyStr) : Node → Except Raised (List (PyStr × Entry))
  | .dir _ listed entries =>
    match stack with
    | 0 => .error .recursionError
    | stack + 1 => if listed then collect stack rel entries else .error .osError
  | .file _ _ => .ok []
  | .link _ => .ok []
  | .other _ => .ok []

end

/-- SHA-256. -/
structure Sha256 where
  digest : List UInt8 → List UInt8
  length_digest : ∀ data, (digest data).length = 32

/-- What `update` gives to the hasher. -/
def update (data : List UInt8) : Except Raised (List UInt8) :=
  if Framed data then .ok (frame data) else .error .overflowError

/-- `text.encode("utf-8")`. -/
def encodeText (text : PyStr) : Except Raised (List UInt8) :=
  match text.encode? with
  | some bytes => .ok bytes
  | none => .error .unicodeEncodeError

/-- `(mode & ~_WRITE_BITS & 0o777).to_bytes(2, "big")`. -/
def modeBytes (mode : Mode) : List UInt8 := bigEndian 2 (mode &&& ~~~writeBits).toNat

/-- `_file_content_digest`. -/
def fileContentDigest (sha : Sha256) : Option (List UInt8) → Except Raised (List UInt8)
  | some data => .ok (sha.digest data)
  | none => .error .osError

/-- What one entry adds to the stream. -/
def contribution (sha : Sha256) (row : PyStr × Entry) : Except Raised (List UInt8) := do
  let rel ← encodeText row.1 >>= update
  match row.2 with
  | .file mode content =>
    let kind ← update [0x66]
    let bits ← update (modeBytes mode)
    let hash ← fileContentDigest sha content >>= update
    return rel ++ kind ++ bits ++ hash
  | .link target =>
    let kind ← update [0x6c]
    let target ← encodeText (fsdecode target) >>= update
    return rel ++ kind ++ target
  | .dir _ =>
    let kind ← update [0x64]
    return rel ++ kind
  | .other mode =>
    let kind ← update [0x6f]
    let bits ← update (modeBytes mode)
    return rel ++ kind ++ bits

/-- The stream that is hashed. -/
def digestInput (sha : Sha256) (stack : ℕ) (t : Tree) : Except Raised (List UInt8) := do
  if t.listed = false then throw .osError
  let entries ← collect stack [] t.entries
  let parts ← (entries.mergeSort fun a b => a.1 ≤ b.1).mapM (contribution sha)
  return parts.flatten

/-- `_runtime_content_digest`. -/
def runtimeContentDigest (sha : Sha256) (stack : ℕ) (t : Tree) : Except Raised (List UInt8) :=
  (digestInput sha stack t).map sha.digest

/-! ## Write bits -/

/-- `path.chmod(...)` with an `OSError` suppressed. -/
def Perm.chmod (f : Mode → Mode) (p : Perm) : Perm :=
  if p.owned then { p with mode := f p.mode } else p

mutual

/-- The changes of one walk to the entries of a directory. -/
def chmodEntries (f : Mode → Mode) : List (FileName × Node) → List (FileName × Node)
  | [] => []
  | (name, node) :: rest => (name, node.chmodTree f) :: chmodEntries f rest

/-- The changes of one walk to an entry. No link is changed, and the walk passes over a directory
that is not listed. -/
def Node.chmodTree (f : Mode → Mode) : Node → Node
  | .file perm content => .file (perm.chmod f) content
  | .link target => .link target
  | .dir perm listed entries =>
    .dir (perm.chmod f) listed (if listed then chmodEntries f entries else entries)
  | .other perm => .other (perm.chmod f)

end

theorem map_fst_chmodEntries (f : Mode → Mode) (entries : List (FileName × Node)) :
    (chmodEntries f entries).map Prod.fst = entries.map Prod.fst := by
  induction entries with
  | nil => rfl
  | cons x entries ih => rw [chmodEntries, List.map_cons, List.map_cons, ih]

/-- One walk over a tree. A directory is changed under its name and again when it is entered; here
it is changed once, since the second change finds nothing to do. -/
def Tree.chmodTree (f : Mode → Mode) (t : Tree) : Tree :=
  if t.listed then
    { perm := t.perm.chmod f, listed := t.listed, entries := chmodEntries f t.entries,
      distinct := by
        rw [map_fst_chmodEntries]
        exact t.distinct }
  else t

/-- `_seal_tree`. -/
def sealTree (t : Tree) : Tree := t.chmodTree (· &&& ~~~writeBits)

/-- `_unseal_tree`. -/
def unsealTree (t : Tree) : Tree := t.chmodTree (· ||| ownerWrite)

def isReadOnly (mode : Mode) : Bool := mode &&& writeBits = 0

mutual

/-- `_tree_is_read_only` on the entries of a directory. -/
def entriesReadOnly : List (FileName × Node) → Bool
  | [] => true
  | (_, node) :: rest => node.readOnly && entriesReadOnly rest

/-- `_tree_is_read_only` on an entry. -/
def Node.readOnly : Node → Bool
  | .file perm _ => isReadOnly perm.mode
  | .link _ => true
  | .dir perm listed entries => isReadOnly perm.mode && (!listed || entriesReadOnly entries)
  | .other perm => isReadOnly perm.mode

end

/-- `_tree_is_read_only`. -/
def treeIsReadOnly (t : Tree) : Bool :=
  !t.listed || (isReadOnly t.perm.mode && entriesReadOnly t.entries)

/-! ## What the digest is about -/

/-- The entry without its write bits. -/
def Entry.masked : Entry → Entry
  | .file mode content => .file (mode &&& ~~~writeBits) content
  | .link target => .link target
  | .dir listed => .dir listed
  | .other mode => .other (mode &&& ~~~writeBits)

mutual

/-- The entries below a directory with their paths, but for the manifest at the root. -/
def listing (path : List FileName) : List (FileName × Node) → List (List FileName × Entry)
  | [] => []
  | (name, node) :: rest =>
    if path = [] ∧ name.text = runtimeManifestName then listing path rest
    else (path ++ [name], node.entry) :: node.inside (path ++ [name]) ++ listing path rest

/-- The entries below an entry. -/
def Node.inside (path : List FileName) : Node → List (List FileName × Entry)
  | .dir _ _ entries => listing path entries
  | .file _ _ => []
  | .link _ => []
  | .other _ => []

end

def maskEntry (x : List FileName × Entry) : List FileName × Entry := (x.1, x.2.masked)

/-- The entries of a runtime without their write bits. -/
def Tree.shown (t : Tree) : List (List FileName × Entry) := (listing [] t.entries).map maskEntry

/-- Two trees agree below the root and apart from the manifest: on every relative path, on what
stands there, on contents and targets, and on the permissions but for the write bits. -/
def Agree (t t' : Tree) : Prop := ∀ x, x ∈ t.shown ↔ x ∈ t'.shown

@[simp] theorem masked_masked (e : Entry) : e.masked.masked = e.masked := by
  cases e <;> simp [Entry.masked, BitVec.and_assoc]

/-! ### Paths -/

/-- The relative path of a name behind others. -/
def relText (path : List FileName) : PyStr := path.foldl relOf []

/-- The bytes of a relative path. -/
def relBytes (path : List FileName) : List UInt8 :=
  path.foldl (fun pre name => if pre = [] then name.bytes else pre ++ 0x2f :: name.bytes) []

theorem relText_snoc (path : List FileName) (name : FileName) :
    relText (path ++ [name]) = relOf (relText path) name := by
  rw [relText, List.foldl_append]
  rfl

theorem relBytes_snoc (path : List FileName) (name : FileName) : relBytes (path ++ [name]) =
    if relBytes path = [] then name.bytes else relBytes path ++ 0x2f :: name.bytes := by
  rw [relBytes, List.foldl_append]
  rfl

theorem FileName.text_ne_nil (name : FileName) : name.text ≠ [] := by
  have hne := name.nonempty
  rw [FileName.text, fsdecode]
  cases h : name.bytes with
  | nil => exact absurd h hne
  | cons b bs =>
    rw [fsdecodeFrom]
    split_ifs <;> exact List.cons_ne_nil _ _

theorem relText_eq_nil {path : List FileName} : relText path = [] ↔ path = [] := by
  induction path using List.reverseRecOn with
  | nil => simp [relText]
  | append_singleton path name ih =>
    rw [relText_snoc, relOf]
    have hname := name.text_ne_nil
    split_ifs <;> simp [hname]

theorem relBytes_eq_nil {path : List FileName} : relBytes path = [] ↔ path = [] := by
  induction path using List.reverseRecOn with
  | nil => simp [relBytes]
  | append_singleton path name ih =>
    rw [relBytes_snoc]
    have hname := name.nonempty
    split_ifs <;> simp [hname]

/-- The last separator is where it is. -/
theorem append_slash_inj {a b n m : List UInt8} (hn : 0x2f ∉ n) (hm : 0x2f ∉ m)
    (h : a ++ 0x2f :: n = b ++ 0x2f :: m) : a = b ∧ n = m := by
  rcases List.append_eq_append_iff.1 h with ⟨c, rfl, hc⟩ | ⟨c, rfl, hc⟩
  · cases c with
    | nil => exact ⟨by simp, (List.cons.inj hc).2⟩
    | cons x c =>
      rw [List.cons_append] at hc
      exact absurd (by rw [(List.cons.inj hc).2]; simp) hn
  · cases c with
    | nil => exact ⟨by simp, (List.cons.inj hc).2.symm⟩
    | cons x c =>
      rw [List.cons_append] at hc
      exact absurd (by rw [(List.cons.inj hc).2]; simp) hm

/-- **A path is read back from its bytes.** -/
theorem relBytes_injective : Function.Injective relBytes := by
  intro path path' h
  induction path using List.reverseRecOn generalizing path' with
  | nil => exact (relBytes_eq_nil.1 h.symm).symm
  | append_singleton path name ih =>
    induction path' using List.reverseRecOn with
    | nil => exact relBytes_eq_nil.1 h
    | append_singleton path' name' _ =>
      have hslash := name.noSlash
      have hslash' := name'.noSlash
      rw [relBytes_snoc, relBytes_snoc] at h
      split_ifs at h with hnil hnil' hnil'
      · rw [relBytes_eq_nil] at hnil hnil'
        rw [hnil, hnil', show name = name' from by cases name; cases name'; simpa using h]
      · exact absurd (by rw [h]; simp) hslash
      · exact absurd (by rw [← h]; simp) hslash'
      · obtain ⟨hpath, hname⟩ := append_slash_inj hslash hslash' h
        rw [ih hpath, show name = name' from by cases name; cases name'; simpa using hname]

/-- **A relative path encodes strictly** exactly when every name on it is valid UTF-8. -/
theorem encode?_relText (path : List FileName) : PyStr.encode? (relText path) =
    if ∀ name ∈ path, (utf8 name.bytes).isSome then some (relBytes path) else none := by
  induction path using List.reverseRecOn with
  | nil => simp [relText, relBytes]
  | append_singleton path name ih =>
    have hslash : PyStr.encode? (PyStr.ofString "/") = some [0x2f] := by decide
    have hname : PyStr.encode? name.text = (utf8 name.bytes).map fun _ => name.bytes :=
      encode?_fsdecode name.bytes
    have hall : (∀ n ∈ path ++ [name], (utf8 n.bytes).isSome) ↔
        (∀ n ∈ path, (utf8 n.bytes).isSome) ∧ (utf8 name.bytes).isSome := by
      rw [List.forall_mem_append, List.forall_mem_singleton]
    rw [relText_snoc, relBytes_snoc, relOf, if_congr hall rfl rfl]
    by_cases hnil : path = []
    · rw [if_pos (relText_eq_nil.2 hnil), if_pos (relBytes_eq_nil.2 hnil), hname]
      subst hnil
      cases utf8 name.bytes with
      | none => simp
      | some t => simp
    · rw [if_neg (mt relText_eq_nil.1 hnil), if_neg (mt relBytes_eq_nil.1 hnil),
        PyStr.encode?_append, PyStr.encode?_append, ih, hslash, hname]
      by_cases hpath : ∀ n ∈ path, (utf8 n.bytes).isSome
      · rw [if_pos hpath, if_congr (and_iff_right hpath) rfl rfl]
        cases utf8 name.bytes with
        | none => simp
        | some t => simp
      · rw [if_neg hpath, if_neg fun h => hpath h.1]
        rfl

/-! ## The stream -/

/-- Whether the walk goes on behind an entry. -/
def enter (stack : ℕ) (x : List FileName × Entry) : Except Raised Unit :=
  match x.2 with
  | .dir listed =>
    if stack < x.1.length then .error .recursionError
    else if listed then .ok () else .error .osError
  | .file _ _ => .ok ()
  | .link _ => .ok ()
  | .other _ => .ok ()

def row (x : List FileName × Entry) : PyStr × Entry := (relText x.1, x.2)

/-- What an entry adds to the stream. -/
def part (sha : Sha256) (x : List FileName × Entry) : Except Raised (List UInt8) :=
  contribution sha (row x)

/-- Entries sorted by their relative paths. -/
def byPath (xs : List (List FileName × Entry)) : List (List FileName × Entry) :=
  xs.mergeSort fun a b => relText a.1 ≤ relText b.1

mutual

/-- The walk of a directory goes over the entries below it. -/
theorem collect_eq (stack : ℕ) (path : List FileName) : ∀ entries : List (FileName × Node),
    collect stack (relText path) entries =
      ((listing path entries).mapM (enter (stack + path.length))).map fun _ =>
        (listing path entries).map row
  | [] => rfl
  | (name, node) :: rest => by
    have hbelow := collectBelow_eq stack path name node
    have hrest := collect_eq stack path rest
    have hnil : relText path = [] ↔ path = [] := relText_eq_nil
    rw [collect, listing]
    by_cases hskip : path = [] ∧ name.text = runtimeManifestName
    · rw [if_pos ⟨hnil.2 hskip.1, hskip.2⟩, if_pos hskip, hrest]
    · rw [if_neg fun h => hskip ⟨hnil.1 h.1, h.2⟩, if_neg hskip, ← relText_snoc, hbelow, hrest,
        List.cons_append, List.mapM_cons, List.mapM_append, List.map_cons, List.map_append]
      cases enter (stack + path.length) (path ++ [name], node.entry) with
      | error e => rfl
      | ok u =>
        cases (node.inside (path ++ [name])).mapM (enter (stack + path.length)) with
        | error e => rfl
        | ok us =>
          cases (listing path rest).mapM (enter (stack + path.length)) with
          | error e => rfl
          | ok us' => rfl

theorem collectBelow_eq (stack : ℕ) (path : List FileName) (name : FileName) : ∀ node : Node,
    collectBelow stack (relText (path ++ [name])) node =
      (enter (stack + path.length) (path ++ [name], node.entry) >>= fun _ =>
        (node.inside (path ++ [name])).mapM (enter (stack + path.length))).map fun _ =>
          (node.inside (path ++ [name])).map row
  | .file _ _ => rfl
  | .link _ => rfl
  | .other _ => rfl
  | .dir _ listed entries => by
    have hlength : (path ++ [name]).length = path.length + 1 := by simp
    rw [collectBelow.eq_def, enter, Node.entry, Node.inside]
    cases stack with
    | zero => simp only [hlength, if_pos (show 0 + path.length < path.length + 1 by omega)]; rfl
    | succ stack =>
      have hentries := collect_eq stack (path ++ [name]) entries
      rw [hlength, show stack + (path.length + 1) = stack + 1 + path.length by omega] at hentries
      simp only [hlength, hentries,
        if_neg (show ¬ stack + 1 + path.length < path.length + 1 by omega)]
      cases listed with
      | false => rfl
      | true => rfl

end

theorem enter_maskEntry (stack : ℕ) (x : List FileName × Entry) :
    enter stack (maskEntry x) = enter stack x := by
  obtain ⟨path, entry⟩ := x
  cases entry <;> rfl

theorem part_maskEntry (sha : Sha256) (x : List FileName × Entry) :
    part sha (maskEntry x) = part sha x := by
  obtain ⟨path, entry⟩ := x
  have hbits (mode : Mode) : modeBytes (mode &&& ~~~writeBits) = modeBytes mode := by
    rw [modeBytes, modeBytes, BitVec.and_assoc, BitVec.and_self]
  cases entry <;>
    simp only [part, row, maskEntry, Entry.masked, contribution, hbits]

/-- **The stream of a tree** depends on its entries without their write bits. -/
theorem digestInput_eq (sha : Sha256) (stack : ℕ) (t : Tree) : digestInput sha stack t =
    if t.listed then t.shown.mapM (enter stack) >>= fun _ =>
      ((byPath t.shown).mapM (part sha)).map List.flatten
    else .error .osError := by
  have hcollect : collect stack [] t.entries =
      ((listing [] t.entries).mapM (enter stack)).map fun _ => (listing [] t.entries).map row :=
    collect_eq stack [] t.entries
  have henter : t.shown.mapM (enter stack) = (listing [] t.entries).mapM (enter stack) := by
    rw [Tree.shown, List.mapM_map]
    exact congrArg (fun f => List.mapM f _) (funext fun x => enter_maskEntry stack x)
  have hsort : ((listing [] t.entries).map row).mergeSort (fun a b => a.1 ≤ b.1) =
      (byPath (listing [] t.entries)).map row := by
    rw [byPath, List.map_mergeSort]
    exact fun _ _ _ _ => rfl
  have hmask : byPath t.shown = (byPath (listing [] t.entries)).map maskEntry := by
    rw [Tree.shown, byPath, byPath, List.map_mergeSort]
    exact fun _ _ _ _ => rfl
  have hparts : (byPath t.shown).mapM (part sha) =
      ((byPath (listing [] t.entries)).map row).mapM (contribution sha) := by
    rw [hmask, List.mapM_map, List.mapM_map]
    exact congrArg (fun f => List.mapM f _) (funext fun x => part_maskEntry sha x)
  rw [digestInput, hcollect, henter]
  cases t.listed with
  | false => rfl
  | true =>
    cases (listing [] t.entries).mapM (enter stack) with
    | error e => rfl
    | ok us =>
      simp only [Except.map, bind, Except.bind, hsort, hparts]
      cases ((byPath (listing [] t.entries)).map row).mapM (contribution sha) with
      | error e => rfl
      | ok parts => rfl

/-! ## Sealing -/

/-- A change of write bits only. -/
def KeepsMasked (f : Mode → Mode) : Prop := ∀ mode, f mode &&& ~~~writeBits = mode &&& ~~~writeBits

theorem keepsMasked_seal : KeepsMasked (· &&& ~~~writeBits) := fun mode => by
  rw [BitVec.and_assoc, BitVec.and_self]

theorem keepsMasked_unseal : KeepsMasked (· ||| ownerWrite) := fun mode => by
  have hnone : ownerWrite &&& ~~~writeBits = 0 := by decide
  rw [BitVec.and_or_distrib_right, hnone]
  exact BitVec.or_zero

section Chmod

variable {f : Mode → Mode}

theorem chmod_masked (hf : KeepsMasked f) (p : Perm) :
    (p.chmod f).mode &&& ~~~writeBits = p.mode &&& ~~~writeBits := by
  rw [Perm.chmod]
  split_ifs
  · exact hf p.mode
  · rfl

theorem entry_chmodTree (hf : KeepsMasked f) (node : Node) :
    (node.chmodTree f).entry.masked = node.entry.masked := by
  cases node with
  | file perm content =>
    rw [Node.chmodTree, Node.entry, Node.entry, Entry.masked, Entry.masked, chmod_masked hf]
  | link target => rfl
  | dir perm listed entries => rfl
  | other perm =>
    rw [Node.chmodTree, Node.entry, Node.entry, Entry.masked, Entry.masked, chmod_masked hf]

mutual

theorem listing_chmodEntries (hf : KeepsMasked f) (path : List FileName) :
    ∀ entries : List (FileName × Node),
      (listing path (chmodEntries f entries)).map maskEntry = (listing path entries).map maskEntry
  | [] => rfl
  | (name, node) :: rest => by
    have hnode := inside_chmodTree hf (path ++ [name]) node
    have hrest := listing_chmodEntries hf path rest
    have hentry := entry_chmodTree hf node
    rw [chmodEntries, listing, listing]
    split_ifs
    · exact hrest
    · rw [List.map_append, List.map_append, List.map_cons, List.map_cons, hnode, hrest, maskEntry,
        maskEntry, hentry]

theorem inside_chmodTree (hf : KeepsMasked f) (path : List FileName) : ∀ node : Node,
    ((node.chmodTree f).inside path).map maskEntry = (node.inside path).map maskEntry
  | .file _ _ => rfl
  | .link _ => rfl
  | .other _ => rfl
  | .dir _ listed entries => by
    have hentries := listing_chmodEntries hf path entries
    rw [Node.chmodTree, Node.inside, Node.inside]
    cases listed with
    | false => rfl
    | true => exact hentries

end

theorem shown_chmodTree (hf : KeepsMasked f) (t : Tree) : (t.chmodTree f).shown = t.shown := by
  rw [Tree.chmodTree]
  split_ifs
  · exact listing_chmodEntries hf [] t.entries
  · rfl

/-- **Write bits do not matter** to the stream. -/
theorem digestInput_chmodTree (hf : KeepsMasked f) (sha : Sha256) (stack : ℕ) (t : Tree) :
    digestInput sha stack (t.chmodTree f) = digestInput sha stack t := by
  have hlisted : (t.chmodTree f).listed = t.listed := by
    rw [Tree.chmodTree]
    split_ifs <;> rfl
  rw [digestInput_eq, digestInput_eq, hlisted, shown_chmodTree hf]

/-- **Write bits do not matter** to the digest. -/
theorem runtimeContentDigest_chmodTree (hf : KeepsMasked f) (sha : Sha256) (stack : ℕ) (t : Tree) :
    runtimeContentDigest sha stack (t.chmodTree f) = runtimeContentDigest sha stack t := by
  rw [runtimeContentDigest, digestInput_chmodTree hf, runtimeContentDigest]

end Chmod

end Lubko.Cli.Digest
