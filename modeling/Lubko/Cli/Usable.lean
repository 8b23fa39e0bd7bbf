import Lubko.Cli.Binding
import Lubko.Supervise.Handoff

/-!
# A usable runtime

`runtime_is_usable` of `cli.py`: the entry points are there, the manifest binds the commit, the
digest of the tree is the one in the manifest, and no entry has a write bit. The selected runtime
gets its seal back where only write bits are left, and is then inspected again.

What `is_file` finds at an entry point, what a manifest that is no plain file reads as, and the
pointer are given from outside.

* `runtimeIsUsable_eq_true` — what a usable runtime is.
* `inspect_raises_iff` — when an inspection raises.
* `usable_iff` — when an inspection answers as it should.
-/

namespace Lubko.Cli.Digest

open Lubko.Lib Lubko.Supervise

/-! ## The manifest -/

/-- What `Path.is_file` does: it answers, or raises an `OSError` that it does not ignore. -/
inductive IsFile where
  | present
  | absent
  | raises
  deriving DecidableEq

/-- A runtime and what stands around it. -/
structure Runtime where
  tree : Tree
  isFile : PyStr → IsFile
  /-- The bytes a read of the manifest finds where no plain file stands; none is an `OSError`. -/
  followed : Option (List UInt8)
  /-- `current_commit()`. -/
  current : Option PyStr

/-- `ENTRY_POINTS`. -/
def entryPoints : List PyStr :=
  ["lubko-worker", "lubko-supervisor", "lubko-deploy", "lubko-deploy-ctl", "lubko-install"].map
    PyStr.ofString

/-- `_root_is_usable`. -/
def rootIsUsable (isFile : PyStr → IsFile) : List PyStr → Except Raised Bool
  | [] => .ok true
  | entry :: entries =>
    match isFile entry with
    | .present => rootIsUsable isFile entries
    | .absent => .ok false
    | .raises => .error .osError

/-- The bytes of the manifest; none is an `OSError`. -/
def manifestData (r : Runtime) : Option (List UInt8) :=
  match r.tree.entries.find? fun x => x.1.text = runtimeManifestName with
  | none => none
  | some (_, .file _ content) => content
  | some (_, .dir _ _ _) => none
  | some (_, .link _) => r.followed
  | some (_, .other _) => r.followed

/-- The text of the manifest, where it reads as text. -/
def manifestText (py : Interpreter) (r : Runtime) : Option (List Char) :=
  (manifestData r).bind py.locale

/-- `json.loads(manifest_path(commit).read_text())`, and the `return False` on an `OSError` or a
`ValueError`. -/
def readManifest (py : Interpreter) (r : Runtime) : Except Raised (Option Json) :=
  match manifestText py r with
  | none => .ok none
  | some text =>
    match (jsonLoads py text : Except (PyError Empty) Json) with
    | .ok data => .ok (some data)
    | .error exc => if exc.isValueError then .ok none else .error .recursionError

/-- `_manifest_digest`. -/
def manifestDigest (data : Json) (commit : PyStr) : Option (List UInt8) :=
  match data with
  | .obj members =>
    if (Json.get members "schema_version").eqInt 2 && (Json.get members "commit").eqStr commit then
      match Json.get members "content_digest" with
      | .str expected => fromHex expected
      | _ => none
    else none
  | _ => none

/-- The manifest of a tree. -/
def runtimeManifest (commit : PyStr) (digest : List UInt8) : Json :=
  .obj [entry "schema_version" (.int 2), entry "commit" (.str commit),
    entry "content_digest" (.str (toHex digest))]

/-- The text `_write_runtime_manifest` writes. -/
def writeRuntimeManifest (sha : Sha256) (stack : ℕ) (t : Tree) (commit : PyStr) :
    Except Raised (List Char) :=
  (runtimeContentDigest sha stack t).map fun digest =>
    dumps (runtimeManifest commit digest).sortKeys ++ ['\n']

/-! ## The inspection -/

section Inspection

variable (py : Interpreter) (sha : Sha256) (stack : ℕ)

/-- `runtime_is_usable` up to the look at the write bits: the digest of a tree that is bound to the
commit, and none for `return False`. -/
def inspect (r : Runtime) (commit : PyStr) : Except Raised (Option (List UInt8)) := do
  if isValidCommitName commit = false then return none
  if (← rootIsUsable r.isFile entryPoints) = false then return none
  let some data ← readManifest py r | return none
  let some expected := manifestDigest data commit | return none
  match runtimeContentDigest sha stack r.tree with
  | .error .osError => return none
  | .error exc => throw exc
  | .ok digest => return if digest = expected then some expected else none

/-- `runtime_is_usable`: what it returns or raises, and the tree it leaves. -/
def runtimeIsUsable (r : Runtime) (commit : PyStr) : Except Raised Bool × Tree :=
  match inspect py sha stack r commit with
  | .error exc => (.error exc, r.tree)
  | .ok none => (.ok false, r.tree)
  | .ok (some expected) =>
    if treeIsReadOnly r.tree then (.ok true, r.tree)
    else if r.current ≠ some commit then (.ok false, r.tree)
    else
      -- the selected runtime, whose content is proven, gets its seal back
      let sealedTree := sealTree r.tree
      if treeIsReadOnly sealedTree = false then (.ok false, sealedTree)
      else
        match runtimeContentDigest sha stack sealedTree with
        | .error .osError => (.ok false, sealedTree)
        | .error exc => (.error exc, sealedTree)
        | .ok digest => (.ok (digest = expected), sealedTree)

end Inspection

/-! ## Write bits -/

mutual

/-- The modes of the entries below a directory, links apart. -/
def modes : List (FileName × Node) → List Mode
  | [] => []
  | (_, node) :: rest => node.modes ++ modes rest

/-- The modes of an entry and of what is below it. -/
def Node.modes : Node → List Mode
  | .file perm _ => [perm.mode]
  | .link _ => []
  | .dir perm _ entries => perm.mode :: modes entries
  | .other perm => [perm.mode]

end

/-- No entry of the tree but a link has a write bit. -/
def ReadOnly (t : Tree) : Prop := ∀ mode ∈ t.perm.mode :: modes t.entries, isReadOnly mode = true

mutual

/-- A walk that entered every directory looked at every mode. -/
theorem modes_of_entriesReadOnly {path : List FileName} (hpath : path ≠ []) :
    ∀ entries : List (FileName × Node), (∀ x ∈ listing path entries, x.2 ≠ .dir false) →
      entriesReadOnly entries = true → ∀ mode ∈ modes entries, isReadOnly mode = true
  | [], _, _ => by simp [modes]
  | (name, node) :: rest, hdirs, h => by
    rw [listing, if_neg fun hskip => hpath hskip.1, List.cons_append, List.forall_mem_cons,
      List.forall_mem_append] at hdirs
    rw [entriesReadOnly, Bool.and_eq_true] at h
    rw [modes, List.forall_mem_append]
    exact ⟨modes_of_readOnly (by simp) node hdirs.1 hdirs.2.1 h.1,
      modes_of_entriesReadOnly hpath rest hdirs.2.2 h.2⟩

theorem modes_of_readOnly {path : List FileName} (hpath : path ≠ []) :
    ∀ node : Node, node.entry ≠ .dir false → (∀ x ∈ node.inside path, x.2 ≠ .dir false) →
      node.readOnly = true → ∀ mode ∈ node.modes, isReadOnly mode = true
  | .file perm _, _, _, h => by
    rw [Node.modes, List.forall_mem_singleton]
    exact h
  | .link _, _, _, _ => by simp [Node.modes]
  | .other perm, _, _, h => by
    rw [Node.modes, List.forall_mem_singleton]
    exact h
  | .dir perm listed entries, hentry, hdirs, h => by
    cases listed with
    | false => exact absurd rfl hentry
    | true =>
      rw [Node.readOnly, Bool.and_eq_true, Bool.not_true, Bool.false_or] at h
      rw [Node.modes, List.forall_mem_cons]
      exact ⟨h.1, modes_of_entriesReadOnly hpath entries hdirs h.2⟩

end

/-- The manifest at the root of a tree is no directory. -/
def PlainManifest (entries : List (FileName × Node)) : Prop :=
  ∀ x ∈ entries, x.1.text = runtimeManifestName → ∀ listed, x.2.entry ≠ .dir listed

/-- **What `_tree_is_read_only` says** about a tree with a digest: no entry has a write bit. -/
theorem readOnly_of_treeIsReadOnly {t : Tree} (hlisted : t.listed = true)
    (hdirs : ∀ x ∈ t.shown, x.2 ≠ .dir false) (hplain : PlainManifest t.entries)
    (h : treeIsReadOnly t = true) : ReadOnly t := by
  have hroot : ∀ entries : List (FileName × Node), PlainManifest entries →
      (∀ x ∈ listing [] entries, x.2 ≠ .dir false) → entriesReadOnly entries = true →
        ∀ mode ∈ modes entries, isReadOnly mode = true := by
    intro entries
    induction entries with
    | nil => simp [modes]
    | cons x entries ih =>
      obtain ⟨name, node⟩ := x
      intro hplain hdirs h
      rw [PlainManifest, List.forall_mem_cons] at hplain
      rw [entriesReadOnly, Bool.and_eq_true] at h
      rw [listing] at hdirs
      rw [modes, List.forall_mem_append]
      by_cases hskip : ([] : List FileName) = [] ∧ name.text = runtimeManifestName
      · -- the walk for the digest passed over the manifest, which is no directory
        rw [if_pos hskip] at hdirs
        refine ⟨?_, ih hplain.2 hdirs h.2⟩
        have hentry := hplain.1 hskip.2
        cases node with
        | dir perm listed below => exact absurd rfl (hentry listed)
        | file perm content =>
          exact modes_of_readOnly (List.cons_ne_nil name []) _ (hentry false)
            (by simp [Node.inside]) h.1
        | link target =>
          exact modes_of_readOnly (List.cons_ne_nil name []) _ (hentry false)
            (by simp [Node.inside]) h.1
        | other perm =>
          exact modes_of_readOnly (List.cons_ne_nil name []) _ (hentry false)
            (by simp [Node.inside]) h.1
      · rw [if_neg hskip, List.cons_append, List.forall_mem_cons, List.forall_mem_append] at hdirs
        exact ⟨modes_of_readOnly (by simp) node hdirs.1 hdirs.2.1 h.1, ih hplain.2 hdirs.2.2 h.2⟩
  have hlisting : ∀ x ∈ listing [] t.entries, x.2 ≠ .dir false := by
    intro x hx hfalse
    exact hdirs (maskEntry x) (List.mem_map_of_mem hx) (by rw [maskEntry, hfalse]; rfl)
  rw [treeIsReadOnly, hlisted, Bool.not_true, Bool.false_or, Bool.and_eq_true] at h
  rw [ReadOnly, List.forall_mem_cons]
  exact ⟨h.1, hroot t.entries hplain hlisting h.2⟩

/-- A name with an ASCII text has its bytes. -/
theorem bytes_of_text {name : FileName} {text : PyStr} {bytes : List UInt8} (h : name.text = text)
    (hencode : text.encode? = some bytes) : name.bytes = bytes :=
  (encode?_fsdecode_eq_some ((congrArg PyStr.encode? h).trans hencode)).symm

/-- Only one entry of the root is the manifest. -/
theorem manifest_unique {t : Tree} {x y : FileName × Node} (hx : x ∈ t.entries)
    (hy : y ∈ t.entries) (hxname : x.1.text = runtimeManifestName)
    (hyname : y.1.text = runtimeManifestName) : x = y := by
  have hencode : ∃ bytes, PyStr.encode? runtimeManifestName = some bytes :=
    Option.isSome_iff_exists.1 (by decide)
  obtain ⟨bytes, hbytes⟩ := hencode
  have hname : x.1 = y.1 := by
    have hsame := (bytes_of_text hxname hbytes).trans (bytes_of_text hyname hbytes).symm
    cases hx1 : x.1 with
    | mk b _ _ =>
      cases hy1 : y.1 with
      | mk b' _ _ =>
        rw [hx1, hy1] at hsame
        cases hsame
        rfl
  exact List.inj_on_of_nodup_map t.distinct hx hy hname

/-- A manifest that can be read is no directory. -/
theorem plainManifest_of_text {py : Interpreter} {r : Runtime} {text : List Char}
    (h : manifestText py r = some text) : PlainManifest r.tree.entries := by
  intro x hx hname listed hdir
  have hfind : r.tree.entries.find? (fun x => x.1.text = runtimeManifestName) = some x := by
    cases hfound : r.tree.entries.find? fun x => x.1.text = runtimeManifestName with
    | none =>
      have hnone := List.find?_eq_none.1 hfound x hx
      exact absurd (by simpa using hname) hnone
    | some y =>
      have hyname : y.1.text = runtimeManifestName := by
        simpa using List.find?_some hfound
      rw [manifest_unique (List.mem_of_find?_eq_some hfound) hx hyname hname]
  rw [manifestText, manifestData, hfind] at h
  obtain ⟨name, node⟩ := x
  cases node with
  | dir perm l entries => cases h
  | file perm content => cases hdir
  | link target => cases hdir
  | other perm => cases hdir

theorem plainManifest_chmodEntries (f : Mode → Mode) {entries : List (FileName × Node)}
    (h : PlainManifest entries) : PlainManifest (chmodEntries f entries) := by
  induction entries with
  | nil => exact h
  | cons x entries ih =>
    obtain ⟨name, node⟩ := x
    rw [PlainManifest, List.forall_mem_cons] at h
    rw [chmodEntries, PlainManifest, List.forall_mem_cons]
    refine ⟨fun hname listed hdir => ?_, ih h.2⟩
    cases node with
    | dir perm l below => exact h.1 hname l rfl
    | file perm content => cases hdir
    | link target => cases hdir
    | other perm => cases hdir

/-! ## The entry points -/

theorem rootIsUsable_eq_true {isFile : PyStr → IsFile} {entries : List PyStr} :
    rootIsUsable isFile entries = .ok true ↔ ∀ entry ∈ entries, isFile entry = .present := by
  induction entries with
  | nil => simp [rootIsUsable]
  | cons entry entries ih =>
    rw [rootIsUsable, List.forall_mem_cons]
    cases hfile : isFile entry with
    | present => simpa using ih
    | absent => simp
    | raises => simp

theorem rootIsUsable_answers_iff {isFile : PyStr → IsFile} {entries : List PyStr} :
    (∃ b, rootIsUsable isFile entries = .ok b) ↔
      ∀ front entry back, entries = front ++ entry :: back →
        (∀ other ∈ front, isFile other = .present) → isFile entry ≠ .raises := by
  induction entries with
  | nil => exact iff_of_true ⟨true, rfl⟩ fun front entry back h => by simp at h
  | cons first entries ih =>
    rw [rootIsUsable]
    cases hfile : isFile first with
    | present =>
      rw [ih]
      constructor
      · intro h front entry back heq hfront
        cases front with
        | nil =>
          obtain ⟨rfl, -⟩ := List.cons.inj heq
          simp [hfile]
        | cons other front =>
          obtain ⟨rfl, hback⟩ := List.cons.inj heq
          rw [List.forall_mem_cons] at hfront
          exact h front entry back hback hfront.2
      · intro h front entry back heq hfront
        refine h (first :: front) entry back (by rw [heq]; rfl) ?_
        rw [List.forall_mem_cons]
        exact ⟨hfile, hfront⟩
    | absent =>
      refine iff_of_true ⟨false, rfl⟩ fun front entry back heq hfront => ?_
      cases front with
      | nil =>
        obtain ⟨rfl, -⟩ := List.cons.inj heq
        simp [hfile]
      | cons other front =>
        obtain ⟨rfl, -⟩ := List.cons.inj heq
        simpa [hfile] using hfront first List.mem_cons_self
    | raises =>
      refine iff_of_false (fun ⟨b, hb⟩ => nomatch hb) fun h => ?_
      exact h [] first entries rfl (by simp) hfile

/-! ## What an inspection says -/

section Inspected

variable {py : Interpreter} {sha : Sha256} {stack : ℕ} {r : Runtime} {commit : PyStr}

theorem readManifest_eq_some {data : Json} (h : readManifest py r = .ok (some data)) :
    ∃ text, manifestText py r = some text ∧
      jsonLoads py text = (.ok data : Except (PyError Empty) Json) := by
  rw [readManifest] at h
  cases htext : manifestText py r with
  | none =>
    rw [htext] at h
    cases h
  | some text =>
    rw [htext] at h
    cases hload : (jsonLoads py text : Except (PyError Empty) Json) with
    | ok v =>
      simp only [hload] at h
      cases h
      exact ⟨text, rfl, hload⟩
    | error exc =>
      simp only [hload] at h
      split_ifs at h
      cases h

/-- The manifest binds the commit to a digest. -/
structure BoundTo (py : Interpreter) (r : Runtime) (commit : PyStr) (expected : List UInt8) :
    Prop where
  valid : isValidCommitName commit = true
  complete : rootIsUsable r.isFile entryPoints = .ok true
  manifest : ∃ text data, manifestText py r = some text ∧
    jsonLoads py text = (.ok data : Except (PyError Empty) Json) ∧
      manifestDigest data commit = some expected

/-- A bound runtime is as usable as its tree. -/
theorem inspect_bound {expected : List UInt8} (h : BoundTo py r commit expected) :
    inspect py sha stack r commit =
      match runtimeContentDigest sha stack r.tree with
      | .error .osError => .ok none
      | .error exc => .error exc
      | .ok digest => .ok (if digest = expected then some expected else none) := by
  obtain ⟨text, data, htext, hload, hdigest⟩ := h.manifest
  have hread : readManifest py r = .ok (some data) := by
    rw [readManifest, htext]
    simp only [hload]
  rw [inspect, if_neg (by simp [h.valid]), h.complete, ok_bind, if_neg (by simp), hread, ok_bind]
  simp only [hdigest]
  cases runtimeContentDigest sha stack r.tree with
  | ok digest => rfl
  | error exc => cases exc <;> rfl

/-- **What a usable runtime is bound to**: the digest of its tree. -/
theorem inspect_eq_some {expected : List UInt8}
    (h : inspect py sha stack r commit = .ok (some expected)) :
    BoundTo py r commit expected ∧ runtimeContentDigest sha stack r.tree = .ok expected := by
  have hbound : ∃ bound, BoundTo py r commit bound := by
    rw [inspect] at h
    by_cases hvalid : isValidCommitName commit = false
    · rw [if_pos hvalid] at h
      cases h
    · rw [if_neg hvalid] at h
      obtain ⟨complete, hcomplete, h⟩ := except_bind_eq_ok.1 h
      cases complete with
      | false => cases h
      | true =>
        rw [if_neg (by simp)] at h
        obtain ⟨data?, hread, h⟩ := except_bind_eq_ok.1 h
        cases data? with
        | none => cases h
        | some data =>
          cases hdigest : manifestDigest data commit with
          | none =>
            simp only [hdigest] at h
            cases h
          | some bound =>
            obtain ⟨text, htext, hload⟩ := readManifest_eq_some hread
            exact ⟨bound, Bool.eq_true_of_not_eq_false hvalid, hcomplete, text, data, htext, hload,
              hdigest⟩
  obtain ⟨bound, hbound⟩ := hbound
  rw [inspect_bound hbound] at h
  cases hdigest : runtimeContentDigest sha stack r.tree with
  | error exc =>
    rw [hdigest] at h
    cases exc <;> cases h
  | ok digest =>
    rw [hdigest] at h
    have hsame := Except.ok.inj h
    split_ifs at hsame with heq
    obtain rfl := Option.some.inj hsame
    exact ⟨hbound, by rw [heq]⟩

/-- **What a runtime is that is found usable.** -/
theorem runtimeIsUsable_eq_true (h : (runtimeIsUsable py sha stack r commit).1 = .ok true) :
    ∃ expected, BoundTo py r commit expected ∧
      runtimeContentDigest sha stack (runtimeIsUsable py sha stack r commit).2 = .ok expected ∧
      treeIsReadOnly (runtimeIsUsable py sha stack r commit).2 = true ∧
      PlainManifest (runtimeIsUsable py sha stack r commit).2.entries := by
  rw [runtimeIsUsable] at h ⊢
  cases hinspect : inspect py sha stack r commit with
  | error exc =>
    rw [hinspect] at h
    cases h
  | ok bound =>
    rw [hinspect] at h
    cases bound with
    | none => cases h
    | some expected =>
      obtain ⟨hbound, hdigest⟩ := inspect_eq_some hinspect
      obtain ⟨text, -, htext, -, -⟩ := hbound.manifest
      have hplain := plainManifest_of_text htext
      refine ⟨expected, hbound, ?_⟩
      dsimp only at h ⊢
      by_cases hread : treeIsReadOnly r.tree = true
      · rw [if_pos hread]
        exact ⟨hdigest, hread, hplain⟩
      · rw [if_neg hread] at h ⊢
        by_cases hcurrent : r.current ≠ some commit
        · rw [if_pos hcurrent] at h
          cases h
        · rw [if_neg hcurrent] at h ⊢
          have hsealed : runtimeContentDigest sha stack (sealTree r.tree) = .ok expected := by
            rw [sealTree, runtimeContentDigest_chmodTree keepsMasked_seal, hdigest]
          have hplain' : PlainManifest (sealTree r.tree).entries := by
            rw [sealTree, Tree.chmodTree]
            split_ifs
            · exact plainManifest_chmodEntries _ hplain
            · exact hplain
          by_cases hstill : treeIsReadOnly (sealTree r.tree) = false
          · rw [if_pos hstill] at h
            cases h
          · rw [if_neg hstill, hsealed]
            exact ⟨hsealed, Bool.eq_true_of_not_eq_false hstill, hplain'⟩

/-- A usable runtime has no write bit left. -/
theorem readOnly_of_usable (h : (runtimeIsUsable py sha stack r commit).1 = .ok true) :
    ReadOnly (runtimeIsUsable py sha stack r commit).2 := by
  obtain ⟨expected, -, hdigest, hread, hplain⟩ := runtimeIsUsable_eq_true h
  obtain ⟨out, hin, -⟩ := except_map_eq_ok hdigest
  obtain ⟨hlisted, hstreamed, -⟩ := digestInput_eq_ok hin
  exact readOnly_of_treeIsReadOnly hlisted (fun x hx => (hstreamed x hx).listed) hplain hread

/-! ## The written manifest -/

theorem not_isHigh_of_mem_toHex {digest : List UInt8} :
    ∀ c ∈ toHex digest, CodePoint.isHigh c = false := by
  have hdigit : ∀ d : Fin 16, CodePoint.isHigh (Uuid.hexDigit d) = false := by decide
  intro c hc
  obtain ⟨b, -, hb⟩ := List.mem_flatMap.1 hc
  simp only [List.mem_cons, List.not_mem_nil, or_false] at hb
  rcases hb with rfl | rfl <;> exact hdigit _

theorem manifest_wellKeyed (commit : PyStr) (digest : List UInt8) :
    WellKeyed [entry "schema_version" (.int 2), entry "commit" (.str commit),
      entry "content_digest" (.str (toHex digest))] :=
  .of_keys (show _ = ["schema_version", "commit", "content_digest"].map PyStr.ofString from rfl)
    (by decide)

/-- What a written manifest reads as. -/
theorem runtimeManifest_readBack (commit : PyStr) (digest : List UInt8) : ∃ d,
    (runtimeManifest commit digest).readBack = .obj d ∧ Json.get d "schema_version" = .int 2 ∧
      Json.get d "commit" = .str commit.joinSurrogates ∧
        Json.get d "content_digest" = .str (toHex digest) := by
  obtain ⟨d, hd, hmembers⟩ := readBack_obj (manifest_wellKeyed commit digest)
  refine ⟨d, hd, ?_, ?_, ?_⟩
  · rw [get_eq_memberOf, hmembers]
    rfl
  · rw [get_eq_memberOf, hmembers]
    rfl
  · rw [get_eq_memberOf, hmembers]
    exact congrArg Json.str (PyStr.joinSurrogates_of_not_high not_isHigh_of_mem_toHex)

theorem runtimeManifest_writable (commit : PyStr) (digest : List UInt8) :
    (runtimeManifest commit digest).Writable := by
  refine .obj ?_
  rw [List.forall_mem_cons, List.forall_mem_cons, List.forall_mem_singleton]
  exact ⟨.int 2, .str commit, .str _⟩

/-- **A written manifest** binds at most the digest it was written with. -/
theorem manifestDigest_written {digest expected : List UInt8} {data : Json}
    {commit written : PyStr}
    (hload : jsonLoads py (dumps (runtimeManifest written digest).sortKeys ++ ['\n']) =
      (.ok data : Except (PyError Empty) Json))
    (h : manifestDigest data commit = some expected) : expected = digest := by
  have hdata : data = (runtimeManifest written digest).readBack := by
    rw [jsonLoads, loads_dumps_line (runtimeManifest_writable written digest)] at hload
    split_ifs at hload
    exact (Except.ok.inj hload).symm
  obtain ⟨d, hd, -, -, hget⟩ := runtimeManifest_readBack written digest
  rw [hdata, hd, manifestDigest] at h
  split_ifs at h
  rw [hget] at h
  exact Option.some.inj (h.symm.trans (fromHex_toHex digest))

theorem not_isHigh_of_isValidCommitName (h : isValidCommitName commit = true) :
    ∀ c ∈ commit, CodePoint.isHigh c = false := by
  rw [isValidCommitName, Bool.and_eq_true, List.all_eq_true] at h
  intro c hc
  have hdigit := h.2 c hc
  simp only [Bool.or_eq_true, Bool.and_eq_true, decide_eq_true_eq] at hdigit
  simp only [CodePoint.isHigh, Bool.and_eq_false_iff, decide_eq_false_iff_not]
  omega

/-- A runtime is bound by a manifest that was written for its commit. -/
theorem boundTo_written {digest : List UInt8} (hvalid : isValidCommitName commit = true)
    (hcomplete : ∀ entry ∈ entryPoints, r.isFile entry = .present)
    (htext : manifestText py r = some (dumps (runtimeManifest commit digest).sortKeys ++ ['\n']))
    (hload : ∀ text, py.tooDeep text = false ∧ py.tooManyDigits text = false) :
    BoundTo py r commit digest := by
  refine ⟨hvalid, rootIsUsable_eq_true.2 hcomplete, _, (runtimeManifest commit digest).readBack,
    htext, ?_, ?_⟩
  · rw [jsonLoads, (hload _).1, (hload _).2, loads_dumps_line (runtimeManifest_writable _ _)]
    rfl
  · obtain ⟨d, hd, hschema, hcommit, hget⟩ := runtimeManifest_readBack commit digest
    rw [PyStr.joinSurrogates_of_not_high (not_isHigh_of_isValidCommitName hvalid)] at hcommit
    rw [hd, manifestDigest, hschema, hcommit, hget]
    simp [Json.eqInt, Json.eqStr, fromHex_toHex]

/-- **A sealed runtime is usable** as it was materialised. -/
theorem usable_of_written {digest : List UInt8} (hvalid : isValidCommitName commit = true)
    (hcomplete : ∀ entry ∈ entryPoints, r.isFile entry = .present)
    (hdigest : runtimeContentDigest sha stack r.tree = .ok digest)
    (htext : manifestText py r = some (dumps (runtimeManifest commit digest).sortKeys ++ ['\n']))
    (hload : ∀ text, py.tooDeep text = false ∧ py.tooManyDigits text = false)
    (hread : treeIsReadOnly r.tree = true) :
    runtimeIsUsable py sha stack r commit = (.ok true, r.tree) := by
  have hinspect : inspect py sha stack r commit = .ok (some digest) := by
    rw [inspect_bound (boundTo_written hvalid hcomplete htext hload), hdigest]
    simp only [if_true]
  rw [runtimeIsUsable, hinspect]
  simp only [hread, if_true]

/-! ## When an inspection answers -/

/-- What an inspection needs to answer, as far as it goes. -/
structure Answerable (py : Interpreter) (stack : ℕ) (r : Runtime) (commit : PyStr) : Prop where
  /-- `is_file` does not raise at the first entry point that is not there. -/
  entryPoints : isValidCommitName commit = true → ∀ front entry back,
    entryPoints = front ++ entry :: back → (∀ other ∈ front, r.isFile other = .present) →
      r.isFile entry ≠ .raises
  /-- The text of the manifest is not too deep for the scanner. -/
  manifest : isValidCommitName commit = true → (∀ entry ∈ Digest.entryPoints,
    r.isFile entry = .present) → ∀ text, manifestText py r = some text → py.tooDeep text = false
  /-- The directories of a bound tree are not too deep for the stack. -/
  walk : ∀ expected, BoundTo py r commit expected → r.tree.listed = true → WalkBounded stack r.tree
  /-- The names and targets in a bound tree are UTF-8. -/
  rows : ∀ expected, BoundTo py r commit expected → r.tree.listed = true →
    (∀ x ∈ r.tree.shown, x.2 ≠ .dir false) → RowsEncodable r.tree

theorem readManifest_answers_iff : (∃ data, readManifest py r = .ok data) ↔
    ∀ text, manifestText py r = some text → py.tooDeep text = false := by
  rw [readManifest]
  cases manifestText py r with
  | none => exact iff_of_true ⟨none, rfl⟩ fun text h => nomatch h
  | some text =>
    simp only [Option.some.injEq, forall_eq']
    cases hdeep : py.tooDeep text with
    | true =>
      rw [jsonLoads_tooDeep hdeep]
      exact iff_of_false (fun ⟨data, h⟩ => nomatch h) (by simp)
    | false =>
      have hends : Ends (fun exc : PyError Empty => exc.isValueError = true) _ _ :=
        jsonLoads_ends hdeep
      refine iff_of_true ?_ rfl
      cases hload : (jsonLoads py text : Except (PyError Empty) Json) with
      | ok data => exact ⟨some data, rfl⟩
      | error exc =>
        rw [hload] at hends
        exact ⟨none, if_pos hends⟩

/-- A complete runtime that is not bound to its commit is unusable, whatever its tree is. -/
theorem inspect_unbound (hvalid : isValidCommitName commit = true)
    (hcomplete : rootIsUsable r.isFile entryPoints = .ok true)
    (hbound : ¬ ∃ expected, BoundTo py r commit expected) :
    inspect py sha stack r commit = (readManifest py r).map fun _ => none := by
  rw [inspect, if_neg (by simp [hvalid]), hcomplete, ok_bind, if_neg (by simp)]
  cases hread : readManifest py r with
  | error e => rfl
  | ok data? =>
    rw [ok_bind]
    cases data? with
    | none => rfl
    | some data =>
      cases hdigest : manifestDigest data commit with
      | none =>
        simp only [hdigest]
        rfl
      | some expected =>
        obtain ⟨text, htext, hload⟩ := readManifest_eq_some hread
        exact absurd ⟨expected, hvalid, hcomplete, text, data, htext, hload, hdigest⟩ hbound

/-- A bound runtime: the manifest was read, and what is left is the digest. -/
theorem inspect_answers_iff_of_bound {expected : List UInt8}
    (hbound : BoundTo py r commit expected) :
    (∃ bound, inspect py sha stack r commit = .ok bound) ↔ Answerable py stack r commit := by
  obtain ⟨text, data, htext, hload, -⟩ := hbound.manifest
  have hdeep : py.tooDeep text = false := by
    rw [jsonLoads] at hload
    split_ifs at hload with hdeep
    exact Bool.eq_false_of_not_eq_true hdeep
  have hends : (∃ bound, inspect py sha stack r commit = .ok bound) ↔
      ∀ e, runtimeContentDigest sha stack r.tree = .error e → e = .osError := by
    rw [inspect_bound hbound]
    cases runtimeContentDigest sha stack r.tree with
    | ok digest => exact iff_of_true ⟨_, rfl⟩ fun e h => by cases h
    | error exc => cases exc <;> simp
  rw [hends, runtimeContentDigest_raises_iff]
  constructor
  · intro h
    refine ⟨fun _ => rootIsUsable_answers_iff.1 ⟨true, hbound.complete⟩, fun _ _ text' htext' => ?_,
      fun _ _ hlisted => (h hlisted).1, fun _ _ hlisted => (h hlisted).2⟩
    rw [htext] at htext'
    cases htext'
    exact hdeep
  · intro h hlisted
    exact ⟨h.walk expected hbound hlisted, h.rows expected hbound hlisted⟩

/-- **When an inspection answers.** -/
theorem inspect_answers_iff :
    (∃ bound, inspect py sha stack r commit = .ok bound) ↔ Answerable py stack r commit := by
  by_cases hbound : ∃ expected, BoundTo py r commit expected
  · obtain ⟨expected, hbound⟩ := hbound
    exact inspect_answers_iff_of_bound hbound
  · -- the tree of an unbound runtime is not read
    have hfree (hentry : isValidCommitName commit = true → ∃ b,
        rootIsUsable r.isFile entryPoints = .ok b) (hmanifest : isValidCommitName commit = true →
          (∀ entry ∈ entryPoints, r.isFile entry = .present) → ∀ text,
            manifestText py r = some text → py.tooDeep text = false) :
        Answerable py stack r commit :=
      ⟨fun hvalid => rootIsUsable_answers_iff.1 (hentry hvalid), hmanifest,
        fun expected h => absurd ⟨expected, h⟩ hbound,
        fun expected h => absurd ⟨expected, h⟩ hbound⟩
    by_cases hvalid : isValidCommitName commit = true
    · cases hcomplete : rootIsUsable r.isFile entryPoints with
      | error e =>
        rw [inspect, if_neg (by simp [hvalid]), hcomplete]
        refine iff_of_false (fun ⟨b, hb⟩ => nomatch hb) fun h => ?_
        obtain ⟨b, hb⟩ := rootIsUsable_answers_iff.2 (h.entryPoints hvalid)
        rw [hcomplete] at hb
        cases hb
      | ok complete =>
        cases complete with
        | false =>
          rw [inspect, if_neg (by simp [hvalid]), hcomplete]
          refine iff_of_true ⟨none, rfl⟩ (hfree (fun _ => ⟨false, hcomplete⟩) fun _ hall => ?_)
          rw [rootIsUsable_eq_true.2 hall] at hcomplete
          cases hcomplete
        | true =>
          have hread : (∃ bound, inspect py sha stack r commit = .ok bound) ↔
              ∃ data, readManifest py r = .ok data := by
            rw [inspect_unbound hvalid hcomplete hbound]
            cases readManifest py r with
            | error e => exact iff_of_false (fun ⟨_, h⟩ => nomatch h) fun ⟨_, h⟩ => nomatch h
            | ok data => exact iff_of_true ⟨none, rfl⟩ ⟨data, rfl⟩
          rw [hread, readManifest_answers_iff]
          constructor
          · intro h
            exact hfree (fun _ => ⟨true, hcomplete⟩) fun _ _ => h
          · intro h
            exact h.manifest hvalid (rootIsUsable_eq_true.1 hcomplete)
    · rw [inspect, if_pos (Bool.eq_false_of_not_eq_true hvalid)]
      exact iff_of_true ⟨none, rfl⟩ (hfree (fun h => absurd h hvalid) fun h => absurd h hvalid)

/-- What an inspection promises. -/
structure InspectionSound (py : Interpreter) (sha : Sha256) (stack : ℕ) (r : Runtime)
    (commit : PyStr) : Prop where
  /-- Equal digests without a collision are those of trees that agree. -/
  injective : ∀ stack₁ stack₂ t₁ t₂ digest, runtimeContentDigest sha stack₁ t₁ = .ok digest →
    runtimeContentDigest sha stack₂ t₂ = .ok digest →
      Set.InjOn sha.digest (hashed sha stack₁ t₁ ∪ hashed sha stack₂ t₂) → Agree t₁ t₂
  /-- Neither sealing nor unsealing changes a digest. -/
  sealing : ∀ stack₁ t, runtimeContentDigest sha stack₁ (sealTree t) =
      runtimeContentDigest sha stack₁ t ∧
    runtimeContentDigest sha stack₁ (unsealTree t) = runtimeContentDigest sha stack₁ t
  answers : ∃ usable, (runtimeIsUsable py sha stack r commit).1 = .ok usable
  readOnly : (runtimeIsUsable py sha stack r commit).1 = .ok true →
    ReadOnly (runtimeIsUsable py sha stack r commit).2
  /-- A usable tree agrees with the one for which its manifest was written. -/
  materialised : ∀ stack₀ t₀ commit₀ text, writeRuntimeManifest sha stack₀ t₀ commit₀ = .ok text →
    manifestText py r = some text → (runtimeIsUsable py sha stack r commit).1 = .ok true →
      Set.InjOn sha.digest (hashed sha stack (runtimeIsUsable py sha stack r commit).2 ∪
        hashed sha stack₀ t₀) → Agree (runtimeIsUsable py sha stack r commit).2 t₀

/-- A usable tree has the digest of the one for which its manifest was written. -/
theorem digest_of_written {stack₀ : ℕ} {t₀ : Tree} {commit₀ : PyStr} {text : List Char}
    (hwritten : writeRuntimeManifest sha stack₀ t₀ commit₀ = .ok text)
    (htext : manifestText py r = some text)
    (h : (runtimeIsUsable py sha stack r commit).1 = .ok true) : ∃ digest,
      runtimeContentDigest sha stack (runtimeIsUsable py sha stack r commit).2 = .ok digest ∧
        runtimeContentDigest sha stack₀ t₀ = .ok digest := by
  obtain ⟨expected, hbound, hdigest, -, -⟩ := runtimeIsUsable_eq_true h
  obtain ⟨digest, hdigest₀, rfl⟩ := except_map_eq_ok hwritten
  obtain ⟨text', data, htext', hload, hexpected⟩ := hbound.manifest
  rw [htext] at htext'
  cases htext'
  obtain rfl := manifestDigest_written hload hexpected
  exact ⟨expected, hdigest, hdigest₀⟩

/-- An inspection answers when its first part does: the second digest is the first one. -/
theorem runtimeIsUsable_answers_iff :
    (∃ usable, (runtimeIsUsable py sha stack r commit).1 = .ok usable) ↔
      ∃ bound, inspect py sha stack r commit = .ok bound := by
  rw [runtimeIsUsable]
  cases hinspect : inspect py sha stack r commit with
  | error exc => exact iff_of_false (fun ⟨_, h⟩ => nomatch h) fun ⟨_, h⟩ => nomatch h
  | ok bound =>
    refine iff_of_true ?_ ⟨bound, rfl⟩
    cases bound with
    | none => exact ⟨false, rfl⟩
    | some expected =>
      have hsealed : runtimeContentDigest sha stack (sealTree r.tree) = .ok expected := by
        rw [sealTree, runtimeContentDigest_chmodTree keepsMasked_seal]
        exact (inspect_eq_some hinspect).2
      dsimp only
      split_ifs
      · exact ⟨true, rfl⟩
      · exact ⟨false, rfl⟩
      · exact ⟨false, rfl⟩
      · rw [hsealed]
        exact ⟨_, rfl⟩

end Inspected

/-- **When an inspection keeps its promises**: no `is_file` raises before an entry point is missing,
the manifest is not too deep for the scanner, and a bound tree is not too deep for the stack and
holds only names and targets in UTF-8, as far as they are read. -/
theorem inspection_sound_iff (py : Interpreter) (sha : Sha256) (stack : ℕ) (r : Runtime)
    (commit : PyStr) :
    InspectionSound py sha stack r commit ↔ Answerable py stack r commit := by
  rw [← @inspect_answers_iff py sha, ← runtimeIsUsable_answers_iff]
  constructor
  · intro h
    exact h.answers
  · intro hanswers
    refine ⟨fun _ _ _ _ _ h₁ h₂ hc => runtimeContentDigest_inj h₁ h₂ hc, fun _ _ =>
      ⟨runtimeContentDigest_chmodTree keepsMasked_seal _ _ _,
        runtimeContentDigest_chmodTree keepsMasked_unseal _ _ _⟩, hanswers, readOnly_of_usable, ?_⟩
    intro stack₀ t₀ commit₀ text hwritten htext husable hc
    obtain ⟨digest, hdigest, hdigest₀⟩ := digest_of_written hwritten htext husable
    exact runtimeContentDigest_inj hdigest hdigest₀ hc

/-! ## A tree with another file -/

/-- A hash that is the same for everything. -/
def constantHash : Sha256 := ⟨fun _ => List.replicate 32 0, fun _ => rfl⟩

def tamperedCommit : PyStr := List.replicate 40 0x61

/-- What the manifest of the runtime reads as. -/
def tamperedManifest : List Char :=
  dumps (runtimeManifest tamperedCommit (List.replicate 32 0)).sortKeys ++ ['\n']

def venvName : FileName := ⟨utf8Encode ".venv".toList, by decide, by decide⟩

def manifestName : FileName := ⟨utf8Encode "lubko-runtime.json".toList, by decide, by decide⟩

/-- A name that is not valid UTF-8. -/
def oddName : FileName := ⟨[0xff], by decide, by decide⟩

/-- A runtime whose `.venv` is a link, and in which a file with an odd name was added behind the
manifest. -/
def tampered : Runtime where
  tree :=
    { perm := ⟨0o555, true⟩
      listed := true
      entries := [(venvName, .link (utf8Encode "/venv".toList)),
        (manifestName, .file ⟨0o444, true⟩ (some (utf8Encode tamperedManifest))),
        (oddName, .file ⟨0o444, true⟩ (some []))]
      distinct := by decide }
  isFile _ := .present
  followed := none
  current := none

theorem text_venvName : venvName.text ≠ runtimeManifestName := by decide

theorem text_manifestName : manifestName.text = runtimeManifestName := by decide

theorem text_oddName : oddName.text ≠ runtimeManifestName := by decide

theorem manifestText_tampered :
    manifestText plainInterpreter tampered = some tamperedManifest := by
  have hdata : manifestData tampered = some (utf8Encode tamperedManifest) := by
    rw [manifestData, tampered]
    simp only [List.find?_cons, decide_eq_false text_venvName, decide_eq_true text_manifestName]
  have hlocale : plainInterpreter.locale = utf8 := rfl
  rw [manifestText, hdata, Option.bind_some, hlocale, utf8_utf8Encode]

theorem shown_tampered : tampered.tree.shown =
    [([venvName], .link (utf8Encode "/venv".toList)), ([oddName], .file 0o444 (some []))] := by
  rw [Tree.shown, tampered]
  simp only [listing, text_venvName, text_manifestName, text_oddName, and_false, and_true, if_false,
    if_true, List.map_cons, List.map_append, Node.inside, List.nil_append, List.append_nil]
  rfl

/-- A file whose name is not valid UTF-8 stops the inspection. -/
theorem tampered_inspection_raises :
    ¬ InspectionSound plainInterpreter constantHash 900 tampered tamperedCommit := by
  intro h
  have hanswerable : Answerable plainInterpreter 900 tampered tamperedCommit :=
    inspect_answers_iff.1 (runtimeIsUsable_answers_iff.1 h.answers)
  have hbound : BoundTo plainInterpreter tampered tamperedCommit (List.replicate 32 0) :=
    boundTo_written (by decide) (fun _ _ => rfl) manifestText_tampered fun _ => ⟨rfl, rfl⟩
  have hdirs : ∀ x ∈ tampered.tree.shown, x.2 ≠ .dir false := by
    rw [shown_tampered]
    simp
  have hreadable : ∀ x ∈ tampered.tree.shown, ¬ x.2.Unreadable := by
    rw [shown_tampered]
    simp [Entry.Unreadable]
  have hperm : (byPath tampered.tree.shown).Perm tampered.tree.shown := List.mergeSort_perm _ _
  have hmem : ([oddName], Entry.file 0o444 (some [])) ∈ byPath tampered.tree.shown := by
    rw [hperm.mem_iff, shown_tampered]
    simp
  obtain ⟨front, back, heq⟩ := List.append_of_mem hmem
  have hencodable : Encodable ([oddName], Entry.file 0o444 (some [])) := by
    refine hanswerable.rows _ hbound rfl hdirs front _ back heq fun y hy => ?_
    refine hreadable y (hperm.mem_iff.1 ?_)
    rw [heq]
    exact List.mem_append_left _ hy
  exact absurd (hencodable.names oddName List.mem_cons_self) (by decide)

end Lubko.Cli.Digest
