import Lubko.Cli.Digest

/-!
# Equal digests

The stream of a tree is read back in one way: every field is behind its length, and the kind of an
entry, its second field, says how many fields it has. So two trees with one stream have the same
sorted entries, and two files with one content digest the same content where the hash has no
collision.

* `part_raises`, `part_unreadable` — what an entry raises that adds nothing to the stream.
* `digestInput_eq_ok` — what a stream says about its tree.
* `runtimeContentDigest_raises_iff` — when a digest raises an `OSError` at most.
* `runtimeContentDigest_inj` — equal digests without a collision are those of trees that agree.
-/

namespace Lubko.Cli.Digest

open Lubko.Lib

/-! ## Equal digests -/

/-- The fields of an entry in the stream. -/
def fields (sha : Sha256) (x : List FileName × Entry) : List (List UInt8) :=
  match x.2 with
  | .file mode content =>
    [relBytes x.1, [0x66], modeBytes mode, sha.digest (content.getD [])]
  | .link target => [relBytes x.1, [0x6c], target]
  | .dir _ => [relBytes x.1, [0x64]]
  | .other mode => [relBytes x.1, [0x6f], modeBytes mode]

/-- The names on the path, and the target of a link, are valid UTF-8 and have a length in eight
bytes. -/
structure Encodable (x : List FileName × Entry) : Prop where
  names : ∀ name ∈ x.1, (utf8 name.bytes).isSome
  framed : Framed (relBytes x.1)
  target : ∀ target, x.2 = .link target → (utf8 target).isSome ∧ Framed target

/-- The entry is a file that cannot be opened. -/
def Entry.Unreadable (e : Entry) : Prop := ∃ mode, e = .file mode none

theorem update_framed {data : List UInt8} (h : Framed data) : update data = .ok (frame data) :=
  if_pos h

theorem framed_of_length {data : List UInt8} {n : ℕ} (h : data.length = n) (hn : n < 2 ^ 64) :
    Framed data := by
  rw [Framed, h]
  exact hn

theorem framed_modeBytes (mode : Mode) : Framed (modeBytes mode) :=
  framed_of_length (length_bigEndian 2 _) (by norm_num)

theorem framed_digest (sha : Sha256) (data : List UInt8) : Framed (sha.digest data) :=
  framed_of_length (sha.length_digest data) (by norm_num)

theorem encodeText_relText {path : List FileName} (h : ∀ name ∈ path, (utf8 name.bytes).isSome) :
    encodeText (relText path) = .ok (relBytes path) := by
  rw [encodeText, encode?_relText, if_pos h]

theorem encodeText_fsdecode {bytes : List UInt8} (h : (utf8 bytes).isSome) :
    encodeText (fsdecode bytes) = .ok bytes := by
  obtain ⟨t, ht⟩ := Option.isSome_iff_exists.1 h
  rw [encodeText, encode?_fsdecode, ht]
  rfl

section Part

variable {sha : Sha256} {x : List FileName × Entry}

/-- An entry adds its fields. -/
theorem part_ok (he : Encodable x) (hr : ¬ x.2.Unreadable) :
    part sha x = .ok ((fields sha x).flatMap frame) := by
  obtain ⟨path, entry⟩ := x
  have hrel : encodeText (relText path) >>= update = .ok (frame (relBytes path)) := by
    rw [encodeText_relText he.names]
    exact update_framed he.framed
  rw [part, row, contribution, hrel, ok_bind]
  cases entry with
  | file mode content =>
    cases content with
    | none => exact absurd ⟨mode, rfl⟩ hr
    | some data =>
      simp only [fileContentDigest, update_framed (show Framed [0x66] by decide),
        update_framed (framed_modeBytes mode), update_framed (framed_digest sha data), ok_bind]
      simp [fields, pure, Except.pure]
  | link target =>
    obtain ⟨hutf8, hframed⟩ := he.target target rfl
    simp only [update_framed (show Framed [0x6c] by decide), encodeText_fsdecode hutf8,
      update_framed hframed, ok_bind]
    simp [fields, pure, Except.pure]
  | dir listed =>
    simp only [update_framed (show Framed [0x64] by decide), ok_bind]
    simp [fields, pure, Except.pure]
  | other mode =>
    simp only [update_framed (show Framed [0x6f] by decide),
      update_framed (framed_modeBytes mode), ok_bind]
    simp [fields, pure, Except.pure]

/-- A file that cannot be opened is an `OSError`. -/
theorem part_unreadable (he : Encodable x) (hr : x.2.Unreadable) :
    part sha x = .error .osError := by
  obtain ⟨path, entry⟩ := x
  obtain ⟨mode, rfl⟩ := hr
  have hrel : encodeText (relText path) >>= update = .ok (frame (relBytes path)) := by
    rw [encodeText_relText he.names]
    exact update_framed he.framed
  rw [part, row, contribution, hrel, ok_bind]
  simp only [fileContentDigest, update_framed (show Framed [0x66] by decide),
    update_framed (framed_modeBytes mode), ok_bind, error_bind]

/-- A text that does not encode, or that is too long, raises no `OSError`. -/
theorem encodeText_raises {text : PyStr} {bytes : List UInt8} {valid : Prop} [Decidable valid]
    (hencode : text.encode? = if valid then some bytes else none)
    (h : ¬ (valid ∧ Framed bytes)) :
    ∃ e, encodeText text >>= update = .error e ∧ e ≠ .osError := by
  rw [encodeText, hencode]
  by_cases hvalid : valid
  · rw [if_pos hvalid]
    exact ⟨.overflowError, if_neg fun hframed => h ⟨hvalid, hframed⟩, by decide⟩
  · rw [if_neg hvalid]
    exact ⟨.unicodeEncodeError, rfl, by decide⟩

/-- **An entry that does not encode** raises something that is no `OSError`. -/
theorem part_raises (he : ¬ Encodable x) : ∃ e, part sha x = .error e ∧ e ≠ .osError := by
  obtain ⟨path, entry⟩ := x
  rw [part, row, contribution]
  by_cases hrel : (∀ name ∈ path, (utf8 name.bytes).isSome) ∧ Framed (relBytes path)
  · have hok : encodeText (relText path) >>= update = .ok (frame (relBytes path)) := by
      rw [encodeText_relText hrel.1]
      exact update_framed hrel.2
    rw [hok, ok_bind]
    cases entry with
    | link target =>
      have hencode : PyStr.encode? (fsdecode target) =
          if (utf8 target).isSome then some target else none := by
        rw [encode?_fsdecode]
        cases utf8 target <;> rfl
      obtain ⟨e, hraises, hne⟩ := encodeText_raises hencode fun htarget =>
        he ⟨hrel.1, hrel.2, fun t ht => by
          cases ht
          exact htarget⟩
      simp only [update_framed (show Framed [0x6c] by decide), ok_bind, hraises, error_bind]
      exact ⟨e, rfl, hne⟩
    | file mode content => exact absurd ⟨hrel.1, hrel.2, fun _ ht => by cases ht⟩ he
    | dir listed => exact absurd ⟨hrel.1, hrel.2, fun _ ht => by cases ht⟩ he
    | other mode => exact absurd ⟨hrel.1, hrel.2, fun _ ht => by cases ht⟩ he
  · obtain ⟨e, hraises, hne⟩ := encodeText_raises (encode?_relText path) hrel
    rw [hraises, error_bind]
    exact ⟨e, rfl, hne⟩

/-- What an entry added was its fields. -/
theorem part_eq_ok {out : List UInt8} (h : part sha x = .ok out) :
    Encodable x ∧ ¬ x.2.Unreadable ∧ out = (fields sha x).flatMap frame := by
  by_cases he : Encodable x
  · by_cases hr : x.2.Unreadable
    · rw [part_unreadable he hr] at h
      cases h
    · rw [part_ok he hr] at h
      exact ⟨he, hr, (Except.ok.inj h).symm⟩
  · obtain ⟨e, hraises, -⟩ : ∃ e, part sha x = .error e ∧ e ≠ .osError := part_raises he
    rw [hraises] at h
    cases h

/-- The fields of an entry that encodes have their lengths in eight bytes. -/
theorem framed_fields (he : Encodable x) : ∀ data ∈ fields sha x, Framed data := by
  obtain ⟨path, entry⟩ := x
  have hrel : Framed (relBytes path) := he.framed
  cases entry with
  | file mode content =>
    simp only [fields, List.forall_mem_cons]
    exact ⟨hrel, by decide, framed_modeBytes mode, framed_digest sha _, by simp⟩
  | link target =>
    simp only [fields, List.forall_mem_cons]
    exact ⟨hrel, by decide, (he.target target rfl).2, by simp⟩
  | dir listed =>
    simp only [fields, List.forall_mem_cons]
    exact ⟨hrel, by decide, by simp⟩
  | other mode =>
    simp only [fields, List.forall_mem_cons]
    exact ⟨hrel, by decide, framed_modeBytes mode, by simp⟩

end Part

/-! ## Exceptions -/

/-- No directory that the walk enters is nested deeper than the stack goes, up to the first one that
is not listed. -/
def WalkBounded (stack : ℕ) (t : Tree) : Prop :=
  ∀ front x back, t.shown = front ++ x :: back → (∀ y ∈ front, y.2 ≠ .dir false) →
    ∀ listed, x.2 = .dir listed → x.1.length ≤ stack

/-- The entries encode, in the order of their paths, up to the first file that cannot be opened. -/
def RowsEncodable (t : Tree) : Prop :=
  ∀ front x back, byPath t.shown = front ++ x :: back → (∀ y ∈ front, ¬ y.2.Unreadable) →
    Encodable x

theorem walk_raises_iff {stack : ℕ} {t : Tree} :
    (∀ e, t.shown.mapM (enter stack) = .error e → e = .osError) ↔ WalkBounded stack t := by
  rw [mapM_raises_iff (fun x : List FileName × Entry =>
    (∃ listed, x.2 = .dir listed) ∧ stack < x.1.length) fun x => x.2 = .dir false]
  · constructor
    · intro h front x back heq hfront listed hdir
      exact not_lt.1 fun hlt => h front x back heq hfront ⟨⟨listed, hdir⟩, hlt⟩
    · intro h front x back heq hfront hbad
      obtain ⟨⟨listed, hdir⟩, hlt⟩ := hbad
      exact absurd hlt (not_lt.2 (h front x back heq hfront listed hdir))
  · rintro ⟨path, entry⟩ ⟨⟨listed, rfl⟩, hlt⟩
    exact ⟨.recursionError, if_pos hlt, by decide⟩
  · rintro ⟨path, entry⟩ hbad rfl
    exact ⟨.osError, if_neg fun hlt => hbad ⟨⟨false, rfl⟩, hlt⟩, rfl⟩
  · rintro ⟨path, entry⟩ hbad hstop
    cases entry with
    | dir listed =>
      cases listed with
      | false => exact absurd rfl hstop
      | true => exact ⟨(), if_neg fun hlt => hbad ⟨⟨true, rfl⟩, hlt⟩⟩
    | file mode content => exact ⟨(), rfl⟩
    | link target => exact ⟨(), rfl⟩
    | other mode => exact ⟨(), rfl⟩

theorem rows_raise_iff (sha : Sha256) {t : Tree} :
    (∀ e, (byPath t.shown).mapM (part sha) = .error e → e = .osError) ↔ RowsEncodable t := by
  rw [mapM_raises_iff (fun x => ¬ Encodable x) fun x : List FileName × Entry => x.2.Unreadable]
  · constructor
    · intro h front x back heq hfront
      exact not_not.1 (h front x back heq hfront)
    · intro h front x back heq hfront
      exact not_not.2 (h front x back heq hfront)
  · intro x hx
    exact part_raises hx
  · intro x hx hr
    exact ⟨.osError, part_unreadable (not_not.1 hx) hr, rfl⟩
  · intro x hx hr
    exact ⟨_, part_ok (not_not.1 hx) hr⟩

/-- The walk raises an `OSError` at a directory that is not listed. -/
theorem enter_eq_osError {stack : ℕ} {x : List FileName × Entry}
    (h : enter stack x = .error .osError) : x.2 = .dir false := by
  obtain ⟨path, entry⟩ := x
  cases entry with
  | dir listed =>
    cases listed with
    | false => rfl
    | true =>
      simp only [enter, if_true] at h
      split_ifs at h
      cases h
  | file mode content => cases h
  | link target => cases h
  | other mode => cases h

/-- **When a digest raises an `OSError` at most.** -/
theorem runtimeContentDigest_raises_iff {sha : Sha256} {stack : ℕ} {t : Tree} :
    (∀ e, runtimeContentDigest sha stack t = .error e → e = .osError) ↔
      (t.listed = true → WalkBounded stack t ∧
        ((∀ x ∈ t.shown, x.2 ≠ .dir false) → RowsEncodable t)) := by
  rw [runtimeContentDigest, digestInput_eq]
  by_cases hlisted : t.listed = true
  · rw [if_pos hlisted, forall_prop_of_true hlisted, ← walk_raises_iff, ← rows_raise_iff sha]
    cases hwalk : t.shown.mapM (enter stack) with
    | error e =>
      constructor
      · intro h
        have he : e = .osError := h e rfl
        subst he
        refine ⟨fun e' he' => (Except.error.inj he').symm, fun hdirs => ?_⟩
        obtain ⟨x, hx, hraises⟩ := mapM_eq_error hwalk
        exact absurd (enter_eq_osError hraises) (hdirs x hx)
      · intro h e' he'
        exact h.1 e' (by cases he'; rfl)
    | ok us =>
      have hdirs : ∀ x ∈ t.shown, x.2 ≠ .dir false := by
        intro x hx hfalse
        obtain ⟨u, -, hu⟩ := forall₂_left (mapM_eq_ok hwalk) x hx
        rw [enter, hfalse] at hu
        split_ifs at hu
        cases hu
      rw [ok_bind, forall_prop_of_true hdirs, and_iff_right (fun e h => by cases h)]
      cases (byPath t.shown).mapM (part sha) with
      | error e =>
        constructor
        · intro h e' he'
          exact h e' (by cases he'; rfl)
        · intro h e' he'
          exact h e' (by cases he'; rfl)
      | ok parts => exact iff_of_true (fun e h => by cases h) fun e h => by cases h
  · rw [if_neg hlisted]
    exact iff_of_true (fun e h => (Except.error.inj h).symm) fun h => absurd h hlisted

/-! ## Fields -/

theorem modeBytes_inj {mode mode' : Mode} (h : modeBytes mode = modeBytes mode') :
    mode &&& ~~~writeBits = mode' &&& ~~~writeBits := by
  have hlt (m : Mode) : (m &&& ~~~writeBits).toNat < 0x100 ^ 2 :=
    lt_of_lt_of_le (BitVec.isLt _) (by norm_num)
  exact BitVec.eq_of_toNat_eq (bigEndian_inj (hlt mode) (hlt mode') h)

/-- The content of a file. -/
def IsContent (x : List FileName × Entry) (data : List UInt8) : Prop :=
  ∃ mode, x.2 = .file mode (some data)

/-- The kind in the second field says how many fields an entry has. -/
theorem fields_append_inj {sha : Sha256} {x y : List FileName × Entry} {xs ys : List (List UInt8)}
    (hx : ¬ x.2.Unreadable) (hy : ¬ y.2.Unreadable)
    (hlisted : ∀ l l', x.2 = .dir l → y.2 = .dir l' → l = l')
    (hc : ∀ data data', IsContent x data → IsContent y data' →
      sha.digest data = sha.digest data' → data = data')
    (h : fields sha x ++ xs = fields sha y ++ ys) : maskEntry x = maskEntry y ∧ xs = ys := by
  obtain ⟨path, entry⟩ := x
  obtain ⟨path', entry'⟩ := y
  -- entries of different kinds differ in their second field
  cases entry with
  | file mode content =>
    cases entry' with
    | file mode' content' =>
      simp only [fields, List.cons_append, List.nil_append, List.cons.injEq, true_and] at h
      obtain ⟨hpath, hmode, hhash, hrest⟩ := h
      cases content with
      | none => exact absurd ⟨mode, rfl⟩ hx
      | some data =>
        cases content' with
        | none => exact absurd ⟨mode', rfl⟩ hy
        | some data' =>
          have hdata : data = data' := hc data data' ⟨mode, rfl⟩ ⟨mode', rfl⟩ hhash
          rw [relBytes_injective hpath, maskEntry, maskEntry, Entry.masked, Entry.masked,
            modeBytes_inj hmode, hdata]
          exact ⟨rfl, hrest⟩
    | link target => simp [fields] at h
    | dir listed => simp [fields] at h
    | other mode' => simp [fields] at h
  | link target =>
    cases entry' with
    | link target' =>
      simp only [fields, List.cons_append, List.nil_append, List.cons.injEq, true_and] at h
      obtain ⟨hpath, rfl, hrest⟩ := h
      rw [relBytes_injective hpath]
      exact ⟨rfl, hrest⟩
    | file mode' content' => simp [fields] at h
    | dir listed => simp [fields] at h
    | other mode' => simp [fields] at h
  | dir listed =>
    cases entry' with
    | dir listed' =>
      simp only [fields, List.cons_append, List.nil_append, List.cons.injEq, true_and] at h
      obtain ⟨hpath, hrest⟩ := h
      rw [relBytes_injective hpath, hlisted listed listed' rfl rfl]
      exact ⟨rfl, hrest⟩
    | file mode' content' => simp [fields] at h
    | link target => simp [fields] at h
    | other mode' => simp [fields] at h
  | other mode =>
    cases entry' with
    | other mode' =>
      simp only [fields, List.cons_append, List.nil_append, List.cons.injEq, true_and] at h
      obtain ⟨hpath, hmode, hrest⟩ := h
      rw [relBytes_injective hpath, maskEntry, maskEntry, Entry.masked, Entry.masked,
        modeBytes_inj hmode]
      exact ⟨rfl, hrest⟩
    | file mode' content' => simp [fields] at h
    | link target => simp [fields] at h
    | dir listed => simp [fields] at h

/-- An entry a stream is made of. -/
structure Streamed (x : List FileName × Entry) : Prop where
  encodable : Encodable x
  readable : ¬ x.2.Unreadable
  listed : x.2 ≠ .dir false

theorem Streamed.dir {x : List FileName × Entry} (h : Streamed x) {l : Bool}
    (hl : x.2 = .dir l) : l = true := by
  cases l with
  | false => exact absurd hl h.listed
  | true => rfl

/-- **The entries are read back from their fields.** -/
theorem flatMap_fields_inj {sha : Sha256} {xs ys : List (List FileName × Entry)}
    (hx : ∀ x ∈ xs, Streamed x) (hy : ∀ y ∈ ys, Streamed y)
    (hc : ∀ x ∈ xs, ∀ y ∈ ys, ∀ data data', IsContent x data → IsContent y data' →
      sha.digest data = sha.digest data' → data = data')
    (h : xs.flatMap (fields sha) = ys.flatMap (fields sha)) :
    xs.map maskEntry = ys.map maskEntry := by
  have hne (z : List FileName × Entry) (zs : List (List UInt8)) : fields sha z ++ zs ≠ [] := by
    obtain ⟨path, entry⟩ := z
    cases entry <;> exact List.cons_ne_nil _ _
  induction xs generalizing ys with
  | nil =>
    cases ys with
    | nil => rfl
    | cons y ys => exact absurd h.symm (hne y _)
  | cons x xs ih =>
    cases ys with
    | nil => exact absurd h (hne x _)
    | cons y ys =>
      rw [List.forall_mem_cons] at hx hy
      rw [List.flatMap_cons, List.flatMap_cons] at h
      have hcontent := hc x List.mem_cons_self y List.mem_cons_self
      obtain ⟨hhead, hrest⟩ := fields_append_inj hx.1.readable hy.1.readable
        (fun l l' hl hl' => (hx.1.dir hl).trans (hy.1.dir hl').symm) hcontent h
      rw [List.map_cons, List.map_cons, hhead, ih hx.2 hy.2 (fun a ha b hb =>
        hc a (List.mem_cons_of_mem x ha) b (List.mem_cons_of_mem y hb)) hrest]

/-- The parts of a stream are the fields of its entries. -/
theorem flatten_parts {sha : Sha256} {xs : List (List FileName × Entry)} {outs : List (List UInt8)}
    (h : List.Forall₂ (fun x out => part sha x = .ok out) xs outs) :
    outs.flatten = (xs.flatMap (fields sha)).flatMap frame := by
  induction h with
  | nil => rfl
  | cons hx _ ih =>
    obtain ⟨-, -, rfl⟩ := part_eq_ok hx
    rw [List.flatten_cons, ih, List.flatMap_cons, List.flatMap_append]

/-- **What a stream says**: the walk entered every directory, every entry was encoded and read, and
the stream is their fields in the order of their paths. -/
theorem digestInput_eq_ok {sha : Sha256} {stack : ℕ} {t : Tree} {out : List UInt8}
    (h : digestInput sha stack t = .ok out) : t.listed = true ∧ (∀ x ∈ t.shown, Streamed x) ∧
      out = ((byPath t.shown).flatMap (fields sha)).flatMap frame := by
  rw [digestInput_eq] at h
  split_ifs at h with hlisted
  obtain ⟨us, henter, h⟩ := except_bind_eq_ok.1 h
  cases hparts : (byPath t.shown).mapM (part sha) with
  | error e =>
    rw [hparts] at h
    cases h
  | ok outs =>
    rw [hparts] at h
    have hout : outs.flatten = out := Except.ok.inj h
    have hforall := mapM_eq_ok hparts
    have hperm : (byPath t.shown).Perm t.shown := List.mergeSort_perm _ _
    have hpart : ∀ x ∈ t.shown, ∃ out, part sha x = .ok out := fun x hx => by
      obtain ⟨out, -, hout⟩ := forall₂_left hforall x (hperm.mem_iff.2 hx)
      exact ⟨out, hout⟩
    have hdirs : ∀ x ∈ t.shown, enter stack x = .ok () := fun x hx => by
      obtain ⟨u, -, hu⟩ := forall₂_left (mapM_eq_ok henter) x hx
      exact hu
    refine ⟨hlisted, fun x hx => ?_, ?_⟩
    · obtain ⟨out, hok⟩ := hpart x hx
      obtain ⟨he, hr, -⟩ := part_eq_ok hok
      refine ⟨he, hr, fun hfalse => ?_⟩
      have hdir := hdirs x hx
      rw [enter, hfalse] at hdir
      split_ifs at hdir
      cases hdir
    · rw [← hout, flatten_parts hforall]

/-- The byte strings that are hashed for the digest of a tree. -/
def hashed (sha : Sha256) (stack : ℕ) (t : Tree) : Set (List UInt8) :=
  {data | digestInput sha stack t = .ok data ∨ ∃ x ∈ t.shown, IsContent x data}

/-- **Equal digests, without a collision, are those of trees that agree.** -/
theorem runtimeContentDigest_inj {sha : Sha256} {stack stack' : ℕ} {t t' : Tree} {d : List UInt8}
    (h : runtimeContentDigest sha stack t = .ok d)
    (h' : runtimeContentDigest sha stack' t' = .ok d)
    (hc : Set.InjOn sha.digest (hashed sha stack t ∪ hashed sha stack' t')) : Agree t t' := by
  obtain ⟨out, hin, rfl⟩ := except_map_eq_ok h
  obtain ⟨out', hin', heq⟩ := except_map_eq_ok h'
  have hout : out' = out := hc (.inr (.inl hin')) (.inl (.inl hin)) heq
  obtain ⟨-, hstreamed, hfields⟩ := digestInput_eq_ok hin
  obtain ⟨-, hstreamed', hfields'⟩ := digestInput_eq_ok hin'
  have hperm : (byPath t.shown).Perm t.shown := List.mergeSort_perm _ _
  have hperm' : (byPath t'.shown).Perm t'.shown := List.mergeSort_perm _ _
  have hframed {t : Tree} (hs : ∀ x ∈ t.shown, Streamed x) :
      ∀ data ∈ (byPath t.shown).flatMap (fields sha), Framed data := by
    intro data hdata
    obtain ⟨x, hx, hmem⟩ := List.mem_flatMap.1 hdata
    exact framed_fields (hs x ((List.mergeSort_perm _ _).mem_iff.1 hx)).encodable data hmem
  have hflat : (byPath t.shown).flatMap (fields sha) = (byPath t'.shown).flatMap (fields sha) :=
    flatMap_frame_inj (hframed hstreamed) (hframed hstreamed') (by rw [← hfields, ← hfields', hout])
  have hmasked : (byPath t.shown).map maskEntry = (byPath t'.shown).map maskEntry :=
    flatMap_fields_inj (fun x hx => hstreamed x (hperm.mem_iff.1 hx))
      (fun y hy => hstreamed' y (hperm'.mem_iff.1 hy))
      (fun x hx y hy data data' hdata hdata' => fun hsha =>
        hc (.inl (.inr ⟨x, hperm.mem_iff.1 hx, hdata⟩))
          (.inr (.inr ⟨y, hperm'.mem_iff.1 hy, hdata'⟩)) hsha) hflat
  have hself (t : Tree) : t.shown.map maskEntry = t.shown := by
    rw [Tree.shown, List.map_map]
    exact congrArg (fun f => List.map f _) (funext fun x => by simp [maskEntry])
  intro x
  have hshown : t.shown.Perm t'.shown := by
    rw [← hself t, ← hself t']
    exact (hperm.map maskEntry).symm.trans ((List.Perm.of_eq hmasked).trans (hperm'.map maskEntry))
  exact hshown.mem_iff

end Lubko.Cli.Digest
