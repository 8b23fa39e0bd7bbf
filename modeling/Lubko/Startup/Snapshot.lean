import Lubko.Startup.Artifacts
import Lubko.Supervise.ControlSocket

/-!
# The snapshot, byte by byte

`_snapshot_pre_confirmation_artifacts` and `_restore_pre_confirmation_artifacts` on the content of
the files, when every file operation succeeds. The snapshot is a JSON object whose members are
`null` or a list of bytes, and a strict reader takes it back. The launcher is then written as it
was; the contract and the definition are decoded and written again as JSON.

`json.loads` on other encodings than UTF-8, the text of a float, the nesting limit of the encoder
and the mode of a new file are parameters.

* `readPreConfirmationSnapshot_written` — the reader returns what was recorded.
* `restored_iff` — the artifacts are restored just when the contract and the definition, where they
  are present, are the lines that are written of what is read from them.
-/

namespace Lubko.Startup.Snapshot

open Lubko.Lib Lubko.Lifecycle

open Supervise (jsonLoadsBytes Plain jsonLoads_plain)

/-! ## JSON that is written again -/

/-- What `json.dumps` decides: the text of the float that a literal was read as, and which values
are nested too deep. -/
structure Encoder where
  floatText : List Char → List Char
  tooDeep : Json → Bool

mutual

/-- The floats of a value as they are written. -/
def mapFloats (f : List Char → List Char) : Json → Json
  | .float lit => .float (f lit)
  | .arr items => .arr (mapFloatsItems f items)
  | .obj members => .obj (mapFloatsMembers f members)
  | v => v

/-- `mapFloats` on the items of an array. -/
def mapFloatsItems (f : List Char → List Char) : List Json → List Json
  | [] => []
  | v :: vs => mapFloats f v :: mapFloatsItems f vs

/-- `mapFloats` on the members of an object. -/
def mapFloatsMembers (f : List Char → List Char) : List (PyStr × Json) → List (PyStr × Json)
  | [] => []
  | (k, v) :: kvs => (k, mapFloats f v) :: mapFloatsMembers f kvs

end

/-- `json.dumps(mapping, sort_keys=True) + "\n"`. -/
def jsonLine (enc : Encoder) (v : Json) : List Char :=
  dumps (mapFloats enc.floatText v).sortKeys ++ ['\n']

/-- `write_json_durable`: the bytes it writes. -/
def writeJsonDurable (enc : Encoder) (v : Json) : Outcome Bytes :=
  if enc.tooDeep v then .error .recursionError else .ok (utf8Encode (jsonLine enc v))

/-! ## The files -/

/-- `STARTUP_LAUNCHER_MODE`. -/
def STARTUP_LAUNCHER_MODE : ℕ := 0o755

/-- The artifacts, the permission bits of the launcher, and the snapshot. -/
structure Files where
  active : Artifacts
  launcherMode : ℕ
  snapshot : Option Bytes

namespace Files

/-- `write_bytes_durable` on an artifact, which replaces the file by a new one of the mode
`created`. -/
def write (created : ℕ) (a : Artifact) (data : Bytes) (f : Files) : Files :=
  { f with
    active := f.active.set a (some data)
    launcherMode := if a = .launcher then created else f.launcherMode }

/-- `chmod(STARTUP_LAUNCHER_MODE)`. -/
def chmodLauncher (f : Files) : Files := { f with launcherMode := STARTUP_LAUNCHER_MODE }

/-- `_durable_unlink`. -/
def unlink (a : Artifact) (f : Files) : Files := { f with active := f.active.set a none }

end Files

/-! ## Recording -/

/-- `list(data)`, or `None`. -/
def artifactValue : Option Bytes → Json
  | none => .null
  | some data => .arr (data.map fun b => .int b.toNat)

/-- `snapshot_startup_artifacts`. -/
def snapshotStartupArtifacts (active : Artifacts) : List (PyStr × Json) :=
  [entry "contract" (artifactValue (active .contract)),
    entry "definition" (artifactValue (active .definition)),
    entry "launcher" (artifactValue (active .launcher))]

/-- `_snapshot_pre_confirmation_artifacts`. -/
def snapshotPreConfirmationArtifacts (enc : Encoder) (f : Files) : Outcome Files := do
  let data ← writeJsonDurable enc (.obj (snapshotStartupArtifacts f.active))
  return { f with snapshot := some data }

/-! ## Reading -/

/-- `_SNAPSHOT_KNOWN_KEYS`. -/
def SNAPSHOT_KNOWN_KEYS : List PyStr := ["contract", "definition", "launcher"]

/-- One item of a list of bytes. -/
def byteOf? : Json → Option UInt8
  | .int n => if 0 ≤ n ∧ n ≤ 255 then some (UInt8.ofNat n.toNat) else none
  | _ => none

/-- One member: `None`, or a list of bytes. -/
def artifactOf? : Json → Option (Option Bytes)
  | .null => some none
  | .arr items => (items.mapM byteOf?).map some
  | _ => none

/-- What a decoded snapshot records. -/
def decodeSnapshot : Json → Option Artifacts
  | .obj decoded =>
    let keys := decoded.map Prod.fst
    if keys.all (· ∈ SNAPSHOT_KNOWN_KEYS) && SNAPSHOT_KNOWN_KEYS.all (· ∈ keys) then do
      let contract ← artifactOf? (Json.get decoded "contract")
      let definition ← artifactOf? (Json.get decoded "definition")
      let launcher ← artifactOf? (Json.get decoded "launcher")
      return fun
        | .contract => contract
        | .definition => definition
        | .launcher => launcher
    else none
  | _ => none

/-- `_read_pre_confirmation_snapshot`, on a file. -/
def snapshotReader : JsonReader ErrorClass (Option Artifacts) where
  missing _ := .ok none
  refused _ := .ok none
  handled exc := exc.isValueError
  invalid := .ok none
  accept v := .ok (decodeSnapshot v)

/-- `_read_pre_confirmation_snapshot`. -/
def readPreConfirmationSnapshot (py : Interpreter) (f : Files) : Outcome (Option Artifacts) :=
  snapshotReader.run py utf8 (f.snapshot.elim (.absent false) .bytes)

/-! ## Restoring -/

/-- A call that goes on from the files unless it raised. -/
def andThen (r : Outcome Unit × Files) (next : Files → Outcome Unit × Files) :
    Outcome Unit × Files :=
  match r with
  | (.ok (), f) => next f
  | (.error e, f) => (.error e, f)

/-- What json decides: the interpreter, and `json.loads` of bytes that are not UTF-8. -/
structure Python where
  py : Interpreter
  other : Bytes → Outcome Json
  enc : Encoder
  /-- The mode of a new file. -/
  created : ℕ

section Restore

variable (p : Python)

/-- `write_json_durable(path, json.loads(bytes(data)))`: the bytes it writes. -/
def rewritten (data : Bytes) : Outcome Bytes := do
  let v ← jsonLoadsBytes p.py p.other data
  writeJsonDurable p.enc v

/-- The contract or the definition is written back, or removed. -/
def restoreJson (a : Artifact) (recorded : Artifacts) (f : Files) : Outcome Unit × Files :=
  match recorded a with
  | none => (.ok (), f.unlink a)
  | some data =>
    match rewritten p data with
    | .ok line => (.ok (), f.write p.created a line)
    | .error e => (.error e, f)

/-- The launcher is. -/
def restoreLauncher (recorded : Artifacts) (f : Files) : Outcome Unit × Files :=
  match recorded .launcher with
  | none => (.ok (), f.unlink .launcher)
  | some data => (.ok (), (f.write p.created .launcher data).chmodLauncher)

/-- `restore_startup_artifacts`. -/
def restoreStartupArtifacts (recorded : Artifacts) (f : Files) : Outcome Unit × Files :=
  andThen (andThen (restoreJson p .contract recorded f) (restoreJson p .definition recorded))
    (restoreLauncher p recorded)

/-- `_verify_restored_launcher_mode`. -/
def verifyRestoredLauncherMode (hadLauncher : Bool) (f : Files) : Bool :=
  if !hadLauncher then true
  else if f.active .launcher = none then false
  else f.launcherMode = STARTUP_LAUNCHER_MODE

/-- `_restore_pre_confirmation_artifacts`; what `json` raises is neither `DurabilityError` nor
`OSError`. -/
def restorePreConfirmationArtifacts (f : Files) : Outcome Bool × Files :=
  match readPreConfirmationSnapshot p.py f with
  | .error e => (.error e, f)
  | .ok none => (.ok false, f)
  | .ok (some recorded) =>
    match restoreStartupArtifacts p recorded f with
    | (.error e, f) => (.error e, f)
    | (.ok (), f) => (.ok (verifyRestoredLauncherMode (recorded .launcher).isSome f), f)

end Restore

/-! ## The snapshot is read back -/

theorem mapFloatsItems_bytes (f : List Char → List Char) (data : Bytes) :
    mapFloatsItems f (data.map fun b => .int b.toNat) = data.map fun b => .int b.toNat := by
  induction data with
  | nil => rfl
  | cons b data ih =>
    rw [List.map_cons, mapFloatsItems, ih]
    rfl

theorem sortItems_bytes (data : Bytes) :
    sortItems (data.map fun b => .int b.toNat) = data.map fun b => .int b.toNat := by
  induction data with
  | nil => rfl
  | cons b data ih =>
    rw [List.map_cons, sortItems, ih]
    rfl

theorem buildItems_bytes (data : Bytes) :
    buildItems (data.map fun b => .int b.toNat) = data.map fun b => .int b.toNat := by
  induction data with
  | nil => rfl
  | cons b data ih =>
    rw [List.map_cons, buildItems, ih]
    rfl

theorem printableItems_bytes (data : Bytes) :
    PrintableItems (data.map fun b => .int b.toNat) := by
  induction data with
  | nil => trivial
  | cons b data ih => exact ⟨trivial, ih⟩

section Member

variable (x : Option Bytes)

theorem mapFloats_artifactValue (f : List Char → List Char) :
    mapFloats f (artifactValue x) = artifactValue x := by
  cases x with
  | none => rfl
  | some data => rw [artifactValue, mapFloats, mapFloatsItems_bytes]

theorem sortKeys_artifactValue : (artifactValue x).sortKeys = artifactValue x := by
  cases x with
  | none => rfl
  | some data => rw [artifactValue, Json.sortKeys, sortItems_bytes]

theorem build_artifactValue : (artifactValue x).build = artifactValue x := by
  cases x with
  | none => rfl
  | some data => rw [artifactValue, Json.build, buildItems_bytes]

theorem writable_artifactValue : (artifactValue x).Writable := by
  refine ⟨?_⟩
  rw [sortKeys_artifactValue]
  cases x with
  | none => trivial
  | some data => exact printableItems_bytes data

theorem byteOf?_byte (b : UInt8) : byteOf? (.int b.toNat) = some b := by
  have hlt := b.toNat_lt
  rw [byteOf?, if_pos (by omega), Int.toNat_natCast, UInt8.ofNat_toNat]

/-- A member is decoded to what it was made of. -/
theorem artifactOf?_artifactValue : artifactOf? (artifactValue x) = some x := by
  cases x with
  | none => rfl
  | some data =>
    have hbytes : (data.map fun b => Json.int b.toNat).mapM byteOf? = some data := by
      induction data with
      | nil => rfl
      | cons b data ih =>
        rw [List.map_cons, List.mapM_cons, byteOf?_byte, ih]
        rfl
    rw [artifactValue, artifactOf?, hbytes, Option.map_some]

end Member

section Written

variable (active : Artifacts)

theorem keys_snapshot : (snapshotStartupArtifacts active).map Prod.fst = SNAPSHOT_KNOWN_KEYS := rfl

theorem mapFloats_snapshot (f : List Char → List Char) :
    mapFloats f (.obj (snapshotStartupArtifacts active)) =
      .obj (snapshotStartupArtifacts active) := by
  simp only [snapshotStartupArtifacts, entry, mapFloats, mapFloatsMembers, mapFloats_artifactValue]

theorem readBack_snapshot : (Json.obj (snapshotStartupArtifacts active)).readBack =
    .obj (snapshotStartupArtifacts active) := by
  have hcontract : PyStr.before "contract" "definition" = true := by decide
  have hdefinition : PyStr.before "definition" "launcher" = true := by decide
  have hsorted : sortMembers (snapshotStartupArtifacts active) =
      snapshotStartupArtifacts active := by
    simp only [snapshotStartupArtifacts, entry, sortMembers, sortKeys_artifactValue, insertMember,
      hcontract, hdefinition, if_true]
  have hkeys : SNAPSHOT_KNOWN_KEYS.Nodup ∧ ∀ k ∈ SNAPSHOT_KNOWN_KEYS, k.joinSurrogates = k := by
    decide
  have hbuilt : buildMembers (snapshotStartupArtifacts active) =
      snapshotStartupArtifacts active := by
    rw [buildMembers_eq_map (by rw [keys_snapshot]; exact hkeys.2)]
    simp only [snapshotStartupArtifacts, entry, List.map_cons, List.map_nil, build_artifactValue]
  rw [Json.readBack, Json.sortKeys, hsorted, Json.build, hbuilt,
    dictOf_of_nodup (by rw [keys_snapshot]; exact hkeys.1)]

theorem writable_snapshot : (Json.obj (snapshotStartupArtifacts active)).Writable := by
  apply Json.Writable.obj
  simp [snapshotStartupArtifacts, entry, writable_artifactValue]

theorem decodeSnapshot_snapshot :
    decodeSnapshot (.obj (snapshotStartupArtifacts active)) = some active := by
  have hcontract : Json.get (snapshotStartupArtifacts active) "contract" =
    artifactValue (active .contract) := rfl
  have hdefinition : Json.get (snapshotStartupArtifacts active) "definition" =
    artifactValue (active .definition) := rfl
  have hlauncher : Json.get (snapshotStartupArtifacts active) "launcher" =
    artifactValue (active .launcher) := rfl
  have hknown : (((snapshotStartupArtifacts active).map Prod.fst).all (· ∈ SNAPSHOT_KNOWN_KEYS) &&
      SNAPSHOT_KNOWN_KEYS.all (· ∈ (snapshotStartupArtifacts active).map Prod.fst)) = true := by
    rw [keys_snapshot]
    decide
  simp only [decodeSnapshot, hknown, if_true, hcontract, hdefinition, hlauncher,
    artifactOf?_artifactValue]
  refine congrArg some (funext fun a => ?_)
  cases a with
  | contract => rfl
  | definition => rfl
  | launcher => rfl

/-- The text of the snapshot. -/
def snapshotText : List Char :=
  dumps (Json.obj (snapshotStartupArtifacts active)).sortKeys ++ ['\n']

/-- The interpreter does not give up on a snapshot, which is nested two deep and holds no number
above 255. -/
structure Takes (p : Python) : Prop where
  read : Plain p.py (snapshotText active)
  written : p.enc.tooDeep (.obj (snapshotStartupArtifacts active)) = false

variable {active}

theorem snapshot_written {p : Python} (h : Takes active p) {f : Files} (hf : f.active = active) :
    snapshotPreConfirmationArtifacts p.enc f =
      .ok { f with snapshot := some (utf8Encode (snapshotText active)) } := by
  rw [snapshotPreConfirmationArtifacts, hf, writeJsonDurable, h.written, if_neg (by decide),
    jsonLine, mapFloats_snapshot]
  rfl

/-- **The reader returns what was recorded.** -/
theorem readPreConfirmationSnapshot_written {p : Python} (h : Takes active p) {f : Files}
    (hf : f.snapshot = some (utf8Encode (snapshotText active))) :
    readPreConfirmationSnapshot p.py f = .ok (some active) := by
  rw [readPreConfirmationSnapshot, hf]
  have hrun := snapshotReader.run_line (writable_snapshot active)
    (utf8_utf8Encode (snapshotText active)) h.read.deep h.read.digits
  rw [readBack_snapshot] at hrun
  exact hrun.trans (congrArg Except.ok (decodeSnapshot_snapshot active))

end Written

/-! ## What is restored -/

section Restored

variable {p : Python}

/-- A content that `json.loads` accepts, and that is the line with sorted keys of the value it is
decoded to. -/
def Canonical (p : Python) (data : Bytes) : Prop :=
  ∃ v, jsonLoadsBytes p.py p.other data = .ok v ∧ p.enc.tooDeep v = false ∧
    data = utf8Encode (jsonLine p.enc v)

/-- The contract and the definition, where they are present, are such contents. -/
def AllCanonical (p : Python) (prior : Artifacts) : Prop :=
  ∀ a, a ≠ .launcher → ∀ data, prior a = some data → Canonical p data

/-- The files are restored, and the call says so. -/
def Restored (prior : Artifacts) (r : Outcome Bool × Files) : Prop :=
  r.1 = .ok true ∧ (∀ a, r.2.active a = prior a) ∧
    ((prior .launcher).isSome = true → r.2.launcherMode = STARTUP_LAUNCHER_MODE)

/-- Such a content is written again as it is. -/
theorem canonical_iff {data : Bytes} : Canonical p data ↔ rewritten p data = .ok data := by
  cases hv : jsonLoadsBytes p.py p.other data with
  | error e => simp [Canonical, rewritten, hv, bind, Except.bind]
  | ok v =>
    cases hdeep : p.enc.tooDeep v with
    | true => simp [Canonical, rewritten, hv, hdeep, bind, Except.bind, writeJsonDurable]
    | false =>
      simp only [Canonical, rewritten, hv, hdeep, bind, Except.bind, writeJsonDurable,
        Except.ok.injEq, exists_eq_left', Bool.false_eq_true, if_false, true_and]
      exact eq_comm

theorem set_self (active : Artifacts) (a : Artifact) (data : Option Bytes) :
    active.set a data a = data := by
  rw [Artifacts.set, Function.update_self]

theorem set_of_ne {a b : Artifact} (h : b ≠ a) (active : Artifacts) (data : Option Bytes) :
    active.set a data b = active b := by
  rw [Artifacts.set, Function.update_of_ne h]

/-- A contract or definition that is written again as it is. -/
theorem restoreJson_canonical {a : Artifact} (ha : a ≠ .launcher) {recorded : Artifacts}
    (h : ∀ data, recorded a = some data → Canonical p data) (f : Files) :
    restoreJson p a recorded f =
      (.ok (), { f with active := f.active.set a (recorded a) }) := by
  rw [restoreJson]
  cases hdata : recorded a with
  | none => rfl
  | some data =>
    dsimp only
    rw [canonical_iff.1 (h data hdata)]
    dsimp only
    rw [Files.write, if_neg ha]

/-- A restored contract or definition is what was written, and the others are left alone. -/
theorem restoreJson_ok {a : Artifact} {recorded : Artifacts} {f f' : Files}
    (h : restoreJson p a recorded f = (.ok (), f')) :
    (∀ data, recorded a = some data → ∃ line, rewritten p data = .ok line ∧
      f'.active a = some line) ∧ ∀ b, b ≠ a → f'.active b = f.active b := by
  rw [restoreJson] at h
  cases hdata : recorded a with
  | none =>
    rw [hdata] at h
    obtain rfl := (Prod.mk.inj h).2
    refine ⟨?_, fun b hb => set_of_ne hb _ _⟩
    intro data hsome
    cases hsome
  | some data =>
    rw [hdata] at h
    dsimp only at h
    cases hline : rewritten p data with
    | error e =>
      rw [hline] at h
      cases h
    | ok line =>
      rw [hline] at h
      obtain rfl := (Prod.mk.inj h).2
      refine ⟨?_, fun b hb => set_of_ne hb _ _⟩
      intro data' hsome
      obtain rfl := Option.some.inj hsome
      exact ⟨line, hline, set_self _ _ _⟩

theorem restoreLauncher_frame {a : Artifact} (ha : a ≠ .launcher) (recorded : Artifacts)
    (f : Files) : (restoreLauncher p recorded f).2.active a = f.active a := by
  rw [restoreLauncher]
  cases recorded .launcher with
  | none => exact set_of_ne ha _ _
  | some data => exact set_of_ne ha _ _

/-- The launcher is restored, and has its mode. -/
theorem restoreLauncher_restored (recorded : Artifacts) (f : Files) :
    (restoreLauncher p recorded f).1 = .ok () ∧
      (restoreLauncher p recorded f).2.active .launcher = recorded .launcher ∧
      ((recorded .launcher).isSome = true →
        (restoreLauncher p recorded f).2.launcherMode = STARTUP_LAUNCHER_MODE) := by
  rw [restoreLauncher]
  cases recorded .launcher with
  | none =>
    refine ⟨rfl, ?_, nofun⟩
    exact set_self f.active .launcher none
  | some data =>
    refine ⟨rfl, ?_, fun _ => rfl⟩
    exact set_self f.active .launcher (some data)

/-- The launcher passes its check. -/
theorem verifies {f : Files} {recorded : Artifacts} (hlauncher : f.active .launcher =
    recorded .launcher) (hmode : (recorded .launcher).isSome = true →
      f.launcherMode = STARTUP_LAUNCHER_MODE) :
    verifyRestoredLauncherMode (recorded .launcher).isSome f = true := by
  rw [verifyRestoredLauncherMode, hlauncher]
  cases hdata : recorded .launcher with
  | none => rfl
  | some data =>
    rw [hdata] at hmode
    simp [hmode rfl]

/-- The artifacts are written back just when the contract and the definition that were present are
canonical. -/
theorem restoreStartupArtifacts_iff (recorded : Artifacts) (f : Files) :
    ((restoreStartupArtifacts p recorded f).1 = .ok () ∧
      (∀ a, (restoreStartupArtifacts p recorded f).2.active a = recorded a) ∧
      ((recorded .launcher).isSome = true →
        (restoreStartupArtifacts p recorded f).2.launcherMode = STARTUP_LAUNCHER_MODE)) ↔
      AllCanonical p recorded := by
  constructor
  · intro h
    obtain ⟨hok, hactive, -⟩ := h
    rw [restoreStartupArtifacts] at hok hactive
    cases hc : restoreJson p .contract recorded f with
    | mk rc fc =>
      cases rc with
      | error e =>
        rw [hc] at hok
        cases hok
      | ok u =>
        rw [hc] at hok hactive
        dsimp only [andThen] at hok hactive
        cases hd : restoreJson p .definition recorded fc with
        | mk rd fd =>
          cases rd with
          | error e =>
            rw [hd] at hok
            cases hok
          | ok u =>
            rw [hd] at hactive
            dsimp only at hactive
            intro a ha data hdata
            rw [canonical_iff]
            cases a with
            | launcher => exact absurd rfl ha
            | definition =>
              obtain ⟨line, hline, hwritten⟩ := (restoreJson_ok hd).1 data hdata
              have hfinal := hactive .definition
              rw [restoreLauncher_frame ha, hwritten, hdata] at hfinal
              rw [hline, Option.some.inj hfinal]
            | contract =>
              obtain ⟨line, hline, hwritten⟩ := (restoreJson_ok hc).1 data hdata
              have hfinal := hactive .contract
              rw [restoreLauncher_frame ha, (restoreJson_ok hd).2 .contract (by decide), hwritten,
                hdata] at hfinal
              rw [hline, Option.some.inj hfinal]
  · intro hcanonical
    have hcontract (f : Files) :=
      restoreJson_canonical (by decide) (hcanonical .contract (by decide)) f
    have hdefinition (f : Files) :=
      restoreJson_canonical (by decide) (hcanonical .definition (by decide)) f
    rw [restoreStartupArtifacts, hcontract]
    dsimp only [andThen]
    rw [hdefinition]
    dsimp only
    obtain ⟨hok, hlauncher, hmode⟩ := restoreLauncher_restored (p := p) recorded
      { { f with active := f.active.set .contract (recorded .contract) } with
        active := (f.active.set .contract (recorded .contract)).set .definition
          (recorded .definition) }
    refine ⟨hok, ?_, hmode⟩
    intro a
    cases a with
    | launcher => exact hlauncher
    | definition =>
      rw [restoreLauncher_frame (by decide)]
      dsimp only
      rw [set_self]
    | contract =>
      have hne : Artifact.contract ≠ .definition := by decide
      rw [restoreLauncher_frame (by decide)]
      dsimp only
      rw [set_of_ne hne, set_self]

/-- **When recording and restoring are inverse**: from any later state of the artifacts, just when
the contract and the definition, where they were present, are canonical. -/
theorem restored_iff (p : Python) (prior : Files) (h : Takes prior.active p) (active : Artifacts)
    (launcherMode : ℕ) :
    (∃ recorded, snapshotPreConfirmationArtifacts p.enc prior = .ok recorded ∧
      Restored prior.active
        (restorePreConfirmationArtifacts p ⟨active, launcherMode, recorded.snapshot⟩)) ↔
      AllCanonical p prior.active := by
  have hread : readPreConfirmationSnapshot p.py
      ⟨active, launcherMode, some (utf8Encode (snapshotText prior.active))⟩ =
        .ok (some prior.active) := readPreConfirmationSnapshot_written h rfl
  rw [snapshot_written h rfl, ← restoreStartupArtifacts_iff (p := p) prior.active
    ⟨active, launcherMode, some (utf8Encode (snapshotText prior.active))⟩]
  simp only [Except.ok.injEq, exists_eq_left', restorePreConfirmationArtifacts, hread, Restored]
  cases hr : restoreStartupArtifacts p prior.active
      ⟨active, launcherMode, some (utf8Encode (snapshotText prior.active))⟩ with
  | mk r f =>
    cases r with
    | error e => simp
    | ok u =>
      dsimp only
      constructor
      · rintro ⟨-, hactive, hmode⟩
        exact ⟨rfl, hactive, hmode⟩
      · rintro ⟨-, hactive, hmode⟩
        exact ⟨congrArg Except.ok (verifies (hactive .launcher) hmode), hactive, hmode⟩

/-! ## Files that are not written again as they were -/

/-- An interpreter without its limits, whose floats keep their literals. -/
def plainPython : Python where
  py := ⟨fun _ => false, fun _ => false, utf8, id⟩
  other _ := .error .unicodeDecodeError
  enc := ⟨id, fun _ => false⟩
  created := 0o644

/-- A contract, no definition and a launcher, over their absence. -/
def written : Artifacts
  | .contract => some (utf8Encode "\x7b\"a\": 1\x7d\n".toList)
  | .definition => none
  | .launcher => some [0xff, 0x00]

/-- A line that was written by `json` is restored, and a launcher of any bytes. -/
theorem restored_iff_written : ∃ recorded,
    snapshotPreConfirmationArtifacts plainPython.enc ⟨written, 0o700, none⟩ = .ok recorded ∧
      Restored written
        (restorePreConfirmationArtifacts plainPython ⟨fun _ => none, 0, recorded.snapshot⟩) := by
  refine (restored_iff plainPython ⟨written, 0o700, none⟩ ⟨⟨rfl, rfl⟩, rfl⟩ (fun _ => none) 0).2 ?_
  intro a ha data hdata
  rw [canonical_iff]
  cases a with
  | contract =>
    obtain rfl := Option.some.inj hdata
    decide +kernel
  | definition => cases hdata
  | launcher => exact absurd rfl ha

/-- A contract that is no JSON. -/
def truncated : Artifacts
  | .contract => some (utf8Encode "\x7b".toList)
  | _ => none

/-- `json.loads` raises on it, and nothing is restored. -/
theorem truncated_contract_raises : ¬ ∀ (prior : Files) (active : Artifacts) (launcherMode : ℕ),
    ∃ recorded, snapshotPreConfirmationArtifacts plainPython.enc prior = .ok recorded ∧
      Restored prior.active
        (restorePreConfirmationArtifacts plainPython
          ⟨active, launcherMode, recorded.snapshot⟩) := by
  intro h
  obtain ⟨recorded, hrecorded, hrestored⟩ := h ⟨truncated, 0, none⟩ truncated 0
  obtain rfl := Except.ok.inj hrecorded
  have hraised : (restorePreConfirmationArtifacts plainPython ⟨truncated, 0,
      some (utf8Encode (jsonLine plainPython.enc (.obj (snapshotStartupArtifacts truncated))))⟩).1 =
        .error .jsonDecodeError := by
    decide +kernel
  exact absurd (hrestored.1.symm.trans hraised) nofun

end Restored

end Lubko.Startup.Snapshot
