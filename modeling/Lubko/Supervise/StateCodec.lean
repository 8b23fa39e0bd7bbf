import Lubko.Supervise.State

/-!
# The durable state is read back

What `read_state` returns is valid, and a valid state that was written is what `read_state` returns
next. The records are followed through any channel that keeps values: the state file, which sorts
the keys, and the control socket, which does not.

* `SupervisorState.ofFields_toDict` — a valid state is read back through a channel.
* `readState_valid` — a state that was read is valid.
* `readState_fileText` — a state that was written is read.
-/

namespace Lubko.Supervise

open Lubko.Lib

/-! ## Channels -/

/-- A property of texts that every text without a surrogate pair has. -/
def CoversJoined (P : PyStr → Prop) : Prop := ∀ s : PyStr, s.joinSurrogates = s → P s

/-- What a channel for JSON values keeps, the texts being those with a property. -/
structure Transparent (P : PyStr → Prop) (f : Json → Json) : Prop where
  covers : CoversJoined P
  null : f .null = .null
  bool : ∀ b, f (.bool b) = .bool b
  int : ∀ n, f (.int n) = .int n
  float : ∀ lit, f (.float lit) = .float lit
  str : ∀ s, P s → f (.str s) = .str s
  obj : ∀ members : List (PyStr × Json), WellKeyed members →
    ∃ d, f (.obj members) = .obj d ∧ memberOf d = fun k => (memberOf members k).map f

/-- A text without a surrogate pair. -/
def Joined (s : PyStr) : Prop := s.joinSurrogates = s

/-- The mapping itself. -/
theorem transparent_id : Transparent (fun _ => True) id where
  covers _ _ := trivial
  null := rfl
  bool _ := rfl
  int _ := rfl
  float _ := rfl
  str _ _ := rfl
  obj members _ := ⟨members, rfl, by funext k; exact Option.map_id'.symm⟩

/-- The state file. -/
theorem transparent_readBack : Transparent Joined Json.readBack where
  covers _ h := h
  null := rfl
  bool _ := rfl
  int _ := rfl
  float _ := rfl
  str s hs := by
    show (Json.str s).build = _
    rw [Json.build, show s.joinSurrogates = s from hs]
  obj _ h := readBack_obj h

/-- The control socket. -/
theorem transparent_build : Transparent Joined Json.build where
  covers _ h := h
  null := rfl
  bool _ := rfl
  int _ := rfl
  float _ := rfl
  str s hs := by rw [Json.build, show s.joinSurrogates = s from hs]
  obj members h := by
    obtain ⟨hn, hk⟩ := h
    have hbuild := buildMembers_eq_map hk
    have hkeys : (buildMembers members).map Prod.fst = members.map Prod.fst := by
      rw [hbuild, List.map_map]
      rfl
    refine ⟨buildMembers members, ?_, ?_⟩
    · rw [Json.build, dictOf_of_nodup (hkeys ▸ hn)]
    · funext k
      rw [hbuild, memberOf_map]

/-- The fields of a mapping behind a channel. -/
def received (f : Json → Json) (members : List (PyStr × Json)) : Fields :=
  fun k => (memberOf members k).map f

section Channel

variable {P : PyStr → Prop} {f : Json → Json} (hf : Transparent P f)

include hf

theorem Transparent.orNull_int (x : Option ℤ) : f (orNull .int x) = orNull .int x := by
  cases x with
  | none => exact hf.null
  | some n => exact hf.int n

theorem Transparent.orNull_str {x : Option PyStr} (hx : ∀ s ∈ x, P s) :
    f (orNull .str x) = orNull .str x := by
  cases x with
  | none => exact hf.null
  | some s => exact hf.str s (hx s rfl)

theorem Transparent.orNull_float (floatRepr : ℚ → List Char) (x : Option ℚ) :
    f (orNull (fun x => .float (floatRepr x)) x) = orNull (fun x => .float (floatRepr x)) x := by
  cases x with
  | none => exact hf.null
  | some q => exact hf.float _

end Channel

/-! ## Values -/

/-- `float(repr(x)) == x`, and `json` writes and reads the literal. -/
structure ReadsBack (floatRepr : ℚ → List Char) (x : ℚ) : Prop where
  literal : FloatLiteral (floatRepr x)
  value : strictFiniteFloat (.float (floatRepr x)) = some x

theorem filter_eq_some {α : Type} {p : α → Bool} {x : Option α} {a : α} :
    x.filter p = some a ↔ x = some a ∧ p a = true := by
  cases x with
  | none => simp
  | some b =>
    by_cases h : p b = true
    · simp only [Option.filter_some, h, if_true, Option.some.injEq]
      exact ⟨fun heq => ⟨heq, heq ▸ h⟩, fun heq => heq.1⟩
    · simp only [Option.filter_some, h, Bool.false_eq_true, if_false, reduceCtorEq, false_iff,
        not_and, Option.some.injEq]
      exact fun heq => heq ▸ h

theorem strictInt_eq_some {value : Json} {n : ℤ} : strictInt value = some n ↔ value = .int n := by
  cases value <;> simp [strictInt]

theorem strictNonNegativeInt_eq_some {value : Json} {n : ℤ} :
    strictNonNegativeInt value = some n ↔ value = .int n ∧ 0 ≤ n := by
  rw [strictNonNegativeInt, filter_eq_some, strictInt_eq_some, decide_eq_true_eq]

theorem strictNonNegativeFiniteFloat_eq_some {value : Json} {x : ℚ} :
    strictNonNegativeFiniteFloat value = some x ↔ strictFiniteFloat value = some x ∧ 0 ≤ x := by
  rw [strictNonNegativeFiniteFloat, filter_eq_some, decide_eq_true_eq]

theorem optionalString_eq_some {value : Json} {s : PyStr} :
    optionalString value = some s ↔ value = .str s := by
  cases value <;> simp [optionalString]

theorem optionalIncarnationToken_eq_some {value : Json} {s : PyStr} :
    optionalIncarnationToken value = some s ↔ value = .str s ∧ validIncarnationToken s = true := by
  rw [optionalIncarnationToken, filter_eq_some, optionalString_eq_some]

theorem orRaise_eq_ok {α : Type} {msg : PyStr} {x : Option α} {a : α} :
    orRaise msg x = .ok a ↔ x = some a := by
  cases x <;> simp [orRaise]

theorem unlessNull_of_ne {α : Type} {parse : Json → Option α} {value : Json} (h : value ≠ .null) :
    unlessNull parse value = (parse value).map some := by
  cases value with
  | null => exact absurd rfl h
  | bool _ | int _ | float _ | str _ | arr _ | obj _ => rfl

/-- A nullable field is read back when its value is. -/
theorem unlessNull_orNull {α : Type} {parse : Json → Option α} {g : α → Json} {x : Option α}
    (hx : ∀ a ∈ x, parse (g a) = some a ∧ g a ≠ .null) : unlessNull parse (orNull g x) = some x := by
  cases x with
  | none => rfl
  | some a =>
    obtain ⟨hparse, hne⟩ := hx a rfl
    rw [orNull, unlessNull_of_ne hne, hparse, Option.map_some]

theorem unlessNull_int {x : Option ℤ} (hx : ∀ n ∈ x, 0 ≤ n) :
    unlessNull strictNonNegativeInt (orNull .int x) = some x :=
  unlessNull_orNull fun n hn => ⟨strictNonNegativeInt_eq_some.2 ⟨rfl, hx n hn⟩, nofun⟩

theorem unlessNull_str (x : Option PyStr) : unlessNull optionalString (orNull .str x) = some x :=
  unlessNull_orNull fun _ _ => ⟨rfl, nofun⟩

/-! ## Records -/

/-- What reading guarantees of a worker child. -/
structure WorkerChild.Valid (P : PyStr → Prop) (child : WorkerChild) : Prop where
  pid : 0 ≤ child.pid
  pgid : 0 ≤ child.pgid
  sid : 0 ≤ child.sid
  ticks : 0 ≤ child.startTimeTicks
  token : validIncarnationToken child.token = true
  tokenText : P child.token
  idText : P child.workerId
  spawnedAt : 0 ≤ child.spawnedAt

/-- What reading guarantees of an unresolved child. -/
structure UnresolvedChild.Valid (P : PyStr → Prop) (child : UnresolvedChild) : Prop where
  pid : 0 ≤ child.pid
  ticks : ∀ n ∈ child.startTimeTicks, 0 ≤ n
  token : validIncarnationToken child.token = true
  tokenText : P child.token
  spawnedAt : 0 ≤ child.spawnedAt

/-- What reading guarantees of an obligation. -/
structure SpawningObligation.Valid (P : PyStr → Prop) (o : SpawningObligation) : Prop where
  token : validIncarnationToken o.token = true
  tokenText : P o.token
  commitText : P o.commit
  creatorPid : 0 ≤ o.creatorPid
  creatorTicks : 0 ≤ o.creatorStartTimeTicks
  pid : ∀ n ∈ o.pid, 0 ≤ n
  ticks : ∀ n ∈ o.startTimeTicks, 0 ≤ n
  createdAt : 0 ≤ o.createdAt
  bootText : ∀ s ∈ o.bootId, P s

section Records

variable {P : PyStr → Prop} {f : Json → Json} (hf : Transparent P f) {floatRepr : ℚ → List Char}

include hf

theorem readsBack_received {x : ℚ} (hx : ReadsBack floatRepr x) (hpos : 0 ≤ x) :
    presentOr 0 strictNonNegativeFiniteFloat (some (f (.float (floatRepr x)))) = some x := by
  rw [presentOr, hf.float]
  exact strictNonNegativeFiniteFloat_eq_some.2 ⟨hx.value, hpos⟩

theorem token_received {s : PyStr} (htoken : validIncarnationToken s = true)
    (hjoin : P s) : optionalIncarnationToken (f (.str s)) = some s := by
  rw [hf.str s hjoin]
  exact optionalIncarnationToken_eq_some.2 ⟨rfl, htoken⟩

theorem nonNegativeInt_received {n : ℤ} (hn : 0 ≤ n) :
    strictNonNegativeInt (f (.int n)) = some n := by
  rw [hf.int]
  exact strictNonNegativeInt_eq_some.2 ⟨rfl, hn⟩

theorem childFromDict_toDict {child : WorkerChild} (hv : child.Valid P)
    (hx : ReadsBack floatRepr child.spawnedAt) :
    childFromDict (received f (childToDict floatRepr child)) = .ok child := by
  apply orRaise_eq_ok.2
  show (do
    let pid ← strictNonNegativeInt (f (.int child.pid))
    let pgid ← strictNonNegativeInt (f (.int child.pgid))
    let sid ← strictNonNegativeInt (f (.int child.sid))
    let startTimeTicks ← strictNonNegativeInt (f (.int child.startTimeTicks))
    let token ← optionalIncarnationToken (f (.str child.token))
    let workerId ← optionalString (f (.str child.workerId))
    let spawnedAt ← presentOr 0 strictNonNegativeFiniteFloat
      (some (f (.float (floatRepr child.spawnedAt))))
    return WorkerChild.mk pid pgid sid startTimeTicks token workerId spawnedAt) = some child
  rw [nonNegativeInt_received hf hv.pid, nonNegativeInt_received hf hv.pgid,
    nonNegativeInt_received hf hv.sid, nonNegativeInt_received hf hv.ticks,
    token_received hf hv.token hv.tokenText, hf.str _ hv.idText,
    readsBack_received hf hx hv.spawnedAt]
  rfl

theorem UnresolvedChild.fromDict_toDict {child : UnresolvedChild} (hv : child.Valid P)
    (hx : ReadsBack floatRepr child.spawnedAt) :
    UnresolvedChild.fromDict (received f (child.toDict floatRepr)) = .ok child := by
  apply orRaise_eq_ok.2
  show (do
    let pid ← strictNonNegativeInt (f (.int child.pid))
    let token ← optionalIncarnationToken (f (.str child.token))
    let startTimeTicks ← unlessNull strictNonNegativeInt (f (orNull .int child.startTimeTicks))
    let spawnedAt ← presentOr 0 strictNonNegativeFiniteFloat
      (some (f (.float (floatRepr child.spawnedAt))))
    return UnresolvedChild.mk pid startTimeTicks token spawnedAt) = some child
  rw [nonNegativeInt_received hf hv.pid, token_received hf hv.token hv.tokenText,
    hf.orNull_int, unlessNull_int hv.ticks, readsBack_received hf hx hv.spawnedAt]
  rfl

theorem SpawningObligation.fromDict_toDict {o : SpawningObligation} (hv : o.Valid P)
    (hx : ReadsBack floatRepr o.createdAt) :
    SpawningObligation.fromDict (received f (o.toDict floatRepr)) = .ok o := by
  have hfields : (do
      let token ← optionalIncarnationToken (f (.str o.token))
      let creatorPid ← strictNonNegativeInt (f (.int o.creatorPid))
      let creatorStartTimeTicks ← strictNonNegativeInt (f (.int o.creatorStartTimeTicks))
      let commit ← presentOr [] optionalString (some (f (.str o.commit)))
      let pid ← unlessNull strictNonNegativeInt (f (orNull .int o.pid))
      let startTimeTicks ← unlessNull strictNonNegativeInt (f (orNull .int o.startTimeTicks))
      let createdAt ← presentOr 0 strictNonNegativeFiniteFloat
        (some (f (.float (floatRepr o.createdAt))))
      let bootId ← unlessNull optionalString (f (orNull .str o.bootId))
      return SpawningObligation.mk token commit creatorPid creatorStartTimeTicks pid startTimeTicks
        createdAt bootId true) = some { o with parentDeathSignal := true } := by
    rw [token_received hf hv.token hv.tokenText, nonNegativeInt_received hf hv.creatorPid,
      nonNegativeInt_received hf hv.creatorTicks, hf.str _ hv.commitText, hf.orNull_int,
      hf.orNull_int, unlessNull_int hv.pid, unlessNull_int hv.ticks,
      readsBack_received hf hx hv.createdAt, hf.orNull_str hv.bootText, unlessNull_str]
    rfl
  refine except_bind_eq_ok.2 ⟨_, orRaise_eq_ok.2 hfields, except_bind_eq_ok.2
    ⟨o.parentDeathSignal, ?_, rfl⟩⟩
  show parentDeathSignalOf (some (f (.bool o.parentDeathSignal))) = _
  rw [hf.bool]
  rfl

theorem LastExit.parse_toDict {key : Json} {e : LastExit} (hpos : 0 ≤ e.moment)
    (hx : ReadsBack floatRepr e.moment)
    (hkey : ∃ d, key = .obj d ∧ memberOf d = received f (e.toDict floatRepr)) {data : Fields}
    (hdata : data.get "last_exit" = key) : parseLastExit data = some e := by
  obtain ⟨d, rfl, hd⟩ := hkey
  have hfields : (do
      let returncode ← unlessNull strictInt (f (orNull .int e.returncode))
      let raw ← some (f (.float (floatRepr e.moment)))
      let moment ← strictNonNegativeFiniteFloat raw
      return LastExit.mk returncode moment) = some e := by
    have hcode : unlessNull strictInt (orNull .int e.returncode) = some e.returncode :=
      unlessNull_orNull fun n _ => ⟨rfl, nofun⟩
    have hmoment := strictNonNegativeFiniteFloat_eq_some.2 ⟨hx.value, hpos⟩
    rw [hf.orNull_int, hcode, hf.float]
    show (strictNonNegativeFiniteFloat (.float (floatRepr e.moment))).bind _ = _
    rw [hmoment]
    rfl
  rw [parseLastExit, hdata]
  dsimp only
  rw [hd]
  exact hfields

/-- A nullable record is read back when a present one is. -/
theorem parseOptionalRecord_orNull {α : Type} {fromDict : Fields → Except PyStr α}
    {toDict : α → List (PyStr × Json)} {x : Option α}
    (hk : ∀ a ∈ x, WellKeyed (toDict a))
    (hread : ∀ a ∈ x, fromDict (received f (toDict a)) = .ok a) :
    parseOptionalRecord fromDict (f (orNull (fun a => .obj (toDict a)) x)) = (x, false) := by
  cases x with
  | none => rw [orNull, hf.null, parseOptionalRecord]
  | some a =>
    obtain ⟨d, hd, hmembers⟩ := hf.obj (toDict a) (hk a rfl)
    have hread : fromDict (memberOf d) = .ok a := hmembers ▸ hread a rfl
    rw [orNull, hd, parseOptionalRecord, hread]

end Records

/-! ## Keys -/

theorem wellKeyed_childToDict (floatRepr : ℚ → List Char) (child : WorkerChild) :
    WellKeyed (childToDict floatRepr child) :=
  .of_keys (show _ = (["pid", "pgid", "sid", "start_time_ticks", "token", "worker_id",
    "spawned_at"] : List String).map PyStr.ofString from rfl) (by decide)

theorem wellKeyed_unresolvedToDict (floatRepr : ℚ → List Char) (child : UnresolvedChild) :
    WellKeyed (child.toDict floatRepr) :=
  .of_keys (show _ = (["pid", "start_time_ticks", "token", "spawned_at"] : List String).map
    PyStr.ofString from rfl) (by decide)

theorem wellKeyed_obligationToDict (floatRepr : ℚ → List Char) (o : SpawningObligation) :
    WellKeyed (o.toDict floatRepr) :=
  .of_keys (show _ = (["token", "commit", "creator_pid", "creator_start_time_ticks", "pid",
    "start_time_ticks", "created_at", "boot_id", "parent_death_signal"] : List String).map
    PyStr.ofString from rfl) (by decide)

theorem wellKeyed_lastExitToDict (floatRepr : ℚ → List Char) (e : LastExit) :
    WellKeyed (e.toDict floatRepr) :=
  .of_keys (show _ = (["returncode", "at"] : List String).map PyStr.ofString from rfl) (by decide)

/-- The keys of a state's mapping that are always there. -/
def stateKeys : List String :=
  ["schema_version", "applied_generation", "mode", "commit", "child", "unresolved_child",
    "ownership_hold_malformed", "unresolved_hold_malformed", "spawning", "spawning_hold_malformed",
    "intent", "restart_count", "next_attempt_at", "last_exit", "last_spawn_at", "ready",
    "next_readiness_at"]

/-- The keys that are there when their value is. -/
def optionalKeys (key : String) (x : Option PyStr) : List String := (x.map fun _ => key).toList

theorem keys_optionalEntry (key : String) (x : Option PyStr) :
    (optionalEntry key x).map Prod.fst = (optionalKeys key x).map PyStr.ofString := by
  cases x with
  | none => rfl
  | some s => rfl

theorem keys_stateToDict (floatRepr : ℚ → List Char) (s : SupervisorState) :
    (s.toDict floatRepr).map Prod.fst = (stateKeys ++ optionalKeys "boot_id" s.bootId ++
      optionalKeys "supervisor_runtime_commit" s.supervisorRuntimeCommit).map PyStr.ofString := by
  rw [SupervisorState.toDict, List.map_append, List.map_append, keys_optionalEntry,
    keys_optionalEntry, List.map_append, List.map_append]
  rfl

theorem wellKeyed_stateToDict (floatRepr : ℚ → List Char) (s : SupervisorState) :
    WellKeyed (s.toDict floatRepr) := by
  refine .of_keys (keys_stateToDict floatRepr s) ?_
  cases s.bootId with
  | none => cases s.supervisorRuntimeCommit with
    | none => decide
    | some c => rw [optionalKeys, optionalKeys, Option.map_some]; decide
  | some b => cases s.supervisorRuntimeCommit with
    | none => rw [optionalKeys, optionalKeys, Option.map_some]; decide
    | some c => rw [optionalKeys, optionalKeys, Option.map_some, Option.map_some]; decide

/-! ## The state -/

/-- What reading guarantees of a state. -/
structure SupervisorState.Valid (P : PyStr → Prop) (s : SupervisorState) : Prop where
  schema : s.schemaVersion = SCHEMA_VERSION
  generation : 0 ≤ s.appliedGeneration
  commitText : ∀ c ∈ s.commit, P c
  child : ∀ c ∈ s.child, c.Valid P
  unresolved : ∀ c ∈ s.unresolvedChild, c.Valid P
  spawning : ∀ o ∈ s.spawning, o.Valid P
  restartCount : 0 ≤ s.restartCount
  lastExit : ∀ e ∈ s.lastExit, 0 ≤ e.moment
  lastSpawnAt : ∀ x ∈ s.lastSpawnAt, 0 ≤ x
  nextReadinessAt : ∀ x ∈ s.nextReadinessAt, 0 ≤ x
  bootId : ∀ b ∈ s.bootId, b ≠ []
  bootText : ∀ b ∈ s.bootId, P b
  runtimeText : ∀ c ∈ s.supervisorRuntimeCommit, P c

/-- The floats of a state. -/
def SupervisorState.floats (s : SupervisorState) : List ℚ :=
  s.child.toList.map WorkerChild.spawnedAt ++ s.unresolvedChild.toList.map UnresolvedChild.spawnedAt ++
    s.spawning.toList.map SpawningObligation.createdAt ++ s.nextAttemptAt.toList ++
    s.lastExit.toList.map LastExit.moment ++ s.lastSpawnAt.toList ++ s.nextReadinessAt.toList

/-- The floats of a state have a property, field by field. -/
structure SupervisorState.FloatsSatisfy (Q : ℚ → Prop) (s : SupervisorState) : Prop where
  child : ∀ c ∈ s.child, Q c.spawnedAt
  unresolved : ∀ c ∈ s.unresolvedChild, Q c.spawnedAt
  spawning : ∀ o ∈ s.spawning, Q o.createdAt
  nextAttemptAt : ∀ x ∈ s.nextAttemptAt, Q x
  lastExit : ∀ e ∈ s.lastExit, Q e.moment
  lastSpawnAt : ∀ x ∈ s.lastSpawnAt, Q x
  nextReadinessAt : ∀ x ∈ s.nextReadinessAt, Q x

theorem SupervisorState.floatsSatisfy_of_mem {Q : ℚ → Prop} {s : SupervisorState}
    (h : ∀ x ∈ s.floats, Q x) : s.FloatsSatisfy Q where
  child c hc := h _ (by simp only [floats, Option.mem_def.1 hc]; simp)
  unresolved c hc := h _ (by simp only [floats, Option.mem_def.1 hc]; simp)
  spawning o ho := h _ (by simp only [floats, Option.mem_def.1 ho]; simp)
  nextAttemptAt x hx := h _ (by simp only [floats, Option.mem_def.1 hx]; simp)
  lastExit e he := h _ (by simp only [floats, Option.mem_def.1 he]; simp)
  lastSpawnAt x hx := h _ (by simp only [floats, Option.mem_def.1 hx]; simp)
  nextReadinessAt x hx := h _ (by simp only [floats, Option.mem_def.1 hx]; simp)

theorem SupervisorState.FloatsSatisfy.mono {Q R : ℚ → Prop} {s : SupervisorState}
    (hs : s.FloatsSatisfy Q) (h : ∀ x, Q x → R x) : s.FloatsSatisfy R where
  child c hc := h _ (hs.child c hc)
  unresolved c hc := h _ (hs.unresolved c hc)
  spawning o ho := h _ (hs.spawning o ho)
  nextAttemptAt x hx := h _ (hs.nextAttemptAt x hx)
  lastExit e he := h _ (hs.lastExit e he)
  lastSpawnAt x hx := h _ (hs.lastSpawnAt x hx)
  nextReadinessAt x hx := h _ (hs.nextReadinessAt x hx)

/-- The floats of a state are read back. -/
abbrev SupervisorState.FloatsReadBack (floatRepr : ℚ → List Char) (s : SupervisorState) : Prop :=
  s.FloatsSatisfy (ReadsBack floatRepr)

section State

variable {P : PyStr → Prop} {f : Json → Json} (hf : Transparent P f) {floatRepr : ℚ → List Char} {s : SupervisorState}

include hf

/-- The two optional members, looked up behind the others. -/
theorem received_optional (key : String) (x : Option PyStr) (hx : ∀ a ∈ x, P a)
    (rest : List (PyStr × Json)) (hrest : memberOf rest key = none) :
    received f (optionalEntry key x ++ rest) key = x.map .str := by
  cases x with
  | none => rw [received, optionalEntry, List.nil_append, hrest]; rfl
  | some a =>
    rw [received, optionalEntry, List.cons_append, entry, memberOf_cons, if_pos rfl, Option.map_some,
      hf.str a (hx a rfl), Option.map_some]

theorem received_bootId (hv : s.Valid P) :
    received f (s.toDict floatRepr) "boot_id" = s.bootId.map .str := by
  have hrest : memberOf (optionalEntry "supervisor_runtime_commit" s.supervisorRuntimeCommit)
      "boot_id" = none := by
    cases s.supervisorRuntimeCommit with
    | none => rfl
    | some c => rfl
  have hskip : received f (s.toDict floatRepr) "boot_id" =
      received f (optionalEntry "boot_id" s.bootId ++
        optionalEntry "supervisor_runtime_commit" s.supervisorRuntimeCommit) "boot_id" := rfl
  rw [hskip, received_optional hf "boot_id" s.bootId hv.bootText _ hrest]

theorem received_runtimeCommit (hv : s.Valid P) :
    received f (s.toDict floatRepr) "supervisor_runtime_commit" =
      s.supervisorRuntimeCommit.map .str := by
  have hskip : received f (s.toDict floatRepr) "supervisor_runtime_commit" =
      received f (optionalEntry "boot_id" s.bootId ++
        optionalEntry "supervisor_runtime_commit" s.supervisorRuntimeCommit)
        "supervisor_runtime_commit" := rfl
  have hboot : received f (optionalEntry "boot_id" s.bootId ++
        optionalEntry "supervisor_runtime_commit" s.supervisorRuntimeCommit)
        "supervisor_runtime_commit" =
      received f (optionalEntry "supervisor_runtime_commit" s.supervisorRuntimeCommit)
        "supervisor_runtime_commit" := by
    cases s.bootId with
    | none => rfl
    | some b => rfl
  rw [hskip, hboot]
  have hlast := received_optional hf "supervisor_runtime_commit" s.supervisorRuntimeCommit
    hv.runtimeText [] rfl
  rwa [List.append_nil] at hlast

theorem parsePresentStrict_received {key : String} {n : ℤ} (hn : 0 ≤ n) {data : Fields}
    (hdata : data key = some (f (.int n))) : parsePresentStrict data key = (n, false) := by
  rw [parsePresentStrict, hdata]
  dsimp only
  rw [nonNegativeInt_received hf hn]
  rfl

theorem parsePresentNullableFloat_received {key : String} {x : Option ℚ} {data : Fields}
    (hx : ∀ q ∈ x, ReadsBack floatRepr q)
    (hdata : data key = some (f (orNull (fun q => .float (floatRepr q)) x))) :
    parsePresentNullableFloat data key = (x, false) := by
  rw [parsePresentNullableFloat, Fields.get, hdata, hf.orNull_float, Option.getD_some]
  cases x with
  | none => rfl
  | some q =>
    show (strictFiniteFloat (.float (floatRepr q)),
      (strictFiniteFloat (.float (floatRepr q))).isNone) = _
    rw [(hx q rfl).value]
    rfl

theorem parsePresentNullableMonotonicFloat_received {key : String} {x : Option ℚ} {data : Fields}
    (hx : ∀ q ∈ x, ReadsBack floatRepr q) (hpos : ∀ q ∈ x, 0 ≤ q)
    (hdata : data key = some (f (orNull (fun q => .float (floatRepr q)) x))) :
    parsePresentNullableMonotonicFloat data key = (x, false) := by
  rw [parsePresentNullableMonotonicFloat, parsePresentNullableFloat_received hf hx hdata]
  cases x with
  | none => rfl
  | some q => exact if_pos (hpos q rfl)

theorem strictSafetyHold_received {key : String} {b : Bool} {data : Fields}
    (hdata : data key = some (f (.bool b))) : strictSafetyHold data key = b := by
  rw [strictSafetyHold, hdata, hf.bool]

omit hf in
theorem mode?_text (m : Mode) : mode? (.str m.text) = some m := by
  cases m with
  | run => decide
  | idle => decide

omit hf in
theorem intent?_text (i : Intent) : intent? (.str i.text) = some i := by
  cases i with
  | run => decide
  | retiring => decide

/-- **A valid state is read back through a channel.** -/
theorem SupervisorState.ofFields_toDict (hv : s.Valid P) (hx : s.FloatsReadBack floatRepr) :
    SupervisorState.ofFields (received f (s.toDict floatRepr)) = s := by
  have hchild : parseOptionalChild (received f (s.toDict floatRepr)) = (s.child, false) :=
    parseOptionalRecord_orNull hf
      (fun c _ => wellKeyed_childToDict floatRepr c)
      fun c hc => childFromDict_toDict hf (hv.child c hc) (hx.child c hc)
  have hunresolved : parseOptionalUnresolvedChild (received f (s.toDict floatRepr)) =
      (s.unresolvedChild, false) :=
    parseOptionalRecord_orNull hf
      (fun c _ => wellKeyed_unresolvedToDict floatRepr c)
      fun c hc => UnresolvedChild.fromDict_toDict hf (hv.unresolved c hc) (hx.unresolved c hc)
  have hspawning : parseOptionalSpawning (received f (s.toDict floatRepr)) = (s.spawning, false) :=
    parseOptionalRecord_orNull hf
      (fun o _ => wellKeyed_obligationToDict floatRepr o)
      fun o ho => SpawningObligation.fromDict_toDict hf (hv.spawning o ho) (hx.spawning o ho)
  have hgeneration : parsePresentStrict (received f (s.toDict floatRepr)) "applied_generation" =
      (s.appliedGeneration, false) := parsePresentStrict_received hf hv.generation rfl
  have hrestart : parsePresentStrict (received f (s.toDict floatRepr)) "restart_count" =
      (s.restartCount, false) := parsePresentStrict_received hf hv.restartCount rfl
  have hattempt : parsePresentNullableFloat (received f (s.toDict floatRepr)) "next_attempt_at" =
      (s.nextAttemptAt, false) := parsePresentNullableFloat_received hf hx.nextAttemptAt rfl
  have hspawnAt : parsePresentNullableMonotonicFloat (received f (s.toDict floatRepr))
      "last_spawn_at" = (s.lastSpawnAt, false) :=
    parsePresentNullableMonotonicFloat_received hf hx.lastSpawnAt hv.lastSpawnAt rfl
  have hreadyAt : parsePresentNullableMonotonicFloat (received f (s.toDict floatRepr))
      "next_readiness_at" = (s.nextReadinessAt, false) :=
    parsePresentNullableMonotonicFloat_received hf hx.nextReadinessAt hv.nextReadinessAt rfl
  have hboot : parsePresentBootIdentity (received f (s.toDict floatRepr)) "boot_id" =
      (s.bootId, false) := by
    rw [parsePresentBootIdentity, received_bootId hf hv]
    cases hb : s.bootId with
    | none => rfl
    | some b =>
      have hne : b.isEmpty = false := by simpa using hv.bootId b hb
      simp [hne]
  have hruntime : optionalString ((received f (s.toDict floatRepr)).get
      "supervisor_runtime_commit") = s.supervisorRuntimeCommit := by
    rw [Fields.get, received_runtimeCommit hf hv]
    cases s.supervisorRuntimeCommit with
    | none => rfl
    | some c => rfl
  have hmodeValue : mode? (f (.str s.mode.text)) = some s.mode := by
    rw [hf.str _ (hf.covers _ (by cases s.mode <;> decide)), mode?_text]
  have hintentValue : intent? (f (.str s.intent.text)) = some s.intent := by
    rw [hf.str _ (hf.covers _ (by cases s.intent <;> decide)), intent?_text]
  have hmode : stateMode (received f (s.toDict floatRepr)) = s.mode := by
    show (mode? (f (.str s.mode.text))).getD .idle = _
    rw [hmodeValue, Option.getD_some]
  have hintent : stateIntent (received f (s.toDict floatRepr)) = s.intent := by
    show (intent? (f (.str s.intent.text))).getD .run = _
    rw [hintentValue, Option.getD_some]
  have hcommitValue : f (orNull .str s.commit) = orNull .str s.commit :=
    hf.orNull_str hv.commitText
  have hcommit : stateCommit (received f (s.toDict floatRepr)) = s.commit := by
    show optionalString (f (orNull .str s.commit)) = _
    rw [hcommitValue]
    cases s.commit with
    | none => rfl
    | some c => rfl
  have hstrings : stateStringsMalformed (received f (s.toDict floatRepr)) = false := by
    show ((mode? (f (.str s.mode.text))).isNone || (intent? (f (.str s.intent.text))).isNone ||
      (unlessNull optionalString (f (orNull .str s.commit))).isNone) = false
    rw [hmodeValue, hintentValue, hcommitValue, unlessNull_str]
    rfl
  have hexit : parseLastExit (received f (s.toDict floatRepr)) = s.lastExit := by
    cases he : s.lastExit with
    | none =>
      have hget : (received f (s.toDict floatRepr)).get "last_exit" = .null := by
        show f (orNull (fun e => .obj (LastExit.toDict floatRepr e)) s.lastExit) = _
        rw [he, orNull, hf.null]
      rw [parseLastExit, hget]
    | some e =>
      have hget : (received f (s.toDict floatRepr)).get "last_exit" =
          f (.obj (e.toDict floatRepr)) := by
        show f (orNull (fun e => .obj (LastExit.toDict floatRepr e)) s.lastExit) = _
        rw [he, orNull]
      exact LastExit.parse_toDict hf (hv.lastExit e he) (hx.lastExit e he)
        (hf.obj _ (wellKeyed_lastExitToDict floatRepr e)) hget
  have hready : stateReady (received f (s.toDict floatRepr)) = s.ready := by
    have hvalue : received f (s.toDict floatRepr) "ready" = some (f (.bool s.ready)) := rfl
    rw [stateReady, hvalue, hf.bool]
  have hown : strictSafetyHold (received f (s.toDict floatRepr)) "ownership_hold_malformed" =
      s.ownershipHoldMalformed := strictSafetyHold_received hf rfl
  have hunr : strictSafetyHold (received f (s.toDict floatRepr)) "unresolved_hold_malformed" =
      s.unresolvedHoldMalformed := strictSafetyHold_received hf rfl
  have hspn : strictSafetyHold (received f (s.toDict floatRepr)) "spawning_hold_malformed" =
      s.spawningHoldMalformed := strictSafetyHold_received hf rfl
  simp only [SupervisorState.ofFields, hchild, hunresolved, hspawning, hgeneration, hrestart,
    hattempt, hspawnAt, hreadyAt, hboot, hruntime, hmode, hintent, hcommit, hstrings, hexit, hready,
    hown, hunr, hspn, Bool.false_or]
  rw [← hv.schema]

end State

/-! ## What was read is valid -/

/-- The texts of a value, and those of an object directly under it, have the property. -/
def HoldsTexts (P : PyStr → Prop) (v : Json) : Prop :=
  (∀ s, v = .str s → P s) ∧
    ∀ members, v = .obj members → ∀ k s, memberOf members k = some (.str s) → P s

theorem holdsTexts_of_built {v : Json} (h : v.Built) : HoldsTexts Joined v := by
  refine ⟨?_, ?_⟩
  · intro s hs
    exact Json.Built.joined (hs ▸ h)
  · intro members hm k s hs
    exact (Json.Built.member (hm ▸ h) hs).joined

section Reading

variable {P : PyStr → Prop} {data : Fields}

/-- A text field has the property. -/
theorem text_get (hdata : ∀ k s, data k = some (.str s) → P s) {key : String} {s : PyStr}
    (h : data.get key = .str s) : P s := by
  rw [Fields.get] at h
  cases hk : data key with
  | none => simp [hk] at h
  | some v =>
    rw [hk, Option.getD_some] at h
    exact hdata key s (h ▸ hk)

theorem unlessNull_eq_some {α : Type} {parse : Json → Option α} {value : Json} {x : Option α}
    (h : unlessNull parse value = some x) : ∀ a ∈ x, parse value = some a := by
  intro a ha
  rw [Option.mem_def] at ha
  subst ha
  by_cases hv : value = .null
  · rw [hv, unlessNull] at h
    cases h
  · rw [unlessNull_of_ne hv] at h
    obtain ⟨b, hb, heq⟩ := Option.map_eq_some_iff.1 h
    rw [hb, ← Option.some.inj heq]

theorem presentOr_float_nonneg {value : Option Json} {x : ℚ}
    (h : presentOr 0 strictNonNegativeFiniteFloat value = some x) : 0 ≤ x := by
  cases value with
  | none => exact le_of_eq (Option.some.inj h)
  | some v => exact (strictNonNegativeFiniteFloat_eq_some.1 h).2

theorem childFromDict_valid (hdata : ∀ k s, data k = some (.str s) → P s) {child : WorkerChild}
    (h : childFromDict data = .ok child) : child.Valid P := by
  have hsome := orRaise_eq_ok.1 h
  simp only [bind, Option.bind_eq_some_iff, strictNonNegativeInt_eq_some,
    optionalIncarnationToken_eq_some, optionalString_eq_some, pure, Option.some.injEq] at hsome
  obtain ⟨pid, ⟨-, hpid⟩, pgid, ⟨-, hpgid⟩, sid, ⟨-, hsid⟩, ticks, ⟨-, hticks⟩, token,
    ⟨htext, htoken⟩, workerId, hid, spawnedAt, hspawned, rfl⟩ := hsome
  exact ⟨hpid, hpgid, hsid, hticks, htoken, text_get hdata htext, text_get hdata hid,
    presentOr_float_nonneg hspawned⟩

theorem UnresolvedChild.fromDict_valid (hdata : ∀ k s, data k = some (.str s) → P s)
    {child : UnresolvedChild} (h : UnresolvedChild.fromDict data = .ok child) : child.Valid P := by
  have hsome := orRaise_eq_ok.1 h
  simp only [bind, Option.bind_eq_some_iff, strictNonNegativeInt_eq_some,
    optionalIncarnationToken_eq_some, pure, Option.some.injEq] at hsome
  obtain ⟨pid, ⟨-, hpid⟩, token, ⟨htext, htoken⟩, ticks, hticks, spawnedAt, hspawned, rfl⟩ := hsome
  exact ⟨hpid, fun n hn => (strictNonNegativeInt_eq_some.1 (unlessNull_eq_some hticks n hn)).2,
    htoken, text_get hdata htext, presentOr_float_nonneg hspawned⟩

theorem SpawningObligation.fromDict_valid (hcovers : CoversJoined P)
    (hdata : ∀ k s, data k = some (.str s) → P s) {o : SpawningObligation}
    (h : SpawningObligation.fromDict data = .ok o) : o.Valid P := by
  simp only [SpawningObligation.fromDict, except_bind_eq_ok, orRaise_eq_ok] at h
  obtain ⟨o', hsome, flag, -, heq⟩ := h
  simp only [bind, Option.bind_eq_some_iff, strictNonNegativeInt_eq_some,
    optionalIncarnationToken_eq_some, pure, Option.some.injEq] at hsome
  obtain ⟨token, ⟨htext, htoken⟩, creator, ⟨-, hcreator⟩, cticks, ⟨-, hcticks⟩, commit, hcommit,
    pid, hpid, ticks, hticks, createdAt, hcreated, boot, hboot, rfl⟩ := hsome
  obtain rfl := Except.ok.inj heq
  refine ⟨htoken, text_get hdata htext, ?_, hcreator, hcticks,
    fun n hn => (strictNonNegativeInt_eq_some.1 (unlessNull_eq_some hpid n hn)).2,
    fun n hn => (strictNonNegativeInt_eq_some.1 (unlessNull_eq_some hticks n hn)).2,
    presentOr_float_nonneg hcreated,
    fun b hb => text_get hdata (optionalString_eq_some.1 (unlessNull_eq_some hboot b hb))⟩
  cases hc : data "commit" with
  | none =>
    rw [hc, presentOr] at hcommit
    obtain rfl := Option.some.inj hcommit
    exact hcovers _ rfl
  | some v =>
    rw [hc, presentOr] at hcommit
    exact hdata _ _ (optionalString_eq_some.1 hcommit ▸ hc)

/-- A nullable record that was read satisfies what its parser guarantees. -/
theorem parseOptionalRecord_valid {α : Type} {fromDict : Fields → Except PyStr α} {V : α → Prop}
    {value : Json} (hvalue : HoldsTexts P value)
    (hread : ∀ fields : Fields, (∀ k s, fields k = some (.str s) → P s) → ∀ a,
      fromDict fields = .ok a → V a) : ∀ a ∈ (parseOptionalRecord fromDict value).1, V a := by
  intro a ha
  cases value with
  | obj members =>
    rw [parseOptionalRecord] at ha
    cases hd : fromDict (memberOf members) with
    | error e => simp [hd] at ha
    | ok b =>
      rw [hd, Option.mem_def] at ha
      obtain rfl := Option.some.inj ha
      exact hread _ (hvalue.2 members rfl) b hd
  | null | bool _ | int _ | float _ | str _ | arr _ => simp [parseOptionalRecord] at ha

theorem holdsTexts_get (hdata : ∀ k v, data k = some v → HoldsTexts P v) (key : String) :
    HoldsTexts P (data.get key) := by
  rw [Fields.get]
  cases hk : data key with
  | none =>
    rw [Option.getD_none]
    exact ⟨nofun, nofun⟩
  | some v => exact hdata key v hk

theorem parsePresentStrict_nonneg (data : Fields) (key : String) :
    0 ≤ (parsePresentStrict data key).1 := by
  rw [parsePresentStrict]
  cases data key with
  | none => exact le_refl _
  | some v =>
    dsimp only
    cases hn : strictNonNegativeInt v with
    | none => exact le_refl _
    | some n => exact (strictNonNegativeInt_eq_some.1 hn).2

theorem parsePresentNullableMonotonicFloat_nonneg (data : Fields) (key : String) :
    ∀ x ∈ (parsePresentNullableMonotonicFloat data key).1, 0 ≤ x := by
  intro x hx
  rw [parsePresentNullableMonotonicFloat] at hx
  cases hp : parsePresentNullableFloat data key with
  | mk value malformed =>
    rw [hp] at hx
    cases value with
    | none => cases malformed <;> cases hx
    | some q =>
      cases malformed with
      | false =>
        dsimp only at hx
        split_ifs at hx with hq
        · obtain rfl := Option.some.inj hx
          exact hq
        · cases hx
      | true =>
        -- a malformed field has no value
        rw [parsePresentNullableFloat] at hp
        split at hp
        · cases hp
        · obtain ⟨h1, h2⟩ := Prod.mk.inj hp
          rw [h1] at h2
          cases h2

/-- **A state that was read is valid.** -/
theorem SupervisorState.ofFields_valid (hcovers : CoversJoined P)
    (hdata : ∀ k v, data k = some v → HoldsTexts P v) : (SupervisorState.ofFields data).Valid P := by
  have htext : ∀ k s, data k = some (.str s) → P s := fun k s h => (hdata k _ h).1 s rfl
  refine ⟨rfl, parsePresentStrict_nonneg data _, ?_, ?_, ?_, ?_, parsePresentStrict_nonneg data _,
    ?_, parsePresentNullableMonotonicFloat_nonneg data _,
    parsePresentNullableMonotonicFloat_nonneg data _, ?_, ?_, ?_⟩
  · intro c hc
    exact text_get htext (optionalString_eq_some.1 hc)
  · exact parseOptionalRecord_valid (holdsTexts_get hdata "child")
      fun _ h _ => childFromDict_valid h
  · exact parseOptionalRecord_valid (holdsTexts_get hdata "unresolved_child")
      fun _ h _ => UnresolvedChild.fromDict_valid h
  · exact parseOptionalRecord_valid (holdsTexts_get hdata "spawning")
      fun _ h _ => SpawningObligation.fromDict_valid hcovers h
  · intro e he
    change parseLastExit data = some e at he
    rw [parseLastExit] at he
    split at he
    · simp only [bind, Option.bind_eq_some_iff, strictNonNegativeFiniteFloat_eq_some, pure,
        Option.some.injEq] at he
      obtain ⟨_, -, _, -, _, ⟨-, hpos⟩, rfl⟩ := he
      exact hpos
    · cases he
  · intro b hb
    change (parsePresentBootIdentity data "boot_id").1 = some b at hb
    rw [parsePresentBootIdentity] at hb
    split at hb
    · cases hb
    · split_ifs at hb with hempty
      · obtain rfl := Option.some.inj hb
        simpa using hempty
    · cases hb
  · intro b hb
    change (parsePresentBootIdentity data "boot_id").1 = some b at hb
    rw [parsePresentBootIdentity] at hb
    split at hb
    · cases hb
    · rename_i s hs
      split_ifs at hb with hempty
      · obtain rfl := Option.some.inj hb
        exact htext _ _ hs
    · cases hb
  · intro c hc
    exact text_get htext (optionalString_eq_some.1 hc)

end Reading

/-! ## The file -/

theorem freshState_valid (P : PyStr → Prop) (hold : Bool) :
    ({ freshState with ownershipHoldMalformed := hold } : SupervisorState).Valid P :=
  ⟨rfl, le_refl _, nofun, nofun, nofun, nofun, le_refl _, nofun, nofun, nofun, nofun, nofun, nofun⟩

theorem fromDict_eq_ok {data : Fields} {s : SupervisorState} :
    SupervisorState.fromDict data = .ok s ↔ stateSchemaValid data = true ∧ s = .ofFields data := by
  rw [SupervisorState.fromDict]
  split_ifs with h
  · exact ⟨fun heq => ⟨h, (Except.ok.inj heq).symm⟩, fun heq => heq.2 ▸ rfl⟩
  · simp [h]

/-- **What `read_state` returns is valid.** -/
theorem readState_valid {file : FileContent} {s : SupervisorState} (h : readState file = .ok s) :
    s.Valid Joined := by
  cases file with
  | absent =>
    obtain rfl := Except.ok.inj h
    exact freshState_valid Joined false
  | unreadable =>
    obtain rfl := Except.ok.inj h
    exact freshState_valid Joined true
  | undecodable => cases h
  | text t =>
    rw [readState] at h
    split at h
    · rename_i members hloads
      split_ifs at h with hschema
      · obtain ⟨-, rfl⟩ := fromDict_eq_ok.1 h
        refine SupervisorState.ofFields_valid (fun _ h => h) ?_
        intro k v hv
        exact holdsTexts_of_built (Json.Built.member (loads_built hloads) hv)
      · obtain rfl := Except.ok.inj h
        exact freshState_valid Joined true
    · obtain rfl := Except.ok.inj h
      exact freshState_valid Joined true

section Writing

variable {floatRepr : ℚ → List Char}

theorem writable_orNull {α : Type} {g : α → Json} {x : Option α}
    (h : ∀ a ∈ x, (g a).Writable) : (orNull g x).Writable := by
  cases x with
  | none => exact .null
  | some a => exact h a rfl

theorem writable_childToDict {child : WorkerChild} (h : FloatLiteral (floatRepr child.spawnedAt)) :
    (Json.obj (childToDict floatRepr child)).Writable := by
  refine .obj ?_
  simp only [childToDict, List.forall_mem_cons, entry]
  exact ⟨.int _, .int _, .int _, .int _, .str _,
    .str _, Json.Writable.float h, List.forall_mem_nil _⟩

theorem writable_unresolvedToDict {child : UnresolvedChild}
    (h : FloatLiteral (floatRepr child.spawnedAt)) :
    (Json.obj (child.toDict floatRepr)).Writable := by
  refine .obj ?_
  simp only [UnresolvedChild.toDict, List.forall_mem_cons, entry]
  exact ⟨.int _, writable_orNull fun _ _ => .int _, .str _,
    Json.Writable.float h, List.forall_mem_nil _⟩

theorem writable_obligationToDict {o : SpawningObligation} (h : FloatLiteral (floatRepr o.createdAt)) :
    (Json.obj (o.toDict floatRepr)).Writable := by
  refine .obj ?_
  simp only [SpawningObligation.toDict, List.forall_mem_cons, entry]
  exact ⟨.str _, .str _, .int _, .int _,
    writable_orNull fun _ _ => .int _, writable_orNull fun _ _ => .int _,
    Json.Writable.float h, writable_orNull fun _ _ => .str _, .bool _, List.forall_mem_nil _⟩

theorem writable_lastExitToDict {e : LastExit} (h : FloatLiteral (floatRepr e.moment)) :
    (Json.obj (e.toDict floatRepr)).Writable := by
  refine .obj ?_
  simp only [LastExit.toDict, List.forall_mem_cons, entry]
  exact ⟨writable_orNull fun _ _ => .int _, Json.Writable.float h, List.forall_mem_nil _⟩

theorem writable_optionalEntry (key : String) (x : Option PyStr) :
    ∀ kv ∈ optionalEntry key x, kv.2.Writable := by
  cases x with
  | none => exact List.forall_mem_nil _
  | some s =>
    simp only [optionalEntry, List.forall_mem_cons, entry]
    exact ⟨.str _, List.forall_mem_nil _⟩

theorem writable_stateToDict {s : SupervisorState} 
    (hx : s.FloatsSatisfy fun x => FloatLiteral (floatRepr x)) :
    (Json.obj (s.toDict floatRepr)).Writable := by
  refine .obj ?_
  simp only [SupervisorState.toDict, List.forall_mem_append, List.forall_mem_cons, entry]
  exact ⟨⟨⟨.int _, .int _, .str _,
    writable_orNull fun _ _ => .str _,
    writable_orNull fun c hc => writable_childToDict (hx.child c hc),
    writable_orNull fun c hc => writable_unresolvedToDict (hx.unresolved c hc),
    .bool _, .bool _,
    writable_orNull fun o ho => writable_obligationToDict (hx.spawning o ho), .bool _,
    .str _, .int _,
    writable_orNull fun x h => Json.Writable.float (hx.nextAttemptAt x h),
    writable_orNull fun e he => writable_lastExitToDict (hx.lastExit e he),
    writable_orNull fun x h => Json.Writable.float (hx.lastSpawnAt x h), .bool _,
    writable_orNull fun x h => Json.Writable.float (hx.nextReadinessAt x h), List.forall_mem_nil _⟩,
    writable_optionalEntry _ _⟩, writable_optionalEntry _ _⟩

/-- Any state of the current schema is read back as what its fields say. -/
theorem readState_fileText_fields {s : SupervisorState} (hschema : s.schemaVersion = SCHEMA_VERSION)
    (hx : s.FloatsSatisfy fun x => FloatLiteral (floatRepr x)) :
    readState (.text (s.fileText floatRepr)) =
      .ok (.ofFields (received Json.readBack (s.toDict floatRepr))) := by
  have hloads := loads_dumps_line (writable_stateToDict hx)
  obtain ⟨d, hd, hmembers⟩ := readBack_obj (wellKeyed_stateToDict floatRepr s)
  have hfields : memberOf d = received Json.readBack (s.toDict floatRepr) := hmembers
  have hmember : memberOf d "schema_version" = some (.int SCHEMA_VERSION) := by
    rw [hfields, ← hschema]
    rfl
  rw [readState, SupervisorState.fileText, hloads, hd]
  dsimp only
  rw [get_eq_memberOf, hmember, Option.getD_some, if_pos (by decide)]
  refine fromDict_eq_ok.2 ⟨?_, ?_⟩
  · rw [stateSchemaValid, hmember]
    decide
  · rw [hfields]

/-- **A state that was written is what `read_state` returns.** -/
theorem readState_fileText {s : SupervisorState} (hv : s.Valid Joined)
    (hx : s.FloatsReadBack floatRepr) : readState (.text (s.fileText floatRepr)) = .ok s := by
  have hliteral : s.FloatsSatisfy fun x => FloatLiteral (floatRepr x) :=
    hx.mono fun _ h => h.literal
  rw [readState_fileText_fields hv.schema hliteral,
    SupervisorState.ofFields_toDict transparent_readBack hv hx]

end Writing

end Lubko.Supervise
