import Lubko.Lib.Rounding
import Lubko.Supervise.StateCodec

/-!
# Obligations written over the control socket

`write_state_preserving_authority`, the two control-socket handlers that publish through it, and the
two clients, which write directly when they hold the token. One call of the writer is described by
what it meets: whether the consumer lock is acquired, what `state.json` holds when it is read under
the lock, and whether the write is confirmed. A handler that raises, or that answers with an error,
leaves the file open.

* `writeStatePreservingAuthority_eq_ok` — the merging writer keeps the authority of its own read.
* `obligation_writes_effective_iff` — an acknowledged obligation took effect exactly when it was in
  the file before.
-/

namespace Lubko.Supervise

open Lubko.Lib

/-! ## The writer -/

/-- What one call of the writer meets. -/
structure Publication where
  locked : Bool
  current : FileContent
  confirmed : Bool

/-- The blocking authority of `current` carried onto `state`. -/
def preserveAuthority (state current : SupervisorState) : SupervisorState :=
  { state with
    spawning := current.spawning
    spawningHoldMalformed := current.spawningHoldMalformed
    unresolvedChild := current.unresolvedChild
    unresolvedHoldMalformed := current.unresolvedHoldMalformed
    ownershipHoldMalformed := current.ownershipHoldMalformed }

section Handlers

variable (floatRepr : ℚ → List Char)

/-- `write_state`, with the file it leaves when it returns. -/
def writeState (state : SupervisorState) (confirmed : Bool) : Except PyStr FileContent :=
  if confirmed then .ok (.text (state.fileText floatRepr))
  else .error "failed to durably write supervisor state"

/-- `write_state_preserving_authority`, with the file it leaves when it returns. -/
def writeStatePreservingAuthority (state : SupervisorState) (p : Publication) :
    Except PyStr FileContent :=
  if p.locked then do
    let current ← readState p.current
    writeState floatRepr (preserveAuthority state current) p.confirmed
  else .error "timed out waiting for the consumer-establishment lock"

/-! ## The handlers -/

/-- `ControlResponse.ok()` and `ControlResponse.error(msg)`. -/
inductive ControlResponse where
  | ok
  | error (msg : PyStr)
  deriving DecidableEq

/-- A response, and the file where the handler returned from its write. -/
abbrev Handled := ControlResponse × Option FileContent

/-- `try: ... except Exception: return ControlResponse.error(msg)`, and `ok` behind it. -/
def answer (msg : PyStr) : Except PyStr FileContent → Handled
  | .ok file => (.ok, some file)
  | .error _ => (.error msg, none)

/-- The body both handlers have in their `try`: read, replace `spawning`, publish. -/
def publishSpawning (spawning : Option SpawningObligation) (before : FileContent) (p : Publication) :
    Except PyStr FileContent := do
  let current ← readState before
  writeStatePreservingAuthority floatRepr { current with spawning } p

/-- `_handle_set_spawning_obligation`. -/
def handleSetSpawningObligation (payload : Fields) (before : FileContent) (p : Publication) :
    Handled :=
  match payload.get "obligation" with
  | .obj obligationData =>
    match SpawningObligation.fromDict (memberOf obligationData) with
    | .ok obligation =>
      answer "failed to set spawning obligation"
        (publishSpawning floatRepr (some obligation) before p)
    | .error exc => (.error (PyStr.ofString "malformed spawning obligation: " ++ exc), none)
  | _ => (.error "missing or invalid 'obligation'", none)

/-- `_handle_clear_spawning_obligation`. -/
def handleClearSpawningObligation (before : FileContent) (p : Publication) : Handled :=
  answer "failed to clear spawning obligation" (publishSpawning floatRepr none before p)

/-! ## The clients -/

/-- The token-holding path of both clients. -/
def writeSpawningDirectly (spawning : Option SpawningObligation) (before : FileContent)
    (confirmed : Bool) : Except PyStr FileContent := do
  let current ← readState before
  writeState floatRepr { current with spawning } confirmed

/-- `if not response.get("ok"): raise RuntimeError(msg)`. -/
def raiseForResponse : Handled → Except PyStr FileContent
  | (.ok, some file) => .ok file
  | (.ok, none) => .error "unknown error from supervisor"
  | (.error msg, _) => .error msg

/-- `set_spawning_obligation_client`, when the request reaches the daemon. -/
def setSpawningObligationClient (hasToken : Bool) (obligation : SpawningObligation)
    (before : FileContent) (p : Publication) : Except PyStr FileContent :=
  if hasToken then writeSpawningDirectly floatRepr (some obligation) before p.confirmed
  else raiseForResponse (handleSetSpawningObligation floatRepr
    (received Json.build [entry "type" (.str "set_spawning_obligation"),
      entry "obligation" (.obj (obligation.toDict floatRepr))]) before p)

/-- `clear_spawning_obligation_client`, when the request reaches the daemon. -/
def clearSpawningObligationClient (hasToken : Bool) (before : FileContent) (p : Publication) :
    Except PyStr FileContent :=
  if hasToken then writeSpawningDirectly floatRepr none before p.confirmed
  else raiseForResponse (handleClearSpawningObligation floatRepr before p)

end Handlers

/-! ## What is published -/

section Published

variable {floatRepr : ℚ → List Char}

theorem writeState_eq_ok {state : SupervisorState} {confirmed : Bool} {file : FileContent} :
    writeState floatRepr state confirmed = .ok file ↔
      confirmed = true ∧ file = .text (state.fileText floatRepr) := by
  rw [writeState]
  by_cases h : confirmed = true
  · simp [h, eq_comm]
  · simp [h]

/-- **The merging writer keeps the authority of its own read.** -/
theorem writeStatePreservingAuthority_eq_ok {state : SupervisorState} {p : Publication}
    {file : FileContent} : writeStatePreservingAuthority floatRepr state p = .ok file ↔
      p.locked = true ∧ p.confirmed = true ∧ ∃ current, readState p.current = .ok current ∧
        file = .text ((preserveAuthority state current).fileText floatRepr) := by
  rw [writeStatePreservingAuthority]
  by_cases h : p.locked = true
  · simp only [h, if_true, except_bind_eq_ok, writeState_eq_ok, true_and]
    constructor
    · intro ⟨current, hread, hconfirmed, hfile⟩
      exact ⟨hconfirmed, current, hread, hfile⟩
    · intro ⟨hconfirmed, current, hread, hfile⟩
      exact ⟨current, hread, hconfirmed, hfile⟩
  · simp [h]

theorem answer_eq_ok {msg : PyStr} {x : Except PyStr FileContent} {file : FileContent} :
    answer msg x = (.ok, some file) ↔ x = .ok file := by
  cases x with
  | ok f => simp [answer]
  | error e => simp [answer]

/-- A state that keeps a valid record is valid, and so are its floats. -/
theorem preserveAuthority_valid {state current : SupervisorState} (hv : state.Valid Joined)
    (hc : current.Valid Joined) : (preserveAuthority state current).Valid Joined :=
  { hv with unresolved := hc.unresolved, spawning := hc.spawning }

theorem preserveAuthority_floats {state current : SupervisorState}
    (hv : state.FloatsReadBack floatRepr) (hc : current.FloatsReadBack floatRepr) :
    (preserveAuthority state current).FloatsReadBack floatRepr :=
  { hv with unresolved := hc.unresolved, spawning := hc.spawning }

/-- What was published is what `read_state` returns next: the snapshot with the authority found under
the lock, whatever `spawning` was asked for. -/
theorem readState_publishSpawning {spawning : Option SpawningObligation} {before : FileContent}
    {p : Publication} {s₀ s : SupervisorState} {file : FileContent}
    (h₀ : readState before = .ok s₀) (h : readState p.current = .ok s)
    (hx₀ : s₀.FloatsReadBack floatRepr) (hx : s.FloatsReadBack floatRepr)
    (hfile : publishSpawning floatRepr spawning before p = .ok file) :
    readState file = .ok (preserveAuthority s₀ s) := by
  simp only [publishSpawning, except_bind_eq_ok, writeStatePreservingAuthority_eq_ok] at hfile
  obtain ⟨s₀', h₀', -, -, s', h', rfl⟩ := hfile
  obtain rfl := Except.ok.inj (h₀.symm.trans h₀')
  obtain rfl := Except.ok.inj (h.symm.trans h')
  show readState (.text ((preserveAuthority s₀ s).fileText floatRepr)) = _
  exact readState_fileText (preserveAuthority_valid (readState_valid h₀) (readState_valid h))
    (preserveAuthority_floats hx₀ hx)

/-- The direct path publishes the record it was given. -/
theorem readState_writeSpawningDirectly {spawning : Option SpawningObligation}
    {before : FileContent} {confirmed : Bool} {s : SupervisorState} {file : FileContent}
    (h : readState before = .ok s) (hx : s.FloatsReadBack floatRepr)
    (hv : ∀ o ∈ spawning, o.Valid Joined ∧ ReadsBack floatRepr o.createdAt)
    (hfile : writeSpawningDirectly floatRepr spawning before confirmed = .ok file) :
    readState file = .ok { s with spawning } := by
  simp only [writeSpawningDirectly, except_bind_eq_ok, writeState_eq_ok] at hfile
  obtain ⟨s', h', -, rfl⟩ := hfile
  obtain rfl := Except.ok.inj (h.symm.trans h')
  exact readState_fileText { readState_valid h with spawning := fun o ho => (hv o ho).1 }
    { hx with spawning := fun o ho => (hv o ho).2 }

theorem raiseForResponse_eq_ok {handled : Handled} {file : FileContent} :
    raiseForResponse handled = .ok file ↔ handled = (.ok, some file) := by
  obtain ⟨response, left⟩ := handled
  cases response with
  | ok => cases left with
    | none => simp [raiseForResponse]
    | some f => simp [raiseForResponse]
  | error msg => simp [raiseForResponse]

/-- The obligation reaches the handler as it was sent. -/
theorem handleSet_of_sent {o : SpawningObligation} (hv : o.Valid Joined)
    (hx : ReadsBack floatRepr o.createdAt) {before : FileContent} {p : Publication} :
    handleSetSpawningObligation floatRepr
      (received Json.build [entry "type" (.str "set_spawning_obligation"),
        entry "obligation" (.obj (o.toDict floatRepr))]) before p =
      answer "failed to set spawning obligation"
        (publishSpawning floatRepr (some o) before p) := by
  obtain ⟨d, hd, hmembers⟩ := transparent_build.obj _ (wellKeyed_obligationToDict floatRepr o)
  have hfields : memberOf d = received Json.build (o.toDict floatRepr) := hmembers
  have hget : Fields.get (received Json.build [entry "type" (.str "set_spawning_obligation"),
      entry "obligation" (.obj (o.toDict floatRepr))]) "obligation" = .obj d := hd
  rw [handleSetSpawningObligation, hget]
  dsimp only
  rw [hfields, SpawningObligation.fromDict_toDict transparent_build hv hx]

/-- **Acknowledged obligation writes.** For every content of `state.json` that can be read, before
the request and under the lock: a set request that is answered `ok` took effect exactly when the file
already held that obligation, and a clear request exactly when it held none; so, without a write in
between, the socket and the direct path of a client leave the same state exactly then. -/
theorem obligation_writes_effective_iff (floatRepr : ℚ → List Char) (before : FileContent)
    (p : Publication) (s₀ s : SupervisorState) (h₀ : readState before = .ok s₀)
    (h : readState p.current = .ok s) (hfloats : ∀ x ∈ s₀.floats ++ s.floats, ReadsBack floatRepr x) :
    (∀ (payload : Fields) (data : List (PyStr × Json)) (o : SpawningObligation)
        (file : FileContent), payload.get "obligation" = .obj data →
      SpawningObligation.fromDict (memberOf data) = .ok o →
      handleSetSpawningObligation floatRepr payload before p = (.ok, some file) →
        ((∃ m, readState file = .ok m ∧ m.spawning = some o) ↔ s.spawning = some o)) ∧
    (∀ file : FileContent, handleClearSpawningObligation floatRepr before p = (.ok, some file) →
        ((∃ m, readState file = .ok m ∧ m.spawning = none) ↔ s.spawning = none)) ∧
    (p.current = before →
      (∀ (o : SpawningObligation) (direct socket : FileContent), o.Valid Joined →
        ReadsBack floatRepr o.createdAt →
        setSpawningObligationClient floatRepr true o before p = .ok direct →
        setSpawningObligationClient floatRepr false o before p = .ok socket →
          (readState socket = readState direct ↔ s.spawning = some o)) ∧
      ∀ direct socket : FileContent,
        clearSpawningObligationClient floatRepr true before p = .ok direct →
        clearSpawningObligationClient floatRepr false before p = .ok socket →
          (readState socket = readState direct ↔ s.spawning = none)) := by
  have hx₀ : s₀.FloatsReadBack floatRepr :=
    SupervisorState.floatsSatisfy_of_mem fun x hx => hfloats x (List.mem_append_left _ hx)
  have hx : s.FloatsReadBack floatRepr :=
    SupervisorState.floatsSatisfy_of_mem fun x hx => hfloats x (List.mem_append_right _ hx)
  have hspawning : ∀ (wanted found : Option SpawningObligation) (file : FileContent),
      publishSpawning floatRepr wanted before p = .ok file →
        ((∃ m, readState file = .ok m ∧ m.spawning = found) ↔ s.spawning = found) := by
    intro wanted found file hfile
    have hread := readState_publishSpawning h₀ h hx₀ hx hfile
    constructor
    · intro ⟨m, hm, hfound⟩
      obtain rfl := Except.ok.inj (hread.symm.trans hm)
      exact hfound
    · intro hfound
      exact ⟨_, hread, hfound⟩
  have hclients : p.current = before → ∀ (wanted : Option SpawningObligation)
      (direct socket : FileContent),
      (∀ o ∈ wanted, o.Valid Joined ∧ ReadsBack floatRepr o.createdAt) →
      writeSpawningDirectly floatRepr wanted before p.confirmed = .ok direct →
      publishSpawning floatRepr wanted before p = .ok socket →
        (readState socket = readState direct ↔ s.spawning = wanted) := by
    intro hsame wanted direct socket hv hdirect hsocket
    obtain rfl := Except.ok.inj (h₀.symm.trans (hsame ▸ h))
    have hkept : preserveAuthority s₀ s₀ = s₀ := rfl
    rw [readState_publishSpawning h₀ h hx₀ hx hsocket,
      readState_writeSpawningDirectly h₀ hx₀ hv hdirect, hkept, Except.ok.injEq]
    constructor
    · intro heq
      rw [heq]
    · intro heq
      rw [← heq]
  refine ⟨?_, ?_, ?_⟩
  · intro payload data o file hdata ho hok
    rw [handleSetSpawningObligation, hdata] at hok
    dsimp only at hok
    rw [ho] at hok
    exact hspawning (some o) (some o) file (answer_eq_ok.1 hok)
  · intro file hok
    exact hspawning none none file (answer_eq_ok.1 hok)
  · intro hsame
    refine ⟨?_, ?_⟩
    · intro o direct socket hv hx hdirect hsocket
      have hsent := raiseForResponse_eq_ok.1 hsocket
      rw [handleSet_of_sent hv hx] at hsent
      refine hclients hsame (some o) direct socket ?_ hdirect (answer_eq_ok.1 hsent)
      intro o' ho'
      obtain rfl := Option.some.inj (Option.mem_def.1 ho')
      exact ⟨hv, hx⟩
    · intro direct socket hdirect hsocket
      exact hclients hsame none direct socket nofun hdirect
        (answer_eq_ok.1 (raiseForResponse_eq_ok.1 hsocket))

end Published

/-- The obligation of a spawn that was announced and not yet made. -/
def announced : SpawningObligation :=
  { token := "t1", commit := "c1", creatorPid := 7, creatorStartTimeTicks := 9, pid := none,
    startTimeTicks := none, createdAt := 0, bootId := none }

/-- `float.__repr__` of zero. -/
def zeroRepr : ℚ → List Char := fun _ => "0.0".toList

theorem announced_valid : announced.Valid Joined :=
  ⟨by decide, rfl, rfl, by decide, by decide, nofun, nofun, le_refl _, nofun⟩

theorem readsBack_zero : ReadsBack zeroRepr 0 where
  literal := floatLiteral_digit (by decide)
  value := by
    have hvalue : literalValue ['0', '.', '0'] = 0 := by
      rw [literalValue_digit (by decide)]
      exact_mod_cast show Nat.ofDigitChars 10 ['0'] 0 = 0 by decide
    show roundBinary64 (literalValue ['0', '.', '0']) = some 0
    rw [hvalue, roundBinary64_zero]

/-- An acknowledged request on a fresh state: what was asked for is not in the state read next. -/
theorem acknowledged_obligation_lost : ∃ file s,
    handleSetSpawningObligation zeroRepr (received Json.build [entry "type"
        (.str "set_spawning_obligation"), entry "obligation" (.obj (announced.toDict zeroRepr))])
      .absent { locked := true, current := .absent, confirmed := true } = (.ok, some file) ∧
    readState file = .ok s ∧ s.spawning ≠ some announced := by
  have hfloats : freshState.FloatsReadBack zeroRepr :=
    ⟨nofun, nofun, nofun, nofun, nofun, nofun, nofun⟩
  have hfile : publishSpawning zeroRepr (some announced) .absent
      { locked := true, current := .absent, confirmed := true } =
    .ok (.text ((preserveAuthority freshState freshState).fileText zeroRepr)) := rfl
  refine ⟨_, _, ?_, readState_publishSpawning rfl rfl hfloats hfloats hfile, ?_⟩
  · rw [handleSet_of_sent announced_valid readsBack_zero, hfile]
    rfl
  · decide

/-- The equivalence on a fresh state: a clear request took effect and a set request did not. -/
theorem obligation_writes_effective_iff_fresh :
    (∃ file, handleClearSpawningObligation zeroRepr .absent
        { locked := true, current := .absent, confirmed := true } = (.ok, some file) ∧
      ∃ m, readState file = .ok m ∧ m.spawning = none) ∧
    ∃ direct socket,
      setSpawningObligationClient zeroRepr true announced .absent
        { locked := true, current := .absent, confirmed := true } = .ok direct ∧
      setSpawningObligationClient zeroRepr false announced .absent
        { locked := true, current := .absent, confirmed := true } = .ok socket ∧
      readState socket ≠ readState direct := by
  have heff := obligation_writes_effective_iff zeroRepr .absent
    { locked := true, current := .absent, confirmed := true } freshState freshState rfl rfl nofun
  obtain ⟨-, hclear, hclients⟩ := heff
  have hsocket : setSpawningObligationClient zeroRepr false announced .absent
      { locked := true, current := .absent, confirmed := true } =
    .ok (.text ((preserveAuthority freshState freshState).fileText zeroRepr)) := by
    show raiseForResponse (handleSetSpawningObligation _ _ _ _) = _
    rw [handleSet_of_sent announced_valid readsBack_zero]
    rfl
  refine ⟨⟨_, rfl, (hclear _ rfl).2 rfl⟩, _, _, rfl, hsocket, ?_⟩
  intro heq
  have hset := ((hclients rfl).1 announced _ _ announced_valid readsBack_zero rfl hsocket).1 heq
  cases hset

end Lubko.Supervise
