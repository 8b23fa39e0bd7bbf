import Lubko.Authority.Fencing

/-!
# Canonical row texts

The text of a row and the row say the same. `canonical_row_text` and `parse_authority_payload` check
every field on their own, and agree on all of them; what a text does not keep is a surrogate pair
that was written as two code points, and this the canonical text does not show.

* `canonicalRowText_joined` — a row and the row read back have one canonical text.
* `row_codec` — a written row is read back exactly, and every stored row is the canonical text of the
  row it parses to.
-/

namespace Lubko.Authority

open Lubko.Lib

/-! ## Sections -/

section Sections

theorem dumps_str_joined (s : PyStr) : dumps (.str s.joinSurrogates) = dumps (.str s) := by
  rw [dumps_str, dumps_str, quote_joinSurrogates]

theorem dumps_orNull_joined (x : Option PyStr) :
    dumps (orNull .str (x.map PyStr.joinSurrogates)).sortKeys = dumps (orNull .str x).sortKeys := by
  cases x with
  | none => rfl
  | some s => exact dumps_str_joined s

/-- A section that can be written can be written again after it was read back, with the same
text. -/
theorem buildOwner_joined {owner : Option AuthorityOwner} {m : Json} (h : buildOwner owner = .ok m) :
    ∃ m', buildOwner (owner.map AuthorityOwner.joined) = .ok m' ∧
      dumps m'.sortKeys = dumps m.sortKeys := by
  cases owner with
  | none => exact ⟨m, h, rfl⟩
  | some o =>
    obtain ⟨hvalid, rfl⟩ := buildOwner_some.1 h
    refine ⟨_, buildOwner_some.2 ⟨hvalid.joined, rfl⟩, ?_⟩
    have hsort : ∀ o : AuthorityOwner, dumps (Json.obj o.members).sortKeys =
        dumps (.obj [member "boot_id" (.str o.bootId), member "pid" (.int o.pid),
          member "start_time_ticks" (.int o.startTimeTicks)]) := fun _ => rfl
    rw [hsort, hsort]
    simp only [dumps_obj, dumps_str, dumpsMembers, member, AuthorityOwner.joined,
      quote_joinSurrogates]

theorem buildSpawnMapping_joined {spawn : Option SpawnObligation} {m : Json}
    (h : buildSpawnMapping spawn = .ok m) :
    ∃ m', buildSpawnMapping (spawn.map SpawnObligation.joined) = .ok m' ∧
      dumps m'.sortKeys = dumps m.sortKeys := by
  cases spawn with
  | none => exact ⟨m, h, rfl⟩
  | some s =>
    obtain ⟨hvalid, rfl⟩ := buildSpawnMapping_some.1 h
    refine ⟨_, buildSpawnMapping_some.2 ⟨hvalid.joined, rfl⟩, ?_⟩
    have hsort : ∀ s : SpawnObligation, dumps (Json.obj s.members).sortKeys =
        dumps (.obj [member "boot_id" (orNull .str s.bootId).sortKeys,
          member "commit" (.str s.commit), member "creator_pid" (.int s.creatorPid),
          member "creator_start_time_ticks" (.int s.creatorStartTimeTicks),
          member "parent_death_signal" (.bool s.parentDeathSignal),
          member "pid" (orNull .int s.pid).sortKeys,
          member "start_time_ticks" (orNull .int s.startTimeTicks).sortKeys,
          member "token" (.str s.token)]) := fun _ => rfl
    rw [hsort, hsort]
    simp only [dumps_obj, dumps_str, dumpsMembers, member, SpawnObligation.joined,
      quote_joinSurrogates, dumps_orNull_joined]

theorem buildWorkerMapping_joined {worker : Option WorkerRecord} {m : Json}
    (h : buildWorkerMapping worker = .ok m) :
    ∃ m', buildWorkerMapping (worker.map WorkerRecord.joined) = .ok m' ∧
      dumps m'.sortKeys = dumps m.sortKeys := by
  cases worker with
  | none => exact ⟨m, h, rfl⟩
  | some w =>
    obtain ⟨hvalid, rfl⟩ := buildWorkerMapping_some.1 h
    refine ⟨_, buildWorkerMapping_some.2 ⟨hvalid.joined, rfl⟩, ?_⟩
    have hsort : ∀ w : WorkerRecord, dumps (Json.obj w.members).sortKeys =
        dumps (.obj [member "commit" (.str w.commit), member "pgid" (.int w.pgid),
          member "pid" (.int w.pid), member "sid" (.int w.sid),
          member "start_time_ticks" (.int w.startTimeTicks), member "token" (.str w.token),
          member "worker_id" (.str w.workerId)]) := fun _ => rfl
    rw [hsort, hsort]
    simp only [dumps_obj, dumps_str, dumpsMembers, member, WorkerRecord.joined,
      quote_joinSurrogates]

end Sections

/-! ## The row -/

/-- **The row read back has the text it was read from.** -/
theorem canonicalRowText_joined {row : AuthorityRow} {t : List Char}
    (h : canonicalRowText row = .ok t) : canonicalRowText row.joined = .ok t := by
  have hserver : row.server ≠ [] := by
    simp only [canonicalRowText, except_bind_eq_ok, requireServerIdentity_eq_ok] at h
    obtain ⟨_, hserver, -⟩ := h
    exact hserver.1
  obtain ⟨hepoch, hgen, owner, spawn, worker, ho, hs, hw, hlen, rfl⟩ := canonicalRowText_eq_ok h
  obtain ⟨owner', ho', howner⟩ := buildOwner_joined ho
  obtain ⟨spawn', hs', hspawn⟩ := buildSpawnMapping_joined hs
  obtain ⟨worker', hw', hworker⟩ := buildWorkerMapping_joined hw
  have hsort : ∀ (server : PyStr) (owner spawn worker : Json),
      dumps (Json.obj (payloadMembers server row.epoch row.generation owner spawn
        worker)).sortKeys =
      dumps (.obj [member "epoch" (.int row.epoch), member "generation" (.int row.generation),
        member "owner" owner.sortKeys, member "server" (.str server),
        member "spawn" spawn.sortKeys, member "type" (.str AUTHORITY_TYPE),
        member "v" (.int AUTHORITY_VERSION), member "worker" worker.sortKeys]) :=
    fun _ _ _ _ => rfl
  have htext : dumps (Json.obj (payloadMembers row.server.joinSurrogates row.epoch row.generation
      owner' spawn' worker')).sortKeys =
      dumps (Json.obj (payloadMembers row.server row.epoch row.generation owner spawn
        worker)).sortKeys := by
    rw [hsort, hsort]
    simp only [dumps_obj, dumps_str, dumpsMembers, member, quote_joinSurrogates, howner, hspawn,
      hworker]
  simp only [canonicalRowText, except_bind_eq_ok, requireServerIdentity_eq_ok,
    checkNonNegativeInt_eq_ok]
  refine ⟨_, ⟨joinSurrogates_ne_nil hserver, rfl⟩, _, ⟨rfl, hepoch⟩, _, ⟨rfl, hgen⟩, owner', ho',
    spawn', hs', worker', hw', ?_⟩
  show serializeAuthorityPayload (.obj (payloadMembers row.server.joinSurrogates row.epoch
    row.generation owner' spawn' worker')) = _
  rw [serializeAuthorityPayload, htext, if_neg (not_lt.2 hlen)]

/-- The texts of a row. -/
def AuthorityRow.texts (row : AuthorityRow) : List PyStr :=
  row.server :: (row.owner.toList.map AuthorityOwner.bootId ++
    row.spawn.toList.flatMap (fun s => s.token :: s.commit :: s.bootId.toList) ++
    row.worker.toList.flatMap fun w => [w.token, w.commit, w.workerId])

/-- A row whose texts round-trip has no pair to join. -/
theorem AuthorityRow.joined_of_texts {row : AuthorityRow}
    (h : ∀ s ∈ row.texts, JsonRoundTrips s) : row.joined = row := by
  simp only [jsonRoundTrips_iff] at h
  cases row with
  | mk server epoch generation owner spawn worker =>
    have hserver : server.joinSurrogates = server := h server (by simp [AuthorityRow.texts])
    have howner : owner.map AuthorityOwner.joined = owner := by
      cases owner with
      | none => rfl
      | some o =>
        have hboot : o.bootId.joinSurrogates = o.bootId := h _ (by simp [AuthorityRow.texts])
        rw [Option.map_some, AuthorityOwner.joined, hboot]
    have hspawn : spawn.map SpawnObligation.joined = spawn := by
      cases spawn with
      | none => rfl
      | some s =>
        have htoken : s.token.joinSurrogates = s.token := h _ (by simp [AuthorityRow.texts])
        have hcommit : s.commit.joinSurrogates = s.commit := h _ (by simp [AuthorityRow.texts])
        have hboot : s.bootId.map PyStr.joinSurrogates = s.bootId := by
          cases hb : s.bootId with
          | none => rfl
          | some b => exact congrArg some (h b (by simp [AuthorityRow.texts, hb]))
        rw [Option.map_some, SpawnObligation.joined, htoken, hcommit, hboot]
    have hworker : worker.map WorkerRecord.joined = worker := by
      cases worker with
      | none => rfl
      | some w =>
        have htoken : w.token.joinSurrogates = w.token := h _ (by simp [AuthorityRow.texts])
        have hcommit : w.commit.joinSurrogates = w.commit := h _ (by simp [AuthorityRow.texts])
        have hid : w.workerId.joinSurrogates = w.workerId := h _ (by simp [AuthorityRow.texts])
        rw [Option.map_some, WorkerRecord.joined, htoken, hcommit, hid]
    simp only [AuthorityRow.joined, hserver, howner, hspawn, hworker]

/-! ## Stored rows -/

namespace System

/-- The text stored for a server is the canonical text of a row of that server. -/
def Canonical (s : System) : Prop :=
  ∀ server t, s.rows server = some t →
    ∃ row, canonicalRowText row = .ok t ∧ row.server = server ∧
      (row.spawn = none ∨ row.worker = none)

theorem Canonical.step {s m : System} {label : Label} (hinv : s.Inv) (hs : s.Canonical)
    (h : s.step label = some m) : m.Canonical := by
  intro server t hrow
  cases step_row h server with
  | inl hsame => exact hs server t (hsame ▸ hrow)
  | inr hchange =>
    cases hchange with
    | inl hbootstrap =>
      obtain ⟨-, -, text, hneutral, hm⟩ := hbootstrap
      obtain rfl := Option.some.inj (hm.symm.trans hrow)
      simp only [neutralPayload, except_bind_eq_ok, requireServerIdentity_eq_ok] at hneutral
      obtain ⟨_, ⟨-, rfl⟩, htext⟩ := hneutral
      exact ⟨_, htext, rfl, .inl rfl⟩
    | inr hcommits =>
      obtain ⟨request, hcommit, rfl⟩ := hcommits
      obtain ⟨row, row', text, hread, htrans, htext, hm, -⟩ := hcommit.row hinv h
      obtain rfl := Option.some.inj (hm.symm.trans hrow)
      obtain ⟨_, -, hparse⟩ := row_eq_some.1 hread
      refine ⟨row', htext, ?_, htrans.exclusive (parseAuthorityPayload_exclusive hparse)⟩
      rw [htrans.server_eq, parseAuthorityPayload_server hparse]

end System

/-- **The row codec.** A row without both an obligation and a worker that can be written is read back
exactly, when its texts round-trip; and in every run from an empty table, by any number of
incarnations, with lost compare-and-swaps and lost answers, the text stored for a server whose name
round-trips is the canonical text of the row it parses to. -/
theorem row_codec :
    (∀ (row : AuthorityRow) (t : List Char), (∀ s ∈ row.texts, JsonRoundTrips s) →
      (row.spawn = none ∨ row.worker = none) → canonicalRowText row = .ok t →
        parseAuthorityPayload t row.server = .ok row) ∧
    ∀ (labels : List Label) (s : System),
      exec System.step { rows := fun _ => none } labels = some s → ∀ (server : PyStr) (t : List Char),
        JsonRoundTrips server → s.rows server = some t →
          ∃ row, parseAuthorityPayload t server = .ok row ∧ canonicalRowText row = .ok t := by
  refine ⟨fun row t htexts hboth h => ?_, fun labels s h server t hserver hrow => ?_⟩
  · have hname : row.server.joinSurrogates = row.server :=
      jsonRoundTrips_iff.1 (htexts _ (List.mem_cons_self ..))
    have hback := parseAuthorityPayload_canonicalRowText h hname hboth
    rwa [AuthorityRow.joined_of_texts htexts] at hback
  · have hstart : System.Inv { rows := fun _ => none } ∧
        System.Canonical { rows := fun _ => none } := by
      refine ⟨fun p hp => ?_, fun server t hnone => ?_⟩
      · cases hp
      · cases hnone
    obtain ⟨-, hcanonical⟩ := exec_invariant
      (fun _ _ _ hs hstep => And.intro (System.Inv.step hs.1 hstep)
        (System.Canonical.step hs.1 hs.2 hstep)) hstart h
    obtain ⟨row, htext, rfl, hboth⟩ := hcanonical server t hrow
    have hname := jsonRoundTrips_iff.1 hserver
    exact ⟨row.joined, parseAuthorityPayload_canonicalRowText htext hname hboth,
      canonicalRowText_joined htext⟩

/-- The row of the first incarnation, with its obligation. -/
def firstRow : AuthorityRow :=
  { server := "alpha", epoch := 1, generation := 0, owner := some System.first,
    spawn := some System.firstSpawn }

/-- The codec on a row with an obligation, and on the row two racing incarnations leave. -/
theorem row_codec_race :
    (∃ t, canonicalRowText firstRow = .ok t ∧
      parseAuthorityPayload t firstRow.server = .ok firstRow) ∧
    ∃ s t row, exec System.step System.empty System.race = some s ∧
      s.rows System.firstClaim.server = some t ∧
      parseAuthorityPayload t System.firstClaim.server = .ok row ∧
      canonicalRowText row = .ok t := by
  have htexts : ∀ s ∈ firstRow.texts, JsonRoundTrips s := by
    simp only [jsonRoundTrips_iff]
    decide +kernel
  have hwritten : ((canonicalRowText firstRow).toOption).isSome = true := by decide +kernel
  have hrun : ((exec System.step System.empty System.race).any fun s =>
      (s.rows System.firstClaim.server).isSome) = true := by decide +kernel
  obtain ⟨t, ht⟩ := Option.isSome_iff_exists.1 hwritten
  obtain ⟨s, hs, hrow⟩ := (Option.any_eq_true _ _).1 hrun
  obtain ⟨t', ht'⟩ := Option.isSome_iff_exists.1 hrow
  have htext := toOption_eq_some.1 ht
  refine ⟨⟨t, htext, row_codec.1 firstRow t htexts (.inr rfl) htext⟩, s, t', ?_⟩
  obtain ⟨row, hparse, hcanonical⟩ := row_codec.2 System.race s hs System.firstClaim.server t'
    (htexts _ (List.mem_cons_self ..)) ht'
  exact ⟨row, hs, ht', hparse, hcanonical⟩

end Lubko.Authority
