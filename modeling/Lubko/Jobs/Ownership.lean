import Lubko.Jobs.Statements
import Lubko.Lib.Outline
import Lubko.Output.Publish

/-!
# Chunks and their roots

The transactions on the jobs table as programs of `READ COMMITTED` statements, run by any number of
sessions: publication, explicit deletion, the three phases of the collection, and the single
statements that submit rows and move them through their life.

A chunk's root is the command row its `thread` names, on the chunk's own server. Publication locks
the root before it inserts a chunk; a deletion locks the root before it looks for chunks. So while a
session has a root locked no other session can add a chunk to it (`stable_cleared`), which is all the
ordering of the statements is for.

* `program_outline` — every program keeps `Integrity`.
* `chunks_keep_roots` — referential integrity over every run, for any number of servers.
* `foreign_chunk_loses_root` — without the common server it fails.
-/

namespace Lubko.Jobs

open Lubko.Lib Lubko.Output

/-! ## Programs -/

/-- The single-statement updates of command rows. -/
inductive Change where
  | claim (worker : WorkerIdentity) (now leaseExpiresAt : PyStr)
  | cancelPending (server now : PyStr)
  | cancelRunning (server now : PyStr)
  | refresh (worker : WorkerIdentity) (now leaseExpiresAt : PyStr)
  | recover (server now : PyStr)
  | persist (worker : WorkerIdentity) (pid pgid startTicks : ℤ) (now : PyStr)
  | finish (server : PyStr) (result : JobResult) (now : PyStr)
  | quarantine (server reason now : PyStr)
  | failUnsupported (server reason now : PyStr)

/-- The statement of a change. -/
def Change.update : Change → Update
  | claim worker now lease => claimJobs worker now lease
  | cancelPending server now => Jobs.cancelPending server now
  | cancelRunning server now => Jobs.cancelRunning server now
  | refresh worker now lease => refreshLeases worker now lease
  | recover server now => recoverStale server now
  | persist worker pid pgid ticks now => persistProcess worker pid pgid ticks now
  | finish server result now => finishJob server result now
  | quarantine server reason now => quarantineJob server reason now
  | failUnsupported server reason now => failUnsupportedJob server reason now

/-- A transaction a client or a worker asks for, with the texts that depend on the clock. -/
inductive Request where
  | submit (id : Uuid) (payload : Payload) (h : hasType payload "output_chunk" = false)
  | change (ids : List Uuid) (change : Change) (skipLocked : Bool)
  | publish (publisher : Publisher) (names : List StreamName) (force : Bool) (uuid4 : ℕ → Uuid)
      (now : PyStr)
  | deleteJob (id : Uuid) (server : PyStr)
  | mark (server cutoff : PyStr) (limit : ℕ)
  | drain (server cutoff : PyStr) (limit : ℕ)
  | orphans (server : PyStr) (limit : ℕ)

/-- The jobs table, without ghosts. -/
abbrev PayloadTable := Table Uuid Payload

/-- An update as a statement on the given rows. -/
def updateStatement (u : Update) (ids : List Uuid) (skipLocked : Bool) : Statement Uuid Payload where
  condition _ k p := k ∈ ids && u.guard p
  write p := some (some (u.run p))
  skipLocked := skipLocked

/-- The `SELECT … FOR UPDATE` of `publish_output`. -/
def retainRoot (id : Uuid) (server : PyStr) : Statement Uuid Payload where
  condition _ k p := k = id && publishable server p
  write _ := none

/-- The rows of a publication, inserted one by one. -/
def insertRows (next : Program Uuid Payload) : List (Uuid × OutputChunk) → Program Uuid Payload
  | [] => next
  | (id, chunk) :: rows => .insert id (some (chunkPayload chunk)) (insertRows next rows)

/-- `publish_output`. -/
def publishOutput (publisher : Publisher) (names : List StreamName) (force : Bool) (uuid4 : ℕ → Uuid)
    (now : PyStr) : Program Uuid Payload :=
  match publisher.transaction names force uuid4 with
  | none => .rollback
  | some (plans, stdout, stderr) =>
    .run (retainRoot publisher.job.id publisher.server) fun found =>
      if found = [] then .commit
      else insertRows
        (.run (updateStatement (outputUpdate publisher.server now stdout stderr)
          [publisher.job.id] false) fun _ => .commit) (chunkRows plans)

/-- The root deletion of `delete_job_and_chunks`. -/
def deleteRoot (id : Uuid) (server : PyStr) : Statement Uuid Payload where
  condition _ k p := k = id && hasType p "command" && serverMatch p server
  write _ := some none

/-- The chunk deletion of `delete_job_and_chunks`. -/
def deleteOwned (id : Uuid) (server : PyStr) : Statement Uuid Payload where
  condition _ _ p := ownedChunk server id p
  write _ := some none

/-- `delete_job_and_chunks`. -/
def deleteJobAndChunks (id : Uuid) (server : PyStr) : Program Uuid Payload :=
  .read fun snapshot =>
    -- `str(row[0])` of a `NULL` server
    if (snapshot.get id).any fun p => coalesce (arrowText p "server") "None" ≠ server then .rollback
    else .run (deleteRoot id server) fun _ => .run (deleteOwned id server) fun _ => .commit

/-- Phase 1 of `collect_transport`. -/
def markRoots (server cutoff : PyStr) (limit : ℕ) : Statement Uuid Payload where
  condition _ _ p := (markGc server cutoff).guard p
  write p := some (some ((markGc server cutoff).run p))
  skipLocked := true
  limit := some limit

/-- The root selection of phase 2. -/
def selectDrainable (server cutoff : PyStr) : Statement Uuid Payload where
  condition _ _ p := drainable server cutoff p
  write _ := none
  skipLocked := true
  limit := some 1

/-- The chunk deletion of phase 2. -/
def drainChunks (id : Uuid) (server : PyStr) (limit : ℕ) : Statement Uuid Payload where
  condition _ _ p := ownedChunk server id p
  write _ := some none
  skipLocked := true
  limit := some limit

/-- The root deletion of phase 2. -/
def removeRoot (id : Uuid) (server : PyStr) : Statement Uuid Payload where
  condition snapshot k _ := k = id && !snapshot.any fun _ p => ownedChunk server id p
  write _ := some none

/-- The loop of phase 2 over the selected roots. -/
def drainRoots (server : PyStr) (limit : ℕ) : List Uuid → Program Uuid Payload
  | [] => .commit
  | id :: ids =>
    .run (drainChunks id server limit) fun _ =>
      .run (removeRoot id server) fun _ => drainRoots server limit ids

/-- The anti-join of phase 3. -/
def selectOrphans (server : PyStr) (limit : ℕ) : Statement Uuid Payload where
  condition snapshot _ p := hasType p "output_chunk" && serverMatch p server &&
    !snapshot.any fun id root => isRootOf id root p
  write _ := none
  skipLocked := true
  limit := some limit

/-- `DELETE … WHERE id = ANY(ids)`. -/
def deleteIds (ids : List Uuid) : Statement Uuid Payload where
  condition _ k _ := k ∈ ids
  write _ := some none

/-- The program of a request. -/
def program : Request → Program Uuid Payload
  | .submit id payload _ => .insert id payload .commit
  | .change ids change skipLocked =>
    .run (updateStatement change.update ids skipLocked) fun _ => .commit
  | .publish publisher names force uuid4 now => publishOutput publisher names force uuid4 now
  | .deleteJob id server => deleteJobAndChunks id server
  | .mark server cutoff limit => .run (markRoots server cutoff limit) fun _ => .commit
  | .drain server cutoff limit => .run (selectDrainable server cutoff) (drainRoots server limit)
  | .orphans server limit =>
    .run (selectOrphans server limit) fun ids =>
      if ids = [] then .commit else .run (deleteIds ids) fun _ => .commit

/-! ## Chunks and roots -/

/-- Every chunk has its root: the command row its `thread` names, on its server. -/
def Rooted (t : PayloadTable) : Prop :=
  ∀ k p, t.get k = some p → hasType p "output_chunk" = true →
    ∃ id root server, t.get id = some root ∧ hasType root "command" = true ∧
      serverMatch root server = true ∧ ownedChunk server id p = true

/-- The parts of a payload that say what a row is and where it belongs. -/
structure SameIdentity (p p' : Payload) : Prop where
  type : arrow p' "type" = arrow p "type"
  server : arrow p' "server" = arrow p "server"
  thread : arrow p' "thread" = arrow p "thread"

section Identity

variable {p p' : Payload} {server server' : PyStr} {id id' : Uuid}

theorem SameIdentity.refl (p : Payload) : SameIdentity p p := ⟨rfl, rfl, rfl⟩

theorem SameIdentity.symm (h : SameIdentity p p') : SameIdentity p' p :=
  ⟨h.type.symm, h.server.symm, h.thread.symm⟩

theorem SameIdentity.trans {p'' : Payload} (h : SameIdentity p p') (h' : SameIdentity p' p'') :
    SameIdentity p p'' :=
  ⟨h'.type.trans h.type, h'.server.trans h.server, h'.thread.trans h.thread⟩

theorem SameIdentity.hasType (h : SameIdentity p p') (k : PyStr) :
    Jobs.hasType p' k = Jobs.hasType p k := by
  rw [Jobs.hasType, Jobs.hasType, arrowText, arrowText, h.type]

theorem SameIdentity.serverMatch (h : SameIdentity p p') (server : PyStr) :
    Jobs.serverMatch p' server = Jobs.serverMatch p server := by
  rw [Jobs.serverMatch, Jobs.serverMatch, arrowText, arrowText, h.server]

theorem SameIdentity.ownedChunk (h : SameIdentity p p') (server : PyStr) (id : Uuid) :
    Jobs.ownedChunk server id p' = Jobs.ownedChunk server id p := by
  rw [Jobs.ownedChunk, Jobs.ownedChunk, h.hasType, h.serverMatch, arrowText, arrowText, h.thread]

theorem serverMatch_unique (h : serverMatch p server = true) (h' : serverMatch p server' = true) :
    server = server' := by
  simp only [serverMatch, isTrueEq, Bool.and_eq_true, decide_eq_true_eq] at h h'
  exact Option.some.inj (h.2.symm.trans h'.2)

/-- A chunk names one root. -/
theorem ownedChunk_unique (h : ownedChunk server id p = true)
    (h' : ownedChunk server' id' p = true) : id = id' ∧ server = server' := by
  simp only [ownedChunk, isTrueEq, Bool.and_eq_true, decide_eq_true_eq, Uuid.lower_text] at h h'
  exact ⟨Uuid.text_injective (Option.some.inj (h.2.symm.trans h'.2)),
    serverMatch_unique h.1.2 h'.1.2⟩

theorem isRootOf_of_ownedChunk {root : Payload} (h : ownedChunk server id p = true)
    (hroot : hasType root "command" = true) : isRootOf id root p = true := by
  simp only [ownedChunk, Bool.and_eq_true, Uuid.lower_text] at h
  rw [isRootOf, h.2, hroot]
  rfl

theorem publishable_parts (h : publishable server p = true) :
    hasType p "command" = true ∧ serverMatch p server = true ∧
      isJsonbTrue (gcFlag p) = false := by
  simp only [publishable, Bool.and_eq_true] at h
  refine ⟨h.1.1, h.1.2, ?_⟩
  rw [Bool.eq_false_iff]
  intro hgc
  have htext : arrowText (state p) "gc" = some "true" := by
    rw [gcFlag] at hgc
    rw [arrowText]
    cases hv : arrow (state p) "gc" with
    | none => rw [hv] at hgc; cases hgc
    | some v =>
      rw [hv] at hgc
      cases v with
      | bool b => cases b <;> first | rfl | cases hgc
      | _ => cases hgc
  rw [isDistinctFrom, htext] at h
  simp at h

end Identity

/-! ## The shared invariant -/

/-- The database of jobs. -/
abbrev JobsDb (τ : Type) := Db τ Uuid Payload

/-- What every session keeps of the rows it has locked: an update leaves what the row is, and an
inserted chunk has a root that the session holds and may publish to. -/
structure Tidy (own : Uuid → Option (Holding Payload)) : Prop where
  updates : ∀ {k : Uuid} {p p₀ : Payload}, own k = some ⟨some (some p), some p₀⟩ →
    SameIdentity p₀ p
  inserts : ∀ {k : Uuid} {p : Payload}, own k = some ⟨some (some p), none⟩ →
    hasType p "output_chunk" = true →
    ∃ id server root v, own id = some ⟨v, some root⟩ ∧ v ≠ some none ∧
      publishable server root = true ∧ ownedChunk server id p = true

/-- The invariant the sessions share. -/
structure Integrity {τ : Type} [DecidableEq τ] (db : JobsDb τ) : Prop where
  rooted : Rooted db.committed
  tidy : ∀ t, Tidy (db.holding t)

/-- The session deletes only rows that satisfy a condition, and writes nothing else. -/
def Deletes (ok : Uuid → Payload → Prop) (own : Uuid → Option (Holding Payload)) : Prop :=
  ∀ k h, own k = some h →
    h.version = none ∨ h.version = some none ∧ ∃ p, h.base = some p ∧ ok k p

/-- The session deletes nothing. -/
def NoDeletes (own : Uuid → Option (Holding Payload)) : Prop :=
  ∀ k h, own k = some h → h.version ≠ some none

section Integrity

variable {τ : Type} [DecidableEq τ] {db db' : JobsDb τ} {t : τ} {k : Uuid} {p : Payload}

theorem Tidy.of_deletes {ok : Uuid → Payload → Prop} {own : Uuid → Option (Holding Payload)}
    (h : Deletes ok own) : Tidy own := by
  constructor
  · intro k p p₀ hk
    rcases h k _ hk with hnone | ⟨hdel, -⟩
    · cases hnone
    · cases hdel
  · intro k p hk
    rcases h k _ hk with hnone | ⟨hdel, -⟩
    · cases hnone
    · cases hdel

/-- A move keeps the invariant if the committed table stays rooted and the session stays tidy. -/
theorem Integrity.move (hJ : Integrity db) (hm : db.Move t db') (hrooted : Rooted db'.committed)
    (htidy : Tidy (db'.holding t)) : Integrity db' := by
  refine ⟨hrooted, fun u => ?_⟩
  by_cases hu : u = t
  · rw [hu]
    exact htidy
  · have hframe : db'.holding u = db.holding u := funext fun k => hm.holding_eq hu k
    rw [hframe]
    exact hJ.tidy u

theorem integrity_robust : Robust (Integrity (τ := τ)) := by
  constructor
  · intro db t hJ
    refine hJ.move .release hJ.rooted ⟨?_, ?_⟩
    · intro k p p₀ hk
      rw [Db.holding_release] at hk
      cases hk
    · intro k p hk
      rw [Db.holding_release] at hk
      cases hk
  · intro db t k hJ havail
    refine hJ.move (.lock k none havail) hJ.rooted ⟨?_, ?_⟩
    · intro k' p p₀ hk'
      rcases Db.holding_of_holding_lock hk' with hold | ⟨-, hnew⟩
      · exact (hJ.tidy t).updates hold
      · cases hnew
    · intro k' p hk' hchunk
      rcases Db.holding_of_holding_lock hk' with hold | ⟨-, hnew⟩
      · obtain ⟨id, server, root, v, hid, hv, hroot, howned⟩ := (hJ.tidy t).inserts hold hchunk
        obtain ⟨v', hid', rfl | ⟨-, hnone, -⟩⟩ := Db.holding_lock_of_holding none hid
        · exact ⟨id, server, root, v', hid', hv, hroot, howned⟩
        · exact absurd rfl hnone
      · cases hnew

/-- A row the session sees is still what the committed row below it is. -/
theorem Integrity.sameIdentity (hJ : Integrity db) {p₀ : Payload} (hbase : db.committed.get k = some p₀)
    (hview : (db.view t).get k = some p) : SameIdentity p₀ p := by
  cases hk : db.holding t k with
  | none =>
    rw [Db.get_view_of_not_holding hk, hbase] at hview
    obtain rfl := Option.some.inj hview
    exact .refl _
  | some h =>
    obtain ⟨v, b⟩ := h
    obtain rfl : b = some p₀ := (Db.holding_base hk).trans hbase
    rw [Db.get_view_of_holding hk, Holding.current] at hview
    cases v with
    | none =>
      obtain rfl := Option.some.inj hview
      exact .refl _
    | some v =>
      obtain rfl : v = some p := hview
      exact (hJ.tidy t).updates hk

/-- A root of the session's own inserts stays held by whatever it writes but a deletion. -/
theorem Integrity.write (hJ : Integrity db) (havail : db.available t k = true) {q : Payload}
    (hupdate : ∀ p₀, db.committed.get k = some p₀ → SameIdentity p₀ q)
    (hinsert : db.committed.get k = none → hasType q "output_chunk" = true →
      ∃ id server root v, db.holding t id = some ⟨v, some root⟩ ∧ v ≠ some none ∧
        publishable server root = true ∧ ownedChunk server id q = true) :
    Integrity (db.lock t k (some (some q))) := by
  have hheld : ∀ {id : Uuid} {root : Payload} {v : Option (Option Payload)},
      db.holding t id = some ⟨v, some root⟩ → v ≠ some none →
      ∃ v', (db.lock t k (some (some q))).holding t id = some ⟨v', some root⟩ ∧ v' ≠ some none := by
    intro id root v hid hv
    obtain ⟨v', hid', rfl | ⟨rfl, -, -⟩⟩ := Db.holding_lock_of_holding (some (some q)) hid
    · exact ⟨v', hid', hv⟩
    · exact ⟨_, hid', by simp⟩
  refine hJ.move (.lock k _ havail) hJ.rooted ⟨?_, ?_⟩
  · intro k' p p₀ hk'
    rcases Db.holding_of_holding_lock hk' with hold | ⟨rfl, hnew⟩
    · exact (hJ.tidy t).updates hold
    · obtain ⟨hp, hbase⟩ := Holding.mk.inj hnew
      obtain rfl := Option.some.inj (Option.some.inj hp)
      exact hupdate p₀ hbase.symm
  · intro k' p hk' hchunk
    rcases Db.holding_of_holding_lock hk' with hold | ⟨rfl, hnew⟩
    · obtain ⟨id, server, root, v, hid, hv, hroot, howned⟩ := (hJ.tidy t).inserts hold hchunk
      obtain ⟨v', hid', hv'⟩ := hheld hid hv
      exact ⟨id, server, root, v', hid', hv', hroot, howned⟩
    · obtain ⟨hp, hbase⟩ := Holding.mk.inj hnew
      obtain rfl := Option.some.inj (Option.some.inj hp)
      obtain ⟨id, server, root, v, hid, hv, hroot, howned⟩ := hinsert hbase.symm hchunk
      obtain ⟨v', hid', hv'⟩ := hheld hid hv
      exact ⟨id, server, root, v', hid', hv', hroot, howned⟩

/-- Updating a row the session sees. -/
theorem Integrity.update (hJ : Integrity db) (havail : db.available t k = true)
    (hrow : (db.view t).get k = some p) {q : Payload} (hq : SameIdentity p q) :
    Integrity (db.lock t k (some (some q))) := by
  refine hJ.write havail (fun p₀ hbase => (hJ.sameIdentity hbase hrow).trans hq) ?_
  intro hbase hchunk
  rw [hq.hasType] at hchunk
  -- with no committed row below, the row is one the session inserted itself
  cases hk : db.holding t k with
  | none =>
    rw [Db.get_view_of_not_holding hk, hbase] at hrow
    cases hrow
  | some h =>
    obtain ⟨v, b⟩ := h
    obtain rfl : b = none := (Db.holding_base hk).trans hbase
    rw [Db.get_view_of_holding hk, Holding.current] at hrow
    cases v with
    | none => cases hrow
    | some v =>
      obtain rfl : v = some p := hrow
      obtain ⟨id, server, root, v, hid, hv, hroot, howned⟩ := (hJ.tidy t).inserts hk hchunk
      exact ⟨id, server, root, v, hid, hv, hroot, (hq.ownedChunk server id).trans howned⟩

theorem Deletes.lock {ok : Uuid → Payload → Prop} (h : Deletes ok (db.holding t)) (k : Uuid) :
    Deletes ok ((db.lock t k none).holding t) := by
  intro k' h' hk'
  rcases Db.holding_of_holding_lock hk' with hold | ⟨-, rfl⟩
  · exact h k' h' hold
  · exact Or.inl rfl

/-- Deleting a row the session sees: it is the committed one. -/
theorem Deletes.delete {ok : Uuid → Payload → Prop} (h : Deletes ok (db.holding t))
    (hrow : (db.view t).get k = some p) (hok : ok k p) :
    Deletes ok ((db.lock t k (some none)).holding t) := by
  have hbase : db.committed.get k = some p := by
    cases hk : db.holding t k with
    | none => exact (Db.get_view_of_not_holding hk).symm.trans hrow
    | some held =>
      rw [Db.get_view_of_holding hk, Holding.current] at hrow
      rcases h k held hk with hnone | ⟨hdel, -⟩
      · rw [hnone] at hrow
        exact (Db.holding_base hk).symm.trans hrow
      · rw [hdel] at hrow
        cases hrow
  intro k' h' hk'
  rcases Db.holding_of_holding_lock hk' with hold | ⟨rfl, rfl⟩
  · exact h k' h' hold
  · exact Or.inr ⟨rfl, p, hbase, hok⟩

theorem Integrity.deletes (hJ : Integrity db) {write : Option (Option Payload)}
    (havail : db.available t k = true) {ok : Uuid → Payload → Prop}
    (h : Deletes ok ((db.lock t k write).holding t)) : Integrity (db.lock t k write) :=
  hJ.move (.lock k write havail) hJ.rooted (.of_deletes h)

theorem NoDeletes.lock (h : NoDeletes (db.holding t)) {write : Option (Option Payload)}
    (hwrite : write ≠ some none) (k : Uuid) : NoDeletes ((db.lock t k write).holding t) := by
  intro k' h' hk'
  rcases Db.holding_of_holding_lock hk' with hold | ⟨-, rfl⟩
  · exact h k' h' hold
  · exact hwrite

theorem noDeletes_of_unwritten (h : db.Unwritten t) : NoDeletes (db.holding t) := by
  intro k held hk
  rw [h k held hk]
  exact fun h => Option.some_ne_none _ h.symm

end Integrity

/-! ## Commits -/

/-- A session that has deleted a root has deleted its chunks. -/
def Settled {τ : Type} [DecidableEq τ] (db : JobsDb τ) (t : τ) : Prop :=
  ∀ id root server, db.committed.get id = some root → hasType root "command" = true →
    serverMatch root server = true → (db.view t).get id = none →
    ∀ k p, db.committed.get k = some p → ownedChunk server id p = true → (db.view t).get k = none

/-- A root marked for collection gains no chunk. -/
def GcClosed (t t' : PayloadTable) : Prop :=
  ∀ id root, t.get id = some root → isJsonbTrue (gcFlag root) = true →
    ∀ k p server, t'.get k = some p → ownedChunk server id p = true →
      ∃ p₀, t.get k = some p₀ ∧ ownedChunk server id p₀ = true

/-- Only terminal roots and their chunks go. -/
def Spares (t t' : PayloadTable) : Prop :=
  ∀ k p, t.get k = some p → t'.get k = none →
    (hasType p "command" = true → isTrueIn (status p) terminalStatuses = true) ∧
    (∀ id server, ownedChunk server id p = true →
      ∃ root, t.get id = some root ∧ isTrueIn (status root) terminalStatuses = true)

/-- What a commit does to the table, beyond keeping chunks rooted. -/
def Guarantee (r : Request) (t t' : PayloadTable) : Prop :=
  GcClosed t t' ∧
    match r with
    | .mark _ _ _ => Spares t t'
    | .drain _ _ _ => Spares t t'
    | .orphans _ _ => ∀ k, t'.get k = t.get k
    | _ => True

section Commit

variable {τ : Type} [DecidableEq τ] {db : JobsDb τ} {t : τ}

/-- A committed chunk the session still sees has its root in the session's view. -/
theorem Integrity.rooted_view (hJ : Integrity db) (hsettled : Settled db t) {k : Uuid}
    {p p₀ : Payload} (hbase : db.committed.get k = some p₀) (hview : (db.view t).get k = some p)
    (hchunk : hasType p "output_chunk" = true) :
    ∃ id root server, (db.view t).get id = some root ∧ hasType root "command" = true ∧
      serverMatch root server = true ∧ ownedChunk server id p = true := by
  have hsame := hJ.sameIdentity hbase hview
  obtain ⟨id, root, server, hroot, hcommand, hserver, howned⟩ :=
    hJ.rooted k p₀ hbase ((hsame.hasType _).symm.trans hchunk)
  cases hid : (db.view t).get id with
  | none =>
    have hgone := hsettled id root server hroot hcommand hserver hid k p₀ hbase howned
    rw [hview] at hgone
    cases hgone
  | some root' =>
    have hkept := hJ.sameIdentity hroot hid
    exact ⟨id, root', server, hid, (hkept.hasType _).trans hcommand,
      (hkept.serverMatch _).trans hserver, (hsame.ownedChunk _ _).trans howned⟩

/-- A chunk the session inserted has its root in the session's view. -/
theorem Integrity.rooted_insert (hJ : Integrity db) {k : Uuid} {p : Payload}
    (hheld : db.holding t k = some ⟨some (some p), none⟩)
    (hchunk : hasType p "output_chunk" = true) :
    ∃ id root server, (db.view t).get id = some root ∧ hasType root "command" = true ∧
      serverMatch root server = true ∧ ownedChunk server id p = true := by
  obtain ⟨id, server, root, v, hid, hv, hpublishable, howned⟩ := (hJ.tidy t).inserts hheld hchunk
  obtain ⟨hcommand, hserver, -⟩ := publishable_parts hpublishable
  have hroot : db.committed.get id = some root := (Db.holding_base hid).symm
  cases hview : (db.view t).get id with
  | none =>
    rw [Db.holding_of_get_view_eq_none hview hroot] at hid
    obtain ⟨rfl, -⟩ := Holding.mk.inj (Option.some.inj hid)
    exact absurd rfl hv
  | some root' =>
    have hkept := hJ.sameIdentity hroot hview
    exact ⟨id, root', server, hview, (hkept.hasType _).trans hcommand,
      (hkept.serverMatch _).trans hserver, howned⟩

/-- A row of the view is over a committed row, or the session inserted it. -/
theorem base_or_inserted {k : Uuid} {p : Payload} (hview : (db.view t).get k = some p) :
    (∃ p₀, db.committed.get k = some p₀) ∨ db.holding t k = some ⟨some (some p), none⟩ := by
  cases hbase : db.committed.get k with
  | some p₀ => exact Or.inl ⟨p₀, rfl⟩
  | none =>
    cases hk : db.holding t k with
    | none =>
      rw [Db.get_view_of_not_holding hk, hbase] at hview
      cases hview
    | some h =>
      obtain ⟨v, b⟩ := h
      obtain rfl : b = none := (Db.holding_base hk).trans hbase
      rw [Db.get_view_of_holding hk, Holding.current] at hview
      cases v with
      | none => cases hview
      | some v => exact Or.inr (by rw [show v = some p from hview])

theorem Integrity.commit (hJ : Integrity db) (hsettled : Settled db t) : Integrity (db.commit t) := by
  have hunheld : ∀ k, (db.commit t).holding t k = none := fun _ => Db.holding_commit
  refine hJ.move .commit ?_ ⟨?_, ?_⟩
  · intro k p hview hchunk
    rcases base_or_inserted hview with ⟨p₀, hbase⟩ | hheld
    · exact hJ.rooted_view hsettled hbase hview hchunk
    · exact hJ.rooted_insert hheld hchunk
  · intro k p p₀ hk
    rw [hunheld] at hk
    cases hk
  · intro k p hk
    rw [hunheld] at hk
    cases hk

/-- No commit adds a chunk to a marked root: an inserted chunk's root is held and not marked. -/
theorem Integrity.gcClosed (hJ : Integrity db) : GcClosed db.committed (db.view t) := by
  intro id root hroot hgc k p server hview howned
  rcases base_or_inserted hview with ⟨p₀, hbase⟩ | hheld
  · exact ⟨p₀, hbase, ((hJ.sameIdentity hbase hview).ownedChunk _ _).symm.trans howned⟩
  · obtain ⟨id', server', root', v, hid', -, hpublishable, howned'⟩ :=
      (hJ.tidy t).inserts hheld (ownedChunk_type howned)
    obtain ⟨rfl, -⟩ := ownedChunk_unique howned howned'
    obtain rfl := Option.some.inj (hroot.symm.trans (Db.holding_base hid').symm)
    rw [(publishable_parts hpublishable).2.2] at hgc
    cases hgc

theorem settled_of_noDeletes (h : NoDeletes (db.holding t)) : Settled db t := by
  intro id root server hroot _ _ hview
  exact absurd rfl (h id _ (Db.holding_of_get_view_eq_none hview hroot))

theorem spares_of_noDeletes (h : NoDeletes (db.holding t)) : Spares db.committed (db.view t) := by
  intro k p hbase hview
  exact absurd rfl (h k _ (Db.holding_of_get_view_eq_none hview hbase))

end Commit

/-! ## Clearing a root -/

section Cleared

variable {τ : Type} [DecidableEq τ] {db : JobsDb τ} {t : τ} {server : PyStr} {id : Uuid}

/-- Every committed chunk of the root is deleted by the session or still to be visited. -/
def Cleared (db : JobsDb τ) (t : τ) (server : PyStr) (id : Uuid) (todo : List Uuid) : Prop :=
  ∀ k p, db.committed.get k = some p → ownedChunk server id p = true →
    k ∈ todo ∨ ∃ b, db.holding t k = some ⟨some none, b⟩

/-- **The root lock**: while a session holds a root, no other session adds a chunk to it. -/
theorem stable_cleared {P : (Uuid → Option (Holding Payload)) → Prop}
    (hP : ∀ own, P own → ∃ h, own id = some h) (todo : List Uuid) :
    Stable Integrity t fun db : JobsDb τ =>
      P (db.holding t) → Cleared db t server id todo := by
  intro u db db' hne hJ _ hm h hheld k p hk howned
  have hframe : db'.holding t = db.holding t := funext fun k => hm.holding_eq hne.symm k
  rw [hframe] at hheld ⊢
  rcases hm.committed_get k with hsame | ⟨held, hother, hcurrent⟩
  · exact h hheld k p (hsame.symm.trans hk) howned
  · have hview : (db.view u).get k = some p := by
      rw [Db.get_view_of_holding hother, ← hcurrent, hk]
    rcases base_or_inserted hview with ⟨p₀, hbase⟩ | hinserted
    · refine h hheld k p₀ hbase ?_
      exact ((hJ.sameIdentity hbase hview).ownedChunk _ _).symm.trans howned
    · -- the inserting session would hold the root as well
      obtain ⟨id', server', root, v, hid', -, -, howned'⟩ :=
        (hJ.tidy u).inserts hinserted (ownedChunk_type howned)
      obtain ⟨rfl, -⟩ := ownedChunk_unique howned howned'
      obtain ⟨h', hh'⟩ := hP _ hheld
      exact absurd (Db.holding_unique hid' hh') hne

/-- A lock keeps what is cleared, if it does not overwrite a deletion. -/
theorem Cleared.lock {todo : List Uuid} (h : Cleared db t server id todo) (k : Uuid)
    {write : Option (Option Payload)} (hwrite : write = none ∨ write = some none) :
    Cleared (db.lock t k write) t server id todo := by
  intro k' p hk' howned
  rcases h k' p hk' howned with hmem | ⟨b, hb⟩
  · exact Or.inl hmem
  · obtain ⟨v, hv, hkept | ⟨hnew, hne, -⟩⟩ := Db.holding_lock_of_holding write hb
    · rw [hkept] at hv
      exact Or.inr ⟨b, hv⟩
    · rw [hnew, hwrite.resolve_left hne] at hv
      exact Or.inr ⟨b, by rw [← hv, hwrite.resolve_left hne]⟩

/-- A row that is gone, deleted or no chunk of the root need not be visited. -/
theorem Cleared.visited {todo : List Uuid} (h : Cleared db t server id todo) {k : Uuid}
    (hk : ∀ p, db.committed.get k = some p → ownedChunk server id p = true →
      ∃ b, db.holding t k = some ⟨some none, b⟩) :
    Cleared db t server id (todo.filter (· ≠ k)) := by
  intro k' p hk' howned
  by_cases heq : k' = k
  · subst heq
    exact Or.inr (hk p hk' howned)
  · rcases h k' p hk' howned with hmem | hdel
    · exact Or.inl (List.mem_filter.2 ⟨hmem, by simpa using heq⟩)
    · exact Or.inr hdel

/-- At the start of a statement: the chunks not yet deleted are in its snapshot. -/
theorem cleared_start (hJ : Integrity db) {todo : List Uuid}
    (htodo : ∀ k p, (db.view t).get k = some p → ownedChunk server id p = true → k ∈ todo) :
    Cleared db t server id todo := by
  intro k p hk howned
  cases hview : (db.view t).get k with
  | none => exact Or.inr ⟨_, Db.holding_of_get_view_eq_none hview hk⟩
  | some p' =>
    refine Or.inl (htodo k p' hview ?_)
    exact ((hJ.sameIdentity hk hview).ownedChunk _ _).trans howned

end Cleared

/-! ## Outlines of the programs -/

section Updates

variable {τ : Type} [DecidableEq τ] {t : τ}

/-- The chain of an update names none of the parts that say what a row is. -/
def KeepsIdentity (u : Update) : Prop :=
  ∀ p, (((u.chain p).map Prod.fst).all fun path =>
    path.head? ≠ some "type" && path.head? ≠ some "server" && path.head? ≠ some "thread") = true

theorem KeepsIdentity.run {u : Update} (h : KeepsIdentity u) (p : Payload) :
    SameIdentity p (u.run p) := by
  have hall := List.all_eq_true.1 (h p)
  refine ⟨arrow_run ?_, arrow_run ?_, arrow_run ?_⟩ <;>
  · refine List.all_eq_true.2 fun path hpath => ?_
    have hkeeps := hall path hpath
    simp only [Bool.and_eq_true] at hkeeps
    first | exact hkeeps.1.1 | exact hkeeps.1.2 | exact hkeeps.2

theorem Change.keepsIdentity (change : Change) : KeepsIdentity change.update := by
  intro p
  cases change <;> rfl

/-- A statement that updates rows and deletes none. -/
theorem updating {s : Statement Uuid Payload} {u : Update} (hu : KeepsIdentity u)
    (hwrite : ∀ p, s.write p = some (some (u.run p))) :
    ScanRule Integrity t s (fun db => NoDeletes (db.holding t)) (fun _ _ _ db => NoDeletes (db.holding t))
      (fun _ db => NoDeletes (db.holding t)) := by
  refine .constant stable_of_holding ?_ ?_
  · intro snapshot db k p hJ hA havail hrow _
    rw [hwrite]
    exact ⟨hJ.update havail hrow (hu.run p), hA.lock (by simp) k⟩
  · exact fun db k hA => hA.lock (by simp) k

/-- The commit of a program that deletes nothing. -/
theorem commit_noDeletes {r : Request}
    (hr : ∀ t t', GcClosed t t' → Spares t t' → Guarantee r t t') :
    Outline Integrity (Guarantee r) t (fun db => NoDeletes (db.holding t)) .commit := by
  refine .commit stable_of_holding fun db hJ hA => ?_
  exact ⟨hJ.commit (settled_of_noDeletes hA), hr _ _ hJ.gcClosed (spares_of_noDeletes hA)⟩

/-- Nothing held, nothing deleted. -/
theorem noDeletes_of_unheld {db : JobsDb τ} (h : db.Unheld t) : NoDeletes (db.holding t) :=
  noDeletes_of_unwritten h.unwritten

theorem stable_unheld : Stable Integrity t fun db : JobsDb τ => db.Unheld t :=
  stable_of_holding (P := fun own => ∀ k, own k = none)

theorem markGc_keepsIdentity (server cutoff : PyStr) : KeepsIdentity (markGc server cutoff) :=
  fun _ => rfl

theorem outputUpdate_keepsIdentity (server now : PyStr) (stdout stderr : OutputWindow) :
    KeepsIdentity (outputUpdate server now stdout stderr) :=
  fun _ => rfl

end Updates

section Publication

variable {τ : Type} [DecidableEq τ] {t : τ}

/-- The session holds the root it publishes to. -/
def Retains (id : Uuid) (server : PyStr) (own : Uuid → Option (Holding Payload)) : Prop :=
  NoDeletes own ∧ ∃ v root, own id = some ⟨v, some root⟩ ∧ publishable server root = true

theorem chunkPayload_owned {chunk : OutputChunk} {id : Uuid} {server : PyStr}
    (hthread : chunk.thread = id) (hserver : chunk.server = server) :
    ownedChunk server id (some (chunkPayload chunk)) = true := by
  subst hthread hserver
  have h₁ : (PyStr.ofString "v" : PyStr) ≠ PyStr.ofString "type" := by decide
  have h₂ : (PyStr.ofString "v" : PyStr) ≠ PyStr.ofString "server" := by decide
  have h₃ : (PyStr.ofString "v" : PyStr) ≠ PyStr.ofString "thread" := by decide
  have h₄ : (PyStr.ofString "type" : PyStr) ≠ PyStr.ofString "server" := by decide
  have h₅ : (PyStr.ofString "type" : PyStr) ≠ PyStr.ofString "thread" := by decide
  have h₆ : (PyStr.ofString "server" : PyStr) ≠ PyStr.ofString "thread" := by decide
  simp [ownedChunk, hasType, serverMatch, isTrueEq, arrowText, arrow, chunkPayload, buildObject,
    memberOf, h₁, h₂, h₃, h₄, h₅, h₆, Json.text?, jsonbTypeof]

/-- One insert of a publication. -/
theorem retains_insert {db : JobsDb τ} {id k : Uuid} {server : PyStr} {chunk : OutputChunk}
    (hJ : Integrity db) (hA : Retains id server (db.holding t)) (hthread : chunk.thread = id)
    (hserver : chunk.server = server) (havail : db.available t k = true)
    (hfree : (db.view t).get k = none) :
    Integrity (db.lock t k (some (some (some (chunkPayload chunk))))) ∧
      Retains id server
        ((db.lock t k (some (some (some (chunkPayload chunk))))).holding t) := by
  obtain ⟨hdeletes, v, root, hroot, hpublishable⟩ := hA
  constructor
  · refine hJ.write havail ?_ fun _ _ => ?_
    · intro p₀ hbase
      exact absurd rfl (hdeletes k _ (Db.holding_of_get_view_eq_none hfree hbase))
    · exact ⟨id, server, root, v, hroot, hdeletes id _ hroot, hpublishable,
        chunkPayload_owned hthread hserver⟩
  · refine ⟨hdeletes.lock (by simp) k, ?_⟩
    obtain ⟨v', hroot', -⟩ := Db.holding_lock_of_holding _ hroot
    exact ⟨v', root, hroot', hpublishable⟩

theorem insertRows_outline {G : PayloadTable → PayloadTable → Prop} {id : Uuid} {server : PyStr}
    {next : Program Uuid Payload}
    (hnext : Outline Integrity G t (fun db => Retains id server (db.holding t)) next)
    {rows : List (Uuid × OutputChunk)}
    (hrows : ∀ c ∈ rows, c.2.thread = id ∧ c.2.server = server) :
    Outline Integrity G t (fun db => Retains id server (db.holding t)) (insertRows next rows) := by
  induction rows with
  | nil => exact hnext
  | cons row rows ih =>
    obtain ⟨hthread, hserver⟩ := hrows row List.mem_cons_self
    refine .insert stable_of_holding (fun db hJ hA havail hfree => ?_)
      (ih fun c hc => hrows c (List.mem_cons_of_mem _ hc))
    exact retains_insert hJ hA hthread hserver havail hfree

end Publication

section Deletion

variable {τ : Type} [DecidableEq τ] {t : τ} {server : PyStr} {id : Uuid} {db : JobsDb τ}

/-- The session has deleted a command row. -/
def Removed (id : Uuid) (own : Uuid → Option (Holding Payload)) : Prop :=
  ∃ root, own id = some ⟨some none, some root⟩ ∧ hasType root "command" = true

theorem Removed.held {own : Uuid → Option (Holding Payload)} (h : Removed id own) :
    ∃ held, own id = some held := by
  obtain ⟨root, hroot, -⟩ := h
  exact ⟨_, hroot⟩

/-- A command row that is deleted after a lock was so before, or is the row just deleted. -/
theorem removed_of_lock {k : Uuid} {write : Option (Option Payload)}
    (h : Removed id ((db.lock t k write).holding t)) :
    Removed id (db.holding t) ∨ id = k ∧ write = some none ∧
      ∃ root, db.committed.get k = some root ∧ hasType root "command" = true := by
  obtain ⟨root, hroot, hcommand⟩ := h
  rcases Db.holding_of_holding_lock hroot with hold | ⟨hk, hnew⟩
  · exact Or.inl ⟨root, hold, hcommand⟩
  · obtain ⟨hwrite, hbase⟩ := Holding.mk.inj hnew
    exact Or.inr ⟨hk, hwrite.symm, root, hbase.symm, hcommand⟩

theorem not_command_of_chunk {p : Payload} (hchunk : hasType p "output_chunk" = true) :
    hasType p "command" = false := by
  rw [hasType, isTrueEq_iff] at hchunk
  rw [hasType, hchunk]
  decide

/-- What `delete_job_and_chunks` deletes. -/
def deletesJob (id : Uuid) (server : PyStr) (k : Uuid) (p : Payload) : Prop :=
  hasType p "output_chunk" = true ∨ k = id ∧ serverMatch p server = true

theorem deleteRoot_rule :
    ScanRule Integrity t (deleteRoot id server)
      (fun db => Deletes (deletesJob id server) (db.holding t))
      (fun _ _ _ db => Deletes (deletesJob id server) (db.holding t))
      (fun _ db => Deletes (deletesJob id server) (db.holding t)) := by
  refine .constant stable_of_holding ?_ fun db k hA => hA.lock k
  intro snapshot db k p hJ hA havail hrow hcond
  simp only [deleteRoot, Bool.and_eq_true, decide_eq_true_eq] at hcond
  have hdeletes := hA.delete hrow (Or.inr ⟨hcond.1.1, hcond.2⟩)
  exact ⟨hJ.deletes havail hdeletes, hdeletes⟩

/-- The chunk deletion clears a root that the session has deleted before. -/
theorem deleteOwned_rule :
    ScanRule Integrity t (deleteOwned id server)
      (fun db => Deletes (deletesJob id server) (db.holding t))
      (fun _ todo _ db => Deletes (deletesJob id server) (db.holding t) ∧
        (Removed id (db.holding t) → Cleared db t server id todo))
      (fun _ db => Deletes (deletesJob id server) (db.holding t) ∧
        (Removed id (db.holding t) → Cleared db t server id [])) := by
  refine ⟨fun _ todo _ => stable_of_holding.and (stable_cleared (fun _ h => h.held) todo),
    ?_, ?_, ?_, ?_, ?_, ?_⟩
  · intro db hJ hA
    refine ⟨hA, fun _ => cleared_start hJ fun k p hview howned => ?_⟩
    exact Statement.mem_candidates.2 ⟨p, hview, howned⟩
  · intro snapshot todo found db k hJ h hgone
    refine ⟨h.1, fun hremoved => (h.2 hremoved).visited fun p hbase _ => ?_⟩
    exact ⟨_, Db.holding_of_get_view_eq_none hgone hbase⟩
  · intro snapshot todo found db k p hJ h _ havail hrow hcond
    have hdeletes := h.1.delete hrow (Or.inl (ownedChunk_type hcond))
    refine ⟨hJ.deletes havail hdeletes, hdeletes, fun hremoved => ?_⟩
    rcases removed_of_lock hremoved with hbefore | ⟨-, -, root, hroot, hcommand⟩
    · refine ((h.2 hbefore).lock k (Or.inr rfl)).visited fun p' _ _ => ?_
      rw [Db.holding_lock, Function.update_self]
      exact ⟨_, rfl⟩
    · -- the row just deleted is a chunk
      have hchunk := (hJ.sameIdentity hroot hrow).hasType "output_chunk"
      rw [ownedChunk_type hcond] at hchunk
      rw [not_command_of_chunk hchunk.symm] at hcommand
      cases hcommand
  · intro snapshot todo found db k p hJ h _ _ hrow hcond
    refine ⟨h.1.lock k, fun hremoved => ?_⟩
    rcases removed_of_lock hremoved with hbefore | ⟨-, hwrite, -⟩
    · refine ((h.2 hbefore).lock k (Or.inl rfl)).visited fun p₀ hbase howned => ?_
      have hsame := (hJ.sameIdentity hbase hrow).ownedChunk server id
      rw [show ownedChunk server id p = false from hcond, howned] at hsame
      cases hsame
    · cases hwrite
  · exact fun hskip => absurd hskip Bool.false_ne_true
  · intro snapshot todo found db _ h hdone
    rcases hdone with rfl | hfull
    · exact h
    · cases hfull

theorem settled_of_deletesJob (h : Deletes (deletesJob id server) (db.holding t))
    (hcleared : Removed id (db.holding t) → Cleared db t server id []) : Settled db t := by
  intro id' root server' hroot hcommand hserver hview k p hbase howned
  have hheld := Db.holding_of_get_view_eq_none hview hroot
  rcases h id' _ hheld with hnone | ⟨-, root', heq, hchunk | ⟨rfl, hserver'⟩⟩
  · cases hnone
  · obtain rfl := Option.some.inj heq
    rw [not_command_of_chunk hchunk] at hcommand
    cases hcommand
  · obtain rfl := Option.some.inj heq
    obtain rfl := serverMatch_unique hserver hserver'
    rcases hcleared ⟨root, hheld, hcommand⟩ k p hbase howned with hnil | ⟨b, hb⟩
    · cases hnil
    · rw [Db.get_view_of_holding hb]
      rfl

theorem deletes_of_unheld {ok : Uuid → Payload → Prop} (h : db.Unheld t) :
    Deletes ok (db.holding t) :=
  fun k held hk => Or.inl (h.unwritten k held hk)

theorem deleteJob_outline :
    Outline Integrity (Guarantee (.deleteJob id server)) t (fun db => db.Unheld t)
      (deleteJobAndChunks id server) := by
  refine .read stable_unheld fun snapshot => ?_
  split_ifs
  · exact .rollback stable_unheld
  · refine Outline.weaken (A := fun db => Deletes (deletesJob id server) (db.holding t)) ?_
      stable_unheld fun _ => deletes_of_unheld
    refine .run stable_of_holding deleteRoot_rule fun _ => ?_
    refine .run stable_of_holding deleteOwned_rule fun _ => ?_
    refine .commit (stable_of_holding.and (stable_cleared (fun _ h => h.held) [])) ?_
    exact fun db hJ h => ⟨hJ.commit (settled_of_deletesJob h.1 h.2), hJ.gcClosed, trivial⟩

end Deletion

section Drain

variable {τ : Type} [DecidableEq τ] {t : τ} {server cutoff : PyStr} {roots : List Uuid}
  {id : Uuid} {db : JobsDb τ}

/-- What phase 2 deletes. -/
def drains (server : PyStr) (roots : List Uuid) (k : Uuid) (p : Payload) : Prop :=
  (∃ id ∈ roots, ownedChunk server id p = true) ∨ k ∈ roots

/-- The invariant of phase 2: the selected roots are held, and one that is deleted is cleared. -/
structure Draining (server cutoff : PyStr) (roots : List Uuid) (t : τ) (db : JobsDb τ) : Prop where
  deletes : Deletes (drains server roots) (db.holding t)
  selected : ∀ id ∈ roots, ∃ v root, db.holding t id = some ⟨v, some root⟩ ∧
    drainable server cutoff root = true
  cleared : ∀ id ∈ roots, Removed id (db.holding t) → Cleared db t server id []

theorem Draining.stable :
    Stable Integrity t fun db : JobsDb τ => Draining server cutoff roots t db := by
  intro u db db' hne hJ hJ' hm h
  have hframe : db'.holding t = db.holding t := funext fun k => hm.holding_eq hne.symm k
  refine ⟨?_, ?_, fun id hid => ?_⟩
  · rw [hframe]
    exact h.deletes
  · rw [hframe]
    exact h.selected
  · exact stable_cleared (fun _ h => h.held) [] u db db' hne hJ hJ' hm (h.cleared id hid)

/-- A visit of phase 2: a root it deletes is cleared. -/
theorem Draining.lock (h : Draining server cutoff roots t db) {k : Uuid}
    {write : Option (Option Payload)} (hwrite : write = none ∨ write = some none)
    (hdeletes : Deletes (drains server roots) ((db.lock t k write).holding t))
    (hroot : ∀ root, db.committed.get k = some root → hasType root "command" = true →
      write = some none → Cleared db t server k []) :
    Draining server cutoff roots t (db.lock t k write) := by
  refine ⟨hdeletes, fun id hid => ?_, fun id hid hremoved => ?_⟩
  · obtain ⟨v, root, hheld, hdrain⟩ := h.selected id hid
    obtain ⟨v', hheld', -⟩ := Db.holding_lock_of_holding write hheld
    exact ⟨v', root, hheld', hdrain⟩
  · rcases removed_of_lock hremoved with hbefore | ⟨rfl, hdel, root, hbase, hcommand⟩
    · exact (h.cleared id hid hbefore).lock k hwrite
    · exact (hroot root hbase hcommand hdel).lock id hwrite

theorem Draining.hold (h : Draining server cutoff roots t db) (k : Uuid) :
    Draining server cutoff roots t (db.lock t k none) := by
  refine h.lock (Or.inl rfl) (h.deletes.lock k) ?_
  intro _ _ _ hwrite
  cases hwrite

theorem drainChunks_rule (limit : ℕ) (hid : id ∈ roots) :
    ScanRule Integrity t (drainChunks id server limit)
      (fun db => Draining server cutoff roots t db)
      (fun _ _ _ db => Draining server cutoff roots t db)
      (fun _ db => Draining server cutoff roots t db) := by
  refine .constant Draining.stable ?_ fun db k hA => hA.hold k
  intro snapshot db k p hJ hA havail hrow hcond
  have hdeletes := hA.deletes.delete hrow (Or.inl ⟨id, hid, hcond⟩)
  refine ⟨hJ.deletes havail hdeletes, hA.lock (Or.inr rfl) hdeletes ?_⟩
  intro root hbase hcommand _
  have hchunk := (hJ.sameIdentity hbase hrow).hasType "output_chunk"
  rw [ownedChunk_type hcond] at hchunk
  rw [not_command_of_chunk hchunk.symm] at hcommand
  cases hcommand

/-- `NOT EXISTS` in the snapshot, with the root held: it is cleared, and stays so. -/
theorem removeRoot_rule (hid : id ∈ roots) :
    ScanRule Integrity t (removeRoot id server)
      (fun db => Draining server cutoff roots t db)
      (fun _ todo _ db => Draining server cutoff roots t db ∧
        (todo ≠ [] ∧ (∃ h, db.holding t id = some h) → Cleared db t server id []))
      (fun _ db => Draining server cutoff roots t db) := by
  have hfilter : ∀ {todo : List Uuid} {k : Uuid}, todo.filter (· ≠ k) ≠ [] → todo ≠ [] := by
    rintro todo k hne rfl
    exact hne rfl
  have hheld : ∀ {db : JobsDb τ}, Draining server cutoff roots t db →
      ∃ h, db.holding t id = some h := by
    intro db h
    obtain ⟨v, root, hroot, -⟩ := h.selected id hid
    exact ⟨_, hroot⟩
  refine ⟨fun _ todo _ => Draining.stable.and
    (stable_cleared (P := fun own => todo ≠ [] ∧ ∃ h, own id = some h) (fun _ h => h.2) []),
    ?_, ?_, ?_, ?_, ?_, ?_⟩
  · intro db hJ hA
    refine ⟨hA, fun htodo => cleared_start hJ fun k p hview howned => ?_⟩
    obtain ⟨k', hk'⟩ := List.exists_mem_of_ne_nil _ htodo.1
    obtain ⟨p', -, hcond⟩ := Statement.mem_candidates.1 hk'
    have hany : (db.view t).any (fun _ p => ownedChunk server id p) = true :=
      Table.any_eq_true.2 ⟨k, p, hview, howned⟩
    simp [removeRoot, hany] at hcond
  · intro snapshot todo found db k _ h _
    exact ⟨h.1, fun htodo => h.2 ⟨hfilter htodo.1, htodo.2⟩⟩
  · intro snapshot todo found db k p hJ h hk havail hrow hcond
    simp only [removeRoot, Bool.and_eq_true, decide_eq_true_eq] at hcond
    obtain rfl := hcond.1
    have hcleared := h.2 ⟨List.ne_nil_of_mem hk, hheld h.1⟩
    have hdeletes := h.1.deletes.delete hrow (Or.inr hid)
    refine ⟨hJ.deletes havail hdeletes, h.1.lock (Or.inr rfl) hdeletes fun _ _ _ _ => hcleared, ?_⟩
    exact fun _ => hcleared.lock k (Or.inr rfl)
  · intro snapshot todo found db k p _ h hk _ _ _
    refine ⟨h.1.hold k, fun htodo => ?_⟩
    exact (h.2 ⟨List.ne_nil_of_mem hk, hheld h.1⟩).lock k (Or.inl rfl)
  · exact fun hskip => absurd hskip Bool.false_ne_true
  · exact fun _ h _ => h.1

theorem Draining.settled (h : Draining server cutoff roots t db) : Settled db t := by
  intro id root server' hroot hcommand hserver hview k p hbase howned
  have hheld := Db.holding_of_get_view_eq_none hview hroot
  rcases h.deletes id _ hheld with hnone | ⟨-, root', heq, ⟨id', -, hchunk⟩ | hid⟩
  · cases hnone
  · obtain rfl := Option.some.inj heq
    rw [not_command_of_chunk (ownedChunk_type hchunk)] at hcommand
    cases hcommand
  · obtain ⟨v, root', hroot', hdrain⟩ := h.selected id hid
    obtain rfl := Option.some.inj (hroot.symm.trans (Db.holding_base hroot').symm)
    simp only [drainable, collectable, Bool.and_eq_true] at hdrain
    obtain rfl := serverMatch_unique hserver hdrain.1.1.1.2
    rcases h.cleared id hid ⟨root, hheld, hcommand⟩ k p hbase howned with hnil | ⟨b, hb⟩
    · cases hnil
    · rw [Db.get_view_of_holding hb]
      rfl

theorem drainable_terminal {p : Payload} (h : drainable server cutoff p = true) :
    hasType p "command" = true ∧ isTrueIn (status p) terminalStatuses = true := by
  simp only [drainable, collectable, Bool.and_eq_true] at h
  exact ⟨h.1.1.1.1, h.1.1.2⟩

theorem Draining.spares (h : Draining server cutoff roots t db) :
    Spares db.committed (db.view t) := by
  intro k p hbase hview
  have hheld := Db.holding_of_get_view_eq_none hview hbase
  have hroot : ∀ id ∈ roots, ∃ root, db.committed.get id = some root ∧
      hasType root "command" = true ∧ isTrueIn (status root) terminalStatuses = true := by
    intro id hid
    obtain ⟨v, root, hroot, hdrain⟩ := h.selected id hid
    exact ⟨root, (Db.holding_base hroot).symm, drainable_terminal hdrain⟩
  rcases h.deletes k _ hheld with hnone | ⟨-, p', heq, ⟨id, hid, howned⟩ | hk⟩
  · cases hnone
  · obtain rfl := Option.some.inj heq
    refine ⟨fun hcommand => ?_, fun id' server' howned' => ?_⟩
    · rw [not_command_of_chunk (ownedChunk_type howned)] at hcommand
      cases hcommand
    · obtain ⟨rfl, -⟩ := ownedChunk_unique howned howned'
      obtain ⟨root, hroot, -, hterminal⟩ := hroot id hid
      exact ⟨root, hroot, hterminal⟩
  · obtain ⟨root, hbase', hcommand, hterminal⟩ := hroot k hk
    obtain rfl := Option.some.inj (hbase.symm.trans hbase')
    refine ⟨fun _ => hterminal, fun id' server' howned' => ?_⟩
    rw [not_command_of_chunk (ownedChunk_type howned')] at hcommand
    cases hcommand

theorem drainRoots_outline (limit : ℕ) {ids : List Uuid} (hids : ∀ id ∈ ids, id ∈ roots) :
    Outline Integrity (Guarantee (.drain server cutoff limit)) t
      (fun db => Draining server cutoff roots t db) (drainRoots server limit ids) := by
  induction ids with
  | nil =>
    refine .commit Draining.stable fun db hJ hA => ?_
    exact ⟨hJ.commit hA.settled, hJ.gcClosed, hA.spares⟩
  | cons id ids ih =>
    have hid := hids id List.mem_cons_self
    refine .run Draining.stable (drainChunks_rule limit hid) fun _ => ?_
    refine .run Draining.stable (removeRoot_rule hid) fun _ => ?_
    exact ih fun id' hid' => hids id' (List.mem_cons_of_mem _ hid')

theorem drain_outline (limit : ℕ) :
    Outline Integrity (Guarantee (.drain server cutoff limit)) t (fun db => db.Unheld t)
      (program (.drain server cutoff limit)) := by
  refine Outline.weaken (A := fun db => db.Unwritten t) ?_ stable_unheld fun _ h => h.unwritten
  refine .run (stable_of_holding (P := fun own => ∀ k h, own k = some h → h.version = none))
    (.locking (Q := fun _ root => drainable server cutoff root = true) integrity_robust
      (fun _ => rfl) fun _ _ _ h => h) fun found => ?_
  refine Outline.weaken (drainRoots_outline limit fun _ h => h) stable_of_holding ?_
  rintro db ⟨hunwritten, hfound⟩
  refine ⟨fun k h hk => Or.inl (hunwritten k h hk), fun id hid => ?_, fun id hid hremoved => ?_⟩
  · obtain ⟨root, hroot, hdrain⟩ := hfound id hid
    exact ⟨none, root, hroot, hdrain⟩
  · obtain ⟨root, hroot, -⟩ := hremoved
    have hnone := hunwritten id _ hroot
    cases hnone

end Drain

section Programs

variable {τ : Type} [DecidableEq τ] {t : τ}

theorem stable_unwritten : Stable Integrity t fun db : JobsDb τ => db.Unwritten t :=
  stable_of_holding (P := fun own => ∀ k h, own k = some h → h.version = none)

/-- Phase 3 finds nothing: every chunk of its snapshot has its root there. -/
theorem selectOrphans_candidates (server : PyStr) (limit : ℕ) {db : JobsDb τ} (hJ : Integrity db)
    (hunwritten : db.Unwritten t) : (selectOrphans server limit).candidates (db.view t) = [] := by
  refine List.eq_nil_iff_forall_not_mem.2 fun k hk => ?_
  obtain ⟨p, hview, hcond⟩ := Statement.mem_candidates.1 hk
  simp only [selectOrphans, Bool.and_eq_true, Bool.not_eq_true'] at hcond
  rw [hunwritten.get_view] at hview
  obtain ⟨id, root, server', hroot, hcommand, -, howned⟩ := hJ.rooted k p hview hcond.1.1
  have hany : (db.view t).any (fun id root => isRootOf id root p) = true := by
    refine Table.any_eq_true.2 ⟨id, root, ?_, isRootOf_of_ownedChunk howned hcommand⟩
    rw [hunwritten.get_view, hroot]
  rw [hany] at hcond
  cases hcond.2

theorem orphans_outline (server : PyStr) (limit : ℕ) :
    Outline Integrity (Guarantee (.orphans server limit)) t (fun db => db.Unheld t)
      (program (.orphans server limit)) := by
  refine Outline.weaken (A := fun db => db.Unwritten t) ?_ stable_unheld fun _ h => h.unwritten
  refine .run stable_unwritten (.nothing stable_unwritten fun db hJ hA =>
    selectOrphans_candidates server limit hJ hA) fun found => ?_
  by_cases hfound : found = []
  · rw [if_pos hfound]
    refine Outline.weaken (A := fun db => db.Unwritten t) (.commit stable_unwritten ?_) ?_
      fun _ h => h.2
    · intro db hJ hA
      refine ⟨hJ.commit (settled_of_noDeletes (noDeletes_of_unwritten hA)), hJ.gcClosed, ?_⟩
      exact fun k => hA.get_view k
    · exact fun u db db' hne hJ hJ' hm h => ⟨h.1, stable_unwritten u db db' hne hJ hJ' hm h.2⟩
  · refine Outline.weaken (Outline.of_false _ t _) ?_ fun _ h => hfound h.1
    exact fun u db db' hne hJ hJ' hm h => absurd h.1 hfound

theorem publish_outline (publisher : Publisher) (names : List StreamName) (force : Bool)
    (uuid4 : ℕ → Uuid) (now : PyStr) :
    Outline Integrity (Guarantee (.publish publisher names force uuid4 now)) t
      (fun db => db.Unheld t) (publishOutput publisher names force uuid4 now) := by
  rw [publishOutput]
  cases htx : publisher.transaction names force uuid4 with
  | none => exact .rollback stable_unheld
  | some tx =>
    obtain ⟨plans, stdout, stderr⟩ := tx
    refine Outline.weaken (A := fun db => db.Unwritten t) ?_ stable_unheld fun _ h => h.unwritten
    refine .run stable_unwritten
      (.locking (Q := fun k root => k = publisher.job.id ∧
        publishable publisher.server root = true) integrity_robust (fun _ => rfl) ?_) fun found => ?_
    · intro _ k root hcond
      simpa [retainRoot] using hcond
    by_cases hfound : found = []
    · rw [if_pos hfound]
      refine Outline.weaken (commit_noDeletes fun _ _ hgc _ => ⟨hgc, trivial⟩) stable_of_holding ?_
      exact fun _ h => noDeletes_of_unwritten h.1
    · rw [if_neg hfound]
      refine Outline.weaken
        (A := fun db => Retains publisher.job.id publisher.server (db.holding t))
        (insertRows_outline ?_ (Publisher.stamped_of_transaction htx)) stable_of_holding ?_
      · refine Outline.weaken (.run stable_of_holding
          (updating (outputUpdate_keepsIdentity _ _ _ _) fun _ => rfl)
          fun _ => commit_noDeletes fun _ _ hgc _ => ⟨hgc, trivial⟩) stable_of_holding fun _ h => h.1
      · rintro db ⟨hunwritten, hheld⟩
        obtain ⟨k, hk⟩ := List.exists_mem_of_ne_nil _ hfound
        obtain ⟨root, hroot, rfl, hpublishable⟩ := hheld k hk
        exact ⟨noDeletes_of_unwritten hunwritten, none, root, hroot, hpublishable⟩

/-- **Every program keeps the invariant** and its guarantee. -/
theorem program_outline (t : τ) (r : Request) :
    Outline Integrity (Guarantee r) t (fun db => db.Unheld t) (program r) := by
  cases r with
  | submit id payload hchunk =>
    refine .insert stable_unheld (fun db hJ hA havail hfree => ⟨?_, ?_⟩)
      (commit_noDeletes fun _ _ hgc _ => ⟨hgc, trivial⟩)
    · refine hJ.write havail (fun p₀ hbase => ?_) fun _ hchunk' => ?_
      · rw [hA.unwritten.get_view, hbase] at hfree
        cases hfree
      · rw [hchunk] at hchunk'
        cases hchunk'
    · exact (noDeletes_of_unheld hA).lock (by simp) id
  | change ids change skipLocked =>
    refine Outline.weaken (.run stable_of_holding
      (updating change.keepsIdentity fun _ => rfl) fun _ =>
        commit_noDeletes fun _ _ hgc _ => ⟨hgc, trivial⟩) stable_unheld fun _ => noDeletes_of_unheld
  | publish publisher names force uuid4 now =>
    exact publish_outline publisher names force uuid4 now
  | deleteJob id server => exact deleteJob_outline
  | mark server cutoff limit =>
    refine Outline.weaken (.run stable_of_holding
      (updating (markGc_keepsIdentity server cutoff) fun _ => rfl) fun _ =>
        commit_noDeletes fun _ _ hgc hspares => ⟨hgc, hspares⟩) stable_unheld
      fun _ => noDeletes_of_unheld
  | drain server cutoff limit => exact drain_outline limit
  | orphans server limit => exact orphans_outline server limit

end Programs

/-! ## Runs -/

section Runs

variable {τ : Type} [DecidableEq τ]

theorem integrity_start {start : PayloadTable} (h : Rooted start) :
    Integrity (System.start (ρ := Request) start : System τ Request Uuid Payload).db := by
  have hunheld : ∀ t k, (System.start (ρ := Request) start : System τ Request Uuid Payload).db.holding
      t k = none := fun _ _ => rfl
  refine ⟨h, fun t => ⟨?_, ?_⟩⟩
  · intro k p p₀ hk
    rw [hunheld] at hk
    cases hk
  · intro k p hk
    rw [hunheld] at hk
    cases hk

/-- **Referential integrity.** From a table where every chunk has its root on its own server, for
every interleaving of the statements of any number of sessions: every committed chunk has its root;
no step adds a chunk to a root marked for collection; the phases of the collection delete only
terminal roots and their chunks, and phase 3 deletes nothing. -/
theorem chunks_keep_roots {start : PayloadTable} {labels : List (τ × Action Request Uuid)}
    {sys : System τ Request Uuid Payload} (hstart : Rooted start)
    (h : exec (systemStep program) (System.start start) labels = some sys) :
    Rooted sys.db.committed ∧
    ∀ label sys', systemStep program sys label = some sys' →
      GcClosed sys.db.committed sys'.db.committed ∧
      (∀ server cutoff limit,
        (sys.sessions label.1).request? = some (.mark server cutoff limit) ∨
          (sys.sessions label.1).request? = some (.drain server cutoff limit) →
        Spares sys.db.committed sys'.db.committed) ∧
      (∀ server limit, (sys.sessions label.1).request? = some (.orphans server limit) →
        ∀ k, sys'.db.committed.get k = sys.db.committed.get k) := by
  obtain ⟨hJ, hstep⟩ := system_sound integrity_robust program_outline (integrity_start hstart) h
  refine ⟨hJ.rooted, fun label sys' hlabel => ?_⟩
  rcases hstep label sys' hlabel with hsame | ⟨r, hr, hgc, hguarantee⟩
  · rw [hsame]
    refine ⟨fun _ _ _ _ k p server hk howned => ⟨p, hk, howned⟩, fun _ _ _ _ k p hk hnone => ?_,
      fun _ _ _ _ => rfl⟩
    rw [hk] at hnone
    cases hnone
  · refine ⟨hgc, fun server cutoff limit hrequest => ?_, fun server limit hrequest => ?_⟩
    · rw [hr] at hrequest
      rcases hrequest with hmark | hdrain
      · obtain rfl := Option.some.inj hmark
        exact hguarantee
      · obtain rfl := Option.some.inj hdrain
        exact hguarantee
    · rw [hr] at hrequest
      obtain rfl := Option.some.inj hrequest
      exact hguarantee

end Runs

/-! ### Two concrete tables

A finished job with one chunk: drained when the chunk is on the job's server, orphaned by a deletion
when it is not. -/

/-- The job. -/
def rootId : Uuid := Uuid.ofDigit 1

/-- Its chunk. -/
def chunkId : Uuid := Uuid.ofDigit 2

/-- A marked root on `alpha`, finished in 2026. -/
def markedRoot : Payload :=
  some (buildObject [("type", .str "command"), ("server", .str "alpha"),
    ("state", buildObject [("status", .str "succeeded"),
      ("finished_at", .str "2026-01-01T00:00:00.000000Z"), ("gc", .bool true)])])

/-- A chunk of the job, stamped with a server. -/
def chunkOn (server : PyStr) : Payload :=
  some (chunkPayload ⟨4, server, rootId, .stdout, 0, 0, 1, "a", none⟩)

/-- The root and the chunk. -/
def rootAndChunk (server : PyStr) : PayloadTable :=
  (Table.empty.insert chunkId (chunkOn server)).insert rootId markedRoot

/-- One pass of phase 2 over the root. -/
def drainPass : List (ℕ × Action Request Uuid) :=
  [(0, .begin (.drain "alpha" "2026-06-01T00:00:00.000000Z" 10)),
    (0, .advance), (0, .visit rootId), (0, .finish),
    (0, .advance), (0, .visit chunkId), (0, .finish),
    (0, .advance), (0, .visit rootId), (0, .finish), (0, .advance)]

/-- `delete_job_and_chunks` for the root. -/
def deletePass : List (ℕ × Action Request Uuid) :=
  [(0, .begin (.deleteJob rootId "alpha")), (0, .advance),
    (0, .advance), (0, .visit rootId), (0, .finish),
    (0, .advance), (0, .finish), (0, .advance)]

theorem get_rootAndChunk (server : PyStr) (k : Uuid) :
    (rootAndChunk server).get k =
      if k = rootId then some markedRoot else if k = chunkId then some (chunkOn server) else none := by
  have hchunk : (Table.empty.get chunkId : Option Payload) = none := rfl
  have hroot : (Table.empty.insert chunkId (chunkOn server)).get rootId = none := by
    rw [Table.get_insert hchunk, if_neg (by decide)]
    rfl
  rw [rootAndChunk, Table.get_insert hroot, Table.get_insert hchunk]
  rfl

/-- The chunk goes with its root. -/
theorem chunks_keep_roots_drained :
    ∃ sys, exec (systemStep program) (System.start (rootAndChunk "alpha")) drainPass = some sys ∧
      sys.db.committed.get rootId = none ∧ sys.db.committed.get chunkId = none ∧
      Rooted sys.db.committed := by
  have hrun : (exec (systemStep program) (System.start (rootAndChunk "alpha")) drainPass).any
      (fun sys => (sys.db.committed.get rootId).isNone && (sys.db.committed.get chunkId).isNone) =
      true := by decide +kernel
  have hstart : Rooted (rootAndChunk "alpha") := by
    intro k p hk hchunk
    rw [get_rootAndChunk] at hk
    split_ifs at hk with hroot hid
    · obtain rfl := Option.some.inj hk
      exact absurd hchunk (by decide)
    · obtain rfl := Option.some.inj hk
      refine ⟨rootId, markedRoot, "alpha", ?_, by decide, by decide, chunkPayload_owned rfl rfl⟩
      rw [get_rootAndChunk, if_pos rfl]
  obtain ⟨sys, hsys, hgone⟩ := (Option.any_eq_true _ _).1 hrun
  simp only [Bool.and_eq_true, Option.isNone_iff_eq_none] at hgone
  exact ⟨sys, hsys, hgone.1, hgone.2, (chunks_keep_roots hstart hsys).1⟩

/-- **A foreign chunk.** In a table where the one chunk's `thread` names an existing command row, but
the chunk carries another server, one worker's `delete_job_and_chunks` commits a state where that
chunk has no root. -/
theorem foreign_chunk_loses_root :
    (∀ k p, (rootAndChunk "beta").get k = some p → hasType p "output_chunk" = true →
      ∃ id root, (rootAndChunk "beta").get id = some root ∧ isRootOf id root p = true) ∧
    ∃ sys, exec (systemStep program) (System.start (rootAndChunk "beta")) deletePass = some sys ∧
      ∃ p, sys.db.committed.get chunkId = some p ∧ hasType p "output_chunk" = true ∧
        ∀ id root, sys.db.committed.get id = some root → isRootOf id root p = false := by
  constructor
  · intro k p hk hchunk
    rw [get_rootAndChunk] at hk
    split_ifs at hk with hroot hid
    · obtain rfl := Option.some.inj hk
      exact absurd hchunk (by decide)
    · obtain rfl := Option.some.inj hk
      refine ⟨rootId, markedRoot, ?_, ?_⟩
      · rw [get_rootAndChunk, if_pos rfl]
      · exact isRootOf_of_ownedChunk (chunkPayload_owned rfl (rfl : _ = PyStr.ofString "beta")) (by decide)
  · have hrun : (exec (systemStep program) (System.start (rootAndChunk "beta")) deletePass).any
        (fun sys => (sys.db.committed.get chunkId).any fun p => hasType p "output_chunk" &&
          !sys.db.committed.any fun id root => isRootOf id root p) = true := by decide +kernel
    obtain ⟨sys, hsys, hget⟩ := (Option.any_eq_true _ _).1 hrun
    obtain ⟨p, hp, hfacts⟩ := (Option.any_eq_true _ _).1 hget
    rw [Bool.and_eq_true, Bool.not_eq_true'] at hfacts
    refine ⟨sys, hsys, p, hp, hfacts.1, fun id root hroot => ?_⟩
    rw [Bool.eq_false_iff]
    intro hrootOf
    rw [Table.any_eq_true.2 ⟨id, root, hroot, hrootOf⟩] at hfacts
    cases hfacts.2

end Lubko.Jobs
