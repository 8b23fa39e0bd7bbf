import Mathlib.Data.List.Basic
import Mathlib.Logic.Function.Basic
import Mathlib.Logic.Relation

/-!
# Locks, and a server with one thread

Processes share exclusive locks and one server. A client takes locks around blocks of its program
and sends requests, and it waits for each reply with the locks it holds. The server does one thing
at a time: it handles a request, or it takes a turn of its own, and both may take locks.

A **wait cycle** is a client that waits for a reply with a lock held while the server, in the
handler of that request or in a turn of its own, is about to take that very lock.

**Programs** (`Script`). What matters of a program are its blocks under a lock, its requests and
its branches. `Script.points` are its requests, each with the locks held there.

**Runs** (`World`, `Step`). A process is a stack of frames: programs to run and locks to release.
A lock may be refused, an exception may drop everything but the releases, and a client may stop
waiting.

Main result: `no_waitCycle_iff`. No wait cycle is reachable exactly when no operation has a request
at which it holds a lock that the request's handler, or a turn of the server, takes.
-/

namespace Lubko.Lib.LockWait

/-- Programs over locks `L` that send requests `R`. -/
inductive Script (L R : Type) where
  | skip
  | ask (r : R)
  | locked (l : L) (body : Script L R)
  | seq (a b : Script L R)
  | choice (a b : Script L R)

/-- A frame of a process: a program to run, or a lock to release. -/
inductive Frame (L R : Type) where
  | run (s : Script L R)
  | release (l : L)

namespace Script

variable {L R : Type}

/-- A program that is run or not. -/
def opt (s : Script L R) : Script L R := choice skip s

/-- The programs of a list in turn. -/
def all : List (Script L R) → Script L R
  | [] => skip
  | s :: ss => seq s (all ss)

/-- The locks that a program may take. -/
def locks : Script L R → List L
  | skip => []
  | ask _ => []
  | locked l b => l :: b.locks
  | seq a b => a.locks ++ b.locks
  | choice a b => a.locks ++ b.locks

/-- The requests of a program, each with the locks held there. -/
def points (held : List L) : Script L R → List (List L × R)
  | skip => []
  | ask r => [(held, r)]
  | locked l b => b.points (l :: held)
  | seq a b => a.points held ++ b.points held
  | choice a b => a.points held ++ b.points held

/-- The program never takes a lock that it holds. -/
def Nested (held : List L) : Script L R → Prop
  | skip => True
  | ask _ => True
  | locked l b => l ∉ held ∧ b.Nested (l :: held)
  | seq a b => a.Nested held ∧ b.Nested held
  | choice a b => a.Nested held ∧ b.Nested held

instance decidableNested [DecidableEq L] (held : List L) :
    (s : Script L R) → Decidable (s.Nested held)
  | skip => inferInstanceAs (Decidable True)
  | ask _ => inferInstanceAs (Decidable True)
  | locked l b =>
    have := b.decidableNested (l :: held)
    inferInstanceAs (Decidable (l ∉ held ∧ b.Nested (l :: held)))
  | seq a b =>
    have := a.decidableNested held
    have := b.decidableNested held
    inferInstanceAs (Decidable (a.Nested held ∧ b.Nested held))
  | choice a b =>
    have := a.decidableNested held
    have := b.decidableNested held
    inferInstanceAs (Decidable (a.Nested held ∧ b.Nested held))

@[simp] theorem locks_all (ss : List (Script L R)) : (all ss).locks = ss.flatMap locks := by
  induction ss with
  | nil => rfl
  | cons s ss ih => simp [all, locks, ih]

end Script

namespace Frame

variable {L R : Type}

/-- The locks that a process holds. -/
def held : List (Frame L R) → List L
  | [] => []
  | run _ :: k => held k
  | release l :: k => l :: held k

/-- The requests that a process may still send. -/
def requests : List (Frame L R) → List (List L × R)
  | [] => []
  | run s :: k => s.points (held k) ++ requests k
  | release _ :: k => requests k

/-- The locks that a process may still take. -/
def toTake : List (Frame L R) → List L
  | [] => []
  | run s :: k => s.locks ++ toTake k
  | release _ :: k => toTake k

/-- What is left of a process after an exception: the releases. -/
def unwound : List (Frame L R) → List (Frame L R)
  | [] => []
  | run _ :: k => unwound k
  | release l :: k => release l :: unwound k

@[simp] theorem requests_unwound (k : List (Frame L R)) : requests (unwound k) = [] := by
  induction k with
  | nil => rfl
  | cons f k ih => cases f <;> simpa [unwound, requests]

@[simp] theorem toTake_unwound (k : List (Frame L R)) : toTake (unwound k) = [] := by
  induction k with
  | nil => rfl
  | cons f k ih => cases f <;> simpa [unwound, toTake]

end Frame

open LockWait.Frame LockWait.Script

variable {L R C : Type}

/-- What a process does alone. -/
inductive Move : List (Frame L R) → List (Frame L R) → Prop where
  | skip (k) : Move (run skip :: k) k
  | seq (a b k) : Move (run (seq a b) :: k) (run a :: run b :: k)
  | left (a b k) : Move (run (choice a b) :: k) (run a :: k)
  | right (a b k) : Move (run (choice a b) :: k) (run b :: k)
  | refused (l b k) : Move (run (locked l b) :: k) k
  | release (l k) : Move (release l :: k) k
  | unwind (k) : Move k (unwound k)

/-- The requests left are among those before. -/
theorem Move.requests_subset {k k' : List (Frame L R)} (h : Move k k') :
    requests k' ⊆ requests k := by
  intro p hp
  cases h with
  | unwind => simp at hp
  | left => simp only [requests, points, List.mem_append] at hp ⊢; tauto
  | right => simp only [requests, points, List.mem_append] at hp ⊢; tauto
  | _ => simp_all [requests, points, held]

theorem Move.toTake_subset {k k' : List (Frame L R)} (h : Move k k') : toTake k' ⊆ toTake k := by
  intro l hl
  cases h with
  | unwind => simp at hl
  | skip => simpa [toTake, locks] using hl
  | seq => simpa [toTake, locks] using hl
  | left => simp only [toTake, locks, List.mem_append] at hl ⊢; tauto
  | right => simp only [toTake, locks, List.mem_append] at hl ⊢; tauto
  | refused => exact List.mem_append_right _ hl
  | release => exact hl

/-! ## The system -/

/-- What the server is busy with: a client's request, a request whose client stopped waiting, or a
turn of its own. -/
inductive Duty (C : Type) where
  | serving (i : C)
  | abandoned
  | own

structure World (C L R : Type) where
  client : C → List (Frame L R)
  awaiting : C → Option R
  /-- The server is idle, or busy with what is left of a program. -/
  server : Option (Duty C × List (Frame L PEmpty))

/-- The programs of clients and server; none takes a lock that it holds. -/
structure System (L R : Type) where
  operations : Set (Script L R)
  handler : R → Script L PEmpty
  turns : Set (Script L PEmpty)
  operations_nested : ∀ s ∈ operations, s.Nested []
  handler_nested : ∀ r, (handler r).Nested []
  turns_nested : ∀ t ∈ turns, t.Nested []

namespace World

/-- Nobody holds the lock. -/
def Free (w : World C L R) (l : L) : Prop :=
  (∀ i, l ∉ held (w.client i)) ∧ ∀ d k, w.server = some (d, k) → l ∉ held k

/-- A client waits for a reply with a lock held that the server is about to take, in the handler
of its request or in a turn of its own. -/
def WaitCycle (w : World C L R) : Prop :=
  ∃ i r l, w.awaiting i = some r ∧ l ∈ held (w.client i) ∧
    ∃ d b k, w.server = some (d, run (locked l b) :: k) ∧ (d = .serving i ∨ d = .own)

def initial : World C L R := ⟨fun _ => [], fun _ => none, none⟩

end World

variable [DecidableEq C]

/-- The client stops waiting; a handler that has started goes on for nobody. -/
def Duty.leave (i : C) : Duty C → Duty C
  | .serving j => if j = i then .abandoned else .serving j
  | d => d

inductive Step (S : System L R) : World C L R → World C L R → Prop where
  | start (w i s) (idle : w.client i = []) (quiet : w.awaiting i = none)
      (hs : s ∈ S.operations) :
      Step S w { w with client := Function.update w.client i [run s] }
  | move (w i k) (quiet : w.awaiting i = none) (hk : Move (w.client i) k) :
      Step S w { w with client := Function.update w.client i k }
  | enter (w i l b k) (quiet : w.awaiting i = none) (hk : w.client i = run (locked l b) :: k)
      (free : w.Free l) :
      Step S w { w with client := Function.update w.client i (run b :: release l :: k) }
  | send (w i r k) (quiet : w.awaiting i = none) (hk : w.client i = run (ask r) :: k) :
      Step S w { w with
        client := Function.update w.client i k
        awaiting := Function.update w.awaiting i (some r) }
  | giveUp (w i) :
      Step S w { w with
        awaiting := Function.update w.awaiting i none
        server := w.server.map fun p => (p.1.leave i, p.2) }
  | serve (w i r) (idle : w.server = none) (hr : w.awaiting i = some r) :
      Step S w { w with server := some (.serving i, [run (S.handler r)]) }
  | turn (w t) (idle : w.server = none) (ht : t ∈ S.turns) :
      Step S w { w with server := some (.own, [run t]) }
  | serverMove (w d k k') (hs : w.server = some (d, k)) (hk : Move k k') :
      Step S w { w with server := some (d, k') }
  | serverEnter (w d l b k) (hs : w.server = some (d, run (locked l b) :: k)) (free : w.Free l) :
      Step S w { w with server := some (d, run b :: release l :: k) }
  | reply (w i) (hs : w.server = some (.serving i, [])) :
      Step S w { w with awaiting := Function.update w.awaiting i none, server := none }
  | finish (w d) (hs : w.server = some (d, [])) (hd : ∀ i, d ≠ .serving i) :
      Step S w { w with server := none }

/-- The worlds that a run of the system reaches. -/
def Reachable (S : System L R) (w : World C L R) : Prop :=
  Relation.ReflTransGen (Step S) World.initial w

/-- At a request with these locks held, neither the handler nor a turn of the server takes one of
them. -/
def System.Clear (S : System L R) (p : List L × R) : Prop :=
  ∀ l ∈ p.1, l ∉ (S.handler p.2).locks ∧ ∀ t ∈ S.turns, l ∉ t.locks

/-! ## Where every request is clear, no wait cycle is reached -/

section Safety

variable {S : System L R} {w w' : World C L R}

/-- What the server may still take belongs to the request it serves, or to one of its turns. -/
def World.ServerBound (S : System L R) (w : World C L R) : Prop :=
  ∀ d k, w.server = some (d, k) → match d with
    | .serving i => ∃ r, w.awaiting i = some r ∧ toTake k ⊆ (S.handler r).locks
    | .abandoned => True
    | .own => ∃ t ∈ S.turns, toTake k ⊆ t.locks

structure World.Clear (S : System L R) (w : World C L R) : Prop where
  ahead : ∀ i, ∀ p ∈ requests (w.client i), S.Clear p
  waiting : ∀ i r, w.awaiting i = some r → S.Clear (held (w.client i), r)
  server : w.ServerBound S

omit [DecidableEq C] in
theorem World.Clear.not_waitCycle (h : w.Clear S) : ¬ w.WaitCycle := by
  rintro ⟨i, r, l, hr, hl, d, b, k, hs, hd⟩
  have hc := h.waiting i r hr l hl
  have hb := h.server d _ hs
  rcases hd with rfl | rfl
  · obtain ⟨r', hr', hk⟩ := hb
    rw [hr, Option.some.injEq] at hr'
    exact hc.1 (hr' ▸ hk (by simp [toTake, locks]))
  · obtain ⟨t, ht, hk⟩ := hb
    exact hc.2 t ht (hk (by simp [toTake, locks]))

omit [DecidableEq C] in
/-- The server may go on to any stack that takes no other locks. -/
theorem World.ServerBound.mono {d : Duty C} {k k' : List (Frame L PEmpty)}
    (h : w.ServerBound S) (hs : w.server = some (d, k)) (hk : toTake k' ⊆ toTake k) :
    World.ServerBound S { w with server := some (d, k') } := by
  intro d' k'' he
  obtain ⟨rfl, rfl⟩ : d = d' ∧ k' = k'' := by simpa using he
  have hb := h d k hs
  cases d with
  | serving i =>
    obtain ⟨r, hr, hsub⟩ := hb
    exact ⟨r, hr, List.Subset.trans hk hsub⟩
  | abandoned => trivial
  | own =>
    obtain ⟨t, ht, hsub⟩ := hb
    exact ⟨t, ht, List.Subset.trans hk hsub⟩

/-- A client that is not waiting may go on to any stack with no other requests. -/
theorem World.Clear.setClient {i : C} {k : List (Frame L R)} (h : w.Clear S)
    (quiet : w.awaiting i = none) (hk : ∀ p ∈ requests k, S.Clear p) :
    World.Clear S { w with client := Function.update w.client i k } where
  ahead j p hp := by
    by_cases hj : j = i
    · subst hj
      exact hk p (by simpa using hp)
    · exact h.ahead j p (by simpa [Function.update_of_ne hj] using hp)
  waiting j r hr := by
    have hj : j ≠ i := fun e => by simp_all
    simpa [Function.update_of_ne hj] using h.waiting j r hr
  server := h.server

/-- The invariant is kept at every step, where every request of an operation is clear. -/
theorem World.Clear.step (hop : ∀ s ∈ S.operations, ∀ p ∈ s.points [], S.Clear p)
    (h : w.Clear S) (hw : Step S w w') : w'.Clear S := by
  cases hw with
  | start i s idle quiet hs =>
    exact h.setClient quiet fun p hp => hop s hs p (by simpa [requests, held] using hp)
  | move i k quiet hk => exact h.setClient quiet fun p hp => h.ahead i p (hk.requests_subset hp)
  | enter i l b k quiet hk free =>
    refine h.setClient quiet fun p hp => h.ahead i p ?_
    rw [hk]
    exact hp
  | send i r k quiet hk =>
    have ahead : ∀ p ∈ requests (run (ask r) :: k), S.Clear p := hk ▸ h.ahead i
    have clear := h.setClient (k := k) quiet fun p hp => ahead p (by simp [requests, hp])
    refine ⟨clear.ahead, fun j r' hr => ?_, fun d k' hs => ?_⟩
    · by_cases hj : j = i
      · subst hj
        obtain rfl : r = r' := by simpa using hr
        exact ahead _ (by simp [requests, points])
      · simpa [Function.update_of_ne hj] using
          clear.waiting j r' (by simpa [Function.update_of_ne hj] using hr)
    · cases d with
      | serving j =>
        obtain ⟨r', hr', hsub⟩ := h.server _ _ hs
        have hj : j ≠ i := fun e => by simp_all
        exact ⟨r', by simpa [Function.update_of_ne hj] using hr', hsub⟩
      | abandoned => trivial
      | own => exact h.server _ _ hs
  | giveUp i =>
    refine ⟨h.ahead, fun j r hr => ?_, fun d k hs => ?_⟩
    · by_cases hj : j = i
      · simp [hj] at hr
      · exact h.waiting j r (by simpa [Function.update_of_ne hj] using hr)
    · obtain ⟨⟨d', k'⟩, hs', he⟩ := Option.map_eq_some_iff.mp hs
      obtain ⟨rfl, rfl⟩ : d'.leave i = d ∧ k' = k := by simpa using he
      have hb := h.server d' k' hs'
      cases d' with
      | serving j =>
        by_cases hj : j = i
        · simp [Duty.leave, hj]
        · obtain ⟨r, hr, hsub⟩ := hb
          simp only [Duty.leave, if_neg hj]
          exact ⟨r, by simpa [Function.update_of_ne hj] using hr, hsub⟩
      | abandoned => trivial
      | own => exact hb
  | serve i r idle hr =>
    refine ⟨h.ahead, h.waiting, fun d k hs => ?_⟩
    obtain ⟨rfl, rfl⟩ : Duty.serving i = d ∧ [run (S.handler r)] = k := by simpa using hs
    exact ⟨r, hr, by simp [toTake]⟩
  | turn t idle ht =>
    refine ⟨h.ahead, h.waiting, fun d k hs => ?_⟩
    obtain ⟨rfl, rfl⟩ : Duty.own = d ∧ [run t] = k := by simpa using hs
    exact ⟨t, ht, by simp [toTake]⟩
  | serverMove d k k' hs hk => exact ⟨h.ahead, h.waiting, h.server.mono hs hk.toTake_subset⟩
  | serverEnter d l b k hs free =>
    refine ⟨h.ahead, h.waiting, h.server.mono hs ?_⟩
    simp [toTake, locks]
  | reply i hs =>
    refine ⟨h.ahead, fun j r hr => ?_, fun d k hs => by simp at hs⟩
    by_cases hj : j = i
    · simp [hj] at hr
    · exact h.waiting j r (by simpa [Function.update_of_ne hj] using hr)
  | finish d hs hd => exact ⟨h.ahead, h.waiting, fun d k hs => by simp at hs⟩

theorem Reachable.clear (hop : ∀ s ∈ S.operations, ∀ p ∈ s.points [], S.Clear p)
    (h : Reachable S w) : w.Clear S := by
  induction h with
  | refl =>
    refine ⟨fun i p hp => ?_, fun i r hr => ?_, fun d k hs => ?_⟩
    · simp [World.initial, requests] at hp
    · simp [World.initial] at hr
    · simp [World.initial] at hs
  | tail _ step ih => exact ih.step hop step

end Safety

/-! ## Where a request is not clear, one client alone reaches a wait cycle -/

section Alone

variable {S : System L R} {i : C} {k : List (Frame L R)} {a : Option R}
  {d : Duty C} {m : List (Frame L PEmpty)}

/-- The world in which only this client does anything. -/
def World.solo (i : C) (k : List (Frame L R)) (a : Option R)
    (server : Option (Duty C × List (Frame L PEmpty))) : World C L R :=
  ⟨fun j => if j = i then k else [], fun j => if j = i then a else none, server⟩

open World

theorem initial_eq_solo (i : C) : (World.initial : World C L R) = solo i [] none none := by
  simp [World.initial, solo]

theorem solo_client (k' : List (Frame L R)) (s : Option (Duty C × List (Frame L PEmpty))) :
    Function.update (solo i k a s).client i k' = (solo i k' a s).client := by
  funext j
  by_cases hj : j = i
  · simp [solo, hj]
  · simp [solo, hj, Function.update_of_ne]

theorem solo_awaiting (a' : Option R) (s : Option (Duty C × List (Frame L PEmpty))) :
    Function.update (solo i k a s).awaiting i a' = (solo i k a' s).awaiting := by
  funext j
  by_cases hj : j = i
  · simp [solo, hj]
  · simp [solo, hj, Function.update_of_ne]

theorem solo_free {l : L} {s : Option (Duty C × List (Frame L PEmpty))} (hl : l ∉ held k)
    (hs : ∀ d m, s = some (d, m) → l ∉ held m) : (solo i k a s).Free l := by
  refine ⟨fun j => ?_, hs⟩
  by_cases hj : j = i
  · simpa [solo, hj] using hl
  · simp [solo, hj, held]

theorem Reachable.alone {s : Script L R} (hs : s ∈ S.operations) :
    Reachable S (solo i [run s] none none) := by
  have step := Step.start (S := S) (solo i [] none none) i s (by simp [solo]) (by simp [solo]) hs
  rw [solo_client] at step
  rw [Reachable, initial_eq_solo i]
  exact .single step

theorem solo_move {k' : List (Frame L R)} (h : Move k k') :
    Step S (solo i k none none) (solo i k' none none) := by
  have step := Step.move (S := S) (solo i k none none) i k' (by simp [solo]) (by simpa [solo])
  rw [solo_client] at step
  exact step

theorem solo_enter {l : L} {b : Script L R} (hl : l ∉ held k) :
    Step S (solo i (run (locked l b) :: k) none none)
      (solo i (run b :: release l :: k) none none) := by
  have step := Step.enter (S := S) (solo i (run (locked l b) :: k) none none) i l b k
    (by simp [solo]) (by simp [solo]) (solo_free hl nofun)
  rw [solo_client] at step
  exact step

theorem solo_send {r : R} :
    Step S (solo i (run (ask r) :: k) none none) (solo i k (some r) none) := by
  have step := Step.send (S := S) (solo i (run (ask r) :: k) none none) i r k
    (by simp [solo]) (by simp [solo])
  rw [solo_client, solo_awaiting] at step
  exact step

theorem solo_serve {r : R} :
    Step S (solo i k (some r) none)
      (solo i k (some r) (some (.serving i, [run (S.handler r)]))) :=
  Step.serve _ i r rfl (by simp [solo])

theorem solo_reply {r : R} :
    Step S (solo i k (some r) (some (.serving i, []))) (solo i k none none) := by
  have step := Step.reply (S := S) (solo i k (some r) (some (.serving i, []))) i rfl
  rw [solo_awaiting] at step
  exact step

theorem solo_serverMove {m' : List (Frame L PEmpty)} (h : Move m m') :
    Step S (solo i k a (some (d, m))) (solo i k a (some (d, m'))) :=
  Step.serverMove _ d m m' rfl h

theorem solo_serverEnter {l : L} {b : Script L PEmpty} (hl : l ∉ held k) (hs : l ∉ held m) :
    Step S (solo i k a (some (d, run (locked l b) :: m)))
      (solo i k a (some (d, run b :: release l :: m))) := by
  refine Step.serverEnter _ d l b m rfl (solo_free hl ?_)
  intro d' m' he
  obtain ⟨rfl, rfl⟩ : d = d' ∧ run (locked l b) :: m = m' := by simpa using he
  exact hs

/-- A program of the server that takes none of the client's locks ends. -/
theorem server_ends (t : Script L PEmpty) (nested : t.Nested (held m))
    (apart : ∀ l ∈ t.locks, l ∉ held k) :
    Relation.ReflTransGen (Step S) (solo i k a (some (d, run t :: m)))
      (solo i k a (some (d, m))) := by
  induction t generalizing m with
  | skip => exact .single (solo_serverMove (.skip m))
  | ask r => exact r.elim
  | locked l b ih =>
    have body := ih (m := release l :: m) nested.2 fun l' hl' => apart l' (by simp [locks, hl'])
    exact .head (solo_serverEnter (apart l (by simp [locks])) nested.1)
      (body.tail (solo_serverMove (.release l m)))
  | seq b c ihb ihc =>
    have first := ihb (m := run c :: m) nested.1 fun l hl => apart l (by simp [locks, hl])
    have second := ihc nested.2 fun l hl => apart l (by simp [locks, hl])
    exact .head (solo_serverMove (.seq b c m)) (first.trans second)
  | choice b c ihb _ =>
    exact .head (solo_serverMove (.left b c m))
      (ihb nested.1 fun l hl => apart l (by simp [locks, hl]))

/-- A program of the server that may take one of the client's locks comes to wait for one. -/
theorem server_waits {r : R} (hd : d = .serving i ∨ d = .own) (t : Script L PEmpty)
    (nested : t.Nested (held m)) (clash : ∃ l ∈ t.locks, l ∈ held k) :
    ∃ w, Relation.ReflTransGen (Step S) (solo i k (some r) (some (d, run t :: m))) w ∧
      w.WaitCycle := by
  induction t generalizing m with
  | skip => simp [locks] at clash
  | ask r => exact r.elim
  | locked l b ih =>
    by_cases hl : l ∈ held k
    · exact ⟨_, .refl, i, r, l, by simp [solo], by simpa [solo], d, b, m, rfl, hd⟩
    · have inside : ∃ l' ∈ b.locks, l' ∈ held k := by
        obtain ⟨l', hl', hk⟩ := clash
        exact ⟨l', (List.mem_cons.mp hl').resolve_left fun e => hl (e ▸ hk), hk⟩
      obtain ⟨w, steps, cycle⟩ := ih (m := release l :: m) nested.2 inside
      exact ⟨w, .head (solo_serverEnter hl nested.1) steps, cycle⟩
  | seq b c ihb ihc =>
    by_cases hb : ∃ l ∈ b.locks, l ∈ held k
    · obtain ⟨w, steps, cycle⟩ := ihb (m := run c :: m) nested.1 hb
      exact ⟨w, .head (solo_serverMove (.seq b c m)) steps, cycle⟩
    · have apart : ∀ l ∈ b.locks, l ∉ held k := fun l hl hk => hb ⟨l, hl, hk⟩
      have hc : ∃ l ∈ c.locks, l ∈ held k := by
        obtain ⟨l, hl, hk⟩ := clash
        exact ⟨l, (List.mem_append.mp hl).resolve_left fun h => apart l h hk, hk⟩
      obtain ⟨w, steps, cycle⟩ := ihc nested.2 hc
      have first := server_ends (S := S) (i := i) (k := k) (a := some r) (d := d)
        (m := run c :: m) b nested.1 apart
      exact ⟨w, .head (solo_serverMove (.seq b c m)) (first.trans steps), cycle⟩
  | choice b c ihb ihc =>
    obtain ⟨l, hl, hk⟩ := clash
    rcases List.mem_append.mp hl with hl | hl
    · obtain ⟨w, steps, cycle⟩ := ihb nested.1 ⟨l, hl, hk⟩
      exact ⟨w, .head (solo_serverMove (.left b c m)) steps, cycle⟩
    · obtain ⟨w, steps, cycle⟩ := ihc nested.2 ⟨l, hl, hk⟩
      exact ⟨w, .head (solo_serverMove (.right b c m)) steps, cycle⟩

/-- A client that waits, alone, for a reply of an idle server: where no wait cycle is reachable, its
locks are apart from the handler's. -/
theorem handler_apart {r : R} (none_reached : ∀ w : World C L R, Reachable S w → ¬ w.WaitCycle)
    (h : Reachable S (solo i k (some r) none)) : ∀ l ∈ (S.handler r).locks, l ∉ held k := by
  intro l hl hk
  obtain ⟨w, steps, cycle⟩ := server_waits (S := S) (d := .serving i) (m := []) (r := r)
    (.inl rfl) (S.handler r) (S.handler_nested r) ⟨l, hl, hk⟩
  exact none_reached w ((h.tail solo_serve).trans steps) cycle

theorem turn_apart {r : R} (none_reached : ∀ w : World C L R, Reachable S w → ¬ w.WaitCycle)
    (h : Reachable S (solo i k (some r) none)) {t : Script L PEmpty} (ht : t ∈ S.turns) :
    ∀ l ∈ t.locks, l ∉ held k := by
  intro l hl hk
  obtain ⟨w, steps, cycle⟩ := server_waits (S := S) (i := i) (d := .own) (m := [])
    (r := r) (.inr rfl) t (S.turns_nested t ht) ⟨l, hl, hk⟩
  exact none_reached w ((h.tail (.turn _ t rfl ht)).trans steps) cycle

/-- Where no wait cycle is reachable, a client alone brings every program to its end. -/
theorem client_ends (none_reached : ∀ w : World C L R, Reachable S w → ¬ w.WaitCycle)
    (s : Script L R) (nested : s.Nested (held k))
    (h : Reachable S (solo i (run s :: k) none none)) :
    Reachable S (solo i k none none) := by
  induction s generalizing k with
  | skip => exact h.tail (solo_move (.skip k))
  | ask r =>
    have asked : Reachable S (solo i k (some r) none) := h.tail solo_send
    have handled := server_ends (S := S) (i := i) (k := k) (a := some r) (d := .serving i)
      (m := []) (S.handler r) (S.handler_nested r) (handler_apart none_reached asked)
    exact ((asked.tail solo_serve).trans handled).tail solo_reply
  | locked l b ih =>
    have entered : Reachable S (solo i (run b :: release l :: k) none none) :=
      h.tail (solo_enter nested.1)
    exact (ih (k := release l :: k) nested.2 entered).tail (solo_move (.release l k))
  | seq b c ihb ihc =>
    have begun : Reachable S (solo i (run b :: run c :: k) none none) :=
      h.tail (solo_move (.seq b c k))
    exact ihc nested.2 (ihb (k := run c :: k) nested.1 begun)
  | choice b c ihb _ => exact ihb nested.1 (h.tail (solo_move (.left b c k)))

/-- Where no wait cycle is reachable, a client alone comes to each request of its program. -/
theorem client_asks (none_reached : ∀ w : World C L R, Reachable S w → ¬ w.WaitCycle)
    (s : Script L R) (nested : s.Nested (held k))
    (h : Reachable S (solo i (run s :: k) none none)) {p : List L × R}
    (hp : p ∈ s.points (held k)) :
    ∃ k', held k' = p.1 ∧ Reachable S (solo i k' (some p.2) none) := by
  induction s generalizing k with
  | skip => simp [points] at hp
  | ask r =>
    obtain rfl : p = (held k, r) := by simpa [points] using hp
    exact ⟨k, rfl, h.tail solo_send⟩
  | locked l b ih =>
    exact ih (k := release l :: k) nested.2 (h.tail (solo_enter nested.1)) hp
  | seq b c ihb ihc =>
    have begun : Reachable S (solo i (run b :: run c :: k) none none) :=
      h.tail (solo_move (.seq b c k))
    rcases List.mem_append.mp hp with hp | hp
    · exact ihb (k := run c :: k) nested.1 begun hp
    · exact ihc nested.2 (client_ends none_reached b (k := run c :: k) nested.1 begun) hp
  | choice b c ihb ihc =>
    rcases List.mem_append.mp hp with hp | hp
    · exact ihb nested.1 (h.tail (solo_move (.left b c k))) hp
    · exact ihc nested.2 (h.tail (solo_move (.right b c k))) hp

/-- **A wait cycle is reachable exactly when some operation sends a request with a lock held that
the request's handler, or a turn of the server, takes.** -/
theorem no_waitCycle_iff [Inhabited C] (S : System L R) :
    (∀ w : World C L R, Reachable S w → ¬ w.WaitCycle) ↔
      ∀ s ∈ S.operations, ∀ p ∈ s.points [], S.Clear p := by
  constructor
  · intro none_reached s hs p hp
    have begun := Reachable.alone (i := (default : C)) hs
    obtain ⟨k, hk, asked⟩ := client_asks none_reached s (k := []) (S.operations_nested s hs)
      begun hp
    intro l hl
    rw [← hk] at hl
    exact ⟨fun h => handler_apart none_reached asked l h hl,
      fun t ht h => turn_apart none_reached asked ht l h hl⟩
  · intro hop w hw
    exact (hw.clear hop).not_waitCycle

end Alone

end Lubko.Lib.LockWait
