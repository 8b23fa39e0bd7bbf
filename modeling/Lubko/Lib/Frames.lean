import Lubko.Lib.JsonFile

/-!
# Length-prefixed fields

A field is its length, in eight bytes from the most significant one, and its bytes. Fields one
behind the other are read back in one way only: the length says where the first one ends.

* `bigEndian_inj` — a number from its bytes.
* `flatMap_frame_inj` — the fields from their concatenation.
* `mapM_ends_iff` — when a loop over the elements of a list ends as expected.
-/

namespace Lubko.Lib

/-! ## Numbers -/

/-- `n.to_bytes(width, "big")`, for a number that has `width` bytes. -/
def bigEndian : ℕ → ℕ → List UInt8
  | 0, _ => []
  | width + 1, n => bigEndian width (n / 0x100) ++ [UInt8.ofNat n]

@[simp] theorem length_bigEndian (width n : ℕ) : (bigEndian width n).length = width := by
  induction width generalizing n with
  | zero => rfl
  | succ width ih => rw [bigEndian, List.length_append, ih, List.length_singleton]

/-- **A number is read back from its bytes.** -/
theorem bigEndian_inj {width m n : ℕ} (hm : m < 0x100 ^ width) (hn : n < 0x100 ^ width)
    (h : bigEndian width m = bigEndian width n) : m = n := by
  induction width generalizing m n with
  | zero =>
    rw [pow_zero] at hm hn
    omega
  | succ width ih =>
    rw [pow_succ] at hm hn
    rw [bigEndian, bigEndian] at h
    obtain ⟨hhigh, hlow⟩ := List.append_inj' h rfl
    have hquot : m / 0x100 = n / 0x100 := ih (by omega) (by omega) hhigh
    have hrem : m % 0x100 = n % 0x100 := by
      have hbyte := congrArg UInt8.toNat (List.singleton_inj.1 hlow)
      rwa [UInt8.toNat_ofNat', UInt8.toNat_ofNat'] at hbyte
    omega

/-! ## Fields -/

/-- A field behind its length. -/
def frame (data : List UInt8) : List UInt8 := bigEndian 8 data.length ++ data

/-- A field whose length has eight bytes. -/
def Framed (data : List UInt8) : Prop := data.length < 2 ^ 64

instance (data : List UInt8) : Decidable (Framed data) :=
  inferInstanceAs (Decidable (data.length < 2 ^ 64))

theorem frame_ne_nil (data rest : List UInt8) : frame data ++ rest ≠ [] := by
  intro h
  have hlength := congrArg List.length h
  simp [frame] at hlength

/-- The first field, and what is behind it. -/
theorem frame_append_inj {x y xs ys : List UInt8} (hx : Framed x) (hy : Framed y)
    (h : frame x ++ xs = frame y ++ ys) : x = y ∧ xs = ys := by
  rw [frame, frame, List.append_assoc, List.append_assoc] at h
  obtain ⟨hlengths, hrest⟩ := List.append_inj h (by simp)
  have hlength : x.length = y.length := bigEndian_inj hx hy hlengths
  exact List.append_inj hrest hlength

/-- **The fields are read back from their concatenation.** -/
theorem flatMap_frame_inj {xs ys : List (List UInt8)} (hx : ∀ x ∈ xs, Framed x)
    (hy : ∀ y ∈ ys, Framed y) (h : xs.flatMap frame = ys.flatMap frame) : xs = ys := by
  induction xs generalizing ys with
  | nil =>
    cases ys with
    | nil => rfl
    | cons y ys => exact absurd h.symm (frame_ne_nil y _)
  | cons x xs ih =>
    cases ys with
    | nil => exact absurd h (frame_ne_nil x _)
    | cons y ys =>
      rw [List.forall_mem_cons] at hx hy
      rw [List.flatMap_cons, List.flatMap_cons] at h
      obtain ⟨rfl, hrest⟩ := frame_append_inj hx.1 hy.1 h
      rw [ih hx.2 hy.2 hrest]

/-! ## Loops that may raise -/

section Loops

variable {ε α β : Type}

theorem ok_bind (a : α) (f : α → Except ε β) : (Except.ok a >>= f) = f a := rfl

theorem error_bind (e : ε) (f : α → Except ε β) : (Except.error e >>= f) = .error e := rfl

/-- A loop over a list that ends: what it returns is what its steps return, one by one. -/
theorem mapM_eq_ok {f : α → Except ε β} {xs : List α} {ys : List β}
    (h : xs.mapM f = .ok ys) : List.Forall₂ (fun x y => f x = .ok y) xs ys := by
  induction xs generalizing ys with
  | nil =>
    cases h
    exact .nil
  | cons x xs ih =>
    rw [List.mapM_cons] at h
    obtain ⟨y, hy, h⟩ := except_bind_eq_ok.1 h
    obtain ⟨rest, hrest, h⟩ := except_bind_eq_ok.1 h
    cases h
    exact .cons hy (ih hrest)

/-- What a loop raises is raised by one of its steps. -/
theorem mapM_eq_error {f : α → Except ε β} {xs : List α} {e : ε} (h : xs.mapM f = .error e) :
    ∃ x ∈ xs, f x = .error e := by
  induction xs with
  | nil => cases h
  | cons x xs ih =>
    rw [List.mapM_cons] at h
    cases hx : f x with
    | error e' =>
      rw [hx, error_bind] at h
      cases h
      exact ⟨x, List.mem_cons_self, hx⟩
    | ok y =>
      rw [hx, ok_bind] at h
      cases hrest : xs.mapM f with
      | ok ys =>
        rw [hrest] at h
        cases h
      | error e' =>
        rw [hrest, error_bind] at h
        cases h
        obtain ⟨z, hz, hraises⟩ := ih hrest
        exact ⟨z, List.mem_cons_of_mem x hz, hraises⟩

/-- A step for every element. -/
theorem forall₂_left {R : α → β → Prop} {xs : List α} {ys : List β} (h : List.Forall₂ R xs ys) :
    ∀ x ∈ xs, ∃ y ∈ ys, R x y := by
  induction h with
  | nil => simp
  | cons hxy _ ih =>
    rw [List.forall_mem_cons]
    refine ⟨⟨_, List.mem_cons_self, hxy⟩, fun x hx => ?_⟩
    obtain ⟨y, hy, hR⟩ := ih x hx
    exact ⟨y, List.mem_cons_of_mem _ hy, hR⟩

theorem except_map_eq_ok {x : Except ε α} {f : α → β} {b : β} (h : x.map f = .ok b) :
    ∃ a, x = .ok a ∧ f a = b := by
  cases x with
  | error e => cases h
  | ok a => exact ⟨a, rfl, Except.ok.inj h⟩

/-- **When a loop raises only what is expected**: no step that it reaches raises anything else. A
step raises unexpectedly where `bad` holds, and else as expected where `stop` holds. -/
theorem mapM_raises_iff {f : α → Except ε β} {expected : ε → Prop} (bad stop : α → Prop)
    (hbad : ∀ x, bad x → ∃ e, f x = .error e ∧ ¬ expected e)
    (hstop : ∀ x, ¬ bad x → stop x → ∃ e, f x = .error e ∧ expected e)
    (hgo : ∀ x, ¬ bad x → ¬ stop x → ∃ y, f x = .ok y) (xs : List α) :
    (∀ e, xs.mapM f = .error e → expected e) ↔
      ∀ front x back, xs = front ++ x :: back → (∀ y ∈ front, ¬ stop y) → ¬ bad x := by
  induction xs with
  | nil =>
    refine iff_of_true (fun e h => by cases h) fun front x back h => ?_
    exact absurd h.symm (by simp)
  | cons x xs ih =>
    rw [List.mapM_cons]
    by_cases hb : bad x
    · obtain ⟨e, he, hunexpected⟩ := hbad x hb
      refine iff_of_false (fun h => ?_) fun h => ?_
      · exact hunexpected (h e (by rw [he]; rfl))
      · exact h [] x xs rfl (by simp) hb
    · by_cases hs : stop x
      · obtain ⟨e, he, hexpected⟩ := hstop x hb hs
        rw [he]
        refine iff_of_true (fun e' h => ?_) fun front y back h hfront => ?_
        · cases h
          exact hexpected
        · cases front with
          | nil =>
            obtain ⟨rfl, -⟩ := List.cons.inj h
            exact hb
          | cons z front =>
            obtain ⟨rfl, -⟩ := List.cons.inj h
            exact absurd hs (hfront x (by simp))
      · obtain ⟨y, hy⟩ := hgo x hb hs
        have htail : (∀ e, (f x >>= fun y => xs.mapM f >>= fun ys => pure (y :: ys)) = .error e →
            expected e) ↔ ∀ e, xs.mapM f = .error e → expected e := by
          rw [hy]
          cases hrest : xs.mapM f with
          | error e => exact Iff.rfl
          | ok ys => exact iff_of_true (fun e h => by cases h) fun e h => by cases h
        rw [htail, ih]
        constructor
        · intro h front z back heq hfront
          cases front with
          | nil =>
            obtain ⟨rfl, -⟩ := List.cons.inj heq
            exact hb
          | cons w front =>
            obtain ⟨rfl, hback⟩ := List.cons.inj heq
            rw [List.forall_mem_cons] at hfront
            exact h front z back hback hfront.2
        · intro h front z back heq hfront
          refine h (x :: front) z back (by rw [heq]; rfl) ?_
          rw [List.forall_mem_cons]
          exact ⟨hs, hfront⟩

end Loops

end Lubko.Lib
