/-
Steps that can fail, one after the other. Where it is known how each step of a chain or of a list
fails, the whole fails as the first of them does, and it succeeds when none of them can fail.
-/
import Mathlib.Data.List.Forall2

namespace TradeWatch

variable {ε α β γ : Type}

/-! ## Steps that succeed -/

theorem bind_eq_ok_iff {x : Except ε α} {f : α → Except ε β} {b : β} :
    (x >>= f) = .ok b ↔ ∃ a, x = .ok a ∧ f a = .ok b := by
  cases x with
  | error e =>
    constructor
    · intro h
      cases h
    · rintro ⟨a, h, -⟩
      cases h
  | ok a =>
    constructor
    · exact fun h => ⟨a, rfl, h⟩
    · rintro ⟨a', h, hf⟩
      cases h
      exact hf

theorem map_eq_ok_iff {x : Except ε α} {f : α → β} {b : β} :
    x.map f = .ok b ↔ ∃ a, x = .ok a ∧ f a = b := by
  cases x with
  | error e => simp [Except.map]
  | ok a => simp [Except.map]

theorem mapM_eq_ok_iff {f : α → Except ε β} {xs : List α} {ys : List β} :
    xs.mapM f = .ok ys ↔ List.Forall₂ (fun x y => f x = .ok y) xs ys := by
  induction xs generalizing ys with
  | nil =>
    rw [List.forall₂_nil_left_iff, List.mapM_nil]
    exact ⟨fun h => (Except.ok.inj h).symm, fun h => h ▸ rfl⟩
  | cons x xs ih =>
    rw [List.mapM_cons, bind_eq_ok_iff, List.forall₂_cons_left_iff]
    constructor
    · rintro ⟨y, hy, h⟩
      obtain ⟨rest, hrest, h⟩ := bind_eq_ok_iff.1 h
      cases h
      exact ⟨y, rest, hy, ih.1 hrest, rfl⟩
    · rintro ⟨y, rest, hy, hrest, rfl⟩
      exact ⟨y, hy, bind_eq_ok_iff.2 ⟨rest, ih.2 hrest, rfl⟩⟩

theorem length_of_mapM_eq_ok {f : α → Except ε β} {xs : List α} {ys : List β}
    (h : xs.mapM f = .ok ys) : ys.length = xs.length :=
  (mapM_eq_ok_iff.1 h).length_eq.symm

/-! ## The first failure -/

/-- Something in the list fails with this fault, and nothing before it fails at all. -/
def FirstFailure (Fails : α → ε → Prop) (xs : List α) (e : ε) : Prop :=
  ∃ before x after, xs = before ++ x :: after ∧ (∀ y ∈ before, ∀ e', ¬ Fails y e') ∧ Fails x e

variable {Fails : α → ε → Prop} {x : α} {xs : List α} {e : ε}

theorem not_firstFailure_nil : ¬ FirstFailure Fails [] e := by
  rintro ⟨before, x, after, h, -, -⟩
  exact List.append_ne_nil_of_right_ne_nil before (List.cons_ne_nil x after) h.symm

theorem firstFailure_cons :
    FirstFailure Fails (x :: xs) e ↔
      Fails x e ∨ (∀ e', ¬ Fails x e') ∧ FirstFailure Fails xs e := by
  constructor
  · rintro ⟨before, y, after, heq, hbefore, hy⟩
    cases before with
    | nil =>
      obtain ⟨rfl, -⟩ := List.cons.inj heq
      exact .inl hy
    | cons z before =>
      obtain ⟨rfl, rfl⟩ := List.cons.inj heq
      exact .inr ⟨hbefore x List.mem_cons_self, before, y, after, rfl,
        fun w hw => hbefore w (List.mem_cons_of_mem _ hw), hy⟩
  · rintro (hx | ⟨hx, before, y, after, rfl, hbefore, hy⟩)
    · exact ⟨[], x, xs, rfl, fun y hy => absurd hy List.not_mem_nil, hx⟩
    · refine ⟨x :: before, y, after, rfl, fun z hz => ?_, hy⟩
      rcases List.mem_cons.1 hz with rfl | hz
      · exact hx
      · exact hbefore z hz

/-- There is a first failure as soon as something fails. -/
theorem exists_firstFailure_iff :
    (∃ e, FirstFailure Fails xs e) ↔ ∃ x ∈ xs, ∃ e, Fails x e := by
  induction xs with
  | nil =>
    constructor
    · rintro ⟨e, h⟩
      exact absurd h not_firstFailure_nil
    · rintro ⟨x, hx, -⟩
      exact absurd hx List.not_mem_nil
  | cons x xs ih =>
    simp only [firstFailure_cons, List.mem_cons, exists_eq_or_imp, ← ih]
    constructor
    · rintro ⟨e, hx | ⟨-, hxs⟩⟩
      · exact .inl ⟨e, hx⟩
      · exact .inr ⟨e, hxs⟩
    · rintro (⟨e, hx⟩ | ⟨e, hxs⟩)
      · exact ⟨e, .inl hx⟩
      · by_cases hx : ∃ e', Fails x e'
        · obtain ⟨e', hx⟩ := hx
          exact ⟨e', .inl hx⟩
        · exact ⟨e, .inr ⟨not_exists.1 hx, hxs⟩⟩

theorem firstFailure_congr {Fails' : α → ε → Prop} (h : ∀ x ∈ xs, ∀ e, Fails x e ↔ Fails' x e) :
    FirstFailure Fails xs e ↔ FirstFailure Fails' xs e := by
  induction xs with
  | nil => exact iff_of_false not_firstFailure_nil not_firstFailure_nil
  | cons x xs ih =>
    rw [firstFailure_cons, firstFailure_cons, ih fun y hy => h y (List.mem_cons_of_mem _ hy)]
    simp only [h x List.mem_cons_self]

theorem firstFailure_map {f : γ → α} {zs : List γ} :
    FirstFailure Fails (zs.map f) e ↔ FirstFailure (fun z => Fails (f z)) zs e := by
  induction zs with
  | nil => exact iff_of_false not_firstFailure_nil not_firstFailure_nil
  | cons z zs ih => rw [List.map_cons, firstFailure_cons, firstFailure_cons, ih]

/-! ## Chains of steps -/

theorem map_eq_error_iff {r : Except ε β} {f : β → γ} {e : ε} :
    r.map f = .error e ↔ r = .error e := by
  cases r with
  | error e' => simp [Except.map]
  | ok b => simp [Except.map]

/-- A step in front of others fails as it does itself, or else as they do. -/
theorem bind_eq_error_iff {r : Except ε β} {f : β → Except ε γ}
    (hr : ∀ e, r = .error e ↔ Fails x e) (hf : ∀ b e, f b = .error e ↔ FirstFailure Fails xs e)
    (e : ε) : (r >>= f) = .error e ↔ FirstFailure Fails (x :: xs) e := by
  rw [firstFailure_cons, ← hr]
  cases r with
  | error e' =>
    constructor
    · intro h
      cases h
      exact .inl rfl
    · rintro (h | ⟨h, -⟩)
      · cases h
        rfl
      · exact absurd ((hr e').1 rfl) (h e')
  | ok b =>
    have hx : ∀ e', ¬ Fails x e' := fun e' h => by cases (hr e').2 h
    rw [show (Except.ok b >>= f) = f b from rfl, hf]
    constructor
    · exact fun h => .inr ⟨hx, h⟩
    · rintro (h | ⟨-, h⟩)
      · cases h
      · exact h

/-! ## Lists of steps -/

theorem mapM_eq_error_iff {f : α → Except ε β} (e : ε) :
    xs.mapM f = .error e ↔ FirstFailure (fun x e => f x = .error e) xs e := by
  induction xs generalizing e with
  | nil => exact iff_of_false (by simp [pure, Except.pure]) not_firstFailure_nil
  | cons x xs ih =>
    rw [List.mapM_cons]
    refine bind_eq_error_iff (fun _ => Iff.rfl) (fun y e => ?_) e
    rw [← ih]
    cases xs.mapM f with
    | error e' => exact Iff.rfl
    | ok ys => simp [pure, Except.pure, Bind.bind, Except.bind]

end TradeWatch
