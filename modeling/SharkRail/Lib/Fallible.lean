import Mathlib

/-!
# Computations that may fail

What a sequence and a loop of fallible computations did, once they returned. The loop rules carry an invariant over the items
that are left, and read the loop as a sequence of related states.
-/

namespace Fallible

universe u

variable {ε : Type*} {α β σ : Type u}

/-- A sequence that returned returned at every stage. -/
theorem bind_eq_ok {x : Except ε α} {f : α → Except ε β} {b : β} :
    (x >>= f) = .ok b ↔ ∃ a, x = .ok a ∧ f a = .ok b := by
  cases x with
  | error e => simp [bind, Except.bind]
  | ok a => simp [bind, Except.bind]

/-- A check that returned, and what came after it. -/
theorem check_eq_ok {β : Type} {x : Except ε Unit} {f : Unit → Except ε β} {b : β} :
    (x >>= f) = .ok b ↔ x = .ok () ∧ f () = .ok b := by
  rw [bind_eq_ok]
  exact ⟨fun ⟨_, h⟩ => h, fun h => ⟨(), h⟩⟩

theorem pure_eq_ok {a b : α} : (pure a : Except ε α) = .ok b ↔ a = b := by simp [pure, Except.pure]

/-- A loop of checks returned if and only if every check did. -/
theorem forM_eq_ok {α : Type} {check : α → Except ε Unit} {items : List α} :
    items.forM check = .ok () ↔ ∀ item ∈ items, check item = .ok () := by
  induction items with
  | nil => exact iff_of_true rfl nofun
  | cons item items ih =>
    have hcons : (item :: items).forM check = (check item >>= fun _ => items.forM check) := rfl
    rw [hcons, check_eq_ok, ih, List.forall_mem_cons]

theorem throw_ne_ok {e : ε} {b : α} : (throw e : Except ε α) ≠ .ok b := nofun

/-- A computation whose errors are renamed returns what it returned. -/
theorem mapError_eq_ok {ε' : Type*} {x : Except ε α} {f : ε → ε'} {a : α} : x.mapError f = .ok a ↔ x = .ok a := by
  cases x <;> simp [Except.mapError]

theorem mapError_ok {ε' : Type*} {f : ε → ε'} (a : α) : (Except.ok a : Except ε α).mapError f = .ok a := rfl

/-- A computation whose value passes a test returned that value. -/
theorem exists_of_toOption {x : Except ε α} {p : α → Bool} (h : x.toOption.any p = true) : ∃ a, x = .ok a ∧ p a = true := by
  cases x with
  | error e => simp [Except.toOption] at h
  | ok a => exact ⟨a, rfl, by simpa [Except.toOption] using h⟩

/-- A loop that returned: with `P` of the items left and the state kept by every turn, and `R` relating the states before and
after a turn, the loop ends in `P []` and went by steps of `R`. -/
theorem foldlM_ok {f : σ → α → Except ε σ} {P : List α → σ → Prop} {R : σ → σ → Prop}
    (hstep : ∀ a as s s', P (a :: as) s → f s a = .ok s' → P as s' ∧ Relation.ReflTransGen R s s') {as : List α} {s s' : σ}
    (h : P as s) (hf : as.foldlM f s = .ok s') : P [] s' ∧ Relation.ReflTransGen R s s' := by
  induction as generalizing s with
  | nil =>
    rw [List.foldlM_nil, pure_eq_ok] at hf
    subst hf
    exact ⟨h, .refl⟩
  | cons a as ih =>
    rw [List.foldlM_cons, bind_eq_ok] at hf
    obtain ⟨s₁, h₁, hf⟩ := hf
    obtain ⟨hP, hR⟩ := hstep a as s s₁ h h₁
    obtain ⟨hP', hR'⟩ := ih hP hf
    exact ⟨hP', hR.trans hR'⟩

/-- The same for a loop that cannot fail. -/
theorem foldl_rel {f : σ → α → σ} {P : List α → σ → Prop} {R : σ → σ → Prop}
    (hstep : ∀ a as s, P (a :: as) s → P as (f s a) ∧ Relation.ReflTransGen R s (f s a)) {as : List α} {s : σ}
    (h : P as s) : P [] (as.foldl f s) ∧ Relation.ReflTransGen R s (as.foldl f s) := by
  induction as generalizing s with
  | nil => exact ⟨h, .refl⟩
  | cons a as ih =>
    obtain ⟨hP, hR⟩ := hstep a as s h
    obtain ⟨hP', hR'⟩ := ih hP
    exact ⟨hP', hR.trans hR'⟩

/-! ## Exceptions -/

/-- A computation that raises raises an exception of the kind `P`. -/
def OnlyRaises (P : ε → Prop) (x : Except ε α) : Prop := ∀ e, x = .error e → P e

variable {P : ε → Prop}

theorem onlyRaises_pure (a : α) : OnlyRaises P (pure a : Except ε α) := nofun

theorem onlyRaises_throw {e : ε} (h : P e) : OnlyRaises P (throw e : Except ε α) := by
  intro e' he
  cases he
  exact h

/-- A sequence raises what its first part raises, and what the rest raises after it returned. -/
theorem bind_eq_error {x : Except ε α} {f : α → Except ε β} {e : ε} :
    (x >>= f) = .error e ↔ x = .error e ∨ ∃ a, x = .ok a ∧ f a = .error e := by
  cases x with
  | error e' => simp [bind, Except.bind]
  | ok a => simp [bind, Except.bind]

/-- What comes after a computation may count on the value that it returned. -/
theorem OnlyRaises.bind_of {x : Except ε α} {f : α → Except ε β} (hx : OnlyRaises P x) (hf : ∀ a, x = .ok a → OnlyRaises P (f a)) :
    OnlyRaises P (x >>= f) := by
  intro e he
  rcases bind_eq_error.1 he with he | ⟨a, ha, he⟩
  · exact hx e he
  · exact hf a ha e he

theorem OnlyRaises.mapError {ε' : Type*} {P : ε' → Prop} {f : ε → ε'} {x : Except ε α} (hx : OnlyRaises (fun e => P (f e)) x) :
    OnlyRaises P (x.mapError f) := by
  cases x with
  | ok a => exact nofun
  | error e => exact onlyRaises_throw (hx e rfl)

theorem OnlyRaises.ite {c : Prop} [Decidable c] {x y : Except ε α} (hx : OnlyRaises P x) (hy : OnlyRaises P y) :
    OnlyRaises P (if c then x else y) := by
  split
  · exact hx
  · exact hy

theorem OnlyRaises.bind {x : Except ε α} {f : α → Except ε β} (hx : OnlyRaises P x) (hf : ∀ a, OnlyRaises P (f a)) :
    OnlyRaises P (x >>= f) :=
  hx.bind_of fun a _ => hf a

end Fallible
