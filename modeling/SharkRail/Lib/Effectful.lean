import Mathlib

/-!
# Programs that change a state and may raise

What holds after a run of a program of `EStateM`: `Post x s Q E` says `Q` of the value and the state where the program returns from the
state `s`, and `E` of the exception and the state where it raises, so the state of a program that raised is spoken about too. What it says
of a program is what it says of its parts, one equivalence for each way to make a program; loops have a rule with an invariant, and `Keeps`
is the case that one predicate of the state holds before and after, either way.
-/

namespace Effectful

variable {ε σ α β : Type}

/-- What holds after a run from a state, whether it returns or raises. -/
def Post (x : EStateM ε σ α) (s : σ) (Q : α → σ → Prop) (E : ε → σ → Prop) : Prop :=
  match x s with
  | .ok a s' => Q a s'
  | .error e s' => E e s'

variable {x : EStateM ε σ α} {f : α → EStateM ε σ β} {s : σ} {Q Q' : α → σ → Prop} {E E' : ε → σ → Prop} {R : β → σ → Prop}

/-- A pure value leaves the state as it is. -/
@[simp] theorem post_pure (a : α) : Post (pure a) s Q E ↔ Q a s := Iff.rfl

/-- To raise leaves the state as it is. -/
@[simp] theorem post_throw (e : ε) : Post (throw e) s Q E ↔ E e s := Iff.rfl

/-- To read the state gives the state. -/
@[simp] theorem post_get {R : σ → σ → Prop} : Post get s R E ↔ R s s := Iff.rfl

/-- A write of the state gives what it writes. -/
@[simp] theorem post_modify {R : Unit → σ → Prop} (g : σ → σ) : Post (modify g) s R E ↔ R () (g s) := Iff.rfl

/-- A sequence: what holds after its first part makes its second part hold what is asked. -/
@[simp] theorem post_bind : Post (x >>= f) s R E ↔ Post x s (fun a s' => Post (f a) s' R E) E := by
  unfold Post
  change (match EStateM.bind x f s with | .ok a s' => R a s' | .error e s' => E e s') ↔ _
  unfold EStateM.bind
  cases x s with
  | ok a s' => exact Iff.rfl
  | error e s' => exact Iff.rfl

/-- A handler goes on from the state that the exception left. -/
@[simp] theorem post_tryCatch {handler : ε → EStateM ε σ α} :
    Post (tryCatch x handler) s Q E ↔ Post x s Q fun e s' => Post (handler e) s' Q E := by
  unfold Post
  change (match EStateM.tryCatch x handler s with | .ok a s' => Q a s' | .error e s' => E e s') ↔ _
  unfold EStateM.tryCatch
  cases x s with
  | ok a s' => exact Iff.rfl
  | error e s' => exact Iff.rfl

/-- A function of the result is applied to what the run returns. -/
@[simp] theorem post_map {g : α → β} : Post (g <$> x) s R E ↔ Post x s (fun a s' => R (g a) s') E := by
  unfold Post
  change (match EStateM.map g x s with | .ok a s' => R a s' | .error e s' => E e s') ↔ _
  unfold EStateM.map
  cases x s with
  | ok a s' => exact Iff.rfl
  | error e s' => exact Iff.rfl

/-- A conditional runs the branch that it takes. -/
@[simp] theorem post_ite {c : Prop} [Decidable c] {y : EStateM ε σ α} :
    Post (if c then x else y) s Q E ↔ (c → Post x s Q E) ∧ (¬c → Post y s Q E) := by
  by_cases h : c
  · simp [h]
  · simp [h]

/-- What a run satisfies, everything weaker holds of as well. -/
theorem Post.mono (h : Post x s Q E) (hQ : ∀ a s', Q a s' → Q' a s') (hE : ∀ e s', E e s' → E' e s') : Post x s Q' E' := by
  unfold Post at h ⊢
  cases hx : x s with
  | ok a s' =>
    rw [hx] at h
    exact hQ a s' h
  | error e s' =>
    rw [hx] at h
    exact hE e s' h

/-- Two results of one program hold together. -/
theorem Post.and (h : Post x s Q E) (h' : Post x s Q' E') : Post x s (fun a s' => Q a s' ∧ Q' a s') fun e s' => E e s' ∧ E' e s' := by
  unfold Post at h h' ⊢
  cases hx : x s with
  | ok a s' =>
    rw [hx] at h h'
    exact ⟨h, h'⟩
  | error e s' =>
    rw [hx] at h h'
    exact ⟨h, h'⟩

/-- A loop carries an invariant of the items that are left. -/
theorem Post.foldlM {ι : Type} {g : β → ι → EStateM ε σ β} {I : List ι → β → σ → Prop} {items : List ι} {b : β}
    (hstep : ∀ i rest b s, I (i :: rest) b s → Post (g b i) s (I rest) E) (h : I items b s) : Post (items.foldlM g b) s (I []) E := by
  induction items generalizing b s with
  | nil => exact h
  | cons i rest ih =>
    rw [List.foldlM_cons, post_bind]
    exact (hstep i rest b s h).mono (fun b' s' h' => ih h') fun _ _ he => he

/-! ## What is kept -/

/-- A predicate of the state that a run keeps, whether it returns or raises. -/
def Keeps (I : σ → Prop) (x : EStateM ε σ α) : Prop := ∀ s, I s → Post x s (fun _ => I) fun _ => I

variable {I : σ → Prop}

/-- A pure value keeps every predicate. -/
theorem keeps_pure (a : α) : Keeps I (pure a : EStateM ε σ α) := fun _ h => h

/-- To raise keeps every predicate. -/
theorem keeps_throw (e : ε) : Keeps I (throw e : EStateM ε σ α) := fun _ h => h

/-- A write keeps what the written state keeps. -/
theorem keeps_modify {g : σ → σ} (h : ∀ s, I s → I (g s)) : Keeps I (modify g : EStateM ε σ Unit) := fun s hs => h s hs

/-- Two runs, one after the other, keep what both keep. -/
theorem Keeps.bind (hx : Keeps I x) (hf : ∀ a, Keeps I (f a)) : Keeps I (x >>= f) :=
  fun s h => post_bind.mpr ((hx s h).mono (fun a s' h' => hf a s' h') fun _ _ h' => h')

/-- What is read of the state may be used. -/
theorem keeps_get_bind {f : σ → EStateM ε σ α} (hf : ∀ s, I s → Post (f s) s (fun _ => I) fun _ => I) : Keeps I (get >>= f) :=
  fun s h => post_bind.mpr (post_get.mpr (hf s h))

/-- A handled run keeps what it and its handler keep. -/
theorem Keeps.tryCatch {handler : ε → EStateM ε σ α} (hx : Keeps I x) (hhandler : ∀ e, Keeps I (handler e)) :
    Keeps I (tryCatch x handler) :=
  fun s h => post_tryCatch.mpr ((hx s h).mono (fun _ _ h' => h') fun e s' h' => hhandler e s' h')

/-- A function of the result changes nothing of what is kept. -/
theorem Keeps.map {g : α → β} (hx : Keeps I x) : Keeps I (g <$> x) :=
  fun s h => post_map.mpr ((hx s h).mono (fun _ _ h' => h') fun _ _ h' => h')

/-- A conditional keeps what both branches keep. -/
theorem Keeps.ite {c : Prop} [Decidable c] {y : EStateM ε σ α} (hx : Keeps I x) (hy : Keeps I y) : Keeps I (if c then x else y) :=
  fun s h => post_ite.mpr ⟨fun _ => hx s h, fun _ => hy s h⟩

/-- A loop keeps what each of its turns keeps. -/
theorem keeps_foldlM {ι : Type} {g : β → ι → EStateM ε σ β} (hg : ∀ b i, Keeps I (g b i)) (items : List ι) (b : β) :
    Keeps I (items.foldlM g b) :=
  fun _ h => Post.foldlM (fun i _ b s h' => hg b i s h') h

/-! ## What is raised -/

/-- Every exception that a run raises satisfies a predicate. -/
def Raises (P : ε → Prop) (x : EStateM ε σ α) : Prop := ∀ s, Post x s (fun _ _ => True) fun e _ => P e

variable {P P' : ε → Prop}

/-- Two runs, one after the other, raise what one of them raises. -/
theorem Raises.bind (hx : Raises P x) (hf : ∀ a, Raises P (f a)) : Raises P (x >>= f) :=
  fun s => post_bind.mpr ((hx s).mono (fun a s' _ => hf a s') fun _ _ h => h)

/-- A handled run raises what its handler raises. -/
theorem Raises.tryCatch {handler : ε → EStateM ε σ α} (hx : Raises P x) (hhandler : ∀ e, P e → Raises P' (handler e)) :
    Raises P' (tryCatch x handler) :=
  fun s => post_tryCatch.mpr ((hx s).mono (fun _ _ _ => trivial) fun e s' h => hhandler e h s')

/-- A function of the result changes nothing of what is raised. -/
theorem Raises.map {g : α → β} (hx : Raises P x) : Raises P (g <$> x) :=
  fun s => post_map.mpr ((hx s).mono (fun _ _ _ => trivial) fun _ _ h => h)

/-- A conditional raises what one of its branches raises. -/
theorem Raises.ite {c : Prop} [Decidable c] {y : EStateM ε σ α} (hx : Raises P x) (hy : Raises P y) : Raises P (if c then x else y) :=
  fun s => post_ite.mpr ⟨fun _ => hx s, fun _ => hy s⟩

end Effectful
