import Mathlib

/-!
# Bounded semaphores

`threading.BoundedSemaphore`. A slot is named by the number of acquisitions before it: the semaphore itself counts and knows no names, so
a name only says which acquisition a release answers. What is held accounts for a semaphore (`Accounts`) when every slot that was acquired
is held or was released, once; acquiring, releasing and passing a slot on keep that.
-/

/-- A semaphore that is not released above its bound, with the number of its acquisitions and the slots that were released. -/
structure BoundedSemaphore where
  bound : ℕ
  value : ℕ
  acquired : ℕ := 0
  released : List ℕ := []

namespace BoundedSemaphore

/-- `BoundedSemaphore(bound)`. -/
def new (bound : ℕ) : BoundedSemaphore where
  bound := bound
  value := bound

/-- `acquire(blocking=False)`: the slot, `none` where there is none. -/
def acquire (s : BoundedSemaphore) : Option (ℕ × BoundedSemaphore) :=
  if s.value = 0 then none else some (s.acquired, { s with value := s.value - 1, acquired := s.acquired + 1 })

/-- `release()` of a slot, `none` where it raises `ValueError`. -/
def release (s : BoundedSemaphore) (slot : ℕ) : Option BoundedSemaphore :=
  if s.bound ≤ s.value then none else some { s with value := s.value + 1, released := s.released ++ [slot] }

variable {s s' : BoundedSemaphore} {held held' : List ℕ} {slot : ℕ}

/-- Every slot that was acquired is held or was released, once, and the others are free. -/
structure Accounts (held : List ℕ) (s : BoundedSemaphore) : Prop where
  free : s.value + held.length = s.bound
  once : (held ++ s.released).Perm (List.range s.acquired)

theorem accounts_new (bound : ℕ) : Accounts [] (new bound) := ⟨rfl, .refl _⟩

/-- The order in which slots are held does not count. -/
theorem Accounts.perm (h : Accounts held s) (hperm : held'.Perm held) : Accounts held' s := by
  refine ⟨?_, (hperm.append_right _).trans h.once⟩
  rw [hperm.length_eq]
  exact h.free

theorem Accounts.acquire (h : Accounts held s) (hacquire : s.acquire = some (slot, s')) : Accounts (slot :: held) s' := by
  unfold BoundedSemaphore.acquire at hacquire
  split at hacquire
  · cases hacquire
  · rename_i hvalue
    cases hacquire
    constructor
    · have hfree := h.free
      simp only [List.length_cons]
      omega
    · rw [List.range_succ]
      exact (h.once.cons _).trans (List.perm_append_singleton _ _).symm

/-- A slot that is held is released, and no release of it raises. -/
theorem Accounts.release (h : Accounts (slot :: held) s) : ∃ s', s.release slot = some s' ∧ Accounts held s' ∧ s'.bound = s.bound := by
  have hfree := h.free
  rw [List.length_cons] at hfree
  have hroom : ¬s.bound ≤ s.value := by omega
  refine ⟨_, if_neg hroom, ⟨?_, ?_⟩, rfl⟩
  · simp only
    omega
  · refine List.Perm.trans ?_ h.once
    rw [← List.append_assoc, List.cons_append]
    exact List.perm_append_singleton _ _

theorem bound_of_acquire (h : s.acquire = some (slot, s')) : s'.bound = s.bound := by
  unfold BoundedSemaphore.acquire at h
  split at h
  · cases h
  · cases h
    rfl

/-- Where nothing is acquired all slots are held. -/
theorem Accounts.full (h : Accounts held s) (hacquire : s.acquire = none) : held.length = s.bound := by
  unfold BoundedSemaphore.acquire at hacquire
  split at hacquire
  · rename_i hvalue
    have hfree := h.free
    omega
  · cases hacquire

/-- No slot is released twice, and none that is held was released. -/
theorem Accounts.nodup (h : Accounts held s) : (held ++ s.released).Nodup := h.once.nodup_iff.2 List.nodup_range

end BoundedSemaphore

/-! ## Holders -/

namespace List

variable {α β : Type*} {l : List α} {k : ℕ} {x : α}

/-- What the entries of a list hold, apart from one of them: it is held still when that entry is replaced or taken out. -/
theorem exists_flatMap_rest (f : α → List β) (h : l[k]? = some x) :
    ∃ rest, (l.flatMap f).Perm (f x ++ rest) ∧ (∀ y, ((l.set k y).flatMap f).Perm (f y ++ rest)) ∧
      ((l.eraseIdx k).flatMap f).Perm rest := by
  obtain ⟨hk, rfl⟩ := List.getElem?_eq_some_iff.1 h
  refine ⟨(l.take k).flatMap f ++ (l.drop (k + 1)).flatMap f, ?_, fun y => ?_, ?_⟩
  · have hsplit : l = l.take k ++ l[k] :: l.drop (k + 1) := by rw [List.getElem_cons_drop, List.take_append_drop]
    rw [congrArg (List.flatMap f) hsplit, List.flatMap_append, List.flatMap_cons]
    exact List.perm_append_comm_assoc _ _ _
  · rw [List.set_eq_take_append_cons_drop, if_pos hk, List.flatMap_append, List.flatMap_cons]
    exact List.perm_append_comm_assoc _ _ _
  · rw [List.eraseIdx_eq_take_drop_succ, List.flatMap_append]

end List
