import Mathlib

/-!
# Rings

A ring numbers what is pushed into it and keeps the newest items, up to its capacity. What it keeps is a suffix of everything that
was pushed (`push_holds`), so the items from a cursor on are all there unless the cursor is older than the ring (`items_from`).
-/

/-- An item with its number. -/
structure Numbered (α : Type*) where
  seq : Nat
  value : α
  deriving DecidableEq

/-- A ring of the newest items. -/
structure RingBuffer (α : Type*) where
  items : List (Numbered α) := []
  next : Nat := 0
  deriving DecidableEq

namespace RingBuffer

variable {α : Type*}

/-- The items of a list, numbered in their order from `n` on. -/
def numberedFrom : Nat → List α → List (Numbered α)
  | _, [] => []
  | n, a :: as => ⟨n, a⟩ :: numberedFrom (n + 1) as

/-- An item pushed into a full ring drives out the oldest one. -/
def push (capacity : Nat) (a : α) (r : RingBuffer α) : RingBuffer α :=
  let kept := if capacity ≤ r.items.length then r.items.tail else r.items
  { items := kept ++ [⟨r.next, a⟩], next := r.next + 1 }

/-- The number of the oldest item, or of the next one. -/
def first (r : RingBuffer α) : Nat := (r.items.head?.map (·.seq)).getD r.next

/-- The ring holds the newest of the items that were pushed, as many as fit. -/
structure Holds (capacity : Nat) (pushed : List α) (r : RingBuffer α) : Prop where
  next : r.next = pushed.length
  items : r.items = (numberedFrom 0 pushed).drop (pushed.length - min pushed.length capacity)

/-! ## Numbered items -/

@[simp] theorem numberedFrom_nil (n : Nat) : numberedFrom n ([] : List α) = [] := rfl

@[simp] theorem numberedFrom_cons (n : Nat) (a : α) (as : List α) : numberedFrom n (a :: as) = ⟨n, a⟩ :: numberedFrom (n + 1) as := rfl

@[simp] theorem length_numberedFrom (n : Nat) (as : List α) : (numberedFrom n as).length = as.length := by
  induction as generalizing n with
  | nil => rfl
  | cons a as ih => simp [ih]

theorem numberedFrom_append (n : Nat) (as bs : List α) :
    numberedFrom n (as ++ bs) = numberedFrom n as ++ numberedFrom (n + as.length) bs := by
  induction as generalizing n with
  | nil => rfl
  | cons a as ih =>
    have hlength : n + 1 + as.length = n + (as.length + 1) := by omega
    simp [ih, hlength]

theorem drop_numberedFrom (n k : Nat) (as : List α) : (numberedFrom n as).drop k = numberedFrom (n + k) (as.drop k) := by
  induction k generalizing n as with
  | zero => simp
  | succ k ih =>
    cases as with
    | nil => simp
    | cons a as =>
      have hnext : n + 1 + k = n + (k + 1) := by omega
      simp [ih, hnext]

theorem take_numberedFrom (n k : Nat) (as : List α) : (numberedFrom n as).take k = numberedFrom n (as.take k) := by
  induction k generalizing n as with
  | zero => simp
  | succ k ih =>
    cases as with
    | nil => simp
    | cons a as => simp [ih]

/-- The number after the last item. -/
theorem getLast?_numberedFrom (n : Nat) (as : List α) :
    ((numberedFrom n as).getLast?.map (·.seq + 1)).getD n = n + as.length := by
  cases hlast : as.reverse with
  | nil =>
    have has : as = [] := List.reverse_eq_nil_iff.1 hlast
    simp [has]
  | cons a as' =>
    have has : as = as'.reverse ++ [a] := by rw [← List.reverse_reverse as, hlast, List.reverse_cons]
    rw [has, numberedFrom_append]
    simp
    omega

/-- The numbers of the items are consecutive. -/
theorem map_seq_numberedFrom (n : Nat) (as : List α) : (numberedFrom n as).map (·.seq) = List.range' n as.length := by
  induction as generalizing n with
  | nil => rfl
  | cons a as ih => simp [ih, List.range'_succ]

/-- The items from a number on are a suffix. -/
theorem filter_numberedFrom (n c : Nat) (as : List α) :
    (numberedFrom n as).filter (fun e => c ≤ e.seq) = (numberedFrom n as).drop (c - n) := by
  induction as generalizing n with
  | nil => simp
  | cons a as ih =>
    by_cases hc : c ≤ n
    · have hall : ∀ e ∈ numberedFrom (n + 1) as, decide (c ≤ e.seq) = true := by
        intro e he
        have hseq : e.seq ∈ (numberedFrom (n + 1) as).map (·.seq) := List.mem_map_of_mem he
        rw [map_seq_numberedFrom, List.mem_range'_1] at hseq
        simp only [decide_eq_true_eq]
        omega
      have hzero : c - n = 0 := by omega
      rw [numberedFrom_cons, List.filter_cons_of_pos (by simpa using hc), List.filter_eq_self.2 hall, hzero, List.drop_zero]
    · have hsucc : c - n = (c - (n + 1)) + 1 := by omega
      rw [numberedFrom_cons, List.filter_cons_of_neg (by simpa using hc), ih, hsucc, List.drop_succ_cons]

/-! ## The ring -/

theorem holds_empty (capacity : Nat) : Holds capacity ([] : List α) {} := ⟨rfl, rfl⟩

theorem Holds.length {capacity : Nat} {pushed : List α} {r : RingBuffer α} (h : Holds capacity pushed r) :
    r.items.length = min pushed.length capacity := by
  rw [h.items, List.length_drop, length_numberedFrom]
  omega

/-- A push keeps the newest items, whatever it drives out. -/
theorem push_holds {capacity : Nat} {pushed : List α} {r : RingBuffer α} (hcapacity : 0 < capacity) (h : Holds capacity pushed r)
    (a : α) : Holds capacity (pushed ++ [a]) (r.push capacity a) := by
  refine ⟨by simp [push, h.next], ?_⟩
  have hlength := h.length
  have htail : r.items.tail = r.items.drop 1 := by simp
  unfold push
  dsimp only
  rw [h.next, numberedFrom_append, List.length_append, List.length_singleton, Nat.zero_add]
  by_cases hfull : capacity ≤ pushed.length
  · have hkept : capacity ≤ r.items.length := by omega
    have hdrop : pushed.length + 1 - min (pushed.length + 1) capacity = pushed.length - min pushed.length capacity + 1 := by
      omega
    rw [if_pos hkept, htail, h.items, List.drop_drop, hdrop, List.drop_append_of_le_length (by simp; omega)]
    rfl
  · have hkept : ¬capacity ≤ r.items.length := by omega
    have hdrop : pushed.length + 1 - min (pushed.length + 1) capacity = 0 := by omega
    have hall : pushed.length - min pushed.length capacity = 0 := by omega
    rw [if_neg hkept, h.items, hdrop, hall]
    rfl

/-- The oldest number in the ring. -/
theorem Holds.first {capacity : Nat} {pushed : List α} {r : RingBuffer α} (h : Holds capacity pushed r) (hcapacity : 0 < capacity) :
    r.first = pushed.length - min pushed.length capacity := by
  unfold RingBuffer.first
  rw [h.items, drop_numberedFrom, h.next]
  cases hdropped : pushed.drop (pushed.length - min pushed.length capacity) with
  | nil =>
    have hlength : (pushed.drop (pushed.length - min pushed.length capacity)).length = 0 := by rw [hdropped]; rfl
    rw [List.length_drop] at hlength
    simp only [numberedFrom_nil, List.head?_nil, Option.map_none, Option.getD_none]
    omega
  | cons a as => simp

/-- The newest item is there. -/
theorem Holds.newest {capacity : Nat} {pushed : List α} {r : RingBuffer α} (h : Holds capacity pushed r) (hcapacity : 0 < capacity)
    (hpushed : 0 < r.next) : ∃ e ∈ r.items, e.seq = r.next - 1 := by
  have hnext := h.next
  have hmem : r.next - 1 ∈ r.items.map (·.seq) := by
    rw [h.items, drop_numberedFrom, map_seq_numberedFrom, List.mem_range'_1, List.length_drop]
    omega
  simpa using hmem

/-- The items from a cursor on are everything pushed from there on, unless the cursor is older than the ring. -/
theorem items_from {capacity : Nat} {pushed : List α} {r : RingBuffer α} (h : Holds capacity pushed r) (hcapacity : 0 < capacity)
    {cursor : Nat} (hcursor : r.first ≤ cursor) :
    r.items.filter (fun e => cursor ≤ e.seq) = (numberedFrom 0 pushed).drop cursor := by
  rw [h.first hcapacity] at hcursor
  have hsuffix : ∀ k, ((numberedFrom 0 pushed).drop k).filter (fun e => cursor ≤ e.seq) =
      ((numberedFrom 0 pushed).drop k).drop (cursor - k) := by
    intro k
    rw [drop_numberedFrom, filter_numberedFrom, Nat.zero_add]
  have hsum : pushed.length - min pushed.length capacity + (cursor - (pushed.length - min pushed.length capacity)) = cursor := by
    omega
  rw [h.items, hsuffix, List.drop_drop, hsum]

end RingBuffer
