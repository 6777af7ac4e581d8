import Mathlib

/-!
# Tables

A table is the list of its rows, oldest first. A statement with a `WHERE` clause is a predicate and, for an `UPDATE`, a
function on the rows it meets. `total` sums a weight over a table; the `delta` of a statement is what its triggers add to a
counter of that total, row by row, and the counter stays right (`total_update`, `total_delete`, `total_insert`).
-/

namespace Table

variable {α : Type*} {κ : Type*}

/-- `UPDATE t SET f WHERE p`. -/
def update (p : α → Bool) (f : α → α) (t : List α) : List α := t.map fun r => if p r then f r else r

/-- `DELETE FROM t WHERE p`. -/
def delete (p : α → Bool) (t : List α) : List α := t.filter fun r => !p r

/-- `INSERT INTO t VALUES r`. -/
def insert (t : List α) (r : α) : List α := t ++ [r]

/-- `SELECT * FROM t WHERE p`. -/
def select (p : α → Bool) (t : List α) : List α := t.filter p

/-- `SELECT * FROM t WHERE p ORDER BY key`, rows with the same key oldest first. -/
def selectBy [LE κ] [DecidableLE κ] (key : α → κ) (p : α → Bool) (t : List α) : List α :=
  (select p t).insertionSort fun a b => key a ≤ key b

/-- The rows a statement with the clause `p` meets: `rowcount`. -/
def rowcount (p : α → Bool) (t : List α) : Nat := t.countP p

variable {p : α → Bool} {f : α → α} {t : List α} {r r' : α}

/-- An inserted row is in the table beside the others. -/
@[simp] theorem mem_insert : r' ∈ insert t r ↔ r' ∈ t ∨ r' = r := by simp [insert]

/-- The rows that are left do not satisfy the clause. -/
@[simp] theorem mem_delete : r ∈ delete p t ↔ r ∈ t ∧ p r = false := by simp [delete]

/-- The rows that are selected satisfy the clause. -/
@[simp] theorem mem_select : r ∈ select p t ↔ r ∈ t ∧ p r = true := by simp [select]

/-- An order leaves the rows that are selected. -/
@[simp] theorem mem_selectBy [LE κ] [DecidableLE κ] {key : α → κ} : r ∈ selectBy key p t ↔ r ∈ t ∧ p r = true := by
  simp [selectBy]

/-- The rows after an update are those before it, with those of the clause changed. -/
theorem mem_update : r' ∈ update p f t ↔ ∃ r ∈ t, (if p r then f r else r) = r' := List.mem_map

/-- A row an `UPDATE` does not meet stays in the table. -/
theorem mem_update_of_neg (hr : r ∈ t) (hp : p r = false) : r ∈ update p f t :=
  mem_update.2 ⟨r, hr, by simp [hp]⟩

/-- A row an `UPDATE` meets is replaced by what it is set to. -/
theorem mem_update_of_pos (hr : r ∈ t) (hp : p r = true) : f r ∈ update p f t :=
  mem_update.2 ⟨r, hr, by simp [hp]⟩

/-- A `DELETE` keeps the order of the columns that are left. -/
theorem sublist_map_delete {key : α → κ} : ((delete p t).map key).Sublist (t.map key) :=
  List.filter_sublist.map key

/-- A selection keeps a column unique, in whatever order. -/
theorem nodup_map_select {key : α → κ} (hn : (t.map key).Nodup) : ((select p t).map key).Nodup :=
  hn.sublist (List.filter_sublist.map key)

/-- The first of the rows in order has the least key of the rows that the clause meets. -/
theorem le_of_head?_selectBy [LinearOrder κ] {key : α → κ} (h : (selectBy key p t).head? = some r) (hr' : r' ∈ t) (hp : p r' = true) :
    key r ≤ key r' := by
  have hsorted : (selectBy key p t).Pairwise fun a b => key a ≤ key b :=
    List.pairwise_insertionSort (fun a b : α => key a ≤ key b) (select p t)
  have hmem : r' ∈ selectBy key p t := mem_selectBy.2 ⟨hr', hp⟩
  cases hrows : selectBy key p t with
  | nil =>
    rw [hrows] at h
    cases h
  | cons first rest =>
    rw [hrows] at h hmem hsorted
    cases h
    rcases List.mem_cons.1 hmem with rfl | hrest
    · exact le_refl _
    · exact (List.pairwise_cons.1 hsorted).1 r' hrest

/-- Rows of different keys have different ones when they are selected in an order. -/
theorem nodup_map_selectBy {ι : Type*} [LE ι] [DecidableLE ι] {order : α → ι} {key : α → κ} (hn : (t.map key).Nodup) :
    ((selectBy order p t).map key).Nodup :=
  (((List.perm_insertionSort _ _).map key).nodup_iff).2 (nodup_map_select hn)

/-- In a table of at most one row every column is unique. -/
theorem nodup_map_of_length_le_one {key : α → κ} (h : t.length ≤ 1) : (t.map key).Nodup := by
  match t, h with
  | [], _ => simp
  | [r], _ => simp

/-- With a column unique, two rows that agree on it are the same row. -/
theorem eq_of_key (key : α → κ) (hn : (t.map key).Nodup) (hr : r ∈ t) (hr' : r' ∈ t) (h : key r = key r') : r = r' :=
  List.inj_on_of_nodup_map hn hr hr' h

/-- With a column unique, the row found by its value is the row that has it. -/
theorem find?_key [DecidableEq κ] (key : α → κ) (hn : (t.map key).Nodup) (hr : r ∈ t) :
    t.find? (fun x => key x = key r) = some r := by
  cases h : t.find? (fun x => key x = key r) with
  | none =>
    rw [List.find?_eq_none] at h
    exact absurd (by simp) (h r hr)
  | some x =>
    have hx : key x = key r := by simpa using List.find?_some h
    rw [eq_of_key key hn (List.mem_of_find?_eq_some h) hr hx]

/-- A `WHERE` clause on a unique column meets one row, or none. -/
theorem rowcount_key [DecidableEq κ] {key : α → κ} (hn : (t.map key).Nodup) (hr : r ∈ t)
    (hp : ∀ x, p x = true → key x = key r) (hpr : p r = true) : rowcount p t = 1 := by
  induction t with
  | nil => simp at hr
  | cons x xs ih =>
    rw [List.map_cons, List.nodup_cons] at hn
    rcases List.mem_cons.1 hr with rfl | hr
    · have hxs : xs.countP p = 0 := by
        rw [List.countP_eq_zero]
        intro y hy hpy
        exact hn.1 (hp y hpy ▸ List.mem_map_of_mem hy)
      simp [rowcount, hpr, hxs]
    · have hx : p x = false := by
        by_contra hpx
        rw [Bool.not_eq_false] at hpx
        exact hn.1 (hp x hpx ▸ List.mem_map_of_mem hr)
      simpa [rowcount, hx] using ih hn.2 hr

/-- A selection by the value of a unique column is the row that has it. -/
theorem select_key [DecidableEq κ] {key : α → κ} (hn : (t.map key).Nodup) (hr : r ∈ t) :
    select (fun x => key x = key r) t = [r] := by
  have hmem : r ∈ select (fun x => key x = key r) t := mem_select.2 ⟨hr, by simp⟩
  have hcount : rowcount (fun x => key x = key r) t = 1 := rowcount_key hn hr (fun x hx => by simpa using hx) (by simp)
  rw [rowcount, List.countP_eq_length_filter, List.length_eq_one_iff] at hcount
  obtain ⟨x, hx⟩ := hcount
  rw [select, hx, List.mem_singleton] at hmem
  rw [select, hx, hmem]

/-- A statement meets some row exactly when its `rowcount` is not zero. -/
theorem rowcount_pos : 0 < rowcount p t ↔ ∃ r ∈ t, p r = true := by simp [rowcount, List.countP_pos_iff]

/-- No row is counted where none satisfies the clause. -/
theorem rowcount_eq_zero : rowcount p t = 0 ↔ ∀ r ∈ t, p r = false := by simp [rowcount, List.countP_eq_zero]

/-- An `UPDATE` that meets no row changes nothing. -/
theorem update_of_rowcount_eq_zero (h : rowcount p t = 0) : update p f t = t := by
  rw [rowcount_eq_zero] at h
  unfold update
  conv_rhs => rw [← List.map_id t]
  apply List.map_congr_left
  intro r hr
  simp [h r hr]

/-! ## Counters kept by triggers -/

variable (w : α → Int)

/-- The sum of a weight over the rows of a table. -/
def total (t : List α) : Int := (t.map w).sum

/-- What the triggers of an `UPDATE` add: for each row it meets, the new weight less the old one. -/
def updateDelta (p : α → Bool) (f : α → α) (t : List α) : Int := ((select p t).map fun r => w (f r) - w r).sum

/-- What the triggers of a `DELETE` take away. -/
def deleteDelta (p : α → Bool) (t : List α) : Int := total w (select p t)

variable {w}

/-- An empty table weighs nothing. -/
@[simp] theorem total_nil : total w [] = 0 := rfl

/-- A table weighs what its first row and the others do. -/
@[simp] theorem total_cons : total w (r :: t) = w r + total w t := by simp [total]

/-- Two tables weigh what both do. -/
theorem total_append {t' : List α} : total w (t ++ t') = total w t + total w t' := by simp [total]

/-- An inserted row adds its weight. -/
theorem total_insert : total w (insert t r) = total w t + w r := by simp [total, insert]

/-- An update adds what it changes of the weights. -/
theorem total_update : total w (update p f t) = total w t + updateDelta w p f t := by
  induction t with
  | nil => rfl
  | cons r t ih =>
    unfold update updateDelta select at *
    cases h : p r <;> simp [h, ih] <;> omega

/-- A deletion takes away the weights of its rows. -/
theorem total_delete : total w (delete p t) = total w t - deleteDelta w p t := by
  induction t with
  | nil => rfl
  | cons r t ih =>
    unfold delete deleteDelta select at *
    cases h : p r
    · simp [h, ih]
      omega
    · simp [h, ih]

/-- An `UPDATE` that meets no row adds nothing. -/
theorem updateDelta_of_rowcount_eq_zero (h : rowcount p t = 0) : updateDelta w p f t = 0 := by
  have hsel : select p t = [] := by
    rw [select, List.filter_eq_nil_iff]
    intro r hr
    simp [rowcount_eq_zero.1 h r hr]
  simp [updateDelta, hsel]

/-- With no negative weight, a `DELETE` takes no negative amount away. -/
theorem deleteDelta_nonneg (hw : ∀ r, 0 ≤ w r) : 0 ≤ deleteDelta w p t := by
  unfold deleteDelta total
  apply List.sum_nonneg
  intro x hx
  obtain ⟨r, _, rfl⟩ := List.mem_map.1 hx
  exact hw r

/-- With no negative weight, a `DELETE` that meets a row takes at least that row's weight away. -/
theorem le_deleteDelta (hw : ∀ r, 0 ≤ w r) (hr : r ∈ t) (hp : p r = true) : w r ≤ deleteDelta w p t := by
  unfold deleteDelta total
  apply List.single_le_sum
  · intro x hx
    obtain ⟨y, _, rfl⟩ := List.mem_map.1 hx
    exact hw y
  · exact List.mem_map_of_mem (mem_select.2 ⟨hr, hp⟩)

end Table
