import Mathlib

/-!
# Lines of a text

A text is a list of symbols, one of which ends a line. Its segments are what lies between two ends of a line, each with its own end; the
last one may have none (`segments_line`, `segments_last`). A reader takes a line in pieces of bounded length (`readline`): what it takes
and what it leaves are the text (`readline_append`), and it stops at the end of the line, at the bound, or at the end of the text
(`readline_body`).
-/

namespace Lines

variable {α : Type*} [DecidableEq α]

/-- The segments of a text, each with the symbol that ends it. -/
def segments (newline : α) : List α → List (List α)
  | [] => []
  | a :: text =>
    if a = newline then [a] :: segments newline text
    else
      match segments newline text with
      | [] => [[a]]
      | segment :: rest => (a :: segment) :: rest

/-- `readline(size)`: what is read, at most to the end of the line, and what is left. -/
def readline (newline : α) : ℕ → List α → List α × List α
  | 0, text => ([], text)
  | _ + 1, [] => ([], [])
  | size + 1, a :: text =>
    if a = newline then ([a], text) else (a :: (readline newline size text).1, (readline newline size text).2)

variable {newline : α} {body text : List α}

/-- The first symbol is a segment of its own, or it goes to the one that follows. -/
theorem segments_cons (newline a : α) (text : List α) :
    segments newline (a :: text) =
      if a = newline then [a] :: segments newline text
      else
        match segments newline text with
        | [] => [[a]]
        | segment :: rest => (a :: segment) :: rest := rfl

/-- A symbol is read, and more of the text after it unless it ends a line. -/
theorem readline_succ (newline a : α) (size : ℕ) (text : List α) :
    readline newline (size + 1) (a :: text) =
      if a = newline then ([a], text) else (a :: (readline newline size text).1, (readline newline size text).2) := rfl

/-- The segments of a text that starts with a line. -/
theorem segments_line (hbody : newline ∉ body) (text : List α) :
    segments newline (body ++ newline :: text) = (body ++ [newline]) :: segments newline text := by
  induction body with
  | nil => rw [List.nil_append, List.nil_append, segments_cons, if_pos rfl]
  | cons a body ih =>
    rw [List.mem_cons, not_or] at hbody
    rw [List.cons_append, segments_cons, if_neg (Ne.symm hbody.1), ih hbody.2]
    rfl

/-- A text without an end of a line is one segment. -/
theorem segments_last (htext : newline ∉ text) (hne : text ≠ []) : segments newline text = [text] := by
  induction text with
  | nil => exact absurd rfl hne
  | cons a text ih =>
    rw [List.mem_cons, not_or] at htext
    rw [segments_cons, if_neg (Ne.symm htext.1)]
    cases text with
    | nil => rfl
    | cons b text => rw [ih htext.2 (List.cons_ne_nil b text)]

/-- A text is empty, or it starts with a line, or it is a segment without an end. -/
theorem exists_segment (newline : α) (text : List α) :
    text = [] ∨ (∃ body rest, newline ∉ body ∧ text = body ++ newline :: rest) ∨ newline ∉ text ∧ text ≠ [] := by
  by_cases hmem : newline ∈ text
  · obtain ⟨body, rest, htext, hbody⟩ := List.eq_append_cons_of_mem hmem
    exact .inr (.inl ⟨body, rest, hbody, htext⟩)
  · by_cases hne : text = []
    · exact .inl hne
    · exact .inr (.inr ⟨hmem, hne⟩)

/-- Segments are proved about by the lines of the text. -/
theorem segments_induction {motive : List α → Prop} (newline : α) (nil : motive [])
    (line : ∀ body rest, newline ∉ body → motive rest → motive (body ++ newline :: rest))
    (last : ∀ text, newline ∉ text → text ≠ [] → motive text) (text : List α) : motive text := by
  induction h : text.length using Nat.strongRecOn generalizing text with
  | ind n ih =>
    rcases exists_segment newline text with rfl | ⟨body, rest, hbody, rfl⟩ | ⟨hmem, hne⟩
    · exact nil
    · have hlt : rest.length < n := by
        rw [← h, List.length_append, List.length_cons]
        omega
      exact line body rest hbody (ih rest.length hlt rest rfl)
    · exact last text hmem hne

/-- The segments are the text. -/
theorem flatten_segments (newline : α) (text : List α) : (segments newline text).flatten = text := by
  induction text using segments_induction newline with
  | nil => rfl
  | line body rest hbody ih => rw [segments_line hbody, List.flatten_cons, ih, List.append_assoc, List.singleton_append]
  | last text htext hne => rw [segments_last htext hne, List.flatten_singleton]

/-- Nothing is lost between what is read and what is left. -/
theorem readline_append (newline : α) (size : ℕ) (text : List α) :
    (readline newline size text).1 ++ (readline newline size text).2 = text := by
  induction text generalizing size with
  | nil => cases size <;> rfl
  | cons a text ih =>
    cases size with
    | zero => rfl
    | succ size =>
      rw [readline_succ]
      split
      · rfl
      · exact congrArg (a :: ·) (ih size)

/-- Where no line ends within the bound, the bound is read. -/
theorem readline_body (hbody : newline ∉ body) {size : ℕ} (hsize : size ≤ body.length) (text : List α) :
    readline newline size (body ++ text) = (body.take size, body.drop size ++ text) := by
  induction body generalizing size with
  | nil =>
    obtain rfl : size = 0 := Nat.le_zero.1 hsize
    rfl
  | cons a body ih =>
    rw [List.mem_cons, not_or] at hbody
    cases size with
    | zero => rfl
    | succ size =>
      rw [List.cons_append, readline_succ, if_neg (Ne.symm hbody.1), ih hbody.2 (Nat.le_of_succ_le_succ hsize)]
      rfl

/-- A line that is no longer than the bound is read whole. -/
theorem readline_line (hbody : newline ∉ body) {size : ℕ} (hsize : body.length < size) (text : List α) :
    readline newline size (body ++ newline :: text) = (body ++ [newline], text) := by
  induction body generalizing size with
  | nil =>
    cases size with
    | zero => cases hsize
    | succ size => rw [List.nil_append, List.nil_append, readline_succ, if_pos rfl]
  | cons a body ih =>
    rw [List.mem_cons, not_or] at hbody
    cases size with
    | zero => cases hsize
    | succ size =>
      rw [List.cons_append, readline_succ, if_neg (Ne.symm hbody.1), ih hbody.2 (Nat.lt_of_succ_lt_succ hsize)]
      rfl

/-- The rest of a text without an end is read whole where it is no longer than the bound. -/
theorem readline_last (htext : newline ∉ text) {size : ℕ} (hsize : text.length ≤ size) : readline newline size text = (text, []) := by
  induction text generalizing size with
  | nil => cases size <;> rfl
  | cons a text ih =>
    rw [List.mem_cons, not_or] at htext
    cases size with
    | zero => cases hsize
    | succ size =>
      rw [readline_succ, if_neg (Ne.symm htext.1), ih htext.2 (Nat.le_of_succ_le_succ hsize)]

/-- Nothing is read only at the end of the text. -/
theorem readline_eq_nil {size : ℕ} (h : (readline newline (size + 1) text).1 = []) : text = [] := by
  cases text with
  | nil => rfl
  | cons a text =>
    rw [readline_succ] at h
    split at h <;> cases h

end Lines
