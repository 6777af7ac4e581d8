import Mathlib

/-!
# POSIX paths

A path by its root and its parts, as it is read from a text and written back. Repeated slashes and the parts `.` are dropped, two leading
slashes are a root of their own, and a part `..` stays.
-/

/-- A part of a path: it is not empty, not the directory itself, and holds no slash. -/
def IsPart (part : String) : Prop := part ≠ "" ∧ part ≠ "." ∧ '/' ∉ part.toList

instance (part : String) : Decidable (IsPart part) := inferInstanceAs (Decidable (_ ∧ _ ∧ _))

/-- A path; its root is none, one slash or two. -/
structure PosixPath where
  root : ℕ
  parts : List String
  root_le : root ≤ 2
  isPart : ∀ part ∈ parts, IsPart part
  deriving DecidableEq

namespace PosixPath

/-- The slashes of the root of a text with that many leading slashes. -/
def rootOf (slashes : ℕ) : ℕ := if slashes = 2 then 2 else min slashes 1

/-- The parts between the slashes of a text. -/
def partsOf (text : List Char) : List String := ((text.splitOn '/').map String.ofList).filter fun part => decide (IsPart part)

/-- `Path(text)`. -/
def ofText (text : String) : PosixPath where
  root := rootOf (text.toList.takeWhile (· = '/')).length
  parts := partsOf text.toList
  root_le := by
    unfold rootOf
    split <;> omega
  isPart := by
    intro part hpart
    simpa using (List.mem_filter.1 hpart).2

/-- `str(path)`. -/
def text (path : PosixPath) : String :=
  if path.root = 0 ∧ path.parts = [] then "."
  else String.ofList (List.replicate path.root '/' ++ ['/'].intercalate (path.parts.map String.toList))

def isAbsolute (path : PosixPath) : Bool := path.root ≠ 0

/-- `path.parent`: a root is its own parent. -/
def parent (path : PosixPath) : PosixPath where
  root := path.root
  parts := path.parts.dropLast
  root_le := path.root_le
  isPart part hpart := path.isPart part (List.dropLast_subset _ hpart)

/-- `path / other`: an absolute path takes the place of the one it is joined to. -/
def join (path other : PosixPath) : PosixPath :=
  if other.isAbsolute then other
  else
    { root := path.root
      parts := path.parts ++ other.parts
      root_le := path.root_le
      isPart := by
        intro part hpart
        rcases List.mem_append.1 hpart with h | h
        · exact path.isPart part h
        · exact other.isPart part h }

/-! ## A path is read back from its text -/

theorem partsOf_slash (text : List Char) : partsOf ('/' :: text) = partsOf text := by
  have hsplit : ('/' :: text).splitOn '/' = [] :: text.splitOn '/' := List.splitOn_append_cons_self [] text
  unfold partsOf
  rw [hsplit, List.map_cons, List.filter_cons_of_neg (by decide)]

theorem partsOf_replicate (n : ℕ) (text : List Char) : partsOf (List.replicate n '/' ++ text) = partsOf text := by
  induction n with
  | zero => rfl
  | succ n ih => rw [List.replicate_succ, List.cons_append, partsOf_slash, ih]

/-- The parts of a joined text are the ones that were joined. -/
theorem partsOf_intercalate {parts : List String} (hparts : ∀ part ∈ parts, IsPart part) :
    partsOf (['/'].intercalate (parts.map String.toList)) = parts := by
  by_cases hnil : parts = []
  · subst hnil
    decide
  · unfold partsOf
    rw [List.splitOn_intercalate]
    · rw [List.map_map, List.filter_eq_self.2]
      · simp
      · intro part hpart
        simpa using hparts part (by simpa using hpart)
    · intro chars hchars
      obtain ⟨part, hpart, rfl⟩ := List.mem_map.1 hchars
      exact (hparts part hpart).2.2
    · simpa using hnil

/-- A joined text starts with no slash. -/
theorem takeWhile_intercalate {parts : List String} (hparts : ∀ part ∈ parts, IsPart part) :
    (['/'].intercalate (parts.map String.toList)).takeWhile (· = '/') = [] := by
  cases parts with
  | nil => rfl
  | cons part parts =>
    obtain ⟨hempty, -, hslash⟩ := hparts part List.mem_cons_self
    cases hchars : part.toList with
    | nil => exact absurd (String.toList_eq_nil_iff.1 hchars) hempty
    | cons c chars =>
      have hc : c ≠ '/' := by
        rintro rfl
        exact hslash (by simp [hchars])
      cases parts with
      | nil => simp [List.intercalate, hchars, hc]
      | cons next parts => simp [List.intercalate, hchars, hc]

theorem rootOf_of_le {n : ℕ} (h : n ≤ 2) : rootOf n = n := by
  unfold rootOf
  split <;> omega

/-- `Path(str(path))` is the path. -/
theorem ofText_text (path : PosixPath) : ofText path.text = path := by
  obtain ⟨root, parts, hroot, hparts⟩ := path
  by_cases hempty : root = 0 ∧ parts = []
  · have htext : text ⟨root, parts, hroot, hparts⟩ = "." := by simp [text, hempty]
    obtain ⟨rfl, rfl⟩ := hempty
    rw [htext]
    simp only [ofText, mk.injEq]
    exact ⟨by decide, by decide⟩
  · have htext : (text ⟨root, parts, hroot, hparts⟩).toList =
        List.replicate root '/' ++ ['/'].intercalate (parts.map String.toList) := by
      simp [text, hempty]
    have hslashes : (text ⟨root, parts, hroot, hparts⟩).toList.takeWhile (· = '/') = List.replicate root '/' := by
      rw [htext, List.takeWhile_append_of_pos (by simp), takeWhile_intercalate hparts, List.append_nil]
    simp only [ofText, mk.injEq]
    constructor
    · rw [hslashes, List.length_replicate, rootOf_of_le hroot]
    · rw [htext, partsOf_replicate, partsOf_intercalate hparts]

end PosixPath
