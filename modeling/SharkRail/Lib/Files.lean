import Mathlib

/-!
# Directories and the effects on them

A tree of one level: named directories that hold named files. What a program does to it is a list of effects, one for each system
call, so a crash between two of them leaves what a prefix of the list did. An effect leaves every directory it does not name as it
was (`lookup_apply`), and so does a list of them, whole or cut off (`lookup_run`). What a file holds is read by its directory and
its name (`read`), with a rule for each effect on files.
-/

namespace Files

/-- The files of a directory. -/
abbrev Dir (φ β : Type) := AList fun _ : φ => β

/-- The directories of a tree. -/
abbrev Tree (δ φ β : Type) := AList fun _ : δ => Dir φ β

/-- What a system call does to a tree. -/
inductive Effect (δ φ β : Type) where
  | mkdir (d : δ)
  | write (d : δ) (f : φ) (data : β)
  | replaceFile (d : δ) (f f' : φ)
  | unlink (d : δ) (f : φ)
  | rmdir (d : δ)
  | replaceDir (d d' : δ)

variable {δ φ β : Type}

/-- The directories an effect names. -/
def Effect.names : Effect δ φ β → List δ
  | .mkdir d | .write d _ _ | .replaceFile d _ _ | .unlink d _ | .rmdir d => [d]
  | .replaceDir d d' => [d, d']

/-- Every file of a directory unlinked, and the directory removed. -/
def removal (d : δ) (files : Dir φ β) : List (Effect δ φ β) := files.keys.map (.unlink d) ++ [.rmdir d]

/-- A removal names the directory that it removes. -/
theorem names_removal {d : δ} {files : Dir φ β} {e : Effect δ φ β} (h : e ∈ removal d files) : e.names = [d] := by
  rw [removal, List.mem_append, List.mem_map, List.mem_singleton] at h
  rcases h with ⟨f, -, rfl⟩ | rfl <;> rfl

variable [DecidableEq δ]

/-- An effect on the files of one directory, if there is such a directory. -/
def onFiles (t : Tree δ φ β) (d : δ) (f : Dir φ β → Dir φ β) : Tree δ φ β :=
  match t.lookup d with
  | some files => t.insert d (f files)
  | none => t

/-- An effect on the files of a directory changes that directory. -/
theorem lookup_onFiles {t : Tree δ φ β} {d : δ} (f : Dir φ β → Dir φ β) : (onFiles t d f).lookup d = (t.lookup d).map f := by
  unfold onFiles
  cases h : t.lookup d with
  | none => simp [h]
  | some files => simp

/-- An effect on the files of a directory leaves the others. -/
theorem lookup_onFiles_ne {t : Tree δ φ β} {d d' : δ} (f : Dir φ β → Dir φ β) (hne : d' ≠ d) :
    (onFiles t d f).lookup d' = t.lookup d' := by
  unfold onFiles
  split
  · exact AList.lookup_insert_ne hne
  · rfl

variable [DecidableEq φ]

/-- The tree after an effect. A directory is removed when it is empty, and replaced by another one when it is not there. -/
def apply (t : Tree δ φ β) : Effect δ φ β → Tree δ φ β
  | .mkdir d => if (t.lookup d).isSome then t else t.insert d ∅
  | .write d f data => onFiles t d fun files => files.insert f data
  | .replaceFile d f f' => onFiles t d fun files =>
    match files.lookup f with
    | some data => (files.erase f).insert f' data
    | none => files
  | .unlink d f => onFiles t d fun files => files.erase f
  | .rmdir d => if (t.lookup d).any fun files => files.keys.isEmpty then t.erase d else t
  | .replaceDir d d' =>
    match t.lookup d, t.lookup d' with
    | some files, none => (t.erase d).insert d' files
    | _, _ => t

/-- The tree after a list of effects. -/
def run (t : Tree δ φ β) (effects : List (Effect δ φ β)) : Tree δ φ β := effects.foldl apply t

variable {t : Tree δ φ β} {d d' : δ} {effects : List (Effect δ φ β)}

/-- No effect leaves the tree. -/
@[simp] theorem run_nil : run t [] = t := rfl

/-- A list of effects is the first one and then the others. -/
@[simp] theorem run_cons (e : Effect δ φ β) : run t (e :: effects) = run (apply t e) effects := rfl

/-- Two lists of effects come one after the other. -/
theorem run_append (effects' : List (Effect δ φ β)) : run t (effects ++ effects') = run (run t effects) effects' :=
  List.foldl_append

/-- An effect leaves a directory that it does not name. -/
theorem lookup_apply {e : Effect δ φ β} (h : d' ∉ e.names) : (apply t e).lookup d' = t.lookup d' := by
  cases e with
  | mkdir d =>
    have hne : d' ≠ d := by simpa [Effect.names] using h
    simp only [apply]
    split
    · rfl
    · exact AList.lookup_insert_ne hne
  | write d f data => exact lookup_onFiles_ne _ (by simpa [Effect.names] using h)
  | replaceFile d f f' => exact lookup_onFiles_ne _ (by simpa [Effect.names] using h)
  | unlink d f => exact lookup_onFiles_ne _ (by simpa [Effect.names] using h)
  | rmdir d =>
    have hne : d' ≠ d := by simpa [Effect.names] using h
    simp only [apply]
    split
    · exact AList.lookup_erase_ne hne
    · rfl
  | replaceDir d₁ d₂ =>
    obtain ⟨h₁, h₂⟩ : d' ≠ d₁ ∧ d' ≠ d₂ := by simpa [Effect.names] using h
    simp only [apply]
    split
    · rw [AList.lookup_insert_ne h₂, AList.lookup_erase_ne h₁]
    · rfl

/-- A list of effects leaves a directory that none of them names. -/
theorem lookup_run (h : ∀ e ∈ effects, d' ∉ e.names) : (run t effects).lookup d' = t.lookup d' := by
  induction effects generalizing t with
  | nil => rfl
  | cons e effects ih =>
    have hrest : ∀ e' ∈ effects, d' ∉ e'.names := fun e' he' => h e' (List.mem_cons_of_mem _ he')
    rw [run_cons, ih hrest]
    exact lookup_apply (h e List.mem_cons_self)

/-- Unlinking every file of a directory leaves it empty. -/
theorem lookup_unlinks {files : Dir φ β} {keys : List φ} (hkeys : files.keys = keys) (h : t.lookup d = some files) :
    ∃ empty : Dir φ β, (run t (keys.map (.unlink d))).lookup d = some empty ∧ empty.keys = [] := by
  induction keys generalizing t files with
  | nil => exact ⟨files, h, hkeys⟩
  | cons f keys ih =>
    have herased : (files.erase f).keys = keys := by rw [AList.keys_erase, hkeys, List.erase_cons_head]
    refine ih herased ?_
    change (onFiles t d fun files => files.erase f).lookup d = some (files.erase f)
    rw [lookup_onFiles, h]
    rfl

/-- A removal removes its directory. -/
theorem lookup_removal {files : Dir φ β} (h : t.lookup d = some files) : (run t (removal d files)).lookup d = none := by
  obtain ⟨empty, hempty, hkeys⟩ := lookup_unlinks (d := d) rfl h
  rw [removal, run_append, run_cons, run_nil]
  simp [apply, hempty, hkeys]

/-- A prefix of a list of effects leaves what the whole list leaves. -/
theorem lookup_run_take (h : ∀ e ∈ effects, d' ∉ e.names) (n : Nat) : (run t (effects.take n)).lookup d' = t.lookup d' :=
  lookup_run fun e he => h e (List.mem_of_mem_take he)

/-! ## What a file holds -/

/-- What a file holds, if it is there. -/
def read (t : Tree δ φ β) (d : δ) (f : φ) : Option β := (t.lookup d).bind fun files => files.lookup f

variable {t' : Tree δ φ β} {f f' x : φ} {data : β}

/-- What a file holds depends on its directory only. -/
theorem read_congr (h : t'.lookup d = t.lookup d) (f : φ) : read t' d f = read t d f := by
  rw [read, read, h]

/-- A directory that is made is there. -/
theorem exists_mkdir : ((apply t (.mkdir d)).lookup d).isSome = true := by
  simp only [apply]
  split
  · assumption
  · rw [AList.lookup_insert]
    rfl

/-- A directory stays while its files are written or replaced. -/
theorem exists_write : ((apply t (.write d f data)).lookup d).isSome = (t.lookup d).isSome := by
  simp [apply, lookup_onFiles]

/-- A directory stays while one of its files is replaced. -/
theorem exists_replaceFile : ((apply t (.replaceFile d f f')).lookup d).isSome = (t.lookup d).isSome := by
  simp [apply, lookup_onFiles]

/-- A file that was written holds what was written. -/
theorem read_write (h : (t.lookup d).isSome = true) : read (apply t (.write d f data)) d f = some data := by
  obtain ⟨files, hfiles⟩ := Option.isSome_iff_exists.1 h
  simp [read, apply, lookup_onFiles, hfiles]

/-- The other files hold what they did. -/
theorem read_write_ne (hne : x ≠ f) : read (apply t (.write d f data)) d x = read t d x := by
  cases h : t.lookup d with
  | none => simp [read, apply, lookup_onFiles, h]
  | some files => simp [read, apply, lookup_onFiles, h, AList.lookup_insert_ne hne]

/-- A file that was renamed is there under its new name. -/
theorem read_replaceFile (h : read t d f = some data) : read (apply t (.replaceFile d f f')) d f' = some data := by
  obtain ⟨files, hfiles, hdata⟩ := Option.bind_eq_some_iff.1 h
  simp [read, apply, lookup_onFiles, hfiles, hdata]

/-- The files of other names hold what they did. -/
theorem read_replaceFile_ne (hne : x ≠ f) (hne' : x ≠ f') : read (apply t (.replaceFile d f f')) d x = read t d x := by
  cases h : t.lookup d with
  | none => simp [read, apply, lookup_onFiles, h]
  | some files =>
    simp only [read, apply, lookup_onFiles, h, Option.map_some, Option.bind_some]
    split
    · rw [AList.lookup_insert_ne hne', AList.lookup_erase_ne hne]
    · rfl

/-- A directory renamed to a name that was free is there under that name. -/
theorem lookup_replaceDir (h : t.lookup d' = none) : (apply t (.replaceDir d d')).lookup d' = t.lookup d := by
  simp only [apply]
  split
  · rename_i files hfiles _
    rw [AList.lookup_insert, hfiles]
  · rename_i hnone
    cases hlookup : t.lookup d with
    | none => exact h
    | some files => exact absurd h (hnone files hlookup)

end Files
