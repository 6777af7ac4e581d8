import SharkRail.Lib.Effectful
import SharkRail.Service.OutputFiles

/-!
# What the calls on the output files do to the tree

Between two states `Sets n c` says that the entry `n` of the root became `c`, and nothing else of the tree changed; the bytes of the tree
then differ by those of the entry. A tree is well formed when every entry of the root is a private directory of regular files. Each part of
a method has one lemma, from a state where the entry it works on is such a directory or is absent: what it leaves when it returns, and when
it raises, what it leaves and which call failed.
-/

namespace SharkRail

namespace OutputFiles

open Effectful

/-! ## Bytes -/

section Sums

variable {V : Type} (f : V → ℕ)

/-- The bytes of the values of a map. -/
def total (m : AList fun _ : Name => V) : ℕ := (m.entries.map fun e => f e.2).sum

/-- The sum over a list of entries is the one without an entry, and that entry. -/
theorem sum_kerase (n : Name) (l : List (Sigma fun _ : Name => V)) :
    ((l.kerase n).map fun e => f e.2).sum + (l.dlookup n).elim 0 f = (l.map fun e => f e.2).sum := by
  induction l with
  | nil => rfl
  | cons e l ih =>
    obtain ⟨m, v⟩ := e
    by_cases h : n = m
    · subst h
      have hkerase : List.kerase n (⟨n, v⟩ :: l) = l := List.kerase_cons_eq rfl
      rw [hkerase, List.dlookup_cons_eq, List.map_cons, List.sum_cons, Option.elim_some, Nat.add_comm]
    · rw [List.kerase_cons_ne h, List.dlookup_cons_ne l ⟨m, v⟩ h, List.map_cons, List.sum_cons, List.map_cons, List.sum_cons, ← ih,
        Nat.add_assoc]

/-- A total is the one without an entry, and that entry. -/
theorem total_erase (m : AList fun _ : Name => V) (n : Name) : total f (m.erase n) + (m.lookup n).elim 0 f = total f m :=
  sum_kerase f n m.entries

/-- A total changes by what an entry had and what it is given. -/
theorem total_insert (m : AList fun _ : Name => V) (n : Name) (v : V) :
    total f (m.insert n v) + (m.lookup n).elim 0 f = total f m + f v := by
  have h := total_erase f m n
  have hcons : total f (m.insert n v) = f v + total f (m.erase n) := by
    rw [total, AList.entries_insert, List.map_cons, List.sum_cons]
    rfl
  omega

end Sums

/-! ## One entry of the root -/

/-- An entry of the root. -/
abbrev FileStore.child (s : FileStore) (n : Name) : Option Child := s.tree.children.lookup n

abbrev childBytes (c : Option Child) : ℕ := c.elim 0 Child.size

/-- The entry `n` of the root became `c`, and nothing else of the tree changed. -/
structure Sets (n : Name) (c : Option Child) (s s' : FileStore) : Prop where
  used : s'.usedBytes = s.usedBytes
  child : s'.child n = c
  others : ∀ m, m ≠ n → s'.child m = s.child m
  parent : s'.tree.parent = s.tree.parent
  outside : s'.tree.outside = s.tree.outside
  size : s'.tree.size + childBytes (s.child n) = s.tree.size + childBytes c

/-- Nothing done leaves the child as it is. -/
theorem Sets.refl {n : Name} {c : Option Child} {s : FileStore} (h : s.child n = c) : Sets n c s s :=
  ⟨rfl, h, fun _ _ => rfl, rfl, rfl, by rw [h]⟩

/-- The later of two changes of a child counts. -/
theorem Sets.trans {n : Name} {c c' : Option Child} {s s' s'' : FileStore} (h : Sets n c s s') (h' : Sets n c' s' s'') :
    Sets n c' s s'' := by
  refine ⟨h'.used.trans h.used, h'.child, fun m hm => (h'.others m hm).trans (h.others m hm), h'.parent.trans h.parent,
    h'.outside.trans h.outside, ?_⟩
  have hsize := h.size
  have hsize' := h'.size
  rw [h.child] at hsize'
  omega

/-- A child is put in. -/
theorem sets_insert (s : FileStore) (n : Name) (c : Child) (touched : List Location) :
    Sets n (some c) s { s with tree.children := s.tree.children.insert n c, touched := touched } where
  used := rfl
  child := AList.lookup_insert _
  others _ hm := AList.lookup_insert_ne hm
  parent := rfl
  outside := rfl
  size := total_insert Child.size s.tree.children n c

/-- A child is taken out. -/
theorem sets_erase (s : FileStore) (n : Name) (touched : List Location) :
    Sets n none s { s with tree.children := s.tree.children.erase n, touched := touched } where
  used := rfl
  child := AList.lookup_erase n _
  others _ hm := AList.lookup_erase_ne hm
  parent := rfl
  outside := rfl
  size := total_erase Child.size s.tree.children n

/-! ## Well-formed trees -/

/-- A private directory of regular files. -/
structure Plain (d : Directory) : Prop where
  isPrivate : d.isPrivate = true
  files : ∀ e ∈ d.entries.entries, ∃ data, e.2 = .file data

/-- Every entry of the root is a private directory of regular files. -/
def WellFormed (t : Tree) : Prop := ∀ n c, t.children.lookup n = some c → ∃ d, c = .dir d ∧ Plain d

/-- An empty directory is plain. -/
theorem plain_empty : Plain ⟨true, ∅⟩ := ⟨rfl, fun e he => by simp at he⟩

/-- The entries of a plain directory are files. -/
theorem Plain.lookup {d : Directory} (h : Plain d) {name : Name} {e : Entry} (hname : d.entries.lookup name = some e) :
    ∃ data, e = .file data :=
  h.files ⟨name, e⟩ (List.mem_dlookup_iff d.entries.nodupKeys |>.mp hname)

/-- A plain directory stays plain without one of its files. -/
theorem Plain.erase {d : Directory} (h : Plain d) (name : Name) : Plain ⟨d.isPrivate, d.entries.erase name⟩ :=
  ⟨h.isPrivate, fun e he => h.files e ((List.kerase_sublist name d.entries.entries).subset he)⟩

/-- A plain directory stays plain with another file. -/
theorem Plain.insert {d : Directory} (h : Plain d) (name : Name) (data : Bytes) :
    Plain ⟨d.isPrivate, d.entries.insert name (.file data)⟩ := by
  refine ⟨h.isPrivate, fun e he => ?_⟩
  rw [AList.entries_insert, List.mem_cons] at he
  obtain rfl | he := he
  · exact ⟨data, rfl⟩
  · exact (h.erase name).files e he

/-- A tree stays well formed when its child is a plain directory or none. -/
theorem Sets.wellFormed {n : Name} {c : Option Child} {s s' : FileStore} (h : Sets n c s s') (hs : WellFormed s.tree)
    (hc : ∀ c', c = some c' → ∃ d, c' = .dir d ∧ Plain d) : WellFormed s'.tree := by
  intro m c' hm
  by_cases hmn : m = n
  · subst hmn
    exact hc c' (h.child ▸ hm)
  · exact hs m c' ((h.others m hmn).symm.trans hm)

/-! ## Calls on a directory of the root -/

section Child

variable {s : FileStore} {n : Name} {d : Directory} {Q : Unit → FileStore → Prop} {E : OsError → FileStore → Prop}

/-- A directory that is there is one. -/
theorem kind_dir (h : s.child n = some (.dir d)) : s.tree.kind (.child n) = some (.directory d.isPrivate) := by simp [Tree.kind, h]

/-- A child that is not there has no kind. -/
theorem kind_none (h : s.child n = none) : s.tree.kind (.child n) = none := by simp [Tree.kind, h]

/-- A directory is located at its place. -/
theorem locate_dir (h : s.child n = some (.dir d)) : s.tree.locate (.child n) = .child n := by simp [Tree.locate, h]

/-- A directory is found at its place. -/
theorem directory_dir (h : s.child n = some (.dir d)) : s.tree.directory (.child n) = some d := by
  simp [Tree.directory, locate_dir h, Tree.directoryAt, h]

/-- A call raises when it is to fail, and leaves the store. -/
@[simp] theorem post_call (fails : Bool) : Post (call fails) s Q E ↔ (fails = true → E .injected s) ∧ (fails = false → Q () s) := by
  cases fails <;> simp [call]

/-- Whether a place is taken is told without a change; a call that fails says that it is free. -/
@[simp] theorem post_lexists {Q : Bool → FileStore → Prop} (fails : Bool) (p : Place) :
    Post (lexists fails p) s Q E ↔ Q (!fails && (s.tree.kind p).isSome) s := by
  simp [lexists]

/-- The state in which the entry `n` of the root was made a directory with other entries. -/
def FileStore.setDir (s : FileStore) (n : Name) (d : Directory) : FileStore :=
  { s with tree.children := s.tree.children.insert n (.dir d), touched := s.touched ++ [.child n] }

/-- A directory is replaced. -/
theorem sets_setDir (s : FileStore) (n : Name) (d : Directory) : Sets n (some (.dir d)) s (s.setDir n d) := sets_insert s n _ _

/-- A directory that was replaced is the new one. -/
@[simp] theorem child_setDir (s : FileStore) (n : Name) (d : Directory) : (s.setDir n d).child n = some (.dir d) :=
  (sets_setDir s n d).child

/-- The entries of a directory that is there are changed. -/
theorem post_modifyEntries (f : AList (fun _ : Name => Entry) → AList fun _ : Name => Entry) (h : s.child n = some (.dir d)) :
    Post (modifyEntries (.child n) f) s Q E ↔ Q () (s.setDir n ⟨d.isPrivate, f d.entries⟩) := by
  rw [modifyEntries, post_modify, locate_dir h]
  simp only [Tree.setEntries, h, FileStore.setDir]

variable {host : Host}

/-- A private directory passes its check, unless a call fails. -/
theorem post_validate_there (fails : Bool) (h : s.child n = some (.dir d)) (hd : d.isPrivate = true) :
    Post (validatePrivateDirectory fails (.child n)) s (fun _ s' => s' = s) fun _ s' => s' = s ∧ fails = true := by
  simp [validatePrivateDirectory, kind_dir h, hd]

/-- A private directory that is there stays as it is. -/
theorem post_ensure_there (fails : EnsureCall → Bool) (h : s.child n = some (.dir d)) (hd : d.isPrivate = true) :
    Post (ensurePrivateDirectory host fails (.child n)) s (fun _ s' => s' = s ∧ host.shared (.child n) = false) fun _ s' =>
      s' = s ∧ (host.shared (.child n) = true ∨ ∃ c, fails c = true) := by
  rw [ensurePrivateDirectory]
  refine post_ite.mpr ⟨fun hshared => ⟨rfl, .inl hshared⟩, fun hshared => ?_⟩
  rw [Bool.not_eq_true] at hshared
  simp only [post_bind, post_lexists, kind_dir h, Option.isSome_some, Bool.and_true]
  cases hfirst : fails .lexists with
  | false =>
    rw [Bool.not_false, if_pos rfl]
    simp only [post_bind, post_pure]
    refine (post_validate_there _ h hd).mono ?_ ?_
    · rintro _ s' rfl
      exact ⟨rfl, hshared⟩
    · rintro _ s' ⟨rfl, hfails⟩
      exact ⟨rfl, .inr ⟨.lstat, hfails⟩⟩
  | true =>
    have hcause : ∃ c, fails c = true := ⟨.lexists, hfirst⟩
    cases hsecond : fails .lexistsAgain with
    | false => simp [hshared, kind_dir h]
    | true => simp [hshared, kind_dir h, mkdir, h, hd, hcause, validatePrivateDirectory]

/-- A directory that is absent is made; the calls that secure it leave it behind when they fail. -/
theorem post_ensure_new (fails : EnsureCall → Bool) (h : s.child n = none) :
    Post (ensurePrivateDirectory host fails (.child n)) s
      (fun _ s' => Sets n (some (.dir ⟨true, ∅⟩)) s s' ∧ host.shared (.child n) = false ∧ host.accepts n = true ∧
        fails .open = false ∧ fails .fchmod = false ∧ fails .close = false)
      fun _ s' =>
        s' = s ∧ (host.shared (.child n) = true ∨ host.accepts n = false ∨ fails .mkdir = true) ∨
        Sets n (some (.dir ⟨true, ∅⟩)) s s' ∧ host.shared (.child n) = false ∧ host.accepts n = true ∧
          (fails .open = true ∨ fails .fchmod = true ∨ fails .close = true) := by
  have hmade : Sets n (some (.dir ⟨true, ∅⟩)) s _ := sets_setDir s n ⟨true, ∅⟩
  rw [FileStore.setDir] at hmade
  rw [ensurePrivateDirectory]
  refine post_ite.mpr ⟨fun hshared => .inl ⟨rfl, .inl hshared⟩, fun hshared => ?_⟩
  simp only [Bool.not_eq_true] at hshared
  simp [kind_none h, mkdir, h, hshared, hmade]
  grind

/-- The sizes of files are added up. -/
theorem post_childSizes (fails : SizeCall → Bool) {entries : List (Sigma fun _ : Name => Entry)}
    (hentries : ∀ e ∈ entries, ∃ data, e.2 = .file data) (size : ℕ) :
    Post ((entries.map fun e => (e.1, e.2)).foldlM (childSize fails) size) s
      (fun v s' => s' = s ∧ v = size + (entries.map fun e => e.2.size).sum) fun _ s' => s' = s ∧ ∃ c, fails c = true := by
  induction entries generalizing size with
  | nil => exact ⟨rfl, rfl⟩
  | cons e entries ih =>
    obtain ⟨data, hdata⟩ := hentries e List.mem_cons_self
    have hrest := ih (fun e' he' => hentries e' (List.mem_cons_of_mem _ he')) (size + data.length)
    simp only [List.map_cons, List.foldlM_cons, post_bind, childSize, post_call, hdata, Entry.isFile, Entry.isSymlink, Entry.size,
      Bool.not_true, Bool.false_eq_true, if_false, post_pure, List.sum_cons]
    refine ⟨fun hfails => ⟨trivial, .isFile e.1, hfails⟩, fun _ => ⟨fun hfails => ⟨trivial, .isSymlink e.1, hfails⟩, fun _ =>
      ⟨fun hfails => ⟨trivial, .stat e.1, hfails⟩, fun _ => ?_⟩⟩⟩
    rw [← Nat.add_assoc]
    exact hrest

/-- The size of a directory of regular files, unless it is taken for absent. -/
theorem post_directorySize (fails : SizeCall → Bool) (h : s.child n = some (.dir d)) (hd : Plain d) :
    Post (directorySizeLocked fails (.child n)) s (fun v s' => s' = s ∧ (v = d.size ∨ fails .lexists = true ∧ v = 0)) fun _ s' =>
      s' = s ∧ ∃ c, fails c = true := by
  have hloop := post_childSizes (s := s) fails hd.files 0
  simp only [directorySizeLocked, iterdir, post_bind, post_lexists, post_call, post_get, kind_dir h, directory_dir h, post_pure, post_ite,
    Option.isSome_some, Bool.and_true, Bool.not_eq_true', Bool.not_eq_false]
  refine ⟨fun _ => ⟨fun hfails => ⟨trivial, .iterdir, hfails⟩, fun _ => ?_⟩, fun hfails => ⟨trivial, .inr ⟨hfails, trivial⟩⟩⟩
  refine hloop.mono (fun v s' hv => ⟨hv.1, .inl ?_⟩) fun _ _ he => he
  rw [hv.2, Nat.zero_add, Directory.size]

/-- A directory that is not there has size zero. -/
theorem post_directorySize_absent (fails : SizeCall → Bool) (h : s.child n = none) :
    Post (directorySizeLocked fails (.child n)) s (fun v s' => s' = s ∧ v = 0) fun _ _ => False := by
  simp [directorySizeLocked, kind_none h]

/-- What the quota leaves room for. -/
def Fits (host : Host) (s : FileStore) (existing new : ℕ) : Prop := s.usedBytes - existing + new ≤ host.maxTotalBytes

/-- The check of the capacity passes what fits. -/
theorem post_checkCapacity (existing new : ℕ) :
    Post (checkCapacity host existing new) s (fun _ s' => s' = s ∧ Fits host s existing new) fun e s' =>
      s' = s ∧ e = .osError "output store capacity exceeded" ∧ ¬Fits host s existing new := by
  simp [checkCapacity, Fits]

/-- A temporary file is made, under a name that is free. -/
theorem post_createTemp (fails : TempCall → Bool) (stream : Stream) (tokens : List String) (h : s.child n = some (.dir d)) :
    Post (createPrivateTempFile fails (.child n) stream tokens) s
      (fun name s' => name ∉ d.entries ∧ (∃ token ∈ tokens, name = "." ++ stream.value ++ "." ++ token) ∧
        Sets n (some (.dir ⟨d.isPrivate, d.entries.insert name (.file [])⟩)) s s')
      fun _ s' => (s' = s ∨ ∃ name, name ∉ d.entries ∧ Sets n (some (.dir ⟨d.isPrivate, d.entries.insert name (.file [])⟩)) s s') ∧
        ((∃ c, fails c = true) ∨ ∀ token ∈ tokens, "." ++ stream.value ++ "." ++ token ∈ d.entries) := by
  simp only [createPrivateTempFile, post_bind, post_call, post_get, kind_dir h, directory_dir h]
  refine ⟨fun hfails => ⟨.inl trivial, .inl ⟨.openDirectory, hfails⟩⟩, fun _ => ?_⟩
  cases hname : (tokens.map fun token => "." ++ stream.value ++ "." ++ token).find? fun name => (d.entries.lookup name).isNone with
  | none =>
    refine ⟨.inl rfl, .inr fun token htoken => ?_⟩
    have hnone := List.find?_eq_none.mp hname _ (List.mem_map_of_mem htoken)
    rw [Option.isNone_iff_eq_none, AList.lookup_eq_none, not_not] at hnone
    exact hnone
  | some name =>
    have hfree : name ∉ d.entries := AList.lookup_eq_none.mp (by simpa using List.find?_some hname)
    obtain ⟨token, htoken, heq⟩ := List.mem_map.mp (List.mem_of_find?_eq_some hname)
    have hset := sets_setDir s n ⟨d.isPrivate, d.entries.insert name (.file [])⟩
    simp only [post_bind, post_call, post_modifyEntries _ h, post_pure]
    exact ⟨fun hfails => ⟨.inl trivial, .inl ⟨.open, hfails⟩⟩, fun _ => ⟨fun hfails => ⟨.inr ⟨name, hfree, hset⟩, .inl ⟨.fchmod, hfails⟩⟩,
      fun _ => ⟨fun hfails => ⟨.inr ⟨name, hfree, hset⟩, .inl ⟨.close, hfails⟩⟩, fun _ => ⟨hfree, ⟨token, htoken, heq.symm⟩, hset⟩⟩⟩⟩

/-- The data goes into a temporary file that is there. -/
theorem post_writeTemporary (fails : FileCall → Bool) {name : Name} {old data : Bytes} {isPrivate : Bool} {es : AList fun _ : Name => Entry}
    (h : s.child n = some (.dir ⟨isPrivate, es.insert name (.file old)⟩)) :
    Post (writeTemporary fails (.child n) name data) s
      (fun _ s' => Sets n (some (.dir ⟨isPrivate, es.insert name (.file data)⟩)) s s')
      fun _ s' => (∃ data, Sets n (some (.dir ⟨isPrivate, es.insert name (.file data)⟩)) s s') ∧ ∃ c, fails c = true := by
  have hset := sets_setDir s n ⟨isPrivate, es.insert name (.file data)⟩
  simp only [writeTemporary, post_bind, post_call, post_modifyEntries _ h, AList.insert_insert]
  refine ⟨fun hfails => ⟨⟨old, .refl h⟩, .fdopen, hfails⟩, fun _ => ⟨fun hfails => ⟨⟨old, .refl h⟩, .write, hfails⟩, fun _ => ?_⟩⟩
  exact ⟨fun hfails => ⟨⟨data, hset⟩, .flush, hfails⟩, fun _ => ⟨fun hfails => ⟨⟨data, hset⟩, .fsync, hfails⟩, fun _ =>
    ⟨fun hfails => ⟨⟨data, hset⟩, .close, hfails⟩, fun _ => hset⟩⟩⟩

/-- A new entry that is taken out again leaves the entries. -/
theorem erase_insert_of_notMem {es : AList fun _ : Name => Entry} {name : Name} (h : name ∉ es) (e : Entry) :
    (es.insert name e).erase name = es := by
  apply AList.ext
  change (es.insert name e).entries.kerase name = es.entries
  have hkerase : List.kerase name (⟨name, e⟩ :: es.entries) = es.entries := List.kerase_cons_eq rfl
  rw [AList.entries_insert_of_notMem h, hkerase]

/-- The temporary file takes the name of the stream. -/
theorem post_replaceFile (fails : Bool) {name target : Name} {e : Entry} {isPrivate : Bool} {es : AList fun _ : Name => Entry}
    (h : s.child n = some (.dir ⟨isPrivate, es.insert name e⟩)) (hname : name ∉ es) (htarget : target ≠ name)
    (hfile : ∀ size, es.lookup target ≠ some (.dir size)) :
    Post (replaceFile fails (.child n) name target) s
      (fun _ s' => Sets n (some (.dir ⟨isPrivate, es.insert target e⟩)) s s' ∧ fails = false) fun _ s' => s' = s ∧ fails = true := by
  have hset := sets_setDir s n ⟨isPrivate, es.insert target e⟩
  simp only [replaceFile, post_bind, post_call, post_get, directory_dir h, AList.lookup_insert, AList.lookup_insert_ne htarget]
  refine ⟨fun hfails => ⟨trivial, hfails⟩, fun hfails => ?_⟩
  cases hlookup : es.lookup target with
  | none =>
    simp only [post_modifyEntries _ h, erase_insert_of_notMem hname]
    exact ⟨hset, hfails⟩
  | some entry =>
    cases entry with
    | dir size => exact absurd hlookup (hfile size)
    | file data | link toFile =>
      simp only [post_modifyEntries _ h, erase_insert_of_notMem hname]
      exact ⟨hset, hfails⟩

/-- A plain directory holds no directory. -/
theorem Plain.not_dir (hd : Plain d) (name : Name) (size : ℕ) : d.entries.lookup name ≠ some (.dir size) := by
  intro hname
  obtain ⟨data, hdata⟩ := hd.lookup hname
  cases hdata

/-- A temporary name is not the name of a stream. -/
theorem temporary_ne_binName (stream stream' : Stream) (token : String) :
    binName stream' ≠ "." ++ stream.value ++ "." ++ token := by
  intro h
  have hhead := congrArg (fun text => text.toList.head?) h
  cases stream' <;> simp [binName, Stream.value] at hhead

/-- One stream in the staging directory. -/
theorem post_stage (fails : StageCall → Bool) (draws : Draws) (stream : Stream) (data : Bytes) (h : s.child n = some (.dir d))
    (hd : Plain d) :
    Post (stage fails draws (.child n) stream data) s
      (fun _ s' => Sets n (some (.dir ⟨d.isPrivate, d.entries.insert (binName stream) (.file data)⟩)) s s')
      fun _ s' => (∃ d', Plain d' ∧ Sets n (some (.dir d')) s s') ∧
        ((∃ c, fails c = true) ∨ ∀ token ∈ draws.temporary stream, "." ++ stream.value ++ "." ++ token ∈ d.entries) := by
  rw [stage, post_bind]
  refine (post_createTemp _ stream _ h).mono ?_ ?_
  · rintro name s₁ ⟨hfree, ⟨token, -, hname⟩, hset₁⟩
    rw [post_bind]
    refine (post_writeTemporary _ hset₁.child).mono ?_ ?_
    · intro _ s₂ hset₂
      refine (post_replaceFile _ hset₂.child hfree (hname ▸ temporary_ne_binName stream stream token) (hd.not_dir _)).mono ?_ ?_
      · rintro _ s₃ ⟨hset₃, -⟩
        exact (hset₁.trans hset₂).trans hset₃
      · rintro _ s₃ ⟨rfl, hfails⟩
        exact ⟨⟨_, hd.insert name data, hset₁.trans hset₂⟩, .inl ⟨.replace, hfails⟩⟩
    · rintro _ s₂ ⟨⟨data', hset₂⟩, c, hfails⟩
      exact ⟨⟨_, hd.insert name data', hset₁.trans hset₂⟩, .inl ⟨.file c, hfails⟩⟩
  · rintro _ s₁ ⟨hset₁, hcause⟩
    refine ⟨?_, hcause.imp_left fun ⟨c, hfails⟩ => ⟨.temp c, hfails⟩⟩
    obtain rfl | ⟨name, -, hset₁⟩ := hset₁
    · exact ⟨d, hd, .refl h⟩
    · exact ⟨_, hd.insert name [], hset₁⟩

/-- The regular file that a call of the removal is made on. -/
def RemoveCall.ofFile : RemoveCall → Option Name
  | .isFile name | .isFileAgain name | .isSymlinkAgain name | .stat name | .unlink name => some name
  | .lexists | .ensure _ | .iterdir | .isSymlink _ | .rmdir => none

/-- A file is removed, unless the call fails. -/
theorem post_unlink (fails : Bool) {name : Name} {data : Bytes} (h : s.child n = some (.dir d))
    (hname : d.entries.lookup name = some (.file data)) :
    Post (unlink fails (.child n) name) s Q E ↔
      (fails = true → E .injected s) ∧ (fails = false → Q () (s.setDir n ⟨d.isPrivate, d.entries.erase name⟩)) := by
  simp [unlink, directory_dir h, hname, post_modifyEntries _ h]

/-- A regular file is removed, or a call on it fails and it stays. -/
theorem post_removeChild (fails : RemoveCall → Bool) (removed : ℕ) {name : Name} {data : Bytes} (h : s.child n = some (.dir d))
    (hname : d.entries.lookup name = some (.file data)) :
    Post (removeChild fails (.child n) removed (name, .file data)) s
      (fun v s' => v = removed + data.length ∧ Sets n (some (.dir ⟨d.isPrivate, d.entries.erase name⟩)) s s' ∧
        ∀ c, c.ofFile = some name → fails c = false)
      fun _ s' => s' = s ∧ ∃ c, c.ofFile = some name ∧ fails c = true := by
  have hset := sets_setDir s n ⟨d.isPrivate, d.entries.erase name⟩
  simp only [removeChild, Entry.isFile, Entry.isSymlink, Bool.not_true, Bool.not_false, Bool.false_and, Bool.and_self, Bool.false_eq_true,
    if_false, if_true, post_bind, post_call, post_unlink _ h hname, post_pure]
  refine ⟨fun hfails => ⟨trivial, _, rfl, hfails⟩, fun hisFile => ⟨fun hfails => ⟨trivial, _, rfl, hfails⟩, fun hisFileAgain =>
    ⟨fun hfails => ⟨trivial, _, rfl, hfails⟩, fun hisSymlink => ⟨fun hfails => ⟨trivial, _, rfl, hfails⟩, fun hstat =>
      ⟨fun hfails => ⟨trivial, _, rfl, hfails⟩, fun hunlink => ⟨rfl, hset, ?_⟩⟩⟩⟩⟩⟩
  intro c hc
  cases c with
  | isFile _ | isFileAgain _ | isSymlinkAgain _ | stat _ | unlink _ =>
    cases hc
    assumption
  | lexists | ensure _ | iterdir | isSymlink _ | rmdir => cases hc

/-- The loop of the removal: the files go in the order of the listing, up to the first one that a call fails on. -/
theorem post_removeChildren (fails : RemoveCall → Bool) {isPrivate : Bool} {entries : List (Sigma fun _ : Name => Entry)}
    (hfiles : ∀ e ∈ entries, ∃ data, e.2 = .file data) (removed : ℕ) {es : AList fun _ : Name => Entry} (hes : es.entries = entries)
    (h : s.child n = some (.dir ⟨isPrivate, es⟩)) :
    Post ((entries.map fun e => (e.1, e.2)).foldlM (removeChild fails (.child n)) removed) s
      (fun v s' => v = removed + (entries.map fun e => e.2.size).sum ∧ Sets n (some (.dir ⟨isPrivate, ∅⟩)) s s' ∧
        ∀ c name, c.ofFile = some name → name ∈ entries.keys → fails c = false)
      fun _ s' => ∃ gone e rest, gone ++ e :: rest = entries ∧ (∃ c, c.ofFile = some e.1 ∧ fails c = true) ∧
        ∃ es' : AList fun _ : Name => Entry, es'.entries = e :: rest ∧ Sets n (some (.dir ⟨isPrivate, es'⟩)) s s' := by
  induction entries generalizing removed es s with
  | nil =>
    have hempty : es = ∅ := AList.ext hes
    subst hempty
    exact ⟨rfl, .refl h, fun _ _ _ hname => absurd hname List.not_mem_nil⟩
  | cons e entries ih =>
    obtain ⟨name, entry⟩ := e
    obtain ⟨data, rfl⟩ : ∃ data, entry = .file data := hfiles ⟨name, entry⟩ List.mem_cons_self
    have hname : es.lookup name = some (.file data) := by
      change es.entries.dlookup name = _
      rw [hes]
      exact List.dlookup_cons_eq _ _ _
    have herase : (es.erase name).entries = entries := by
      change es.entries.kerase name = entries
      rw [hes]
      exact List.kerase_cons_eq rfl
    rw [List.map_cons, List.foldlM_cons, post_bind]
    refine (post_removeChild fails removed h hname).mono ?_ ?_
    · rintro v s₁ ⟨rfl, hset₁, hok⟩
      refine (ih (fun e he => hfiles e (List.mem_cons_of_mem _ he)) _ herase hset₁.child).mono ?_ ?_
      · rintro v s₂ ⟨hv, hset₂, hrest⟩
        refine ⟨?_, hset₁.trans hset₂, fun c name' hc hname' => ?_⟩
        · rw [hv, List.map_cons, List.sum_cons, Nat.add_assoc]
          rfl
        · obtain rfl | hname' := List.mem_cons.mp hname'
          · exact hok c hc
          · exact hrest c name' hc hname'
      · rintro _ s₂ ⟨gone, e, rest, happend, hcause, es', hes', hset₂⟩
        exact ⟨⟨name, .file data⟩ :: gone, e, rest, by rw [List.cons_append, happend], hcause, es', hes', hset₁.trans hset₂⟩
    · rintro _ s₁ ⟨rfl, hcause⟩
      exact ⟨[], ⟨name, .file data⟩, entries, rfl, hcause, es, hes, .refl h⟩

/-- The calls of a removal that are made when a file of the directory is gone. -/
def removalLate (d : Directory) (c : RemoveCall) : Bool :=
  match c.ofFile with
  | some name => d.entries.keys.tail.contains name
  | none => c = .rmdir && !d.entries.keys.isEmpty

/-- A call that is about no file comes before the removal is late. -/
theorem not_removalLate {c : RemoveCall} (hc : c.ofFile = none) (hrmdir : c ≠ .rmdir) : removalLate d c = false := by
  simp [removalLate, hc, hrmdir]

/-- The keys of a table are those of its entries. -/
theorem keys_entries (es : AList fun _ : Name => Entry) : es.keys = es.entries.map Sigma.fst := rfl

/-- A call on the first file of the listing comes before any file is gone; one on a later file does not. -/
theorem removalLate_of_split {c : RemoveCall} {gone rest : List (Sigma fun _ : Name => Entry)} {e : Sigma fun _ : Name => Entry}
    (happend : gone ++ e :: rest = d.entries.entries) (hc : c.ofFile = some e.1) : removalLate d c = !gone.isEmpty := by
  have hkeys : d.entries.keys = gone.map Sigma.fst ++ e.1 :: rest.map Sigma.fst := by
    rw [keys_entries, ← happend, List.map_append, List.map_cons]
  have hnodup := d.entries.keys_nodup
  simp only [removalLate, hc, hkeys]
  rw [hkeys] at hnodup
  cases gone with
  | nil => simpa using (List.nodup_cons.mp hnodup).1
  | cons g gone => simp

/-- The bytes of the files that are left are no more. -/
theorem size_le_of_split {gone rest : List (Sigma fun _ : Name => Entry)} {es : AList fun _ : Name => Entry} {isPrivate : Bool}
    (happend : gone ++ rest = d.entries.entries) (hes : es.entries = rest) : Directory.size ⟨isPrivate, es⟩ ≤ d.size := by
  rw [Directory.size, Directory.size, hes, ← happend, List.map_append, List.sum_append]
  exact Nat.le_add_left _ _

/-- The removal of a directory of regular files. -/
theorem post_removeJobDirectory (fails : RemoveCall → Bool) (missingOk : Bool) (h : s.child n = some (.dir d)) (hd : Plain d) :
    Post (removeJobDirectory host fails (.child n) missingOk) s
      (fun v s' => v = d.size ∧ Sets n none s s' ∧ (∀ c, removalLate d c = true → fails c = false) ∨
        missingOk = true ∧ fails .lexists = true ∧ v = 0 ∧ s' = s)
      fun _ s' => Sets n (some (.dir d)) s s' ∧ (host.shared (.child n) = true ∨ ∃ c, fails c = true ∧ removalLate d c = false) ∨
        ∃ d', Plain d' ∧ d'.entries.entries.length < d.entries.entries.length ∧ d'.size ≤ d.size ∧ Sets n (some (.dir d')) s s' ∧
          ∃ c, fails c = true ∧ removalLate d c = true := by
  have hstay {c : RemoveCall} (hfails : fails c = true) (hc : c.ofFile = none) (hrmdir : c ≠ .rmdir) :
      Sets n (some (.dir d)) s s ∧ (host.shared (.child n) = true ∨ ∃ c, fails c = true ∧ removalLate d c = false) :=
    ⟨.refl h, .inr ⟨c, hfails, not_removalLate hc hrmdir⟩⟩
  simp only [removeJobDirectory, post_bind, post_lexists, kind_dir h, Option.isSome_some, Bool.and_true, post_ite, Bool.not_eq_true',
    Bool.not_eq_false, post_pure, post_throw]
  refine ⟨fun _ => ?_, fun hlexists => ⟨fun hmissingOk => .inr ⟨hmissingOk, hlexists, trivial, trivial⟩, fun _ =>
    .inl (hstay hlexists rfl (by simp))⟩⟩
  refine (post_ensure_there (fun c => fails (.ensure c)) h hd.isPrivate).mono ?_ ?_
  · rintro _ s' ⟨rfl, -⟩
    simp only [post_bind, post_tryCatch, post_map, iterdir, post_call, post_get, directory_dir h, post_pure, post_ite, post_throw]
    refine ⟨fun hfails => ⟨fun he => by simp at he, fun _ => .inl (hstay hfails rfl (by simp))⟩, fun _ => ?_⟩
    refine (post_removeChildren fails hd.files 0 rfl (show s'.child n = some (.dir ⟨d.isPrivate, d.entries⟩) from h)).mono ?_ ?_
    · rintro v s₁ ⟨rfl, hset₁, hok⟩
      have hset₂ := sets_erase s₁ n (s₁.touched ++ [.child n])
      simp only [rmdir, post_bind, post_call, post_get, hset₁.child, AList.keys_empty, List.isEmpty_nil, if_true, post_modify]
      refine ⟨fun hfails => ?_, fun hrmdir => .inl ⟨Nat.zero_add _, hset₁.trans hset₂, fun c hc => ?_⟩⟩
      · by_cases hempty : d.entries = ∅
        · have hsame : (⟨d.isPrivate, ∅⟩ : Directory) = d := by rw [← hempty]
          refine .inl ⟨hsame ▸ hset₁, .inr ⟨.rmdir, hfails, ?_⟩⟩
          simp [removalLate, RemoveCall.ofFile, hempty]
        · refine .inr ⟨⟨d.isPrivate, ∅⟩, ⟨hd.isPrivate, plain_empty.files⟩, ?_, Nat.zero_le _, hset₁, .rmdir, hfails, ?_⟩
          · exact List.length_pos_iff.mpr fun hnil => hempty (AList.ext hnil)
          · have hkeys : d.entries.keys ≠ [] := fun hkeys => hempty (AList.ext (List.map_eq_nil_iff.mp hkeys))
            simp [removalLate, RemoveCall.ofFile, hkeys]
      · cases hfile : c.ofFile with
        | none =>
          have hc : c = .rmdir := by
            simp only [removalLate, hfile, Bool.and_eq_true, decide_eq_true_eq] at hc
            exact hc.1
          exact hc ▸ hrmdir
        | some name =>
          have hname : name ∈ d.entries.keys.tail := by simpa [removalLate, hfile] using hc
          exact hok c name hfile (List.mem_of_mem_tail hname)
    · rintro _ s₁ ⟨gone, e, rest, happend, ⟨c, hc, hfails⟩, es', hes', hset₁⟩
      have hlate := removalLate_of_split happend hc
      cases gone with
      | nil =>
        have hsame : es' = d.entries := AList.ext (hes'.trans happend)
        subst hsame
        exact .inl ⟨hset₁, .inr ⟨c, hfails, hlate⟩⟩
      | cons g gone =>
        refine .inr ⟨_, ?_, ?_, size_le_of_split happend hes', hset₁, c, hfails, hlate⟩
        · refine ⟨hd.isPrivate, fun e' he' => hd.files e' ?_⟩
          rw [← happend]
          exact List.mem_append_right _ (hes' ▸ he')
        · simp only [hes', ← happend, List.length_append, List.length_cons]
          omega
  · rintro _ s' ⟨rfl, hcause⟩
    obtain hshared | ⟨c, hfails⟩ := hcause
    · exact .inl ⟨.refl h, .inl hshared⟩
    · exact .inl (hstay hfails rfl (by simp))

end Child

end OutputFiles

end SharkRail
