import SharkRail.Lemmas.StoreFrames

/-!
# `write_job` of the job id `..`

The directory that it is to replace is then the one that the root is in. Its removal raises at the root at the latest, so the call never
returns; but what is listed before a directory is unlinked by then. The call is all or nothing when something makes it raise before the
first of these entries is unlinked and the staging directory is removed again.
-/

namespace SharkRail

namespace OutputFiles

open Effectful

/-- The bytes of an entry that is a regular file, and no link. -/
def fileBytes : Option Entry → ℕ
  | some (.file data) => data.length
  | some (.link _) | some (.dir _) | none => 0

/-- The first entry is a directory, or there is none. -/
def StartsWithDirectory (d : Directory) : Prop := ∀ e ∈ d.entries.entries.head?, ∃ size, e.2 = .dir size

/-- The bytes of the regular files that are listed in a directory. -/
def listedBytes (d : Directory) : ℕ := (d.entries.entries.map fun e => fileBytes (some e.2)).sum

/-- What makes `write_job` refuse the job id `..` before it changes anything, when no call fails. -/
def ParentRefused (host : Host) (s : FileStore) (g : Name) (new : ℕ) : Prop :=
  host.shared .parent = true ∨ s.tree.parent.isPrivate = false ∨ ¬Fits host s (listedBytes s.tree.parent) new ∨
    host.shared (.child g) = true ∨ host.accepts g = false

/-- The calls of `_directory_size_locked` that raise when they fail. -/
def SizeStops (d : Directory) : SizeCall → Prop
  | .lexists => False
  | .iterdir => True
  | .isFile name => name ∈ d.entries
  | .isSymlink name => ∃ e, d.entries.lookup name = some e ∧ e.isFile = true
  | .stat name => ∃ data, d.entries.lookup name = some (.file data)

/-- The calls on an entry of a directory up to its removal. -/
def entryCalls (name : Name) : Entry → List RemoveCall
  | .file _ => [.isFile name, .isFileAgain name, .isSymlinkAgain name, .stat name, .unlink name]
  | .link true => [.isFile name, .isFileAgain name, .isSymlinkAgain name, .unlink name]
  | .link false => [.isFile name, .isSymlink name, .isFileAgain name, .unlink name]
  | .dir _ => [.isFile name, .isSymlink name]

/-- The calls of the removal of a directory that raise, when they fail, before an entry of it is gone. -/
def RemovalStops (d : Directory) (c : RemoveCall) : Prop :=
  c = .lexists ∨ c = .ensure .lstat ∨ c = .iterdir ∨ ∃ e ∈ d.entries.entries.head?, c ∈ entryCalls e.1 e.2

/-- The calls of `write_job` of the job id `..` that raise, when they fail, before an entry beside the root is gone. -/
def Stops (host : Host) (s : FileStore) (new : ℕ) : WriteJobCall → Prop
  | .ensureTarget c => c = .lstat
  | .size c => SizeStops s.tree.parent c ∨ c = .lexists ∧ ¬Fits host s 0 new
  | .ensureStaging c => c = .mkdir
  | .stage _ _ | .syncStaging _ | .exists => True
  | .remove c => RemovalStops s.tree.parent c
  | .lexists | .replace | .syncRoot _ | .cleanup _ | .rescan => False

/-- The calls of the removal of a directory that is there which leave it there when they fail. -/
def Needed (names : List Name) : RemoveCall → Prop
  | .lexists | .iterdir | .rmdir => True
  | .ensure c => c = .lstat
  | .isSymlink _ => False
  | .isFile name | .isFileAgain name | .isSymlinkAgain name | .stat name | .unlink name => name ∈ names

/-- The calls of `write_job` of the job id `..` that leave the staging directory behind when they fail. -/
def LeavesStaging : WriteJobCall → Prop
  | .ensureStaging c => c = .open ∨ c = .fchmod ∨ c = .close
  | .cleanup c => Needed [binName .stdout, binName .stderr] c
  | .lexists | .ensureTarget _ | .size _ | .stage _ _ | .syncStaging _ | .exists | .remove _ | .replace | .syncRoot _ | .rescan => False

/-- When `write_job` of the job id `..` changes nothing beside the root and leaves no staging directory. -/
def ParentSpared (host : Host) (fails : WriteJobCall → Bool) (s : FileStore) (g : Name) (new : ℕ) : Prop :=
  ParentRefused host s g new ∨ (∃ c, fails c = true ∧ Stops host s new c) ∨
    StartsWithDirectory s.tree.parent ∧ ∀ c, LeavesStaging c → fails c = false

section Parts

variable {host : Host} {s : FileStore} {g n : Name} {d : Directory}

/-- Where one call fails no other one does. -/
theorem AtMostOne.eq_false {Call : Type} {fails : Call → Bool} (h : AtMostOne fails) {c c' : Call} (hc : fails c = true) (hne : c' ≠ c) :
    fails c' = false := by
  by_contra hc'
  exact hne (h c' c (by simpa using hc') hc)

/-- The check of a directory that is there, by which of its calls fails. -/
theorem post_ensure_at {fails : EnsureCall → Bool} (hone : AtMostOne fails) {p : Place} {isPrivate : Bool}
    (h : s.tree.kind p = some (.directory isPrivate)) :
    Post (ensurePrivateDirectory host fails p) s
      (fun _ s' => s' = s ∧ host.shared p = false ∧ fails .lstat = false ∧ (fails .lexists = true ∨ isPrivate = true))
      fun _ s' => s' = s ∧ (host.shared p = true ∨ isPrivate = false ∨ fails .lstat = true) := by
  rw [ensurePrivateDirectory]
  refine post_ite.mpr ⟨fun hshared => ⟨rfl, .inl hshared⟩, fun hshared => ?_⟩
  rw [Bool.not_eq_true] at hshared
  cases hfirst : fails .lexists with
  | true =>
    have hlstat : fails .lstat = false := hone.eq_false hfirst (by simp)
    have hsecond : fails .lexistsAgain = false := hone.eq_false hfirst (by simp)
    simp [hsecond, h, hshared, hlstat]
  | false => cases hlstat : fails .lstat <;> cases isPrivate <;> simp [validatePrivateDirectory, h, hshared]

/-! ## The directory that the root is in -/

/-- The parent is a directory. -/
theorem kind_parent : s.tree.kind .parent = some (.directory s.tree.parent.isPrivate) := rfl

/-- The directory at the parent is the parent. -/
theorem directory_parent : s.tree.directory .parent = some s.tree.parent := rfl

/-- What an entry adds to the size. -/
theorem post_childSize (fails : SizeCall → Bool) (size : ℕ) {name : Name} {e : Entry} (he : d.entries.lookup name = some e) :
    Post (childSize fails size (name, e)) s
      (fun v s' => s' = s ∧ v = size + fileBytes (some e) ∧ fails (.isFile name) = false ∧
        (e.isFile = true → fails (.isSymlink name) = false) ∧ ((∃ data, e = .file data) → fails (.stat name) = false))
      fun _ s' => s' = s ∧ ∃ c, fails c = true ∧ SizeStops d c := by
  have hmem : name ∈ d.entries := AList.lookup_isSome.mp (by rw [he]; rfl)
  cases e with
  | file data =>
    simp only [childSize, Entry.isFile, Entry.isSymlink, Entry.size, fileBytes, post_bind, post_call, post_pure, Bool.not_true,
      Bool.false_eq_true, if_false]
    exact ⟨fun hfails => ⟨trivial, .isFile name, hfails, hmem⟩, fun hisFile =>
      ⟨fun hfails => ⟨trivial, .isSymlink name, hfails, _, he, rfl⟩, fun hisSymlink =>
        ⟨fun hfails => ⟨trivial, .stat name, hfails, data, he⟩,
          fun hstat => ⟨trivial, trivial, hisFile, fun _ => hisSymlink, fun _ => hstat⟩⟩⟩⟩
  | link toFile =>
    cases toFile with
    | false =>
      simp only [childSize, Entry.isFile, fileBytes, post_bind, post_call, post_pure, Bool.not_false, if_true]
      exact ⟨fun hfails => ⟨trivial, .isFile name, hfails, hmem⟩, fun hisFile => ⟨trivial, rfl, hisFile, by simp, by simp⟩⟩
    | true =>
      simp only [childSize, Entry.isFile, Entry.isSymlink, fileBytes, post_bind, post_call, post_pure, Bool.not_true, Bool.false_eq_true,
        if_false, if_true]
      exact ⟨fun hfails => ⟨trivial, .isFile name, hfails, hmem⟩, fun hisFile =>
        ⟨fun hfails => ⟨trivial, .isSymlink name, hfails, _, he, rfl⟩,
          fun hisSymlink => ⟨trivial, rfl, hisFile, fun _ => hisSymlink, by simp⟩⟩⟩
  | dir size =>
    simp only [childSize, Entry.isFile, fileBytes, post_bind, post_call, post_pure, Bool.not_false, if_true]
    exact ⟨fun hfails => ⟨trivial, .isFile name, hfails, hmem⟩, fun hisFile => ⟨trivial, rfl, hisFile, by simp, by simp⟩⟩

/-- The size of the directory that the root is in, unless it is taken for absent. -/
theorem post_size_at_parent (fails : SizeCall → Bool) :
    Post (directorySizeLocked fails .parent) s
      (fun v s' => s' = s ∧ (v = listedBytes s.tree.parent ∧ fails .lexists = false ∧ (∀ c, SizeStops s.tree.parent c → fails c = false) ∨
        fails .lexists = true ∧ v = 0))
      fun _ s' => s' = s ∧ ∃ c, fails c = true ∧ SizeStops s.tree.parent c := by
  have hlookup {e : Sigma fun _ : Name => Entry} (he : e ∈ s.tree.parent.entries.entries) :
      s.tree.parent.entries.lookup e.1 = some e.2 :=
    (List.mem_dlookup_iff s.tree.parent.entries.nodupKeys).mpr he
  have hloop (entries : List (Sigma fun _ : Name => Entry)) (hsub : entries ⊆ s.tree.parent.entries.entries) (size : ℕ) :
      Post ((entries.map fun e => (e.1, e.2)).foldlM (childSize fails) size) s
        (fun v s' => s' = s ∧ v = size + (entries.map fun e => fileBytes (some e.2)).sum ∧ ∀ e ∈ entries, fails (.isFile e.1) = false ∧
          (e.2.isFile = true → fails (.isSymlink e.1) = false) ∧ ((∃ data, e.2 = .file data) → fails (.stat e.1) = false))
        fun _ s' => s' = s ∧ ∃ c, fails c = true ∧ SizeStops s.tree.parent c := by
    induction entries generalizing size with
    | nil => exact ⟨rfl, rfl, fun _ he => absurd he List.not_mem_nil⟩
    | cons e entries ih =>
      rw [List.map_cons, List.foldlM_cons, post_bind]
      refine (post_childSize fails size (hlookup (hsub List.mem_cons_self))).mono ?_ fun _ _ h => h
      rintro v s' ⟨rfl, rfl, hcalls⟩
      refine (ih (fun x hx => hsub (List.mem_cons_of_mem _ hx)) _).mono ?_ fun _ _ h => h
      rintro v s'' ⟨rfl, rfl, hrest⟩
      refine ⟨rfl, by rw [List.map_cons, List.sum_cons, Nat.add_assoc], fun x hx => ?_⟩
      rcases List.mem_cons.mp hx with rfl | hx
      · exact hcalls
      · exact hrest x hx
  simp only [directorySizeLocked, iterdir, post_bind, post_lexists, post_call, post_get, kind_parent, directory_parent, post_ite, post_pure,
    Option.isSome_some, Bool.and_true, Bool.not_eq_true', Bool.not_eq_false]
  refine ⟨fun hseen => ⟨fun hfails => ⟨trivial, .iterdir, hfails, trivial⟩, fun hiterdir => ?_⟩,
    fun hlexists => ⟨trivial, .inr ⟨hlexists, trivial⟩⟩⟩
  refine (hloop _ (List.Subset.refl _) 0).mono ?_ fun _ _ h => h
  rintro v s' ⟨rfl, rfl, hcalls⟩
  refine ⟨rfl, .inl ⟨Nat.zero_add _, hseen, fun c hc => ?_⟩⟩
  have hmem {name : Name} {e : Entry} (he : s'.tree.parent.entries.lookup name = some e) :=
    hcalls ⟨name, e⟩ ((List.mem_dlookup_iff s'.tree.parent.entries.nodupKeys).mp he)
  cases c with
  | lexists => exact hc.elim
  | iterdir => exact hiterdir
  | isFile name =>
    obtain ⟨e, he⟩ := Option.isSome_iff_exists.mp (AList.lookup_isSome.mpr hc)
    exact (hmem he).1
  | isSymlink name =>
    obtain ⟨e, he, hfile⟩ := hc
    exact (hmem he).2.1 hfile
  | stat name =>
    obtain ⟨data, he⟩ := hc
    exact (hmem he).2.2 ⟨data, rfl⟩

/-- Entries of the directory that the root is in are gone, and the root is as it was. -/
def Lessened (s s' : FileStore) : Prop :=
  s'.tree.children = s.tree.children ∧ s'.tree.parent.entries.entries.length < s.tree.parent.entries.entries.length

/-- To erase a name leaves no more entries. -/
theorem length_erase (es : AList fun _ : Name => Entry) (name : Name) : (es.erase name).entries.length ≤ es.entries.length :=
  (List.kerase_sublist name es.entries).length_le

/-- To erase a name that is there leaves fewer entries. -/
theorem length_erase_lt {es : AList fun _ : Name => Entry} {name : Name} {e : Entry} (h : es.lookup name = some e) :
    (es.erase name).entries.length < es.entries.length := by
  have hmem : name ∈ es.entries.keys := AList.lookup_isSome.mp (by rw [h]; rfl)
  have hkeys : (es.entries.kerase name).keys.length = es.entries.keys.length - 1 := by
    rw [List.keys_kerase, List.length_erase_of_mem hmem]
  have hpos := List.length_pos_of_mem hmem
  change (es.entries.kerase name).length < es.entries.length
  simp only [List.keys, List.length_map] at hkeys hpos
  omega

/-- A file or a link is unlinked, or a call on it fails and it stays. -/
theorem post_removeFirst (fails : RemoveCall → Bool) (removed : ℕ) {name : Name} {e : Entry}
    (he : s.tree.parent.entries.lookup name = some e)
    (hdir : ∀ size, e ≠ .dir size) :
    Post (removeChild fails .parent removed (name, e)) s
      (fun _ s' => Lessened s s' ∧ ∀ c ∈ entryCalls name e, fails c = false)
      fun _ s' => s' = s ∧ ∃ c ∈ entryCalls name e, fails c = true := by
  have hless : (s.tree.parent.entries.erase name).entries.length < s.tree.parent.entries.entries.length := length_erase_lt he
  cases e with
  | file data =>
    simp only [removeChild, Entry.isFile, Entry.isSymlink, unlink, modifyEntries, directory_parent, he, post_bind, post_call, post_get,
      post_modify, post_pure, Option.bind_some, Bool.not_true, Bool.not_false, Bool.and_true, Bool.false_eq_true,
      if_false, if_true, Tree.locate, Tree.setEntries, entryCalls, Lessened]
    simp
    grind
  | link toFile =>
    cases toFile <;>
    simp only [removeChild, Entry.isFile, Entry.isSymlink, unlink, modifyEntries, directory_parent, he, post_bind, post_call, post_get,
      post_modify, post_pure, Option.bind_some, Bool.not_true, Bool.not_false, Bool.and_false, Bool.false_eq_true,
      if_false, if_true, Tree.locate, Tree.setEntries, entryCalls, Lessened] <;>
    simp <;>
    grind
  | dir size => exact absurd rfl (hdir size)

/-- What is unlinked later does not come back. -/
theorem keeps_removeChild_parent (s₀ : FileStore) (fails : RemoveCall → Bool) (removed : ℕ) (child : Name × Entry) :
    Keeps (Lessened s₀) (removeChild fails .parent removed child) := by
  refine keeps_removeChild_of_unlink (fun fails file => (keeps_call fails).bind fun _ => keeps_get_bind fun s hs => ?_) fails removed child
  split
  · exact hs
  · exact hs
  · exact ⟨hs.1, (length_erase s.tree.parent.entries file).trans_lt hs.2⟩

/-- The removal of the directory that the root is in raises: before an entry is unlinked, or when one is. -/
theorem post_removal_parent {fails : RemoveCall → Bool} (hone : AtMostOne fails) :
    Post (removeJobDirectory host fails .parent false) s (fun _ _ => False)
      fun _ s' => s' = s ∧ (host.shared .parent = true ∨ s.tree.parent.isPrivate = false ∨
          (∃ c, fails c = true ∧ RemovalStops s.tree.parent c) ∨ StartsWithDirectory s.tree.parent) ∨
        Lessened s s' ∧ host.shared .parent = false ∧ (fails (.ensure .lexists) = true ∨ s.tree.parent.isPrivate = true) ∧
          ¬StartsWithDirectory s.tree.parent ∧ ∀ c, RemovalStops s.tree.parent c → fails c = false := by
  have hstops {c : RemoveCall} (hfails : fails c = true) (hc : RemovalStops s.tree.parent c) :
      host.shared .parent = true ∨ s.tree.parent.isPrivate = false ∨
        (∃ c, fails c = true ∧ RemovalStops s.tree.parent c) ∨ StartsWithDirectory s.tree.parent := .inr (.inr (.inl ⟨c, hfails, hc⟩))
  simp only [removeJobDirectory, post_bind, post_lexists, kind_parent, Option.isSome_some, Bool.and_true, post_ite, Bool.not_eq_true',
    Bool.not_eq_false, Bool.false_eq_true, false_implies, not_false_eq_true, true_implies, true_and, post_throw]
  refine ⟨fun hlexists => ?_, fun hlexists => .inl (hstops hlexists (.inl rfl))⟩
  have hensure : AtMostOne fun c => fails (.ensure c) := fun c c' hc hc' => RemoveCall.ensure.inj (hone _ _ hc hc')
  refine (post_ensure_at hensure kind_parent).mono ?_ ?_
  · rintro _ s' ⟨rfl, hshared, hlstat, hprivate⟩
    simp only [post_tryCatch, post_map, iterdir, post_bind, post_call, post_get, directory_parent, post_pure, post_ite, post_throw,
      Bool.and_false, Bool.false_eq_true, false_implies, not_false_eq_true, true_implies, true_and]
    refine ⟨fun hiterdir => .inl (hstops hiterdir (.inr (.inr (.inl rfl)))), fun hiterdir => ?_⟩
    cases hentries : s'.tree.parent.entries.entries with
    | nil =>
      have hhead : StartsWithDirectory s'.tree.parent := fun e he => by simp [hentries] at he
      simp only [List.map_nil, List.foldlM_nil, post_pure, rmdir, post_bind, post_call, post_throw]
      exact ⟨fun _ => .inl ⟨trivial, .inr (.inr (.inr hhead))⟩, fun _ => .inl ⟨trivial, .inr (.inr (.inr hhead))⟩⟩
    | cons e entries =>
      obtain ⟨name, e⟩ := e
      have hlookup : s'.tree.parent.entries.lookup name = some e := by
        change s'.tree.parent.entries.entries.dlookup name = some e
        rw [hentries]
        exact List.dlookup_cons_eq _ _ _
      rw [List.map_cons, List.foldlM_cons, post_bind]
      by_cases hdir : ∃ size, e = .dir size
      · obtain ⟨size, rfl⟩ := hdir
        have hhead : StartsWithDirectory s'.tree.parent := fun e he => by
          simp only [hentries, List.head?_cons, Option.mem_def, Option.some.injEq] at he
          exact ⟨size, by rw [← he]⟩
        simp [removeChild, Entry.isFile, Entry.isSymlink, hhead]
      · have hhead : ¬StartsWithDirectory s'.tree.parent := fun h => hdir (h ⟨name, e⟩ (by rw [hentries]; rfl))
        refine (post_removeFirst fails 0 hlookup fun size he => hdir ⟨size, he⟩).mono ?_ ?_
        · rintro removed s₁ ⟨hless, hcalls⟩
          have hdone (s₂ : FileStore) (hless₂ : Lessened s' s₂) : Lessened s' s₂ ∧ host.shared .parent = false ∧
              (fails (.ensure .lexists) = true ∨ s'.tree.parent.isPrivate = true) ∧ ¬StartsWithDirectory s'.tree.parent ∧
                ∀ c, RemovalStops s'.tree.parent c → fails c = false := by
            refine ⟨hless₂, hshared, hprivate, hhead, ?_⟩
            rintro c (rfl | rfl | rfl | ⟨first, hfirst, hc⟩)
            · exact hlexists
            · exact hlstat
            · exact hiterdir
            · simp only [hentries, List.head?_cons, Option.mem_def, Option.some.injEq] at hfirst
              subst hfirst
              exact hcalls c hc
          refine (keeps_foldlM (keeps_removeChild_parent s' fails) _ _ s₁ hless).mono (fun _ s₂ hless₂ => ?_) fun _ s₂ hless₂ =>
            .inr (hdone s₂ hless₂)
          simp only [rmdir, post_bind, post_call, post_throw]
          exact ⟨fun _ => .inr (hdone s₂ hless₂), fun _ => .inr (hdone s₂ hless₂)⟩
        · rintro _ s₁ ⟨rfl, c, hc, hfails⟩
          exact .inl ⟨rfl, hstops hfails (.inr (.inr (.inr ⟨_, by rw [hentries]; rfl, hc⟩)))⟩
  · rintro _ s' ⟨rfl, hshared | hprivate | hlstat⟩
    · exact .inl ⟨rfl, .inl hshared⟩
    · exact .inl ⟨rfl, .inr (.inl hprivate)⟩
    · exact .inl ⟨rfl, hstops hlstat (.inr (.inl rfl))⟩

/-! ## The staging directory -/

/-- The removal of a directory of regular files, by which of its calls fails: it is gone exactly when none does that is needed for it. -/
theorem post_removal_exact {fails : RemoveCall → Bool} (hone : AtMostOne fails) (h : s.child n = some (.dir d)) (hd : Plain d)
    (hshared : host.shared (.child n) = false) :
    Post (removeJobDirectory host fails (.child n) true) s
      (fun _ s' => s'.tree.parent = s.tree.parent ∧ (s'.child n = none ↔ ∀ c, Needed d.entries.keys c → fails c = false))
      fun _ s' => s'.tree.parent = s.tree.parent ∧ (s'.child n = none ↔ ∀ c, Needed d.entries.keys c → fails c = false) := by
  have hstays {s' : FileStore} {d' : Directory} (hset : Sets n (some (.dir d')) s s') {c : RemoveCall} (hc : Needed d.entries.keys c)
      (hfails : fails c = true) :
      s'.tree.parent = s.tree.parent ∧ (s'.child n = none ↔ ∀ c, Needed d.entries.keys c → fails c = false) := by
    refine ⟨hset.parent, iff_of_false (by simp [hset.child]) fun hok => ?_⟩
    rw [hok c hc] at hfails
    cases hfails
  simp only [removeJobDirectory, post_bind, post_lexists, kind_dir h, Option.isSome_some, Bool.and_true, post_ite, Bool.not_eq_true',
    Bool.not_eq_false, post_pure, true_implies, not_true_eq_false, false_implies, and_true]
  refine ⟨fun hlexists => ?_, fun hlexists => ⟨trivial, (hstays (.refl h) (c := .lexists) trivial hlexists).2⟩⟩
  have hensure : AtMostOne fun c => fails (.ensure c) := fun c c' hc hc' => RemoveCall.ensure.inj (hone _ _ hc hc')
  refine (post_ensure_at hensure (kind_dir h)).mono ?_ ?_
  · rintro _ s' ⟨rfl, -, hlstat, -⟩
    simp only [post_bind, post_tryCatch, post_map, iterdir, post_call, post_get, directory_dir h, post_pure, post_ite, post_throw]
    refine ⟨fun hiterdir => ⟨by simp, fun _ => ⟨trivial, (hstays (.refl h) (c := .iterdir) trivial hiterdir).2⟩⟩, fun hiterdir => ?_⟩
    refine (post_removeChildren fails hd.files 0 rfl (show s'.child n = some (.dir ⟨d.isPrivate, d.entries⟩) from h)).mono ?_ ?_
    · rintro v s₁ ⟨-, hset₁, hcalls⟩
      have hset₂ := sets_erase s₁ n (s₁.touched ++ [.child n])
      simp only [rmdir, post_bind, post_call, post_get, hset₁.child, AList.keys_empty, List.isEmpty_nil, if_true, post_modify]
      refine ⟨fun hrmdir => hset₁.child ▸ hstays hset₁ (c := .rmdir) trivial hrmdir, fun hrmdir => ⟨hset₂.parent.trans hset₁.parent, ?_⟩⟩
      refine iff_of_true hset₂.child fun c hc => ?_
      cases c with
      | lexists => exact hlexists
      | ensure c => exact (show c = .lstat from hc) ▸ hlstat
      | iterdir => exact hiterdir
      | rmdir => exact hrmdir
      | isSymlink name => exact hc.elim
      | isFile name | isFileAgain name | isSymlinkAgain name | stat name | unlink name => exact hcalls _ name rfl hc
    · rintro _ s₁ ⟨gone, e, rest, happend, ⟨c, hc, hfails⟩, es', -, hset₁⟩
      have hmem : e.1 ∈ d.entries.keys := by
        rw [keys_entries, ← happend]
        simp
      refine hstays hset₁ (c := c) ?_ hfails
      cases c with
      | isFile name | isFileAgain name | isSymlinkAgain name | stat name | unlink name =>
        cases hc
        exact hmem
      | lexists | ensure _ | iterdir | isSymlink _ | rmdir => cases hc
  · rintro _ s' ⟨rfl, hrefused | hrefused | hlstat⟩
    · simp [hshared] at hrefused
    · simp [hd.isPrivate] at hrefused
    · exact hstays (.refl h) (c := .ensure .lstat) rfl hlstat

variable {fails : WriteJobCall → Bool} {stdout stderr : Bytes}

/-- The cleanup of `write_job`, with the staging directory there. -/
theorem post_cleanup_exact (e : OsError) (hone : AtMostOne fails) (h : s.child g = some (.dir d)) (hd : Plain d)
    (hshared : host.shared (.child g) = false) :
    Post (do
        let _ ← removeJobDirectory host (fun c => fails (.cleanup c)) (.child g) true
        rescan (fails .rescan)
        throw e : Op Unit) s (fun _ _ => False) fun _ s' =>
      s'.tree.parent = s.tree.parent ∧ (s'.child g = none ↔ ∀ c, Needed d.entries.keys c → fails (.cleanup c) = false) := by
  have hcleanup : AtMostOne fun c => fails (.cleanup c) := fun c c' hc hc' => WriteJobCall.cleanup.inj (hone _ _ hc hc')
  rw [post_bind]
  refine (post_removal_exact hcleanup h hd hshared).mono (fun _ s' hs' => ?_) fun _ _ hs' => hs'
  simp only [rescan, post_bind, post_call, post_modify, post_throw]
  exact ⟨fun _ => hs', fun _ => hs'⟩

/-- A temporary file is created where no call of it fails. -/
theorem post_createTemp_ok (fails : TempCall → Bool) (p : Place) (stream : Stream) (tokens : List String) :
    Post (createPrivateTempFile fails p stream tokens) s (fun _ _ => ∀ c, fails c = false) fun _ _ => True := by
  simp only [createPrivateTempFile, post_bind, post_call, post_get]
  refine ⟨fun _ => trivial, fun hdirectory => ?_⟩
  split
  · split
    · trivial
    · simp only [post_bind, post_call, modifyEntries, post_modify, post_pure]
      refine ⟨fun _ => trivial, fun hopen => ⟨fun _ => trivial, fun hfchmod => ⟨fun _ => trivial, fun hclose c => ?_⟩⟩⟩
      cases c with
      | openDirectory => exact hdirectory
      | «open» => exact hopen
      | fchmod => exact hfchmod
      | close => exact hclose
  · trivial
  · trivial
  · trivial

/-- A temporary file is written where no call of it fails. -/
theorem post_writeTemporary_ok (fails : FileCall → Bool) (p : Place) (temporary : Name) (data : Bytes) :
    Post (writeTemporary fails p temporary data) s (fun _ _ => ∀ c, fails c = false) fun _ _ => True := by
  simp only [writeTemporary, post_bind, post_call, modifyEntries, post_modify]
  refine ⟨fun _ => trivial, fun hfdopen => ⟨fun _ => trivial, fun hwrite => ⟨fun _ => trivial, fun hflush => ⟨fun _ => trivial,
    fun hfsync => ⟨fun _ => trivial, fun hclose c => ?_⟩⟩⟩⟩⟩
  cases c with
  | fdopen => exact hfdopen
  | write => exact hwrite
  | flush => exact hflush
  | fsync => exact hfsync
  | close => exact hclose

/-- A file is renamed where the call does not fail. -/
theorem post_replaceFile_ok (fails : Bool) (p : Place) (source target : Name) :
    Post (replaceFile fails p source target) s (fun _ _ => fails = false) fun _ _ => True := by
  simp only [replaceFile, post_bind, post_call, post_get]
  refine ⟨fun _ => trivial, fun hreplace => ?_⟩
  split
  · trivial
  · split
    · trivial
    · trivial
    · exact hreplace

/-- A stream is staged where no call of it fails. -/
theorem post_stage_ok (fails : StageCall → Bool) (draws : Draws) (p : Place) (stream : Stream) (data : Bytes) :
    Post (stage fails draws p stream data) s (fun _ _ => ∀ c, fails c = false) fun _ _ => True := by
  simp only [stage, post_bind]
  refine (post_createTemp_ok _ p stream _).mono (fun temporary _ htemp => ?_) fun _ _ _ => trivial
  refine (post_writeTemporary_ok _ p temporary data).mono (fun _ _ hfile => ?_) fun _ _ _ => trivial
  refine (post_replaceFile_ok _ p temporary _).mono (fun _ _ hreplace c => ?_) fun _ _ _ => trivial
  cases c with
  | temp c => exact htemp c
  | file c => exact hfile c
  | replace => exact hreplace

/-- No call of the staging failed when it is done. -/
theorem post_stageStreams_ok (draws : Draws) (p : Place) :
    Post (stageStreams fails draws p stdout stderr) s (fun _ _ => ∀ c, c.ofStaging = true → fails c = false) fun _ _ => True := by
  simp only [stageStreams, post_bind]
  refine (post_stage_ok _ draws p .stdout stdout).mono (fun _ _ hstdout => ?_) fun _ _ _ => trivial
  refine (post_stage_ok _ draws p .stderr stderr).mono (fun _ _ hstderr => ?_) fun _ _ _ => trivial
  refine (post_syncPath _).mono (fun _ _ hsync c hc => ?_) fun _ _ _ => trivial
  cases c with
  | stage stream c =>
    cases stream with
    | stdout => exact hstdout c
    | stderr => exact hstderr c
  | syncStaging c => exact hsync.2 c
  | lexists | ensureTarget _ | size _ | ensureStaging _ | «exists» | remove _ | replace | syncRoot _ | cleanup _ | rescan => cases hc

/-! ## The parts of the call -/

/-- A new directory is created where the call does not fail. -/
theorem post_ensure_new_ok (fails : EnsureCall → Bool) (h : s.child n = none) :
    Post (ensurePrivateDirectory host fails (.child n)) s (fun _ _ => fails .mkdir = false) fun _ _ => True := by
  rw [ensurePrivateDirectory]
  refine post_ite.mpr ⟨fun _ => trivial, fun _ => ?_⟩
  simp [kind_none h, mkdir, h]
  grind

/-- The calls up to the staging directory. -/
def WriteJobCall.ofPrepare : WriteJobCall → Bool
  | .lexists | .ensureTarget _ | .size _ | .ensureStaging _ => true
  | .stage _ _ | .syncStaging _ | .exists | .remove _ | .replace | .syncRoot _ | .cleanup _ | .rescan => false

/-- What is known of the directory that the root is in when the staging directory is there: it is shared or not private only when the
failing call hid that. -/
structure Prepared (host : Host) (fails : WriteJobCall → Bool) (s : FileStore) (g : Name) (new : ℕ) : Prop where
  visible : host.shared .parent = true ∨ s.tree.parent.isPrivate = false → fails .lexists = true ∨ fails (.ensureTarget .lexists) = true
  fits : Fits host s (listedBytes s.tree.parent) new
  shared : host.shared (.child g) = false
  accepts : host.accepts g = true

/-- The staging directory is there, and no call failed that would have stopped `write_job` before. -/
structure Staged (host : Host) (fails : WriteJobCall → Bool) (s s' : FileStore) (g : Name) (new : ℕ) : Prop where
  sets : Sets g (some (.dir ⟨true, ∅⟩)) s s'
  prepared : Prepared host fails s g new
  passed : ∀ c, c.ofPrepare = true → Stops host s new c ∨ LeavesStaging c → fails c = false

/-- `write_job` raised at the start: nothing is changed, or the staging directory is left behind. -/
def NotStaged (host : Host) (fails : WriteJobCall → Bool) (s s' : FileStore) (g : Name) (new : ℕ) : Prop :=
  s' = s ∧ (ParentRefused host s g new ∨ ∃ c, fails c = true ∧ Stops host s new c) ∨
    Sets g (some (.dir ⟨true, ∅⟩)) s s' ∧ ¬ParentRefused host s g new ∧ ∃ c, fails c = true ∧ LeavesStaging c ∧ ¬Stops host s new c

/-- From the size of what is there on. -/
theorem post_prepare_rest (hone : AtMostOne fails) (hfresh : s.child g = none)
    (hvisible : host.shared .parent = true ∨ s.tree.parent.isPrivate = false → fails .lexists = true ∨
      fails (.ensureTarget .lexists) = true)
    (htarget : fails (.ensureTarget .lstat) = false) :
    Post (do
        let existing ← directorySizeLocked (fun c => fails (.size c)) .parent
        checkCapacity host existing (stdout.length + stderr.length)
        let _ ← ensurePrivateDirectory host (fun c => fails (.ensureStaging c)) (.child g)
        pure ()) s (fun _ s' => Staged host fails s s' g (stdout.length + stderr.length)) fun _ s' =>
      NotStaged host fails s s' g (stdout.length + stderr.length) := by
  simp only [post_bind]
  refine (post_size_at_parent _).mono ?_ ?_
  · rintro existing s' ⟨rfl, hexisting⟩
    refine (post_checkCapacity existing _).mono ?_ ?_
    · rintro _ s' ⟨rfl, hroom⟩
      have hfits : Fits host s' (listedBytes s'.tree.parent) (stdout.length + stderr.length) := by
        refine hroom.mono ?_
        obtain ⟨rfl, -⟩ | ⟨-, rfl⟩ := hexisting
        · exact Nat.le_refl _
        · exact Nat.zero_le _
      have hsize (c : SizeCall) (hc : Stops host s' (stdout.length + stderr.length) (.size c)) : fails (.size c) = false := by
        obtain ⟨-, hlexists, hcalls⟩ | ⟨hlexists, rfl⟩ := hexisting
        · obtain hc | ⟨rfl, -⟩ := hc
          · exact hcalls c hc
          · exact hlexists
        · refine hone.eq_false hlexists ?_
          rintro ⟨⟩
          obtain hc | ⟨-, hfull⟩ := hc
          · exact hc
          · exact hfull hroom
      refine ((post_ensure_new _ hfresh).and (post_ensure_new_ok _ hfresh)).mono ?_ ?_
      · rintro _ s₁ ⟨⟨hset, hshared, haccepts, hopen, hfchmod, hclose⟩, hmkdir⟩
        refine ⟨hset, ⟨hvisible, hfits, hshared, haccepts⟩, fun c hprepare hc => ?_⟩
        cases c with
        | ensureTarget c =>
          obtain rfl : c = .lstat := hc.resolve_right id
          exact htarget
        | size c => exact hsize c (hc.resolve_right id)
        | ensureStaging c =>
          obtain rfl | rfl | rfl | rfl := hc
          · exact hmkdir
          · exact hopen
          · exact hfchmod
          · exact hclose
        | lexists => exact (hc.elim id id).elim
        | stage _ _ | syncStaging _ | «exists» | remove _ | replace | syncRoot _ | cleanup _ | rescan => cases hprepare
      · rintro _ s₁ ⟨⟨rfl, hshared | haccepts | hmkdir⟩ | ⟨hset, hshared, haccepts, hcause⟩, -⟩
        · exact .inl ⟨rfl, .inl (.inr (.inr (.inr (.inl hshared))))⟩
        · exact .inl ⟨rfl, .inl (.inr (.inr (.inr (.inr haccepts))))⟩
        · exact .inl ⟨rfl, .inr ⟨.ensureStaging .mkdir, hmkdir, rfl⟩⟩
        · obtain ⟨c, hfails, hc⟩ : ∃ c, fails (.ensureStaging c) = true ∧ (c = .open ∨ c = .fchmod ∨ c = .close) := by
            obtain h | h | h := hcause
            · exact ⟨_, h, .inl rfl⟩
            · exact ⟨_, h, .inr (.inl rfl)⟩
            · exact ⟨_, h, .inr (.inr rfl)⟩
          refine .inr ⟨hset, ?_, _, hfails, hc, ?_⟩
          · have hseen {c' : WriteJobCall} (hfails' : fails c' = true) : c' = .ensureStaging c := hone _ _ hfails' hfails
            rintro (h | h | h | h | h)
            · exact (hvisible (.inl h)).elim (fun h' => by cases hseen h') fun h' => by cases hseen h'
            · exact (hvisible (.inr h)).elim (fun h' => by cases hseen h') fun h' => by cases hseen h'
            · exact h hfits
            · simp [hshared] at h
            · simp [haccepts] at h
          · rintro rfl
            simp at hc
    · rintro _ s' ⟨rfl, -, hfull⟩
      refine .inl ⟨rfl, ?_⟩
      obtain ⟨rfl, -⟩ | ⟨hlexists, rfl⟩ := hexisting
      · exact .inl (.inr (.inr (.inl hfull)))
      · exact .inr ⟨.size .lexists, hlexists, .inr ⟨rfl, hfull⟩⟩
  · rintro _ s' ⟨rfl, c, hfails, hc⟩
    exact .inl ⟨rfl, .inr ⟨.size c, hfails, .inl hc⟩⟩
/-- `write_job` of the job id `..` up to the staging directory. -/
theorem post_prepare_at_parent (hone : AtMostOne fails) (hfresh : s.child g = none) :
    Post (prepare host fails .parent (.child g) stdout stderr) s (fun _ s' => Staged host fails s s' g (stdout.length + stderr.length))
      fun _ s' => NotStaged host fails s s' g (stdout.length + stderr.length) := by
  have hrest := @post_prepare_rest host s g fails stdout stderr hone hfresh
  simp only [prepare, post_bind, post_lexists, kind_parent, Option.isSome_some, Bool.and_true, post_ite, Bool.not_eq_true',
    Bool.not_eq_false] at hrest ⊢
  refine ⟨fun _ => ?_, fun hlexists => hrest (fun _ => .inl hlexists) (hone.eq_false hlexists (by simp))⟩
  have hensure : AtMostOne fun c => fails (.ensureTarget c) := fun c c' hc hc' => WriteJobCall.ensureTarget.inj (hone _ _ hc hc')
  refine (post_ensure_at hensure kind_parent).mono ?_ ?_
  · rintro _ s' ⟨rfl, hshared, hlstat, hprivate⟩
    refine hrest (fun h => .inr (hprivate.resolve_right ?_)) hlstat
    obtain h | h := h
    · simp [hshared] at h
    · simp [h]
  · rintro _ s' ⟨rfl, hshared | hprivate | hlstat⟩
    · exact .inl ⟨rfl, .inl (.inl hshared)⟩
    · exact .inl ⟨rfl, .inl (.inr (.inl hprivate))⟩
    · exact .inl ⟨rfl, .inr ⟨.ensureTarget .lstat, hlstat, rfl⟩⟩

/-- What the call left of the directory that the root is in and of the staging directory is what was there. -/
def Left (g : Name) (s s' : FileStore) : Prop := AsBefore (some (.dir s.tree.parent)) (some (.dir s'.tree.parent)) ∧ s'.child g = none

/-- Nothing is left behind where the staging directory is gone and the parent as it was. -/
theorem left_iff {s' : FileStore} (hparent : s'.tree.parent = s.tree.parent) : Left g s s' ↔ s'.child g = none := by
  rw [Left, hparent]
  exact and_iff_right ⟨rfl, .refl _⟩

/-- The published names are those of the two streams. -/
theorem mem_published {stdout stderr : Bytes} {name : Name} :
    name ∈ (published stdout stderr).entries.keys ↔ name ∈ [binName .stdout, binName .stderr] := by
  change name ∈ (published stdout stderr).entries ↔ _
  rw [published, AList.mem_insert, AList.mem_insert, List.mem_pair, or_comm]
  simp [AList.notMem_empty]

/-- The cleanup removes the staging directory when no call fails that leaves it behind. -/
theorem needed_published {stdout stderr : Bytes} {c : RemoveCall} :
    Needed (published stdout stderr).entries.keys c ↔ LeavesStaging (.cleanup c) := by
  cases c with
  | isFile name | isFileAgain name | isSymlinkAgain name | stat name | unlink name => exact mem_published
  | lexists | ensure _ | iterdir | isSymlink _ | rmdir => exact Iff.rfl

/-- A call that stops the write is not one of the handler. -/
theorem Stops.not_ofHandler {new : ℕ} {c : WriteJobCall} (h : Stops host s new c) : c.ofHandler = false := by
  cases c with
  | cleanup _ | rescan => exact h.elim
  | lexists | ensureTarget _ | size _ | ensureStaging _ | stage _ _ | syncStaging _ | «exists» | remove _ | replace | syncRoot _ => rfl

/-- How `write_job` of the job id `..` raises with the staging directory there: the call that fails came before anything was removed; or a
directory is listed first beside the root; or something beside the root is gone. -/
inductive ParentRaised (host : Host) (fails : WriteJobCall → Bool) (g : Name) (stdout stderr : Bytes) (s s' : FileStore) :
    Directory → Prop where
  | stopped {d : Directory} {c : WriteJobCall} (hparent : s'.tree.parent = s.tree.parent) (hfails : fails c = true)
      (hhandler : c.ofHandler = false) (hspared : ParentSpared host fails s g (stdout.length + stderr.length)) :
        ParentRaised host fails g stdout stderr s s' d
  | met (hparent : s'.tree.parent = s.tree.parent) (hhead : StartsWithDirectory s.tree.parent) :
      ParentRaised host fails g stdout stderr s s' (published stdout stderr)
  | lessened {d : Directory} (hless : s'.tree.parent.entries.entries.length < s.tree.parent.entries.entries.length)
      (hspared : ¬ParentSpared host fails s g (stdout.length + stderr.length)) : ParentRaised host fails g stdout stderr s s' d

/-- The removal of the directory that the root is in, with the staging directory written. -/
theorem post_publish_at_parent {s₁ : FileStore} (hone : AtMostOne fails)
    (hprepared : Prepared host fails s g (stdout.length + stderr.length))
    (hpassed : ∀ c, c.ofPrepare = true → Stops host s (stdout.length + stderr.length) c ∨ LeavesStaging c → fails c = false)
    (hstages : ∀ c, c.ofStaging = true → fails c = false) (hparent : s₁.tree.parent = s.tree.parent)
    (hg : s₁.child g = some (.dir (published stdout stderr))) :
    Post (publish host fails .parent g stdout stderr) s₁ (fun _ _ => False) fun _ s' =>
      s'.child g = some (.dir (published stdout stderr)) ∧ ParentRaised host fails g stdout stderr s s' (published stdout stderr) := by
  simp only [publish, post_bind, post_call, post_get, Tree.leadsSomewhere, Tree.locate, if_true]
  refine ⟨fun hexists => ⟨hg, .stopped hparent hexists rfl (.inr (.inl ⟨_, hexists, trivial⟩))⟩, fun hexists => ?_⟩
  have hremove : AtMostOne fun c => fails (.remove c) := fun c c' hc hc' => WriteJobCall.remove.inj (hone _ _ hc hc')
  refine (post_removal_parent hremove).mono (fun _ _ => False.elim) ?_
  rintro e s₂ (⟨rfl, hcause⟩ | ⟨⟨hchildren, hless⟩, hshared, hprivate, hhead, hpasses⟩)
  · rw [hparent] at hcause
    have hhidden (h : host.shared .parent = true ∨ s.tree.parent.isPrivate = false)
        (hspared : ParentSpared host fails s g (stdout.length + stderr.length)) :
        ParentRaised host fails g stdout stderr s s₂ (published stdout stderr) := by
      obtain hfails | hfails := hprepared.visible h
      · exact .stopped hparent hfails rfl hspared
      · exact .stopped hparent hfails rfl hspared
    refine ⟨hg, ?_⟩
    obtain h | h | ⟨c, hfails, hc⟩ | hhead := hcause
    · exact hhidden (.inl h) (.inl (.inl h))
    · exact hhidden (.inr h) (.inl (.inr (.inl h)))
    · exact .stopped hparent hfails rfl (.inr (.inl ⟨_, hfails, hc⟩))
    · exact .met hparent hhead
  · rw [hparent] at hless hprivate hhead hpasses
    refine ⟨(congrArg (·.lookup g) hchildren).trans hg, .lessened hless ?_⟩
    rintro ((h | h | h | h | h) | ⟨c, hfails, hc⟩ | ⟨h, -⟩)
    · simp [hshared] at h
    · -- the check of the removal would have seen it, unless a second call failed
      have hhidden := hprivate.resolve_right (by simp [h])
      obtain hfails | hfails := hprepared.visible (.inr h)
      · cases hone _ _ hfails hhidden
      · cases hone _ _ hfails hhidden
    · exact h hprepared.fits
    · simp [hprepared.shared] at h
    · simp [hprepared.accepts] at h
    · have hnot : fails c = false := by
        cases c with
        | ensureTarget _ | size _ | ensureStaging _ => exact hpassed _ rfl (.inl hc)
        | stage _ _ | syncStaging _ => exact hstages _ rfl
        | «exists» => exact hexists
        | remove c => exact hpasses c hc
        | lexists | replace | syncRoot _ | cleanup _ | rescan => exact hc.elim
      rw [hnot] at hfails
      cases hfails
    · exact hhead h

/-- The cleanup after that. -/
theorem ParentRaised.cleanup {s₁ : FileStore} (h : ParentRaised host fails g stdout stderr s s₁ d) (hone : AtMostOne fails)
    (hprepared : Prepared host fails s g (stdout.length + stderr.length))
    (hstaged : ∀ c, LeavesStaging (.ensureStaging c) → fails (.ensureStaging c) = false)
    (hg : s₁.child g = some (.dir d)) (hd : Plain d) (e : OsError) :
    Post (do
        let _ ← removeJobDirectory host (fun c => fails (.cleanup c)) (.child g) true
        rescan (fails .rescan)
        throw e : Op Unit) s₁ (fun _ _ => False) fun _ s' =>
      Left g s s' ↔ ParentSpared host fails s g (stdout.length + stderr.length) := by
  refine (post_cleanup_exact e hone hg hd hprepared.shared).mono (fun _ _ => id) ?_
  rintro _ s₂ ⟨hparent', hgone⟩
  cases h with
  | @stopped _ c hparent hfails hhandler hspared =>
    refine iff_of_true ((left_iff (hparent'.trans hparent)).mpr (hgone.mpr fun c' _ => hone.eq_false hfails ?_)) hspared
    rintro rfl
    cases hhandler
  | met hparent hhead =>
    rw [left_iff (hparent'.trans hparent), hgone]
    constructor
    · intro hcleanup
      refine .inr (.inr ⟨hhead, fun c hc => ?_⟩)
      cases c with
      | ensureStaging c => exact hstaged c hc
      | cleanup c => exact hcleanup c (needed_published.mpr hc)
      | lexists | ensureTarget _ | size _ | stage _ _ | syncStaging _ | «exists» | remove _ | replace | syncRoot _ | rescan => exact hc.elim
    · -- what else spares the parent is a failing call of another part, the only one that fails
      have hother {c : WriteJobCall} (hfails : fails c = true) (hhandler : c.ofHandler = false) (c' : RemoveCall) :
          fails (.cleanup c') = false := by
        refine hone.eq_false hfails ?_
        rintro rfl
        cases hhandler
      rintro ((h | h | h | h | h) | ⟨c, hfails, hc⟩ | ⟨-, hok⟩) c' hc'
      · exact (hprepared.visible (.inl h)).elim (fun hfails => hother hfails rfl c') fun hfails => hother hfails rfl c'
      · exact (hprepared.visible (.inr h)).elim (fun hfails => hother hfails rfl c') fun hfails => hother hfails rfl c'
      · exact absurd hprepared.fits h
      · simp [hprepared.shared] at h
      · simp [hprepared.accepts] at h
      · exact hother hfails hc.not_ofHandler c'
      · exact hok _ (needed_published.mp hc')
  | lessened hless hspared =>
    refine iff_of_false (fun hleft => ?_) hspared
    have hlength := hleft.1.2.length_eq
    rw [hparent'] at hlength
    exact absurd hlength hless.ne'

/-- `write_job` of the job id `..` raises, and leaves what was there exactly when something spares it. -/
theorem post_writeJob_at_parent {draws : Draws} (hone : AtMostOne fails) (hfresh : s.child (stagingName ".." draws.staging) = none) :
    Post (writeJob host fails draws ".." stdout stderr) s (fun _ _ => False) fun _ s' =>
      Left (stagingName ".." draws.staging) s s' ↔
        ParentSpared host fails s (stagingName ".." draws.staging) (stdout.length + stderr.length) := by
  have hname : isName ".." = true := by decide
  generalize hg : stagingName ".." draws.staging = g at hfresh ⊢
  simp only [writeJob, hname, place, hg, Bool.not_true, Bool.false_eq_true, if_false, if_true]
  rw [post_bind]
  refine (post_prepare_at_parent hone hfresh).mono ?_ ?_
  · rintro _ s₁ ⟨hset, hprepared, hpassed⟩
    have hstaged (c : EnsureCall) (hc : LeavesStaging (.ensureStaging c)) : fails (.ensureStaging c) = false := hpassed _ rfl (.inr hc)
    rw [post_bind, post_tryCatch, post_bind]
    refine ((post_stageStreams draws hset.child).and (post_stageStreams_ok draws _)).mono ?_ ?_
    · rintro _ s₂ ⟨hset₂, hstages⟩
      refine (post_publish_at_parent hone hprepared hpassed hstages (hset₂.parent.trans hset.parent) hset₂.child).mono
        (fun _ _ => False.elim) ?_
      rintro e s₃ ⟨hthere, hraises⟩
      exact (hraises.cleanup hone hprepared hstaged hthere (plain_published _ _) e).mono (fun _ _ => False.elim) fun _ _ h => h
    · rintro e s₂ ⟨⟨⟨d, hd, hset₂⟩, c, hfails, hstaging⟩, -⟩
      have hstops : Stops host s (stdout.length + stderr.length) c := by
        cases c with
        | stage _ _ | syncStaging _ => trivial
        | lexists | ensureTarget _ | size _ | ensureStaging _ | «exists» | remove _ | replace | syncRoot _ | cleanup _ | rescan =>
          cases hstaging
      have hraises : ParentRaised host fails g stdout stderr s s₂ d :=
        .stopped (hset₂.parent.trans hset.parent) hfails hstops.not_ofHandler (.inr (.inl ⟨c, hfails, hstops⟩))
      exact (hraises.cleanup hone hprepared hstaged hset₂.child hd e).mono (fun _ _ => False.elim) fun _ _ h => h
  · rintro _ s₁ (⟨rfl, hcause⟩ | ⟨hset, hrefused, c, hfails, hleaves, hstops⟩)
    · exact iff_of_true ((left_iff rfl).mpr hfresh) (hcause.imp id .inl)
    · refine iff_of_false (fun h => ?_) ?_
      · have hgone := h.2
        rw [hset.child] at hgone
        cases hgone
      · rintro (h | ⟨c', hfails', hc'⟩ | ⟨-, hok⟩)
        · exact hrefused h
        · cases hone _ _ hfails hfails'
          exact hstops hc'
        · rw [hok c hleaves] at hfails
          cases hfails

end Parts

end OutputFiles

end SharkRail
