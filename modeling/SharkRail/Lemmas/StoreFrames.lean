import SharkRail.Lemmas.StoreCalls

/-!
# What the methods of the output store keep

The calls change the tree in five ways: the entries of a directory, an entry of the root that is made, deleted or moved, and the account.
`Stable` says of a predicate of the state that these changes keep it, where they are made at places and at names that it allows, and then
every part of a method keeps it. No part needs more of a place that it works in than that.
-/

namespace SharkRail

namespace OutputFiles

open Effectful

/-- A predicate that is kept by changes of the entries of allowed places and of allowed entries of the root. -/
structure Stable (place : Place → Prop) (name : Name → Prop) (I : FileStore → Prop) : Prop where
  used : ∀ s used, I s → I { s with usedBytes := used }
  entries : ∀ s p f, place p → I s →
    I { s with tree := s.tree.setEntries (s.tree.locate p) f, touched := s.touched ++ [s.tree.locate p] }
  make : ∀ s n, name n → s.child n = none → I s →
    I { s with tree.children := s.tree.children.insert n (.dir ⟨true, ∅⟩), touched := s.touched ++ [.child n] }
  delete : ∀ s n, name n → I s → I { s with tree.children := s.tree.children.erase n, touched := s.touched ++ [.child n] }
  move : ∀ s source target moved, place (.child source) → name source → name target → s.child source = some moved → I s →
    I { s with
      tree.children := (s.tree.children.erase source).insert target moved
      touched := s.touched ++ [.child source, .child target] }

/-- A place whose own entry of the root may be made or deleted. -/
def Place.Allowed (name : Name → Prop) : Place → Prop
  | .parent => True
  | .child n => name n

section Parts

variable {place : Place → Prop} {name : Name → Prop} {I : FileStore → Prop} {host : Host} {p : Place}

/-- To look for a name keeps every invariant. -/
theorem keeps_lexists (fails : Bool) (p : Place) : Keeps I (lexists fails p) := fun s hs => by simp [hs]

/-- To create an allowed directory keeps a stable invariant. -/
theorem keeps_mkdir (hI : Stable place name I) (fails : Bool) (hp : p.Allowed name) : Keeps I (mkdir host fails p) := by
  refine (keeps_call _).bind fun _ => ?_
  cases p with
  | parent => exact keeps_throw _
  | child n =>
    refine (keeps_throw _).ite (keeps_get_bind fun s hs => post_ite.mpr ⟨fun _ => hs, fun hnone => ?_⟩)
    rw [Option.not_isSome_iff_eq_none] at hnone
    exact hI.make s n hp hnone hs

/-- To list a directory keeps every invariant. -/
theorem keeps_iterdir (fails : Bool) (p : Place) : Keeps I (iterdir fails p) := by
  refine (keeps_call _).bind fun _ => keeps_get_bind fun s hs => ?_
  split
  · exact hs
  · exact keeps_get_bind (fun s' hs' => post_ite.mpr ⟨fun _ => hs', fun _ => hs'⟩) s hs

/-- To change what stands at an allowed place keeps a stable invariant. -/
theorem keeps_modifyEntries (hI : Stable place name I) (hp : place p) (f : AList (fun _ : Name => Entry) → AList fun _ : Name => Entry) :
    Keeps I (modifyEntries p f) :=
  keeps_modify fun s hs => hI.entries s p f hp hs

/-- To unlink a name at an allowed place keeps a stable invariant. -/
theorem keeps_unlink (hI : Stable place name I) (fails : Bool) (hp : place p) (file : Name) : Keeps I (unlink fails p file) := by
  refine (keeps_call _).bind fun _ => keeps_get_bind fun s hs => ?_
  split
  · exact hs
  · exact hs
  · exact keeps_modifyEntries hI hp _ s hs

/-- To remove an allowed directory keeps a stable invariant. -/
theorem keeps_rmdir (hI : Stable place name I) (fails : Bool) (hp : p.Allowed name) : Keeps I (rmdir fails p) := by
  refine (keeps_call _).bind fun _ => ?_
  cases p with
  | parent => exact keeps_throw _
  | child n =>
    refine keeps_get_bind fun s hs => ?_
    split
    · exact post_ite.mpr ⟨fun _ => hI.delete s n hp hs, fun _ => hs⟩
    · exact hs
    · exact hs

/-- To rename a file at an allowed place keeps a stable invariant. -/
theorem keeps_replaceFile (hI : Stable place name I) (fails : Bool) (hp : place p) (source target : Name) :
    Keeps I (replaceFile fails p source target) := by
  refine (keeps_call _).bind fun _ => keeps_get_bind fun s hs => ?_
  split
  · exact hs
  · split
    · exact hs
    · exact hs
    · exact keeps_modifyEntries hI hp _ s hs

/-- To rename an allowed directory to an allowed one keeps a stable invariant. -/
theorem keeps_replaceDirectory (hI : Stable place name I) (fails : Bool) {source : Name} (hplace : place (.child source))
    (hsource : name source) (hp : p.Allowed name) :
    Keeps I (replaceDirectory host fails source p) := by
  refine (keeps_call _).bind fun _ => keeps_get_bind fun s hs => ?_
  cases hmoved : s.tree.children.lookup source with
  | none => exact hs
  | some moved =>
    cases p with
    | parent => exact hs
    | child target =>
      refine post_ite.mpr ⟨fun _ => hs, fun _ => ?_⟩
      have hmove := hI.move s source target moved hplace hsource hp hmoved hs
      simp only [post_bind, post_get]
      cases s.tree.children.lookup target with
      | none => exact hmove
      | some c =>
        cases c with
        | dir d => exact post_ite.mpr ⟨fun _ => hmove, fun _ => hs⟩
        | file _ | link _ => exact hs

/-- To validate a directory keeps every invariant. -/
theorem keeps_validate (fails : Bool) (p : Place) : Keeps I (validatePrivateDirectory fails p) := by
  refine (keeps_call _).bind fun _ => keeps_get_bind fun s hs => ?_
  split <;> exact hs

/-- To ensure an allowed directory keeps a stable invariant. -/
theorem keeps_ensure (hI : Stable place name I) (fails : EnsureCall → Bool) (hp : p.Allowed name) :
    Keeps I (ensurePrivateDirectory host fails p) := by
  refine (keeps_throw _).ite ((keeps_lexists _ _).bind fun _ => ((keeps_validate _ _).bind fun _ => keeps_pure _).ite ?_)
  refine (keeps_lexists _ _).bind fun _ => (keeps_pure _).ite ?_
  have hmade : Keeps I (tryCatch (do
      mkdir host (fails .mkdir) p
      pure true) fun e =>
        if e = .fileExistsError then do
          validatePrivateDirectory (fails .lstatFound) p
          pure false
        else throw e) :=
    ((keeps_mkdir hI _ hp).bind fun _ => keeps_pure _).tryCatch fun e =>
      ((keeps_validate _ _).bind fun _ => keeps_pure _).ite (keeps_throw e)
  refine hmade.bind fun _ => Keeps.ite ?_ (keeps_pure _)
  exact (keeps_call _).bind fun _ => (keeps_call _).bind fun _ => (keeps_call _).bind fun _ => keeps_pure _

/-- To measure a directory keeps every invariant. -/
theorem keeps_directorySize (fails : SizeCall → Bool) (p : Place) : Keeps I (directorySizeLocked fails p) := by
  have hchild (size : ℕ) (child : Name × Entry) : Keeps I (childSize fails size child) := by
    refine (keeps_call _).bind fun _ => (keeps_pure _).ite ?_
    exact (keeps_call _).bind fun _ => (keeps_pure _).ite ((keeps_call _).bind fun _ => keeps_pure _)
  refine (keeps_lexists _ _).bind fun _ => Keeps.ite ?_ (keeps_pure _)
  exact (keeps_iterdir _ _).bind fun _ => keeps_foldlM hchild _ _

/-- To check the quota keeps every invariant. -/
theorem keeps_checkCapacity (existing new : ℕ) : Keeps I (checkCapacity host existing new) :=
  keeps_get_bind fun _ hs => post_ite.mpr ⟨fun _ => hs, fun _ => hs⟩

/-- A turn of the removal keeps what an unlink keeps. -/
theorem keeps_removeChild_of_unlink (h : ∀ fails file, Keeps I (unlink fails p file)) (fails : RemoveCall → Bool) (removed : ℕ)
    (child : Name × Entry) : Keeps I (removeChild fails p removed child) := by
  have hunlink (fails' : Bool) (total : ℕ) : Keeps I (do
      unlink fails' p child.1
      pure total) := (h fails' _).bind fun _ => keeps_pure _
  have hcounted (counted : Bool) : Keeps I (do
      if counted then call (fails (.stat child.1))
      unlink (fails (.unlink child.1)) p child.1
      pure (if counted then removed + child.2.size else removed)) :=
    ((keeps_call _).bind fun _ => hunlink _ _).ite (hunlink _ _)
  have hagain : Keeps I (do
      call (fails (.isFileAgain child.1))
      if child.2.isFile then call (fails (.isSymlinkAgain child.1))
      let counted := child.2.isFile && !child.2.isSymlink
      if counted then call (fails (.stat child.1))
      unlink (fails (.unlink child.1)) p child.1
      pure (if counted then removed + child.2.size else removed)) :=
    (keeps_call _).bind fun _ => ((keeps_call _).bind fun _ => hcounted _).ite (hcounted _)
  have hkind : Keeps I (if !child.2.isFile && !child.2.isSymlink then throw (.osError "unexpected directory in Job output") else do
      call (fails (.isFileAgain child.1))
      if child.2.isFile then call (fails (.isSymlinkAgain child.1))
      let counted := child.2.isFile && !child.2.isSymlink
      if counted then call (fails (.stat child.1))
      unlink (fails (.unlink child.1)) p child.1
      pure (if counted then removed + child.2.size else removed)) :=
    (keeps_throw _).ite hagain
  exact (keeps_call _).bind fun _ => ((keeps_call _).bind fun _ => hkind).ite hkind

/-- To remove what an allowed directory holds keeps a stable invariant. -/
theorem keeps_removeChild (hI : Stable place name I) (fails : RemoveCall → Bool) (hp : place p) (removed : ℕ) (child : Name × Entry) :
    Keeps I (removeChild fails p removed child) :=
  keeps_removeChild_of_unlink (fun fails file => keeps_unlink hI fails hp file) fails removed child

/-- A removal, where what the check of the directory establishes allows the place. -/
theorem keeps_removal {place' : Place → Prop} {I' : FileStore → Prop} (hI' : Stable place' name I') (hp : place' p) (hname : p.Allowed name)
    (hweaken : ∀ s, I' s → I s) (fails : RemoveCall → Bool) (missingOk : Bool)
    (hensure : ∀ s, I s → Post (ensurePrivateDirectory host (fun c => fails (.ensure c)) p) s (fun _ => I') fun _ => I) :
    Keeps I (removeJobDirectory host fails p missingOk) := by
  refine (keeps_lexists _ _).bind fun _ => Keeps.ite ?_ ((keeps_pure _).ite (keeps_throw _))
  intro s hs
  refine post_bind.mpr ((hensure s hs).mono (fun _ s' hs' => ?_) fun _ _ h => h)
  suffices hrest : Post _ s' (fun _ => I') fun _ => I' from hrest.mono (fun _ _ h => hweaken _ h) fun _ _ h => hweaken _ h
  refine ((keeps_iterdir _ _).map.tryCatch fun e => (keeps_pure _).ite (keeps_throw e)).bind (fun children => ?_) s' hs'
  cases children with
  | none => exact keeps_pure _
  | some children =>
    exact (keeps_foldlM (keeps_removeChild hI' fails hp) _ _).bind fun _ => (keeps_rmdir hI' _ hname).bind fun _ => keeps_pure _

/-- To create a temporary file at an allowed place keeps a stable invariant. -/
theorem keeps_createTemp (hI : Stable place name I) (hp : place p) (fails : TempCall → Bool) (stream : Stream) (tokens : List String) :
    Keeps I (createPrivateTempFile fails p stream tokens) := by
  refine (keeps_call _).bind fun _ => keeps_get_bind fun s hs => ?_
  refine keeps_get_bind (fun s' hs' => ?_) s hs
  split
  · split
    · exact hs'
    · exact ((keeps_call _).bind fun _ => (keeps_modifyEntries hI hp _).bind fun _ => (keeps_call _).bind fun _ =>
        (keeps_call _).bind fun _ => keeps_pure _) s' hs'
  · exact hs'
  · exact hs'
  · exact hs'

/-- To write a temporary file at an allowed place keeps a stable invariant. -/
theorem keeps_writeTemporary (hI : Stable place name I) (hp : place p) (fails : FileCall → Bool) (temporary : Name) (data : Bytes) :
    Keeps I (writeTemporary fails p temporary data) :=
  (keeps_call _).bind fun _ => (keeps_call _).bind fun _ => (keeps_modifyEntries hI hp _).bind fun _ => (keeps_call _).bind fun _ =>
    (keeps_call _).bind fun _ => keeps_call _

/-- To sync a path keeps every invariant. -/
theorem keeps_syncPath (fails : SyncCall → Bool) : Keeps I (syncPath fails) :=
  (keeps_call _).bind fun _ => (keeps_call _).bind fun _ => keeps_call _

/-- The counter of the used bytes is in no stable invariant. -/
theorem keeps_used (hI : Stable place name I) (f : FileStore → Int) :
    Keeps I (modify fun s : FileStore => { s with usedBytes := f s } : Op Unit) :=
  keeps_modify fun s hs => hI.used s _ hs

/-- To measure the root again keeps a stable invariant. -/
theorem keeps_rescan (hI : Stable place name I) (fails : Bool) : Keeps I (rescan fails) :=
  (keeps_call _).bind fun _ => keeps_used hI fun s => s.tree.size

/-- To ask for the size of a file keeps every invariant. -/
theorem keeps_existingSize (fails : WriteCall → Bool) (p : Place) (file : Name) : Keeps I (existingSize fails p file) := by
  refine (keeps_call _).bind fun _ => keeps_get_bind fun s hs => ?_
  split
  · exact hs
  · exact (Keeps.ite (keeps_pure _) ((keeps_call _).bind fun _ => (keeps_pure _).ite ((keeps_call _).bind fun _ => keeps_pure _))) s hs

/-- To stage both streams at an allowed place keeps a stable invariant. -/
theorem keeps_stageStreams (hI : Stable place name I) (hp : place p) (fails : WriteJobCall → Bool) (draws : Draws) (stdout stderr : Bytes) :
    Keeps I (stageStreams fails draws p stdout stderr) := by
  have hstage (fails' : StageCall → Bool) (stream : Stream) (data : Bytes) : Keeps I (stage fails' draws p stream data) :=
    (keeps_createTemp hI hp _ _ _).bind fun _ => (keeps_writeTemporary hI hp _ _ _).bind fun _ => keeps_replaceFile hI _ hp _ _
  exact (hstage _ _ _).bind fun _ => (hstage _ _ _).bind fun _ => keeps_syncPath _

/-- To publish what was staged keeps a stable invariant that the removal of the old directory keeps. -/
theorem keeps_publish (hI : Stable place name I) {staging : Name} (hplace : place (.child staging)) (hstaging : name staging)
    (hp : p.Allowed name)
    (fails : WriteJobCall → Bool) (stdout stderr : Bytes)
    (hremoval : Keeps I (removeJobDirectory host (fun c => fails (.remove c)) p false)) :
    Keeps I (publish host fails p staging stdout stderr) := by
  have hrest : Keeps I (do
      replaceDirectory host (fails .replace) staging p
      modify fun s : FileStore => { s with usedBytes := s.usedBytes + (stdout.length + stderr.length) }
      syncPath fun c => fails (.syncRoot c)) :=
    (keeps_replaceDirectory hI _ hplace hstaging hp).bind fun _ =>
      (keeps_used hI fun s => s.usedBytes + (stdout.length + stderr.length)).bind
      fun _ => keeps_syncPath _
  refine (keeps_call _).bind fun _ => keeps_get_bind fun s hs => ?_
  refine (Keeps.ite ?_ hrest) s hs
  exact hremoval.bind fun removed => (keeps_used hI fun s => s.usedBytes - removed).bind fun _ => hrest

end Parts

end OutputFiles

end SharkRail
