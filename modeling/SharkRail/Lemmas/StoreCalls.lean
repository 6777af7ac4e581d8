import SharkRail.Lemmas.WriteJob

/-!
# What the other methods of the output store do to the tree

`write` sets one entry of the root, `delete_job` erases one, and `reconcile` goes through them all. Beside the entries, the bytes of the
account are followed.
-/

namespace SharkRail

namespace OutputFiles

open Effectful

variable {host : Host} {s : FileStore} {j : Name} {d : Directory}

/-! ## One stream -/

/-- The bytes that a stream of a directory has. -/
def streamBytes (d : Directory) (name : Name) : ℕ := (d.entries.lookup name).elim 0 Entry.size

/-- The bytes that a stream of a job has. -/
def existingBytes (c : Option Child) (name : Name) : ℕ :=
  match c with
  | some (.dir d) => streamBytes d name
  | some (.file _) | some (.link _) | none => 0

theorem post_existingStream (fails : WriteCall → Bool) (name : Name) (h : s.child j = some (.dir d)) (hd : Plain d) :
    Post (existingSize fails (.child j) name) s (fun v s' => s' = s ∧ v = streamBytes d name) fun _ s' => s' = s := by
  simp only [existingSize, post_bind, post_call, post_get, directory_dir h, Option.bind_some]
  refine ⟨fun _ => trivial, fun _ => ?_⟩
  cases hname : d.entries.lookup name with
  | none => exact ⟨rfl, by simp [streamBytes, hname]⟩
  | some entry =>
    obtain ⟨data, rfl⟩ := hd.lookup hname
    simp [Entry.isFile, Entry.isSymlink, streamBytes, hname]

/-- A stream of `data` in place of what the directory had. -/
def Directory.setStream (d : Directory) (name : Name) (data : Bytes) : Directory := ⟨d.isPrivate, d.entries.insert name (.file data)⟩

theorem Plain.setStream (hd : Plain d) (name : Name) (data : Bytes) : Plain (d.setStream name data) := hd.insert name data

theorem size_setStream (d : Directory) (name : Name) (data : Bytes) :
    (d.setStream name data).size + streamBytes d name = d.size + data.length :=
  total_insert Entry.size d.entries name (.file data)

/-- The directory of the job, made if it is absent. -/
theorem post_ensureJob (fails : EnsureCall → Bool) (hold : JobEntry (s.child j)) :
    Post (ensurePrivateDirectory host fails (.child j)) s
      (fun _ s' => ∃ d, Plain d ∧ Sets j (some (.dir d)) s s' ∧ d.size = childBytes (s.child j) ∧
        ∀ name, streamBytes d name = existingBytes (s.child j) name)
      fun _ s' => ∃ c, JobEntry c ∧ Sets j c s s' ∧ childBytes c = childBytes (s.child j) := by
  obtain hnone | ⟨d, hchild, hd⟩ := hold
  · have hmade {s' : FileStore} (hset : Sets j (some (.dir ⟨true, ∅⟩)) s s') :
        ∃ c, JobEntry c ∧ Sets j c s s' ∧ childBytes c = childBytes (s.child j) :=
      ⟨_, .inr ⟨_, rfl, plain_empty⟩, hset, by rw [hnone]; rfl⟩
    refine (post_ensure_new fails hnone).mono ?_ ?_
    · rintro _ s' ⟨hset, -⟩
      exact ⟨_, plain_empty, hset, by rw [hnone]; rfl, fun name => by rw [hnone]; rfl⟩
    · rintro _ s' (⟨rfl, -⟩ | ⟨hset, -⟩)
      · exact ⟨none, .inl rfl, .refl hnone, by rw [hnone]⟩
      · exact hmade hset
  · refine (post_ensure_there fails hchild hd.isPrivate).mono ?_ ?_
    · rintro _ s' ⟨rfl, -⟩
      exact ⟨d, hd, .refl hchild, by rw [hchild]; rfl, fun name => by rw [hchild]; rfl⟩
    · rintro _ s' ⟨rfl, -⟩
      exact ⟨_, .inr ⟨d, rfl, hd⟩, .refl hchild, by rw [hchild]⟩

/-- What `write` leaves: its job's directory changed only, and the account moved with the tree. -/
structure Wrote (j : Name) (existing new : ℕ) (host : Host) (s s' : FileStore) : Prop where
  set : ∃ c, JobEntry c ∧ Sets j c s { s' with usedBytes := s.usedBytes }
  used : s'.usedBytes - s'.tree.size = s.usedBytes - s.tree.size
  bytes : s'.tree.size = s.tree.size ∨ s'.tree.size + existing = s.tree.size + new ∧ Fits host s existing new

variable {s₁ s₂ : FileStore} {existing new : ℕ} {stream : Stream} {data : Bytes}

theorem Wrote.of_sets {c : Option Child} (hc : JobEntry c) (hset : Sets j c s s₁) (hbytes : childBytes c = childBytes (s.child j)) :
    Wrote j existing new host s s₁ := by
  have hsize : s₁.tree.size = s.tree.size := by
    have h := hset.size
    omega
  refine ⟨⟨c, hc, ?_⟩, ?_, .inl hsize⟩
  · rw [← hset.used]
    exact hset
  · rw [hset.used, hsize]

theorem Wrote.trans_sets {c : Option Child} (hset : Sets j c s s₁) (hbytes : childBytes c = childBytes (s.child j))
    (h : Wrote j existing new host s₁ s₂) : Wrote j existing new host s s₂ := by
  have hsize : s₁.tree.size = s.tree.size := by
    have h := hset.size
    omega
  obtain ⟨c', hc', hset'⟩ := h.set
  refine ⟨⟨c', hc', ?_⟩, ?_, ?_⟩
  · rw [hset.used] at hset'
    exact hset.trans hset'
  · rw [h.used, hset.used, hsize]
  · rw [← hsize]
    refine h.bytes.imp_right fun hgrown => ⟨hgrown.1, ?_⟩
    rw [Fits, ← hset.used]
    exact hgrown.2

/-- The stream replaced, and its bytes accounted for. -/
theorem Wrote.of_replaced (hd : Plain d) (hchild : s.child j = some (.dir d))
    (hset : Sets j (some (.dir (d.setStream (binName stream) data))) s s₁)
    (hused : s₂.usedBytes = s.usedBytes + (data.length - streamBytes d (binName stream) : Int)) (htree : s₂.tree = s₁.tree)
    (hfits : Fits host s (streamBytes d (binName stream)) data.length) :
    Wrote j (streamBytes d (binName stream)) data.length host s s₂ := by
  have hsize := hset.size
  rw [hchild] at hsize
  have hgrown := size_setStream d (binName stream) data
  simp only [Option.elim_some, Child.size] at hsize
  refine ⟨⟨_, .inr ⟨_, rfl, hd.setStream (binName stream) data⟩, ?_⟩, ?_, .inr ⟨?_, hfits⟩⟩
  · obtain ⟨tree, used, touched⟩ := s₂
    subst htree
    exact ⟨rfl, hset.child, hset.others, hset.parent, hset.outside, hset.size⟩
  · rw [hused, htree]
    omega
  · rw [htree]
    omega

/-- The stream written into a directory that is there. -/
theorem post_writeInto (host : Host) (fails : WriteCall → Bool) (tokens : List String) (hone : AtMostOne fails)
    (hchild : s.child j = some (.dir d)) (hd : Plain d) (hfits : Fits host s (streamBytes d (binName stream)) data.length) (path : String) :
    Post (do
        let temporary ← createPrivateTempFile (fun c => fails (.temp c)) (.child j) stream tokens
        tryCatch (do
            writeTemporary (fun c => fails (.file c)) (.child j) temporary data
            replaceFile (fails .replace) (.child j) temporary (binName stream)
            modify fun s => { s with usedBytes := s.usedBytes + (data.length - (streamBytes d (binName stream) : ℕ)) }
            syncPath fun c => fails (.secure c)
            syncPath fun c => fails (.sync c))
          fun e => do
            tryCatch (unlink (fails .unlink) (.child j) temporary) fun _ => pure ()
            throw e
        pure path) s
      (fun _ s' => Wrote j (streamBytes d (binName stream)) data.length host s s')
      fun _ s' => Wrote j (streamBytes d (binName stream)) data.length host s s' := by
  rw [post_bind]
  refine (post_createTemp _ stream tokens hchild).mono ?_ ?_
  · rintro temporary s₁ ⟨hfree, ⟨token, -, htemporary⟩, hset₁⟩
    have hne : binName stream ≠ temporary := htemporary ▸ temporary_ne_binName stream stream token
    -- a failure before the rename leaves the temporary file, which is then removed
    have hremoved (e : OsError) (s₂ : FileStore) (old : Bytes)
      (hset₂ : Sets j (some (.dir ⟨d.isPrivate, d.entries.insert temporary (.file old)⟩)) s s₂)
        (hunlink : fails .unlink = false) :
        Post (do
            tryCatch (unlink (fails .unlink) (.child j) temporary) fun _ => pure ()
            throw e : Op Unit) s₂ (fun _ s' => Wrote j (streamBytes d (binName stream)) data.length host s s')
          fun _ s' => Wrote j (streamBytes d (binName stream)) data.length host s s' := by
      have hset₃ := hset₂.trans (sets_setDir s₂ j ⟨d.isPrivate, (d.entries.insert temporary (.file old)).erase temporary⟩)
      rw [erase_insert_of_notMem hfree] at hset₃
      simp only [post_bind, post_tryCatch, post_unlink _ hset₂.child (AList.lookup_insert _), post_pure, post_throw, hunlink,
        erase_insert_of_notMem hfree]
      exact ⟨by simp, fun _ => .of_sets (.inr ⟨d, rfl, hd⟩) hset₃ (by rw [hchild])⟩
    -- after it there is no temporary file to remove
    have hkept (e : OsError) (s₂ : FileStore) (h : Wrote j (streamBytes d (binName stream)) data.length host s s₂)
        (hchild₂ : s₂.child j = some (.dir (d.setStream (binName stream) data))) :
        Post (do
            tryCatch (unlink (fails .unlink) (.child j) temporary) fun _ => pure ()
            throw e : Op Unit) s₂ (fun _ s' => Wrote j (streamBytes d (binName stream)) data.length host s s')
          fun _ s' => Wrote j (streamBytes d (binName stream)) data.length host s s' := by
      have hgone : (d.setStream (binName stream) data).entries.lookup temporary = none := by
        rw [Directory.setStream, AList.lookup_insert_ne hne.symm]
        exact AList.lookup_eq_none.mpr hfree
      simp [unlink, directory_dir hchild₂, hgone, h]
    have hunlink {c : WriteCall} (hfails : fails c = true) (hc : c ≠ .unlink) : fails .unlink = false := by
      by_contra h
      exact hc (hone c .unlink hfails (by simpa using h))
    simp only [post_bind, post_tryCatch, post_pure]
    refine (post_writeTemporary _ hset₁.child).mono ?_ ?_
    · intro _ s₂ hset₂
      refine (post_replaceFile _ hset₂.child hfree hne (hd.not_dir _)).mono ?_ ?_
      · rintro _ s₃ ⟨hset₃, -⟩
        have hset : Sets j (some (.dir (d.setStream (binName stream) data))) s s₃ := (hset₁.trans hset₂).trans hset₃
        rw [post_modify]
        generalize hs₄ : ({ s₃ with usedBytes := s₃.usedBytes + (data.length - (streamBytes d (binName stream) : ℕ)) } : FileStore) = s₄
        have htree : s₄.tree = s₃.tree := by rw [← hs₄]
        have hwrote : Wrote j (streamBytes d (binName stream)) data.length host s s₄ :=
          .of_replaced hd hchild hset (by rw [← hs₄, ← hset.used]) htree hfits
        have hchild₄ : s₄.child j = some (.dir (d.setStream (binName stream) data)) := by
          rw [FileStore.child, htree]
          exact hset.child
        have hhandle (e : OsError) := hkept e s₄ hwrote hchild₄
        simp only [post_bind, post_tryCatch] at hhandle
        refine (post_syncPath _).mono ?_ ?_
        · rintro _ s₅ ⟨rfl, -⟩
          refine (post_syncPath _).mono ?_ ?_
          · rintro _ s₆ ⟨rfl, -⟩
            exact hwrote
          · rintro e s₆ ⟨rfl, -⟩
            exact hhandle e
        · rintro e s₅ ⟨rfl, -⟩
          exact hhandle e
      · rintro e s₃ ⟨rfl, hfails⟩
        have hhandle := hremoved e s₃ data (hset₁.trans hset₂) (hunlink hfails (by simp))
        simp only [post_bind, post_tryCatch] at hhandle
        exact hhandle
    · rintro e s₂ ⟨⟨old, hset₂⟩, c, hfails⟩
      have hhandle := hremoved e s₂ old (hset₁.trans hset₂) (hunlink hfails (by simp))
      simp only [post_bind, post_tryCatch] at hhandle
      exact hhandle
  · rintro _ s₁ ⟨rfl | ⟨name, hfree, hset₁⟩, -⟩
    · exact .of_sets (.inr ⟨d, rfl, hd⟩) (.refl hchild) (by rw [hchild])
    · refine .of_sets (.inr ⟨_, rfl, hd.insert name []⟩) hset₁ ?_
      have hsize := size_setStream d name []
      rw [streamBytes, AList.lookup_eq_none.mpr hfree] at hsize
      rw [hchild]
      exact hsize

/-- `write` of a job id that names an entry of the root. -/
theorem post_write {fails : WriteCall → Bool} (host : Host) (draws : Draws) {jobId : String} (stream : Stream) (data : Bytes)
    (hparent : jobId ≠ "..") (hold : JobEntry (s.child jobId))
    (hone : AtMostOne fails) :
    Post (write host fails draws jobId stream data) s
      (fun _ s' => Wrote jobId (existingBytes (s.child jobId) (binName stream)) data.length host s s')
      fun _ s' => Wrote jobId (existingBytes (s.child jobId) (binName stream)) data.length host s s' := by
  rw [write]
  refine post_ite.mpr ⟨fun _ => .of_sets hold (.refl rfl) rfl, fun _ => ?_⟩
  rw [place_child hparent, post_bind]
  refine (post_ensureJob _ hold).mono ?_ ?_
  · rintro _ s₁ ⟨d, hd, hset, hbytes, hstream⟩
    rw [← hstream, post_bind]
    have hnothing : Wrote jobId (streamBytes d (binName stream)) data.length host s s₁ := .of_sets (.inr ⟨d, rfl, hd⟩) hset hbytes
    refine (post_existingStream _ _ hset.child hd).mono ?_ ?_
    · rintro v s' ⟨rfl, rfl⟩
      rw [post_bind]
      refine (post_checkCapacity _ _).mono ?_ ?_
      · rintro _ s' ⟨rfl, hfits⟩
        refine (post_writeInto host fails (draws.temporary stream) hone hset.child hd hfits _).mono ?_ ?_
        · exact fun _ s₂ h => h.trans_sets hset hbytes
        · exact fun _ s₂ h => h.trans_sets hset hbytes
      · rintro _ s' ⟨rfl, -⟩
        exact hnothing
    · rintro _ s' rfl
      exact hnothing
  · rintro _ s₁ ⟨c, hc, hset, hbytes⟩
    exact .of_sets hc hset hbytes

/-! ## The removals -/

/-- The tree is well formed, and the account is that of its bytes. -/
structure Accounted (s : FileStore) : Prop where
  wellFormed : WellFormed s.tree
  used : s.usedBytes = s.tree.size

theorem JobEntry.plain {c : Option Child} (h : JobEntry c) (c' : Child) (hc : c = some c') : ∃ d, c' = .dir d ∧ Plain d := by
  obtain rfl | ⟨d, rfl, hd⟩ := h
  · cases hc
  · exact ⟨d, (Option.some_inj.mp hc).symm, hd⟩

/-- The rescan of a handler. -/
theorem post_rescan_throw (fails : Bool) (e : OsError) :
    Post (do
        rescan fails
        throw e : Op Unit) s (fun _ _ => False) fun _ s' => s'.tree = s.tree ∧
          (fails = true ∧ s'.usedBytes = s.usedBytes ∨ s'.usedBytes = s'.tree.size) := by
  simp only [rescan, post_bind, post_call, post_modify, post_throw]
  exact ⟨fun hfails => ⟨trivial, .inl ⟨hfails, trivial⟩⟩, fun _ => ⟨trivial, .inr trivial⟩⟩

theorem keeps_call {I : FileStore → Prop} (fails : Bool) : Keeps I (call fails) := fun s hs => by simp [hs]

end OutputFiles

end SharkRail
