import SharkRail.Lib.JsonRoundTrip

/-!
# What is read in a text

A text that came as UTF-8 has no surrogate, so a string that is read in it has a surrogate only from an escape, and the scanner has
joined every pair (`joined_joinUnits`). The floats that are read are those of `float`. So a value that is read is one that a program can
hold, and its strings are joined (`loads_read`).
-/

namespace PyJson

open CodePoint PyStr

variable {F : FloatText} {t rest : PyStr}

/-! ## Strings -/

/-- What a short escape stands for is ASCII. -/
theorem unescapeShort_ascii {c d : CodePoint} (h : unescapeShort c = some d) : d.val < 128 := by
  unfold unescapeShort at h
  split_ifs at h with h1 h2 h3 h4 h5 h6
  · cases h
    rcases h1 with rfl | rfl | rfl <;> decide
  all_goals
    cases h
    decide

/-- The code points that are read as they stand are in the text, or stand for a short escape. -/
theorem unescape_spec {mode : ScanMode} {found : List (Bool × CodePoint)} (h : unescape mode t = some (found, rest)) :
    rest ⊆ t ∧ ∀ u ∈ found, u.1 = false → u.2 ∈ t ∨ u.2.val < 128 := by
  induction t generalizing mode found with
  | nil => cases mode <;> cases h
  | cons c t ih =>
    have hskip : ∀ {mode'}, unescape mode' t = some (found, rest) → rest ⊆ c :: t ∧ ∀ u ∈ found, u.1 = false → u.2 ∈ c :: t ∨
      u.2.val < 128 := by
      intro mode' h
      obtain ⟨hrest, hfound⟩ := ih h
      exact ⟨fun d hd => List.mem_cons_of_mem c (hrest hd), fun u hu hraw => (hfound u hu hraw).imp_left (List.mem_cons_of_mem c)⟩
    have hpush : ∀ {u : Bool × CodePoint}, (u.1 = false → u.2 ∈ c :: t ∨ u.2.val < 128) →
        ((unescape .plain t).map fun found => (u :: found.1, found.2)) = some (found, rest) →
        rest ⊆ c :: t ∧ ∀ u ∈ found, u.1 = false → u.2 ∈ c :: t ∨ u.2.val < 128 := by
      intro u hu h
      obtain ⟨⟨units, rest'⟩, hscan, heq⟩ := Option.map_eq_some_iff.1 h
      obtain ⟨rfl, rfl⟩ := Prod.mk.inj heq
      obtain ⟨hrest, hfound⟩ := ih hscan
      refine ⟨fun d hd => List.mem_cons_of_mem c (hrest hd), fun u' hu' hraw => ?_⟩
      rcases List.mem_cons.1 hu' with rfl | hu'
      · exact hu hraw
      · exact (hfound u' hu' hraw).imp_left (List.mem_cons_of_mem c)
    cases mode with
    | plain =>
      rw [unescape] at h
      split_ifs at h with hquote hslash hcontrol
      · cases h
        exact ⟨fun d hd => List.mem_cons_of_mem c hd, fun u hu => absurd hu List.not_mem_nil⟩
      · exact hskip h
      · exact hpush (fun _ => .inl List.mem_cons_self) h
    | escaped =>
      rw [unescape] at h
      split_ifs at h with hu
      · exact hskip h
      · cases hshort : unescapeShort c with
        | none =>
          rw [hshort] at h
          cases h
        | some d =>
          rw [hshort] at h
          exact hpush (fun _ => .inr (unescapeShort_ascii hshort)) h
    | unit left read =>
      rw [unescape] at h
      cases hdigit : hexValue c with
      | none =>
        rw [hdigit] at h
        cases h
      | some digit =>
        rw [hdigit] at h
        dsimp only at h
        split_ifs at h with hleft
        · exact hpush (u := (true, ofNat (16 * read + digit))) (by simp) h
        · exact hskip h

/-- A joined string begins with what it was joined from, or with a code point above the basic plane. -/
theorem head?_joinUnits {escaped : Bool} {c : CodePoint} {found : List (Bool × CodePoint)} :
    ∀ d ∈ (joinUnits ((escaped, c) :: found)).head?, d = c ∨ d.isHigh = false ∧ d.isLow = false := by
  cases found with
  | nil => simp [joinUnits]
  | cons u found =>
    rw [joinUnits]
    intro d hd
    split at hd
    · rename_i hpair
      simp only [Bool.and_eq_true] at hpair
      rw [List.head?_cons, Option.mem_some_iff] at hd
      rw [← hd]
      exact .inr (pair_not_surrogate hpair.1.2 hpair.2)
    · rw [List.head?_cons, Option.mem_some_iff] at hd
      exact .inl hd.symm

/-- A string whose surrogates were all escaped is joined. -/
theorem joined_joinUnits {found : List (Bool × CodePoint)} (h : ∀ u ∈ found, u.1 = false → u.2.isSurrogate = false) :
    Joined (joinUnits found) := by
  induction found using joinUnits.induct with
  | case1 => exact List.isChain_nil
  | case2 escaped c => exact List.isChain_singleton c
  | case3 escaped c escaped' d found hpair ih =>
    rw [joinUnits, if_pos hpair]
    simp only [Bool.and_eq_true] at hpair
    refine joined_cons (ih fun u hu => h u (List.mem_cons_of_mem _ (List.mem_cons_of_mem _ hu))) fun e _ => ?_
    rw [(pair_not_surrogate hpair.1.2 hpair.2).1, Bool.false_and]
  | case4 escaped c escaped' d found hpair ih =>
    rw [joinUnits, if_neg hpair]
    refine joined_cons (ih fun u hu => h u (List.mem_cons_of_mem _ hu)) fun e he => ?_
    have hc := h (escaped, c) List.mem_cons_self
    have hd := h (escaped', d) (List.mem_cons_of_mem _ List.mem_cons_self)
    rw [isSurrogate_eq, Bool.or_eq_false_iff] at hc hd
    rcases head?_joinUnits e he with rfl | ⟨-, hlow⟩
    · cases escaped with
      | false => rw [(hc rfl).1, Bool.false_and]
      | true =>
        cases escaped' with
        | false => rw [(hd rfl).2, Bool.and_false]
        | true => simpa using hpair
    · rw [hlow, Bool.and_false]

theorem scanString_spec {s : PyStr} (ht : Unicode t) (h : scanString t = some (s, rest)) : Joined s ∧ rest ⊆ t := by
  unfold scanString at h
  obtain ⟨⟨found, rest'⟩, hscan, heq⟩ := Option.map_eq_some_iff.1 h
  obtain ⟨rfl, rfl⟩ := Prod.mk.inj heq
  obtain ⟨hrest, hfound⟩ := unescape_spec hscan
  refine ⟨joined_joinUnits fun u hu hraw => ?_, hrest⟩
  rcases hfound u hu hraw with hmem | hascii
  · exact ht u.2 hmem
  · unfold isSurrogate
    grind

/-! ## Numbers and names -/

theorem skipWs_subset (t : PyStr) : skipWs t ⊆ t := (List.dropWhile_suffix _).subset

theorem expect_subset {literal : PyStr} (h : expect literal t = some rest) : rest ⊆ t := by
  unfold expect at h
  split at h
  · cases h
    exact List.drop_subset _ _
  · cases h

theorem scanDigits_subset (before : PyStr) {t' whole : PyStr} (h : t' ⊆ whole) : (scanDigits before t' whole).2 ⊆ whole := by
  unfold scanDigits
  split
  · exact List.Subset.trans (List.dropWhile_suffix _).subset h
  · exact List.Subset.refl _

theorem scanNumberText_subset {integer tail : PyStr} (h : scanNumberText t = some (integer, tail, rest)) : rest ⊆ t := by
  have hsign : ∀ t, (scanSign t).2 ⊆ t := by
    intro t
    cases t with
    | nil => exact List.Subset.refl _
    | cons c t =>
      rw [scanSign]
      split
      · exact List.subset_cons_self c t
      · exact List.Subset.refl _
  have hexponentSign : ∀ t, (scanExponentSign t).2 ⊆ t := by
    intro t
    cases t with
    | nil => exact List.Subset.refl _
    | cons c t =>
      rw [scanExponentSign]
      split
      · exact List.subset_cons_self c t
      · exact List.Subset.refl _
  have hinteger : ∀ {t found}, scanInteger t = some found → found.2 ⊆ t := by
    intro t found h
    cases t with
    | nil => cases h
    | cons c t =>
      rw [scanInteger] at h
      split_ifs at h with hzero hdigit
      · cases h
        exact List.subset_cons_self c t
      · cases h
        exact (List.dropWhile_suffix _).subset
  have hfraction : ∀ t, (scanFraction t).2 ⊆ t := by
    intro t
    cases t with
    | nil => exact List.Subset.refl _
    | cons c t =>
      rw [scanFraction]
      split
      · exact scanDigits_subset _ (List.subset_cons_self c t)
      · exact List.Subset.refl _
  have hexponent : ∀ t, (scanExponent t).2 ⊆ t := by
    intro t
    cases t with
    | nil => exact List.Subset.refl _
    | cons c t =>
      rw [scanExponent]
      split
      · exact scanDigits_subset _ (List.Subset.trans (hexponentSign t) (List.subset_cons_self c t))
      · exact List.Subset.refl _
  unfold scanNumberText at h
  obtain ⟨⟨integer', t'⟩, hscan, heq⟩ := Option.map_eq_some_iff.1 h
  simp only [Prod.mk.injEq] at heq
  obtain ⟨-, -, rfl⟩ := heq
  exact List.Subset.trans (hexponent _) (List.Subset.trans (hfraction _) (List.Subset.trans (hinteger hscan) (hsign t)))

/-! ## Values -/

/-- The floats that are read are doubles. -/
def ReadsDoubles (F : FloatText) : Prop := ∀ text q, F.read text = .finite q → IsDouble q

/-- A value that was read: a program can hold it, and its strings are joined. -/
structure Read (v : PyJson) : Prop where
  python : IsPython v
  joined : ∀ s ∈ strings v, Joined s

structure ItemsRead (items : List PyJson) : Prop where
  python : ItemsPython items
  joined : ∀ s ∈ itemStrings items, Joined s

structure MembersRead (members : List (PyStr × PyJson)) : Prop where
  python : MembersPython members
  joined : ∀ s ∈ memberStrings members, Joined s

/-- A dictionary has the members that were read, the last one of each key. -/
theorem MembersRead.ofPairs {members : List (PyStr × PyJson)} (h : MembersRead members) : Read (.obj (PyJson.ofPairs members)) := by
  obtain ⟨hsubset, hkeys⟩ := ofPairs_spec members
  refine ⟨⟨hkeys, membersPython_iff.2 fun m hm => membersPython_iff.1 h.python m (hsubset m hm)⟩, fun s hs => ?_⟩
  obtain ⟨m, hm, hsm⟩ := mem_memberStrings.1 hs
  exact h.joined s (mem_memberStrings.2 ⟨m, hsubset m hm, hsm⟩)

theorem scanScalar_read (hF : ReadsDoubles F) {v : PyJson} (h : scanScalar F t = some (v, rest)) : Read v ∧ rest ⊆ t := by
  unfold scanScalar at h
  split at h
  · rename_i found hfound
    cases h
    obtain ⟨⟨name, value⟩, hmem, hname⟩ := List.exists_of_findSome?_eq_some hfound
    obtain ⟨rest', hexpect, heq⟩ := Option.map_eq_some_iff.1 hname
    obtain ⟨rfl, rfl⟩ := Prod.mk.inj heq
    refine ⟨?_, expect_subset hexpect⟩
    simp only [names, List.mem_cons, List.not_mem_nil, or_false, Prod.mk.injEq] at hmem
    rcases hmem with ⟨-, rfl⟩ | ⟨-, rfl⟩ | ⟨-, rfl⟩ | ⟨-, rfl⟩ | ⟨-, rfl⟩ | ⟨-, rfl⟩ <;>
      exact ⟨trivial, fun s hs => absurd hs List.not_mem_nil⟩
  · unfold scanNumber at h
    obtain ⟨⟨integer, tail, rest'⟩, hscan, heq⟩ := Option.map_eq_some_iff.1 h
    simp only [Prod.mk.injEq] at heq
    obtain ⟨rfl, rfl⟩ := heq
    refine ⟨?_, scanNumberText_subset hscan⟩
    split
    · exact ⟨trivial, fun s hs => absurd hs List.not_mem_nil⟩
    · refine ⟨?_, fun s hs => absurd hs List.not_mem_nil⟩
      cases hread : F.read (integer ++ tail) with
      | finite q => exact hF _ q hread
      | inf | nan => exact trivial

mutual

theorem scanOnce_read (hF : ReadsDoubles F) {n : ℕ} {t rest : PyStr} {v : PyJson} (ht : Unicode t) (h : scanOnce F n t = some (v, rest)) :
    Read v ∧ rest ⊆ t := by
  match n with
  | 0 => cases h
  | n + 1 =>
    have htail : skipWs t.tail ⊆ t := List.Subset.trans (skipWs_subset _) (List.tail_suffix t).subset
    rw [scanOnce] at h
    cases hhead : t.head? with
    | none =>
      rw [hhead] at h
      cases h
    | some c =>
      rw [hhead] at h
      dsimp only at h
      split_ifs at h with hquote hbrace hbracket
      · obtain ⟨⟨s, rest'⟩, hscan, heq⟩ := Option.map_eq_some_iff.1 h
        obtain ⟨rfl, rfl⟩ := Prod.mk.inj heq
        obtain ⟨hjoined, hrest⟩ := scanString_spec (ht.subset (List.tail_suffix t).subset) hscan
        refine ⟨⟨trivial, fun s' hs' => ?_⟩, List.Subset.trans hrest (List.tail_suffix t).subset⟩
        rw [List.mem_singleton.1 hs']
        exact hjoined
      · split at h
        · rename_i rest' hexpect
          cases h
          exact ⟨⟨⟨List.nodup_nil, trivial⟩, fun s hs => absurd hs List.not_mem_nil⟩, List.Subset.trans (expect_subset hexpect) htail⟩
        · simp only [Option.bind_eq_bind, Option.bind_eq_some_iff, Prod.exists, Option.some.injEq, Prod.mk.injEq] at h
          obtain ⟨t', hexpect, members, rest', hscan, rfl, rfl⟩ := h
          have ht' : t' ⊆ t := List.Subset.trans (expect_subset hexpect) htail
          obtain ⟨hmembers, hrest⟩ := scanMembers_read hF (ht.subset ht') hscan
          exact ⟨hmembers.ofPairs, List.Subset.trans hrest ht'⟩
      · split at h
        · rename_i rest' hexpect
          cases h
          exact ⟨⟨trivial, fun s hs => absurd hs List.not_mem_nil⟩, List.Subset.trans (expect_subset hexpect) htail⟩
        · obtain ⟨⟨items, rest'⟩, hscan, heq⟩ := Option.map_eq_some_iff.1 h
          obtain ⟨rfl, rfl⟩ := Prod.mk.inj heq
          obtain ⟨hitems, hrest⟩ := scanItems_read hF (ht.subset htail) hscan
          exact ⟨⟨hitems.python, hitems.joined⟩, List.Subset.trans hrest htail⟩
      · exact scanScalar_read hF h
termination_by n

theorem scanItems_read (hF : ReadsDoubles F) {n : ℕ} {t rest : PyStr} {items : List PyJson} (ht : Unicode t)
    (h : scanItems F n t = some (items, rest)) : ItemsRead items ∧ rest ⊆ t := by
  match n with
  | 0 => cases h
  | n + 1 =>
    rw [scanItems] at h
    simp only [Option.bind_eq_bind, Option.bind_eq_some_iff, Prod.exists] at h
    obtain ⟨item, t', hscan, h⟩ := h
    obtain ⟨hitem, ht'⟩ := scanOnce_read hF ht hscan
    have hafter : skipWs t' ⊆ t := List.Subset.trans (skipWs_subset t') ht'
    split at h
    · rename_i rest' hexpect
      cases h
      refine ⟨⟨⟨hitem.python, trivial⟩, fun s hs => ?_⟩, List.Subset.trans (expect_subset hexpect) hafter⟩
      rcases List.mem_append.1 hs with hs | hs
      · exact hitem.joined s hs
      · exact absurd hs List.not_mem_nil
    · simp only [Option.bind_eq_some_iff, Prod.exists, Option.some.injEq, Prod.mk.injEq] at h
      obtain ⟨t₂, hexpect, items', rest', hrestscan, rfl, rfl⟩ := h
      have ht₂ : skipWs t₂ ⊆ t := List.Subset.trans (skipWs_subset t₂) (List.Subset.trans (expect_subset hexpect) hafter)
      obtain ⟨hitems, hrest⟩ := scanItems_read hF (ht.subset ht₂) hrestscan
      refine ⟨⟨⟨hitem.python, hitems.python⟩, fun s hs => ?_⟩, List.Subset.trans hrest ht₂⟩
      rcases List.mem_append.1 hs with hs | hs
      · exact hitem.joined s hs
      · exact hitems.joined s hs
termination_by n

theorem scanMembers_read (hF : ReadsDoubles F) {n : ℕ} {t rest : PyStr} {members : List (PyStr × PyJson)} (ht : Unicode t)
    (h : scanMembers F n t = some (members, rest)) : MembersRead members ∧ rest ⊆ t := by
  match n with
  | 0 => cases h
  | n + 1 =>
    rw [scanMembers] at h
    simp only [Option.bind_eq_bind, Option.bind_eq_some_iff, Prod.exists] at h
    obtain ⟨key, t₁, hkey, t₂, hcolon, value, t₃, hscan, h⟩ := h
    obtain ⟨hjoined, ht₁⟩ := scanString_spec ht hkey
    have ht₂ : skipWs t₂ ⊆ t :=
      List.Subset.trans (skipWs_subset t₂) (List.Subset.trans (expect_subset hcolon) (List.Subset.trans (skipWs_subset t₁) ht₁))
    obtain ⟨hvalue, ht₃⟩ := scanOnce_read hF (ht.subset ht₂) hscan
    have hafter : skipWs t₃ ⊆ t := List.Subset.trans (skipWs_subset t₃) (List.Subset.trans ht₃ ht₂)
    have hmember : ∀ {members'}, MembersRead members' → MembersRead ((key, value) :: members') := by
      intro members' hmembers
      refine ⟨⟨hvalue.python, hmembers.python⟩, fun s hs => ?_⟩
      rw [memberStrings, List.cons_append, List.mem_cons, List.mem_append] at hs
      rcases hs with rfl | hs | hs
      · exact hjoined
      · exact hvalue.joined s hs
      · exact hmembers.joined s hs
    split at h
    · rename_i rest' hexpect
      cases h
      exact ⟨hmember ⟨trivial, fun s hs => absurd hs List.not_mem_nil⟩, List.Subset.trans (expect_subset hexpect) hafter⟩
    · simp only [Option.bind_eq_some_iff, Prod.exists, Option.some.injEq, Prod.mk.injEq] at h
      obtain ⟨t₄, hcomma, t₅, hquote, members', rest', hrestscan, rfl, rfl⟩ := h
      have ht₅ : t₅ ⊆ t :=
        List.Subset.trans (expect_subset hquote) (List.Subset.trans (skipWs_subset t₄) (List.Subset.trans (expect_subset hcomma) hafter))
      obtain ⟨hmembers, hrest⟩ := scanMembers_read hF (ht.subset ht₅) hrestscan
      exact ⟨hmember hmembers, List.Subset.trans hrest ht₅⟩
termination_by n

end

/-- What is read in a text that came as UTF-8. -/
theorem loads_read (hF : ReadsDoubles F) {v : PyJson} (ht : Unicode t) (h : loads F t = some v) : Read v := by
  unfold loads at h
  split at h
  · cases h
  · split at h
    · rename_i value rest hscan
      split at h
      · cases h
        exact (scanOnce_read hF (ht.subset (skipWs_subset t)) hscan).1
      · cases h
    · cases h

end PyJson
