import SharkRail.Lib.JsonRoundTrip

/-!
# Encoding JSON texts

An ASCII text encodes whatever it is the text of. A text that is not held to ASCII has the surrogates of the strings it was written for,
so it encodes when they have none (`encode_dumps`).
-/

namespace PyJson

open CodePoint PyStr

variable {F : FloatText} {style : DumpStyle} {t : PyStr} {c : CodePoint}

/-! ## What a text is made of -/

/-- A digit is ASCII. -/
theorem ascii_of_isDigit (h : isDigit c = true) : c.val < 128 := by
  unfold isDigit at h
  rw [Bool.and_eq_true, decide_eq_true_eq, decide_eq_true_eq] at h
  omega

/-- A run of digits is ASCII. -/
theorem ascii_takeWhile (h : c ∈ t.takeWhile isDigit) : c.val < 128 := ascii_of_isDigit (List.mem_takeWhile_imp h)

/-- What is read of the digits after an ASCII prefix is ASCII. -/
theorem ascii_scanDigits {before whole : PyStr} (hbefore : ∀ d ∈ before, d.val < 128) (h : c ∈ (scanDigits before t whole).1) :
    c.val < 128 := by
  unfold scanDigits at h
  split at h
  · rcases List.mem_append.1 h with h | h
    · exact hbefore c h
    · exact ascii_takeWhile h
  · cases h

/-- A number is ASCII. -/
theorem ascii_scanNumberText {integer tail rest : PyStr} (h : scanNumberText t = some (integer, tail, rest)) (hc : c ∈ integer ++ tail) :
    c.val < 128 := by
  unfold scanNumberText at h
  obtain ⟨⟨found, t'⟩, hfound, hparts⟩ := Option.map_eq_some_iff.1 h
  cases hparts
  have hsign : ∀ {t : PyStr}, c ∈ (scanSign t).1 → c.val < 128 := by
    intro t hc
    cases t with
    | nil => cases hc
    | cons d t =>
      rw [scanSign] at hc
      split at hc
      · rename_i hd
        rw [List.mem_singleton.1 hc, hd]
        decide
      · cases hc
  have hinteger : ∀ {t found t' : PyStr}, scanInteger t = some (found, t') → c ∈ found → c.val < 128 := by
    intro t found t' hfound hc
    cases t with
    | nil => cases hfound
    | cons d t =>
      rw [scanInteger] at hfound
      split_ifs at hfound with hzero hdigit
      · cases hfound
        rw [List.mem_singleton.1 hc, hzero]
        decide
      · cases hfound
        exact ascii_takeWhile hc
  have hfraction : ∀ {t : PyStr}, c ∈ (scanFraction t).1 → c.val < 128 := by
    intro t hc
    cases t with
    | nil => cases hc
    | cons d t =>
      rw [scanFraction] at hc
      split at hc
      · rename_i hd
        refine ascii_scanDigits (fun d' hd' => ?_) hc
        rw [List.mem_singleton.1 hd', hd]
        decide
      · cases hc
  have hexponentSign : ∀ {t : PyStr}, ∀ d ∈ (scanExponentSign t).1, d.val < 128 := by
    intro t d hd
    cases t with
    | nil => cases hd
    | cons d' t =>
      rw [scanExponentSign] at hd
      split at hd
      · rename_i hsign
        rw [List.mem_singleton.1 hd]
        rcases hsign with rfl | rfl <;> decide
      · cases hd
  have hexponent : ∀ {t : PyStr}, c ∈ (scanExponent t).1 → c.val < 128 := by
    intro t hc
    cases t with
    | nil => cases hc
    | cons d t =>
      rw [scanExponent] at hc
      split at hc
      · rename_i hd
        refine ascii_scanDigits (fun d' hd' => ?_) hc
        rcases List.mem_cons.1 hd' with rfl | hd'
        · rcases hd with rfl | rfl <;> decide
        · exact hexponentSign d' hd'
      · cases hc
  rcases List.mem_append.1 hc with hc | hc
  · rcases List.mem_append.1 hc with hc | hc
    · exact hsign hc
    · exact hinteger hfound hc
  · rcases List.mem_append.1 hc with hc | hc
    · exact hfraction hc
    · exact hexponent hc

/-- The text of an integer is ASCII. -/
theorem ascii_intText {n : ℤ} (h : c ∈ intText n) : c.val < 128 :=
  ascii_scanNumberText (scanNumberText_intText n) (by rwa [List.append_nil])

/-- A hexadecimal digit is ASCII. -/
theorem ascii_hexDigit (n : ℕ) : (hexDigit (n % 16)).val < 128 := by
  have hall : ∀ n < 16, (hexDigit n).val < 128 := by decide
  exact hall _ (Nat.mod_lt _ (by decide))

/-- An escaped unit is ASCII. -/
theorem ascii_escapeUnit {n : ℕ} (h : c ∈ escapeUnit n) : c.val < 128 := by
  unfold escapeUnit at h
  simp only [List.mem_cons, List.not_mem_nil, or_false] at h
  rcases h with rfl | rfl | rfl | rfl | rfl | rfl
  · decide
  · decide
  · exact ascii_hexDigit _
  · exact ascii_hexDigit _
  · exact ascii_hexDigit _
  · exact ascii_hexDigit _

/-- The text of a code point is ASCII, or the code point itself. -/
theorem mem_escape {ensureAscii : Bool} {d : CodePoint} (h : c ∈ escape ensureAscii d) : c.val < 128 ∨ ensureAscii = false ∧ c = d := by
  unfold escape at h
  cases hshort : shortEscape d with
  | some letter =>
    rw [hshort] at h
    left
    have hletter : letter.val < 128 := by
      unfold shortEscape at hshort
      split_ifs at hshort with h1
      · cases hshort
        rcases h1 with rfl | rfl <;> decide
      all_goals cases hshort; decide
    rcases List.mem_cons.1 h with rfl | h
    · decide
    · rw [List.mem_singleton.1 h]
      exact hletter
  | none =>
    rw [hshort] at h
    dsimp only at h
    split at h
    · rename_i hplain
      rw [List.mem_singleton.1 h]
      unfold isPlain at hplain
      cases ensureAscii with
      | false => exact .inr ⟨rfl, rfl⟩
      | true =>
        simp only [Bool.not_true, Bool.false_or, Bool.and_eq_true, decide_eq_true_eq] at hplain
        exact .inl (by omega)
    · left
      unfold escapeUnicode at h
      split at h
      · exact ascii_escapeUnit h
      · rcases List.mem_append.1 h with h | h
        · exact ascii_escapeUnit h
        · exact ascii_escapeUnit h

/-- A quoted text is ASCII but for what it leaves unescaped. -/
theorem mem_quote {ensureAscii : Bool} {s : PyStr} (h : c ∈ quote ensureAscii s) : c.val < 128 ∨ ensureAscii = false ∧ c ∈ s := by
  unfold quote at h
  rcases List.mem_append.1 h with h | h
  · rcases List.mem_cons.1 h with rfl | h
    · exact .inl (by decide)
    · obtain ⟨d, hd, hc⟩ := List.mem_flatMap.1 h
      rcases mem_escape hc with hascii | ⟨hraw, rfl⟩
      · exact .inl hascii
      · exact .inr ⟨hraw, hd⟩
  · rw [List.mem_singleton.1 h]
    exact .inl (by decide)

/-- The blank between two parts is ASCII. -/
theorem ascii_blank (h : c ∈ style.blank) : c.val < 128 := by
  unfold DumpStyle.blank at h
  split at h
  · rw [List.mem_singleton.1 h]
    decide
  · cases h

/-- The names of the constants are ASCII. -/
theorem ascii_name {name : PyStr} {v : PyJson} (h : (name, v) ∈ names) (hc : c ∈ name) : c.val < 128 := by
  have hall : ∀ x ∈ names, ∀ c ∈ x.1, c.val < 128 := by decide
  exact hall (name, v) h c hc

mutual

/-- A code point of a text is ASCII, or one of the strings it was written for. -/
theorem mem_dumps (v : PyJson) (h : c ∈ dumps F style v) :
    c.val < 128 ∨ style.ensureAscii = false ∧ ∃ s ∈ strings v, c ∈ s := by
  match v with
  | .null => exact .inl (ascii_name (v := .null) (by simp [names, dumps]) h)
  | .bool true => exact .inl (ascii_name (v := .bool true) (by simp [names, dumps]) h)
  | .bool false => exact .inl (ascii_name (v := .bool false) (by simp [names, dumps]) h)
  | .float (.inf true) => exact .inl (ascii_name (v := .float (.inf true)) (by simp [names, dumps, floatText]) h)
  | .float (.inf false) => exact .inl (ascii_name (v := .float (.inf false)) (by simp [names, dumps, floatText]) h)
  | .float .nan => exact .inl (ascii_name (v := .float .nan) (by simp [names, dumps, floatText]) h)
  | .int n => exact .inl (ascii_intText h)
  | .float (.finite q) => exact .inl (F.ascii q c h)
  | .str s =>
    rcases mem_quote h with hascii | ⟨hraw, hs⟩
    · exact .inl hascii
    · exact .inr ⟨hraw, s, List.mem_cons_self, hs⟩
  | .arr items =>
    rw [dumps, List.mem_append, List.mem_cons, List.mem_singleton] at h
    rcases h with (rfl | h) | rfl
    · exact .inl (by decide)
    · exact mem_dumpsItems items h
    · exact .inl (by decide)
  | .obj members =>
    rw [dumps, List.mem_append, List.mem_cons, List.mem_singleton] at h
    rcases h with (rfl | h) | rfl
    · exact .inl (by decide)
    · exact mem_dumpsMembers members h
    · exact .inl (by decide)

/-- The text of a list is ASCII but for what its strings leave unescaped. -/
theorem mem_dumpsItems (items : List PyJson) (h : c ∈ dumpsItems F style items) :
    c.val < 128 ∨ style.ensureAscii = false ∧ ∃ s ∈ itemStrings items, c ∈ s := by
  match items with
  | [] => cases h
  | x :: xs =>
    have hfirst : c ∈ dumps F style x → c.val < 128 ∨ style.ensureAscii = false ∧ ∃ s ∈ itemStrings (x :: xs), c ∈ s := fun h => by
      rcases mem_dumps x h with hascii | ⟨hraw, s, hs, hc⟩
      · exact .inl hascii
      · exact .inr ⟨hraw, s, List.mem_append_left _ hs, hc⟩
    match xs with
    | [] => exact hfirst h
    | y :: ys =>
      rw [dumpsItems, List.mem_append, List.mem_cons, List.mem_append] at h
      rcases h with h | rfl | h | h
      · exact hfirst h
      · exact .inl (by decide)
      · exact .inl (ascii_blank h)
      · rcases mem_dumpsItems (y :: ys) h with hascii | ⟨hraw, s, hs, hc⟩
        · exact .inl hascii
        · exact .inr ⟨hraw, s, List.mem_append_right _ hs, hc⟩

/-- The text of an object is ASCII but for what its strings leave unescaped. -/
theorem mem_dumpsMembers (members : List (PyStr × PyJson)) (h : c ∈ dumpsMembers F style members) :
    c.val < 128 ∨ style.ensureAscii = false ∧ ∃ s ∈ memberStrings members, c ∈ s := by
  match members with
  | [] => cases h
  | (k, x) :: ms =>
    have hkey : c ∈ quote style.ensureAscii k → c.val < 128 ∨ style.ensureAscii = false ∧ ∃ s ∈ memberStrings ((k, x) :: ms), c ∈ s :=
      fun h => by
        rcases mem_quote h with hascii | ⟨hraw, hc⟩
        · exact .inl hascii
        · exact .inr ⟨hraw, k, List.mem_cons_self, hc⟩
    have hvalue : c ∈ dumps F style x → c.val < 128 ∨ style.ensureAscii = false ∧ ∃ s ∈ memberStrings ((k, x) :: ms), c ∈ s := fun h => by
      rcases mem_dumps x h with hascii | ⟨hraw, s, hs, hc⟩
      · exact .inl hascii
      · exact .inr ⟨hraw, s, List.mem_cons_of_mem _ (List.mem_append_left _ hs), hc⟩
    match ms with
    | [] =>
      rw [dumpsMembers, List.mem_append, List.mem_cons, List.mem_append] at h
      rcases h with h | rfl | h | h
      · exact hkey h
      · exact .inl (by decide)
      · exact .inl (ascii_blank h)
      · exact hvalue h
    | m :: ms =>
      rw [dumpsMembers, List.mem_append, List.mem_cons, List.mem_append, List.mem_append, List.mem_cons, List.mem_append] at h
      rcases h with h | rfl | h | h | rfl | h | h
      · exact hkey h
      · exact .inl (by decide)
      · exact .inl (ascii_blank h)
      · exact hvalue h
      · exact .inl (by decide)
      · exact .inl (ascii_blank h)
      · rcases mem_dumpsMembers (m :: ms) h with hascii | ⟨hraw, s, hs, hc⟩
        · exact .inl hascii
        · exact .inr ⟨hraw, s, List.mem_cons_of_mem _ (List.mem_append_right _ hs), hc⟩

end

/-- An ASCII text is ASCII. -/
theorem ascii_dumps {v : PyJson} (hstyle : style.ensureAscii = true) (h : c ∈ dumps F style v) : c.val < 128 := by
  rcases mem_dumps v h with hascii | ⟨hraw, -⟩
  · exact hascii
  · rw [hstyle] at hraw
    cases hraw

/-- An ASCII code point is no surrogate. -/
theorem not_surrogate_of_ascii (h : c.val < 128) : c.isSurrogate = false := by
  unfold isSurrogate
  grind

/-! ## Surrogates -/

/-- A surrogate is written as it is in a text that is not held to ASCII. -/
theorem escape_surrogate (h : c.isSurrogate = true) : escape false c = [c] := by
  have hunits : units false c = [(false, c)] := units_surrogate h
  unfold isSurrogate at h
  rw [Bool.and_eq_true, decide_eq_true_eq, decide_eq_true_eq] at h
  have hshort : shortEscape c = none := by
    cases hshort : shortEscape c with
    | none => rfl
    | some letter =>
      unfold shortEscape at hshort
      split_ifs at hshort with h1
      · rcases h1 with rfl | rfl <;> exact absurd h (by decide)
      all_goals omega
  have hplain : isPlain false c = true := by
    unfold isPlain
    simp only [Bool.not_false, Bool.true_or, Bool.and_true, decide_eq_true_eq]
    omega
  unfold escape
  rw [hshort, hplain]
  rfl

/-- A surrogate stays in a text that is quoted without escapes. -/
theorem mem_quote_of_surrogate (h : c.isSurrogate = true) {s : PyStr} (hs : c ∈ s) : c ∈ quote false s := by
  unfold quote
  refine List.mem_append_left _ (List.mem_cons_of_mem _ (List.mem_flatMap.2 ⟨c, hs, ?_⟩))
  rw [escape_surrogate h]
  exact List.mem_singleton.2 rfl

mutual

/-- A surrogate of a string stays in the text that is written without escapes. -/
theorem mem_dumps_of_surrogate (h : c.isSurrogate = true) (v : PyJson) {s : PyStr} (hs : s ∈ strings v) (hc : c ∈ s) (spaced : Bool) :
    c ∈ dumps F ⟨false, spaced⟩ v := by
  match v with
  | .null | .bool _ | .int _ | .float _ => cases hs
  | .str s' =>
    obtain rfl := List.mem_singleton.1 hs
    exact mem_quote_of_surrogate h hc
  | .arr items =>
    rw [dumps]
    exact List.mem_append_left _ (List.mem_cons_of_mem _ (mem_dumpsItems_of_surrogate h items hs hc spaced))
  | .obj members =>
    rw [dumps]
    exact List.mem_append_left _ (List.mem_cons_of_mem _ (mem_dumpsMembers_of_surrogate h members hs hc spaced))

/-- A surrogate of a string in a list stays in its text. -/
theorem mem_dumpsItems_of_surrogate (h : c.isSurrogate = true) (items : List PyJson) {s : PyStr} (hs : s ∈ itemStrings items)
    (hc : c ∈ s) (spaced : Bool) : c ∈ dumpsItems F ⟨false, spaced⟩ items := by
  match items with
  | [] => cases hs
  | x :: xs =>
    rw [dumpsItems_cons]
    rcases List.mem_append.1 hs with hs | hs
    · exact List.mem_append_left _ (mem_dumps_of_surrogate h x hs hc spaced)
    · match xs with
      | [] => cases hs
      | y :: ys =>
        rw [itemsAfter]
        exact List.mem_append_right _ (List.mem_cons_of_mem _ (List.mem_append_right _
          (mem_dumpsItems_of_surrogate h (y :: ys) hs hc spaced)))

/-- A surrogate of a string in an object stays in its text. -/
theorem mem_dumpsMembers_of_surrogate (h : c.isSurrogate = true) (members : List (PyStr × PyJson)) {s : PyStr}
    (hs : s ∈ memberStrings members) (hc : c ∈ s) (spaced : Bool) : c ∈ dumpsMembers F ⟨false, spaced⟩ members := by
  match members with
  | [] => cases hs
  | (k, x) :: ms =>
    have htext : dumpsMembers F ⟨false, spaced⟩ ((k, x) :: ms) =
        quote false k ++ (ofChar ':' :: (DumpStyle.blank ⟨false, spaced⟩ ++
          (dumps F ⟨false, spaced⟩ x ++ membersAfter F ⟨false, spaced⟩ ms))) := by
      rw [dumpsMembers_cons, membersText, quote]
      simp
    rw [htext]
    rw [memberStrings, List.mem_append, List.mem_cons] at hs
    rcases hs with (rfl | hs) | hs
    · exact List.mem_append_left _ (mem_quote_of_surrogate h hc)
    · exact List.mem_append_right _ (List.mem_cons_of_mem _ (List.mem_append_right _ (List.mem_append_left _
        (mem_dumps_of_surrogate h x hs hc spaced))))
    · match ms with
      | [] => cases hs
      | m :: ms =>
        rw [membersAfter]
        exact List.mem_append_right _ (List.mem_cons_of_mem _ (List.mem_append_right _ (List.mem_append_right _ (List.mem_cons_of_mem _
          (List.mem_append_right _ (mem_dumpsMembers_of_surrogate h (m :: ms) hs hc spaced))))))

end

/-- No string of a value has a surrogate. -/
def Clean (v : PyJson) : Prop := ∀ s ∈ strings v, ∀ c ∈ s, CodePoint.isSurrogate c = false

/-- A text that is not held to ASCII encodes when no string of its value has a surrogate. -/
theorem encode_dumps (F : FloatText) (spaced : Bool) {v : PyJson} :
    (encode (dumps F ⟨false, spaced⟩ v)).isSome = true ↔ Clean v := by
  rw [isSome_encode]
  constructor
  · intro h s hs c hc
    by_contra hsurrogate
    rw [Bool.not_eq_false] at hsurrogate
    exact absurd (h c (mem_dumps_of_surrogate hsurrogate v hs hc spaced)) (by rw [hsurrogate]; decide)
  · intro h c hc
    rcases mem_dumps v hc with hascii | ⟨-, s, hs, hmem⟩
    · exact not_surrogate_of_ascii hascii
    · exact h s hs c hmem

/-- A string is clean where it has no surrogate. -/
theorem clean_str {s : PyStr} : Clean (.str s) ↔ Unicode s := List.forall_mem_singleton

/-- An object is clean where its names have no surrogate and its values are clean. -/
theorem clean_obj {members : List (PyStr × PyJson)} : Clean (.obj members) ↔ ∀ m ∈ members, Unicode m.1 ∧ Clean m.2 := by
  constructor
  · intro h m hm
    exact ⟨h m.1 (mem_memberStrings.2 ⟨m, hm, .inl rfl⟩), fun s hs => h s (mem_memberStrings.2 ⟨m, hm, .inr hs⟩)⟩
  · intro h s hs
    obtain ⟨m, hm, rfl | hs⟩ := mem_memberStrings.1 hs
    · exact (h m hm).1
    · exact (h m hm).2 s hs

/-- A list is clean where its items are. -/
theorem clean_arr {items : List PyJson} : Clean (.arr items) ↔ ∀ x ∈ items, Clean x := by
  unfold Clean
  induction items with
  | nil => simp [strings, itemStrings]
  | cons x xs ih =>
    rw [List.forall_mem_cons, ← ih]
    simp only [strings, itemStrings, List.forall_mem_append]

/-- An integer is clean. -/
theorem clean_int (n : ℤ) : Clean (.int n) := nofun

/-- A boolean is clean. -/
theorem clean_bool (b : Bool) : Clean (.bool b) := nofun

/-- The null is clean. -/
theorem clean_null : Clean .null := nofun

end PyJson
