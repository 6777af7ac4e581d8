import SharkRail.Lib.JsonText
import SharkRail.Lib.Table
import Mathlib

/-!
# Texts read back

What `loads` reads in the text that `dumps` wrote: the value itself, but for the pairs of surrogates in its strings, which an ASCII text
writes as it writes the code points they stand for (`loads_dumps`). A value whose strings have no such pair is read back as it was
(`loads_dumps_self`).
-/

namespace PyJson

open CodePoint PyStr

variable {F : FloatText} {style : DumpStyle} {r t t' : PyStr}

/-! ## Strings -/

/-- What the scanner reads in the text of a code point. -/
def units (ensureAscii : Bool) (c : CodePoint) : List (Bool × CodePoint) :=
  if (shortEscape c).isSome || isPlain ensureAscii c then [(false, c)]
  else if c.val < 0x10000 then [(true, c)]
  else [(true, highOf c), (true, lowOf c)]

/-- A code point is the one with its number. -/
theorem eq_ofNat {c : CodePoint} {n : ℕ} (h : c.val = n) : c = ofNat n := by rw [← h, ofNat_val]

/-- A short escape is read back, and its letter is not the one of the long form. -/
theorem unescapeShort_of_shortEscape {c letter : CodePoint} (h : shortEscape c = some letter) :
    unescapeShort letter = some c ∧ letter ≠ ofChar 'u' := by
  unfold shortEscape at h
  split_ifs at h with h1 h2 h3 h4 h5 h6
  · cases h
    rcases h1 with rfl | rfl <;> decide
  · cases h
    rw [eq_ofNat h2]
    decide
  · cases h
    rw [eq_ofNat h3]
    decide
  · cases h
    rw [eq_ofNat h4]
    decide
  · cases h
    rw [eq_ofNat h5]
    decide
  · cases h
    rw [eq_ofNat h6]
    decide

/-- A hexadecimal digit is read back. -/
theorem hexValue_hexDigit {n : ℕ} (h : n < 16) : hexValue (hexDigit n) = some n := by
  have hall : ∀ n < 16, hexValue (hexDigit n) = some n := by decide
  exact hall n h

/-- A code unit that is escaped is read back. -/
theorem unescape_escapeUnit {n : ℕ} (h : n < 0x10000) (t : PyStr) :
    unescape .plain (escapeUnit n ++ t) = (unescape .plain t).map fun (units, rest) => ((true, ofNat n) :: units, rest) := by
  have h3 := hexValue_hexDigit (Nat.mod_lt (n / 4096) (by decide : 0 < 16))
  have h2 := hexValue_hexDigit (Nat.mod_lt (n / 256) (by decide : 0 < 16))
  have h1 := hexValue_hexDigit (Nat.mod_lt (n / 16) (by decide : 0 < 16))
  have h0 := hexValue_hexDigit (Nat.mod_lt n (by decide : 0 < 16))
  have hn : 16 * (16 * (16 * (16 * 0 + n / 4096 % 16) + n / 256 % 16) + n / 16 % 16) + n % 16 = n := by omega
  have hslash : ofChar '\\' ≠ ofChar '"' := by decide
  simp only [escapeUnit, List.cons_append, List.nil_append, unescape, if_neg hslash, if_true, h3, h2, h1, h0, Nat.reduceLeDiff,
    if_false, Nat.reduceSub, le_refl, hn]

/-- The number of the high surrogate of a code point above the basic plane. -/
theorem val_highOf {c : CodePoint} (h : ¬c.val < 0x10000) : (highOf c).val = 0xD800 + (c.val - 0x10000) / 0x400 := by
  have hlt := c.lt
  exact val_ofNat (by omega)

/-- The number of its low surrogate. -/
theorem val_lowOf (c : CodePoint) : (lowOf c).val = 0xDC00 + (c.val - 0x10000) % 0x400 := by
  exact val_ofNat (by omega)

/-- The first of the pair is a high surrogate. -/
theorem isHigh_highOf {c : CodePoint} (h : ¬c.val < 0x10000) : (highOf c).isHigh = true := by
  have hlt := c.lt
  unfold isHigh
  rw [val_highOf h, Bool.and_eq_true, decide_eq_true_eq, decide_eq_true_eq]
  omega

/-- The second one is a low surrogate. -/
theorem isLow_lowOf (c : CodePoint) : (lowOf c).isLow = true := by
  unfold isLow
  rw [val_lowOf, Bool.and_eq_true, decide_eq_true_eq, decide_eq_true_eq]
  omega

/-- The surrogates of a code point stand for it. -/
theorem pair_highOf_lowOf {c : CodePoint} (h : ¬c.val < 0x10000) : pair (highOf c) (lowOf c) = c := by
  refine CodePoint.ext ?_
  rw [val_pair (isHigh_highOf h) (isLow_lowOf c), val_highOf h, val_lowOf]
  omega

/-- The text of a code point is read as its units. -/
theorem unescape_escape (ensureAscii : Bool) (c : CodePoint) (t : PyStr) :
    unescape .plain (escape ensureAscii c ++ t) =
      (unescape .plain t).map fun (found, rest) => (units ensureAscii c ++ found, rest) := by
  unfold escape units
  cases hshort : shortEscape c with
  | some letter =>
    obtain ⟨hletter, hu⟩ := unescapeShort_of_shortEscape hshort
    have hslash : ofChar '\\' ≠ ofChar '"' := by decide
    simp only [List.cons_append, List.nil_append, unescape, if_neg hslash, if_true, if_neg hu, hletter, Option.isSome_some, Bool.true_or]
  | none =>
    have hnot : c ≠ ofChar '"' ∧ c ≠ ofChar '\\' := by
      unfold shortEscape at hshort
      split_ifs at hshort with h
      exact not_or.1 h
    by_cases hplain : isPlain ensureAscii c = true
    · have hcontrol : ¬c.val < 32 := by
        unfold isPlain at hplain
        rw [Bool.and_eq_true, decide_eq_true_eq] at hplain
        omega
      simp only [hplain, if_true, List.cons_append, List.nil_append, unescape, if_neg hnot.1, if_neg hnot.2, if_neg hcontrol, Bool.or_true]
    · simp only [hplain, Bool.or_self, Option.isSome_none, Bool.false_eq_true, if_false]
      unfold escapeUnicode
      split
      · rename_i hlt
        rw [unescape_escapeUnit hlt, ofNat_val]
        rfl
      · rename_i hge
        have hlt := c.lt
        rw [List.append_assoc, unescape_escapeUnit (by rw [val_highOf hge]; omega), unescape_escapeUnit (by rw [val_lowOf]; omega),
          ofNat_val, ofNat_val, Option.map_map]
        rfl

/-- A quoted string is read up to its closing quote, as code units. -/
theorem unescape_quoted (ensureAscii : Bool) (s t : PyStr) :
    unescape .plain (s.flatMap (escape ensureAscii) ++ ofChar '"' :: t) = some (s.flatMap (units ensureAscii), t) := by
  induction s with
  | nil => simp [unescape]
  | cons c s ih =>
    rw [List.flatMap_cons, List.append_assoc, unescape_escape, ih]
    rfl

/-- The units of a string are its code points, where the first of them is followed by no low surrogate that was escaped. -/
theorem joinUnits_cons {escaped : Bool} {c : CodePoint} {found : List (Bool × CodePoint)}
    (h : ∀ unit ∈ found.head?, (escaped && unit.1 && c.isHigh && unit.2.isLow) = false) :
    joinUnits ((escaped, c) :: found) = c :: joinUnits found := by
  cases found with
  | nil => rfl
  | cons unit found =>
    have hunit := h unit rfl
    obtain ⟨escaped', d⟩ := unit
    rw [joinUnits, if_neg (by rw [hunit]; exact Bool.false_ne_true)]

/-- What a string is read back as. -/
def rereadStr (ensureAscii : Bool) (s : PyStr) : PyStr := if ensureAscii then join s else s

/-- A surrogate is escaped in an ASCII text, and written as it is in any other. -/
theorem units_surrogate {ensureAscii : Bool} {c : CodePoint} (h : c.isSurrogate = true) : units ensureAscii c = [(ensureAscii, c)] := by
  unfold isSurrogate at h
  rw [Bool.and_eq_true, decide_eq_true_eq, decide_eq_true_eq] at h
  have hshort : shortEscape c = none := by
    unfold shortEscape
    rw [if_neg, if_neg, if_neg, if_neg, if_neg, if_neg]
    all_goals first
      | omega
      | rintro (rfl | rfl) <;> revert h <;> decide
  unfold units isPlain
  rw [hshort]
  cases ensureAscii with
  | false => simp [show 32 ≤ c.val by omega]
  | true => simp [show ¬c.val ≤ 126 by omega, show c.val < 0x10000 by omega]

/-- The first unit of a code point is not an escaped low surrogate unless the code point is one. -/
theorem head?_units (ensureAscii : Bool) (c : CodePoint) (found : List (Bool × CodePoint)) :
    ∀ unit ∈ (units ensureAscii c ++ found).head?, unit.2.isLow = true → unit = (ensureAscii, c) ∧ c.isLow = true := by
  intro unit hunit hlow
  by_cases hsurrogate : c.isSurrogate = true
  · rw [units_surrogate hsurrogate] at hunit
    cases hunit
    exact ⟨rfl, hlow⟩
  · have hc : c.isLow = false := by
      rw [isSurrogate_eq, Bool.or_eq_true, not_or] at hsurrogate
      exact Bool.eq_false_iff.2 hsurrogate.2
    unfold units at hunit
    split_ifs at hunit with h1 h2
    · cases hunit
      exact absurd hlow (by rw [hc]; exact Bool.false_ne_true)
    · cases hunit
      exact absurd hlow (by rw [hc]; exact Bool.false_ne_true)
    · rw [List.cons_append, List.head?_cons, Option.mem_some_iff] at hunit
      have hhigh := isHigh_highOf h2
      rw [← hunit] at hlow
      unfold isHigh at hhigh
      unfold isLow at hlow
      grind

/-- The units of a code point are read as it, where no low surrogate that is read with it follows. -/
theorem joinUnits_append {ensureAscii : Bool} {c : CodePoint} {found : List (Bool × CodePoint)}
    (h : c.isHigh = true → ∀ unit ∈ found.head?, (ensureAscii && unit.1 && unit.2.isLow) = false) :
    joinUnits (units ensureAscii c ++ found) = c :: joinUnits found := by
  by_cases hhigh : c.isHigh = true
  · have hsurrogate : c.isSurrogate = true := by rw [isSurrogate_eq, hhigh, Bool.true_or]
    rw [units_surrogate hsurrogate]
    refine joinUnits_cons fun unit hunit => ?_
    rw [Bool.and_assoc, Bool.and_comm c.isHigh, ← Bool.and_assoc, h hhigh unit hunit, Bool.false_and]
  · rw [Bool.not_eq_true] at hhigh
    unfold units
    split_ifs with h1 h2
    · exact joinUnits_cons fun unit _ => by rw [hhigh, Bool.and_false, Bool.false_and]
    · exact joinUnits_cons fun unit _ => by rw [hhigh, Bool.and_false, Bool.false_and]
    · rw [List.cons_append, List.cons_append, List.nil_append, joinUnits, isHigh_highOf h2, isLow_lowOf, pair_highOf_lowOf h2]
      rfl

/-- Code units that were written as they are stay apart. -/
theorem joinUnits_raw (s : PyStr) : joinUnits (s.flatMap (units false)) = s := by
  induction s with
  | nil => rfl
  | cons c s ih =>
    rw [List.flatMap_cons, joinUnits_append fun _ _ _ => by rw [Bool.false_and, Bool.false_and], ih]

/-- Code units that were escaped are joined to pairs. -/
theorem joinUnits_ascii (s : PyStr) : joinUnits (s.flatMap (units true)) = join s := by
  induction s using join.induct with
  | case1 => rfl
  | case2 c => rw [List.flatMap_cons, joinUnits_append fun _ _ h => absurd h (by simp)]; rfl
  | case3 high low s hpair ih =>
    rw [join, if_pos hpair, ← ih]
    rw [Bool.and_eq_true] at hpair
    rw [List.flatMap_cons, List.flatMap_cons, units_surrogate (by rw [isSurrogate_eq, hpair.1, Bool.true_or]),
      units_surrogate (by rw [isSurrogate_eq, hpair.2, Bool.or_true]), List.cons_append, List.cons_append, List.nil_append,
      List.nil_append, joinUnits, hpair.1, hpair.2]
    rfl
  | case4 high low s hpair ih =>
    rw [join, if_neg hpair, ← ih, List.flatMap_cons]
    refine joinUnits_append fun hhigh unit hunit => ?_
    rw [List.flatMap_cons] at hunit
    by_contra hnot
    rw [Bool.not_eq_false, Bool.and_eq_true] at hnot
    obtain ⟨-, hlow⟩ := head?_units true low _ unit hunit hnot.2
    exact hpair (by rw [hhigh, hlow]; rfl)

/-- A string that was quoted is read up to its quote. -/
theorem scanString_quote (ensureAscii : Bool) (s t : PyStr) :
    scanString (s.flatMap (escape ensureAscii) ++ ofChar '"' :: t) = some (rereadStr ensureAscii s, t) := by
  unfold scanString rereadStr
  rw [unescape_quoted, Option.map_some]
  cases ensureAscii with
  | false => exact congrArg (fun found => some (found, t)) (joinUnits_raw s)
  | true => exact congrArg (fun found => some (found, t)) (joinUnits_ascii s)

/-! ## Numbers -/

/-- The code points that a number is made of. -/
def inNumber (c : CodePoint) : Bool :=
  isDigit c || c = ofChar '.' || c = ofChar 'e' || c = ofChar 'E' || c = ofChar '+' || c = ofChar '-'

/-- A number ends before a text. -/
def Ends (r : PyStr) : Prop := ∀ c ∈ r.head?, inNumber c = false

/-- What ends a number does not begin with a digit. -/
theorem Ends.not_digit (h : Ends r) : r.head?.any isDigit = false := by
  cases r with
  | nil => rfl
  | cons c r =>
    have hc := h c rfl
    unfold inNumber at hc
    simp only [Bool.or_eq_false_iff] at hc
    exact hc.1.1.1.1.1

/-- The digits of a number are those before its end. -/
theorem takeWhile_digits_append (hr : Ends r) (t : PyStr) :
    (t ++ r).takeWhile isDigit = t.takeWhile isDigit ∧ (t ++ r).dropWhile isDigit = t.dropWhile isDigit ++ r := by
  induction t with
  | nil =>
    have hnot := hr.not_digit
    cases r with
    | nil => exact ⟨rfl, rfl⟩
    | cons c r =>
      have hc : isDigit c = false := hnot
      simp [hc]
  | cons c t ih =>
    by_cases hc : isDigit c = true
    · simp [hc, ih.1, ih.2]
    · simp [hc]

/-- What ends a number does not make its first part begin with a digit. -/
theorem head?_append_digit (hr : Ends r) (t : PyStr) : (t ++ r).head?.any isDigit = t.head?.any isDigit := by
  cases t with
  | nil => rw [List.nil_append, hr.not_digit]; rfl
  | cons c t => rfl

/-- The digits of a part are read as without what follows the number. -/
theorem scanDigits_append (hr : Ends r) (before t whole : PyStr) :
    scanDigits before (t ++ r) (whole ++ r) = ((scanDigits before t whole).1, (scanDigits before t whole).2 ++ r) := by
  unfold scanDigits
  rw [head?_append_digit hr, (takeWhile_digits_append hr t).1, (takeWhile_digits_append hr t).2]
  split <;> rfl

/-- What ends a number begins with no character of a number. -/
theorem Ends.ne (hr : Ends r) {c : CodePoint} (hc : inNumber c = true) (t : PyStr) : r ≠ c :: t := by
  rintro rfl
  exact absurd hc (by rw [hr c rfl]; exact Bool.false_ne_true)

/-- The sign is read as without what follows the number. -/
theorem scanSign_append (hr : Ends r) (t : PyStr) : scanSign (t ++ r) = ((scanSign t).1, (scanSign t).2 ++ r) := by
  cases t with
  | nil =>
    cases r with
    | nil => rfl
    | cons c r =>
      have hc : c ≠ ofChar '-' := by
        rintro rfl
        exact hr.ne (by decide) r rfl
      simp [scanSign, hc]
  | cons c t =>
    rw [List.cons_append, scanSign, scanSign]
    split <;> rfl

/-- The integer part is read as without what follows the number. -/
theorem scanInteger_append (hr : Ends r) (ht : t ≠ []) :
    scanInteger (t ++ r) = (scanInteger t).map fun (integer, rest) => (integer, rest ++ r) := by
  cases t with
  | nil => exact absurd rfl ht
  | cons c t =>
    have hdigits := takeWhile_digits_append hr (c :: t)
    rw [List.cons_append] at hdigits ⊢
    rw [scanInteger, scanInteger, hdigits.1, hdigits.2]
    split
    · rfl
    · split <;> rfl

/-- The fraction is read as without what follows the number. -/
theorem scanFraction_append (hr : Ends r) (t : PyStr) : scanFraction (t ++ r) = ((scanFraction t).1, (scanFraction t).2 ++ r) := by
  cases t with
  | nil =>
    cases r with
    | nil => rfl
    | cons c r =>
      have hc : c ≠ ofChar '.' := by
        rintro rfl
        exact hr.ne (by decide) r rfl
      simp [scanFraction, hc]
  | cons c t =>
    rw [List.cons_append, scanFraction, scanFraction]
    split
    · exact scanDigits_append hr [c] t (c :: t)
    · rfl

/-- The sign of the exponent is read as without what follows the number. -/
theorem scanExponentSign_append (hr : Ends r) (t : PyStr) :
    scanExponentSign (t ++ r) = ((scanExponentSign t).1, (scanExponentSign t).2 ++ r) := by
  cases t with
  | nil =>
    cases r with
    | nil => rfl
    | cons c r =>
      have hc : ¬(c = ofChar '+' ∨ c = ofChar '-') := by
        rintro (rfl | rfl)
        · exact hr.ne (by decide) r rfl
        · exact hr.ne (by decide) r rfl
      simp [scanExponentSign, hc]
  | cons c t =>
    rw [List.cons_append, scanExponentSign, scanExponentSign]
    split <;> rfl

/-- The exponent is read as without what follows the number. -/
theorem scanExponent_append (hr : Ends r) (t : PyStr) : scanExponent (t ++ r) = ((scanExponent t).1, (scanExponent t).2 ++ r) := by
  cases t with
  | nil =>
    cases r with
    | nil => rfl
    | cons c r =>
      have hc : ¬(c = ofChar 'e' ∨ c = ofChar 'E') := by
        rintro (rfl | rfl)
        · exact hr.ne (by decide) r rfl
        · exact hr.ne (by decide) r rfl
      simp [scanExponent, hc]
  | cons c t =>
    rw [List.cons_append, scanExponent, scanExponent, scanExponentSign_append hr]
    split
    · exact scanDigits_append hr (c :: (scanExponentSign t).1) (scanExponentSign t).2 (c :: t)
    · rfl

/-- A number is read up to where it ends. -/
theorem scanNumberText_append {integer tail rest : PyStr} (hr : Ends r) (h : scanNumberText t = some (integer, tail, rest)) :
    scanNumberText (t ++ r) = some (integer, tail, rest ++ r) := by
  unfold scanNumberText at h ⊢
  rw [scanSign_append hr]
  have hsome : (scanSign t).2 ≠ [] := by
    intro hnil
    rw [hnil] at h
    cases h
  obtain ⟨found, hfound, hparts⟩ := Option.map_eq_some_iff.1 h
  rw [scanInteger_append hr hsome, hfound, Option.map_some, Option.map_some]
  dsimp only at hparts ⊢
  rw [scanFraction_append hr, scanExponent_append hr]
  cases hparts
  rfl

/-- What a number begins with. -/
theorem head_of_scanNumberText {found : PyStr × PyStr × PyStr} (h : scanNumberText t = some found) :
    ∃ c rest, t = c :: rest ∧ (isDigit c = true ∨ c = ofChar '-' ∧ ∃ d rest', rest = d :: rest' ∧ isDigit d = true) := by
  have hinteger : ∀ {t : PyStr} {found : PyStr × PyStr}, scanInteger t = some found → ∃ c rest, t = c :: rest ∧ isDigit c = true := by
    intro t found h
    cases t with
    | nil => cases h
    | cons c rest =>
      refine ⟨c, rest, rfl, ?_⟩
      rw [scanInteger] at h
      split_ifs at h with hzero hdigit
      · rw [hzero]
        decide
      · exact hdigit
  unfold scanNumberText at h
  obtain ⟨integer, hfound, -⟩ := Option.map_eq_some_iff.1 h
  obtain ⟨c, rest, hrest, hdigit⟩ := hinteger hfound
  cases t with
  | nil => cases hrest
  | cons c' t =>
    refine ⟨c', t, rfl, ?_⟩
    rw [scanSign] at hrest
    split at hrest
    · rename_i hminus
      exact .inr ⟨hminus, c, rest, hrest, hdigit⟩
    · cases hrest
      exact .inl hdigit

/-- The digits of a number that is not zero do not begin with zero. -/
theorem toDigits_head {n : ℕ} (h : 0 < n) : ∃ c l, Nat.toDigits 10 n = c :: l ∧ c ≠ '0' := by
  induction n using Nat.strongRecOn with
  | ind n ih =>
    rcases Nat.lt_or_ge n 10 with hlt | hge
    · have hall : ∀ n < 10, 0 < n → Nat.digitChar n ≠ '0' := by decide
      exact ⟨Nat.digitChar n, [], Nat.toDigits_of_lt_base hlt, hall n hlt h⟩
    · obtain ⟨c, l, hdigits, hc⟩ := ih (n / 10) (by omega) (by omega)
      exact ⟨c, l ++ [Nat.digitChar (n % 10)], by rw [Nat.toDigits_of_base_le (by decide) hge, hdigits]; rfl, hc⟩

/-- The text of a natural number is made of digits. -/
theorem isDigit_of_mem_natText {n : ℕ} {c : CodePoint} (h : c ∈ natText n) : isDigit c = true := by
  obtain ⟨d, hd, rfl⟩ := List.mem_map.1 h
  have hdigit := Nat.isDigit_of_mem_toDigits (by decide) (by decide) hd
  have hbounds : 48 ≤ d.toNat ∧ d.toNat ≤ 57 := by simpa [Char.isDigit, UInt32.le_iff_toNat_le] using hdigit
  unfold isDigit
  rw [Bool.and_eq_true, decide_eq_true_eq, decide_eq_true_eq]
  exact hbounds

/-- It is not empty. -/
theorem natText_ne_nil (n : ℕ) : natText n ≠ [] := by
  unfold natText
  simp [Nat.toDigits_ne_nil]

/-- It is an integer part. -/
theorem scanInteger_natText (n : ℕ) : scanInteger (natText n) = some (natText n, []) := by
  rcases Nat.eq_zero_or_pos n with rfl | hpos
  · decide
  · obtain ⟨c, l, hdigits, hc⟩ := toDigits_head hpos
    have htext : natText n = ofChar c :: l.map ofChar := by rw [natText, hdigits]; rfl
    have hall : ∀ d ∈ natText n, isDigit d = true := fun d hd => isDigit_of_mem_natText hd
    have hzero : ofChar c ≠ ofChar '0' := fun h => hc (ofChar_injective h)
    have hhead : isDigit (ofChar c) = true := hall _ (by rw [htext]; exact List.mem_cons_self)
    rw [htext] at hall ⊢
    rw [scanInteger, if_neg hzero, if_pos hhead, List.takeWhile_eq_self_iff.2 hall, List.dropWhile_eq_nil_iff.2 hall]

/-- It has no sign. -/
theorem scanSign_natText (n : ℕ) : scanSign (natText n) = ([], natText n) := by
  have hall : ∀ d ∈ natText n, isDigit d = true := fun d hd => isDigit_of_mem_natText hd
  cases htext : natText n with
  | nil => rfl
  | cons c l =>
    have hc : c ≠ ofChar '-' := by
      rintro rfl
      exact absurd (hall (ofChar '-') (by rw [htext]; exact List.mem_cons_self)) (by decide)
    rw [scanSign, if_neg hc]

/-- The text of an integer is a number without fraction and exponent. -/
theorem scanNumberText_intText (n : ℤ) : scanNumberText (intText n) = some (intText n, [], []) := by
  cases n with
  | ofNat n =>
    unfold scanNumberText
    rw [intText, scanSign_natText, scanInteger_natText]
    rfl
  | negSucc n =>
    unfold scanNumberText
    rw [intText, scanSign, if_pos rfl]
    dsimp only
    rw [scanInteger_natText]
    rfl

/-- The text of a natural number is read back. -/
theorem readNat_natText (n : ℕ) : readNat (natText n) = n := by
  unfold readNat natText
  rw [List.foldl_map]
  exact (Nat.ofDigitChars_eq_foldl.symm).trans Nat.ofDigitChars_ten_toDigits

/-- The text of an integer is read back. -/
theorem readInt_intText (n : ℤ) : readInt (intText n) = n := by
  cases n with
  | ofNat n =>
    have hsign := scanSign_natText n
    cases htext : natText n with
    | nil => exact absurd htext (natText_ne_nil n)
    | cons c l =>
      rw [htext, scanSign] at hsign
      have hc : c ≠ ofChar '-' := by
        intro hc
        rw [if_pos hc] at hsign
        cases hsign
      rw [intText, htext, readInt, if_neg hc, ← htext, readNat_natText]
      rfl
  | negSucc n =>
    rw [intText, readInt, if_pos rfl, readNat_natText]
    rfl

/-! ## Values without parts -/

/-- A literal that is there is skipped. -/
theorem expect_append (literal t : PyStr) : expect literal (literal ++ t) = some t := by
  unfold expect
  rw [if_pos (List.isPrefixOf_iff_prefix.2 (List.prefix_append literal t)), List.drop_left]

/-- A literal that is not there is not. -/
theorem expect_eq_none {literal : PyStr} (h : ¬literal <+: t) : expect literal t = none := by
  unfold expect
  rw [if_neg (fun hprefix => h (List.isPrefixOf_iff_prefix.1 hprefix))]

/-- No name begins a number. -/
theorem names_of_scanNumberText {found : PyStr × PyStr × PyStr} (h : scanNumberText t = some found) :
    (names.findSome? fun (name, value) => (expect name t).map fun rest => (value, rest)) = none := by
  obtain ⟨c, rest, rfl, hhead⟩ := head_of_scanNumberText h
  rw [List.findSome?_eq_none_iff]
  rintro ⟨name, value⟩ hname
  dsimp only
  rw [expect_eq_none, Option.map_none]
  intro hprefix
  have hnames : ∀ x ∈ names, (∀ d ∈ x.1.head?, isDigit d = false ∧ (d = ofChar '-' → ∀ d' ∈ x.1.tail.head?, isDigit d' = false)) ∧
      x.1 ≠ [] ∧ x.1.tail ≠ [] := by decide
  obtain ⟨hfirst, hne, hne'⟩ := hnames (name, value) hname
  dsimp only at hfirst hne hne'
  obtain ⟨a, name', rfl⟩ := List.exists_cons_of_ne_nil hne
  obtain ⟨b, name, rfl⟩ := List.exists_cons_of_ne_nil hne'
  obtain ⟨rest', hrest'⟩ := hprefix
  cases hrest'
  obtain ⟨hnot, hminus⟩ := hfirst _ rfl
  rcases hhead with hdigit | ⟨hsign, d, rest'', hrest'', hdigit⟩
  · exact absurd hdigit (by rw [hnot]; exact Bool.false_ne_true)
  · cases hrest''
    exact absurd hdigit (by rw [hminus hsign _ rfl]; exact Bool.false_ne_true)

/-- A number is an integer when it has neither a fraction nor an exponent, and else a float. -/
theorem scanScalar_number {integer tail rest : PyStr} (h : scanNumberText t = some (integer, tail, rest)) :
    scanScalar F t = some (if tail = [] then .int (readInt integer) else .float (F.read (integer ++ tail)), rest) := by
  unfold scanScalar scanNumber
  rw [names_of_scanNumberText h, h]
  rfl

/-- An integer is scanned, whatever ends it. -/
theorem scanScalar_int (n : ℤ) (hr : Ends r) : scanScalar F (intText n ++ r) = some (.int n, r) := by
  rw [scanScalar_number (scanNumberText_append hr (scanNumberText_intText n)), if_pos rfl, readInt_intText, List.nil_append]

/-- A float is scanned, whatever ends it. -/
theorem scanScalar_float {q : ℚ} (hq : IsDouble q) (hr : Ends r) : scanScalar F (F.repr q ++ r) = some (.float (.finite q), r) := by
  obtain ⟨integer, tail, hscan, hne, hrepr⟩ := F.isNumber q hq
  rw [scanScalar_number (scanNumberText_append hr hscan), if_neg hne, ← hrepr, F.read_repr q hq, List.nil_append]

/-- A value that is written by its name is scanned. -/
theorem scanScalar_name {name : PyStr} {value : PyJson} (h : (name, value) ∈ names) (r : PyStr) :
    scanScalar F (name ++ r) = some (value, r) := by
  have hfound : (names.findSome? fun (name', value') => (expect name' (name ++ r)).map fun rest => (value', rest)) = some (value, r) := by
    simp only [names, List.mem_cons, Prod.mk.injEq, List.not_mem_nil, or_false] at h
    rcases h with ⟨rfl, rfl⟩ | ⟨rfl, rfl⟩ | ⟨rfl, rfl⟩ | ⟨rfl, rfl⟩ | ⟨rfl, rfl⟩ | ⟨rfl, rfl⟩ <;>
      simp [names, expect, ofString, ofChar_injective.eq_iff]
  unfold scanScalar
  rw [hfound]

/-! ## Values -/

mutual

/-- A value that a program can hold: its floats are doubles, and the keys of an object differ. -/
def IsPython : PyJson → Prop
  | float (.finite q) => IsDouble q
  | arr items => ItemsPython items
  | obj members => (members.map (·.1)).Nodup ∧ MembersPython members
  | _ => True

def ItemsPython : List PyJson → Prop
  | [] => True
  | x :: xs => IsPython x ∧ ItemsPython xs

def MembersPython : List (PyStr × PyJson) → Prop
  | [] => True
  | (_, x) :: ms => IsPython x ∧ MembersPython ms

end

mutual

/-- What a value is read back as. -/
def reread (ensureAscii : Bool) : PyJson → PyJson
  | str s => str (rereadStr ensureAscii s)
  | arr items => arr (rereadItems ensureAscii items)
  | obj members => obj (ofPairs (rereadMembers ensureAscii members))
  | v => v

def rereadItems (ensureAscii : Bool) : List PyJson → List PyJson
  | [] => []
  | x :: xs => reread ensureAscii x :: rereadItems ensureAscii xs

def rereadMembers (ensureAscii : Bool) : List (PyStr × PyJson) → List (PyStr × PyJson)
  | [] => []
  | (k, x) :: ms => (rereadStr ensureAscii k, reread ensureAscii x) :: rereadMembers ensureAscii ms

end

mutual

/-- The fuel that reads the text of a value. -/
def need : PyJson → ℕ
  | arr items => needItems items + 1
  | obj members => needMembers members + 1
  | _ => 1

def needItems : List PyJson → ℕ
  | [] => 0
  | x :: xs => need x + needItems xs + 1

def needMembers : List (PyStr × PyJson) → ℕ
  | [] => 0
  | (_, x) :: ms => need x + needMembers ms + 1

end

/-- A text begins with no blank and no byte order mark, and does not end an array. -/
def Solid (t : PyStr) : Prop := ∃ c rest, t = c :: rest ∧ isSpace c = false ∧ c ≠ ofChar ']' ∧ c.val < 128

/-- There is nothing to skip before a solid text. -/
theorem Solid.skipWs (h : Solid t) (t' : PyStr) : skipWs (t ++ t') = t ++ t' := by
  obtain ⟨c, rest, rfl, hc, -⟩ := h
  simp [PyJson.skipWs, hc]

/-- A blank is skipped before a solid text. -/
theorem Solid.skip_blank (h : Solid t) (style : DumpStyle) (t' : PyStr) : PyJson.skipWs (style.blank ++ (t ++ t')) = t ++ t' := by
  unfold DumpStyle.blank
  split
  · have hblank : PyJson.skipWs ([ofChar ' '] ++ (t ++ t')) = PyJson.skipWs (t ++ t') := by simp [PyJson.skipWs, isSpace]
    rw [hblank, h.skipWs]
  · exact h.skipWs t'

/-- A number is solid. -/
theorem solid_of_scanNumberText {found : PyStr × PyStr × PyStr} (h : scanNumberText t = some found) : Solid t := by
  obtain ⟨c, rest, rfl, hhead⟩ := head_of_scanNumberText h
  refine ⟨c, rest, rfl, ?_⟩
  rcases hhead with hdigit | ⟨rfl, -⟩
  · refine ⟨?_, ?_, ?_⟩
    · unfold isDigit at hdigit
      unfold isSpace
      grind
    · rintro rfl
      revert hdigit
      decide
    · unfold isDigit at hdigit
      grind
  · decide

/-- The text of a value is solid. -/
theorem solid_dumps {v : PyJson} (hv : IsPython v) : Solid (dumps F style v) := by
  cases v with
  | null => exact ⟨_, _, rfl, by decide⟩
  | bool b => cases b <;> exact ⟨_, _, rfl, by decide⟩
  | int n => exact solid_of_scanNumberText (scanNumberText_intText n)
  | float x =>
    cases x with
    | finite q =>
      obtain ⟨integer, tail, hscan, -⟩ := F.isNumber q hv
      exact solid_of_scanNumberText hscan
    | inf negative => cases negative <;> exact ⟨_, _, rfl, by decide⟩
    | nan => exact ⟨_, _, rfl, by decide⟩
  | str s => exact ⟨_, _, rfl, by decide⟩
  | arr items => exact ⟨_, _, rfl, by decide⟩
  | obj members => exact ⟨_, _, rfl, by decide⟩

/-- A value that begins with no quote, brace or bracket is a scalar. -/
theorem scanOnce_scalar {c : CodePoint} {n : ℕ} (h : ¬(c = ofChar '"' ∨ c = ofChar '{' ∨ c = ofChar '[')) :
    scanOnce F (n + 1) (c :: t) = scanScalar F (c :: t) := by
  simp only [not_or] at h
  rw [scanOnce, List.head?_cons]
  dsimp only
  rw [if_neg h.1, if_neg h.2.1, if_neg h.2.2]

/-- A number is a scalar. -/
theorem scanOnce_number {found : PyStr × PyStr × PyStr} {n : ℕ} (h : scanNumberText t = some found) (r : PyStr) :
    scanOnce F (n + 1) (t ++ r) = scanScalar F (t ++ r) := by
  obtain ⟨c, rest, rfl, hhead⟩ := head_of_scanNumberText h
  refine scanOnce_scalar ?_
  rintro (rfl | rfl | rfl) <;> revert hhead <;> simp [isDigit, ofChar_injective.eq_iff]

/-- A value that is written by its name is a scalar. -/
theorem scanOnce_name {name : PyStr} {value : PyJson} {n : ℕ} (h : (name, value) ∈ names) (r : PyStr) :
    scanOnce F (n + 1) (name ++ r) = some (value, r) := by
  have hnames : ∀ x ∈ names, x.1 ≠ [] ∧ ∀ c ∈ x.1.head?, ¬(c = ofChar '"' ∨ c = ofChar '{' ∨ c = ofChar '[') := by decide
  obtain ⟨hne, hhead⟩ := hnames (name, value) h
  rw [← scanScalar_name h r]
  obtain ⟨c, rest, rfl⟩ := List.exists_cons_of_ne_nil hne
  exact scanOnce_scalar (hhead c rfl)

/-- The items after the first one, with the separator before them. -/
def itemsAfter (F : FloatText) (style : DumpStyle) : List PyJson → PyStr
  | [] => []
  | x :: xs => ofChar ',' :: (style.blank ++ dumpsItems F style (x :: xs))

/-- The text of items is that of the first one with what comes after it. -/
theorem dumpsItems_cons (x : PyJson) (xs : List PyJson) :
    dumpsItems F style (x :: xs) = dumps F style x ++ itemsAfter F style xs := by
  cases xs with
  | nil => rw [dumpsItems, itemsAfter, List.append_nil]
  | cons y ys => rw [dumpsItems, itemsAfter]

def membersAfter (F : FloatText) (style : DumpStyle) : List (PyStr × PyJson) → PyStr
  | [] => []
  | m :: ms => ofChar ',' :: (style.blank ++ dumpsMembers F style (m :: ms))

/-- The members of an object from within the quote of the first key. -/
def membersText (F : FloatText) (style : DumpStyle) (k : PyStr) (x : PyJson) (ms : List (PyStr × PyJson)) : PyStr :=
  k.flatMap (escape style.ensureAscii) ++ ofChar '"' :: ofChar ':' :: (style.blank ++ (dumps F style x ++ membersAfter F style ms))

/-- The text of members begins with the quote of the first key. -/
theorem dumpsMembers_cons (k : PyStr) (x : PyJson) (ms : List (PyStr × PyJson)) :
    dumpsMembers F style ((k, x) :: ms) = ofChar '"' :: membersText F style k x ms := by
  cases ms with
  | nil => simp [dumpsMembers, membersAfter, membersText, quote]
  | cons m ms => simp [dumpsMembers, membersAfter, membersText, quote]

/-- A character that is there is skipped. -/
theorem expect_self (c : CodePoint) (t : PyStr) : expect [c] (c :: t) = some t := expect_append [c] t

/-- Another character is not. -/
theorem expect_ne {c d : CodePoint} (h : c ≠ d) (t : PyStr) : expect [c] (d :: t) = none := by
  refine expect_eq_none fun hprefix => ?_
  obtain ⟨rest, hrest⟩ := hprefix
  cases hrest
  exact h rfl

/-- A text that begins with no space is left as it is. -/
theorem skipWs_cons {c : CodePoint} (h : isSpace c = false) (t : PyStr) : skipWs (c :: t) = c :: t := by simp [skipWs, h]

/-- A character that is in no number ends one. -/
theorem ends_cons {c : CodePoint} (h : inNumber c = false) (t : PyStr) : Ends (c :: t) := by
  rintro d ⟨⟩
  exact h

/-- What comes after an item ends a number. -/
theorem ends_itemsAfter (xs : List PyJson) (r : PyStr) : Ends (itemsAfter F style xs ++ ofChar ']' :: r) := by
  cases xs with
  | nil => exact ends_cons (by decide) _
  | cons x xs => exact ends_cons (by decide) _

/-- What comes after a member ends a number. -/
theorem ends_membersAfter (ms : List (PyStr × PyJson)) (r : PyStr) : Ends (membersAfter F style ms ++ ofChar '}' :: r) := by
  cases ms with
  | nil => exact ends_cons (by decide) _
  | cons m ms => exact ends_cons (by decide) _

mutual

/-- The scanner reads what was written, and stops where it ends. -/
theorem scanOnce_dumps (v : PyJson) (hv : IsPython v) {n : ℕ} (hn : need v ≤ n) {r : PyStr} (hr : Ends r) :
    scanOnce F n (dumps F style v ++ r) = some (reread style.ensureAscii v, r) := by
  obtain ⟨n, rfl⟩ : ∃ m, n = m + 1 := ⟨n - 1, by cases v <;> simp only [need] at hn <;> omega⟩
  match v with
  | .null => exact scanOnce_name (by simp [names, dumps, reread]) r
  | .bool true => exact scanOnce_name (by simp [names, dumps, reread]) r
  | .bool false => exact scanOnce_name (by simp [names, dumps, reread]) r
  | .int i =>
    rw [dumps, scanOnce_number (scanNumberText_intText i), scanScalar_int i hr]
    rfl
  | .float (.finite q) =>
    obtain ⟨integer, tail, hscan, -⟩ := F.isNumber q hv
    rw [dumps, floatText, scanOnce_number hscan, scanScalar_float hv hr]
    rfl
  | .float (.inf true) => exact scanOnce_name (by simp [names, dumps, floatText, reread]) r
  | .float (.inf false) => exact scanOnce_name (by simp [names, dumps, floatText, reread]) r
  | .float .nan => exact scanOnce_name (by simp [names, dumps, floatText, reread]) r
  | .str s =>
    rw [dumps, quote, List.cons_append, List.cons_append, List.append_assoc, List.singleton_append, scanOnce, List.head?_cons]
    dsimp only
    rw [if_pos rfl, List.tail_cons, scanString_quote]
    rfl
  | .arr [] =>
    change scanOnce F (n + 1) (ofChar '[' :: ofChar ']' :: r) = _
    rw [scanOnce, List.head?_cons]
    dsimp only
    rw [if_neg (by decide), if_neg (by decide), if_pos rfl, List.tail_cons, skipWs_cons (by decide), expect_self]
    rfl
  | .arr (x :: xs) =>
    have hitems := scanItems_dumps x xs hv (n := n) (by simp only [need] at hn; omega) r
    have hsolid : Solid (dumps F style x) := solid_dumps hv.1
    obtain ⟨c, rest, hx, hc⟩ := hsolid
    have hrest : dumpsItems F style (x :: xs) ++ ofChar ']' :: r = c :: (rest ++ (itemsAfter F style xs ++ ofChar ']' :: r)) := by
      rw [dumpsItems_cons, hx, List.append_assoc, List.cons_append]
    rw [dumps, List.cons_append, List.cons_append, List.append_assoc, List.singleton_append, scanOnce, List.head?_cons]
    dsimp only
    rw [if_neg (by decide), if_neg (by decide), if_pos rfl, List.tail_cons, hrest, skipWs_cons hc.1, expect_ne hc.2.1.symm, ← hrest, hitems]
    rfl
  | .obj [] =>
    change scanOnce F (n + 1) (ofChar '{' :: ofChar '}' :: r) = _
    rw [scanOnce, List.head?_cons]
    dsimp only
    rw [if_neg (by decide), if_pos rfl, List.tail_cons, skipWs_cons (by decide), expect_self]
    rfl
  | .obj ((k, x) :: ms) =>
    have hmembers := scanMembers_dumps k x ms hv.2 (n := n) (by simp only [need] at hn; omega) r
    rw [dumps, dumpsMembers_cons, List.cons_append, List.cons_append, List.append_assoc, List.singleton_append, scanOnce, List.head?_cons]
    dsimp only
    rw [if_neg (by decide), if_pos rfl, List.tail_cons, List.cons_append, skipWs_cons (by decide), expect_ne (by decide), expect_self]
    dsimp only
    simp only [Option.bind_eq_bind, Option.bind_some, hmembers]
    rfl
termination_by n
decreasing_by all_goals omega

/-- The items of an array are read back, with the induction hypothesis for each. -/
theorem scanItems_dumps (x : PyJson) (xs : List PyJson) (hv : ItemsPython (x :: xs)) {n : ℕ} (hn : needItems (x :: xs) ≤ n) (r : PyStr) :
    scanItems F n (dumpsItems F style (x :: xs) ++ ofChar ']' :: r) = some (rereadItems style.ensureAscii (x :: xs), r) := by
  rw [needItems] at hn
  obtain ⟨m, rfl⟩ : ∃ m, n = m + 1 := ⟨n - 1, by omega⟩
  have hneed : need x ≤ m := by omega
  have hx : scanOnce F m (dumps F style x ++ (itemsAfter F style xs ++ ofChar ']' :: r)) =
      some (reread style.ensureAscii x, itemsAfter F style xs ++ ofChar ']' :: r) :=
    scanOnce_dumps x hv.1 hneed (ends_itemsAfter xs r)
  rw [dumpsItems_cons, List.append_assoc, scanItems, hx]
  match xs with
  | [] =>
    simp only [itemsAfter, List.nil_append, Option.bind_eq_bind, Option.bind_some, skipWs_cons (c := ofChar ']') (by decide), expect_self]
    rfl
  | y :: ys =>
    have hxs := scanItems_dumps y ys hv.2 (n := m) (by omega) r
    have hsolid : PyJson.skipWs (style.blank ++ (dumpsItems F style (y :: ys) ++ ofChar ']' :: r)) =
        dumpsItems F style (y :: ys) ++ ofChar ']' :: r := by
      rw [dumpsItems_cons, List.append_assoc]
      exact (solid_dumps hv.2.1).skip_blank style _
    simp only [itemsAfter, List.cons_append, List.append_assoc, Option.bind_eq_bind, Option.bind_some,
      skipWs_cons (c := ofChar ',') (by decide), expect_ne (c := ofChar ']') (d := ofChar ',') (by decide), expect_self, hsolid, hxs]
    rfl
termination_by n
decreasing_by all_goals omega

/-- The members of an object are read back. -/
theorem scanMembers_dumps (k : PyStr) (x : PyJson) (ms : List (PyStr × PyJson)) (hv : MembersPython ((k, x) :: ms)) {n : ℕ}
    (hn : needMembers ((k, x) :: ms) ≤ n) (r : PyStr) :
    scanMembers F n (membersText F style k x ms ++ ofChar '}' :: r) = some (rereadMembers style.ensureAscii ((k, x) :: ms), r) := by
  rw [needMembers] at hn
  obtain ⟨m, rfl⟩ : ∃ m, n = m + 1 := ⟨n - 1, by omega⟩
  have hneed : need x ≤ m := by omega
  have hx : scanOnce F m (dumps F style x ++ (membersAfter F style ms ++ ofChar '}' :: r)) =
      some (reread style.ensureAscii x, membersAfter F style ms ++ ofChar '}' :: r) :=
    scanOnce_dumps x hv.1 hneed (ends_membersAfter ms r)
  have hsolid : PyJson.skipWs (style.blank ++ (dumps F style x ++ (membersAfter F style ms ++ ofChar '}' :: r))) =
      dumps F style x ++ (membersAfter F style ms ++ ofChar '}' :: r) := (solid_dumps hv.1).skip_blank style _
  rw [membersText, List.append_assoc, List.cons_append, scanMembers, scanString_quote]
  simp only [Option.bind_eq_bind, Option.bind_some, List.cons_append, List.append_assoc, skipWs_cons (c := ofChar ':') (by decide),
    expect_self, hsolid, hx]
  match ms with
  | [] =>
    simp only [membersAfter, List.nil_append, skipWs_cons (c := ofChar '}') (by decide), expect_self]
    rfl
  | (k', x') :: ms =>
    have hms := scanMembers_dumps k' x' ms hv.2 (n := m) (by omega) r
    have hblank : PyJson.skipWs (style.blank ++ (ofChar '"' :: membersText F style k' x' ms ++ ofChar '}' :: r)) =
        ofChar '"' :: (membersText F style k' x' ms ++ ofChar '}' :: r) :=
      Solid.skip_blank (t := [ofChar '"']) ⟨_, [], rfl, by decide⟩ style _
    simp only [membersAfter, dumpsMembers_cons, List.cons_append, List.append_assoc, skipWs_cons (c := ofChar ',') (by decide),
      expect_ne (c := ofChar '}') (d := ofChar ',') (by decide), expect_self, Option.bind_some] at hblank ⊢
    simp only [hblank, expect_self, Option.bind_some, hms]
    rfl
termination_by n
decreasing_by all_goals omega

end

/-! ## Texts -/

/-- A solid text is not empty. -/
theorem length_pos_of_solid (h : Solid t) : 1 ≤ t.length := by
  obtain ⟨c, rest, rfl, -⟩ := h
  exact Nat.succ_le_succ (Nat.zero_le _)

mutual

/-- The fuel that `loads` takes reads every text that was written. -/
theorem need_le_length (v : PyJson) (hv : IsPython v) : need v ≤ 2 * (dumps F style v).length := by
  match v with
  | .null | .bool _ | .int _ | .float _ | .str _ =>
    have hsolid : Solid (dumps F style _) := solid_dumps hv
    have hlength := length_pos_of_solid hsolid
    rw [need]
    omega
    all_goals nofun
  | .arr items =>
    have hitems := needItems_le_length items hv
    rw [need, dumps, List.length_append, List.length_cons, List.length_singleton]
    omega
  | .obj members =>
    have hmembers := needMembers_le_length members hv.2
    rw [need, dumps, List.length_append, List.length_cons, List.length_singleton]
    omega

/-- The steps that items need are bounded by the length of their text. -/
theorem needItems_le_length (items : List PyJson) (hv : ItemsPython items) :
    needItems items ≤ 2 * (dumpsItems F style items).length + 1 := by
  match items with
  | [] => exact Nat.zero_le _
  | [x] =>
    have hx := need_le_length x hv.1
    rw [needItems, needItems, dumpsItems]
    omega
  | x :: y :: ys =>
    have hx := need_le_length x hv.1
    have hys := needItems_le_length (y :: ys) hv.2
    rw [needItems, dumpsItems, List.length_append, List.length_cons, List.length_append]
    omega

/-- The steps that members need are bounded by the length of their text. -/
theorem needMembers_le_length (members : List (PyStr × PyJson)) (hv : MembersPython members) :
    needMembers members ≤ 2 * (dumpsMembers F style members).length + 1 := by
  match members with
  | [] => exact Nat.zero_le _
  | [(k, x)] =>
    have hx := need_le_length x hv.1
    rw [needMembers, needMembers, dumpsMembers, List.length_append, List.length_cons, List.length_append]
    omega
  | (k, x) :: m :: ms =>
    have hx := need_le_length x hv.1
    have hms := needMembers_le_length (m :: ms) hv.2
    rw [needMembers, dumpsMembers]
    simp only [List.length_append, List.length_cons]
    omega

end

/-- What is read in a text that was written. -/
theorem loads_dumps (F : FloatText) (style : DumpStyle) {v : PyJson} (hv : IsPython v) :
    loads F (dumps F style v) = some (reread style.ensureAscii v) := by
  have hsolid : Solid (dumps F style v) := solid_dumps hv
  have hneed : need v ≤ 2 * (dumps F style v).length := need_le_length v hv
  have hskip : skipWs (dumps F style v) = dumps F style v := by
    have h := hsolid.skipWs []
    rwa [List.append_nil] at h
  have hends : Ends [] := nofun
  have hscan : scanOnce F (2 * (dumps F style v).length + 2) (dumps F style v ++ []) = some (reread style.ensureAscii v, []) :=
    scanOnce_dumps v hv (by omega) hends
  rw [List.append_nil] at hscan
  have hmark : (dumps F style v).head? ≠ some (ofNat 0xFEFF) := by
    obtain ⟨c, rest, htext, -, -, hascii⟩ := hsolid
    rw [htext, List.head?_cons, Ne, Option.some.injEq]
    rintro rfl
    rw [val_ofNat (by decide)] at hascii
    omega
  unfold loads
  rw [if_neg hmark, hskip, hscan]
  rfl

/-! ## Values that are read back as they were -/

mutual

/-- The strings of a value, its keys among them. -/
def strings : PyJson → List PyStr
  | str s => [s]
  | arr items => itemStrings items
  | obj members => memberStrings members
  | _ => []

def itemStrings : List PyJson → List PyStr
  | [] => []
  | x :: xs => strings x ++ itemStrings xs

def memberStrings : List (PyStr × PyJson) → List PyStr
  | [] => []
  | (k, x) :: ms => k :: strings x ++ memberStrings ms

end

/-- A new key is added as the last member. -/
theorem set_of_new {members : List (PyStr × PyJson)} {key : PyStr} (h : key ∉ members.map (·.1)) (value : PyJson) :
    set members key value = members ++ [(key, value)] := by
  unfold set
  rw [if_neg]
  intro hany
  obtain ⟨m, hm, hkey⟩ := List.any_eq_true.1 hany
  exact h (List.mem_map.2 ⟨m, hm, by simpa using hkey⟩)

/-- Members whose keys differ are those of their dictionary. -/
theorem ofPairs_of_nodup {members : List (PyStr × PyJson)} (h : (members.map (·.1)).Nodup) : ofPairs members = members := by
  have hfold : ∀ (rest before : List (PyStr × PyJson)), ((before ++ rest).map (·.1)).Nodup →
      rest.foldl (fun members m => set members m.1 m.2) before = before ++ rest := by
    intro rest
    induction rest with
    | nil => exact fun before _ => (List.append_nil before).symm
    | cons m rest ih =>
      intro before hkeys
      have hnew : m.1 ∉ before.map (·.1) := by
        intro hmem
        rw [List.map_append, List.nodup_append] at hkeys
        exact hkeys.2.2 m.1 hmem m.1 List.mem_cons_self rfl
      rw [List.foldl_cons, set_of_new hnew, ih, List.append_assoc, List.singleton_append]
      rwa [List.append_assoc, List.singleton_append]
  exact hfold members [] h

/-- A string without a pair of surrogates is read back as it is. -/
theorem rereadStr_of_joined {s : PyStr} (h : Joined s) (ensureAscii : Bool) : rereadStr ensureAscii s = s := by
  unfold rereadStr
  rw [join_of_joined h]
  exact ite_self s

mutual

/-- A value without pairs of surrogates is read back as it was. -/
theorem reread_of_joined (ensureAscii : Bool) (v : PyJson) (hv : IsPython v) (h : ∀ s ∈ strings v, Joined s) :
    reread ensureAscii v = v := by
  match v with
  | .null | .bool _ | .int _ | .float _ =>
    rw [reread]
    all_goals nofun
  | .str s => rw [reread, rereadStr_of_joined (h s List.mem_cons_self)]
  | .arr items => rw [reread, rereadItems_of_joined ensureAscii items hv h]
  | .obj members => rw [reread, rereadMembers_of_joined ensureAscii members hv.2 h, ofPairs_of_nodup hv.1]

/-- Items without a pair of surrogates are read back as they are. -/
theorem rereadItems_of_joined (ensureAscii : Bool) (items : List PyJson) (hv : ItemsPython items) (h : ∀ s ∈ itemStrings items, Joined s) :
    rereadItems ensureAscii items = items := by
  match items with
  | [] => rfl
  | x :: xs =>
    rw [rereadItems, reread_of_joined ensureAscii x hv.1 fun s hs => h s (List.mem_append_left _ hs),
      rereadItems_of_joined ensureAscii xs hv.2 fun s hs => h s (List.mem_append_right _ hs)]

/-- Members without a pair of surrogates are read back as they are. -/
theorem rereadMembers_of_joined (ensureAscii : Bool) (members : List (PyStr × PyJson)) (hv : MembersPython members)
    (h : ∀ s ∈ memberStrings members, Joined s) : rereadMembers ensureAscii members = members := by
  match members with
  | [] => rfl
  | (k, x) :: ms =>
    rw [rereadMembers, rereadStr_of_joined (h k List.mem_cons_self),
      reread_of_joined ensureAscii x hv.1 fun s hs => h s (List.mem_cons_of_mem _ (List.mem_append_left _ hs)),
      rereadMembers_of_joined ensureAscii ms hv.2 fun s hs => h s (List.mem_cons_of_mem _ (List.mem_append_right _ hs))]

end

/-- A value without pairs of surrogates is read in its text. -/
theorem loads_dumps_self (F : FloatText) (style : DumpStyle) {v : PyJson} (hv : IsPython v) (h : ∀ s ∈ strings v, Joined s) :
    loads F (dumps F style v) = some v := by
  rw [loads_dumps F style hv, reread_of_joined _ v hv h]

/-! ## Dictionaries -/

/-- A member is found by its key. -/
theorem get?_of_mem {members : List (PyStr × PyJson)} (h : (members.map (·.1)).Nodup) {key : PyStr} {value : PyJson}
    (hm : (key, value) ∈ members) : get? members key = some value := by
  unfold get?
  rw [Table.find?_key (·.1) h hm]
  rfl

/-- A key that no member has is not found. -/
theorem get?_of_not_mem {members : List (PyStr × PyJson)} {key : PyStr} (h : key ∉ members.map (·.1)) : get? members key = none := by
  unfold get?
  rw [Option.map_eq_none_iff, List.find?_eq_none]
  intro m hm hkey
  exact h (List.mem_map.2 ⟨m, hm, by simpa using hkey⟩)

/-- The members of a dictionary are found in whatever order they stand. -/
theorem get?_perm {members members' : List (PyStr × PyJson)} (h : members.Perm members') (hkeys : (members.map (·.1)).Nodup)
    (key : PyStr) : get? members key = get? members' key := by
  have hkeys' : (members'.map (·.1)).Nodup := ((h.map _).nodup_iff).1 hkeys
  by_cases hkey : key ∈ members.map (·.1)
  · obtain ⟨⟨k, value⟩, hm, rfl⟩ := List.mem_map.1 hkey
    rw [get?_of_mem hkeys hm, get?_of_mem hkeys' (h.subset hm)]
  · rw [get?_of_not_mem hkey, get?_of_not_mem fun hmem => hkey (((h.map _).mem_iff).2 hmem)]

/-! ## Values that were read -/

/-- Members are values of the program when each of them is. -/
theorem membersPython_iff {members : List (PyStr × PyJson)} : MembersPython members ↔ ∀ m ∈ members, IsPython m.2 := by
  induction members with
  | nil => simp [MembersPython]
  | cons m ms ih =>
    obtain ⟨k, x⟩ := m
    rw [MembersPython, ih, List.forall_mem_cons]

/-- The strings of members are their keys and the strings of their values. -/
theorem mem_memberStrings {members : List (PyStr × PyJson)} {s : PyStr} :
    s ∈ memberStrings members ↔ ∃ m ∈ members, s = m.1 ∨ s ∈ strings m.2 := by
  induction members with
  | nil => simp [memberStrings]
  | cons m ms ih =>
    obtain ⟨k, x⟩ := m
    rw [memberStrings, List.cons_append, List.mem_cons, List.mem_append, ih]
    simp only [List.exists_mem_cons_iff, or_assoc]

/-- A member after an update is one from before, or the new one. -/
theorem mem_set {members : List (PyStr × PyJson)} {key : PyStr} {value : PyJson} {m : PyStr × PyJson} (h : m ∈ set members key value) :
    m ∈ members ∨ m = (key, value) := by
  unfold set at h
  split at h
  · obtain ⟨m', hm', heq⟩ := List.mem_map.1 h
    split at heq
    · exact .inr heq.symm
    · exact .inl (heq ▸ hm')
  · rcases List.mem_append.1 h with h | h
    · exact .inl h
    · exact .inr (List.mem_singleton.1 h)

/-- An update keeps the keys distinct. -/
theorem nodup_set {members : List (PyStr × PyJson)} (h : (members.map (·.1)).Nodup) (key : PyStr) (value : PyJson) :
    ((set members key value).map (·.1)).Nodup := by
  by_cases hkey : key ∈ members.map (·.1)
  · have hany : (members.any fun m => m.1 = key) = true := by
      obtain ⟨m, hm, hmkey⟩ := List.mem_map.1 hkey
      exact List.any_eq_true.2 ⟨m, hm, by simpa using hmkey⟩
    have hkeys : (set members key value).map (·.1) = members.map (·.1) := by
      unfold set
      rw [if_pos hany, List.map_map]
      refine List.map_congr_left fun m _ => ?_
      simp only [Function.comp_apply]
      split
      · rename_i hm
        exact hm.symm
      · rfl
    rwa [hkeys]
  · rw [set_of_new hkey, List.map_append, List.nodup_append]
    refine ⟨h, List.nodup_singleton _, ?_⟩
    rintro a ha b hb rfl
    rw [List.map_singleton, List.mem_singleton] at hb
    obtain rfl : a = key := hb
    exact hkey ha

/-- A dictionary of pairs has members of the pairs, and each key once. -/
theorem ofPairs_spec (pairs : List (PyStr × PyJson)) : (∀ m ∈ ofPairs pairs, m ∈ pairs) ∧ ((ofPairs pairs).map (·.1)).Nodup := by
  have hfold : ∀ (rest before : List (PyStr × PyJson)), (∀ m ∈ before, m ∈ pairs) → (∀ m ∈ rest, m ∈ pairs) →
      (before.map (·.1)).Nodup →
      (∀ m ∈ rest.foldl (fun members m => set members m.1 m.2) before, m ∈ pairs) ∧
        ((rest.foldl (fun members m => set members m.1 m.2) before).map (·.1)).Nodup := by
    intro rest
    induction rest with
    | nil => exact fun before hbefore _ hkeys => ⟨hbefore, hkeys⟩
    | cons m rest ih =>
      intro before hbefore hrest hkeys
      refine ih _ (fun m' hm' => ?_) (fun m' hm' => hrest m' (List.mem_cons_of_mem m hm')) (nodup_set hkeys m.1 m.2)
      rcases mem_set hm' with hm' | rfl
      · exact hbefore m' hm'
      · exact hrest m List.mem_cons_self
  exact hfold pairs [] (fun m hm => absurd hm List.not_mem_nil) (fun m hm => hm) List.nodup_nil

mutual

/-- What is read is a value that a program can hold. -/
theorem isPython_reread (ensureAscii : Bool) (v : PyJson) (hv : IsPython v) : IsPython (reread ensureAscii v) := by
  match v with
  | .null | .bool _ | .int _ | .float _ => exact hv
  | .str s => exact trivial
  | .arr items => exact itemsPython_reread ensureAscii items hv
  | .obj members =>
    obtain ⟨hmembers, hkeys⟩ := ofPairs_spec (rereadMembers ensureAscii members)
    exact ⟨hkeys, membersPython_iff.2 fun m hm => membersPython_iff.1 (membersPython_reread ensureAscii members hv.2) m (hmembers m hm)⟩

/-- Items that are read back are values of the program. -/
theorem itemsPython_reread (ensureAscii : Bool) (items : List PyJson) (hv : ItemsPython items) :
    ItemsPython (rereadItems ensureAscii items) := by
  match items with
  | [] => exact trivial
  | x :: xs => exact ⟨isPython_reread ensureAscii x hv.1, itemsPython_reread ensureAscii xs hv.2⟩

/-- Members that are read back are values of the program. -/
theorem membersPython_reread (ensureAscii : Bool) (members : List (PyStr × PyJson)) (hv : MembersPython members) :
    MembersPython (rereadMembers ensureAscii members) := by
  match members with
  | [] => exact trivial
  | (k, x) :: ms => exact ⟨isPython_reread ensureAscii x hv.1, membersPython_reread ensureAscii ms hv.2⟩

end

mutual

/-- The strings that are read in an ASCII text have no pair of surrogates. -/
theorem joined_reread (v : PyJson) : ∀ s ∈ strings (reread true v), Joined s := by
  match v with
  | .null | .bool _ | .int _ | .float _ => exact fun s hs => absurd hs List.not_mem_nil
  | .str s =>
    intro s' hs'
    rw [List.mem_singleton.1 hs']
    exact joined_join s
  | .arr items => exact joined_rereadItems items
  | .obj members =>
    intro s hs
    obtain ⟨m, hm, hs⟩ := mem_memberStrings.1 hs
    exact joined_rereadMembers members s (mem_memberStrings.2 ⟨m, (ofPairs_spec _).1 m hm, hs⟩)

/-- Items that were read have no pair of surrogates. -/
theorem joined_rereadItems (items : List PyJson) : ∀ s ∈ itemStrings (rereadItems true items), Joined s := by
  match items with
  | [] => exact fun s hs => absurd hs List.not_mem_nil
  | x :: xs =>
    intro s hs
    rcases List.mem_append.1 hs with hs | hs
    · exact joined_reread x s hs
    · exact joined_rereadItems xs s hs

/-- Members that were read have no pair of surrogates. -/
theorem joined_rereadMembers (members : List (PyStr × PyJson)) : ∀ s ∈ memberStrings (rereadMembers true members), Joined s := by
  match members with
  | [] => exact fun s hs => absurd hs List.not_mem_nil
  | (k, x) :: ms =>
    intro s hs
    rw [rereadMembers, memberStrings, List.cons_append, List.mem_cons, List.mem_append] at hs
    rcases hs with rfl | hs | hs
    · exact joined_join k
    · exact joined_reread x s hs
    · exact joined_rereadMembers ms s hs

end

end PyJson
