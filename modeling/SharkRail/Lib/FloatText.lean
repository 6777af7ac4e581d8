import Mathlib
import SharkRail.Lib.JsonEncoding
import SharkRail.Lib.JsonReading

/-!
# A text of floats

Texts of floats as `FloatText` asks for them: the numerator, and after the point the denominator, or `0` where the float is an integer.
An integer has the text that `repr` gives it below `10 ^ 16`.
-/

namespace PyJson

open CodePoint

/-- What stands after the point. -/
def fractionOf (q : ℚ) : ℕ := if q.den = 1 then 0 else q.den

def ratRepr (q : ℚ) : PyStr := intText q.num ++ ofChar '.' :: natText (fractionOf q)

def ratRead (t : PyStr) : PyFloat :=
  let num := readInt (t.takeWhile fun c => c ≠ ofChar '.')
  let den := readNat (t.dropWhile fun c => c ≠ ofChar '.').tail
  .finite (if den = 0 then num else num / den)

theorem ne_point_of_isDigit {c : CodePoint} (h : isDigit c = true) : c ≠ ofChar '.' := by
  rintro rfl
  cases h

theorem ne_point_of_mem_intText {n : ℤ} {c : CodePoint} (h : c ∈ intText n) : c ≠ ofChar '.' := by
  cases n with
  | ofNat n => exact ne_point_of_isDigit (isDigit_of_mem_natText h)
  | negSucc n =>
    rcases List.mem_cons.1 h with rfl | h
    · decide
    · exact ne_point_of_isDigit (isDigit_of_mem_natText h)

theorem scanInteger_natText_point (n : ℕ) (t : PyStr) :
    scanInteger (natText n ++ ofChar '.' :: t) = some (natText n, ofChar '.' :: t) := by
  rcases Nat.eq_zero_or_pos n with rfl | hpos
  · rfl
  · obtain ⟨c, l, hdigits, hc⟩ := toDigits_head hpos
    have htext : natText n = ofChar c :: l.map ofChar := by rw [natText, hdigits]; rfl
    have hall : ∀ d ∈ natText n, isDigit d = true := fun d hd => isDigit_of_mem_natText hd
    have hzero : ofChar c ≠ ofChar '0' := fun h => hc (ofChar_injective h)
    have hhead : isDigit (ofChar c) = true := hall _ (by rw [htext]; exact List.mem_cons_self)
    rw [htext] at hall ⊢
    rw [List.cons_append, scanInteger, if_neg hzero, if_pos hhead, ← List.cons_append, List.takeWhile_append_of_pos hall,
      List.dropWhile_append_of_pos hall]
    rw [List.takeWhile_cons_of_neg (by decide), List.dropWhile_cons_of_neg (by decide), List.append_nil]

theorem scanSign_natText_append (n : ℕ) (t : PyStr) : scanSign (natText n ++ t) = ([], natText n ++ t) := by
  have hsign := scanSign_natText n
  cases htext : natText n with
  | nil => exact absurd htext (natText_ne_nil n)
  | cons c l =>
    rw [htext, scanSign] at hsign
    have hc : c ≠ ofChar '-' := by
      intro hc
      rw [if_pos hc] at hsign
      cases hsign
    rw [List.cons_append, scanSign, if_neg hc]

theorem scanFraction_natText (n : ℕ) : scanFraction (ofChar '.' :: natText n) = (ofChar '.' :: natText n, []) := by
  have hall : ∀ d ∈ natText n, isDigit d = true := fun d hd => isDigit_of_mem_natText hd
  have hhead : (natText n).head?.any isDigit = true := by
    cases htext : natText n with
    | nil => exact absurd htext (natText_ne_nil n)
    | cons c l => exact hall c (by rw [htext]; exact List.mem_cons_self)
  rw [scanFraction, if_pos rfl, scanDigits, if_pos hhead, List.takeWhile_eq_self_iff.2 hall, List.dropWhile_eq_nil_iff.2 hall]
  rfl

theorem scanNumberText_ratRepr (q : ℚ) :
    scanNumberText (ratRepr q) = some (intText q.num, ofChar '.' :: natText (fractionOf q), []) := by
  unfold ratRepr scanNumberText
  cases q.num with
  | ofNat n =>
    rw [intText, scanSign_natText_append, scanInteger_natText_point, Option.map_some]
    dsimp only
    rw [scanFraction_natText]
    dsimp only
    rw [scanExponent, List.append_nil, List.nil_append]
  | negSucc n =>
    rw [intText, List.cons_append, scanSign, if_pos rfl]
    dsimp only
    rw [scanInteger_natText_point, Option.map_some]
    dsimp only
    rw [scanFraction_natText]
    dsimp only
    rw [scanExponent, List.append_nil, List.singleton_append]

theorem ratRead_ratRepr (q : ℚ) : ratRead (ratRepr q) = .finite q := by
  have hpoint : ∀ c ∈ intText q.num, (decide (c ≠ ofChar '.')) = true := fun c hc => decide_eq_true (ne_point_of_mem_intText hc)
  unfold ratRead ratRepr
  rw [List.takeWhile_append_of_pos hpoint, List.dropWhile_append_of_pos hpoint, List.takeWhile_cons_of_neg (by decide),
    List.dropWhile_cons_of_neg (by decide), List.append_nil, List.tail_cons]
  dsimp only
  rw [readInt_intText, readNat_natText]
  unfold fractionOf
  split
  · rename_i hden
    rw [if_pos rfl, Rat.coe_int_num_of_den_eq_one hden]
  · rw [if_neg q.den_ne_zero, Rat.num_div_den]

theorem ascii_ratRepr (q : ℚ) : ∀ c ∈ ratRepr q, c.val < 128 := fun _ hc => ascii_scanNumberText (scanNumberText_ratRepr q) hc

/-- Texts of floats. -/
def ratText : FloatText where
  repr := ratRepr
  read := ratRead
  ascii := ascii_ratRepr
  isNumber := fun q _ => ⟨_, _, scanNumberText_ratRepr q, nofun, rfl⟩
  read_repr := fun q _ => ratRead_ratRepr q

open Classical in
/-- The double that is read in a text, or an infinity where the number is none. -/
noncomputable def doubleRead (text : PyStr) : PyFloat :=
  match ratRead text with
  | .finite q => if IsDouble q then .finite q else .inf false
  | read => read

theorem doubleRead_ratRepr {q : ℚ} (hq : IsDouble q) : doubleRead (ratRepr q) = .finite q := by
  unfold doubleRead
  rw [ratRead_ratRepr]
  exact if_pos hq

/-- Texts of floats, where no number is read but a double. -/
noncomputable def doubleText : FloatText where
  repr := ratRepr
  read := doubleRead
  ascii := ascii_ratRepr
  isNumber := ratText.isNumber
  read_repr := fun _ hq => doubleRead_ratRepr hq

theorem readsDoubles_doubleText : ReadsDoubles doubleText := by
  intro text q h
  change doubleRead text = .finite q at h
  unfold doubleRead at h
  split at h
  · split_ifs at h with hdouble
    cases h
    exact hdouble
  · rename_i hread
    exact absurd h (hread q)

end PyJson
