import SharkRail.Lib.Clock
import Mathlib

/-!
# The order of instants and of their texts

The texts of `isoformat` are compared as strings, byte by byte. Within the range of `datetime` every field has its width, so the texts
stand in the order of their instants; a text without a fraction comes before the texts of the same second with one, because `+` comes
before `.`.
-/

namespace Instant

/-! ## Texts of fixed width -/

/-- Texts of one length that differ are ordered as they are, whatever follows them. -/
theorem append_lt_append_of_lt {l l' : List Char} (hlength : l.length = l'.length) (h : l < l') (s s' : List Char) :
    l ++ s < l' ++ s' := by
  induction l generalizing l' with
  | nil =>
    rw [List.length_nil, eq_comm, List.length_eq_zero_iff] at hlength
    subst hlength
    exact absurd h (List.lt_irrefl _)
  | cons c l ih =>
    cases l' with
    | nil => cases hlength
    | cons c' l' =>
      rw [List.cons_append, List.cons_append, List.cons_lt_cons_iff]
      rw [List.cons_lt_cons_iff] at h
      rcases h with h | ⟨rfl, h⟩
      · exact .inl h
      · exact .inr ⟨rfl, ih (Nat.succ.inj hlength) h⟩

theorem digit_lt : ∀ b < 10, ∀ a < b, Char.ofNat (48 + a) < Char.ofNat (48 + b) := by decide

/-- The digits of a number are in the order of the numbers that have them. -/
theorem digits_lt {width a b : Nat} (h : a < b) (hb : b < 10 ^ width) : digits width a < digits width b := by
  induction width generalizing a b with
  | zero => omega
  | succ width ih =>
    rw [digits, digits]
    rcases Nat.lt_or_ge (a / 10) (b / 10) with hlt | hge
    · exact append_lt_append_of_lt (by rw [length_digits, length_digits]) (ih hlt (by rw [Nat.pow_succ] at hb; omega)) _ _
    · have heq : a / 10 = b / 10 := by omega
      rw [heq]
      exact List.append_left_lt (List.cons_lt_cons_iff.2 (.inl (digit_lt _ (Nat.mod_lt _ (by decide)) _ (by omega))))

/-- A field of digits comes first: what follows it counts between equal fields only. -/
theorem field_lt {width a b : Nat} {s s' : List Char} (hb : b < 10 ^ width) (h : a < b ∨ a = b ∧ s < s') :
    digits width a ++ s < digits width b ++ s' := by
  rcases h with hlt | ⟨rfl, hlt⟩
  · exact append_lt_append_of_lt (by rw [length_digits, length_digits]) (digits_lt hlt hb) s s'
  · exact List.append_left_lt hlt

/-! ## The calendar -/

/-- The day of an era that begins its year number `y`, and the day counted without the leap days before it. -/
def yearStart (y : Nat) : Nat := 365 * y + y / 4 - y / 100

def withoutLeapDays (doe : Nat) : Nat := doe - doe / 1460 + doe / 36524 - doe / 146096

theorem withoutLeapDays_mono : Monotone withoutLeapDays := by
  refine monotone_nat_of_le_succ fun n => ?_
  unfold withoutLeapDays
  omega

/-- The year of an era that a day is in, and the day of that year. -/
theorem year_of_day {doe : Nat} (h : doe < 146097) :
    withoutLeapDays doe / 365 ≤ 399 ∧ yearStart (withoutLeapDays doe / 365) ≤ doe ∧ doe ≤ yearStart (withoutLeapDays doe / 365) + 365 := by
  have hstarts : ∀ y < 400, 365 * y ≤ withoutLeapDays (yearStart y) ∧
    withoutLeapDays (yearStart y - 1) < 365 * y + (if y = 0 then 1 else 0) ∧
      (y < 399 → yearStart (y + 1) ≤ yearStart y + 366) := by decide +kernel
  have hlast : withoutLeapDays doe ≤ withoutLeapDays 146096 := withoutLeapDays_mono (by omega)
  have hlast' : withoutLeapDays 146096 = 145999 := by decide +kernel
  generalize hy : withoutLeapDays doe / 365 = y
  have hy399 : y ≤ 399 := by omega
  refine ⟨hy399, ?_, ?_⟩
  · by_contra hlt
    have hle : withoutLeapDays doe ≤ withoutLeapDays (yearStart y - 1) := withoutLeapDays_mono (by omega)
    obtain ⟨-, hbefore, -⟩ := hstarts y (by omega)
    split at hbefore
    · rename_i hzero
      simp [hzero, yearStart] at hlt
    · omega
  · rcases Nat.lt_or_ge y 399 with hlt | hge
    · by_contra hgt
      obtain ⟨-, -, hnext⟩ := hstarts y (by omega)
      obtain ⟨hstart, -, -⟩ := hstarts (y + 1) (by omega)
      have hle : withoutLeapDays (yearStart (y + 1)) ≤ withoutLeapDays doe := withoutLeapDays_mono (by have := hnext hlt; omega)
      omega
    · have hstart : yearStart 399 = 145731 := by decide
      have h399 : y = 399 := by omega
      rw [h399, hstart]
      omega

/-- A day of the calendar that counts its years from March: its era, the year of the era, the day of the year and the month. -/
theorem civil_fields {day : Int} (h : -719468 ≤ day) :
    ∃ era yoe doy : Nat, day + 719468 = 146097 * era + (yearStart yoe + doy) ∧ yearStart yoe + doy < 146097 ∧ yoe ≤ 399 ∧ doy ≤ 365 ∧
      yoe = withoutLeapDays (yearStart yoe + doy) / 365 ∧
      civil day = (400 * era + yoe + (if (5 * doy + 2) / 153 < 10 then 0 else 1),
        if (5 * doy + 2) / 153 < 10 then (5 * doy + 2) / 153 + 3 else (5 * doy + 2) / 153 - 9,
        doy - (153 * ((5 * doy + 2) / 153) + 2) / 5 + 1) := by
  obtain ⟨z, hz⟩ := Int.eq_ofNat_of_zero_le (show 0 ≤ day + 719468 by omega)
  have hdoe : z % 146097 < 146097 := Nat.mod_lt _ (by decide)
  obtain ⟨hyoe, hstart, hend⟩ := year_of_day hdoe
  generalize hy : withoutLeapDays (z % 146097) / 365 = yoe at hyoe hstart hend
  have hsum : yearStart yoe + (z % 146097 - yearStart yoe) = z % 146097 := by omega
  refine ⟨z / 146097, yoe, z % 146097 - yearStart yoe, ?_, ?_, hyoe, by omega, ?_, ?_⟩
  · omega
  · rw [hsum]
    exact hdoe
  · rw [hsum, hy]
  · have hera : ((z : Int) / 146097 * 400).toNat = 400 * (z / 146097) := by omega
    have hday : ((z : Int) - z / 146097 * 146097).toNat = z % 146097 := by omega
    have hyear : (z % 146097 - z % 146097 / 1460 + z % 146097 / 36524 - z % 146097 / 146096) / 365 = yoe := hy
    have hdoy : z % 146097 - (365 * yoe + yoe / 4 - yoe / 100) = z % 146097 - yearStart yoe := rfl
    unfold civil
    dsimp only
    rw [hz, hera, hday, hyear, hdoy]
    generalize hdoy' : z % 146097 - yearStart yoe = doy
    have hdoyle : doy ≤ 365 := by omega
    by_cases hmp : (5 * doy + 2) / 153 < 10
    · rw [if_pos hmp, if_pos hmp, if_neg (by omega)]
    · rw [if_neg hmp, if_neg hmp, if_pos (by omega)]

/-- Later days have later dates. -/
theorem civil_lt {day day' : Int} (h : -719468 ≤ day) (hlt : day < day') :
    (civil day).1 < (civil day').1 ∨ (civil day).1 = (civil day').1 ∧
      ((civil day).2.1 < (civil day').2.1 ∨ (civil day).2.1 = (civil day').2.1 ∧ (civil day).2.2 < (civil day').2.2) := by
  obtain ⟨era, yoe, doy, hday, hdoe, hyoe, hdoy, hyear, hcivil⟩ := civil_fields h
  obtain ⟨era', yoe', doy', hday', hdoe', hyoe', hdoy', hyear', hcivil'⟩ := civil_fields (h.trans hlt.le)
  rw [hcivil, hcivil']
  dsimp only
  -- the years that begin in March are in order, and within one of them the days
  have horder : 400 * era + yoe < 400 * era' + yoe' ∨ 400 * era + yoe = 400 * era' + yoe' ∧ doy < doy' := by
    rcases Nat.lt_trichotomy era era' with hera | rfl | hera
    · exact .inl (by omega)
    · have hdays : yearStart yoe + doy < yearStart yoe' + doy' := by omega
      have hle : yoe ≤ yoe' := by
        rw [hyear, hyear']
        exact Nat.div_le_div_right (withoutLeapDays_mono hdays.le)
      rcases Nat.lt_or_eq_of_le hle with hlt | rfl
      · exact .inl (by omega)
      · exact .inr ⟨rfl, by omega⟩
    · omega
  clear hyear hyear' hcivil hcivil'
  split <;> split <;> omega

/-- The months and the days of a date have two digits. -/
theorem civil_fits {day : Int} (h : -719468 ≤ day) : (civil day).2.1 < 10 ^ 2 ∧ (civil day).2.2 < 10 ^ 2 := by
  obtain ⟨era, yoe, doy, -, -, -, hdoy, -, hcivil⟩ := civil_fields h
  rw [hcivil]
  dsimp only
  constructor
  · split <;> omega
  · omega

/-- The years up to 9999 have four digits. -/
theorem year_fits {day : Int} (h : -719468 ≤ day) (hmax : day ≤ 2932896) : (civil day).1 < 10 ^ 4 := by
  have hlast : (civil 2932896).1 = 9999 := by decide +kernel
  rcases Int.lt_or_eq_of_le hmax with hlt | rfl
  · rcases civil_lt h hlt with hyear | ⟨hyear, -⟩
    · omega
    · omega
  · omega

/-! ## The texts -/

/-- A date of `datetime`. -/
def IsDatetime (t : Instant) : Prop := datetimeMin ≤ t ∧ t ≤ datetimeMax

instance (t : Instant) : Decidable (IsDatetime t) := inferInstanceAs (Decidable (_ ∧ _))

/-- The fraction of a second and the offset. -/
def fractionText (micros : Nat) : List Char := (if micros = 0 then [] else '.' :: digits 6 micros) ++ "+00:00".toList

theorem fractionText_lt {f f' : Nat} (h : f < f') (hf' : f' < 1000000) : fractionText f < fractionText f' := by
  unfold fractionText
  rw [if_neg (show f' ≠ 0 by omega)]
  split
  · exact List.cons_lt_cons_iff.2 (.inl (by decide))
  · rw [List.cons_append, List.cons_append]
    exact List.cons_lt_cons_iff.2 (.inr ⟨rfl, field_lt (by omega) (.inl h)⟩)

/-- The time of a day, from its microseconds. -/
def timeText (n : Nat) : List Char :=
  digits 2 (n / 1000000 / 3600) ++ ':' :: (digits 2 (n / 1000000 / 60 % 60) ++ ':' :: (digits 2 (n / 1000000 % 60) ++
    fractionText (n % 1000000)))

theorem separated_lt (c : Char) {s s' : List Char} (h : s < s') : c :: s < c :: s' := List.cons_lt_cons_iff.2 (.inr ⟨rfl, h⟩)

theorem timeText_lt {n n' : Nat} (h : n < n') (hn' : n' < 86400000000) : timeText n < timeText n' := by
  unfold timeText
  refine field_lt (by omega) ?_
  by_cases hhour : n / 1000000 / 3600 = n' / 1000000 / 3600
  · refine .inr ⟨hhour, separated_lt _ (field_lt (by omega) ?_)⟩
    by_cases hminute : n / 1000000 / 60 % 60 = n' / 1000000 / 60 % 60
    · refine .inr ⟨hminute, separated_lt _ (field_lt (by omega) ?_)⟩
      by_cases hsecond : n / 1000000 % 60 = n' / 1000000 % 60
      · exact .inr ⟨hsecond, fractionText_lt (by omega) (by omega)⟩
      · exact .inl (by omega)
    · exact .inl (by omega)
  · exact .inl (by omega)

theorem isoformat_eq (t : Int) :
    isoformat t = digits 4 (civil (t / (86400 * second))).1 ++ '-' :: (digits 2 (civil (t / (86400 * second))).2.1 ++
      '-' :: (digits 2 (civil (t / (86400 * second))).2.2 ++ 'T' :: timeText (t % (86400 * second)).toNat)) := by
  simp only [isoformat, timeText, fractionText, List.append_assoc, List.cons_append]

/-- The texts of `isoformat` are in the order of the dates. -/
theorem isoformat_lt {t t' : Int} (ht : IsDatetime t) (ht' : IsDatetime t') (h : t < t') : isoformat t < isoformat t' := by
  rw [isoformat_eq, isoformat_eq]
  have hmin : (-62135596800000000 : Int) ≤ t := ht.1
  have hmin' : (-62135596800000000 : Int) ≤ t' := ht'.1
  have hmax' : t' ≤ (253402300799999999 : Int) := ht'.2
  unfold second
  have hday : -719468 ≤ t / (86400 * 1000000) := by omega
  have hday' : -719468 ≤ t' / (86400 * 1000000) := by omega
  refine field_lt (year_fits hday' (by omega)) ?_
  obtain ⟨hmonth, hdate⟩ := civil_fits hday'
  rcases Int.lt_or_eq_of_le (show t / (86400 * 1000000) ≤ t' / (86400 * 1000000) by omega) with hlt | heq
  · rcases civil_lt hday hlt with hyear | ⟨hyear, hmonths⟩
    · exact .inl hyear
    · refine .inr ⟨hyear, separated_lt _ (field_lt hmonth ?_)⟩
      rcases hmonths with hlt | ⟨hmonths, hdates⟩
      · exact .inl hlt
      · exact .inr ⟨hmonths, separated_lt _ (field_lt hdate (.inl hdates))⟩
  · rw [heq]
    refine .inr ⟨rfl, separated_lt _ (field_lt hmonth (.inr ⟨rfl, separated_lt _ (field_lt hdate (.inr ⟨rfl, separated_lt _ ?_⟩))⟩))⟩
    exact timeText_lt (by omega) (by omega)

theorem isoformat_lt_iff {t t' : Instant} (ht : IsDatetime t) (ht' : IsDatetime t') : isoformat t < isoformat t' ↔ t < t' := by
  refine ⟨fun h => ?_, isoformat_lt ht ht'⟩
  rcases lt_trichotomy t t' with hlt | rfl | hgt
  · exact hlt
  · exact absurd h (List.lt_irrefl _)
  · exact absurd (isoformat_lt ht' ht hgt) (List.lt_asymm h)

end Instant
