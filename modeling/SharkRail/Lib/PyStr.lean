import Mathlib

/-!
# Strings of code points

A string of the program is a list of code points, and a surrogate is a code point as any other. A high surrogate that a low one follows
is the way UTF-16 writes one code point above the basic plane; `join` puts that one in place of the two. UTF-8 has no bytes for a
surrogate, so a string that has one does not encode.
-/

/-- A code point: a surrogate is one. -/
@[ext] structure CodePoint where
  val : ℕ
  lt : val < 0x110000
  deriving DecidableEq

namespace CodePoint

/-- Code points are in the order of their numbers. -/
instance : LinearOrder CodePoint := .lift' val fun _ _ h => CodePoint.ext h

/-- The code point of a number, the replacement character where it has none. -/
def ofNat (n : ℕ) : CodePoint := if h : n < 0x110000 then ⟨n, h⟩ else ⟨0xFFFD, by decide⟩

/-- The code point of a number below the bound has that number. -/
theorem val_ofNat {n : ℕ} (h : n < 0x110000) : (ofNat n).val = n := by
  unfold ofNat
  rw [dif_pos h]

/-- The code point of the number of a code point is that code point. -/
@[simp] theorem ofNat_val (c : CodePoint) : ofNat c.val = c := CodePoint.ext (val_ofNat c.lt)

/-- The code point of a character. -/
def ofChar (c : Char) : CodePoint := ⟨c.toNat, by
  have hvalid := c.valid
  unfold UInt32.isValidChar Nat.isValidChar at hvalid
  unfold Char.toNat
  omega⟩

instance : Coe Char CodePoint := ⟨ofChar⟩

/-- A character keeps its number. -/
@[simp] theorem val_ofChar (c : Char) : (ofChar c).val = c.toNat := rfl

/-- Different characters are different code points. -/
theorem ofChar_injective : Function.Injective ofChar := fun c d h => Char.toNat_inj.1 (congrArg val h : c.toNat = d.toNat)

def isHigh (c : CodePoint) : Bool := 0xD800 ≤ c.val && c.val ≤ 0xDBFF

def isLow (c : CodePoint) : Bool := 0xDC00 ≤ c.val && c.val ≤ 0xDFFF

def isSurrogate (c : CodePoint) : Bool := 0xD800 ≤ c.val && c.val ≤ 0xDFFF

/-- A surrogate is a high one or a low one. -/
theorem isSurrogate_eq (c : CodePoint) : c.isSurrogate = (c.isHigh || c.isLow) := by
  unfold isSurrogate isHigh isLow
  grind

/-- A character is no surrogate. -/
@[simp] theorem isSurrogate_ofChar (c : Char) : (ofChar c).isSurrogate = false := by
  have hvalid := c.valid
  unfold UInt32.isValidChar Nat.isValidChar at hvalid
  unfold isSurrogate
  rw [val_ofChar]
  unfold Char.toNat
  grind

/-- The code point that a high and a low surrogate are written for. -/
def pair (high low : CodePoint) : CodePoint := ofNat (0x10000 + (high.val - 0xD800) * 0x400 + (low.val - 0xDC00))

/-- What a pair of surrogates stands for. -/
theorem val_pair {high low : CodePoint} (hhigh : high.isHigh = true) (hlow : low.isLow = true) :
    (pair high low).val = 0x10000 + (high.val - 0xD800) * 0x400 + (low.val - 0xDC00) := by
  simp only [isHigh, isLow, Bool.and_eq_true, decide_eq_true_eq] at hhigh hlow
  unfold pair
  exact val_ofNat (by omega)

/-- What a pair of surrogates stands for is no surrogate. -/
theorem pair_not_surrogate {high low : CodePoint} (hhigh : high.isHigh = true) (hlow : low.isLow = true) :
    (pair high low).isHigh = false ∧ (pair high low).isLow = false := by
  have hval := val_pair hhigh hlow
  unfold isHigh isLow
  rw [hval]
  grind

end CodePoint

/-- A string of the program. -/
abbrev PyStr := List CodePoint

namespace PyStr

open CodePoint

instance : LawfulBEq PyStr := List.instLawfulBEq

/-- The string of a literal. -/
def ofString (s : String) : PyStr := s.toList.map ofChar

/-- A text in Unicode is a string of code points. -/
instance : Coe String PyStr := ⟨ofString⟩

/-- Different strings are different texts. -/
theorem ofString_injective : Function.Injective ofString := fun _ _ h =>
  String.toList_inj.1 (List.map_injective_iff.2 ofChar_injective h)

/-- Two strings are the same text just where they are the same string. -/
@[simp] theorem ofString_inj {s t : String} : ofString s = ofString t ↔ s = t := ofString_injective.eq_iff

/-! ## Pairs of surrogates -/

/-- Every high surrogate that a low one follows, written as the one code point they stand for. -/
def join : PyStr → PyStr
  | [] => []
  | [c] => [c]
  | high :: low :: s => if high.isHigh && low.isLow then pair high low :: join s else high :: join (low :: s)

/-- No high surrogate is followed by a low one. -/
def Joined (s : PyStr) : Prop := s.IsChain fun high low => (high.isHigh && low.isLow) = false

instance (s : PyStr) : Decidable (Joined s) := inferInstanceAs (Decidable (List.IsChain _ _))

/-- A text without pairs is left as it is. -/
theorem join_of_joined {s : PyStr} (h : Joined s) : join s = s := by
  induction s using join.induct with
  | case1 => rfl
  | case2 c => rfl
  | case3 high low s hpair ih =>
    rw [Joined, List.isChain_cons_cons, hpair] at h
    cases h.1
  | case4 high low s hpair ih =>
    rw [join, if_neg hpair, ih (List.isChain_cons_cons.1 h).2]

/-- What follows a join is what was joined, or a pair. -/
theorem head?_join {s : PyStr} : ∀ c ∈ (join s).head?, c ∈ s.head? ∨ c.isHigh = false ∧ c.isLow = false := by
  induction s using join.induct with
  | case1 => simp [join]
  | case2 c => simp [join]
  | case3 high low s hpair ih =>
    rw [join, if_pos hpair]
    intro c hc
    rw [List.head?_cons, Option.mem_some_iff] at hc
    rw [Bool.and_eq_true] at hpair
    rw [← hc]
    exact .inr (pair_not_surrogate hpair.1 hpair.2)
  | case4 high low s hpair ih =>
    rw [join, if_neg hpair]
    exact fun c hc => .inl hc

/-- A code point before a text without pairs, which makes no pair with its first one, makes no pair. -/
theorem joined_cons {c : CodePoint} {s : PyStr} (hs : Joined s) (h : ∀ d ∈ s.head?, (c.isHigh && d.isLow) = false) : Joined (c :: s) := by
  cases s with
  | nil => exact List.isChain_singleton c
  | cons d s => exact List.isChain_cons_cons.2 ⟨h d rfl, hs⟩

/-- No pair is left after the pairs were joined. -/
theorem joined_join (s : PyStr) : Joined (join s) := by
  induction s using join.induct with
  | case1 => exact List.isChain_nil
  | case2 c => exact List.isChain_singleton c
  | case3 high low s hpair ih =>
    rw [join, if_pos hpair]
    rw [Bool.and_eq_true] at hpair
    refine joined_cons ih fun d _ => ?_
    rw [(pair_not_surrogate hpair.1 hpair.2).1, Bool.false_and]
  | case4 high low s hpair ih =>
    rw [join, if_neg hpair]
    refine joined_cons ih fun d hd => ?_
    rcases head?_join d hd with ⟨⟨⟩⟩ | ⟨-, hlow⟩
    · exact Bool.eq_false_iff.2 hpair
    · rw [hlow, Bool.and_false]

/-- To join the pairs twice is to join them once. -/
@[simp] theorem join_join (s : PyStr) : join (join s) = join s := join_of_joined (joined_join s)

/-- A text without surrogates has no pair. -/
theorem joined_of_clean {s : PyStr} (h : ∀ c ∈ s, c.isSurrogate = false) : Joined s := by
  induction s with
  | nil => exact List.isChain_nil
  | cons c s ih =>
    have hc := h c List.mem_cons_self
    rw [isSurrogate_eq, Bool.or_eq_false_iff] at hc
    refine joined_cons (ih fun d hd => h d (List.mem_cons_of_mem c hd)) fun d _ => ?_
    rw [hc.1, Bool.false_and]

/-- A string has no pair. -/
theorem joined_ofString (s : String) : Joined (ofString s) := by
  refine joined_of_clean fun c hc => ?_
  obtain ⟨c, -, rfl⟩ := List.mem_map.1 hc
  exact isSurrogate_ofChar c

/-! ## UTF-8 -/

/-- A text without a surrogate. -/
def Unicode (s : PyStr) : Prop := ∀ c ∈ s, c.isSurrogate = false

instance (s : PyStr) : Decidable (Unicode s) := inferInstanceAs (Decidable (∀ c ∈ s, _))

/-- A text of code points of one without surrogates has none. -/
theorem Unicode.subset {s t : PyStr} (h : Unicode t) (hsubset : s ⊆ t) : Unicode s := fun c hc => h c (hsubset hc)

/-- A text has no surrogate where neither part has one. -/
theorem unicode_append {s t : PyStr} : Unicode (s ++ t) ↔ Unicode s ∧ Unicode t := List.forall_mem_append

/-- A string has no surrogate. -/
theorem unicode_ofString (s : String) : Unicode (ofString s) := by
  intro c hc
  obtain ⟨c, -, rfl⟩ := List.mem_map.1 hc
  exact isSurrogate_ofChar c

/-- The bytes of a code point, `none` for a surrogate. -/
def utf8 (c : CodePoint) : Option (List UInt8) :=
  let n := c.val
  if n < 0x80 then some [.ofNat n]
  else if n < 0x800 then some [.ofNat (0xC0 + n / 0x40), .ofNat (0x80 + n % 0x40)]
  else if c.isSurrogate then none
  else if n < 0x10000 then some [.ofNat (0xE0 + n / 0x1000), .ofNat (0x80 + n / 0x40 % 0x40), .ofNat (0x80 + n % 0x40)]
  else some [.ofNat (0xF0 + n / 0x40000), .ofNat (0x80 + n / 0x1000 % 0x40), .ofNat (0x80 + n / 0x40 % 0x40), .ofNat (0x80 + n % 0x40)]

/-- `s.encode("utf-8")`, `none` where it raises `UnicodeEncodeError`. -/
def encode (s : PyStr) : Option (List UInt8) := (s.mapM utf8).map List.flatten

/-- The text of the `UnicodeEncodeError` that `encode` raises, for the first surrogates of a string. -/
def encodeError (s : PyStr) : String :=
  let start := (s.takeWhile fun c => !c.isSurrogate).length
  match (s.drop start).takeWhile (·.isSurrogate) with
  | [c] =>
    "'utf-8' codec can't encode character '\\u" ++ String.ofList (Nat.toDigits 16 c.val) ++ "' in position " ++ toString start ++
      ": surrogates not allowed"
  | surrogates =>
    "'utf-8' codec can't encode characters in position " ++ toString start ++ "-" ++ toString (start + surrogates.length - 1) ++
      ": surrogates not allowed"

/-- A code point has an encoding just where it is no surrogate. -/
theorem isSome_utf8 (c : CodePoint) : (utf8 c).isSome = !c.isSurrogate := by
  have hsmall : c.val < 0x800 → c.isSurrogate = false := by
    intro h
    unfold isSurrogate
    grind
  unfold utf8
  dsimp only
  split
  · rw [hsmall (by omega)]
    rfl
  · split
    · rw [hsmall (by assumption)]
      rfl
    · split
      · rename_i h
        rw [h]
        rfl
      · rename_i h
        rw [Bool.not_eq_true] at h
        rw [h]
        split <;> rfl

/-- A string encodes when it has no surrogate. -/
theorem isSome_encode {s : PyStr} : (encode s).isSome = true ↔ ∀ c ∈ s, c.isSurrogate = false := by
  unfold encode
  rw [Option.isSome_map]
  induction s with
  | nil => simp
  | cons c s ih =>
    rw [List.mapM_cons, List.forall_mem_cons, ← ih]
    have hc := isSome_utf8 c
    cases hbytes : utf8 c with
    | none =>
      have hsurrogate : c.isSurrogate = true := by simpa [hbytes] using hc
      simp [hsurrogate]
    | some bytes =>
      have hclean : c.isSurrogate = false := by simpa [hbytes] using hc
      cases hrest : s.mapM utf8 <;> simp [hclean]

/-- A string encodes when it has no surrogate. -/
theorem exists_encode {s : PyStr} : (∃ bytes, encode s = some bytes) ↔ Unicode s := by
  rw [← Option.isSome_iff_exists, isSome_encode]
  rfl

/-- The empty text encodes to no bytes. -/
@[simp] theorem encode_nil : encode [] = some [] := rfl

/-- Encoding goes by code points. -/
theorem encode_cons (c : CodePoint) (s : PyStr) :
    encode (c :: s) = (utf8 c).bind fun bytes => (encode s).map fun rest => bytes ++ rest := by
  unfold encode
  rw [List.mapM_cons]
  cases utf8 c with
  | none => rfl
  | some bytes => cases s.mapM utf8 <;> rfl

/-- A text encodes to the bytes of its first part and those of its second. -/
theorem encode_append (s t : PyStr) : encode (s ++ t) = (encode s).bind fun bytes => (encode t).map fun rest => bytes ++ rest := by
  induction s with
  | nil => simp
  | cons c s ih =>
    rw [List.cons_append, encode_cons, encode_cons, ih]
    cases utf8 c with
    | none => rfl
    | some bytes =>
      cases encode s with
      | none => rfl
      | some rest => cases encode t <;> simp

/-- The encoding of a code point is not empty. -/
theorem length_utf8_pos {c : CodePoint} {bytes : List UInt8} (h : utf8 c = some bytes) : 0 < bytes.length := by
  unfold utf8 at h
  grind

/-- No code point is less than a byte. -/
theorem length_le_of_encode {s : PyStr} {bytes : List UInt8} (h : encode s = some bytes) : s.length ≤ bytes.length := by
  induction s generalizing bytes with
  | nil => exact Nat.zero_le _
  | cons c s ih =>
    rw [encode_cons, Option.bind_eq_some_iff] at h
    obtain ⟨first, hfirst, hrest⟩ := h
    obtain ⟨rest, hs, rfl⟩ := Option.map_eq_some_iff.1 hrest
    have hpos := length_utf8_pos hfirst
    have hle := ih hs
    rw [List.length_cons, List.length_append]
    omega

/-- ASCII is one byte for each code point. -/
theorem encode_of_ascii {s : PyStr} (h : ∀ c ∈ s, c.val < 128) : encode s = some (s.map fun c => UInt8.ofNat c.val) := by
  have hbytes : s.mapM utf8 = some (s.map fun c => [UInt8.ofNat c.val]) := by
    induction s with
    | nil => rfl
    | cons c s ih =>
      have hc : utf8 c = some [UInt8.ofNat c.val] := by
        unfold utf8
        exact if_pos (h c List.mem_cons_self)
      rw [List.mapM_cons, hc, ih fun d hd => h d (List.mem_cons_of_mem c hd)]
      rfl
  unfold encode
  rw [hbytes, Option.map_some, ← List.flatMap_def, List.map_eq_flatMap]

/-- Two texts in ASCII that have the same bytes are one. -/
theorem eq_of_ascii {s t : PyStr} (hs : ∀ c ∈ s, c.val < 128) (ht : ∀ c ∈ t, c.val < 128)
    (h : (s.map fun c => UInt8.ofNat c.val) = t.map fun c => UInt8.ofNat c.val) : s = t := by
  induction s generalizing t with
  | nil =>
    cases t with
    | nil => rfl
    | cons d t => cases h
  | cons c s ih =>
    cases t with
    | nil => cases h
    | cons d t =>
      rw [List.map_cons, List.map_cons, List.cons.injEq] at h
      have hc := hs c List.mem_cons_self
      have hd := ht d List.mem_cons_self
      have hval : c.val = d.val := by
        have hbyte := congrArg UInt8.toNat h.1
        rw [UInt8.toNat_ofNat_of_lt' (Nat.lt_trans hc (by decide)), UInt8.toNat_ofNat_of_lt' (Nat.lt_trans hd (by decide))] at hbyte
        exact hbyte
      rw [CodePoint.ext hval, ih (fun e he => hs e (List.mem_cons_of_mem c he)) (fun e he => ht e (List.mem_cons_of_mem d he)) h.2]

end PyStr
