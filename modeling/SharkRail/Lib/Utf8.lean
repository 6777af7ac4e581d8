import Mathlib

/-!
# Decoding UTF-8 piece by piece

A decoder reads one byte after the other and keeps the bytes of a character that is not complete. What it reads are items: the code
points of characters, and the longest stretches of bytes that begin one and are none. An error handler turns the items into text. The
items do not depend on how the bytes are cut into pieces (`feed_append`), and the texts of two handlers agree on what is an error
(`any_escape_text`).
-/

namespace Utf8

/-- A character, or bytes that are no part of one. -/
inductive Item where
  | char (code : ℕ)
  | invalid (bytes : List UInt8)
  deriving DecidableEq

def Item.isInvalid : Item → Bool
  | .char _ => false
  | .invalid _ => true

/-! ## The syntax -/

/-- How many bytes the character has that a byte begins; 0 for a byte that begins none. -/
def leadLength (lead : UInt8) : ℕ :=
  let n := lead.toNat
  if n < 0x80 then 1 else if n < 0xC2 then 0 else if n < 0xE0 then 2 else if n < 0xF0 then 3 else if n < 0xF5 then 4 else 0

/-- The bytes that may follow the ones of a character that were read: after some first bytes not all continuation bytes may. -/
def continues : List UInt8 → UInt8 → Bool
  | [lead], byte =>
    (if lead.toNat = 0xE0 then 0xA0 else if lead.toNat = 0xF0 then 0x90 else 0x80) ≤ byte.toNat &&
      byte.toNat ≤ if lead.toNat = 0xED then 0x9F else if lead.toNat = 0xF4 then 0x8F else 0xBF
  | _, byte => 0x80 ≤ byte.toNat && byte.toNat ≤ 0xBF

/-- The code point of a complete character of more than one byte. -/
def codePoint : List UInt8 → ℕ
  | [] => 0
  | lead :: tail =>
    let top := if leadLength lead = 2 then 0xC0 else if leadLength lead = 3 then 0xE0 else 0xF0
    tail.foldl (fun code byte => code * 64 + (byte.toNat - 0x80)) (lead.toNat - top)

/-! ## The decoder -/

/-- A byte where no character is begun. -/
def begin (byte : UInt8) : List UInt8 × List Item :=
  if leadLength byte = 1 then ([], [.char byte.toNat])
  else if leadLength byte = 0 then ([], [.invalid [byte]])
  else ([byte], [])

/-- A byte after the pending ones. -/
def feedByte (pending : List UInt8) (byte : UInt8) : List UInt8 × List Item :=
  match pending with
  | [] => begin byte
  | lead :: _ =>
    if continues pending byte then
      if pending.length + 1 = leadLength lead then ([], [.char (codePoint (pending ++ [byte]))]) else (pending ++ [byte], [])
    else ((begin byte).1, .invalid pending :: (begin byte).2)

/-- The pending bytes and the items after some bytes. -/
def feed : List UInt8 → List UInt8 → List UInt8 × List Item
  | pending, [] => (pending, [])
  | pending, byte :: bytes =>
    ((feed (feedByte pending byte).1 bytes).1, (feedByte pending byte).2 ++ (feed (feedByte pending byte).1 bytes).2)

/-- What is left pending at the end is no character. -/
def finish (pending : List UInt8) : List Item := if pending = [] then [] else [.invalid pending]

/-- The items of a whole. -/
def items (data : List UInt8) : List Item := (feed [] data).2 ++ finish (feed [] data).1

@[simp] theorem feed_nil (pending : List UInt8) : feed pending [] = (pending, []) := rfl

/-- Two pieces are read as one. -/
theorem feed_append (pending a b : List UInt8) :
    feed pending (a ++ b) = ((feed (feed pending a).1 b).1, (feed pending a).2 ++ (feed (feed pending a).1 b).2) := by
  induction a generalizing pending with
  | nil => rfl
  | cons byte a ih => simp [feed, ih, List.append_assoc]

/-! ## Characters and errors -/

/-- The bytes of a character that is not complete. -/
def Begun : List UInt8 → Prop
  | [] => True
  | [lead] => 2 ≤ leadLength lead
  | [lead, a] => 3 ≤ leadLength lead ∧ continues [lead] a = true
  | [lead, a, b] => leadLength lead = 4 ∧ continues [lead] a = true ∧ continues [lead, a] b = true
  | _ => False

/-- A code point that no undecodable byte is escaped as; or bytes that are all escaped. -/
def Item.WellFormed : Item → Prop
  | .char code => code < 0xDC80 ∨ 0xDCFF < code
  | .invalid bytes => bytes ≠ [] ∧ ∀ byte ∈ bytes, 0x80 ≤ byte.toNat

theorem high_of_leadLength {lead : UInt8} (h : leadLength lead ≠ 1) : 0x80 ≤ lead.toNat := by
  by_contra hlow
  exact h (by simp [leadLength]; omega)

theorem high_of_continues {pending : List UInt8} {byte : UInt8} (h : continues pending byte = true) : 0x80 ≤ byte.toNat := by
  unfold continues at h
  split at h <;> simp only [Bool.and_eq_true, decide_eq_true_eq] at h
  · have hlow := h.1
    split at hlow
    · omega
    split at hlow <;> omega
  · exact h.1

theorem Begun.high {pending : List UInt8} (h : Begun pending) : ∀ byte ∈ pending, 0x80 ≤ byte.toNat := by
  match pending, h with
  | [], _ => exact nofun
  | [lead], h => 
    have hlead : 2 ≤ leadLength lead := h
    simpa using high_of_leadLength (by omega : leadLength lead ≠ 1)
  | [lead, a], ⟨hlead, ha⟩ =>
    simpa using ⟨high_of_leadLength (by omega), high_of_continues ha⟩
  | [lead, a, b], ⟨hlead, ha, hb⟩ =>
    simpa using ⟨high_of_leadLength (by omega), high_of_continues ha, high_of_continues hb⟩

/-- The pending bytes that a byte cannot follow are an error. -/
theorem Begun.invalid {lead : UInt8} {tail : List UInt8} (h : Begun (lead :: tail)) :
    (Item.invalid (lead :: tail)).WellFormed := ⟨nofun, h.high⟩

theorem begin_spec (byte : UInt8) : Begun (begin byte).1 ∧ ∀ item ∈ (begin byte).2, item.WellFormed := by
  unfold begin
  split
  · rename_i hone
    refine ⟨trivial, fun item hitem => ?_⟩
    rw [List.mem_singleton.1 hitem]
    have hlow : byte.toNat < 0x80 := by
      unfold leadLength at hone
      grind
    exact .inl (by omega)
  · rename_i hone
    split
    · refine ⟨trivial, fun item hitem => ?_⟩
      rw [List.mem_singleton.1 hitem]
      exact ⟨nofun, by simpa using high_of_leadLength hone⟩
    · rename_i hzero
      exact ⟨show 2 ≤ leadLength byte by omega, nofun⟩

/-- The number of continuation bytes tells in what range a first byte is. -/
theorem range_of_leadLength (lead : UInt8) :
    (leadLength lead = 2 → 0xC2 ≤ lead.toNat ∧ lead.toNat < 0xE0) ∧ (leadLength lead = 3 → 0xE0 ≤ lead.toNat ∧ lead.toNat < 0xF0) ∧
      (leadLength lead = 4 → 0xF0 ≤ lead.toNat ∧ lead.toNat < 0xF5) ∧ leadLength lead ≤ 4 := by
  unfold leadLength
  grind

/-- A byte that continues a character is below 0xC0, and after the first bytes that are special in its own range. -/
theorem range_of_continues {lead a : UInt8} (h : continues [lead] a = true) :
    a.toNat ≤ 0xBF ∧ (lead.toNat = 0xE0 → 0xA0 ≤ a.toNat) ∧ (lead.toNat = 0xF0 → 0x90 ≤ a.toNat) ∧
      (lead.toNat = 0xED → a.toNat ≤ 0x9F) := by
  simp only [continues, Bool.and_eq_true, decide_eq_true_eq] at h
  grind

theorem low_of_continues {lead a b : UInt8} {tail : List UInt8} (h : continues (lead :: a :: tail) b = true) : b.toNat ≤ 0xBF := by
  simp only [continues, Bool.and_eq_true, decide_eq_true_eq] at h
  exact h.2

/-- A complete character is none of the code points for undecodable bytes: the encodings of these are left out by the syntax. -/
theorem codePoint_wellFormed {lead byte : UInt8} {tail : List UInt8} (h : Begun (lead :: tail))
    (hcontinues : continues (lead :: tail) byte = true) (hcomplete : tail.length + 2 = leadLength lead) :
    (Item.char (codePoint (lead :: tail ++ [byte]))).WellFormed := by
  obtain ⟨htwo, hthree, hfour, -⟩ := range_of_leadLength lead
  have hbyte := high_of_continues hcontinues
  match tail, h with
  | [], _ =>
    have hlength : leadLength lead = 2 := by simpa using hcomplete.symm
    have hrange := range_of_continues hcontinues
    have hlead := htwo hlength
    simp only [codePoint, hlength, Item.WellFormed, List.cons_append, List.nil_append, List.foldl_cons, List.foldl_nil, if_true]
    omega
  | [a], ⟨_, ha⟩ =>
    have hlength : leadLength lead = 3 := by simpa using hcomplete.symm
    have hrange := range_of_continues ha
    have hhigh := high_of_continues ha
    have hlow := low_of_continues hcontinues
    have hlead := hthree hlength
    simp only [codePoint, hlength, Item.WellFormed, List.cons_append, List.nil_append, List.foldl_cons, List.foldl_nil, if_true,
      Nat.reduceEqDiff, if_false]
    omega
  | [a, b], ⟨_, ha, hb⟩ =>
    have hlength : leadLength lead = 4 := by simpa using hcomplete.symm
    have hrange := range_of_continues ha
    have hhigh := high_of_continues ha
    have hlead := hfour hlength
    simp only [codePoint, hlength, Item.WellFormed, List.cons_append, List.nil_append, List.foldl_cons, List.foldl_nil,
      Nat.reduceEqDiff, if_false]
    omega

/-- What a byte completes is well formed, and what it leaves pending begins a character. -/
theorem feedByte_spec {pending : List UInt8} (h : Begun pending) (byte : UInt8) :
    Begun (feedByte pending byte).1 ∧ ∀ item ∈ (feedByte pending byte).2, item.WellFormed := by
  cases pending with
  | nil => exact begin_spec byte
  | cons lead tail =>
    unfold feedByte
    dsimp only
    split
    · rename_i hcontinues
      split
      · rename_i hcomplete
        refine ⟨trivial, fun item hitem => ?_⟩
        rw [List.mem_singleton.1 hitem]
        exact codePoint_wellFormed h hcontinues (by simpa using hcomplete)
      · rename_i hopen
        refine ⟨?_, nofun⟩
        obtain ⟨-, -, -, hmax⟩ := range_of_leadLength lead
        match tail, h with
        | [], hlead =>
          have hlead : 2 ≤ leadLength lead := hlead
          exact ⟨by simp at hopen; omega, hcontinues⟩
        | [a], ⟨hlead, ha⟩ => exact ⟨by simp at hopen; omega, ha, hcontinues⟩
        | [a, b], ⟨hlead, _⟩ => exact absurd (by simp [hlead]) hopen
    · obtain ⟨hbegun, hitems⟩ := begin_spec byte
      refine ⟨hbegun, fun item hitem => ?_⟩
      rcases List.mem_cons.1 hitem with rfl | hitem
      · exact h.invalid
      · exact hitems item hitem

theorem feed_spec {pending : List UInt8} (h : Begun pending) (data : List UInt8) :
    Begun (feed pending data).1 ∧ ∀ item ∈ (feed pending data).2, item.WellFormed := by
  induction data generalizing pending with
  | nil => exact ⟨h, nofun⟩
  | cons byte data ih =>
    obtain ⟨hbegun, hitems⟩ := feedByte_spec h byte
    obtain ⟨hbegun', hitems'⟩ := ih hbegun
    refine ⟨hbegun', fun item hitem => ?_⟩
    rcases List.mem_append.1 hitem with hitem | hitem
    · exact hitems item hitem
    · exact hitems' item hitem

theorem finish_spec {pending : List UInt8} (h : Begun pending) : ∀ item ∈ finish pending, item.WellFormed := by
  intro item hitem
  cases pending with
  | nil => cases hitem
  | cons lead tail =>
    rw [List.mem_singleton.1 hitem]
    exact h.invalid

/-! ## Text -/

/-- `errors="replace"`, and `errors="surrogateescape"`. -/
inductive ErrorHandler where
  | replace
  | surrogateescape
  deriving DecidableEq

/-- The code points of an item. -/
def Item.text : ErrorHandler → Item → List ℕ
  | _, .char code => [code]
  | .replace, .invalid _ => [0xFFFD]
  | .surrogateescape, .invalid bytes => bytes.map fun byte => 0xDC00 + byte.toNat

def textOf (handler : ErrorHandler) (items : List Item) : List ℕ := items.flatMap (Item.text handler)

@[simp] theorem textOf_append (handler : ErrorHandler) (a b : List Item) :
    textOf handler (a ++ b) = textOf handler a ++ textOf handler b := List.flatMap_append

/-- `bytes.decode("utf-8", errors)`. -/
def decode (handler : ErrorHandler) (data : List UInt8) : List ℕ := textOf handler (items data)

/-- `bytes.decode("utf-8", errors="strict")`: `none` is a `UnicodeDecodeError`. -/
def decodeStrict (data : List UInt8) : Option (List ℕ) :=
  if (items data).any Item.isInvalid then none else some (decode .replace data)

/-- An incremental decoder: the pending bytes after some more, and their text. -/
def decodeMore (handler : ErrorHandler) (pending data : List UInt8) (final : Bool) : List UInt8 × List ℕ :=
  if final then ([], textOf handler ((feed pending data).2 ++ finish (feed pending data).1))
  else ((feed pending data).1, textOf handler (feed pending data).2)

/-- A code point that an undecodable byte is escaped as. -/
def isEscape (code : ℕ) : Bool := 0xDC80 ≤ code && code ≤ 0xDCFF

/-- The escaped text of items has an escape if and only if one of them is an error. -/
theorem any_escape_text {items : List Item} (h : ∀ item ∈ items, item.WellFormed) :
    (textOf .surrogateescape items).any isEscape = items.any Item.isInvalid := by
  have hitem : ∀ item ∈ items, (item.text .surrogateescape).any isEscape = item.isInvalid := by
    intro item hmem
    cases item with
    | char code =>
      have hcode : code < 0xDC80 ∨ 0xDCFF < code := h _ hmem
      simp only [Item.text, List.any_cons, List.any_nil, Bool.or_false, isEscape, Item.isInvalid, Bool.and_eq_false_iff,
        decide_eq_false_iff_not]
      omega
    | invalid bytes =>
      obtain ⟨hne, hhigh⟩ : bytes ≠ [] ∧ ∀ byte ∈ bytes, 0x80 ≤ byte.toNat := h _ hmem
      obtain ⟨byte, tail, rfl⟩ := List.exists_cons_of_ne_nil hne
      have hbyte := hhigh byte List.mem_cons_self
      have hmax := byte.toNat_lt
      have hescape : isEscape (0xDC00 + byte.toNat) = true := by
        simp only [isEscape, Bool.and_eq_true, decide_eq_true_eq]
        omega
      simp [Item.text, hescape, Item.isInvalid]
  rw [textOf, List.any_flatMap, Bool.eq_iff_iff, List.any_eq_true, List.any_eq_true]
  exact exists_congr fun item => and_congr_right fun hmem => by rw [hitem item hmem]

end Utf8
