import SharkRail.Lib.PyStr
import SharkRail.Lib.Utf8

/-!
# The text of cut UTF-8

What a decoder reads after pending bytes is at most one item more than what it reads from the start (`length_itemsFrom_le`), so cutting
bytes into two pieces that are decoded each for itself changes nothing where no item is cut (`items_append`), and makes more items where
one is (`length_items_append`). The encoding of a text is read as its characters (`items_encode`). The bytes that are invalid at the start
of a text stay invalid when some of them are dropped (`invalid_drop`).
-/

namespace Utf8

variable {pending data a b : List UInt8} {byte : UInt8}

/-- What is read to the end after pending bytes. -/
def itemsFrom (pending data : List UInt8) : List Item := (feed pending data).2 ++ finish (feed pending data).1

/-- The items of some bytes are those from no pending byte. -/
theorem items_eq (data : List UInt8) : items data = itemsFrom [] data := rfl

/-- At the end the pending bytes are finished. -/
theorem itemsFrom_nil (pending : List UInt8) : itemsFrom pending [] = finish pending := rfl

/-- A byte is fed, and then the others. -/
theorem itemsFrom_cons (pending : List UInt8) (byte : UInt8) (data : List UInt8) :
    itemsFrom pending (byte :: data) = (feedByte pending byte).2 ++ itemsFrom (feedByte pending byte).1 data :=
  List.append_assoc _ _ _

/-- The items of two parts are those of the first one and those of the second with what the first left pending. -/
theorem items_append_eq (a b : List UInt8) : items (a ++ b) = (feed [] a).2 ++ itemsFrom (feed [] a).1 b := by
  unfold items itemsFrom
  rw [feed_append, List.append_assoc]

/-! ## Cuts -/

/-- No item is cut between two pieces: nothing is pending after the first one, or the second one does not go on with it. -/
def Clean (a b : List UInt8) : Prop := (feed [] a).1 = [] ∨ ∀ byte ∈ b.head?, continues (feed [] a).1 byte = false

instance (a b : List UInt8) : Decidable (Clean a b) := inferInstanceAs (Decidable (_ ∨ _))

/-- What does not go on with the pending bytes is read as from the start. -/
theorem itemsFrom_of_not_continues (hne : pending ≠ []) (h : ∀ byte ∈ data.head?, continues pending byte = false) :
    itemsFrom pending data = finish pending ++ items data := by
  cases data with
  | nil =>
    rw [itemsFrom_nil]
    exact (List.append_nil _).symm
  | cons byte data =>
    have hbyte : continues pending byte = false := h byte rfl
    obtain ⟨lead, tail, rfl⟩ := List.exists_cons_of_ne_nil hne
    have hfeed : feedByte (lead :: tail) byte = ((begin byte).1, .invalid (lead :: tail) :: (begin byte).2) := by
      unfold feedByte
      dsimp only
      rw [hbyte]
      rfl
    rw [itemsFrom_cons, items_eq, itemsFrom_cons, hfeed]
    rfl

/-- Two pieces between which no item is cut are read each for itself. -/
theorem items_append (h : Clean a b) : items (a ++ b) = items a ++ items b := by
  rw [items_append_eq]
  by_cases hpending : (feed [] a).1 = []
  · have hitems : items a = (feed [] a).2 := by
      rw [items, hpending]
      exact List.append_nil _
    rw [hpending, ← items_eq, hitems]
  · rw [itemsFrom_of_not_continues hpending (h.resolve_left hpending), ← List.append_assoc]
    rfl

/-- A byte that goes on with a character begins none. -/
theorem begin_of_continues (h : continues pending byte = true) : begin byte = ([], [.invalid [byte]]) := by
  have hhigh := high_of_continues h
  have hlow : byte.toNat ≤ 0xBF := by
    unfold continues at h
    split at h <;> simp only [Bool.and_eq_true, decide_eq_true_eq] at h
    · grind
    · exact h.2
  have hlead : leadLength byte = 0 := by
    unfold leadLength
    grind
  unfold begin
  rw [hlead]
  rfl

/-- A byte that goes on with the pending ones is read as at most one item with them, as it is without them. -/
theorem length_itemsFrom_continues (hle : ∀ pending, (itemsFrom pending data).length ≤ (items data).length + 1)
    (hne : pending ≠ []) (h : continues pending byte = true) :
    (itemsFrom pending (byte :: data)).length ≤ (items (byte :: data)).length := by
  obtain ⟨lead, tail, rfl⟩ := List.exists_cons_of_ne_nil hne
  have hbegin : items (byte :: data) = .invalid [byte] :: items data := by
    rw [items_eq, itemsFrom_cons]
    change (begin byte).2 ++ itemsFrom (begin byte).1 data = _
    rw [begin_of_continues h]
    rfl
  rw [hbegin, itemsFrom_cons, List.length_cons]
  unfold feedByte
  dsimp only
  rw [if_pos h]
  split
  · rw [List.length_append, List.length_singleton, ← items_eq, Nat.add_comm]
  · exact hle _

/-- Pending bytes make at most one item more. -/
theorem length_itemsFrom_le (pending data : List UInt8) : (itemsFrom pending data).length ≤ (items data).length + 1 := by
  induction data generalizing pending with
  | nil =>
    rw [itemsFrom_nil]
    unfold finish
    split <;> simp
  | cons byte data ih =>
    by_cases hne : pending = []
    · rw [hne, ← items_eq]
      exact Nat.le_succ _
    · by_cases hcontinues : continues pending byte = true
      · exact Nat.le_succ_of_le (length_itemsFrom_continues ih hne hcontinues)
      · have hother : ∀ other ∈ (byte :: data).head?, continues pending other = false := by
          intro other hother
          cases hother
          exact Bool.eq_false_iff.2 hcontinues
        rw [itemsFrom_of_not_continues hne hother, List.length_append, Nat.add_comm]
        unfold finish
        rw [if_neg hne, List.length_singleton]

/-- A cut item is more items. -/
theorem length_items_append (h : ¬Clean a b) : (items (a ++ b)).length < (items a).length + (items b).length := by
  obtain ⟨hne, hgoes⟩ := not_or.1 h
  obtain ⟨byte, hbyte⟩ := not_forall.1 hgoes
  obtain ⟨hbyte, hcontinues⟩ := Classical.not_imp.1 hbyte
  cases b with
  | nil => cases hbyte
  | cons other b =>
    cases hbyte
    rw [Bool.not_eq_false] at hcontinues
    have hle := length_itemsFrom_continues (length_itemsFrom_le · b) hne hcontinues
    rw [items_append_eq, items, List.length_append, List.length_append]
    unfold finish
    rw [if_neg hne, List.length_singleton]
    omega

/-- The pieces are never fewer items than the whole. -/
theorem length_items_append_le (a b : List UInt8) : (items (a ++ b)).length ≤ (items a).length + (items b).length := by
  by_cases h : Clean a b
  · rw [items_append h, List.length_append]
  · exact Nat.le_of_lt (length_items_append h)

/-- With replacement each item is one code point. -/
theorem length_decode (data : List UInt8) : (decode .replace data).length = (items data).length := by
  unfold decode textOf
  rw [List.length_flatMap]
  induction items data with
  | nil => rfl
  | cons item items ih =>
    rw [List.map_cons, List.sum_cons, List.length_cons, ih]
    cases item <;> exact Nat.add_comm _ _

/-! ## Encoded text -/

/-- A character of two, three and four bytes is read from them. -/
theorem feed_two {lead a : UInt8} (hlead : leadLength lead = 2) (ha : continues [lead] a = true) :
    feed [] [lead, a] = ([], [.char (codePoint [lead, a])]) := by
  simp [feed, feedByte, begin, hlead, ha]

/-- Three bytes of a character make it. -/
theorem feed_three {lead a b : UInt8} (hlead : leadLength lead = 3) (ha : continues [lead] a = true) (hb : continues [lead, a] b = true) :
    feed [] [lead, a, b] = ([], [.char (codePoint [lead, a, b])]) := by
  simp [feed, feedByte, begin, hlead, ha, hb]

/-- Four bytes of a character make it. -/
theorem feed_four {lead a b c : UInt8} (hlead : leadLength lead = 4) (ha : continues [lead] a = true)
    (hb : continues [lead, a] b = true) (hc : continues [lead, a, b] c = true) :
    feed [] [lead, a, b, c] = ([], [.char (codePoint [lead, a, b, c])]) := by
  simp [feed, feedByte, begin, hlead, ha, hb, hc]

/-- The byte of a number below 256 has that number. -/
theorem toNat_ofNat {n : ℕ} (h : n < 256) : (UInt8.ofNat n).toNat = n := UInt8.toNat_ofNat_of_lt' h

/-- The length that a first byte announces, by its range. -/
theorem leadLength_of_range {lead : UInt8} :
    (lead.toNat < 0x80 → leadLength lead = 1) ∧ (0x80 ≤ lead.toNat → lead.toNat < 0xC2 → leadLength lead = 0) ∧
      (0xC2 ≤ lead.toNat → lead.toNat < 0xE0 → leadLength lead = 2) ∧ (0xE0 ≤ lead.toNat → lead.toNat < 0xF0 → leadLength lead = 3) ∧
      (0xF0 ≤ lead.toNat → lead.toNat < 0xF5 → leadLength lead = 4) := by
  unfold leadLength
  grind

/-- A byte in the range that all others are in goes on with a character of which two bytes were read. -/
theorem continues_tail {lead a b : UInt8} {tail : List UInt8} (hlow : 0x80 ≤ b.toNat) (hhigh : b.toNat < 0xC0) :
    continues (lead :: a :: tail) b = true := by
  unfold continues
  rw [Bool.and_eq_true, decide_eq_true_eq, decide_eq_true_eq]
  omega

/-- A second byte continues a first one, with the exceptions of four first bytes. -/
theorem continues_lead {lead a : UInt8} (hlow : 0x80 ≤ a.toNat) (hhigh : a.toNat < 0xC0) (he0 : lead.toNat = 0xE0 → 0xA0 ≤ a.toNat)
    (hf0 : lead.toNat = 0xF0 → 0x90 ≤ a.toNat) (hed : lead.toNat = 0xED → a.toNat < 0xA0) (hf4 : lead.toNat = 0xF4 → a.toNat < 0x90) :
    continues [lead] a = true := by
  unfold continues
  rw [Bool.and_eq_true, decide_eq_true_eq, decide_eq_true_eq]
  grind

/-- The bytes of a code point are read as that code point; those after the first one only go on with a character. -/
theorem feed_utf8 {c : CodePoint} {bytes : List UInt8} (h : PyStr.utf8 c = some bytes) :
    feed [] bytes = ([], [.char c.val]) ∧ bytes.length ≤ 4 ∧ ∀ byte ∈ bytes.tail, 0x80 ≤ byte.toNat ∧ byte.toNat < 0xC0 := by
  have hlt := c.lt
  unfold PyStr.utf8 CodePoint.isSurrogate at h
  dsimp only at h
  generalize c.val = n at h hlt
  by_cases hone : n < 0x80
  · rw [if_pos hone] at h
    cases h
    have hnat := @toNat_ofNat n (by omega)
    have hlead := (@leadLength_of_range (UInt8.ofNat n)).1 (by omega)
    refine ⟨?_, by simp, nofun⟩
    simp [feed, feedByte, begin, hlead, hnat]
  rw [if_neg hone] at h
  by_cases htwo : n < 0x800
  · rw [if_pos htwo] at h
    cases h
    have hl := @toNat_ofNat (0xC0 + n / 0x40) (by omega)
    have ha := @toNat_ofNat (0x80 + n % 0x40) (by omega)
    generalize UInt8.ofNat (0xC0 + n / 0x40) = lead at hl ⊢
    generalize UInt8.ofNat (0x80 + n % 0x40) = a at ha ⊢
    have hlead := (@leadLength_of_range lead).2.2.1 (by omega) (by omega)
    have hcode : codePoint [lead, a] = n := by
      simp only [codePoint, hlead, List.foldl_cons, List.foldl_nil, if_true]
      omega
    refine ⟨?_, by simp, ?_⟩
    · rw [feed_two hlead (continues_lead (by omega) (by omega) (by omega) (by omega) (by omega) (by omega)), hcode]
    · simp only [List.tail_cons, List.mem_singleton, forall_eq]
      omega
  rw [if_neg htwo] at h
  by_cases hsurrogate : 0xD800 ≤ n ∧ n ≤ 0xDFFF
  · simp [hsurrogate] at h
  rw [if_neg (by simpa using hsurrogate)] at h
  by_cases hthree : n < 0x10000
  · rw [if_pos hthree] at h
    cases h
    have hl := @toNat_ofNat (0xE0 + n / 0x1000) (by omega)
    have ha := @toNat_ofNat (0x80 + n / 0x40 % 0x40) (by omega)
    have hb := @toNat_ofNat (0x80 + n % 0x40) (by omega)
    generalize UInt8.ofNat (0xE0 + n / 0x1000) = lead at hl ⊢
    generalize UInt8.ofNat (0x80 + n / 0x40 % 0x40) = a at ha ⊢
    generalize UInt8.ofNat (0x80 + n % 0x40) = b at hb ⊢
    have hlead := (@leadLength_of_range lead).2.2.2.1 (by omega) (by omega)
    have hcode : codePoint [lead, a, b] = n := by
      simp only [codePoint, hlead, List.foldl_cons, List.foldl_nil, Nat.reduceEqDiff, if_false, if_true]
      omega
    refine ⟨?_, by simp, ?_⟩
    · rw [feed_three hlead (continues_lead (by omega) (by omega) (by omega) (by omega) (by omega) (by omega))
        (continues_tail (by omega) (by omega)), hcode]
    · simp only [List.tail_cons, List.mem_cons, List.not_mem_nil, or_false, forall_eq_or_imp, forall_eq]
      omega
  rw [if_neg hthree] at h
  cases h
  have hl := @toNat_ofNat (0xF0 + n / 0x40000) (by omega)
  have ha := @toNat_ofNat (0x80 + n / 0x1000 % 0x40) (by omega)
  have hb := @toNat_ofNat (0x80 + n / 0x40 % 0x40) (by omega)
  have hc := @toNat_ofNat (0x80 + n % 0x40) (by omega)
  generalize UInt8.ofNat (0xF0 + n / 0x40000) = lead at hl ⊢
  generalize UInt8.ofNat (0x80 + n / 0x1000 % 0x40) = a at ha ⊢
  generalize UInt8.ofNat (0x80 + n / 0x40 % 0x40) = b at hb ⊢
  generalize UInt8.ofNat (0x80 + n % 0x40) = c at hc ⊢
  have hlead := (@leadLength_of_range lead).2.2.2.2 (by omega) (by omega)
  have hcode : codePoint [lead, a, b, c] = n := by
    simp only [codePoint, hlead, List.foldl_cons, List.foldl_nil, Nat.reduceEqDiff, if_false]
    omega
  refine ⟨?_, by simp, ?_⟩
  · rw [feed_four hlead (continues_lead (by omega) (by omega) (by omega) (by omega) (by omega) (by omega))
      (continues_tail (by omega) (by omega)) (continues_tail (by omega) (by omega)), hcode]
  · simp only [List.tail_cons, List.mem_cons, List.not_mem_nil, or_false, forall_eq_or_imp, forall_eq]
    omega

/-- An encoded text is read as its code points. -/
theorem items_encode {s : PyStr} (h : PyStr.encode s = some data) : items data = s.map fun c => .char c.val := by
  induction s generalizing data with
  | nil =>
    cases h
    rfl
  | cons c s ih =>
    rw [PyStr.encode_cons, Option.bind_eq_some_iff] at h
    obtain ⟨bytes, hbytes, hrest⟩ := h
    obtain ⟨rest, hs, rfl⟩ := Option.map_eq_some_iff.1 hrest
    obtain ⟨hfeed, -, -⟩ := feed_utf8 hbytes
    rw [items_append_eq, hfeed, ← items_eq, ih hs]
    rfl

/-! ## Invalid bytes at the start -/

/-- The bytes of an item. -/
def Item.size : Item → ℕ
  | .char code => if code < 0x80 then 1 else if code < 0x800 then 2 else if code < 0x10000 then 3 else 4
  | .invalid bytes => bytes.length

/-- `err.start` of the `UnicodeDecodeError` that strict decoding raises, `none` where it raises none. -/
def errorStart (data : List UInt8) : Option ℕ :=
  ((items data).findIdx? Item.isInvalid).map fun i => (((items data).take i).map Item.size).sum

/-- The text starts with an error. -/
def StartsInvalid (data : List UInt8) : Prop := ∃ bytes rest, items data = .invalid bytes :: rest

/-- No character is encoded in no byte. -/
theorem size_char_pos (code : ℕ) : 0 < (Item.char code).size := by
  unfold Item.size
  grind

/-- An error starts at the first byte where the text starts with it. -/
theorem errorStart_eq_zero : errorStart data = some 0 ↔ StartsInvalid data := by
  unfold errorStart StartsInvalid
  cases items data with
  | nil => simp
  | cons item rest =>
    cases item with
    | invalid bytes => simp [List.findIdx?_cons, Item.isInvalid]
    | char code =>
      have hpos := size_char_pos code
      have hchar : (Item.char code).isInvalid = false := rfl
      rw [List.findIdx?_cons, hchar]
      refine iff_of_false (fun h => ?_) (by simp)
      obtain ⟨i, hi, hsum⟩ := Option.map_eq_some_iff.1 h
      obtain ⟨j, -, rfl⟩ := Option.map_eq_some_iff.1 hi
      rw [List.take_succ_cons, List.map_cons, List.sum_cons] at hsum
      omega

/-- The bytes of an error after pending bytes: the pending ones, and some that go on with them. -/
theorem invalid_of_itemsFrom {bytes : List UInt8} {rest : List Item} (hne : pending ≠ [])
    (h : itemsFrom pending data = .invalid bytes :: rest) :
    ∃ more left, bytes = pending ++ more ∧ data = more ++ left ∧ items left = rest ∧
      ∀ byte ∈ more, begin byte = ([], [.invalid [byte]]) := by
  induction data generalizing pending with
  | nil =>
    rw [itemsFrom_nil] at h
    unfold finish at h
    rw [if_neg hne] at h
    cases h
    exact ⟨[], [], (List.append_nil _).symm, rfl, rfl, nofun⟩
  | cons byte data ih =>
    by_cases hcontinues : continues pending byte = true
    · obtain ⟨lead, tail, rfl⟩ := List.exists_cons_of_ne_nil hne
      rw [itemsFrom_cons] at h
      unfold feedByte at h
      dsimp only at h
      rw [if_pos hcontinues] at h
      split at h
      · cases h
      · obtain ⟨more, left, hbytes, hdata, hitems, hmore⟩ := ih (by simp) h
        refine ⟨byte :: more, left, ?_, by rw [hdata, List.cons_append], hitems, ?_⟩
        · rw [hbytes, List.append_assoc, List.singleton_append]
        · exact List.forall_mem_cons.2 ⟨begin_of_continues hcontinues, hmore⟩
    · have hother : ∀ other ∈ (byte :: data).head?, continues pending other = false := by
        intro other hother
        cases hother
        exact Bool.eq_false_iff.2 hcontinues
      rw [itemsFrom_of_not_continues hne hother] at h
      unfold finish at h
      rw [if_neg hne] at h
      cases h
      exact ⟨[], byte :: data, (List.append_nil _).symm, rfl, rfl, nofun⟩

/-- The bytes of an error at the start: none of them but the first one can begin a character. -/
theorem invalid_of_items {bytes : List UInt8} {rest : List Item} (h : items data = .invalid bytes :: rest) :
    ∃ lead more left, bytes = lead :: more ∧ data = bytes ++ left ∧ items left = rest ∧
      ∀ byte ∈ more, begin byte = ([], [.invalid [byte]]) := by
  cases data with
  | nil => cases h
  | cons byte data =>
    rw [items_eq, itemsFrom_cons] at h
    change (begin byte).2 ++ itemsFrom (begin byte).1 data = _ at h
    by_cases hone : leadLength byte = 1
    · have hbegin : begin byte = ([], [.char byte.toNat]) := if_pos hone
      rw [hbegin] at h
      cases h
    by_cases hzero : leadLength byte = 0
    · have hbegin : begin byte = ([], [.invalid [byte]]) := (if_neg hone).trans (if_pos hzero)
      rw [hbegin] at h
      cases h
      exact ⟨byte, [], data, rfl, rfl, rfl, nofun⟩
    · have hbegin : begin byte = ([byte], []) := (if_neg hone).trans (if_neg hzero)
      rw [hbegin] at h
      obtain ⟨more, left, hbytes, hdata, hitems, hmore⟩ := invalid_of_itemsFrom (by simp) h
      refine ⟨byte, more, left, hbytes, ?_, hitems, hmore⟩
      rw [hbytes, hdata]
      rfl

/-- How many bytes are invalid at the start. -/
def invalidPrefix (data : List UInt8) : ℕ := (((items data).takeWhile Item.isInvalid).map Item.size).sum

/-- The invalid bytes at the begin are those of the first item and the ones after them. -/
theorem invalidPrefix_append {bytes left : List UInt8} (h : items data = .invalid bytes :: items left) :
    invalidPrefix data = bytes.length + invalidPrefix left := by
  unfold invalidPrefix
  rw [h, List.takeWhile_cons_of_pos rfl, List.map_cons, List.sum_cons]
  rfl

/-- Bytes whose first one begins nothing start with an invalid item. -/
theorem startsInvalid_of_begin (h : begin byte = ([], [.invalid [byte]])) (data : List UInt8) : StartsInvalid (byte :: data) := by
  refine ⟨[byte], items data, ?_⟩
  rw [items_eq, itemsFrom_cons]
  change (begin byte).2 ++ itemsFrom (begin byte).1 data = _
  rw [h]
  rfl

/-- Wherever it is cut, the invalid start of a text starts with an error; after it the text does not. -/
theorem invalid_drop (data : List UInt8) :
    (∀ offset < invalidPrefix data, StartsInvalid (data.drop offset)) ∧
      items (data.drop (invalidPrefix data)) = (items data).dropWhile Item.isInvalid ∧ invalidPrefix data ≤ data.length := by
  induction hitems : items data generalizing data with
  | nil =>
    have hzero : invalidPrefix data = 0 := by simp [invalidPrefix, hitems]
    rw [hzero]
    exact ⟨nofun, hitems, Nat.zero_le _⟩
  | cons item rest ih =>
    cases item with
    | char code =>
      have hzero : invalidPrefix data = 0 := by simp [invalidPrefix, hitems, Item.isInvalid]
      rw [hzero]
      exact ⟨nofun, hitems, Nat.zero_le _⟩
    | invalid bytes =>
      obtain ⟨lead, more, left, hbytes, hdata, hleft, hmore⟩ := invalid_of_items hitems
      obtain ⟨hstarts, hdrop, hle⟩ := ih left hleft
      have hsum : invalidPrefix data = bytes.length + invalidPrefix left := invalidPrefix_append (hitems.trans (by rw [hleft]))
      rw [hsum]
      refine ⟨fun offset hoffset => ?_, ?_, ?_⟩
      · by_cases hin : offset < bytes.length
        · cases offset with
          | zero => exact ⟨bytes, rest, hitems⟩
          | succ offset =>
            rw [hbytes, List.length_cons] at hin
            have hlt : offset < more.length := Nat.lt_of_succ_lt_succ hin
            have hsplit : data.drop (offset + 1) = more[offset] :: (more.drop (offset + 1) ++ left) := by
              rw [hdata, hbytes, List.cons_append, List.drop_succ_cons, List.drop_append_of_le_length (Nat.le_of_lt hlt),
                List.drop_eq_getElem_cons hlt, List.cons_append]
            rw [hsplit]
            exact startsInvalid_of_begin (hmore _ (List.getElem_mem hlt)) _
        · have hsplit : data.drop offset = left.drop (offset - bytes.length) := by
            rw [hdata, List.drop_append, List.drop_of_length_le (Nat.le_of_not_lt hin), List.nil_append]
          rw [hsplit]
          exact hstarts _ (by omega)
      · rw [hdata, ← List.drop_drop, List.drop_left, hdrop, List.dropWhile_cons_of_pos rfl]
      · rw [hdata, List.length_append]
        omega

end Utf8
