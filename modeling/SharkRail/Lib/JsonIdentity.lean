import SharkRail.Lib.JsonRoundTrip

/-!
# Values with one text

Two values are written alike when they are the same value but for their pairs of surrogates (`dumps_eq_iff`): a text that was written
is read in one way, so its parts are the texts of the parts of the value.
-/

namespace PyJson

open CodePoint PyStr

variable {F : FloatText} {style : DumpStyle}

mutual

/-- A value with its strings as their texts spell them. The keys of an object are not put together. -/
def spelled (ensureAscii : Bool) : PyJson → PyJson
  | str s => str (rereadStr ensureAscii s)
  | arr items => arr (spelledItems ensureAscii items)
  | obj members => obj (spelledMembers ensureAscii members)
  | v => v

def spelledItems (ensureAscii : Bool) : List PyJson → List PyJson
  | [] => []
  | x :: xs => spelled ensureAscii x :: spelledItems ensureAscii xs

def spelledMembers (ensureAscii : Bool) : List (PyStr × PyJson) → List (PyStr × PyJson)
  | [] => []
  | (k, x) :: ms => (rereadStr ensureAscii k, spelled ensureAscii x) :: spelledMembers ensureAscii ms

end

/-! ## Strings -/

/-- The high surrogate of a pair is read back. -/
theorem highOf_pair {high low : CodePoint} (hhigh : high.isHigh = true) (hlow : low.isLow = true) : highOf (pair high low) = high := by
  have hval := val_pair hhigh hlow
  simp only [isHigh, isLow, Bool.and_eq_true, decide_eq_true_eq] at hhigh hlow
  refine CodePoint.ext ?_
  rw [val_highOf (by rw [hval]; omega), hval]
  omega

/-- The low surrogate of a pair is read back. -/
theorem lowOf_pair {high low : CodePoint} (hhigh : high.isHigh = true) (hlow : low.isLow = true) : lowOf (pair high low) = low := by
  have hval := val_pair hhigh hlow
  simp only [isHigh, isLow, Bool.and_eq_true, decide_eq_true_eq] at hhigh hlow
  refine CodePoint.ext ?_
  rw [val_lowOf, hval]
  omega

/-- A code point above ASCII is written as an escape. -/
theorem escape_unicode {c : CodePoint} (h : 127 ≤ c.val) : escape true c = escapeUnicode c := by
  have hshort : shortEscape c = none := by
    unfold shortEscape
    rw [if_neg, if_neg (by omega), if_neg (by omega), if_neg (by omega), if_neg (by omega), if_neg (by omega)]
    rintro (rfl | rfl) <;> revert h <;> decide
  have hplain : isPlain true c = false := by
    unfold isPlain
    grind
  unfold escape
  rw [hshort, hplain]
  rfl

/-- A pair is written as the code point it stands for. -/
theorem escape_pair {high low : CodePoint} (hhigh : high.isHigh = true) (hlow : low.isLow = true) :
    escape true (pair high low) = escape true high ++ escape true low := by
  have hval := val_pair hhigh hlow
  have hbounds : 0xD800 ≤ high.val ∧ high.val ≤ 0xDBFF ∧ 0xDC00 ≤ low.val ∧ low.val ≤ 0xDFFF := by
    simp only [isHigh, isLow, Bool.and_eq_true, decide_eq_true_eq] at hhigh hlow
    omega
  rw [escape_unicode (by rw [hval]; omega), escape_unicode (by omega), escape_unicode (by omega)]
  unfold escapeUnicode
  rw [if_neg (by rw [hval]; omega), if_pos (by omega), if_pos (by omega), highOf_pair hhigh hlow, lowOf_pair hhigh hlow]

/-- A pair is escaped as its two surrogates are. -/
theorem flatMap_escape_join (s : PyStr) : (join s).flatMap (escape true) = s.flatMap (escape true) := by
  induction s using join.induct with
  | case1 => rfl
  | case2 c => rfl
  | case3 high low s hpair ih =>
    rw [join, if_pos hpair]
    rw [Bool.and_eq_true] at hpair
    rw [List.flatMap_cons, List.flatMap_cons, List.flatMap_cons, escape_pair hpair.1 hpair.2, ih, List.append_assoc]
  | case4 high low s hpair ih =>
    rw [join, if_neg hpair, List.flatMap_cons, List.flatMap_cons, ih]

/-- A text that was read back is quoted as before. -/
theorem quote_rereadStr (ensureAscii : Bool) (s : PyStr) : quote ensureAscii (rereadStr ensureAscii s) = quote ensureAscii s := by
  unfold rereadStr quote
  cases ensureAscii with
  | true => rw [if_pos rfl, flatMap_escape_join]
  | false => rfl

/-! ## The spelled value has the text of the value -/

mutual

/-- A value is written as its spelling is. -/
theorem dumps_spelled (v : PyJson) : dumps F style (spelled style.ensureAscii v) = dumps F style v := by
  match v with
  | .null | .bool _ | .int _ | .float _ => rfl
  | .str s => exact quote_rereadStr style.ensureAscii s
  | .arr items => rw [spelled, dumps, dumpsItems_spelled items, dumps]
  | .obj members => rw [spelled, dumps, dumpsMembers_spelled members, dumps]

/-- A list is written as its spelling is. -/
theorem dumpsItems_spelled (items : List PyJson) :
    dumpsItems F style (spelledItems style.ensureAscii items) = dumpsItems F style items := by
  match items with
  | [] => rfl
  | [x] => rw [spelledItems, spelledItems, dumpsItems, dumps_spelled x, dumpsItems]
  | x :: y :: xs =>
    have hrest := dumpsItems_spelled (y :: xs)
    rw [spelledItems] at hrest
    rw [spelledItems, spelledItems, dumpsItems, dumps_spelled x, hrest, dumpsItems]

/-- An object is written as its spelling is. -/
theorem dumpsMembers_spelled (members : List (PyStr × PyJson)) :
    dumpsMembers F style (spelledMembers style.ensureAscii members) = dumpsMembers F style members := by
  match members with
  | [] => rfl
  | [(k, x)] => rw [spelledMembers, spelledMembers, dumpsMembers, dumps_spelled x, quote_rereadStr, dumpsMembers]
  | (k, x) :: (k', y) :: ms =>
    have hrest := dumpsMembers_spelled ((k', y) :: ms)
    rw [spelledMembers] at hrest
    rw [spelledMembers, spelledMembers, dumpsMembers, dumps_spelled x, quote_rereadStr, hrest, dumpsMembers]

end

/-! ## A text is read in one way -/

/-- Where the text of a value ends. -/
theorem dumps_append_inj {v w : PyJson} {r r' : PyStr} (hv : IsPython v) (hw : IsPython w) (hr : Ends r) (hr' : Ends r')
    (h : dumps F style v ++ r = dumps F style w ++ r') : dumps F style v = dumps F style w ∧ r = r' := by
  have hscan : scanOnce F (need v + need w) (dumps F style v ++ r) = some (reread style.ensureAscii v, r) :=
    scanOnce_dumps v hv (Nat.le_add_right _ _) hr
  have hscan' : scanOnce F (need v + need w) (dumps F style w ++ r') = some (reread style.ensureAscii w, r') :=
    scanOnce_dumps w hw (Nat.le_add_left _ _) hr'
  rw [h, hscan', Option.some.injEq, Prod.mk.injEq] at hscan
  obtain ⟨-, rfl⟩ := hscan
  exact ⟨List.append_cancel_right h, rfl⟩

/-- A list that is not empty has a text that is not. -/
theorem dumpsItems_ne_nil {x : PyJson} (hx : IsPython x) (xs : List PyJson) : dumpsItems F style (x :: xs) ≠ [] := by
  have hsolid : Solid (dumps F style x) := solid_dumps hx
  obtain ⟨c, rest, htext, -⟩ := hsolid
  rw [dumpsItems_cons, htext]
  exact nofun

/-- The text after an item tells the items after it. -/
theorem itemsAfter_inj {xs ys : List PyJson} (h : itemsAfter F style xs = itemsAfter F style ys) :
    dumpsItems F style xs = dumpsItems F style ys := by
  cases xs with
  | nil =>
    cases ys with
    | nil => rfl
    | cons y ys => cases h
  | cons x xs =>
    cases ys with
    | nil => cases h
    | cons y ys =>
      rw [itemsAfter, itemsAfter, List.cons.injEq] at h
      exact List.append_cancel_left h.2

/-- The text after the first member determines the text of the others. -/
theorem membersAfter_inj {ms ms' : List (PyStr × PyJson)} (h : membersAfter F style ms = membersAfter F style ms') :
    dumpsMembers F style ms = dumpsMembers F style ms' := by
  cases ms with
  | nil =>
    cases ms' with
    | nil => rfl
    | cons m ms' => cases h
  | cons m ms =>
    cases ms' with
    | nil => cases h
    | cons m' ms' =>
      rw [membersAfter, membersAfter, List.cons.injEq] at h
      exact List.append_cancel_left h.2

/-- What follows a key, of two texts that are the same. -/
theorem membersText_inj {k k' : PyStr} {x x' : PyJson} {ms ms' : List (PyStr × PyJson)} (hx : IsPython x) (hx' : IsPython x')
    (h : membersText F style k x ms = membersText F style k' x' ms') :
    rereadStr style.ensureAscii k = rereadStr style.ensureAscii k' ∧ dumps F style x = dumps F style x' ∧
      dumpsMembers F style ms = dumpsMembers F style ms' := by
  unfold membersText at h
  have hkey := congrArg scanString h
  rw [scanString_quote, scanString_quote, Option.some.injEq, Prod.mk.injEq, List.cons.injEq] at hkey
  obtain ⟨hkey, -, hrest⟩ := hkey
  have hvalue : dumps F style x ++ (membersAfter F style ms ++ [ofChar '}']) = dumps F style x' ++
    (membersAfter F style ms' ++ [ofChar '}']) := by
    rw [← List.append_assoc, ← List.append_assoc, List.append_cancel_left hrest]
  obtain ⟨htext, hafter⟩ := dumps_append_inj hx hx' (ends_membersAfter ms []) (ends_membersAfter ms' []) hvalue
  exact ⟨hkey, htext, membersAfter_inj (List.append_cancel_right hafter)⟩

mutual

/-- Two values with one text have one spelling. -/
theorem spelled_of_dumps (v w : PyJson) (hv : IsPython v) (hw : IsPython w) (h : dumps F style v = dumps F style w) :
    spelled style.ensureAscii v = spelled style.ensureAscii w := by
  have hread : reread style.ensureAscii v = reread style.ensureAscii w := by
    have hloads := loads_dumps F style hv
    rwa [h, loads_dumps F style hw, Option.some.injEq, eq_comm] at hloads
  match v, w with
  | .arr xs, .arr ys =>
    rw [dumps, dumps, List.cons_append, List.cons_append, List.cons.injEq] at h
    rw [spelled, spelled, spelledItems_of_dumps xs ys hv hw (List.append_cancel_right h.2)]
  | .obj ms, .obj ms' =>
    rw [dumps, dumps, List.cons_append, List.cons_append, List.cons.injEq] at h
    rw [spelled, spelled, spelledMembers_of_dumps ms ms' hv.2 hw.2 (List.append_cancel_right h.2)]
  | .null, w => cases w <;> simp_all [reread, spelled]
  | .bool b, w => cases w <;> simp_all [reread, spelled]
  | .int n, w => cases w <;> simp_all [reread, spelled]
  | .float x, w => cases w <;> simp_all [reread, spelled]
  | .str s, w => cases w <;> simp_all [reread, spelled]
  | .arr xs, .null | .arr xs, .bool _ | .arr xs, .int _ | .arr xs, .float _ | .arr xs, .str _ | .arr xs, .obj _ => cases hread
  | .obj xs, .null | .obj xs, .bool _ | .obj xs, .int _ | .obj xs, .float _ | .obj xs, .str _ | .obj xs, .arr _ => cases hread

/-- Two lists with one text have one spelling. -/
theorem spelledItems_of_dumps (xs ys : List PyJson) (hxs : ItemsPython xs) (hys : ItemsPython ys)
    (h : dumpsItems F style xs = dumpsItems F style ys) : spelledItems style.ensureAscii xs = spelledItems style.ensureAscii ys := by
  match xs, ys with
  | [], [] => rfl
  | [], y :: ys => exact absurd h.symm (dumpsItems_ne_nil hys.1 ys)
  | x :: xs, [] => exact absurd h (dumpsItems_ne_nil hxs.1 xs)
  | x :: xs, y :: ys =>
    have hends : dumps F style x ++ (itemsAfter F style xs ++ [ofChar ']']) = dumps F style y ++
      (itemsAfter F style ys ++ [ofChar ']']) := by
      rw [dumpsItems_cons, dumpsItems_cons] at h
      rw [← List.append_assoc, ← List.append_assoc, h]
    obtain ⟨htext, hafter⟩ := dumps_append_inj hxs.1 hys.1 (ends_itemsAfter xs []) (ends_itemsAfter ys []) hends
    have hrest := itemsAfter_inj (List.append_cancel_right hafter)
    rw [spelledItems, spelledItems, spelled_of_dumps x y hxs.1 hys.1 htext, spelledItems_of_dumps xs ys hxs.2 hys.2 hrest]

/-- Two objects with one text have one spelling. -/
theorem spelledMembers_of_dumps (ms ms' : List (PyStr × PyJson)) (hms : MembersPython ms) (hms' : MembersPython ms')
    (h : dumpsMembers F style ms = dumpsMembers F style ms') :
    spelledMembers style.ensureAscii ms = spelledMembers style.ensureAscii ms' := by
  match ms, ms' with
  | [], [] => rfl
  | [], (k', x') :: ms' =>
    rw [dumpsMembers_cons] at h
    cases h
  | (k, x) :: ms, [] =>
    rw [dumpsMembers_cons] at h
    cases h
  | (k, x) :: ms, (k', x') :: ms' =>
    rw [dumpsMembers_cons, dumpsMembers_cons, List.cons.injEq] at h
    obtain ⟨hkey, htext, hrest⟩ := membersText_inj hms.1 hms'.1 h.2
    rw [spelledMembers, spelledMembers, hkey, spelled_of_dumps x x' hms.1 hms'.1 htext, spelledMembers_of_dumps ms ms' hms.2 hms'.2 hrest]

end

/-- Two values have one text when they are spelled alike. -/
theorem dumps_eq_iff (F : FloatText) (style : DumpStyle) {v w : PyJson} (hv : IsPython v) (hw : IsPython w) :
    dumps F style v = dumps F style w ↔ spelled style.ensureAscii v = spelled style.ensureAscii w :=
  ⟨spelled_of_dumps v w hv hw, fun h => by rw [← dumps_spelled v, h, dumps_spelled w]⟩

mutual

/-- A value whose strings are joined is spelled as it is. -/
theorem spelled_of_joined (ensureAscii : Bool) (v : PyJson) (h : ∀ s ∈ strings v, Joined s) : spelled ensureAscii v = v := by
  match v with
  | .null | .bool _ | .int _ | .float _ => rfl
  | .str s => rw [spelled, rereadStr_of_joined (h s List.mem_cons_self)]
  | .arr items => rw [spelled, spelledItems_of_joined ensureAscii items h]
  | .obj members => rw [spelled, spelledMembers_of_joined ensureAscii members h]

/-- A list whose strings have no pair is its own spelling. -/
theorem spelledItems_of_joined (ensureAscii : Bool) (items : List PyJson) (h : ∀ s ∈ itemStrings items, Joined s) :
    spelledItems ensureAscii items = items := by
  match items with
  | [] => rfl
  | x :: xs =>
    rw [spelledItems, spelled_of_joined ensureAscii x fun s hs => h s (List.mem_append_left _ hs),
      spelledItems_of_joined ensureAscii xs fun s hs => h s (List.mem_append_right _ hs)]

/-- An object whose strings have no pair is its own spelling. -/
theorem spelledMembers_of_joined (ensureAscii : Bool) (members : List (PyStr × PyJson)) (h : ∀ s ∈ memberStrings members, Joined s) :
    spelledMembers ensureAscii members = members := by
  match members with
  | [] => rfl
  | (k, x) :: ms =>
    rw [spelledMembers, rereadStr_of_joined (h k List.mem_cons_self),
      spelled_of_joined ensureAscii x fun s hs => h s (List.mem_cons_of_mem _ (List.mem_append_left _ hs)),
      spelledMembers_of_joined ensureAscii ms fun s hs => h s (List.mem_cons_of_mem _ (List.mem_append_right _ hs))]

end

end PyJson
