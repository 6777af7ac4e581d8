import SharkRail.Integrations.Framing
import SharkRail.Lib.Fallible
import Mathlib

/-!
# Lines of standard input

What `_read_bounded_line` returns for the segments of an input: one item for each, in order, the segment verbatim or the mark that it was
too long, and nothing retained beyond the limit. The first turn of a call decides: it reads a whole segment, or as many code points as the
limit has bytes and one more, and then the rest of the segment is read without being retained (`read_oversized`). A lone surrogate has no
encoding, so a call that comes to one raises; the input is framed exactly when it has none (`stdin_framing`).
-/

namespace SharkRail

namespace Integrations

open PyStr (encode Unicode)

open Lines (segments readline)

namespace Framing

variable {maxBytes : ℕ} {s : Framing} {body source rest chunk : PyStr}

/-! ## One turn -/

/-- A turn that returns a line is the read of it. -/
theorem read_of_returned {line : LineRead} (h : s.turn maxBytes source = .ok (.inr line)) : s.read maxBytes source = .ok line := by
  rw [read]
  split <;> rename_i hturn <;> rw [h] at hturn <;> cases hturn
  rfl

/-- A turn that goes on leaves the read to the next ones. -/
theorem read_of_continued {s' : Framing} (h : s.turn maxBytes source = .ok (.inl (s', rest))) :
    s.read maxBytes source = s'.read maxBytes rest := by
  rw [read]
  split <;> rename_i hturn <;> rw [h] at hturn <;> cases hturn
  rfl

/-- A turn that reads to the end of the line returns. -/
theorem turn_returned (hread : readline newline (maxBytes + 1) source = (chunk, rest)) {encoded : List UInt8}
    (hencode : encode chunk = some encoded) (hlast : chunk.getLast? = some newline) :
    s.turn maxBytes source =
      let s := s.retain maxBytes chunk encoded.length
      .ok (.inr ((if s.oversized && s.retained.flatten = [] then [newline] else s.retained.flatten, s.oversized), rest)) := by
  have hne : chunk ≠ [] := by
    rintro rfl
    cases hlast
  unfold turn
  rw [hread]
  dsimp only
  rw [if_neg hne, hencode]
  dsimp only
  rw [if_pos hlast]

/-- A turn that reads no end of a line goes on. -/
theorem turn_continued (hread : readline newline (maxBytes + 1) source = (chunk, rest)) (hne : chunk ≠ []) {encoded : List UInt8}
    (hencode : encode chunk = some encoded) (hlast : newline ∉ chunk) :
    s.turn maxBytes source = .ok (.inl (s.retain maxBytes chunk encoded.length, rest)) := by
  unfold turn
  rw [hread]
  dsimp only
  rw [if_neg hne, hencode]
  dsimp only
  rw [if_neg fun h => hlast (List.mem_of_getLast? h)]

/-- At the end of the stream the retained chunks are the line. -/
theorem turn_nil : s.turn maxBytes [] = .ok (.inr ((s.retained.flatten, s.oversized), [])) := rfl

/-- Nothing is retained of a line that is too long. -/
def Discards (s : Framing) : Prop := s.retained = [] ∧ s.oversized = true

/-- Nothing is retained once the line is too long. -/
theorem retain_of_discards (h : s.Discards) (chunk : PyStr) (size : ℕ) : s.retain maxBytes chunk size = s := by
  obtain ⟨hretained, hoversized⟩ := h
  obtain ⟨retained, retainedBytes, oversized⟩ := s
  subst hoversized
  rfl

/-- Read by a fresh call, a piece that is too long is not retained. -/
theorem retain_fresh {size : ℕ} (h : maxBytes < size) : (retain maxBytes chunk size {}).Discards := by
  unfold retain
  rw [if_neg]
  · exact ⟨rfl, rfl⟩
  · simpa using h

/-- The last code point of a line is the newline. -/
theorem getLast?_line (body : PyStr) : (body ++ [newline]).getLast? = some newline := List.getLast?_concat

/-- As many code points as the limit has bytes and one more, of a text without an end of a line. -/
theorem readline_long (hbody : newline ∉ body) (hlong : maxBytes + 1 ≤ body.length) (rest : PyStr) :
    readline newline (maxBytes + 1) (body ++ rest) = (body.take (maxBytes + 1), body.drop (maxBytes + 1) ++ rest) ∧
      body.take (maxBytes + 1) ≠ [] ∧ newline ∉ body.take (maxBytes + 1) ∧ newline ∉ body.drop (maxBytes + 1) := by
  refine ⟨Lines.readline_body hbody hlong rest, ?_, fun h => hbody (List.mem_of_mem_take h), fun h => hbody (List.mem_of_mem_drop h)⟩
  apply List.ne_nil_of_length_pos
  rw [List.length_take]
  omega

/-! ## The rest of a line that is too long -/

/-- A call that discards a line reads it to its end. -/
theorem read_oversized (hs : s.Discards) (hbody : newline ∉ body) (hunicode : Unicode (body ++ [newline])) (rest : PyStr) :
    s.read maxBytes (body ++ newline :: rest) = .ok (([newline], true), rest) := by
  induction hlength : body.length using Nat.strongRecOn generalizing body with
  | ind n ih =>
    by_cases hshort : body.length < maxBytes + 1
    · obtain ⟨encoded, hencoded⟩ := PyStr.exists_encode.2 hunicode
      rw [read_of_returned (turn_returned (Lines.readline_line hbody hshort rest) hencoded (getLast?_line body)),
        retain_of_discards hs, hs.1, hs.2]
      rfl
    · obtain ⟨hread, hne, hlast, hdrop⟩ := readline_long hbody (Nat.le_of_not_lt hshort) (newline :: rest)
      obtain ⟨hunicodeBody, hunicodeLast⟩ := PyStr.unicode_append.1 hunicode
      obtain ⟨encoded, hencoded⟩ := PyStr.exists_encode.2 (hunicodeBody.subset (List.take_subset _ _))
      rw [read_of_continued (turn_continued hread hne hencoded hlast), retain_of_discards hs]
      have hdropped : Unicode (body.drop (maxBytes + 1) ++ [newline]) :=
        PyStr.unicode_append.2 ⟨hunicodeBody.subset (List.drop_subset _ _), hunicodeLast⟩
      have hlt : (body.drop (maxBytes + 1)).length < n := by
        rw [List.length_drop]
        omega
      exact ih _ hlt hdrop hdropped rfl

/-- It reads the last segment to the end of the source. -/
theorem read_oversized_last (hs : s.Discards) (hsource : newline ∉ source) (hunicode : Unicode source) :
    s.read maxBytes source = .ok (([], true), []) := by
  induction hlength : source.length using Nat.strongRecOn generalizing source with
  | ind n ih =>
    have hend : s.read maxBytes [] = .ok (([], true), []) := by
      rw [read_of_returned turn_nil, hs.1, hs.2]
      rfl
    by_cases hnil : source = []
    · rw [hnil, hend]
    by_cases hshort : source.length < maxBytes + 1
    · obtain ⟨encoded, hencoded⟩ := PyStr.exists_encode.2 hunicode
      rw [read_of_continued (turn_continued (Lines.readline_last hsource (Nat.le_of_lt hshort)) hnil hencoded hsource),
        retain_of_discards hs, hend]
    · obtain ⟨hread, hne, hlast, hdrop⟩ := readline_long hsource (Nat.le_of_not_lt hshort) []
      rw [List.append_nil, List.append_nil] at hread
      obtain ⟨encoded, hencoded⟩ := PyStr.exists_encode.2 (hunicode.subset (List.take_subset _ _))
      rw [read_of_continued (turn_continued hread hne hencoded hlast), retain_of_discards hs]
      have hlt : (source.drop (maxBytes + 1)).length < n := by
        rw [List.length_drop]
        omega
      exact ih _ hlt hdrop (hunicode.subset (List.drop_subset _ _)) rfl

/-! ## A whole segment -/

/-- What a call returns for a segment: the segment, or the mark that it was too long, at a newline or at the end of the input. -/
def item (maxBytes : ℕ) (segment : PyStr) : PyStr × Bool :=
  if ((encode segment).map List.length).any (maxBytes < ·) then (if segment.getLast? = some newline then [newline] else [], true)
  else (segment, false)

/-- What a segment reads as is decided by the length of its encoding. -/
theorem item_of_encode {segment : PyStr} {encoded : List UInt8} (h : encode segment = some encoded) :
    item maxBytes segment =
      if maxBytes < encoded.length then (if segment.getLast? = some newline then [newline] else [], true) else (segment, false) := by
  unfold item
  rw [h]
  simp

/-- A text without a newline does not end in one. -/
theorem getLast?_ne (h : newline ∉ body) : body.getLast? ≠ some newline := fun hlast => h (List.mem_of_getLast? hlast)

/-- A piece of as many code points as the limit has bytes and one more is too long. -/
theorem discards_long (hlong : maxBytes + 1 ≤ body.length) {encoded : List UInt8}
    (hencoded : encode (body.take (maxBytes + 1)) = some encoded) :
    (retain maxBytes (body.take (maxBytes + 1)) encoded.length {}).Discards := by
  have hlength := PyStr.length_le_of_encode hencoded
  rw [List.length_take, Nat.min_eq_left hlong] at hlength
  exact retain_fresh hlength

/-- A fresh call reads one line. -/
theorem read_line (hbody : newline ∉ body) (hunicode : Unicode (body ++ [newline])) (rest : PyStr) :
    read maxBytes {} (body ++ newline :: rest) = .ok (item maxBytes (body ++ [newline]), rest) := by
  obtain ⟨encoded, hencoded⟩ := PyStr.exists_encode.2 hunicode
  have hlength := PyStr.length_le_of_encode hencoded
  rw [List.length_append, List.length_singleton] at hlength
  rw [item_of_encode hencoded, if_pos (getLast?_line body)]
  by_cases hshort : body.length < maxBytes + 1
  · rw [read_of_returned (turn_returned (Lines.readline_line hbody hshort rest) hencoded (getLast?_line body))]
    by_cases hlong : maxBytes < encoded.length
    · obtain ⟨hretained, hoversized⟩ := @retain_fresh maxBytes (body ++ [newline]) encoded.length hlong
      rw [if_pos hlong, hretained, hoversized]
      rfl
    · rw [if_neg hlong]
      simp [retain, Nat.le_of_not_lt hlong]
  · have hlong : maxBytes + 1 ≤ body.length := Nat.le_of_not_lt hshort
    obtain ⟨hread, hne, hlast, hdrop⟩ := readline_long hbody hlong (newline :: rest)
    obtain ⟨hunicodeBody, hunicodeLast⟩ := PyStr.unicode_append.1 hunicode
    obtain ⟨piece, hpiece⟩ := PyStr.exists_encode.2 (hunicodeBody.subset (List.take_subset _ _))
    have hdropped : Unicode (body.drop (maxBytes + 1) ++ [newline]) :=
      PyStr.unicode_append.2 ⟨hunicodeBody.subset (List.drop_subset _ _), hunicodeLast⟩
    rw [read_of_continued (turn_continued hread hne hpiece hlast), read_oversized (discards_long hlong hpiece) hdrop hdropped,
      if_pos (show maxBytes < encoded.length by omega)]

/-- A fresh call reads the last segment. -/
theorem read_last (hsource : newline ∉ source) (hne : source ≠ []) (hunicode : Unicode source) :
    read maxBytes {} source = .ok (item maxBytes source, []) := by
  obtain ⟨encoded, hencoded⟩ := PyStr.exists_encode.2 hunicode
  have hlength := PyStr.length_le_of_encode hencoded
  rw [item_of_encode hencoded, if_neg (getLast?_ne hsource)]
  by_cases hshort : source.length ≤ maxBytes + 1
  · rw [read_of_continued (turn_continued (Lines.readline_last hsource hshort) hne hencoded hsource)]
    by_cases hlong : maxBytes < encoded.length
    · rw [read_oversized_last (retain_fresh hlong) List.not_mem_nil (fun c hc => absurd hc List.not_mem_nil), if_pos hlong]
    · rw [read_of_returned turn_nil, if_neg hlong]
      simp [retain, Nat.le_of_not_lt hlong]
  · have hlong : maxBytes + 1 ≤ source.length := by omega
    obtain ⟨hread, hne, hlast, hdrop⟩ := readline_long hsource hlong []
    rw [List.append_nil, List.append_nil] at hread
    obtain ⟨piece, hpiece⟩ := PyStr.exists_encode.2 (hunicode.subset (List.take_subset _ _))
    rw [read_of_continued (turn_continued hread hne hpiece hlast),
      read_oversized_last (discards_long hlong hpiece) hdrop (hunicode.subset (List.drop_subset _ _)),
      if_pos (show maxBytes < encoded.length by omega)]

/-! ## What is retained, and what was read -/

/-- What is retained has the bytes that are counted, and they fit. -/
def Fits (maxBytes : ℕ) (s : Framing) : Prop :=
  ∃ encoded, encode s.retained.flatten = some encoded ∧ encoded.length = s.retainedBytes ∧ encoded.length ≤ maxBytes

/-- What is retained stays within the limit. -/
theorem Fits.retain (h : s.Fits maxBytes) {encoded : List UInt8} (hencode : encode chunk = some encoded) :
    (s.retain maxBytes chunk encoded.length).Fits maxBytes := by
  obtain ⟨bytes, hbytes, hcount, hle⟩ := h
  unfold Framing.retain
  split
  · rename_i hfits
    have hroom : s.retainedBytes + encoded.length ≤ maxBytes := by
      rw [Bool.and_eq_true, decide_eq_true_eq] at hfits
      exact hfits.2
    refine ⟨bytes ++ encoded, ?_, ?_, ?_⟩
    · rw [List.flatten_append, List.flatten_singleton, PyStr.encode_append, hbytes, hencode]
      rfl
    · rw [List.length_append, hcount]
    · rw [List.length_append, hcount]
      exact hroom
  · exact ⟨bytes, hbytes, hcount, hle⟩

/-- One turn that goes on, as a step from one state of a call to the next. -/
def Turns (maxBytes : ℕ) (now next : Framing × PyStr) : Prop := now.1.turn maxBytes now.2 = .ok (.inl next)

/-- A turn that did not raise read a piece that has an encoding: it returned, or the piece was retained or marked as too long. -/
theorem turn_cases {after : Framing × PyStr ⊕ LineRead} (h : s.turn maxBytes source = .ok after) :
    ∃ chunk rest, source = chunk ++ rest ∧ Unicode chunk ∧ ((∃ item, after = .inr (item, rest)) ∨
      ∃ encoded, encode chunk = some encoded ∧ after = .inl (s.retain maxBytes chunk encoded.length, rest)) := by
  unfold turn at h
  have happend := Lines.readline_append newline (maxBytes + 1) source
  generalize readline newline (maxBytes + 1) source = piece at h happend
  obtain ⟨chunk, rest⟩ := piece
  dsimp only at h happend
  refine ⟨chunk, rest, happend.symm, ?_⟩
  split at h
  · rename_i hchunk
    cases h
    rw [hchunk]
    exact ⟨fun c hc => absurd hc List.not_mem_nil, .inl ⟨_, rfl⟩⟩
  · split at h
    · cases h
    · rename_i encoded hencode
      refine ⟨PyStr.exists_encode.1 ⟨encoded, hencode⟩, ?_⟩
      split at h <;> cases h
      · exact .inl ⟨_, rfl⟩
      · exact .inr ⟨encoded, hencode, rfl⟩

/-- In every state of a call what is retained keeps the limit. -/
theorem fits_of_turns (h : Relation.ReflTransGen (Turns maxBytes) ({}, source) (s, rest)) : s.Fits maxBytes := by
  suffices hfits : ∀ {state : Framing × PyStr}, Relation.ReflTransGen (Turns maxBytes) ({}, source) state → state.1.Fits maxBytes from
    hfits h
  intro state hstate
  induction hstate with
  | refl => exact ⟨[], rfl, rfl, Nat.zero_le _⟩
  | tail _ hturn ih =>
    obtain ⟨chunk, left, -, -, ⟨item, hreturned⟩ | ⟨encoded, hencode, hcontinued⟩⟩ := turn_cases hturn
    · cases hreturned
    · cases hcontinued
      exact ih.retain hencode

/-- A call that returned read code points that have an encoding. -/
theorem unicode_of_read {item : PyStr × Bool} (h : s.read maxBytes source = .ok (item, rest)) :
    ∃ read, Unicode read ∧ source = read ++ rest := by
  induction hlength : source.length using Nat.strongRecOn generalizing s source with
  | ind n ih =>
    rw [read] at h
    split at h
    · cases h
    · rename_i line hturn
      cases h
      obtain ⟨chunk, left, hsource, hunicode, ⟨item', hreturned⟩ | ⟨encoded, -, hcontinued⟩⟩ := turn_cases hturn
      · cases hreturned
        exact ⟨chunk, hunicode, hsource⟩
      · cases hcontinued
    · rename_i s' left hturn
      have hlt := length_turn hturn
      rw [hlength] at hlt
      obtain ⟨second, hsecond, hleft⟩ := ih left.length hlt h rfl
      obtain ⟨chunk, left', hsource, hunicode, ⟨item', hreturned⟩ | ⟨encoded, -, hcontinued⟩⟩ := turn_cases hturn
      · cases hreturned
      · cases hcontinued
        refine ⟨chunk ++ second, PyStr.unicode_append.2 ⟨hunicode, hsecond⟩, ?_⟩
        rw [hsource, hleft, List.append_assoc]

end Framing

/-! ## The whole input -/

/-- The results of so many calls, one after the other, with the source that is left. -/
def readLines (maxBytes : Int) : ℕ → PyStr → Except ReadError (List (PyStr × Bool) × PyStr)
  | 0, source => pure ([], source)
  | calls + 1, source => do
    let (item, source) ← readBoundedLine source maxBytes
    let (items, source) ← readLines maxBytes calls source
    pure (item :: items, source)

/-- An item says of a segment whether it is too long, and holds it verbatim otherwise. -/
structure Frames (maxBytes : Int) (segment : PyStr) (item : PyStr × Bool) : Prop where
  oversized : item.2 = true ↔ ∃ encoded, encode segment = some encoded ∧ maxBytes < encoded.length
  verbatim : item.2 = false → item.1 = segment

/-- The input is framed: there is one item for each segment, in order, the calls return the items and leave the segments that are left,
and then they return the end of the input; the empty string is an item of the last segment only; the server takes up every item. What a
call retains keeps the limit. -/
structure Framed (maxBytes : Int) (text : PyStr) : Prop where
  items : ∃ items, List.Forall₂ (Frames maxBytes) (segments newline text) items ∧
    (∀ calls, readLines maxBytes calls text =
      .ok ((items ++ List.replicate calls ([], false)).take calls, ((segments newline text).drop calls).flatten)) ∧
    (∀ i item, items[i]? = some item → item.1 = [] → i + 1 = items.length) ∧ serveLines text maxBytes = (items, none)
  bounded : ∀ source s rest, Relation.ReflTransGen (Framing.Turns maxBytes.toNat) ({}, source) (s, rest) →
    ∃ encoded, encode s.retained.flatten = some encoded ∧ encoded.length ≤ maxBytes

variable {maxBytes : ℕ} {text : PyStr}

/-- A limit that is valid starts the read of a line. -/
theorem readBoundedLine_of_pos (h : 1 ≤ maxBytes) (source : PyStr) : readBoundedLine source maxBytes = Framing.read maxBytes {} source := by
  unfold readBoundedLine
  rw [if_neg (by omega), Int.toNat_natCast]

/-- The item of a segment frames it. -/
theorem frames_item {segment : PyStr} (h : Unicode segment) : Frames maxBytes segment (Framing.item maxBytes segment) := by
  obtain ⟨encoded, hencoded⟩ := PyStr.exists_encode.2 h
  rw [Framing.item_of_encode hencoded]
  by_cases hlong : maxBytes < encoded.length
  · rw [if_pos hlong]
    exact ⟨iff_of_true rfl ⟨encoded, hencoded, by omega⟩, nofun⟩
  · rw [if_neg hlong]
    refine ⟨iff_of_false Bool.false_ne_true ?_, fun _ => rfl⟩
    rintro ⟨encoded', hencoded', hlong'⟩
    rw [hencoded] at hencoded'
    cases hencoded'
    omega

/-- Only the last segment has an item that is empty. -/
theorem item_ne_nil {body : PyStr} : (Framing.item maxBytes (body ++ [newline])).1 ≠ [] := by
  unfold Framing.item
  rw [if_pos (Framing.getLast?_line body)]
  split
  · exact List.cons_ne_nil _ _
  · exact List.append_ne_nil_of_right_ne_nil _ (List.cons_ne_nil _ _)

/-- The last segment has an empty item only where it is too long. -/
theorem item_last (htext : newline ∉ text) (hne : text ≠ []) (hline : (Framing.item maxBytes text).1 = []) :
    Framing.item maxBytes text = ([], true) := by
  unfold Framing.item at hline ⊢
  rw [if_neg (Framing.getLast?_ne htext)] at hline ⊢
  split at hline
  · rename_i hlong
    rw [if_pos hlong]
  · exact absurd hline hne

/-- At the end of the stream an empty line is read. -/
theorem readBoundedLine_nil (h : 1 ≤ maxBytes) : readBoundedLine [] maxBytes = .ok (([], false), []) := by
  rw [readBoundedLine_of_pos h]
  exact Framing.read_of_returned Framing.turn_nil

/-- Calls after the end of the input return the end of the input. -/
theorem readLines_nil (h : 1 ≤ maxBytes) (calls : ℕ) : readLines maxBytes calls [] = .ok (List.replicate calls ([], false), []) := by
  induction calls with
  | zero => rfl
  | succ calls ih =>
    rw [readLines, readBoundedLine_nil h, List.replicate_succ]
    change (readLines maxBytes calls [] >>= _) = _
    rw [ih]
    rfl

/-- One more line is the first one and then the others. -/
theorem readLines_succ {item : PyStr × Bool} {source rest left : PyStr} {items : List (PyStr × Bool)} {calls : ℕ}
    (hread : readBoundedLine source maxBytes = .ok (item, rest)) (hreads : readLines maxBytes calls rest = .ok (items, left)) :
    readLines maxBytes (calls + 1) source = .ok (item :: items, left) := by
  rw [readLines, hread]
  change (readLines maxBytes calls rest >>= _) = _
  rw [hreads]
  rfl

/-- The calls return the items of the segments, and leave the segments that are left. -/
theorem readLines_items (h : 1 ≤ maxBytes) (hunicode : Unicode text) (calls : ℕ) :
    readLines maxBytes calls text =
      .ok ((((segments newline text).map (Framing.item maxBytes)) ++ List.replicate calls ([], false)).take calls,
        ((segments newline text).drop calls).flatten) := by
  induction text using Lines.segments_induction newline generalizing calls with
  | nil =>
    rw [readLines_nil h]
    simp [segments]
  | line body rest hbody ih =>
    rw [List.append_cons] at hunicode
    obtain ⟨hfirst, hrest⟩ := PyStr.unicode_append.1 hunicode
    cases calls with
    | zero =>
      rw [List.drop_zero, Lines.flatten_segments]
      rfl
    | succ calls =>
      have hread := @Framing.read_line maxBytes _ hbody hfirst rest
      rw [← readBoundedLine_of_pos h] at hread
      have hpad : ∀ items : List (PyStr × Bool), (items ++ List.replicate (calls + 1) ([], false)).take calls =
          (items ++ List.replicate calls ([], false)).take calls := by
        intro items
        rw [List.replicate_succ', ← List.append_assoc]
        exact List.take_append_of_le_length (by simp)
      rw [readLines_succ hread (ih hrest calls), Lines.segments_line hbody, List.map_cons, List.cons_append, List.take_succ_cons,
        List.drop_succ_cons, hpad]
  | last text htext hne =>
    cases calls with
    | zero =>
      rw [List.drop_zero, Lines.flatten_segments]
      rfl
    | succ calls =>
      have hread := @Framing.read_last maxBytes _ htext hne hunicode
      rw [← readBoundedLine_of_pos h] at hread
      rw [readLines_succ hread (readLines_nil h calls), Lines.segments_last htext hne]
      simp [List.replicate_succ']

/-- A line that is not empty is served, and then the others. -/
theorem serveLines_of_line {source rest : PyStr} {item : PyStr × Bool} (hread : readBoundedLine source maxBytes = .ok (item, rest))
    (hline : item.1 ≠ []) : serveLines source maxBytes = (item :: (serveLines rest maxBytes).1, (serveLines rest maxBytes).2) := by
  obtain ⟨line, oversized⟩ := item
  rw [serveLines]
  split <;> rename_i hread' <;> rw [hread] at hread' <;> cases hread'
  rw [dif_neg hline]

/-- The end of the stream ends the service. -/
theorem serveLines_of_end {source rest : PyStr} {oversized : Bool} (hread : readBoundedLine source maxBytes = .ok (([], oversized), rest)) :
    serveLines source maxBytes = (if oversized then [([], oversized)] else [], none) := by
  rw [serveLines]
  split <;> rename_i hread' <;> rw [hread] at hread' <;> cases hread'
  rw [dif_pos rfl]

/-- Nothing is served of an empty stream. -/
theorem serveLines_nil (h : 1 ≤ maxBytes) : serveLines [] maxBytes = ([], none) := serveLines_of_end (readBoundedLine_nil h)

/-- The server takes up every item. -/
theorem serveLines_items (h : 1 ≤ maxBytes) (hunicode : Unicode text) :
    serveLines text maxBytes = ((segments newline text).map (Framing.item maxBytes), none) := by
  induction text using Lines.segments_induction newline with
  | nil => exact serveLines_nil h
  | line body rest hbody ih =>
    rw [List.append_cons] at hunicode
    obtain ⟨hfirst, hrest⟩ := PyStr.unicode_append.1 hunicode
    have hread := @Framing.read_line maxBytes _ hbody hfirst rest
    rw [← readBoundedLine_of_pos h] at hread
    rw [serveLines_of_line hread item_ne_nil, ih hrest, Lines.segments_line hbody]
    rfl
  | last text htext hne =>
    have hread := @Framing.read_last maxBytes _ htext hne hunicode
    rw [← readBoundedLine_of_pos h] at hread
    rw [Lines.segments_last htext hne, List.map_singleton]
    by_cases hline : (Framing.item maxBytes text).1 = []
    · rw [item_last htext hne hline] at hread ⊢
      exact serveLines_of_end hread
    · rw [serveLines_of_line hread hline, serveLines_nil h]

/-- Calls that all returned read code points that have an encoding. -/
theorem unicode_of_readLines (h : 1 ≤ maxBytes) {calls : ℕ} {source rest : PyStr} {items : List (PyStr × Bool)}
    (hreads : readLines maxBytes calls source = .ok (items, rest)) : ∃ read, Unicode read ∧ source = read ++ rest := by
  induction calls generalizing source items with
  | zero =>
    cases hreads
    exact ⟨[], fun c hc => absurd hc List.not_mem_nil, rfl⟩
  | succ calls ih =>
    rw [readLines, Fallible.bind_eq_ok] at hreads
    obtain ⟨⟨item, left⟩, hread, hreads⟩ := hreads
    dsimp only at hreads
    rw [Fallible.bind_eq_ok] at hreads
    obtain ⟨⟨items', rest'⟩, hrest, hreturned⟩ := hreads
    cases hreturned
    rw [readBoundedLine_of_pos h] at hread
    obtain ⟨first, hfirst, hsource⟩ := Framing.unicode_of_read hread
    obtain ⟨second, hsecond, hleft⟩ := ih hrest
    refine ⟨first ++ second, PyStr.unicode_append.2 ⟨hfirst, hsecond⟩, ?_⟩
    rw [hsource, hleft, List.append_assoc]

/-- Only the last of the items of the segments is empty. -/
theorem items_last {i : ℕ} {item : PyStr × Bool} (hitem : ((segments newline text).map (Framing.item maxBytes))[i]? = some item)
    (hline : item.1 = []) : i + 1 = (segments newline text).length := by
  induction text using Lines.segments_induction newline generalizing i with
  | nil => cases hitem
  | line body rest hbody ih =>
    rw [Lines.segments_line hbody] at hitem ⊢
    cases i with
    | zero =>
      cases hitem
      exact absurd hline item_ne_nil
    | succ i =>
      rw [List.length_cons, ih hitem]
  | last text htext hne =>
    rw [Lines.segments_last htext hne] at hitem ⊢
    cases i with
    | zero => rfl
    | succ i => cases hitem

/-- Input that is framed has an encoding. -/
theorem unicode_of_framed (h : 1 ≤ maxBytes) (hframed : Framed maxBytes text) : Unicode text := by
  obtain ⟨items, -, hreads, -, -⟩ := hframed.items
  have hall := hreads (segments newline text).length
  rw [List.drop_length] at hall
  obtain ⟨read, hunicode, htext⟩ := unicode_of_readLines h hall
  rw [List.flatten_nil, List.append_nil] at htext
  rwa [htext]

/-- Input that has an encoding is framed. -/
theorem framed_of_unicode (h : 1 ≤ maxBytes) (hunicode : Unicode text) : Framed maxBytes text := by
  refine ⟨⟨(segments newline text).map (Framing.item maxBytes), ?_, readLines_items h hunicode, fun i item hitem hline => ?_,
    serveLines_items h hunicode⟩, fun source s rest hturns => ?_⟩
  · have hsegments : ∀ segment ∈ segments newline text, Unicode segment := by
      intro segment hsegment
      refine hunicode.subset fun c hc => ?_
      rw [← Lines.flatten_segments newline text]
      exact List.mem_flatten.2 ⟨segment, hsegment, hc⟩
    rw [List.forall₂_map_right_iff, List.forall₂_same]
    exact fun segment hsegment => frames_item (hsegments segment hsegment)
  · rw [List.length_map]
    exact items_last hitem hline
  · rw [Int.toNat_natCast] at hturns
    obtain ⟨encoded, hencoded, -, hle⟩ := Framing.fits_of_turns hturns
    exact ⟨encoded, hencoded, Int.ofNat_le.2 hle⟩

/-- Standard input is framed, for every limit of at least one byte, exactly when it has no lone surrogate. -/
theorem stdin_framing {maxBytes : Int} (hmaxBytes : 1 ≤ maxBytes) (text : PyStr) : Framed maxBytes text ↔ Unicode text := by
  obtain ⟨limit, rfl⟩ : ∃ limit : ℕ, maxBytes = limit := ⟨maxBytes.toNat, by omega⟩
  have hlimit : 1 ≤ limit := by omega
  exact ⟨unicode_of_framed hlimit, framed_of_unicode hlimit⟩

/-- A line that is too long, and a request after it. -/
theorem stdin_framing_oversized : Framed 4 (PyStr.ofString "oversized\n[]\n") :=
  (stdin_framing (by decide) _).2 (PyStr.unicode_ofString _)

/-- A surrogate, as it stands for a byte that is no UTF-8, ends the reading, and the request after it is lost. -/
theorem lone_surrogate_unframed : ¬∀ maxBytes : Int, 1 ≤ maxBytes → ∀ text, Framed maxBytes text := by
  intro h
  have hframed := h (64 : ℕ) (by decide) (⟨0xDC80, by decide⟩ :: PyStr.ofString "\n[]\n")
  have hsurrogate := unicode_of_framed (by decide) hframed _ List.mem_cons_self
  exact absurd hsurrogate (by decide)

end Integrations

end SharkRail
