import SharkRail.Lib.Fallible
import SharkRail.Runtime.TerminalInput

/-!
# Cuts of a ConPTY's input

The translation puts a carriage return before every line feed that has none (`windowsTerminalInput_eq`), so a cut between the two makes it
put one too many, and a cut inside a UTF-8 sequence makes a replacement character of each side. Either makes the texts of the pieces
longer than the text of the whole (`length_text_append`), so no cut makes up for another, and the pieces are the whole exactly when no cut
is of these (`conpty_cuts`).
-/

namespace SharkRail

namespace Runtime

variable {a b data : Bytes} {byte : UInt8} {cr : Bool}

/-! ## The translation -/

/-- A carriage return is put before a line feed, unless the byte before it is one. -/
def enter : Bool → Bytes → Bytes
  | _, [] => []
  | cr, byte :: data =>
    if byte = lineFeed then (if cr then [lineFeed] else [carriageReturn, lineFeed]) ++ enter false data
    else byte :: enter (byte = carriageReturn) data

/-- Only a line feed asks for the byte before it. -/
theorem enter_eq_false (h : data.head? ≠ some lineFeed) (cr : Bool) : enter cr data = enter false data := by
  cases data with
  | nil => rfl
  | cons byte data =>
    have hbyte : byte ≠ lineFeed := fun heq => h (congrArg some heq)
    rw [enter, enter, if_neg hbyte, if_neg hbyte]

theorem lfToCrlf_cons (byte : UInt8) (data : Bytes) :
    lfToCrlf (byte :: data) = (if byte = lineFeed then [carriageReturn, lineFeed] else [byte]) ++ lfToCrlf data := rfl

theorem windowsTerminalInput_eq (data : Bytes) : windowsTerminalInput data = enter false data := by
  unfold windowsTerminalInput
  induction data using crlfToLf.induct with
  | case1 data ih =>
    rw [crlfToLf, lfToCrlf_cons, ih]
    rfl
  | case2 byte data hother ih =>
    have hcut : crlfToLf (byte :: data) = byte :: crlfToLf data := by
      rw [crlfToLf]
      exact hother
    rw [hcut, lfToCrlf_cons, ih, enter]
    split
    · rfl
    · by_cases hreturn : byte = carriageReturn
      · have hhead : data.head? ≠ some lineFeed := by
          intro hhead
          obtain ⟨rest, rfl⟩ := List.head?_eq_some_iff.1 hhead
          exact hother rest hreturn rfl
        exact congrArg (byte :: ·) (enter_eq_false hhead _).symm
      · rw [decide_eq_false hreturn]
        rfl
  | case3 => rfl

/-- The last byte before a cut is a carriage return. -/
def endsInReturn (cr : Bool) (data : Bytes) : Bool := data.getLast?.elim cr (· = carriageReturn)

theorem enter_append (cr : Bool) (a b : Bytes) : enter cr (a ++ b) = enter cr a ++ enter (endsInReturn cr a) b := by
  induction a generalizing cr with
  | nil => rfl
  | cons byte a ih =>
    have hends : endsInReturn cr (byte :: a) = endsInReturn (byte = carriageReturn) a := by
      unfold endsInReturn
      rw [List.getLast?_cons]
      cases a.getLast? <;> rfl
    rw [List.cons_append, enter, enter, hends]
    split
    · rename_i hbyte
      have hfeed : endsInReturn (byte = carriageReturn) a = endsInReturn false a := by
        rw [hbyte]
        rfl
      rw [ih, hfeed, List.append_assoc]
    · rw [ih, List.cons_append]

/-! ## Pending bytes -/

/-- After an ASCII byte nothing is pending. -/
theorem feedByte_ascii (h : byte.toNat < 0x80) (pending : Bytes) : (Utf8.feedByte pending byte).1 = [] := by
  have hlead : Utf8.leadLength byte = 1 := Utf8.leadLength_of_range.1 h
  have hbegin : (Utf8.begin byte).1 = [] := by
    unfold Utf8.begin
    rw [if_pos hlead]
  unfold Utf8.feedByte
  split
  · exact hbegin
  · rw [if_neg fun hcontinues => Nat.not_le_of_lt h (Utf8.high_of_continues hcontinues)]
    exact hbegin

/-- The translation leaves what is pending. -/
theorem pending_enter (cr : Bool) (pending data : Bytes) : (Utf8.feed pending (enter cr data)).1 = (Utf8.feed pending data).1 := by
  induction data generalizing cr pending with
  | nil => rfl
  | cons byte data ih =>
    have hfeed : ∀ pending, (Utf8.feedByte pending lineFeed).1 = [] := feedByte_ascii (by decide)
    have hreturn : ∀ pending, (Utf8.feedByte pending carriageReturn).1 = [] := feedByte_ascii (by decide)
    rw [enter]
    split
    · rename_i hbyte
      rw [hbyte]
      cases cr
      · change (Utf8.feed (Utf8.feedByte (Utf8.feedByte pending carriageReturn).1 lineFeed).1 (enter false data)).1 =
          (Utf8.feed (Utf8.feedByte pending lineFeed).1 data).1
        rw [ih, hfeed, hfeed]
      · change (Utf8.feed (Utf8.feedByte pending lineFeed).1 (enter false data)).1 = (Utf8.feed (Utf8.feedByte pending lineFeed).1 data).1
        rw [ih]
    · exact ih _ _

theorem continues_ascii (h : byte.toNat < 0x80) (pending : Bytes) : Utf8.continues pending byte = false :=
  Bool.eq_false_iff.2 fun hcontinues => Nat.not_le_of_lt h (Utf8.high_of_continues hcontinues)

/-- The translation cuts no item that was not cut. -/
theorem clean_enter : Utf8.Clean (enter false a) (enter false b) ↔ Utf8.Clean a b := by
  unfold Utf8.Clean
  rw [pending_enter]
  refine or_congr_right ?_
  cases b with
  | nil => exact Iff.rfl
  | cons byte b =>
    rw [enter]
    split
    · rename_i hbyte
      rw [hbyte]
      refine iff_of_true (fun other hother => ?_) (fun other hother => ?_)
      · cases hother
        exact continues_ascii (by decide) _
      · cases hother
        exact continues_ascii (by decide) _
    · exact Iff.rfl

/-! ## One cut -/

/-- The text of one write. -/
def text (data : Bytes) : List ℕ := Utf8.decode .replace (windowsTerminalInput data)

/-- A cut does not separate a carriage return from a line feed, nor the bytes of a UTF-8 sequence. -/
structure CleanCut (a b : Bytes) : Prop where
  line : ¬(a.getLast? = some carriageReturn ∧ b.head? = some lineFeed)
  sequence : Utf8.Clean a b

theorem windowsTerminalInput_append (h : ¬(a.getLast? = some carriageReturn ∧ b.head? = some lineFeed)) :
    windowsTerminalInput (a ++ b) = windowsTerminalInput a ++ windowsTerminalInput b := by
  rw [windowsTerminalInput_eq, windowsTerminalInput_eq, windowsTerminalInput_eq, enter_append]
  by_cases hlast : a.getLast? = some carriageReturn
  · rw [enter_eq_false fun hhead => h ⟨hlast, hhead⟩]
  · have hends : endsInReturn false a = false := by
      unfold endsInReturn
      cases hlast' : a.getLast? with
      | none => rfl
      | some byte =>
        rw [hlast', Option.some.injEq] at hlast
        exact decide_eq_false hlast
    rw [hends]

/-- Pieces of a clean cut are written as the whole. -/
theorem text_append (h : CleanCut a b) : text (a ++ b) = text a ++ text b := by
  unfold text
  rw [windowsTerminalInput_append h.line]
  unfold Utf8.decode
  have hclean : Utf8.Clean (windowsTerminalInput a) (windowsTerminalInput b) := by
    rw [windowsTerminalInput_eq, windowsTerminalInput_eq]
    exact clean_enter.2 h.sequence
  rw [Utf8.items_append hclean, Utf8.textOf_append]

/-- Pieces of another cut are written as more. -/
theorem length_text_append (h : ¬CleanCut a b) : (text (a ++ b)).length < (text a).length + (text b).length := by
  unfold text
  rw [Utf8.length_decode, Utf8.length_decode, Utf8.length_decode]
  by_cases hline : a.getLast? = some carriageReturn ∧ b.head? = some lineFeed
  · obtain ⟨hlast, hhead⟩ := hline
    obtain ⟨rest, rfl⟩ := List.head?_eq_some_iff.1 hhead
    have hends : endsInReturn false a = true := by
      unfold endsInReturn
      rw [hlast]
      rfl
    rw [windowsTerminalInput_eq, windowsTerminalInput_eq, windowsTerminalInput_eq, enter_append, hends]
    change (Utf8.items (enter false a ++ lineFeed :: enter false rest)).length <
      (Utf8.items (enter false a)).length + (Utf8.items (carriageReturn :: lineFeed :: enter false rest)).length
    have hle := Utf8.length_items_append_le (enter false a) (lineFeed :: enter false rest)
    have hreturn : Utf8.items (carriageReturn :: lineFeed :: enter false rest) =
        .char 13 :: Utf8.items (lineFeed :: enter false rest) := rfl
    rw [hreturn, List.length_cons]
    omega
  · have hclean : ¬Utf8.Clean (windowsTerminalInput a) (windowsTerminalInput b) := by
      rw [windowsTerminalInput_eq, windowsTerminalInput_eq]
      exact fun hclean => h ⟨hline, clean_enter.1 hclean⟩
    rw [windowsTerminalInput_append hline]
    exact Utf8.length_items_append hclean

theorem length_text_append_le (a b : Bytes) : (text (a ++ b)).length ≤ (text a).length + (text b).length := by
  by_cases h : CleanCut a b
  · rw [text_append h, List.length_append]
  · exact Nat.le_of_lt (length_text_append h)

/-! ## All cuts -/

/-- The texts of pieces are never shorter than the text of the whole. -/
theorem length_text_flatten_le (chunks : List Bytes) : (text chunks.flatten).length ≤ (chunks.flatMap text).length := by
  induction chunks with
  | nil => exact Nat.le_refl _
  | cons chunk chunks ih =>
    have hle := length_text_append_le chunk chunks.flatten
    rw [List.flatten_cons, List.flatMap_cons, List.length_append]
    omega

/-- Every cut of the whole between two pieces is clean. -/
def CleanCuts (chunks : List Bytes) : Prop := ∀ i, CleanCut (chunks.take i).flatten (chunks.drop i).flatten

/-- A cut is clean by the byte after it. -/
theorem CleanCut.of_append (h : CleanCut a (b ++ data)) : CleanCut a b := by
  cases b with
  | nil => exact ⟨fun hline => absurd hline.2 (by simp), .inr nofun⟩
  | cons byte b => exact ⟨h.line, h.sequence⟩

/-- The text of the whole is the texts of the pieces exactly when every cut is clean. -/
theorem flatMap_text (chunks : List Bytes) : chunks.flatMap text = text chunks.flatten ↔ CleanCuts chunks := by
  constructor
  · intro heq i
    by_contra hcut
    have hlt := length_text_append hcut
    have hbefore := length_text_flatten_le (chunks.take i)
    have hafter := length_text_flatten_le (chunks.drop i)
    have hlength := congrArg List.length heq
    rw [← List.flatten_append, List.take_append_drop] at hlt
    rw [← List.take_append_drop i chunks, List.flatMap_append, List.length_append, List.take_append_drop] at hlength
    omega
  · intro hcuts
    suffices hall : ∀ i ≤ chunks.length, (chunks.take i).flatMap text = text (chunks.take i).flatten by
      have hwhole := hall chunks.length (Nat.le_refl _)
      rwa [List.take_length] at hwhole
    intro i
    induction i with
    | zero => exact fun _ => rfl
    | succ i ih =>
      intro hi
      have hcut := hcuts i
      rw [List.drop_eq_getElem_cons hi, List.flatten_cons] at hcut
      rw [List.take_succ_eq_append_getElem hi, List.flatMap_append, List.flatten_append, ih (Nat.le_of_lt hi), List.flatten_singleton,
        text_append hcut.of_append, List.flatMap_singleton]

/-- Writes that succeed hand their texts over, one after the other. -/
theorem handed_writes {handle handle' : WindowsPtyHandle} {chunks : List Bytes} (h : handle.writes chunks = .ok handle') :
    handle'.handed = handle.handed ++ chunks.map text := by
  induction chunks generalizing handle with
  | nil =>
    cases h
    exact (List.append_nil _).symm
  | cons chunk chunks ih =>
    unfold WindowsPtyHandle.writes at h
    rw [List.foldlM_cons, Fallible.bind_eq_ok] at h
    obtain ⟨next, hnext, hrest⟩ := h
    have hhanded : next.handed = handle.handed ++ [text chunk] := by
      unfold WindowsPtyHandle.write at hnext
      split at hnext
      · cases hnext
      · split at hnext <;> cases hnext
        rfl
    rw [ih hrest, hhanded, List.map_cons, List.append_assoc, List.singleton_append]

/-- What consecutive successful writes hand to the terminal is what one write of the whole hands to it exactly when no cut separates a
carriage return from its line feed or the bytes of a UTF-8 sequence. -/
theorem conpty_cuts {handle split whole : WindowsPtyHandle} {chunks : List Bytes} (hsplit : handle.writes chunks = .ok split)
    (hwhole : handle.write chunks.flatten = .ok whole) : split.handed.flatten = whole.handed.flatten ↔ CleanCuts chunks := by
  have hone : handle.writes [chunks.flatten] = .ok whole := by
    unfold WindowsPtyHandle.writes
    rw [List.foldlM_cons, hwhole]
    rfl
  rw [handed_writes hsplit, handed_writes hone, List.flatten_append, List.flatten_append, List.append_cancel_left_eq,
    ← List.flatMap_def, List.map_singleton, List.flatten_singleton, flatMap_text]

/-- A character in one write, and a line end in another. -/
theorem conpty_cuts_clean : CleanCuts [[0xE2, 0x82, 0xAC], [10]] :=
  (@conpty_cuts {} { handed := [[0x20AC], [13, 10]] } { handed := [[0x20AC, 13, 10]] } _ (by decide) (by decide)).1 (by decide)

/-- A carriage return and its line feed in two writes. -/
theorem cut_line_doubled :
    ¬∀ (handle split whole : WindowsPtyHandle) (chunks : List Bytes), handle.writes chunks = .ok split →
      handle.write chunks.flatten = .ok whole → split.handed.flatten = whole.handed.flatten := by
  intro h
  have hdoubled := h {} { handed := [[13], [13, 10]] } { handed := [[13, 10]] } [[13], [10]] (by decide) (by decide)
  exact absurd hdoubled (by decide)

end Runtime

end SharkRail
