import SharkRail.Lib.Lines
import SharkRail.Lib.PyStr

/-!
# Framing of standard input

`_read_bounded_line` and the loop of `serve_stdio` that calls it: a line is read in pieces, and is kept as long as it fits the limit of a
request. The source is the text that is left of the input; a piece that has no UTF-8 encoding raises.
-/

namespace SharkRail

namespace Integrations

open PyStr (encode)

inductive ReadError where
  | valueError (message : String)
  | unicodeEncodeError
  deriving DecidableEq

def newline : CodePoint := '\n'

/-- The variables of the loop of `_read_bounded_line`. -/
structure Framing where
  retained : List PyStr := []
  retainedBytes : ℕ := 0
  oversized : Bool := false

/-- A line and whether it was too long, with the source that is left. -/
abbrev LineRead := (PyStr × Bool) × PyStr

namespace Framing

/-- A piece of the line is retained, or the line is too long. -/
def retain (maxBytes : ℕ) (chunk : PyStr) (encodedSize : ℕ) (s : Framing) : Framing :=
  if !s.oversized && s.retainedBytes + encodedSize ≤ maxBytes then
    { s with retained := s.retained ++ [chunk], retainedBytes := s.retainedBytes + encodedSize }
  else { s with oversized := true }

/-- One turn of the loop: it goes on with the source that is left, or it returns. -/
def turn (maxBytes : ℕ) (s : Framing) (source : PyStr) : Except ReadError (Framing × PyStr ⊕ LineRead) :=
  let (chunk, source) := Lines.readline newline (maxBytes + 1) source
  if chunk = [] then .ok (.inr ((s.retained.flatten, s.oversized), source))
  else
    match encode chunk with
    | none => .error .unicodeEncodeError
    | some encoded =>
      let s := s.retain maxBytes chunk encoded.length
      if chunk.getLast? = some newline then
        let line := s.retained.flatten
        .ok (.inr ((if s.oversized && line = [] then [newline] else line, s.oversized), source))
      else .ok (.inl (s, source))

/-- A turn that goes on has read something. -/
theorem length_turn {maxBytes : ℕ} {s s' : Framing} {source rest : PyStr} (h : turn maxBytes s source = .ok (.inl (s', rest))) :
    rest.length < source.length := by
  unfold turn at h
  have happend := Lines.readline_append newline (maxBytes + 1) source
  generalize Lines.readline newline (maxBytes + 1) source = read at h happend
  obtain ⟨chunk, left⟩ := read
  dsimp only at h happend
  split at h
  · cases h
  · rename_i hchunk
    split at h
    · cases h
    · split at h
      · cases h
      · cases h
        rw [← happend, List.length_append]
        have hpos := List.length_pos_of_ne_nil hchunk
        omega

/-- The loop of `_read_bounded_line`. -/
def read (maxBytes : ℕ) (s : Framing) (source : PyStr) : Except ReadError LineRead :=
  match _ : s.turn maxBytes source with
  | .error e => .error e
  | .ok (.inr line) => .ok line
  | .ok (.inl (s, rest)) => read maxBytes s rest
termination_by source.length
decreasing_by exact length_turn ‹_›

/-- A turn that returns has read something, unless the source was at its end. -/
theorem length_turn_returned {maxBytes : ℕ} {s : Framing} {source rest : PyStr} {item : PyStr × Bool}
    (h : turn maxBytes s source = .ok (.inr (item, rest))) :
    source = [] ∧ rest = [] ∧ item = (s.retained.flatten, s.oversized) ∨ rest.length < source.length := by
  unfold turn at h
  have happend := Lines.readline_append newline (maxBytes + 1) source
  have hnil := @Lines.readline_eq_nil _ _ newline source maxBytes
  generalize Lines.readline newline (maxBytes + 1) source = read at h happend hnil
  obtain ⟨chunk, left⟩ := read
  dsimp only at h happend hnil
  split at h
  · rename_i hchunk
    cases h
    have hsource := hnil hchunk
    rw [hchunk, hsource] at happend
    exact .inl ⟨hsource, happend, rfl⟩
  · rename_i hchunk
    split at h
    · cases h
    · split at h
      · cases h
        rw [← happend, List.length_append]
        have hpos := List.length_pos_of_ne_nil hchunk
        exact .inr (by omega)
      · cases h

theorem length_read {maxBytes : ℕ} {s : Framing} {source rest : PyStr} {item : PyStr × Bool}
    (h : read maxBytes s source = .ok (item, rest)) :
    source = [] ∧ rest = [] ∧ item = (s.retained.flatten, s.oversized) ∨ rest.length < source.length := by
  induction hlength : source.length using Nat.strongRecOn generalizing s source with
  | ind n ih =>
    rw [read] at h
    split at h
    · cases h
    · rename_i line hturn
      cases h
      rw [← hlength]
      exact length_turn_returned hturn
    · rename_i s' left hturn
      have hlt := length_turn hturn
      rw [hlength] at hlt
      right
      rcases ih left.length hlt h rfl with ⟨rfl, rfl, -⟩ | hrest <;> omega

end Framing

/-- `_read_bounded_line`. -/
def readBoundedLine (source : PyStr) (maxBytes : Int) : Except ReadError LineRead :=
  if maxBytes ≤ 0 then .error (.valueError "max_request_bytes must be positive")
  else Framing.read maxBytes.toNat {} source

/-- A line that is not empty was read from the source. -/
theorem length_readBoundedLine {source rest : PyStr} {maxBytes : Int} {item : PyStr × Bool}
    (h : readBoundedLine source maxBytes = .ok (item, rest)) (hline : item.1 ≠ []) : rest.length < source.length := by
  unfold readBoundedLine at h
  split at h
  · cases h
  · rcases Framing.length_read h with ⟨-, -, rfl⟩ | hlt
    · exact absurd rfl hline
    · exact hlt

/-- The loop of `serve_stdio` over the lines of its input: what it takes up until it leaves the loop, each line with whether it is answered
as too long, and the exception that ended it otherwise. -/
def serveLines (source : PyStr) (maxRequestBytes : Int) : List (PyStr × Bool) × Option ReadError :=
  match _ : readBoundedLine source maxRequestBytes with
  | .error e => ([], some e)
  | .ok ((line, oversized), rest) =>
    if _ : line = [] then (if oversized then [(line, oversized)] else [], none)
    else
      let (lines, ended) := serveLines rest maxRequestBytes
      ((line, oversized) :: lines, ended)
termination_by source.length
decreasing_by exact length_readBoundedLine (by assumption) (by assumption)

end Integrations

end SharkRail
