import SharkRail.Lib.Utf8Text
import SharkRail.Runtime.AppendOutput

/-!
# Output of an ACP terminal

`AcpTerminalAdapter.output`: the text of the output that a session with a PTY kept, the tail of it where there is a limit. Signal names
are those of the host.
-/

namespace SharkRail

namespace Integrations

open SharkRail.Runtime (OutputPolicy SessionOutput)

/-- The loop of `_decode_tail`, with so many offsets left to try. -/
def decodeTailFrom (value : Bytes) : (left offset : ℕ) → List ℕ
  | 0, _ => Utf8.decode .replace value
  | left + 1, offset =>
    match Utf8.decodeStrict (value.drop offset) with
    | some text => text
    | none =>
      if Utf8.errorStart (value.drop offset) ≠ some 0 then Utf8.decode .replace (value.drop offset)
      else decodeTailFrom value left (offset + 1)

/-- `_decode_tail`. -/
def decodeTail (value : Bytes) : List ℕ := decodeTailFrom value (min 4 (value.length + 1)) 0

structure ExitStatus where
  exitCode : Option Int
  signal : Option String
  deriving DecidableEq

/-- `_exit_status` of a POSIX host. -/
def exitStatus (signalName : ℕ → Option String) (exitCode : Int) : ExitStatus :=
  if exitCode ≥ 0 then { exitCode := some exitCode, signal := none }
  else
    let number := (-exitCode).toNat
    { exitCode := none, signal := some ((signalName number).getD ("SIG" ++ toString number)) }

/-- The result of `terminal/output`. -/
structure TerminalOutput where
  output : List ℕ
  truncated : Bool
  exitStatus : Option ExitStatus
  deriving DecidableEq

/-- `AcpTerminalAdapter.output`, with the exit code of the session's result. -/
def terminalOutput (signalName : ℕ → Option String) (session : SessionOutput) (exitCode : Option Int) : TerminalOutput :=
  { output := decodeTail session.stdout
    truncated := session.truncatedOutputBytes > 0
    exitStatus := exitCode.map (exitStatus signalName) }

/-- How the session of a terminal keeps its output: the tail of a PTY's, within `outputByteLimit`. -/
def terminalPolicy (outputByteLimit maxOutputEvents : ℕ) : OutputPolicy :=
  { maxOutputBytes := some outputByteLimit, maxOutputEvents, pty := true, tail := true, tailRequiresPty := fun _ => rfl }

end Integrations

end SharkRail
