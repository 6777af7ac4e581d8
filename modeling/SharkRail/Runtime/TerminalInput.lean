import SharkRail.Lib.Utf8Text
import SharkRail.Service.Output

/-!
# Input of a ConPTY

`WindowsPtyBackend.write` and the translation of line ends that it makes. The terminal takes text: what it is handed for one write is the
translated bytes of that write, decoded for itself, with the broker as without it.
-/

namespace SharkRail

namespace Runtime

def carriageReturn : UInt8 := 13
def lineFeed : UInt8 := 10

/-- `data.replace(b"\r\n", b"\n")`. -/
def crlfToLf : Bytes → Bytes
  | 13 :: 10 :: data => 10 :: crlfToLf data
  | byte :: data => byte :: crlfToLf data
  | [] => []

/-- `data.replace(b"\n", b"\r\n")`. -/
def lfToCrlf (data : Bytes) : Bytes := data.flatMap fun byte => if byte = lineFeed then [carriageReturn, lineFeed] else [byte]

/-- `_windows_terminal_input`. -/
def windowsTerminalInput (data : Bytes) : Bytes := lfToCrlf (crlfToLf data)

/-- What a write uses of a process handle: whether its input takes no more, whether a write has not returned yet, and the texts that the
terminal was handed. -/
structure WindowsPtyHandle where
  stdinClosed : Bool := false
  closing : Bool := false
  writePending : Bool := false
  handed : List (List ℕ) := []
  deriving DecidableEq

/-- `WindowsPtyBackend.write`, whose call of the terminal returns. -/
def WindowsPtyHandle.write (handle : WindowsPtyHandle) (data : Bytes) : Except String WindowsPtyHandle :=
  if handle.stdinClosed || handle.closing then throw "stdin is closed"
  else if handle.writePending then throw "a previous ConPTY write is still pending"
  else pure { handle with handed := handle.handed ++ [Utf8.decode .replace (windowsTerminalInput data)] }

/-- Consecutive writes. -/
def WindowsPtyHandle.writes (handle : WindowsPtyHandle) (chunks : List Bytes) : Except String WindowsPtyHandle :=
  chunks.foldlM write handle

end Runtime

end SharkRail
