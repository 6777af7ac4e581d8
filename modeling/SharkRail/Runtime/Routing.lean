import SharkRail.Integrations.Protocol

/-!
# Commands for the WSL launcher

`is_wsl_launcher` and `parse_wsl_invocation`: which executables are the Windows launcher of WSL, and the Linux command that their
arguments hold.
-/

namespace SharkRail

namespace Runtime

open Integrations (CommandSpec)

/-! ## Windows paths -/

/-- `text.find(c, start)`. -/
def findFrom (c : CodePoint) (start : Nat) (text : PyStr) : Option Nat :=
  ((text.drop start).findIdx? (· = c)).map (start + ·)

def slash : CodePoint := '/'

def backslash : CodePoint := '\\'

/-- `text.upper()`, on ASCII. -/
def asciiUpper (text : PyStr) : PyStr := text.map fun c => if 97 ≤ c.val ∧ c.val ≤ 122 then .ofNat (c.val - 32) else c

/-- The last part of `ntpath.splitroot`: a path after its drive and its root. -/
def ntRelative (path : PyStr) : PyStr :=
  let normal := path.map fun c => if c = slash then backslash else c
  if normal.take 2 = [backslash, backslash] then
    -- a UNC or a device drive: it ends at the second separator after the prefix
    let start := if asciiUpper (normal.take 8) = "\\\\?\\UNC\\" then 8 else 2
    match findFrom backslash start normal with
    | none => []
    | some index =>
      match findFrom backslash (index + 1) normal with
      | none => []
      | some index => path.drop (index + 1)
  else if normal.take 1 = [backslash] then path.drop 1
  else if (normal.drop 1).take 2 = ":\\" then path.drop 3
  else if (normal.drop 1).take 1 = ":" then path.drop 2
  else path

/-- `ntpath.basename`. -/
def ntBasename (path : PyStr) : PyStr := ((ntRelative path).reverse.takeWhile fun c => c ≠ slash ∧ c ≠ backslash).reverse

/-! ## The launcher -/

/-- The Linux command that a launcher command line holds. -/
structure WslInvocation where
  executable : PyStr
  cwd : Option PyStr
  deriving DecidableEq

/-- `is_wsl_launcher`; `casefold` is `str.casefold`. -/
def isWslLauncher (casefold : PyStr → PyStr) (executable : PyStr) : Bool :=
  (["wsl", "wsl.exe"] : List PyStr).contains (casefold (ntBasename executable))

/-- The options of the launcher that take a value. -/
def wslValueOptions : List PyStr := ["--distribution", "--user", "--cd"]

/-- The loop of `parse_wsl_invocation`, from an option on. -/
def parseWslOptions : List PyJson → List PyStr → Option PyStr → Except PyError WslInvocation
  | [], _, _ => throw (.valueError "WSL command requires an explicit --exec delimiter")
  | .str option :: argv, seen, cwd =>
    if option = "--exec" then
      match argv with
      | [] => throw (.valueError "WSL --exec requires an executable")
      | .str executable :: _ =>
        if executable = [] then throw (.valueError "WSL --exec requires an executable") else pure { executable, cwd }
      | _ :: _ => throw (.typeError "WSL --exec executable must be a string")
    else if option ∉ wslValueOptions then throw (.valueError (PyStr.ofString "unsupported WSL launcher option: " ++ option))
    else if option ∈ seen then throw (.valueError (PyStr.ofString "duplicate WSL launcher option: " ++ option))
    else
      match argv with
      | [] => throw (.valueError (PyStr.ofString "WSL launcher option requires a value: " ++ option))
      | .str value :: argv =>
        if value = [] then throw (.valueError (PyStr.ofString "WSL launcher option requires a value: " ++ option))
        else parseWslOptions argv (option :: seen) (if option = "--cd" then some value else cwd)
      | _ :: _ => throw (.typeError (PyStr.ofString "WSL launcher option value must be a string: " ++ option))
  | _ :: _, _, _ => throw (.typeError "WSL launcher options must be strings")

/-- `parse_wsl_invocation`. -/
def parseWslInvocation (casefold : PyStr → PyStr) (spec : CommandSpec) : Except PyError (Option WslInvocation) :=
  if isWslLauncher casefold spec.executable then some <$> parseWslOptions spec.argv [] none else pure none

end Runtime

end SharkRail
