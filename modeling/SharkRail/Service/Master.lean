import SharkRail.Lib.Binary64
import SharkRail.Service.Configuration

/-!
# The control process

`ControlMaster.run` from where a worker went down to where the next one starts. A reading of the clock is the number of seconds that the
float is; the control process waits its delay out, by the same clock, unless it is stopped.
-/

namespace SharkRail

namespace Service

namespace Master

/-- `OverflowError`, by its message. -/
inductive MasterError
  | overflow (message : String)

/-- What the loop does after a worker went down. -/
inductive Verdict
  | returns (code : ℕ)
  | waits (failures : List ℚ) (delay : PyFloat)

/-- `now - stamp <= window`. -/
def within (window : ℤ) (now stamp : ℚ) : Bool := (Binary64.round (now - stamp)).leInt window

/-- `min(30.0, 0.25 * (2 ** (n - 1)))`. -/
def restartDelay (n : ℕ) : Except MasterError PyFloat :=
  match Binary64.ofInt? (2 ^ (n - 1)) with
  | none => throw (.overflow "int too large to convert to float")
  | some power => pure (PyFloat.min (.finite 30) (Binary64.round (1 / 4 * power)))

/-- The end of a turn of the loop: `failures` are the times of the failures so far, and `stopped` is whether the control process was told
to stop. -/
def workerExited (limit window : ℤ) (failures : List ℚ) (stopped : Bool) (now : ℚ) : Except MasterError Verdict :=
  if stopped then pure (.returns 0)
  else
    let failures := failures.filter (within window now) ++ [now]
    if (failures.length : ℤ) > limit then pure (.returns 70)
    else do pure (.waits failures (← restartDelay failures.length))

/-- The failures that are remembered, and from when on the next worker may go down. -/
inductive Run (limit window : ℤ) : List ℚ → ℚ → Prop
  | start (ready : ℚ) : Run limit window [] ready
  | restart {failures failures' : List ℚ} {ready now delay : ℚ} (hrun : Run limit window failures ready) (hnow : ready ≤ now)
    (h : workerExited limit window failures false now = .ok (.waits failures' (.finite delay))) :
    Run limit window failures' (now + delay)

end Master

end Service

end SharkRail
