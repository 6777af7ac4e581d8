import SharkRail.Jobs.Spec

/-!
# The text of a job specification

The text that is written for a specification, the specification that is read in a text, and when two of them are equal.
-/

namespace SharkRail

open PyStr

namespace JobSpec

/-- ASCII, and compact separators. -/
def specStyle : PyJson.DumpStyle := ⟨true, false⟩

/-- `json.dumps(spec.to_dict(), sort_keys=True, separators=(",", ":"))`. -/
def specText (F : PyJson.FloatText) (spec : JobSpec) : PyStr := PyJson.dumps F specStyle (PyJson.sortKeys (.obj spec.toDict))

/-- `from_dict(json.loads(text))`, `none` where the text is no JSON object or the specification is refused. -/
def readText (F : PyJson.FloatText) (text : PyStr) : Option JobSpec :=
  match PyJson.loads F text with
  | some (.obj members) => (fromDict members).toOption
  | _ => none

/-- `spec == spec'`: the fields are equal, one by one. -/
def equals (spec spec' : JobSpec) : Bool :=
  PyJson.equalsItems spec.command spec'.command && PyJson.equals spec.cwd spec'.cwd &&
    PyJson.equals (envJson spec.env) (envJson spec'.env) && PyJson.equals spec.timeoutSeconds spec'.timeoutSeconds &&
    PyJson.equals spec.idleTimeoutSeconds spec'.idleTimeoutSeconds && PyJson.equals spec.maxOutputBytes spec'.maxOutputBytes &&
    PyJson.equals spec.callbackEndpointId spec'.callbackEndpointId && PyJson.equals spec.desiredState spec'.desiredState

/-- `hashlib.sha256(spec_json.encode("utf-8")).hexdigest()`, `none` where the text does not encode. -/
def requestHash (F : PyJson.FloatText) (sha256 : List UInt8 → String) (spec : JobSpec) : Option String :=
  (encode (specText F spec)).map sha256

end JobSpec

end SharkRail
