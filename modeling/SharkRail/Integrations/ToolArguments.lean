import SharkRail.Integrations.Tools
import SharkRail.Lib.JsonSchema

/-!
# Arguments of tools

`_validate_schema` for every schema that can be written with its keywords, and what `_call_tool` reads of the arguments of a tool before it
calls the manager, over strings of code points. The schemas are those that `_tool_definitions` advertises.
-/

namespace SharkRail

namespace Integrations

open PyStr

mutual

/-- The schema that a definition of a tool writes, as a JSON schema. -/
def Schema.toJsonSchema : Schema → JsonSchema
  | .object properties required additional =>
    { type := some .object
      properties := Schema.toJsonSchemas properties
      required := required.map ofString
      additionalProperties := some (match additional with
        | none => none
        | some schema => some schema.toJsonSchema) }
  | .array items => { type := some .array, items := some items.toJsonSchema }
  | .string minLength => { type := some .string, minLength }
  | .integer minimum => { type := some .integer, minimum }
  | .boolean _ => { type := some .boolean }
  | .enum values _ => { enum := some (values.map fun value => .str (ofString value)) }

def Schema.toJsonSchemas : List (String × Schema) → List (PyStr × JsonSchema)
  | [] => []
  | (name, schema) :: properties => (ofString name, schema.toJsonSchema) :: Schema.toJsonSchemas properties

end

end Integrations

namespace Texts

namespace Mcp

open PyStr PyJson
open Integrations (CommandMode Tool toolDefinitions)

/-! ## Schemas -/

/-- What `_validate_tool_arguments` raises: the tool is not there, or the value at a path breaks a rule of its schema. -/
inductive SchemaError
  | unknownTool (name : PyStr)
  | wrongType (path : PyStr) (type : SchemaType)
  | missing (path key : PyStr)
  | notAllowed (path key : PyStr)
  | inputForms (path : PyStr)
  | tooShort (path : PyStr)
  | belowMinimum (path : PyStr)
  | notListed (path : PyStr) (values : List PyJson)

/-- `{path}.{key}`. -/
def memberPath (path key : PyStr) : PyStr := path ++ ofString "." ++ key

/-- `{path}[{index}]`. -/
def itemPath (path : PyStr) (index : ℕ) : PyStr := path ++ ofString ("[" ++ toString index ++ "]")

/-- The messages. `repr` is the text of a list of values. -/
def SchemaError.message (repr : List PyJson → PyStr) : SchemaError → PyStr
  | .unknownTool name => ofString "unknown tool: " ++ name
  | .wrongType path .object => path ++ ofString " must be an object"
  | .wrongType path .array => path ++ ofString " must be an array"
  | .wrongType path .string => path ++ ofString " must be a string"
  | .wrongType path .integer => path ++ ofString " must be an integer"
  | .wrongType path .boolean => path ++ ofString " must be a boolean"
  | .missing path key => memberPath path key ++ ofString " is required"
  | .notAllowed path key => memberPath path key ++ ofString " is not allowed"
  | .inputForms path => path ++ ofString " must match exactly one input form"
  | .tooShort path => path ++ ofString " is shorter than the minimum length"
  | .belowMinimum path => path ++ ofString " is below the minimum"
  | .notListed path values => path ++ ofString " must be one of " ++ repr values

/-- The last check: `value not in schema["enum"]`. -/
def checkEnum (path : PyStr) (schema : JsonSchema) (value : PyJson) : Except SchemaError Unit :=
  match schema.enum with
  | none => pure ()
  | some values => if values.any (·.equals value) then pure () else throw (.notListed path values)

/-- The members that are required. -/
def checkRequired (path : PyStr) (schema : JsonSchema) (members : List (PyStr × PyJson)) : Except SchemaError Unit :=
  match schema.required.find? fun key => (get? members key).isNone with
  | none => pure ()
  | some key => throw (.missing path key)

/-- The number of alternatives whose members are all there is one. -/
def checkOneOf (path : PyStr) (schema : JsonSchema) (members : List (PyStr × PyJson)) : Except SchemaError Unit :=
  match schema.oneOf with
  | none => pure ()
  | some alternatives =>
    if (alternatives.countP fun required => required.all fun key => (get? members key).isSome) ≠ 1 then throw (.inputForms path)
    else pure ()

/-- The schema of a member: the one of its property, else the one of the others; `none` where it may not be there. -/
def memberSchema (schema : JsonSchema) (key : PyStr) : Option JsonSchema :=
  match schema.property? key with
  | some property => some property
  | none => schema.additionalProperties.getD (some {})

/-- The checks of a value with no values in it. -/
def checkScalar (path : PyStr) (schema : JsonSchema) : PyJson → Except SchemaError Unit
  | .str s => match schema.type with
    | none => pure ()
    | some .string => if s.length < schema.minLength then throw (.tooShort path) else pure ()
    | some type => throw (.wrongType path type)
  | .int n => match schema.type with
    | none => pure ()
    | some .integer => if schema.minimum.any (n < ·) then throw (.belowMinimum path) else pure ()
    | some type => throw (.wrongType path type)
  | .bool _ => match schema.type with
    | none | some .boolean => pure ()
    | some type => throw (.wrongType path type)
  | _ => match schema.type with
    | none => pure ()
    | some type => throw (.wrongType path type)

mutual

/-- `_validate_schema`. -/
def validateSchema (path : PyStr) : PyJson → JsonSchema → Except SchemaError Unit
  | .obj members, schema => do
    match schema.type with
    | none => pure ()
    | some .object =>
      checkRequired path schema members
      validateMembers path members schema
      checkOneOf path schema members
    | some type => throw (.wrongType path type)
    checkEnum path schema (.obj members)
  | .arr items, schema => do
    match schema.type with
    | none => pure ()
    | some .array => validateItems path 0 items (schema.items.getD {})
    | some type => throw (.wrongType path type)
    checkEnum path schema (.arr items)
  | value, schema => do
    checkScalar path schema value
    checkEnum path schema value

def validateMembers (path : PyStr) : List (PyStr × PyJson) → JsonSchema → Except SchemaError Unit
  | [], _ => pure ()
  | (key, item) :: members, schema =>
    match memberSchema schema key with
    | some property => do
      validateSchema (memberPath path key) item property
      validateMembers path members schema
    | none => throw (.notAllowed path key)

def validateItems (path : PyStr) (index : ℕ) : List PyJson → JsonSchema → Except SchemaError Unit
  | [], _ => pure ()
  | item :: items, schema => do
    validateSchema (itemPath path index) item schema
    validateItems path (index + 1) items schema

end

/-- The definition of a tool. -/
def tool? (name : PyStr) : Option Tool := toolDefinitions.find? fun tool => ofString tool.name = name

/-- `_validate_tool_arguments`. -/
def validateToolArguments (name : PyStr) (arguments : List (PyStr × PyJson)) : Except SchemaError Unit :=
  match tool? name with
  | some tool => validateSchema (ofString "arguments") (.obj arguments) tool.inputSchema.toJsonSchema
  | none => throw (.unknownTool name)

/-! ## Reading arguments -/

/-- What reading the arguments raises: the `McpError` of a tool that is not there, `KeyError`, `TypeError`, the `ValueError` of a mode or of
Base64 syntax, and `UnicodeEncodeError`. -/
inductive ArgumentError
  | unknownTool (name : PyStr)
  | key (key : String)
  | type (message : String)
  | mode (value : PyJson)
  | base64 (message : String)
  | unicodeEncode (text : PyStr)

/-- `_required_string`. -/
def requiredString (arguments : List (PyStr × PyJson)) (key : String) : Except ArgumentError PyStr :=
  match get? arguments (ofString key) with
  | none => throw (.key key)
  | some (.str (c :: s)) => pure (c :: s)
  | some _ => throw (.type (key ++ " must be a non-empty string"))

/-- `_optional_integer`. -/
def optionalInteger (arguments : List (PyStr × PyJson)) (key : String) : Except ArgumentError (Option ℤ) :=
  match JobSpec.getD arguments key .null with
  | .null => pure none
  | .int n => pure (some n)
  | _ => throw (.type (key ++ " must be an integer"))

/-- `_integer`. -/
def integer (arguments : List (PyStr × PyJson)) (key : String) (default : ℤ) : Except ArgumentError ℤ :=
  match JobSpec.getD arguments key (.int default) with
  | .int n => pure n
  | _ => throw (.type (key ++ " must be an integer"))

/-- The command that a tool starts. -/
structure ToolCommand where
  executable : PyStr
  argv : List PyJson
  cwd : Option PyStr
  env : Option (List (PyStr × PyJson))
  inheritEnv : Bool
  mode : CommandMode

/-- The `args`. -/
def argvOf : PyJson → Except ArgumentError (List PyJson)
  | .arr items => if items.all isStr then pure items else throw (.type "args must be an array of strings")
  | _ => throw (.type "args must be an array of strings")

/-- The `env`. -/
def envOf : PyJson → Except ArgumentError (Option (List (PyStr × PyJson)))
  | .null => pure none
  | .obj env => if env.all fun m => isStr m.2 then pure (some env) else throw (.type "env must be an object containing string values")
  | _ => throw (.type "env must be an object containing string values")

/-- The `inheritEnv`. -/
def inheritEnvOf : PyJson → Except ArgumentError Bool
  | .bool b => pure b
  | _ => throw (.type "inheritEnv must be a boolean")

/-- The `cwd`. -/
def cwdOf : PyJson → Except ArgumentError (Option PyStr)
  | .null => pure none
  | .str s => pure (some s)
  | _ => throw (.type "cwd must be a string")

/-- `CommandMode(value)`. -/
def modeOf (value : PyJson) : Except ArgumentError CommandMode :=
  if value.equals (.str (ofString "pipe")) then pure .pipe
  else if value.equals (.str (ofString "pty")) then pure .pty
  else throw (.mode value)

/-- `_command_spec`. -/
def commandSpec (arguments : List (PyStr × PyJson)) : Except ArgumentError ToolCommand := do
  let argv ← argvOf (JobSpec.getD arguments "args" (.arr []))
  let env ← envOf (JobSpec.getD arguments "env" .null)
  let inheritEnv ← inheritEnvOf (JobSpec.getD arguments "inheritEnv" (.bool true))
  let cwd ← cwdOf (JobSpec.getD arguments "cwd" .null)
  let executable ← requiredString arguments "executable"
  let mode ← modeOf (JobSpec.getD arguments "mode" (.str (ofString "pipe")))
  pure { executable, argv, cwd, env, inheritEnv, mode }

/-- `_input_bytes`; `b64decode` is `base64.b64decode(text, validate=True)`, with the text of its error. -/
def inputBytes (b64decode : PyStr → Except String (List UInt8)) (arguments : List (PyStr × PyJson)) :
    Except ArgumentError (List UInt8) :=
  let hasBase64 := (get? arguments (ofString "dataBase64")).isSome
  let hasText := (get? arguments (ofString "text")).isSome
  if hasBase64 = hasText then throw (.type "exactly one of text or dataBase64 is required")
  else if hasBase64 then do
    match b64decode (← requiredString arguments "dataBase64") with
    | .ok data => pure data
    | .error message => throw (.base64 message)
  else do
    let text ← requiredString arguments "text"
    match encode text with
    | some data => pure data
    | none => throw (.unicodeEncode text)

/-- The operation of the manager that a tool calls, with its arguments. -/
inductive ToolOperation
  | capabilities
  | start (command : ToolCommand) (timeoutMs idleTimeoutMs maxOutputBytes : Option ℤ) (untilEnd : Bool)
  | eventPage (sessionId : PyStr) (cursor waitMs limit : ℤ)
  | write (sessionId : PyStr) (data : List UInt8)
  | wait (sessionId : PyStr) (timeoutMs : Option ℤ)
  | cancel (sessionId : PyStr)
  | dispose (sessionId : PyStr)

/-- The arguments of `manager.start`. -/
def startOf (arguments : List (PyStr × PyJson)) (untilEnd : Bool) : Except ArgumentError ToolOperation := do
  pure (.start (← commandSpec arguments) (← optionalInteger arguments "timeoutMs") (← optionalInteger arguments "idleTimeoutMs")
    (← optionalInteger arguments "maxOutputBytes") untilEnd)

/-- `_call_tool` of a tool that is there, up to its operation. -/
def readNamed (b64decode : PyStr → Except String (List UInt8)) (arguments : List (PyStr × PyJson)) :
    String → Except ArgumentError ToolOperation
  | "sharkrail_run" => startOf arguments true
  | "sharkrail_session_start" => startOf arguments false
  | "sharkrail_session_read" => do
    pure (.eventPage (← requiredString arguments "sessionId") (← integer arguments "cursor" 0) (← integer arguments "waitMs" 0)
      (← integer arguments "limit" 100))
  | "sharkrail_session_write" => do
    let data ← inputBytes b64decode arguments
    pure (.write (← requiredString arguments "sessionId") data)
  | "sharkrail_session_wait" => do
    pure (.wait (← requiredString arguments "sessionId") (← optionalInteger arguments "waitTimeoutMs"))
  | "sharkrail_session_cancel" => do pure (.cancel (← requiredString arguments "sessionId"))
  | "sharkrail_session_dispose" => do pure (.dispose (← requiredString arguments "sessionId"))
  | "sharkrail_capabilities" => pure .capabilities
  | name => throw (.unknownTool (ofString name))

/-- `_call_tool`, up to the operation. -/
def readTool (b64decode : PyStr → Except String (List UInt8)) (name : PyStr) (arguments : List (PyStr × PyJson)) :
    Except ArgumentError ToolOperation :=
  match tool? name with
  | some tool => readNamed b64decode arguments tool.name
  | none => throw (.unknownTool name)

end Mcp

end Texts

end SharkRail
