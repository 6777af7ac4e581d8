import SharkRail.Integrations.Protocol

/-!
# The tools

The tools of the Model Context Protocol adapter, with the schemas of their arguments.
-/

namespace SharkRail

namespace Integrations

/-! ## Schemas -/

/-- The schema of an argument, as the definitions of the tools write it. `additional` is the schema of the members that an object has
besides its properties, `none` where it may have none. -/
inductive Schema where
  | object (properties : List (String × Schema)) (required : List String) (additional : Option Schema)
  | array (items : Schema)
  | string (minLength : Nat)
  | integer (minimum : Option Int)
  | boolean (default : Bool)
  | enum (values : List String) (default : String)

mutual

/-- The schema as the definition of a tool shows it. -/
def Schema.toDict : Schema → PyJson
  | .object properties required additional =>
    let members : List (List (PyStr × PyJson)) :=
      [[("type", .str "object")], if properties.isEmpty then [] else [("properties", .obj (Schema.toDicts properties))],
        if required.isEmpty then [] else [("required", .arr (required.map fun key => .str key))],
        [("additionalProperties", match additional with
          | none => .bool false
          | some schema => schema.toDict)]]
    .obj members.flatten
  | .array items => .obj [("type", .str "array"), ("items", items.toDict)]
  | .string minLength => .obj (("type", .str "string") :: if minLength = 0 then [] else [("minLength", .int minLength)])
  | .integer minimum => .obj (("type", .str "integer") :: (minimum.map fun n => (PyStr.ofString "minimum", PyJson.int n)).toList)
  | .boolean default => .obj [("type", .str "boolean"), ("default", .bool default)]
  | .enum values default => .obj [("enum", .arr (values.map fun value => .str value)), ("default", .str default)]

def Schema.toDicts : List (String × Schema) → List (PyStr × PyJson)
  | [] => []
  | (name, schema) :: properties => (name, schema.toDict) :: Schema.toDicts properties

end

/-! ## Tools -/

structure Tool where
  name : String
  title : String
  description : String
  inputSchema : Schema

def commandSchema : Schema :=
  .object
    [("executable", .string 1), ("args", .array (.string 0)), ("cwd", .string 0), ("env", .object [] [] (some (.string 0))),
      ("inheritEnv", .boolean true), ("mode", .enum ["pipe", "pty"] "pipe"), ("timeoutMs", .integer (some 0)),
      ("idleTimeoutMs", .integer (some 1)), ("maxOutputBytes", .integer (some 0))]
    ["executable"] none

def sessionSchema : Schema := .object [("sessionId", .string 1)] ["sessionId"] none

/-- `_tool_definitions`. -/
def toolDefinitions : List Tool :=
  [{ name := "sharkrail_capabilities"
     title := "Inspect SharkRail capabilities"
     description := "Return runtime-probed execution capabilities and degradation."
     inputSchema := .object [] [] none },
   { name := "sharkrail_run"
     title := "Run a command"
     description := "Run direct argv to completion under SharkRail supervision."
     inputSchema := commandSchema },
   { name := "sharkrail_session_start"
     title := "Start a command session"
     description := "Start a persistent pipe or terminal session."
     inputSchema := commandSchema },
   { name := "sharkrail_session_read"
     title := "Read session events"
     description := "Read ordered output and lifecycle events from a cursor."
     inputSchema :=
       .object
         [("sessionId", .string 0), ("cursor", .integer (some 0)), ("waitMs", .integer (some 0)), ("limit", .integer (some 1))]
         ["sessionId"] none },
   { name := "sharkrail_session_write"
     title := "Write session input"
     description := "Write UTF-8 text or Base64 bytes to a session."
     inputSchema := .object [("sessionId", .string 0), ("text", .string 0), ("dataBase64", .string 0)] ["sessionId"] none },
   { name := "sharkrail_session_wait"
     title := "Wait for a session"
     description := "Wait for completion without changing the running command."
     inputSchema := .object [("sessionId", .string 0), ("waitTimeoutMs", .integer (some 0))] ["sessionId"] none },
   { name := "sharkrail_session_cancel"
     title := "Cancel a session"
     description := "Cancel with bounded interrupt-to-kill escalation."
     inputSchema := sessionSchema },
   { name := "sharkrail_session_dispose"
     title := "Dispose a session"
     description := "Release the session and all owned process resources."
     inputSchema := sessionSchema }]

def Tool.toDict (tool : Tool) : PyJson :=
  .obj
    [("name", .str tool.name), ("title", .str tool.title), ("description", .str tool.description),
      ("inputSchema", tool.inputSchema.toDict)]

end Integrations

end SharkRail
