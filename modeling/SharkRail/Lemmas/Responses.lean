import SharkRail.Integrations.Mcp
import SharkRail.Lib.Fallible
import SharkRail.Lib.JsonEncoding

/-!
# What responses carry

A response is written when no string in it has a surrogate. Beside the identifier of its request it carries what the operations of the
manager return or raise, the name of a method or of a tool that is not there, and the place of an argument that a schema refuses. What the
readers of parameters raise has no surrogate.
-/

namespace SharkRail

namespace Integrations

open Fallible PyStr
open PyJson (Clean clean_obj clean_arr clean_str clean_int clean_bool clean_null)
open Texts.Mcp (SchemaError ArgumentError ToolCommand ToolOperation validateToolArguments readTool tool?)

/-- A response is written when no string in it has a surrogate. -/
theorem isSome_writtenLine {F : PyJson.FloatText} {response : PyJson} : (writtenLine F response).isSome = true ↔ Clean response := by
  rw [← PyJson.encode_dumps F false, writtenLine, isSome_encode, isSome_encode, List.forall_mem_append]
  exact and_iff_left (unicode_ofString "\n")

/-! ## Exceptions -/

/-- No string that a response has of an exception has a surrogate. -/
def Raised.Clean : Raised → Prop
  | .rpcError _ message data => Unicode message ∧ ∀ value ∈ data, PyJson.Clean value
  | .sharkRailError error => Unicode error.message ∧ PyJson.Clean (.obj error.native)
  | .keyError _ => True
  | .typeError message | .valueError message | .other message => Unicode message

/-- An operation returned what meets a condition, or raised an exception that has no surrogate. -/
def Carried {α : Type} (clean : α → Prop) : Except Raised α → Prop
  | .ok a => clean a
  | .error e => e.Clean

section

variable {α β : Type} {clean clean' : α → Prop}

/-- What follows an operation is carried if the operation returns. -/
theorem carried_bind {clean : β → Prop} {x : Except Raised α} {f : α → Except Raised β} :
    Carried clean (x >>= f) ↔ Carried (fun a => Carried clean (f a)) x := by
  cases x <;> rfl

/-- A condition may be replaced by an equivalent one. -/
theorem carried_congr {x : Except Raised α} (h : ∀ a, clean a ↔ clean' a) : Carried clean x ↔ Carried clean' x := by
  cases x with
  | ok a => exact h a
  | error e => exact Iff.rfl

/-- An operation whose exceptions have no surrogate is carried as what it returns is. -/
theorem carried_of_onlyRaises {x : Except Raised α} (h : OnlyRaises Raised.Clean x) : Carried clean x ↔ ∀ a, x = .ok a → clean a := by
  cases x with
  | ok a => exact ⟨fun ha _ heq => Except.ok.inj heq ▸ ha, fun ha => ha a rfl⟩
  | error e => exact iff_of_true (h e rfl) nofun

end

/-- The error that reports an exception has the strings of the exception. -/
theorem clean_toDict (error : ExecutionError) : Clean error.toDict ↔ Unicode error.message ∧ Clean (.obj error.native) := by
  unfold ExecutionError.toDict
  rw [clean_obj]
  simp [unicode_ofString, clean_str, clean_bool]

/-! ## Envelopes -/

/-- The envelope of a result has the strings of the identifier and of the result. -/
theorem clean_resultResponse {requestId result : PyJson} : Clean (resultResponse requestId result) ↔ Clean requestId ∧ Clean result := by
  unfold resultResponse
  rw [clean_obj]
  simp [unicode_ofString, clean_str]

/-- The envelope of an error has those of the identifier, the message and the data. -/
theorem clean_errorResponse {requestId : PyJson} {code : Int} {message : PyStr} {data : Option PyJson} :
    Clean (errorResponse requestId code message data) ↔ Clean requestId ∧ Unicode message ∧ ∀ value ∈ data, Clean value := by
  unfold errorResponse
  rw [clean_obj]
  cases data <;> simp [unicode_ofString, clean_str, clean_obj, clean_int]

/-- The envelope of an error is written when neither the identifier nor the exception has a surrogate. -/
theorem JsonRpcRuntime.clean_report {requestId : PyJson} (e : Raised) :
    Clean (errorResponse requestId (report e).1 (report e).2.1 (report e).2.2) ↔ Clean requestId ∧ e.Clean := by
  rw [clean_errorResponse, and_congr_right_iff]
  intro
  have hempty : Clean (.obj []) := clean_obj.2 nofun
  cases e <;> simp [report, Raised.Clean, Raised.text, clean_toDict, unicode_ofString, hempty]

/-- The same of the MCP dispatcher, for an exception that it has a handler for. -/
theorem McpRuntime.clean_report {requestId : PyJson} {e : Raised} {code : Int} {message : PyStr} {data : Option PyJson}
    (h : report e = some (code, message, data)) : Clean (errorResponse requestId code message data) ↔ Clean requestId ∧ e.Clean := by
  rw [clean_errorResponse, and_congr_right_iff]
  intro
  cases e <;> cases h <;> simp [Raised.Clean, Raised.text, clean_toDict, clean_obj, clean_str, unicode_ofString]

/-! ## What the readers of parameters raise -/

/-- An exception of a class that both dispatchers have a handler for, without a surrogate. -/
def Plain (e : Raised) : Prop := (∀ message, e ≠ .other message) ∧ e.Clean

/-- A missing key is named by the program. -/
theorem plain_keyError (key : String) : Plain (.keyError key) := ⟨nofun, trivial⟩

/-- A text of the program has no surrogate. -/
theorem plain_typeError (message : String) : Plain (.typeError message) := ⟨nofun, unicode_ofString message⟩

/-- Neither has that of a bad value. -/
theorem plain_valueError (message : String) : Plain (.valueError message) := ⟨nofun, unicode_ofString message⟩

/-- Nor that of an error without data. -/
theorem plain_rpcError (code : Int) (message : String) : Plain (.rpcError code message none) := ⟨nofun, unicode_ofString message, nofun⟩

/-- A string that is required is read, or refused. -/
theorem plain_requiredStr (params : List (PyStr × PyJson)) (key : String) : OnlyRaises Plain (requiredStr params key) := by
  unfold requiredStr
  split
  · exact onlyRaises_throw (plain_keyError key)
  · split
    · exact onlyRaises_throw (plain_typeError _)
    · exact onlyRaises_pure _
  · exact onlyRaises_throw (plain_typeError _)

/-- An optional integer is read, or refused. -/
theorem plain_optionalInt (params : List (PyStr × PyJson)) (key : String) : OnlyRaises Plain (optionalInt params key) := by
  unfold optionalInt
  split
  · exact onlyRaises_pure _
  · exact onlyRaises_pure _
  · exact onlyRaises_throw (plain_typeError _)

/-- An integer with bounds is read, or refused. -/
theorem plain_boundedInt (params : List (PyStr × PyJson)) (key : String) (default minimum maximum : Option Int) :
    OnlyRaises Plain (boundedInt params key default minimum maximum) := by
  unfold boundedInt
  split
  · split
    · exact onlyRaises_throw (plain_keyError key)
    · exact onlyRaises_pure _
  · split
    · exact onlyRaises_throw (plain_valueError _)
    · split
      · exact onlyRaises_throw (plain_valueError _)
      · exact onlyRaises_pure _
  · exact onlyRaises_throw (plain_typeError _)

/-- An optional one is read, or refused. -/
theorem plain_optionalBoundedInt (params : List (PyStr × PyJson)) (key : String) (minimum maximum : Option Int) :
    OnlyRaises Plain (optionalBoundedInt params key minimum maximum) := by
  unfold optionalBoundedInt
  split
  · exact onlyRaises_pure _
  · exact (plain_boundedInt params key none minimum maximum).bind fun _ => onlyRaises_pure _

/-- A boolean is read, or refused. -/
theorem plain_optionalBool (params : List (PyStr × PyJson)) (key : String) (default : Bool) :
    OnlyRaises Plain (optionalBool params key default) := by
  unfold optionalBool
  split
  · exact onlyRaises_pure _
  · exact onlyRaises_pure _
  · exact onlyRaises_throw (plain_typeError _)

/-- An object is read, or refused. -/
theorem plain_objectOf (params : List (PyStr × PyJson)) (key : String) : OnlyRaises Plain (objectOf params key) := by
  unfold objectOf
  split
  · exact onlyRaises_pure _
  · exact onlyRaises_throw (plain_typeError _)

/-- An array of strings is read, or refused. -/
theorem plain_stringArray (name : String) (value : PyJson) : OnlyRaises Plain (stringArray name value) := by
  unfold stringArray
  split
  · split
    · exact onlyRaises_pure _
    · exact onlyRaises_throw (plain_typeError _)
  · exact onlyRaises_throw (plain_typeError _)

/-- An environment is read, or refused. -/
theorem plain_environment (value : PyJson) : OnlyRaises Plain (environment value) := by
  unfold environment
  split
  · exact onlyRaises_pure _
  · split
    · exact onlyRaises_pure _
    · exact onlyRaises_throw (plain_typeError _)
  · exact onlyRaises_throw (plain_typeError _)

variable (library : Library) (manager : Manager)

/-- A member of an enumeration is read, or refused with its `repr`, which escapes surrogates. -/
theorem plain_enumOf {α : Type} (name : String) (members : List (String × α)) (value : PyJson) :
    OnlyRaises Plain (enumOf library name members value) := by
  unfold enumOf
  split
  · exact onlyRaises_pure _
  · exact onlyRaises_throw (plain_valueError _)

/-- The limits of resources are read, or refused. -/
theorem plain_parseResources (spec : List (PyStr × PyJson)) : OnlyRaises Plain (parseResources spec) :=
  (plain_objectOf spec "resources").bind fun _ => (plain_optionalInt _ _).bind fun _ => (plain_optionalInt _ _).bind fun _ =>
    (plain_optionalInt _ _).bind fun _ => onlyRaises_pure _

/-- A shell command is made, or refused. -/
theorem plain_shellCommand (shell : Shell) (script : PyStr) (target : Target) (wsl : WslOptions) (spec : CommandSpec) :
    OnlyRaises Plain (shellCommand shell script target wsl spec) := by
  unfold shellCommand
  dsimp only
  split
  · exact onlyRaises_throw (plain_valueError _)
  · split <;> first | exact onlyRaises_pure _ | exact onlyRaises_throw (plain_valueError _)

/-- The specification of a command is read, or refused. -/
theorem plain_parseSpec (params : List (PyStr × PyJson)) : OnlyRaises Plain (parseSpec library params) := by
  unfold parseSpec
  dsimp only
  split
  · refine (onlyRaises_pure _).bind fun spec => (plain_stringArray _ _).bind fun argv => (plain_environment _).bind fun env =>
      (plain_enumOf library _ _ _).bind fun target => (plain_objectOf _ _).bind fun wslData => (plain_enumOf library _ _ _).bind fun mode =>
      (plain_parseResources _).bind fun resources => ?_
    split
    · exact (plain_enumOf library _ _ _).bind fun shell => (plain_requiredStr _ _).bind fun script => plain_shellCommand _ _ _ _ _
    · exact (plain_requiredStr _ _).bind fun _ => onlyRaises_pure _
  · exact onlyRaises_throw (plain_typeError _)

/-- Input is read, or refused; a text with a surrogate by a text that escapes it. -/
theorem plain_parseInput (params : List (PyStr × PyJson)) : OnlyRaises Plain (parseInput library params) := by
  unfold parseInput
  split
  · refine (plain_requiredStr _ _).bind fun text => ?_
    unfold decodeBase64
    split
    · exact onlyRaises_pure _
    · exact onlyRaises_throw (plain_valueError _)
  · split
    · refine (plain_requiredStr _ _).bind fun text => ?_
      unfold encodeText
      split
      · exact onlyRaises_pure _
      · exact onlyRaises_throw (plain_valueError _)
    · exact onlyRaises_throw (plain_keyError _)

/-- The arguments of a start are read, or refused. -/
theorem plain_readStart (params : List (PyStr × PyJson)) (requestId : PyJson) : OnlyRaises Plain (readStart library params requestId) := by
  refine OnlyRaises.bind ?_ fun traceId => (plain_parseSpec library params).bind fun _ => (plain_optionalInt _ _).bind fun _ =>
    (plain_optionalInt _ _).bind fun _ => (plain_optionalInt _ _).bind fun _ => onlyRaises_pure _
  unfold traceIdOf
  split
  · exact onlyRaises_pure _
  · split
    · exact onlyRaises_throw (plain_typeError _)
    · exact onlyRaises_pure _
  · exact onlyRaises_throw (plain_typeError _)

/-- The arguments of a cancellation are read, or refused. -/
theorem plain_readCancellation (params : List (PyStr × PyJson)) : OnlyRaises Plain (readCancellation params) :=
  (plain_boundedInt _ _ _ _ _).bind fun _ => (plain_boundedInt _ _ _ _ _).bind fun _ => (plain_boundedInt _ _ _ _ _).bind fun _ =>
    (plain_optionalBool _ _ _).bind fun _ => onlyRaises_pure _

/-! ## The methods -/

/-- No string that a response has of a session has a surrogate. -/
def StartedSession.Clean (session : StartedSession) : Prop :=
  Unicode session.id ∧ ∀ value ∈ [session.state, session.pid, session.mode, session.processTree, session.degradedReasons, session.traceId,
    session.requestId, session.createdAt, session.firstEventSeq, session.nextEventSeq], PyJson.Clean value

/-- What the operations of a method return or raise has no surrogate where the response has it. -/
def Carries : RpcCall → Prop
  | .hello => True
  | .capabilities => Carried (fun capability => Clean capability.dict) manager.collect
  | .schema => Carried Clean manager.protocolSchema
  | .stats =>
    Carried (fun stats => (∀ m ∈ stats, Unicode m.1 ∧ (m.1 ≠ ofString "rpc" → Clean m.2)) ∧ Clean manager.averageDurationMs) manager.stats
  | .health =>
    Carried (fun capability => Carried (fun active => (∀ reason ∈ capability.degradedReasons, Clean reason) ∧ Clean active)
      manager.activeSessions) manager.collect
  | .start request => Carried StartedSession.Clean (manager.start request)
  | .list => Carried Clean manager.listSessions
  | .inspect sessionId => Carried Clean (manager.inspect sessionId)
  | .get sessionId => Carried StartedSession.Clean (manager.get sessionId)
  | .events sessionId cursor waitMs limit =>
    Carried (fun page => ∀ event ∈ page.events, Clean event) (manager.eventPage sessionId cursor waitMs limit)
  | .write sessionId data => Carried (fun _ => True) (manager.write sessionId data)
  | .closeStdin sessionId => Carried (fun _ => True) (manager.closeStdin sessionId)
  | .resize sessionId cols rows => Carried (fun _ => True) (manager.resize sessionId cols rows)
  | .interrupt sessionId => Carried (fun _ => True) (manager.interrupt sessionId)
  | .cancel sessionId policy => Carried Clean (manager.cancel sessionId policy)
  | .wait sessionId timeoutMs => Carried (fun result => ∀ r ∈ result, Clean r.dict) (manager.wait sessionId timeoutMs)
  | .dispose sessionId => Carried (fun _ => True) (manager.dispose sessionId)

/-- The dictionary of a session has the strings of its fields. -/
theorem clean_sessionDict (session : StartedSession) : Clean (sessionDict session) ↔ session.Clean := by
  unfold sessionDict StartedSession.Clean
  rw [clean_obj]
  simp [unicode_ofString, clean_str]

/-- A member that is set has its value, and the others keep theirs. -/
theorem clean_set {members : List (PyStr × PyJson)} {key : String} {value : PyJson} :
    Clean (.obj (PyJson.set members (ofString key) value)) ↔ (∀ m ∈ members, Unicode m.1 ∧ (m.1 ≠ ofString key → Clean m.2)) ∧
      Clean value := by
  have hkey := unicode_ofString key
  rw [clean_obj]
  unfold PyJson.set
  split
  · rename_i hany
    obtain ⟨found, hfound, hname⟩ := List.any_eq_true.1 hany
    have hname := of_decide_eq_true hname
    rw [List.forall_mem_map]
    constructor
    · refine fun h => ⟨fun m hm => ?_, ?_⟩
      · have hm' := h m hm
        split at hm'
        · rename_i heq
          exact ⟨heq ▸ hkey, fun hne => absurd heq hne⟩
        · exact ⟨hm'.1, fun _ => hm'.2⟩
      · have hfound' := h found hfound
        rw [if_pos hname] at hfound'
        exact hfound'.2
    · rintro ⟨hmembers, hvalue⟩ m hm
      split
      · exact ⟨hkey, hvalue⟩
      · rename_i hne
        exact ⟨(hmembers m hm).1, (hmembers m hm).2 hne⟩
  · rename_i hnone
    have hne : ∀ m ∈ members, m.1 ≠ ofString key := fun m hm heq => hnone (List.any_eq_true.2 ⟨m, hm, decide_eq_true heq⟩)
    rw [List.forall_mem_append, List.forall_mem_singleton]
    refine and_congr ⟨fun h m hm => ⟨(h m hm).1, fun _ => (h m hm).2⟩, fun h m hm => ⟨(h m hm).1, (h m hm).2 (hne m hm)⟩⟩ ?_
    exact and_iff_right hkey

/-- A method carries what its operations do. -/
theorem carried_perform (runtime : JsonRpcRuntime) (call : RpcCall) :
    Carried Clean (runtime.perform library manager call) ↔ Carries manager call := by
  cases call with
  | hello =>
    refine iff_of_true ?_ trivial
    change Clean (.obj _)
    rw [clean_obj]
    simp [unicode_ofString, clean_str]
  | capabilities => exact carried_bind
  | schema | inspect => exact Iff.rfl
  | stats =>
    refine carried_bind.trans (carried_congr fun stats => ?_)
    change Clean (.obj _) ↔ _
    rw [clean_set, clean_obj]
    simp [unicode_ofString, clean_int]
  | health =>
    refine carried_bind.trans (carried_congr fun capability => carried_bind.trans (carried_congr fun active => ?_))
    change Clean (.obj _) ↔ _
    rw [clean_obj]
    simp [unicode_ofString, clean_str, clean_bool, clean_arr]
  | start | get => exact carried_bind.trans (carried_congr clean_sessionDict)
  | list | cancel =>
    refine carried_bind.trans (carried_congr fun value => ?_)
    change Clean (.obj _) ↔ _
    rw [clean_obj]
    simp [unicode_ofString]
  | events =>
    refine carried_bind.trans (carried_congr fun page => ?_)
    change Clean (.obj _) ↔ _
    rw [clean_obj]
    simp [unicode_ofString, clean_arr, clean_int, clean_bool]
  | write | closeStdin | resize | interrupt | dispose =>
    refine carried_bind.trans (carried_congr fun _ => ?_)
    change Clean (.obj _) ↔ _
    rw [clean_obj]
    simp [unicode_ofString, clean_bool]
  | wait =>
    refine carried_bind.trans (carried_congr fun result => ?_)
    cases result with
    | none => exact iff_of_true clean_null nofun
    | some result => exact ⟨fun h r hr => Option.some.inj hr ▸ h, fun h => h result rfl⟩

/-- Reading a request raises an exception without a surrogate, if the name of its method has none. -/
theorem plain_readMethod (maxPageSize : Int) {method : PyStr} (hmethod : Unicode method) (params : List (PyStr × PyJson))
    (requestId : PyJson) : OnlyRaises Plain (readMethod library maxPageSize method params requestId) := by
  have hsession := plain_requiredStr params "session_id"
  unfold readMethod
  refine .ite (onlyRaises_pure _) <| .ite (onlyRaises_pure _) <| .ite (onlyRaises_pure _) <| .ite (onlyRaises_pure _) <|
    .ite (onlyRaises_pure _) ?_
  refine .ite ((plain_readStart library params requestId).bind fun _ => onlyRaises_pure _) <| .ite (onlyRaises_pure _) ?_
  refine .ite (hsession.bind fun _ => onlyRaises_pure _) <| .ite (hsession.bind fun _ => onlyRaises_pure _) ?_
  refine .ite (hsession.bind fun _ => (plain_boundedInt _ _ _ _ _).bind fun _ => (plain_boundedInt _ _ _ _ _).bind fun _ =>
    (plain_boundedInt _ _ _ _ _).bind fun _ => onlyRaises_pure _) ?_
  refine .ite (hsession.bind fun _ => (plain_parseInput library params).bind fun _ => onlyRaises_pure _) <|
    .ite (hsession.bind fun _ => onlyRaises_pure _) ?_
  refine .ite (hsession.bind fun _ => (plain_boundedInt _ _ _ _ _).bind fun _ => (plain_boundedInt _ _ _ _ _).bind fun _ =>
    onlyRaises_pure _) <| .ite (hsession.bind fun _ => onlyRaises_pure _) ?_
  refine .ite (hsession.bind fun _ => (plain_readCancellation params).bind fun _ => onlyRaises_pure _) ?_
  refine .ite (hsession.bind fun _ => (plain_optionalBoundedInt _ _ _ _).bind fun _ => onlyRaises_pure _) <|
    .ite (hsession.bind fun _ => onlyRaises_pure _) ?_
  -- the method is not there
  refine onlyRaises_throw ⟨nofun, unicode_ofString _, ?_⟩
  rintro value ⟨⟩
  rw [clean_obj, List.forall_mem_singleton]
  exact ⟨unicode_ofString _, clean_str.2 hmethod⟩

/-- What reading a request is followed by is carried, and the name of the method if it is not there. -/
theorem carried_readMethod {clean : RpcCall → Prop} (maxPageSize : Int) (method : PyStr) (params : List (PyStr × PyJson))
    (requestId : PyJson) :
    Carried clean (readMethod library maxPageSize method params requestId) ↔
      Unicode method ∧ ∀ call, readMethod library maxPageSize method params requestId = .ok call → clean call := by
  by_cases hmethod : Unicode method
  · have hclean : OnlyRaises Raised.Clean (readMethod library maxPageSize method params requestId) := fun e he =>
      (plain_readMethod library maxPageSize hmethod params requestId e he).2
    rw [carried_of_onlyRaises hclean, and_iff_right hmethod]
  · have hne : ∀ s : String, method ≠ ofString s := fun s heq => hmethod (heq ▸ unicode_ofString s)
    refine iff_of_false ?_ fun h => hmethod h.1
    unfold readMethod
    simp only [hne, if_false, or_self]
    rintro ⟨-, hdata⟩
    have hmember := clean_obj.1 (hdata _ rfl) _ List.mem_cons_self
    exact hmethod (clean_str.1 hmember.2)

/-! ## What reading the arguments of a tool raises -/

/-- No string of the place that a schema refuses has a surrogate, nor the name of a tool that is not there. -/
def SchemaClean : SchemaError → Prop
  | .unknownTool name => Unicode name
  | .missing path key | .notAllowed path key => Unicode path ∧ Unicode key
  | .wrongType path _ | .inputForms path | .tooShort path | .belowMinimum path | .notListed path _ => Unicode path

/-- The text of a refusal has the strings of its place. -/
theorem clean_schemaError (e : SchemaError) : (schemaError library e).Clean ↔ SchemaClean e := by
  cases e with
  | wrongType path type =>
    cases type <;> simp [schemaError, SchemaError.message, Raised.Clean, SchemaClean, unicode_append, unicode_ofString]
  | _ =>
    simp [schemaError, SchemaError.message, Raised.Clean, SchemaClean, Texts.Mcp.memberPath, unicode_append, unicode_ofString]

/-- Both dispatchers have a handler for the refusal of a schema. -/
theorem handled_schemaError (e : SchemaError) : ∀ message, schemaError library e ≠ .other message := by
  cases e <;> exact nofun

/-- A refusal does not name a tool that is not there by a name with a surrogate. -/
def Known (e : ArgumentError) : Prop := ∀ name, e = .unknownTool name → Unicode name

/-- The refusal of an argument names no surrogate, unless it names an unknown tool. -/
theorem plain_argumentError {e : ArgumentError} (h : Known e) : Plain (argumentError library e) := by
  cases e with
  | unknownTool name =>
    refine ⟨nofun, unicode_ofString _, ?_⟩
    rintro value ⟨⟩
    rw [clean_obj, List.forall_mem_singleton]
    exact ⟨unicode_ofString _, clean_str.2 (h name rfl)⟩
  | key key => exact plain_keyError key
  | type message => exact plain_typeError message
  | mode value => exact plain_valueError _
  | base64 message => exact plain_valueError message
  | unicodeEncode text => exact plain_valueError _

/-- A string that is required is read, or refused for itself. -/
theorem known_requiredString (arguments : List (PyStr × PyJson)) (key : String) :
    OnlyRaises Known (Texts.Mcp.requiredString arguments key) := by
  unfold Texts.Mcp.requiredString
  split
  · exact onlyRaises_throw nofun
  · exact onlyRaises_pure _
  · exact onlyRaises_throw nofun

/-- An optional integer is read, or refused for itself. -/
theorem known_optionalInteger (arguments : List (PyStr × PyJson)) (key : String) :
    OnlyRaises Known (Texts.Mcp.optionalInteger arguments key) := by
  unfold Texts.Mcp.optionalInteger
  split
  · exact onlyRaises_pure _
  · exact onlyRaises_pure _
  · exact onlyRaises_throw nofun

/-- An integer with a default is read, or refused for itself. -/
theorem known_integer (arguments : List (PyStr × PyJson)) (key : String) (default : Int) :
    OnlyRaises Known (Texts.Mcp.integer arguments key default) := by
  unfold Texts.Mcp.integer
  split
  · exact onlyRaises_pure _
  · exact onlyRaises_throw nofun

/-- A command is read, or refused for its members. -/
theorem known_commandSpec (arguments : List (PyStr × PyJson)) : OnlyRaises Known (Texts.Mcp.commandSpec arguments) := by
  unfold Texts.Mcp.commandSpec Texts.Mcp.argvOf Texts.Mcp.envOf Texts.Mcp.inheritEnvOf Texts.Mcp.cwdOf Texts.Mcp.modeOf
  refine OnlyRaises.bind ?_ fun argv => OnlyRaises.bind ?_ fun env => OnlyRaises.bind ?_ fun inheritEnv => OnlyRaises.bind ?_ fun cwd =>
    (known_requiredString _ _).bind fun executable => OnlyRaises.bind ?_ fun mode => onlyRaises_pure _
  all_goals
    split
    all_goals first | exact onlyRaises_pure _ | exact onlyRaises_throw nofun | skip
  all_goals exact .ite (onlyRaises_pure _) (onlyRaises_throw nofun)

/-- The arguments of a start are read, or refused for themselves. -/
theorem known_startOf (arguments : List (PyStr × PyJson)) (untilEnd : Bool) : OnlyRaises Known (Texts.Mcp.startOf arguments untilEnd) :=
  (known_commandSpec arguments).bind fun _ => (known_optionalInteger _ _).bind fun _ => (known_optionalInteger _ _).bind fun _ =>
    (known_optionalInteger _ _).bind fun _ => onlyRaises_pure _

/-- Input is read, or refused for itself. -/
theorem known_inputBytes (arguments : List (PyStr × PyJson)) : OnlyRaises Known (Texts.Mcp.inputBytes library.b64decode arguments) := by
  unfold Texts.Mcp.inputBytes
  refine .ite (onlyRaises_throw nofun) (.ite ((known_requiredString _ _).bind fun text => ?_)
    ((known_requiredString _ _).bind fun text => ?_))
  all_goals
    split
    · exact onlyRaises_pure _
    · exact onlyRaises_throw nofun

/-- The arguments of a tool that is there are read, or refused for themselves. -/
theorem known_readTool {name : PyStr} (hname : (tool? name).isSome = true) (arguments : List (PyStr × PyJson)) :
    OnlyRaises Known (readTool library.b64decode name arguments) := by
  unfold readTool
  split
  · unfold Texts.Mcp.readNamed
    split
    · exact known_startOf arguments true
    · exact known_startOf arguments false
    · exact (known_requiredString _ _).bind fun _ => (known_integer _ _ _).bind fun _ => (known_integer _ _ _).bind fun _ =>
        (known_integer _ _ _).bind fun _ => onlyRaises_pure _
    · exact (known_inputBytes library arguments).bind fun _ => (known_requiredString _ _).bind fun _ => onlyRaises_pure _
    · exact (known_requiredString _ _).bind fun _ => (known_optionalInteger _ _).bind fun _ => onlyRaises_pure _
    · exact (known_requiredString _ _).bind fun _ => onlyRaises_pure _
    · exact (known_requiredString _ _).bind fun _ => onlyRaises_pure _
    · exact onlyRaises_pure _
    · refine onlyRaises_throw fun name heq => ?_
      cases heq
      exact unicode_ofString _
  · rename_i hnone
    rw [hnone] at hname
    cases hname

/-- Arguments that meet the schema of their tool are read, or refused with an exception that both dispatchers have a handler for. -/
theorem plain_readTool {name : PyStr} {arguments : List (PyStr × PyJson)} (hvalid : validateToolArguments name arguments = .ok ()) :
    OnlyRaises Plain ((readTool library.b64decode name arguments).mapError (argumentError library)) := by
  have hname : (tool? name).isSome = true := by
    unfold validateToolArguments at hvalid
    split at hvalid
    · rename_i htool
      rw [htool]
      rfl
    · cases hvalid
  exact OnlyRaises.mapError fun e he => plain_argumentError library (known_readTool library hname arguments e he)

/-! ## The tools -/

/-- What the operations of a tool return or raise has no surrogate where the result has it. Of a command that is run to its end the
result has what its start, its disposal or its wait does, the first of them that raises or the last. -/
def CarriesTool : ToolOperation → Prop
  | .capabilities => Carried (fun capability => Clean capability.dict) manager.collect
  | .start command timeoutMs idleTimeoutMs maxOutputBytes true =>
    Carried (fun session => Carried (fun _ => Carried (fun result => ∀ r ∈ result, Clean r.dict) (manager.wait session.id none))
      (manager.dispose session.id)) (manager.start (toolRequest command timeoutMs idleTimeoutMs maxOutputBytes))
  | .start command timeoutMs idleTimeoutMs maxOutputBytes false =>
    Carried (fun session => Unicode session.id ∧
      ∀ value ∈ [session.pid, session.mode, session.processTree, session.nextEventSeq], Clean value)
      (manager.start (toolRequest command timeoutMs idleTimeoutMs maxOutputBytes))
  | .eventPage sessionId cursor waitMs limit =>
    Carried (fun page => ∀ event ∈ page.events, Clean event) (manager.eventPage sessionId cursor waitMs limit)
  | .write sessionId data => Carried (fun _ => True) (manager.write sessionId data)
  | .wait sessionId timeoutMs => Carried (fun result => ∀ r ∈ result, Clean r.dict) (manager.wait sessionId timeoutMs)
  | .cancel sessionId => Carried Clean (manager.cancel sessionId {})
  | .dispose sessionId => Carried (fun _ => True) (manager.dispose sessionId)

/-- The result of a tool has its value twice, as a text and as it is. -/
theorem clean_toolResult {value : PyJson} {isError : Bool} : Clean (toolResult library value isError) ↔ Clean value := by
  have htext : Unicode (PyJson.dumps library.float ⟨false, false⟩ value) ↔ Clean value :=
    isSome_encode.symm.trans (PyJson.encode_dumps library.float false)
  unfold toolResult
  rw [clean_obj]
  simp [unicode_ofString, clean_str, clean_bool, clean_arr, clean_obj, htext]

/-- A command that is run to its end carries what its operations do. -/
theorem carried_runToEnd (request : StartRequest) :
    Carried (fun result => Clean result.dict) (runToEnd manager request) ↔
      Carried (fun session => Carried (fun _ => Carried (fun result => ∀ r ∈ result, Clean r.dict) (manager.wait session.id none))
        (manager.dispose session.id)) (manager.start request) := by
  refine carried_bind.trans (carried_congr fun session => carried_bind.trans (carried_congr fun _ => ?_))
  rcases manager.wait session.id none with e | result
  · exact Iff.rfl
  · cases result with
    | none => exact iff_of_true (unicode_ofString _) nofun
    | some result => exact ⟨fun h r hr => Option.some.inj hr ▸ h, fun h => h result rfl⟩

/-- A tool carries what its operations do. -/
theorem carried_performTool (operation : ToolOperation) :
    Carried Clean (performTool library manager operation) ↔ CarriesTool manager operation := by
  cases operation with
  | capabilities =>
    refine carried_bind.trans (carried_congr fun capability => ?_)
    exact clean_toolResult library
  | start command timeoutMs idleTimeoutMs maxOutputBytes untilEnd =>
    cases untilEnd with
    | true =>
      refine Iff.trans (carried_bind.trans (carried_congr fun result => ?_)) (carried_runToEnd manager _)
      exact clean_toolResult library
    | false =>
      refine carried_bind.trans (carried_congr fun session => (clean_toolResult library).trans ?_)
      rw [clean_obj]
      simp [unicode_ofString, clean_str]
  | eventPage =>
    refine carried_bind.trans (carried_congr fun page => (clean_toolResult library).trans ?_)
    rw [clean_obj]
    simp [unicode_ofString, clean_arr, clean_int, clean_bool]
  | write =>
    refine carried_bind.trans (carried_congr fun _ => (clean_toolResult library).trans ?_)
    rw [clean_obj]
    simp [unicode_ofString, clean_int]
  | dispose =>
    refine carried_bind.trans (carried_congr fun _ => (clean_toolResult library).trans ?_)
    rw [clean_obj]
    simp [unicode_ofString, clean_bool]
  | cancel =>
    refine carried_bind.trans (carried_congr fun steps => (clean_toolResult library).trans ?_)
    rw [clean_obj]
    simp [unicode_ofString]
  | wait =>
    refine carried_bind.trans (carried_congr fun result => (clean_toolResult library).trans ?_)
    rw [clean_obj]
    cases result <;> simp [unicode_ofString, clean_null]

/-- The result of a tool that raises has the strings of the exception. -/
theorem carried_toolErrors (x : Except Raised PyJson) : Carried Clean (McpRuntime.toolErrors library x) ↔ Carried Clean x := by
  have hinvalid : ∀ e : Raised, Carried Clean (McpRuntime.toolErrors.invalid library e) ↔ Unicode e.text := fun e => by
    refine (clean_toolResult library).trans ?_
    rw [clean_obj]
    simp [unicode_ofString, clean_obj, clean_str]
  cases x with
  | ok result => exact Iff.rfl
  | error e =>
    cases e with
    | sharkRailError error =>
      refine (clean_toolResult library).trans ?_
      rw [clean_obj, List.forall_mem_singleton, clean_toDict, and_iff_right (unicode_ofString _)]
      rfl
    | keyError key => exact (hinvalid _).trans (iff_of_true (unicode_ofString _) trivial)
    | typeError message => exact hinvalid _
    | valueError message => exact hinvalid _
    | rpcError | other => exact Iff.rfl

/-- What the result of `tools/call` has beside the identifier has no surrogate: the place that the schema of the tool refuses, or what the
operations of the tool return or raise. -/
def CarriesCall (params : List (PyStr × PyJson)) : Prop :=
  ∀ name, requiredStr params "name" = .ok name → ∀ arguments, getD params "arguments" (.obj []) = .obj arguments →
    (∀ e, validateToolArguments name arguments = .error e → SchemaClean e) ∧
      (validateToolArguments name arguments = .ok () →
        ∀ operation, readTool library.b64decode name arguments = .ok operation → CarriesTool manager operation)

/-- A call of a tool carries what `CarriesCall` says. -/
theorem carried_callTool (params : List (PyStr × PyJson)) :
    Carried Clean (McpRuntime.callTool library manager params) ↔ CarriesCall library manager params := by
  unfold McpRuntime.callTool CarriesCall
  rw [carried_bind, carried_of_onlyRaises fun e he => (plain_requiredStr params "name" e he).2]
  cases harguments : getD params "arguments" (.obj []) with
  | obj arguments =>
    simp only [carried_toolErrors, PyJson.obj.injEq, forall_eq']
    refine forall₂_congr fun name hname => ?_
    cases hvalid : validateToolArguments name arguments with
    | error e =>
      refine Iff.trans (b := SchemaClean e) (clean_schemaError library e) ?_
      simp
    | ok u =>
      have hread := plain_readTool library hvalid
      refine Iff.trans (carried_bind (x := (readTool library.b64decode name arguments).mapError (argumentError library))) ?_
      rw [carried_of_onlyRaises fun e he => (hread e he).2]
      simp only [carried_performTool]
      cases readTool library.b64decode name arguments <;> simp [Except.mapError]
  | _ => exact iff_of_true (fun name hname => unicode_ofString _) nofun

/-! ## Requests -/

/-- A dispatcher calls a method for the request. -/
structure Invokes (request : List (PyStr × PyJson)) (method : PyStr) (params : List (PyStr × PyJson)) : Prop where
  jsonrpc : getD request "jsonrpc" .null = .str "2.0"
  method : getD request "method" .null = .str method
  id : isRequestId (getD request "id" .null) = true
  params : getD request "params" (.obj []) = .obj params

/-- What the response of the JSON-RPC dispatcher has beside the identifier has no surrogate: the name of a method that is not there, or what
the operations of the method return or raise. -/
def RpcSendable : PyJson → Prop
  | .obj request => ∀ method params, Invokes request method params →
    Unicode method ∧ ∀ call, readMethod library manager.maxEventPageSize method params (getD request "id" .null) = .ok call →
      Carries manager call
  | _ => True

/-- What the response of the MCP dispatcher has beside the identifier has no surrogate. -/
def McpSendable (runtime : McpRuntime) : PyJson → Prop
  | .obj request => ∀ method params, Invokes request method params → runtime.initialized = true →
    Unicode method ∧ (method = ofString "tools/call" → CarriesCall library manager params)
  | _ => True

/-- An identifier that is not refused is one. -/
theorem isRequestId_of_not_refused {request : List (PyStr × PyJson)}
    (h : ¬((PyJson.get? request "id").isSome = true ∧ (!isRequestId (getD request "id" .null)) = true)) :
    isRequestId (getD request "id" .null) = true := by
  by_contra hid
  refine h ⟨?_, by simpa using hid⟩
  rw [Option.isSome_iff_ne_none]
  intro hnone
  simp [getD, hnone, isRequestId] at hid

/-- An error of the protocol without data has no surrogate. -/
theorem carried_refused {code : Int} (message : String) : Carried Clean (throw (.rpcError code message none) : Except Raised PyJson) :=
  (plain_rpcError code message).2

/-- How the JSON-RPC dispatcher ends a request has no surrogate exactly when the request is sendable. -/
theorem JsonRpcRuntime.carried_answer (runtime : JsonRpcRuntime) (request : PyJson) :
    Carried Clean (runtime.answer library manager request).2 ↔ RpcSendable library manager request := by
  cases request with
  | obj request =>
    unfold JsonRpcRuntime.answer RpcSendable
    dsimp only
    split
    · rename_i hrefused
      refine iff_of_true (carried_refused _) fun method params hinvokes => ?_
      rw [hinvokes.id] at hrefused
      exact absurd hrefused.2 Bool.false_ne_true
    · rename_i hvalid
      have hid := isRequestId_of_not_refused hvalid
      split
      · rename_i method hjsonrpc hmethod
        split
        · rename_i params hparams
          unfold JsonRpcRuntime.call
          rw [carried_bind]
          simp only [carried_perform]
          rw [carried_readMethod]
          constructor
          · intro h method' params' hinvokes
            cases hmethod.symm.trans hinvokes.method
            cases hparams.symm.trans hinvokes.params
            exact h
          · exact fun h => h method params ⟨of_decide_eq_true hjsonrpc, hmethod, hid, hparams⟩
        · rename_i hparams
          exact iff_of_true (carried_refused _) fun method' params hinvokes => absurd hinvokes.params (hparams params)
      · rename_i hno
        refine iff_of_true (carried_refused _) fun method params hinvokes => ?_
        exact absurd hinvokes.method (hno method (decide_eq_true hinvokes.jsonrpc))
  | _ => exact iff_of_true (carried_refused _) trivial

mutual

/-- A schema has no surrogate: its texts are those of the program. -/
theorem Schema.clean_toDict : (schema : Schema) → Clean schema.toDict
  | .object properties required additional => by
    have hproperties := Schema.clean_toDicts properties
    have hadditional : Clean (match additional with
        | none => PyJson.bool false
        | some schema => schema.toDict) := by
      cases additional with
      | none => exact clean_bool false
      | some schema => exact Schema.clean_toDict schema
    unfold Schema.toDict
    rw [clean_obj]
    simp only [List.flatten_cons, List.flatten_nil, List.append_nil, List.mem_append, List.mem_singleton]
    rintro m (rfl | hm | hm | rfl)
    · exact ⟨unicode_ofString _, clean_str.2 (unicode_ofString _)⟩
    · split at hm
      · cases hm
      · obtain rfl := List.mem_singleton.1 hm
        exact ⟨unicode_ofString _, clean_obj.2 hproperties⟩
    · split at hm
      · cases hm
      · obtain rfl := List.mem_singleton.1 hm
        exact ⟨unicode_ofString _, clean_arr.2 (by simp [clean_str, unicode_ofString])⟩
    · exact ⟨unicode_ofString _, hadditional⟩
  | .array items => by
    have hitems := Schema.clean_toDict items
    simp [Schema.toDict, clean_obj, clean_str, unicode_ofString, hitems]
  | .string minLength => by
    rw [Schema.toDict]
    split <;> simp [clean_obj, clean_str, clean_int, unicode_ofString]
  | .integer minimum => by cases minimum <;> simp [Schema.toDict, clean_obj, clean_str, clean_int, unicode_ofString]
  | .boolean default => by simp [Schema.toDict, clean_obj, clean_str, clean_bool, unicode_ofString]
  | .enum values default => by simp [Schema.toDict, clean_obj, clean_arr, clean_str, unicode_ofString]

/-- The properties of a schema have no surrogate. -/
theorem Schema.clean_toDicts : (properties : List (String × Schema)) → ∀ m ∈ Schema.toDicts properties, Unicode m.1 ∧ Clean m.2
  | [] => nofun
  | (name, schema) :: properties => by
    have hschema := Schema.clean_toDict schema
    have hrest := Schema.clean_toDicts properties
    rw [Schema.toDicts, List.forall_mem_cons]
    exact ⟨⟨unicode_ofString name, hschema⟩, hrest⟩

end

/-- The definitions of the tools have no surrogate. -/
theorem clean_toolDefinitions : Clean (.obj [("tools", .arr (toolDefinitions.map Tool.toDict))]) := by
  have htool : ∀ tool : Tool, Clean tool.toDict := fun tool => by
    simp [Tool.toDict, clean_obj, clean_str, unicode_ofString, Schema.clean_toDict]
  rw [clean_obj, List.forall_mem_singleton, clean_arr, List.forall_mem_map]
  exact ⟨unicode_ofString _, fun tool _ => htool tool⟩

/-- A method of the MCP dispatcher: another one than `tools/call` carries nothing but its name, if it is not there. -/
theorem McpRuntime.carried_call (runtime : McpRuntime) (method : PyStr) (params : List (PyStr × PyJson)) :
    Carried Clean (runtime.call library manager method params).2 ↔
      (runtime.initialized = true → Unicode method ∧ (method = ofString "tools/call" → CarriesCall library manager params)) := by
  have hother : ∀ {name : String}, name ≠ "tools/call" → method = ofString name →
      (runtime.initialized = true → Unicode method ∧ (method = ofString "tools/call" → CarriesCall library manager params)) := by
    rintro name hname rfl -
    exact ⟨unicode_ofString name, fun heq => absurd (ofString_injective heq) hname⟩
  unfold McpRuntime.call
  split
  · rename_i hmethod
    refine iff_of_true ?_ (hother (by decide) hmethod)
    split
    · exact unicode_ofString _
    · split
      · exact unicode_ofString _
      · split
        · exact unicode_ofString _
        · change Clean (serverInfo library)
          unfold serverInfo
          rw [clean_obj]
          simp [unicode_ofString, clean_str, clean_obj, clean_bool]
  · split
    · rename_i hmethod
      exact iff_of_true (clean_obj.2 nofun) (hother (by decide) hmethod)
    · split
      · rename_i hmethod
        refine iff_of_true ?_ (hother (by decide) hmethod)
        split
        · exact carried_refused _
        · exact clean_null
      · split
        · rename_i hinitialized
          refine iff_of_true (carried_refused _) fun h => ?_
          rw [h] at hinitialized
          cases hinitialized
        · rename_i hinitialized
          have hinitialized : runtime.initialized = true := by simpa using hinitialized
          split
          · rename_i hmethod
            exact iff_of_true clean_toolDefinitions (hother (by decide) hmethod)
          · split
            · rename_i hmethod
              refine (carried_callTool library manager params).trans ⟨fun h _ => ⟨hmethod ▸ unicode_ofString _, fun _ => h⟩, fun h => ?_⟩
              exact (h hinitialized).2 hmethod
            · rename_i hmethod
              constructor
              · rintro ⟨-, hdata⟩ -
                have hmember := clean_obj.1 (hdata _ rfl) _ List.mem_cons_self
                exact ⟨clean_str.1 hmember.2, fun heq => absurd heq hmethod⟩
              · intro h
                refine ⟨unicode_ofString _, ?_⟩
                rintro value ⟨⟩
                rw [clean_obj, List.forall_mem_singleton]
                exact ⟨unicode_ofString _, clean_str.2 (h hinitialized).1⟩

/-- How the MCP dispatcher ends a request has no surrogate exactly when the request is sendable. -/
theorem McpRuntime.carried_answer (runtime : McpRuntime) (request : PyJson) :
    Carried Clean (runtime.answer library manager request).2.2 ↔ McpSendable library manager runtime request := by
  cases request with
  | obj request =>
    unfold McpRuntime.answer McpSendable
    dsimp only
    split
    · rename_i method hjsonrpc hmethod
      split
      · rename_i hrefused
        refine iff_of_true (carried_refused _) fun method params hinvokes => ?_
        rw [hinvokes.id] at hrefused
        exact absurd hrefused.2 Bool.false_ne_true
      · rename_i hvalid
        have hid := isRequestId_of_not_refused hvalid
        split
        · rename_i params hparams
          refine (McpRuntime.carried_call library manager runtime method params).trans ?_
          constructor
          · intro h method' params' hinvokes
            cases hmethod.symm.trans hinvokes.method
            cases hparams.symm.trans hinvokes.params
            exact h
          · exact fun h => h method params ⟨of_decide_eq_true hjsonrpc, hmethod, hid, hparams⟩
        · rename_i hparams
          exact iff_of_true (carried_refused _) fun method' params hinvokes => absurd hinvokes.params (hparams params)
    · rename_i hno
      refine iff_of_true (carried_refused _) fun method params hinvokes => ?_
      exact absurd hinvokes.method (hno method (decide_eq_true hinvokes.jsonrpc))
  | _ => exact iff_of_true (carried_refused _) trivial

end Integrations

end SharkRail
