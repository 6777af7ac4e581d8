import SharkRail.Service.Output
import SharkRail.Service.Settings

/-!
# The authorization of requests

`do_GET` and `do_POST` of `JobRequestHandler`, up to the request they serve. A handler serves the requests of one connection one after
the other and keeps the tenant of the last one it authorized.
-/

namespace SharkRail

namespace Service

/-- The headers that the authorization reads, `none` where a header is missing. -/
structure RequestHeaders where
  authorization : Option String := none
  tenant : Option String := none

structure Response where
  status : Nat
  error : String
  headers : List (String × String) := []
  deriving DecidableEq

/-- `JobRequestHandler`, by `_tenant_id` and the refusals it sent. -/
structure JobRequestHandler where
  tenantId : Option String := none
  refusals : List Response := []
  deriving DecidableEq

/-- `str.encode("latin-1")` and `str.encode("ascii")`, by the number of characters they encode; `none` is a `UnicodeEncodeError`. -/
def encodeBelow (bound : Nat) (text : String) : Option Bytes :=
  if text.toList.all fun c => c.toNat < bound then some (text.toList.map fun c => UInt8.ofNat c.toNat) else none

/-- `_bearer_matches`. -/
def bearerMatches (supplied token : String) : Bool :=
  match encodeBelow 256 supplied, encodeBelow 128 ("Bearer " ++ token) with
  | some suppliedBytes, some expectedBytes => suppliedBytes = expectedBytes
  | _, _ => false

namespace JobRequestHandler

/-- `_json` of an error. -/
def refuse (response : Response) (handler : JobRequestHandler) : Bool × JobRequestHandler :=
  (false, { handler with refusals := handler.refusals ++ [response] })

def mismatch : Response := { status := 403, error := "tenant identity mismatch" }
def unauthorized : Response := { status := 401, error := "unauthorized", headers := [("WWW-Authenticate", "Bearer")] }
def notConfigured : Response := { status := 403, error := "administrative health access is not configured" }

/-- The pairs of a tenant and a token that are tried, in their order. -/
def credentials (server : ServerSettings) : List (String × String) :=
  server.tenantTokens ++ (server.authToken.map fun token => ("default", token)).toList

/-- The tenant of the last credential that matches. -/
def matchedTenant (credentials : List (String × String)) (supplied : String) : Option String :=
  credentials.foldl (fun matched (tenant, token) => if bearerMatches supplied token then some tenant else matched) none

/-- A tenant is authorized, unless the request claims to come from another one. -/
def claim (tenant : String) (headers : RequestHeaders) (handler : JobRequestHandler) : Bool × JobRequestHandler :=
  if headers.tenant.any (· ≠ tenant) then handler.refuse mismatch else (true, { handler with tenantId := some tenant })

/-- `_authorized_tenant`. -/
def authorizedTenant (server : ServerSettings) (headers : RequestHeaders) (handler : JobRequestHandler) : Bool × JobRequestHandler :=
  if (credentials server).isEmpty then handler.claim "default" headers
  else
    match matchedTenant (credentials server) (headers.authorization.getD "") with
    | some tenant => handler.claim tenant headers
    | none => handler.refuse unauthorized

/-- `_authorized_probe`. -/
def authorizedProbe (server : ServerSettings) (headers : RequestHeaders) (handler : JobRequestHandler) : Bool × JobRequestHandler :=
  if server.adminToken.any fun token => bearerMatches (headers.authorization.getD "") token then (true, handler)
  else handler.authorizedTenant server headers

/-- `_authorized_admin`. -/
def authorizedAdmin (server : ServerSettings) (headers : RequestHeaders) (handler : JobRequestHandler) : Bool × JobRequestHandler :=
  match server.adminToken with
  | none => if server.authToken.isNone ∧ server.tenantTokens.isEmpty then (true, handler) else handler.refuse notConfigured
  | some expected =>
    if bearerMatches (headers.authorization.getD "") expected then (true, handler) else handler.refuse unauthorized

/-- `do_GET` of a path, up to `_do_get`, which runs where the request is authorized. -/
def doGet (server : ServerSettings) (path : String) (headers : RequestHeaders) (handler : JobRequestHandler) :
    Bool × JobRequestHandler :=
  if path = "/health/state" then handler.authorizedAdmin server headers
  else if path = "/health/live" ∨ path = "/health/ready" then handler.authorizedProbe server headers
  else handler.authorizedTenant server headers

/-- `do_POST`, up to `_do_post`. -/
def doPost (server : ServerSettings) (headers : RequestHeaders) (handler : JobRequestHandler) : Bool × JobRequestHandler :=
  handler.authorizedTenant server headers

end JobRequestHandler

end Service

end SharkRail
