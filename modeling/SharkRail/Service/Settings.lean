import SharkRail.Lib.Json

/-!
# The tokens of the server settings

`ServerSettings`, as far as requests are authorized by it, with `_validate_tenant_tokens`.
-/

namespace SharkRail

namespace Service

/-- The tokens of `ServerSettings`. `tenant_tokens` is a table: no tenant has two entries. -/
structure ServerSettings where
  authToken : Option String := none
  adminToken : Option String := none
  tenantTokens : List (String × String) := []
  tenantTokensNodup : (tenantTokens.map (·.1)).Nodup := by decide

/-- `ConfigError`, by its message. -/
abbrev ConfigError := String

/-- A visible ASCII character. -/
def isVisible (c : Char) : Bool := 0x21 ≤ c.toNat && c.toNat ≤ 0x7E

/-- `_validate_bearer_token`. -/
def validateBearerToken (value name : String) : Except ConfigError Unit :=
  if value = "" || decide (value.length > 4096) || !value.toList.all isVisible then
    throw (name ++ " must be a non-empty visible ASCII string of at most 4096 bytes")
  else pure ()

/-- One turn of the loop over the table: `identities` maps the tokens read so far to their tenants. -/
def validateTenantToken (identities : List (String × String)) (entry : String × String) : Except ConfigError (List (String × String)) := do
  let (tenant, token) := entry
  if tenant = "" || decide (tenant.utf8ByteSize > 256) then
    throw "server.tenant_tokens keys must be non-empty tenant IDs of at most 256 UTF-8 bytes"
  validateBearerToken token ("server.tenant_tokens." ++ tenant)
  if (identities.lookup token).any (· ≠ tenant) then throw "server authentication tokens must be unique to one tenant"
  pure ((token, tenant) :: identities)

/-- The identity of `auth_token`. -/
def authIdentities (server : ServerSettings) : Except ConfigError (List (String × String)) :=
  match server.authToken with
  | none => pure []
  | some token => do
    validateBearerToken token "server.auth_token"
    pure [(token, "default")]

/-- `_validate_tenant_tokens`. -/
def validateTenantTokens (server : ServerSettings) : Except ConfigError Unit := do
  let identities ← authIdentities server
  let identities ← server.tenantTokens.foldlM validateTenantToken identities
  match server.adminToken with
  | none => pure ()
  | some token =>
    validateBearerToken token "server.admin_token"
    if (identities.lookup token).isSome then throw "server.admin_token must differ from all tenant tokens"

end Service

end SharkRail
