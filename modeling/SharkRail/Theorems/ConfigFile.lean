import Mathlib
import SharkRail.Lib.Fallible
import SharkRail.Service.ConfigFile

/-!
# What is made of the configuration that was loaded

The control process loads the configuration and hands its path to a Worker, which loads it again and hands it to `JobService`, which checks
it once more without resolving the hosts of callbacks.
-/

namespace SharkRail

namespace Service

namespace Config

open Fallible

variable {host : ConfigHost} {config config' : Configuration} {env : String → Option String} {direct resolve : Bool}

/-! ## One check after the other -/

/-- Everything but the callbacks has passed. -/
structure Passed (host : ConfigHost) (config : Configuration) (direct : Bool) (jobStore : JobStoreSettings) : Prop where
  listen : ∃ name, listenHost host config.server.listen = .ok name ∧ isLoopbackListener host name = true
  tokens : validateTokens config.server = .ok ()
  numbers : positiveValues config.numbers = .ok ()
  policy : ∃ policy, loadServiceExecutionPolicy host config = .ok policy
  once : ¬(truthy config.jobStore.urlFile = true ∧ direct = true)
  store : resolveStoreUrl host config.jobStore = .ok jobStore
  storeUrl : checkStoreUrl jobStore.url = .ok ()
  outputUrl : checkOutputUrl host config.outputStore.url = .ok ()
  logging : checkLogging host config.logging = .ok ()

/-- Where everything but the callbacks passes, a configuration is accepted if and only if they do. -/
theorem Passed.validateConfig_eq {jobStore : JobStoreSettings} (h : Passed host config direct jobStore) (resolve : Bool) :
    validateConfig host config direct resolve =
      (config.callbackEndpoints.forM (checkEndpoint host resolve) >>= fun _ => pure { config with jobStore }) := by
  obtain ⟨name, hname, hloopback⟩ := h.listen
  obtain ⟨policy, hpolicy⟩ := h.policy
  unfold validateConfig
  rw [hname]
  simp only [h.tokens, hloopback, h.numbers, hpolicy, h.store, h.storeUrl, h.outputUrl, h.logging, mapError_ok, Bool.not_true,
    Bool.false_eq_true, if_false, if_neg h.once, bind, Except.bind, pure, Except.pure]

/-- What was accepted passed every check. -/
theorem passed_of_validateConfig (h : validateConfig host config direct resolve = .ok config') :
    ∃ jobStore, Passed host config direct jobStore ∧ config' = { config with jobStore } ∧
      config.callbackEndpoints.forM (checkEndpoint host resolve) = .ok () := by
  unfold validateConfig at h
  obtain ⟨name, hname, h⟩ := bind_eq_ok.1 h
  obtain ⟨htokens, h⟩ := check_eq_ok.1 h
  cases hloopback : isLoopbackListener host name with
  | false => simp [hloopback, bind, Except.bind, throw, throwThe, MonadExceptOf.throw] at h
  | true =>
    simp only [hloopback, Bool.not_true, Bool.false_eq_true, if_false] at h
    obtain ⟨hnumbers, h⟩ := check_eq_ok.1 h
    obtain ⟨policy, hpolicy, h⟩ := bind_eq_ok.1 h
    by_cases honce : truthy config.jobStore.urlFile = true ∧ direct = true
    · simp [honce, bind, Except.bind, throw, throwThe, MonadExceptOf.throw] at h
    · rw [if_neg honce] at h
      obtain ⟨jobStore, hstore, h⟩ := bind_eq_ok.1 h
      obtain ⟨hurl, h⟩ := check_eq_ok.1 h
      obtain ⟨houtput, h⟩ := check_eq_ok.1 h
      obtain ⟨hendpoints, h⟩ := check_eq_ok.1 h
      obtain ⟨hlogging, h⟩ := check_eq_ok.1 h
      exact ⟨jobStore, ⟨⟨name, hname, hloopback⟩, htokens, mapError_eq_ok.1 hnumbers, ⟨policy, hpolicy⟩, honce, hstore, hurl, houtput,
        hlogging⟩, (pure_eq_ok.1 h).symm, hendpoints⟩

/-- The `url` that was read from a file is read from it again. -/
theorem resolveStoreUrl_again {store store' : JobStoreSettings} (h : resolveStoreUrl host store = .ok store') :
    resolveStoreUrl host store' = .ok store' := by
  unfold resolveStoreUrl at h
  split at h
  · rename_i hfile
    split at h
    · rename_i file hurlFile
      split at h
      · cases h
      · cases h
      · rename_i text hread
        split at h
        · cases h
        · rename_i htext
          cases h
          unfold resolveStoreUrl
          rw [if_pos hfile]
          simp only [hurlFile, hread, if_neg htext]
          rfl
    · cases h
  · rename_i hfile
    cases h
    unfold resolveStoreUrl
    rw [if_neg hfile]
    rfl

/-- A configuration that was accepted passes every check once more. -/
theorem Passed.again {jobStore : JobStoreSettings} (h : Passed host config direct jobStore) :
    Passed host { config with jobStore } false jobStore where
  listen := h.listen
  tokens := h.tokens
  numbers := h.numbers
  policy := h.policy
  once := by simp
  store := resolveStoreUrl_again h.store
  storeUrl := h.storeUrl
  outputUrl := h.outputUrl
  logging := h.logging

/-! ## Callbacks to the host itself -/

variable (host) in
/-- A host that is the local one by its name. -/
def isLocalName (name : String) : Bool := (host.ipAddress (unscoped name)).isNone && host.casefold (stripDots name) = "localhost"

variable (host) in
/-- An endpoint whose host is the local one by its name. -/
def isLocal (entry : String × EndpointSettings) : Bool :=
  match entry.2.url with
  | .str text => isLocalName host ((host.urlparse text).hostname.getD "")
  | _ => false

variable (host) in
/-- What is raised for such an endpoint where hosts are not resolved. -/
def localRefused (entry : String × EndpointSettings) : ConfigException :=
  .configError ("callback endpoint " ++ host.repr entry.1 ++ " uses a non-public hostname")

/-- The addresses of a host that are taken where it is resolved are taken also where it is not, unless it is the local one by its name. -/
theorem callbackAddresses_unresolved {name hostname : String} {records records' : Except String (List String)} {addresses : List String}
    (h : callbackAddresses host.toNetLibrary name hostname true records = .ok addresses) :
    callbackAddresses host.toNetLibrary name hostname false records' =
      if isLocalName host hostname then .error ("callback endpoint " ++ host.repr name ++ " uses a non-public hostname")
      else .ok (if (host.ipAddress (unscoped hostname)).isNone then [] else addresses) := by
  unfold callbackAddresses at h ⊢
  cases hliteral : host.ipAddress (unscoped hostname) with
  | some literal =>
    rw [hliteral] at h
    simpa [isLocalName, hliteral, pure, Except.pure] using h
  | none =>
    simp [isLocalName, hliteral, pure, Except.pure, throw, throwThe, MonadExceptOf.throw]

/-- A destination that is accepted when it is resolved is accepted unresolved as well, unless its name is a local one. -/
theorem validateCallbackDestination_unresolved {endpoint : CallbackEndpoint} {name : String}
    {records records' : Except String (List String)} {target : String × ℕ × List String}
    (h : validateCallbackDestination host.toNetLibrary endpoint name true records = .ok target) :
    if isLocalName host ((host.urlparse endpoint.url).hostname.getD "") then
      validateCallbackDestination host.toNetLibrary endpoint name false records' =
        .error ("callback endpoint " ++ host.repr name ++ " uses a non-public hostname")
    else ∃ target, validateCallbackDestination host.toNetLibrary endpoint name false records' = .ok target := by
  unfold validateCallbackDestination at h ⊢
  dsimp only at h ⊢
  cases hurl : (!(["http", "https"].contains (host.urlparse endpoint.url).scheme) ||
      decide ((host.urlparse endpoint.url).hostname.getD "" = "") || (host.urlparse endpoint.url).username.isSome ||
      (host.urlparse endpoint.url).password.isSome) with
  | true =>
    rw [if_pos hurl] at h
    cases h
  | false =>
    rw [if_neg (Bool.eq_false_iff.1 hurl)] at h
    simp only [Bool.false_eq_true, if_false]
    obtain ⟨port, hport, h⟩ := bind_eq_ok.1 h
    obtain ⟨addresses, haddresses, h⟩ := bind_eq_ok.1 h
    have hunresolved := @callbackAddresses_unresolved host name _ records records' addresses haddresses
    simp only [hport, hunresolved, bind, Except.bind]
    cases hlocal : isLocalName host ((host.urlparse endpoint.url).hostname.getD "") with
    | true => simp
    | false =>
      simp only [Bool.false_eq_true, if_false]
      cases hliteral : host.ipAddress (unscoped ((host.urlparse endpoint.url).hostname.getD "")) with
      | none => exact ⟨_, rfl⟩
      | some literal =>
        simp only [Option.isNone_some, Bool.false_eq_true, if_false]
        by_cases hempty : addresses.isEmpty = true
        · rw [if_pos hempty] at h
          cases h
        · rw [if_neg hempty] at h ⊢
          exact ⟨target, h⟩

theorem checkDestination_unresolved {entry : String × EndpointSettings} {tenantId : String} {allowPrivateNetworks : Bool}
    (h : checkDestination host entry.1 tenantId allowPrivateNetworks true entry.2.url = .ok ()) :
    checkDestination host entry.1 tenantId allowPrivateNetworks false entry.2.url =
      if isLocal host entry then .error (localRefused host entry) else .ok () := by
  unfold checkDestination at h ⊢
  cases hurl : entry.2.url with
  | str text =>
    simp only [hurl] at h ⊢
    cases hparsed : host.urlparseError text with
    | some message => simp [hparsed, throw, throwThe, MonadExceptOf.throw] at h
    | none =>
      rw [hparsed] at h
      obtain ⟨target, htarget, -⟩ := bind_eq_ok.1 h
      have hunresolved := @validateCallbackDestination_unresolved host _ entry.1 _
        (host.getaddrinfo ((host.urlparse text).hostname.getD "")) target (mapError_eq_ok.1 htarget)
      have hlocal : isLocal host entry = isLocalName host ((host.urlparse text).hostname.getD "") := by
        unfold isLocal
        rw [hurl]
      rw [hlocal]
      cases hname : isLocalName host ((host.urlparse text).hostname.getD "") with
      | true =>
        rw [hname, if_pos rfl] at hunresolved
        simp only [hunresolved]
        rfl
      | false =>
        rw [hname, if_neg Bool.false_ne_true] at hunresolved
        obtain ⟨target', htarget'⟩ := hunresolved
        simp only [htarget']
        rfl
  | _ =>
    simp only [hurl] at h
    split at h <;> cases h

/-- Everything but the destination of an endpoint has passed. -/
structure PassedEndpoint (host : ConfigHost) (entry : String × EndpointSettings) (tenantId : String) (allowPrivateNetworks : Bool) :
    Prop where
  name : entry.1 ≠ ""
  tenant : entry.2.tenantId = .str tenantId
  networks : entry.2.allowPrivateNetworks = .bool allowPrivateNetworks
  length : ¬(tenantId = "" ∨ 256 < tenantId.utf8ByteSize)
  secret : checkEndpointText host entry.1 "secret" entry.2.secret = .ok ()
  secretFile : checkEndpointText host entry.1 "secret_file" entry.2.secretFile = .ok ()
  once : ¬(truthy entry.2.secret = true ∧ truthy entry.2.secretFile = true)
  resolved : ∃ secret, resolvedSecret host entry.2 = .ok secret

/-- Where everything but the destination passes, an endpoint is accepted if and only if it does. -/
theorem PassedEndpoint.checkEndpoint_eq {entry : String × EndpointSettings} {tenantId : String} {allowPrivateNetworks : Bool}
    (h : PassedEndpoint host entry tenantId allowPrivateNetworks) (resolve : Bool) :
    checkEndpoint host resolve entry = checkDestination host entry.1 tenantId allowPrivateNetworks resolve entry.2.url := by
  obtain ⟨secret, hresolved⟩ := h.resolved
  unfold checkEndpoint
  rw [if_neg h.name, h.tenant, h.networks]
  simp only [if_neg h.length, h.secret, h.secretFile, if_neg h.once, hresolved, bind, Except.bind]

/-- An endpoint that was accepted passed every check. -/
theorem passed_of_checkEndpoint {entry : String × EndpointSettings} (h : checkEndpoint host resolve entry = .ok ()) :
    ∃ tenantId allowPrivateNetworks, PassedEndpoint host entry tenantId allowPrivateNetworks ∧
      checkDestination host entry.1 tenantId allowPrivateNetworks resolve entry.2.url = .ok () := by
  unfold checkEndpoint at h
  split at h
  · cases h
  · rename_i hname
    split at h
    · rename_i tenantId allowPrivateNetworks htenant hallow
      split at h
      · cases h
      · rename_i hlength
        obtain ⟨hsecret, h⟩ := check_eq_ok.1 h
        obtain ⟨hsecretFile, h⟩ := check_eq_ok.1 h
        split at h
        · cases h
        · rename_i honce
          obtain ⟨secret, hresolved, h⟩ := bind_eq_ok.1 h
          exact ⟨tenantId, allowPrivateNetworks,
            ⟨hname, htenant, hallow, hlength, hsecret, hsecretFile, honce, secret, hresolved⟩, h⟩
    · split at h <;> cases h
    · cases h

/-- An endpoint that is accepted where its host is resolved is accepted where it is not, unless it is the local one by its name. -/
theorem checkEndpoint_unresolved {entry : String × EndpointSettings} (h : checkEndpoint host true entry = .ok ()) :
    checkEndpoint host false entry = if isLocal host entry then .error (localRefused host entry) else .ok () := by
  obtain ⟨tenantId, allowPrivateNetworks, hpassed, h⟩ := passed_of_checkEndpoint h
  rw [hpassed.checkEndpoint_eq]
  exact checkDestination_unresolved h

/-- The first endpoint that is refused is the one that is raised. -/
theorem forM_checkEndpoint {entries : List (String × EndpointSettings)} (h : entries.forM (checkEndpoint host true) = .ok ()) :
    entries.forM (checkEndpoint host false) =
      match entries.find? (isLocal host) with
      | none => .ok ()
      | some entry => .error (localRefused host entry) := by
  induction entries with
  | nil => rfl
  | cons entry entries ih =>
    have hcons : ∀ resolve, (entry :: entries).forM (checkEndpoint host resolve) =
        (checkEndpoint host resolve entry >>= fun _ => entries.forM (checkEndpoint host resolve)) := fun _ => rfl
    rw [hcons, check_eq_ok] at h
    rw [hcons, checkEndpoint_unresolved h.1, List.find?_cons]
    cases hlocal : isLocal host entry with
    | true => rfl
    | false => exact ih h.2

/-! ## What was loaded -/

/-- What `load_config` gives was read from the file it names, built and accepted with every host resolved. -/
theorem loadConfig_eq_ok {path : Option PosixPath} {explicit : Bool} :
    loadConfig host env path explicit = .ok config ↔
      ∃ raw selected built, readSettings host (selectedPath host env path)
          (path.isSome || (env "SHARKRAIL_CONFIG_FILE").isSome || explicit) = .ok (raw, selected) ∧
        validateKeys host raw = .ok () ∧ buildConfig host (applyEnvironment env raw) selected = .ok built ∧
        validateConfig host built (Json.get? (membersOf (applyEnvironment env raw) "job_store") "url").isSome true = .ok config := by
  unfold loadConfig
  constructor
  · intro h
    obtain ⟨⟨raw, selected⟩, hread, h⟩ := bind_eq_ok.1 h
    obtain ⟨hkeys, h⟩ := check_eq_ok.1 h
    obtain ⟨built, hbuilt, h⟩ := bind_eq_ok.1 h
    exact ⟨raw, selected, built, hread, hkeys, mapError_eq_ok.1 hbuilt, mapError_eq_ok.1 h⟩
  · rintro ⟨raw, selected, built, hread, hkeys, hbuilt, h⟩
    rw [hread]
    simp only [bind, Except.bind, hkeys, hbuilt, h, mapError_ok]

/-- A configuration has the path that it was read from. -/
theorem buildConfig_configPath {raw : List (String × Json)} {selected : Option PosixPath}
    (h : buildConfig host raw selected = .ok config) : config.configPath = selected := by
  unfold buildConfig at h
  obtain ⟨_, -, h⟩ := bind_eq_ok.1 h
  obtain ⟨_, -, h⟩ := bind_eq_ok.1 h
  obtain ⟨_, -, h⟩ := bind_eq_ok.1 h
  obtain ⟨_, -, h⟩ := bind_eq_ok.1 h
  obtain ⟨_, -, h⟩ := bind_eq_ok.1 h
  obtain ⟨_, -, h⟩ := bind_eq_ok.1 h
  obtain ⟨_, -, h⟩ := bind_eq_ok.1 h
  obtain ⟨_, -, h⟩ := bind_eq_ok.1 h
  obtain ⟨_, -, h⟩ := bind_eq_ok.1 h
  obtain ⟨_, -, h⟩ := bind_eq_ok.1 h
  obtain ⟨_, -, h⟩ := bind_eq_ok.1 h
  cases pure_eq_ok.1 h
  rfl

/-- Settings that were read are those of the file, which it then is no matter whether it may be missing; or there is no file. -/
theorem readSettings_eq_ok {selected : PosixPath} {explicit : Bool} {raw : List (String × Json)} {found : Option PosixPath}
    (h : readSettings host selected explicit = .ok (raw, found)) :
    (found = some selected ∧ ∀ explicit, readSettings host selected explicit = .ok (raw, some selected)) ∨
      (found = none ∧ explicit = false) := by
  unfold readSettings at h ⊢
  cases hread : host.readVerifiedTextFile selected 0o027 with
  | error e =>
    right
    rw [hread] at h
    cases e with
    | notFound message =>
      cases explicit with
      | true => cases h
      | false =>
        cases h
        exact ⟨rfl, rfl⟩
    | osError message => cases h
    | unicodeError message => cases h
    | valueError message => cases h
  | ok text =>
    left
    simp only [hread] at h ⊢
    cases hloads : host.tomlLoads text with
    | error e => cases e <;> simp [hloads, throw, throwThe, MonadExceptOf.throw] at h
    | ok loaded =>
      rw [hloads] at h
      cases h
      exact ⟨rfl, fun _ => rfl⟩

/-- A Worker loads the configuration that its control process has loaded. -/
theorem workerConfig_of_loadConfig {path : Option PosixPath} {explicit : Bool} (h : loadConfig host env path explicit = .ok config) :
    workerConfig host env config.configPath = .ok config := by
  obtain ⟨raw, selected, built, hread, hkeys, hbuilt, haccepted⟩ := loadConfig_eq_ok.1 h
  have hpath : config.configPath = selected := by
    obtain ⟨jobStore, -, rfl, -⟩ := passed_of_validateConfig haccepted
    have hkept : built.configPath = selected := buildConfig_configPath hbuilt
    exact hkept
  rw [hpath]
  rcases readSettings_eq_ok hread with ⟨rfl, hagain⟩ | ⟨rfl, hmissing⟩
  · unfold workerConfig
    simp only [PosixPath.ofText_text]
    exact loadConfig_eq_ok.2 ⟨raw, _, built, hagain _, hkeys, hbuilt, haccepted⟩
  · -- no path was given, and none by the environment
    simp only [Bool.or_eq_false_iff, Option.isSome_eq_false_iff, Option.isNone_iff_eq_none] at hmissing
    obtain ⟨⟨rfl, hunset⟩, rfl⟩ := hmissing
    exact h

/-- A configuration that was loaded is taken unless the host of a callback is the local one by its name. -/
theorem serviceConfig_of_loadConfig {path : Option PosixPath} {explicit : Bool} (h : loadConfig host env path explicit = .ok config) :
    serviceConfig host config =
      match config.callbackEndpoints.find? (isLocal host) with
      | none => .ok config
      | some entry => .error (localRefused host entry) := by
  obtain ⟨raw, selected, built, -, -, -, haccepted⟩ := loadConfig_eq_ok.1 h
  obtain ⟨jobStore, hpassed, rfl, hendpoints⟩ := passed_of_validateConfig haccepted
  unfold serviceConfig
  rw [hpassed.again.validateConfig_eq, forM_checkEndpoint hendpoints]
  cases built.callbackEndpoints.find? (isLocal host) with
  | none => rfl
  | some entry => rfl

/-- What a control process has loaded, its Worker loads again and its `JobService` takes, unless the host of a callback is the local one by
its name: the first such endpoint is refused then. -/
theorem loaded_configuration_is_served {path : Option PosixPath} {explicit : Bool}
    (h : loadConfig host env path explicit = .ok config) :
    workerConfig host env config.configPath = .ok config ∧
      serviceConfig host config =
        match config.callbackEndpoints.find? (isLocal host) with
        | none => .ok config
        | some entry => .error (localRefused host entry) :=
  ⟨workerConfig_of_loadConfig h, serviceConfig_of_loadConfig h⟩

/-- A host with one file, of a callback to the host itself. -/
def sampleHost : ConfigHost where
  urlparse text :=
    if text = "http://localhost:9000/done" then
      { scheme := "http", hostname := some "localhost", username := none, password := none, port := some (some 9000), path := "/done"
        query := "" }
    else
      { scheme := "file", hostname := some ".", username := none, password := none, port := some none, path := "/output", query := "" }
  ipAddress text := if text = "127.0.0.1" then some (.v4 0x7f000001) else none
  ipText _ := "127.0.0.1"
  idna := some
  casefold := id
  repr text := "'" ++ text ++ "'"
  readVerifiedTextFile path _ := if path.text = "/etc/sharkrail/sharkrail.toml" then .ok "" else .error (.notFound "no such file")
  tomlLoads _ :=
    .ok [("callback_endpoints", .obj [("local", .obj [("url", .str "http://localhost:9000/done"), ("tenant_id", .str "default"),
      ("secret", .str "s3cret"), ("allow_private_networks", .bool true)])])]
  jsonLoads _ := .error (.malformed "no policy")
  getaddrinfo _ := .ok ["127.0.0.1"]
  int text := if text = "8765" then some 8765 else none
  upper := id
  str _ := ""
  urlparseError _ := none
  portError _ := ""
  unexpectedArgument _ _ := ""
  missingArguments _ _ := ""
  pathTypeError _ := ""
  systemConfigPath := .ofText "/etc/sharkrail/sharkrail.toml"

def sampleConfiguration : Configuration where
  callbackEndpoints :=
    [("local", { url := .str "http://localhost:9000/done", tenantId := .str "default", secret := .str "s3cret"
                 allowPrivateNetworks := .bool true })]
  configPath := some (.ofText "/etc/sharkrail/sharkrail.toml")

/-- The Worker accepts a configuration that the service refuses. -/
theorem loaded_configuration_is_served_sample :
    workerConfig sampleHost (fun _ => none) sampleConfiguration.configPath = .ok sampleConfiguration ∧
      serviceConfig sampleHost sampleConfiguration =
        .error (.configError "callback endpoint 'local' uses a non-public hostname") :=
  @loaded_configuration_is_served sampleHost sampleConfiguration (fun _ => none) none false rfl

/-! ## What is shown of it -/

/-- A secret that is either left out or a text that is not empty. -/
def IsSecret (value : Json) : Prop := value = .null ∨ ∃ text, text ≠ "" ∧ value = .str text

/-- What is shown of a secret says only whether there is one. -/
theorem IsSecret.redacted_eq {value value' : Json} (h : IsSecret value) (h' : IsSecret value') (hset : value = .null ↔ value' = .null) :
    redacted value = redacted value' := by
  have hshown : ∀ text, text ≠ "" → redacted (.str text) = .str "<redacted>" := by
    intro text htext
    simp [redacted, truthy, htext]
  rcases h with rfl | ⟨text, htext, rfl⟩
  · rw [hset.1 rfl]
  · rcases h' with rfl | ⟨text', htext', rfl⟩
    · exact absurd (hset.2 rfl) (by simp)
    · rw [hshown text htext, hshown text' htext']

/-- A token that is accepted is a secret. -/
theorem isSecret_of_validateToken {value : Json} {name token : String} (h : validateToken value name = .ok token) : IsSecret value := by
  unfold validateToken at h
  cases value with
  | str text =>
    refine .inr ⟨text, ?_, rfl⟩
    rintro rfl
    cases h
  | _ => cases h

/-- The tokens of identities that are accepted are secrets. -/
theorem isSecret_of_authIdentities {value : Json} {identities : List (String × String)} (h : authIdentities value = .ok identities) :
    IsSecret value := by
  unfold authIdentities at h
  split at h
  · exact .inl rfl
  · obtain ⟨token, htoken, -⟩ := bind_eq_ok.1 h
    exact isSecret_of_validateToken htoken

/-- An admin token that is accepted is a secret. -/
theorem isSecret_of_validateAdminToken {value : Json} {identities : List (String × String)}
    (h : validateAdminToken identities value = .ok ()) : IsSecret value := by
  unfold validateAdminToken at h
  split at h
  · exact .inl rfl
  · obtain ⟨token, htoken, -⟩ := bind_eq_ok.1 h
    exact isSecret_of_validateToken htoken

/-- The tokens of a server that was accepted. -/
theorem isSecret_of_validateTokens {server : ServerSettings} (h : validateTokens server = .ok ()) :
    IsSecret server.authToken ∧ IsSecret server.adminToken ∧ ∃ tokens, server.tenantTokens = .obj tokens := by
  unfold validateTokens at h
  cases htokens : server.tenantTokens with
  | obj tokens =>
    simp only [htokens] at h
    obtain ⟨identities, hauth, h⟩ := bind_eq_ok.1 h
    obtain ⟨identities', -, hadmin⟩ := bind_eq_ok.1 h
    exact ⟨isSecret_of_authIdentities hauth, isSecret_of_validateAdminToken hadmin, tokens, rfl⟩
  | _ =>
    rw [htokens] at h
    cases h

/-- The secret of an endpoint that is accepted is one. -/
theorem isSecret_of_checkEndpoint {entry : String × EndpointSettings} (h : checkEndpoint host resolve entry = .ok ()) :
    IsSecret entry.2.secret := by
  obtain ⟨tenantId, allowPrivateNetworks, hpassed, -⟩ := passed_of_checkEndpoint h
  have hsecret := hpassed.secret
  unfold checkEndpointText at hsecret
  cases hvalue : entry.2.secret with
  | null => exact .inl rfl
  | str text =>
    refine .inr ⟨text, ?_, rfl⟩
    rintro rfl
    rw [hvalue] at hsecret
    cases hsecret
  | _ =>
    rw [hvalue] at hsecret
    cases hsecret

/-- Endpoints that differ in nothing but the text of their secret. -/
def SameEndpoint (entry entry' : String × EndpointSettings) : Prop :=
  entry'.1 = entry.1 ∧ entry'.2 = { entry.2 with secret := entry'.2.secret } ∧ (entry.2.secret = .null ↔ entry'.2.secret = .null)

/-- Configurations that differ in nothing but the texts of their tokens and secrets. -/
structure SamePublic (config config' : Configuration) : Prop where
  auth : config.server.authToken = .null ↔ config'.server.authToken = .null
  admin : config.server.adminToken = .null ↔ config'.server.adminToken = .null
  tenants : (tableOf config.server.tenantTokens).map (·.1) = (tableOf config'.server.tenantTokens).map (·.1)
  endpoints : List.Forall₂ SameEndpoint config.callbackEndpoints config'.callbackEndpoints
  rest : config' =
    { config with
      server :=
        { config.server with
          authToken := config'.server.authToken, adminToken := config'.server.adminToken, tenantTokens := config'.server.tenantTokens }
      callbackEndpoints := config'.callbackEndpoints }

/-- What is shown of endpoints that were accepted leaves their secrets out. -/
theorem endpoints_shown {entries entries' : List (String × EndpointSettings)} (hsame : List.Forall₂ SameEndpoint entries entries')
    (h : ∀ entry ∈ entries, IsSecret entry.2.secret) (h' : ∀ entry ∈ entries', IsSecret entry.2.secret) :
    (entries.map fun entry => (entry.1, Json.obj entry.2.shown.asdict)) =
      entries'.map fun entry => (entry.1, Json.obj entry.2.shown.asdict) := by
  induction hsame with
  | nil => rfl
  | @cons entry entry' entries entries' hentry _ ih =>
    obtain ⟨hname, hrest, hset⟩ := hentry
    obtain ⟨hsecret, h⟩ := List.forall_mem_cons.1 h
    obtain ⟨hsecret', h'⟩ := List.forall_mem_cons.1 h'
    have hshown : entry'.2.shown = entry.2.shown := by
      unfold EndpointSettings.shown
      rw [hsecret.redacted_eq hsecret' hset, hrest]
    rw [List.map_cons, List.map_cons, ih h h', hname, hshown]

/-- Tokens of the same names are redacted to the same. -/
theorem redactedTokens_eq {tokens tokens' : List (String × Json)} (h : tokens.map (·.1) = tokens'.map (·.1)) :
    redactedTokens (.obj tokens) = redactedTokens (.obj tokens') := by
  have hnames : ∀ tokens : List (String × Json),
      redactedTokens (.obj tokens) = .obj ((tokens.map (·.1)).map fun name => (name, .str "<redacted>")) := by
    intro tokens
    rw [List.map_map]
    rfl
  rw [hnames, hnames, h]

/-- The tokens and secrets of a configuration that was accepted. -/
theorem secrets_of_validateConfig (h : validateConfig host config direct resolve = .ok config') :
    IsSecret config'.server.authToken ∧ IsSecret config'.server.adminToken ∧ (∃ tokens, config'.server.tenantTokens = .obj tokens) ∧
      ∀ entry ∈ config'.callbackEndpoints, IsSecret entry.2.secret := by
  obtain ⟨jobStore, hpassed, rfl, hendpoints⟩ := passed_of_validateConfig h
  obtain ⟨hauth, hadmin, htokens⟩ := isSecret_of_validateTokens hpassed.tokens
  exact ⟨hauth, hadmin, htokens, fun entry hentry => isSecret_of_checkEndpoint (forM_eq_ok.1 hendpoints entry hentry)⟩

/-- The server and the endpoints are shown by what is shown of each. -/
theorem publicDict_eq {server : ServerSettings} {endpoints : List (String × EndpointSettings)}
    (hserver : config.server.shown = server.shown)
    (hendpoints : (config.callbackEndpoints.map fun entry => (entry.1, Json.obj entry.2.shown.asdict)) =
      endpoints.map fun entry => (entry.1, Json.obj entry.2.shown.asdict)) :
    publicDict host config = publicDict host { config with server, callbackEndpoints := endpoints } := by
  unfold publicDict
  dsimp only
  rw [hserver, hendpoints]
  rfl

/-- Two configurations that were accepted and differ in nothing but their tokens and secrets are shown alike. -/
theorem public_dict_shows_no_secret {given given' : Configuration} {direct' resolve' : Bool}
    (h : validateConfig host given direct resolve = .ok config) (h' : validateConfig host given' direct' resolve' = .ok config')
    (hsame : SamePublic config config') : publicDict host config = publicDict host config' := by
  obtain ⟨hauth, hadmin, ⟨tokens, htokens⟩, hsecrets⟩ := secrets_of_validateConfig h
  obtain ⟨hauth', hadmin', ⟨tokens', htokens'⟩, hsecrets'⟩ := secrets_of_validateConfig h'
  have htenants : redactedTokens config.server.tenantTokens = redactedTokens config'.server.tenantTokens := by
    have hnames := hsame.tenants
    rw [htokens, htokens'] at hnames ⊢
    exact redactedTokens_eq hnames
  rw [hsame.rest]
  refine publicDict_eq ?_ (endpoints_shown hsame.endpoints hsecrets hsecrets')
  unfold ServerSettings.shown
  rw [hauth.redacted_eq hauth' hsame.auth, hadmin.redacted_eq hadmin' hsame.admin, htenants]

/-- The sample with this token of the server and this secret of its callback. -/
def sampleWith (token secret : String) : Configuration :=
  { sampleConfiguration with
    server := { authToken := .str token }
    callbackEndpoints :=
      [("local", { url := .str "http://localhost:9000/done", tenantId := .str "default", secret := .str secret
                   allowPrivateNetworks := .bool true })] }

/-- Two configurations that differ in their secrets are shown alike. -/
theorem public_dict_shows_no_secret_sample :
    publicDict sampleHost (sampleWith "one-token" "one-secret") = publicDict sampleHost (sampleWith "another-token" "another-secret") :=
  @public_dict_shows_no_secret sampleHost _ _ false true (sampleWith "one-token" "one-secret") (sampleWith "another-token" "another-secret")
    false true rfl rfl
    { auth := by decide
      admin := .rfl
      tenants := rfl
      endpoints := .cons ⟨rfl, rfl, by decide⟩ .nil
      rest := rfl }

end Config

end Service

end SharkRail
