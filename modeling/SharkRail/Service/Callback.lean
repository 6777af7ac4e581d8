import SharkRail.Lib.Ipaddress
import SharkRail.Service.Settings

/-!
# The delivery of callbacks

`validate_callback_destination`, `_post_callback` and `_deliver`, by the connections they open. What a host name resolves to, what comes
of each connection and when a deadline passes is an input, new for every delivery.
-/

namespace SharkRail

namespace Service

structure CallbackEndpoint where
  url : String
  tenantId : String
  allowPrivateNetworks : Bool := false

/-- What `urlparse` and `urlsplit` make of a URL; `port` is `none` where it raises `ValueError`. -/
structure ParsedUrl where
  scheme : String
  hostname : Option String
  username : Option String
  password : Option String
  port : Option (Option Nat)
  path : String
  query : String

/-- What the standard library makes of the texts of URLs, hosts and addresses; `none` is a `ValueError`. -/
structure NetLibrary where
  urlparse : String → ParsedUrl
  ipAddress : String → Option Ipaddress
  ipText : Ipaddress → String
  idna : String → Option String
  casefold : String → String
  repr : String → String

/-- `address.split("%", 1)[0]`. -/
def unscoped (address : String) : String := String.ofList (address.toList.takeWhile (· ≠ '%'))

/-- `hostname.rstrip(".")`. -/
def stripDots (hostname : String) : String := String.ofList (hostname.toList.reverse.dropWhile (· = '.')).reverse

/-- The test of an approved address: none of the ranges that are not public, and no transition address. -/
def isApproved (candidate : Ipaddress) : Bool :=
  let transition :=
    match candidate with
    | .v4 _ => false
    | .v6 ip => (Ipaddress.ipv4Mapped ip).isSome || (Ipaddress.sixtofour ip).isSome || (Ipaddress.teredo ip).isSome
  !(!candidate.isGlobal || candidate.isLoopback || candidate.isLinkLocal || candidate.isPrivate || candidate.isMulticast ||
    candidate.isUnspecified || candidate.isReserved || candidate.isSiteLocal || transition)

section

variable (library : NetLibrary)

/-- The check of one address a callback would go to. -/
def checkAddress (name address : String) : Except ConfigError Unit :=
  match library.ipAddress (unscoped address) with
  | none => throw ("callback endpoint " ++ library.repr name ++ " resolved to an invalid address")
  | some candidate =>
    if isApproved candidate then pure ()
    else
      throw ("callback endpoint " ++ library.repr name ++ " resolves to non-public address " ++ address ++
        "; set allow_private_networks=true only for a trusted administrator-controlled destination")

/-- The addresses of a host: its own where it is a literal, else the ones that it resolves to. -/
def callbackAddresses (name hostname : String) (resolve : Bool) (records : Except String (List String)) :
    Except ConfigError (List String) :=
  match library.ipAddress (unscoped hostname) with
  | some literal => pure [library.ipText literal]
  | none =>
    if !resolve then
      if library.casefold (stripDots hostname) = "localhost" then
        throw ("callback endpoint " ++ library.repr name ++ " uses a non-public hostname")
      else pure []
    else
      match records with
      | .error message => throw ("cannot resolve callback endpoint " ++ library.repr name ++ ": " ++ message)
      | .ok records => pure records.eraseDups

/-- The port of a callback, by default the one of its scheme. -/
def callbackPort (name : String) (parsed : ParsedUrl) : Except ConfigError Nat :=
  match parsed.port with
  | none => throw ("callback endpoint " ++ library.repr name ++ " has an invalid port")
  | some port => pure (if port.getD 0 = 0 then (if parsed.scheme = "https" then 443 else 80) else port.getD 0)

/-- `validate_callback_destination`; `records` is what `getaddrinfo` returns or raises in time. -/
def validateCallbackDestination (endpoint : CallbackEndpoint) (name : String) (resolve : Bool)
    (records : Except String (List String)) : Except ConfigError (String × Nat × List String) :=
  let parsed := library.urlparse endpoint.url
  let hostname := parsed.hostname.getD ""
  if !(["http", "https"].contains parsed.scheme) || hostname = "" || parsed.username.isSome || parsed.password.isSome then
    throw ("callback endpoint " ++ library.repr name ++ " must use a credential-free HTTP(S) URL")
  else do
    let port ← callbackPort library name parsed
    let addresses ← callbackAddresses library name hostname resolve records
    if addresses.isEmpty then
      if resolve then throw ("callback endpoint " ++ library.repr name ++ " resolved to no addresses")
      else pure (hostname, port, [])
    else if endpoint.allowPrivateNetworks then pure (hostname, port, addresses)
    else do
      addresses.forM (checkAddress library name)
      pure (hostname, port, addresses)

end

/-! ## Delivery -/

/-- What a delivery does on the network: a TCP connection is opened to an address, a request for a target is sent, a response with a
status comes back. -/
inductive NetEvent where
  | opens (address : String) (port : Nat)
  | posts (target : String)
  | responds (status : Nat)
  deriving DecidableEq

/-- What comes of one address: no time is left for it; the connection fails, or is over its deadline; the request is answered; it fails,
or runs into the deadline; or it raises an exception of another kind. `reopened` counts how often the connection, closed by the timer,
is opened again by the request. -/
inductive Attempt where
  | expired
  | unreachable (timedOut : Bool)
  | responded (reopened status : Nat)
  | failed (reopened : Nat) (timedOut : Bool)
  | raised (reopened : Nat)

/-- How `_post_callback` ends: the status of a success, or what it raises. -/
inductive PostOutcome where
  | success
  | httpError (status : Nat)
  | osError
  | raised
  deriving DecidableEq

/-- A connection to an address, opened again some times, and a request over it. -/
def request (address : String) (port : Nat) (target : String) (reopened : Nat) : List NetEvent :=
  .opens address port :: List.replicate reopened (.opens address port) ++ [.posts target]

/-- `_post_callback`, with what comes of each address in turn. -/
def postCallback (port : Nat) (target : String) : List String → List Attempt → List NetEvent × PostOutcome
  | [], _ | _ :: _, [] | _ :: _, .expired :: _ => ([], .osError)
  | address :: addresses, .unreachable timedOut :: attempts =>
    if timedOut then ([.opens address port], .osError)
    else
      let (events, outcome) := postCallback port target addresses attempts
      (.opens address port :: events, outcome)
  | address :: _, .responded reopened status :: _ =>
    (request address port target reopened ++ [.responds status],
      if 200 ≤ status ∧ status < 300 then .success else .httpError status)
  | address :: addresses, .failed reopened timedOut :: attempts =>
    if timedOut then (request address port target reopened, .osError)
    else
      let (events, outcome) := postCallback port target addresses attempts
      (request address port target reopened ++ events, outcome)
  | address :: _, .raised reopened :: _ => (request address port target reopened, .raised)

/-- What a delivery meets: its secret, a slot for the resolver, what `getaddrinfo` answers, whether that is in time, and what comes of
the addresses. -/
structure DeliveryInput where
  secretOk : Bool
  slotFree : Bool
  records : Except String (List String)
  resolvedInTime : Bool
  timeLeft : Bool
  attempts : List Attempt

/-- How `_deliver` leaves the notification: given up or delivered, to be tried again, or claimed, with an exception raised. -/
inductive DeliveryOutcome where
  | refused
  | delivered
  | retry (permanent : Bool)
  | raised
  deriving DecidableEq

/-- `_resolve_callback_destination`: `none` is the `TimeoutError`. -/
def resolveCallbackDestination (library : NetLibrary) (endpoint : CallbackEndpoint) (input : DeliveryInput) :
    Option (Except ConfigError (String × Nat × List String)) :=
  if input.slotFree && input.resolvedInTime then
    some (validateCallbackDestination library endpoint "callback endpoint" true input.records)
  else none

/-- How a delivery ends after the request. -/
def PostOutcome.delivery : PostOutcome → DeliveryOutcome
  | .success => .delivered
  | .httpError status => .retry (400 ≤ status && status < 500 && status ≠ 429)
  | .osError => .retry false
  | .raised => .raised

/-- `_deliver` of a notification of a tenant; `endpoint` is the one that the notification names. -/
def deliver (library : NetLibrary) (endpoint : Option CallbackEndpoint) (tenantId : String) (input : DeliveryInput) :
    List NetEvent × DeliveryOutcome :=
  match endpoint with
  | none => ([], .refused)
  | some endpoint =>
    if endpoint.tenantId ≠ tenantId then ([], .refused)
    else if !input.secretOk then ([], .raised)
    else
      match resolveCallbackDestination library endpoint input with
      | none => ([], .retry false)
      | some (.error _) => ([], .raised)
      | some (.ok (hostname, port, addresses)) =>
        if !input.timeLeft then ([], .retry false)
        else if (library.idna hostname).isNone then ([], .raised)
        else
          let parsed := library.urlparse endpoint.url
          let target := (if parsed.path = "" then "/" else parsed.path) ++ if parsed.query = "" then "" else "?" ++ parsed.query
          let (events, outcome) := postCallback port target addresses input.attempts
          (events, outcome.delivery)

end Service

end SharkRail
