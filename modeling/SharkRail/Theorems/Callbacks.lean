import SharkRail.Lib.Fallible
import SharkRail.Service.Callback

/-!
# Callbacks reach public destinations alone

Every connection of a delivery goes to an address that the validation of this delivery approved, whatever its host resolved to before or
resolves to afterwards, and nothing follows a response. An approved address is public, and embeds no address that is not.
-/

namespace SharkRail

namespace Service

open Fallible

/-! ## Approved addresses -/

theorem isApproved_public {candidate : Ipaddress} (h : isApproved candidate = true) :
    candidate.Public ∧ candidate.embedded = [] := by
  simp only [isApproved, Bool.not_eq_true', Bool.or_eq_false_iff, Bool.not_eq_false'] at h
  obtain ⟨⟨⟨⟨⟨⟨⟨⟨hglobal, hloopback⟩, hlinkLocal⟩, hprivate⟩, hmulticast⟩, hunspecified⟩, hreserved⟩, -⟩, htransition⟩ := h
  refine ⟨⟨hglobal, hloopback, hlinkLocal, hprivate, hmulticast, hunspecified, hreserved⟩, ?_⟩
  refine Ipaddress.embedded_eq_nil (fun ip hip => ?_) hreserved
  subst hip
  simpa [Bool.or_eq_false_iff, and_assoc] using htransition

/-- The text of an address that a callback may go to: the address it is read as is public, and so is every address embedded in it. -/
def PublicText (library : NetLibrary) (address : String) : Prop :=
  ∃ ip, library.ipAddress (unscoped address) = some ip ∧ ip.Public ∧ ∀ embedded ∈ ip.embedded, (Ipaddress.v4 embedded).Public

theorem checkAddress_ok {library : NetLibrary} {name address : String} (h : checkAddress library name address = .ok ()) :
    PublicText library address := by
  unfold checkAddress at h
  split at h
  · exact absurd h throw_ne_ok
  · rename_i candidate hcandidate
    split at h
    · rename_i happroved
      obtain ⟨hpublic, hembedded⟩ := isApproved_public happroved
      exact ⟨candidate, hcandidate, hpublic, by simp [hembedded]⟩
    · exact absurd h throw_ne_ok

/-- The addresses that the validation of an endpoint without private networks approves are public. -/
theorem validateCallbackDestination_public {library : NetLibrary} {endpoint : CallbackEndpoint} {name hostname : String}
    {resolve : Bool} {records : Except String (List String)} {port : Nat} {addresses : List String}
    (hprivate : endpoint.allowPrivateNetworks = false)
    (h : validateCallbackDestination library endpoint name resolve records = .ok (hostname, port, addresses)) :
    ∀ address ∈ addresses, PublicText library address := by
  unfold validateCallbackDestination at h
  dsimp only at h
  split at h
  · exact absurd h throw_ne_ok
  obtain ⟨port', -, h⟩ := bind_eq_ok.1 h
  obtain ⟨addresses', -, h⟩ := bind_eq_ok.1 h
  split at h
  · split at h
    · exact absurd h throw_ne_ok
    · cases pure_eq_ok.1 h
      exact nofun
  · rw [if_neg (by simp [hprivate])] at h
    obtain ⟨hchecks, h⟩ := check_eq_ok.1 h
    cases pure_eq_ok.1 h
    exact fun address haddress => checkAddress_ok (forM_eq_ok.1 hchecks address haddress)

/-! ## Connections -/

/-- What a request does: it opens connections to one address, and ends with the request itself. -/
theorem mem_request {address address' target : String} {port port' reopened : Nat}
    (h : NetEvent.opens address' port' ∈ request address port target reopened) : address' = address ∧ port' = port := by
  simp only [request, List.cons_append, List.mem_cons, List.mem_append, List.mem_replicate, List.not_mem_nil, or_false,
    NetEvent.opens.injEq, reduceCtorEq] at h
  rcases h with h | ⟨-, h⟩
  · exact h
  · exact h

theorem responds_not_mem_request {address target : String} {port reopened status : Nat} :
    NetEvent.responds status ∉ request address port target reopened := by
  simp [request, List.mem_replicate]

/-- The connections of a request go to the addresses it was given, by induction over them. -/
theorem postCallback_opens {port port' : Nat} {target address : String} {addresses : List String} {attempts : List Attempt}
    (h : NetEvent.opens address port' ∈ (postCallback port target addresses attempts).1) : address ∈ addresses ∧ port' = port := by
  induction addresses generalizing attempts with
  | nil => simp [postCallback] at h
  | cons address' addresses ih =>
    have hlater : address ∈ addresses ∧ port' = port → address ∈ address' :: addresses ∧ port' = port :=
      And.imp_left (List.mem_cons_of_mem address')
    cases attempts with
    | nil => simp [postCallback] at h
    | cons attempt attempts =>
      cases attempt with
      | expired => simp [postCallback] at h
      | unreachable timedOut =>
        cases timedOut with
        | true =>
          obtain ⟨rfl, rfl⟩ : address = address' ∧ port' = port := by simpa [postCallback] using h
          exact ⟨List.mem_cons_self, rfl⟩
        | false =>
          rcases List.mem_cons.1 h with h | h
          · cases h
            exact ⟨List.mem_cons_self, rfl⟩
          · exact hlater (ih h)
      | responded reopened status =>
        rcases List.mem_append.1 h with h | h
        · obtain ⟨rfl, rfl⟩ := mem_request h
          exact ⟨List.mem_cons_self, rfl⟩
        · simp at h
      | failed reopened timedOut =>
        cases timedOut with
        | true =>
          obtain ⟨rfl, rfl⟩ := mem_request h
          exact ⟨List.mem_cons_self, rfl⟩
        | false =>
          rcases List.mem_append.1 h with h | h
          · obtain ⟨rfl, rfl⟩ := mem_request h
            exact ⟨List.mem_cons_self, rfl⟩
          · exact hlater (ih h)
      | raised reopened =>
        obtain ⟨rfl, rfl⟩ := mem_request h
        exact ⟨List.mem_cons_self, rfl⟩

/-- No event that is a response is followed by another one. -/
def NoneAfterResponse (events : List NetEvent) : Prop :=
  ∀ before status after, events = before ++ .responds status :: after → after = []

theorem NoneAfterResponse.of_not_mem {events : List NetEvent} (h : ∀ status, .responds status ∉ events) :
    NoneAfterResponse events := by
  rintro before status after rfl
  exact absurd (List.mem_append_right before List.mem_cons_self) (h status)

/-- Events that are no responses come first. -/
theorem NoneAfterResponse.append {first events : List NetEvent} (hfirst : ∀ status, .responds status ∉ first)
    (h : NoneAfterResponse events) : NoneAfterResponse (first ++ events) := by
  intro before status after heq
  rcases List.append_eq_append_iff.1 heq with ⟨between, rfl, hbetween⟩ | ⟨between, rfl, hbetween⟩
  · exact h between status after hbetween
  · cases between with
    | nil => exact h [] status after hbetween.symm
    | cons event between =>
      cases hbetween
      exact absurd (List.mem_append_right before List.mem_cons_self) (hfirst status)

/-- A response, to a redirect as well, is the last event of a request. -/
theorem postCallback_response {port : Nat} {target : String} {addresses : List String} {attempts : List Attempt} :
    NoneAfterResponse (postCallback port target addresses attempts).1 := by
  induction addresses generalizing attempts with
  | nil => exact .of_not_mem (by simp [postCallback])
  | cons address addresses ih =>
    cases attempts with
    | nil => exact .of_not_mem (by simp [postCallback])
    | cons attempt attempts =>
      cases attempt with
      | expired => exact .of_not_mem (by simp [postCallback])
      | unreachable timedOut =>
        cases timedOut with
        | true => exact .of_not_mem (by simp [postCallback])
        | false => exact (NoneAfterResponse.append (by simp) ih : NoneAfterResponse ([.opens address port] ++ _))
      | responded reopened status =>
        refine .append (fun _ => responds_not_mem_request) fun before status' after heq => ?_
        cases before with
        | nil => exact (List.cons.inj heq).2.symm
        | cons event before => simp at heq
      | failed reopened timedOut =>
        cases timedOut with
        | true => exact .of_not_mem fun _ => responds_not_mem_request
        | false => exact .append (fun _ => responds_not_mem_request) ih
      | raised reopened => exact .of_not_mem fun _ => responds_not_mem_request

/-- What a delivery does comes from its own validation: without one that returned it does nothing. -/
theorem deliver_events (library : NetLibrary) (endpoint : CallbackEndpoint) (tenantId : String) (input : DeliveryInput) :
    (deliver library (some endpoint) tenantId input).1 = [] ∨
      ∃ hostname port addresses target,
        validateCallbackDestination library endpoint "callback endpoint" true input.records = .ok (hostname, port, addresses) ∧
        (deliver library (some endpoint) tenantId input).1 = (postCallback port target addresses input.attempts).1 := by
  unfold deliver
  dsimp only
  split
  · exact .inl rfl
  split
  · exact .inl rfl
  split
  · exact .inl rfl
  · exact .inl rfl
  · rename_i hostname port addresses hresolved
    split
    · exact .inl rfl
    split
    · exact .inl rfl
    · refine .inr ⟨hostname, port, addresses, _, ?_, rfl⟩
      unfold resolveCallbackDestination at hresolved
      split at hresolved
      · exact Option.some.inj hresolved
      · cases hresolved

/-- A delivery to an endpoint without private networks: each connection it opens goes to an address that the validation of this delivery
approved, which is public and embeds only public ones; and nothing follows a response, so that no redirect is followed. -/
theorem callbacks_are_public (library : NetLibrary) (endpoint : CallbackEndpoint) (hprivate : endpoint.allowPrivateNetworks = false)
    (tenantId : String) (input : DeliveryInput) :
    (∀ address port, .opens address port ∈ (deliver library (some endpoint) tenantId input).1 →
      ∃ hostname addresses,
        validateCallbackDestination library endpoint "callback endpoint" true input.records = .ok (hostname, port, addresses) ∧
        address ∈ addresses ∧ PublicText library address) ∧
    NoneAfterResponse (deliver library (some endpoint) tenantId input).1 := by
  rcases deliver_events library endpoint tenantId input with hnone | ⟨hostname, port, addresses, target, hvalid, hevents⟩
  · rw [hnone]
    exact ⟨nofun, .of_not_mem nofun⟩
  · rw [hevents]
    refine ⟨fun address port' hopens => ?_, postCallback_response⟩
    obtain ⟨hmem, rfl⟩ := postCallback_opens hopens
    exact ⟨hostname, addresses, hvalid, hmem, validateCallbackDestination_public hprivate hvalid address hmem⟩

/-- The library on the texts of one endpoint, and a delivery that a redirect ends. -/
def sampleLibrary : NetLibrary where
  urlparse _ :=
    { scheme := "https", hostname := some "hooks.example", username := none, password := none, port := some none, path := "/job"
      query := "" }
  ipAddress text := if text = "93.184.216.34" then some (.v4 0x5db8d822) else none
  ipText _ := "93.184.216.34"
  idna := some
  casefold := id
  repr text := "'" ++ text ++ "'"

def sampleDelivery : DeliveryInput where
  secretOk := true
  slotFree := true
  records := .ok ["93.184.216.34"]
  resolvedInTime := true
  timeLeft := true
  attempts := [.responded 0 302]

def sampleEndpoint : CallbackEndpoint := { url := "https://hooks.example/job", tenantId := "tenant" }

theorem callbacks_are_public_sample :
    (∃ hostname addresses,
      validateCallbackDestination sampleLibrary sampleEndpoint "callback endpoint" true sampleDelivery.records =
        .ok (hostname, 443, addresses) ∧ "93.184.216.34" ∈ addresses ∧ PublicText sampleLibrary "93.184.216.34") ∧
    NoneAfterResponse (deliver sampleLibrary (some sampleEndpoint) "tenant" sampleDelivery).1 :=
  have h := callbacks_are_public sampleLibrary sampleEndpoint rfl "tenant" sampleDelivery
  ⟨h.1 "93.184.216.34" 443 (by decide), h.2⟩

end Service

end SharkRail
