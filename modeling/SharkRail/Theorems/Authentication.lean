import SharkRail.Lib.Fallible
import SharkRail.Service.Http

/-!
# Authentication is sound and unambiguous

Validated settings give every token to one tenant and none of them to the administrator (`Validated`). A request is authorized for the
tenant whose token it bears, whatever the order of the table; the token of the administrator opens no job, and the token of a tenant
does not open the detailed health.
-/

namespace SharkRail

namespace Service

open Fallible

/-! ## Bearer values -/

/-- Characters below 256 are read back from their bytes. -/
theorem decode_latin1 {chars : List Char} (h : ∀ c ∈ chars, c.toNat < 256) :
    (chars.map fun c => UInt8.ofNat c.toNat).map (fun b => Char.ofNat b.toNat) = chars := by
  rw [List.map_map]
  refine (List.map_congr_left fun c hc => ?_).trans (List.map_id chars)
  have hmod : c.toNat % 256 = c.toNat := Nat.mod_eq_of_lt (h c hc)
  simp [hmod]

/-- Two texts of such characters with the same bytes are the same. -/
theorem latin1_inj {a b : String} (ha : ∀ c ∈ a.toList, c.toNat < 256) (hb : ∀ c ∈ b.toList, c.toNat < 256)
    (h : (a.toList.map fun c => UInt8.ofNat c.toNat) = b.toList.map fun c => UInt8.ofNat c.toNat) : a = b := by
  apply String.toList_inj.1
  rw [← decode_latin1 ha, h, decode_latin1 hb]

/-- A token of visible characters matches the one value that presents it. -/
theorem bearerMatches_iff {supplied token : String} (h : token.toList.all isVisible = true) :
    bearerMatches supplied token = true ↔ supplied = "Bearer " ++ token := by
  have hbelow : ∀ c ∈ ("Bearer " ++ token).toList, c.toNat < 128 := by
    intro c hc
    rw [String.toList_append, List.mem_append] at hc
    rcases hc with hc | hc
    · have hascii : ∀ c ∈ "Bearer ".toList, c.toNat < 128 := by simp
      exact hascii c hc
    · have hvisible := List.all_eq_true.1 h c hc
      simp only [isVisible, Bool.and_eq_true, decide_eq_true_eq] at hvisible
      omega
  have hexpected : encodeBelow 128 ("Bearer " ++ token) = some (("Bearer " ++ token).toList.map fun c => UInt8.ofNat c.toNat) := by
    rw [encodeBelow, if_pos (by simpa using hbelow)]
  have hlatin : ∀ c ∈ ("Bearer " ++ token).toList, c.toNat < 256 := fun c hc => (hbelow c hc).trans (by omega)
  unfold bearerMatches
  rw [hexpected]
  constructor
  · intro hmatch
    unfold encodeBelow at hmatch
    split at hmatch
    case h_1 suppliedBytes expectedBytes hsupplied hsome =>
      split at hsupplied
      case isTrue hall =>
        cases hsupplied
        cases hsome
        exact latin1_inj (by simpa using hall) hlatin (by simpa using hmatch)
      case isFalse => cases hsupplied
    case h_2 => cases hmatch
  · rintro rfl
    rw [encodeBelow, if_pos (by simpa using hlatin)]
    simp

/-! ## Validated settings -/

theorem validateBearerToken_ok {value name : String} (h : validateBearerToken value name = .ok ()) :
    value.toList.all isVisible = true := by
  unfold validateBearerToken at h
  split at h
  · exact absurd h throw_ne_ok
  · rename_i hok
    simp only [Bool.or_eq_true, Bool.not_eq_true', not_or, Bool.not_eq_false] at hok
    exact hok.2

/-- An entry of the table that was accepted: its token is visible, is found to be of its tenant afterwards, and every token that was
found before is found to be of the same tenant. -/
theorem validateTenantToken_ok {identities identities' : List (String × String)} {entry : String × String}
    (h : validateTenantToken identities entry = .ok identities') :
    entry.2.toList.all isVisible = true ∧ identities'.lookup entry.2 = some entry.1 ∧
      ∀ token tenant, identities.lookup token = some tenant → identities'.lookup token = some tenant := by
  obtain ⟨tenant, token⟩ := entry
  unfold validateTenantToken at h
  dsimp only at h ⊢
  split at h
  · exact absurd h throw_ne_ok
  obtain ⟨hvisible, h⟩ := check_eq_ok.1 h
  split at h
  · exact absurd h throw_ne_ok
  rename_i hunique
  cases pure_eq_ok.1 h
  refine ⟨validateBearerToken_ok hvisible, by simp, fun token' tenant' hlookup => ?_⟩
  rw [List.lookup_cons]
  by_cases heq : token' = token
  · subst heq
    rw [hlookup] at hunique
    simp only [Option.any_some, ne_eq, decide_eq_true_eq, not_not] at hunique
    simp [hunique]
  · have hne : (token' == token) = false := by simpa using heq
    rw [hne]
    exact hlookup

/-- A table that was accepted, by induction over its entries. -/
theorem validateTenantTokens_loop {entries identities identities' : List (String × String)}
    (h : entries.foldlM validateTenantToken identities = .ok identities') :
    (∀ entry ∈ entries, entry.2.toList.all isVisible = true ∧ identities'.lookup entry.2 = some entry.1) ∧
      ∀ token tenant, identities.lookup token = some tenant → identities'.lookup token = some tenant := by
  induction entries generalizing identities with
  | nil =>
    cases pure_eq_ok.1 h
    exact ⟨nofun, fun _ _ hlookup => hlookup⟩
  | cons entry entries ih =>
    rw [List.foldlM_cons] at h
    obtain ⟨identities₁, hentry, hrest⟩ := bind_eq_ok.1 h
    obtain ⟨hvisible, hfound, hkept⟩ := validateTenantToken_ok hentry
    obtain ⟨hfounds, hkepts⟩ := ih hrest
    refine ⟨fun e he => ?_, fun token tenant hlookup => hkepts _ _ (hkept _ _ hlookup)⟩
    rcases List.mem_cons.1 he with rfl | he
    · exact ⟨hvisible, hkepts _ _ hfound⟩
    · exact hfounds e he

/-- What the validation promises of the credentials: their tokens are visible, every token belongs to one tenant, and the token of the
administrator is visible and none of them. -/
structure Validated (server : ServerSettings) : Prop where
  visible : ∀ entry ∈ JobRequestHandler.credentials server, entry.2.toList.all isVisible = true
  unique : ∀ entry ∈ JobRequestHandler.credentials server, ∀ entry' ∈ JobRequestHandler.credentials server,
    entry.2 = entry'.2 → entry.1 = entry'.1
  admin : ∀ token, server.adminToken = some token → token.toList.all isVisible = true ∧
    ∀ entry ∈ JobRequestHandler.credentials server, entry.2 ≠ token

theorem authIdentities_ok {server : ServerSettings} {identities : List (String × String)}
    (h : authIdentities server = .ok identities) :
    ∀ token, server.authToken = some token → token.toList.all isVisible = true ∧ identities.lookup token = some "default" := by
  intro token htoken
  unfold authIdentities at h
  rw [htoken] at h
  obtain ⟨hvisible, h⟩ := check_eq_ok.1 h
  cases pure_eq_ok.1 h
  exact ⟨validateBearerToken_ok hvisible, by simp⟩

theorem validated_of_ok {server : ServerSettings} (h : validateTenantTokens server = .ok ()) : Validated server := by
  unfold validateTenantTokens at h
  obtain ⟨identities₀, hauth, h⟩ := bind_eq_ok.1 h
  obtain ⟨identities, htable, h⟩ := bind_eq_ok.1 h
  obtain ⟨hfound, hkept⟩ := validateTenantTokens_loop htable
  have hcredentials : ∀ entry ∈ JobRequestHandler.credentials server,
      entry.2.toList.all isVisible = true ∧ identities.lookup entry.2 = some entry.1 := by
    intro entry hentry
    rcases List.mem_append.1 hentry with hentry | hentry
    · exact hfound entry hentry
    · rw [Option.mem_toList, Option.map_eq_some_iff] at hentry
      obtain ⟨token, htoken, rfl⟩ := hentry
      obtain ⟨hvisible, hlookup⟩ := authIdentities_ok hauth token htoken
      exact ⟨hvisible, hkept _ _ hlookup⟩
  refine ⟨fun entry hentry => (hcredentials entry hentry).1, fun entry hentry entry' hentry' heq => ?_, fun token htoken => ?_⟩
  · have hlookup := (hcredentials entry hentry).2
    rw [heq, (hcredentials entry' hentry').2] at hlookup
    exact (Option.some.inj hlookup).symm
  · rw [htoken] at h
    obtain ⟨hvisible, h⟩ := check_eq_ok.1 h
    split at h
    · exact absurd h throw_ne_ok
    · rename_i hdistinct
      refine ⟨validateBearerToken_ok hvisible, fun entry hentry heq => hdistinct ?_⟩
      rw [← heq, (hcredentials entry hentry).2]
      rfl

/-! ## The tenant of a request -/

/-- A loop that keeps the last hit ends with the last of all hits. -/
theorem foldl_last {α β : Type} (p : α × β → Bool) (entries : List (α × β)) (before : Option α) :
    entries.foldl (fun last entry => if p entry then some entry.1 else last) before =
      (((entries.filter p).map (·.1)).getLast?).or before := by
  induction entries generalizing before with
  | nil => rfl
  | cons entry entries ih =>
    rw [List.foldl_cons, ih]
    by_cases hp : p entry = true
    · rw [if_pos hp, List.filter_cons_of_pos hp, List.map_cons, List.getLast?_cons]
      cases ((entries.filter p).map (·.1)).getLast? <;> rfl
    · rw [if_neg hp, List.filter_cons_of_neg hp]

/-- The tenant of the last credential that matches is the tenant of every credential that does. -/
theorem matchedTenant_eq_some {credentials : List (String × String)} {supplied tenant : String}
    (hunique : ∀ entry ∈ credentials, ∀ entry' ∈ credentials, bearerMatches supplied entry.2 = true →
      bearerMatches supplied entry'.2 = true → entry.1 = entry'.1) :
    JobRequestHandler.matchedTenant credentials supplied = some tenant ↔
      ∃ token, (tenant, token) ∈ credentials ∧ bearerMatches supplied token = true := by
  have hlast := foldl_last (fun entry : String × String => bearerMatches supplied entry.2) credentials none
  change JobRequestHandler.matchedTenant credentials supplied = _ at hlast
  rw [hlast, Option.or_none]
  have hmem : ∀ t, t ∈ (credentials.filter fun entry => bearerMatches supplied entry.2).map (·.1) ↔
      ∃ token, (t, token) ∈ credentials ∧ bearerMatches supplied token = true := by
    intro t
    simp
  constructor
  · intro h
    exact (hmem tenant).1 (List.mem_of_getLast? h)
  · intro h
    have hne := List.ne_nil_of_mem ((hmem tenant).2 h)
    rw [List.getLast?_eq_getLast_of_ne_nil hne, Option.some.injEq]
    obtain ⟨token', hmem', hmatch'⟩ := (hmem _).1 (List.getLast_mem hne)
    obtain ⟨token, htoken, hmatch⟩ := h
    exact hunique _ hmem' _ htoken hmatch' hmatch

variable {server : ServerSettings} {headers : RequestHeaders} {handler : JobRequestHandler}

/-- The tenant of a request: the one that has the token which the request bears. -/
theorem Validated.matched (h : Validated server) (tenant : String) :
    JobRequestHandler.matchedTenant (JobRequestHandler.credentials server) (headers.authorization.getD "") = some tenant ↔
      ∃ token, (tenant, token) ∈ JobRequestHandler.credentials server ∧ headers.authorization = some ("Bearer " ++ token) := by
  have hbears : ∀ token, headers.authorization.getD "" = "Bearer " ++ token ↔ headers.authorization = some ("Bearer " ++ token) := by
    intro token
    cases headers.authorization with
    | none => simp
    | some value => simp
  rw [matchedTenant_eq_some]
  · refine exists_congr fun token => and_congr_right fun hmem => ?_
    rw [bearerMatches_iff (h.visible _ hmem), hbears]
  · intro entry hentry entry' hentry' hmatch hmatch'
    rw [bearerMatches_iff (h.visible _ hentry)] at hmatch
    rw [bearerMatches_iff (h.visible _ hentry'), hmatch] at hmatch'
    exact h.unique _ hentry _ hentry' (by simpa using hmatch')

open JobRequestHandler

theorem claim_eq_true {tenant tenant' : String} :
    (∃ handler', handler.claim tenant headers = (true, handler') ∧ handler'.tenantId = some tenant') ↔
      tenant = tenant' ∧ (headers.tenant = none ∨ headers.tenant = some tenant) := by
  unfold JobRequestHandler.claim
  cases hclaimed : headers.tenant with
  | none => simp
  | some claimed =>
    by_cases heq : claimed = tenant
    · simp [heq]
    · simp [heq, refuse]

/-- The tenants that a handler authorizes a request for. -/
def Authorizes (server : ServerSettings) (headers : RequestHeaders) (handler : JobRequestHandler) (tenant : String) : Prop :=
  ∃ handler', handler.authorizedTenant server headers = (true, handler') ∧ handler'.tenantId = some tenant

theorem Validated.authorizes (h : Validated server) (hcredentials : credentials server ≠ []) (tenant : String) :
    Authorizes server headers handler tenant ↔
      (∃ token, (tenant, token) ∈ credentials server ∧ headers.authorization = some ("Bearer " ++ token)) ∧
        (headers.tenant = none ∨ headers.tenant = some tenant) := by
  rw [← h.matched]
  unfold Authorizes authorizedTenant
  rw [if_neg (by simpa using hcredentials)]
  cases hmatched : matchedTenant (credentials server) (headers.authorization.getD "") with
  | none => simp [refuse]
  | some matched =>
    simp only [claim_eq_true, Option.some.injEq]
    constructor
    · rintro ⟨rfl, hclaimed⟩
      exact ⟨rfl, hclaimed⟩
    · rintro ⟨rfl, hclaimed⟩
      exact ⟨rfl, hclaimed⟩

/-- A request that bears no token of a tenant is refused. -/
theorem Validated.refused (h : Validated server) (hcredentials : credentials server ≠ [])
    (hbears : ∀ entry ∈ credentials server, headers.authorization ≠ some ("Bearer " ++ entry.2)) :
    (handler.authorizedTenant server headers).1 = false := by
  unfold authorizedTenant
  rw [if_neg (by simpa using hcredentials)]
  cases hmatched : matchedTenant (credentials server) (headers.authorization.getD "") with
  | none => rfl
  | some tenant =>
    obtain ⟨token, hmem, hauthorization⟩ := (h.matched tenant).1 hmatched
    exact absurd hauthorization (hbears _ hmem)

/-- Settings with the table in another order are validated with the same credentials. -/
theorem Validated.perm {server' : ServerSettings} (h : Validated server)
    (hperm : (credentials server').Perm (credentials server)) (hadmin : server'.adminToken = server.adminToken) :
    Validated server' where
  visible entry hentry := h.visible entry (hperm.mem_iff.1 hentry)
  unique entry hentry entry' hentry' := h.unique entry (hperm.mem_iff.1 hentry) entry' (hperm.mem_iff.1 hentry')
  admin token htoken := by
    obtain ⟨hvisible, hdistinct⟩ := h.admin token (hadmin ▸ htoken)
    exact ⟨hvisible, fun entry hentry => hdistinct entry (hperm.mem_iff.1 hentry)⟩

/-- The order of the table does not matter. -/
theorem Validated.authorizedTenant_perm {server' : ServerSettings} (h : Validated server)
    (hperm : (credentials server').Perm (credentials server)) (hadmin : server'.adminToken = server.adminToken) :
    handler.authorizedTenant server' headers = handler.authorizedTenant server headers := by
  have hmatched : matchedTenant (credentials server') (headers.authorization.getD "") =
      matchedTenant (credentials server) (headers.authorization.getD "") := by
    refine Option.ext fun tenant => ?_
    rw [h.matched, (h.perm hperm hadmin).matched]
    exact exists_congr fun token => and_congr_left fun _ => hperm.mem_iff
  unfold authorizedTenant
  rw [hmatched, hperm.isEmpty_eq]

/-- The token of a tenant does not open the detailed health, and nothing does where no token is configured for it. -/
theorem Validated.admin_refused (h : Validated server) (hcredentials : credentials server ≠ [])
    (hbears : ∀ token, server.adminToken = some token →
      ∃ entry ∈ credentials server, headers.authorization = some ("Bearer " ++ entry.2)) :
    (handler.authorizedAdmin server headers).1 = false := by
  unfold authorizedAdmin
  cases hadmin : server.adminToken with
  | none =>
    have hsome : ¬ (server.authToken.isNone = true ∧ server.tenantTokens.isEmpty = true) := by
      rintro ⟨hauth, htable⟩
      exact hcredentials (by simp [credentials, List.isEmpty_iff.1 htable, Option.isNone_iff_eq_none.1 hauth])
    dsimp only
    rw [if_neg hsome]
    rfl
  | some expected =>
    obtain ⟨entry, hentry, hauthorization⟩ := hbears expected hadmin
    obtain ⟨hvisible, hdistinct⟩ := h.admin expected hadmin
    have hmiss : bearerMatches (headers.authorization.getD "") expected = false := by
      rw [Bool.eq_false_iff, ne_eq, bearerMatches_iff hvisible, hauthorization]
      simpa using hdistinct entry hentry
    simp [hmiss, refuse]

/-- The paths that are open to others than tenants. -/
def healthPaths : List String := ["/health/state", "/health/live", "/health/ready"]

/-- Authentication under validated settings with a credential: who is authorized as which tenant, that the tenant is unique and does not
depend on the order of the table, and what the token of the administrator and those of the tenants do not open. -/
theorem authentication_sound (server : ServerSettings) (hvalid : validateTenantTokens server = .ok ())
    (hcredentials : credentials server ≠ []) :
    (∀ headers handler tenant, Authorizes server headers handler tenant ↔
      (∃ token, (tenant, token) ∈ credentials server ∧ headers.authorization = some ("Bearer " ++ token)) ∧
        (headers.tenant = none ∨ headers.tenant = some tenant)) ∧
    (∀ tenant tenant' token, (tenant, token) ∈ credentials server → (tenant', token) ∈ credentials server → tenant = tenant') ∧
    (∀ server' : ServerSettings, server'.tenantTokens.Perm server.tenantTokens → server'.authToken = server.authToken →
      server'.adminToken = server.adminToken → ∀ (headers : RequestHeaders) (handler : JobRequestHandler),
        handler.authorizedTenant server' headers = handler.authorizedTenant server headers) ∧
    (∀ admin headers (handler : JobRequestHandler), server.adminToken = some admin →
      headers.authorization = some ("Bearer " ++ admin) →
        (handler.doPost server headers).1 = false ∧ ∀ path ∉ healthPaths, (handler.doGet server path headers).1 = false) ∧
    (∀ entry ∈ credentials server, ∀ headers (handler : JobRequestHandler),
      headers.authorization = some ("Bearer " ++ entry.2) → (handler.doGet server "/health/state" headers).1 = false) ∧
    (server.adminToken = none → ∀ headers (handler : JobRequestHandler),
      (handler.doGet server "/health/state" headers).1 = false) := by
  have h := validated_of_ok hvalid
  refine ⟨fun _ _ tenant => h.authorizes hcredentials tenant, fun tenant tenant' token hmem hmem' => h.unique _ hmem _ hmem' rfl,
    fun server' htable hauth hadmin headers handler => ?_, fun admin headers handler hadmin hauthorization => ?_,
    fun entry hentry headers handler hauthorization => ?_, fun hadmin headers handler => ?_⟩
  · refine h.authorizedTenant_perm ?_ hadmin
    unfold credentials
    rw [hauth]
    exact htable.append_right _
  · have hrefused : (handler.authorizedTenant server headers).1 = false := by
      refine h.refused hcredentials fun entry hentry hbears => (h.admin admin hadmin).2 entry hentry ?_
      rw [hauthorization] at hbears
      simpa using hbears.symm
    refine ⟨hrefused, fun path hpath => ?_⟩
    simp only [healthPaths, List.mem_cons, List.not_mem_nil, or_false, not_or] at hpath
    simp [doGet, hpath, hrefused]
  · exact h.admin_refused hcredentials fun _ _ => ⟨entry, hentry, hauthorization⟩
  · exact h.admin_refused hcredentials fun token htoken => absurd (hadmin.symm.trans htoken) nofun

/-- Settings where the default tenant has two tokens. -/
def sampleSettings : ServerSettings :=
  { authToken := some "main", adminToken := some "root", tenantTokens := [("default", "spare"), ("alpha", "other")] }

theorem authentication_sound_sample :
    Authorizes sampleSettings { authorization := some "Bearer other", tenant := some "alpha" } {} "alpha" ∧
    (doPost sampleSettings { authorization := some "Bearer root" } {}).1 = false :=
  have h := authentication_sound sampleSettings (by decide) (by decide)
  ⟨(h.1 _ _ _).2 ⟨⟨"other", by decide, by decide⟩, by decide⟩, (h.2.2.2.1 "root" _ _ rfl rfl).1⟩

end Service

end SharkRail
