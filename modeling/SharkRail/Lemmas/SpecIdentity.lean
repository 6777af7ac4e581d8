import SharkRail.Lemmas.SpecText
import SharkRail.Lib.JsonIdentity

/-!
# Which specifications have one text

A specification is written with the entries of its environment in order and every string as its text spells it (`canonical`), and two
specifications have one text when that is the same (`specText_eq_iff`). They are equal when they are the same with the numbers taken by
value (`equals_iff`).
-/

namespace SharkRail

open Fallible PyStr PyJson

namespace JobSpec

variable {F : FloatText} {spec spec' : JobSpec}

/-! ## What was read -/

/-- The fields that `from_dict` reads, of a payload it accepts. -/
structure ReadFrom (value : List (PyStr × PyJson)) (spec : JobSpec) : Prop where
  valid : spec.Valid
  command : getD value "command" .null = .arr spec.command
  env : getD value "env" .null = envJson spec.env
  endpoint : spec.callbackEndpointId = getD value "callback_endpoint_id" .null ∨
    ∃ callback, getD value "callback" .null = .obj callback ∧ spec.callbackEndpointId = getD callback "endpoint_id" .null
  timeout : spec.timeoutSeconds = timeoutOf (getD value "timeout_seconds" .null)
  cwd : spec.cwd = getD value "cwd" .null
  idleTimeout : spec.idleTimeoutSeconds = getD value "idle_timeout_seconds" .null
  outputCap : spec.maxOutputBytes = getD value "max_output_bytes" (.int defaultJobMaxOutputBytes)
  desired : spec.desiredState = getD value "desired_state" (.str (ofString "active"))

/-- The endpoint of a payload is the one it names, or that of its callback. -/
theorem callbackOf_eq_ok {value : List (PyStr × PyJson)} {endpoint : PyJson} (h : callbackOf value = .ok endpoint) :
    endpoint = getD value "callback_endpoint_id" .null ∨
      ∃ callback, getD value "callback" .null = .obj callback ∧ endpoint = getD callback "endpoint_id" .null := by
  unfold callbackOf at h
  split at h
  · exact .inl (pure_eq_ok.1 h).symm
  · rename_i callback hcallback
    split at h
    · cases h
    · split at h
      · cases h
      · exact .inr ⟨callback, hcallback, (pure_eq_ok.1 h).symm⟩
  · cases h

/-- The specification that is read with an environment and an endpoint. -/
def readSpec (value : List (PyStr × PyJson)) (command : List PyJson) (env : Option (List (PyStr × PyJson))) (endpoint : PyJson) :
    JobSpec where
  command := command
  cwd := getD value "cwd" .null
  env := env
  timeoutSeconds := timeoutOf (getD value "timeout_seconds" .null)
  idleTimeoutSeconds := getD value "idle_timeout_seconds" .null
  maxOutputBytes := getD value "max_output_bytes" (.int defaultJobMaxOutputBytes)
  callbackEndpointId := endpoint
  desiredState := getD value "desired_state" (.str (ofString "active"))

/-- A specification that was accepted was read from its payload. -/
theorem readFrom_of_fromDict {value : List (PyStr × PyJson)} (h : fromDict value = .ok spec) : ReadFrom value spec := by
  have hrest : ∀ command env, getD value "command" .null = .arr command → getD value "env" .null = envJson env →
      (callbackOf value >>= fun endpoint => (readSpec value command env endpoint).validate >>= fun _ =>
        pure (readSpec value command env endpoint)) = .ok spec → ReadFrom value spec := by
    intro command env hcommand henv h
    rw [bind_eq_ok] at h
    obtain ⟨endpoint, hendpoint, h⟩ := h
    rw [check_eq_ok, pure_eq_ok] at h
    obtain ⟨hvalid, rfl⟩ := h
    exact ⟨validate_eq_ok.1 hvalid, hcommand, henv, callbackOf_eq_ok hendpoint, rfl, rfl, rfl, rfl, rfl⟩
  unfold fromDict at h
  cases hunknown : unknownField jobSpecFields value with
  | some k =>
    rw [hunknown] at h
    cases h
  | none =>
    rw [hunknown] at h
    cases hcommand : getD value "command" .null with
    | arr command =>
      rw [hcommand] at h
      cases henv : getD value "env" .null with
      | null =>
        rw [henv] at h
        exact hrest command none hcommand henv h
      | obj env =>
        rw [henv] at h
        exact hrest command (some env) hcommand henv h
      | bool | int | float | str | arr =>
        rw [henv] at h
        cases h
    | null | bool | int | float | str | obj =>
      rw [hcommand] at h
      cases h

/-- A value that is got from a dictionary of Python is one, where the default is. -/
theorem isPython_getD {value : List (PyStr × PyJson)} (h : MembersPython value) (key : String) {default : PyJson}
    (hdefault : PyJson.IsPython default) : PyJson.IsPython (getD value key default) := by
  unfold getD get?
  cases hfind : value.find? fun m => m.1 = ofString key with
  | none => exact hdefault
  | some m => exact membersPython_iff.1 h m (List.mem_of_find?_eq_some hfind)

/-- What is read of a value that a program can hold is such a value. -/
theorem ReadFrom.isPython {value : List (PyStr × PyJson)} (h : ReadFrom value spec) (hvalue : PyJson.IsPython (.obj value)) :
    spec.IsPython := by
  have hget : ∀ (key : String) {default : PyJson}, PyJson.IsPython default → PyJson.IsPython (getD value key default) :=
    fun key _ hdefault => isPython_getD hvalue.2 key hdefault
  have hcommand : ItemsPython spec.command := by
    have hitems : PyJson.IsPython (getD value "command" .null) := hget "command" trivial
    rwa [h.command] at hitems
  have henv : PyJson.IsPython (envJson spec.env) := by
    rw [← h.env]
    exact hget "env" trivial
  have htimeout : PyJson.IsPython spec.timeoutSeconds := by
    rw [h.timeout]
    have hread : PyJson.IsPython (getD value "timeout_seconds" .null) := hget "timeout_seconds" trivial
    revert hread
    cases getD value "timeout_seconds" .null with
    | null => exact fun _ => trivial
    | bool | int | float | str | arr | obj => exact id
  have hendpoint : PyJson.IsPython spec.callbackEndpointId := by
    rcases h.endpoint with heq | ⟨callback, hcallback, heq⟩
    · rw [heq]
      exact hget "callback_endpoint_id" trivial
    · have hobj : PyJson.IsPython (getD value "callback" .null) := hget "callback" trivial
      rw [hcallback] at hobj
      rw [heq]
      exact isPython_getD hobj.2 "endpoint_id" trivial
  refine ⟨nodup_toDict _, hcommand, ?_, henv, htimeout, ?_, ?_, hendpoint, ?_, trivial⟩
  · rw [h.cwd]
    exact hget "cwd" trivial
  · rw [h.idleTimeout]
    exact hget "idle_timeout_seconds" trivial
  · rw [h.outputCap]
    exact hget "max_output_bytes" trivial
  · rw [h.desired]
    exact hget "desired_state" trivial

/-- The strings of what is found under a key. -/
theorem mem_strings_getD {value : List (PyStr × PyJson)} {key : String} {default : PyJson} {s : PyStr}
    (h : s ∈ strings (getD value key default)) : s ∈ strings (.obj value) ∨ s ∈ strings default := by
  unfold getD get? at h
  cases hfind : value.find? fun m => m.1 = ofString key with
  | none =>
    rw [hfind] at h
    exact .inr h
  | some m =>
    rw [hfind] at h
    exact .inl (mem_memberStrings.2 ⟨m, List.mem_of_find?_eq_some hfind, .inr h⟩)

/-- Where no string of a payload has a pair of surrogates, no string of the specification has. -/
theorem ReadFrom.joined {value : List (PyStr × PyJson)} (h : ReadFrom value spec) (hvalue : ∀ s ∈ strings (.obj value), PyStr.Joined s) :
    spec.Joined := by
  have hget : ∀ (key : String) {default : PyJson}, (∀ s ∈ strings default, PyStr.Joined s) →
      ∀ s ∈ strings (getD value key default), PyStr.Joined s :=
        fun key _ hdefault s hs => (mem_strings_getD hs).elim (hvalue s) (hdefault s)
  have hfield : ∀ m ∈ spec.toDict, ∀ s ∈ strings m.2, PyStr.Joined s := by
    simp only [toDict, List.forall_mem_cons, List.not_mem_nil, false_imp_iff, implies_true, and_true]
    refine ⟨?_, ?_, ?_, ?_, ?_, ?_, ?_, ?_⟩
    · rw [← h.command]
      exact hget "command" (by simp [strings])
    · rw [h.cwd]
      exact hget "cwd" (by simp [strings])
    · rw [← h.env]
      exact hget "env" (by simp [strings])
    · rw [h.timeout]
      have hread : ∀ s ∈ strings (getD value "timeout_seconds" .null), PyStr.Joined s := hget "timeout_seconds" (by simp [strings])
      revert hread
      cases getD value "timeout_seconds" .null with
      | null => exact fun _ s hs => absurd hs List.not_mem_nil
      | bool | int | float | str | arr | obj => exact id
    · rw [h.idleTimeout]
      exact hget "idle_timeout_seconds" (by simp [strings])
    · rw [h.outputCap]
      exact hget "max_output_bytes" (by simp [strings])
    · rcases h.endpoint with heq | ⟨callback, hcallback, heq⟩
      · rw [heq]
        exact hget "callback_endpoint_id" (by simp [strings])
      · have hobj : ∀ s ∈ strings (getD value "callback" .null), PyStr.Joined s := hget "callback" (by simp [strings])
        rw [hcallback] at hobj
        rw [heq]
        exact fun s hs => (mem_strings_getD hs).elim (hobj s) (by simp [strings])
    · rw [h.desired]
      refine hget "desired_state" fun s hs => ?_
      rw [List.mem_singleton.1 hs]
      exact joined_ofString _
  intro s hs
  obtain ⟨m, hm, rfl | hs⟩ := mem_strings_toDict.1 hs
  · obtain ⟨k, hk⟩ : ∃ k, m.1 = ofString k := by
      simp only [toDict, List.mem_cons, List.not_mem_nil, or_false] at hm
      rcases hm with rfl | rfl | rfl | rfl | rfl | rfl | rfl | rfl <;> exact ⟨_, rfl⟩
    rw [hk]
    exact joined_ofString k
  · exact hfield m hm s hs

/-! ## Texts -/

/-- The specification with its strings as its text spells them. -/
def spelled (spec : JobSpec) : JobSpec where
  command := spelledItems true spec.command
  cwd := PyJson.spelled true spec.cwd
  env := spec.env.map (spelledMembers true)
  timeoutSeconds := PyJson.spelled true spec.timeoutSeconds
  idleTimeoutSeconds := PyJson.spelled true spec.idleTimeoutSeconds
  maxOutputBytes := PyJson.spelled true spec.maxOutputBytes
  callbackEndpointId := PyJson.spelled true spec.callbackEndpointId
  desiredState := PyJson.spelled true spec.desiredState

/-- The specification as its text has it: its environment in order, its pairs of surrogates joined. -/
def canonical (spec : JobSpec) : JobSpec := spec.sorted.spelled

/-- The spelling of the dictionary is the dictionary of the spelled specification. -/
theorem spelledMembers_toDict (spec : JobSpec) : spelledMembers true spec.toDict = spec.spelled.toDict := by
  have hkey : ∀ k : String, rereadStr true (ofString k) = ofString k := fun k => rereadStr_of_joined (joined_ofString k) true
  have henv : PyJson.spelled true (envJson spec.env) = envJson spec.spelled.env := by
    unfold JobSpec.spelled
    cases spec.env with
    | none => rfl
    | some env => rfl
  simp only [toDict, spelledMembers, hkey, henv, PyJson.spelled]
  rfl

/-- An object is spelled member by member. -/
theorem spelledMembers_eq_map (members : List (PyStr × PyJson)) :
    spelledMembers true members = members.map fun m => (rereadStr true m.1, PyJson.spelled true m.2) := by
  induction members with
  | nil => rfl
  | cons m ms ih =>
    obtain ⟨k, x⟩ := m
    rw [spelledMembers, ih]
    rfl

/-- Members with the same keys, each once, that are the same but for their order. -/
theorem eq_of_perm_of_keys {members members' : List (PyStr × PyJson)} (h : members.Perm members')
    (hkeys : members.map (·.1) = members'.map (·.1)) (hnodup : (members.map (·.1)).Nodup) : members = members' := by
  induction members generalizing members' with
  | nil => exact h.nil_eq
  | cons m ms ih =>
    cases members' with
    | nil => cases hkeys
    | cons m' ms' =>
      rw [List.map_cons, List.map_cons, List.cons.injEq] at hkeys
      have hmem : m ∈ m' :: ms' := h.subset List.mem_cons_self
      have hsame : m = m' := by
        rcases List.mem_cons.1 hmem with hsame | hmem
        · exact hsame
        · rw [List.map_cons, List.nodup_cons] at hnodup
          exact absurd (hkeys.2 ▸ List.mem_map_of_mem hmem) hnodup.1
      subst hsame
      rw [ih h.cons_inv hkeys.2 (List.nodup_cons.1 hnodup).2]

/-- The dictionary of a valid specification, as it is written. -/
theorem Valid.sortKeys_toDict (h : spec.Valid) :
    sortKeys (.obj spec.toDict) = .obj (spec.sorted.toDict.insertionSort fun a b => a.1 ≤ b.1) := by
  rw [sortKeys, h.sortKeysMembers_toDict]

/-- What is written of a dictionary, in the order of its keys. -/
theorem spelledMembers_sort (spec : JobSpec) :
    spelledMembers true (spec.toDict.insertionSort fun a b => a.1 ≤ b.1) = spec.spelled.toDict.insertionSort fun a b => a.1 ≤ b.1 := by
  have hkey : ∀ m ∈ spec.toDict, rereadStr true m.1 = m.1 := by
    have hkeys : ∀ k ∈ ([ofString "command", ofString "cwd", ofString "env", ofString "timeout_seconds", ofString "idle_timeout_seconds",
        ofString "max_output_bytes", ofString "callback_endpoint_id", ofString "desired_state"] : List PyStr), rereadStr true k = k := by
          decide
    exact fun m hm => hkeys m.1 (List.mem_map_of_mem hm)
  rw [← spelledMembers_toDict, spelledMembers_eq_map, spelledMembers_eq_map]
  refine List.map_insertionSort _ _ _ _ fun a ha b hb => ?_
  rw [hkey a ha, hkey b hb]

/-- Two specifications have one text when they are canonically the same. -/
theorem specText_eq_iff (F : FloatText) (h : spec.Valid) (h' : spec'.Valid) (hpython : spec.IsPython) (hpython' : spec'.IsPython) :
    specText F spec = specText F spec' ↔ spec.canonical = spec'.canonical := by
  have hkeys : ∀ spec spec' : JobSpec, spec.toDict.map (·.1) = spec'.toDict.map (·.1) := fun _ _ => rfl
  have hsorted : ∀ {spec : JobSpec}, spec.IsPython → PyJson.IsPython (.obj (spec.sorted.toDict.insertionSort fun a b => a.1 ≤ b.1)) :=
    fun hpython => isPython_obj_perm (perm_sort _).symm (isPython_sorted hpython)
  unfold specText
  rw [h.sortKeys_toDict, h'.sortKeys_toDict, dumps_eq_iff F specStyle (hsorted hpython) (hsorted hpython')]
  change PyJson.obj (spelledMembers true _) = PyJson.obj (spelledMembers true _) ↔ _
  rw [PyJson.obj.injEq, spelledMembers_sort, spelledMembers_sort]
  constructor
  · intro hsame
    have hperm : spec.canonical.toDict.Perm spec'.canonical.toDict := (perm_sort _).symm.trans (hsame ▸ perm_sort _)
    exact toDict_injective (eq_of_perm_of_keys hperm (hkeys _ _) (nodup_toDict _))
  · intro hsame
    change spec.canonical.toDict.insertionSort _ = spec'.canonical.toDict.insertionSort _
    rw [hsame]

/-- A text is ASCII, so its bytes tell it. -/
theorem requestHash_eq_iff (F : FloatText) {sha256 : List UInt8 → String} (hsha : Function.Injective sha256) (h : spec.Valid)
    (h' : spec'.Valid)
    (hpython : spec.IsPython) (hpython' : spec'.IsPython) :
    spec.requestHash F sha256 = spec'.requestHash F sha256 ↔ spec.canonical = spec'.canonical := by
  have hascii : ∀ (spec : JobSpec), ∀ c ∈ specText F spec, c.val < 128 := fun spec c hc => ascii_dumps rfl hc
  rw [← specText_eq_iff F h h' hpython hpython']
  unfold requestHash
  rw [encode_of_ascii (hascii spec), encode_of_ascii (hascii spec'), Option.map_some, Option.map_some, Option.some.injEq, hsha.eq_iff]
  exact ⟨eq_of_ascii (hascii spec) (hascii spec'), fun hsame => by rw [hsame]⟩

/-! ## Equal specifications -/

/-- Strings and nulls are equal where they are the same. -/
theorem equals_of_strings {v w : PyJson} (hv : isNull v = true ∨ isStr v = true) (hw : isNull w = true ∨ isStr w = true) :
    PyJson.equals v w = true ↔ v = w := by
  cases v <;> cases w <;> simp_all [isNull, isStr, PyJson.equals, numbersEqual, number]

/-- Lists of strings are equal where they are the same. -/
theorem equalsItems_of_strings {xs ys : List PyJson} (hxs : ∀ v ∈ xs, isStr v = true) (hys : ∀ v ∈ ys, isStr v = true) :
    equalsItems xs ys = true ↔ xs = ys := by
  induction xs generalizing ys with
  | nil => cases ys <;> simp [equalsItems]
  | cons x xs ih =>
    cases ys with
    | nil => simp [equalsItems]
    | cons y ys =>
      rw [List.forall_mem_cons] at hxs hys
      rw [equalsItems, Bool.and_eq_true, equals_of_strings (.inr hxs.1) (.inr hys.1), ih hxs.2 hys.2, List.cons.injEq]

/-- A number of seconds, as a float. -/
def asFloat : PyJson → PyJson
  | .int n => .float (.finite n)
  | v => v

/-- Timeouts are equal where their floats are. -/
theorem equals_of_timeouts {v w : PyJson} (hv : isNull v = true ∨ isTimeout v = true) (hw : isNull w = true ∨ isTimeout w = true) :
    PyJson.equals v w = true ↔ asFloat v = asFloat w := by
  have hcases : ∀ v : PyJson, isNull v = true ∨ isTimeout v = true → v = .null ∨ (∃ n, v = .int n) ∨ ∃ q, v = .float (.finite q) := by
    intro v hv
    cases v with
    | null => exact .inl rfl
    | int n => exact .inr (.inl ⟨n, rfl⟩)
    | float x =>
      cases x with
      | finite q => exact .inr (.inr ⟨q, rfl⟩)
      | inf | nan => exact absurd hv (by simp [isNull, isTimeout])
    | bool | str | arr | obj => exact absurd hv (by simp [isNull, isTimeout])
  rcases hcases v hv with rfl | ⟨n, rfl⟩ | ⟨q, rfl⟩ <;> rcases hcases w hw with rfl | ⟨n', rfl⟩ | ⟨q', rfl⟩ <;>
    simp [PyJson.equals, numbersEqual, number, asFloat]

/-- Caps of the output are equal where they are the same. -/
theorem equals_of_outputCaps {v w : PyJson} (hv : isOutputCap v = true) (hw : isOutputCap w = true) : PyJson.equals v w = true ↔ v = w := by
  cases v <;> cases w <;> simp_all [isOutputCap, PyJson.equals, numbersEqual, number]

/-- The members of two objects of strings are equal, key by key. -/
theorem equalsMembers_of_strings {ms ms' : List (PyStr × PyJson)} (hms : ∀ m ∈ ms, isStr m.2 = true) (hms' : ∀ m ∈ ms', isStr m.2 = true) :
    equalsMembers ms ms' = true ↔ ∀ m ∈ ms, get? ms' m.1 = some m.2 := by
  induction ms with
  | nil => simp [equalsMembers]
  | cons m ms ih =>
    obtain ⟨k, x⟩ := m
    rw [List.forall_mem_cons] at hms
    rw [equalsMembers, Bool.and_eq_true, ih hms.2, List.forall_mem_cons]
    refine and_congr ?_ Iff.rfl
    cases hfound : get? ms' k with
    | none => simp
    | some y =>
      have hy : isStr y = true := by
        unfold get? at hfound
        obtain ⟨m', hm', rfl⟩ := Option.map_eq_some_iff.1 hfound
        exact hms' m' (List.mem_of_find?_eq_some hm')
      rw [Option.some.injEq]
      exact (equals_of_strings (.inr hms.1) (.inr hy)).trans eq_comm

/-- Two objects of strings are equal when their members are the same in key order. -/
theorem equals_of_environments {ms ms' : List (PyStr × PyJson)} (hms : ∀ m ∈ ms, isStr m.2 = true) (hms' : ∀ m ∈ ms', isStr m.2 = true)
    (hkeys : (ms.map (·.1)).Nodup) (hkeys' : (ms'.map (·.1)).Nodup) :
    PyJson.equals (.obj ms) (.obj ms') = true ↔
      (ms.insertionSort fun a b => a.1 ≤ b.1) = ms'.insertionSort fun a b => a.1 ≤ b.1 := by
  rw [PyJson.equals, Bool.and_eq_true, decide_eq_true_eq, equalsMembers_of_strings hms hms']
  constructor
  · rintro ⟨hlength, hget⟩
    have hsubset : ms ⊆ ms' := by
      intro m hm
      have hfound := hget m hm
      unfold get? at hfound
      obtain ⟨m', hm', hvalue⟩ := Option.map_eq_some_iff.1 hfound
      have hkey : m'.1 = m.1 := by simpa using List.find?_some hm'
      rw [← Prod.ext hkey hvalue]
      exact List.mem_of_find?_eq_some hm'
    have hperm : ms.Perm ms' := (List.subperm_of_subset (List.Nodup.of_map _ hkeys) hsubset).perm_of_length_le hlength.ge
    have hsorted : ∀ l : List (PyStr × PyJson), ((l.insertionSort fun a b => a.1 ≤ b.1).map (·.1)).Pairwise (· ≤ ·) := by
      intro l
      have htotal : Std.Total fun a b : PyStr × PyJson => a.1 ≤ b.1 := ⟨fun a b => le_total a.1 b.1⟩
      have htrans : IsTrans (PyStr × PyJson) fun a b => a.1 ≤ b.1 := ⟨fun _ _ _ h h' => le_trans h h'⟩
      exact List.pairwise_map.2 (List.pairwise_insertionSort _ l)
    have hsort := ((perm_sort ms).trans hperm).trans (perm_sort ms').symm
    refine eq_of_perm_of_keys hsort ?_ ((((perm_sort ms).map _).nodup_iff).2 hkeys)
    exact (hsort.map _).eq_of_pairwise' (hsorted ms) (hsorted ms')
  · intro hsame
    have hperm : ms.Perm ms' := (perm_sort ms).symm.trans (hsame ▸ perm_sort ms')
    exact ⟨hperm.length_eq, fun m hm => get?_of_mem hkeys' (hperm.subset hm)⟩

/-- The specification with its environment in order and its numbers of seconds by value. -/
def byValue (spec : JobSpec) : JobSpec :=
  { spec.sorted with timeoutSeconds := asFloat spec.timeoutSeconds, idleTimeoutSeconds := asFloat spec.idleTimeoutSeconds }

/-- Two valid specifications are equal when they are the same by value. -/
theorem equals_iff (h : spec.Valid) (h' : spec'.Valid) (hpython : spec.IsPython) (hpython' : spec'.IsPython) :
    spec.equals spec' = true ↔ spec.byValue = spec'.byValue := by
  have hstring : ∀ {v : PyJson}, isNull v = true ∨ isEndpointId v = true → isNull v = true ∨ isStr v = true :=
    fun hv => hv.imp_right isStr_of_isEndpointId
  have henv : PyJson.equals (envJson spec.env) (envJson spec'.env) = true ↔ spec.sorted.env = spec'.sorted.env := by
    obtain ⟨-, -, -, henv, -⟩ := hpython
    obtain ⟨-, -, -, henv', -⟩ := hpython'
    have hentries := h.env
    have hentries' := h'.env
    unfold JobSpec.sorted
    cases hspec : spec.env with
    | none => cases hspec' : spec'.env <;> simp [envJson, PyJson.equals, numbersEqual, number]
    | some env =>
      cases hspec' : spec'.env with
      | none => simp [envJson, PyJson.equals, numbersEqual, number]
      | some env' =>
        rw [hspec] at henv hentries
        rw [hspec'] at henv' hentries'
        have hstr : ∀ {e : PyStr × PyJson}, isEnvEntry e = true → isStr e.2 = true := fun he => by
          unfold isEnvEntry at he
          rw [Bool.and_eq_true] at he
          exact he.2
        rw [Option.map_some, Option.map_some, Option.some.injEq]
        exact equals_of_environments (fun m hm => hstr (hentries m hm)) (fun m hm => hstr (hentries' m hm)) henv.1 henv'.1
  unfold JobSpec.equals
  simp only [Bool.and_eq_true]
  rw [equalsItems_of_strings h.isStr_command h'.isStr_command, equals_of_strings h.cwd h'.cwd, henv,
    equals_of_timeouts (.inr h.timeout) (.inr h'.timeout), equals_of_timeouts h.idleTimeout h'.idleTimeout,
    equals_of_outputCaps h.outputCap h'.outputCap, equals_of_strings (hstring h.endpoint) (hstring h'.endpoint),
    equals_of_strings (.inr (isStr_of_isDesiredState h.desired)) (.inr (isStr_of_isDesiredState h'.desired))]
  simp only [byValue, JobSpec.sorted, JobSpec.mk.injEq, and_assoc]

end JobSpec

end SharkRail
