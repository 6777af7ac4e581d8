import SharkRail.Jobs.SpecText
import SharkRail.Lib.Fallible
import SharkRail.Lib.JsonEncoding

/-!
# The specification and its text

The text of a valid specification is read back as the specification with every pair of surrogates joined (`readText_specText`), which is
valid again. Reading a specification looks up its fields, so the order of the members does not count (`fromDict_perm`).
-/

namespace SharkRail

open Fallible PyStr PyJson

namespace JobSpec

variable {F : FloatText} {spec : JobSpec} {a : Bool}

/-! ## Checks -/

/-- A specification that passes its checks. -/
structure Valid (spec : JobSpec) : Prop where
  command : spec.commandOk = true
  cwd : isNull spec.cwd = true ∨ isStr spec.cwd = true
  env : ∀ e ∈ spec.env.getD [], isEnvEntry e = true
  timeout : isTimeout spec.timeoutSeconds = true
  idleTimeout : isNull spec.idleTimeoutSeconds = true ∨ isTimeout spec.idleTimeoutSeconds = true
  outputCap : isOutputCap spec.maxOutputBytes = true
  endpoint : isNull spec.callbackEndpointId = true ∨ isEndpointId spec.callbackEndpointId = true
  desired : isDesiredState spec.desiredState = true

/-- `validate` returns on exactly the valid specifications. -/
theorem validate_eq_ok : spec.validate = .ok () ↔ spec.Valid := by
  constructor
  · intro h
    unfold validate at h
    split_ifs at h with h1 h2 h3 h4 h5 h6 h7
    refine ⟨by simpa using h1, ?_, by simpa using h3, by simpa using h4, ?_, by simpa using h6, ?_, ?_⟩
    · simpa [or_iff_not_imp_left] using h2
    · simpa [or_iff_not_imp_left] using h5
    · simpa [or_iff_not_imp_left] using h7
    · split at h
      · cases h
      · cases h
      · split_ifs at h with h8
        simpa using h8
  · rintro ⟨h1, h2, h3, h4, h5, h6, h7, h8⟩
    have h2' : ¬(!isNull spec.cwd && !isStr spec.cwd) = true := by simpa [or_iff_not_imp_left] using h2
    have h3' : (spec.env.getD []).all isEnvEntry = true := List.all_eq_true.2 h3
    have h5' : ¬(!isNull spec.idleTimeoutSeconds && !isTimeout spec.idleTimeoutSeconds) = true := by
      simpa [or_iff_not_imp_left] using h5
    have h7' : ¬(!isNull spec.callbackEndpointId && !isEndpointId spec.callbackEndpointId) = true := by
      simpa [or_iff_not_imp_left] using h7
    unfold validate
    rw [if_neg (by simp [h1]), if_neg h2', if_neg (by simp [h3']), if_neg (by simp [h4]), if_neg h5', if_neg (by simp [h6]), if_neg h7']
    split
    · rename_i hdesired
      rw [hdesired] at h8
      cases h8
    · rename_i hdesired
      rw [hdesired] at h8
      cases h8
    · rw [if_neg (by simp [h8])]
      rfl

/-- What a program can hold. -/
def IsPython (spec : JobSpec) : Prop := PyJson.IsPython (.obj spec.toDict)

/-! ## Reading the dictionary -/

/-- What is read of an object: its fields, and the first key that is none of them. -/
theorem fromDict_congr {x y : List (PyStr × PyJson)} (hget : ∀ key, get? x key = get? y key)
    (hunknown : unknownField jobSpecFields x = unknownField jobSpecFields y) : fromDict x = fromDict y := by
  have hgetD : ∀ key default, getD x key default = getD y key default := fun key default => by
    unfold getD
    rw [hget]
  unfold fromDict callbackOf
  simp only [hgetD, hunknown]

/-- The order of the members does not count. -/
theorem fromDict_perm {x y : List (PyStr × PyJson)} (h : x.Perm y) (hkeys : (x.map (·.1)).Nodup)
    (hknown : ∀ m ∈ x, m.1 ∈ jobSpecFields) : fromDict x = fromDict y := by
  have hnone : ∀ {z : List (PyStr × PyJson)}, (∀ m ∈ z, m.1 ∈ jobSpecFields) → unknownField jobSpecFields z = none := by
    intro z hz
    unfold unknownField
    rw [List.min?_eq_none_iff, List.filter_eq_nil_iff]
    intro k hk
    obtain ⟨m, hm, rfl⟩ := List.mem_map.1 hk
    simpa using hz m hm
  refine fromDict_congr (get?_perm h hkeys) ?_
  rw [hnone hknown, hnone fun m hm => hknown m (h.symm.subset hm)]

/-- The members of the dictionary have distinct keys. -/
theorem nodup_toDict (spec : JobSpec) : (spec.toDict.map (·.1)).Nodup := by
  have hkeys : ([ofString "command", ofString "cwd", ofString "env", ofString "timeout_seconds", ofString "idle_timeout_seconds",
      ofString "max_output_bytes", ofString "callback_endpoint_id", ofString "desired_state"] : List PyStr).Nodup := by decide
  exact hkeys

/-- The dictionary has the fields of a specification. -/
theorem known_toDict (spec : JobSpec) : ∀ m ∈ spec.toDict, m.1 ∈ jobSpecFields := by
  have hkeys : ∀ k ∈ ([ofString "command", ofString "cwd", ofString "env", ofString "timeout_seconds", ofString "idle_timeout_seconds",
      ofString "max_output_bytes", ofString "callback_endpoint_id", ofString "desired_state"] : List PyStr), k ∈ jobSpecFields := by decide
  intro m hm
  exact hkeys m.1 (List.mem_map_of_mem hm)

/-- A timeout that is given is not the default one. -/
theorem timeoutOf_of_isTimeout {v : PyJson} (h : isTimeout v = true) : timeoutOf v = v := by
  cases v with
  | null => cases h
  | bool | int | float | str | arr | obj => rfl

/-- The dictionary of a valid specification is read as it. -/
theorem Valid.fromDict_toDict (h : spec.Valid) : fromDict spec.toDict = .ok spec := by
  have hunknown : unknownField jobSpecFields spec.toDict = none := by
    unfold unknownField
    rw [List.min?_eq_none_iff, List.filter_eq_nil_iff]
    intro k hk
    obtain ⟨m, hm, rfl⟩ := List.mem_map.1 hk
    simpa using known_toDict spec m hm
  have hget : ∀ (k : String) (v : PyJson), (ofString k, v) ∈ spec.toDict → ∀ default, getD spec.toDict k default = v := by
    intro k v hkv default
    unfold getD
    rw [get?_of_mem (nodup_toDict spec) hkv]
    rfl
  have hcallback : getD spec.toDict "callback" .null = .null := by
    have hnot : ofString "callback" ∉ spec.toDict.map (·.1) := by
      have hkeys : ofString "callback" ∉ ([ofString "command", ofString "cwd", ofString "env", ofString "timeout_seconds",
          ofString "idle_timeout_seconds", ofString "max_output_bytes", ofString "callback_endpoint_id", ofString "desired_state"] :
            List PyStr) := by decide
      exact hkeys
    unfold getD
    rw [get?_of_not_mem hnot]
    rfl
  have hcommand := hget "command" (.arr spec.command) (by simp [toDict])
  have hcwd := hget "cwd" spec.cwd (by simp [toDict])
  have henv := hget "env" (envJson spec.env) (by simp [toDict])
  have htimeout := hget "timeout_seconds" spec.timeoutSeconds (by simp [toDict])
  have hidle := hget "idle_timeout_seconds" spec.idleTimeoutSeconds (by simp [toDict])
  have hcap := hget "max_output_bytes" spec.maxOutputBytes (by simp [toDict])
  have hendpoint := hget "callback_endpoint_id" spec.callbackEndpointId (by simp [toDict])
  have hdesired := hget "desired_state" spec.desiredState (by simp [toDict])
  have hvalid := validate_eq_ok.2 h
  unfold fromDict callbackOf
  rw [hunknown, hcallback, hcommand, hcwd, henv, htimeout, hidle, hcap, hendpoint, hdesired, timeoutOf_of_isTimeout h.timeout]
  have hread : (do spec.validate; pure spec : Except PyError JobSpec) = .ok spec := check_eq_ok.2 ⟨hvalid, rfl⟩
  obtain ⟨command, cwd, env, timeout, idle, cap, endpoint, desired⟩ := spec
  cases env with
  | none => exact hread
  | some env => exact hread

/-! ## What is read back -/

/-- The specification with its strings as they are read back. -/
def reread (ensureAscii : Bool) (spec : JobSpec) : JobSpec where
  command := rereadItems ensureAscii spec.command
  cwd := PyJson.reread ensureAscii spec.cwd
  env := spec.env.map fun env => ofPairs (rereadMembers ensureAscii env)
  timeoutSeconds := PyJson.reread ensureAscii spec.timeoutSeconds
  idleTimeoutSeconds := PyJson.reread ensureAscii spec.idleTimeoutSeconds
  maxOutputBytes := PyJson.reread ensureAscii spec.maxOutputBytes
  callbackEndpointId := PyJson.reread ensureAscii spec.callbackEndpointId
  desiredState := PyJson.reread ensureAscii spec.desiredState

/-- Members are read back one by one. -/
theorem rereadMembers_eq_map (ensureAscii : Bool) (members : List (PyStr × PyJson)) :
    rereadMembers ensureAscii members = members.map fun m => (rereadStr ensureAscii m.1, PyJson.reread ensureAscii m.2) := by
  induction members with
  | nil => rfl
  | cons m ms ih =>
    obtain ⟨k, x⟩ := m
    rw [rereadMembers, ih]
    rfl

/-- An environment is read back entry by entry. -/
theorem reread_envJson (ensureAscii : Bool) (env : Option (List (PyStr × PyJson))) :
    PyJson.reread ensureAscii (envJson env) = envJson (env.map fun env => ofPairs (rereadMembers ensureAscii env)) := by
  cases env with
  | none => rfl
  | some env => rfl

/-- What is read back of a dictionary is the dictionary of a specification. -/
theorem rereadMembers_toDict (ensureAscii : Bool) (spec : JobSpec) :
    rereadMembers ensureAscii spec.toDict = (spec.reread ensureAscii).toDict := by
  have hkey : ∀ k : String, rereadStr ensureAscii (ofString k) = ofString k := fun k => rereadStr_of_joined (joined_ofString k) ensureAscii
  simp only [toDict, rereadMembers, hkey, reread_envJson, reread, PyJson.reread]

/-- The dictionary read back is the dictionary of the specification read back. -/
theorem reread_toDict (ensureAscii : Bool) (spec : JobSpec) :
    PyJson.reread ensureAscii (.obj spec.toDict) = .obj (spec.reread ensureAscii).toDict := by
  rw [PyJson.reread, rereadMembers_toDict, ofPairs_of_nodup (nodup_toDict _)]

/-- A specification is determined by its dictionary. -/
theorem toDict_injective {spec spec' : JobSpec} (h : spec.toDict = spec'.toDict) : spec = spec' := by
  obtain ⟨command, cwd, env, timeout, idle, cap, endpoint, desired⟩ := spec
  obtain ⟨command', cwd', env', timeout', idle', cap', endpoint', desired'⟩ := spec'
  simp only [toDict, List.cons.injEq, Prod.mk.injEq, true_and, PyJson.arr.injEq, and_true] at h
  obtain ⟨rfl, rfl, henv, rfl, rfl, rfl, rfl, rfl⟩ := h
  have henv' : env = env' := by
    cases env with
    | none =>
      cases env' with
      | none => rfl
      | some env' => cases henv
    | some env =>
      cases env' with
      | none => cases henv
      | some env' =>
        cases henv
        rfl
  rw [henv']

/-- No string of a specification has a high surrogate that a low one follows. -/
def Joined (spec : JobSpec) : Prop := ∀ s ∈ strings (.obj spec.toDict), PyStr.Joined s

/-- A specification without a pair of surrogates is read back as it is. -/
theorem reread_of_joined (ensureAscii : Bool) (hpython : spec.IsPython) (h : spec.Joined) : spec.reread ensureAscii = spec := by
  have hvalue := PyJson.reread_of_joined ensureAscii (.obj spec.toDict) hpython h
  rw [reread_toDict, PyJson.obj.injEq] at hvalue
  exact toDict_injective hvalue

/-- A specification that was read has no pair of surrogates. -/
theorem joined_reread (spec : JobSpec) : (spec.reread true).Joined := by
  unfold Joined
  rw [← reread_toDict]
  exact PyJson.joined_reread (.obj spec.toDict)

/-- A specification that is read back is a value of the program. -/
theorem isPython_reread (ensureAscii : Bool) (hpython : spec.IsPython) : (spec.reread ensureAscii).IsPython := by
  unfold IsPython
  rw [← reread_toDict]
  exact PyJson.isPython_reread ensureAscii _ hpython

/-! ## Checks of what is read back -/

/-- A string is read back as a string. -/
theorem isStr_reread {v : PyJson} (h : isStr v = true) (ensureAscii : Bool) : isStr (PyJson.reread ensureAscii v) = true := by
  cases v with
  | str s => rfl
  | null | bool | int | float | arr | obj => cases h

/-- Null is read back as null. -/
theorem isNull_reread {v : PyJson} (h : isNull v = true) (ensureAscii : Bool) : isNull (PyJson.reread ensureAscii v) = true := by
  cases v with
  | null => rfl
  | bool | int | float | str | arr | obj => cases h

/-- A timeout is read back as it is. -/
theorem reread_of_isTimeout {v : PyJson} (h : isTimeout v = true) (ensureAscii : Bool) : PyJson.reread ensureAscii v = v := by
  cases v with
  | int n => rfl
  | float x => rfl
  | null | bool | str | arr | obj => cases h

/-- A byte count is read back as it is. -/
theorem reread_of_isOutputCap {v : PyJson} (h : isOutputCap v = true) (ensureAscii : Bool) : PyJson.reread ensureAscii v = v := by
  cases v with
  | int n => rfl
  | null | bool | float | str | arr | obj => cases h

/-- A desired state is read back as it is. -/
theorem reread_of_isDesiredState {v : PyJson} (h : isDesiredState v = true) (ensureAscii : Bool) : PyJson.reread ensureAscii v = v := by
  cases v with
  | str s =>
    unfold isDesiredState at h
    simp only [Bool.or_eq_true, decide_eq_true_eq] at h
    have hs : PyStr.Joined s := by
      rcases h with rfl | rfl
      · exact joined_ofString _
      · exact joined_ofString _
    rw [PyJson.reread, rereadStr_of_joined hs]
  | null | bool | int | float | arr | obj => cases h

/-- A string is read back as empty when it is empty. -/
theorem rereadStr_eq_nil {ensureAscii : Bool} {s : PyStr} : rereadStr ensureAscii s = [] ↔ s = [] := by
  unfold rereadStr
  split
  · cases s using join.induct with
    | case1 => rfl
    | case2 c => rfl
    | case3 high low s hpair => simp [join, hpair]
    | case4 high low s hpair => simp [join, hpair]
  · rfl

/-- What is read in place of a string: its code points, and code points above the basic plane. -/
theorem mem_rereadStr {ensureAscii : Bool} {s : PyStr} {c : CodePoint} (h : c ∈ rereadStr ensureAscii s) : c ∈ s ∨ 0x10000 ≤ c.val := by
  have hjoin : ∀ {s : PyStr}, c ∈ join s → c ∈ s ∨ 0x10000 ≤ c.val := by
    intro s h
    induction s using join.induct with
    | case1 => exact .inl h
    | case2 d => exact .inl h
    | case3 high low s hpair ih =>
      rw [join, if_pos hpair] at h
      rw [Bool.and_eq_true] at hpair
      rcases List.mem_cons.1 h with heq | h
      · rw [heq, CodePoint.val_pair hpair.1 hpair.2]
        exact .inr (by omega)
      · rcases ih h with h | h
        · exact .inl (List.mem_cons_of_mem _ (List.mem_cons_of_mem _ h))
        · exact .inr h
    | case4 high low s hpair ih =>
      rw [join, if_neg hpair] at h
      rcases List.mem_cons.1 h with rfl | h
      · exact .inl List.mem_cons_self
      · rcases ih h with h | h
        · exact .inl (List.mem_cons_of_mem _ h)
        · exact .inr h
  unfold rereadStr at h
  split at h
  · exact hjoin h
  · exact .inl h

/-- A code point above the basic plane is no space. -/
theorem isSpace_of_astral {c : CodePoint} (h : 0x10000 ≤ c.val) : isSpace c = false := by
  unfold isSpace
  grind

/-- A string that is no blank is read back as one that is no blank. -/
theorem any_rereadStr {ensureAscii : Bool} {s : PyStr} (h : (s.any fun c => !isSpace c) = true) :
    ((rereadStr ensureAscii s).any fun c => !isSpace c) = true := by
  have hjoin : ∀ {s : PyStr}, (s.any fun c => !isSpace c) = true → ((join s).any fun c => !isSpace c) = true := by
    intro s h
    induction s using join.induct with
    | case1 => exact h
    | case2 d => exact h
    | case3 high low s hpair ih =>
      rw [join, if_pos hpair]
      rw [Bool.and_eq_true] at hpair
      have hastral : 0x10000 ≤ (CodePoint.pair high low).val := by
        rw [CodePoint.val_pair hpair.1 hpair.2]
        omega
      rw [List.any_cons, isSpace_of_astral hastral]
      rfl
    | case4 high low s hpair ih =>
      rw [join, if_neg hpair]
      rw [List.any_cons, Bool.or_eq_true] at h ⊢
      exact h.imp_right ih
  unfold rereadStr
  split
  · exact hjoin h
  · exact h

/-- An executable is read back as one. -/
theorem isExecutable_reread {v : PyJson} (h : isExecutable v = true) (ensureAscii : Bool) :
    isExecutable (PyJson.reread ensureAscii v) = true := by
  cases v with
  | str s => exact any_rereadStr h
  | null | bool | int | float | arr | obj => cases h

/-- An endpoint is read back as one. -/
theorem isEndpointId_reread {v : PyJson} (h : isEndpointId v = true) (ensureAscii : Bool) :
    isEndpointId (PyJson.reread ensureAscii v) = true := by
  cases v with
  | str s =>
    unfold isEndpointId at h ⊢
    simp only [PyJson.reread, Bool.not_eq_true', List.isEmpty_eq_false_iff] at h ⊢
    exact fun hnil => h (rereadStr_eq_nil.1 hnil)
  | null | bool | int | float | arr | obj => cases h

/-- An entry of an environment is read back as one. -/
theorem isEnvEntry_reread {e : PyStr × PyJson} (h : isEnvEntry e = true) (ensureAscii : Bool) :
    isEnvEntry (rereadStr ensureAscii e.1, PyJson.reread ensureAscii e.2) = true := by
  unfold isEnvEntry at h ⊢
  simp only [Bool.and_eq_true, Bool.not_eq_true', List.isEmpty_eq_false_iff] at h ⊢
  obtain ⟨⟨hne, hequals⟩, hstr⟩ := h
  refine ⟨⟨fun hnil => hne (rereadStr_eq_nil.1 hnil), ?_⟩, isStr_reread hstr ensureAscii⟩
  rw [List.contains_eq_mem, decide_eq_false_iff_not] at hequals ⊢
  intro hmem
  rcases mem_rereadStr hmem with hmem | hastral
  · exact hequals hmem
  · exact absurd hastral (by decide)

/-- A valid specification is read back as a valid one. -/
theorem Valid.reread (h : spec.Valid) (ensureAscii : Bool) : (spec.reread ensureAscii).Valid := by
  refine ⟨?_, ?_, fun e he => ?_, ?_, ?_, ?_, ?_, ?_⟩
  · have hcommand := h.command
    unfold commandOk at hcommand ⊢
    unfold JobSpec.reread
    cases hspec : spec.command with
    | nil =>
      rw [hspec] at hcommand
      cases hcommand
    | cons executable arguments =>
      rw [hspec] at hcommand
      dsimp only [rereadItems] at hcommand ⊢
      rw [Bool.and_eq_true, List.all_eq_true] at hcommand ⊢
      refine ⟨isExecutable_reread hcommand.1 ensureAscii, ?_⟩
      have hall : ∀ items : List PyJson, (∀ x ∈ items, isStr x = true) → ∀ x ∈ rereadItems ensureAscii items, isStr x = true := by
        intro items
        induction items with
        | nil => exact fun _ x hx => absurd hx List.not_mem_nil
        | cons x xs ih =>
          intro hitems y hy
          rcases List.mem_cons.1 hy with rfl | hy
          · exact isStr_reread (hitems x List.mem_cons_self) ensureAscii
          · exact ih (fun z hz => hitems z (List.mem_cons_of_mem _ hz)) y hy
      exact hall arguments hcommand.2
  · rcases h.cwd with hnull | hstr
    · exact .inl (isNull_reread hnull ensureAscii)
    · exact .inr (isStr_reread hstr ensureAscii)
  · unfold JobSpec.reread at he
    cases henv : spec.env with
    | none =>
      rw [henv] at he
      cases he
    | some env =>
      have hentries := h.env
      rw [henv] at he hentries
      have hmem := (ofPairs_spec (rereadMembers ensureAscii env)).1 e he
      rw [rereadMembers_eq_map] at hmem
      obtain ⟨m, hm, rfl⟩ := List.mem_map.1 hmem
      exact isEnvEntry_reread (hentries m hm) ensureAscii
  · unfold JobSpec.reread
    rw [reread_of_isTimeout h.timeout]
    exact h.timeout
  · rcases h.idleTimeout with hnull | htimeout
    · exact .inl (isNull_reread hnull ensureAscii)
    · refine .inr ?_
      unfold JobSpec.reread
      rw [reread_of_isTimeout htimeout]
      exact htimeout
  · unfold JobSpec.reread
    rw [reread_of_isOutputCap h.outputCap]
    exact h.outputCap
  · rcases h.endpoint with hnull | hendpoint
    · exact .inl (isNull_reread hnull ensureAscii)
    · exact .inr (isEndpointId_reread hendpoint ensureAscii)
  · unfold JobSpec.reread
    rw [reread_of_isDesiredState h.desired]
    exact h.desired

/-- The text of a valid specification, in any style, is read as it with its strings read back. -/
theorem Valid.readText_dumps (h : spec.Valid) (hpython : spec.IsPython) (F : FloatText) (style : DumpStyle) :
    readText F (dumps F style (.obj spec.toDict)) = some (spec.reread style.ensureAscii) := by
  unfold readText
  rw [loads_dumps F style hpython, reread_toDict]
  dsimp only
  rw [(h.reread style.ensureAscii).fromDict_toDict]
  rfl

/-! ## Keys in order -/

/-- The specification with the entries of its environment in order. -/
def sorted (spec : JobSpec) : JobSpec := { spec with env := spec.env.map fun env => env.insertionSort fun x y => x.1 ≤ y.1 }

/-- A specification stays valid when its environment is put in order. -/
theorem Valid.sorted (h : spec.Valid) : spec.sorted.Valid := by
  refine { h with env := fun e he => ?_ }
  cases henv : spec.env with
  | none => simp [JobSpec.sorted, henv] at he
  | some env =>
    refine h.env e ?_
    simpa [JobSpec.sorted, henv] using he

/-- Sorted members are the same members. -/
theorem perm_sort (members : List (PyStr × PyJson)) : (members.insertionSort fun x y => x.1 ≤ y.1).Perm members :=
  List.perm_insertionSort _ members

/-- The order of its members does not make an object another value of the program. -/
theorem isPython_obj_perm {members members' : List (PyStr × PyJson)} (h : members.Perm members')
    (hpython : PyJson.IsPython (.obj members)) :
    PyJson.IsPython (.obj members') := by
  refine ⟨((h.map _).nodup_iff).1 hpython.1, membersPython_iff.2 fun m hm => ?_⟩
  exact membersPython_iff.1 hpython.2 m (h.symm.subset hm)

/-- A specification with its environment in order is a value of the program. -/
theorem isPython_sorted (h : spec.IsPython) : spec.sorted.IsPython := by
  obtain ⟨-, hcommand, hcwd, henv, hrest⟩ := h
  refine ⟨nodup_toDict _, hcommand, hcwd, ?_, hrest⟩
  unfold JobSpec.sorted
  cases hspec : spec.env with
  | none => exact trivial
  | some env =>
    rw [hspec] at henv
    exact isPython_obj_perm (perm_sort env).symm henv

/-- A string has no keys to sort. -/
theorem sortKeys_of_isStr {v : PyJson} (h : isStr v = true) : v.sortKeys = v := by
  cases v with
  | str s => rfl
  | null | bool | int | float | arr | obj => cases h

/-- Null has no keys to sort. -/
theorem sortKeys_of_isNull {v : PyJson} (h : isNull v = true) : v.sortKeys = v := by
  cases v with
  | null => rfl
  | bool | int | float | str | arr | obj => cases h

/-- A timeout has no keys to sort. -/
theorem sortKeys_of_isTimeout {v : PyJson} (h : isTimeout v = true) : v.sortKeys = v := by
  cases v with
  | int n => rfl
  | float x => rfl
  | null | bool | str | arr | obj => cases h

/-- A byte count has no keys to sort. -/
theorem sortKeys_of_isOutputCap {v : PyJson} (h : isOutputCap v = true) : v.sortKeys = v := by
  cases v with
  | int n => rfl
  | null | bool | float | str | arr | obj => cases h

/-- An endpoint is a string. -/
theorem isStr_of_isEndpointId {v : PyJson} (h : isEndpointId v = true) : isStr v = true := by
  cases v with
  | str s => rfl
  | null | bool | int | float | arr | obj => cases h

/-- A desired state is a string. -/
theorem isStr_of_isDesiredState {v : PyJson} (h : isDesiredState v = true) : isStr v = true := by
  cases v with
  | str s => rfl
  | null | bool | int | float | arr | obj => cases h

/-- Strings have no keys to sort. -/
theorem sortKeysItems_of_isStr {items : List PyJson} (h : ∀ v ∈ items, isStr v = true) : sortKeysItems items = items := by
  induction items with
  | nil => rfl
  | cons v vs ih =>
    rw [sortKeysItems, sortKeys_of_isStr (h v List.mem_cons_self), ih fun w hw => h w (List.mem_cons_of_mem _ hw)]

/-- The members are sorted one by one before they are put in order. -/
theorem sortKeysMembers_eq_map (members : List (PyStr × PyJson)) : sortKeysMembers members = members.map fun m => (m.1, m.2.sortKeys) := by
  induction members with
  | nil => rfl
  | cons m ms ih =>
    obtain ⟨k, x⟩ := m
    rw [sortKeysMembers, ih]
    rfl

/-- The command of a valid specification is made of strings. -/
theorem Valid.isStr_command (h : spec.Valid) : ∀ v ∈ spec.command, isStr v = true := by
  have hcommand := h.command
  unfold commandOk at hcommand
  cases hspec : spec.command with
  | nil => exact fun v hv => absurd hv List.not_mem_nil
  | cons executable arguments =>
    rw [hspec] at hcommand
    rw [Bool.and_eq_true, List.all_eq_true] at hcommand
    intro v hv
    rcases List.mem_cons.1 hv with rfl | hv
    · cases v with
      | str s => rfl
      | null | bool | int | float | arr | obj => cases hcommand.1
    · exact hcommand.2 v hv

/-- The members of the dictionary of a valid specification, with the keys of their values in order. -/
theorem Valid.sortKeysMembers_toDict (h : spec.Valid) : sortKeysMembers spec.toDict = spec.sorted.toDict := by
  have hcwd : spec.cwd.sortKeys = spec.cwd := h.cwd.elim sortKeys_of_isNull sortKeys_of_isStr
  have hidle : spec.idleTimeoutSeconds.sortKeys = spec.idleTimeoutSeconds := h.idleTimeout.elim sortKeys_of_isNull sortKeys_of_isTimeout
  have hendpoint : spec.callbackEndpointId.sortKeys = spec.callbackEndpointId :=
    h.endpoint.elim sortKeys_of_isNull fun h => sortKeys_of_isStr (isStr_of_isEndpointId h)
  have henv : (envJson spec.env).sortKeys = envJson spec.sorted.env := by
    unfold JobSpec.sorted
    cases henv : spec.env with
    | none => rfl
    | some env =>
      have hentries := h.env
      rw [henv] at hentries
      have hsame : sortKeysMembers env = env := by
        rw [sortKeysMembers_eq_map]
        conv_rhs => rw [← List.map_id env]
        refine List.map_congr_left fun m hm => ?_
        have hentry := hentries m hm
        unfold isEnvEntry at hentry
        rw [Bool.and_eq_true] at hentry
        rw [sortKeys_of_isStr hentry.2]
        rfl
      rw [envJson, sortKeys, hsame]
      rfl
  simp only [toDict, sortKeysMembers, sortKeys, sortKeysItems_of_isStr h.isStr_command, hcwd, henv, hidle, hendpoint,
    sortKeys_of_isTimeout h.timeout, sortKeys_of_isOutputCap h.outputCap, sortKeys_of_isStr (isStr_of_isDesiredState h.desired)]
  rfl

/-- A specification has the strings of its fields. -/
theorem mem_strings_toDict {spec : JobSpec} {s : PyStr} :
    s ∈ strings (.obj spec.toDict) ↔ ∃ m ∈ spec.toDict, s = m.1 ∨ s ∈ strings m.2 := by
  change s ∈ memberStrings spec.toDict ↔ _
  rw [mem_memberStrings]

/-- The order of the environment does not change the strings. -/
theorem mem_strings_sorted {spec : JobSpec} {s : PyStr} : s ∈ strings (.obj spec.sorted.toDict) ↔ s ∈ strings (.obj spec.toDict) := by
  have henv : s ∈ strings (envJson spec.sorted.env) ↔ s ∈ strings (envJson spec.env) := by
    unfold JobSpec.sorted
    cases spec.env with
    | none => exact Iff.rfl
    | some env =>
      change s ∈ memberStrings (env.insertionSort fun a b => a.1 ≤ b.1) ↔ s ∈ memberStrings env
      rw [mem_memberStrings, mem_memberStrings]
      exact ⟨fun ⟨m, hm, hs⟩ => ⟨m, (perm_sort env).subset hm, hs⟩, fun ⟨m, hm, hs⟩ => ⟨m, (perm_sort env).symm.subset hm, hs⟩⟩
  rw [mem_strings_toDict, mem_strings_toDict]
  simp only [toDict, List.exists_mem_cons_iff, List.not_mem_nil, false_and, exists_false, or_false, henv]
  rfl

/-! ## The intent to cancel -/

/-- The specification with the intent to cancel. -/
def cancel (spec : JobSpec) : JobSpec := { spec with desiredState := .str (ofString "cancelled") }

/-- A specification stays valid when the intent to cancel is written. -/
theorem Valid.cancel (h : spec.Valid) : spec.cancel.Valid :=
  { h with desired := by simp [JobSpec.cancel, isDesiredState] }

/-- It stays a value of the program. -/
theorem isPython_cancel (h : spec.IsPython) : spec.cancel.IsPython := by
  obtain ⟨-, hcommand, hcwd, henv, htimeout, hidle, hcap, hendpoint, -, -⟩ := h
  exact ⟨nodup_toDict _, hcommand, hcwd, henv, htimeout, hidle, hcap, hendpoint, trivial, trivial⟩

/-- The intent is written into the dictionary as into the specification. -/
theorem set_toDict (spec : JobSpec) :
    PyJson.set spec.toDict (ofString "desired_state") (.str (ofString "cancelled")) = spec.cancel.toDict := by
  have hany : (spec.toDict.any fun m => m.1 = ofString "desired_state") = true := by
    rw [List.any_eq_true]
    exact ⟨(ofString "desired_state", spec.desiredState), by simp [toDict], by simp⟩
  have hne : ∀ k : String, k ≠ "desired_state" → ofString k ≠ ofString "desired_state" := fun k hk h => hk (ofString_injective h)
  unfold PyJson.set
  rw [if_pos hany]
  simp only [toDict, List.map_cons, List.map_nil, JobSpec.cancel, if_pos, if_neg (hne "command" (by decide)),
    if_neg (hne "cwd" (by decide)),
    if_neg (hne "env" (by decide)), if_neg (hne "timeout_seconds" (by decide)), if_neg (hne "idle_timeout_seconds" (by decide)),
    if_neg (hne "max_output_bytes" (by decide)), if_neg (hne "callback_endpoint_id" (by decide))]

/-- A key set in members that are those of a dictionary in another order. -/
theorem set_perm {members : List (PyStr × PyJson)} (h : members.Perm spec.toDict) :
    (PyJson.set members (ofString "desired_state") (.str (ofString "cancelled"))).Perm spec.cancel.toDict := by
  rw [← set_toDict]
  have hany : (members.any fun m => m.1 = ofString "desired_state") = (spec.toDict.any fun m => m.1 = ofString "desired_state") := by
    rw [Bool.eq_iff_iff, List.any_eq_true, List.any_eq_true]
    exact ⟨fun ⟨m, hm, hkey⟩ => ⟨m, h.subset hm, hkey⟩, fun ⟨m, hm, hkey⟩ => ⟨m, h.symm.subset hm, hkey⟩⟩
  unfold PyJson.set
  rw [hany]
  split
  · exact h.map _
  · exact h.append_right _

/-- The desired state is found in the dictionary. -/
theorem get?_desiredState (spec : JobSpec) : get? spec.toDict (ofString "desired_state") = some spec.desiredState := by
  simp [get?, toDict]

/-! ## Stored dictionaries -/

/-- Members that are those of a dictionary in another order are read back as those of the specification read back. -/
theorem reread_of_perm {members : List (PyStr × PyJson)} (h : members.Perm spec.toDict) :
    PyJson.reread true (.obj members) = .obj (rereadMembers true members) ∧
      (rereadMembers true members).Perm (spec.reread true).toDict := by
  have hread : (rereadMembers true members).Perm (spec.reread true).toDict := by
    rw [← rereadMembers_toDict, rereadMembers_eq_map, rereadMembers_eq_map]
    exact h.map _
  have hkeys : ((rereadMembers true members).map (·.1)).Nodup := ((hread.map _).nodup_iff).2 (nodup_toDict _)
  refine ⟨?_, hread⟩
  rw [PyJson.reread, ofPairs_of_nodup hkeys]

/-- They give the specification read back. -/
theorem Valid.fromDict_reread (h : spec.Valid) {members : List (PyStr × PyJson)} (hperm : members.Perm (spec.reread true).toDict) :
    fromDict members = .ok (spec.reread true) := by
  rw [← fromDict_perm hperm.symm (nodup_toDict _) (known_toDict _)]
  exact (h.reread true).fromDict_toDict

/-- Their keys put in order, they are the members of the specification with its environment in order. -/
theorem Valid.perm_sortKeys (h : spec.Valid) {members : List (PyStr × PyJson)} (hperm : members.Perm spec.toDict) :
    ∃ members', sortKeys (.obj members) = .obj members' ∧ members'.Perm spec.sorted.toDict := by
  refine ⟨_, rfl, (perm_sort _).trans ?_⟩
  rw [← h.sortKeysMembers_toDict, sortKeysMembers_eq_map, sortKeysMembers_eq_map]
  exact hperm.map _

/-! ## Stored texts -/

/-- A text holds a specification: it was written for its dictionary, the members in any order. -/
structure Holds (F : FloatText) (text : PyStr) (spec : JobSpec) : Prop where
  written : ∃ members, text = dumps F specStyle (.obj members) ∧ members.Perm spec.toDict
  valid : spec.Valid
  python : spec.IsPython

/-- The text of a dictionary that is the one of a specification but for the order of its members. -/
theorem holds_of_perm (F : FloatText) (h : spec.Valid) (hpython : spec.IsPython) {members : List (PyStr × PyJson)}
    (hperm : members.Perm spec.toDict) : Holds F (dumps F specStyle (sortKeys (.obj members))) spec.sorted := by
  obtain ⟨members', hsorted, hperm'⟩ := h.perm_sortKeys hperm
  exact ⟨⟨members', by rw [hsorted], hperm'⟩, h.sorted, isPython_sorted hpython⟩

/-- The canonical text of a valid specification holds it, its environment in order. -/
theorem holds_specText (F : FloatText) (h : spec.Valid) (hpython : spec.IsPython) : Holds F (specText F spec) spec.sorted :=
  holds_of_perm F h hpython (.refl _)

/-- The members that are read in a text that holds a specification. -/
theorem Holds.loads {text : PyStr} (h : Holds F text spec) :
    ∃ members, PyJson.loads F text = some (.obj members) ∧ members.Perm (spec.reread true).toDict := by
  obtain ⟨members, rfl, hperm⟩ := h.written
  obtain ⟨hread, hperm'⟩ := reread_of_perm hperm
  refine ⟨rereadMembers true members, ?_, hperm'⟩
  rw [loads_dumps F specStyle (isPython_obj_perm hperm.symm h.python)]
  exact congrArg some hread

/-- A text that holds a specification is read as it, with its pairs of surrogates joined. -/
theorem Holds.readText {text : PyStr} (h : Holds F text spec) : readText F text = some (spec.reread true) := by
  obtain ⟨members, hloads, hperm⟩ := h.loads
  unfold JobSpec.readText
  rw [hloads]
  dsimp only
  rw [h.valid.fromDict_reread hperm]
  rfl

end JobSpec

end SharkRail
