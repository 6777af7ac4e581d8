import SharkRail.Lemmas.SpecIdentity
import SharkRail.Lib.FloatText

/-!
# The identity of a request

A request is told by the digest of its canonical text. The text takes the fields in one order and the defaults as they are, so it tells
what a request asks for; but it has the numbers as they were spelled, and 300 seconds are not the text of 300.0 seconds.
-/

namespace SharkRail

open PyStr PyJson

namespace JobSpec

variable {spec spec' : JobSpec}

def isFloat : PyJson → Bool
  | .float _ => true
  | _ => false

/-- The numbers of seconds are spelled alike: both as floats, or neither. -/
def SpellsAlike (spec spec' : JobSpec) : Prop :=
  isFloat spec.timeoutSeconds = isFloat spec'.timeoutSeconds ∧ isFloat spec.idleTimeoutSeconds = isFloat spec'.idleTimeoutSeconds

instance (spec spec' : JobSpec) : Decidable (spec.SpellsAlike spec') := inferInstanceAs (Decidable (_ ∧ _))

theorem eq_of_asFloat {v w : PyJson} (h : asFloat v = asFloat w) (halike : isFloat v = isFloat w) : v = w := by
  cases v <;> cases w <;> simp_all [asFloat, isFloat]

theorem isFloat_spelled (v : PyJson) : isFloat (PyJson.spelled true v) = isFloat v := by
  cases v <;> rfl

/-- Equal specifications whose numbers are spelled alike have one canonical form. -/
theorem canonical_of_byValue (h : spec.byValue = spec'.byValue) (halike : spec.SpellsAlike spec') : spec.canonical = spec'.canonical := by
  have hsorted : spec.sorted = spec'.sorted := by
    simp only [byValue, JobSpec.sorted, JobSpec.mk.injEq] at h ⊢
    obtain ⟨hcommand, hcwd, henv, htimeout, hidle, hrest⟩ := h
    exact ⟨hcommand, hcwd, henv, eq_of_asFloat htimeout halike.1, eq_of_asFloat hidle halike.2, hrest⟩
  rw [canonical, hsorted, canonical]

/-- A canonical form has the numbers as they are spelled. -/
theorem spellsAlike_of_canonical (h : spec.canonical = spec'.canonical) : spec.SpellsAlike spec' := by
  have htimeout := congrArg (fun spec => isFloat (JobSpec.timeoutSeconds spec)) h
  have hidle := congrArg (fun spec => isFloat (JobSpec.idleTimeoutSeconds spec)) h
  exact ⟨(isFloat_spelled _).symm.trans (htimeout.trans (isFloat_spelled _)),
    (isFloat_spelled _).symm.trans (hidle.trans (isFloat_spelled _))⟩

/-- A specification without a pair of surrogates is written as it is, its environment in order. -/
theorem canonical_of_joined (h : spec.Joined) : spec.canonical = spec.sorted := by
  refine toDict_injective ?_
  rw [canonical, ← spelledMembers_toDict, spelledMembers_of_joined true _ fun s hs => h s (mem_strings_sorted.1 hs)]

/-- Among specifications without a pair of surrogates one canonical form has one specification. -/
theorem byValue_of_canonical (hjoined : spec.Joined) (hjoined' : spec'.Joined) (h : spec.canonical = spec'.canonical) :
    spec.byValue = spec'.byValue := by
  rw [canonical_of_joined hjoined, canonical_of_joined hjoined'] at h
  have htimeout : spec.sorted.timeoutSeconds = spec'.sorted.timeoutSeconds := by rw [h]
  have hidle : spec.sorted.idleTimeoutSeconds = spec'.sorted.idleTimeoutSeconds := by rw [h]
  change spec.timeoutSeconds = spec'.timeoutSeconds at htimeout
  change spec.idleTimeoutSeconds = spec'.idleTimeoutSeconds at hidle
  rw [byValue, h, htimeout, hidle, byValue]

end JobSpec

namespace Texts

/-- The digests of two accepted payloads are equal just when the specifications are, unless the specifications are equal and one spells a
number of seconds as an integer where the other has a float, or they differ and are the same once the pairs of surrogates in their strings
are joined. The second is not found among specifications that have no such pair, as no payload read from JSON has. -/
theorem requestHash_identifies (F : FloatText) {sha256 : List UInt8 → String} (hsha : Function.Injective sha256)
    {p q : List (PyStr × PyJson)} {spec spec' : JobSpec} (hp : PyJson.IsPython (.obj p)) (hq : PyJson.IsPython (.obj q))
    (hspec : JobSpec.fromDict p = .ok spec) (hspec' : JobSpec.fromDict q = .ok spec') :
    ((spec.requestHash F sha256 = spec'.requestHash F sha256 ↔ spec.equals spec' = true) ↔
      ¬(spec.equals spec' = true ∧ ¬spec.SpellsAlike spec') ∧ ¬(spec.equals spec' = false ∧ spec.canonical = spec'.canonical)) ∧
    (spec.Joined → spec'.Joined → ¬(spec.equals spec' = false ∧ spec.canonical = spec'.canonical)) := by
  have hread := JobSpec.readFrom_of_fromDict hspec
  have hread' := JobSpec.readFrom_of_fromDict hspec'
  have hpython := hread.isPython hp
  have hpython' := hread'.isPython hq
  have hequals := JobSpec.equals_iff hread.valid hread'.valid hpython hpython'
  rw [JobSpec.requestHash_eq_iff F hsha hread.valid hread'.valid hpython hpython']
  constructor
  · cases hsame : spec.equals spec' with
    | true =>
      have hvalue := hequals.1 hsame
      have hcanonical : spec.canonical = spec'.canonical ↔ spec.SpellsAlike spec' :=
        ⟨JobSpec.spellsAlike_of_canonical, JobSpec.canonical_of_byValue hvalue⟩
      rw [hcanonical]
      simp
    | false => simp
  · rintro hjoined hjoined' ⟨hdiffer, hcanonical⟩
    rw [hequals.2 (JobSpec.byValue_of_canonical hjoined hjoined' hcanonical)] at hdiffer
    cases hdiffer

/-! ## Two spellings of a timeout -/

namespace Sample

/-- A payload that names an executable and a timeout. -/
def payload (timeout : PyJson) : List (PyStr × PyJson) :=
  [(ofString "command", .arr [.str (ofString "echo")]), (ofString "timeout_seconds", timeout)]

def spec (timeout : PyJson) : JobSpec := { command := [.str (ofString "echo")], timeoutSeconds := timeout }

/-- The canonical text of a payload, up to the timeout it spells. -/
def text (timeout : String) : PyStr :=
  ofString "\x7b\"callback_endpoint_id\":null,\"command\":[\"echo\"],\"cwd\":null,\"desired_state\":\"active\",\"env\":null," ++
    ofString "\"idle_timeout_seconds\":null,\"max_output_bytes\":16777216,\"timeout_seconds\":" ++ ofString timeout ++ ofString "\x7d"

def bytes (s : PyStr) : List UInt8 := s.map fun c => UInt8.ofNat c.val

/-- The digests of two texts, and of every other text a string that no digest is. -/
def sha256 (data : List UInt8) : String :=
  if data = bytes (text "300") then "068f6f94a42d9d57a4ceb9f5e1bad15ccde7dbc06e252b46bfaa1e640c8a0b1e"
  else if data = bytes (text "300.0") then "448e80d2f690a85bb2badf64cbea2d9a60b4b37e6e8795a6c63b8ad41cb861a9"
  else String.ofList ('-' :: data.map fun b => Char.ofNat b.toNat)

theorem ofNat_toNat_injective : Function.Injective fun b : UInt8 => Char.ofNat b.toNat := by
  intro b c h
  have hvalid : ∀ b : UInt8, (Char.ofNat b.toNat).toNat = b.toNat := fun b => by
    have hlt : b.toNat < 256 := b.toNat_lt
    unfold Char.ofNat
    rw [dif_pos (Or.inl (by omega))]
    rfl
  have hnat := congrArg Char.toNat h
  rw [hvalid, hvalid] at hnat
  exact UInt8.toNat_inj.1 hnat

theorem sha256_injective : Function.Injective sha256 := by
  have hother : ∀ {digest : String} {data : List UInt8}, digest.toList.head? ≠ some '-' →
      digest ≠ String.ofList ('-' :: data.map fun b => Char.ofNat b.toNat) := by
    rintro digest data hhead rfl
    exact hhead (by rw [String.toList_ofList]; rfl)
  intro x y h
  unfold sha256 at h
  split_ifs at h with hx hy hy' hx' hy hy' hy hy'
  · exact hx.trans hy.symm
  · exact absurd h (by decide)
  · exact absurd h (hother (by decide))
  · exact absurd h (by decide)
  · exact hx'.trans hy'.symm
  · exact absurd h (hother (by decide))
  · exact absurd h.symm (hother (by decide))
  · exact absurd h.symm (hother (by decide))
  · have hlist := congrArg String.toList h
    rw [String.toList_ofList, String.toList_ofList, List.cons.injEq] at hlist
    exact List.map_injective_iff.2 ofNat_toNat_injective hlist.2

def entry (name value : String) : PyStr × PyJson := (ofString name, .str (ofString value))

/-- A job that notifies an endpoint, with its environment. -/
def notified (env : List (PyStr × PyJson)) : JobSpec :=
  { command := [.str (ofString "echo")], env := some env, callbackEndpointId := .str (ofString "hook") }

/-- It is asked for through `callback`, with the defaults left out. -/
def viaCallback : List (PyStr × PyJson) :=
  [(ofString "callback", .obj [entry "endpoint_id" "hook"]), (ofString "env", .obj [entry "LANG" "C", entry "HOME" "/"]),
    (ofString "command", .arr [.str (ofString "echo")])]

/-- It is asked for through `callback_endpoint_id`, with defaults written out. -/
def viaEndpoint : List (PyStr × PyJson) :=
  [(ofString "command", .arr [.str (ofString "echo")]), entry "callback_endpoint_id" "hook", (ofString "cwd", .null),
    (ofString "env", .obj [entry "HOME" "/", entry "LANG" "C"]), (ofString "timeout_seconds", .int 3600)]

theorem viaCallback_isPython : PyJson.IsPython (.obj viaCallback) := by
  have hkeys : ([ofString "callback", ofString "env", ofString "command"] : List PyStr).Nodup := by decide
  have henv : ([ofString "LANG", ofString "HOME"] : List PyStr).Nodup := by decide
  exact ⟨hkeys, ⟨List.nodup_singleton _, trivial, trivial⟩, ⟨henv, trivial, trivial, trivial⟩, ⟨trivial, trivial⟩, trivial⟩

theorem viaEndpoint_isPython : PyJson.IsPython (.obj viaEndpoint) := by
  have hkeys : ([ofString "command", ofString "callback_endpoint_id", ofString "cwd", ofString "env", ofString "timeout_seconds"] :
      List PyStr).Nodup := by decide
  have henv : ([ofString "HOME", ofString "LANG"] : List PyStr).Nodup := by decide
  exact ⟨hkeys, ⟨trivial, trivial⟩, trivial, trivial, ⟨henv, trivial, trivial, trivial⟩, trivial, trivial⟩

theorem specText_int : JobSpec.specText ratText (spec (.int 300)) = text "300" := by decide +kernel

theorem specText_float : JobSpec.specText ratText (spec (.float (.finite 300))) = text "300.0" := by decide +kernel

theorem digests_differ :
    (spec (.int 300)).requestHash ratText sha256 ≠ (spec (.float (.finite 300))).requestHash ratText sha256 := by
  unfold JobSpec.requestHash
  rw [specText_int, specText_float]
  decide +kernel

end Sample

/-- Two payloads of one job, with the fields and the environment in another order, have one digest. -/
theorem requestHash_identifies_notified :
    (Sample.notified [Sample.entry "LANG" "C", Sample.entry "HOME" "/"]).requestHash ratText Sample.sha256 =
      (Sample.notified [Sample.entry "HOME" "/", Sample.entry "LANG" "C"]).requestHash ratText Sample.sha256 := by
  have hequal : (Sample.notified [Sample.entry "LANG" "C", Sample.entry "HOME" "/"]).equals
      (Sample.notified [Sample.entry "HOME" "/", Sample.entry "LANG" "C"]) = true := by decide +kernel
  have hcallback : JobSpec.fromDict Sample.viaCallback = .ok (Sample.notified [Sample.entry "LANG" "C", Sample.entry "HOME" "/"]) := by rfl
  have hendpoint : JobSpec.fromDict Sample.viaEndpoint = .ok (Sample.notified [Sample.entry "HOME" "/", Sample.entry "LANG" "C"]) := by rfl
  have hidentifies := requestHash_identifies ratText Sample.sha256_injective Sample.viaCallback_isPython Sample.viaEndpoint_isPython
    hcallback hendpoint
  refine (hidentifies.1.2 ⟨by decide, fun h => ?_⟩).2 hequal
  rw [hequal] at h
  cases h.1

/-- A retry that spells the timeout as a float is another request: the specifications are equal and the digests differ. -/
theorem spelled_timeout_conflicts :
    JobSpec.fromDict (Sample.payload (.int 300)) = .ok (Sample.spec (.int 300)) ∧
      JobSpec.fromDict (Sample.payload (.float (.finite 300))) = .ok (Sample.spec (.float (.finite 300))) ∧
      ¬((Sample.spec (.int 300)).requestHash ratText Sample.sha256 =
        (Sample.spec (.float (.finite 300))).requestHash ratText Sample.sha256 ↔
        (Sample.spec (.int 300)).equals (Sample.spec (.float (.finite 300))) = true) := by
  have hequal : (Sample.spec (.int 300)).equals (Sample.spec (.float (.finite 300))) = true := by decide +kernel
  exact ⟨by rfl, by rfl, fun hclaim => Sample.digests_differ (hclaim.2 hequal)⟩

end Texts

end SharkRail
