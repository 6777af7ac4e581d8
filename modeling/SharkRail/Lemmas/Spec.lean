import SharkRail.Lemmas.SpecText
import SharkRail.Store.Operations

/-!
# Stored specifications

What `spec_json` holds: the dictionary of a valid specification, its members in any order (`Holds`). It reads back as that specification
with its pairs of surrogates joined, and writing the intent to cancel into it gives the dictionary of such a specification with that
intent.
-/

namespace SharkRail

open PyJson

namespace JobRow

/-- The row holds a specification: its dictionary, the members in any order. -/
structure Holds (r : JobRow) (spec : JobSpec) : Prop where
  written : ∃ members, r.specJson = .obj members ∧ members.Perm spec.toDict
  valid : spec.Valid

variable {r : JobRow} {spec : JobSpec}

/-- The members that are read. -/
theorem Holds.specData (h : r.Holds spec) : ∃ members, r.specData = .obj members ∧ members.Perm (spec.reread true).toDict := by
  obtain ⟨members, hjson, hperm⟩ := h.written
  obtain ⟨hread, hperm'⟩ := JobSpec.reread_of_perm hperm
  refine ⟨_, ?_, hperm'⟩
  unfold JobRow.specData
  rw [hjson, hread]

/-- The intent is read as it was written. -/
theorem Holds.desiredState (h : r.Holds spec) : (spec.reread true).desiredState = spec.desiredState :=
  JobSpec.reread_of_isDesiredState h.valid.desired true

/-- The row reads back. -/
theorem Holds.reads (h : r.Holds spec) : r.spec = .ok (spec.reread true) := by
  obtain ⟨members, hdata, hperm⟩ := h.specData
  unfold JobRow.spec
  rw [hdata]
  exact h.valid.fromDict_reread hperm

theorem Holds.rowToJob (h : r.Holds spec) : rowToJob r = .ok { r with spec := spec.reread true } := by
  unfold SharkRail.rowToJob
  rw [h.reads]
  rfl

theorem Holds.cancelled (h : r.Holds spec) : r.cancelled = decide (spec.desiredState = .str "cancelled") := by
  obtain ⟨members, hdata, hperm⟩ := h.specData
  have hget : get? members "desired_state" = some spec.desiredState := by
    rw [← get?_perm hperm.symm (JobSpec.nodup_toDict _), JobSpec.get?_desiredState, h.desiredState]
  unfold JobRow.cancelled
  rw [hdata]
  simp only [hget, Option.some.injEq]

/-- The specification that is held after the intent to cancel was written: what was read, with that intent, its environment in order. -/
def cancelledSpec (spec : JobSpec) : JobSpec := (spec.reread true).cancel.sorted

theorem valid_cancelledSpec (h : spec.Valid) : (cancelledSpec spec).Valid := (h.reread true).cancel.sorted

@[simp] theorem desiredState_cancelledSpec (spec : JobSpec) : (cancelledSpec spec).desiredState = .str "cancelled" := rfl

/-- The endpoint that the specification of a row names, if it names one. -/
def endpoint (r : JobRow) : Option PyStr := r.spec.toOption.bind Store.endpointOf

/-- A notification of the row can be stored: the endpoint it names has no surrogate. -/
def Notifiable (r : JobRow) : Prop := ∀ endpoint ∈ r.endpoint, PyStr.Unicode endpoint

instance (r : JobRow) : Decidable r.Notifiable := inferInstanceAs (Decidable (∀ endpoint ∈ r.endpoint, _))

/-- The endpoint that a row names, if it has a surrogate. -/
def unencodable (r : JobRow) : Option PyStr := r.endpoint.filter fun endpoint => decide ¬PyStr.Unicode endpoint

theorem mem_unencodable {endpoint : PyStr} : endpoint ∈ r.unencodable ↔ endpoint ∈ r.endpoint ∧ ¬PyStr.Unicode endpoint := by
  unfold unencodable
  rw [Option.mem_filter_iff, decide_eq_true_iff]

theorem Notifiable.unencodable (h : r.Notifiable) : r.unencodable = none := by
  rw [Option.eq_none_iff_forall_not_mem]
  exact fun endpoint hmem => (mem_unencodable.1 hmem).2 (h endpoint (mem_unencodable.1 hmem).1)

theorem Holds.endpoint (h : r.Holds spec) : r.endpoint = Store.endpointOf (spec.reread true) := by
  unfold JobRow.endpoint
  rw [h.reads]
  rfl

/-- The endpoint stays when the intent to cancel is written. -/
theorem endpointOf_cancelledSpec (h : spec.Valid) :
    Store.endpointOf ((cancelledSpec spec).reread true) = Store.endpointOf (spec.reread true) := by
  have hread : PyJson.reread true (PyJson.reread true spec.callbackEndpointId) = PyJson.reread true spec.callbackEndpointId := by
    rcases h.endpoint with h | h
    · cases hv : spec.callbackEndpointId <;> rw [hv] at h <;> first | rfl | cases h
    · cases hv : spec.callbackEndpointId <;> rw [hv] at h <;> first | cases h | skip
      exact congrArg PyJson.str (PyStr.join_join _)
  have hsame : ((cancelledSpec spec).reread true).callbackEndpointId = (spec.reread true).callbackEndpointId := hread
  unfold Store.endpointOf
  rw [hsame]

/-- A row keeps what it holds when its other columns change. -/
theorem Holds.of_specJson {r' : JobRow} (h : r.Holds spec) (hjson : r'.specJson = r.specJson) : r'.Holds spec :=
  ⟨by rw [hjson]; exact h.written, h.valid⟩

/-- A row holds the specification with the intent to cancel once that is written. -/
theorem Holds.cancel {r' : JobRow} (h : r.Holds spec) (hjson : r'.specJson = r.cancelledSpecJson) : r'.Holds (cancelledSpec spec) := by
  obtain ⟨members, hdata, hperm⟩ := h.specData
  obtain ⟨members', hsorted, hperm'⟩ := (h.valid.reread true).cancel.perm_sortKeys (JobSpec.set_perm hperm)
  refine ⟨⟨members', ?_, hperm'⟩, valid_cancelledSpec h.valid⟩
  unfold JobRow.cancelledSpecJson at hjson
  rw [hjson, hdata]
  exact hsorted

theorem Holds.cancelled_of_cancelledSpec (h : r.Holds (cancelledSpec spec)) : r.cancelled = true := by
  rw [h.cancelled]
  exact decide_eq_true rfl

/-- And names the endpoint that it named. -/
theorem Holds.notifiable_cancel {r' : JobRow} (h : r.Holds spec) (hjson : r'.specJson = r.cancelledSpecJson) :
    r'.Notifiable ↔ r.Notifiable := by
  unfold Notifiable
  rw [h.endpoint, (h.cancel hjson).endpoint, endpointOf_cancelledSpec h.valid]

end JobRow

/-- An accepted row holds the specification submitted. -/
theorem Store.holds_acceptedRow {cfg : StoreConfig} {now : Instant} {epoch jobId : Uuid} {tenantId key : String}
    {spec : JobSpec} (h : spec.Valid) : (Store.acceptedRow cfg now epoch jobId tenantId key spec).Holds spec.sorted :=
  ⟨h.perm_sortKeys (.refl _), h.sorted⟩

end SharkRail
