import SharkRail.Lemmas.SpecText
import SharkRail.Store.Columns

/-!
# The texts of a row

What a row holds is read again after every transaction: the texts were written for a valid specification, for an object of an error and
for an array of conditions (`Columns.Sound`), and a transaction writes such texts (`Sound.write`). So no transaction raises on a text, and
`_row_to_job` reads every row (`Sound.rowToJob`).
-/

namespace SharkRail

namespace Texts

open PyStr PyJson

theorem isPython_condition (type : String) (status : Bool) (reason now : PyStr) : PyJson.IsPython (condition type status reason now) := by
  have hkeys : ([ofString "type", ofString "status", ofString "reason", ofString "transition_time"] : List PyStr).Nodup := by decide
  exact ⟨hkeys, trivial, trivial, trivial, trivial, trivial⟩

theorem itemsPython_append {items items' : List PyJson} (h : ItemsPython items) (h' : ItemsPython items') :
    ItemsPython (items ++ items') := by
  induction items with
  | nil => exact h'
  | cons x xs ih => exact ⟨h.1, ih h.2⟩

namespace Columns

variable {F : FloatText} {columns : Columns}

/-- The texts of a row, as they were written. -/
structure Sound (F : FloatText) (columns : Columns) : Prop where
  spec : ∃ spec, JobSpec.Holds F columns.specJson spec
  error : ∀ text ∈ columns.errorJson, ∃ members, PyJson.IsPython (.obj members) ∧ text = dumps F JobSpec.specStyle (.obj members)
  conditions : ∃ items, ItemsPython items ∧ columns.conditionsJson = dumps F JobSpec.specStyle (.arr items)

theorem sound_submitted {spec : JobSpec} (h : spec.Valid) (hpython : spec.IsPython) (reason now : PyStr) :
    (submitted F spec reason now).Sound F :=
  ⟨⟨_, JobSpec.holds_specText F h hpython⟩, nofun, [condition "Accepted" true reason now],
    ⟨isPython_condition "Accepted" true reason now, trivial⟩, rfl⟩

/-- The members that a statement reads in `spec_json`. -/
theorem Sound.specData (h : columns.Sound F) : ∃ members spec, columns.specData F = some members ∧ members.Perm (JobSpec.toDict spec) ∧
    spec.Valid ∧ spec.IsPython := by
  obtain ⟨spec, hspec⟩ := h.spec
  obtain ⟨members, hloads, hperm⟩ := hspec.loads
  refine ⟨members, spec.reread true, ?_, hperm, hspec.valid.reread true, JobSpec.isPython_reread true hspec.python⟩
  unfold Columns.specData
  rw [hloads]

/-- The items that a statement reads in `conditions_json`. -/
theorem Sound.readConditions (h : columns.Sound F) : ∃ items, columns.conditions F = some items ∧ ItemsPython items := by
  obtain ⟨items, hitems, htext⟩ := h.conditions
  refine ⟨rereadItems true items, ?_, itemsPython_reread true items hitems⟩
  unfold Columns.conditions
  rw [htext, loads_dumps F JobSpec.specStyle (v := .arr items) hitems]
  rfl

theorem Sound.readError (h : columns.Sound F) : ∃ error, columns.error F = some error := by
  unfold Columns.error
  cases herror : columns.errorJson with
  | none => exact ⟨_, rfl⟩
  | some text =>
    obtain ⟨members, hpython, rfl⟩ := h.error text herror
    dsimp only
    split
    · exact ⟨_, rfl⟩
    · exact ⟨_, loads_dumps F JobSpec.specStyle hpython⟩

/-- `_row_to_job` reads the row. -/
theorem Sound.rowToJob (h : columns.Sound F) :
    ∃ spec error conditions, columns.rowToJob F = some (JobSpec.reread true spec, error, conditions) ∧
      JobSpec.Holds F columns.specJson spec := by
  obtain ⟨spec, hspec⟩ := h.spec
  obtain ⟨error, herror⟩ := h.readError
  obtain ⟨items, hitems, -⟩ := h.readConditions
  refine ⟨spec, error, items, ?_, hspec⟩
  unfold Columns.rowToJob
  rw [hspec.readText, herror, hitems]
  rfl

/-- The error objects given to `finish` are values that a program can hold. -/
def Write.Python : Write → Prop
  | .finish _ _ _ error => ∀ members ∈ error, PyJson.IsPython (.obj members)
  | _ => True

theorem Sound.finish (h : columns.Sound F) (phase : JobPhase) (reason now : PyStr) {error : Option (List (PyStr × PyJson))}
    (herror : ∀ members ∈ error, PyJson.IsPython (.obj members)) :
    ∃ columns', columns.finish F phase reason now error = some columns' ∧ columns'.Sound F := by
  obtain ⟨members, -, hspec, -⟩ := h.specData
  obtain ⟨items, hitems, hpython⟩ := h.readConditions
  have hready : ∀ status reason, ItemsPython (items ++ [condition "Ready" status reason now]) := fun status reason =>
    itemsPython_append hpython ⟨isPython_condition "Ready" status reason now, trivial⟩
  unfold Columns.finish
  split
  · rw [hspec, hitems]
    refine ⟨_, rfl, h.spec, ?_, _, hready _ _, rfl⟩
    intro text htext
    cases error with
    | none => cases htext
    | some members =>
      cases members with
      | nil => cases htext
      | cons m ms =>
        cases htext
        exact ⟨m :: ms, herror _ rfl, rfl⟩
  · exact ⟨columns, rfl, h⟩

theorem Sound.requestCancel (h : columns.Sound F) : ∃ columns', columns.requestCancel F = some columns' ∧ columns'.Sound F := by
  obtain ⟨members, spec, hread, hperm, hvalid, hpython⟩ := h.specData
  unfold Columns.requestCancel
  split
  · exact ⟨columns, rfl, h⟩
  · rw [hread]
    dsimp only [Option.bind_eq_bind, Option.bind_some]
    split
    · exact ⟨columns, rfl, h⟩
    · refine ⟨_, rfl, ⟨spec.cancel.sorted, ?_⟩, h.error, h.conditions⟩
      exact JobSpec.holds_of_perm F hvalid.cancel (JobSpec.isPython_cancel hpython) (JobSpec.set_perm hperm)

theorem Sound.recover (h : columns.Sound F) : ∃ columns', columns.recover F = some columns' ∧ columns'.Sound F := by
  obtain ⟨members, -, hread, -⟩ := h.specData
  unfold Columns.recover
  split
  · rw [hread]
    exact ⟨_, rfl, h.spec, h.error, h.conditions⟩
  · exact ⟨columns, rfl, h⟩

/-- No transaction raises on a text, and the texts are sound again. -/
theorem Sound.write (h : columns.Sound F) {w : Write} (hw : w.Python) :
    ∃ columns', columns.write F w = some columns' ∧ columns'.Sound F := by
  cases w with
  | claimNext =>
    refine ⟨_, rfl, ?_⟩
    split
    · exact ⟨h.spec, h.error, h.conditions⟩
    · exact h
  | markRunning => exact ⟨_, rfl, h.spec, h.error, h.conditions⟩
  | finish phase reason now error => exact h.finish phase reason now hw
  | requestCancel => exact h.requestCancel
  | recover => exact h.recover

/-- Nor does any sequence of transactions. -/
theorem Sound.run (h : columns.Sound F) {writes : List Write} (hw : ∀ w ∈ writes, w.Python) :
    ∃ columns', columns.run F writes = some columns' ∧ columns'.Sound F := by
  unfold Columns.run
  induction writes generalizing columns with
  | nil => exact ⟨columns, rfl, h⟩
  | cons w writes ih =>
    obtain ⟨columns₁, hwrite, hsound⟩ := h.write (hw w List.mem_cons_self)
    obtain ⟨columns', hrun, hsound'⟩ := ih hsound fun w' hw' => hw w' (List.mem_cons_of_mem w hw')
    refine ⟨columns', ?_, hsound'⟩
    rw [List.foldlM_cons, hwrite]
    exact hrun

end Columns

end Texts

end SharkRail
