import SharkRail.Integrations.ToolArguments
import SharkRail.Lib.Fallible

/-!
# The schemas of tools and their arguments

The validator accepts a value exactly when it satisfies the schema, where every keyword stands beside its type, as in all schemas that are
advertised (`validateSchema_eq_ok`, `keywordsTyped_toJsonSchema`). What an accepted tool reads of its arguments is there with its type; what
the schemas do not say, and the reading asks for, is `Readable`.
-/

namespace SharkRail

namespace Texts

namespace Mcp

open Fallible JsonSchema PyStr PyJson
open Integrations (Schema Tool toolDefinitions)

/-! ## Single checks -/

/-- A string equals itself only. -/
theorem equals_str {s : PyStr} {value : PyJson} : (PyJson.str s).equals value = true ↔ value = .str s := by
  cases value <;> simp [PyJson.equals, PyJson.number, PyJson.numbersEqual, eq_comm]

/-- The check of an enumeration of strings passes what is listed. -/
theorem checkEnum_eq_ok {path : PyStr} {schema : JsonSchema} {value : PyJson}
    (hstrings : ∀ values, schema.enum = some values → ∀ listed ∈ values, ∃ s, listed = .str s) :
    checkEnum path schema value = .ok () ↔ ∀ values, schema.enum = some values → ∃ listed ∈ values, Same listed value := by
  unfold checkEnum
  cases henum : schema.enum with
  | none => simp [pure, Except.pure]
  | some values =>
    have hsame : (values.any (·.equals value) = true) ↔ ∃ listed ∈ values, Same listed value := by
      rw [List.any_eq_true]
      refine exists_congr fun listed => and_congr_right fun hlisted => ?_
      obtain ⟨s, rfl⟩ := hstrings values henum listed hlisted
      rw [equals_str, same_str]
    by_cases h : values.any (·.equals value) = true
    · simp [h, hsame.1 h, pure, Except.pure]
    · simpa [h, throw, throwThe, MonadExceptOf.throw] using fun listed hlisted hlistedSame => h (hsame.2 ⟨listed, hlisted, hlistedSame⟩)

/-- The check of the required members passes an object that has them. -/
theorem checkRequired_eq_ok {path : PyStr} {schema : JsonSchema} {members : List (PyStr × PyJson)} :
    checkRequired path schema members = .ok () ↔ HasMembers schema.required (.obj members) := by
  unfold checkRequired
  cases hmissing : schema.required.find? fun key => (get? members key).isNone with
  | none =>
    rw [List.find?_eq_none] at hmissing
    simpa [HasMembers, pure, Except.pure, Option.isSome_iff_ne_none] using hmissing
  | some key =>
    have hkey := List.find?_some hmissing
    have hmem := List.mem_of_find?_eq_some hmissing
    refine iff_of_false throw_ne_ok ?_
    intro h
    have := h members rfl key hmem
    simp_all

/-- A predicate counts one element of a list if and only if it holds of one place of it alone. -/
theorem countP_eq_one {α : Type} {p : α → Bool} {l : List α} :
    l.countP p = 1 ↔ ∃ before a after, l = before ++ a :: after ∧ p a = true ∧ ∀ other ∈ before ++ after, ¬p other = true := by
  constructor
  · intro hcount
    obtain ⟨a, ha, hp⟩ := List.countP_pos_iff.1 (by omega : 0 < l.countP p)
    obtain ⟨before, after, rfl⟩ := List.append_of_mem ha
    refine ⟨before, a, after, rfl, hp, ?_⟩
    rw [← List.countP_eq_zero, List.countP_append]
    rw [List.countP_append, List.countP_cons, hp] at hcount
    simp only [if_true] at hcount
    omega
  · rintro ⟨before, a, after, rfl, hp, hothers⟩
    rw [← List.countP_eq_zero, List.countP_append] at hothers
    simp only [List.countP_append, List.countP_cons, hp, if_true]
    omega

/-- The check of the alternatives passes an object that has the members of exactly one. -/
theorem checkOneOf_eq_ok {path : PyStr} {schema : JsonSchema} {members : List (PyStr × PyJson)} :
    checkOneOf path schema members = .ok () ↔ ∀ alternatives, schema.oneOf = some alternatives →
      ∃ before alternative after, alternatives = before ++ alternative :: after ∧ HasMembers alternative (.obj members) ∧
        ∀ other ∈ before ++ after, ¬HasMembers other (.obj members) := by
  have hhas (keys : List PyStr) : (keys.all fun key => (get? members key).isSome) = true ↔ HasMembers keys (.obj members) := by
    simp [HasMembers]
  unfold checkOneOf
  cases schema.oneOf with
  | none => simp [pure, Except.pure]
  | some alternatives =>
    simp only [Option.some.injEq, forall_eq', ← hhas]
    rw [← countP_eq_one]
    split
    · rename_i hcount
      exact iff_of_false throw_ne_ok hcount
    · rename_i hcount
      exact iff_of_true rfl (not_not.1 hcount)

/-! ## The meaning of a schema, by the kind of the value -/

variable {schema : JsonSchema}

/-- The type of a schema that a value of one type satisfies. -/
def AllowsType (schema : JsonSchema) (type : SchemaType) : Prop := schema.type = none ∨ schema.type = some type

/-- The members of an object satisfy the schemas that a schema of objects has for them. -/
def MembersSatisfy (schema : JsonSchema) (members : List (PyStr × PyJson)) : Prop :=
  ∀ key item, (key, item) ∈ members → ∃ property, memberSchema schema key = some property ∧ Satisfies property item

/-- A value is one that an enumeration lists. -/
def Listed (schema : JsonSchema) (value : PyJson) : Prop := ∀ values, schema.enum = some values → ∃ listed ∈ values, Same listed value

/-- One alternative alone has its members. -/
def OneForm (schema : JsonSchema) (value : PyJson) : Prop :=
  ∀ alternatives, schema.oneOf = some alternatives →
    ∃ before alternative after, alternatives = before ++ alternative :: after ∧ HasMembers alternative value ∧
      ∀ other ∈ before ++ after, ¬HasMembers other value

/-- The empty schema allows every value. -/
theorem satisfies_any (value : PyJson) : Satisfies {} value :=
  .intro (by simp) (by simp [HasMembers]) (by simp [property?]) (by simp) (by simp) (by simp) (by simp) (by simp) (by simp) (by simp)

/-- The empty schema has no keyword. -/
theorem keywordsTyped_any : KeywordsTyped {} :=
  .intro (by simp) (by simp) (by simp) (by simp) (by simp) (by simp)

/-- The schemas of the members have typed keywords. -/
theorem keywordsTyped_memberSchema (h : KeywordsTyped schema) (htype : schema.type = some .object) {key : PyStr} {property : JsonSchema}
    (hproperty : memberSchema schema key = some property) : KeywordsTyped property := by
  obtain ⟨_, _, _, hproperties, hothers, _⟩ := h
  unfold memberSchema at hproperty
  split at hproperty
  · rename_i found hfound
    cases hproperty
    exact hproperties htype key _ hfound
  · cases hadditional : schema.additionalProperties with
    | none =>
      rw [hadditional] at hproperty
      cases hproperty
      exact keywordsTyped_any
    | some other =>
      rw [hadditional] at hproperty
      exact hothers htype property (hadditional.trans (congrArg some hproperty))

/-- What a schema asks of an object. -/
theorem satisfies_obj {members : List (PyStr × PyJson)} : Satisfies schema (.obj members) ↔
    AllowsType schema .object ∧ HasMembers schema.required (.obj members) ∧ MembersSatisfy schema members ∧
      OneForm schema (.obj members) ∧ Listed schema (.obj members) := by
  constructor
  · rintro ⟨htype, hrequired, hproperties, hnoOthers, hothers, -, -, -, henum, honeOf⟩
    refine ⟨?_, hrequired, ?_, honeOf, henum⟩
    · cases hschema : schema.type with
      | none => exact .inl hschema
      | some type =>
        have hvalue := htype type hschema
        cases type with
        | object => exact .inr hschema
        | _ => simp [HasType] at hvalue
    · intro key item hmem
      unfold memberSchema
      split
      · rename_i property hproperty
        exact ⟨property, rfl, hproperties members rfl key item hmem property hproperty⟩
      · rename_i hnone
        have hnot := hnoOthers members rfl key item hmem hnone
        cases hadditional : schema.additionalProperties with
        | none => exact ⟨{}, rfl, satisfies_any item⟩
        | some other =>
          cases other with
          | none => exact absurd hadditional hnot
          | some other => exact ⟨other, rfl, hothers members rfl key item hmem hnone other hadditional⟩
  · rintro ⟨htype, hrequired, hmembers, honeOf, henum⟩
    have hother {type : SchemaType} (hne : type ≠ .object) : schema.type ≠ some type := by
      rcases htype with htype | htype <;> simp [htype, hne.symm]
    refine .intro ?_ hrequired ?_ ?_ ?_ (by simp) (by simp) (by simp [number?]) henum honeOf
    · intro type hschema
      have : type = .object := not_not.1 fun hne => hother hne hschema
      subst this
      exact ⟨members, rfl⟩
    all_goals
      intro others hothers key item hmem
      cases hothers
      obtain ⟨property, hproperty, hsatisfies⟩ := hmembers key item hmem
      unfold memberSchema at hproperty
    · intro found hfound
      rw [hfound] at hproperty
      cases hproperty
      exact hsatisfies
    · intro hnone hadditional
      rw [hnone, hadditional] at hproperty
      cases hproperty
    · intro hnone other hadditional
      rw [hnone, hadditional] at hproperty
      cases hproperty
      exact hsatisfies

/-- A schema for another type has no alternatives. -/
theorem oneOf_eq_none (h : KeywordsTyped schema) (htype : schema.type ≠ some .object) : schema.oneOf = none := by
  obtain ⟨_, honeOf, _⟩ := h
  exact honeOf htype

/-- What a schema asks of an array. -/
theorem satisfies_arr (htyped : KeywordsTyped schema) {items : List PyJson} : Satisfies schema (.arr items) ↔
    AllowsType schema .array ∧ (∀ item ∈ items, Satisfies (schema.items.getD {}) item) ∧ Listed schema (.arr items) := by
  constructor
  · rintro ⟨htype, -, -, -, -, hitems, -, -, henum, -⟩
    refine ⟨?_, ?_, henum⟩
    · cases hschema : schema.type with
      | none => exact .inl hschema
      | some type =>
        have hvalue := htype type hschema
        cases type with
        | array => exact .inr hschema
        | _ => simp [HasType] at hvalue
    · intro item hmem
      cases hschema : schema.items with
      | none => exact satisfies_any item
      | some schemaOfItems => exact hitems items rfl schemaOfItems hschema item hmem
  · rintro ⟨htype, hitems, henum⟩
    have hne : schema.type ≠ some .object := by rcases htype with htype | htype <;> simp [htype]
    refine .intro ?_ (by simp [HasMembers]) nofun nofun nofun ?_ nofun (by simp [number?]) henum ?_
    · intro type hschema
      rcases htype with htype | htype
      · simp [htype] at hschema
      · rw [htype] at hschema
        cases hschema
        exact ⟨items, rfl⟩
    · intro others hothers schemaOfItems hschema item hmem
      cases hothers
      rw [hschema] at hitems
      exact hitems item hmem
    · simp [oneOf_eq_none htyped hne]

/-- A value that is no object and no array. -/
def IsScalar : PyJson → Prop
  | .obj _ | .arr _ => False
  | _ => True

/-- What a schema says about a value with no values in it. -/
def ScalarSatisfies (schema : JsonSchema) (value : PyJson) : Prop :=
  (∀ type, schema.type = some type → HasType type value) ∧ (∀ s, value = .str s → schema.minLength ≤ s.length) ∧
    (∀ least, schema.minimum = some least → ∀ q, number? value = some q → (least : ℚ) ≤ q)

/-- What a schema asks of a value without parts. -/
theorem satisfies_scalar (htyped : KeywordsTyped schema) {value : PyJson} (hscalar : IsScalar value) :
    Satisfies schema value ↔ ScalarSatisfies schema value ∧ Listed schema value := by
  have hobj (members : List (PyStr × PyJson)) : value ≠ .obj members := by
    rintro rfl
    exact hscalar
  have harr (items : List PyJson) : value ≠ .arr items := by
    rintro rfl
    exact hscalar
  constructor
  · rintro ⟨htype, -, -, -, -, -, hlength, hminimum, henum, -⟩
    exact ⟨⟨htype, hlength, hminimum⟩, henum⟩
  · rintro ⟨⟨htype, hlength, hminimum⟩, henum⟩
    have hne : schema.type ≠ some .object := by
      intro hschema
      obtain ⟨members, hmembers⟩ := htype .object hschema
      exact hobj members hmembers
    refine .intro htype ?_ ?_ ?_ ?_ ?_ hlength hminimum henum ?_
    · exact fun members hmembers => absurd hmembers (hobj members)
    · exact fun members hmembers => absurd hmembers (hobj members)
    · exact fun members hmembers => absurd hmembers (hobj members)
    · exact fun members hmembers => absurd hmembers (hobj members)
    · exact fun items hitems => absurd hitems (harr items)
    · simp [oneOf_eq_none htyped hne]

/-- The check of a value without parts passes what meets its schema. -/
theorem checkScalar_eq_ok (htyped : KeywordsTyped schema) {path : PyStr} {value : PyJson} (hscalar : IsScalar value) :
    checkScalar path schema value = .ok () ↔ ScalarSatisfies schema value := by
  obtain ⟨huntyped, -⟩ := htyped
  unfold ScalarSatisfies
  have hthrow {type : SchemaType} (hschema : schema.type = some type) (hnot : ¬HasType type value) :
      (throw (.wrongType path type) : Except SchemaError Unit) = .ok () ↔ ScalarSatisfies schema value :=
    iff_of_false throw_ne_ok fun h => hnot (h.1 type hschema)
  cases value with
  | obj members => exact hscalar.elim
  | arr items => exact hscalar.elim
  | null =>
    simp only [checkScalar]
    split
    · rename_i hschema
      exact iff_of_true rfl ⟨by simp [hschema], by simp, by simp [number?]⟩
    · rename_i type hschema
      exact hthrow hschema (by cases type <;> simp [HasType])
  | float x =>
    simp only [checkScalar]
    split
    · rename_i hschema
      have hminimum : schema.minimum = none := (huntyped hschema).2.2.2.2.2
      exact iff_of_true rfl ⟨by simp [hschema], by simp, by simp [hminimum]⟩
    · rename_i type hschema
      exact hthrow hschema (by cases type <;> simp [HasType])
  | bool b =>
    simp only [checkScalar]
    split
    · rename_i hschema
      exact iff_of_true rfl ⟨by simp [hschema], by simp, by simp [number?]⟩
    · rename_i hschema
      refine iff_of_true rfl ⟨?_, by simp, by simp [number?]⟩
      simp [hschema, HasType]
    · rename_i type hne hschema
      exact hthrow hschema (by cases type <;> simp_all [HasType])
  | int n =>
    simp only [checkScalar]
    split
    · rename_i hschema
      have hminimum : schema.minimum = none := (huntyped hschema).2.2.2.2.2
      exact iff_of_true rfl ⟨by simp [hschema], by simp, by simp [hminimum]⟩
    · rename_i hschema
      have hleast : schema.minimum.any (n < ·) = false ↔ ∀ least, schema.minimum = some least → (least : ℚ) ≤ n := by
        cases schema.minimum <;> simp
      split
      · rename_i hbelow
        refine iff_of_false throw_ne_ok fun h => ?_
        rw [hleast.2 fun least hminimum => h.2.2 least hminimum n rfl] at hbelow
        cases hbelow
      · rename_i hbelow
        refine iff_of_true rfl ⟨by simp [hschema, HasType], by simp, ?_⟩
        intro least hminimum q hq
        cases hq
        exact hleast.1 (by simpa using hbelow) least hminimum
    · rename_i type hne hschema
      exact hthrow hschema (by cases type <;> simp_all [HasType])
  | str s =>
    simp only [checkScalar]
    split
    · rename_i hschema
      have hlength : schema.minLength = 0 := (huntyped hschema).2.2.2.2.1
      exact iff_of_true rfl ⟨by simp [hschema], by simp [hlength], by simp [number?]⟩
    · rename_i hschema
      split
      · rename_i hshort
        refine iff_of_false throw_ne_ok fun h => ?_
        have := h.2.1 s rfl
        omega
      · rename_i hshort
        refine iff_of_true rfl ⟨by simp [hschema, HasType], ?_, by simp [number?]⟩
        rintro _ ⟨rfl⟩
        omega
    · rename_i type hne hschema
      exact hthrow hschema (by cases type <;> simp_all [HasType])

/-! ## The validator -/

/-- The validator passes a value without parts that meets its schema. -/
theorem validateSchema_scalar (htyped : KeywordsTyped schema) {path : PyStr} {value : PyJson} (hscalar : IsScalar value)
    (h : validateSchema path value schema = do checkScalar path schema value; checkEnum path schema value) :
    validateSchema path value schema = .ok () ↔ Satisfies schema value := by
  obtain ⟨-, -, hstrings, -⟩ := id htyped
  rw [h, check_eq_ok, checkScalar_eq_ok htyped hscalar, checkEnum_eq_ok hstrings, satisfies_scalar htyped hscalar]
  rfl

mutual

/-- The validator accepts the values that satisfy a schema. -/
theorem validateSchema_eq_ok : ∀ (value : PyJson) {path : PyStr} {schema : JsonSchema}, KeywordsTyped schema →
    (validateSchema path value schema = .ok () ↔ Satisfies schema value)
  | .obj members, path, schema, htyped => by
    obtain ⟨huntyped, honeOf, hstrings, -⟩ := id htyped
    rw [satisfies_obj, validateSchema]
    split
    · -- no type is given, and so no keyword that is about objects
      rename_i hschema
      obtain ⟨hproperties, hrequired, hothers, -⟩ := huntyped hschema
      rw [checkEnum_eq_ok hstrings]
      refine (and_iff_right (.inl hschema)).symm.trans (and_congr_right fun _ => ?_)
      have hmembers : MembersSatisfy schema members := by
        intro key item _
        exact ⟨{}, by simp [memberSchema, property?, hproperties, hothers], satisfies_any item⟩
      simp [HasMembers, hrequired, hmembers, OneForm, honeOf (by simp [hschema]), Listed]
    · rename_i hschema
      rw [check_eq_ok, check_eq_ok, check_eq_ok, checkRequired_eq_ok, validateMembers_eq_ok members htyped hschema, checkOneOf_eq_ok,
        checkEnum_eq_ok hstrings]
      exact (and_iff_right (.inr hschema)).symm
    · rename_i type hne hschema
      refine iff_of_false throw_ne_ok fun h => ?_
      rcases h.1 with htype | htype <;> simp_all
  | .arr items, path, schema, htyped => by
    obtain ⟨huntyped, -, hstrings, -, -, hitems⟩ := id htyped
    rw [satisfies_arr htyped, validateSchema]
    split
    · rename_i hschema
      rw [checkEnum_eq_ok hstrings]
      refine (and_iff_right (.inl hschema)).symm.trans (and_congr_right fun _ => ?_)
      simp [(huntyped hschema).2.2.2.1, satisfies_any, Listed]
    · rename_i hschema
      have htypedItems : KeywordsTyped (schema.items.getD {}) := by
        cases hschemaOfItems : schema.items with
        | none => exact keywordsTyped_any
        | some schemaOfItems => exact hitems hschema schemaOfItems hschemaOfItems
      rw [check_eq_ok, validateItems_eq_ok items htypedItems, checkEnum_eq_ok hstrings]
      exact (and_iff_right (.inr hschema)).symm
    · rename_i type hne hschema
      refine iff_of_false throw_ne_ok fun h => ?_
      rcases h.1 with htype | htype <;> simp_all
  | .null, _, _, htyped => validateSchema_scalar htyped trivial rfl
  | .bool _, _, _, htyped => validateSchema_scalar htyped trivial rfl
  | .int _, _, _, htyped => validateSchema_scalar htyped trivial rfl
  | .float _, _, _, htyped => validateSchema_scalar htyped trivial rfl
  | .str _, _, _, htyped => validateSchema_scalar htyped trivial rfl

/-- The validator passes the members that meet their schemas. -/
theorem validateMembers_eq_ok : ∀ (members : List (PyStr × PyJson)) {path : PyStr} {schema : JsonSchema}, KeywordsTyped schema →
    schema.type = some .object → (validateMembers path members schema = .ok () ↔ MembersSatisfy schema members)
  | [], path, schema, htyped, _ => by simp [validateMembers, MembersSatisfy, pure, Except.pure]
  | (key, item) :: members, path, schema, htyped, htype => by
    have hrest : validateMembers path members schema = .ok () ↔ MembersSatisfy schema members :=
      validateMembers_eq_ok members htyped htype
    simp only [MembersSatisfy, List.mem_cons] at hrest ⊢
    rw [validateMembers]
    split
    · rename_i property hproperty
      rw [check_eq_ok, validateSchema_eq_ok item (keywordsTyped_memberSchema htyped htype hproperty), hrest]
      constructor
      · rintro ⟨hitem, hmembers⟩ other value (⟨⟨rfl, rfl⟩⟩ | hmem)
        · exact ⟨property, hproperty, hitem⟩
        · exact hmembers other value hmem
      · intro hall
        obtain ⟨found, hfound, hitem⟩ := hall key item (.inl rfl)
        rw [hproperty] at hfound
        cases hfound
        exact ⟨hitem, fun other value hmem => hall other value (.inr hmem)⟩
    · rename_i hnone
      refine iff_of_false throw_ne_ok fun hall => ?_
      obtain ⟨found, hfound, -⟩ := hall key item (.inl rfl)
      rw [hnone] at hfound
      cases hfound

/-- The validator passes the items that meet theirs. -/
theorem validateItems_eq_ok : ∀ (items : List PyJson) {path : PyStr} {index : ℕ} {schema : JsonSchema}, KeywordsTyped schema →
    (validateItems path index items schema = .ok () ↔ ∀ item ∈ items, Satisfies schema item)
  | [], path, index, schema, htyped => by simp [validateItems, pure, Except.pure]
  | item :: items, path, index, schema, htyped => by
    rw [validateItems, check_eq_ok, validateSchema_eq_ok item htyped, validateItems_eq_ok items htyped, List.forall_mem_cons]

end

/-! ## Advertised schemas -/

/-- The schema of an object, with its keywords written out. -/
theorem toJsonSchema_object (properties : List (String × Schema)) (required : List String) (additional : Option Schema) :
    (Schema.object properties required additional).toJsonSchema =
      { type := some .object, properties := Schema.toJsonSchemas properties, required := required.map ofString
        additionalProperties := some (additional.map Schema.toJsonSchema) } := by
  cases additional <;> rfl

mutual

/-- The schemas of tools have their keywords beside their types. -/
theorem keywordsTyped_toJsonSchema : ∀ schema : Schema, KeywordsTyped schema.toJsonSchema
  | .object properties required additional => by
    rw [toJsonSchema_object]
    refine .intro (by simp) (by simp) (by simp) ?_ ?_ (by simp)
    · intro _ key property hproperty
      obtain ⟨m, hm, rfl⟩ := Option.map_eq_some_iff.1 hproperty
      exact keywordsTyped_toJsonSchemas properties m (List.mem_of_find?_eq_some hm)
    · intro _ other hother
      cases additional with
      | none => cases hother
      | some schema =>
        cases hother
        exact keywordsTyped_toJsonSchema schema
  | .array items => by
    refine .intro (by simp [Schema.toJsonSchema]) (by simp [Schema.toJsonSchema]) (by simp [Schema.toJsonSchema])
      (by simp [Schema.toJsonSchema]) (by simp [Schema.toJsonSchema]) ?_
    intro _ schemaOfItems hitems
    rw [Schema.toJsonSchema] at hitems
    cases hitems
    exact keywordsTyped_toJsonSchema items
  | .string _ | .integer _ | .boolean _ | .enum _ _ => by
    refine .intro ?_ ?_ ?_ ?_ ?_ ?_ <;> simp [Schema.toJsonSchema, property?]

/-- The schemas of properties have typed keywords. -/
theorem keywordsTyped_toJsonSchemas : ∀ properties : List (String × Schema), ∀ m ∈ Schema.toJsonSchemas properties, KeywordsTyped m.2
  | [] => nofun
  | (name, schema) :: properties => by
    rw [Schema.toJsonSchemas, List.forall_mem_cons]
    exact ⟨keywordsTyped_toJsonSchema schema, keywordsTyped_toJsonSchemas properties⟩

end

/-! ## What an accepted argument is -/

variable {arguments : List (PyStr × PyJson)} {key : String} {item : PyJson}

/-- A value that is found is the value of a member. -/
theorem mem_of_get? {members : List (PyStr × PyJson)} {key : PyStr} {value : PyJson} (h : get? members key = some value) :
    (key, value) ∈ members := by
  obtain ⟨m, hm, rfl⟩ := Option.map_eq_some_iff.1 h
  have hkey : m.1 = key := by simpa using List.find?_some hm
  rw [← hkey]
  exact List.mem_of_find?_eq_some hm

/-- An argument of an accepted call satisfies the schema of its property. -/
theorem satisfies_argument (h : Satisfies schema (.obj arguments)) {property : JsonSchema}
    (hproperty : memberSchema schema (ofString key) = some property) (hitem : get? arguments (ofString key) = some item) :
    Satisfies property item := by
  obtain ⟨found, hfound, hsatisfies⟩ := (satisfies_obj.1 h).2.2.1 _ _ (mem_of_get? hitem)
  rw [hproperty] at hfound
  cases hfound
  exact hsatisfies

/-- A required argument is there. -/
theorem exists_argument (key : String) (h : Satisfies schema (.obj arguments)) (hrequired : ofString key ∈ schema.required) :
    ∃ item, get? arguments (ofString key) = some item := by
  obtain ⟨-, hmembers, -⟩ := h
  exact Option.isSome_iff_exists.1 (hmembers arguments rfl _ hrequired)

/-- What meets a schema for strings is a string. -/
theorem satisfies_string {minLength : ℕ} (h : Satisfies (Schema.string minLength).toJsonSchema item) :
    ∃ s, item = .str s ∧ minLength ≤ s.length := by
  obtain ⟨htype, -, -, -, -, -, hlength, -⟩ := h
  obtain ⟨s, rfl⟩ := htype .string rfl
  exact ⟨s, rfl, hlength s rfl⟩

/-- What meets a schema for integers is an integer. -/
theorem satisfies_integer {minimum : Option ℤ} (h : Satisfies (Schema.integer minimum).toJsonSchema item) : ∃ n, item = .int n := by
  obtain ⟨htype, -⟩ := h
  exact htype .integer rfl

/-- What meets a schema for booleans is a boolean. -/
theorem satisfies_boolean (default : Bool) (h : Satisfies (Schema.boolean default).toJsonSchema item) : ∃ b, item = .bool b := by
  obtain ⟨htype, -⟩ := h
  exact htype .boolean rfl

/-- What meets an enumeration is listed in it. -/
theorem satisfies_enum {values : List String} (default : String) (h : Satisfies (Schema.enum values default).toJsonSchema item) :
    ∃ value ∈ values, item = .str (ofString value) := by
  obtain ⟨-, -, -, -, -, -, -, -, henum, -⟩ := h
  obtain ⟨listed, hlisted, hsame⟩ := henum _ rfl
  obtain ⟨value, hvalue, rfl⟩ := List.mem_map.1 hlisted
  exact ⟨value, hvalue, same_str.1 hsame⟩

/-- What meets a schema for arrays of strings is an array of strings. -/
theorem satisfies_strings {minLength : ℕ} (h : Satisfies (Schema.array (.string minLength)).toJsonSchema item) :
    ∃ items, item = .arr items ∧ items.all isStr = true := by
  obtain ⟨htype, -, -, -, -, hitems, -⟩ := h
  obtain ⟨items, rfl⟩ := htype .array rfl
  refine ⟨items, rfl, List.all_eq_true.2 fun element hmem => ?_⟩
  obtain ⟨s, rfl, -⟩ := satisfies_string (hitems items rfl _ rfl element hmem)
  rfl

/-- An object that may have any members, each of them a string. -/
theorem satisfies_stringMembers {minLength : ℕ} (h : Satisfies (Schema.object [] [] (some (.string minLength))).toJsonSchema item) :
    ∃ members, item = .obj members ∧ (members.all fun m => isStr m.2) = true := by
  obtain ⟨htype, -, -, -, hothers, -⟩ := h
  obtain ⟨members, rfl⟩ := htype .object rfl
  refine ⟨members, rfl, List.all_eq_true.2 fun m hmem => ?_⟩
  obtain ⟨s, hs, -⟩ := satisfies_string (hothers members rfl m.1 m.2 hmem rfl _ rfl)
  rw [hs]
  rfl

/-! ## Reading -/

/-- A required string is read when it is there and not empty. -/
theorem requiredString_eq_ok {s : PyStr} :
    requiredString arguments key = .ok s ↔ get? arguments (ofString key) = some (.str s) ∧ s ≠ [] := by
  unfold requiredString
  split
  · simp_all [throw, throwThe, MonadExceptOf.throw]
  · rename_i c rest hvalue
    rw [hvalue, pure_eq_ok]
    constructor
    · rintro rfl
      exact ⟨rfl, List.cons_ne_nil c rest⟩
    · rintro ⟨h, -⟩
      exact PyJson.str.inj (Option.some.inj h)
  · rename_i value hne hvalue
    rw [hvalue]
    refine iff_of_false throw_ne_ok ?_
    rintro ⟨h, hs⟩
    cases h
    cases s with
    | nil => exact hs rfl
    | cons c s => exact hne c s rfl

/-- An argument or its default is read, where both can be. -/
theorem getD_ok {α : Type} {f : PyJson → Except ArgumentError α} {default : PyJson} (hdefault : ∃ a, f default = .ok a)
    (h : ∀ item, get? arguments (ofString key) = some item → ∃ a, f item = .ok a) :
    ∃ a, f (JobSpec.getD arguments key default) = .ok a := by
  unfold JobSpec.getD
  cases hitem : get? arguments (ofString key) with
  | none => exact hdefault
  | some item => exact h item hitem

/-- An optional integer is read when it is none or an integer. -/
theorem optionalInteger_ok (key : String) (h : ∀ item, get? arguments (ofString key) = some item → ∃ n, item = .int n) :
    ∃ n, optionalInteger arguments key = .ok n := by
  unfold optionalInteger JobSpec.getD
  cases hitem : get? arguments (ofString key) with
  | none => exact ⟨none, rfl⟩
  | some item =>
    obtain ⟨n, rfl⟩ := h item hitem
    exact ⟨some n, rfl⟩

/-- An integer with a default is read when it is none or an integer. -/
theorem integer_ok (key : String) (default : ℤ) (h : ∀ item, get? arguments (ofString key) = some item → ∃ n, item = .int n) :
    ∃ n, integer arguments key default = .ok n := by
  unfold integer JobSpec.getD
  cases hitem : get? arguments (ofString key) with
  | none => exact ⟨default, rfl⟩
  | some item =>
    obtain ⟨n, rfl⟩ := h item hitem
    exact ⟨n, rfl⟩

/-! ## Commands -/

/-- A command that meets its schema is read. -/
theorem commandSpec_ok (h : Satisfies Integrations.commandSchema.toJsonSchema (.obj arguments)) :
    ∃ command, commandSpec arguments = .ok command := by
  obtain ⟨argv, hargv⟩ : ∃ argv, argvOf (JobSpec.getD arguments "args" (.arr [])) = .ok argv :=
    getD_ok ⟨[], rfl⟩ fun item hitem => by
      obtain ⟨items, rfl, hitems⟩ := satisfies_strings (satisfies_argument h rfl hitem)
      exact ⟨items, by rw [argvOf, if_pos hitems]; rfl⟩
  obtain ⟨env, henv⟩ : ∃ env, envOf (JobSpec.getD arguments "env" .null) = .ok env :=
    getD_ok ⟨none, rfl⟩ fun item hitem => by
      obtain ⟨members, rfl, hmembers⟩ := satisfies_stringMembers (satisfies_argument h rfl hitem)
      exact ⟨some members, by rw [envOf, if_pos hmembers]; rfl⟩
  obtain ⟨inheritEnv, hinheritEnv⟩ : ∃ b, inheritEnvOf (JobSpec.getD arguments "inheritEnv" (.bool true)) = .ok b :=
    getD_ok ⟨true, rfl⟩ fun item hitem => by
      obtain ⟨b, rfl⟩ := satisfies_boolean true (satisfies_argument h rfl hitem)
      exact ⟨b, rfl⟩
  obtain ⟨cwd, hcwd⟩ : ∃ cwd, cwdOf (JobSpec.getD arguments "cwd" .null) = .ok cwd :=
    getD_ok ⟨none, rfl⟩ fun item hitem => by
      obtain ⟨s, rfl, -⟩ := satisfies_string (satisfies_argument h rfl hitem)
      exact ⟨some s, rfl⟩
  obtain ⟨executable, hexecutable⟩ : ∃ executable, requiredString arguments "executable" = .ok executable := by
    obtain ⟨item, hitem⟩ := exists_argument "executable" h (by simp [Integrations.commandSchema, Schema.toJsonSchema])
    obtain ⟨s, rfl, hlength⟩ := satisfies_string (satisfies_argument h rfl hitem)
    exact ⟨s, requiredString_eq_ok.2 ⟨hitem, List.ne_nil_of_length_pos hlength⟩⟩
  obtain ⟨mode, hmode⟩ : ∃ mode, modeOf (JobSpec.getD arguments "mode" (.str (ofString "pipe"))) = .ok mode :=
    getD_ok ⟨.pipe, rfl⟩ fun item hitem => by
      obtain ⟨value, hvalue, rfl⟩ := satisfies_enum "pipe" (satisfies_argument h rfl hitem)
      rcases List.mem_pair.1 hvalue with rfl | rfl
      · exact ⟨.pipe, rfl⟩
      · exact ⟨.pty, rfl⟩
  refine ⟨{ executable, argv, cwd, env, inheritEnv, mode }, ?_⟩
  simp only [commandSpec, hargv, henv, hinheritEnv, hcwd, hexecutable, hmode, bind, Except.bind, pure, Except.pure]

/-- The arguments of a start that meet their schema are read. -/
theorem startOf_ok (h : Satisfies Integrations.commandSchema.toJsonSchema (.obj arguments)) (untilEnd : Bool) :
    ∃ operation, startOf arguments untilEnd = .ok operation := by
  obtain ⟨command, hcommand⟩ := commandSpec_ok h
  obtain ⟨timeoutMs, htimeout⟩ := optionalInteger_ok "timeoutMs" fun item hitem =>
    satisfies_integer (satisfies_argument h rfl hitem)
  obtain ⟨idleTimeoutMs, hidle⟩ := optionalInteger_ok "idleTimeoutMs" fun item hitem =>
    satisfies_integer (satisfies_argument h rfl hitem)
  obtain ⟨maxOutputBytes, hcap⟩ := optionalInteger_ok "maxOutputBytes" fun item hitem =>
    satisfies_integer (satisfies_argument h rfl hitem)
  refine ⟨.start command timeoutMs idleTimeoutMs maxOutputBytes untilEnd, ?_⟩
  simp only [startOf, hcommand, htimeout, hidle, hcap, bind, Except.bind, pure, Except.pure]

/-! ## Sessions -/

/-- An argument that is a string is read unless it is empty. -/
theorem requiredString_str {s : PyStr} (h : get? arguments (ofString key) = some (.str s)) :
    requiredString arguments key = if s = [] then .error (.type (key ++ " must be a non-empty string")) else .ok s := by
  unfold requiredString
  rw [h]
  cases s <;> rfl

variable {b64decode : PyStr → Except String (List UInt8)} {name : PyStr}

/-- The arguments of a call are read, or the syntax of its Base64 text is wrong. -/
def Reads (b64decode : PyStr → Except String (List UInt8)) (name : PyStr) (arguments : List (PyStr × PyJson)) : Prop :=
  (∃ operation, readTool b64decode name arguments = .ok operation) ∨
    ∃ message, readTool b64decode name arguments = .error (.base64 message)

/-- The identifier of the session is not empty. -/
def NamesSession (arguments : List (PyStr × PyJson)) : Prop := get? arguments (ofString "sessionId") ≠ some (.str [])

/-- The syntax of the Base64 text is wrong. -/
def MalformedBase64 (b64decode : PyStr → Except String (List UInt8)) (arguments : List (PyStr × PyJson)) : Prop :=
  ∃ text message, get? arguments (ofString "dataBase64") = some (.str text) ∧ b64decode text = .error message

/-- There is one form of input alone, it is not empty, and as a text it encodes. -/
def HasInput (arguments : List (PyStr × PyJson)) : Prop :=
  (get? arguments (ofString "dataBase64")).isSome = !(get? arguments (ofString "text")).isSome ∧
    get? arguments (ofString "dataBase64") ≠ some (.str []) ∧
    ∀ text, get? arguments (ofString "text") = some (.str text) → text ≠ [] ∧ Unicode text

/-- What the schemas do not say of the arguments that three of the tools read. -/
def Readable (b64decode : PyStr → Except String (List UInt8)) (name : PyStr) (arguments : List (PyStr × PyJson)) : Prop :=
  (name = ofString "sharkrail_session_read" ∨ name = ofString "sharkrail_session_wait" → NamesSession arguments) ∧
  (name = ofString "sharkrail_session_write" → HasInput arguments ∧ (NamesSession arguments ∨ MalformedBase64 b64decode arguments))

/-- A tool reads its arguments when it gets to its operation, or stops at the syntax of Base64. -/
theorem reads_iff {operation : Except ArgumentError ToolOperation} (h : readTool b64decode name arguments = operation) :
    Reads b64decode name arguments ↔ (∃ read, operation = .ok read) ∨ ∃ message, operation = .error (.base64 message) := by
  unfold Reads
  rw [h]

/-- A tool that gets to its operation has read its arguments. -/
theorem reads_of_ok {read : ToolOperation} (h : readTool b64decode name arguments = .ok read) : Reads b64decode name arguments :=
  .inl ⟨read, h⟩

/-- A tool that stops at anything else has not. -/
theorem not_reads_of_error {error : ArgumentError} (h : readTool b64decode name arguments = .error error)
    (hkind : ∀ message, error ≠ .base64 message) : ¬Reads b64decode name arguments := by
  rw [reads_iff h]
  rintro (⟨_, hread⟩ | ⟨message, hread⟩)
  · cases hread
  · exact hkind message (Except.error.inj hread)

/-- The bytes of an input are read exactly where there is one, or its Base64 text is malformed. -/
theorem inputBytes_cases (hbase64 : ∀ item, get? arguments (ofString "dataBase64") = some item → ∃ s, item = .str s)
    (htext : ∀ item, get? arguments (ofString "text") = some item → ∃ s, item = .str s) :
    (∃ data, inputBytes b64decode arguments = .ok data ∧ HasInput arguments ∧ ¬MalformedBase64 b64decode arguments) ∨
    (∃ message, inputBytes b64decode arguments = .error (.base64 message) ∧ HasInput arguments ∧ MalformedBase64 b64decode arguments) ∨
    (∃ error, inputBytes b64decode arguments = .error error ∧ (∀ message, error ≠ .base64 message) ∧ ¬HasInput arguments) := by
  unfold inputBytes HasInput MalformedBase64
  cases hb : get? arguments (ofString "dataBase64") with
  | none =>
    cases ht : get? arguments (ofString "text") with
    | none => exact .inr (.inr ⟨_, rfl, nofun, by simp⟩)
    | some item =>
      obtain ⟨s, rfl⟩ := htext item ht
      by_cases hs : s = []
      · refine .inr (.inr ⟨.type "text must be a non-empty string", ?_, nofun, by simp [hs]⟩)
        simp [requiredString_str ht, hs, bind, Except.bind]
      · by_cases hunicode : Unicode s
        · obtain ⟨data, hdata⟩ := Option.isSome_iff_exists.1 (isSome_encode.2 hunicode)
          refine .inl ⟨data, ?_, by simp [hs, hunicode], by simp⟩
          simp [requiredString_str ht, hs, hdata, bind, Except.bind, pure, Except.pure]
        · have hnone : encode s = none := by
            rw [← Option.not_isSome_iff_eq_none, isSome_encode]
            exact hunicode
          refine .inr (.inr ⟨.unicodeEncode s, ?_, nofun, by simp [hunicode]⟩)
          simp [requiredString_str ht, hs, hnone, bind, Except.bind, throw, throwThe, MonadExceptOf.throw]
  | some item =>
    obtain ⟨s, rfl⟩ := hbase64 item hb
    cases ht : get? arguments (ofString "text") with
    | none =>
      by_cases hs : s = []
      · refine .inr (.inr ⟨.type "dataBase64 must be a non-empty string", ?_, nofun, by simp [hs]⟩)
        simp [requiredString_str hb, hs, bind, Except.bind]
      · cases hdecode : b64decode s with
        | ok data =>
          refine .inl ⟨data, ?_, by simp [hs], by simp [hdecode]⟩
          simp [requiredString_str hb, hs, hdecode, bind, Except.bind, pure, Except.pure]
        | error message =>
          refine .inr (.inl ⟨message, ?_, by simp [hs], by simp [hdecode]⟩)
          simp [requiredString_str hb, hs, hdecode, bind, Except.bind, throw, throwThe, MonadExceptOf.throw]
    | some other => exact .inr (.inr ⟨_, rfl, nofun, by simp⟩)

/-- The session of an accepted call. -/
theorem exists_sessionId {schema : Schema} {minLength : ℕ} (h : Satisfies schema.toJsonSchema (.obj arguments))
    (hrequired : ofString "sessionId" ∈ schema.toJsonSchema.required)
    (hproperty : memberSchema schema.toJsonSchema (ofString "sessionId") = some (Schema.string minLength).toJsonSchema) :
    ∃ s, get? arguments (ofString "sessionId") = some (.str s) ∧ minLength ≤ s.length := by
  obtain ⟨item, hitem⟩ := exists_argument "sessionId" h hrequired
  obtain ⟨s, rfl, hlength⟩ := satisfies_string (satisfies_argument h hproperty hitem)
  exact ⟨s, hitem, hlength⟩

/-- A session that is named is read, and one that is not is refused. -/
theorem sessionId_cases {s : PyStr} (h : get? arguments (ofString "sessionId") = some (.str s)) :
    (requiredString arguments "sessionId" = .ok s ∧ NamesSession arguments) ∨
      (requiredString arguments "sessionId" = .error (.type "sessionId must be a non-empty string") ∧ ¬NamesSession arguments) := by
  by_cases hs : s = []
  · exact .inr ⟨by simp [requiredString_str h, hs], by simp [NamesSession, h, hs]⟩
  · exact .inl ⟨by simp [requiredString_str h, hs], by simp [NamesSession, h, hs]⟩

/-- A tool that reads the session first, and then what can be read, reads its arguments if and only if the session is named. -/
theorem reads_session {s : PyStr} {rest : PyStr → Except ArgumentError ToolOperation}
    (hs : get? arguments (ofString "sessionId") = some (.str s))
    (hread : readTool b64decode name arguments = requiredString arguments "sessionId" >>= rest)
    (hrest : ∀ sessionId, ∃ operation, rest sessionId = .ok operation) :
    Reads b64decode name arguments ↔ NamesSession arguments := by
  rcases sessionId_cases hs with ⟨hid, hnames⟩ | ⟨hid, hnames⟩
  · obtain ⟨operation, hoperation⟩ := hrest s
    rw [hid] at hread
    exact iff_of_true (reads_of_ok (hread.trans hoperation)) hnames
  · rw [hid] at hread
    exact iff_of_false (not_reads_of_error hread nofun) hnames

/-- A session whose schema asks for a character is named. -/
theorem namesSession_of_length {s : PyStr} (hs : get? arguments (ofString "sessionId") = some (.str s)) (hlength : 1 ≤ s.length) :
    NamesSession arguments := by
  intro hempty
  rw [hs] at hempty
  cases hempty
  simp at hlength

/-- A write is read if and only if there is an input and the session is named, or the Base64 text of the input is malformed. -/
theorem reads_write {s : PyStr} (hs : get? arguments (ofString "sessionId") = some (.str s))
    (hbase64 : ∀ item, get? arguments (ofString "dataBase64") = some item → ∃ s, item = .str s)
    (htext : ∀ item, get? arguments (ofString "text") = some item → ∃ s, item = .str s)
    (hread : readTool b64decode name arguments = (do
      let data ← inputBytes b64decode arguments
      pure (.write (← requiredString arguments "sessionId") data))) :
    Reads b64decode name arguments ↔ HasInput arguments ∧ (NamesSession arguments ∨ MalformedBase64 b64decode arguments) := by
  rcases inputBytes_cases hbase64 htext with ⟨data, hdata, hinput, hwell⟩ | ⟨message, hdata, hinput, hbad⟩ |
    ⟨error, hdata, hkind, hinput⟩
  · rw [hdata] at hread
    rw [and_iff_right hinput, or_iff_left hwell]
    exact reads_session hs hread fun sessionId => ⟨.write sessionId data, rfl⟩
  · rw [hdata] at hread
    exact iff_of_true (.inr ⟨message, hread⟩) ⟨hinput, .inr hbad⟩
  · rw [hdata] at hread
    exact iff_of_false (not_reads_of_error hread hkind) fun h => hinput h.1

/-- The arguments of an accepted call are read if and only if they are what the reading asks for beside the schemas. -/
theorem reads_iff_readable (haccepted : validateToolArguments name arguments = .ok ()) :
    Reads b64decode name arguments ↔ Readable b64decode name arguments := by
  unfold validateToolArguments at haccepted
  cases htool : tool? name with
  | none =>
    rw [htool] at haccepted
    exact absurd haccepted throw_ne_ok
  | some tool =>
    have hread : readTool b64decode name arguments = readNamed b64decode arguments tool.name := by rw [readTool, htool]
    have hsatisfies : Satisfies tool.inputSchema.toJsonSchema (.obj arguments) := by
      rw [htool] at haccepted
      exact (validateSchema_eq_ok _ (keywordsTyped_toJsonSchema _)).1 haccepted
    have hname : ofString tool.name = name := by simpa using List.find?_some htool
    have hmem : tool ∈ toolDefinitions := List.mem_of_find?_eq_some htool
    have hother {a b : String} : ofString a = ofString b ↔ a = b := ofString_injective.eq_iff
    clear haccepted htool
    subst hname
    simp only [toolDefinitions, List.mem_cons, List.not_mem_nil, or_false] at hmem
    rcases hmem with rfl | rfl | rfl | rfl | rfl | rfl | rfl | rfl
    · exact iff_of_true (reads_of_ok hread) (by simp [Readable, hother])
    · obtain ⟨operation, hstart⟩ := startOf_ok hsatisfies true
      exact iff_of_true (reads_of_ok (hread.trans hstart)) (by simp [Readable, hother])
    · obtain ⟨operation, hstart⟩ := startOf_ok hsatisfies false
      exact iff_of_true (reads_of_ok (hread.trans hstart)) (by simp [Readable, hother])
    · obtain ⟨s, hs, -⟩ := exists_sessionId hsatisfies (by simp [Schema.toJsonSchema]) rfl
      obtain ⟨cursor, hcursor⟩ := integer_ok "cursor" 0 fun item hitem => satisfies_integer (satisfies_argument hsatisfies rfl hitem)
      obtain ⟨waitMs, hwait⟩ := integer_ok "waitMs" 0 fun item hitem => satisfies_integer (satisfies_argument hsatisfies rfl hitem)
      obtain ⟨limit, hlimit⟩ := integer_ok "limit" 100 fun item hitem => satisfies_integer (satisfies_argument hsatisfies rfl hitem)
      refine (reads_session hs hread fun sessionId => ⟨.eventPage sessionId cursor waitMs limit, ?_⟩).trans ?_
      · simp only [hcursor, hwait, hlimit, bind, Except.bind, pure, Except.pure]
      · simp [Readable, hother]
    · obtain ⟨s, hs, -⟩ := exists_sessionId hsatisfies (by simp [Schema.toJsonSchema]) rfl
      refine (reads_write hs ?_ ?_ hread).trans ?_
      · intro item hitem
        obtain ⟨s, rfl, -⟩ := satisfies_string (satisfies_argument hsatisfies rfl hitem)
        exact ⟨s, rfl⟩
      · intro item hitem
        obtain ⟨s, rfl, -⟩ := satisfies_string (satisfies_argument hsatisfies rfl hitem)
        exact ⟨s, rfl⟩
      · simp [Readable, hother]
    · obtain ⟨s, hs, -⟩ := exists_sessionId hsatisfies (by simp [Schema.toJsonSchema]) rfl
      obtain ⟨timeoutMs, htimeout⟩ := optionalInteger_ok "waitTimeoutMs" fun item hitem =>
        satisfies_integer (satisfies_argument hsatisfies rfl hitem)
      refine (reads_session hs hread fun sessionId => ⟨.wait sessionId timeoutMs, ?_⟩).trans ?_
      · simp only [htimeout, bind, Except.bind, pure, Except.pure]
      · simp [Readable, hother]
    · obtain ⟨s, hs, hlength⟩ := exists_sessionId hsatisfies (by simp [Integrations.sessionSchema, Schema.toJsonSchema]) rfl
      refine (reads_session hs hread fun sessionId => ⟨.cancel sessionId, rfl⟩).trans ?_
      simp [Readable, hother, namesSession_of_length hs hlength]
    · obtain ⟨s, hs, hlength⟩ := exists_sessionId hsatisfies (by simp [Integrations.sessionSchema, Schema.toJsonSchema]) rfl
      refine (reads_session hs hread fun sessionId => ⟨.dispose sessionId, rfl⟩).trans ?_
      simp [Readable, hother, namesSession_of_length hs hlength]

/-- The arguments of an accepted call are read, up to the syntax of Base64, if and only if they are what the reading asks for beside the
schemas; and the validator accepts exactly the values that satisfy a schema, where keywords stand beside their types as in the schemas of
the tools. -/
theorem toolSchemas_sound_iff (b64decode : PyStr → Except String (List UInt8)) :
    (∀ name arguments, validateToolArguments name arguments = .ok () →
      (Reads b64decode name arguments ↔ Readable b64decode name arguments)) ∧
    (∀ schema, KeywordsTyped schema → ∀ path value, validateSchema path value schema = .ok () ↔ Satisfies schema value) ∧
    ∀ tool ∈ toolDefinitions, KeywordsTyped tool.inputSchema.toJsonSchema :=
  ⟨fun _ _ => reads_iff_readable, fun _ htyped _ value => validateSchema_eq_ok value htyped,
    fun tool _ => keywordsTyped_toJsonSchema tool.inputSchema⟩

/-- The arguments that name a session and nothing else. -/
def sessionCall (sessionId : String) : List (PyStr × PyJson) := [(ofString "sessionId", .str (ofString sessionId))]

/-- The call names a session. -/
theorem namesSession_sessionCall {sessionId : String} (h : ofString sessionId ≠ []) : NamesSession (sessionCall sessionId) := by
  intro hempty
  have hget : get? (sessionCall sessionId) (ofString "sessionId") = some (.str (ofString sessionId)) := rfl
  rw [hget] at hempty
  exact h (PyJson.str.inj (Option.some.inj hempty))

/-- The arguments of the call are read. -/
theorem sessionCall_read : Reads (fun _ => .ok []) (ofString "sharkrail_session_read") (sessionCall "s") :=
  ((toolSchemas_sound_iff fun _ => .ok []).1 _ _ rfl).2 ⟨fun _ => namesSession_sessionCall (by decide), fun h => absurd h (by decide)⟩

/-- A read that names the empty session is accepted, as its schema has no `minLength`, and then refused. -/
theorem sessionCall_refused : ¬∀ name arguments, validateToolArguments name arguments = .ok () →
    Reads (fun _ => .ok []) name arguments := by
  intro h
  have hread : readTool (fun _ => .ok []) (ofString "sharkrail_session_read") (sessionCall "") =
      .error (.type "sessionId must be a non-empty string") := rfl
  exact not_reads_of_error hread (fun _ => ArgumentError.noConfusion) (h _ _ rfl)

end Mcp

end Texts

end SharkRail
