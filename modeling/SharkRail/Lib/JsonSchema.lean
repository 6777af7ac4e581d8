import Mathlib
import SharkRail.Lib.JsonText

/-!
# JSON schemas

A schema with the keywords `type`, `properties`, `required`, `additionalProperties`, `items`, `minLength`, `minimum`, `enum` and `oneOf`,
and what it means for a value to satisfy it: each keyword is a condition of its own, about the values of its kind only, whatever the type is
that the schema gives. An alternative of `oneOf` lists the members that it requires.
-/

inductive SchemaType
  | object
  | array
  | string
  | integer
  | boolean
  deriving DecidableEq

/-- A schema. A keyword that is not there has the value that says nothing; of `additionalProperties` that is `none`, `some none` is `false`
and `some (some schema)` a schema. -/
structure JsonSchema where
  type : Option SchemaType := none
  properties : List (PyStr × JsonSchema) := []
  required : List PyStr := []
  additionalProperties : Option (Option JsonSchema) := none
  items : Option JsonSchema := none
  minLength : ℕ := 0
  minimum : Option ℤ := none
  enum : Option (List PyJson) := none
  oneOf : Option (List (List PyStr)) := none

namespace JsonSchema

open PyJson

/-- A value is of a type. An integer is a number that is written without a fraction and an exponent, so `1.0` and `true` are none. -/
def HasType : SchemaType → PyJson → Prop
  | .object, value => ∃ members, value = .obj members
  | .array, value => ∃ items, value = .arr items
  | .string, value => ∃ s, value = .str s
  | .integer, value => ∃ n, value = .int n
  | .boolean, value => ∃ b, value = .bool b

/-- The schema of a property, `none` where the schema names no such property. -/
def property? (schema : JsonSchema) (key : PyStr) : Option JsonSchema := (schema.properties.find? fun m => m.1 = key).map (·.2)

/-- An object has the members that are listed; a value that is no object lacks none. -/
def HasMembers (keys : List PyStr) (value : PyJson) : Prop :=
  ∀ members, value = .obj members → ∀ key ∈ keys, (get? members key).isSome = true

/-- The number that a value is. -/
def number? : PyJson → Option ℚ
  | .int n => some n
  | .float (.finite q) => some q
  | _ => none

/-- Two values are one JSON value: a number counts by what it is, an object without the order of its members. -/
inductive Same : PyJson → PyJson → Prop
  | null : Same .null .null
  | bool (b : Bool) : Same (.bool b) (.bool b)
  | str (s : PyStr) : Same (.str s) (.str s)
  | number {value other : PyJson} {q : ℚ} (hvalue : number? value = some q) (hother : number? other = some q) : Same value other
  | arr {items others : List PyJson} (hlength : items.length = others.length)
    (h : ∀ pair ∈ items.zip others, Same pair.1 pair.2) : Same (.arr items) (.arr others)
  | obj {members others : List (PyStr × PyJson)}
    (hkeys : ∀ key, (get? members key).isSome = (get? others key).isSome)
    (h : ∀ key value other, get? members key = some value → get? others key = some other → Same value other) :
    Same (.obj members) (.obj others)

theorem same_str {s : PyStr} {value : PyJson} : Same (.str s) value ↔ value = .str s := by
  constructor
  · intro h
    cases h with
    | str => rfl
    | number hvalue => cases hvalue
  · rintro rfl
    exact .str s

/-- A value satisfies a schema: one condition for each keyword. -/
inductive Satisfies : JsonSchema → PyJson → Prop
  | intro {schema : JsonSchema} {value : PyJson}
    (type : ∀ type, schema.type = some type → HasType type value)
    (required : HasMembers schema.required value)
    (properties : ∀ members, value = .obj members → ∀ key item, (key, item) ∈ members →
      ∀ property, schema.property? key = some property → Satisfies property item)
    (noOthers : ∀ members, value = .obj members → ∀ key item, (key, item) ∈ members →
      schema.property? key = none → schema.additionalProperties ≠ some none)
    (others : ∀ members, value = .obj members → ∀ key item, (key, item) ∈ members →
      schema.property? key = none → ∀ other, schema.additionalProperties = some (some other) → Satisfies other item)
    (items : ∀ items, value = .arr items → ∀ schemaOfItems, schema.items = some schemaOfItems →
      ∀ item ∈ items, Satisfies schemaOfItems item)
    (minLength : ∀ s, value = .str s → schema.minLength ≤ s.length)
    (minimum : ∀ least, schema.minimum = some least → ∀ q, number? value = some q → (least : ℚ) ≤ q)
    (enum : ∀ values, schema.enum = some values → ∃ listed ∈ values, Same listed value)
    (oneOf : ∀ alternatives, schema.oneOf = some alternatives →
      ∃ before alternative after, alternatives = before ++ alternative :: after ∧ HasMembers alternative value ∧
        ∀ other ∈ before ++ after, ¬HasMembers other value) :
    Satisfies schema value

/-- A schema without a type has no keyword that is about values of one type, only a schema of objects has alternatives, and enumerations
list strings; so has every schema in it that is about a value. -/
inductive KeywordsTyped : JsonSchema → Prop
  | intro {schema : JsonSchema}
    (untyped : schema.type = none → schema.properties = [] ∧ schema.required = [] ∧ schema.additionalProperties = none ∧
      schema.items = none ∧ schema.minLength = 0 ∧ schema.minimum = none)
    (oneOf : schema.type ≠ some .object → schema.oneOf = none)
    (enum : ∀ values, schema.enum = some values → ∀ listed ∈ values, ∃ s, listed = .str s)
    (properties : schema.type = some .object → ∀ key property, schema.property? key = some property → KeywordsTyped property)
    (others : schema.type = some .object → ∀ other, schema.additionalProperties = some (some other) → KeywordsTyped other)
    (items : schema.type = some .array → ∀ schemaOfItems, schema.items = some schemaOfItems → KeywordsTyped schemaOfItems) :
    KeywordsTyped schema

end JsonSchema
