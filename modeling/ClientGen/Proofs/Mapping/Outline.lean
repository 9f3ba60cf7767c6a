import ClientGen.Mapping.Schema
import ClientGen.Proofs.Descriptor.Named
import ClientGen.Proofs.OpenApi.Keywords
import ClientGen.Proofs.Reference

/-!
# Outlines of schemas

The outline of a schema is its type as the schema alone determines it: a recursion over the schema
without any state, which turns a reference into a reference to its canonical key and never follows
it. The names of the references are a parameter, and outlines with different names differ in nothing
else (`outline_named`).
-/

namespace ClientGen

open OpenApi

namespace Outline

/-! ### What keywords say -/

/-- A composition of types. One type stands for itself, and none is unknown. -/
def compose (wrap : List Descriptor → Descriptor) : List Descriptor → Descriptor
  | [] => .unknown
  | [member] => member
  | members => wrap members

/-- The type of one constant. -/
def constant (value : Json) : Descriptor :=
  match Literal.ofJson? value with
  | some literal => .enumeration [literal]
  | none => .unknown

/-- The values kept so far with further values; one that is the same as an earlier value adds
nothing. -/
def distinct {α : Type} (same : α → α → Bool) : List α → List α → List α
  | kept, [] => kept
  | kept, value :: more =>
    distinct same (if kept.any (same · value) then kept else kept ++ [value]) more

/-- The type of a list of values, of which only those with a literal count. -/
def enumerated (values : List Json) : Descriptor :=
  let literals := distinct Literal.same [] (values.filterMap Literal.ofJson?)
  if literals.isEmpty then .unknown else .enumeration literals

/-- The type of all undeclared properties. -/
def undeclared (declaresNone : Bool) : Option (Additional Descriptor) → Option Descriptor
  | some (.allowed true) => some .unknown
  | some (.allowed false) => none
  | some (.schema type) => some type
  | none => if declaresNone then some .unknown else none

/-- The type of an object. -/
def object (keywords : Keywords Descriptor) : Descriptor :=
  let properties := keywords.properties.getD []
  .object (properties.map fun property =>
    ⟨property.1, property.2, keywords.required.contains property.1⟩)
    (undeclared properties.isEmpty keywords.additional)

/-- The type of an array. -/
def array (keywords : Keywords Descriptor) : Descriptor :=
  .array (keywords.items.getD .unknown)

/-- The type with a name. -/
def typeNamed (keywords : Keywords Descriptor) (name : String) : Descriptor :=
  match Mapping.scalarKind? name with
  | some kind => .primitive kind keywords.format
  | none =>
    if name = "array" then array keywords
    else if name = "object" then object keywords
    else .unknown

/-- The type of a list of names. -/
def typesNamed (keywords : Keywords Descriptor) (names : List String) : Descriptor :=
  compose (.union .anyOf) (distinct Descriptor.same [] (names.map (typeNamed keywords)))

/-- The members of `allOf`; an object with properties of its own is one more. -/
def conjuncts (keywords : Keywords Descriptor) (members : List Descriptor) : List Descriptor :=
  if keywords.properties.isSome then members ++ [object keywords] else members

/-- The type that keywords describe, `null` left aside. -/
def shape (keywords : Keywords Descriptor) : Descriptor :=
  match keywords.form with
  | .constant value => constant value
  | .allOf members => compose .intersection (conjuncts keywords members)
  | .oneOf members => compose (.union .oneOf) members
  | .anyOf members => compose (.union .anyOf) members
  | .enumeration values => enumerated values
  | .type name => typeNamed keywords name
  | .types names => typesNamed keywords names
  | .object => object keywords
  | .array => array keywords
  | .negation => .unknown
  | .nothing => .unknown

/-- The type that keywords describe. -/
def interpret (keywords : Keywords Descriptor) : Descriptor :=
  if keywords.nullable then (shape keywords).orNull else shape keywords

end Outline

/-- The type of a schema with references named by `name`. -/
def OpenApi.Schema.outline (name : String → String) (schema : Schema) : Descriptor :=
  schema.fold
    (fun path => .reference (Reference.canonical path) (name (Reference.canonical path)))
    (fun keywords _ => Outline.interpret keywords) ""

namespace Outline

/-! ### Other names -/

section Named

variable (g : String → String)

/-- Renaming commutes with a composition if it commutes with the wrapper. -/
private theorem compose_named {wrap : List Descriptor → Descriptor}
    (hwrap : ∀ members, (wrap members).named g = wrap (members.map (Descriptor.named g)))
    (members : List Descriptor) :
    (compose wrap members).named g = compose wrap (members.map (Descriptor.named g)) := by
  rcases members with _ | ⟨first, _ | ⟨second, more⟩⟩
  · rfl
  · rfl
  · exact hwrap _

private theorem union_named (kind : UnionKind) (members : List Descriptor) :
    (Descriptor.union kind members).named g = .union kind (members.map (Descriptor.named g)) := by
  rw [Descriptor.named, Descriptor.namedMembers_eq_map]

private theorem intersection_named (members : List Descriptor) :
    (Descriptor.intersection members).named g =
      .intersection (members.map (Descriptor.named g)) := by
  rw [Descriptor.named, Descriptor.namedMembers_eq_map]

private theorem constant_named (value : Json) : (constant value).named g = constant value := by
  rw [constant]
  split <;> rfl

private theorem enumerated_named (values : List Json) :
    (enumerated values).named g = enumerated values := by
  simp only [enumerated]
  split_ifs <;> rfl

private theorem undeclared_named (declaresNone : Bool) (keywords : Keywords Descriptor) :
    (undeclared declaresNone keywords.additional).map (Descriptor.named g) =
      undeclared declaresNone (keywords.map (Descriptor.named g)).additional := by
  obtain ⟨_, _, _, _, _, _, _, _, additional, _, _, _, _⟩ := keywords
  rcases additional with _ | (_ | _) | type
  · rcases declaresNone <;> rfl
  · rfl
  · rfl
  · rfl

private theorem object_named (keywords : Keywords Descriptor) :
    (object keywords).named g = object (keywords.map (Descriptor.named g)) := by
  have hempty : ((keywords.map (Descriptor.named g)).properties.getD []).isEmpty =
      (keywords.properties.getD []).isEmpty := by
    rw [Keywords.getD_properties_map, List.isEmpty_map]
  simp only [object, Descriptor.named, Descriptor.namedProperties_eq_map,
    Descriptor.namedRest_eq_map, undeclared_named, hempty]
  rw [Keywords.getD_properties_map, List.map_map, List.map_map]
  rfl

private theorem array_named (keywords : Keywords Descriptor) :
    (array keywords).named g = array (keywords.map (Descriptor.named g)) := by
  obtain ⟨_, _, _, items, _, _, _, _, _, _, _, _, _⟩ := keywords
  rcases items with _ | items <;> rfl

private theorem typeNamed_named (keywords : Keywords Descriptor) (name : String) :
    (typeNamed keywords name).named g = typeNamed (keywords.map (Descriptor.named g)) name := by
  simp only [typeNamed]
  split
  · rfl
  · split_ifs
    · exact array_named g keywords
    · exact object_named g keywords
    · rfl

private theorem conjuncts_named (keywords : Keywords Descriptor) (members : List Descriptor) :
    (conjuncts keywords members).map (Descriptor.named g) =
      conjuncts (keywords.map (Descriptor.named g)) (members.map (Descriptor.named g)) := by
  rw [conjuncts, conjuncts, Keywords.isSome_properties_map]
  split_ifs
  · rw [List.map_append, List.map_singleton, object_named]
  · rfl

/-- What is kept does not depend on how the values are written, as long as that does not change
which of them are the same. -/
private theorem distinct_map {α : Type} {same : α → α → Bool} (f : α → α) {kept values : List α}
    (h : ∀ x ∈ kept ++ values, ∀ y ∈ kept ++ values, same (f x) (f y) = same x y) :
    (distinct same kept values).map f = distinct same (kept.map f) (values.map f) := by
  induction values generalizing kept with
  | nil => rfl
  | cons value more ih =>
    have hany : (kept.map f).any (same · (f value)) = kept.any (same · value) := by
      rw [List.any_map, Bool.eq_iff_iff, List.any_eq_true, List.any_eq_true]
      refine exists_congr fun x => and_congr_right fun hx => ?_
      rw [Function.comp_apply, h x (List.mem_append_left _ hx) value
        (List.mem_append_right _ List.mem_cons_self)]
    rw [distinct, List.map_cons, distinct, hany]
    split_ifs
    · exact ih fun x hx y hy => h x (by simp_all; tauto) y (by simp_all; tauto)
    · rw [← List.map_singleton (f := f), ← List.map_append]
      exact ih fun x hx y hy => h x (by simp_all) y (by simp_all)

variable {g} {f : String → String}

/-- Renaming commutes with a type that is given by a list of names. Duplicates are dropped on both
sides alike, since the parts were renamed before in the same way. -/
private theorem typesNamed_named {keywords : Keywords Descriptor}
    (h : keywords.map (Descriptor.named f) = keywords) (names : List String) :
    (typesNamed keywords names).named g = typesNamed (keywords.map (Descriptor.named g)) names := by
  have hspelled (name : String) : (typeNamed keywords name).named f = typeNamed keywords name := by
    rw [typeNamed_named, h]
  rw [typesNamed, typesNamed, compose_named g (union_named g .anyOf), distinct_map, List.map_map]
  · refine congrArg (compose _ ∘ distinct _ []) (List.map_congr_left fun name _ => ?_)
    exact typeNamed_named g keywords name
  · -- What is listed once under one naming is listed once under any.
    rw [List.nil_append]
    intro x hx y hy
    obtain ⟨name, -, rfl⟩ := List.mem_map.mp hx
    obtain ⟨other, -, rfl⟩ := List.mem_map.mp hy
    rw [Descriptor.same_named g f, hspelled, hspelled]

/-- Renaming commutes with the interpretation of keywords whose parts were renamed before. -/
private theorem interpret_named {keywords : Keywords Descriptor}
    (h : keywords.map (Descriptor.named f) = keywords) :
    (interpret keywords).named g = interpret (keywords.map (Descriptor.named g)) := by
  have hshape : (shape keywords).named g = shape (keywords.map (Descriptor.named g)) := by
    rw [shape, shape, Keywords.form_map]
    -- One case for each form that keywords can have.
    rcases keywords.form with value | members | members | members | values | name | names | _ | _ |
      _ | _
    · exact constant_named g value
    · exact (compose_named g (intersection_named g) _).trans
        (congrArg _ (conjuncts_named g keywords members))
    · exact compose_named g (union_named g .oneOf) members
    · exact compose_named g (union_named g .anyOf) members
    · exact enumerated_named g values
    · exact typeNamed_named g keywords name
    · exact typesNamed_named h names
    · exact object_named g keywords
    · exact array_named g keywords
    · rfl
    · rfl
  have hnullable : (keywords.map (Descriptor.named g)).nullable = keywords.nullable := rfl
  rw [interpret, interpret, hnullable, ← hshape]
  split_ifs
  · rw [Descriptor.orNull_named]
  · rfl

end Named

/-! ### Outlines one level at a time -/

/-- The outline of a schema from the outlines of the schemas inside it. -/
theorem outline_eq (name : String → String) (schema : Schema) :
    schema.outline name =
      match schema.ref with
      | some path => .reference (Reference.canonical path) (name (Reference.canonical path))
      | none => interpret (schema.content.map (Schema.outline name)) :=
  Schema.fold_eq_content _ _ schema ""

/-- **Names do not matter.** An outline with its references renamed is the outline with the other
names. -/
theorem outline_named (f g : String → String) (schema : Schema) :
    (schema.outline f).named g = schema.outline g := by
  revert f g
  refine Schema.induction_content (P := fun schema => ∀ f g : String → String,
    (schema.outline f).named g = schema.outline g) (fun schema ih => ?_) schema
  intro f g
  rw [outline_eq, outline_eq]
  rcases schema.ref with _ | path
  · have hparts (g : String → String) :
        (schema.content.map (Schema.outline f)).map (Descriptor.named g) =
          schema.content.map (Schema.outline g) := by
      rw [Keywords.map_map]
      exact Keywords.map_congr fun child hchild => ih child hchild f g
    exact (interpret_named (hparts f)).trans (congrArg interpret (hparts g))
  · rfl

end Outline

end ClientGen
