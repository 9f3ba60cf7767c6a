import ClientGen.OpenApi.Keywords
import Mathlib.Data.List.Basic

/-!
# One level of a schema

`Schema.keywords` is a schema without a reference seen from above: its keywords, with the schemas
inside it and their places, of which the keyword that decides uses some (`Keywords.used`). A fold is
determined by what it does on this level (`Schema.fold_eq`), and what holds of a schema whenever it
holds of the schemas inside it holds of all schemas (`Schema.induction`). The two together prove
statements about several folds at once, one level at a time.
-/

namespace ClientGen.OpenApi

/-! ### Keywords as a container -/

namespace Keywords

variable {τ σ : Type}

/-- The keywords with other values in the places of schemas. -/
def map (f : τ → σ) (keywords : Keywords τ) : Keywords σ where
  type := keywords.type
  properties := keywords.properties.map (·.map fun property => (property.1, f property.2))
  required := keywords.required
  items := keywords.items.map f
  enumeration := keywords.enumeration
  anyOf := keywords.anyOf.map (·.map f)
  oneOf := keywords.oneOf.map (·.map f)
  allOf := keywords.allOf.map (·.map f)
  additional := keywords.additional.map fun
    | .allowed value => .allowed value
    | .schema value => .schema (f value)
  format := keywords.format
  const := keywords.const
  nullable := keywords.nullable
  negated := keywords.negated

/-- The value for all undeclared properties of an object, if it has a schema for them. -/
def rest (keywords : Keywords τ) : Option τ :=
  match keywords.additional with
  | some (.schema value) => some value
  | _ => none

/-- The values in the places of schemas. -/
def parts (keywords : Keywords τ) : List τ :=
  (keywords.properties.getD []).map Prod.snd ++ keywords.items.toList ++ keywords.anyOf.getD [] ++
    keywords.oneOf.getD [] ++ keywords.allOf.getD [] ++ keywords.rest.toList

end Keywords

namespace Form

variable {τ σ : Type}

/-- The form with other values in the places of schemas. -/
def map (f : τ → σ) : Form τ → Form σ
  | constant value => constant value
  | allOf members => allOf (members.map f)
  | oneOf members => oneOf (members.map f)
  | anyOf members => anyOf (members.map f)
  | enumeration values => enumeration values
  | type name => type name
  | types names => types names
  | object => object
  | array => array
  | negation => negation
  | nothing => nothing

/-- The members of a composition. -/
def members : Form τ → List τ
  | allOf members => members
  | oneOf members => members
  | anyOf members => members
  | _ => []

end Form

namespace Keywords

variable {τ σ : Type}

theorem map_map {ρ : Type} (g : σ → ρ) (f : τ → σ) (keywords : Keywords τ) :
    (keywords.map f).map g = keywords.map (g ∘ f) := by
  obtain ⟨_, properties, _, items, _, anyOf, oneOf, allOf, additional, _, _, _, _⟩ := keywords
  rcases additional with _ | value | value <;> simp [map, Function.comp_def]

theorem parts_map (f : τ → σ) (keywords : Keywords τ) :
    (keywords.map f).parts = keywords.parts.map f := by
  obtain ⟨_, properties, _, items, _, anyOf, oneOf, allOf, additional, _, _, _, _⟩ := keywords
  have hlist (list : Option (List τ)) : (list.map (List.map f)).getD [] = (list.getD []).map f := by
    rcases list with _ | list <;> rfl
  have hproperties : ((properties.map fun list => list.map fun property =>
      (property.1, f property.2)).getD []).map Prod.snd =
        ((properties.getD []).map Prod.snd).map f := by
    rcases properties with _ | list
    · rfl
    · simp [Function.comp_def]
  have hitems : (items.map f).toList = items.toList.map f := by
    rcases items with _ | value <;> rfl
  simp only [parts, map, List.map_append, hlist, hproperties, hitems]
  rcases additional with _ | value | value <;> rfl

theorem getD_properties_map (f : τ → σ) (keywords : Keywords τ) :
    (keywords.map f).properties.getD [] =
      (keywords.properties.getD []).map fun property => (property.1, f property.2) := by
  rw [map]
  rcases keywords.properties with _ | list <;> rfl

theorem isSome_properties_map (f : τ → σ) (keywords : Keywords τ) :
    (keywords.map f).properties.isSome = keywords.properties.isSome :=
  Option.isSome_map

section Congruence

variable {f g : τ → σ} {keywords : Keywords τ}

/-- Properties agree if all of their parts do. -/
theorem properties_congr
    (h : ∀ part ∈ (keywords.properties.getD []).map Prod.snd, f part = g part) :
    (keywords.map f).properties = (keywords.map g).properties := by
  refine Option.map_congr fun list hlist => List.map_congr_left fun property hmem => ?_
  rw [hlist] at h
  rw [h property.2 (List.mem_map_of_mem hmem)]

theorem items_congr (h : ∀ part ∈ keywords.items.toList, f part = g part) :
    (keywords.map f).items = (keywords.map g).items :=
  Option.map_congr fun value hvalue => h value (Option.mem_toList.mpr hvalue)

theorem additional_congr (h : ∀ part ∈ keywords.rest.toList, f part = g part) :
    (keywords.map f).additional = (keywords.map g).additional := by
  refine Option.map_congr fun additional hadditional => ?_
  cases additional with
  | allowed value => rfl
  | schema value =>
    have hrest : keywords.rest = some value := by rw [rest, hadditional]
    exact congrArg Additional.schema (h value (Option.mem_toList.mpr hrest))

/-- Equal meanings of all parts give equal meanings of the keywords. -/
theorem map_congr (h : ∀ part ∈ keywords.parts, f part = g part) :
    keywords.map f = keywords.map g := by
  simp only [parts, List.forall_mem_append] at h
  obtain ⟨⟨⟨⟨⟨hproperties, hitems⟩, hanyOf⟩, honeOf⟩, hallOf⟩, hrest⟩ := h
  have hmembers {list : Option (List τ)} (h : ∀ part ∈ list.getD [], f part = g part) :
      list.map (List.map f) = list.map (List.map g) := by
    refine Option.map_congr fun list hlist => List.map_congr_left ?_
    rwa [hlist] at h
  simp only [map, mk.injEq, true_and, and_true]
  exact ⟨properties_congr hproperties, items_congr hitems, hmembers hanyOf, hmembers honeOf,
    hmembers hallOf, additional_congr hrest⟩

end Congruence

theorem suggestion_map (f : τ → σ) (keywords : Keywords τ) :
    (keywords.map f).suggestion = keywords.suggestion.map f := by
  obtain ⟨_, properties, _, items, _, _, _, _, additional, _, _, _, negated⟩ := keywords
  rcases properties with _ | properties <;> rcases additional with _ | additional <;>
    rcases items with _ | items <;> rcases negated <;> rfl

/-- Which keyword decides does not depend on the schemas inside. -/
theorem form_map (f : τ → σ) (keywords : Keywords τ) :
    (keywords.map f).form = keywords.form.map f := by
  have hsuggestion := suggestion_map f keywords
  obtain ⟨type, _, _, _, enumeration, anyOf, oneOf, allOf, _, _, const, _, _⟩ := keywords
  rcases const with _ | value
  · rcases allOf with _ | allOf
    · rcases oneOf with _ | oneOf
      · rcases anyOf with _ | anyOf
        · rcases enumeration with _ | values
          · rcases type with _ | name | names
            · exact hsuggestion
            · rfl
            · rfl
          · rfl
        · rfl
      · rfl
    · rfl
  · rfl

theorem mem_parts_of_items {keywords : Keywords τ} {value : τ} (h : keywords.items = some value) :
    value ∈ keywords.parts := by
  simp [parts, h]

theorem members_suggestion (keywords : Keywords τ) : keywords.suggestion.members = [] := by
  simp only [suggestion]
  split_ifs <;> rfl

/-- The members of a composition are parts. -/
theorem mem_parts_of_member {keywords : Keywords τ} {value : τ}
    (h : value ∈ keywords.form.members) : value ∈ keywords.parts := by
  have hsuggestion := members_suggestion keywords
  simp only [form] at h
  split at h <;> simp_all [Form.members, parts]

/-- An enumeration has the values that are written. -/
theorem enumeration_of_form {keywords : Keywords τ} {values : List Json}
    (h : keywords.form = .enumeration values) : keywords.enumeration = some values := by
  simp only [form] at h
  split at h
  all_goals try cases h
  · assumption
  · rw [suggestion] at h
    split_ifs at h

end Keywords

/-! ### What types are made from -/

namespace Keywords

variable {τ σ : Type}

/-- What the type of an object is made from. -/
def partsOfObject (keywords : Keywords τ) : List τ :=
  (keywords.properties.getD []).map Prod.snd ++ keywords.rest.toList

/-- What the type with a name is made from. -/
def partsOfType (keywords : Keywords τ) (name : String) : List τ :=
  if name = "array" then keywords.items.toList
  else if name = "object" then keywords.partsOfObject
  else []

/-- What the type is made from, in order. A value that serves several names of a list of types comes
up for each of them. -/
def used (keywords : Keywords τ) : List τ :=
  match keywords.form with
  | .allOf members =>
    if keywords.properties.isSome then members ++ keywords.partsOfObject else members
  | .oneOf members => members
  | .anyOf members => members
  | .type name => keywords.partsOfType name
  | .types names => names.flatMap keywords.partsOfType
  | .object => keywords.partsOfObject
  | .array => keywords.items.toList
  | .constant _ | .enumeration _ | .negation | .nothing => []

theorem rest_map (f : τ → σ) (keywords : Keywords τ) :
    (keywords.map f).rest = keywords.rest.map f := by
  rw [rest, rest, map]
  rcases keywords.additional with _ | value | value <;> rfl

theorem partsOfObject_map (f : τ → σ) (keywords : Keywords τ) :
    (keywords.map f).partsOfObject = keywords.partsOfObject.map f := by
  rw [partsOfObject, partsOfObject, getD_properties_map, rest_map, Option.toList_map,
    List.map_append, List.map_map, List.map_map]
  rfl

theorem partsOfType_map (f : τ → σ) (keywords : Keywords τ) (name : String) :
    (keywords.map f).partsOfType name = (keywords.partsOfType name).map f := by
  rw [partsOfType, partsOfType]
  split_ifs
  · exact Option.toList_map
  · exact partsOfObject_map f keywords
  · rfl

theorem used_map (f : τ → σ) (keywords : Keywords τ) :
    (keywords.map f).used = keywords.used.map f := by
  rw [used, used, form_map]
  rcases keywords.form with value | members | members | members | values | name | names | _ | _ |
    _ | _
  · rfl
  · simp only [Form.map, isSome_properties_map]
    split_ifs
    · rw [partsOfObject_map, List.map_append]
    · rfl
  · rfl
  · rfl
  · rfl
  · exact partsOfType_map f keywords name
  · simp only [Form.map, List.map_flatMap]
    exact congrArg (names.flatMap ·) (funext (partsOfType_map f keywords))
  · exact partsOfObject_map f keywords
  · exact Option.toList_map
  · rfl
  · rfl

private theorem mem_parts_of_object {keywords : Keywords τ} {value : τ}
    (h : value ∈ keywords.partsOfObject) : value ∈ keywords.parts := by
  rw [partsOfObject, List.mem_append] at h
  simp only [parts, List.mem_append]
  tauto

private theorem mem_parts_of_type {keywords : Keywords τ} {name : String} {value : τ}
    (h : value ∈ keywords.partsOfType name) : value ∈ keywords.parts := by
  rw [partsOfType] at h
  split_ifs at h
  · exact mem_parts_of_items (Option.mem_toList.mp h)
  · exact mem_parts_of_object h
  · cases h

/-- What types are made from is among the values in the places of schemas. -/
theorem mem_parts_of_used {keywords : Keywords τ} {value : τ} (h : value ∈ keywords.used) :
    value ∈ keywords.parts := by
  have hmembers (hmem : value ∈ keywords.form.members) := mem_parts_of_member hmem
  rw [used] at h
  rcases hform : keywords.form with json | members | members | members | values | name | names |
    _ | _ | _ | _ <;> rw [hform] at h hmembers
  · cases h
  · dsimp only at h
    split_ifs at h
    · exact (List.mem_append.mp h).elim hmembers mem_parts_of_object
    · exact hmembers h
  · exact hmembers h
  · exact hmembers h
  · cases h
  · exact mem_parts_of_type h
  · obtain ⟨name, -, hname⟩ := List.mem_flatMap.mp h
    exact mem_parts_of_type hname
  · exact mem_parts_of_object h
  · exact mem_parts_of_items (Option.mem_toList.mp h)
  · cases h
  · cases h

end Keywords

/-! ### The view from above -/

namespace Schema

/-- The keywords of the schema at `pointer`, its reference left aside, with the schemas inside it
and their places. -/
def keywords (schema : Schema) (pointer : String) : Keywords (Schema × String) :=
  let place := Reference.child pointer
  let members (list : List Schema) (pointer : String) : List (Schema × String) :=
    list.zipIdx.map fun member => (member.1, Reference.child pointer (toString member.2))
  { type := schema.type
    properties := schema.properties.map (·.map fun property =>
      (property.1, property.2, Reference.child (place "properties") property.1))
    required := schema.required.getD []
    items := schema.items.map (·, place "items")
    enumeration := schema.enumeration
    anyOf := schema.anyOf.map (members · (place "anyOf"))
    oneOf := schema.oneOf.map (members · (place "oneOf"))
    allOf := schema.allOf.map (members · (place "allOf"))
    additional := schema.additional.map fun
      | .allowed value => .allowed value
      | .schema schema => .schema (schema, place "additionalProperties")
    format := schema.format
    const := schema.const
    nullable := schema.nullable == some true
    negated := schema.not.isSome }

/-- The keywords of a schema, its reference left aside, with the schemas inside it. -/
def content (schema : Schema) : Keywords Schema where
  type := schema.type
  properties := schema.properties
  required := schema.required.getD []
  items := schema.items
  enumeration := schema.enumeration
  anyOf := schema.anyOf
  oneOf := schema.oneOf
  allOf := schema.allOf
  additional := schema.additional
  format := schema.format
  const := schema.const
  nullable := schema.nullable == some true
  negated := schema.not.isSome

/-- Where the schemas inside a schema stand depends on where the schema stands, and nothing else. -/
theorem keywords_map_fst (schema : Schema) (pointer : String) :
    (schema.keywords pointer).map Prod.fst = schema.content := by
  obtain ⟨type, ref, properties, required, items, enumeration, anyOf, oneOf, allOf, additional,
    format, const, nullable, negated⟩ := schema
  have hlist (list : Option (List Schema)) (pointer : String) :
      (list.map fun list => list.zipIdx.map fun member =>
        (member.1, Reference.child pointer (toString member.2))).map (List.map Prod.fst) =
        list := by
    rcases list with _ | list
    · rfl
    · simp [Function.comp_def, List.zipIdx_map_fst]
  simp only [Keywords.map, keywords, content, hlist]
  rcases properties with _ | properties <;> rcases items with _ | items <;>
    rcases additional with _ | value | schema <;> simp [Function.comp_def]

/-- The places of the schemas inside a schema go on from where the schema stands. -/
theorem keywords_append (schema : Schema) (pointer rest : String) :
    schema.keywords (pointer ++ rest) =
      (schema.keywords rest).map fun part => (part.1, pointer ++ part.2) := by
  obtain ⟨type, ref, properties, required, items, enumeration, anyOf, oneOf, allOf, additional,
    format, const, nullable, negated⟩ := schema
  have hchild (rest segment : String) :
      Reference.child (pointer ++ rest) segment = pointer ++ Reference.child rest segment := by
    simp only [Reference.child, String.append_assoc]
  -- The members of a composition stand under their numbers.
  have hlist (list : Option (List Schema)) (rest : String) :
      (list.map fun list => list.zipIdx.map fun member =>
        (member.1, pointer ++ Reference.child rest (toString member.2))) =
      (list.map fun list => list.zipIdx.map fun member =>
        (member.1, Reference.child rest (toString member.2))).map
          (List.map fun part => (part.1, pointer ++ part.2)) := by
    rcases list with _ | list
    · rfl
    · simp [Function.comp_def]
  simp only [Keywords.map, keywords, hchild, hlist]
  rcases properties with _ | properties <;> rcases items with _ | items <;>
    rcases additional with _ | value | schema <;> simp [Function.comp_def]

section Fold

variable {τ : Type} (reference : String → τ) (shape : Keywords τ → String → τ)

/-- Properties are folded one by one, at the places under their names. -/
theorem foldProperties_eq_map (list : List (String × Schema)) (pointer : String) :
    foldProperties reference shape list pointer = list.map fun property =>
      (property.1, property.2.fold reference shape (Reference.child pointer property.1)) := by
  induction list with
  | nil => rw [foldProperties, List.map_nil]
  | cons property more ih => rw [foldProperties, ih, List.map_cons]

/-- Members are folded one by one, at the places of their numbers. -/
theorem foldMembers_eq_map (list : List Schema) (pointer : String) (place : Nat) :
    foldMembers reference shape list pointer place = (list.zipIdx place).map fun member =>
      member.1.fold reference shape (Reference.child pointer (toString member.2)) := by
  induction list generalizing place with
  | nil => rw [foldMembers, List.zipIdx_nil, List.map_nil]
  | cons schema more ih => rw [foldMembers, ih, List.zipIdx_cons, List.map_cons]

/-- A fold gives a reference its meaning, and anything else that of its keywords with the meanings
of the schemas inside. -/
theorem fold_eq (schema : Schema) (pointer : String) :
    schema.fold reference shape pointer =
      match schema.ref with
      | some path => reference path
      | none => shape ((schema.keywords pointer).map fun part =>
          part.1.fold reference shape part.2) pointer := by
  obtain ⟨type, ref, properties, required, items, enumeration, anyOf, oneOf, allOf, additional,
    format, const, nullable, negated⟩ := schema
  rcases ref with _ | path
  · rw [fold]
    refine congrArg (shape · pointer) ?_
    simp only [keywords, Keywords.map, Keywords.mk.injEq, true_and, and_true]
    -- The keywords that have schemas in them are properties, items, three compositions and further
    -- keys.
    refine ⟨?_, ?_, ?_, ?_, ?_, ?_⟩
    · rcases properties with _ | list <;> simp [foldProperties?, foldProperties_eq_map]
    · rcases items with _ | schema <;> rfl
    · rcases anyOf with _ | list <;> simp [foldMembers?, foldMembers_eq_map]
    · rcases oneOf with _ | list <;> simp [foldMembers?, foldMembers_eq_map]
    · rcases allOf with _ | list <;> simp [foldMembers?, foldMembers_eq_map]
    · rcases additional with _ | value | schema <;> rfl
  · rw [fold]

end Fold

/-! ### Induction -/

/-- A schema of a composition is smaller than the keyword that holds the list. -/
private theorem sizeOf_lt_of_mem_list {list : Option (List Schema)} {pointer : String}
    {part : Schema × String}
    (h : part ∈ (list.map fun list => list.zipIdx.map fun member =>
      (member.1, Reference.child pointer (toString member.2))).getD []) :
    sizeOf part.1 < sizeOf list := by
  rcases list with _ | list
  · cases h
  · obtain ⟨⟨schema, place⟩, hmem, rfl⟩ := List.mem_map.mp h
    have hlist : sizeOf schema < sizeOf list :=
      List.sizeOf_lt_of_mem (List.fst_mem_of_mem_zipIdx hmem)
    rw [Option.some.sizeOf_spec]
    change sizeOf schema < 1 + sizeOf list
    omega

/-- Parts are smaller than the schema they are in, so that a recursion on them ends. -/
theorem sizeOf_lt_of_mem_parts {schema : Schema} {pointer : String} {part : Schema × String}
    (h : part ∈ (schema.keywords pointer).parts) : sizeOf part.1 < sizeOf schema := by
  obtain ⟨type, ref, properties, required, items, enumeration, anyOf, oneOf, allOf, additional,
    format, const, nullable, negated⟩ := schema
  rw [Schema.mk.sizeOf_spec]
  -- One case for each keyword with schemas in it.
  simp only [Keywords.parts, List.mem_append, keywords] at h
  rcases h with ((((h | h) | h) | h) | h) | h
  · rcases properties with _ | list
    · simp at h
    · simp only [Option.map_some, Option.getD_some, List.map_map, List.mem_map] at h
      obtain ⟨property, hmem, rfl⟩ := h
      have hlist := List.sizeOf_lt_of_mem hmem
      have hproperty : sizeOf property.2 < sizeOf property := by
        rw [Prod.mk.sizeOf_spec]
        omega
      simp only [Function.comp_apply, Option.some.sizeOf_spec]
      omega
  · rcases items with _ | schema
    · simp at h
    · simp only [Option.map_some, Option.toList_some, List.mem_singleton] at h
      simp only [h, Option.some.sizeOf_spec]
      omega
  · have hlist := sizeOf_lt_of_mem_list h
    omega
  · have hlist := sizeOf_lt_of_mem_list h
    omega
  · have hlist := sizeOf_lt_of_mem_list h
    omega
  · rcases additional with _ | value | schema
    · simp [Keywords.rest] at h
    · simp [Keywords.rest] at h
    · simp only [Keywords.rest, Option.map_some, Option.toList_some, List.mem_singleton] at h
      simp only [h, Option.some.sizeOf_spec, Additional.schema.sizeOf_spec]
      omega

/-- **Induction.** What holds of a schema whenever it holds of the schemas inside it holds of all
schemas. -/
theorem induction {P : Schema → String → Prop}
    (step : ∀ schema pointer,
      (∀ part ∈ (schema.keywords pointer).parts, P part.1 part.2) → P schema pointer)
    (schema : Schema) (pointer : String) : P schema pointer :=
  step schema pointer fun part hpart =>
    have := sizeOf_lt_of_mem_parts hpart
    induction step part.1 part.2
termination_by sizeOf schema

/-- What holds of a schema whenever it holds of the schemas inside it, wherever they stand, holds of
all schemas. -/
theorem induction_content {P : Schema → Prop}
    (step : ∀ schema, (∀ child ∈ schema.content.parts, P child) → P schema) (schema : Schema) :
    P schema := by
  refine induction (P := fun schema _ => P schema) (fun schema pointer ih => step schema ?_)
    schema ""
  rw [← keywords_map_fst schema pointer, Keywords.parts_map]
  intro child hchild
  obtain ⟨part, hpart, rfl⟩ := List.mem_map.mp hchild
  exact ih part hpart

section Fusion

variable {τ σ : Type} {reference : String → τ} {shape : Keywords τ → String → τ}
  {reference' : String → σ} {shape' : Keywords σ → String → σ}

/-- **Fusion.** A function that turns what one fold does on each level into what another does turns
the one fold into the other. -/
theorem fold_fusion (f : τ → σ) (hreference : ∀ path, f (reference path) = reference' path)
    (hshape : ∀ keywords pointer, f (shape keywords pointer) = shape' (keywords.map f) pointer)
    (schema : Schema) (pointer : String) :
    f (schema.fold reference shape pointer) = schema.fold reference' shape' pointer := by
  refine induction (P := fun schema pointer => f (schema.fold reference shape pointer) =
    schema.fold reference' shape' pointer) (fun schema pointer ih => ?_) schema pointer
  rw [fold_eq, fold_eq]
  rcases schema.ref with _ | path
  · refine (hshape _ _).trans (congrArg (shape' · pointer) ?_)
    rw [Keywords.map_map]
    exact Keywords.map_congr ih
  · exact hreference path

end Fusion

section Fold

variable {τ : Type} (reference : String → τ) (shape : Keywords τ → τ)

/-- A fold that makes no use of places gives the same meaning everywhere. -/
theorem fold_pointer (schema : Schema) (pointer other : String) :
    schema.fold reference (fun keywords _ => shape keywords) pointer =
      schema.fold reference (fun keywords _ => shape keywords) other := by
  let meaning (schema : Schema) (pointer : String) : τ :=
    schema.fold reference (fun keywords _ => shape keywords) pointer
  revert pointer other
  -- The induction is on the content of schemas, which has no pointers in it.
  refine induction_content (P := fun schema => ∀ pointer other,
    meaning schema pointer = meaning schema other) (fun schema ih => ?_) schema
  have hcontent (pointer : String) : meaning schema pointer =
      match schema.ref with
      | some path => reference path
      | none => shape (schema.content.map (meaning · "")) := by
    refine (fold_eq _ _ schema pointer).trans ?_
    rcases schema.ref with _ | path
    · rw [← keywords_map_fst schema pointer, Keywords.map_map]
      refine congrArg shape (Keywords.map_congr fun part hpart => ?_)
      refine ih part.1 ?_ part.2 ""
      rw [← keywords_map_fst schema pointer, Keywords.parts_map]
      exact List.mem_map_of_mem hpart
    · rfl
  intro pointer other
  rw [hcontent pointer, hcontent other]

theorem fold_eq_content (schema : Schema) (pointer : String) :
    schema.fold reference (fun keywords _ => shape keywords) pointer =
      match schema.ref with
      | some path => reference path
      | none => shape (schema.content.map fun child =>
          child.fold reference (fun keywords _ => shape keywords) pointer) := by
  rw [fold_eq]
  rcases schema.ref with _ | path
  · rw [← keywords_map_fst schema pointer, Keywords.map_map]
    refine congrArg shape (Keywords.map_congr fun part _ => ?_)
    exact fold_pointer reference shape part.1 part.2 pointer
  · rfl

end Fold

end Schema

end ClientGen.OpenApi
