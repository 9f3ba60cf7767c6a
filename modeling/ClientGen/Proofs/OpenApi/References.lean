import ClientGen.Mapping.Schema
import ClientGen.Proofs.Json.Texts
import ClientGen.Proofs.OpenApi.Fields
import ClientGen.Proofs.OpenApi.Keywords
import ClientGen.Proofs.Reference

/-!
# References come from texts

The references in a schema are the texts under `$ref` in it and in the schemas inside it. Those of a
schema that was read are texts of the value it was read from (`refs_subset_strings`), and this is
why a document that was read is *closed*: whatever a reference names, be it a component or any place
of the document, has no references but texts of the document (`closed_ofJson`).
-/

namespace ClientGen.OpenApi

open Json

namespace Schema

/-! ### The references of a schema -/

/-- The schemas directly inside a schema. -/
def children (schema : Schema) : List Schema :=
  schema.content.parts

/-- The view from above shows the schemas directly inside. -/
theorem map_fst_parts (schema : Schema) (pointer : String) :
    (schema.keywords pointer).parts.map Prod.fst = schema.children := by
  rw [children, ← keywords_map_fst schema pointer, Keywords.parts_map]

theorem sizeOf_lt_of_mem_children {schema child : Schema} (h : child ∈ schema.children) :
    sizeOf child < sizeOf schema := by
  rw [← map_fst_parts schema ""] at h
  obtain ⟨part, hpart, rfl⟩ := List.mem_map.mp h
  exact sizeOf_lt_of_mem_parts hpart

/-- All references in a schema, those that another reference makes void included. -/
def refs (schema : Schema) : List String :=
  schema.ref.toList ++ schema.children.attach.flatMap fun child => refs child.1
termination_by sizeOf schema
decreasing_by exact sizeOf_lt_of_mem_children child.2

/-- The references of a schema are its own one and those of its children. -/
theorem mem_refs {schema : Schema} {path : String} :
    path ∈ schema.refs ↔ schema.ref = some path ∨ ∃ child ∈ schema.children, path ∈ child.refs := by
  rw [refs, List.mem_append, Option.mem_toList, List.mem_flatMap]
  refine or_congr Iff.rfl ⟨?_, ?_⟩
  · rintro ⟨⟨child, hchild⟩, -, hpath⟩
    exact ⟨child, hchild, hpath⟩
  · rintro ⟨child, hchild, hpath⟩
    exact ⟨⟨child, hchild⟩, List.mem_attach _ _, hpath⟩

/-- The references of a part are references of the schema. -/
theorem mem_refs_of_part {schema : Schema} {pointer path : String} {part : Schema × String}
    (hpart : part ∈ (schema.keywords pointer).parts) (hpath : path ∈ part.1.refs) :
    path ∈ schema.refs := by
  refine mem_refs.mpr (Or.inr ⟨part.1, ?_, hpath⟩)
  rw [← map_fst_parts schema pointer]
  exact List.mem_map_of_mem hpart

/-! ### Reading -/

/-- The references of what is said about undeclared properties. -/
private def refsOfAdditional : Additional Schema → List String
  | .allowed _ => []
  | .schema schema => schema.refs

private theorem faithful_readAdditional {read : Decoder Schema} (h : Faithful read refs) :
    Faithful (readAdditional read) refsOfAdditional := by
  intro json additional hread
  cases additional with
  | allowed => exact List.nil_subset _
  | schema value => exact h json value (readAdditional_eq_schema hread)

/-- A keyword without schemas in it has no references. -/
private theorem faithful_plain {α : Type} (name : String) (value : Decoder α)
    {store : Schema → α → Schema} (href : ∀ schema value, (store schema value).ref = schema.ref)
    (hchildren : ∀ schema value, (store schema value).children = schema.children) :
    (RecordField.of name .optional value store).Faithful refs := by
  refine RecordField.faithful_of (faithful_nil value) name .optional fun schema value path => ?_
  rw [List.append_nil, mem_refs, mem_refs, href, hchildren]
  exact id

/-- A keyword with schemas in it has their references. -/
private theorem faithful_part {α : Type} (name : String) {value : Decoder α}
    {part : α → List String}
    (hvalue : Faithful value part) {store : Schema → α → Schema}
    (href : ∀ schema value, (store schema value).ref = schema.ref)
    (hchildren : ∀ schema value, ∀ child ∈ (store schema value).children,
      child ∈ schema.children ∨ child.refs ⊆ part value) :
    (RecordField.of name .optional value store).Faithful refs := by
  refine RecordField.faithful_of hvalue name .optional fun schema value path hpath => ?_
  rw [List.mem_append]
  rcases mem_refs.mp hpath with hown | ⟨child, hchild, hpath⟩
  · rw [href] at hown
    exact Or.inl (mem_refs.mpr (Or.inl hown))
  · rcases hchildren schema value child hchild with hold | hnew
    · exact Or.inl (mem_refs.mpr (Or.inr ⟨child, hold, hpath⟩))
    · exact Or.inr (hnew hpath)

/-- A composition keyword has the references of the schemas in its list. -/
private theorem faithful_members {read : Decoder Schema} (h : Faithful read refs) (name : String)
    {store : Schema → Option (List Schema) → Schema}
    (href : ∀ schema list, (store schema list).ref = schema.ref)
    (hchildren : ∀ schema list, ∀ child ∈ (store schema list).children,
      child ∈ schema.children ∨ child ∈ list.getD []) :
    (RecordField.of name .optional (readNullable (readList read)) store).Faithful refs := by
  refine faithful_part name (faithful_readNullable (faithful_readList h)) href ?_
  intro schema list child hchild
  refine (hchildren schema list child hchild).imp_right fun hmem => ?_
  rcases list with _ | list
  · cases hmem
  · rw [Option.toList_some, List.flatMap_singleton]
    exact fun path hpath => List.mem_flatMap.mpr ⟨child, hmem, hpath⟩

private theorem faithful_fields {read : Decoder Schema} (h : Faithful read refs) :
    ∀ field ∈ fields read, field.Faithful refs := by
  simp only [fields, List.forall_mem_cons, List.not_mem_nil, false_implies, implies_true, and_true]
  refine ⟨?type, ?ref, ?properties, ?required, ?items, ?enumeration, ?anyOf, ?oneOf, ?allOf,
    ?additional, ?format, ?const, ?nullable, ?negated⟩
  case ref =>
    refine RecordField.faithful_of (faithful_readNullable faithful_readString) _ _ ?_
    intro schema path text htext
    rw [List.mem_append]
    rcases mem_refs.mp htext with hown | hchild
    · refine Or.inr (List.mem_flatMap.mpr ⟨text, ?_, List.mem_singleton_self text⟩)
      exact Option.mem_toList.mpr hown
    · exact Or.inl (mem_refs.mpr (Or.inr hchild))
  case properties =>
    refine faithful_part _ (faithful_readNullable (faithful_readMap h)) (fun _ _ => rfl) ?_
    intro schema list child hchild
    have hnew : child ∈ (list.getD []).map Prod.snd → child.refs ⊆
        list.toList.flatMap fun list => list.flatMap fun member => member.2.refs := by
      intro hmem path hpath
      obtain ⟨member, hmember, rfl⟩ := List.mem_map.mp hmem
      rcases list with _ | list
      · cases hmember
      · rw [Option.toList_some, List.flatMap_singleton]
        exact List.mem_flatMap.mpr ⟨member, hmember, hpath⟩
    simp only [children, content, Keywords.parts, List.mem_append] at hchild ⊢
    tauto
  case items =>
    refine faithful_part _ (faithful_readNullable h) (fun _ _ => rfl) ?_
    intro schema list child hchild
    have hnew : child ∈ list.toList → child.refs ⊆ list.toList.flatMap refs :=
      fun hmem path hpath => List.mem_flatMap.mpr ⟨child, hmem, hpath⟩
    simp only [children, content, Keywords.parts, List.mem_append] at hchild ⊢
    tauto
  case anyOf | oneOf | allOf =>
    refine faithful_members h _ (fun _ _ => rfl) fun schema list child hchild => ?_
    simp only [children, content, Keywords.parts, List.mem_append] at hchild ⊢
    tauto
  case additional =>
    refine faithful_part _ (faithful_readNullable (faithful_readAdditional h)) (fun _ _ => rfl) ?_
    intro schema found child hchild
    simp only [children, content, Keywords.parts, List.mem_append] at hchild ⊢
    simp only [Keywords.rest] at hchild
    rcases found with _ | value | inner
    · simp only [Option.toList_none, List.not_mem_nil, or_false] at hchild
      tauto
    · simp only [Option.toList_none, List.not_mem_nil, or_false] at hchild
      tauto
    · rcases hchild with hold | hnew
      · tauto
      · rw [List.mem_singleton.mp hnew]
        exact Or.inr fun path hpath => List.mem_flatMap.mpr ⟨_, List.mem_cons_self, hpath⟩
  -- No other keyword has schemas in it.
  all_goals exact faithful_plain _ _ (fun _ _ => rfl) (fun _ _ => rfl)

/-- Every reference of a schema is a string in what it was read from. The induction is on the depth,
of which each child takes one level. -/
private theorem faithful_readWithin (depth : Nat) : Faithful (readWithin depth) refs := by
  induction depth with
  | zero =>
    intro json schema hread
    cases hread
  | succ depth ih =>
    have hblank : refs {} = [] := by
      rw [refs]
      rfl
    exact faithful_readRecord (faithful_fields ih) hblank

/-- The references in a schema are texts of the value it is read from. -/
theorem faithful_read : Faithful read refs :=
  fun json schema hread => faithful_readWithin json.depth json schema hread

end Schema

/-! ### Closed documents -/

namespace Document

/-- The key of a reference is its canonical key. -/
theorem target_fst (doc : Document) (path : String) :
    (doc.target path).1 = Reference.canonical path := by
  rw [target, Reference.canonical]
  rcases Reference.componentName? "schemas" path with _ | escaped <;> rfl

/-- A reference and its canonical key name the same schema. -/
theorem target_canonical (doc : Document) (path : String) :
    doc.target (Reference.canonical path) = doc.target path := by
  rcases h : Reference.componentName? "schemas" path with _ | escaped
  · have : Reference.canonical path = path := by rw [Reference.canonical, h]
    rw [this]
  · have hkey : Reference.canonical path =
        Reference.componentKey (Reference.decodeSegment escaped) := by
      rw [Reference.canonical, h]
    have hname : Reference.decodeSegment escaped ≠ "" :=
      Reference.decodeSegment_ne_empty (Reference.ne_empty_of_componentName? h)
    rw [hkey, target, target, Reference.componentName?_componentKey hname, h]
    simp only [Reference.decodeSegment_encodeSegment]

theorem mem_schemas_of_schema? {doc : Document} {name : String} {schema : Schema}
    (h : doc.schema? name = some schema) : (name, schema) ∈ doc.schemas := by
  obtain ⟨before, after, hschemas, -⟩ := List.lookup_eq_some_iff.mp h
  rw [hschemas]
  exact List.mem_append_right before List.mem_cons_self

/-- The key of a component that has a name leads to it. -/
theorem target_componentKey (doc : Document) {name : String} (h : name ≠ "") :
    doc.target (Reference.componentKey name) = (Reference.componentKey name, doc.schema? name) := by
  rw [target, Reference.componentName?_componentKey h]
  simp only [Reference.decodeSegment_encodeSegment]

/-- A component with a name that is not empty is the target of its key. -/
theorem isSome_target_of_mem_schemas {doc : Document} {component : String × Schema}
    (hmem : component ∈ doc.schemas) (hname : component.1 ≠ "") :
    (doc.target (Reference.componentKey component.1)).2.isSome := by
  rw [target_componentKey doc hname, schema?, List.lookup_isSome_iff]
  exact ⟨component, hmem, beq_self_eq_true _⟩

/-- Whether the references in whatever a reference names are texts of the document. -/
def Closed (doc : Document) : Prop :=
  ∀ path schema, (doc.target path).2 = some schema → schema.refs ⊆ doc.raw.strings

/-- The references in component schemas. -/
private def schemaRefs (doc : Document) : List String :=
  doc.schemas.flatMap fun component => component.2.refs

private def componentRefs (components : Components) : List String :=
  components.schemas.flatMap fun component => component.2.refs

private theorem faithful_components : Faithful Components.read componentRefs := by
  refine faithful_readRecord ?_ rfl
  simp only [Components.fields, List.forall_mem_cons, List.not_mem_nil, false_implies,
    implies_true, and_true]
  refine ⟨?schemas, ?parameters, ?bodies, ?responses⟩
  case schemas =>
    exact RecordField.faithful_of (faithful_readMap Schema.faithful_read) _ _
      fun _ _ => List.subset_append_right _ _
  all_goals
    exact RecordField.faithful_of (faithful_nil _) _ _ fun _ _ => List.subset_append_left _ _

private theorem faithful_document :
    Faithful (readRecord "OpenApiSpec" Document.fields {}) schemaRefs := by
  refine faithful_readRecord ?_ rfl
  simp only [fields, List.forall_mem_cons, List.not_mem_nil, false_implies, implies_true, and_true]
  refine ⟨?openapi, ?paths, ?components⟩
  case components =>
    refine RecordField.faithful_of (faithful_readNullable faithful_components) _ _ ?_
    rintro doc (_ | components)
    · exact List.nil_subset _
    · refine List.subset_append_of_subset_right _ ?_
      rw [Option.toList_some, List.flatMap_singleton]
      exact List.Subset.refl _
  all_goals
    exact RecordField.faithful_of (faithful_nil _) _ _ fun _ _ => List.subset_append_left _ _

/-- **Closedness.** A document that was read is closed: the references in whatever a reference names
are texts of the document. -/
theorem closed_ofJson {json : Json} {doc : Document} (h : Document.ofJson json = .ok doc) :
    doc.Closed := by
  rcases hread : readRecord "OpenApiSpec" Document.fields {} json with _ | parsed
  · rw [ofJson, hread] at h
    cases h
  · rw [ofJson, hread] at h
    cases h
    intro path schema htarget
    rw [target] at htarget
    -- The target is a component, or what a pointer leads to in the text.
    split at htarget
    · intro text htext
      have hmem := mem_schemas_of_schema? htarget
      exact faithful_document json parsed hread (List.mem_flatMap.mpr ⟨_, hmem, htext⟩)
    · obtain ⟨value, hvalue, hschema⟩ := Option.bind_eq_some_iff.mp htarget
      obtain ⟨pointer, -, hat⟩ := Option.bind_eq_some_iff.mp hvalue
      rcases hok : Schema.read value with _ | result
      · rw [hok] at hschema
        cases hschema
      · rw [hok] at hschema
        cases hschema
        exact List.Subset.trans (Schema.faithful_read value schema hok) (strings_at? hat)

end Document

end ClientGen.OpenApi
