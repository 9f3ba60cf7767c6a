import ClientGen.OpenApi.Source
import ClientGen.Proofs.Json.Fields

/-!
# Where the parts of a document are written

Each part of a document that was read, down to the keywords of its schemas, is what its reader gives
for the value in one place of the value above it. The operations on a path are the members with the
word of a method, in order, whatever else stands among them.
-/

namespace ClientGen.OpenApi

open Json

variable {json : Json}

/-! ### Documents and components -/

/-- A document keeps what it was read from. -/
theorem Document.raw_ofJson {doc : Document} (h : Document.ofJson json = .ok doc) :
    doc.raw = json := by
  obtain ⟨_, -, rfl⟩ := exists_of_map_ok h
  rfl

/-- A document that a text is written for is what is read from its value, which has distinct
names. -/
theorem Document.of_ofText {text : String} {doc : Document}
    (h : Document.ofText text = .ok doc) :
    doc.raw.Distinct ∧ Document.ofJson doc.raw = .ok doc := by
  rcases hjson : readText text with error | json
  · rw [ofText, hjson] at h
    cases h
  rcases hdoc : Document.ofJson json with error | read
  · rw [ofText, hjson] at h
    simp only [bind, Except.bind, hdoc] at h
    cases h
  rw [ofText, hjson] at h
  simp only [bind, Except.bind, hdoc] at h
  cases h
  rw [raw_ofJson hdoc]
  exact ⟨distinct_readText hjson, hdoc⟩

/-- The paths of a document are read from the member with this name, or the second of an array. -/
theorem Document.fills_paths (hjson : json.Distinct) {doc : Document}
    (h : Document.ofJson json = .ok doc) :
    json.Fills "paths" 1 (readMap PathItem.read) [] doc.paths := by
  obtain ⟨read, hread, rfl⟩ := exists_of_map_ok h
  exact fills_readRecord Document.paths (by simp [Document.fields]) (by decide) rfl hjson hread

theorem Document.fills_components (hjson : json.Distinct) {doc : Document}
    (h : Document.ofJson json = .ok doc) :
    json.Fills "components" 2 (readNullable Components.read) none doc.components := by
  obtain ⟨read, hread, rfl⟩ := exists_of_map_ok h
  exact fills_readRecord Document.components (by simp [Document.fields]) (by decide) rfl hjson hread

section Components

variable {components : Components} (hjson : json.Distinct)
  (h : Components.read json = .ok components)
include hjson h

/-- The schemas among components may be left out, as may be those of any other section. -/
theorem Components.fills_schemas :
    json.Fills "schemas" 0 (readMap Schema.read) [] components.schemas :=
  fills_readRecord Components.schemas (by simp [fields]) (by decide) rfl hjson h

theorem Components.fills_parameters :
    json.Fills "parameters" 1 (readMap Parameter.read) [] components.parameters :=
  fills_readRecord Components.parameters (by simp [fields]) (by decide) rfl hjson h

theorem Components.fills_requestBodies :
    json.Fills "requestBodies" 2 (readMap RequestBody.read) [] components.requestBodies :=
  fills_readRecord Components.requestBodies (by simp [fields]) (by decide) rfl hjson h

theorem Components.fills_responses :
    json.Fills "responses" 3 (readMap Response.read) [] components.responses :=
  fills_readRecord Components.responses (by simp [fields]) (by decide) rfl hjson h

end Components

/-- Component schemas have distinct names. -/
theorem Document.nodup_schemas {doc : Document} (hdistinct : doc.raw.Distinct)
    (hdoc : Document.ofJson doc.raw = .ok doc) : (Ordered.keys doc.schemas).Nodup := by
  have hcomponents := Document.fills_components hdistinct hdoc
  rw [schemas]
  split
  next components hsome =>
    rw [hsome] at hcomponents
    obtain ⟨json, hjson, hread⟩ := exists_of_fills hcomponents (Option.some_ne_none _)
    have hdistinct := hdistinct.field? hjson
    exact nodup_keys_of_fills hdistinct
      (Components.fills_schemas hdistinct (readNullable_eq_some hread))
  next => exact List.nodup_nil

/-! ### Operations -/

section Operation

variable {operation : Operation} (hjson : json.Distinct) (h : Operation.read json = .ok operation)
include hjson h

/-- The parameters of an operation may be left out, but they are not `null`. -/
theorem Operation.fills_parameters :
    json.Fills "parameters" 2 (readList (readReferable Parameter.read)) [] operation.parameters :=
  fills_readRecord Operation.parameters (by simp [fields]) (by decide) rfl hjson h

theorem Operation.fills_requestBody :
    json.Fills "requestBody" 3 (readNullable (readReferable RequestBody.read)) none
      operation.requestBody :=
  fills_readRecord Operation.requestBody (by simp [fields]) (by decide) rfl hjson h

theorem Operation.fills_responses :
    json.Fills "responses" 4 (readMap (readReferable Response.read)) [] operation.responses :=
  fills_readRecord Operation.responses (by simp [fields]) (by decide) rfl hjson h

end Operation

section Parts

variable (hjson : json.Distinct)
include hjson

/-- The schema of a parameter may be left out or `null`. -/
theorem Parameter.fills_schema {parameter : Parameter} (h : Parameter.read json = .ok parameter) :
    json.Fills "schema" 3 (readNullable Schema.read) none parameter.schema :=
  fills_readRecord Parameter.schema (by simp [fields]) (by decide) rfl hjson h

theorem Parameter.fills_content {parameter : Parameter} (h : Parameter.read json = .ok parameter) :
    json.Fills "content" 4 (readNullable (readMap MediaType.read)) none parameter.content :=
  fills_readRecord Parameter.content (by simp [fields]) (by decide) rfl hjson h

theorem RequestBody.fills_content {body : RequestBody} (h : RequestBody.read json = .ok body) :
    json.Fills "content" 1 (readMap MediaType.read) [] body.content :=
  fills_readRecord RequestBody.content (by simp [fields]) (by decide) rfl hjson h

theorem Response.fills_content {response : Response} (h : Response.read json = .ok response) :
    json.Fills "content" 1 (readMap MediaType.read) [] response.content :=
  fills_readRecord Response.content (by simp [fields]) (by decide) rfl hjson h

theorem MediaType.fills_schema {media : MediaType} (h : MediaType.read json = .ok media) :
    json.Fills "schema" 0 (readNullable Schema.read) none media.schema :=
  fills_readRecord MediaType.schema (by simp [fields]) (by decide) rfl hjson h

end Parts

/-! ### Paths -/

section PathItem

variable {members : List (String × Json)}

/-- The members that are operations, with their methods. -/
def operationMembers (members : List (String × Json)) : List (Method × Json) :=
  members.filterMap fun member => (Method.ofKey? member.1).map (·, member.2)

/-- The operations of a path item are those among its members that are named after verbs, in the
same order, behind the ones from before. -/
private theorem operations_foldlM {before after : PathItem}
    (h : members.foldlM PathItem.fill before = .ok after) :
    ∃ more, after.operations = before.operations ++ more ∧
      List.Forall₂ (fun member operation =>
        operation.1 = member.1 ∧ Operation.read member.2 = .ok operation.2)
        (operationMembers members) more := by
  induction members generalizing before with
  | nil =>
    cases h
    exact ⟨[], (List.append_nil _).symm, .nil⟩
  | cons member rest ih =>
    rw [List.foldlM_cons] at h
    obtain ⟨next, hnext, h⟩ := exists_of_bind_ok h
    obtain ⟨more, hafter, hmore⟩ := ih h
    rw [PathItem.fill] at hnext
    rw [operationMembers, List.filterMap_cons]
    split_ifs at hnext with hshared
    · -- The shared parameters are no operation.
      obtain ⟨shared, -, rfl⟩ := exists_of_map_ok hnext
      have hmethod : Method.ofKey? member.1 = none := by
        rw [hshared]
        decide
      rw [hmethod]
      exact ⟨more, hafter, hmore⟩
    · rcases hmethod : Method.ofKey? member.1 with _ | method
      · rw [hmethod] at hnext
        cases hnext
        exact ⟨more, hafter, hmore⟩
      · rw [hmethod] at hnext
        obtain ⟨operation, hread, rfl⟩ := exists_of_map_ok hnext
        refine ⟨(method, operation) :: more, ?_, .cons ⟨rfl, hread⟩ hmore⟩
        rw [hafter, List.append_assoc, List.singleton_append]

/-- The operations on a path are the members with the word of a method, in order. -/
theorem PathItem.exists_operations {item : PathItem} (h : PathItem.read json = .ok item) :
    ∃ members, json = .object members ∧
      List.Forall₂ (fun member operation =>
        operation.1 = member.1 ∧ Operation.read member.2 = .ok operation.2)
        (operationMembers members) item.operations := by
  cases json with
  | object members =>
    obtain ⟨more, hoperations, hmore⟩ := operations_foldlM h
    rw [List.nil_append] at hoperations
    exact ⟨members, rfl, hoperations ▸ hmore⟩
  | _ => cases h

/-- The parameters of a path item are those of the only member with this name, or the ones from
before if there is none. -/
private theorem parameters_foldlM (hmembers : (Ordered.keys members).Nodup)
    {before after : PathItem} (h : members.foldlM PathItem.fill before = .ok after) :
    (object members).Fills "parameters" 0 (readList (readReferable Parameter.read))
      before.parameters after.parameters := by
  induction members generalizing before with
  | nil =>
    cases h
    rfl
  | cons member rest ih =>
    obtain ⟨hmember, hrest⟩ := List.nodup_cons.mp hmembers
    rw [List.foldlM_cons] at h
    obtain ⟨next, hnext, h⟩ := exists_of_bind_ok h
    have hlater := ih hrest h
    obtain ⟨key, json⟩ := member
    rw [PathItem.fill] at hnext
    split_ifs at hnext with hshared
    · -- The key is this one, and it does not come again.
      obtain ⟨shared, hread, rfl⟩ := exists_of_map_ok hnext
      have hkey : key = "parameters" := hshared
      have hnone : rest.lookup "parameters" = none := Ordered.lookup_eq_none (hkey ▸ hmember)
      simp only [Fills, field?, hnone] at hlater
      simp only [Fills, field?, List.lookup_cons, hkey, beq_self_eq_true]
      exact hlater ▸ hread
    · -- Another key stores an operation, or nothing.
      have hkey : key ≠ "parameters" := hshared
      have hsame : next.parameters = before.parameters := by
        split at hnext
        · obtain ⟨_, -, rfl⟩ := exists_of_map_ok hnext
          rfl
        · cases hnext
          rfl
      rw [hsame] at hlater
      simp only [Fills, field?, List.lookup_cons, beq_eq_false_iff_ne.mpr (Ne.symm hkey)]
        at hlater ⊢
      exact hlater

/-- The parameters of a path item that repeats no keys are those of its member with this name. -/
theorem PathItem.fills_parameters (hjson : json.Distinct) {item : PathItem}
    (h : PathItem.read json = .ok item) :
    json.Fills "parameters" 0 (readList (readReferable Parameter.read)) [] item.parameters := by
  cases json with
  | object members => exact parameters_foldlM (distinct_object.mp hjson).1 h
  | _ => cases h

end PathItem

/-! ### Schemas -/

/-- What is said about undeclared properties is a schema only if the reader of schemas gives it. -/
theorem readAdditional_eq_schema {schema : Decoder Schema} {value : Schema}
    (h : readAdditional schema json = .ok (.schema value)) : schema json = .ok value := by
  rw [readAdditional] at h
  split at h
  · cases h
  · split at h
    next heq =>
      cases h
      exact heq
    next => cases h

/-- No two fields of a schema have the same name. -/
private theorem Schema.nodup_names (read : Decoder Schema) :
    ((fields read).map (·.name)).Nodup := by
  simp [fields, RecordField.of]

section Schema

variable {depth : Nat} {schema : Schema} (hjson : json.Distinct)
  (h : Schema.readWithin (depth + 1) json = .ok schema)
include hjson h

/-- The properties of a schema may be left out or `null`, and one level less is left for what is
inside. -/
theorem Schema.fills_properties :
    json.Fills "properties" 2 (readNullable (readMap (readWithin depth))) none schema.properties :=
  fills_readRecord Schema.properties (by simp [fields]) (nodup_names _) rfl hjson h

theorem Schema.fills_items :
    json.Fills "items" 4 (readNullable (readWithin depth)) none schema.items :=
  fills_readRecord Schema.items (by simp [fields]) (nodup_names _) rfl hjson h

theorem Schema.fills_enumeration :
    json.Fills "enum" 5 (readNullable (readList readAny)) none schema.enumeration :=
  fills_readRecord Schema.enumeration (by simp [fields]) (nodup_names _) rfl hjson h

theorem Schema.fills_anyOf :
    json.Fills "anyOf" 6 (readNullable (readList (readWithin depth))) none schema.anyOf :=
  fills_readRecord Schema.anyOf (by simp [fields]) (nodup_names _) rfl hjson h

theorem Schema.fills_oneOf :
    json.Fills "oneOf" 7 (readNullable (readList (readWithin depth))) none schema.oneOf :=
  fills_readRecord Schema.oneOf (by simp [fields]) (nodup_names _) rfl hjson h

theorem Schema.fills_allOf :
    json.Fills "allOf" 8 (readNullable (readList (readWithin depth))) none schema.allOf :=
  fills_readRecord Schema.allOf (by simp [fields]) (nodup_names _) rfl hjson h

theorem Schema.fills_additional :
    json.Fills "additionalProperties" 9 (readNullable (readAdditional (readWithin depth))) none
      schema.additional :=
  fills_readRecord Schema.additional (by simp [fields]) (nodup_names _) rfl hjson h

end Schema

end ClientGen.OpenApi
