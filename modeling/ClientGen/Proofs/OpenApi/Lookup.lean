import ClientGen.Proofs.Json.Pointer
import ClientGen.Proofs.OpenApi.Nodes
import ClientGen.Proofs.OpenApi.Source

/-!
# Two ways to the parts of a document

A part of a document is found in the maps that were read, or at a pointer into the value of the
document, where it is read anew. Both ways lead to the same part: what is looked up at the place of
a response, a body, or the schema of a media type is the response, body or schema that was read
there (`Document.lookup?_response`, `Document.lookup?_body`), and a reference to a
component names the same object by its decoded name and by its pointer (`Document.lookup_agrees`).
This takes that the parts in question are written as objects: the fields of a record that is written
as an array have no names.
-/

namespace ClientGen.OpenApi

open Json Mapping

/-- What is written in place. -/
def Referable.item? {α : Type} : Referable α → Option α
  | .item value => some value
  | .reference _ => none

theorem Referable.eq_item {α : Type} {declared : Referable α} {value : α}
    (h : declared.item? = some value) : declared = .item value := by
  cases declared with
  | item => exact congrArg _ (Option.some.inj h)
  | reference path => cases h

namespace Document

/-! ### Parts of a document -/

/-- The responses of a document, each with its place: those that are written in operations, and
those that are shared. -/
def placedResponses (doc : Document) : List (String × Response) :=
  ((Site.all doc).flatMap fun site => site.operation.responses.filterMap fun response =>
    response.2.item?.map
      (Reference.child (Reference.child site.pointer "responses") response.1, ·)) ++
    doc.responses.map fun response =>
      (Reference.child "#/components/responses" response.1, response.2)

/-- The request bodies of a document, each with its place: those that are written in operations, and
those that are shared. -/
def placedBodies (doc : Document) : List (String × RequestBody) :=
  ((Site.all doc).filterMap fun site => (site.operation.requestBody.bind Referable.item?).map
    (Reference.child site.pointer "requestBody", ·)) ++
    doc.requestBodies.map fun body =>
      (Reference.child "#/components/requestBodies" body.1, body.2)

/-- The places of media types in a response or body. -/
def mediaPlaces (pointer : String) (content : List (String × MediaType)) : List String :=
  content.map fun media => Reference.child (Reference.child pointer "content") media.1

/-- The places of the parts of a document, down to media types. -/
def partPlaces (doc : Document) : List String :=
  ["#", "#/components"] ++ (Site.all doc).map Site.pointer ++
    doc.placedResponses.flatMap (fun response =>
      response.1 :: mediaPlaces response.1 response.2.content) ++
    doc.placedBodies.flatMap fun body => body.1 :: mediaPlaces body.1 body.2.content

/-- Whether no array stands at a place. -/
def NoArray (doc : Document) (pointer : String) : Prop :=
  ∀ items, doc.value? pointer ≠ some (.array items)

/-- Whether no part of a document is written as an array of its fields. -/
def WritesObjects (doc : Document) : Prop :=
  ∀ pointer ∈ doc.partPlaces, doc.NoArray pointer

instance (doc : Document) (pointer : String) : Decidable (doc.NoArray pointer) :=
  match h : doc.value? pointer with
  | some (.array items) => isFalse fun hnot => hnot items h
  | some .null | some (.bool _) | some (.int _) | some (.float _) | some (.string _)
  | some (.object _) | none => isTrue fun items harray => by rw [h] at harray; cases harray

instance (doc : Document) : Decidable doc.WritesObjects :=
  inferInstanceAs (Decidable (∀ pointer ∈ doc.partPlaces, doc.NoArray pointer))

namespace WritesObjects

variable {doc : Document} (h : doc.WritesObjects)
include h

theorem root : doc.NoArray "#" :=
  h _ (List.mem_append_left _ (List.mem_append_left _ List.mem_cons_self))

theorem components : doc.NoArray "#/components" :=
  h _ (List.mem_append_left _ (List.mem_append_left _
    (List.mem_cons_of_mem _ List.mem_cons_self)))

theorem site {site : Site} (hsite : site ∈ Site.all doc) : doc.NoArray site.pointer :=
  h _ (List.mem_append_left _ (List.mem_append_left _
    (List.mem_append_right _ (List.mem_map_of_mem hsite))))

theorem response {response : String × Response} (hmem : response ∈ doc.placedResponses)
    {pointer : String}
    (hpointer : pointer ∈ response.1 :: mediaPlaces response.1 response.2.content) :
    doc.NoArray pointer :=
  h _ (List.mem_append_left _ (List.mem_append_right _
    (List.mem_flatMap.mpr ⟨response, hmem, hpointer⟩)))

theorem body {body : String × RequestBody} (hmem : body ∈ doc.placedBodies) {pointer : String}
    (hpointer : pointer ∈ body.1 :: mediaPlaces body.1 body.2.content) : doc.NoArray pointer :=
  h _ (List.mem_append_right _ (List.mem_flatMap.mpr ⟨body, hmem, hpointer⟩))

end WritesObjects

/-! ### Looking up -/

variable {doc : Document} {α β : Type} {pointer name : String}

/-- A lookup finds what can be read from the value at a pointer. -/
theorem lookup?_eq_some_iff {reader : Decoder α} {value : α} :
    doc.lookup? reader pointer = some value ↔
      ∃ json, doc.value? pointer = some json ∧ reader json = .ok value := by
  rw [lookup?, Option.bind_eq_some_iff]
  refine exists_congr fun json => and_congr_right fun _ => ⟨eq_ok_of_toOption, fun h => ?_⟩
  rw [h]
  rfl

/-- What is read from a value or `null`. -/
theorem lookup?_nullable {value : Decoder α} {found : α}
    (h : doc.lookup? (readNullable value) pointer = some (some found)) :
    doc.lookup? value pointer = some found := by
  obtain ⟨json, hjson, hread⟩ := lookup?_eq_some_iff.mp h
  exact lookup?_eq_some_iff.mpr ⟨json, hjson, readNullable_eq_some hread⟩

/-- What is written in place. -/
theorem lookup?_item {item : Decoder α} {found : α}
    (h : doc.lookup? (readReferable item) pointer = some (.item found)) :
    doc.lookup? item pointer = some found := by
  obtain ⟨json, hjson, hread⟩ := lookup?_eq_some_iff.mp h
  refine lookup?_eq_some_iff.mpr ⟨json, hjson, ?_⟩
  rw [readReferable] at hread
  split at hread
  · cases hread
  · split at hread
    · cases hread
      assumption
    · cases hread

section Distinct

variable (hdistinct : doc.raw.Distinct)
include hdistinct

/-- An entry of a map is what is looked up under its name. -/
theorem lookup?_entry {item : Decoder α} {list : List (String × α)}
    (h : doc.lookup? (readMap item) pointer = some list) {entry : String × α}
    (hmem : entry ∈ list) :
    doc.lookup? item (Reference.child pointer entry.1) = some entry.2 := by
  obtain ⟨json, hjson, hread⟩ := lookup?_eq_some_iff.mp h
  obtain ⟨members, rfl, hmembers⟩ := exists_members_of_readMap hread
  obtain ⟨member, hmember, hname, hitem⟩ := exists_of_mem_forall₂ hmembers.flip hmem
  have hnodup := (distinct_object.mp (distinct_value? hdistinct hjson)).1
  refine lookup?_eq_some_iff.mpr ⟨member.2, ?_, hitem⟩
  rw [value?_child hjson, hname]
  exact lookup_of_mem hnodup hmember

/-- A field of a record that is written as an object is what is looked up under its name. -/
theorem lookup?_field {record : Decoder α} {found : α} {place : Nat} {value : Decoder β}
    {blank read : β}
    (hfills : ∀ json, json.Distinct → record json = .ok found →
      json.Fills name place value blank read)
    (hobject : doc.NoArray pointer)
    (h : doc.lookup? record pointer = some found) (hne : read ≠ blank) :
    doc.lookup? value (Reference.child pointer name) = some read := by
  obtain ⟨json, hjson, hrecord⟩ := lookup?_eq_some_iff.mp h
  obtain ⟨part, hpart, hread⟩ :=
    exists_of_fills (hfills json (distinct_value? hdistinct hjson) hrecord) hne
  refine lookup?_eq_some_iff.mpr ⟨part, ?_, hread⟩
  cases json with
  | object members => exact (value?_child hjson name).trans hpart
  -- In an array the field would stand in its place, where its name does not lead.
  | array items => exact absurd hjson (hobject items)
  | _ => cases hpart

/-- An entry of a map that is a field of a record. -/
theorem lookup?_field_entry {record : Decoder α} {found : α} {place : Nat} {item : Decoder β}
    {list : List (String × β)}
    (hfills : ∀ json, json.Distinct → record json = .ok found →
      json.Fills name place (readMap item) [] list)
    (hobject : doc.NoArray pointer)
    (h : doc.lookup? record pointer = some found) {entry : String × β} (hmem : entry ∈ list) :
    doc.lookup? item (Reference.child (Reference.child pointer name) entry.1) = some entry.2 :=
  lookup?_entry hdistinct
    (lookup?_field hdistinct hfills hobject h (List.ne_nil_of_mem hmem)) hmem

/-- The schema of a media type. -/
theorem lookup?_contentSchema {record : Decoder α} {found : α} {place : Nat}
    {content : List (String × MediaType)}
    (hfills : ∀ json, json.Distinct → record json = .ok found →
      json.Fills "content" place (readMap MediaType.read) [] content)
    (hobject : doc.NoArray pointer)
    (h : doc.lookup? record pointer = some found) {media : String × MediaType}
    (hmedia : media ∈ content)
    (hmediaObject : doc.NoArray (Reference.child (Reference.child pointer "content") media.1))
    {schema : Schema} (hschema : media.2.schema = some schema) :
    doc.lookup? Schema.read (contentSchema pointer media.1) = some schema := by
  have htype := lookup?_field_entry hdistinct hfills hobject h hmedia
  exact lookup?_nullable (lookup?_field hdistinct
    (fun _ hjson hread => hschema ▸ MediaType.fills_schema hjson hread) hmediaObject htype
    (Option.some_ne_none schema))

/-- An operation is what is looked up under the word of its method. -/
theorem lookup?_operation {item : PathItem} (h : doc.lookup? PathItem.read pointer = some item)
    {operation : Method × Operation} (hmem : operation ∈ item.operations) :
    doc.lookup? Operation.read (Reference.child pointer operation.1.key) = some operation.2 := by
  obtain ⟨json, hjson, hread⟩ := lookup?_eq_some_iff.mp h
  obtain ⟨members, rfl, hoperations⟩ := PathItem.exists_operations hread
  obtain ⟨member, hmember, hmethod, hoperation⟩ := exists_of_mem_forall₂ hoperations.flip hmem
  obtain ⟨written, hwritten, hkey⟩ := List.mem_filterMap.mp hmember
  obtain ⟨method, hof, rfl⟩ := Option.map_eq_some_iff.mp hkey
  have hname : operation.1.key = written.1 := hmethod ▸ Method.ofKey?_eq_some_iff.mp hof
  have hnodup := (distinct_object.mp (distinct_value? hdistinct hjson)).1
  refine lookup?_eq_some_iff.mpr ⟨written.2, ?_, hoperation⟩
  rw [value?_child hjson, hname]
  exact lookup_of_mem hnodup hwritten

end Distinct

/-! ### The value of a document -/

theorem lookup?_root (hdoc : Document.ofJson doc.raw = .ok doc) :
    doc.lookup? Document.ofJson "#" = some doc :=
  lookup?_eq_some_iff.mpr ⟨doc.raw, doc.value?_root, hdoc⟩

theorem value?_components (hobjects : doc.WritesObjects) :
    doc.value? "#/components" = doc.raw.field? "components" 2 := by
  have hchild : doc.value? "#/components" = doc.raw.child? "components" := by
    have hplace : Reference.child "#" "components" = "#/components" := by decide
    rw [← hplace, value?_child doc.value?_root]
  have hroot := hobjects.root
  rw [NoArray, value?_root] at hroot
  rw [hchild]
  cases hraw : doc.raw with
  | array items => exact absurd (congrArg some hraw) (hroot items)
  | _ => rfl

/-- What is named in a section of the components. -/
theorem value?_sectionStart (hobjects : doc.WritesObjects)
    (hplain : Reference.encodeSegment name = name) {escaped : String}
    (hslash : '/' ∉ escaped.toList) :
    doc.value? (Reference.sectionStart name ++ escaped) =
      ((doc.raw.field? "components" 2).bind fun json => json.child? name).bind fun json =>
        json.child? (Reference.decodeSegment escaped) := by
  have hname := Reference.slash_notMem_encodeSegment name
  rw [hplain] at hname
  have hdecode := Reference.decodeSegment_encodeSegment name
  rw [hplain] at hdecode
  have hsegments : segments? "/components" = some ["components"] := by decide
  have hstart : "#/components/" = "#" ++ ("/components" ++ "/") := by decide
  have htext : Reference.sectionStart name ++ escaped =
      "#" ++ ("/components" ++ "/" ++ name ++ "/" ++ escaped) := by
    rw [Reference.sectionStart, hstart]
    simp only [String.append_assoc]
  rw [← value?_components hobjects, htext, value?, Reference.after?_append, Option.bind_some,
    at?_segment (segments?_append hsegments hname) _ hslash, at?_segment hsegments _ hname, hdecode]
  rfl

theorem schemas_eq (doc : Document) :
    doc.schemas = (doc.components.map Components.schemas).getD [] := by
  rw [schemas]
  cases doc.components with
  | none => rfl
  | some components => rfl

/-! ### The parts of a document -/

section Parts

variable (hdistinct : doc.raw.Distinct) (hdoc : Document.ofJson doc.raw = .ok doc)
  (hobjects : doc.WritesObjects)
include hdistinct hdoc hobjects

/-- A lookup of the components finds them, if records are written as objects. -/
theorem lookup?_components {components : Components} (h : doc.components = some components) :
    doc.lookup? Components.read "#/components" = some components := by
  have hplace : Reference.child "#" "components" = "#/components" := by decide
  have hfield := lookup?_field hdistinct
    (fun _ hjson hread => h ▸ Document.fills_components hjson hread) hobjects.root
    (lookup?_root hdoc) (Option.some_ne_none components)
  exact lookup?_nullable (hplace ▸ hfield)

theorem lookup?_site {site : Site} (hsite : site ∈ Site.all doc) :
    doc.lookup? Operation.read site.pointer = some site.operation := by
  have hplace : Reference.child "#" "paths" = "#/paths" := by decide
  obtain ⟨path, hpath, hsite⟩ := List.mem_flatMap.mp hsite
  obtain ⟨operation, hoperation, rfl⟩ := List.mem_map.mp hsite
  have hitem := lookup?_field_entry hdistinct
    (fun _ hjson hread => Document.fills_paths hjson hread) hobjects.root (lookup?_root hdoc) hpath
  exact lookup?_operation hdistinct (hplace ▸ hitem) hoperation

/-- A component of some section. -/
theorem lookup?_component {place : Nat} {item : Decoder α} {get : Components → List (String × α)}
    (hfills : ∀ components json, json.Distinct → Components.read json = .ok components →
      json.Fills name place (readMap item) [] (get components))
    {entry : String × α} (hmem : entry ∈ (doc.components.map get).getD []) :
    doc.lookup? item (Reference.child (Reference.child "#/components" name) entry.1) =
      some entry.2 := by
  rcases hcomponents : doc.components with _ | components
  · rw [hcomponents] at hmem
    cases hmem
  · rw [hcomponents] at hmem
    exact lookup?_field_entry hdistinct (hfills components) hobjects.components
      (lookup?_components hdistinct hdoc hobjects hcomponents) hmem

/-- **Responses.** A response is what is looked up at its place, and so are the schemas of its media
types. -/
theorem lookup?_response {response : String × Response} (h : response ∈ doc.placedResponses) :
    doc.lookup? Response.read response.1 = some response.2 ∧
      ∀ media ∈ response.2.content, ∀ schema, media.2.schema = some schema →
        doc.lookup? Schema.read (contentSchema response.1 media.1) = some schema := by
  have hresponse : doc.lookup? Response.read response.1 = some response.2 := by
    -- The response is written in its operation, or among the components.
    rcases List.mem_append.mp h with hinline | hshared
    · obtain ⟨site, hsite, hinline⟩ := List.mem_flatMap.mp hinline
      obtain ⟨declared, hdeclared, hitem⟩ := List.mem_filterMap.mp hinline
      obtain ⟨value, hvalue, rfl⟩ := Option.map_eq_some_iff.mp hitem
      have hfound := lookup?_field_entry hdistinct
        (fun _ hjson hread => Operation.fills_responses hjson hread) (hobjects.site hsite)
        (lookup?_site hdistinct hdoc hobjects hsite) hdeclared
      rw [Referable.eq_item hvalue] at hfound
      exact lookup?_item hfound
    · obtain ⟨shared, hmem, rfl⟩ := List.mem_map.mp hshared
      have hplace : Reference.child "#/components" "responses" = "#/components/responses" := by
        decide
      have hfound := lookup?_component hdistinct hdoc hobjects
        (fun _ _ hjson hread => Components.fills_responses hjson hread) hmem
      rwa [hplace] at hfound
  refine ⟨hresponse, fun media hmedia schema hschema => ?_⟩
  have hplace := List.mem_map_of_mem
    (f := fun media => Reference.child (Reference.child response.1 "content") media.1) hmedia
  exact lookup?_contentSchema hdistinct (fun _ hjson hread => Response.fills_content hjson hread)
    (hobjects.response h List.mem_cons_self) hresponse hmedia
    (hobjects.response h (List.mem_cons_of_mem _ hplace)) hschema

/-- **Request bodies.** A request body is what is looked up at its place, and so are the schemas of
its media types. -/
theorem lookup?_body {body : String × RequestBody} (h : body ∈ doc.placedBodies) :
    doc.lookup? RequestBody.read body.1 = some body.2 ∧
      ∀ media ∈ body.2.content, ∀ schema, media.2.schema = some schema →
        doc.lookup? Schema.read (contentSchema body.1 media.1) = some schema := by
  have hbody : doc.lookup? RequestBody.read body.1 = some body.2 := by
    -- The body is written in its operation, or among the components.
    rcases List.mem_append.mp h with hinline | hshared
    · obtain ⟨site, hsite, hinline⟩ := List.mem_filterMap.mp hinline
      obtain ⟨value, hvalue, rfl⟩ := Option.map_eq_some_iff.mp hinline
      obtain ⟨declared, hdeclared, hitem⟩ := Option.bind_eq_some_iff.mp hvalue
      have hfound := lookup?_field hdistinct
        (fun _ hjson hread => hdeclared ▸ Operation.fills_requestBody hjson hread)
        (hobjects.site hsite) (lookup?_site hdistinct hdoc hobjects hsite)
        (Option.some_ne_none declared)
      rw [Referable.eq_item hitem] at hfound
      exact lookup?_item (lookup?_nullable hfound)
    · obtain ⟨shared, hmem, rfl⟩ := List.mem_map.mp hshared
      have hplace : Reference.child "#/components" "requestBodies" =
          "#/components/requestBodies" := by decide
      have hfound := lookup?_component hdistinct hdoc hobjects
        (fun _ _ hjson hread => Components.fills_requestBodies hjson hread) hmem
      rwa [hplace] at hfound
  refine ⟨hbody, fun media hmedia schema hschema => ?_⟩
  have hplace := List.mem_map_of_mem
    (f := fun media => Reference.child (Reference.child body.1 "content") media.1) hmedia
  exact lookup?_contentSchema hdistinct
    (fun _ hjson hread => RequestBody.fills_content hjson hread)
    (hobjects.body h List.mem_cons_self) hbody hmedia
    (hobjects.body h (List.mem_cons_of_mem _ hplace)) hschema

/-! ### References to components -/

/-- A component of a section is what is looked up in the section, and where there is none, nothing
is. -/
theorem lookup?_sectionStart {place : Nat} {item : Decoder α}
    {get : Components → List (String × α)}
    (hfills : ∀ components json, json.Distinct → Components.read json = .ok components →
      json.Fills name place (readMap item) [] (get components))
    (hplain : Reference.encodeSegment name = name) {escaped : String}
    (hslash : '/' ∉ escaped.toList) :
    doc.lookup? item (Reference.sectionStart name ++ escaped) =
      ((doc.components.map get).getD []).lookup (Reference.decodeSegment escaped) := by
  have hfield := Document.fills_components hdistinct hdoc
  have hvalue := value?_components hobjects
  rw [lookup?, value?_sectionStart hobjects hplain hslash]
  rcases hcomponents : doc.components with _ | components
  · -- Without components nothing is written in their place, or `null` is.
    rw [Fills, hcomponents] at hfield
    split at hfield
    next json hjson =>
      rw [hjson, eq_null_of_readNullable hfield]
      rfl
    next hnone =>
      rw [hnone]
      rfl
  · rw [hcomponents] at hfield
    obtain ⟨json, hjson, hread⟩ := exists_of_fills hfield (Option.some_ne_none _)
    have hsection := hfills components json (hdistinct.field? hjson) (readNullable_eq_some hread)
    rw [hjson] at hvalue ⊢
    have hchild : json.child? name = json.field? name place := by
      cases json with
      | array items => exact absurd hvalue (hobjects.components items)
      | _ => rfl
    rw [Option.bind_some, hchild, Option.map_some, Option.getD_some]
    rw [Fills] at hsection
    split at hsection
    next part hpart =>
      obtain ⟨members, rfl, hmembers⟩ := exists_members_of_readMap hsection
      rw [hpart]
      exact (Area.lookup_eq_of_forall₂ hmembers _).symm
    next hnone =>
      rw [hnone, hsection]
      rfl

/-- **Component schemas.** A component schema is what is looked up under its key, and where there is
none, nothing is. -/
theorem lookup?_componentKey (schema : String) :
    doc.lookup? Schema.read (Reference.componentKey schema) = doc.schema? schema := by
  rw [Reference.componentKey, lookup?_sectionStart hdistinct hdoc hobjects
    (fun _ _ hjson hread => Components.fills_schemas hjson hread) (by decide)
    (Reference.slash_notMem_encodeSegment schema),
    Reference.decodeSegment_encodeSegment, schema?, schemas_eq]

/-- What a reference to a schema names is what is looked up at the reference. -/
theorem target_eq_lookup? (path : String) :
    (doc.target path).2 = doc.lookup? Schema.read path := by
  rw [target]
  rcases h : Reference.componentName? "schemas" path with _ | escaped
  · rfl
  · obtain ⟨rfl, hslash⟩ := Reference.eq_append_of_componentName? h
    rw [lookup?_sectionStart hdistinct hdoc hobjects
      (fun _ _ hjson hread => Components.fills_schemas hjson hread) (by decide) hslash,
      ← schemas_eq]
    rfl

/-- What a reference to an object of a section names is what is looked up at the reference. -/
theorem resolve?_eq_lookup? {place : Nat} {item : Decoder α}
    {get : Components → List (String × α)}
    (hfills : ∀ components json, json.Distinct → Components.read json = .ok components →
      json.Fills name place (readMap item) [] (get components))
    (hplain : Reference.encodeSegment name = name) (path : String) :
    doc.resolve? name ((doc.components.map get).getD []) item (.reference path) =
      doc.lookup? item path := by
  rw [resolve?]
  rcases h : Reference.componentName? name path with _ | escaped
  · rfl
  · obtain ⟨rfl, hslash⟩ := Reference.eq_append_of_componentName? h
    exact (lookup?_sectionStart hdistinct hdoc hobjects hfills hplain hslash).symm

end Parts

/-- **Agreement.** In a document whose parts are written as objects, what is read of a component
schema, of a response, of a request body, or of the schema of a media type is what is looked up at
its place, whatever the names on the way are. A reference therefore names the same object whether it
is followed through the maps that were read or through the value of the document. -/
theorem lookup_agrees {text : String} (htext : Document.ofText text = .ok doc)
    (hobjects : doc.WritesObjects) :
    (∀ name, doc.lookup? Schema.read (Reference.componentKey name) = doc.schema? name) ∧
      (∀ schema ∈ doc.schemas,
        doc.lookup? Schema.read (Reference.componentKey schema.1) = some schema.2) ∧
      (∀ response ∈ doc.placedResponses,
        doc.lookup? Response.read response.1 = some response.2 ∧
          ∀ media ∈ response.2.content, ∀ schema, media.2.schema = some schema →
            doc.lookup? Schema.read (contentSchema response.1 media.1) = some schema) ∧
      (∀ body ∈ doc.placedBodies,
        doc.lookup? RequestBody.read body.1 = some body.2 ∧
          ∀ media ∈ body.2.content, ∀ schema, media.2.schema = some schema →
            doc.lookup? Schema.read (contentSchema body.1 media.1) = some schema) ∧
      ∀ path, (doc.target path).2 = doc.lookup? Schema.read path ∧
        doc.resolve? "responses" doc.responses Response.read (.reference path) =
          doc.lookup? Response.read path ∧
        doc.resolve? "requestBodies" doc.requestBodies RequestBody.read (.reference path) =
          doc.lookup? RequestBody.read path ∧
        doc.resolve? "parameters" doc.parameters Parameter.read (.reference path) =
          doc.lookup? Parameter.read path := by
  obtain ⟨hdistinct, hdoc⟩ := Document.of_ofText htext
  -- Components by name, parts in their places, and references to either.
  refine ⟨lookup?_componentKey hdistinct hdoc hobjects, fun schema hmem => ?_,
    fun _ h => lookup?_response hdistinct hdoc hobjects h,
    fun _ h => lookup?_body hdistinct hdoc hobjects h, fun path => ⟨?_, ?_, ?_, ?_⟩⟩
  · have hplace : Reference.child "#" "components" = "#/components" := by decide
    rw [Reference.componentKey_eq_child, hplace]
    exact lookup?_component hdistinct hdoc hobjects
      (fun _ _ hjson hread => Components.fills_schemas hjson hread) (schemas_eq doc ▸ hmem)
  · exact target_eq_lookup? hdistinct hdoc hobjects path
  · exact resolve?_eq_lookup? hdistinct hdoc hobjects
      (fun _ _ hjson hread => Components.fills_responses hjson hread) (by decide) path
  · exact resolve?_eq_lookup? hdistinct hdoc hobjects
      (fun _ _ hjson hread => Components.fills_requestBodies hjson hread) (by decide) path
  · exact resolve?_eq_lookup? hdistinct hdoc hobjects
      (fun _ _ hjson hread => Components.fills_parameters hjson hread) (by decide) path

/-- The text of a document with escaped, numeric and empty names. -/
def thornyPlaces : String := Text.concat [
  "\x7b\"paths\":\x7b\"/a~b\":\x7b\"post\":\x7b",
  "\"requestBody\":\x7b\"content\":\x7b\"x/y\":\x7b\"schema\":\x7b\x7d\x7d\x7d\x7d,",
  "\"responses\":\x7b\"0\":\x7b\"content\":\x7b\"\":\x7b\"schema\":\x7b\x7d\x7d\x7d\x7d,",
  "\"1\":\x7b\"$ref\":\"#/components/responses/~1\"\x7d\x7d\x7d\x7d\x7d,",
  "\"components\":\x7b\"schemas\":\x7b\"\":\x7b\x7d,\"a/b~1 2\":\x7b\x7d\x7d,",
  "\"responses\":\x7b\"/\":\x7b\x7d\x7d\x7d\x7d"]

/-- Names that are empty, numbers, or full of separators are found at the places they are escaped
to. -/
theorem lookup_agrees_thorny :
    ∃ doc, Document.ofText thornyPlaces = .ok doc ∧ doc.WritesObjects ∧
      doc.schemas.map Prod.fst = ["", "a/b~1 2"] ∧
      doc.placedResponses.map Prod.fst =
        ["#/paths/~1a~0b/post/responses/0", "#/components/responses/~1"] ∧
      doc.placedBodies.map Prod.fst = ["#/paths/~1a~0b/post/requestBody"] ∧
      (∀ schema ∈ doc.schemas,
        doc.lookup? Schema.read (Reference.componentKey schema.1) = some schema.2) ∧
      doc.resolve? "responses" doc.responses Response.read
          (.reference "#/components/responses/~1") =
        doc.lookup? Response.read "#/components/responses/~1" := by
  obtain ⟨doc, hdoc, hobjects, hschemas, hresponses, hbodies⟩ :
      ∃ doc, Document.ofText thornyPlaces = .ok doc ∧ doc.WritesObjects ∧
        doc.schemas.map Prod.fst = ["", "a/b~1 2"] ∧
        doc.placedResponses.map Prod.fst =
          ["#/paths/~1a~0b/post/responses/0", "#/components/responses/~1"] ∧
        doc.placedBodies.map Prod.fst = ["#/paths/~1a~0b/post/requestBody"] :=
    Document.exists_of_chars (by repeat' constructor) (by decide +kernel)
  obtain ⟨-, hcomponents, -, -, hreferences⟩ := lookup_agrees hdoc hobjects
  exact ⟨doc, hdoc, hobjects, hschemas, hresponses, hbodies, hcomponents,
    (hreferences "#/components/responses/~1").2.1⟩

end Document

end ClientGen.OpenApi
