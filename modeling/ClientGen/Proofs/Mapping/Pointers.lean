import ClientGen.Proofs.Endpoint.Media
import ClientGen.Proofs.Mapping.Reads
import ClientGen.Proofs.OpenApi.Source

/-!
# Where diagnostics point

If every record of a document is written as an object, each schema that is mapped stands at the
pointer by which the mapper knows it, and a diagnostic points at something in the document
(`points_of_mem_diagnostics`). There is one exception: the mapper takes what is inside a parameter
that is named by a reference to be inside the reference (`Document.Locates`), where nothing is.
-/

namespace ClientGen

open OpenApi Json

/-! ### Choosing a schema -/

theorem Mapping.exists_of_firstSchema? {content : List (String × MediaType)} {media : String}
    {schema : Schema} (h : firstSchema? content = some (media, schema)) :
    ∃ value, (media, value) ∈ content ∧ value.schema = some schema := by
  induction content with
  | nil => cases h
  | cons first rest ih =>
    rw [firstSchema?] at h
    split at h
    next hschema =>
      cases h
      exact ⟨first.2, List.mem_cons_self, hschema⟩
    next =>
      obtain ⟨value, hmem, hschema⟩ := ih h
      exact ⟨value, List.mem_cons_of_mem _ hmem, hschema⟩

namespace OpenApi.Document

variable {doc : Document}

/-! ### Operations -/

section Places

variable (hdistinct : doc.raw.Distinct) (hdoc : Document.ofJson doc.raw = .ok doc)
  (hobjects : doc.AsObjects)
include hdistinct hdoc hobjects

/-- The operations on a path stand where they are written. -/
theorem exists_site {site : Site} (hsite : site ∈ Site.all doc) :
    ∃ item json, doc.Stands .pathItem site.pathPointer json ∧ PathItem.read json = .ok item ∧
      site.shared = item.parameters ∧ (site.method, site.operation) ∈ item.operations ∧
      site.pointer = Reference.child site.pathPointer site.method.key := by
  obtain ⟨path, hpath, hsite⟩ := List.mem_flatMap.mp hsite
  obtain ⟨operation, hoperation, rfl⟩ := List.mem_map.mp hsite
  have hslot : ("paths", .map .pathItem) ∈ RecordKind.document.slots := by decide
  obtain ⟨json, hstands, hread⟩ := (Stands.root doc).exists_field_entry hdistinct hobjects hslot
    (fills_paths hdistinct hdoc) hpath
  exact ⟨path.2, json, hstands, hread, rfl, hoperation, rfl⟩

/-- The operations of a document stand where their pointers lead. -/
theorem exists_operation {site : Site} (hsite : site ∈ Site.all doc) :
    ∃ json, doc.Stands (.record .operation) site.pointer json ∧
      Operation.read json = .ok site.operation := by
  obtain ⟨item, json, hstands, hread, -, hoperation, hpointer⟩ :=
    exists_site hdistinct hdoc hobjects hsite
  obtain ⟨members, rfl, hoperations⟩ := PathItem.exists_operations hread
  obtain ⟨written, hwritten, hmethod, hvalue⟩ := exists_of_mem_forall₂ hoperations.flip hoperation
  obtain ⟨⟨key, value⟩, hmember, hkey⟩ := List.mem_filterMap.mp hwritten
  obtain ⟨method, hmethod', rfl⟩ := Option.map_eq_some_iff.mp hkey
  obtain rfl : site.method = method := hmethod
  obtain rfl : site.method.key = key := Method.ofKey?_eq_some_iff.mp hmethod'
  have hnodup := (distinct_object.mp (distinct_value? hdistinct hstands.value)).1
  refine ⟨value, hpointer ▸ hstands.member (lookup_of_mem hnodup hmember) ?_ , hvalue⟩
  exact List.mem_append_right _ (List.mem_map.mpr ⟨_, hwritten, rfl⟩)

omit hdistinct hdoc hobjects in
/-- The parameters that are declared in a list stand where their pointers lead. -/
private theorem exists_placed {pointer : String} {json : Json} {place : Nat}
    {declared : List (Referable Parameter)}
    (hfills : json.Fills "parameters" place (readList (readReferable Parameter.read)) [] declared)
    (hstands : ∀ part, json.field? "parameters" place = some part →
      doc.Stands (.list (.referable .parameter)) (Reference.child pointer "parameters") part)
    {parameter : Referable Parameter} {own : String}
    (h : (parameter, own) ∈ Site.placed pointer declared) :
    ∃ json, doc.Stands (.referable .parameter) own json ∧
      readReferable Parameter.read json = .ok parameter := by
  obtain ⟨⟨_, i⟩, hmem, heq⟩ := List.mem_map.mp h
  cases heq
  have hne : declared ≠ [] := List.ne_nil_of_mem (List.fst_mem_of_mem_zipIdx hmem)
  obtain ⟨part, hpart, hread⟩ := exists_of_fills hfills hne
  exact (hstands part hpart).exists_item hread hmem

/-- The parameters of an operation stand where they are declared. -/
theorem exists_declared {site : Site} (hsite : site ∈ Site.all doc)
    {parameter : Referable Parameter} {place : String}
    (h : (parameter, place) ∈ site.declared) :
    ∃ json, doc.Stands (.referable .parameter) place json ∧
      readReferable Parameter.read json = .ok parameter := by
  rcases List.mem_append.mp h with hshared | hown
  · obtain ⟨item, json, hstands, hread, hitem, -⟩ := exists_site hdistinct hdoc hobjects hsite
    have hfills := PathItem.fills_parameters (distinct_value? hdistinct hstands.value) hread
    obtain ⟨members, rfl, -⟩ := PathItem.exists_operations hread
    refine exists_placed hfills (fun part hpart => ?_) (hitem ▸ hshared)
    have hlookup : members.lookup "parameters" = some part := hpart
    refine hstands.member hlookup (List.mem_append_left _ ?_)
    rw [hlookup]
    exact List.mem_singleton_self _
  · obtain ⟨json, hstands, hread⟩ := exists_operation hdistinct hdoc hobjects hsite
    have hfills := Operation.fills_parameters (distinct_value? hdistinct hstands.value) hread
    have hslot : ("parameters", .list (.referable .parameter)) ∈ RecordKind.operation.slots := by
      decide
    exact exists_placed hfills (fun _ hpart => hstands.field hobjects hslot hpart) hown

/-! ### References -/

omit hdistinct hdoc in
/-- A component stands where references to it lead. -/
private theorem value?_component {area : String} {place : Nat} {segment : String}
    (harea : Reference.encodeSegment area = area) (hslash : '/' ∉ segment.toList) {json : Json}
    (h : (doc.section area place).lookup (Reference.decodeSegment segment) = some json) :
    doc.value? (Reference.sectionStart area ++ segment) = some json := by
  rw [Document.section] at h
  -- There is nothing to look up without components, or without this section.
  rcases hcomponents : doc.raw.field? "components" 2 with _ | components
  · rw [hcomponents] at h
    cases h
  rw [hcomponents, Option.bind_some] at h
  rcases hsection : components.field? area place with _ | part
  · rw [hsection] at h
    cases h
  rw [hsection] at h
  cases part with
  | object members =>
    have hslot : ("components", .record .components) ∈ RecordKind.document.slots := by decide
    have hstands := (Stands.root doc).field hobjects hslot hcomponents
    obtain ⟨_, rfl, hlookup⟩ := hstands.exists_object hobjects hsection
    have hvalue := value?_segment ((value?_child hstands.value area).trans hlookup) hslash
    rw [Reference.child, harea] at hvalue
    exact hvalue.trans h
  | _ => cases h

omit hdistinct hdoc in
/-- The node that a reference names stands where the reference leads. -/
theorem value?_of_node? {α : Type} {area : Area α} {path : String} {node : Json}
    (h : area.node? doc path = some node) : doc.value? path = some node := by
  rw [Area.node?] at h
  split at h
  next segment hname =>
    obtain ⟨rfl, hslash⟩ := Reference.eq_append_of_componentName? hname
    exact value?_component hobjects area.plain hslash h
  next => exact h

/-- What is written or named by a reference stands where it is written or where the reference
leads. -/
theorem exists_resolved {α : Type} (area : Area α) {kind : RecordKind}
    (hkind : kind.named? doc = area.readable? doc) {pointer : String} {json : Json}
    (hstands : doc.Stands (.referable kind) pointer json) {declared : Referable α}
    (hread : readReferable area.read json = .ok declared) {value : α}
    (hresolve : doc.resolve? area.name (area.components doc) area.read declared = some value) :
    ∃ node, doc.Stands (.record kind) (declared.place pointer) node ∧
      area.read node = .ok value := by
  rw [Area.resolve?_eq hdistinct hdoc hread] at hresolve
  obtain ⟨node, hstep, hvalue⟩ := Option.bind_eq_some_iff.mp hresolve
  have hnode := eq_ok_of_toOption hvalue
  refine ⟨node, ?_, hnode⟩
  rw [readReferable] at hread
  rw [Area.step?] at hstep
  -- What is declared stands here itself, or where its reference leads.
  rcases hpath : refPath? json with _ | path
  · rw [hpath] at hread hstep
    cases hstep
    rw [hnode] at hread
    cases hread
    have hinside : (Slot.record kind, json) ∈ (Slot.referable kind).inside doc json := by
      rw [Slot.inside, hpath]
      exact List.mem_singleton_self _
    exact ⟨hstands.value, hstands.reads.inside hinside⟩
  · rw [hpath] at hread hstep
    cases hread
    have hnamed : kind.named? doc path = some node := by
      rw [hkind, Area.readable?, Option.filter_eq_some_iff]
      refine ⟨hstep, ?_⟩
      rw [hnode]
      rfl
    have hinside : (Slot.record kind, node) ∈ (Slot.referable kind).inside doc json := by
      simp only [Slot.inside, hpath, hnamed, Option.map_some, Option.toList_some,
        List.mem_singleton]
    exact ⟨value?_of_node? hobjects hstep, hstands.reads.inside hinside⟩

/-! ### Schemas -/

/-- A component schema stands at its key. -/
theorem exists_component {component : String × Schema} (h : component ∈ doc.schemas) :
    ∃ json, doc.Stands (.record .schema) (Reference.componentKey component.1) json ∧
      Schema.read json = .ok component.2 := by
  have hfills := fills_components hdistinct hdoc
  rw [schemas] at h
  split at h
  next components hcomponents =>
    rw [hcomponents] at hfills
    have hslot : ("components", .record .components) ∈ RecordKind.document.slots := by decide
    have hslot' : ("schemas", .map (.record .schema)) ∈ RecordKind.components.slots := by decide
    obtain ⟨json, hstands, hread⟩ := (Stands.root doc).exists_nullable hobjects hslot hfills
    rw [Reference.componentKey_eq_child]
    exact hstands.exists_field_entry hdistinct hobjects hslot'
      (Components.fills_schemas (distinct_value? hdistinct hstands.value) hread) h
  next => cases h

/-- The schema that a reference names stands at the key of the reference. -/
theorem exists_target {path : String} {schema : Schema}
    (hreads : ∀ json, doc.value? path = some json → Schema.read json = .ok schema →
      doc.Reads (.record .schema) json)
    (htarget : (doc.target path).2 = some schema) :
    ∃ json, doc.Stands (.record .schema) (doc.target path).1 json ∧
      Schema.read json = .ok schema := by
  rw [target] at htarget ⊢
  rcases hname : Reference.componentName? "schemas" path with _ | name <;>
    simp only [hname] at htarget ⊢
  · obtain ⟨json, hjson, hschema⟩ := Option.bind_eq_some_iff.mp htarget
    have hread := eq_ok_of_toOption hschema
    exact ⟨json, ⟨hjson, hreads json hjson hread⟩, hread⟩
  · have hcomponent := exists_component hdistinct hdoc hobjects (mem_schemas_of_schema? htarget)
    exact hcomponent

/-! ### Content -/

omit hdoc in
/-- The schema of one format stands below the record that has the content. -/
private theorem exists_media {kind : RecordKind} {pointer : String} {json : Json} {place : Nat}
    (hslot : ("content", .map (.record .mediaType)) ∈ kind.slots)
    (hstands : doc.Stands (.record kind) pointer json) {part : Json}
    (hfield : json.field? "content" place = some part) {content : List (String × MediaType)}
    (hread : readMap MediaType.read part = .ok content) {media : String} {value : MediaType}
    (hmem : (media, value) ∈ content) {schema : Schema} (hschema : value.schema = some schema) :
    ∃ json, doc.Stands (.record .schema) (Mapping.contentSchema pointer media) json ∧
      Schema.read json = .ok schema := by
  obtain ⟨entry, hentry, hvalue⟩ :=
    (hstands.field hobjects hslot hfield).exists_entry hdistinct hread hmem
  have hfills := MediaType.fills_schema (distinct_value? hdistinct hentry.value) hvalue
  rw [hschema] at hfills
  have hslot' : ("schema", .record .schema) ∈ RecordKind.mediaType.slots := by decide
  exact hentry.exists_nullable hobjects hslot' hfills

omit hdoc in
/-- The schema of content stands in its preferred media type. -/
theorem exists_contentAt {kind : RecordKind} {pointer : String} {json : Json} {place : Nat}
    (hslot : ("content", .map (.record .mediaType)) ∈ kind.slots)
    (hstands : doc.Stands (.record kind) pointer json) {content : List (String × MediaType)}
    (hfills : json.Fills "content" place (readMap MediaType.read) [] content) {schema : Schema}
    {key : String} (h : contentAt? content pointer = some (schema, key)) :
    ∃ json, doc.Stands (.record .schema) key json ∧ Schema.read json = .ok schema := by
  obtain ⟨⟨media, value⟩, hpick, hvalue⟩ := Option.bind_eq_some_iff.mp h
  obtain ⟨_, hschema, heq⟩ := Option.map_eq_some_iff.mp hvalue
  cases heq
  have hmem := (Media.pick?_spec hpick).1
  obtain ⟨part, hfield, hread⟩ := exists_of_fills hfills (List.ne_nil_of_mem hmem)
  exact exists_media hdistinct hobjects hslot hstands hfield hread hmem hschema

omit hdoc in
/-- The schema of a parameter stands below the parameter. -/
theorem exists_schemaAt {pointer : String} {json : Json}
    (hstands : doc.Stands (.record .parameter) pointer json) {parameter : Parameter}
    (hread : Parameter.read json = .ok parameter) {place key : String} {schema : Schema}
    (h : parameter.schemaAt? place = some (schema, key)) :
    ∃ rest json, key = place ++ rest ∧ doc.Stands (.record .schema) (pointer ++ rest) json ∧
      Schema.read json = .ok schema := by
  have hjson := distinct_value? hdistinct hstands.value
  rw [Parameter.schemaAt?] at h
  split at h
  -- The schema is written directly, or for a media type.
  next own hschema =>
    cases h
    have hfills := Parameter.fills_schema hjson hread
    rw [hschema] at hfills
    have hslot : ("schema", .record .schema) ∈ RecordKind.parameter.slots := by decide
    obtain ⟨part, hpart, hvalue⟩ := hstands.exists_nullable hobjects hslot hfills
    refine ⟨"/" ++ Reference.encodeSegment "schema", part, ?_, ?_, hvalue⟩
    · rw [Reference.child, String.append_assoc]
    · rwa [← String.append_assoc]
  next =>
    obtain ⟨⟨media, own⟩, hfirst, heq⟩ := Option.map_eq_some_iff.mp h
    cases heq
    obtain ⟨value, hmem, hschema⟩ := Mapping.exists_of_firstSchema? hfirst
    have hfills := Parameter.fills_content hjson hread
    rcases hcontent : parameter.content with _ | content
    · rw [hcontent] at hmem
      cases hmem
    rw [hcontent] at hmem hfills
    obtain ⟨part, hfield, hcontent⟩ := exists_of_fills hfills (Option.some_ne_none _)
    have hslot : ("content", .map (.record .mediaType)) ∈ RecordKind.parameter.slots := by decide
    obtain ⟨part, hpart, hvalue⟩ := exists_media hdistinct hobjects hslot hstands hfield
      (readNullable_eq_some hcontent) hmem hschema
    -- The place of the schema differs from that of the parameter by the same segments, wherever
    -- this stands.
    have happend (start : String) : Mapping.contentSchema start media =
        start ++ Mapping.contentSchema "" media := by
      simp only [Mapping.contentSchema, Reference.child, String.append_assoc, String.empty_append]
    exact ⟨Mapping.contentSchema "" media, part, happend place, happend pointer ▸ hpart, hvalue⟩

/-- The body of an operation stands where it is declared or where the reference to it leads. -/
theorem exists_body {site : Site} (hsite : site ∈ Site.all doc) {body : Referable RequestBody}
    (hbody : site.operation.requestBody = some body) {value : RequestBody}
    (hresolve : doc.resolve? "requestBodies" doc.requestBodies RequestBody.read body =
      some value) :
    ∃ node, doc.Stands (.record .requestBody) (body.place site.bodyPointer) node ∧
      RequestBody.read node = .ok value := by
  obtain ⟨operation, hoperation, hread⟩ := exists_operation hdistinct hdoc hobjects hsite
  have hfills := Operation.fills_requestBody (distinct_value? hdistinct hoperation.value) hread
  rw [hbody] at hfills
  have hslot : ("requestBody", .referable .requestBody) ∈ RecordKind.operation.slots := by decide
  obtain ⟨part, hpart, hdeclared⟩ := hoperation.exists_nullable hobjects hslot hfills
  exact exists_resolved hdistinct hdoc hobjects Area.requestBodies rfl hpart hdeclared hresolve

/-- A response of an operation stands where it is declared or where the reference to it leads. -/
theorem exists_response {site : Site} (hsite : site ∈ Site.all doc) {status : String}
    {response : Referable Response} (hresponse : (status, response) ∈ site.operation.responses)
    {value : Response}
    (hresolve : doc.resolve? "responses" doc.responses Response.read response = some value) :
    ∃ node, doc.Stands (.record .response) (response.place (site.responsePointer status)) node ∧
      Response.read node = .ok value := by
  obtain ⟨operation, hoperation, hread⟩ := exists_operation hdistinct hdoc hobjects hsite
  have hfills := Operation.fills_responses (distinct_value? hdistinct hoperation.value) hread
  have hslot : ("responses", .map (.referable .response)) ∈ RecordKind.operation.slots := by decide
  obtain ⟨part, hpart, hdeclared⟩ :=
    hoperation.exists_field_entry hdistinct hobjects hslot hfills hresponse
  exact exists_resolved hdistinct hdoc hobjects Area.responses rfl hpart hdeclared hresolve

theorem exists_content {site : Site} (hsite : site ∈ Site.all doc) {schema : Schema} {key : String}
    (h : site.Content doc schema key) :
    ∃ json, doc.Stands (.record .schema) key json ∧ Schema.read json = .ok schema := by
  cases h with
  | body hbody hresolve hcontent =>
    obtain ⟨node, hnode, hvalue⟩ := exists_body hdistinct hdoc hobjects hsite hbody hresolve
    exact exists_contentAt hdistinct hobjects (by decide) hnode
      (RequestBody.fills_content (distinct_value? hdistinct hnode.value) hvalue) hcontent
  | response hresponse hresolve hcontent =>
    obtain ⟨node, hnode, hvalue⟩ := exists_response hdistinct hdoc hobjects hsite hresponse hresolve
    exact exists_contentAt hdistinct hobjects (by decide) hnode
      (Response.fills_content (distinct_value? hdistinct hnode.value) hvalue) hcontent

end Places

/-! ### Schemas that are mapped -/

/-- Where something stands that the mapper takes to be at a pointer. The two are the same, unless it
is inside a parameter that is named by a reference. -/
inductive Locates (doc : Document) : String → String → Prop
  | same (pointer : String) : Locates doc pointer pointer
  | parameter {site : Site} {path place : String} (hsite : site ∈ Site.all doc)
      (hdeclared : (.reference path, place) ∈ site.declared) (rest : String) :
      Locates doc (place ++ rest) (path ++ rest)

/-- What follows a pointer follows the place that it locates, too. -/
theorem Locates.append {pointer place : String} (h : doc.Locates pointer place) (rest : String) :
    doc.Locates (pointer ++ rest) (place ++ rest) := by
  cases h with
  | same => exact .same _
  | parameter hsite hdeclared inner =>
    rw [String.append_assoc, String.append_assoc]
    exact .parameter hsite hdeclared _

section Maps

variable (hdistinct : doc.raw.Distinct) (hdoc : Document.ofJson doc.raw = .ok doc)
  (hobjects : doc.AsObjects)
include hdistinct hdoc hobjects

omit hdistinct hdoc hobjects in
/-- A parameter that is left after merging was declared at its place. -/
private theorem exists_of_mem_merged {site : Site} {parameter : Parameter} {place : String}
    (h : (parameter, place) ∈ site.merged doc) :
    ∃ declared, (declared, place) ∈ site.declared ∧
      doc.resolve? "parameters" doc.parameters Parameter.read declared = some parameter := by
  have hresolved := (Mapping.of_mem_foldl_mergeParameter h).resolve_left List.not_mem_nil
  obtain ⟨⟨declared, _⟩, hdeclared, hsome⟩ := List.mem_filterMap.mp hresolved
  obtain ⟨_, hresolve, heq⟩ := Option.map_eq_some_iff.mp hsome
  cases heq
  exact ⟨declared, hdeclared, hresolve⟩

/-- A parameter that is left after merging stands where it is declared or named by a reference. -/
private theorem exists_merged {site : Site} (hsite : site ∈ Site.all doc) {parameter : Parameter}
    {place : String} (h : (parameter, place) ∈ site.merged doc) :
    ∃ own json, doc.Locates place own ∧ doc.Stands (.record .parameter) own json ∧
      Parameter.read json = .ok parameter := by
  obtain ⟨declared, hdeclared, hresolve⟩ := exists_of_mem_merged h
  obtain ⟨json, hjson, hread⟩ := exists_declared hdistinct hdoc hobjects hsite hdeclared
  obtain ⟨node, hnode, hvalue⟩ := exists_resolved hdistinct hdoc hobjects Area.parameters rfl
    hjson hread hresolve
  refine ⟨declared.place place, node, ?_, hnode, hvalue⟩
  cases declared with
  | item => exact .same place
  | reference path =>
    have h := Locates.parameter hsite hdeclared ""
    rwa [String.append_empty, String.append_empty] at h

/-- **Places of schemas.** Every schema that is mapped stands somewhere in the document. -/
theorem exists_of_maps {schema : Schema} {pointer : String} (h : doc.Maps schema pointer) :
    ∃ place json, doc.Locates pointer place ∧ doc.Stands (.record .schema) place json ∧
      Schema.read json = .ok schema := by
  cases h with
  | component hmem htarget =>
    obtain ⟨own, hown, -⟩ := exists_component hdistinct hdoc hobjects hmem
    obtain ⟨json, hjson, hread⟩ := exists_target hdistinct hdoc hobjects (fun json hvalue _ => by
      rw [hown.value] at hvalue
      cases hvalue
      exact hown.reads) htarget
    exact ⟨_, json, .same _, hjson, hread⟩
  | parameter hsite hmerged hlocation hschema =>
    obtain ⟨own, json, hlocates, hown, hvalue⟩ :=
      exists_merged hdistinct hdoc hobjects hsite hmerged
    obtain ⟨rest, part, rfl, hpart, hread⟩ :=
      exists_schemaAt hdistinct hobjects hown hvalue hschema
    exact ⟨own ++ rest, part, hlocates.append rest, hpart, hread⟩
  | content hsite hcontent =>
    obtain ⟨json, hjson, hread⟩ := exists_content hdistinct hdoc hobjects hsite hcontent
    exact ⟨pointer, json, .same pointer, hjson, hread⟩
  -- A target stands where its reference leads, whatever the place of the reference is.
  | target hmaps hvisit htarget =>
    obtain ⟨json, hjson, hread⟩ := exists_target hdistinct hdoc hobjects
      (fun json hvalue hread => .target hmaps hvisit hvalue hread) htarget
    exact ⟨_, json, .same _, hjson, hread⟩

/-! ### Diagnostics -/

/-- Whether a pointer leads to a part of a document, maybe through a parameter that is named by a
reference. -/
structure Points (doc : Document) (pointer : String) : Prop where
  start : ∃ rest, pointer = "#" ++ rest
  place : ∃ place, doc.Locates pointer place ∧ (doc.value? place).isSome

omit hdistinct hdoc hobjects in
/-- A pointer that leads to a value is local. -/
private theorem exists_of_value? {pointer : String} {json : Json}
    (h : doc.value? pointer = some json) : ∃ rest, pointer = "#" ++ rest := by
  obtain ⟨rest, hrest, -⟩ := Option.bind_eq_some_iff.mp h
  exact ⟨rest, Reference.eq_append_of_after? hrest⟩

omit hdistinct hdoc hobjects in
private theorem Stands.points {slot : Slot} {pointer : String} {json : Json}
    (h : doc.Stands slot pointer json) : doc.Points pointer :=
  ⟨exists_of_value? h.value, pointer, .same pointer, Option.isSome_of_eq_some h.value⟩

private theorem points_of_locates {pointer place : String} (h : doc.Locates pointer place)
    (hplace : (doc.value? place).isSome) : doc.Points pointer := by
  refine ⟨?_, place, h, hplace⟩
  cases h with
  | same =>
    obtain ⟨json, hjson⟩ := Option.isSome_iff_exists.mp hplace
    exact exists_of_value? hjson
  | parameter hsite hdeclared rest =>
    obtain ⟨json, hjson, -⟩ := exists_declared hdistinct hdoc hobjects hsite hdeclared
    obtain ⟨text, rfl⟩ := exists_of_value? hjson.value
    exact ⟨text ++ rest, String.append_assoc⟩

/-- A fault in a schema that is mapped points at something. -/
private theorem points_of_leads {schema : Schema} {pointer : String}
    (hmaps : doc.Maps schema pointer) {visit : Mapping.Visit}
    (hvisit : visit ∈ schema.visits pointer) {diagnostic : Diagnostic}
    (hleads : visit.Leads doc diagnostic) :
    doc.Points diagnostic.pointer := by
  obtain ⟨other, own, hmaps, hfault⟩ := Maps.exists_fault hleads hmaps hvisit
  obtain ⟨place, json, hlocates, hstands, hread⟩ := exists_of_maps hdistinct hdoc hobjects hmaps
  obtain ⟨rest, hpointer, hsome⟩ := hstands.exists_of_fault hdistinct hobjects hread hfault
  rw [hpointer]
  exact points_of_locates hdistinct hdoc hobjects (hlocates.append rest) hsome

/-- Whatever a diagnostic of an operation comes from, it leads somewhere. -/
private theorem points_of_origin {site : Site} (hsite : site ∈ Site.all doc)
    {diagnostic : Diagnostic} (h : site.Origin doc diagnostic) : doc.Points diagnostic.pointer := by
  obtain ⟨operation, hoperation, hread⟩ := exists_operation hdistinct hdoc hobjects hsite
  have hjson := distinct_value? hdistinct hoperation.value
  -- One case for each kind of diagnostic: the pointer is that of the operation, of a part of it, or
  -- of a schema.
  cases h with
  | unresolvedParameter hdeclared =>
    obtain ⟨_, hplace, -⟩ := exists_declared hdistinct hdoc hobjects hsite hdeclared
    exact hplace.points
  | unsupportedLocation hmerged =>
    obtain ⟨_, hdeclared, -⟩ := exists_of_mem_merged hmerged
    obtain ⟨_, hplace, -⟩ := exists_declared hdistinct hdoc hobjects hsite hdeclared
    exact hplace.points
  | parameter hmerged hlocation hschema hvisit hleads =>
    exact points_of_leads hdistinct hdoc hobjects (.parameter hsite hmerged hlocation hschema)
      hvisit hleads
  | undeclaredPathParameter => exact hoperation.points
  | unresolvedBody hbody =>
    have hfills := Operation.fills_requestBody hjson hread
    rw [hbody] at hfills
    have hslot : ("requestBody", .referable .requestBody) ∈ RecordKind.operation.slots := by decide
    obtain ⟨_, hplace, -⟩ := hoperation.exists_nullable hobjects hslot hfills
    exact hplace.points
  | unresolvedResponse hresponse =>
    have hslot : ("responses", .map (.referable .response)) ∈ RecordKind.operation.slots := by
      decide
    obtain ⟨_, hplace, -⟩ := hoperation.exists_field_entry hdistinct hobjects hslot
      (Operation.fills_responses hjson hread) hresponse
    exact hplace.points
  | content hcontent hvisit hleads =>
    exact points_of_leads hdistinct hdoc hobjects (.content hsite hcontent) hvisit hleads

end Maps

end OpenApi.Document

namespace Mapping

/-- **Diagnostics.** If every record of a document is written as an object, each diagnostic points
at a part of the document, but for what the mapper takes to be inside of a reference to a
parameter: that is found in the parameter. -/
theorem points_of_mem_diagnostics {text : String} {doc : Document}
    (h : Document.ofText text = .ok doc) (hobjects : doc.AsObjects) :
    ∀ diagnostic ∈ (Document.toApi doc).diagnostics, doc.Points diagnostic.pointer := by
  obtain ⟨hdistinct, hdoc⟩ := Document.of_ofText h
  intro diagnostic hdiagnostic
  rcases origin_of_mem_diagnostics (Document.closed_ofJson hdoc) hdiagnostic with
    ⟨component, hcomponent, hleads⟩ | ⟨site, hsite, horigin⟩
  · cases hleads with
    | reference htarget hvisit hleads =>
      exact Document.points_of_leads hdistinct hdoc hobjects (.component hcomponent htarget) hvisit
        hleads
  · exact Document.points_of_origin hdistinct hdoc hobjects hsite horigin

/-- The text of a document with a parameter that is named by a reference and has no precise type. -/
def referringText : String := Text.concat [
  "\x7b\"paths\":\x7b\"/\":\x7b\"get\":\x7b\"parameters\":[\x7b\"$ref\":\"#/p\"\x7d]\x7d\x7d\x7d,",
  "\"p\":\x7b\"name\":\"p\",\"in\":\"query\",\"schema\":\x7b\x7d\x7d\x7d"]

/-- The document refers to a parameter whose schema says nothing, and the diagnostic for this leads
nowhere. -/
private theorem exists_referring :
    ∃ doc, Document.ofText referringText = .ok doc ∧ doc.AsObjects ∧
      (Document.toApi doc).diagnostics.map Diagnostic.pointer =
        ["#/paths/~1/get/parameters/0/schema"] ∧
      (doc.value? "#/paths/~1/get/parameters/0/schema").isNone = true := by
  obtain ⟨doc, hdoc, hplain, hobjects, hpointers, hnone⟩ :
      ∃ doc, Document.ofText referringText = .ok doc ∧ doc.isPlain = true ∧
        (Slot.record .document).checks doc 12 doc.raw = true ∧
        (Document.toApi doc).diagnostics.map Diagnostic.pointer =
          ["#/paths/~1/get/parameters/0/schema"] ∧
        (doc.value? "#/paths/~1/get/parameters/0/schema").isNone = true :=
    Document.exists_of_chars (by repeat' constructor) (by decide +kernel)
  exact ⟨doc, hdoc, Document.asObjects_of_checks hobjects hplain, hpointers, hnone⟩

/-- The diagnostic for a parameter that is referred to leads to its schema once the reference is
followed. -/
theorem points_of_mem_diagnostics_referring :
    ∃ doc, Document.ofText referringText = .ok doc ∧ doc.AsObjects ∧
      (Document.toApi doc).diagnostics ≠ [] ∧
      ∀ diagnostic ∈ (Document.toApi doc).diagnostics, doc.Points diagnostic.pointer := by
  obtain ⟨doc, hdoc, hobjects, hpointers, -⟩ := exists_referring
  refine ⟨doc, hdoc, hobjects, fun hnil => ?_, points_of_mem_diagnostics hdoc hobjects⟩
  rw [hnil] at hpointers
  cases hpointers

/-- A diagnostic need not point at anything. -/
theorem not_forall_isSome_value?_pointer :
    ¬∀ text doc, Document.ofText text = .ok doc → doc.AsObjects →
      ∀ diagnostic ∈ (Document.toApi doc).diagnostics, (doc.value? diagnostic.pointer).isSome := by
  intro hall
  obtain ⟨doc, hdoc, hobjects, hpointers, hnone⟩ := exists_referring
  have hmem : "#/paths/~1/get/parameters/0/schema" ∈
      (Document.toApi doc).diagnostics.map Diagnostic.pointer := by
    rw [hpointers]
    exact List.mem_singleton_self _
  obtain ⟨diagnostic, hdiagnostic, hpointer⟩ := List.mem_map.mp hmem
  have hsome := hall referringText doc hdoc hobjects diagnostic hdiagnostic
  rw [hpointer, Option.isNone_iff_eq_none.mp hnone] at hsome
  cases hsome

end Mapping

end ClientGen
