import ClientGen.Proofs.Json.Pointer
import ClientGen.Proofs.Mapping.Effects
import ClientGen.Proofs.OpenApi.Nodes

/-!
# What of a document is read

A document is read from the top down, and where a reference is followed reading goes on at what it
names (`Document.Reads`). A record that is read can be written as an object or as an array of its
fields. If every record of a document is written as an object (`Document.AsObjects`), then what is
read has a place in the value of the document (`Document.Stands`), and the pointers by which the
mapper keeps track of schemas lead to the places of these schemas.
-/

namespace ClientGen

open OpenApi Json

namespace OpenApi

/-! ### Schemas that are mapped -/

/-- Whether a schema is mapped, and where the mapper takes it to stand: a component, the schema of a
parameter, body or response, or what a reference names in a schema that is mapped. -/
inductive Document.Maps (doc : Document) : Schema → String → Prop
  | component {component : String × Schema} {schema : Schema} (hmem : component ∈ doc.schemas)
      (htarget : (doc.target (Reference.componentKey component.1)).2 = some schema) :
      Maps doc schema (doc.target (Reference.componentKey component.1)).1
  | parameter {site : Site} {parameter : Parameter} {place pointer : String} {schema : Schema}
      (hsite : site ∈ Site.all doc) (hmerged : (parameter, place) ∈ site.merged doc)
      (hlocation : (Location.ofKey? parameter.location).isSome)
      (hschema : parameter.schemaAt? place = some (schema, pointer)) : Maps doc schema pointer
  | content {site : Site} {schema : Schema} {key : String} (hsite : site ∈ Site.all doc)
      (hcontent : site.Content doc schema key) : Maps doc schema key
  | target {schema next : Schema} {pointer path : String} (hmaps : Maps doc schema pointer)
      (hvisit : .reference path ∈ schema.visits pointer)
      (htarget : (doc.target path).2 = some next) : Maps doc next (doc.target path).1

/-- A diagnostic to which a visit leads is a fault of some schema that is mapped. -/
theorem Document.Maps.exists_fault {doc : Document} {visit : Mapping.Visit}
    {diagnostic : Diagnostic} (h : visit.Leads doc diagnostic) {schema : Schema} {pointer : String}
    (hmaps : doc.Maps schema pointer) (hvisit : visit ∈ schema.visits pointer) :
    ∃ other place, doc.Maps other place ∧ .fault diagnostic ∈ other.visits place := by
  induction h generalizing schema pointer with
  | fault diagnostic => exact ⟨schema, pointer, hmaps, hvisit⟩
  | reference htarget hnext _ ih => exact ih (.target hmaps hvisit htarget) hnext

/-! ### What is read -/

/-- A kind of record. -/
inductive RecordKind
  | document
  | components
  | operation
  | parameter
  | requestBody
  | response
  | mediaType
  | schema
deriving DecidableEq

/-- What is read in some place. -/
inductive Slot
  | record (kind : RecordKind)
  /-- A record or a reference to one. -/
  | referable (kind : RecordKind)
  | pathItem
  | list (item : Slot)
  | map (item : Slot)
deriving DecidableEq

namespace RecordKind

/-- The fields of a record with records inside. -/
def slots : RecordKind → List (String × Slot)
  | document => [("paths", .map .pathItem), ("components", .record components)]
  | components => [
    ("schemas", .map (.record schema)),
    ("parameters", .map (.record parameter)),
    ("requestBodies", .map (.record requestBody)),
    ("responses", .map (.record response))]
  | operation => [
    ("parameters", .list (.referable parameter)),
    ("requestBody", .referable requestBody),
    ("responses", .map (.referable response))]
  | parameter => [("schema", .record schema), ("content", .map (.record mediaType))]
  | requestBody | response => [("content", .map (.record mediaType))]
  | mediaType => [("schema", .record schema)]
  | schema => [
    ("properties", .map (.record schema)),
    ("items", .record schema),
    ("anyOf", .list (.record schema)),
    ("oneOf", .list (.record schema)),
    ("allOf", .list (.record schema)),
    ("additionalProperties", .record schema)]

/-- What a reference to a record names, if it is there and can be read. -/
def named? (doc : Document) : RecordKind → String → Option Json
  | parameter => Area.parameters.readable? doc
  | requestBody => Area.requestBodies.readable? doc
  | response => Area.responses.readable? doc
  | _ => fun _ => none

end RecordKind

/-- What is read next where something is read from a value. -/
def Slot.inside (doc : Document) : Slot → Json → List (Slot × Json)
  | .record kind, .object members =>
    kind.slots.filterMap fun (name, slot) => (members.lookup name).map (slot, ·)
  | .referable kind, json =>
    match refPath? json with
    | none => [(.record kind, json)]
    | some path => ((kind.named? doc path).map (.record kind, ·)).toList
  | .pathItem, .object members =>
    ((members.lookup "parameters").map (.list (.referable .parameter), ·)).toList ++
      (operationMembers members).map fun member => (.record .operation, member.2)
  | .list slot, .array items => items.map (slot, ·)
  | .map slot, .object members => members.map fun member => (slot, member.2)
  | _, _ => []

/-- Whether all records that are read in a value, which may be nested to some depth, are written as
objects. -/
def Slot.checks (doc : Document) : Nat → Slot → Json → Bool
  | _ + 1, .record _, .array _ => false
  | depth + 1, slot, json => (slot.inside doc json).all fun part => checks doc depth part.1 part.2
  | 0, _, _ => false

namespace Document

/-- Whether a value is read, and as what. -/
inductive Reads (doc : Document) : Slot → Json → Prop
  | document : Reads doc (.record .document) doc.raw
  | inside {slot : Slot} {json : Json} {part : Slot × Json} (hreads : Reads doc slot json)
      (hpart : part ∈ slot.inside doc json) : Reads doc part.1 part.2
  | target {schema next : Schema} {pointer path : String} {json : Json}
      (hmaps : doc.Maps schema pointer) (hvisit : .reference path ∈ schema.visits pointer)
      (hjson : doc.value? path = some json) (hread : Schema.read json = .ok next) :
      Reads doc (.record .schema) json

/-- Whether every record of a document is written as an object. -/
def AsObjects (doc : Document) : Prop :=
  ∀ kind items, ¬doc.Reads (.record kind) (.array items)

/-- What stands inside what is checked is checked too, one level deeper. -/
private theorem exists_checks {doc : Document} {slot : Slot} {json : Json}
    {depth : Nat} (h : slot.checks doc depth json = true) {part : Slot × Json}
    (hpart : part ∈ slot.inside doc json) : ∃ depth, part.1.checks doc depth part.2 = true := by
  rcases depth with _ | depth
  · rw [Slot.checks] at h
    cases h
  · refine ⟨depth, ?_⟩
    rw [Slot.checks] at h
    · exact List.all_eq_true.mp h part hpart
    · rintro kind items rfl rfl
      rw [Slot.checks] at h
      cases h

/-- Whether no schema of a document refers to another: there are no components, and those of the
operations have no references in them. -/
def isPlain (doc : Document) : Bool :=
  doc.schemas.isEmpty && (Site.all doc).all fun site =>
    (site.contents doc ++ (site.merged doc).filterMap fun parameter =>
      parameter.1.schemaAt? parameter.2).all fun schema =>
        (Mapping.Visit.paths (schema.1.visits schema.2)).isEmpty

/-- A plain document has no references to follow in any schema that is mapped. -/
private theorem Maps.notMem_visits {doc : Document} (hplain : doc.isPlain = true) {schema : Schema}
    {pointer : String} (h : doc.Maps schema pointer) (path : String) :
    .reference path ∉ schema.visits pointer := by
  simp only [isPlain, Bool.and_eq_true, List.isEmpty_iff, List.all_eq_true] at hplain
  obtain ⟨hschemas, hsites⟩ := hplain
  have hfree {site : Site} (hsite : site ∈ Site.all doc) {found : Schema × String}
      (hfound : found ∈ site.contents doc ++ (site.merged doc).filterMap fun parameter =>
        parameter.1.schemaAt? parameter.2) (path : String) :
      .reference path ∉ found.1.visits found.2 := by
    intro hvisit
    have hpath := Mapping.Visit.mem_paths.mpr hvisit
    rw [hsites site hsite found hfound] at hpath
    cases hpath
  -- No schema is mapped for a reference, so that the last case does not arise.
  induction h generalizing path with
  | component hmem =>
    rw [hschemas] at hmem
    cases hmem
  | parameter hsite hmerged _ hschema =>
    exact hfree hsite (List.mem_append_right _ (List.mem_filterMap.mpr ⟨_, hmerged, hschema⟩)) _
  | content hsite hcontent => exact hfree hsite (List.mem_append_left _ hcontent.mem_contents) _
  | target _ hvisit _ ih => exact absurd hvisit (ih _)

/-- It can be checked that all records of a document without references in schemas are written as
objects. -/
theorem asObjects_of_checks {doc : Document} {depth : Nat}
    (h : (Slot.record .document).checks doc depth doc.raw = true) (hplain : doc.isPlain = true) :
    doc.AsObjects := by
  have hreads (slot : Slot) (json : Json) (hreads : doc.Reads slot json) :
      ∃ depth, slot.checks doc depth json = true := by
    induction hreads with
    | document => exact ⟨depth, h⟩
    | inside _ hpart ih =>
      obtain ⟨_, hchecks⟩ := ih
      exact exists_checks hchecks hpart
    | target hmaps hvisit => exact absurd hvisit (hmaps.notMem_visits hplain _)
  intro kind items harray
  obtain ⟨depth, hchecks⟩ := hreads _ _ harray
  cases depth <;> rw [Slot.checks] at hchecks <;> cases hchecks

/-- Whether a value is read, and stands at a pointer. -/
structure Stands (doc : Document) (slot : Slot) (pointer : String) (json : Json) : Prop where
  value : doc.value? pointer = some json
  reads : doc.Reads slot json

end Document

/-! ### Places -/

namespace Document.Stands

variable {doc : Document} {slot next : Slot} {kind : RecordKind} {pointer name : String}
  {json part : Json} {members : List (String × Json)} {place : Nat} {α : Type}

theorem root (doc : Document) : doc.Stands (.record .document) "#" doc.raw :=
  ⟨doc.value?_root, .document⟩

theorem member (h : doc.Stands slot pointer (.object members))
    (hlookup : members.lookup name = some part)
    (hinside : (next, part) ∈ slot.inside doc (.object members)) :
    doc.Stands next (Reference.child pointer name) part :=
  ⟨(value?_child h.value name).trans hlookup, h.reads.inside hinside⟩

/-- A record with fields is an object. -/
theorem exists_object (hobjects : doc.AsObjects) (h : doc.Stands (.record kind) pointer json)
    (hfield : json.field? name place = some part) :
    ∃ members, json = .object members ∧ members.lookup name = some part := by
  cases json with
  | object members => exact ⟨members, rfl, hfield⟩
  | array items => exact absurd h.reads (hobjects kind items)
  | _ => cases hfield

/-- The fields of a record stand below it, if records are written as objects. -/
theorem field (hobjects : doc.AsObjects) (h : doc.Stands (.record kind) pointer json)
    (hslot : (name, next) ∈ kind.slots) (hfield : json.field? name place = some part) :
    doc.Stands next (Reference.child pointer name) part := by
  obtain ⟨members, rfl, hlookup⟩ := h.exists_object hobjects hfield
  refine h.member hlookup (List.mem_filterMap.mpr ⟨(name, next), hslot, ?_⟩)
  simp only [hlookup, Option.map_some]

/-- A field that was read from something, and not left out, stands below its record. -/
theorem exists_nullable (hobjects : doc.AsObjects) (h : doc.Stands (.record kind) pointer json)
    (hslot : (name, next) ∈ kind.slots) {value : Decoder α} {read : α}
    (hfills : json.Fills name place (readNullable value) none (some read)) :
    ∃ part, doc.Stands next (Reference.child pointer name) part ∧ value part = .ok read := by
  obtain ⟨part, hpart, hread⟩ := exists_of_fills hfills (Option.some_ne_none _)
  exact ⟨part, h.field hobjects hslot hpart, readNullable_eq_some hread⟩

theorem exists_entry (hdistinct : doc.raw.Distinct) (h : doc.Stands (.map next) pointer json)
    {item : Decoder α} {list : List (String × α)} (hread : readMap item json = .ok list)
    {entry : String × α} (hmem : entry ∈ list) :
    ∃ part, doc.Stands next (Reference.child pointer entry.1) part ∧
      item part = .ok entry.2 := by
  obtain ⟨members, rfl, hmembers⟩ := exists_members_of_readMap hread
  obtain ⟨member, hmember, hname, hitem⟩ := exists_of_mem_forall₂ hmembers.flip hmem
  have hnodup := (distinct_object.mp (distinct_value? hdistinct h.value)).1
  refine ⟨member.2, hname ▸ h.member (lookup_of_mem hnodup hmember) ?_, hitem⟩
  exact List.mem_map.mpr ⟨member, hmember, rfl⟩

theorem exists_item (h : doc.Stands (.list next) pointer json) {item : Decoder α} {list : List α}
    (hread : readList item json = .ok list) {i : Nat} {value : α}
    (hmem : (value, i) ∈ list.zipIdx) :
    ∃ part, doc.Stands next (Reference.child pointer (toString i)) part ∧
      item part = .ok value := by
  obtain ⟨items, rfl, hitems⟩ := exists_items_of_readList hread
  have hvalue := List.mk_mem_zipIdx_iff_getElem?.mp hmem
  obtain ⟨hlength, hall⟩ := List.forall₂_iff_get.mp hitems
  obtain ⟨hi, hget⟩ := List.getElem?_eq_some_iff.mp hvalue
  have hi' : i < items.length := hlength ▸ hi
  refine ⟨items[i], ⟨(value?_child h.value _).trans ?_, ?_⟩, ?_⟩
  · rw [child?, index?_toString, Option.bind_some, List.getElem?_eq_getElem hi']
  · exact h.reads.inside (List.mem_map.mpr ⟨items[i], List.getElem_mem hi', rfl⟩)
  · rw [← hget]
    exact hall i hi' hi

/-- What stands in a map that is a field of a record. -/
theorem exists_field_entry (hdistinct : doc.raw.Distinct) (hobjects : doc.AsObjects)
    (h : doc.Stands (.record kind) pointer json) (hslot : (name, .map next) ∈ kind.slots)
    {item : Decoder α} {list : List (String × α)}
    (hfills : json.Fills name place (readMap item) [] list) {entry : String × α}
    (hmem : entry ∈ list) :
    ∃ part, doc.Stands next (Reference.child (Reference.child pointer name) entry.1) part ∧
      item part = .ok entry.2 := by
  obtain ⟨field, hfield, hread⟩ := exists_of_fills hfills (List.ne_nil_of_mem hmem)
  exact (h.field hobjects hslot hfield).exists_entry hdistinct hread hmem

/-! ### Schemas -/

section Schema

variable {depth : Nat} {schema : Schema}

/-- The properties of a schema stand below it under their names. -/
private theorem exists_property (hdistinct : doc.raw.Distinct) (hobjects : doc.AsObjects)
    (h : doc.Stands (.record .schema) pointer json) {list : Option (List (String × Schema))}
    (hfills : json.Fills "properties" place (readNullable (readMap (Schema.readWithin depth))) none
      list)
    {part : Schema × String} (hpart : part ∈ (list.map fun list => list.map fun property =>
      (property.2, Reference.child (Reference.child pointer "properties") property.1)).getD []) :
    ∃ json, doc.Stands (.record .schema) part.2 json ∧
      Schema.readWithin depth json = .ok part.1 := by
  rcases list with _ | list
  · cases hpart
  · obtain ⟨property, hmem, rfl⟩ := List.mem_map.mp hpart
    have hslot : ("properties", .map (.record .schema)) ∈ RecordKind.schema.slots := by decide
    obtain ⟨field, hfield, hmap⟩ := h.exists_nullable hobjects hslot hfills
    exact hfield.exists_entry hdistinct hmap hmem

private theorem exists_rest (hobjects : doc.AsObjects)
    (h : doc.Stands (.record .schema) pointer json) {rest : Schema}
    (hfills : json.Fills "additionalProperties" place
      (readNullable (readAdditional (Schema.readWithin depth))) none (some (.schema rest))) :
    ∃ json, doc.Stands (.record .schema) (Reference.child pointer "additionalProperties") json ∧
      Schema.readWithin depth json = .ok rest := by
  have hslot : ("additionalProperties", .record .schema) ∈ RecordKind.schema.slots := by decide
  obtain ⟨field, hfield, hrest⟩ := h.exists_nullable hobjects hslot hfills
  exact ⟨field, hfield, readAdditional_eq_schema hrest⟩

private theorem exists_member (hobjects : doc.AsObjects)
    (h : doc.Stands (.record .schema) pointer json)
    (hslot : (name, .list (.record .schema)) ∈ RecordKind.schema.slots)
    {list : Option (List Schema)}
    (hfills : json.Fills name place (readNullable (readList (Schema.readWithin depth))) none list)
    {part : Schema × String} (hpart : part ∈ (list.map fun list => list.zipIdx.map fun member =>
      (member.1, Reference.child (Reference.child pointer name) (toString member.2))).getD []) :
    ∃ json, doc.Stands (.record .schema) part.2 json ∧
      Schema.readWithin depth json = .ok part.1 := by
  rcases list with _ | list
  · cases hpart
  · obtain ⟨⟨value, i⟩, hmem, rfl⟩ := List.mem_map.mp hpart
    obtain ⟨field, hfield, hread⟩ := h.exists_nullable hobjects hslot hfills
    exact hfield.exists_item hread hmem

/-- The schemas inside a schema stand in their places. -/
theorem exists_part (hdistinct : doc.raw.Distinct) (hobjects : doc.AsObjects)
    (h : doc.Stands (.record .schema) pointer json)
    (hread : Schema.readWithin depth json = .ok schema) {part : Schema × String}
    (hpart : part ∈ (schema.keywords pointer).parts) :
    ∃ depth json, doc.Stands (.record .schema) part.2 json ∧
      Schema.readWithin depth json = .ok part.1 := by
  rcases depth with _ | depth
  · cases hread
  have hjson := distinct_value? hdistinct h.value
  refine ⟨depth, ?_⟩
  -- One case for each keyword with schemas in it.
  simp only [Keywords.parts, List.mem_append, Schema.keywords] at hpart
  rcases hpart with ((((hpart | hpart) | hpart) | hpart) | hpart) | hpart
  · refine h.exists_property hdistinct hobjects (Schema.fills_properties hjson hread) ?_
    rcases hproperties : schema.properties with _ | list
    · rw [hproperties] at hpart
      cases hpart
    · rw [hproperties, Option.map_some, Option.getD_some, List.map_map] at hpart
      exact hpart
  · have hfills := Schema.fills_items hjson hread
    rcases hitems : schema.items with _ | item
    · rw [hitems] at hpart
      cases hpart
    · rw [hitems] at hpart hfills
      rw [Option.map_some, Option.toList_some, List.mem_singleton] at hpart
      rw [hpart]
      exact h.exists_nullable hobjects (by decide) hfills
  · exact h.exists_member hobjects (by decide) (Schema.fills_anyOf hjson hread) hpart
  · exact h.exists_member hobjects (by decide) (Schema.fills_oneOf hjson hread) hpart
  · exact h.exists_member hobjects (by decide) (Schema.fills_allOf hjson hread) hpart
  · have hfills := Schema.fills_additional hjson hread
    rcases hadditional : schema.additional with _ | value | rest
    · rw [hadditional] at hpart
      cases hpart
    · rw [hadditional] at hpart
      cases hpart
    · rw [hadditional] at hpart hfills
      simp only [Option.map_some, Keywords.rest, Option.toList_some, List.mem_singleton] at hpart
      rw [hpart]
      exact h.exists_rest hobjects hfills

/-- A fault inside a schema points into the schema. The mapper may take the schema to stand
elsewhere. -/
theorem exists_of_fault (hdistinct : doc.raw.Distinct) (hobjects : doc.AsObjects)
    (h : doc.Stands (.record .schema) pointer json)
    (hread : Schema.readWithin depth json = .ok schema) {place : String} {diagnostic : Diagnostic}
    (hfault : .fault diagnostic ∈ schema.visits place) :
    ∃ rest, diagnostic.pointer = place ++ rest ∧ (doc.value? (pointer ++ rest)).isSome := by
  revert pointer json depth
  refine Schema.induction (P := fun schema place => .fault diagnostic ∈ schema.visits place →
    ∀ {pointer json depth}, doc.Stands (.record .schema) pointer json →
      Schema.readWithin depth json = .ok schema →
        ∃ rest, diagnostic.pointer = place ++ rest ∧ (doc.value? (pointer ++ rest)).isSome)
    (fun schema place ih hfault {pointer json depth} h hread => ?_) schema place hfault
  rcases Mapping.Visit.of_mem_visits hfault with
    ⟨_, -, heq⟩ | ⟨part, hpart, hmem⟩ | ⟨_, heq⟩ | ⟨henum, _, heq⟩
  · cases heq
  · -- The part has one place below the schema for the mapper and another in the document.
    have hpart := Keywords.mem_parts_of_used hpart
    have hparts (place : String) : (schema.keywords place).parts =
        (schema.keywords "").parts.map fun part => (part.1, place ++ part.2) := by
      rw [← Keywords.parts_map, ← Schema.keywords_append, String.append_empty]
    have hinside := hpart
    rw [hparts place] at hinside
    obtain ⟨inner, hinner, rfl⟩ := List.mem_map.mp hinside
    have hmoved : (inner.1, pointer ++ inner.2) ∈ (schema.keywords pointer).parts := by
      rw [hparts pointer]
      exact List.mem_map_of_mem hinner
    obtain ⟨_, _, hstands, hvalue⟩ := h.exists_part hdistinct hobjects hread hmoved
    obtain ⟨rest, hrest, hsome⟩ := ih _ hpart hmem hstands hvalue
    exact ⟨inner.2 ++ rest, by rw [hrest, String.append_assoc], by rwa [← String.append_assoc]⟩
  · cases heq
    refine ⟨"", String.append_empty.symm, ?_⟩
    rw [String.append_empty, h.value]
    rfl
  · cases heq
    rcases depth with _ | depth
    · cases hread
    have hjson := distinct_value? hdistinct h.value
    obtain ⟨values, hvalues⟩ := Option.isSome_iff_exists.mp henum
    have hfills := Schema.fills_enumeration hjson hread
    rw [hvalues] at hfills
    obtain ⟨field, hfield, -⟩ := exists_of_fills hfills (Option.some_ne_none _)
    obtain ⟨members, rfl, hlookup⟩ := h.exists_object hobjects hfield
    refine ⟨"/" ++ Reference.encodeSegment "enum", ?_, ?_⟩
    · rw [Reference.child, String.append_assoc]
    · rw [← String.append_assoc, ← Reference.child, value?_child h.value, child?, hlookup]
      rfl

end Schema

end Document.Stands

end OpenApi

end ClientGen
