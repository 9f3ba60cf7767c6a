import ClientGen.Proofs.Mapping.Completeness
import ClientGen.Proofs.Mapping.Parameters
import ClientGen.Proofs.Mapping.Unknown
import ClientGen.Proofs.OpenApi.Nodes
import ClientGen.Proofs.OpenApi.Source

/-!
# Responses and bodies behind references

What an endpoint has for a response or a body is determined by one node of the document: what is
written for it, or what the reference names that is written for it (`Finds`). Nothing is lost
silently on this one step: a node that cannot be read is recorded, a node with a schema for its
preferred media type gives the type of the schema, and that type is recorded if it is unknown. But
it is the only step. If the node is a reference itself, it counts as an object without content, and
what it denotes is lost.
-/

namespace ClientGen

open OpenApi Json

/-! ### Bodies and responses as they are written -/

namespace Written

/-- Where the response to a status is written. -/
def responsePointer (operation : Written) (status : String) : String :=
  Reference.child (Reference.child operation.pointer "responses") status

/-- Where the body is written. -/
def bodyPointer (operation : Written) : String :=
  Reference.child operation.pointer "requestBody"

/-- What is written for the body; `null` is no body. -/
def body? (operation : Written) : Option Json :=
  match operation.value.field? "requestBody" 3 with
  | some .null => none
  | found => found

variable {operation : Written} {site : Site}

theorem Describes.responsePointer (h : operation.Describes site) (status : String) :
    site.responsePointer status = operation.responsePointer status := by
  rw [Site.responsePointer, Written.responsePointer, h.pointer]

theorem Describes.bodyPointer (h : operation.Describes site) :
    site.bodyPointer = operation.bodyPointer := by
  rw [Site.bodyPointer, Written.bodyPointer, h.pointer]

/-- The body of an operation is what is written for it. -/
theorem Describes.body (h : operation.Describes site) :
    (operation.body? = none ∧ site.operation.requestBody = none) ∨
      ∃ json body, operation.body? = some json ∧ site.operation.requestBody = some body ∧
        readReferable RequestBody.read json = .ok body := by
  have hfills := Operation.fills_requestBody h.distinct h.read
  rw [Fills] at hfills
  rw [body?]
  rcases hfield : operation.value.field? "requestBody" 3 with _ | json
  · rw [hfield] at hfills
    exact Or.inl ⟨rfl, hfills⟩
  · rw [hfield] at hfills
    -- A body that is `null` was not declared.
    rcases hbody : site.operation.requestBody with _ | body
    · rw [hbody] at hfills
      rw [eq_null_of_readNullable hfills]
      exact Or.inl ⟨rfl, rfl⟩
    · rw [hbody] at hfills
      have hread := readNullable_eq_some hfills
      refine Or.inr ⟨json, body, ?_, rfl, hread⟩
      cases json with
      | null => cases hfills
      | _ => rfl

end Written

namespace Mapping

/-! ### One step -/

/-- Whether a type is that of a schema at a key: the reference to the entry with the key, or else
the outline of the schema. If it is unknown, then a fault in the schema is recorded. -/
structure HasType (doc : Document) (schema : Schema) (key : String) (type : Descriptor) : Prop where
  outline : (∃ name, type = .reference key name) ∨ ∀ name, type.named name = schema.outline name
  recorded : type = .unknown → ∃ diagnostic ∈ (Document.toApi doc).diagnostics,
    .fault diagnostic ∈ schema.visits key

/-- What is found for what is written at a pointer: nothing, or a value and its type. -/
inductive Finds {α : Type} (area : Area α) (content : α → List (String × MediaType))
    (reason : Degradation) (doc : Document) (pointer : String) (json : Json) :
    Option (α × Option Descriptor) → Prop
  /-- The node one step away is not there or cannot be read, and this is recorded. -/
  | unresolved
      (hnode : ((area.step? doc json).bind fun node => (area.read node).toOption) = none)
      (hrecorded : ⟨pointer, reason⟩ ∈ (Document.toApi doc).diagnostics) :
      Finds area content reason doc pointer json none
  /-- The node has a schema for its preferred media type. -/
  | typed {node : Json} {value : α} {schema : Schema} {key : String} {type : Descriptor}
      (hnode : area.step? doc json = some node) (hread : area.read node = .ok value)
      (hcontent : contentAt? (content value) ((refPath? json).getD pointer) = some (schema, key))
      (htype : HasType doc schema key type) :
      Finds area content reason doc pointer json (some (value, some type))
  /-- The node is what is denoted in the end, and has no such schema. -/
  | empty {node : Json} {value : α} (hnode : area.step? doc json = some node)
      (hdenotes : area.Denotes doc json node) (hread : area.read node = .ok value)
      (hcontent : contentAt? (content value) ((refPath? json).getD pointer) = none) :
      Finds area content reason doc pointer json (some (value, none))
  /-- The node is a reference itself without such a schema beside it. What it denotes is lost. -/
  | lost {node : Json} {value : α} {path : String} (hnode : area.step? doc json = some node)
      (hpath : refPath? node = some path) (hread : area.read node = .ok value)
      (hcontent : contentAt? (content value) ((refPath? json).getD pointer) = none) :
      Finds area content reason doc pointer json (some (value, none))

/-- The format of the body and the body as a parameter. -/
def bodyOf : Option (RequestBody × Option Descriptor) → RequestFormat × List EndpointParameter
  | none => (.json, [])
  | some (value, type) =>
    (bodyFormat value.content, [⟨"body", .body, type.getD .unknown, value.required⟩])

/-- What an endpoint has for the responses and the body that are written for its operation. -/
structure Answers (doc : Document) (operation : Written) (endpoint : Endpoint) : Prop where
  responses : List.Forall₂ (fun member entry => entry.1 = member.1 ∧ ∃ found,
    Finds Area.responses Response.content .unresolvedResponse doc
      (operation.responsePointer member.1) member.2 found ∧ entry.2 = found.bind Prod.snd)
    operation.responses endpoint.responses
  /-- The parameters of the endpoint are followed by the body. -/
  body : ∃ others body, endpoint.parameters = others ++ body ∧
    (∀ parameter ∈ others, parameter.location ≠ .body) ∧
    match operation.body? with
    | none => (endpoint.requestFormat, body) = (.json, [])
    | some json => ∃ found, Finds Area.requestBodies RequestBody.content .unresolvedBody doc
        operation.bodyPointer json found ∧ (endpoint.requestFormat, body) = bodyOf found

section Types

variable {doc : Document} (hclosed : doc.Closed)
include hclosed

/-- Content that is mapped between two schemas has the type that it gives, as long as no diagnostic
is lost afterwards. -/
private theorem hasType_mapHoisted {schema : Schema} {key base : String} {state : Mapping}
    (hidle : Idle doc state)
    (hsubset : ((mapHoisted doc schema key base).run state).2.diagnostics ⊆
      (Document.toApi doc).diagnostics) :
    HasType doc schema key ((mapHoisted doc schema key base).run state).1 := by
  -- The content is mapped here, and hoisted if its type is complex, or it was hoisted before.
  rcases hhoisted : state.hoisted? key with _ | type
  · rw [mapHoisted_of_not_hoisted hhoisted] at hsubset ⊢
    obtain ⟨log, later, -, hrun⟩ := mapSchema_run hclosed schema key hidle.coherent
    have hunknown : ((mapSchema doc schema key).run state).1 = .unknown →
        ∃ diagnostic ∈ ((mapSchema doc schema key).run state).2.diagnostics,
          .fault diagnostic ∈ schema.visits key :=
      exists_diagnostic_of_unknown hclosed hidle.coherent
    rw [hrun] at hunknown
    rw [StateT.run_bind, hrun] at hsubset ⊢
    simp only [bind] at hsubset ⊢
    split_ifs at hsubset ⊢
    · exact ⟨Or.inl ⟨_, rfl⟩, fun hreference => Descriptor.noConfusion hreference⟩
    · refine ⟨Or.inr fun name => Outline.outline_named _ name schema, fun h => ?_⟩
      obtain ⟨diagnostic, hmem, hfault⟩ := hunknown h
      exact ⟨diagnostic, hsubset hmem, hfault⟩
  · rw [mapHoisted_of_hoisted hhoisted]
    rw [Mapping.hoisted?] at hhoisted
    split_ifs at hhoisted
    obtain ⟨entry, hget, rfl⟩ := Option.map_eq_some_iff.mp hhoisted
    refine ⟨Or.inl ⟨entry.name, ?_⟩, fun hreference => Descriptor.noConfusion hreference⟩
    rw [Table.key_of_get? hget]

end Types

/-! ### What is found -/

section Finds

variable {α : Type} (area : Area α) {content : α → List (String × MediaType)}
  {reason : Degradation} {doc : Document} {pointer : String} {json : Json} {declared : Referable α}
  (hdistinct : doc.raw.Distinct) (hdoc : Document.ofJson doc.raw = .ok doc)
  (hread : readReferable area.read json = .ok declared)
include hread

/-- What is declared stands at its pointer, or where its reference leads. -/
private theorem place_eq : declared.place pointer = (refPath? json).getD pointer := by
  rw [readReferable] at hread
  rcases hpath : refPath? json with _ | path
  · rw [hpath] at hread
    rcases hvalue : area.read json with error | value
    · rw [hvalue] at hread
      cases hread
    · rw [hvalue] at hread
      cases hread
      rfl
  · rw [hpath] at hread
    cases hread
    rfl

include hdistinct hdoc

/-- Nothing is found in what cannot be resolved, and this is on record. -/
private theorem finds_of_unresolved
    (hresolve : doc.resolve? area.name (area.components doc) area.read declared = none)
    (hrecorded : ⟨pointer, reason⟩ ∈ (Document.toApi doc).diagnostics) :
    Finds area content reason doc pointer json none := by
  rw [Area.resolve?_eq hdistinct hdoc hread] at hresolve
  exact .unresolved hresolve hrecorded

/-- What can be resolved was read from a node, one step further at most. -/
private theorem exists_node {value : α}
    (hresolve : doc.resolve? area.name (area.components doc) area.read declared = some value) :
    ∃ node, area.step? doc json = some node ∧ area.read node = .ok value := by
  rw [Area.resolve?_eq hdistinct hdoc hread] at hresolve
  obtain ⟨node, hnode, hvalue⟩ := Option.bind_eq_some_iff.mp hresolve
  exact ⟨node, hnode, eq_ok_of_toOption hvalue⟩

/-- The type of its content is found in what can be resolved. -/
private theorem finds_of_typed {value : α}
    (hresolve : doc.resolve? area.name (area.components doc) area.read declared = some value)
    {schema : Schema} {key : String} {type : Descriptor}
    (hcontent : contentAt? (content value) (declared.place pointer) = some (schema, key))
    (htype : HasType doc schema key type) :
    Finds area content reason doc pointer json (some (value, some type)) := by
  obtain ⟨node, hnode, hvalue⟩ := exists_node area hdistinct hdoc hread hresolve
  exact .typed hnode hvalue (place_eq area hread ▸ hcontent) htype

private theorem finds_of_untyped {value : α}
    (hresolve : doc.resolve? area.name (area.components doc) area.read declared = some value)
    (hcontent : contentAt? (content value) (declared.place pointer) = none) :
    Finds area content reason doc pointer json (some (value, none)) := by
  obtain ⟨node, hnode, hvalue⟩ := exists_node area hdistinct hdoc hread hresolve
  rw [place_eq area hread] at hcontent
  rcases hpath : refPath? node with _ | path
  · refine .empty hnode ?_ hvalue hcontent
    rw [Area.step?] at hnode
    split at hnode
    next path hreference => exact .reference hreference hnode (.node hpath)
    next =>
      cases hnode
      exact .node hpath
  · exact .lost hnode hpath hvalue hcontent

end Finds

/-! ### Endpoints -/

section Endpoints

variable {doc : Document} (hdistinct : doc.raw.Distinct)
  (hdoc : Document.ofJson doc.raw = .ok doc)
include hdistinct hdoc

/-- The type of a response is the one found in what was written for it. -/
private theorem exists_response {json : Json} {response : Referable Response}
    (hread : readReferable Response.read json = .ok response) {pointer base status : String}
    {before : Mapping} (hidle : Idle doc before)
    (hsubset : ((mapResponse doc response pointer base status).run before).2.diagnostics ⊆
      (Document.toApi doc).diagnostics) :
    ∃ found, Finds Area.responses Response.content .unresolvedResponse doc pointer json found ∧
      ((mapResponse doc response pointer base status).run before).1 = found.bind Prod.snd := by
  have hclosed := Document.closed_ofJson hdoc
  rcases hresolve : doc.resolve? "responses" doc.responses Response.read response with _ | value
  · rw [mapResponse_of_unresolved hresolve] at hsubset ⊢
    -- The diagnostic is the last one that is added, and it is not lost afterwards.
    have hlast : (⟨pointer, .unresolvedResponse⟩ : Diagnostic) ∈
        before.diagnostics ++ [⟨pointer, .unresolvedResponse⟩] :=
      List.mem_append_right _ (List.mem_singleton_self _)
    exact ⟨none, finds_of_unresolved Area.responses hdistinct hdoc hread hresolve (hsubset hlast),
      rfl⟩
  · rw [mapResponse_of_resolved hresolve] at hsubset ⊢
    rcases hcontent : contentAt? value.content (response.place pointer) with _ | ⟨schema, key⟩
    · exact ⟨_, finds_of_untyped Area.responses hdistinct hdoc hread hresolve hcontent, rfl⟩
    · rw [hcontent] at hsubset
      have htype := hasType_mapHoisted hclosed hidle hsubset
      exact ⟨_, finds_of_typed Area.responses hdistinct hdoc hread hresolve hcontent htype, rfl⟩

private theorem exists_body {json : Json} {body : Referable RequestBody}
    (hread : readReferable RequestBody.read json = .ok body) {site : Site}
    (hbody : site.operation.requestBody = some body) {base : String} {before : Mapping}
    (hidle : Idle doc before)
    (hsubset : ((siteBody doc site base).run before).2.diagnostics ⊆
      (Document.toApi doc).diagnostics) :
    ∃ found, Finds Area.requestBodies RequestBody.content .unresolvedBody doc site.bodyPointer json
      found ∧ ((siteBody doc site base).run before).1 = bodyOf found := by
  have hclosed := Document.closed_ofJson hdoc
  have hbodyPointer : Reference.child site.pointer "requestBody" = site.bodyPointer := rfl
  rw [siteBody, hbody] at hsubset ⊢
  simp only [hbodyPointer] at hsubset ⊢
  rcases hresolve : doc.resolve? "requestBodies" doc.requestBodies RequestBody.read body with
    _ | value
  · rw [mapBody_of_unresolved hresolve] at hsubset ⊢
    -- The diagnostic is the last one that is added, and it is not lost afterwards.
    have hlast : (⟨site.bodyPointer, .unresolvedBody⟩ : Diagnostic) ∈
        before.diagnostics ++ [⟨site.bodyPointer, .unresolvedBody⟩] :=
      List.mem_append_right _ (List.mem_singleton_self _)
    exact ⟨none, finds_of_unresolved Area.requestBodies hdistinct hdoc hread hresolve
      (hsubset hlast), rfl⟩
  · rw [mapBody_of_resolved hresolve] at hsubset ⊢
    rcases hcontent : contentAt? value.content (body.place site.bodyPointer) with
      _ | ⟨schema, key⟩
    · exact ⟨_, finds_of_untyped Area.requestBodies hdistinct hdoc hread hresolve hcontent, rfl⟩
    · rw [hcontent] at hsubset
      have htype := hasType_mapHoisted hclosed hidle hsubset
      exact ⟨_, finds_of_typed Area.requestBodies hdistinct hdoc hread hresolve hcontent htype, rfl⟩

/-- An endpoint answers what was written if it gives what the mapper makes of the operation that
this describes. -/
private theorem answers_of_gives {operation : Written} {site : Site} {endpoint : Endpoint}
    (hdescribes : operation.Describes site) (hgives : Gives doc site endpoint) :
    Answers doc operation endpoint := by
  have hclosed := Document.closed_ofJson hdoc
  constructor
  · obtain ⟨before, base, hidle, hresponses, hsubset⟩ := hgives.responses
    have hentries := forall₂_siteResponses hclosed site base hidle
    rw [hresponses] at hentries
    refine (forall₂_trans hdescribes.responses hentries).imp ?_
    rintro member entry ⟨response, ⟨hstatus, hread⟩, hkey, before, hidle, hentry, hlater⟩
    -- What was written and what was read have the same status and the same place.
    rw [hstatus, hdescribes.responsePointer] at hentry hlater
    obtain ⟨found, hfinds, heq⟩ := exists_response hdistinct hdoc hread hidle
      (List.Subset.trans hlater hsubset)
    exact ⟨hkey.trans hstatus, found, hfinds, hentry ▸ heq⟩
  · obtain ⟨parameters, body, hall, ⟨state, hidle, rfl⟩, before, base, hidle', hbody, hsubset⟩ :=
      hgives.parameters
    refine ⟨_, body, hall, ne_body_of_mem_siteParameters hclosed site hidle, ?_⟩
    rcases hdescribes.body with ⟨hnone, hdeclared⟩ | ⟨json, declared, hsome, hdeclared, hread⟩
    · rw [hnone, ← hbody, siteBody, hdeclared]
      rfl
    · rw [hsome, ← hbody, ← hdescribes.bodyPointer]
      exact exists_body hdistinct hdoc hread hdeclared hidle' hsubset

end Endpoints

/-- **Responses and bodies.** Every endpoint has for its responses and its body what is found one
step from where they are written. -/
theorem toApi_answers {text : String} {doc : Document} (h : Document.ofText text = .ok doc) :
    List.Forall₂ (Answers doc) (Written.all doc.raw) (Document.toApi doc).endpoints := by
  obtain ⟨hdistinct, hdoc⟩ := Document.of_ofText h
  have hclosed := Document.closed_ofJson hdoc
  refine (forall₂_trans (describes_all hdistinct hdoc) (forall₂_endpoints hclosed)).imp ?_
  rintro operation endpoint ⟨site, hdescribes, hgives⟩
  exact answers_of_gives hdistinct hdoc hdescribes hgives

/-- The text of a document with a response that is a reference to a reference. -/
def chainedText : String := Text.concat [
  "\x7b\"paths\":\x7b\"/\":\x7b\"get\":",
  "\x7b\"responses\":\x7b\"200\":\x7b\"$ref\":\"#/a\"\x7d\x7d\x7d\x7d\x7d,",
  "\"a\":\x7b\"$ref\":\"#/b\"\x7d,",
  "\"b\":\x7b\"content\":\x7b\"t\":\x7b\"schema\":\x7b\"type\":\"string\"\x7d\x7d\x7d\x7d\x7d"]

/-- The response of the document denotes one with a schema, but has no type, and nothing is
recorded. -/
private theorem exists_chained :
    ∃ doc, Document.ofText chainedText = .ok doc ∧
      (Document.toApi doc).diagnostics.isEmpty = true ∧
      (∃ operation ∈ Written.all doc.raw, ∃ member ∈ operation.responses,
        refPath? member.2 = some "#/a") ∧
      ((Area.responses.node? doc "#/a").map refPath? = some (some "#/b")) ∧
      ((Area.responses.node? doc "#/b").map fun node => (refPath? node,
        (Response.read node).toOption.map fun value => (contentAt? value.content "").isSome)) =
          some (none, some true) ∧
      ∀ endpoint ∈ (Document.toApi doc).endpoints, ∀ entry ∈ endpoint.responses,
        entry.2.isNone = true :=
  Document.exists_of_chars (by repeat' constructor) (by decide +kernel)

/-- A response that is named by a reference to a reference is answered as it was written, with no
content. -/
theorem toApi_answers_chained :
    ∃ doc, Document.ofText chainedText = .ok doc ∧ Written.all doc.raw ≠ [] ∧
      List.Forall₂ (Answers doc) (Written.all doc.raw) (Document.toApi doc).endpoints := by
  obtain ⟨doc, hdoc, -, ⟨operation, hoperation, -⟩, -⟩ := exists_chained
  exact ⟨doc, hdoc, List.ne_nil_of_mem hoperation, toApi_answers hdoc⟩

/-- A response without a type need not be recorded, nor denote a response without a schema. -/
theorem not_forall_recorded_or_denotes :
    ¬∀ text doc, Document.ofText text = .ok doc → List.Forall₂ (fun operation endpoint =>
      List.Forall₂ (fun member entry => entry.2 = none →
        (∃ diagnostic ∈ (Document.toApi doc).diagnostics,
          diagnostic.pointer = operation.responsePointer member.1) ∨
        ∃ final value, Area.responses.Denotes doc member.2 final ∧
          Response.read final = .ok value ∧ contentAt? value.content "" = none)
        operation.responses endpoint.responses)
      (Written.all doc.raw) (Document.toApi doc).endpoints := by
  intro hall
  obtain ⟨doc, hdoc, hdiagnostics, ⟨operation, hoperation, member, hmember, hpath⟩, hfirst, hsecond,
    hnone⟩ := exists_chained
  obtain ⟨endpoint, hendpoint, hresponses⟩ :=
    exists_of_mem_forall₂ (hall chainedText doc hdoc) hoperation
  obtain ⟨entry, hentry, himp⟩ := exists_of_mem_forall₂ hresponses hmember
  obtain ⟨other, hother, hotherPath⟩ := Option.map_eq_some_iff.mp hfirst
  obtain ⟨answer, hanswer, hcontent⟩ := Option.map_eq_some_iff.mp hsecond
  obtain ⟨hanswerPath, hsome⟩ := Prod.mk.inj hcontent
  rcases himp (Option.isNone_iff_eq_none.mp (hnone endpoint hendpoint entry hentry)) with
    ⟨diagnostic, hmem, -⟩ | ⟨final, value, hdenotes, hread, hempty⟩
  · rw [List.isEmpty_iff.mp hdiagnostics] at hmem
    cases hmem
  · have hfinal := ((hdenotes.next hpath hother).next hotherPath hanswer).eq hanswerPath
    rw [← hfinal, hread] at hsome
    change some (contentAt? value.content "").isSome = some true at hsome
    rw [hempty] at hsome
    cases hsome

end Mapping

end ClientGen
