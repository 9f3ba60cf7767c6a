import ClientGen.Proofs.Client.Names
import ClientGen.Proofs.Mapping.Effects
import ClientGen.Proofs.OpenApi.Fields

/-!
# Completeness

The operations of a document can be read off its value without any mapping: they are the members of
the paths with the word of a method (`Written.all`). The endpoints of the document are exactly
these, in the same order, and each has exactly the statuses that are written for it
(`toApi_complete`), whatever else is in the document and whether or not its parts can be resolved.
-/

namespace ClientGen

open OpenApi Json

/-! ### Operations as they are written -/

/-- An operation as it is written. -/
structure Written where
  path : String
  method : Method
  value : Json

namespace Written

/-- Where an operation is written. -/
def pointer (operation : Written) : String :=
  Reference.child (Reference.child "#/paths" operation.path) operation.method.key

/-- The operations on a path whose value is `item`. -/
def onPath (path : String) (item : Json) : List Written :=
  (operationMembers (membersOf (some item))).map fun (method, value) => ⟨path, method, value⟩

/-- The operations in the value of a document: each member of a path with the word of a method, in
order. -/
def all (json : Json) : List Written :=
  (membersOf (json.field? "paths" 1)).flatMap fun (path, item) => onPath path item

/-- The statuses of an operation, with their responses. -/
def responses (operation : Written) : List (String × Json) :=
  membersOf (operation.value.field? "responses" 4)

/-- Whether a site is that of an operation as it is written. -/
structure Describes (operation : Written) (site : Site) : Prop where
  path : site.path = operation.path
  method : site.method = operation.method
  pointer : site.pointer = operation.pointer
  distinct : operation.value.Distinct
  read : Operation.read operation.value = .ok site.operation

end Written

section Sites

variable {json : Json}

/-- An operation repeats no keys if the path item that it is a member of does not. -/
private theorem distinct_of_mem_operationMembers {members : List (String × Json)}
    (hdistinct : ∀ member ∈ members, member.2.Distinct) :
    ∀ operation ∈ operationMembers members, operation.2.Distinct := by
  intro operation hoperation
  obtain ⟨member, hmember, hmethod⟩ := List.mem_filterMap.mp hoperation
  obtain ⟨method, -, rfl⟩ := Option.map_eq_some_iff.mp hmethod
  exact hdistinct member hmember

/-- The operations on a path are those that are written there. -/
private theorem describes_onPath {path : String} {item : Json} (hitem : item.Distinct)
    {read : PathItem} (h : PathItem.read item = .ok read) :
    List.Forall₂ Written.Describes (Written.onPath path item)
      (read.operations.map fun (method, operation) =>
        let pathPointer := Reference.child "#/paths" path
        ⟨path, pathPointer, method, Reference.child pathPointer method.key, read.parameters,
          operation⟩) := by
  obtain ⟨members, rfl, hoperations⟩ := PathItem.exists_operations h
  have hdistinct := distinct_of_mem_operationMembers (distinct_object.mp hitem).2
  refine List.forall₂_map_left_iff.mpr (List.forall₂_map_right_iff.mpr ?_)
  refine ((List.forall₂_and_left _ _).mpr ⟨hdistinct, hoperations⟩).imp ?_
  rintro ⟨_, value⟩ ⟨method, operation⟩ ⟨hvalue, rfl, hread⟩
  exact ⟨rfl, rfl, rfl, hvalue, hread⟩

/-- The operations of a document are those that are written. -/
theorem describes_all (hjson : json.Distinct) {doc : Document}
    (h : Document.ofJson json = .ok doc) :
    List.Forall₂ Written.Describes (Written.all json) (Site.all doc) := by
  have hpaths := forall₂_of_fills (Document.fills_paths hjson h)
  refine List.rel_flatMap ((List.forall₂_and_left _ _).mpr ⟨hjson.of_mem_membersOf, hpaths⟩) ?_
  rintro ⟨_, item⟩ ⟨path, read⟩ ⟨hitem, rfl, hread⟩
  exact describes_onPath hitem hread

/-- The statuses of an operation are those that are written. -/
theorem Written.Describes.responses {operation : Written} {site : Site}
    (h : operation.Describes site) :
    List.Forall₂ (fun member response => response.1 = member.1 ∧
      readReferable Response.read member.2 = .ok response.2)
      operation.responses site.operation.responses :=
  forall₂_of_fills (Operation.fills_responses h.distinct h.read)

end Sites

/-! ### Endpoints -/

namespace Mapping

/-- Whether an endpoint is that of an operation as it is written, with all its statuses; a response
that is a reference to nothing that can be read keeps its status, without a type. -/
structure Complete (doc : Document) (operation : Written) (endpoint : Endpoint) : Prop where
  method : endpoint.method = operation.method
  path : endpoint.path = PathTemplate.parse operation.path
  /-- The path is also kept as it is written. -/
  raw : endpoint.path.raw = operation.path
  statuses : Ordered.keys endpoint.responses = Ordered.keys operation.responses
  unresolved : ∀ response ∈ operation.responses, ∀ path, refPath? response.2 = some path →
    doc.resolve? "responses" doc.responses Response.read (.reference path) = none →
      (response.1, none) ∈ endpoint.responses

/-- Lists that have the same names item by item have the same names. -/
private theorem keys_eq_of_forall₂ {α β : Type} {first : List (String × α)}
    {second : List (String × β)} (h : List.Forall₂ (fun a b => b.1 = a.1) first second) :
    Ordered.keys second = Ordered.keys first := by
  induction h with
  | nil => rfl
  | cons hfirst _ ih => exact congrArg₂ List.cons hfirst ih

/-- An endpoint is complete if it gives what the mapper makes of an operation that describes what
was written. -/
private theorem complete_of_gives {doc : Document} (hclosed : doc.Closed) {operation : Written}
    {site : Site} {endpoint : Endpoint} (hdescribes : operation.Describes site)
    (hgives : Gives doc site endpoint) : Complete doc operation endpoint := by
  obtain ⟨before, base, hidle, hresponses, -⟩ := hgives.responses
  have hentries := forall₂_siteResponses hclosed site base hidle
  rw [hresponses] at hentries
  have hmembers := hdescribes.responses
  constructor
  · exact hgives.method.trans hdescribes.method
  · rw [hgives.path, hdescribes.path]
  · rw [hgives.path]
    exact hdescribes.path
  · have hentryKeys := keys_eq_of_forall₂ (hentries.imp fun _ _ hentry => hentry.1)
    exact hentryKeys.trans (keys_eq_of_forall₂ (hmembers.imp fun _ _ hmember => hmember.1))
  · intro response hresponse path hpath hunresolved
    obtain ⟨declared, hdeclared, hstatus, hread⟩ := exists_of_mem_forall₂ hmembers hresponse
    obtain ⟨entry, hentry, hkey, _, _, htype, -⟩ := exists_of_mem_forall₂ hentries hdeclared
    -- What has a path is read as a reference, and no type is found for it.
    have hreference : declared.2 = .reference path := by
      rw [readReferable, hpath] at hread
      exact (Except.ok.inj hread).symm
    rw [hreference, mapResponse_of_unresolved hunresolved] at htype
    have hnone : entry = (response.1, none) := Prod.ext (hkey.trans hstatus) htype.symm
    exact hnone ▸ hentry

/-- **Completeness.** The endpoints of a document are exactly the operations that are written in
its value, in the same order, each with the method, the path and the statuses that are written for
it; and no two of them have one name. -/
theorem toApi_complete {text : String} {doc : Document} (h : Document.ofText text = .ok doc) :
    List.Forall₂ (Complete doc) (Written.all doc.raw) (Document.toApi doc).endpoints ∧
      ((Document.toApi doc).endpoints.map Endpoint.name).Nodup := by
  obtain ⟨hdistinct, hdoc⟩ := Document.of_ofText h
  have hclosed := Document.closed_ofJson hdoc
  have hplaced := Document.placed_ofJson hdistinct hdoc
  refine ⟨?_, nodup_endpointNames hplaced⟩
  refine (forall₂_trans (describes_all hdistinct hdoc) (forall₂_endpoints hclosed)).imp ?_
  rintro operation endpoint ⟨site, hdescribes, hgives⟩
  exact complete_of_gives hclosed hdescribes hgives

/-- The text of a document with two operations of one name, members that are no operations, and a
response that refers to nothing. -/
def crowdedText : String := Text.concat [
  "\x7b\"paths\":\x7b\"/b\":\x7b\"put\":\x7b\"operationId\":\"a\",",
  "\"responses\":\x7b\"404\":\x7b\x7d,",
  "\"200\":\x7b\"$ref\":\"#/components/responses/None\"\x7d\x7d\x7d,",
  "\"x-note\":1,\"parameters\":[],\"get\":\x7b\"operationId\":\"a\"\x7d\x7d,",
  "\"/a\":\x7b\"GET\":[],\"trace\":\x7b\x7d\x7d\x7d\x7d"]

/-- Three operations stand between members that are none, and two of them have the same identifier:
each has its endpoint, in the order in which they are written. -/
theorem toApi_complete_crowded :
    ∃ doc, Document.ofText crowdedText = .ok doc ∧
      (Written.all doc.raw).map (fun operation => (operation.path, operation.method)) =
        [("/b", .put), ("/b", .get), ("/a", .trace)] ∧
      List.Forall₂ (Complete doc) (Written.all doc.raw) (Document.toApi doc).endpoints ∧
      (Document.toApi doc).endpoints.map (fun endpoint => (endpoint.path.raw, endpoint.method)) =
        [("/b", .put), ("/b", .get), ("/a", .trace)] ∧
      ((Document.toApi doc).endpoints.map Endpoint.name).Nodup := by
  obtain ⟨doc, hdoc, hwritten⟩ : ∃ doc, Document.ofText crowdedText = .ok doc ∧
      (Written.all doc.raw).map (fun operation => (operation.path, operation.method)) =
        [("/b", .put), ("/b", .get), ("/a", .trace)] :=
    Document.exists_of_chars (by repeat' constructor) (by decide +kernel)
  obtain ⟨hcomplete, hnodup⟩ := toApi_complete hdoc
  have hpairs : (Written.all doc.raw).map (fun operation => (operation.path, operation.method)) =
      (Document.toApi doc).endpoints.map fun endpoint => (endpoint.path.raw, endpoint.method) :=
    List.forall₂_eq_eq_eq ▸ List.forall₂_map_left_iff.mpr (List.forall₂_map_right_iff.mpr
      (hcomplete.imp fun _ _ h => Prod.ext h.raw.symm h.method.symm))
  exact ⟨doc, hdoc, hwritten, hcomplete, hpairs ▸ hwritten, hnodup⟩

end Mapping

end ClientGen
