import ClientGen.Proofs.Mapping.Exact
import ClientGen.Proofs.Mapping.Parameters

/-!
# Sharing of bodies and responses

An operation uses the schema of a body or response at the place where that stands, which is its own
place or the one that a reference names (`use?`). The uses of all operations, one after another, are
recorded with the states in which they happen (`traces`), and the endpoints show what they come to.

If all records are written as objects, no use gives a complex type (`toApi_hoists`): if the type of
the schema is complex, there is an entry with it, and the reference to the entry is given. Uses of
one place have one schema and one key, and after the first of them with a complex type the others
leave the state alone: what happens in between extends the state (`Timeline`), and the entry of a
key is the same however it came to be (`Exact`).
-/

namespace ClientGen.Mapping

open OpenApi Json

/-! ### Traces -/

/-- The use of what is declared at a pointer, if it can be resolved and has a schema for its
preferred media type. -/
def use? {α : Type} (area : Area α) (content : α → List (String × MediaType)) (doc : Document)
    (declared : Referable α) (pointer base : String) (before : Mapping) : Option Use := do
  let value ← doc.resolve? area.name (area.components doc) area.read declared
  let (schema, key) ← contentAt? (content value) (declared.place pointer)
  let name := (hoistSite area.name pointer base declared).2
  return ⟨declared.place pointer, schema, key, name, before⟩

/-- The use of the body of an operation. -/
def bodyUse? (doc : Document) (site : Site) (base : String) (before : Mapping) : Option Use :=
  site.operation.requestBody.bind fun body =>
    use? Area.requestBodies RequestBody.content doc body site.bodyPointer (base ++ "Body") before

/-- The use of a response of an operation. -/
def responseUse? (doc : Document) (site : Site) (base status : String)
    (response : Referable Response) (before : Mapping) : Option Use :=
  use? Area.responses Response.content doc response (site.responsePointer status)
    (base ++ "Response" ++ Identifier.pascalCase status) before

/-- What an operation uses. -/
structure Trace where
  body : Option Use
  /-- Statuses with the uses of their responses. -/
  responses : List (String × Option Use)

/-- The uses of an operation, in order. -/
def Trace.uses (trace : Trace) : List Use :=
  trace.body.toList ++ trace.responses.flatMap fun response => response.2.toList

/-- The uses of responses, one after another. -/
def responseUses (doc : Document) (site : Site) (base : String) :
    List (String × Referable Response) → Mapping → List (String × Option Use)
  | [], _ => []
  | (status, response) :: more, state =>
    (status, responseUse? doc site base status response state) ::
      responseUses doc site base more
        ((mapResponse doc response (site.responsePointer status) base status).run state).2

/-- What an operation uses that is mapped in a state. -/
def siteTrace (doc : Document) (site : Site) (name : String) (state : Mapping) : Trace :=
  let base := site.typeBase name
  let state := ((siteParameters doc site).run state).2
  { body := bodyUse? doc site base state
    responses := responseUses doc site base site.operation.responses
      ((siteBody doc site base).run state).2 }

/-- What operations use, one after another. -/
def siteTraces (doc : Document) : List (Site × String) → Mapping → List Trace
  | [], _ => []
  | (site, name) :: more, state =>
    siteTrace doc site name state :: siteTraces doc more ((mapSite doc site name).run state).2

/-- What the operations of a document use. -/
def traces (doc : Document) : List Trace :=
  siteTraces doc (Site.withNames {} (Site.all doc)) ((mapComponents doc).run (start doc)).2

/-- All uses in a document, in order. -/
def uses (doc : Document) : List Use :=
  (traces doc).flatMap Trace.uses

/-- The type that a use gives, if there is a use. -/
def given? (doc : Document) (use : Option Use) : Option Descriptor :=
  use.map fun use => (use.outcome doc).1

/-- Whether parameters are for a body: one with the type that the use of it gives, and if there is
no use, none with a type that is known. -/
def ShowsBody (doc : Document) (use : Option Use) (parameters : List EndpointParameter) : Prop :=
  match use with
  | some use => parameters.map EndpointParameter.type = [(use.outcome doc).1]
  | none => ∀ parameter ∈ parameters, parameter.type = .unknown

/-- Whether an endpoint has the types that the uses of its operation give. -/
structure Trace.Shows (doc : Document) (trace : Trace) (endpoint : Endpoint) : Prop where
  responses : endpoint.responses = trace.responses.map fun (status, use) => (status, given? doc use)
  body : ShowsBody doc trace.body (endpoint.parametersIn .body)

/-! ### Sound uses -/

/-- Whether content with a schema stands at a place. -/
def Holds (doc : Document) (place : String) (found : Schema × String) : Prop :=
  ∃ members part content, doc.value? place = some (.object members) ∧
    members.lookup "content" = some part ∧ readMap MediaType.read part = .ok content ∧
    contentAt? content place = some found

/-- At most one content stands at a place. -/
theorem Holds.eq {doc : Document} {place : String} {found other : Schema × String}
    (h : Holds doc place found) (h' : Holds doc place other) : found = other := by
  obtain ⟨members, part, content, hvalue, hlookup, hread, hfound⟩ := h
  obtain ⟨members', part', content', hvalue', hlookup', hread', hother⟩ := h'
  rw [hvalue] at hvalue'
  cases hvalue'
  rw [hlookup] at hlookup'
  cases hlookup'
  rw [hread] at hread'
  cases hread'
  rw [hfound] at hother
  exact Option.some.inj hother

/-- Whether a use happens in a steady state, of a schema that stands where it should. -/
structure Use.Sound (doc : Document) (use : Use) : Prop where
  steady : Steady doc use.before
  target : (doc.target use.key).2 = some use.schema
  holds : Holds doc use.place (use.schema, use.key)

/-- What the second of two uses of one place has from the first. -/
structure Shares (doc : Document) (earlier later : Use) : Prop where
  schema : later.schema = earlier.schema
  key : later.key = earlier.key
  type : later.type doc = earlier.type doc
  /-- The second use gives the reference that the first gave, and changes nothing. -/
  outcome : (earlier.type doc).isComplex = true →
    later.outcome doc = ((earlier.outcome doc).1, later.before)

section Sound

variable {doc : Document} (hclosed : doc.Closed) {use earlier later : Use} {last : Mapping}
include hclosed

namespace Use.Sound

/-- A sound use comes to what a use in a steady state should come to. -/
theorem hoists (h : use.Sound doc) : use.Hoists doc :=
  Use.hoists hclosed h.steady h.target

/-- Uses of one place share an entry, whatever happens between them. -/
theorem shares (h : earlier.Sound doc) (hlater : later.Sound doc)
    (hextends : Extends (earlier.outcome doc).2 later.before)
    (hplace : earlier.place = later.place) : Shares doc earlier later := by
  obtain ⟨hschema, hkey⟩ := Prod.mk.inj ((hplace ▸ h.holds).eq hlater.holds)
  refine ⟨hschema.symm, hkey.symm, ?_, fun hcomplex => ?_⟩
  · -- Names that were given out are kept, so that the type of the earlier use is one in the end.
    have htype := (h.hoists hclosed).type
    have hhoists := hlater.hoists hclosed
    rw [hschema] at htype
    exact hhoists.type.eq ((htype.extend hextends.names).extend hhoists.keeps.names)
  · -- The key is finished since the earlier use at the latest, and the later use looks there first.
    obtain ⟨hmapped, name, hreference, hname⟩ := (h.hoists hclosed).complex hcomplex
    rw [hkey] at hmapped hreference hname
    obtain ⟨name', hname', hhoisted⟩ :=
      hoisted?_of_mem hlater.steady.idle.coherent (hextends.mapped hmapped)
    rw [hextends.names _ _ hname] at hname'
    cases hname'
    exact (mapHoisted_of_hoisted hhoisted).trans (congrArg (·, later.before) hreference.symm)

/-- A complex type that is used has an entry ever after. -/
theorem exists_entry (h : use.Sound doc) (hextends : Extends (use.outcome doc).2 last)
    (hlast : Steady doc last) (hcomplex : (use.type doc).isComplex = true) :
    ∃ entry, last.table.get? use.key = some entry ∧
      (use.outcome doc).1 = .reference use.key entry.name ∧ entry.type = use.type doc := by
  obtain ⟨hmapped, name, hreference, hname⟩ := (h.hoists hclosed).complex hcomplex
  obtain ⟨entry, schema, hget, htarget, htype⟩ := hlast.exact use.key (hextends.mapped hmapped)
  obtain ⟨other, hother, hnamed⟩ := hlast.idle.coherent.entry use.key (hextends.mapped hmapped)
  rw [hget] at hother
  cases hother
  rw [hextends.names _ _ hname] at hnamed
  cases hnamed
  rw [h.target] at htarget
  cases htarget
  exact ⟨entry, hget, hreference, htype.eq ((h.hoists hclosed).type.extend hextends.names)⟩

end Use.Sound

end Sound

/-! ### Timelines -/

/-- Whether uses happen one after another, and nothing is taken back before, between and after
them. -/
inductive Timeline (doc : Document) : Mapping → List Use → Mapping → Prop
  | nil {first last : Mapping} (h : Extends first last) : Timeline doc first [] last
  | cons {first last : Mapping} {use : Use} {more : List Use} (hbefore : Extends first use.before)
      (hsound : use.Sound doc) (hmore : Timeline doc (use.outcome doc).2 more last) :
      Timeline doc first (use :: more) last

namespace Timeline

variable {doc : Document} {first middle last : Mapping} {list others : List Use}

theorem advance (h : Timeline doc middle others last) (hextends : Extends first middle) :
    Timeline doc first others last := by
  cases h with
  | nil h => exact .nil (hextends.trans h)
  | cons hbefore hsound hmore => exact .cons (hextends.trans hbefore) hsound hmore

theorem append (h : Timeline doc first list middle) (h' : Timeline doc middle others last) :
    Timeline doc first (list ++ others) last := by
  induction h with
  | nil h => exact h'.advance h
  | cons hbefore hsound _ ih => exact .cons hbefore hsound (ih h')

variable (hclosed : doc.Closed)
include hclosed

theorem keeps (h : Timeline doc first list last) : Extends first last := by
  induction h with
  | nil h => exact h
  | cons hbefore hsound _ ih => exact hbefore.trans ((hsound.hoists hclosed).keeps.trans ih)

/-- What a use leaves is there in the end. -/
theorem sound_of_mem (h : Timeline doc first list last) {use : Use} (hmem : use ∈ list) :
    use.Sound doc ∧ Extends first use.before ∧ Extends (use.outcome doc).2 last := by
  induction h with
  | nil => cases hmem
  | cons hbefore hsound hmore ih =>
    rcases List.mem_cons.mp hmem with rfl | hmem
    · exact ⟨hsound, hbefore, hmore.keeps hclosed⟩
    · obtain ⟨huse, hextends, hlast⟩ := ih hmem
      exact ⟨huse, hbefore.trans ((hsound.hoists hclosed).keeps.trans hextends), hlast⟩

/-- Of two uses of one place the later shares the entry of the earlier. -/
theorem pairwise_shares (h : Timeline doc first list last) :
    list.Pairwise fun earlier later => earlier.place = later.place → Shares doc earlier later := by
  induction h with
  | nil => exact .nil
  | cons _ hsound hmore ih =>
    refine .cons (fun later hlater hplace => ?_) ih
    obtain ⟨hlater, hextends, -⟩ := hmore.sound_of_mem hclosed hlater
    exact hsound.shares hclosed hlater hextends hplace

end Timeline

/-! ### Operations -/

/-- Whether uses lead from a steady state to another. -/
structure Passes (doc : Document) (first : Mapping) (list : List Use) (last : Mapping) : Prop where
  steady : Steady doc last
  timeline : Timeline doc first list last

namespace Passes

variable {doc : Document} {first middle last : Mapping} {list others : List Use}

theorem append (h : Passes doc first list middle) (h' : Passes doc middle others last) :
    Passes doc first (list ++ others) last :=
  ⟨h'.steady, h.timeline.append h'.timeline⟩

/-- A computation that advances passes without a use. -/
theorem of_advances {α : Type} {x : MapM α} (h : Advances doc x) (hsteady : Steady doc first) :
    Passes doc first [] (x.run first).2 :=
  ⟨(h first hsteady).1, .nil (h first hsteady).2⟩

/-- A sound use passes as the only one. -/
theorem of_sound (hclosed : doc.Closed) {use : Use} (h : use.Sound doc) :
    Passes doc use.before [use] (use.outcome doc).2 :=
  ⟨(h.hoists hclosed).steady, .cons (.refl _) h (.nil (.refl _))⟩

end Passes

section Uses

variable {α : Type} (area : Area α) {content : α → List (String × MediaType)} {doc : Document}
  {declared : Referable α} {value : α} {pointer : String}

private theorem use?_of_unresolved
    (hresolve : doc.resolve? area.name (area.components doc) area.read declared = none)
    (base : String) (before : Mapping) :
    use? area content doc declared pointer base before = none := by
  rw [use?, hresolve]
  rfl

private theorem use?_of_none
    (hresolve : doc.resolve? area.name (area.components doc) area.read declared = some value)
    (hcontent : contentAt? (content value) (declared.place pointer) = none) (base : String)
    (before : Mapping) : use? area content doc declared pointer base before = none := by
  rw [use?, hresolve, Option.bind_eq_bind, Option.bind_some, hcontent]
  rfl

private theorem use?_of_some
    (hresolve : doc.resolve? area.name (area.components doc) area.read declared = some value)
    {schema : Schema} {key : String}
    (hcontent : contentAt? (content value) (declared.place pointer) = some (schema, key))
    (base : String) (before : Mapping) :
    use? area content doc declared pointer base before =
      some ⟨declared.place pointer, schema, key, (hoistSite area.name pointer base declared).2,
        before⟩ := by
  rw [use?, hresolve, Option.bind_eq_bind, Option.bind_some, hcontent]
  rfl

end Uses

/-- Content that is read from an object stands there. -/
private theorem holds_of_stands {doc : Document} (hobjects : doc.AsObjects) {kind : RecordKind}
    {place : String} {json : Json} {position : Nat}
    (hstands : doc.Stands (.record kind) place json) {content : List (String × MediaType)}
    (hfills : json.Fills "content" position (readMap MediaType.read) [] content)
    {found : Schema × String} (h : contentAt? content place = some found) :
    Holds doc place found := by
  have hne : content ≠ [] := by
    rintro rfl
    cases h
  obtain ⟨part, hfield, hread⟩ := exists_of_fills hfills hne
  obtain ⟨members, rfl, hlookup⟩ := hstands.exists_object hobjects hfield
  exact ⟨members, part, content, hstands.value, hlookup, hread, h⟩

section Operations

variable {doc : Document} (hdistinct : doc.raw.Distinct)
  (hdoc : Document.ofJson doc.raw = .ok doc) (hobjects : doc.AsObjects) {site : Site}
  (hsite : site ∈ Site.all doc) {state : Mapping} (hsteady : Steady doc state)
include hdistinct hdoc hobjects hsite hsteady

/-- A use of content of an operation in a steady state is sound. -/
private theorem sound_of_content {schema : Schema} {key place : String}
    (hcontent : site.Content doc schema key) (hholds : Holds doc place (schema, key))
    (base : String) : Use.Sound doc ⟨place, schema, key, base, state⟩ :=
  ⟨hsteady, target_of_content hdistinct hdoc hobjects hsite hcontent, hholds⟩

/-- A response gives what its use gives, and passes with this use alone. -/
private theorem passes_mapResponse {status : String} {response : Referable Response}
    (hresponse : (status, response) ∈ site.operation.responses) (base : String) :
    ((mapResponse doc response (site.responsePointer status) base status).run state).1 =
        given? doc (responseUse? doc site base status response state) ∧
      Passes doc state (responseUse? doc site base status response state).toList
        ((mapResponse doc response (site.responsePointer status) base status).run state).2 := by
  rw [responseUse?]
  -- A response without a target or without content is no use. In both cases nothing is stored.
  rcases hresolve : doc.resolve? "responses" doc.responses Response.read response with _ | value
  · rw [mapResponse_of_unresolved hresolve, use?_of_unresolved Area.responses hresolve]
    exact ⟨rfl, .of_advances ((advances_report _ _).bind fun _ => .pure none) hsteady⟩
  · rw [mapResponse_of_resolved hresolve]
    rcases hcontent : contentAt? value.content (response.place (site.responsePointer status)) with
      _ | ⟨schema, key⟩
    · rw [use?_of_none Area.responses hresolve hcontent]
      exact ⟨rfl, .of_advances (.pure none) hsteady⟩
    · obtain ⟨node, hnode, hread⟩ :=
        Document.exists_response hdistinct hdoc hobjects hsite hresponse hresolve
      have hfills := Response.fills_content (Document.distinct_value? hdistinct hnode.value) hread
      have hsound := sound_of_content hdistinct hdoc hobjects hsite hsteady
        (.response hresponse hresolve hcontent) (holds_of_stands hobjects hnode hfills hcontent)
      rw [use?_of_some Area.responses hresolve hcontent]
      exact ⟨rfl, .of_sound (Document.closed_ofJson hdoc) (hsound _)⟩

/-- A body shows what its use gives, and passes with this use alone. -/
private theorem passes_siteBody (base : String) :
    ((∀ parameter ∈ ((siteBody doc site base).run state).1.2, parameter.location = .body) ∧
        ShowsBody doc (bodyUse? doc site base state) ((siteBody doc site base).run state).1.2) ∧
      Passes doc state (bodyUse? doc site base state).toList
        ((siteBody doc site base).run state).2 := by
  rw [siteBody, bodyUse?]
  rcases hbody : site.operation.requestBody with _ | body
  · exact ⟨⟨List.forall_mem_nil _, List.forall_mem_nil _⟩, .of_advances (.pure _) hsteady⟩
  have hpointer : Reference.child site.pointer "requestBody" = site.bodyPointer := rfl
  simp only [hpointer, Option.bind_some]
  -- A body without a target or without content is no use. In both cases nothing is stored.
  rcases hresolve : doc.resolve? "requestBodies" doc.requestBodies RequestBody.read body with
    _ | value
  · rw [mapBody_of_unresolved hresolve, use?_of_unresolved Area.requestBodies hresolve]
    refine ⟨⟨List.forall_mem_nil _, List.forall_mem_nil _⟩, ?_⟩
    exact .of_advances ((advances_report _ _).bind fun _ => .pure _) hsteady
  · rw [mapBody_of_resolved hresolve]
    rcases hcontent : contentAt? value.content (body.place site.bodyPointer) with
      _ | ⟨schema, key⟩
    · rw [use?_of_none Area.requestBodies hresolve hcontent]
      refine ⟨⟨List.forall_mem_singleton.mpr rfl, List.forall_mem_singleton.mpr rfl⟩, ?_⟩
      exact .of_advances (.pure _) hsteady
    · obtain ⟨node, hnode, hread⟩ :=
        Document.exists_body hdistinct hdoc hobjects hsite hbody hresolve
      have hfills :=
        RequestBody.fills_content (Document.distinct_value? hdistinct hnode.value) hread
      have hsound := sound_of_content hdistinct hdoc hobjects hsite hsteady
        (.body hbody hresolve hcontent) (holds_of_stands hobjects hnode hfills hcontent)
      rw [use?_of_some Area.requestBodies hresolve hcontent]
      exact ⟨⟨List.forall_mem_singleton.mpr rfl, rfl⟩,
        .of_sound (Document.closed_ofJson hdoc) (hsound _)⟩

/-- Responses give what their uses give, and pass with these uses, one after another. -/
private theorem passes_responses (base : String)
    {responses : List (String × Referable Response)}
    (hsubset : responses ⊆ site.operation.responses) :
    let run := (responses.mapM fun (status, response) => do
      let type ← mapResponse doc response (site.responsePointer status) base status
      return (status, type)).run state
    let list := responseUses doc site base responses state
    run.1 = list.map (fun (status, use) => (status, given? doc use)) ∧
      Passes doc state (list.flatMap fun response => response.2.toList) run.2 := by
  induction responses generalizing state with
  | nil => exact ⟨rfl, .of_advances (.pure []) hsteady⟩
  | cons first more ih =>
    obtain ⟨status, response⟩ := first
    obtain ⟨hfirst, hmore⟩ := List.cons_subset.mp hsubset
    obtain ⟨htype, hpasses⟩ := passes_mapResponse hdistinct hdoc hobjects hsite hsteady hfirst base
    obtain ⟨htypes, hrest⟩ := ih hpasses.steady hmore
    rw [List.mapM_cons]
    exact ⟨congrArg₂ List.cons (congrArg (Prod.mk status) htype) htypes, hpasses.append hrest⟩

end Operations

/-- The parameters for the body are those that come from the body. -/
private theorem filter_append_body {parameters body : List EndpointParameter}
    (h : ∀ parameter ∈ parameters, parameter.location ≠ .body)
    (hbody : ∀ parameter ∈ body, parameter.location = .body) :
    ((parameters ++ body).filter fun parameter => parameter.location == .body) = body := by
  rw [List.filter_append, List.filter_eq_nil_iff.mpr, List.filter_eq_self.mpr, List.nil_append]
  · exact fun parameter hmem => beq_iff_eq.mpr (hbody parameter hmem)
  · exact fun parameter hmem => mt beq_iff_eq.mp (h parameter hmem)

/-- An operation is mapped by its uses. -/
private theorem shows_mapSite {doc : Document} (hdistinct : doc.raw.Distinct)
    (hdoc : Document.ofJson doc.raw = .ok doc) (hobjects : doc.AsObjects) {site : Site}
    (hsite : site ∈ Site.all doc) (name : String) {state : Mapping} (hsteady : Steady doc state) :
    (siteTrace doc site name state).Shows doc ((mapSite doc site name).run state).1 ∧
      Passes doc state (siteTrace doc site name state).uses
        ((mapSite doc site name).run state).2 := by
  have hclosed := Document.closed_ofJson hdoc
  have hothers := ne_body_of_mem_siteParameters hclosed site hsteady.idle
  have hparameters : Passes doc state [] ((siteParameters doc site).run state).2 :=
    .of_advances (advances_siteParameters hclosed site) hsteady
  obtain ⟨⟨hlocation, hbody⟩, hpasses⟩ :=
    passes_siteBody hdistinct hdoc hobjects hsite hparameters.steady (site.typeBase name)
  obtain ⟨hresponses, hrest⟩ := passes_responses hdistinct hdoc hobjects hsite hpasses.steady
    (site.typeBase name) (List.Subset.refl _)
  refine ⟨⟨hresponses, ?_⟩, (hparameters.append hpasses).append hrest⟩
  -- The other parameters come first, and none of them is for the body.
  have hin : ((mapSite doc site name).run state).1.parametersIn .body =
      ((siteBody doc site (site.typeBase name)).run
        ((siteParameters doc site).run state).2).1.2 :=
    filter_append_body hothers hlocation
  rw [hin]
  exact hbody

/-- Every endpoint has the types that the uses of its operation give, and all operations pass with
these uses, one after another. -/
private theorem shows_sites {doc : Document} (hdistinct : doc.raw.Distinct)
    (hdoc : Document.ofJson doc.raw = .ok doc) (hobjects : doc.AsObjects)
    {sites : List (Site × String)} (hsites : ∀ pair ∈ sites, pair.1 ∈ Site.all doc)
    {state : Mapping} (hsteady : Steady doc state) :
    List.Forall₂ (Trace.Shows doc) (siteTraces doc sites state)
        ((sites.mapM fun (site, name) => mapSite doc site name).run state).1 ∧
      Passes doc state ((siteTraces doc sites state).flatMap Trace.uses)
        ((sites.mapM fun (site, name) => mapSite doc site name).run state).2 := by
  induction sites generalizing state with
  | nil => exact ⟨.nil, .of_advances (.pure []) hsteady⟩
  | cons first more ih =>
    obtain ⟨hfirst, hmore⟩ := List.forall_mem_cons.mp hsites
    obtain ⟨hshows, hpasses⟩ := shows_mapSite hdistinct hdoc hobjects hfirst first.2 hsteady
    obtain ⟨hrest, hlater⟩ := ih hmore hpasses.steady
    rw [List.mapM_cons]
    exact ⟨.cons hshows hrest, hpasses.append hlater⟩

/-- The endpoints of a document have the types that its uses give, and mapping it is nothing but
these uses, once its components are mapped. -/
private theorem shows_endpoints {doc : Document} (hdistinct : doc.raw.Distinct)
    (hdoc : Document.ofJson doc.raw = .ok doc) (hobjects : doc.AsObjects) :
    List.Forall₂ (Trace.Shows doc) (traces doc) (Document.toApi doc).endpoints ∧
      Passes doc ((mapComponents doc).run (start doc)).2 (uses doc) (final doc) := by
  have hclosed := Document.closed_ofJson hdoc
  have hsites : ∀ pair ∈ Site.withNames {} (Site.all doc), pair.1 ∈ Site.all doc :=
    fun pair hpair => Site.map_fst_withNames {} (Site.all doc) ▸ List.mem_map_of_mem hpair
  exact shows_sites hdistinct hdoc hobjects hsites
    (advances_mapComponents hclosed (start doc) (steady_start doc)).1

/-! ### Documents -/

/-- If no use gives a complex type, then no body or response has one. -/
private theorem Trace.Shows.isComplex {doc : Document} {trace : Trace} {endpoint : Endpoint}
    (h : trace.Shows doc endpoint)
    (huses : ∀ use ∈ trace.uses, (use.outcome doc).1.isComplex = false) :
    (∀ response ∈ endpoint.responses, ∀ type ∈ response.2, type.isComplex = false) ∧
      ∀ parameter ∈ endpoint.parametersIn .body, parameter.type.isComplex = false := by
  constructor
  · intro response hresponse type htype
    rw [h.responses] at hresponse
    obtain ⟨⟨status, use?⟩, hmem, rfl⟩ := List.mem_map.mp hresponse
    obtain ⟨use, huse, rfl⟩ := Option.map_eq_some_iff.mp htype
    exact huses use (List.mem_append_right _
      (List.mem_flatMap.mpr ⟨_, hmem, Option.mem_toList.mpr huse⟩))
  · intro parameter hparameter
    -- Without a use the type for the body is unknown, which is not complex.
    have hbody := h.body
    rcases huse : trace.body with _ | use
    · rw [huse] at hbody
      rw [hbody parameter hparameter]
      rfl
    · rw [huse] at hbody
      have htype : parameter.type ∈ [(use.outcome doc).1] := by
        rw [← hbody]
        exact List.mem_map_of_mem hparameter
      rw [List.mem_singleton.mp htype]
      exact huses use (List.mem_append_left _ (Option.mem_toList.mpr huse))

/-- **Hoisting.** Every operation is mapped by its uses of bodies and responses, and no type of a
body or response is complex. If the type of a schema that is used is complex, there is an entry with
it under the place of the schema, and the use gives the reference to that. Of two uses of one place,
in whatever operations and however many are between them, the later has the schema, key and type of
the earlier, and if that type is complex, it gives the same reference and changes nothing. -/
theorem toApi_hoists {text : String} {doc : Document} (h : Document.ofText text = .ok doc)
    (hobjects : doc.AsObjects) :
    List.Forall₂ (Trace.Shows doc) (traces doc) (Document.toApi doc).endpoints ∧
      (∀ endpoint ∈ (Document.toApi doc).endpoints,
        (∀ response ∈ endpoint.responses, ∀ type ∈ response.2, type.isComplex = false) ∧
          ∀ parameter ∈ endpoint.parametersIn .body, parameter.type.isComplex = false) ∧
      (∀ use ∈ uses doc, (use.type doc).isComplex = true → ∃ entry,
        (Document.toApi doc).types.get? use.key = some entry ∧
          (use.outcome doc).1 = .reference use.key entry.name ∧ entry.type = use.type doc) ∧
      (uses doc).Pairwise fun earlier later =>
        earlier.place = later.place → Shares doc earlier later := by
  obtain ⟨hdistinct, hdoc⟩ := Document.of_ofText h
  have hclosed := Document.closed_ofJson hdoc
  obtain ⟨hshows, hpasses⟩ := shows_endpoints hdistinct hdoc hobjects
  refine ⟨hshows, ?_, fun use huse hcomplex => ?_, hpasses.timeline.pairwise_shares hclosed⟩
  · intro endpoint hendpoint
    obtain ⟨trace, htrace, hshown⟩ := exists_of_mem_forall₂ hshows.flip hendpoint
    refine hshown.isComplex fun use huse => ?_
    have hmem : use ∈ uses doc := List.mem_flatMap.mpr ⟨trace, htrace, huse⟩
    exact ((hpasses.timeline.sound_of_mem hclosed hmem).1.hoists hclosed).simple
  · obtain ⟨hsound, -, hextends⟩ := hpasses.timeline.sound_of_mem hclosed huse
    obtain ⟨entry, hget, hreference, htype⟩ :=
      hsound.exists_entry hclosed hextends hpasses.steady hcomplex
    -- The flags for recursive types come last, and change neither names nor types.
    obtain ⟨flagged, hflagged, -, hname, hsame⟩ := Table.get?_markRecursive hget
    exact ⟨flagged, hflagged, hname ▸ hreference, hsame.trans htype⟩

/-- The text of a document with a response that is used by a reference to it first. -/
def sharedText : String := Text.concat [
  "\x7b\"paths\":\x7b\"/\":\x7b\"put\":\x7b\"responses\":",
  "\x7b\"200\":\x7b\"$ref\":\"#/paths/~1/get/responses/200\"\x7d\x7d\x7d,",
  "\"get\":\x7b\"responses\":\x7b\"200\":\x7b\"content\":\x7b\"t\":\x7b\"schema\":",
  "\x7b\"properties\":\x7b\"a\":\x7b\"type\":\"string\"\x7d\x7d\x7d",
  "\x7d\x7d\x7d\x7d\x7d\x7d\x7d\x7d"]

/-- The document has two uses of one place, both of a complex type. -/
private theorem exists_shared :
    ∃ doc, Document.ofText sharedText = .ok doc ∧ doc.AsObjects ∧
      (uses doc).map Use.place =
        ["#/paths/~1/get/responses/200", "#/paths/~1/get/responses/200"] ∧
      ∀ use ∈ uses doc, (use.type doc).isComplex = true := by
  obtain ⟨doc, hdoc, hplain, hobjects, hplaces, hcomplex⟩ :
      ∃ doc, Document.ofText sharedText = .ok doc ∧ doc.isPlain = true ∧
        (Slot.record .document).checks doc 12 doc.raw = true ∧
        (uses doc).map Use.place =
          ["#/paths/~1/get/responses/200", "#/paths/~1/get/responses/200"] ∧
        ∀ use ∈ uses doc, (use.type doc).isComplex = true :=
    Document.exists_of_chars (by repeat' constructor) (by decide +kernel)
  exact ⟨doc, hdoc, Document.asObjects_of_checks hobjects hplain, hplaces, hcomplex⟩

/-- A complex type that is used through a reference first and at its place afterwards is stored
once, and the second use changes nothing. -/
theorem toApi_hoists_shared :
    ∃ doc, Document.ofText sharedText = .ok doc ∧ doc.AsObjects ∧
      ∃ first second entry, uses doc = [first, second] ∧
        (Document.toApi doc).types.get? first.key = some entry ∧ entry.type = first.type doc ∧
        (first.outcome doc).1 = .reference first.key entry.name ∧
        second.outcome doc = (.reference first.key entry.name, second.before) := by
  obtain ⟨doc, hdoc, hobjects, hplaces, hcomplex⟩ := exists_shared
  obtain ⟨-, -, hentries, hshares⟩ := toApi_hoists hdoc hobjects
  obtain ⟨first, rest, huses, hfirst, hrest⟩ := List.map_eq_cons_iff.mp hplaces
  obtain ⟨second, none, rfl, hsecond, hnone⟩ := List.map_eq_cons_iff.mp hrest
  obtain rfl := List.map_eq_nil_iff.mp hnone
  rw [huses] at hentries hshares hcomplex
  have htype := hcomplex first List.mem_cons_self
  obtain ⟨entry, hget, hreference, hentry⟩ := hentries first List.mem_cons_self htype
  have hshared := List.rel_of_pairwise_cons hshares List.mem_cons_self (hfirst.trans hsecond.symm)
  exact ⟨doc, hdoc, hobjects, first, second, entry, huses, hget, hentry, hreference,
    hreference ▸ hshared.outcome htype⟩

end ClientGen.Mapping
