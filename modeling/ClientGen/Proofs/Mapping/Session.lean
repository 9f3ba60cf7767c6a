import ClientGen.Proofs.Mapping.Expansion

/-!
# Sessions

A session is any sequence of requests to one mapping: all components, one schema, or the storage of
a type that was written in place. What a session answers and leaves behind is what the schemas
say by themselves, whatever was requested before (`session_outlines`); it is a run that descends
into no target twice, and no descent is cut off (`session_descents`).
-/

namespace ClientGen.Mapping

open OpenApi

/-! ### Requests -/

/-- A request to a mapping. -/
inductive Request
  | components
  | schema (root : Schema) (pointer : String)
  | hoist (key base : String) (type : Descriptor)

namespace Request

/-- What a request does, with the type it answers. -/
def serve (doc : Document) : Request → MapM (Option Descriptor)
  | components => do
    mapComponents doc
    return none
  | schema root pointer => some <$> mapSchema doc root pointer
  | hoist key base type => some <$> Mapping.hoist key base type

/-- What a request visits. -/
def visits (doc : Document) : Request → List Visit
  | components => componentVisits doc
  | schema root pointer => root.visits pointer
  | hoist _ _ _ => []

/-- The references in a request. -/
def refs : Request → List String
  | schema root _ => root.refs
  | _ => []

/-- The key under which a request stores a type that was written in place. -/
def hoisted : Request → List String
  | hoist key _ _ => [key]
  | _ => []

/-- Whether an answer is the outline of the schema, if the request is to map one. -/
def Fulfilled : Request → Option Descriptor → Prop
  | schema root _, some type => ∀ g, type.named g = root.outline g
  | schema _ _, none => False
  | _, _ => True

end Request

/-- What a session answers, and the state it leaves behind. -/
def serveAll (doc : Document) (requests : List Request) : MapM (List (Option Descriptor)) :=
  requests.mapM (Request.serve doc)

/-- The descents of a session, unless the depth limit cuts one off. -/
def sessionDescents (doc : Document) : List Request → Mapping → Option (List Descent)
  | [], _ => some []
  | request :: more, state => do
    let first ← descentsAll (descents doc (depthLimit doc)) (mapReference doc)
      (request.visits doc) state
    let others ← sessionDescents doc more ((request.serve doc).run state).2
    return first ++ others

/-- The keys of the components of a document, of the references in it, and of the references in the
schemas that a session maps. -/
def sessionKeys (doc : Document) (requests : List Request) : Finset String :=
  (doc.schemas.map fun component => Reference.componentKey component.1).toFinset ∪ keys doc ∪
    ((requests.flatMap Request.refs).map Reference.canonical).toFinset

/-! ### One request -/

/-- What a request comes to. -/
structure Serves (doc : Document) (request : Request) (first : Mapping) (events : List Event)
    (answer : Option Descriptor) (second : Mapping) : Prop where
  run : Run doc first events second
  chain : second.chain = []
  hoists : Event.hoists events = request.hoisted
  serve : (request.serve doc).run first = (answer, second)
  descents : descentsAll (Mapping.descents doc (depthLimit doc)) (mapReference doc)
    (request.visits doc) first = some (Event.descents events)
  fulfilled : request.Fulfilled answer
  keys : ∀ descent ∈ Event.descents events, descent.key ∈ sessionKeys doc [request]
  components : request = .components → ∀ component ∈ doc.schemas, component.1 ≠ "" →
    Reference.componentKey component.1 ∈ second.mapped

section Serves

variable {doc : Document} {state : Mapping}

/-- Keys of the document are keys of any session. -/
private theorem mem_sessionKeys_of_keys {requests : List Request} {key : String}
    (h : key ∈ keys doc) : key ∈ sessionKeys doc requests :=
  Finset.mem_union_left _ (Finset.mem_union_right _ h)

/-- A request for the components is served wherever nothing is above. -/
private theorem serves_components (hclosed : doc.Closed) (hcoherent : Coherent doc state)
    (hchain : state.chain = []) :
    ∃ events answer later, Serves doc .components state events answer later := by
  obtain ⟨log, later, hlater, hrun⟩ := mapComponents_run hclosed hcoherent
  obtain ⟨events, run, hhoists, rfl, hback⟩ := hlater.follows
  refine ⟨events, none, later, run, hback.trans hchain, hhoists, ?_, hlater.descents, trivial, ?_,
    fun _ component hmem hname => ?_⟩
  · rw [Request.serve, StateT.run_bind, hrun]
    rfl
  · intro descent hdescent
    -- A descent is into a component, or into the target of a reference in the document.
    rcases hlater.keys descent hdescent with ⟨path, hvisited, heq⟩ | hdoc
    · obtain ⟨component, hmem, rfl⟩ := mem_paths_componentVisits.mp hvisited
      rw [heq, Reference.canonical_componentKey]
      exact Finset.mem_union_left _ (Finset.mem_union_left _
        (List.mem_toFinset.mpr (List.mem_map_of_mem hmem)))
    · exact mem_sessionKeys_of_keys hdoc
  · have hvisited := mem_paths_componentVisits.mpr ⟨component, hmem, rfl⟩
    -- What was reached is finished, because nothing is above any more.
    have hreached := hlater.reached _ hvisited (Document.isSome_target_of_mem_schemas hmem hname)
    rw [Reference.canonical_componentKey] at hreached
    refine hreached.resolve_right fun hmem => ?_
    rw [hback.trans hchain] at hmem
    cases hmem

private theorem serves_schema (hclosed : doc.Closed) (hcoherent : Coherent doc state)
    (hchain : state.chain = []) (schema : Schema) (pointer : String) :
    ∃ events answer later, Serves doc (.schema schema pointer) state events answer later := by
  obtain ⟨log, later, hlater, hmap⟩ := mapSchema_run hclosed schema pointer hcoherent
  obtain ⟨events, run, hhoists, rfl, hback⟩ := hlater.follows
  refine ⟨events, some (schema.outline (nameOf doc later)), later, run, hback.trans hchain, hhoists,
    ?_, hlater.descents, fun g => Outline.outline_named _ g schema, ?_, fun heq => by cases heq⟩
  · rw [Request.serve, StateT.run_map, hmap]
    rfl
  · intro descent hdescent
    rcases hlater.keys descent hdescent with ⟨path, hvisited, heq⟩ | hdoc
    · refine Finset.mem_union_right _ (List.mem_toFinset.mpr ?_)
      rw [heq, List.flatMap_singleton]
      exact List.mem_map_of_mem (Visit.paths_subset_refs _ _ hvisited)
    · exact mem_sessionKeys_of_keys hdoc

/-- A request to hoist a type is served by a single event. -/
private theorem serves_hoist (hchain : state.chain = []) (key base : String) (type : Descriptor) :
    ∃ events answer later, Serves doc (.hoist key base type) state events answer later :=
  ⟨[.hoist key type], _, _, .single (.hoist state key (Identifier.typeName base) type hchain),
    hchain, rfl, rfl, rfl, trivial, fun _ hmem => absurd hmem List.not_mem_nil,
    fun heq => by cases heq⟩

/-- **One request.** Any request to a mapping that is not in the middle of another is a run, and its
descents are on record. -/
theorem exists_serves (hclosed : doc.Closed) (hcoherent : Coherent doc state)
    (hchain : state.chain = []) (request : Request) :
    ∃ events answer later, Serves doc request state events answer later := by
  cases request with
  | components => exact serves_components hclosed hcoherent hchain
  | schema root pointer => exact serves_schema hclosed hcoherent hchain root pointer
  | hoist key base type => exact serves_hoist hchain key base type

end Serves

/-! ### All requests -/

/-- What a session comes to. -/
structure ServesAll (doc : Document) (requests : List Request) (first : Mapping)
    (events : List Event) (answers : List (Option Descriptor)) (second : Mapping) : Prop where
  run : Run doc first events second
  chain : second.chain = []
  hoists : Event.hoists events = requests.flatMap Request.hoisted
  serve : (serveAll doc requests).run first = (answers, second)
  descents : sessionDescents doc requests first = some (Event.descents events)
  fulfilled : List.Forall₂ Request.Fulfilled requests answers
  keys : ∀ descent ∈ Event.descents events, descent.key ∈ sessionKeys doc requests
  components : .components ∈ requests → ∀ component ∈ doc.schemas, component.1 ≠ "" →
    Reference.componentKey component.1 ∈ second.mapped

private theorem sessionKeys_subset {doc : Document} {requests others : List Request}
    (h : requests ⊆ others) : sessionKeys doc requests ⊆ sessionKeys doc others := by
  refine Finset.union_subset_union (Finset.Subset.refl _) fun key hkey => ?_
  obtain ⟨path, hpath, rfl⟩ := List.mem_map.mp (List.mem_toFinset.mp hkey)
  obtain ⟨request, hmem, hrefs⟩ := List.mem_flatMap.mp hpath
  exact List.mem_toFinset.mpr (List.mem_map_of_mem (List.mem_flatMap.mpr ⟨request, h hmem, hrefs⟩))

/-- Requests are served one after another. The induction is on them: what one of them leaves is
coherent and has nothing above, so that the next one is served from there. -/
theorem exists_servesAll {doc : Document} (hclosed : doc.Closed) {state : Mapping}
    (hcoherent : Coherent doc state) (hchain : state.chain = []) (requests : List Request) :
    ∃ events answers later, ServesAll doc requests state events answers later := by
  -- The induction is on the requests. Between two of them the state is coherent and the chain
  -- empty, which is all that the next one asks for.
  induction requests generalizing state with
  | nil =>
    exact ⟨[], [], state, .nil state, hchain, rfl, rfl, rfl, .nil,
      fun _ hmem => absurd hmem List.not_mem_nil, fun hmem => absurd hmem List.not_mem_nil⟩
  | cons request more ih =>
    obtain ⟨events, answer, next, hnext⟩ := exists_serves hclosed hcoherent hchain request
    obtain ⟨others, answers, later, hlater⟩ := ih (hnext.run.coherent hcoherent) hnext.chain
    refine ⟨events ++ others, answer :: answers, later, hnext.run.append hlater.run, hlater.chain,
      ?_, ?_, ?_, .cons hnext.fulfilled hlater.fulfilled, ?_, ?_⟩
    · rw [Event.hoists_append, hnext.hoists, hlater.hoists, List.flatMap_cons]
    · have hmore := hlater.serve
      rw [serveAll] at hmore
      rw [serveAll, List.mapM_cons, StateT.run_bind, hnext.serve]
      change (more.mapM (Request.serve doc) >>= fun answers =>
        pure (answer :: answers)).run next = _
      -- The answers to the rest are those from the state that the first request leaves.
      rw [StateT.run_bind, hmore]
      rfl
    · rw [sessionDescents, hnext.descents, hnext.serve, hlater.descents, Event.descents_append]
      rfl
    · -- The keys of a session only grow with its requests.
      intro descent hdescent
      rw [Event.descents_append] at hdescent
      rcases List.mem_append.mp hdescent with hmem | hmem
      · refine sessionKeys_subset ?_ (hnext.keys descent hmem)
        exact List.cons_subset_cons request (List.nil_subset more)
      · exact sessionKeys_subset (List.subset_cons_self request more) (hlater.keys descent hmem)
    · intro hmem component hcomponent hname
      rcases List.mem_cons.mp hmem with heq | hmem
      · exact hlater.run.keeps.mapped (hnext.components heq.symm component hcomponent hname)
      · exact hlater.components hmem component hcomponent hname

/-- **Refinement.** Whatever a session requests and in which order, each answer to a request to map
a schema is the outline of that schema, up to the names of references. The finished keys are those
that the session descended into or stored a type under by itself, and unless it did the latter,
their entries are the outlines of their targets; all components with a name are among them once they
were requested. The same holds in the midst of descents, whatever is above. So neither answers nor
entries depend on the order of requests, or on where a cycle was cut. -/
theorem session_outlines {json : Json} {doc : Document} (h : Document.ofJson json = .ok doc)
    (requests : List Request) :
    List.Forall₂ Request.Fulfilled requests ((serveAll doc requests).run (start doc)).1 ∧
      (∃ log, sessionDescents doc requests (start doc) = some log ∧
        ∀ key, key ∈ ((serveAll doc requests).run (start doc)).2.mapped ↔
          key ∈ requests.flatMap Request.hoisted ∨ ∃ descent ∈ log, descent.key = key) ∧
      (∀ key ∈ ((serveAll doc requests).run (start doc)).2.mapped,
        key ∉ requests.flatMap Request.hoisted → ∃ entry schema,
          ((serveAll doc requests).run (start doc)).2.table.get? key = some entry ∧
            (doc.target key).2 = some schema ∧ ∀ g, entry.type.named g = schema.outline g) ∧
      (.components ∈ requests → ∀ component ∈ doc.schemas, component.1 ≠ "" →
        Reference.componentKey component.1 ∈ ((serveAll doc requests).run (start doc)).2.mapped) ∧
      ∀ events state, Run doc (start doc) events state → ∀ schema pointer g,
        ((mapSchema doc schema pointer).run state).1.named g = schema.outline g := by
  have hclosed := Document.closed_ofJson h
  obtain ⟨events, answers, later, hsession⟩ := exists_servesAll hclosed (coherent_start doc)
    (chain_start doc) requests
  rw [hsession.serve]
  refine ⟨hsession.fulfilled, ⟨_, hsession.descents, fun key => ?_⟩, ?_, hsession.components,
    fun events state run schema pointer g => ?_⟩
  · -- Nothing is above before and after the session, so that what is reached is finished.
    have hreached : later.Reached key ↔ _ := hsession.run.reached_iff
    rw [Reached, Reached, hsession.chain, mapped_start, chain_start, Touches, hsession.hoists]
      at hreached
    simpa only [List.not_mem_nil, or_false, false_or] using hreached
  · have htranslated := hsession.run.translated (translated_start doc)
    rw [hsession.hoists, List.nil_append] at htranslated
    exact htranslated
  · obtain ⟨_, inner, -, hmap⟩ := mapSchema_run hclosed schema pointer
      (run.coherent (coherent_start doc))
    rw [hmap]
    exact Outline.outline_named _ g schema

/-- The key of a schema whose values are linked nodes. -/
def nodeKey : String := "#/components/schemas/Node"

/-- A schema that refers to itself: a node that may have another next to it. -/
def nodeSchema : Schema :=
  { properties := some [("next", { ref := some nodeKey })] }

/-- The reference to a node, as it is written. -/
def nodeReference : Json :=
  .object [("$ref", .string nodeKey)]

/-- A value that describes a document with nodes, and an operation that answers an object with
one. -/
def nodeJson : Json :=
  .object [
    ("paths", .object [("/", .object [("get", .object [("responses", .object [("200", .object [
      ("content", .object [("text/json", .object [("schema", .object [
        ("properties", .object [("node", nodeReference)])])])])])])])])]),
    ("components", .object [("schemas", .object [("Node", .object [
      ("properties", .object [("next", nodeReference)])])])])]

/-- The document with nodes. -/
def nodeDocument : Document where
  paths := [("/", { operations := [(.get, { responses := [("200", .item {
    content := [("text/json", { schema := some {
      properties := some [("node", { ref := some nodeKey })] } })] })] })] })]
  components := some { schemas := [("Node", nodeSchema)] }
  raw := nodeJson

theorem ofJson_nodeJson : Document.ofJson nodeJson = .ok nodeDocument := by
  rfl

/-- After a single request for the components, the entry of the only one has its outline under any
names. -/
theorem session_outlines_node :
    ∃ entry, ((serveAll nodeDocument [.components]).run (start nodeDocument)).2.table.get? nodeKey =
        some entry ∧
      ∀ g, entry.type.named g =
        .object [⟨"next", .reference nodeKey (g nodeKey), false⟩] none := by
  obtain ⟨-, -, hentries, hcomponents, -⟩ := session_outlines ofJson_nodeJson [.components]
  have hmapped := hcomponents List.mem_cons_self ("Node", nodeSchema) List.mem_cons_self (by decide)
  obtain ⟨entry, schema, hget, htarget, htype⟩ := hentries nodeKey hmapped List.not_mem_nil
  have hschema : schema = nodeSchema :=
    (Option.some.inj (show some nodeSchema = some schema from htarget)).symm
  rw [hschema] at htype
  exact ⟨entry, hget, htype⟩

/-- Following a reference in the midst of a run goes on with the run, whatever is above: what it
leaves is reached by the descents on record, and any larger limit leads to the same state. -/
private theorem followed {doc : Document} (hclosed : doc.Closed) {events : List Event}
    {state : Mapping} (run : Run doc (start doc) events state) (path : String) :
    (∃ more, Run doc state more ((mapReference doc path).run state).2 ∧
      descents doc (depthLimit doc) path state = some (Event.descents more)) ∧
    ∀ limit, depthLimit doc ≤ limit →
      (expand doc limit path).run state = (mapReference doc path).run state := by
  have hcoherent := run.coherent (coherent_start doc)
  have hfits := fits_depthLimit doc state.chain path
  obtain ⟨log, later, hexpands⟩ := expand_run hclosed hcoherent hfits
  obtain ⟨more, next, -, rfl, -⟩ := hexpands.follows
  refine ⟨⟨more, ?_, hexpands.descents⟩, fun limit hlimit => ?_⟩
  · rw [mapReference, hexpands.run]
    exact next
  · exact expand_limit hclosed hcoherent
      ⟨Nat.lt_of_lt_of_le hfits.1 hlimit, hfits.2.imp_right (Nat.lt_of_lt_of_le · hlimit)⟩ hfits

/-- **Termination.** Whatever a session requests, its descents are those of a run to the state that
it leaves behind, which stores what the session stores and nothing else in place. It descends into
the target of a key at most once, hence no more often than there are keys of components, of
references in the document and of references in the schemas of the session; no key is ever above
itself, and nothing is above anything between requests. Following any one reference, from wherever a
run has come to, is a run to the state it leaves with the descents on record, of which none is cut
off: a mapper with any larger limit, or none, does the same. -/
theorem session_descents {json : Json} {doc : Document} (h : Document.ofJson json = .ok doc)
    (requests : List Request) :
    (∃ log events, sessionDescents doc requests (start doc) = some log ∧
      Run doc (start doc) events ((serveAll doc requests).run (start doc)).2 ∧
      Event.descents events = log ∧ Event.hoists events = requests.flatMap Request.hoisted ∧
      (log.map Descent.key).Nodup ∧ log.length ≤ (sessionKeys doc requests).card ∧
      ∀ descent ∈ log, (descent.key :: descent.above).Nodup) ∧
    ((serveAll doc requests).run (start doc)).2.chain = [] ∧
    ∀ events state, Run doc (start doc) events state → ∀ path,
      (∃ more, Run doc state more ((mapReference doc path).run state).2 ∧
        descents doc (depthLimit doc) path state = some (Event.descents more)) ∧
      ∀ limit, depthLimit doc ≤ limit →
        (expand doc limit path).run state = (mapReference doc path).run state := by
  have hclosed := Document.closed_ofJson h
  obtain ⟨events, answers, later, hsession⟩ := exists_servesAll hclosed (coherent_start doc)
    (chain_start doc) requests
  obtain ⟨hnodup, hdescents⟩ := hsession.run.nodup_descents (coherent_start doc)
  rw [hsession.serve]
  refine ⟨⟨_, events, hsession.descents, hsession.run, rfl, hsession.hoists, hnodup, ?_,
    fun descent hmem => ?_⟩, hsession.chain, fun _ _ run => followed hclosed run⟩
  · have hkeys : ((Event.descents events).map Descent.key).toFinset ⊆ sessionKeys doc requests := by
      intro key hkey
      obtain ⟨descent, hmem, rfl⟩ := List.mem_map.mp (List.mem_toFinset.mp hkey)
      exact hsession.keys descent hmem
    -- There are as many keys as descents, because no key is descended into twice.
    have hcard := Finset.card_le_card hkeys
    rw [List.toFinset_card_of_nodup hnodup, List.length_map] at hcard
    exact hcard
  · exact (hdescents descent hmem).2.2.1

/-- Two requests for the only component descend into it once at most, and what is on record comes
from a run. -/
theorem session_descents_node :
    ∃ log events, sessionDescents nodeDocument [.components, .components] (start nodeDocument) =
        some log ∧
      Run nodeDocument (start nodeDocument) events
        ((serveAll nodeDocument [.components, .components]).run (start nodeDocument)).2 ∧
      Event.descents events = log ∧ log.length ≤ 1 := by
  obtain ⟨⟨log, events, hlog, run, hdescents, -, -, hlength, -⟩, -⟩ :=
    session_descents ofJson_nodeJson [.components, .components]
  refine ⟨log, events, hlog, run, hdescents, hlength.trans ?_⟩
  decide

end ClientGen.Mapping
