import ClientGen.Proofs.Mapping.Expansion
import ClientGen.Proofs.Mapping.Operations

/-!
# What operations do to the state

Mapping an operation is a run of the transition system, from one state between two schemas to
another (`performs_mapSite`). On its way it stores types that were written in place only under the
places of the schemas of bodies and responses (`Site.Content`), and each diagnostic that it adds has
an origin in the operation (`Site.Origin`): something in it cannot be resolved or is not supported,
or a schema that is mapped leads to a fault, maybe through references. The endpoints of a document
are what its operations give one after another (`forall₂_endpoints`).
-/

namespace ClientGen

open OpenApi Mapping

/-! ### Schemas of an operation -/

/-- Where something is written that is declared at `pointer`, there or behind a reference. -/
def OpenApi.Referable.place {α : Type} (pointer : String) : Referable α → String
  | .item _ => pointer
  | .reference path => path

/-- The schema of a parameter that is written at `pointer`, with its place. -/
def OpenApi.Parameter.schemaAt? (parameter : Parameter) (pointer : String) :
    Option (Schema × String) :=
  match parameter.schema with
  | some schema => some (schema, Reference.child pointer "schema")
  | none =>
    (firstSchema? (parameter.content.getD [])).map fun (media, schema) =>
      (schema, contentSchema pointer media)

/-- The schema of content in its preferred media type, with its place, if the content belongs to
what is written at `pointer`. -/
def contentAt? (content : List (String × MediaType)) (pointer : String) :
    Option (Schema × String) :=
  (Media.pick? content).bind fun (media, value) =>
    value.schema.map fun schema => (schema, contentSchema pointer media)

namespace Site

/-- The parameters of an operation that can be resolved, in the order of their declaration. -/
def resolved (doc : Document) (declared : List (Referable Parameter × String)) :
    List (Parameter × String) :=
  declared.filterMap fun (parameter, place) =>
    (doc.resolve? "parameters" doc.parameters Parameter.read parameter).map (·, place)

/-- The parameters of an operation that are left of those that can be resolved, with the places of
their declarations. -/
def merged (doc : Document) (site : Site) : List (Parameter × String) :=
  (resolved doc site.declared).foldl mergeParameter []

/-- Where the body of an operation is declared. -/
def bodyPointer (site : Site) : String :=
  Reference.child site.pointer "requestBody"

/-- Where the response to a status is declared. -/
def responsePointer (site : Site) (status : String) : String :=
  Reference.child (Reference.child site.pointer "responses") status

/-- Whether a schema is that of the body or of a response of an operation, and stands at a place. -/
inductive Content (doc : Document) (site : Site) : Schema → String → Prop
  | body {body : Referable RequestBody} {value : RequestBody} {schema : Schema} {key : String}
      (hbody : site.operation.requestBody = some body)
      (hresolve : doc.resolve? "requestBodies" doc.requestBodies RequestBody.read body = some value)
      (hcontent : contentAt? value.content (body.place site.bodyPointer) = some (schema, key)) :
      Content doc site schema key
  | response {status : String} {response : Referable Response} {value : Response} {schema : Schema}
      {key : String} (hresponse : (status, response) ∈ site.operation.responses)
      (hresolve : doc.resolve? "responses" doc.responses Response.read response = some value)
      (hcontent : contentAt? value.content (response.place (site.responsePointer status)) =
        some (schema, key)) :
      Content doc site schema key

/-- The schemas of the body and the responses of an operation, with their places. -/
def contents (doc : Document) (site : Site) : List (Schema × String) :=
  (site.operation.requestBody.bind fun body =>
    (doc.resolve? "requestBodies" doc.requestBodies RequestBody.read body).bind fun value =>
      contentAt? value.content (body.place site.bodyPointer)).toList ++
  site.operation.responses.filterMap fun (status, response) =>
    (doc.resolve? "responses" doc.responses Response.read response).bind fun value =>
      contentAt? value.content (response.place (site.responsePointer status))

/-- Whatever is a schema of the body or a response of an operation is found among its contents. -/
theorem Content.mem_contents {doc : Document} {site : Site} {schema : Schema} {key : String}
    (h : site.Content doc schema key) : (schema, key) ∈ site.contents doc := by
  cases h with
  | body hbody hresolve hcontent =>
    refine List.mem_append_left _ (Option.mem_toList.mpr ?_)
    rw [hbody, Option.bind_some, hresolve]
    exact hcontent
  | response hresponse hresolve hcontent =>
    refine List.mem_append_right _ (List.mem_filterMap.mpr ⟨_, hresponse, ?_⟩)
    simp only [hresolve, Option.bind_some, hcontent]

end Site

namespace Mapping

/-! ### Diagnostics -/

/-- How a visit leads to a diagnostic: it is a fault, or it is a reference and there is a visit in
its target that leads to the diagnostic. -/
inductive Visit.Leads (doc : Document) : Visit → Diagnostic → Prop
  | fault (diagnostic : Diagnostic) : Leads doc (.fault diagnostic) diagnostic
  | reference {path : String} {schema : Schema} {visit : Visit} {diagnostic : Diagnostic}
      (htarget : (doc.target path).2 = some schema)
      (hvisit : visit ∈ schema.visits (doc.target path).1) (hleads : visit.Leads doc diagnostic) :
      Leads doc (.reference path) diagnostic

/-- Whether a later state has all diagnostics of an earlier one, and no others after them but such
with a property. -/
def Adds (p : Diagnostic → Prop) (earlier later : Mapping) : Prop :=
  ∃ new, later.diagnostics = earlier.diagnostics ++ new ∧ ∀ diagnostic ∈ new, p diagnostic

section Adds

variable {p q : Diagnostic → Prop} {first second third : Mapping}

theorem Adds.refl (state : Mapping) : Adds p state state :=
  ⟨[], (List.append_nil _).symm, List.forall_mem_nil _⟩

theorem Adds.of_eq (h : second.diagnostics = first.diagnostics) : Adds p first second :=
  ⟨[], h.trans (List.append_nil _).symm, List.forall_mem_nil _⟩

theorem Adds.trans (h : Adds p first second) (h' : Adds p second third) : Adds p first third := by
  obtain ⟨new, hsecond, hnew⟩ := h
  obtain ⟨more, hthird, hmore⟩ := h'
  refine ⟨new ++ more, ?_, List.forall_mem_append.mpr ⟨hnew, hmore⟩⟩
  rw [hthird, hsecond, List.append_assoc]

theorem Adds.imp (h : Adds p first second) (himp : ∀ diagnostic, p diagnostic → q diagnostic) :
    Adds q first second := by
  obtain ⟨new, hsecond, hnew⟩ := h
  exact ⟨new, hsecond, fun diagnostic hmem => himp diagnostic (hnew diagnostic hmem)⟩

theorem Adds.subset (h : Adds p first second) : first.diagnostics ⊆ second.diagnostics := by
  obtain ⟨new, hsecond, -⟩ := h
  rw [hsecond]
  exact List.subset_append_left _ _

/-- Reporting adds the diagnostic that it is asked for. -/
theorem adds_report {pointer : String} {reason : Degradation} (h : p ⟨pointer, reason⟩)
    (state : Mapping) : Adds p state ((report pointer reason).run state).2 :=
  ⟨[⟨pointer, reason⟩], rfl, List.forall_mem_singleton.mpr h⟩

end Adds

/-- Visits add only diagnostics that they lead to. -/
theorem adds_expandsAll {doc : Document} (hclosed : doc.Closed) {visits : List Visit}
    {first second : Mapping} {log : List Descent}
    (h : ExpandsAll doc (depthLimit doc) visits first log second) (hcoherent : Coherent doc first) :
    Adds (fun diagnostic => ∃ visit ∈ visits, visit.Leads doc diagnostic) first second := by
  let p : Diagnostic → Prop := fun diagnostic => ∃ visit ∈ visits, visit.Leads doc diagnostic
  let allowed : Visit → Prop := fun visit => ∀ diagnostic, visit.Leads doc diagnostic → p diagnostic
  have hkept : Kept doc allowed (Adds p first) := by
    refine ⟨fun path schema hpath htarget visit hvisit diagnostic hleads => ?_,
      fun state diagnostic hdiagnostic hstate => ?_, fun state key hstate => ?_,
      fun state key hstate => ?_, fun _ _ _ _ _ _ _ _ _ _ hstate => ?_⟩
    · exact hpath diagnostic (.reference htarget hvisit hleads)
    · exact hstate.trans (adds_report (hdiagnostic diagnostic (.fault diagnostic)) state)
    · exact hstate.trans (.of_eq rfl)
    · exact hstate.trans (.of_eq rfl)
    · exact hstate.trans (.of_eq rfl)
  exact hkept.expandsAll hclosed h hcoherent
    (fun visit hvisit diagnostic hleads => ⟨visit, hvisit, hleads⟩) (.refl first)

/-! ### Computations between schemas -/

/-- Whether a state is between two schemas. -/
structure Idle (doc : Document) (state : Mapping) : Prop where
  coherent : Coherent doc state
  chain : state.chain = []

/-- The key of an entry that a run between two schemas adds is one that it touches. -/
theorem Run.touches_of_mem {doc : Document} {first second : Mapping} {events : List Event}
    (run : Run doc first events second) (hidle : Idle doc first) {entry : Entry}
    (h : entry ∈ second.table.entries) :
    (∃ old ∈ first.table.entries, old.key = entry.key) ∨ Touches events entry.key := by
  rcases run.mapped_of_mem h with hold | hmapped
  · exact Or.inl hold
  · refine (run.reached_iff.mp (Or.inl hmapped)).imp_left fun hreached => ?_
    have hbefore : entry.key ∈ first.mapped := hreached.resolve_right fun hmem => by
      rw [hidle.chain] at hmem
      cases hmem
    obtain ⟨old, hget, -⟩ := hidle.coherent.entry _ hbefore
    exact ⟨old, Table.mem_of_get? hget, Table.key_of_get? hget⟩

/-- What a computation from one idle state to another comes to: a run that stores types written in
place only under keys with the property `k`, and adds only diagnostics with the property `p`. Its
other entries stand under canonical keys. -/
structure Performed (doc : Document) (k : String → Prop) (p : Diagnostic → Prop)
    (first second : Mapping) : Prop where
  run : ∃ events, Run doc first events second ∧ ∀ key ∈ Event.hoists events, k key
  chain : second.chain = []
  adds : Adds p first second
  keys : ∀ entry ∈ second.table.entries, (∃ old ∈ first.table.entries, old.key = entry.key) ∨
    Reference.canonical entry.key = entry.key ∨ k entry.key

theorem Performed.idle {doc : Document} {k : String → Prop} {p : Diagnostic → Prop}
    {first second : Mapping} (h : Performed doc k p first second) (hidle : Idle doc first) :
    Idle doc second := by
  obtain ⟨events, run, -⟩ := h.run
  exact ⟨run.coherent hidle.coherent, h.chain⟩

/-- Computations that follow one another perform what both of them do. -/
theorem Performed.trans {doc : Document} {k : String → Prop} {p : Diagnostic → Prop}
    {first second third : Mapping} (h : Performed doc k p first second)
    (h' : Performed doc k p second third) : Performed doc k p first third := by
  obtain ⟨events, run, hkeys⟩ := h.run
  obtain ⟨more, run', hkeys'⟩ := h'.run
  refine ⟨⟨events ++ more, run.append run', ?_⟩, h'.chain, h.adds.trans h'.adds,
    fun entry hentry => ?_⟩
  · rw [Event.hoists_append]
    exact List.forall_mem_append.mpr ⟨hkeys, hkeys'⟩
  · rcases h'.keys entry hentry with ⟨middle, hmiddle, hkey⟩ | hnew
    · rw [← hkey]
      exact h.keys middle hmiddle
    · exact Or.inr hnew

/-- Nothing is added to a table that stays as it is. -/
private theorem keys_of_table_eq {first second : Mapping} (h : second.table = first.table)
    {q : Entry → Prop} :
    ∀ entry ∈ second.table.entries, (∃ old ∈ first.table.entries, old.key = entry.key) ∨ q entry :=
  fun entry hentry => Or.inl ⟨entry, h ▸ hentry, rfl⟩

/-- Whether a computation, wherever it starts between two schemas, comes to that. -/
def Performs {α : Type} (doc : Document) (k : String → Prop) (p : Diagnostic → Prop)
    (x : MapM α) : Prop :=
  ∀ state, Idle doc state → Performed doc k p state (x.run state).2

namespace Performs

variable {doc : Document} {k k' : String → Prop} {p p' : Diagnostic → Prop} {α β ρ : Type}

theorem pure (a : α) : Performs doc k p (Pure.pure a) :=
  fun state hidle => ⟨⟨[], .nil state, List.forall_mem_nil _⟩, hidle.chain, .refl state,
    keys_of_table_eq rfl⟩

/-- What comes second may depend on what the first computation can give. -/
theorem bind {x : MapM α} {f : α → MapM β} (hx : Performs doc k p x)
    (hf : ∀ state, Idle doc state → Performs doc k p (f (x.run state).1)) :
    Performs doc k p (x >>= f) := by
  intro state hidle
  have hfirst := hx state hidle
  exact hfirst.trans (hf state hidle _ (hfirst.idle hidle))

theorem map {x : MapM α} (f : α → β) (hx : Performs doc k p x) : Performs doc k p (f <$> x) :=
  hx

theorem mapM {f : ρ → MapM α} {list : List ρ} (h : ∀ x ∈ list, Performs doc k p (f x)) :
    Performs doc k p (list.mapM f) := by
  induction list with
  | nil => exact pure []
  | cons x more ih =>
    obtain ⟨hfirst, hmore⟩ := List.forall_mem_cons.mp h
    rw [List.mapM_cons]
    exact hfirst.bind fun _ _ => (ih hmore).bind fun _ _ => pure _

theorem imp {x : MapM α} (h : Performs doc k p x) (hk : ∀ key, k key → k' key)
    (hp : ∀ diagnostic, p diagnostic → p' diagnostic) : Performs doc k' p' x := by
  intro state hidle
  obtain ⟨⟨events, run, hhoists⟩, hchain, hadds, hkeys⟩ := h state hidle
  exact ⟨⟨events, run, fun key hkey => hk key (hhoists key hkey)⟩, hchain, hadds.imp hp,
    fun entry hentry => (hkeys entry hentry).imp_right (Or.imp_right (hk entry.key))⟩

end Performs

section Schemas

variable {doc : Document} {k : String → Prop} {p : Diagnostic → Prop}

theorem performs_report {pointer : String} {reason : Degradation} (h : p ⟨pointer, reason⟩) :
    Performs doc k p (report pointer reason) :=
  fun state hidle => ⟨⟨_, .single (.report state ⟨pointer, reason⟩), List.forall_mem_nil _⟩,
    hidle.chain, adds_report h state, keys_of_table_eq rfl⟩

/-- Visits perform nothing but the diagnostics that they lead to, and store nothing that was written
in place. -/
private theorem performed_of_expandsAll (hclosed : doc.Closed) {visits : List Visit}
    {first second : Mapping} {log : List Descent} (hidle : Idle doc first)
    (h : ExpandsAll doc (depthLimit doc) visits first log second)
    (hp : ∀ visit ∈ visits, ∀ diagnostic, visit.Leads doc diagnostic → p diagnostic) :
    Performed doc k p first second := by
  obtain ⟨events, run, hhoists, hlog, hchain⟩ := h.follows
  refine ⟨⟨events, run, ?_⟩, hchain.trans hidle.chain, ?_, fun entry hentry => ?_⟩
  · rw [hhoists]
    exact List.forall_mem_nil _
  · refine (adds_expandsAll hclosed h hidle.coherent).imp ?_
    rintro diagnostic ⟨visit, hvisit, hleads⟩
    exact hp visit hvisit diagnostic hleads
  · -- Nothing is written in place on the way, so new entries are for targets of descents.
    refine (run.touches_of_mem hidle hentry).imp_right fun htouches => Or.inl ?_
    rw [Touches, hhoists, hlog] at htouches
    rcases htouches with hmem | ⟨descent, hmem, hkey⟩
    · cases hmem
    · rw [← hkey]
      exact h.canonical_key hmem

theorem performs_mapSchema (hclosed : doc.Closed) {schema : Schema} {pointer : String}
    (hp : ∀ visit ∈ schema.visits pointer, ∀ diagnostic, visit.Leads doc diagnostic →
      p diagnostic) :
    Performs doc k p (mapSchema doc schema pointer) := by
  intro state hidle
  obtain ⟨log, later, hlater, hrun⟩ := mapSchema_run hclosed schema pointer hidle.coherent
  rw [hrun]
  exact performed_of_expandsAll hclosed hidle hlater hp

theorem performs_mapComponents (hclosed : doc.Closed)
    (hp : ∀ component ∈ doc.schemas, ∀ diagnostic,
      (Visit.reference (Reference.componentKey component.1)).Leads doc diagnostic →
        p diagnostic) :
    Performs doc k p (mapComponents doc) := by
  intro state hidle
  obtain ⟨log, later, hlater, hrun⟩ := mapComponents_run hclosed hidle.coherent
  rw [hrun]
  refine performed_of_expandsAll hclosed hidle hlater fun visit hvisit diagnostic hleads => ?_
  obtain ⟨component, hmem, rfl⟩ := List.mem_map.mp hvisit
  exact hp component hmem diagnostic hleads

/-- Hoisting stores a type under its key and adds no diagnostics. -/
private theorem performs_hoist {key : String} (hkey : k key) (base : String) (type : Descriptor) :
    Performs doc k p (hoist key base type) :=
  fun state hidle => ⟨⟨_, .single (.hoist state key (Identifier.typeName base) type hidle.chain),
    List.forall_mem_singleton.mpr hkey⟩, hidle.chain, .of_eq rfl, fun entry hentry => by
      rcases Table.mem_insert hentry with rfl | hold
      · exact Or.inr (Or.inr hkey)
      · exact Or.inl ⟨entry, hold, rfl⟩⟩

/-- Content that has been hoisted before is referred to, and the state stays as it is. -/
theorem mapHoisted_of_hoisted {schema : Schema} {key base : String} {state : Mapping}
    {type : Descriptor} (h : state.hoisted? key = some type) :
    (mapHoisted doc schema key base).run state = (type, state) := by
  simp only [mapHoisted, StateT.run_bind, StateT.run_get, pure_bind, h]
  rfl

/-- Content that has not been hoisted yet is mapped, and then hoisted if its type is complex. -/
theorem mapHoisted_of_not_hoisted {schema : Schema} {key base : String} {state : Mapping}
    (h : state.hoisted? key = none) :
    (mapHoisted doc schema key base).run state =
      (do
        let type ← mapSchema doc schema key
        if type.isComplex then hoist key base type else return type).run state := by
  simp only [mapHoisted, StateT.run_bind, StateT.run_get, pure_bind, h]

/-- Mapping content performs what its visits lead to, and stores at most its own type under its own
key. -/
private theorem performs_mapHoisted (hclosed : doc.Closed) {schema : Schema} {key : String}
    (hkey : k key) (hp : ∀ visit ∈ schema.visits key, ∀ diagnostic, visit.Leads doc diagnostic →
      p diagnostic) (base : String) :
    Performs doc k p (mapHoisted doc schema key base) := by
  intro state hidle
  rcases hhoisted : state.hoisted? key with _ | reference
  · rw [mapHoisted_of_not_hoisted hhoisted]
    have hperforms : Performs doc k p (do
        let type ← mapSchema doc schema key
        if type.isComplex then hoist key base type else return type) := by
      refine (performs_mapSchema hclosed hp).bind fun _ _ => ?_
      split
      · exact performs_hoist hkey base _
      · exact .pure _
    exact hperforms state hidle
  · rw [mapHoisted_of_hoisted hhoisted]
    exact Performs.pure () state hidle

end Schemas

end Mapping

/-! ### Operations -/

namespace Site

/-- What a diagnostic of an operation comes from. -/
inductive Origin (doc : Document) (site : Site) : Diagnostic → Prop
  | unresolvedParameter {parameter : Referable Parameter} {place : String}
      (hdeclared : (parameter, place) ∈ site.declared)
      (hresolve : doc.resolve? "parameters" doc.parameters Parameter.read parameter = none) :
      Origin doc site ⟨place, .unresolvedParameter⟩
  | unsupportedLocation {parameter : Parameter} {place : String}
      (hmerged : (parameter, place) ∈ site.merged doc)
      (hlocation : Location.ofKey? parameter.location = none) :
      Origin doc site ⟨place, .unsupportedLocation parameter.location⟩
  | parameter {parameter : Parameter} {place pointer : String} {schema : Schema} {visit : Visit}
      {diagnostic : Diagnostic} (hmerged : (parameter, place) ∈ site.merged doc)
      (hlocation : (Location.ofKey? parameter.location).isSome)
      (hschema : parameter.schemaAt? place = some (schema, pointer))
      (hvisit : visit ∈ schema.visits pointer) (hleads : visit.Leads doc diagnostic) :
      Origin doc site diagnostic
  | undeclaredPathParameter {name : String}
      (hname : name ∈ (PathTemplate.parse site.path).paramNames) :
      Origin doc site ⟨site.pointer, .undeclaredPathParameter name⟩
  | unresolvedBody {body : Referable RequestBody}
      (hbody : site.operation.requestBody = some body)
      (hresolve : doc.resolve? "requestBodies" doc.requestBodies RequestBody.read body = none) :
      Origin doc site ⟨site.bodyPointer, .unresolvedBody⟩
  | unresolvedResponse {status : String} {response : Referable Response}
      (hresponse : (status, response) ∈ site.operation.responses)
      (hresolve : doc.resolve? "responses" doc.responses Response.read response = none) :
      Origin doc site ⟨site.responsePointer status, .unresolvedResponse⟩
  | content {schema : Schema} {key : String} {visit : Visit} {diagnostic : Diagnostic}
      (hcontent : site.Content doc schema key) (hvisit : visit ∈ schema.visits key)
      (hleads : visit.Leads doc diagnostic) :
      Origin doc site diagnostic

/-- The keys under which an operation stores types that were written in place. -/
def Stores (doc : Document) (site : Site) (key : String) : Prop :=
  ∃ schema, site.Content doc schema key

end Site

namespace Mapping

section Operations

variable {doc : Document} {site : Site}

/-- Merging parameters comes to a fold over those that can be resolved. -/
theorem mergeParameters_run (merged : List (Parameter × String))
    (declared : List (Referable Parameter × String)) (state : Mapping) :
    ((mergeParameters doc merged declared).run state).1 =
      (Site.resolved doc declared).foldl mergeParameter merged := by
  induction declared generalizing merged state with
  | nil => rfl
  | cons first more ih =>
    obtain ⟨parameter, place⟩ := first
    rw [mergeParameters, Site.resolved, List.filterMap_cons]
    split
    next value hresolve =>
      simp only [hresolve, Option.map_some]
      exact ih _ state
    next hresolve =>
      simp only [hresolve, Option.map_none]
      exact ih merged _

/-- Merging parameters adds no new ones. -/
theorem of_mem_foldl_mergeParameter {declarations merged : List (Parameter × String)}
    {parameter : Parameter × String} (h : parameter ∈ declarations.foldl mergeParameter merged) :
    parameter ∈ merged ∨ parameter ∈ declarations := by
  induction declarations generalizing merged with
  | nil => exact Or.inl h
  | cons first more ih =>
    rcases ih h with hmem | hmem
    · rcases List.mem_append.mp hmem with hold | hnew
      · exact Or.inl (List.mem_of_mem_filter hold)
      · exact Or.inr (List.mem_singleton.mp hnew ▸ List.mem_cons_self)
    · exact Or.inr (List.mem_cons_of_mem first hmem)

/-- The type of a parameter is that of its schema, and it is unknown if there is none. -/
theorem parameterType_eq (parameter : Parameter) (place : String) :
    parameterType doc parameter place =
      match parameter.schemaAt? place with
      | some (schema, pointer) => mapSchema doc schema pointer
      | none => return .scalar .string := by
  rw [parameterType, Parameter.schemaAt?]
  rcases parameter.schema with _ | schema
  · rcases firstSchema? (parameter.content.getD []) with _ | ⟨media, schema⟩ <;> rfl
  · rfl

/-- Content belongs to the place of its declaration. -/
theorem hoistSite_fst {α : Type} (area pointer base : String) (declared : Referable α) :
    (hoistSite area pointer base declared).1 = declared.place pointer := by
  rcases declared with path | value
  · rw [hoistSite]
    split <;> rfl
  · rfl

/-- How a client sends content. -/
def bodyFormat (content : List (String × MediaType)) : RequestFormat :=
  match Media.pick? content with
  | some (media, _) => Media.requestFormat (Media.essence media)
  | none => .json

/-- A body that cannot be resolved is dropped without a diagnostic. -/
theorem mapBody_of_unresolved {body : Referable RequestBody} {pointer base : String}
    (h : doc.resolve? "requestBodies" doc.requestBodies RequestBody.read body = none) :
    mapBody doc body pointer base = return none := by
  rw [mapBody, h]

/-- A body that can be resolved gives a format and one parameter, whose type is that of its
preferred content. -/
theorem mapBody_of_resolved {body : Referable RequestBody} {value : RequestBody}
    {pointer base : String}
    (h : doc.resolve? "requestBodies" doc.requestBodies RequestBody.read body = some value) :
    mapBody doc body pointer base =
      (fun type => some (bodyFormat value.content, ⟨"body", .body, type, value.required⟩)) <$>
        match contentAt? value.content (body.place pointer) with
        | some (schema, key) =>
          mapHoisted doc schema key (hoistSite "requestBodies" pointer (base ++ "Body") body).2
        | none => return .unknown := by
  rw [← hoistSite_fst "requestBodies" pointer (base ++ "Body")]
  simp only [mapBody, h, contentAt?, bodyFormat]
  rcases Media.pick? value.content with _ | ⟨media, _ | schema⟩
  · simp only [Option.bind_none, pure_bind, map_pure]
  · simp only [Option.bind_some, Option.map_none, pure_bind, map_pure]
  · simp only [Option.bind_some, Option.map_some, map_eq_pure_bind, pure_bind]

/-- A response that cannot be resolved is reported and gives no type. -/
theorem mapResponse_of_unresolved {response : Referable Response} {pointer base status : String}
    (h : doc.resolve? "responses" doc.responses Response.read response = none) :
    mapResponse doc response pointer base status = do
      report pointer .unresolvedResponse
      return none := by
  rw [mapResponse, h]

/-- A response that can be resolved gives the type of its preferred content, and none without such
content. -/
theorem mapResponse_of_resolved {response : Referable Response} {value : Response}
    {pointer base status : String}
    (h : doc.resolve? "responses" doc.responses Response.read response = some value) :
    mapResponse doc response pointer base status =
      match contentAt? value.content (response.place pointer) with
      | some (schema, key) =>
        some <$> mapHoisted doc schema key (hoistSite "responses" pointer
          (base ++ "Response" ++ Identifier.pascalCase status) response).2
      | none => return none := by
  rw [← hoistSite_fst "responses" pointer (base ++ "Response" ++ Identifier.pascalCase status)]
  simp only [mapResponse, h, contentAt?]
  rcases Media.pick? value.content with _ | ⟨media, _ | schema⟩ <;>
    simp only [Option.bind_none, Option.bind_some, Option.map_none, Option.map_some]

theorem performs_mergeParameters (merged : List (Parameter × String))
    {declared : List (Referable Parameter × String)} (hsubset : declared ⊆ site.declared) :
    Performs doc (site.Stores doc) (site.Origin doc) (mergeParameters doc merged declared) := by
  induction declared generalizing merged with
  | nil => exact .pure merged
  | cons first more ih =>
    obtain ⟨hfirst, hmore⟩ := List.cons_subset.mp hsubset
    rw [mergeParameters]
    split
    · exact ih _ hmore
    next hresolve =>
      exact (performs_report (.unresolvedParameter hfirst hresolve)).bind fun _ _ => ih _ hmore

theorem performs_parameterType (hclosed : doc.Closed) {parameter : Parameter} {place : String}
    (h : (parameter, place) ∈ site.merged doc)
    (hlocation : (Location.ofKey? parameter.location).isSome) :
    Performs doc (site.Stores doc) (site.Origin doc) (parameterType doc parameter place) := by
  rw [parameterType_eq]
  split
  next schema pointer hschema =>
    exact performs_mapSchema hclosed fun visit hvisit diagnostic hleads =>
      .parameter h hlocation hschema hvisit hleads
  next => exact .pure _

private theorem performs_mapParameters (hclosed : doc.Closed) {merged : List (Parameter × String)}
    (hsubset : merged ⊆ site.merged doc) :
    Performs doc (site.Stores doc) (site.Origin doc) (mapParameters doc merged) := by
  induction merged with
  | nil => exact .pure []
  | cons first more ih =>
    obtain ⟨hfirst, hmore⟩ := List.cons_subset.mp hsubset
    obtain ⟨parameter, place⟩ := first
    rw [mapParameters]
    split
    next hlocation =>
      exact (performs_parameterType hclosed hfirst (Option.isSome_of_eq_some hlocation)).bind
        fun _ _ => (ih hmore).bind fun _ _ => .pure _
    next hlocation =>
      exact (performs_report (.unsupportedLocation hfirst hlocation)).bind fun _ _ => ih hmore

/-- Parameters that are synthesized for the path are reported at the operation. -/
private theorem performs_completePath (parameters : List EndpointParameter) {names : List String}
    (hsubset : names ⊆ (PathTemplate.parse site.path).paramNames) :
    Performs doc (site.Stores doc) (site.Origin doc)
      (completePath site.pointer parameters names) := by
  induction names generalizing parameters with
  | nil => exact .pure parameters
  | cons name more ih =>
    obtain ⟨hname, hmore⟩ := List.cons_subset.mp hsubset
    rw [completePath]
    split
    · exact ih _ hmore
    · exact (performs_report (.undeclaredPathParameter hname)).bind fun _ _ => ih _ hmore

private theorem performs_siteParameters (hclosed : doc.Closed) (site : Site) :
    Performs doc (site.Stores doc) (site.Origin doc) (siteParameters doc site) := by
  refine (performs_mergeParameters [] (List.Subset.refl _)).bind fun state _ => ?_
  have hsubset : ((mergeParameters doc [] site.declared).run state).1 ⊆ site.merged doc := by
    rw [mergeParameters_run]
    exact List.Subset.refl _
  exact (performs_mapParameters hclosed hsubset).bind fun _ _ =>
    performs_completePath _ (List.Subset.refl _)

/-- The schemas of the body and the responses perform what belongs to their operation. -/
private theorem performs_content (hclosed : doc.Closed) {schema : Schema} {key : String}
    (hcontent : site.Content doc schema key) (base : String) :
    Performs doc (site.Stores doc) (site.Origin doc) (mapHoisted doc schema key base) :=
  performs_mapHoisted hclosed ⟨schema, hcontent⟩
    (fun _ hvisit _ hleads => .content hcontent hvisit hleads) base

private theorem performs_mapBody (hclosed : doc.Closed) {body : Referable RequestBody}
    (hbody : site.operation.requestBody = some body) (base : String) :
    Performs doc (site.Stores doc) (site.Origin doc)
      (mapBody doc body site.bodyPointer base) := by
  rcases hresolve : doc.resolve? "requestBodies" doc.requestBodies RequestBody.read body with
    _ | value
  · rw [mapBody_of_unresolved hresolve]
    exact .pure none
  · rw [mapBody_of_resolved hresolve]
    refine Performs.map _ ?_
    split
    next schema key hcontent => exact performs_content hclosed (.body hbody hresolve hcontent) _
    next => exact .pure _

private theorem performs_siteBody (hclosed : doc.Closed) (site : Site) (base : String) :
    Performs doc (site.Stores doc) (site.Origin doc) (siteBody doc site base) := by
  rw [siteBody]
  split
  · exact .pure _
  next body hbody =>
    refine (performs_mapBody hclosed hbody base).bind fun state _ => ?_
    rcases hresolve : doc.resolve? "requestBodies" doc.requestBodies RequestBody.read body with
      _ | value
    · rw [mapBody_of_unresolved hresolve]
      exact (performs_report (.unresolvedBody hbody hresolve)).bind fun _ _ => .pure _
    · rw [mapBody_of_resolved hresolve]
      exact .pure _

theorem performs_mapResponse (hclosed : doc.Closed) {status : String}
    {response : Referable Response} (hresponse : (status, response) ∈ site.operation.responses)
    (base : String) :
    Performs doc (site.Stores doc) (site.Origin doc)
      (mapResponse doc response (site.responsePointer status) base status) := by
  rcases hresolve : doc.resolve? "responses" doc.responses Response.read response with _ | value
  · rw [mapResponse_of_unresolved hresolve]
    exact (performs_report (.unresolvedResponse hresponse hresolve)).bind fun _ _ => .pure none
  · rw [mapResponse_of_resolved hresolve]
    split
    next schema key hcontent =>
      exact (performs_content hclosed (.response hresponse hresolve hcontent) _).map some
    next => exact .pure none

private theorem performs_siteResponses (hclosed : doc.Closed) (site : Site) (base : String) :
    Performs doc (site.Stores doc) (site.Origin doc) (siteResponses doc site base) :=
  .mapM fun _ hresponse => (performs_mapResponse hclosed hresponse base).bind fun _ _ => .pure _

/-- **What an operation does.** Mapping an operation is a run that stores types only under the
places of its contents, and every diagnostic that it adds has an origin in the operation. -/
theorem performs_mapSite (hclosed : doc.Closed) (site : Site) (name : String) :
    Performs doc (site.Stores doc) (site.Origin doc) (mapSite doc site name) :=
  (performs_siteParameters hclosed site).bind fun _ _ =>
    (performs_siteBody hclosed site _).bind fun _ _ =>
      (performs_siteResponses hclosed site _).bind fun _ _ => .pure _

end Operations

/-! ### Documents -/

section Documents

variable {doc : Document} {k : String → Prop} {p : Diagnostic → Prop} {α ρ : Type}

/-- What is computed for a list is computed for each item from some idle state, and no diagnostics
are lost afterwards. -/
theorem forall₂_mapM {f : ρ → MapM α} {list : List ρ} (h : ∀ x ∈ list, Performs doc k p (f x))
    {state : Mapping} (hidle : Idle doc state) :
    List.Forall₂ (fun x a => ∃ before, Idle doc before ∧ ((f x).run before).1 = a ∧
      ((f x).run before).2.diagnostics ⊆ ((list.mapM f).run state).2.diagnostics)
      list ((list.mapM f).run state).1 := by
  induction list generalizing state with
  | nil => exact .nil
  | cons x more ih =>
    obtain ⟨hfirst, hmore⟩ := List.forall_mem_cons.mp h
    have hnext := hfirst state hidle
    have hlater := ih hmore (hnext.idle hidle)
    have hadds := (Performs.mapM hmore _ (hnext.idle hidle)).adds
    rw [List.mapM_cons]
    exact .cons ⟨state, hidle, rfl, hadds.subset⟩ hlater

/-- **Responses.** Each response of an operation is what the mapper gives for it in some idle state,
and its diagnostics are not lost afterwards. -/
theorem forall₂_siteResponses (hclosed : doc.Closed) (site : Site) (base : String)
    {state : Mapping} (hidle : Idle doc state) :
    List.Forall₂ (fun response entry => entry.1 = response.1 ∧ ∃ before, Idle doc before ∧
      ((mapResponse doc response.2 (site.responsePointer response.1) base response.1).run
        before).1 = entry.2 ∧
      ((mapResponse doc response.2 (site.responsePointer response.1) base response.1).run
        before).2.diagnostics ⊆ ((siteResponses doc site base).run state).2.diagnostics)
      site.operation.responses ((siteResponses doc site base).run state).1 := by
  have hall : ∀ response ∈ site.operation.responses, Performs doc (site.Stores doc)
      (site.Origin doc) (do
        let type ← mapResponse doc response.2 (site.responsePointer response.1) base response.1
        return (response.1, type)) := fun response hresponse =>
    (performs_mapResponse hclosed hresponse base).bind fun _ _ => .pure _
  refine (forall₂_mapM hall hidle).imp fun response entry hentry => ?_
  obtain ⟨before, hbefore, rfl, hsubset⟩ := hentry
  exact ⟨rfl, before, hbefore, rfl, hsubset⟩

theorem idle_start (doc : Document) : Idle doc (start doc) :=
  ⟨coherent_start doc, chain_start doc⟩

/-- What a diagnostic of a document comes from: following the reference to a component, or an
operation. -/
def Origin (doc : Document) (diagnostic : Diagnostic) : Prop :=
  (∃ component ∈ doc.schemas,
    (Visit.reference (Reference.componentKey component.1)).Leads doc diagnostic) ∨
    ∃ site ∈ Site.all doc, site.Origin doc diagnostic

/-- Whether types that were written in place are stored under a key. -/
def Stores (doc : Document) (key : String) : Prop :=
  ∃ site ∈ Site.all doc, site.Stores doc key

/-- Naming the operations adds none to them. -/
private theorem site_mem_all {pair : Site × String}
    (h : pair ∈ Site.withNames {} (Site.all doc)) : pair.1 ∈ Site.all doc := by
  have hmem := List.mem_map_of_mem h (f := Prod.fst)
  rwa [Site.map_fst_withNames] at hmem

/-- Mapping the operations of a document, under whatever names, stores types only under the places
of their contents. -/
theorem performs_sites (hclosed : doc.Closed) :
    ∀ pair ∈ Site.withNames {} (Site.all doc),
      Performs doc (Stores doc) (Origin doc) (mapSite doc pair.1 pair.2) := by
  intro pair hpair
  have hsite := site_mem_all hpair
  refine (performs_mapSite hclosed pair.1 pair.2).imp (fun key hkey => ?_) fun _ horigin => ?_
  · exact ⟨pair.1, hsite, hkey⟩
  · exact Or.inr ⟨pair.1, hsite, horigin⟩

theorem performs_components (hclosed : doc.Closed) :
    Performs doc (Stores doc) (Origin doc) (mapComponents doc) :=
  performs_mapComponents hclosed fun component hmem _ hleads => Or.inl ⟨component, hmem, hleads⟩

/-- **What a document does.** Mapping a document is a run that stores types only under the places of
the contents of its operations, and every diagnostic that it adds has an origin. -/
theorem performs_mapEndpoints (hclosed : doc.Closed) :
    Performs doc (Stores doc) (Origin doc) (mapEndpoints doc) :=
  (performs_components hclosed).bind fun _ _ => .mapM (performs_sites hclosed)

/-- **Origins.** Every diagnostic of a document has an origin. -/
theorem origin_of_mem_diagnostics (hclosed : doc.Closed) {diagnostic : Diagnostic}
    (h : diagnostic ∈ (Document.toApi doc).diagnostics) : Origin doc diagnostic := by
  obtain ⟨new, hdiagnostics, hnew⟩ := (performs_mapEndpoints hclosed _ (idle_start doc)).adds
  have hstart : (start doc).diagnostics = [] := diagnostics_start doc
  rw [hstart, List.nil_append] at hdiagnostics
  refine hnew diagnostic ?_
  rw [← hdiagnostics]
  exact h

/-- What an endpoint has from its operation: its method, its path, and what each part of the mapper
gives in some idle state, without the diagnostics being lost afterwards. -/
structure Gives (doc : Document) (site : Site) (endpoint : Endpoint) : Prop where
  method : endpoint.method = site.method
  path : endpoint.path = PathTemplate.parse site.path
  parameters : ∃ parameters body, endpoint.parameters = parameters ++ body ∧
    (∃ before, Idle doc before ∧ ((siteParameters doc site).run before).1 = parameters) ∧
    ∃ before base, Idle doc before ∧
      ((siteBody doc site base).run before).1 = (endpoint.requestFormat, body) ∧
      ((siteBody doc site base).run before).2.diagnostics ⊆ (Document.toApi doc).diagnostics
  responses : ∃ before base, Idle doc before ∧
    ((siteResponses doc site base).run before).1 = endpoint.responses ∧
    ((siteResponses doc site base).run before).2.diagnostics ⊆ (Document.toApi doc).diagnostics

/-- What an operation is mapped to gives each of its parts in an idle state, as long as no
diagnostic is lost afterwards. -/
private theorem gives_mapSite (hclosed : doc.Closed) {site : Site} {name : String}
    {before : Mapping} (hidle : Idle doc before)
    (hsubset : ((mapSite doc site name).run before).2.diagnostics ⊆
      (Document.toApi doc).diagnostics) :
    Gives doc site ((mapSite doc site name).run before).1 := by
  have hparameters := performs_siteParameters hclosed site before hidle
  have hidle' := hparameters.idle hidle
  have hbody := performs_siteBody hclosed site (site.typeBase name) _ hidle'
  have hidle'' := hbody.idle hidle'
  have hresponses := performs_siteResponses hclosed site (site.typeBase name) _ hidle''
  refine ⟨rfl, rfl, ⟨_, _, rfl, ⟨before, hidle, rfl⟩, _, site.typeBase name, hidle', rfl, ?_⟩,
    _, site.typeBase name, hidle'', rfl, hsubset⟩
  exact List.Subset.trans hresponses.adds.subset hsubset

/-- **Endpoints.** Each operation of a document has an endpoint, in order. -/
theorem forall₂_endpoints (hclosed : doc.Closed) :
    List.Forall₂ (Gives doc) (Site.all doc) (Document.toApi doc).endpoints := by
  have hidle := (performs_components hclosed _ (idle_start doc)).idle (idle_start doc)
  have hpairs := forall₂_mapM (performs_sites hclosed) hidle
  rw [← Site.map_fst_withNames {} (Site.all doc)]
  refine List.forall₂_map_left_iff.mpr (hpairs.imp fun pair endpoint hpair => ?_)
  obtain ⟨before, hbefore, rfl, hsubset⟩ := hpair
  exact gives_mapSite hclosed hbefore hsubset

end Documents

end Mapping

end ClientGen
