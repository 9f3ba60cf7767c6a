import ClientGen.Proofs.Client.Items
import ClientGen.Proofs.Client.Types
import Mathlib.Data.List.Forall2

/-!
# What the check of references covers

Before a client is generated, the references of its API are checked in order: those of the table,
then those of each endpoint, of its parameters before its responses. `Api.Mentions` says where a
reference can be in an API, and the check sees each such place (`Api.mem_references_iff`).

The types in a module are made by another walk through the same descriptors, which groups parameters
by location and picks one response as the primary one. It mentions the references of a descriptor in
the order of the check (`Script.TypeExpr.names_ofDescriptor`), and what is regrouped stays with its
endpoint. So each type of a schema in a generated module stands for a reference that the check found
to have an entry (`Api.generate_covers`).
-/

namespace ClientGen

open Script

/-! ### References of an API -/

/-- Whether an API has a reference to `key` under `name` inside one of its types, at any depth. -/
inductive Api.Mentions (api : Api) (key name : String) : Prop
  | entry {entry : Entry} : entry ∈ api.types.entries → entry.type.Mentions key name →
      api.Mentions key name
  | parameter {endpoint : Endpoint} {parameter : EndpointParameter} :
      endpoint ∈ api.endpoints → parameter ∈ endpoint.parameters →
        parameter.type.Mentions key name → api.Mentions key name
  | response {endpoint : Endpoint} {status : String} {type : Descriptor} :
      endpoint ∈ api.endpoints → (status, some type) ∈ endpoint.responses →
        type.Mentions key name → api.Mentions key name

/-- The references of an endpoint in the order in which they are checked. -/
def Endpoint.references (endpoint : Endpoint) : List (String × String) :=
  endpoint.parameters.flatMap (·.type.references) ++
    endpoint.responses.flatMap fun response => (response.2.map Descriptor.references).getD []

theorem endpointReferences_eq (endpoint : Endpoint) :
    Client.endpointReferences endpoint = endpoint.references := by
  have hresponses (responses : List (String × Option Descriptor)) :
      (responses.filterMap Prod.snd).flatMap Descriptor.references =
        responses.flatMap fun response => (response.2.map Descriptor.references).getD [] := by
    induction responses with
    | nil => rfl
    | cons response rest ih =>
      obtain ⟨status, _ | type⟩ := response
      · rw [List.filterMap_cons_none rfl, ih, List.flatMap_cons, Option.map_none, Option.getD_none,
          List.nil_append]
      · have hfirst : ((status, some type) :: rest).filterMap Prod.snd =
            type :: rest.filterMap Prod.snd := List.filterMap_cons_some rfl
        rw [hfirst, List.flatMap_cons, ih, List.flatMap_cons, Option.map_some, Option.getD_some]
  rw [Client.endpointReferences, Api.endpointTypes, List.flatMap_append, hresponses,
    List.flatMap_map, Endpoint.references]

/-- **Order of the check.** The references of the table come first, and then those of each endpoint,
of its parameters before its responses. -/
theorem Api.references_eq (api : Api) :
    api.references =
      api.types.entries.flatMap (·.type.references) ++
        api.endpoints.flatMap Endpoint.references := by
  have hendpoints : api.endpoints.flatMap Client.endpointReferences =
      api.endpoints.flatMap Endpoint.references :=
    List.flatMap_congr fun endpoint _ => endpointReferences_eq endpoint
  exact congrArg _ hendpoints

/-- The references of an endpoint are what the types of its parameters and responses mention. -/
theorem Endpoint.mem_references_iff {endpoint : Endpoint} {key name : String} :
    (key, name) ∈ endpoint.references ↔
      (∃ parameter ∈ endpoint.parameters, parameter.type.Mentions key name) ∨
        ∃ status type, (status, some type) ∈ endpoint.responses ∧ type.Mentions key name := by
  rw [Endpoint.references, List.mem_append, List.mem_flatMap, List.mem_flatMap]
  refine or_congr ?_ ?_
  · exact exists_congr fun parameter => and_congr_right fun _ => Descriptor.mem_references_iff
  · constructor
    · rintro ⟨⟨status, _ | type⟩, hresponse, hreference⟩
      · cases hreference
      · exact ⟨status, type, hresponse, Descriptor.mem_references_iff.mp hreference⟩
    · rintro ⟨status, type, hresponse, hmentions⟩
      exact ⟨(status, some type), hresponse, hmentions.mem_references⟩

/-- The check sees every reference of an API and no others. -/
theorem Api.mem_references_iff {api : Api} {key name : String} :
    (key, name) ∈ api.references ↔ api.Mentions key name := by
  rw [Api.references_eq, List.mem_append, List.mem_flatMap, List.mem_flatMap]
  constructor
  · rintro (⟨entry, hentry, hreference⟩ | ⟨endpoint, hendpoint, hreference⟩)
    · exact .entry hentry (Descriptor.mem_references_iff.mp hreference)
    · rcases Endpoint.mem_references_iff.mp hreference with
        ⟨parameter, hparameter, hmentions⟩ | ⟨status, type, hresponse, hmentions⟩
      · exact .parameter hendpoint hparameter hmentions
      · exact .response hendpoint hresponse hmentions
  · intro hmentions
    cases hmentions with
    | entry hentry hmentions => exact Or.inl ⟨_, hentry, hmentions.mem_references⟩
    | parameter hendpoint hparameter hmentions =>
      exact Or.inr ⟨_, hendpoint,
        Endpoint.mem_references_iff.mpr (Or.inl ⟨_, hparameter, hmentions⟩)⟩
    | response hendpoint hresponse hmentions =>
      exact Or.inr ⟨_, hendpoint,
        Endpoint.mem_references_iff.mpr (Or.inr ⟨_, _, hresponse, hmentions⟩)⟩

/-! ### The check -/

/-- The dangling key is the first among the references, in order, that has no entry. -/
theorem Api.danglingKey?_eq_some_iff {api : Api} {key : String} :
    api.danglingKey? = some key ↔
      ∃ before reference after, api.references = before ++ reference :: after ∧
        reference.1 = key ∧ api.types.contains key = false ∧
        ∀ earlier ∈ before, api.types.contains earlier.1 = true := by
  rw [Api.danglingKey?, List.find?_map, Option.map_eq_some_iff]
  constructor
  · rintro ⟨reference, hfind, rfl⟩
    obtain ⟨hdangling, before, after, hreferences, hbefore⟩ :=
      List.find?_eq_some_iff_append.mp hfind
    refine ⟨before, reference, after, hreferences, rfl, by simpa using hdangling, ?_⟩
    exact fun earlier hearlier => by simpa using hbefore earlier hearlier
  · rintro ⟨before, reference, after, hreferences, rfl, hdangling, hbefore⟩
    refine ⟨reference, List.find?_eq_some_iff_append.mpr ⟨by simpa using hdangling, before, after,
      hreferences, fun earlier hearlier => by simpa using hbefore earlier hearlier⟩, rfl⟩

/-- No key is dangling exactly if every key that the API mentions has an entry. -/
theorem Api.danglingKey?_eq_none_iff {api : Api} :
    api.danglingKey? = none ↔
      ∀ key name, api.Mentions key name → api.types.contains key = true := by
  rw [Api.danglingKey?, List.find?_eq_none, List.forall_mem_map]
  constructor
  · intro h key name hmentions
    simpa using h (key, name) (Api.mem_references_iff.mpr hmentions)
  · intro h reference hreference
    simpa using h reference.1 reference.2 (Api.mem_references_iff.mp hreference)

/-! ### Types in a module -/

/-- Whether the types that a definition mentions are those of some references, whose keys have an
entry in the table. -/
def Script.TypeAlias.ComesFrom (api : Api) (references : List (String × String))
    (definition : TypeAlias) : Prop :=
  ∀ name ∈ definition.type.names, ∃ reference ∈ references,
    name = TypeExpr.qualified reference ∧ api.types.contains reference.1 = true

/-- Whether an item of a module, if it is a namespace of types, is that of the schemas or that of
the endpoints, and each type in it mentions only types of schemas that have an entry and that its
own entry or its own endpoint refers to. -/
def Script.Item.ComesFrom (api : Api) : Item → Prop
  | .typeNamespace name definitions =>
    (name = schemasNamespace ∧
      List.Forall₂ (fun entry definition =>
          definition.name = entry.name ∧ definition.ComesFrom api entry.type.references)
        api.types.entries definitions) ∨
    (name = Client.endpointsNamespace ∧
      List.Forall₂ (fun endpoint definition =>
          definition.name = endpoint.name ∧ definition.ComesFrom api endpoint.references)
        api.endpoints definitions)
  | _ => True

section

variable {api : Api} (h : ∀ reference ∈ api.references, api.types.contains reference.1 = true)

include h

/-- The types of schemas mention what entries mention. -/
theorem comesFrom_schemaTypes : (Client.schemaTypes api.types).ComesFrom api := by
  refine Or.inl ⟨rfl, List.forall₂_map_right_iff.mpr (List.forall₂_same.mpr fun entry hentry => ?_)⟩
  refine ⟨rfl, fun name hname => ?_⟩
  rw [TypeExpr.names_ofDescriptor] at hname
  obtain ⟨reference, hreference, rfl⟩ := List.mem_map.mp hname
  have hmem : reference ∈ api.references := by
    rw [Api.references_eq]
    exact List.mem_append_left _ (List.mem_flatMap.mpr ⟨entry, hentry, hreference⟩)
  exact ⟨reference, hreference, rfl, h reference hmem⟩

/-- The types of endpoints mention what parameters and responses mention. -/
theorem comesFrom_endpointTypes : (Client.endpointTypes api.endpoints).ComesFrom api := by
  refine Or.inr ⟨rfl, List.forall₂_map_right_iff.mpr
    (List.forall₂_same.mpr fun endpoint hendpoint => ?_)⟩
  refine ⟨rfl, fun name hname => ?_⟩
  obtain ⟨reference, hreference, rfl⟩ := Client.exists_reference_of_endpointType endpoint name hname
  rw [endpointReferences_eq] at hreference
  have hmem : reference ∈ api.references := by
    rw [Api.references_eq]
    exact List.mem_append_right _ (List.mem_flatMap.mpr ⟨endpoint, hendpoint, hreference⟩)
  exact ⟨reference, hreference, rfl, h reference hmem⟩

/-- No item of the module mentions a type that does not come from a checked reference. -/
theorem comesFrom_toModule (target : Target) :
    ∀ item ∈ (api.toModule target).items, item.ComesFrom api := by
  have hconstant (item : Item) (hitem : item.constant?.isSome = true) : item.ComesFrom api := by
    cases item with
    | typeNamespace name definitions => cases hitem
    | _ => trivial
  obtain ⟨items, hitems, hbefore⟩ := @Api.exists_items api target (Item.ComesFrom api)
    (fun _ _ => ⟨trivial, trivial⟩) (comesFrom_schemaTypes h)
    (fun library hlibrary item hitem =>
      hconstant item (Target.isSome_constant? hlibrary _ item hitem))
    (comesFrom_endpointTypes h) (fun _ _ _ _ => trivial) trivial trivial
    (fun item hitem => by
      rcases List.mem_append.mp hitem with hmethod | hall
      · obtain ⟨method, -, rfl⟩ := List.mem_map.mp hmethod
        trivial
      · rw [List.mem_singleton.mp hall]
        trivial)
  rw [hitems]
  exact List.forall_mem_append.mpr ⟨hbefore, List.forall_mem_cons.mpr
    ⟨trivial, List.forall_mem_singleton.mpr trivial⟩⟩

end

/-- **Coverage.** A generation fails exactly if some reference inside an entry, a parameter or a
response has no entry, and it says the first such key in the order of the check. The type of a
descriptor mentions what the descriptor refers to, in the same order. So in the text of a generation
that succeeds, each type in the namespaces of schemas and endpoints comes from references that have
an entry. -/
theorem Api.generate_covers (api : Api) (target : Target) :
    ((∃ error, api.generate target = .error error) ↔
      ∃ key name, api.Mentions key name ∧ api.types.contains key = false) ∧
    (∀ error, api.generate target = .error error →
      ∃ before reference after,
        api.types.entries.flatMap (·.type.references) ++
          api.endpoints.flatMap Endpoint.references = before ++ reference :: after ∧
        error = .danglingReference reference.1 ∧
        api.types.contains reference.1 = false ∧
        ∀ earlier ∈ before, api.types.contains earlier.1 = true) ∧
    (∀ type : Descriptor,
      (TypeExpr.ofDescriptor type).names = type.references.map TypeExpr.qualified) ∧
    ∀ text, api.generate target = .ok text →
      text = (api.toModule target).text ∧
        ∀ item ∈ (api.toModule target).items, item.ComesFrom api := by
  -- The check goes through the references in order and stops at the first one without an entry.
  rw [Api.generate, Api.checkedModule, ← Api.references_eq]
  rcases hdangling : api.danglingKey? with _ | key
  · have hcontains := Api.danglingKey?_eq_none_iff.mp hdangling
    refine ⟨⟨?_, ?_⟩, ?_, TypeExpr.names_ofDescriptor, ?_⟩
    · rintro ⟨_, ⟨⟩⟩
    · rintro ⟨key, name, hmentions, hmissing⟩
      rw [hcontains key name hmentions] at hmissing
      cases hmissing
    · rintro _ ⟨⟩
    · rintro _ ⟨⟩
      refine ⟨rfl, comesFrom_toModule (fun reference hreference => ?_) target⟩
      exact hcontains reference.1 reference.2 (Api.mem_references_iff.mp hreference)
  · obtain ⟨before, reference, after, hreferences, rfl, hmissing, hbefore⟩ :=
      Api.danglingKey?_eq_some_iff.mp hdangling
    have hmem : reference ∈ api.references := by
      rw [hreferences]
      exact List.mem_append_right before List.mem_cons_self
    have hmentions := Api.mem_references_iff.mp hmem
    refine ⟨iff_of_true ⟨_, rfl⟩ ⟨reference.1, reference.2, hmentions, hmissing⟩, ?_,
      TypeExpr.names_ofDescriptor, ?_⟩
    · rintro _ ⟨⟩
      exact ⟨before, reference, after, hreferences, rfl, hmissing, hbefore⟩
    · rintro _ ⟨⟩

end ClientGen
