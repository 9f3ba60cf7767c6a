import ClientGen.Client.Module
import ClientGen.Proofs.Descriptor.References
import ClientGen.Proofs.Script.Scoped

/-!
# Types of a client

The types that a client declares mention exactly the names of the references in what they were made
from (`names_ofDescriptor`). Those of an endpoint are made from the types of its parameters and its
responses, and from nothing else (`exists_reference_of_endpointType`).
-/

namespace ClientGen

open Script

/-! ### Types of descriptors -/

namespace Script.TypeExpr

/-- The type of a schema, by the name that references to it have. -/
def qualified (reference : String × String) : String :=
  schemasNamespace ++ "." ++ reference.2

/-- A composition mentions what its members mention, even if it stands for its only member. -/
private theorem names_compose {wrap : List TypeExpr → TypeExpr}
    (hwrap : ∀ members, (wrap members).names = namesOfAll members) (members : List TypeExpr) :
    (compose wrap members).names = namesOfAll members := by
  rcases members with _ | ⟨first, _ | ⟨second, rest⟩⟩
  · rw [compose, names, namesOfAll]
  · rw [compose, namesOfAll, namesOfAll, List.append_nil]
  · exact hwrap _

/-- Literals mention no types. -/
private theorem names_ofLiterals (values : List Literal) : (ofLiterals values).names = [] := by
  have hall (values : List Literal) : namesOfAll (values.map literal) = [] := by
    induction values with
    | nil => rw [List.map_nil, namesOfAll]
    | cons value rest ih => rw [List.map_cons, namesOfAll, names, ih, List.append_nil]
  unfold ofLiterals
  split
  · rw [names]
  · rw [names, hall]

/-- An object mentions what its properties mention, and what all others do. -/
private theorem names_ofObject (members : List (Member TypeExpr)) (rest : Option TypeExpr) :
    (ofObject members rest).names = namesOfMembers members ++ (rest.map names).getD [] := by
  unfold ofObject
  split
  · simp [names, namesOfMembers]
  · simp [names]
  · simp [names, namesOfMembers]
  · simp [names, namesOfAll]

/-- That a property is optional adds no names to its type. -/
private theorem names_ofProperty (name : String) (type : TypeExpr) (required : Bool) :
    (ofProperty name type required).type.names = type.names := by
  rw [ofProperty]
  split_ifs
  · rfl
  · simp [names, namesOfAll]

mutual

/-- **Names in types.** The type of a descriptor mentions the types of the schemas that the
descriptor refers to, in their order. -/
theorem names_ofDescriptor (type : Descriptor) :
    (ofDescriptor type).names = type.references.map qualified := by
  cases type with
  | primitive kind format =>
    rw [ofDescriptor, Descriptor.references, List.map_nil]
    cases kind <;> rw [ofKind, names]
  | array item => rw [ofDescriptor, names, Descriptor.references, names_ofDescriptor item]
  | object properties rest =>
    -- Further keys become a record beside the object, or instead of it.
    cases rest with
    | none =>
      rw [ofDescriptor, names_ofObject, names_ofProperties properties, Descriptor.references,
        List.map_append]
      rfl
    | some value =>
      rw [ofDescriptor, names_ofObject, names_ofProperties properties, Descriptor.references,
        List.map_append, Option.map_some, Option.getD_some, names_ofDescriptor value]
  | enumeration values =>
    rw [ofDescriptor, names_ofLiterals, Descriptor.references, List.map_nil]
  | union kind members =>
    rw [ofDescriptor, names_compose (fun _ => by rw [names]), Descriptor.references,
      names_ofDescriptors members]
  | intersection members =>
    rw [ofDescriptor, names_compose (fun _ => by rw [names]), Descriptor.references,
      names_ofDescriptors members]
  | reference key name =>
    rw [ofDescriptor, names, Descriptor.references, List.map_singleton, qualified]
  | unknown => rw [ofDescriptor, names, Descriptor.references, List.map_nil]

/-- The types of properties mention the references in the properties. -/
private theorem names_ofProperties (properties : List (Property Descriptor)) :
    namesOfMembers (ofProperties properties) =
      (Descriptor.referencesOfProperties properties).map qualified := by
  cases properties with
  | nil => rw [ofProperties, namesOfMembers, Descriptor.referencesOfProperties, List.map_nil]
  | cons property rest =>
    obtain ⟨name, type, required⟩ := property
    rw [ofProperties, namesOfMembers, names_ofProperty, names_ofDescriptor type,
      names_ofProperties rest, Descriptor.referencesOfProperties, List.map_append]

/-- The types of several descriptors mention the references in them. -/
private theorem names_ofDescriptors (members : List Descriptor) :
    namesOfAll (ofDescriptors members) =
      (Descriptor.referencesOfMembers members).map qualified := by
  cases members with
  | nil => rw [ofDescriptors, namesOfAll, Descriptor.referencesOfMembers, List.map_nil]
  | cons member rest =>
    rw [ofDescriptors, namesOfAll, names_ofDescriptor member, names_ofDescriptors rest,
      Descriptor.referencesOfMembers, List.map_append]

end

end Script.TypeExpr

/-! ### Types of endpoints -/

/-- The primary response is the type of one of the responses. -/
theorem Endpoint.exists_response_of_primary {endpoint : Endpoint} {type : Descriptor}
    (h : endpoint.primaryResponse = some type) :
    ∃ response ∈ endpoint.responses, response.2 = some type := by
  unfold Endpoint.primaryResponse at h
  split at h
  next response hfind => exact ⟨response, List.mem_of_find?_eq_some hfind, h⟩
  next =>
    obtain ⟨answer, hlookup, hanswer⟩ := Option.bind_eq_some_iff.mp h
    obtain ⟨before, after, hresponses, -⟩ := List.lookup_eq_some_iff.mp hlookup
    refine ⟨("default", answer), ?_, hanswer⟩
    rw [hresponses]
    exact List.mem_append_right before List.mem_cons_self

namespace Client

/-- A property put among others is new or one of them. -/
private theorem mem_putProperty {properties : List (Property Descriptor)}
    {new property : Property Descriptor} (h : property ∈ putProperty properties new) :
    property = new ∨ property ∈ properties := by
  induction properties with
  | nil => exact Or.inl (List.mem_singleton.mp h)
  | cons first rest ih =>
    rw [putProperty] at h
    split_ifs at h
    · exact (List.mem_cons.mp h).imp_right (List.mem_cons_of_mem _)
    · rcases List.mem_cons.mp h with rfl | hrest
      · exact Or.inr List.mem_cons_self
      · exact (ih hrest).imp_right (List.mem_cons_of_mem _)

/-- The properties that parameters are gathered in have their types. -/
private theorem exists_parameter_of_mem {parameters : List EndpointParameter}
    {properties : List (Property Descriptor)} {property : Property Descriptor}
    (h : property ∈ parameters.foldl (fun properties parameter =>
      putProperty properties ⟨parameter.name, parameter.type, parameter.required⟩) properties) :
    property ∈ properties ∨ ∃ parameter ∈ parameters, property.type = parameter.type := by
  induction parameters generalizing properties with
  | nil => exact Or.inl h
  | cons parameter rest ih =>
    rcases ih h with hput | ⟨other, hother, heq⟩
    · rcases mem_putProperty hput with rfl | hold
      · exact Or.inr ⟨parameter, List.mem_cons_self, rfl⟩
      · exact Or.inl hold
    · exact Or.inr ⟨other, List.mem_cons_of_mem _ hother, heq⟩

/-- The parameters of an endpoint refer to what one of their types refers to. -/
theorem exists_parameter_of_parametersType {endpoint : Endpoint} {type : Descriptor}
    (h : parametersType? endpoint = some type) {reference : String × String}
    (hreference : reference ∈ type.references) :
    ∃ parameter ∈ endpoint.parameters, reference ∈ parameter.type.references := by
  unfold parametersType? at h
  split at h
  next => cases h
  next =>
    cases h
    rw [Descriptor.references, List.append_nil, Descriptor.mem_referencesOfProperties] at hreference
    obtain ⟨group, hgroup, hreference⟩ := hreference
    -- A group belongs to a location, or it is the one for the body.
    rcases List.mem_append.mp hgroup with hlocation | hbody
    · obtain ⟨location, -, hgroup⟩ := List.mem_flatMap.mp hlocation
      unfold parameterGroup at hgroup
      dsimp only at hgroup
      split_ifs at hgroup
      · cases hgroup
      · rw [List.mem_singleton.mp hgroup, Descriptor.references, List.append_nil,
          Descriptor.mem_referencesOfProperties] at hreference
        obtain ⟨property, hproperty, hreference⟩ := hreference
        obtain ⟨parameter, hparameter, heq⟩ :=
          (exists_parameter_of_mem hproperty).resolve_left List.not_mem_nil
        exact ⟨parameter, List.mem_of_mem_filter hparameter, heq ▸ hreference⟩
    · unfold bodyGroup at hbody
      split at hbody
      next => cases hbody
      next body rest hparameters =>
        rw [List.mem_singleton.mp hbody] at hreference
        refine ⟨body, ?_, hreference⟩
        have hmem : body ∈ endpoint.parametersIn .body := hparameters ▸ List.mem_cons_self
        exact List.mem_of_mem_filter hmem

/-- What properties mention is what their types mention, one after another. -/
private theorem namesOfMembers_eq_flatMap (members : List (Member TypeExpr)) :
    TypeExpr.namesOfMembers members = members.flatMap fun member => member.type.names := by
  induction members with
  | nil => rw [TypeExpr.namesOfMembers, List.flatMap_nil]
  | cons member rest ih => rw [TypeExpr.namesOfMembers, List.flatMap_cons, ih]

/-- What holds of the names in the types of properties holds of those in the object. -/
theorem names_object {members : List (Member TypeExpr)} {p : String → Prop}
    (h : ∀ member ∈ members, ∀ name ∈ member.type.names, p name) :
    ∀ name ∈ (TypeExpr.object members).names, p name := by
  rw [TypeExpr.names, namesOfMembers_eq_flatMap]
  intro name hname
  obtain ⟨member, hmember, hname⟩ := List.mem_flatMap.mp hname
  exact h member hmember name hname

/-- The references inside the types that an endpoint is made of. -/
def endpointReferences (endpoint : Endpoint) : List (String × String) :=
  (Api.endpointTypes endpoint).flatMap Descriptor.references

/-- What the parameters refer to, the endpoint refers to. -/
theorem mem_endpointReferences_of_parameters {endpoint : Endpoint} {type : Descriptor}
    (htype : parametersType? endpoint = some type) {reference : String × String}
    (h : reference ∈ type.references) : reference ∈ endpointReferences endpoint := by
  obtain ⟨parameter, hparameter, hreference⟩ := exists_parameter_of_parametersType htype h
  exact List.mem_flatMap.mpr ⟨parameter.type,
    List.mem_append_left _ (List.mem_map_of_mem hparameter), hreference⟩

/-- What a response refers to, the endpoint refers to. -/
theorem mem_endpointReferences_of_response {endpoint : Endpoint}
    {response : String × Option Descriptor} (hresponse : response ∈ endpoint.responses)
    {type : Descriptor} (htype : response.2 = some type) {reference : String × String}
    (h : reference ∈ type.references) : reference ∈ endpointReferences endpoint :=
  List.mem_flatMap.mpr ⟨type,
    List.mem_append_right _ (List.mem_filterMap.mpr ⟨response, hresponse, htype⟩), h⟩

/-- What the type of a descriptor mentions is one of its references; the unknown type mentions
nothing. -/
private theorem exists_reference_of_ofDescriptor? {references : List (String × String)}
    (type? : Option Descriptor) (h : ∀ type ∈ type?, type.references ⊆ references) :
    ∀ name ∈ (TypeExpr.ofDescriptor? type?).names,
      ∃ reference ∈ references, TypeExpr.qualified reference = name := by
  cases type? with
  | none =>
    rw [TypeExpr.ofDescriptor?, TypeExpr.names]
    exact fun _ hmem => absurd hmem List.not_mem_nil
  | some type =>
    rw [TypeExpr.ofDescriptor?, TypeExpr.names_ofDescriptor]
    intro name hname
    obtain ⟨reference, hreference, heq⟩ := List.mem_map.mp hname
    exact ⟨reference, h type rfl hreference, heq⟩

/-- **Types of endpoints.** The type of an endpoint mentions only types of schemas that a parameter
or a response of the endpoint refers to. -/
theorem exists_reference_of_endpointType (endpoint : Endpoint) :
    ∀ name ∈ (endpointType endpoint).type.names,
      ∃ reference ∈ endpointReferences endpoint, TypeExpr.qualified reference = name := by
  -- Method, path and format are literals, so that they refer to nothing.
  have hliteral (text : String) : ∀ name ∈ (textType text).names,
      ∃ reference ∈ endpointReferences endpoint, TypeExpr.qualified reference = name := by
    rw [textType, TypeExpr.names]
    exact fun _ hmem => absurd hmem List.not_mem_nil
  have hprimary : ∀ name ∈ (TypeExpr.ofDescriptor? endpoint.primaryResponse).names,
      ∃ reference ∈ endpointReferences endpoint, TypeExpr.qualified reference = name := by
    refine exists_reference_of_ofDescriptor? _ fun type htype => ?_
    obtain ⟨response, hresponse, heq⟩ := Endpoint.exists_response_of_primary htype
    exact fun _ hmem => mem_endpointReferences_of_response hresponse heq hmem
  have hresponses : ∀ name ∈ (TypeExpr.object (endpoint.responses.map fun response =>
      property response.1 (.ofDescriptor? response.2))).names,
      ∃ reference ∈ endpointReferences endpoint, TypeExpr.qualified reference = name := by
    refine names_object (List.forall_mem_map.mpr fun response hresponse => ?_)
    exact exists_reference_of_ofDescriptor? response.2 fun type htype _ hmem =>
      mem_endpointReferences_of_response hresponse htype hmem
  refine names_object ?_
  simp only [List.forall_mem_cons]
  refine ⟨hliteral _, hliteral _, hliteral _, ?_, hprimary, hresponses,
    fun _ hmem => absurd hmem List.not_mem_nil⟩
  rcases hgroups : parametersType? endpoint with _ | type
  · exact fun _ hmem => absurd hmem List.not_mem_nil
  · refine exists_reference_of_ofDescriptor? (some type) ?_
    rintro _ ⟨⟩
    exact fun _ hmem => mem_endpointReferences_of_parameters hgroups hmem

end Client

end ClientGen
