import ClientGen.Proofs.Client.Declared
import ClientGen.Proofs.Client.Names

/-!
# No name is declared twice

Three sources give a module its names: the registry of schemas, that of endpoints, and what the
module and its library declare by themselves. The first begin with no small letter and are never
reserved for a module, the second begin with a small letter and have an underscore in them, and the
last are few. So no value of a generated module and no type of one of its namespaces is declared
twice, and no schema is called as a type of the module (`generate_declaresOnce`).
-/

namespace ClientGen

open OpenApi Script Identifier Mapping

/-- Whether a module declares no name twice, and calls its schemas and endpoints by identifiers that
are not reserved. -/
structure Script.Module.DeclaresOnce (module : Module) : Prop where
  values : module.values.Nodup
  schemas : (module.typesIn schemasNamespace).Nodup
  endpoints : (module.typesIn Client.endpointsNamespace).Nodup
  /-- No schema is called as a type at the top level. -/
  apart : ∀ name ∈ module.typesIn schemasNamespace, name ∉ module.types
  schemaNames : ∀ name ∈ module.typesIn schemasNamespace,
    isIdentifier name = true ∧ name ∉ reservedWords
  endpointNames : ∀ name ∈ module.typesIn Client.endpointsNamespace,
    isIdentifier name = true ∧ name ∉ reservedWords

/-- Whether a name is neither that of a schema nor that of an endpoint. -/
private def Fixed (name : String) : Prop :=
  (name ∈ Registry.generatedNames ∨ name.toList.head?.any Char.isLower = true) ∧
    ('_' ∉ name.toList ∨ name.toList.head?.any Char.isLower = false)

private instance (name : String) : Decidable (Fixed name) :=
  inferInstanceAs (Decidable (_ ∧ _))

/-- No fixed name is the name of a schema, because the names of types that are generated are
reserved. -/
private theorem Fixed.ne_typeName {name other : String} (h : Fixed name)
    (hother : IsTypeName other) (hfree : other ∉ Registry.generatedNames) : name ≠ other := by
  rintro rfl
  rcases h.1 with hmem | hlower
  · exact hfree hmem
  · obtain ⟨c, hc, hlower⟩ := (Option.any_eq_true _ _).mp hlower
    rw [hother.capital c hc] at hlower
    cases hlower

/-- The name of an endpoint begins with a small letter. -/
private theorem any_isLower_of_isEndpointName {name : String} (h : IsEndpointName name) :
    name.toList.head?.any Char.isLower = true := by
  obtain ⟨c, rest, hname⟩ := List.exists_cons_of_ne_nil (List.ne_nil_of_mem h.joined)
  have hc : c ∈ name.toList.head? := by
    rw [hname]
    rfl
  exact (Option.any_eq_true _ _).mpr ⟨c, hc, h.small c hc⟩

/-- No fixed name is the name of an endpoint. -/
private theorem Fixed.ne_endpointName {name other : String} (h : Fixed name)
    (hother : IsEndpointName other) : name ≠ other := by
  rintro rfl
  rcases h.2 with hjoined | hlower
  · exact hjoined hother.joined
  · rw [any_isLower_of_isEndpointName hother] at hlower
    cases hlower

/-- No schema is called like an endpoint, because the name of an endpoint begins with a small letter
and that of a schema does not. -/
private theorem ne_of_isTypeName {name other : String} (h : IsTypeName name)
    (hother : IsEndpointName other) : name ≠ other := by
  rintro rfl
  obtain ⟨c, hc, hlower⟩ := (Option.any_eq_true _ _).mp (any_isLower_of_isEndpointName hother)
  rw [h.capital c hc] at hlower
  cases hlower

/-- The names of schemas and those of endpoints among fixed names. -/
private theorem nodup_values {before schemas endpoints after : List String}
    (hfixed : (before ++ after).Nodup ∧ ∀ name ∈ before ++ after, Fixed name)
    (hschemas : schemas.Nodup)
    (hnames : ∀ name ∈ schemas, IsTypeName name ∧ name ∉ Registry.generatedNames)
    (hendpoints : endpoints.Nodup) (hendpointNames : ∀ name ∈ endpoints, IsEndpointName name) :
    (before ++ schemas ++ endpoints ++ after).Nodup := by
  have hperm : (before ++ schemas ++ endpoints ++ after).Perm
      (before ++ after ++ (schemas ++ endpoints)) := by
    rw [List.append_assoc before, List.append_assoc before, List.append_assoc before]
    exact List.perm_append_comm.append_left before
  refine hperm.nodup_iff.mpr (List.nodup_append.mpr ⟨hfixed.1, List.nodup_append.mpr
    ⟨hschemas, hendpoints, fun name hname other hother => ?_⟩, fun name hname other hother => ?_⟩)
  · exact ne_of_isTypeName (hnames name hname).1 (hendpointNames other hother)
  · have hname := hfixed.2 name hname
    rcases List.mem_append.mp hother with hschema | hendpoint
    · exact hname.ne_typeName (hnames other hschema).1 (hnames other hschema).2
    · exact hname.ne_endpointName (hendpointNames other hendpoint)

/-- The names that a library brings into a module, and those that the module declares by itself. -/
private theorem fixed_values {target : Target} {library : Validator.Library}
    (h : target.library? = some library) (declarations : List Validator.Declaration) :
    (library.imports.bound ++ target.collections declarations ++
        [Client.endpointByMethod, "ApiClient", "createApiClient"]).Nodup ∧
      ∀ name ∈ library.imports.bound ++ target.collections declarations ++
        [Client.endpointByMethod, "ApiClient", "createApiClient"], Fixed name := by
  have hfixed : ∀ collections ∈ [[], ["__Schemas"]],
      (library.imports.bound ++ collections ++
          [Client.endpointByMethod, "ApiClient", "createApiClient"]).Nodup ∧
        ∀ name ∈ library.imports.bound ++ collections ++
          [Client.endpointByMethod, "ApiClient", "createApiClient"], Fixed name := by
    cases target with
    | none => cases h
    | _ =>
      cases h
      decide
  exact hfixed _ (Target.collections_mem target declarations)

/-- A module without validators has no values but the client. -/
theorem Api.values_of_none (api : Api) {target : Target} (h : target.library? = none) :
    (api.toModule target).values = ["ApiClient", "createApiClient"] := by
  have htarget : target = .none := by
    cases target with
    | none => rfl
    | _ => cases h
  rw [htarget, Api.values_toModule, Api.constants_toModule_none]
  rfl

/-- The values of a module with validators: what its library brings in, all schemas together for
some libraries, each schema, each endpoint, and what every such module declares. -/
theorem Api.values_eq (api : Api) {target : Target} {library : Validator.Library}
    (h : target.library? = some library) :
    (api.toModule target).values = library.imports.bound ++
      target.collections (api.types.entries.map (Client.schemaDeclaration library)) ++
      api.types.entries.map Entry.name ++ api.endpoints.map Endpoint.name ++
      [Client.endpointByMethod, "ApiClient", "createApiClient"] := by
  have himports : (api.toModule target).imports = [library.imports] := by
    rw [Api.toModule, h]
  rw [api.values_toModule, api.names_constants h, himports, List.flatMap_singleton]
  simp only [List.append_assoc]
  rfl

/-- **No name is declared twice.** Whatever a document calls its parts, the values at the top level
of the generated module have distinct names, and so have the types in each of its namespaces. No
schema is called as a type at the top level, and schemas and endpoints are called by identifiers
that are not reserved. With validators, the values are what the library brings in, all schemas
together for some libraries, each schema, each endpoint, and what every module declares. -/
theorem generate_declaresOnce {text code : String} {target : Target}
    (h : generate text target = .ok code) :
    ∃ doc, Document.ofText text = .ok doc ∧ code = (doc.toApi.toModule target).text ∧
      (doc.toApi.toModule target).DeclaresOnce ∧
      ∀ library ∈ target.library?, (doc.toApi.toModule target).values =
        library.imports.bound ++
          target.collections (doc.toApi.types.entries.map (Client.schemaDeclaration library)) ++
          doc.toApi.types.entries.map Entry.name ++ doc.toApi.endpoints.map Endpoint.name ++
          ["EndpointByMethod", "ApiClient", "createApiClient"] := by
  obtain ⟨json, doc, hjson, hdoc, -, rfl⟩ := exists_of_generate h
  have hclosed := Document.closed_ofJson hdoc
  have hplaced := Document.placed_ofJson (distinct_readText hjson) hdoc
  -- Schemas and endpoints have names of different shapes, and neither has one of those that the
  -- module needs itself.
  have hschemas : ∀ name ∈ (Document.toApi doc).types.entries.map Entry.name,
      IsTypeName name ∧ name ∉ Registry.generatedNames :=
    List.forall_mem_map.mpr fun entry hentry =>
      ⟨isTypeName_of_mem_types hclosed hentry, notMem_generatedNames hclosed hentry⟩
  have hendpoints : ∀ name ∈ (Document.toApi doc).endpoints.map Endpoint.name,
      IsEndpointName name :=
    List.forall_mem_map.mpr fun endpoint hendpoint => isEndpointName_of_mem_endpoints hendpoint
  refine ⟨doc, Document.ofText_of_readText hjson hdoc, rfl, ⟨?_, ?_, ?_, ?_, ?_, ?_⟩,
    fun library hlib => Api.values_eq _ hlib⟩
  · rcases hlib : target.library? with _ | library
    · rw [Api.values_of_none _ hlib]
      decide
    · rw [Api.values_eq _ hlib]
      exact nodup_values (fixed_values hlib _) (nodup_names hclosed) hschemas
        (nodup_endpointNames hplaced) hendpoints
  · rw [Api.typesIn_schemas]
    exact nodup_names hclosed
  · rw [Api.typesIn_endpoints]
    exact nodup_endpointNames hplaced
  · rw [Api.typesIn_schemas]
    exact fun name hname hmem => (hschemas name hname).2 (Api.types_toModule_subset _ _ hmem)
  · rw [Api.typesIn_schemas]
    exact fun name hname =>
      ⟨(hschemas name hname).1.identifier, (hschemas name hname).1.unreserved⟩
  · rw [Api.typesIn_endpoints]
    exact fun name hname =>
      ⟨(hendpoints name hname).identifier, (hendpoints name hname).unreserved⟩

/-- The text of a document with two operations of one name, and with schemas whose names are the
same once they are identifiers, also with a number at the end, or reserved. -/
def clashingText : String :=
  "\x7b\"paths\":\x7b\"/\":\x7b\"get\":\x7b\"operationId\":\"a\"\x7d\x7d,"
    ++ "\"/b\":\x7b\"get\":\x7b\"operationId\":\"A!\"\x7d\x7d\x7d,"
    ++ "\"components\":\x7b\"schemas\":\x7b\"A\":\x7b\x7d,\"a\":\x7b\x7d,\"A2\":\x7b\x7d,"
    ++ "\"date\":\x7b\x7d,\"schemas\":\x7b\x7d,\"!\":\x7b\x7d\x7d\x7d\x7d"

theorem generate_declaresOnce_clashing : ∃ code doc,
    generate clashingText .arktype = .ok code ∧ Document.ofText clashingText = .ok doc ∧
      code = (doc.toApi.toModule .arktype).text ∧ (doc.toApi.toModule .arktype).DeclaresOnce := by
  have hcode : (generate clashingText .arktype).toOption.isSome = true := by
    decide +kernel
  rcases h : generate clashingText .arktype with error | code
  · rw [h] at hcode
    cases hcode
  · obtain ⟨doc, hdoc, heq, honce, -⟩ := generate_declaresOnce h
    exact ⟨code, doc, rfl, hdoc, heq, honce⟩

end ClientGen
