import ClientGen.Proofs.Client.Declared
import ClientGen.Proofs.Client.Names
import ClientGen.Proofs.Client.Scoped
import ClientGen.Proofs.Mapping.Entries

/-!
# Generated code is closed

What the items of a generated module use is declared in it: the types of schemas and endpoints in
their namespaces, and the values by the import of its library or as constants (`Api.Closes`). There
is one exception (`generate_closed`): if the type of a body or response is stored in a place where
the document has no schema, a reference to this place is called by the name `Schema`, and the entry
there by another. If all records of the document are written as objects, there is no such place.
-/

namespace ClientGen

open OpenApi Script Script.Lexer Identifier Mapping

/-! ### Declarations -/

namespace Script.Module

variable (module : Module) (loose : String → Prop)

/-- Whether a type is declared in a module, where names of schemas may be loose. -/
inductive HasType : String → Prop
  | schema {name : String} (h : name ∈ module.typesIn schemasNamespace ∨ loose name) :
      HasType (schemasNamespace ++ "." ++ name)
  | endpoint {name : String} (h : name ∈ module.typesIn Client.endpointsNamespace) :
      HasType (Client.endpointsNamespace ++ "." ++ name)
  /-- Some of the endpoints in the table. -/
  | group (index : String) : HasType (Client.tableIndex index)

/-- Whether a value is bound in a module, where names of schemas may be loose. -/
inductive HasValue : String → Prop
  | imported {name : String} (h : name ∈ module.imports.flatMap Import.bound) : HasValue name
  | constant {name : String} (h : name ∈ module.constants.map Prod.fst) : HasValue name
  | global : HasValue "Object"
  | stray {name : String} (h : loose name) : HasValue name

end Script.Module

/-- Whether all that the module of an API uses is declared in it, where names of schemas may be
loose. -/
structure Api.Closes (api : Api) (target : Target) (loose : String → Prop) : Prop where
  items : ∀ item ∈ (api.toModule target).items,
    item.Scoped ((api.toModule target).HasValue loose) ((api.toModule target).HasType loose)
  /-- In whatever way a reference is written, there is a schema with its name, which has a
  validator in a module with validators. -/
  references : ∀ reference ∈ api.references, loose reference.2 ∨
    (reference.2 ∈ (api.toModule target).typesIn schemasNamespace ∧
      (target.library?.isSome → reference.2 ∈ (api.toModule target).constants.map Prod.fst))

/-! ### Modules of an API -/

section Modules

variable {api : Api} {target : Target} {loose : String → Prop}

/-- An item that declares no constant has no expressions in it. -/
private theorem Script.Item.Scoped.of_constant? {names other types : String → Prop} {item : Item}
    (h : item.Scoped names types) (hconstant : item.constant? = none) :
    item.Scoped other types := by
  cases item with
  | constant => cases hconstant
  | localConstant => cases hconstant
  | _ => exact h

/-- What an API uses is in scope in its module, if its own names are and its references are called
as its schemas are. -/
private theorem inScope_of {names : String → Prop}
    (hentries : ∀ entry ∈ api.types.entries, isIdentifier entry.name = true)
    (hendpoints : ∀ endpoint ∈ api.endpoints,
      isIdentifier endpoint.name = true ∧ names endpoint.name)
    (hreferences : ∀ reference ∈ api.references, names reference.2 ∧
      (reference.2 ∈ api.types.entries.map Entry.name ∨ loose reference.2)) :
    api.InScope names ((api.toModule target).HasType loose) where
  entries entry hentry := by
    refine ⟨hentries entry hentry, .schema (Or.inl ?_)⟩
    rw [Api.typesIn_schemas]
    exact List.mem_map_of_mem hentry
  endpoints endpoint hendpoint := by
    obtain ⟨hname, hvalue⟩ := hendpoints endpoint hendpoint
    refine ⟨hname, hvalue, .endpoint ?_⟩
    rw [Api.typesIn_endpoints]
    exact List.mem_map_of_mem hendpoint
  references reference hreference := by
    obtain ⟨hvalue, hname⟩ := hreferences reference hreference
    refine ⟨hvalue, .schema ?_⟩
    rwa [Api.typesIn_schemas]
  groups method := .group _
  allGroups := .group _

/-- A constant of the declarations of a library is one of the module. -/
private theorem mem_constants_of_mem_declarations {library : Validator.Library}
    (hlibrary : target.library? = some library) {item : Item}
    (hitem : item ∈ library.declarations
      (api.types.entries.map (Client.schemaDeclaration library))) {constant : String × Expr}
    (hconstant : constant ∈ item.constant?) :
    constant.1 ∈ (api.toModule target).constants.map Prod.fst := by
  have hmem := List.mem_map_of_mem (f := Prod.fst) (List.mem_filterMap.mpr ⟨item, hitem, hconstant⟩)
  rw [target.names_declarations hlibrary, List.map_map] at hmem
  rw [Api.names_constants _ hlibrary]
  exact List.mem_append_left _ (List.mem_append_left _ hmem)

section Library

variable {library : Validator.Library}

/-- With validators, every schema and every endpoint has a constant of its name. -/
private theorem mem_constants_of_mem_names (hlibrary : target.library? = some library)
    {name : String} (h : name ∈ api.types.entries.map Entry.name ∨
      name ∈ api.endpoints.map Endpoint.name) :
    name ∈ (api.toModule target).constants.map Prod.fst := by
  rw [Api.names_constants _ hlibrary]
  simp only [List.mem_append]
  tauto

/-- What a library comes with is bound by the import of the module. -/
private theorem hasValue_of_mem_bound (hlibrary : target.library? = some library) :
    ∀ name ∈ library.imports.bound, (api.toModule target).HasValue loose name := by
  intro name hname
  refine .imported ?_
  rw [Api.toModule, hlibrary]
  exact List.mem_flatMap.mpr ⟨_, List.mem_singleton_self _, hname⟩

/-- A module with validators: each schema is also a constant, so that its name is a value. -/
private theorem Api.closes_library (hlibrary : target.library? = some library)
    (hentries : ∀ entry ∈ api.types.entries, isIdentifier entry.name = true)
    (hendpoints : ∀ endpoint ∈ api.endpoints, isIdentifier endpoint.name = true)
    (hreferences : ∀ reference ∈ api.references,
      reference.2 ∈ api.types.entries.map Entry.name ∨ loose reference.2) :
    api.Closes target loose := by
  -- Names of endpoints are constants, and names of references are constants or loose.
  have hscope : api.InScope ((api.toModule target).HasValue loose)
      ((api.toModule target).HasType loose) := by
    refine inScope_of hentries (fun endpoint hendpoint => ⟨hendpoints endpoint hendpoint, ?_⟩)
      fun reference hreference => ⟨?_, hreferences reference hreference⟩
    · exact .constant (mem_constants_of_mem_names hlibrary
        (Or.inr (List.mem_map_of_mem hendpoint)))
    · rcases hreferences reference hreference with hname | hloose
      · exact .constant (mem_constants_of_mem_names hlibrary (Or.inl hname))
      · exact .stray hloose
  have himported : ∀ name ∈ library.imports.bound, (api.toModule target).HasValue loose name :=
    hasValue_of_mem_bound hlibrary
  have hscopes := Target.scopes hlibrary himported .global
  refine ⟨hscope.toModule (fun other hother => ?_) fun other hother => ?_,
    fun reference hreference => ?_⟩
  · rw [hlibrary, Option.mem_some_iff] at hother
    exact hother ▸ hscopes
  · rw [hlibrary, Option.mem_some_iff] at hother
    subst hother
    exact Target.scoped_declarations (hscope.schemaDeclarations hscopes) hlibrary himported
      fun item hitem constant hconstant =>
        .constant (mem_constants_of_mem_declarations hlibrary hitem hconstant)
  · refine (hreferences reference hreference).symm.imp_right fun hname => ⟨?_, fun _ => ?_⟩
    · rwa [Api.typesIn_schemas]
    · exact mem_constants_of_mem_names hlibrary (Or.inl hname)

end Library

/-- A module without validators declares no constants, so what values are in scope is of no
concern. -/
private theorem Api.closes_none
    (hentries : ∀ entry ∈ api.types.entries, isIdentifier entry.name = true)
    (hendpoints : ∀ endpoint ∈ api.endpoints, isIdentifier endpoint.name = true)
    (hreferences : ∀ reference ∈ api.references,
      reference.2 ∈ api.types.entries.map Entry.name ∨ loose reference.2) :
    api.Closes .none loose := by
  have hscope : api.InScope (fun _ => True) ((api.toModule .none).HasType loose) :=
    inScope_of hentries (fun endpoint hendpoint => ⟨hendpoints endpoint hendpoint, trivial⟩)
      fun reference hreference => ⟨trivial, hreferences reference hreference⟩
  have hitems : ∀ item ∈ (api.toModule .none).items,
      item.Scoped (fun _ => True) ((api.toModule .none).HasType loose) :=
    hscope.toModule (fun _ h => nomatch h) fun _ h => nomatch h
  refine ⟨fun item hitem => (hitems item hitem).of_constant? ?_, fun reference hreference => ?_⟩
  · exact List.filterMap_eq_nil_iff.mp api.constants_toModule_none item hitem
  · refine (hreferences reference hreference).symm.imp_right fun hname => ⟨?_, fun h => nomatch h⟩
    rwa [Api.typesIn_schemas]

/-- The module of an API is closed if its references are called as its schemas are. -/
theorem Api.closes (hentries : ∀ entry ∈ api.types.entries, isIdentifier entry.name = true)
    (hendpoints : ∀ endpoint ∈ api.endpoints, isIdentifier endpoint.name = true)
    (hreferences : ∀ reference ∈ api.references,
      reference.2 ∈ api.types.entries.map Entry.name ∨ loose reference.2) :
    api.Closes target loose := by
  cases hlibrary : target.library? with
  | none =>
    have htarget : target = .none := by
      cases target with
      | none => rfl
      | _ => cases hlibrary
    exact htarget ▸ Api.closes_none hentries hendpoints hreferences
  | some library => exact Api.closes_library hlibrary hentries hendpoints hreferences

end Modules

/-! ### Generated modules -/

/-- **Generated code is closed.** If a client is generated, all that its module uses is declared in
it, but for the name `Schema`, and that only if the type of a body or response is stored where the
document has no schema. This does not happen if all records of the document are written as
objects. -/
theorem generate_closed {text code : String} {target : Target}
    (h : generate text target = .ok code) :
    ∃ doc, Document.ofText text = .ok doc ∧ code = (doc.toApi.toModule target).text ∧
      doc.toApi.Closes target (fun name => name = "Schema" ∧ Strays doc) ∧
      (doc.AsObjects → doc.toApi.Closes target fun _ => False) := by
  obtain ⟨json, doc, hjson, hdoc, hcontains, rfl⟩ := exists_of_generate h
  have htext := Document.ofText_of_readText hjson hdoc
  have hclosed := Document.closed_ofJson hdoc
  have hcloses {loose : String → Prop}
      (hloose : ∀ name, name = "Schema" ∧ Strays doc → loose name) :
      doc.toApi.Closes target loose :=
    Api.closes (fun entry hentry => (isTypeName_of_mem_types hclosed hentry).identifier)
      (fun endpoint hendpoint => (isEndpointName_of_mem_endpoints hendpoint).identifier)
      fun reference hreference => (exists_name_of_mem_references hclosed hreference
        (hcontains reference hreference)).imp_right (hloose reference.2)
  refine ⟨doc, htext, rfl, hcloses fun _ => id, fun hobjects => hcloses fun name hname => ?_⟩
  obtain ⟨hdistinct, hraw⟩ := Document.of_ofText htext
  exact not_strays hdistinct hraw hobjects hname.2

/-- The text of a document with a response whose type is written in place. -/
def inlineText : String := Text.concat [
  "\x7b\"paths\":\x7b\"/\":\x7b\"get\":\x7b\"responses\":\x7b\"200\":\x7b\"content\":",
  "\x7b\"text/json\":\x7b\"schema\":\x7b\"properties\":\x7b\"a\":\x7b\"type\":\"string\"",
  "\x7d\x7d\x7d\x7d\x7d\x7d\x7d\x7d\x7d\x7d\x7d"]

theorem generate_closed_inline :
    ∃ code doc, generate inlineText .zod = .ok code ∧ Document.ofText inlineText = .ok doc ∧
      doc.AsObjects ∧ doc.toApi.references.map Prod.snd = ["GetRootResponse200"] ∧
      doc.toApi.Closes .zod fun _ => False := by
  obtain ⟨doc, hdoc, hplain, hobjects, hdangling, hreferences⟩ :
      ∃ doc, Document.ofText inlineText = .ok doc ∧ doc.isPlain = true ∧
        (Slot.record .document).checks doc 20 doc.raw = true ∧ doc.toApi.danglingKey? = none ∧
        doc.toApi.references.map Prod.snd = ["GetRootResponse200"] :=
    Document.exists_of_chars (by repeat' constructor) (by decide +kernel)
  have hasObjects := Document.asObjects_of_checks hobjects hplain
  have hcode := generate_of_danglingKey? hdoc .zod hdangling
  obtain ⟨other, hother, -, -, hcloses⟩ := generate_closed hcode
  obtain rfl : doc = other := Except.ok.inj (hdoc.symm.trans hother)
  exact ⟨_, doc, hcode, hdoc, hasObjects, hreferences, hcloses hasObjects⟩

/-- The text of a document with a response that is written as an array, and a component that refers
to the schema in it. -/
def strayText : String := Text.concat [
  "\x7b\"paths\":\x7b\"/\":\x7b\"get\":\x7b\"responses\":\x7b\"200\":[null,\x7b\"text/json\":",
  "\x7b\"schema\":\x7b\"properties\":\x7b\"a\":\x7b\"type\":\"string\"\x7d\x7d\x7d\x7d\x7d]",
  "\x7d\x7d\x7d\x7d,",
  "\"components\":\x7b\"schemas\":\x7b\"A\":\x7b\"$ref\":",
  "\"#/paths/~1/get/responses/200/content/text~1json/schema\"\x7d\x7d\x7d\x7d"]

/-- The name of a type in generated code need not be declared. -/
theorem not_forall_closes :
    ¬∀ text code target, generate text target = .ok code →
      ∀ doc, Document.ofText text = .ok doc → doc.toApi.Closes target fun _ => False := by
  intro hall
  obtain ⟨doc, hdoc, hdangling, hreference, hentries⟩ :
      ∃ doc, Document.ofText strayText = .ok doc ∧ doc.toApi.danglingKey? = none ∧
        (∃ reference ∈ doc.toApi.references, reference.2 = "Schema") ∧
        doc.toApi.types.entries.map Entry.name = ["A", "GetRootResponse200"] :=
    Document.exists_of_chars (by repeat' constructor) (by decide +kernel)
  obtain ⟨reference, hmem, hname⟩ := hreference
  have hcode := generate_of_danglingKey? hdoc .none hdangling
  rcases (hall _ _ _ hcode doc hdoc).references reference hmem with hfalse | ⟨htype, -⟩
  · exact hfalse
  · rw [hname, Api.typesIn_schemas, hentries] at htype
    exact absurd htype (by decide)

end ClientGen
