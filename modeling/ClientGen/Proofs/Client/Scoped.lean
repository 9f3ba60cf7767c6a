import ClientGen.Proofs.Client.Items
import ClientGen.Proofs.Client.Lines
import ClientGen.Proofs.Client.Types
import ClientGen.Proofs.Validator.Scoped

/-!
# Names in a module

What the items of a module use: the types that its types and ascriptions mention, and the names that
the values of its constants use (`Item.Scoped`). A generated module uses the types of the schemas
that the API refers to and of its endpoints, the names of its library and of its constants, and no
others (`Api.scoped_toModule`). The text of such an item is neutral (`Item.Scoped.neutral`).
-/

namespace ClientGen

open Script Script.Lexer Identifier

namespace Script

/-! ### Items -/

/-- Whether the types that a definition mentions are types of something. -/
def TypeAlias.Scoped (types : String → Prop) (definition : TypeAlias) : Prop :=
  isIdentifier definition.name = true ∧ ∀ name ∈ definition.type.names, types name

/-- Whether the type that an ascription mentions is a type of something. -/
def Ascription.Scoped (types : String → Prop) : Ascription → Prop
  | .verbatim _ => False
  | .ofSchema generic name => Neutral generic ∧ types (schemasNamespace ++ "." ++ name)

/-- Whether all names and types that an item uses are names and types of something. -/
def Item.Scoped (names types : String → Prop) : Item → Prop
  | .typeNamespace name definitions =>
    (name = schemasNamespace ∨ name = Client.endpointsNamespace) ∧
      ∀ definition ∈ definitions, definition.Scoped types
  | .typeAlias definition => definition.Scoped types
  | .constant name ascription value =>
    isIdentifier name = true ∧ (∀ type ∈ ascription, type.Scoped types) ∧ value.Scoped names
  | .localConstant name value => isIdentifier name = true ∧ value.Scoped names
  | .verbatim text => Neutral (closeLine text)

/-- A declaration of a type is neutral if the names in it are. -/
private theorem TypeAlias.Scoped.neutral {types : String → Prop}
    (htypes : ∀ name, types name → Neutral name) {definition : TypeAlias}
    (h : definition.Scoped types) (indent : Nat) : Neutral (definition.text indent) := by
  obtain ⟨name, type⟩ := definition
  obtain ⟨hname, hnames⟩ := h
  have hneutral : ∀ name ∈ type.names, Neutral name :=
    fun name hmem => htypes name (hnames name hmem)
  have hmargin := Expr.neutral_indentation indent
  have hhead : Neutral (indentation indent ++ "export type " ++ name ++ " = ") :=
    ((hmargin.append (by decide)).append (neutral_of_isIdentifier hname)).append (by decide)
  have hline :
      Neutral (indentation indent ++ "export type " ++ name ++ " = " ++ type.text ++ ";\n") :=
    (hhead.append (TypeExpr.neutral_text type hneutral)).append (by decide)
  -- An object with members takes several lines, and anything else a single one.
  cases type with
  | object members =>
    cases members with
    | nil => exact hline
    | cons member rest =>
      rw [TypeExpr.names] at hneutral
      have hmembers := TypeExpr.neutral_memberTexts (member :: rest) hneutral
      have hlines : Neutral (Text.concat ((TypeExpr.memberTexts (member :: rest)).map fun text =>
          indentation indent ++ "  " ++ text ++ ";\n")) := by
        refine neutral_concat fun line hline => ?_
        obtain ⟨text, htext, rfl⟩ := List.mem_map.mp hline
        exact ((hmargin.append (by decide)).append (hmembers text htext)).append (by decide)
      have hopening : Nests "\x7b\n" [] ['\x7d'] := by decide
      rw [TypeAlias.text]
      exact (((Nests.append hhead hopening).append (hlines.nests _)).append
        (hmargin.nests _)).append (by decide)
  | _ => exact hline

/-- The line break behind an item changes nothing. -/
private theorem neutral_closeLine {text : String} (h : Neutral text) :
    Neutral (closeLine text) := by
  unfold closeLine
  split_ifs
  · exact h
  · exact h.append (by decide)

/-- An exported constant is neutral if its name is an identifier, and its type and value are
neutral. -/
private theorem neutral_constant {name type value : String} (hname : isIdentifier name = true)
    (htype : Neutral type) (hvalue : Neutral value) :
    Neutral ("export const " ++ name ++ type ++ " = " ++ value ++ ";\n") := by
  have hhead : Neutral ("export const " ++ name) :=
    Neutral.append (by decide) (neutral_of_isIdentifier hname)
  exact (((hhead.append htype).append (by decide)).append hvalue).append (by decide)

/-- So is one that is not exported. -/
private theorem neutral_localConstant {name value : String} (hname : isIdentifier name = true)
    (hvalue : Neutral value) : Neutral ("const " ++ name ++ " = " ++ value ++ ";\n") := by
  have hhead : Neutral ("const " ++ name) :=
    Neutral.append (by decide) (neutral_of_isIdentifier hname)
  exact ((hhead.append (by decide)).append hvalue).append (by decide)

/-- The ascription of a constant is neutral if the library's generic type and the name of the schema
are. -/
private theorem neutral_ofSchema {generic name : String} (hgeneric : Neutral generic)
    (hname : Neutral (schemasNamespace ++ "." ++ name)) :
    Neutral (": " ++ (generic ++ "<" ++ schemasNamespace ++ "." ++ name ++ ">")) := by
  have hopening : Neutral ": " := by decide
  have hhead : Neutral (generic ++ "<") := hgeneric.append (by decide)
  have hall := hopening.append ((hhead.append hname).append (by decide : Neutral ">"))
  simp only [String.append_assoc] at hall ⊢
  exact hall

/-- A namespace is neutral if the declarations in it are. -/
private theorem neutral_typeNamespace {name : String} {definitions : List TypeAlias}
    (hname : name = schemasNamespace ∨ name = Client.endpointsNamespace)
    (hdefinitions : ∀ definition ∈ definitions, Neutral (definition.text 1)) :
    Neutral ("export namespace " ++ name ++ " \x7b\n  // <" ++ name ++ ">\n"
      ++ Text.concat (definitions.map (TypeAlias.text 1)) ++ "  // </" ++ name ++ ">\n\x7d\n") := by
  have hbody : Neutral (Text.concat (definitions.map (TypeAlias.text 1))) := by
    refine neutral_concat fun text htext => ?_
    obtain ⟨definition, hmem, rfl⟩ := List.mem_map.mp htext
    exact hdefinitions definition hmem
  have hopening : Nests ("export namespace " ++ name ++ " \x7b\n  // <" ++ name ++ ">\n") []
      ['\x7d'] := by
    rcases hname with rfl | rfl <;> decide
  have hclosing : Nests ("  // </" ++ name ++ ">\n\x7d\n") ['\x7d'] [] := by
    rcases hname with rfl | rfl <;> decide
  have hall := hbody.enclosed ['\x7d'] hopening hclosing
  simp only [String.append_assoc] at hall ⊢
  exact hall

/-- The text of an item with its names in scope is neutral. -/
theorem Item.Scoped.neutral {names types : String → Prop}
    (hnames : ∀ name, names name → isIdentifier name = true)
    (htypes : ∀ name, types name → Neutral name) {item : Item} (h : item.Scoped names types) :
    Neutral item.text := by
  cases item with
  | typeNamespace name definitions =>
    exact neutral_typeNamespace h.1 fun definition hmem => (h.2 definition hmem).neutral htypes 1
  | typeAlias definition => exact TypeAlias.Scoped.neutral htypes h 0
  | constant name ascription value =>
    obtain ⟨hname, hascription, hvalue⟩ := h
    have hvalue := Expr.Scoped.neutral value hnames hvalue
    rcases ascription with _ | (_ | ⟨generic, schema⟩)
    · exact neutral_constant hname (by decide : Neutral "") hvalue
    · exact (hascription _ rfl).elim
    · obtain ⟨hgeneric, hschema⟩ := hascription _ rfl
      exact neutral_constant hname (neutral_ofSchema hgeneric (htypes _ hschema)) hvalue
  | localConstant name value =>
    exact neutral_localConstant h.1 (Expr.Scoped.neutral value hnames h.2)
  | verbatim text => exact h

end Script

/-! ### Generated modules -/

/-- What is in scope in the module of an API: the types of its schemas and endpoints, the names of
its endpoints, and what it refers to. -/
structure Api.InScope (api : Api) (names types : String → Prop) : Prop where
  entries : ∀ entry ∈ api.types.entries,
    isIdentifier entry.name = true ∧ types (schemasNamespace ++ "." ++ entry.name)
  endpoints : ∀ endpoint ∈ api.endpoints, isIdentifier endpoint.name = true ∧
    names endpoint.name ∧ types (Client.endpointsNamespace ++ "." ++ endpoint.name)
  references : ∀ reference ∈ api.references,
    names reference.2 ∧ types (TypeExpr.qualified reference)
  /-- The groups of endpoints in the table. -/
  groups : ∀ method : Method, types (Client.tableIndex ("\"" ++ method.key ++ "\""))
  allGroups : types (Client.tableIndex ("keyof " ++ Client.endpointByMethod))

section Modules

variable {api : Api} {target : Target} {library : Validator.Library} {names types : String → Prop}

/-- The libraries use the names that they come with, and the global object. -/
theorem Target.scopes (h : target.library? = some library)
    (himported : ∀ name ∈ library.imports.bound, names name) (hobject : names "Object") :
    library.Scopes names := by
  cases target with
  | none => cases h
  | zod =>
    cases h
    exact Validator.Zod.scopes (himported "z" (by decide))
  | valibot =>
    cases h
    exact Validator.Valibot.scopes (himported "v" (by decide))
  | ioTs =>
    cases h
    exact Validator.IoTs.scopes (himported "t" (by decide))
  | typebox =>
    cases h
    exact Validator.Typebox.scopes (himported "Type" (by decide))
  | yup =>
    cases h
    exact Validator.Yup.scopes (himported "y" (by decide)) hobject
  | arktype =>
    cases h
    exact Validator.Arktype.scopes (himported "type" (by decide))

section Declarations

variable {declarations : List Validator.Declaration}
  (h : ∀ declaration ∈ declarations, isIdentifier declaration.name = true ∧
    types (schemasNamespace ++ "." ++ declaration.name) ∧ declaration.validator.Scoped names)

include h

/-- Constants that are ascribed the types of their schemas are in scope. -/
private theorem scoped_constants {ascription : String → Option Ascription} {generic : String}
    (hgeneric : Neutral generic)
    (hascription : ∀ name, ascription name = some (.ofSchema generic name)) :
    ∀ item ∈ Validator.Library.constants ascription declarations, item.Scoped names types := by
  intro item hitem
  obtain ⟨declaration, hmem, rfl⟩ := List.mem_map.mp hitem
  obtain ⟨hname, htype, hvalidator⟩ := h declaration hmem
  refine ⟨hname, fun type hascribed => ?_, hvalidator⟩
  split_ifs at hascribed with hrecursive
  · rw [hascription, Option.mem_some_iff] at hascribed
    subst hascribed
    exact ⟨hgeneric, htype⟩
  · cases hascribed

/-- The fields of the block that a library builds all schemas in. -/
private theorem scoped_blockFields :
    ∀ field ∈ declarations.map (fun schema => (schema.name, schema.validator)),
      Neutral field.1 ∧ field.2.Scoped names := by
  intro field hfield
  obtain ⟨schema, hmem, rfl⟩ := List.mem_map.mp hfield
  obtain ⟨hname, -, hvalidator⟩ := h schema hmem
  exact ⟨neutral_of_isIdentifier hname, hvalidator⟩

/-- One module holds all schemas, and each of them is imported from it by its own name. -/
private theorem scoped_typebox (htype : names "Type")
    (hown : ∀ item ∈ Validator.Typebox.library.declarations declarations,
      ∀ constant ∈ item.constant?, names constant.1) :
    ∀ item ∈ Validator.Typebox.library.declarations declarations, item.Scoped names types := by
  have hblock := scoped_blockFields h
  cases declarations with
  | nil => exact fun _ hmem => absurd hmem List.not_mem_nil
  | cons first rest =>
    have hmodule : names Validator.Typebox.moduleName := hown _ List.mem_cons_self _ rfl
    refine List.forall_mem_cons.mpr ⟨⟨rfl, ?_⟩, fun item hitem => ?_⟩
    · simpa +decide [Validator.Typebox.type, htype] using hblock
    · have hschema := hown item (List.mem_cons_of_mem _ hitem)
      obtain ⟨schema, hmem, rfl⟩ := List.mem_map.mp hitem
      refine ⟨(h schema hmem).1, fun _ hnone => absurd hnone (Option.not_mem_none _), ?_⟩
      -- a schema is imported by its own name, quoted, from the module
      simpa +decide [hmodule] using hschema _ rfl

/-- One scope holds all schemas, and each of them is a member of the module that it exports. -/
private theorem scoped_arktype (hscope : names "scope")
    (hown : ∀ item ∈ Validator.Arktype.library.declarations declarations,
      ∀ constant ∈ item.constant?, names constant.1) :
    ∀ item ∈ Validator.Arktype.library.declarations declarations, item.Scoped names types := by
  have hblock := scoped_blockFields h
  cases declarations with
  | nil => exact fun _ hmem => absurd hmem List.not_mem_nil
  | cons first rest =>
    have hmodule : names Validator.Arktype.moduleName := hown _ List.mem_cons_self _ rfl
    refine List.forall_mem_cons.mpr ⟨⟨rfl, ?_⟩, fun item hitem => ?_⟩
    · simpa +decide [hscope] using hblock
    · obtain ⟨schema, hmem, rfl⟩ := List.mem_map.mp hitem
      obtain ⟨hname, -⟩ := h schema hmem
      refine ⟨hname, fun _ hnone => absurd hnone (Option.not_mem_none _), ?_⟩
      simp [hmodule, hname]

/-- The declarations of validators are in scope, if those of the schemas are and what the library
declares by itself is. -/
theorem Target.scoped_declarations (hlibrary : target.library? = some library)
    (himported : ∀ name ∈ library.imports.bound, names name)
    (hown : ∀ item ∈ library.declarations declarations, ∀ constant ∈ item.constant?,
      names constant.1) :
    ∀ item ∈ library.declarations declarations, item.Scoped names types := by
  cases target with
  | none => cases hlibrary
  | zod =>
    cases hlibrary
    exact scoped_constants h (by decide) (fun _ => rfl)
  | valibot =>
    cases hlibrary
    exact scoped_constants h (by decide) (fun _ => rfl)
  | ioTs =>
    cases hlibrary
    exact scoped_constants h (by decide) (fun _ => rfl)
  | yup =>
    cases hlibrary
    exact scoped_constants h (by decide) (fun _ => rfl)
  | typebox =>
    cases hlibrary
    exact scoped_typebox h (himported "Type" (by decide)) hown
  | arktype =>
    cases hlibrary
    exact scoped_arktype h (himported "scope" (by decide)) hown

end Declarations

/-! ### What an API refers to -/

/-- What the type of an entry refers to, the API refers to. -/
theorem Api.mem_references_of_entry {entry : Entry} (hentry : entry ∈ api.types.entries)
    {reference : String × String} (h : reference ∈ entry.type.references) :
    reference ∈ api.references :=
  List.mem_append_left _ (List.mem_flatMap.mpr ⟨entry, hentry, h⟩)

/-- What an endpoint refers to, the API refers to. -/
theorem Api.mem_references_of_endpoint {endpoint : Endpoint} (hendpoint : endpoint ∈ api.endpoints)
    {reference : String × String} (h : reference ∈ Client.endpointReferences endpoint) :
    reference ∈ api.references :=
  List.mem_append_right _ (List.mem_flatMap.mpr ⟨endpoint, hendpoint, h⟩)

theorem Api.mem_references_of_parameters {endpoint : Endpoint}
    (hendpoint : endpoint ∈ api.endpoints) {type : Descriptor}
    (htype : Client.parametersType? endpoint = some type) {reference : String × String}
    (h : reference ∈ type.references) : reference ∈ api.references :=
  Api.mem_references_of_endpoint hendpoint (Client.mem_endpointReferences_of_parameters htype h)

theorem Api.mem_references_of_response {endpoint : Endpoint} (hendpoint : endpoint ∈ api.endpoints)
    {response : String × Option Descriptor} (hresponse : response ∈ endpoint.responses)
    {type : Descriptor} (htype : response.2 = some type) {reference : String × String}
    (h : reference ∈ type.references) : reference ∈ api.references :=
  Api.mem_references_of_endpoint hendpoint
    (Client.mem_endpointReferences_of_response hresponse htype h)

/-! ### Types -/

/-- The names in the type of a descriptor are those of its references. -/
private theorem scoped_ofDescriptor {type : Descriptor}
    (h : ∀ reference ∈ type.references, types (TypeExpr.qualified reference)) :
    ∀ name ∈ (TypeExpr.ofDescriptor type).names, types name := by
  rw [TypeExpr.names_ofDescriptor]
  exact List.forall_mem_map.mpr h

/-- The namespace of schemas uses types in scope. -/
theorem Api.InScope.schemaTypes (h : api.InScope names types) :
    (Client.schemaTypes api.types).Scoped names types := by
  refine ⟨Or.inl rfl, fun definition hdefinition => ?_⟩
  obtain ⟨entry, hentry, rfl⟩ := List.mem_map.mp hdefinition
  refine ⟨(h.entries entry hentry).1, scoped_ofDescriptor fun reference hreference => ?_⟩
  exact (h.references reference (Api.mem_references_of_entry hentry hreference)).2

/-- The declarations of the schemas are in scope, whatever the library. -/
theorem Api.InScope.schemaDeclarations (h : api.InScope names types)
    (hlibrary : library.Scopes names) :
    ∀ declaration ∈ api.types.entries.map (Client.schemaDeclaration library),
      isIdentifier declaration.name = true ∧
        types (schemasNamespace ++ "." ++ declaration.name) ∧
        declaration.validator.Scoped names := by
  refine List.forall_mem_map.mpr fun entry hentry => ?_
  obtain ⟨hname, htype⟩ := h.entries entry hentry
  refine ⟨hname, htype, hlibrary.render .declaration entry.type fun reference hreference => ?_⟩
  exact (h.references reference (Api.mem_references_of_entry hentry hreference)).1

/-- What the type of a response refers to is in scope. -/
private theorem Api.InScope.response (h : api.InScope names types) {endpoint : Endpoint}
    (hendpoint : endpoint ∈ api.endpoints) {response : String × Option Descriptor}
    (hresponse : response ∈ endpoint.responses) :
    ∀ type ∈ response.2, ∀ reference ∈ type.references,
      names reference.2 ∧ types (TypeExpr.qualified reference) :=
  fun _ htype reference hreference => h.references reference
    (Api.mem_references_of_response hendpoint hresponse htype hreference)

/-- So is what the primary response of an endpoint refers to. -/
private theorem Api.InScope.primaryResponse (h : api.InScope names types) {endpoint : Endpoint}
    (hendpoint : endpoint ∈ api.endpoints) :
    ∀ type ∈ endpoint.primaryResponse, ∀ reference ∈ type.references,
      names reference.2 ∧ types (TypeExpr.qualified reference) := by
  intro type htype
  obtain ⟨response, hresponse, heq⟩ := Endpoint.exists_response_of_primary htype
  exact h.response hendpoint hresponse type heq

/-- So is what the parameters of an endpoint refer to. -/
private theorem Api.InScope.parameters (h : api.InScope names types) {endpoint : Endpoint}
    (hendpoint : endpoint ∈ api.endpoints) :
    ∀ type ∈ Client.parametersType? endpoint, ∀ reference ∈ type.references,
      names reference.2 ∧ types (TypeExpr.qualified reference) :=
  fun _ htype reference hreference => h.references reference
    (Api.mem_references_of_parameters hendpoint htype hreference)

/-- The namespace of endpoints uses types in scope. -/
theorem Api.InScope.endpointTypes (h : api.InScope names types) :
    (Client.endpointTypes api.endpoints).Scoped names types := by
  refine ⟨Or.inr rfl, fun definition hdefinition => ?_⟩
  obtain ⟨endpoint, hendpoint, rfl⟩ := List.mem_map.mp hdefinition
  refine ⟨(h.endpoints endpoint hendpoint).1, fun name hname => ?_⟩
  obtain ⟨reference, hreference, rfl⟩ := Client.exists_reference_of_endpointType endpoint name hname
  exact (h.references reference (Api.mem_references_of_endpoint hendpoint hreference)).2

/-- The table of endpoints, as a type, uses types in scope. -/
theorem Api.InScope.tableType (h : api.InScope names types) :
    (Client.tableType api.endpoints).Scoped names types := by
  have hname : isIdentifier Client.endpointByMethod = true := by decide
  refine ⟨hname, Client.names_object (List.forall_mem_map.mpr fun method _ => ?_)⟩
  refine Client.names_object (List.forall_mem_map.mpr fun endpoint hendpoint => ?_)
  have hmem : endpoint ∈ api.endpoints := List.mem_of_mem_filter hendpoint
  rw [Client.property, TypeExpr.names]
  exact List.forall_mem_singleton.mpr (h.endpoints endpoint hmem).2.2

/-- The shorthands for the groups of the table use types in scope. -/
theorem Api.InScope.shorthandTypes (h : api.InScope names types) :
    ∀ item ∈ Client.shorthandTypes api.endpoints, item.Scoped names types := by
  have hname (method : Method) :
      isIdentifier (Text.capitalize method.key ++ "Endpoints") = true := by
    cases method <;> decide
  have hall : isIdentifier "AllEndpoints" = true := by decide
  refine List.forall_mem_append.mpr ⟨List.forall_mem_map.mpr fun method _ => ⟨hname method, ?_⟩,
    List.forall_mem_singleton.mpr ⟨hall, ?_⟩⟩
  · rw [TypeExpr.names]
    exact List.forall_mem_singleton.mpr (h.groups method)
  · rw [TypeExpr.names]
    exact List.forall_mem_singleton.mpr h.allGroups

/-! ### Values -/

/-- A validator that stands outside of declarations uses names in scope. -/
private theorem scoped_standaloneValidator (hlibrary : library.Scopes names)
    {type? : Option Descriptor}
    (h : ∀ type ∈ type?, ∀ reference ∈ type.references, names reference.2) :
    (Client.standaloneValidator library type?).Scoped names := by
  cases type? with
  | none => exact hlibrary.standalone _ hlibrary.unknown
  | some type =>
    have hvalidator := hlibrary.render .endpoint type fun reference hreference =>
      h type rfl reference hreference
    unfold Client.standaloneValidator
    dsimp only
    split_ifs
    · exact hvalidator
    · exact hlibrary.standalone _ hvalidator

/-- The validators of an endpoint use names in scope. -/
theorem Api.InScope.endpointValidator (h : api.InScope names types)
    (hlibrary : library.Scopes names) {endpoint : Endpoint} (hendpoint : endpoint ∈ api.endpoints) :
    (Client.endpointValidator library endpoint).Scoped names types := by
  have htext (text : String) : (Client.textValidator library text).Scoped names :=
    hlibrary.standalone _ (hlibrary.literal _)
  have hresponses : (Expr.object (endpoint.responses.map fun response =>
      (Quoted.key response.1, Client.standaloneValidator library response.2))).Scoped names := by
    refine Expr.scoped_object.mpr (List.forall_mem_map.mpr fun response hresponse => ?_)
    refine ⟨neutral_key _, scoped_standaloneValidator hlibrary ?_⟩
    exact fun type htype reference hreference =>
      (h.response hendpoint hresponse type htype reference hreference).1
  have hprimary := scoped_standaloneValidator hlibrary fun type htype reference hreference =>
    (h.primaryResponse hendpoint type htype reference hreference).1
  have hfields (field : String) (hfield : isIdentifier field = true) {value : Expr}
      (hvalue : value.Scoped names) : Neutral field ∧ value.Scoped names :=
    ⟨neutral_of_isIdentifier hfield, hvalue⟩
  refine ⟨(h.endpoints endpoint hendpoint).1, fun _ hnone => absurd hnone (Option.not_mem_none _),
    Expr.scoped_block.mpr ?_⟩
  -- The validator is a block with six fields.
  simp only [List.forall_mem_cons]
  refine ⟨hfields "method" (by decide) (htext _),
    hfields "path" (by decide) (htext _),
    hfields "requestFormat" (by decide) (htext _),
    hfields "parameters" (by decide) ?_,
    hfields "response" (by decide) hprimary,
    hfields "responses" (by decide) hresponses, fun _ hmem => absurd hmem List.not_mem_nil⟩
  rcases hgroups : Client.parametersType? endpoint with _ | type
  · exact hlibrary.standalone _ hlibrary.never
  · refine scoped_standaloneValidator hlibrary ?_
    rintro _ ⟨⟩ reference hreference
    exact (h.parameters hendpoint type hgroups reference hreference).1

/-- The word of a method is an identifier. -/
private theorem isIdentifier_key (method : Method) : isIdentifier method.key = true := by
  cases method <;> decide

/-- The table of endpoints, as a value, uses names in scope. -/
theorem Api.InScope.tableValue (h : api.InScope names types) :
    (Client.tableValue api.endpoints).Scoped names types := by
  have hname : isIdentifier Client.endpointByMethod = true := by decide
  refine ⟨hname, fun _ hnone => absurd hnone (Option.not_mem_none _),
    Expr.scoped_block.mpr (List.forall_mem_map.mpr fun method _ =>
      ⟨neutral_of_isIdentifier (isIdentifier_key method), ?_⟩)⟩
  refine Expr.scoped_block.mpr (List.forall_mem_map.mpr fun endpoint hendpoint => ?_)
  have hmem : endpoint ∈ api.endpoints := List.mem_of_mem_filter hendpoint
  exact ⟨neutral_key _, Expr.scoped_name.mpr (h.endpoints endpoint hmem).2.1⟩

/-! ### The client -/

/-- Brackets are carried over from a line to the lines after it. -/
private theorem nests_line {line : String} {rest : List String} {missing middle last : List Char}
    (h : Nests (line ++ "\n") missing middle) (hrest : Nests (Client.textLines rest) middle last) :
    Nests (Client.textLines (line :: rest)) missing last := by
  rw [Client.textLines_cons]
  exact h.append hrest

/-- Brackets are carried over from lines to further lines. -/
private theorem nests_lines_append {first second : List String} {missing middle last : List Char}
    (h : Nests (Client.textLines first) missing middle)
    (h' : Nests (Client.textLines second) middle last) :
    Nests (Client.textLines (first ++ second)) missing last := by
  rw [Client.textLines_append]
  exact h.append h'

/-- The brackets of fixed lines are counted from their characters. -/
private theorem nests_lines {lines : List String} {texts : List (List Char)}
    (htexts : List.Forall₂ (fun line text => String.ofList text = line) lines texts)
    {missing last : List Char}
    (h : missing? (texts.flatMap (· ++ ['\n'])) missing = some last) :
    Nests (Client.textLines lines) missing last := by
  rw [Client.textLines_eq_ofList htexts]
  exact nests_ofList h

private theorem scoped_verbatim {text : String} (h : Neutral text) :
    (Item.verbatim text).Scoped names types := neutral_closeLine h

/-- The fixed types of the client are neutral. -/
private theorem scoped_clientTypes : Client.clientTypes.Scoped names types := by
  unfold Client.clientTypes
  dsimp only
  exact scoped_verbatim (nests_lines (by repeat' constructor) (by decide +kernel))

private theorem neutral_quotedKey (method : Method) : Neutral ("\"" ++ method.key ++ "\"") :=
  quote_of_isIdentifier (isIdentifier_key method) ▸ neutral_quote method.key

/-- The type of the endpoints with a method in the table. -/
theorem Client.neutral_tableIndex (method : Method) :
    Neutral (Client.tableIndex ("\"" ++ method.key ++ "\"")) := by
  have hopening : Neutral Client.endpointByMethod := by decide
  have hbracket : Nests "[" [] [']'] := by decide
  exact ((Nests.append hopening hbracket).append ((neutral_quotedKey method).nests _)).append
    (by decide)

/-- The line of a method that makes the request. -/
private theorem neutral_request (method : Method) :
    Neutral ("    return this.fetcher(\"" ++ method.key
      ++ "\", this.baseUrl + path, params[0]) as Promise<TEndpoint[\"response\"]>;") := by
  have hbefore : Nests "    return this.fetcher(" [] [')'] := nests_ofList (by decide)
  have hbehind : Nests ", this.baseUrl + path, params[0]) as Promise<TEndpoint[\"response\"]>;"
    [')'] [] := nests_ofList (by decide)
  have hall := (hbefore.append ((neutral_quotedKey method).nests _)).append hbehind
  -- The quotes stand in the fixed texts, but belong to the literal between them.
  have hsplit : "    return this.fetcher(\"" = "    return this.fetcher(" ++ "\"" := by
    decide
  have hsplit' : "\", this.baseUrl + path, params[0]) as Promise<TEndpoint[\"response\"]>;"
      = "\"" ++ ", this.baseUrl + path, params[0]) as Promise<TEndpoint[\"response\"]>;" := by
    decide
  rw [hsplit, hsplit']
  simp only [String.append_assoc] at hall ⊢
  exact hall

/-- A method stands inside the braces of the class, and closes all that it opens. -/
private theorem nests_classMethod (method : Method) :
    Nests (Client.textLines (Client.classMethod method)) ['\x7d'] ['\x7d'] := by
  have hkey := neutral_of_isIdentifier (isIdentifier_key method)
  have hgroup := Client.neutral_tableIndex method
  have hbegin : Neutral ("  // <ApiClient." ++ method.key ++ ">" ++ "\n") := by
    cases method <;> decide
  have hend : Neutral ("  // </ApiClient." ++ method.key ++ ">" ++ "\n") := by
    cases method <;> decide
  have hhead : Neutral ("  " ++ method.key ++ "<Path extends keyof "
      ++ Client.tableIndex ("\"" ++ method.key ++ "\"") ++ ", TEndpoint extends "
      ++ Client.tableIndex ("\"" ++ method.key ++ "\"")) :=
    ((((Neutral.append (by decide) hkey).append (nests_ofList (by decide))).append
      hgroup).append (nests_ofList (by decide))).append hgroup
  have hopening : Nests "[Path]>(" [] [')'] := by decide
  have hbreak : Neutral "\n" := by decide
  have hpath : Neutral "    path: Path," := nests_ofList (by decide)
  have hparameters : Neutral "    ...params: MaybeOptionalArg<TEndpoint[\"parameters\"]>" :=
    nests_ofList (by decide)
  have hresult : Nests "  ): Promise<TEndpoint[\"response\"]> \x7b" [')', '\x7d']
      ['\x7d', '\x7d'] := nests_ofList (by decide)
  have hclosing : Nests "  \x7d" ['\x7d', '\x7d'] ['\x7d'] := by decide
  have hblank : Neutral ("" ++ "\n") := by decide
  unfold Client.classMethod
  dsimp only
  -- Line by line, inside the braces of the class.
  refine nests_line (hblank.nests _) (nests_line (hbegin.nests _) ?_)
  refine nests_line (((hhead.nests _).append (hopening.outer _)).append (hbreak.nests _)) ?_
  refine nests_line ((hpath.append hbreak).nests _) ?_
  refine nests_line ((hparameters.append hbreak).nests _) ?_
  refine nests_line (hresult.append (hbreak.nests _)) ?_
  refine nests_line (((neutral_request method).append hbreak).nests _) ?_
  refine nests_line (hclosing.append (hbreak.nests _)) (nests_line (hend.nests _) ?_)
  exact Neutral.nests (by decide : Neutral "") _

/-- So do all methods one after another. -/
private theorem nests_classMethods (methods : List Method) :
    Nests (Client.textLines (methods.flatMap Client.classMethod)) ['\x7d'] ['\x7d'] := by
  induction methods with
  | nil => exact Neutral.nests (by decide : Neutral "") _
  | cons method rest ih => exact nests_lines_append (nests_classMethod method) ih

/-- The class is neutral, whatever methods it has. -/
private theorem scoped_clientClass (endpoints : List Endpoint) :
    (Client.clientClass endpoints).Scoped names types := by
  have hstart : Nests (Client.textLines Client.classStart) [] ['\x7d'] :=
    nests_lines (by repeat' constructor) (by decide +kernel)
  have hend : Nests (Client.textLines Client.classEnd) ['\x7d'] [] :=
    nests_lines (by repeat' constructor) (by decide +kernel)
  exact scoped_verbatim
    (nests_lines_append (nests_lines_append hstart (nests_classMethods _)) hend)

/-- **Names in a module.** What the items of a module use are the names and types that its API is
about, those of its library, and those of its own constants. -/
theorem Api.InScope.toModule (h : api.InScope names types)
    (hlibrary : ∀ library ∈ target.library?, library.Scopes names)
    (hdeclarations : ∀ library ∈ target.library?,
      ∀ item ∈ library.declarations (api.types.entries.map (Client.schemaDeclaration library)),
        item.Scoped names types) :
    ∀ item ∈ (api.toModule target).items, item.Scoped names types := by
  have hmarks : ∀ mark ∈ ["Validators", "EndpointByMethod"],
      Neutral (closeLine ("// <" ++ mark ++ ">")) ∧
        Neutral (closeLine ("// </" ++ mark ++ ">")) := by
    decide
  obtain ⟨items, hitems, hbefore⟩ := @Api.exists_items api target (Item.Scoped names types)
    hmarks h.schemaTypes hdeclarations h.endpointTypes
    (fun library hlib endpoint hendpoint => h.endpointValidator (hlibrary library hlib) hendpoint)
    h.tableType h.tableValue h.shorthandTypes
  have htypes : Client.clientTypes.Scoped names types := scoped_clientTypes
  rw [hitems]
  exact List.forall_mem_append.mpr ⟨hbefore, List.forall_mem_cons.mpr
    ⟨htypes, List.forall_mem_singleton.mpr (scoped_clientClass api.endpoints)⟩⟩

end Modules

end ClientGen
