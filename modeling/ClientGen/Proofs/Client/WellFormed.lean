import ClientGen.Proofs.Client.Names
import ClientGen.Proofs.Client.Scoped

/-!
# Generated code is well formed

Whatever texts a document has in its paths, names, statuses, formats and values, all string literals
of the generated code are closed and its brackets nest (`generate_wellFormed`): a text gets into the
code only as a literal, as a key, or as an identifier made from it.
-/

namespace ClientGen

open OpenApi Script Script.Lexer Identifier Mapping

/-- The import of a library is neutral. -/
private theorem neutral_imports {target : Target} {library : Validator.Library}
    (h : target.library? = some library) : Neutral library.imports.text := by
  cases target with
  | none => cases h
  | _ =>
    cases h
    decide

/-- What a library comes with is called by identifiers. -/
private theorem isIdentifier_bound {target : Target} {library : Validator.Library}
    (h : target.library? = some library) :
    ∀ name ∈ library.imports.bound, isIdentifier name = true := by
  cases target with
  | none => cases h
  | _ =>
    cases h
    decide

/-- A module is neutral if its imports and items are. -/
private theorem neutral_module {module : Module}
    (himports : ∀ part ∈ module.imports, Neutral part.text)
    (hitems : ∀ item ∈ module.items, Neutral item.text) : Neutral module.text := by
  have hseparator : Neutral (if module.imports.isEmpty then "" else "\n") := by
    split_ifs <;> decide
  exact ((neutral_concat (List.forall_mem_map.mpr himports)).append hseparator).append
    (neutral_join (by decide) (List.forall_mem_map.mpr hitems))

/-- What the module of a document uses has names that are identifiers. -/
private theorem inScope_toApi {doc : Document} (hclosed : doc.Closed) :
    (Document.toApi doc).InScope (fun name => isIdentifier name = true) Neutral := by
  have hnamespace : Neutral (schemasNamespace ++ ".") := by decide
  have hendpoints : Neutral (Client.endpointsNamespace ++ ".") := by decide
  refine ⟨fun entry hentry => ?_, fun endpoint hendpoint => ?_, fun reference hreference => ?_,
    Client.neutral_tableIndex, by decide⟩
  · have hname := (isTypeName_of_mem_types hclosed hentry).identifier
    exact ⟨hname, hnamespace.append (neutral_of_isIdentifier hname)⟩
  · have hname := (isEndpointName_of_mem_endpoints hendpoint).identifier
    exact ⟨hname, hname, hendpoints.append (neutral_of_isIdentifier hname)⟩
  · have hname := (isTypeName_of_mem_references hclosed hreference).identifier
    exact ⟨hname, hnamespace.append (neutral_of_isIdentifier hname)⟩

/-- What a library declares is called by identifiers, if the schemas are: the collection of all
schemas is one by itself. -/
private theorem isIdentifier_of_mem_declarations {target : Target} {library : Validator.Library}
    (h : target.library? = some library) {declarations : List Validator.Declaration}
    (hdeclarations : ∀ declaration ∈ declarations, isIdentifier declaration.name = true)
    {item : Item} (hitem : item ∈ library.declarations declarations) {constant : String × Expr}
    (hconstant : constant ∈ item.constant?) : isIdentifier constant.1 = true := by
  have hmem : constant.1 ∈
      ((library.declarations declarations).filterMap Item.constant?).map Prod.fst :=
    List.mem_map_of_mem (List.mem_filterMap.mpr ⟨item, hitem, hconstant⟩)
  rw [target.names_declarations h] at hmem
  rcases List.mem_append.mp hmem with hcollection | hschema
  · have hcollections : ∀ names ∈ [[], ["__Schemas"]], ∀ name ∈ names,
        isIdentifier name = true := by
      decide
    exact hcollections _ (target.collections_mem declarations) _ hcollection
  · obtain ⟨declaration, hdeclaration, heq⟩ := List.mem_map.mp hschema
    exact heq ▸ hdeclarations declaration hdeclaration

/-- **No way out of a literal.** Generated code is a sequence of tokens in which all string literals
are closed and all brackets are balanced and nested, whatever the text of the document. -/
theorem generate_wellFormed {text code : String} {target : Target}
    (h : generate text target = .ok code) : WellFormed code := by
  obtain ⟨json, doc, -, hdoc, -, rfl⟩ := exists_of_generate h
  have hscope := inScope_toApi (Document.closed_ofJson hdoc)
  have hlibrary : ∀ library ∈ target.library?,
      library.Scopes fun name => isIdentifier name = true :=
    fun library hlib => Target.scopes hlib (isIdentifier_bound hlib) (by decide)
  -- Every item is in scope, and so it is neutral. A module only joins its items.
  have hitems := hscope.toModule hlibrary fun library hlib => by
    have hdeclarations := hscope.schemaDeclarations (hlibrary library hlib)
    refine Target.scoped_declarations hdeclarations hlib (isIdentifier_bound hlib) ?_
    exact fun item hitem constant hconstant => isIdentifier_of_mem_declarations hlib
      (fun declaration hmem => (hdeclarations declaration hmem).1) hitem hconstant
  refine Neutral.wellFormed (neutral_module ?_ fun item hitem =>
    (hitems item hitem).neutral (fun _ hname => hname) fun _ htype => htype)
  intro part hpart
  rcases hlib : target.library? with _ | library
  · rw [Api.toModule, hlib] at hpart
    cases hpart
  · rw [Api.toModule, hlib] at hpart
    rw [List.mem_singleton.mp hpart]
    exact neutral_imports hlib

/-- The text of a document with quotes, backslashes, brackets, slashes and line breaks in a path, an
identifier, a status, the name of a property and a value. -/
def thornyText : String :=
  "\x7b\"paths\":\x7b\"/\\\"]//\":\x7b\"get\":\x7b\"operationId\":\"\\\\)\","
    ++ "\"responses\":\x7b\"2\\n[\":\x7b\"content\":\x7b\"application/json\":"
    ++ "\x7b\"schema\":\x7b\"type\":\"object\",\"properties\":\x7b\"\\\\\\\"//\":"
    ++ "\x7b\"enum\":[\"\x7d\\\"\",\"\\r\\n(\"]\x7d\x7d\x7d\x7d\x7d\x7d\x7d\x7d\x7d\x7d\x7d"

theorem generate_wellFormed_thorny :
    ∃ code, generate thornyText .zod = .ok code ∧ WellFormed code := by
  have hcode : (generate thornyText .zod).toOption.isSome = true := by
    decide +kernel
  rcases h : generate thornyText .zod with error | code
  · rw [h] at hcode
    cases hcode
  · exact ⟨code, rfl, generate_wellFormed h⟩

end ClientGen
