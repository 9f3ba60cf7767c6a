import ClientGen.Proofs.Client.Items
import ClientGen.Proofs.Client.Lines
import ClientGen.Proofs.Identifier
import ClientGen.Proofs.Validator.Scoped

/-!
# What a module declares

The values and the types that a module declares at its top level, and the types in its namespaces.
Declarations in text that is written already are found at the start of its lines. The values of a
generated module are what it imports, its constants, the class of clients and the function that
makes one (`Api.values_toModule`); all its types at the top level are called as a schema never is
(`Api.types_toModule_subset`).
-/

namespace ClientGen

open Script Identifier

namespace Script

/-! ### Written text -/

/-- The words in front of the name of a value that a line declares. -/
def valueWords : List String :=
  ["const ", "let ", "var ", "function ", "class ", "enum "]

/-- The words in front of the name of a type that a line declares. -/
def typeWords : List String :=
  ["type ", "interface ", "namespace ", "class ", "enum "]

/-- The name behind one of `words` at the start of a line, exported or not. -/
def nameOnLine? (words : List String) (line : List Char) : Option String :=
  let line := (List.isPrefixOf? "export ".toList line).getD line
  words.findSome? fun word => (List.isPrefixOf? word.toList line).map fun rest =>
    String.ofList (rest.takeWhile isPart)

/-- The names behind one of `words` at the start of the lines of a text. -/
def namesIn (words : List String) (text : List Char) : List String :=
  (Text.pieces '\n' text).filterMap (nameOnLine? words)

/-! ### Items -/

/-- The values that an item declares. -/
def Item.values : Item → List String
  | .constant name _ _ => [name]
  | .localConstant name _ => [name]
  | .typeNamespace _ _ => []
  | .typeAlias _ => []
  | .verbatim text => namesIn valueWords text.toList

/-- The types that an item declares, and the namespaces of types. -/
def Item.types : Item → List String
  | .constant _ _ _ => []
  | .localConstant _ _ => []
  | .typeNamespace name _ => [name]
  | .typeAlias definition => [definition.name]
  | .verbatim text => namesIn typeWords text.toList

/-- The types that an item declares in a namespace. -/
def Item.typesIn (space : String) : Item → List String
  | .typeNamespace name types => if name = space then types.map (·.name) else []
  | _ => []

/-- The values that are bound at the top level of a module, imported ones included. -/
def Module.values (module : Module) : List String :=
  module.imports.flatMap Import.bound ++ module.items.flatMap Item.values

/-- The types that are declared at the top level of a module, and the namespaces of types. -/
def Module.types (module : Module) : List String :=
  module.items.flatMap Item.types

/-- The types that are declared in a namespace of a module. -/
def Module.typesIn (module : Module) (space : String) : List String :=
  module.items.flatMap (Item.typesIn space)

/-! ### Lines -/

/-- Whether no word is empty or begins with a blank. -/
private def Plain (words : List String) : Prop :=
  ∀ word ∈ words, ∃ c rest, word.toList = c :: rest ∧ c ≠ ' '

/-- The words that declare values begin with no blank. -/
private theorem plain_valueWords : Plain valueWords := by
  simp [Plain, valueWords]

private theorem plain_typeWords : Plain typeWords := by
  simp [Plain, typeWords]

section

variable {words : List String} (hwords : Plain words)
include hwords

/-- An empty line declares nothing. -/
private theorem nameOnLine?_nil : nameOnLine? words [] = none := by
  rw [nameOnLine?, List.findSome?_eq_none_iff]
  intro word hword
  obtain ⟨c, rest, hchars, -⟩ := hwords word hword
  have hexport : (List.isPrefixOf? "export ".toList []).getD [] = [] := rfl
  rw [hexport, hchars]
  rfl

/-- A line that begins with a blank declares nothing. -/
private theorem nameOnLine?_blank (line : List Char) : nameOnLine? words (' ' :: line) = none := by
  rw [nameOnLine?, List.findSome?_eq_none_iff]
  intro word hword
  obtain ⟨c, rest, hchars, hc⟩ := hwords word hword
  have hexport : (List.isPrefixOf? "export ".toList (' ' :: line)).getD (' ' :: line) =
      ' ' :: line := rfl
  rw [hexport, hchars, List.isPrefixOf?, beq_eq_false_iff_ne.mpr hc]
  rfl

/-- The names that lines declare are those of each line, in order. -/
private theorem namesIn_textLines (lines : List String) :
    namesIn words (Client.textLines lines).toList =
      lines.flatMap fun line => namesIn words line.toList := by
  rw [namesIn, Client.pieces_textLines, List.filterMap_append, List.filterMap_cons_none
    (nameOnLine?_nil hwords), List.filterMap_nil, List.append_nil, List.filterMap_flatMap]
  rfl

/-- A method of the class has no declarations in it, because all its lines are indented. -/
private theorem namesIn_classMethod (method : Method) :
    (Client.classMethod method).flatMap (fun line => namesIn words line.toList) = [] := by
  have hkey : '\n' ∉ method.key.toList := by
    cases method <;> decide
  have hlines : ∀ line ∈ Client.classMethod method,
      (line.toList = [] ∨ ∃ rest, line.toList = ' ' :: rest) ∧ '\n' ∉ line.toList := by
    simp [Client.classMethod, Client.tableIndex, Client.endpointByMethod, hkey,
      String.toList_append]
  refine List.flatMap_eq_nil_iff.mpr fun line hline => ?_
  obtain ⟨hstart, hbreak⟩ := hlines line hline
  rw [namesIn, Text.pieces_of_notMem hbreak, List.filterMap_eq_nil_iff]
  refine List.forall_mem_singleton.mpr ?_
  rcases hstart with hempty | ⟨rest, hrest⟩
  · rw [hempty, nameOnLine?_nil hwords]
  · rw [hrest, nameOnLine?_blank hwords]

/-- Only the fixed lines of the class declare names. -/
private theorem namesIn_clientClass (endpoints : List Endpoint) :
    namesIn words (Client.textLines (Client.classStart ++
      (Client.methodsPresent endpoints).flatMap Client.classMethod ++ Client.classEnd)).toList =
        namesIn words (Client.textLines Client.classStart).toList ++
          namesIn words (Client.textLines Client.classEnd).toList := by
  have hmethods : ((Client.methodsPresent endpoints).flatMap Client.classMethod).flatMap
      (fun line => namesIn words line.toList) = [] := by
    rw [List.flatMap_assoc]
    exact List.flatMap_eq_nil_iff.mpr fun method _ => namesIn_classMethod hwords method
  simp only [namesIn_textLines hwords, List.flatMap_append, hmethods, List.append_nil]

end

/-- The names in fixed lines are counted from their characters. -/
private theorem namesIn_lines {words : List String} {lines : List String} {texts : List (List Char)}
    (htexts : List.Forall₂ (fun line text => String.ofList text = line) lines texts)
    {names : List String} (h : namesIn words (texts.flatMap (· ++ ['\n'])) = names) :
    namesIn words (Client.textLines lines).toList = names := by
  rw [Client.textLines_eq_ofList htexts, String.toList_ofList, h]

private theorem values_clientClass (endpoints : List Endpoint) :
    (Client.clientClass endpoints).values = ["ApiClient", "createApiClient"] := by
  have hstart : namesIn valueWords (Client.textLines Client.classStart).toList = ["ApiClient"] :=
    namesIn_lines (by repeat' constructor) (by decide)
  have hend : namesIn valueWords (Client.textLines Client.classEnd).toList =
      ["createApiClient"] :=
    namesIn_lines (by repeat' constructor) (by decide)
  rw [Client.clientClass, Item.values, namesIn_clientClass plain_valueWords, hstart, hend]
  rfl

private theorem types_clientClass (endpoints : List Endpoint) :
    (Client.clientClass endpoints).types = ["ApiClient"] := by
  have hstart : namesIn typeWords (Client.textLines Client.classStart).toList = ["ApiClient"] :=
    namesIn_lines (by repeat' constructor) (by decide)
  have hend : namesIn typeWords (Client.textLines Client.classEnd).toList = [] :=
    namesIn_lines (by repeat' constructor) (by decide)
  rw [Client.clientClass, Item.types, namesIn_clientClass plain_typeWords, hstart, hend]
  rfl

private theorem values_clientTypes : Client.clientTypes.values = [] := by
  unfold Client.clientTypes
  dsimp only
  rw [Item.values]
  exact namesIn_lines (by repeat' constructor) (by decide)

private theorem types_clientTypes : Client.clientTypes.types = [
    "EndpointParameters", "MutationMethod", "Method", "RequestFormat", "DefaultEndpoint",
    "Endpoint", "Fetcher", "RequiredKeys", "MaybeOptionalArg"] := by
  unfold Client.clientTypes
  dsimp only
  rw [Item.types]
  exact namesIn_lines (by repeat' constructor) (by decide)

end Script

/-! ### Generated modules -/

open Client

/-- Whether an item declares no values but a constant. -/
private def Script.Item.Silent (item : Item) : Prop :=
  item.values = item.constant?.toList.map Prod.fst

/-- Items that declare no more than their constants declare the names of their constants. -/
private theorem flatMap_values {items : List Item} (h : ∀ item ∈ items, item.Silent) :
    items.flatMap Item.values = (items.filterMap Item.constant?).map Prod.fst := by
  induction items with
  | nil => rfl
  | cons item rest ih =>
    obtain ⟨hitem, hrest⟩ := List.forall_mem_cons.mp h
    rw [List.flatMap_cons, hitem, ih hrest, List.filterMap_cons]
    rcases item.constant? with _ | constant <;> rfl

/-- A constant declares no value but itself. -/
private theorem silent_of_constant {item : Item} (h : item.constant?.isSome) : item.Silent := by
  cases item with
  | constant => rfl
  | localConstant => rfl
  | _ => cases h

/-- The items of a module before the client declare no values but their constants. -/
private theorem exists_silent (api : Api) (target : Target) :
    ∃ items, (api.toModule target).items = items ++ [clientTypes, clientClass api.endpoints] ∧
      ∀ item ∈ items, item.Silent := by
  have hmarks : ∀ mark ∈ ["Validators", "EndpointByMethod"],
      namesIn valueWords ("// <" ++ mark ++ ">").toList = [] ∧
        namesIn valueWords ("// </" ++ mark ++ ">").toList = [] := by
    decide
  refine Api.exists_items hmarks rfl (fun library hlib item hitem => ?_) rfl
    (fun _ _ _ _ => rfl) rfl rfl ?_
  · exact silent_of_constant (target.isSome_constant? hlib _ item hitem)
  · exact List.forall_mem_append.mpr ⟨List.forall_mem_map.mpr fun _ _ => rfl,
      List.forall_mem_singleton.mpr rfl⟩

/-- **Values of a module.** -/
theorem Api.values_toModule (api : Api) (target : Target) :
    (api.toModule target).values = (api.toModule target).imports.flatMap Import.bound ++
      (api.toModule target).constants.map Prod.fst ++ ["ApiClient", "createApiClient"] := by
  obtain ⟨items, hitems, hsilent⟩ := exists_silent api target
  have hclient : [clientTypes, clientClass api.endpoints].flatMap Item.values =
      ["ApiClient", "createApiClient"] := by
    rw [List.flatMap_cons, List.flatMap_singleton, values_clientTypes, values_clientClass]
    rfl
  have hconstants : [clientTypes, clientClass api.endpoints].filterMap Item.constant? = [] := rfl
  rw [Module.values, Module.constants, hitems, List.flatMap_append, flatMap_values hsilent,
    List.filterMap_append, hclient, hconstants, List.append_nil, List.append_assoc]

/-- **Types of a module.** The types at the top level of a module are called as a schema never
is. -/
theorem Api.types_toModule_subset (api : Api) (target : Target) :
    (api.toModule target).types ⊆ Registry.generatedNames := by
  -- Each item outside the namespaces declares only types that the module itself needs.
  have hmarks : ∀ mark ∈ ["Validators", "EndpointByMethod"],
      namesIn typeWords ("// <" ++ mark ++ ">").toList ⊆ Registry.generatedNames ∧
        namesIn typeWords ("// </" ++ mark ++ ">").toList ⊆ Registry.generatedNames := by
    decide
  have hschemas : [schemasNamespace] ⊆ Registry.generatedNames := by
    decide
  have hendpoints : [endpointsNamespace] ⊆ Registry.generatedNames := by
    decide
  have htable : [endpointByMethod] ⊆ Registry.generatedNames := by
    decide
  have hmethods : ∀ method ∈ shorthandMethods,
      [Text.capitalize method.key ++ "Endpoints"] ⊆ Registry.generatedNames := by
    decide
  have hall : ["AllEndpoints"] ⊆ Registry.generatedNames := by
    decide
  have hconstant {item : Item} (h : item.constant?.isSome) :
      item.types ⊆ Registry.generatedNames := by
    cases item with
    | constant => exact List.nil_subset _
    | localConstant => exact List.nil_subset _
    | _ => cases h
  obtain ⟨items, hitems, htypes⟩ := @Api.exists_items api target
    (fun item => item.types ⊆ Registry.generatedNames) hmarks hschemas
    (fun library hlib item hitem => hconstant (target.isSome_constant? hlib _ item hitem))
    hendpoints (fun _ _ _ _ => hconstant rfl) htable (hconstant rfl)
    (List.forall_mem_append.mpr ⟨List.forall_mem_map.mpr fun method hmethod =>
      hmethods method (List.mem_of_mem_filter hmethod), List.forall_mem_singleton.mpr hall⟩)
  have hclient : ["EndpointParameters", "MutationMethod", "Method", "RequestFormat",
      "DefaultEndpoint", "Endpoint", "Fetcher", "RequiredKeys", "MaybeOptionalArg", "ApiClient"] ⊆
        Registry.generatedNames := by
    decide
  rw [Module.types, hitems, List.flatMap_append, List.flatMap_cons, List.flatMap_singleton,
    types_clientTypes, types_clientClass]
  refine List.append_subset.mpr ⟨fun name hname => ?_, hclient⟩
  obtain ⟨item, hitem, hname⟩ := List.mem_flatMap.mp hname
  exact htypes item hitem hname

/-- The types in a namespace are those of its one declaration. -/
private theorem typesIn_toModule (api : Api) (target : Target) (space : String) :
    (api.toModule target).typesIn space =
      (schemaTypes api.types).typesIn space ++ (endpointTypes api.endpoints).typesIn space := by
  -- What is no namespace has nothing in it.
  have hmarked {mark : String} {items : List Item} (h : ∀ item ∈ items, item.typesIn space = []) :
      (marked mark items).flatMap (Item.typesIn space) = [] :=
    List.flatMap_eq_nil_iff.mpr
      (@forall_mem_marked (fun item => item.typesIn space = []) _ ⟨rfl, rfl⟩ _ h)
  have htable (withValue : Bool) :
      (table api.endpoints withValue).flatMap (Item.typesIn space) = [] := by
    refine hmarked (List.forall_mem_cons.mpr ⟨rfl, ?_⟩)
    split_ifs
    · exact List.forall_mem_singleton.mpr rfl
    · exact List.forall_mem_nil _
  have hshorthands : (shorthandTypes api.endpoints).flatMap (Item.typesIn space) = [] :=
    List.flatMap_eq_nil_iff.mpr (List.forall_mem_append.mpr
      ⟨List.forall_mem_map.mpr fun _ _ => rfl, List.forall_mem_singleton.mpr rfl⟩)
  have hclient : [clientTypes, clientClass api.endpoints].flatMap (Item.typesIn space) = [] := rfl
  rw [Module.typesIn, Api.toModule]
  rcases hlib : target.library? with _ | library
  · simp only [List.flatMap_append, List.flatMap_singleton, htable, hshorthands,
      hclient, List.append_nil]
  · have hdeclarations :
        (schemaValidators library api.types).flatMap (Item.typesIn space) = [] := by
      refine hmarked fun item hitem => ?_
      have hconstant := target.isSome_constant? hlib _ item hitem
      cases item with
      | constant => rfl
      | localConstant => rfl
      | _ => cases hconstant
    have hendpoints :
        (api.endpoints.map (endpointValidator library)).flatMap (Item.typesIn space) = [] :=
      List.flatMap_eq_nil_iff.mpr (List.forall_mem_map.mpr fun _ _ => rfl)
    simp only [List.flatMap_append, List.flatMap_singleton, hdeclarations, hendpoints, htable,
      hshorthands, hclient, List.append_nil]

/-- The namespace of schemas declares the types of the entries. -/
theorem Api.typesIn_schemas (api : Api) (target : Target) :
    (api.toModule target).typesIn schemasNamespace = api.types.entries.map Entry.name := by
  have hother : (Client.endpointTypes api.endpoints).typesIn schemasNamespace = [] := rfl
  rw [typesIn_toModule, hother, List.append_nil, schemaTypes, Item.typesIn, if_pos rfl,
    List.map_map]
  rfl

/-- The namespace of endpoints declares the types of the endpoints. -/
theorem Api.typesIn_endpoints (api : Api) (target : Target) :
    (api.toModule target).typesIn endpointsNamespace = api.endpoints.map Endpoint.name := by
  have hother : (schemaTypes api.types).typesIn endpointsNamespace = [] := rfl
  rw [typesIn_toModule, hother, List.nil_append, Client.endpointTypes, Item.typesIn, if_pos rfl,
    List.map_map]
  rfl

end ClientGen
