import ClientGen.Proofs.Client.Items
import ClientGen.Proofs.Client.Lines
import Mathlib.Data.List.TakeWhile

/-!
# Modules with and without validators

What a validator library adds to a module can be taken out of it again: the import, the block with
the validators of schemas, and the exported constants (`Module.typesOnly`). What is left is the
module of types, item for item, whatever the library is (`Api.typesOnly_toModule`). The exported
constants are one for each entry, one for each endpoint and the table of endpoints, although some
libraries declare all schemas in one constant of their own first (`Api.exports_toModule`).
-/

namespace ClientGen

open Script

/-! ### Taking validators out -/

/-- Whether an item is anything but a given text that is written already. -/
def Script.Item.differs (text : String) : Item → Bool
  | .verbatim written => written != text
  | _ => true

/-- The name of an exported constant. -/
def Script.Item.exported? : Item → Option String
  | .constant name _ _ => some name
  | _ => none

namespace Client

/-- The mark that opens a block. -/
def openingMark (mark : String) : String :=
  "// <" ++ mark ++ ">"

/-- The mark that closes a block. -/
def closingMark (mark : String) : String :=
  "// </" ++ mark ++ ">"

/-- Whether there is a block with a mark. -/
def hasBlock (mark : String) (items : List Item) : Bool :=
  !items.all (Item.differs (openingMark mark))

/-- Items without a block: those before its opening mark and those after its closing mark. -/
def withoutBlock (mark : String) (items : List Item) : List Item :=
  items.takeWhile (Item.differs (openingMark mark)) ++
    ((items.dropWhile (Item.differs (openingMark mark))).dropWhile
      (Item.differs (closingMark mark))).drop 1

end Client

namespace Script.Module

/-- The names of the exported constants of a module, in order. -/
def exports (module : Module) : List String :=
  module.items.filterMap Item.exported?

/-- A module without its import, the validators of schemas and the exported constants. -/
def typesOnly (module : Module) : Module where
  imports := module.imports.drop 1
  items := (Client.withoutBlock "Validators" module.items).filter fun item => item.exported?.isNone

end Script.Module

/-! ### Blocks -/

theorem Script.Item.differs_self (text : String) : ¬(Item.verbatim text).differs text = true := by
  rw [Item.differs, bne_self_eq_false]
  exact Bool.false_ne_true

namespace Client

variable {mark : String} {before items after : List Item}

/-- There is no block with a mark exactly if all items differ from the mark that opens it. -/
theorem hasBlock_eq_false_iff :
    hasBlock mark items = false ↔ ∀ item ∈ items, item.differs (openingMark mark) = true := by
  rw [hasBlock, Bool.not_eq_false', List.all_eq_true]

theorem openingMark_ne_closingMark (mark : String) : openingMark mark ≠ closingMark mark := by
  intro h
  have hlength := congrArg String.length h
  rw [openingMark, closingMark, String.length_append, String.length_append, String.length_append,
    String.length_append] at hlength
  exact absurd (Nat.add_right_cancel (Nat.add_right_cancel hlength)) (by decide)

/-- **Blocks.** Around a block there is what stands around it, and there is none without items. -/
theorem withoutBlock_marked (hbefore : hasBlock mark before = false)
    (hafter : hasBlock mark after = false)
    (hitems : ∀ item ∈ items, item.differs (closingMark mark) = true) :
    withoutBlock mark (before ++ marked mark items ++ after) = before ++ after := by
  have houtside := hasBlock_eq_false_iff.mp hbefore
  unfold marked
  split_ifs with h
  -- A block without items is not written, so there is no mark to find.
  · have hall : ∀ item ∈ before ++ [] ++ after, item.differs (openingMark mark) = true := by
      rw [List.append_nil]
      exact List.forall_mem_append.mpr ⟨houtside, hasBlock_eq_false_iff.mp hafter⟩
    rw [withoutBlock, List.takeWhile_eq_self_iff.mpr hall, List.dropWhile_eq_nil_iff.mpr hall,
      List.dropWhile_nil, List.drop_nil, List.append_nil, List.append_nil]
  · have hinside : ∀ item ∈ .verbatim (openingMark mark) :: items,
        item.differs (closingMark mark) = true :=
      List.forall_mem_cons.mpr ⟨bne_iff_ne.mpr (openingMark_ne_closingMark mark), hitems⟩
    have hsplit : before ++ .verbatim ("// <" ++ mark ++ ">") ::
          (items ++ [.verbatim ("// </" ++ mark ++ ">")]) ++ after =
        before ++ ((.verbatim (openingMark mark) :: items) ++
          .verbatim (closingMark mark) :: after) := by
      rw [List.append_assoc, List.cons_append, List.append_assoc]
      rfl
    rw [withoutBlock, hsplit, List.takeWhile_append_of_pos houtside,
      List.dropWhile_append_of_pos houtside, List.cons_append,
      List.takeWhile_cons_of_neg (Item.differs_self _),
      List.dropWhile_cons_of_neg (Item.differs_self _), ← List.cons_append,
      List.dropWhile_append_of_pos hinside, List.dropWhile_cons_of_neg (Item.differs_self _),
      List.append_nil]
    rfl

/-- There is a block unless it would be empty. -/
theorem hasBlock_marked (hbefore : hasBlock mark before = false)
    (hafter : hasBlock mark after = false) :
    hasBlock mark (before ++ marked mark items ++ after) = !items.isEmpty := by
  unfold marked
  split_ifs with h
  · rw [h, List.append_nil]
    exact hasBlock_eq_false_iff.mpr (List.forall_mem_append.mpr
      ⟨hasBlock_eq_false_iff.mp hbefore, hasBlock_eq_false_iff.mp hafter⟩)
  · rw [Bool.eq_false_iff.mpr h]
    refine Bool.not_eq_false _ ▸ fun hnone => Item.differs_self (openingMark mark)
      (hasBlock_eq_false_iff.mp hnone _ ?_)
    exact List.mem_append_left _ (List.mem_append_right _ List.mem_cons_self)

end Client

/-! ### The parts of a module -/

/-- Written lines are not a text without a line break. -/
theorem differs_textLines {text : String} (h : '\n' ∉ text.toList) (line : String)
    (lines : List String) :
    (Item.verbatim (Client.textLines (line :: lines))).differs text = true := by
  refine bne_iff_ne.mpr fun heq => h ?_
  rw [← heq, Client.textLines_cons, String.toList_append, String.toList_append]
  exact List.mem_append_left _ (List.mem_append_right _ List.mem_cons_self)

/-- A constant differs from every text. -/
theorem differs_of_constant {item : Item} (h : item.constant?.isSome = true) (text : String) :
    item.differs text = true := by
  cases item with
  | verbatim written => cases h
  | _ => rfl

/-- **Exported declarations.** Each library exports one constant for each schema, in order. -/
theorem Target.exports_declarations {target : Target} {library : Validator.Library}
    (h : target.library? = some library) (declarations : List Validator.Declaration) :
    (library.declarations declarations).filterMap Item.exported? =
      declarations.map (·.name) := by
  have hconstants (ascription : Validator.Declaration → Option Ascription)
      (value : Validator.Declaration → Expr) :
      (declarations.map fun schema => Item.constant schema.name (ascription schema)
        (value schema)).filterMap Item.exported? = declarations.map (·.name) := by
    rw [List.filterMap_map]
    exact congrFun List.filterMap_eq_map _
  cases target with
  | none => cases h
  | zod =>
    cases h
    exact hconstants _ _
  | valibot =>
    cases h
    exact hconstants _ _
  | ioTs =>
    cases h
    exact hconstants _ _
  | yup =>
    cases h
    exact hconstants _ _
  -- The last two first declare all schemas, if there are any, in a constant that is not exported.
  | typebox =>
    cases h
    cases declarations with
    | nil => rfl
    | cons first rest => exact hconstants _ _
  | arktype =>
    cases h
    cases declarations with
    | nil => rfl
    | cons first rest => exact hconstants _ _

/-- The items after the validators of schemas. -/
def Api.itemsAfter (api : Api) (target : Target) : List Item :=
  [Client.endpointTypes api.endpoints] ++
    (match target.library? with
    | some library => api.endpoints.map (Client.endpointValidator library)
    | none => []) ++
    Client.table api.endpoints target.library?.isSome ++ Client.shorthandTypes api.endpoints ++
    [Client.clientTypes, Client.clientClass api.endpoints]

/-- With a library, the validators of the schemas stand between the types and the rest. -/
theorem Api.items_toModule {api : Api} {target : Target} {library : Validator.Library}
    (h : target.library? = some library) :
    (api.toModule target).items =
      [Client.schemaTypes api.types] ++ Client.schemaValidators library api.types ++
        api.itemsAfter target := by
  simp only [Api.toModule, Api.itemsAfter, h, List.append_assoc]

/-- Without a library, the rest follows the types at once. -/
theorem Api.items_toModule_none (api : Api) :
    (api.toModule .none).items = [Client.schemaTypes api.types] ++ api.itemsAfter .none := by
  simp only [Api.toModule, Api.itemsAfter, Target.library?, List.append_assoc]
  rfl

/-- There is no other block with the mark of the validators. -/
theorem Api.hasBlock_itemsAfter (api : Api) (target : Target) :
    Client.hasBlock "Validators" (api.itemsAfter target) = false := by
  have htable : ∀ item ∈ Client.table api.endpoints target.library?.isSome,
      item.differs (Client.openingMark "Validators") = true := by
    refine forall_mem_marked (by decide) (List.forall_mem_cons.mpr ⟨rfl, ?_⟩)
    split_ifs
    · exact List.forall_mem_singleton.mpr rfl
    · exact List.forall_mem_nil _
  have hshorthands : ∀ item ∈ Client.shorthandTypes api.endpoints,
      item.differs (Client.openingMark "Validators") = true :=
    List.forall_mem_append.mpr
      ⟨List.forall_mem_map.mpr fun _ _ => rfl, List.forall_mem_singleton.mpr rfl⟩
  have hbreak : '\n' ∉ (Client.openingMark "Validators").toList := by decide
  -- No line after the types opens a block for validators.
  refine Client.hasBlock_eq_false_iff.mpr ?_
  rw [Api.itemsAfter]
  simp only [List.forall_mem_append]
  refine ⟨⟨⟨⟨List.forall_mem_singleton.mpr rfl, ?_⟩, htable⟩, hshorthands⟩,
    List.forall_mem_cons.mpr ⟨differs_textLines hbreak _ _,
      List.forall_mem_singleton.mpr (differs_textLines hbreak _ _)⟩⟩
  split
  · exact List.forall_mem_map.mpr fun _ _ => rfl
  · exact List.forall_mem_nil _

/-- After the validators of schemas, a library adds nothing but exported constants. -/
theorem Api.filter_itemsAfter (api : Api) (target : Target) :
    ((api.itemsAfter target).filter fun item => item.exported?.isNone) = api.itemsAfter .none := by
  have hvalidators : List.filter (fun item => item.exported?.isNone) (match target.library? with
      | some library => api.endpoints.map (Client.endpointValidator library)
      | none => []) = [] := by
    split
    · exact List.filter_eq_nil_iff.mpr (List.forall_mem_map.mpr fun _ _ => Bool.false_ne_true)
    · rfl
  -- The value of the table is exported, its type and the marks around it are not.
  have htable (withValue : Bool) : ((Client.table api.endpoints withValue).filter fun item =>
      item.exported?.isNone) = Client.table api.endpoints false := by
    cases withValue with
    | false => rfl
    | true => rfl
  have hshorthands : ((Client.shorthandTypes api.endpoints).filter fun item =>
      item.exported?.isNone) = Client.shorthandTypes api.endpoints :=
    List.filter_eq_self.mpr (List.forall_mem_append.mpr
      ⟨List.forall_mem_map.mpr fun _ _ => rfl, List.forall_mem_singleton.mpr rfl⟩)
  rw [Api.itemsAfter, List.filter_append, List.filter_append, List.filter_append,
    List.filter_append, hvalidators, htable, hshorthands]
  rfl

/-! ### Parity -/

variable {target : Target} {library : Validator.Library}

/-- **Types.** Without its validators, a module is the module of types. -/
theorem Api.typesOnly_toModule (api : Api) (h : target.library? = some library) :
    (api.toModule target).typesOnly = api.toModule .none := by
  have hschemas : Client.hasBlock "Validators" [Client.schemaTypes api.types] = false := rfl
  have hdeclarations : ∀ item ∈
      library.declarations (api.types.entries.map (Client.schemaDeclaration library)),
        item.differs (Client.closingMark "Validators") = true :=
    fun item hitem => differs_of_constant (target.isSome_constant? h _ item hitem) _
  have himports : (api.toModule target).imports.drop 1 = (api.toModule .none).imports := by
    rw [Api.toModule, h]
    rfl
  have hitems : (Client.withoutBlock "Validators" (api.toModule target).items).filter
      (fun item => item.exported?.isNone) = (api.toModule .none).items := by
    rw [Api.items_toModule h, Client.schemaValidators,
      Client.withoutBlock_marked hschemas (api.hasBlock_itemsAfter target) hdeclarations,
      List.filter_append, api.filter_itemsAfter, api.items_toModule_none]
    rfl
  rw [Script.Module.typesOnly, himports, hitems]

/-- **Exports.** A module with validators exports one constant for each entry, one for each
endpoint, and the table of endpoints. -/
theorem Api.exports_toModule (api : Api) (h : target.library? = some library) :
    (api.toModule target).exports =
      api.types.entries.map Entry.name ++ api.endpoints.map Endpoint.name ++
        [Client.endpointByMethod] := by
  have hendpoints : (api.endpoints.filterMap fun endpoint =>
      (Client.endpointValidator library endpoint).exported?) = api.endpoints.map Endpoint.name :=
    congrFun List.filterMap_eq_map _
  rw [Script.Module.exports, api.filterMap_toModule h (fun _ => rfl) (fun _ => rfl) fun _ _ => rfl,
    target.exports_declarations h, hendpoints, List.map_map]
  rfl

/-- A library declares nothing only if there are no schemas. -/
theorem Target.isEmpty_declarations (h : target.library? = some library)
    (declarations : List Validator.Declaration) :
    (library.declarations declarations).isEmpty = declarations.isEmpty := by
  cases declarations with
  | nil =>
    cases target with
    | none => cases h
    | _ =>
      cases h
      rfl
  | cons first rest =>
    refine Bool.eq_false_iff.mpr fun hempty => ?_
    have hexports := target.exports_declarations h (first :: rest)
    rw [List.isEmpty_iff.mp hempty] at hexports
    exact List.cons_ne_nil _ _ hexports.symm

/-- A module has validators of schemas unless it has no schemas. -/
theorem Api.hasBlock_toModule (api : Api) (h : target.library? = some library) :
    Client.hasBlock "Validators" (api.toModule target).items = !api.types.entries.isEmpty := by
  have hschemas : Client.hasBlock "Validators" [Client.schemaTypes api.types] = false := rfl
  rw [Api.items_toModule h, Client.schemaValidators,
    Client.hasBlock_marked hschemas (api.hasBlock_itemsAfter target),
    target.isEmpty_declarations h, List.isEmpty_map]

/-- A client of an API comes with any library or with none, and the error is the same if it does
not. -/
theorem Api.generate_eq_map (api : Api) (target : Target) :
    api.generate target = (api.generate .none).map fun _ => (api.toModule target).text := by
  unfold Api.generate Api.checkedModule
  cases api.danglingKey? with
  | none => rfl
  | some key => rfl

/-- Every target but one has a library. -/
theorem Target.exists_library (h : target ≠ .none) : ∃ library, target.library? = some library := by
  cases target with
  | none => exact absurd rfl h
  | _ => exact ⟨_, rfl⟩

/-- **Parity.** Whatever library a client comes with, it is generated exactly if the client without
a library is, with the same error otherwise. The library adds an import, the validators of schemas
(unless there are no schemas) and exported constants to the module, and these are, in order, one for
each entry, one for each endpoint and the table of endpoints. -/
theorem Api.parity (api : Api) (h : target ≠ .none) :
    api.generate target = (api.generate .none).map (fun _ => (api.toModule target).text) ∧
      (api.toModule target).typesOnly = api.toModule .none ∧
      (api.toModule target).imports.length = 1 ∧
      (api.toModule target).exports =
        api.types.entries.map Entry.name ++ api.endpoints.map Endpoint.name ++
          [Client.endpointByMethod] ∧
      Client.hasBlock "Validators" (api.toModule target).items = !api.types.entries.isEmpty := by
  obtain ⟨library, hlibrary⟩ := target.exists_library h
  have himports : (api.toModule target).imports.length = 1 := by
    rw [Api.toModule, hlibrary]
    rfl
  exact ⟨api.generate_eq_map target, api.typesOnly_toModule hlibrary, himports,
    api.exports_toModule hlibrary, api.hasBlock_toModule hlibrary⟩

/-- An API with one schema, which its one endpoint answers with. -/
private def petsApi : Api where
  endpoints := [⟨.get, .parse "/pets", "get_Pets", none, .json, [],
    [("200", some (.reference "#/components/schemas/Pet" "Pet"))]⟩]
  types := ⟨[⟨"#/components/schemas/Pet", "Pet", .primitive .string none, false⟩]⟩
  diagnostics := []

/-- TypeBox puts all schemas into a module of its own first, which is not exported. -/
theorem Api.parity_typebox : Target.typebox ≠ .none ∧
    petsApi.generate .typebox =
      (petsApi.generate .none).map (fun _ => (petsApi.toModule .typebox).text) ∧
    (petsApi.toModule .typebox).typesOnly = petsApi.toModule .none ∧
    (petsApi.toModule .typebox).imports.length = 1 ∧
    (petsApi.toModule .typebox).exports = ["Pet", "get_Pets", "EndpointByMethod"] ∧
    Client.hasBlock "Validators" (petsApi.toModule .typebox).items = true :=
  ⟨by decide, petsApi.parity (by decide)⟩

end ClientGen
