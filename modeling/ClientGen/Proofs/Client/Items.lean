import ClientGen.Generation.Basic
import Mathlib.Tactic.SplitIfs

/-!
# Items of a module

What a module is made of: a property of each of its parts is one of all its items
(`Api.exists_items`). A module without a validator library has no constants. With one, its constants
are those of the schemas, one for each endpoint, and the table of endpoints, in this order
(`Api.constants_toModule`). Some libraries put all schemas into one more constant first
(`Target.names_declarations`).
-/

namespace ClientGen

open Script

/-- The constant that a declaration declares, with its value. -/
def Script.Item.constant? : Item → Option (String × Expr)
  | .constant name _ value => some (name, value)
  | .localConstant name value => some (name, value)
  | _ => none

/-- The constants of a module, with their values. -/
def Script.Module.constants (module : Module) : List (String × Expr) :=
  module.items.filterMap Item.constant?

/-- The constants with all schemas that a library declares before those of single schemas. -/
def Target.collections (target : Target) (declarations : List Validator.Declaration) :
    List String :=
  match target, declarations with
  | .typebox, _ :: _ => [Validator.Typebox.moduleName]
  | .arktype, _ :: _ => [Validator.Arktype.moduleName]
  | _, _ => []

/-- A target declares either no value of its own or the collection of all schemas. -/
theorem Target.collections_mem (target : Target) (declarations : List Validator.Declaration) :
    target.collections declarations ∈ [[], ["__Schemas"]] := by
  unfold Target.collections
  split
  · exact List.mem_cons_of_mem _ List.mem_cons_self
  · exact List.mem_cons_of_mem _ List.mem_cons_self
  · exact List.mem_cons_self

/-- The constants of a library that declares each schema by itself are those of the schemas. -/
theorem constants_declarations (ascription : String → Option Ascription)
    (declarations : List Validator.Declaration) :
    (Validator.Library.constants ascription declarations).filterMap Item.constant? =
      declarations.map fun declaration => (declaration.name, declaration.validator) := by
  rw [Validator.Library.constants, List.filterMap_map]
  exact congrFun List.filterMap_eq_map _

/-- **Declarations of schemas.** Each library declares one constant for each schema, in order. -/
theorem Target.names_declarations {target : Target} {library : Validator.Library}
    (h : target.library? = some library) (declarations : List Validator.Declaration) :
    ((library.declarations declarations).filterMap Item.constant?).map Prod.fst =
      target.collections declarations ++ declarations.map (·.name) := by
  have hconstants (ascription : String → Option Ascription) :
      ((Validator.Library.constants ascription declarations).filterMap Item.constant?).map Prod.fst
        = [] ++ declarations.map (·.name) := by
    rw [constants_declarations, List.map_map]
    rfl
  -- Two libraries collect all declarations in one value first, from which the constants are taken.
  have hcollected (value : Validator.Declaration → Expr) :
      ((declarations.map fun schema =>
          Item.constant schema.name Option.none (value schema)).filterMap
        Item.constant?).map Prod.fst = declarations.map (·.name) := by
    rw [List.filterMap_map, List.map_filterMap]
    exact congrFun List.filterMap_eq_map _
  cases target with
  | none => cases h
  | zod =>
    cases h
    exact hconstants _
  | valibot =>
    cases h
    exact hconstants _
  | ioTs =>
    cases h
    exact hconstants _
  | yup =>
    cases h
    exact hconstants _
  | typebox =>
    cases h
    cases declarations with
    | nil => rfl
    | cons first rest => exact congrArg (_ :: ·) (hcollected _)
  | arktype =>
    cases h
    cases declarations with
    | nil => rfl
    | cons first rest => exact congrArg (_ :: ·) (hcollected _)

/-- Libraries declare nothing but constants. -/
theorem Target.isSome_constant? {target : Target} {library : Validator.Library}
    (h : target.library? = some library) (declarations : List Validator.Declaration) :
    ∀ item ∈ library.declarations declarations, item.constant?.isSome = true := by
  -- Most libraries declare one constant after the other.
  have hconstants (ascription : String → Option Ascription) :
      ∀ item ∈ Validator.Library.constants ascription declarations,
        item.constant?.isSome = true :=
    List.forall_mem_map.mpr fun _ _ => rfl
  -- Two libraries collect all of them in one value first.
  have hcollected (name : String) (value : Expr) (rest : Validator.Declaration → Expr) :
      ∀ item ∈ .localConstant name value :: declarations.map fun schema =>
        Item.constant schema.name Option.none (rest schema), item.constant?.isSome = true :=
    List.forall_mem_cons.mpr ⟨rfl, List.forall_mem_map.mpr fun _ _ => rfl⟩
  cases target with
  | none => cases h
  | zod =>
    cases h
    exact hconstants _
  | valibot =>
    cases h
    exact hconstants _
  | ioTs =>
    cases h
    exact hconstants _
  | yup =>
    cases h
    exact hconstants _
  | typebox =>
    cases h
    cases declarations with
    | nil => exact List.forall_mem_nil _
    | cons first rest => exact hcollected _ _ _
  | arktype =>
    cases h
    cases declarations with
    | nil => exact List.forall_mem_nil _
    | cons first rest => exact hcollected _ _ _

/-! ### The generated module -/

/-- What holds of items and of the marks around them holds of the marked block. -/
theorem forall_mem_marked {p : Item → Prop} {mark : String}
    (hmark : p (.verbatim ("// <" ++ mark ++ ">")) ∧ p (.verbatim ("// </" ++ mark ++ ">")))
    {items : List Item} (h : ∀ item ∈ items, p item) :
    ∀ item ∈ Client.marked mark items, p item := by
  unfold Client.marked
  split_ifs
  · exact List.forall_mem_nil _
  · exact List.forall_mem_cons.mpr ⟨hmark.1, List.forall_mem_append.mpr
      ⟨h, List.forall_mem_singleton.mpr hmark.2⟩⟩

/-- **Items of a module.** What holds of each part of a module holds of all items before the
client, which is what a module ends with. -/
theorem Api.exists_items {api : Api} {target : Target} {p : Item → Prop}
    (hmarks : ∀ mark ∈ ["Validators", "EndpointByMethod"],
      p (.verbatim ("// <" ++ mark ++ ">")) ∧ p (.verbatim ("// </" ++ mark ++ ">")))
    (hschemas : p (Client.schemaTypes api.types))
    (hdeclarations : ∀ library ∈ target.library?,
      ∀ item ∈ library.declarations (api.types.entries.map (Client.schemaDeclaration library)),
        p item)
    (hendpoints : p (Client.endpointTypes api.endpoints))
    (hvalidators : ∀ library ∈ target.library?, ∀ endpoint ∈ api.endpoints,
      p (Client.endpointValidator library endpoint))
    (htable : p (Client.tableType api.endpoints)) (hvalue : p (Client.tableValue api.endpoints))
    (hshorthands : ∀ item ∈ Client.shorthandTypes api.endpoints, p item) :
    ∃ items, (api.toModule target).items =
      items ++ [Client.clientTypes, Client.clientClass api.endpoints] ∧ ∀ item ∈ items, p item := by
  -- The table has a value beside its type only if there are validators.
  have htables (withValue : Bool) : ∀ item ∈ Client.table api.endpoints withValue, p item := by
    refine forall_mem_marked (hmarks _ (List.mem_cons_of_mem _ List.mem_cons_self))
      (List.forall_mem_cons.mpr ⟨htable, ?_⟩)
    split_ifs
    · exact List.forall_mem_singleton.mpr hvalue
    · exact List.forall_mem_nil _
  refine ⟨_, rfl, ?_⟩
  rcases hlib : target.library? with _ | library
  · simp only [List.forall_mem_append, List.forall_mem_singleton]
    exact ⟨⟨⟨⟨⟨hschemas, List.forall_mem_nil _⟩, hendpoints⟩, List.forall_mem_nil _⟩, htables _⟩,
      hshorthands⟩
  · simp only [List.forall_mem_append, List.forall_mem_singleton]
    exact ⟨⟨⟨⟨⟨hschemas, forall_mem_marked (hmarks _ List.mem_cons_self)
      (hdeclarations library hlib)⟩, hendpoints⟩,
      List.forall_mem_map.mpr (hvalidators library hlib)⟩, htables _⟩, hshorthands⟩

/-- The marks of a block add nothing to what is collected from its items. -/
theorem filterMap_marked {β : Type} {f : Item → Option β} (h : ∀ text, f (.verbatim text) = none)
    (mark : String) (items : List Item) :
    (Client.marked mark items).filterMap f = items.filterMap f := by
  unfold Client.marked
  split_ifs with hempty
  · rw [List.isEmpty_iff.mp hempty]
  · rw [List.filterMap_cons_none (h _), List.filterMap_append, List.filterMap_cons_none (h _),
      List.filterMap_nil, List.append_nil]

/-- The shorthands are types only. -/
theorem filterMap_shorthands {β : Type} {f : Item → Option β}
    (h : ∀ definition, f (.typeAlias definition) = none) (endpoints : List Endpoint) :
    (Client.shorthandTypes endpoints).filterMap f = [] := by
  rw [List.filterMap_eq_nil_iff]
  intro item hitem
  rcases List.mem_append.mp hitem with hmethod | hall
  · obtain ⟨method, -, rfl⟩ := List.mem_map.mp hmethod
    exact h _
  · rw [List.mem_singleton.mp hall]
    exact h _

/-- What is collected from the constants of a module comes from the validators of schemas, from
those of endpoints, and from the table of endpoints. -/
theorem Api.filterMap_toModule (api : Api) {target : Target} {library : Validator.Library}
    (hlibrary : target.library? = some library) {β : Type} {f : Item → Option β}
    (hverbatim : ∀ text, f (.verbatim text) = none)
    (halias : ∀ definition, f (.typeAlias definition) = none)
    (hnamespace : ∀ name types, f (.typeNamespace name types) = none) :
    (api.toModule target).items.filterMap f =
      (library.declarations (api.types.entries.map (Client.schemaDeclaration library))).filterMap
          f ++
        api.endpoints.filterMap (fun endpoint => f (Client.endpointValidator library endpoint)) ++
        (f (Client.tableValue api.endpoints)).toList := by
  -- Only constants can be kept, which excludes all types and texts.
  have hschemas : [Client.schemaTypes api.types].filterMap f = [] :=
    List.filterMap_cons_none (hnamespace _ _)
  have hendpoints : [Client.endpointTypes api.endpoints].filterMap f = [] :=
    List.filterMap_cons_none (hnamespace _ _)
  have htable : [Client.tableType api.endpoints, Client.tableValue api.endpoints].filterMap f =
      (f (Client.tableValue api.endpoints)).toList := by
    rw [List.filterMap_cons_none (a := Client.tableType api.endpoints) (halias _)]
    cases h : f (Client.tableValue api.endpoints) with
    | none => exact List.filterMap_cons_none h
    | some found => exact List.filterMap_cons_some h
  have hclient : [Client.clientTypes, Client.clientClass api.endpoints].filterMap f = [] := by
    rw [List.filterMap_cons_none (a := Client.clientTypes) (hverbatim _),
      List.filterMap_cons_none (a := Client.clientClass api.endpoints) (hverbatim _)]
    rfl
  simp only [Api.toModule, hlibrary, List.filterMap_append, hschemas, hendpoints, hclient,
    Client.schemaValidators, Client.table, filterMap_marked hverbatim,
    filterMap_shorthands halias, List.filterMap_map, Option.isSome_some, if_true, htable,
    List.append_nil, List.nil_append]
  rfl

/-- **Constants of a module.** They are the validators of schemas, those of endpoints, and the table
of endpoints. -/
theorem Api.constants_toModule (api : Api) {target : Target} {library : Validator.Library}
    (h : target.library? = some library) :
    (api.toModule target).constants =
      (library.declarations (api.types.entries.map (Client.schemaDeclaration library))).filterMap
          Item.constant? ++
        api.endpoints.filterMap (fun endpoint =>
          (Client.endpointValidator library endpoint).constant?) ++
        (Client.tableValue api.endpoints).constant?.toList :=
  api.filterMap_toModule h (fun _ => rfl) (fun _ => rfl) fun _ _ => rfl

/-- A module of types only has no constants. -/
theorem Api.constants_toModule_none (api : Api) : (api.toModule .none).constants = [] := by
  simp only [Script.Module.constants, Api.toModule, Target.library?, List.filterMap_append,
    Client.table, filterMap_marked (f := Item.constant?) fun _ => rfl,
    filterMap_shorthands (f := Item.constant?) fun _ => rfl]
  rfl

/-- The names of the constants of a module with validators. -/
theorem Api.names_constants (api : Api) {target : Target} {library : Validator.Library}
    (h : target.library? = some library) :
    (api.toModule target).constants.map Prod.fst =
      target.collections (api.types.entries.map (Client.schemaDeclaration library)) ++
        api.types.entries.map Entry.name ++ api.endpoints.map Endpoint.name ++
        [Client.endpointByMethod] := by
  have hendpoints : (api.endpoints.filterMap fun endpoint =>
      (Client.endpointValidator library endpoint).constant?).map Prod.fst =
        api.endpoints.map Endpoint.name := by
    rw [List.map_filterMap]
    exact congrFun List.filterMap_eq_map _
  rw [api.constants_toModule h, List.map_append, List.map_append, target.names_declarations h,
    hendpoints, List.map_map]
  rfl

end ClientGen
