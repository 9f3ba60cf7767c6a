import ClientGen.Generation.Basic
import ClientGen.OpenApi.Document
import ClientGen.Proofs.Client.Items
import ClientGen.Proofs.Client.Types
import ClientGen.Proofs.Validator.Yup

/-!
# Lazy schemas in a generated module

A module for Yup declares the validators of all schemas, some of which are lazy, and then uses their
names in the validators of endpoints. `Api.chainsLazily_toModule` says exactly when it chains a lazy
schema: never in the declarations, and in the validators of endpoints if and only if one of their
types requires a property, or joins a member, that refers to an entry declared as one. There are
such documents (`Api.not_forall_not_chainsLazily`).
-/

namespace ClientGen

open Script OpenApi Validator.Yup

/-- Whether a lazy schema is marked as defined or joined anywhere in a module. -/
def Script.Module.ChainsLazily (module : Module) : Prop :=
  ∃ constant ∈ module.constants,
    chains (isLazyIn module.constants) constant.2 = true

/-- Whether an entry of a table is declared as a lazy schema under a name: its type comes down to a
reference, or to that of objects with any properties of one type. -/
def Table.isLazyName (table : Table) (name : String) : Bool :=
  table.entries.any fun entry =>
    entry.name == name && (entry.type.isNamed (fun _ => true) || entry.type.isRecord)

/-- The types that the validators of an endpoint check. -/
def Endpoint.checkedTypes (endpoint : Endpoint) : List Descriptor :=
  (Client.parametersType? endpoint).toList ++ endpoint.responses.filterMap Prod.snd

/-! ### The generated module -/

/-- The constants of a module are the validators of schemas, those of endpoints, and the table of
endpoints. -/
private theorem constants_toYup (api : Api) :
    (api.toModule .yup).constants =
      api.types.entries.map (fun entry => (entry.name, library.render .declaration entry.type)) ++
        api.endpoints.filterMap (fun endpoint =>
          (Client.endpointValidator library endpoint).constant?) ++
        (Client.tableValue api.endpoints).constant?.toList := by
  have hdeclarations : (library.declarations
      (api.types.entries.map (Client.schemaDeclaration library))).filterMap Item.constant? =
        api.types.entries.map fun entry =>
          (entry.name, library.render .declaration entry.type) := by
    refine (constants_declarations ascription _).trans ?_
    rw [List.map_map]
    rfl
  rw [@Api.constants_toModule api .yup _ rfl, hdeclarations]

/-- The names that are lazy schemas behind the declarations are those of the lazy entries. -/
private theorem exposed_toModule (api : Api) :
    exposed (api.toModule .yup).constants .endpoint = api.types.isLazyName := by
  have hdeclared (type : Descriptor) : isLazyCall (library.render .declaration type) =
      (type.isNamed (fun _ => true) || type.isRecord) := by
    have hcall (expr : Expr) : isLazyCall expr = isLazyIn [] expr := by
      cases expr <;> rfl
    rw [hcall, isLazyIn_render, Bool.or_comm]
    rfl
  funext name
  -- Behind the declarations of schemas, constants are objects.
  have hendpoints : (api.endpoints.filterMap fun endpoint =>
      (Client.endpointValidator library endpoint).constant?).any
        (fun constant => constant.1 == name && isLazyCall constant.2) = false := by
    rw [List.any_eq_false]
    intro constant hconstant
    obtain ⟨endpoint, -, hvalue⟩ := List.mem_filterMap.mp hconstant
    rw [← Option.some.inj hvalue]
    exact Bool.eq_false_iff.mp (Bool.and_false _)
  have htable : (Client.tableValue api.endpoints).constant?.toList.any
      (fun constant => constant.1 == name && isLazyCall constant.2) = false :=
    (Bool.or_false _).trans (Bool.and_false _)
  rw [exposed, isLazyIn, constants_toYup, List.any_append, List.any_append, hendpoints, htable,
    Bool.or_false, Bool.or_false, List.any_map, Table.isLazyName]
  simp only [Function.comp_def, hdeclared]

/-- A response of an endpoint has some property if and only if one of its types does; the primary
response is one of the responses. -/
private theorem any_responses_iff (endpoint : Endpoint) (p : Descriptor → Bool) :
    (endpoint.primaryResponse.any p = true ∨
      (endpoint.responses.any fun response => response.2.any p) = true) ↔
      ∃ type ∈ endpoint.responses.filterMap Prod.snd, p type = true := by
  constructor
  · rintro (hp | hp)
    · obtain ⟨type, htype, hp⟩ := (Option.any_eq_true _ _).mp hp
      obtain ⟨response, hmem, hresponse⟩ := Endpoint.exists_response_of_primary htype
      exact ⟨type, List.mem_filterMap.mpr ⟨response, hmem, hresponse⟩, hp⟩
    · obtain ⟨response, hmem, hp⟩ := List.any_eq_true.mp hp
      obtain ⟨type, htype, hp⟩ := (Option.any_eq_true _ _).mp hp
      exact ⟨type, List.mem_filterMap.mpr ⟨response, hmem, htype⟩, hp⟩
  · rintro ⟨type, hmem, hp⟩
    obtain ⟨response, hmem, htype⟩ := List.mem_filterMap.mp hmem
    exact Or.inr (List.any_eq_true.mpr ⟨response, hmem,
      (Option.any_eq_true _ _).mpr ⟨type, htype, hp⟩⟩)

variable {lazy : Expr → Bool}

/-- A standalone validator chains on something lazy exactly if that of its type does. -/
private theorem chains_standaloneValidator (type? : Option Descriptor) :
    chains lazy (Client.standaloneValidator library type?) =
      type?.any fun type => chains lazy (library.render .endpoint type) := by
  cases type? with
  | none => rfl
  | some type =>
    rw [Client.standaloneValidator, Option.any_some]
    exact congrArg (chains lazy) (ite_self _)

private theorem chains_textValidator (value : String) :
    chains lazy (Client.textValidator library value) = false := rfl

/-- The validators of an endpoint chain what those of the types that they check do. -/
private theorem chains_endpointValidator {endpoint : Endpoint} {constant : String × Expr}
    (h : (Client.endpointValidator library endpoint).constant? = some constant) :
    chains lazy constant.2 = true ↔
      ∃ type ∈ endpoint.checkedTypes, chains lazy (library.render .endpoint type) = true := by
  rw [← Option.some.inj h]
  simp only [chains, chainsField, chains_textValidator, chains_standaloneValidator,
    chainsField_eq, List.any_map, Function.comp_def, Bool.false_or, Bool.or_false, Bool.or_eq_true]
  rw [any_responses_iff, Endpoint.checkedTypes]
  simp only [List.mem_append, or_and_right, exists_or, Option.mem_toList]
  refine or_congr_left ?_
  rcases Client.parametersType? endpoint with _ | type
  · refine ⟨fun hchains => absurd hchains Bool.false_ne_true, ?_⟩
    rintro ⟨type, htype, -⟩
    cases htype
  · exact (Bool.eq_iff_iff.mp (chains_standaloneValidator (some type))).trans
      (Option.any_eq_true _ _)

private theorem chains_tableValue {endpoints : List Endpoint} {constant : String × Expr}
    (h : constant ∈ (Client.tableValue endpoints).constant?.toList) :
    chains lazy constant.2 = false := by
  have hgroup (endpoints : List Endpoint) :
      chainsField lazy (endpoints.map fun endpoint =>
        (Quoted.key endpoint.path.raw, .name endpoint.name)) = false := by
    rw [chainsField_eq, List.any_map, List.any_eq_false]
    exact fun endpoint _ => Bool.false_ne_true
  rw [← Option.some.inj (Option.mem_toList.mp h), chains, chainsField_eq, List.any_map,
    List.any_eq_false]
  intro method _
  rw [Function.comp_apply, chains, hgroup]
  exact Bool.false_ne_true

/-- **Chaining.** No validator of a schema chains a lazy schema. A module does so exactly if the
type of an endpoint's parameters or of one of its responses has a required property, or a member of
an intersection without a record, that is a reference to an entry declared as a lazy schema. -/
theorem Api.chainsLazily_toModule (api : Api) :
    (∀ entry ∈ api.types.entries, chains (isLazyIn (api.toModule .yup).constants)
      (library.render .declaration entry.type) = false) ∧
    ((api.toModule .yup).ChainsLazily ↔ ∃ endpoint ∈ api.endpoints,
      ∃ type ∈ endpoint.checkedTypes, type.chainsNamed api.types.isLazyName = true) := by
  -- In a declaration references are guarded themselves, so that nothing is exposed.
  have hdeclared (type : Descriptor) : chains (isLazyIn (api.toModule .yup).constants)
      (library.render .declaration type) = false := by
    rw [chains_render]
    exact type.chainsNamed_const_false
  have hchecked (type : Descriptor) : chains (isLazyIn (api.toModule .yup).constants)
      (library.render .endpoint type) = type.chainsNamed api.types.isLazyName := by
    rw [chains_render, exposed_toModule]
  refine ⟨fun entry _ => hdeclared entry.type, ?_, ?_⟩
  · rintro ⟨constant, hmem, hchains⟩
    rw [constants_toYup, List.mem_append, List.mem_append] at hmem
    -- Of all constants only those of the endpoints can chain on something lazy.
    rcases hmem with (hschema | hendpoint) | htable
    · obtain ⟨entry, -, rfl⟩ := List.mem_map.mp hschema
      rw [hdeclared] at hchains
      exact absurd hchains Bool.false_ne_true
    · obtain ⟨endpoint, hmem, hvalue⟩ := List.mem_filterMap.mp hendpoint
      obtain ⟨type, htype, hchains⟩ := (chains_endpointValidator hvalue).mp hchains
      exact ⟨endpoint, hmem, type, htype, hchecked type ▸ hchains⟩
    · rw [chains_tableValue htable] at hchains
      exact absurd hchains Bool.false_ne_true
  · rintro ⟨endpoint, hmem, type, htype, hchains⟩
    refine ⟨_, ?_, (chains_endpointValidator rfl).mpr ⟨type, htype, (hchecked type).trans hchains⟩⟩
    rw [constants_toYup]
    exact List.mem_append_left _ (List.mem_append_right _
      (List.mem_filterMap.mpr ⟨endpoint, hmem, rfl⟩))

/-! ### A lazy schema marked as defined -/

/-- A value that describes a document with objects of texts, and an operation with one as its
body. -/
def textsJson : Json :=
  .object [
    ("openapi", .string "3.0.0"),
    ("paths", .object [("/maps", .object [("post", .object [
      ("requestBody", .object [("required", .bool true), ("content", .object [
        ("application/json", .object [
          ("schema", .object [("$ref", .string "#/components/schemas/Map")])])])]),
      ("responses", .object [("200", .object [("description", .string "ok")])])])])]),
    ("components", .object [("schemas", .object [("Map", .object [
      ("type", .string "object"),
      ("additionalProperties", .object [("type", .string "string")])])])])]

/-- The document with objects of texts. -/
def textsDocument : Document where
  openapi := some "3.0.0"
  paths := [("/maps", { operations := [(.post, {
    requestBody := some (.item { required := true, content := [
      ("application/json", { schema := some { ref := some "#/components/schemas/Map" } })] })
    responses := [("200", .item { description := some "ok" })] })] })]
  components := some { schemas := [("Map", {
    type := some (.one "object")
    additional := some (.schema { type := some (.one "string") }) })] }
  raw := textsJson

/-- Not every generated module is free of it: the body with objects of texts is marked as defined,
and what it names is declared as a lazy schema. -/
theorem Api.not_forall_not_chainsLazily :
    ¬ ∀ (json : Json) (doc : Document) (text : String), Document.ofJson json = .ok doc →
      doc.toApi.generate .yup = .ok text → ¬ (doc.toApi.toModule .yup).ChainsLazily := by
  intro h
  have hread : Document.ofJson textsJson = .ok textsDocument := rfl
  have hdangling : textsDocument.toApi.danglingKey? = none := by
    decide +kernel
  have hgenerate : textsDocument.toApi.generate .yup =
      .ok (textsDocument.toApi.toModule .yup).text := by
    rw [Api.generate, Api.checkedModule, hdangling]
  have hchains : ((textsDocument.toApi.toModule .yup).constants.any fun constant =>
      chains (isLazyIn (textsDocument.toApi.toModule .yup).constants) constant.2) = true := by
    decide +kernel
  exact h textsJson textsDocument _ hread hgenerate (List.any_eq_true.mp hchains)

end ClientGen
