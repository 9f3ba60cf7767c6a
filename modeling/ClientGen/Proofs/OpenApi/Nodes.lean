import ClientGen.Mapping.Endpoint
import ClientGen.Proofs.OpenApi.Fields

/-!
# What references to parameters, bodies and responses name

A reference names a node in the value of a document: a member of a section of the components, or
whatever stands at a place. Resolving a reference reads the node it names, and nothing but that node
(`Area.resolve?_eq`): if the node is a reference itself, it is not followed any further. What a
reference denotes in the end is another matter (`Area.Denotes`).
-/

namespace ClientGen.OpenApi

open Json

/-- The members of a section of the components of a document. -/
def Document.section (doc : Document) (name : String) (place : Nat) : List (String × Json) :=
  membersOf ((doc.raw.field? "components" 2).bind fun components => components.field? name place)

/-- A kind of objects that references name: a section of the components, with its place among the
fields of components, and how its objects are read. -/
structure Area (α : Type) where
  name : String
  place : Nat
  plain : Reference.encodeSegment name = name
  read : Decoder α
  components : Document → List (String × α)
  /-- The components are those that are written. -/
  written : ∀ doc : Document, doc.raw.Distinct → Document.ofJson doc.raw = .ok doc →
    List.Forall₂ (fun member entry => entry.1 = member.1 ∧ read member.2 = .ok entry.2)
      (doc.section name place) (components doc)

namespace Area

section Sections

variable {α : Type} {doc : Document}

/-- A field of the components is read from what is written for it. -/
private theorem written_of_fills {name : String} {place : Nat} {item : Decoder α}
    {get : Components → List (String × α)}
    (hfills : ∀ json components, json.Distinct → Components.read json = .ok components →
      json.Fills name place (readMap item) [] (get components))
    (hdistinct : doc.raw.Distinct) (hdoc : Document.ofJson doc.raw = .ok doc) :
    List.Forall₂ (fun member entry => entry.1 = member.1 ∧ item member.2 = .ok entry.2)
      (doc.section name place) ((doc.components.map get).getD []) := by
  have hcomponents := Document.fills_components hdistinct hdoc
  rw [Document.section]
  rcases hsome : doc.components with _ | components
  · -- Without components nothing is written in their place, or `null` is.
    rw [Fills, hsome] at hcomponents
    split at hcomponents
    next json hjson =>
      rw [hjson, eq_null_of_readNullable hcomponents]
      exact .nil
    next hnone =>
      rw [hnone]
      exact .nil
  · rw [hsome] at hcomponents
    obtain ⟨json, hjson, hread⟩ := exists_of_fills hcomponents (Option.some_ne_none _)
    have hfield := hfills json components (hdistinct.field? hjson) (readNullable_eq_some hread)
    rw [hjson]
    exact forall₂_of_fills hfield

end Sections

/-- Parameters. -/
def parameters : Area Parameter where
  name := "parameters"
  place := 1
  plain := by decide
  read := Parameter.read
  components := Document.parameters
  written _ := written_of_fills fun _ _ => Components.fills_parameters

/-- Request bodies. -/
def requestBodies : Area RequestBody where
  name := "requestBodies"
  place := 2
  plain := by decide
  read := RequestBody.read
  components := Document.requestBodies
  written _ := written_of_fills fun _ _ => Components.fills_requestBodies

/-- Responses. -/
def responses : Area Response where
  name := "responses"
  place := 3
  plain := by decide
  read := Response.read
  components := Document.responses
  written _ := written_of_fills fun _ _ => Components.fills_responses

variable {α : Type} (area : Area α) (doc : Document)

/-- The node that a reference names. -/
def node? (path : String) : Option Json :=
  match Reference.componentName? area.name path with
  | some name => (doc.section area.name area.place).lookup (Reference.decodeSegment name)
  | none => doc.value? path

/-- The node that a reference names, if it can be read. -/
def readable? (path : String) : Option Json :=
  (area.node? doc path).filter fun node => (area.read node).toOption.isSome

/-- The node that is named by what is written, if it is a reference, or what is written. -/
def step? (json : Json) : Option Json :=
  match refPath? json with
  | some path => area.node? doc path
  | none => some json

/-- Whether what is written denotes a node in the end, however many references lead to it. -/
inductive Denotes : Json → Json → Prop
  | node {json : Json} (hpath : refPath? json = none) : Denotes json json
  | reference {json next final : Json} {path : String} (hpath : refPath? json = some path)
      (hnext : area.node? doc path = some next) (hfinal : Denotes next final) : Denotes json final

variable {area doc}

/-- What is no reference denotes itself. -/
theorem Denotes.eq {json final : Json} (h : area.Denotes doc json final)
    (hpath : refPath? json = none) : final = json := by
  cases h with
  | node => rfl
  | reference hsome =>
    rw [hpath] at hsome
    cases hsome

/-- A reference denotes what the node that it names denotes. -/
theorem Denotes.next {json next final : Json} {path : String} (h : area.Denotes doc json final)
    (hpath : refPath? json = some path) (hnext : area.node? doc path = some next) :
    area.Denotes doc next final := by
  cases h with
  | node hnone =>
    rw [hpath] at hnone
    cases hnone
  | reference hsome hnode hfinal =>
    rw [hpath] at hsome
    cases hsome
    rw [hnext] at hnode
    cases hnode
    exact hfinal

/-- Looking up a name before and after reading comes to the same. -/
theorem lookup_eq_of_forall₂ {read : Decoder α} {members : List (String × Json)}
    {entries : List (String × α)}
    (h : List.Forall₂ (fun member entry => entry.1 = member.1 ∧ read member.2 = .ok entry.2)
      members entries) (name : String) :
    entries.lookup name = (members.lookup name).bind fun json => (read json).toOption := by
  induction h with
  | nil => rfl
  | @cons member entry members entries hentry _ ih =>
    obtain ⟨key, json⟩ := member
    obtain ⟨key', value⟩ := entry
    obtain ⟨rfl, hread⟩ : key' = key ∧ read json = .ok value := hentry
    rw [List.lookup_cons, List.lookup_cons, ih]
    split
    · rw [Option.bind_some, hread]
      rfl
    · rfl

/-- **Resolution.** What is written is resolved by reading the node that is one step away. -/
theorem resolve?_eq (hdistinct : doc.raw.Distinct) (hdoc : Document.ofJson doc.raw = .ok doc)
    {json : Json} {declared : Referable α} (h : readReferable area.read json = .ok declared) :
    doc.resolve? area.name (area.components doc) area.read declared =
      (area.step? doc json).bind fun node => (area.read node).toOption := by
  rw [step?]
  rcases hpath : refPath? json with _ | path
  · simp only [readReferable, hpath] at h
    rcases hread : area.read json with error | value
    · rw [hread] at h
      cases h
    · rw [hread] at h
      cases h
      simp only [Option.bind_some, hread]
      rfl
  · simp only [readReferable, hpath] at h
    cases h
    rw [Document.resolve?]
    dsimp only
    rw [node?]
    -- A reference to a component is looked up by name, and any other one follows its pointer.
    rcases Reference.componentName? area.name path with _ | name
    · rfl
    · exact lookup_eq_of_forall₂ (area.written doc hdistinct hdoc) _

end Area

end ClientGen.OpenApi
