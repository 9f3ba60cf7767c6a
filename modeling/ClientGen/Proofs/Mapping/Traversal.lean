import ClientGen.Proofs.Mapping.Outline
import ClientGen.Proofs.OpenApi.References

/-!
# How a schema is traversed

What translating a schema does to the state is determined by the schema: it visits certain
references and records certain faults, in a fixed order (`Schema.visits`), whatever the visits
answer. If they answer references to the canonical keys, all named alike, then the translation gives
the outline of the schema (`translate_traverses`).
-/

namespace ClientGen

open OpenApi

namespace Mapping

/-! ### Visits -/

/-- One thing that translating a schema does to the state. -/
inductive Visit
  | reference (path : String)
  | fault (diagnostic : Diagnostic)

namespace Visit

/-- The state after a visit. -/
def run (onRef : String → MapM Descriptor) : Visit → Mapping → Mapping
  | reference path, state => ((onRef path).run state).2
  | fault diagnostic, state => { state with diagnostics := state.diagnostics ++ [diagnostic] }

/-- The state after visits, one after another. -/
def runAll (onRef : String → MapM Descriptor) (visits : List Visit) (state : Mapping) : Mapping :=
  visits.foldl (fun state visit => visit.run onRef state) state

/-- The references that are visited. -/
def paths (visits : List Visit) : List String :=
  visits.filterMap fun
    | reference path => some path
    | fault _ => none

/-! ### The visits of keywords -/

/-- The visits of a composition. -/
def compose (keyword pointer : String) (members : List (List Visit)) : List Visit :=
  members.flatten ++ if members.isEmpty then [fault ⟨pointer, .emptyComposition keyword⟩] else []

/-- The visits of one constant. -/
def constant (value : Json) (pointer : String) : List Visit :=
  match Literal.ofJson? value with
  | some _ => []
  | none => [fault ⟨pointer, .nonScalarConst⟩]

/-- The faults of values without a literal. -/
def literals (pointer : String) : List Json → List Visit
  | [] => []
  | value :: more =>
    match Literal.ofJson? value with
    | some _ => literals pointer more
    | none => fault ⟨Reference.child pointer "enum", .nonScalarMember⟩ :: literals pointer more

/-- The visits of a list of values. -/
def enumerated (values : List Json) (pointer : String) : List Visit :=
  literals pointer values ++
    if (Outline.distinct Literal.same [] (values.filterMap Literal.ofJson?)).isEmpty then
      [fault ⟨pointer, .noScalarMember⟩]
    else []

/-- The visits of an object. -/
def object (keywords : Keywords (List Visit)) : List Visit :=
  ((keywords.properties.getD []).map Prod.snd).flatten ++ keywords.rest.getD []

/-- The visits of an array. -/
def array (keywords : Keywords (List Visit)) : List Visit :=
  keywords.items.getD []

/-- The visits of the type with a name. -/
def typeNamed (keywords : Keywords (List Visit)) (pointer name : String) : List Visit :=
  match scalarKind? name with
  | some _ => []
  | none =>
    if name = "array" then array keywords
    else if name = "object" then object keywords
    else [fault ⟨pointer, .unsupportedType name⟩]

/-- The visits of a list of names. -/
def typesNamed (keywords : Keywords (List Visit)) (pointer : String) (names : List String) :
    List Visit :=
  names.flatMap (typeNamed keywords pointer) ++
    if names.isEmpty then [fault ⟨pointer, .emptyTypeList⟩] else []

/-- The visits of the members of `allOf`. -/
def conjuncts (keywords : Keywords (List Visit)) (members : List (List Visit)) :
    List (List Visit) :=
  if keywords.properties.isSome then members ++ [object keywords] else members

/-- The visits of keywords at `pointer`. -/
def shape (keywords : Keywords (List Visit)) (pointer : String) : List Visit :=
  match keywords.form with
  | .constant value => constant value pointer
  | .allOf members => compose "allOf" pointer (conjuncts keywords members)
  | .oneOf members => compose "oneOf" pointer members
  | .anyOf members => compose "anyOf" pointer members
  | .enumeration values => enumerated values pointer
  | .type name => typeNamed keywords pointer name
  | .types names => typesNamed keywords pointer names
  | .object => object keywords
  | .array => array keywords
  | .negation => [fault ⟨pointer, .negation⟩]
  | .nothing => [fault ⟨pointer, .missingType⟩]

end Visit

end Mapping

/-- The visits of a schema at `pointer`. -/
def OpenApi.Schema.visits : Schema → String → List Mapping.Visit :=
  Schema.fold (fun path => [.reference path]) Mapping.Visit.shape

namespace Mapping

open Visit

/-! ### Traversals -/

/-- Whether every visit of a reference answers the reference to its canonical key, named by
`name`. -/
def Answered (onRef : String → MapM Descriptor) (name : String → String) :
    List Visit → Mapping → Prop
  | [], _ => True
  | .reference path :: more, state =>
    ((onRef path).run state).1 =
        .reference (Reference.canonical path) (name (Reference.canonical path)) ∧
      Answered onRef name more ((Visit.reference path).run onRef state)
  | .fault diagnostic :: more, state =>
    Answered onRef name more ((Visit.fault diagnostic).run onRef state)

section Traverses

variable (onRef : String → MapM Descriptor) (name : String → String)

/-- Visits are answered one list after the other. -/
theorem answered_append (visits more : List Visit) (state : Mapping) :
    Answered onRef name (visits ++ more) state ↔
      Answered onRef name visits state ∧ Answered onRef name more (runAll onRef visits state) := by
  induction visits generalizing state with
  | nil => exact iff_of_eq (true_and _).symm
  | cons visit visits ih =>
    rcases visit with path | diagnostic
    · simp only [List.cons_append, Answered, ih, and_assoc]
      rfl
    · exact ih _

/-- Whether a computation makes these visits, and has this value if they are answered. -/
def Traverses {α : Type} (x : MapM α) (visits : List Visit) (value : α) : Prop :=
  ∀ state, Answered onRef name visits state → x.run state = (value, runAll onRef visits state)

variable {onRef name} {α β ρ : Type}

theorem Traverses.pure (value : α) : Traverses onRef name (Pure.pure value) [] value :=
  fun _ _ => rfl

/-- The visits of two computations that follow one another are made in this order. -/
theorem Traverses.bind {x : MapM α} {f : α → MapM β} {visits more : List Visit} {a : α} {b : β}
    (hx : Traverses onRef name x visits a) (hf : Traverses onRef name (f a) more b) :
    Traverses onRef name (x >>= f) (visits ++ more) b := by
  intro state h
  obtain ⟨hvisits, hmore⟩ := (answered_append onRef name visits more state).mp h
  have hfirst := hx state hvisits
  rw [StateT.run_bind, hfirst]
  refine (hf _ hmore).trans ?_
  rw [runAll, runAll, runAll, List.foldl_append]

theorem Traverses.map {x : MapM α} {visits : List Visit} {a : α} (f : α → β)
    (hx : Traverses onRef name x visits a) : Traverses onRef name (f <$> x) visits (f a) := by
  intro state h
  rw [StateT.run_map, hx state h]
  rfl

theorem Traverses.mapM {f : ρ → MapM α} {visits : ρ → List Visit} {value : ρ → α} {list : List ρ}
    (h : ∀ x ∈ list, Traverses onRef name (f x) (visits x) (value x)) :
    Traverses onRef name (list.mapM f) (list.flatMap visits) (list.map value) := by
  induction list with
  | nil => exact Traverses.pure []
  | cons x more ih =>
    have hmore := ih fun y hy => h y (List.mem_cons_of_mem x hy)
    rw [List.mapM_cons, List.flatMap_cons, List.map_cons]
    refine (h x List.mem_cons_self).bind ?_
    rw [← List.append_nil (more.flatMap visits)]
    exact hmore.bind (Traverses.pure _)

theorem traverses_report (pointer : String) (reason : Degradation) :
    Traverses onRef name (report pointer reason) [fault ⟨pointer, reason⟩] () :=
  fun _ _ => rfl

/-- Giving up on a schema is a visit to a fault. -/
theorem traverses_degrade (pointer : String) (reason : Degradation) :
    Traverses onRef name (degrade pointer reason) [fault ⟨pointer, reason⟩] .unknown :=
  (traverses_report pointer reason).bind (Traverses.pure _)

/-- Following a reference is a visit to it, with its name as the answer. -/
theorem traverses_reference (path : String) :
    Traverses onRef name (onRef path) [.reference path]
      (.reference (Reference.canonical path) (name (Reference.canonical path))) :=
  fun _ h => Prod.ext h.1 rfl

end Traverses

/-- A computation of a type with its visits and its value. -/
structure Traversal (onRef : String → MapM Descriptor) (name : String → String) where
  computation : MapM Descriptor
  visits : List Visit
  value : Descriptor
  traverses : Traverses onRef name computation visits value

section Keywords

variable {onRef : String → MapM Descriptor} {name : String → String}

open Traversal

/-! ### The traversals of keywords -/

/-- A composition makes the visits of its members, or the one to the fault that it has none. -/
private theorem traverses_compose (keyword pointer : String) (wrap : List Descriptor → Descriptor)
    (members : List (Traversal onRef name)) :
    Traverses onRef name (compose keyword pointer wrap (members.map computation))
      (Visit.compose keyword pointer (members.map visits))
      (Outline.compose wrap (members.map value)) := by
  have hmembers : Traverses onRef name ((members.map computation).mapM id)
      (members.map visits).flatten (members.map value) := by
    rw [List.mapM_map, ← List.flatMap_def]
    exact Traverses.mapM fun member _ => member.traverses
  refine hmembers.bind ?_
  rcases members with _ | ⟨first, _ | ⟨second, more⟩⟩
  · exact traverses_degrade _ _
  · exact Traverses.pure _
  · exact Traverses.pure _

/-- A constant makes a visit only if it is no literal. -/
private theorem traverses_constant (json : Json) (pointer : String) :
    Traverses onRef name (constant json pointer) (Visit.constant json pointer)
      (Outline.constant json) := by
  rw [constant, Visit.constant, Outline.constant]
  rcases Literal.ofJson? json with _ | literal
  · exact traverses_degrade _ _
  · exact Traverses.pure _

/-- Literals are collected with a visit for each value that is none. -/
private theorem traverses_collectLiterals (pointer : String) (kept : List Literal)
    (values : List Json) :
    Traverses onRef name (collectLiterals pointer kept values) (Visit.literals pointer values)
      (Outline.distinct Literal.same kept (values.filterMap Literal.ofJson?)) := by
  induction values generalizing kept with
  | nil => exact Traverses.pure _
  | cons json more ih =>
    rw [collectLiterals, Visit.literals, List.filterMap_cons]
    rcases Literal.ofJson? json with _ | literal
    · exact (traverses_report _ _).bind (ih kept)
    · exact ih _

private theorem traverses_enumerated (values : List Json) (pointer : String) :
    Traverses onRef name (enumerated values pointer) (Visit.enumerated values pointer)
      (Outline.enumerated values) := by
  refine (traverses_collectLiterals pointer [] values).bind ?_
  simp only [Outline.enumerated]
  split_ifs
  · exact traverses_degrade _ _
  · exact Traverses.pure _

variable (keywords : Keywords (Traversal onRef name))

private theorem traverses_declared :
    Traverses onRef name (declared (keywords.map computation))
      (((keywords.map visits).properties.getD []).map Prod.snd).flatten
      (((keywords.map value).properties.getD []).map fun property =>
        ⟨property.1, property.2, keywords.required.contains property.1⟩) := by
  simp only [declared, Keywords.getD_properties_map, List.mapM_map, List.map_map]
  rw [← List.flatMap_def]
  refine Traverses.mapM fun property _ => ?_
  rw [← List.append_nil ((Prod.snd ∘ _) property)]
  exact property.2.traverses.bind (Traverses.pure _)

private theorem traverses_undeclared (declaresNone : Bool) :
    Traverses onRef name (undeclared declaresNone (keywords.map computation).additional)
      ((keywords.map visits).rest.getD [])
      (Outline.undeclared declaresNone (keywords.map value).additional) := by
  obtain ⟨_, _, _, _, _, _, _, _, additional, _, _, _, _⟩ := keywords
  rcases additional with _ | (_ | _) | type
  · exact Traverses.pure _
  · exact Traverses.pure _
  · exact Traverses.pure _
  · exact type.traverses.map some

private theorem traverses_object :
    Traverses onRef name (object (keywords.map computation)) (Visit.object (keywords.map visits))
      (Outline.object (keywords.map value)) := by
  refine (traverses_declared keywords).bind ?_
  rw [List.isEmpty_map, ← List.append_nil ((keywords.map visits).rest.getD [])]
  exact (traverses_undeclared keywords _).bind (Traverses.pure _)

private theorem traverses_array :
    Traverses onRef name (array (keywords.map computation)) (Visit.array (keywords.map visits))
      (Outline.array (keywords.map value)) := by
  obtain ⟨_, _, _, items, _, _, _, _, _, _, _, _, _⟩ := keywords
  rcases items with _ | item
  · exact (Traverses.pure _).map _
  · exact item.traverses.map _

private theorem traverses_named (pointer typeName : String) :
    Traverses onRef name (named (keywords.map computation) pointer typeName)
      (Visit.typeNamed (keywords.map visits) pointer typeName)
      (Outline.typeNamed (keywords.map value) typeName) := by
  rw [named, typeNamed, Visit.typeNamed, Outline.typeNamed]
  rcases scalarKind? typeName with _ | kind
  · dsimp only
    split_ifs
    · exact traverses_array keywords
    · exact traverses_object keywords
    · exact traverses_degrade _ _
  · exact Traverses.pure _

/-- Types are collected with the visits of one name after another. -/
private theorem traverses_collectTypes (pointer : String) (kept : List Descriptor)
    (names : List String) :
    Traverses onRef name (collectTypes (named (keywords.map computation) pointer) kept names)
      (names.flatMap (Visit.typeNamed (keywords.map visits) pointer))
      (Outline.distinct Descriptor.same kept
        (names.map (Outline.typeNamed (keywords.map value)))) := by
  induction names generalizing kept with
  | nil => exact Traverses.pure _
  | cons first more ih => exact (traverses_named keywords pointer first).bind (ih _)

theorem distinct_ne_nil {α : Type} {same : α → α → Bool} {kept values : List α}
    (h : kept ≠ [] ∨ values ≠ []) : Outline.distinct same kept values ≠ [] := by
  induction values generalizing kept with
  | nil => exact h.resolve_right fun hne => hne rfl
  | cons value more ih =>
    refine ih (Or.inl ?_)
    split_ifs with hany
    · rintro rfl
      cases hany
    · simp

theorem mem_of_mem_distinct {α : Type} {same : α → α → Bool} {kept values : List α} {a : α}
    (h : a ∈ Outline.distinct same kept values) : a ∈ kept ∨ a ∈ values := by
  induction values generalizing kept with
  | nil => exact Or.inl h
  | cons value more ih =>
    rcases ih h with hmem | hmem
    · split_ifs at hmem
      · exact Or.inl hmem
      · rcases List.mem_append.mp hmem with hmem | hmem
        · exact Or.inl hmem
        · exact Or.inr (List.mem_singleton.mp hmem ▸ List.mem_cons_self)
    · exact Or.inr (List.mem_cons_of_mem value hmem)

private theorem traverses_typesNamed (pointer : String) (names : List String) :
    Traverses onRef name (typesNamed (named (keywords.map computation) pointer) pointer names)
      (Visit.typesNamed (keywords.map visits) pointer names)
      (Outline.typesNamed (keywords.map value) names) := by
  refine (traverses_collectTypes keywords pointer [] names).bind ?_
  rw [Outline.typesNamed]
  rcases names with _ | ⟨first, more⟩
  · exact traverses_degrade _ _
  · have hne : Outline.distinct Descriptor.same []
        ((first :: more).map (Outline.typeNamed (keywords.map value))) ≠ [] :=
      distinct_ne_nil (Or.inr (List.cons_ne_nil _ _))
    rcases h : Outline.distinct Descriptor.same []
      ((first :: more).map (Outline.typeNamed (keywords.map value))) with _ | ⟨type, _ | ⟨_, _⟩⟩
    · exact absurd h hne
    · exact Traverses.pure _
    · exact Traverses.pure _

/-- An intersection makes the visits of its members, with those of the object beside them. -/
private theorem traverses_conjuncts (pointer : String) (members : List (Traversal onRef name)) :
    Traverses onRef name
      (compose "allOf" pointer .intersection
        (conjuncts (keywords.map computation) (members.map computation)))
      (Visit.compose "allOf" pointer
        (Visit.conjuncts (keywords.map visits) (members.map visits)))
      (Outline.compose .intersection
        (Outline.conjuncts (keywords.map value) (members.map value))) := by
  rw [conjuncts, Visit.conjuncts, Outline.conjuncts, Keywords.isSome_properties_map,
    Keywords.isSome_properties_map, Keywords.isSome_properties_map]
  split_ifs
  · have h := traverses_compose "allOf" pointer .intersection
      (members ++ [⟨_, _, _, traverses_object keywords⟩])
    rw [List.map_append, List.map_append, List.map_append] at h
    exact h
  · exact traverses_compose _ _ _ members

private theorem traverses_shape (pointer : String) :
    Traverses onRef name (shape (keywords.map computation) pointer)
      (Visit.shape (keywords.map visits) pointer) (Outline.shape (keywords.map value)) := by
  rw [shape, Visit.shape, Outline.shape, Keywords.form_map, Keywords.form_map, Keywords.form_map]
  rcases keywords.form with json | members | members | members | values | name | names | _ | _ |
    _ | _
  · exact traverses_constant json pointer
  · exact traverses_conjuncts keywords pointer members
  · exact traverses_compose _ _ _ members
  · exact traverses_compose _ _ _ members
  · exact traverses_enumerated values pointer
  · exact traverses_named keywords pointer name
  · exact traverses_typesNamed keywords pointer names
  · exact traverses_object keywords
  · exact traverses_array keywords
  · exact traverses_degrade _ _
  · exact traverses_degrade _ _

/-- Whether `null` is added makes no difference to visits. -/
private theorem traverses_interpret (pointer : String) :
    Traverses onRef name (interpret (keywords.map computation) pointer)
      (Visit.shape (keywords.map visits) pointer) (Outline.interpret (keywords.map value)) := by
  rw [← List.append_nil (Visit.shape _ _)]
  refine (traverses_shape keywords pointer).bind ?_
  exact Traverses.pure _

end Keywords

/-! ### The traversals of schemas -/

section Schema

variable (onRef : String → MapM Descriptor) (name : String → String)

/-- The traversal of a schema. -/
def traversal : Schema → String → Traversal onRef name :=
  Schema.fold (fun path => ⟨_, _, _, traverses_reference path⟩)
    fun keywords pointer => ⟨_, _, _, traverses_interpret keywords pointer⟩

/-- **Traversal.** Translating a schema makes the visits of the schema, and gives its outline if
they are answered. -/
theorem translate_traverses (schema : Schema) (pointer : String) :
    Traverses onRef name (schema.translate onRef pointer) (schema.visits pointer)
      (schema.outline name) := by
  have hrun : (traversal onRef name schema pointer).computation = schema.translate onRef pointer :=
    Schema.fold_fusion Traversal.computation (fun _ => rfl) (fun _ _ => rfl) schema pointer
  have hvisits : (traversal onRef name schema pointer).visits = schema.visits pointer :=
    Schema.fold_fusion Traversal.visits (fun _ => rfl) (fun _ _ => rfl) schema pointer
  have hvalue : (traversal onRef name schema pointer).value = schema.outline name := by
    rw [Schema.outline, Schema.fold_pointer _ _ schema "" pointer]
    exact Schema.fold_fusion Traversal.value (fun _ => rfl) (fun _ _ => rfl) schema pointer
  rw [← hrun, ← hvisits, ← hvalue]
  exact (traversal onRef name schema pointer).traverses

end Schema

/-! ### What is visited -/

namespace Visit

theorem mem_paths {visits : List Visit} {path : String} :
    path ∈ paths visits ↔ reference path ∈ visits := by
  rw [paths, List.mem_filterMap]
  constructor
  · rintro ⟨_ | _, hmem, hpath⟩
    · cases hpath
      exact hmem
    · cases hpath
  · intro hmem
    exact ⟨_, hmem, rfl⟩

theorem mem_paths_cons_of_mem (visit : Visit) {more : List Visit} {path : String}
    (h : path ∈ paths more) : path ∈ paths (visit :: more) :=
  mem_paths.mpr (List.mem_cons_of_mem visit (mem_paths.mp h))

section Parts

variable {keywords : Keywords (List Visit)} {pointer : String} {visit : Visit}

/-- Whether a visit is one of some parts, or a fault at `pointer`. -/
private def Inside (parts : List (List Visit)) (pointer : String) (visit : Visit) : Prop :=
  (∃ part ∈ parts, visit ∈ part) ∨ ∃ reason, visit = fault ⟨pointer, reason⟩

private theorem Inside.subset {parts others : List (List Visit)} (h : Inside parts pointer visit)
    (hsubset : parts ⊆ others) : Inside others pointer visit :=
  h.imp_left fun ⟨part, hpart, hmem⟩ => ⟨part, hsubset hpart, hmem⟩

private theorem inside_of_compose {keyword : String} {members : List (List Visit)}
    (h : visit ∈ compose keyword pointer members) : Inside members pointer visit := by
  rcases List.mem_append.mp h with h | h
  · exact Or.inl (List.mem_flatten.mp h)
  · split_ifs at h
    · exact Or.inr ⟨_, List.mem_singleton.mp h⟩
    · cases h

private theorem inside_of_object (h : visit ∈ object keywords) :
    Inside keywords.partsOfObject pointer visit := by
  left
  rcases List.mem_append.mp h with h | h
  · obtain ⟨part, hpart, hmem⟩ := List.mem_flatten.mp h
    exact ⟨part, List.mem_append_left _ hpart, hmem⟩
  · rcases hrest : keywords.rest with _ | part
    · rw [hrest] at h
      cases h
    · rw [hrest] at h
      exact ⟨part, List.mem_append_right _ (Option.mem_toList.mpr hrest), h⟩

private theorem inside_of_array (h : visit ∈ array keywords) :
    Inside keywords.items.toList pointer visit := by
  rcases hitems : keywords.items with _ | part
  · rw [array, hitems] at h
    cases h
  · rw [array, hitems] at h
    exact Or.inl ⟨part, List.mem_singleton_self part, h⟩

/-- The visits of a type that is given by its name come from the parts that belong to it or are
faults of its own. -/
private theorem inside_of_typeNamed {name : String} (h : visit ∈ typeNamed keywords pointer name) :
    Inside (keywords.partsOfType name) pointer visit := by
  rw [typeNamed] at h
  rw [Keywords.partsOfType]
  split at h
  · cases h
  · split_ifs at h ⊢
    · exact inside_of_array h
    · exact inside_of_object h
    · exact Or.inr ⟨_, List.mem_singleton.mp h⟩

private theorem inside_of_typesNamed {names : List String}
    (h : visit ∈ typesNamed keywords pointer names) :
    Inside (names.flatMap keywords.partsOfType) pointer visit := by
  rcases List.mem_append.mp h with h | h
  · obtain ⟨name, hname, hmem⟩ := List.mem_flatMap.mp h
    exact (inside_of_typeNamed hmem).subset fun part hpart =>
      List.mem_flatMap.mpr ⟨name, hname, hpart⟩
  · split_ifs at h
    · exact Or.inr ⟨_, List.mem_singleton.mp h⟩
    · cases h

private theorem inside_of_conjuncts {members : List (List Visit)}
    (h : visit ∈ compose "allOf" pointer (conjuncts keywords members)) :
    Inside (if keywords.properties.isSome then members ++ keywords.partsOfObject else members)
      pointer visit := by
  have hmembers := inside_of_compose h
  rw [conjuncts] at hmembers
  split_ifs at hmembers ⊢
  · rcases hmembers with ⟨member, hmember, hmem⟩ | hfault
    · rcases List.mem_append.mp hmember with hmember | hmember
      · exact Or.inl ⟨member, List.mem_append_left _ hmember, hmem⟩
      · rw [List.mem_singleton.mp hmember] at hmem
        exact (inside_of_object hmem).subset (List.subset_append_right _ _)
    · exact Or.inr hfault
  · exact hmembers

/-- Literals have no faults but members that are none. -/
private theorem eq_of_mem_literals {values : List Json} (h : visit ∈ literals pointer values) :
    visit = fault ⟨Reference.child pointer "enum", .nonScalarMember⟩ := by
  induction values with
  | nil => cases h
  | cons value more ih =>
    rw [literals] at h
    split at h
    · exact ih h
    · exact (List.mem_cons.mp h).elim id ih

/-- What keywords visit, the parts that are used visit, and their faults are at the place of the
keywords or of a list of values. -/
private theorem inside_of_shape (h : visit ∈ shape keywords pointer) :
    Inside keywords.used pointer visit ∨ keywords.enumeration.isSome ∧
      ∃ reason, visit = fault ⟨Reference.child pointer "enum", reason⟩ := by
  rw [shape] at h
  rw [Keywords.used]
  -- One case for each form. Faults of an enumeration are the only ones below their own schema.
  rcases hform : keywords.form with json | members | members | members | values | name | names | _ |
    _ | _ | _ <;> rw [hform] at h
  · simp only [constant] at h
    split at h
    · cases h
    · exact Or.inl (Or.inr ⟨_, List.mem_singleton.mp h⟩)
  · exact Or.inl (inside_of_conjuncts h)
  · exact Or.inl (inside_of_compose h)
  · exact Or.inl (inside_of_compose h)
  · rcases List.mem_append.mp h with h | h
    · have hsome := Option.isSome_of_eq_some (Keywords.enumeration_of_form hform)
      exact Or.inr ⟨hsome, _, eq_of_mem_literals h⟩
    · split_ifs at h
      · exact Or.inl (Or.inr ⟨_, List.mem_singleton.mp h⟩)
      · cases h
  · exact Or.inl (inside_of_typeNamed h)
  · exact Or.inl (inside_of_typesNamed h)
  · exact Or.inl (inside_of_object h)
  · exact Or.inl (inside_of_array h)
  · exact Or.inl (Or.inr ⟨_, List.mem_singleton.mp h⟩)
  · exact Or.inl (Or.inr ⟨_, List.mem_singleton.mp h⟩)

end Parts

/-- What a schema at `pointer` visits is its reference, or it is visited by a schema inside it that
is used, or it is a fault at `pointer` or at the list of values there. -/
theorem of_mem_visits {schema : Schema} {pointer : String} {visit : Visit}
    (h : visit ∈ schema.visits pointer) :
    (∃ path, schema.ref = some path ∧ visit = reference path) ∨
      (∃ part ∈ (schema.keywords pointer).used, visit ∈ part.1.visits part.2) ∨
      (∃ reason, visit = fault ⟨pointer, reason⟩) ∨ schema.enumeration.isSome ∧
        ∃ reason, visit = fault ⟨Reference.child pointer "enum", reason⟩ := by
  rw [Schema.visits, Schema.fold_eq] at h
  rcases href : schema.ref with _ | own
  · rw [href] at h
    rcases inside_of_shape h with (⟨visits, hvisits, hmem⟩ | hfault) | henumeration
    · rw [Keywords.used_map] at hvisits
      obtain ⟨part, hpart, rfl⟩ := List.mem_map.mp hvisits
      exact Or.inr (Or.inl ⟨part, hpart, hmem⟩)
    · exact Or.inr (Or.inr (Or.inl hfault))
    · exact Or.inr (Or.inr (Or.inr henumeration))
  · rw [href] at h
    exact Or.inl ⟨own, rfl, List.mem_singleton.mp h⟩

/-- Only references in a schema are visited. -/
theorem paths_subset_refs (schema : Schema) (pointer : String) :
    paths (schema.visits pointer) ⊆ schema.refs := by
  refine Schema.induction (P := fun schema pointer => paths (schema.visits pointer) ⊆ schema.refs)
    (fun schema pointer ih => ?_) schema pointer
  intro path hpath
  rcases of_mem_visits (mem_paths.mp hpath) with ⟨own, href, heq⟩ | ⟨part, hpart, hmem⟩ | hfault
  · cases heq
    exact Schema.mem_refs.mpr (Or.inl href)
  · have hinside := Keywords.mem_parts_of_used hpart
    exact Schema.mem_refs_of_part hinside (ih part hinside (mem_paths.mpr hmem))
  · rcases hfault with ⟨_, heq⟩ | ⟨-, _, heq⟩ <;> cases heq

end Visit

/-- Answers depend on names only as far as keys of the visits are concerned. -/
theorem answered_congr {onRef : String → MapM Descriptor} {name other : String → String}
    {visits : List Visit}
    (h : ∀ path ∈ paths visits, name (Reference.canonical path) = other (Reference.canonical path))
    {state : Mapping} (hanswered : Answered onRef name visits state) :
    Answered onRef other visits state := by
  induction visits generalizing state with
  | nil => trivial
  | cons visit more ih =>
    have hmore : ∀ path ∈ paths more,
        name (Reference.canonical path) = other (Reference.canonical path) := fun path hpath =>
      h path (mem_paths_cons_of_mem visit hpath)
    rcases visit with path | diagnostic
    · obtain ⟨hfirst, hrest⟩ := hanswered
      rw [h path (mem_paths.mpr List.mem_cons_self)] at hfirst
      exact ⟨hfirst, ih hmore hrest⟩
    · exact ih hmore hanswered

/-- Visits are answered if every reference has the same answer in every state. -/
theorem answered_of_forall {onRef : String → MapM Descriptor} {name : String → String}
    (h : ∀ path state, ((onRef path).run state).1 =
      .reference (Reference.canonical path) (name (Reference.canonical path)))
    {visits : List Visit} {state : Mapping} : Answered onRef name visits state := by
  induction visits generalizing state with
  | nil => trivial
  | cons visit more ih =>
    rcases visit with path | diagnostic
    · exact ⟨h path state, ih⟩
    · exact ih

/-- Only the names of the keys that are visited count. -/
theorem outline_congr {schema : Schema} {name other : String → String} (pointer : String)
    (h : ∀ path ∈ paths (schema.visits pointer),
      name (Reference.canonical path) = other (Reference.canonical path)) :
    schema.outline name = schema.outline other := by
  let onRef : String → MapM Descriptor := fun path =>
    pure (.reference (Reference.canonical path) (name (Reference.canonical path)))
  have hanswered : Answered onRef name (schema.visits pointer) {} :=
    answered_of_forall fun _ _ => rfl
  have hname := translate_traverses onRef name schema pointer {} hanswered
  have hother := translate_traverses onRef other schema pointer {} (answered_congr h hanswered)
  exact congrArg Prod.fst (hname.symm.trans hother)

/-- An outline has no references but those that are visited: if a key was not visited, its name
could be another without changing the value. -/
theorem mem_paths_of_mem_references {schema : Schema} {name : String → String}
    {reference : String × String} (h : reference ∈ (schema.outline name).references)
    (pointer : String) :
    ∃ path ∈ paths (schema.visits pointer), Reference.canonical path = reference.1 := by
  by_contra hnot
  push Not at hnot
  -- The key of the reference gets a longer name, which no visit asks for.
  let other : String → String := Function.update name reference.1 (name reference.1 ++ "'")
  have hvalue : schema.outline name = schema.outline other :=
    outline_congr pointer fun path hpath => (Function.update_of_ne (hnot path hpath) _ _).symm
  have hname := Descriptor.snd_of_mem_references (Outline.outline_named name name schema) h
  rw [hvalue] at h
  have hrenamed := Descriptor.snd_of_mem_references (Outline.outline_named other other schema) h
  have hlength := congrArg String.length (hname.symm.trans hrenamed)
  rw [show other reference.1 = name reference.1 ++ "'" from Function.update_self _ _ _] at hlength
  rw [String.length_append] at hlength
  exact absurd hlength (Nat.ne_of_lt (Nat.lt_add_of_pos_right (by decide)))

end Mapping

end ClientGen
