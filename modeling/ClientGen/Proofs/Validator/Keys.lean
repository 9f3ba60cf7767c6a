import ClientGen.Proofs.Script.Nesting
import ClientGen.Proofs.Script.TypeTokens
import ClientGen.Validator.Arktype
import Mathlib.Data.List.Nodup

/-!
# Keys of ArkType objects

ArkType reads more into a key than its text: a question mark at the end makes the property optional,
and one certain key stands for all others. The keys of an object are known exactly, as strings,
whatever the names of the properties are (`keys?_render`). They say what they should if and only if
the name of no required property says something of that kind by itself (`faithful_iff`), and there
are such names (`not_forall_faithful`).
-/

namespace ClientGen

open Script Lexer

/-! ### Keys as strings -/

namespace Script

/-- The string that a key stands for, as it is written. -/
def keyValue? (written : String) : Option String :=
  match tokens? written with
  | some [.word text] => some text
  | some [.string value] => some value
  | _ => none

/-- The keys of an object that is written on one line, as strings. -/
def Expr.keys? : Expr → Option (List String)
  | .object fields => fields.mapM fun field => keyValue? field.1
  | _ => none

/-- What is read back from each item of a list is read back from the list. -/
theorem mapM_map_eq_some {α β γ : Type} {f : β → Option γ} {g : α → β} {r : α → γ} (items : List α)
    (h : ∀ a, f (g a) = some (r a)) : (items.map g).mapM f = some (items.map r) := by
  have hpure : f ∘ g = fun a => pure (r a) := funext h
  rw [List.mapM_map, hpure, List.mapM_pure]
  rfl

theorem keyValue?_quote (name : String) : keyValue? (Quoted.quote name) = some name := by
  rw [keyValue?, (reads_of_run (run_quote name)).tokens?]

theorem keyValue?_key (name : String) : keyValue? (Quoted.key name) = some name := by
  rw [keyValue?, (TypeExpr.reads_key name).tokens?, TypeExpr.keyToken]
  split_ifs <;> rfl

end Script

namespace Validator.Arktype

/-! ### The keys of an object -/

/-- The string that stands for all properties that are not declared. -/
def restName : String := "[string]"

/-- The key of a property as a string. -/
def keyOf (property : Property Descriptor) : String :=
  if property.required then property.name else property.name ++ "?"

/-- The key that is written for a property stands for its name, with a question mark behind it if it
is optional. -/
theorem keyValue?_property (property : Property Descriptor) (validator : Expr) :
    keyValue? (Arktype.property ⟨Quoted.key property.name, validator, property.required⟩).1 =
      some (keyOf property) := by
  rw [Arktype.property, keyOf]
  split_ifs
  · exact keyValue?_key property.name
  · rw [optionalKey_key]
    exact keyValue?_quote _

private theorem renderProperties_eq_map (scope : Scope) (properties : List (Property Descriptor)) :
    library.renderProperties scope properties = properties.map fun property =>
      ⟨Quoted.key property.name, library.render scope property.type, property.required⟩ := by
  induction properties with
  | nil => rfl
  | cons property more ih => rw [Library.renderProperties, ih, List.map_cons]

/-- An object without declared properties is no exception. -/
private theorem render_object (scope : Scope) (properties : List (Property Descriptor))
    (rest : Option Descriptor) :
    library.render scope (.object properties rest) =
      object (library.renderProperties scope properties) (rest.map (library.render scope)) := by
  rcases properties with _ | ⟨property, more⟩ <;> rcases rest with _ | rest <;> rfl

/-- **Keys.** The keys of an object are the names of its properties, with a question mark after
those of optional ones, and one more if other properties may be there. -/
theorem keys?_render (scope : Scope) (properties : List (Property Descriptor))
    (rest : Option Descriptor) :
    (library.render scope (.object properties rest)).keys? =
      some (properties.map keyOf ++ if rest.isSome then [restName] else []) := by
  let written (declared : Property Descriptor) : String × Expr :=
    property ⟨Quoted.key declared.name, library.render scope declared.type, declared.required⟩
  have hdeclared : (properties.map written).mapM (fun field => keyValue? field.1) =
      some (properties.map keyOf) :=
    mapM_map_eq_some properties fun declared => keyValue?_property declared _
  have hkeys (more : List (String × Expr)) : (Expr.object (properties.map written ++ more)).keys? =
      (more.mapM fun field => keyValue? field.1).map (properties.map keyOf ++ ·) := by
    rw [Expr.keys?, List.mapM_append, hdeclared]
    exact (Option.map_eq_bind).symm
  -- The key for further keys is quoted and stands for itself, brackets included.
  have hrest : keyValue? restKey = some restName := keyValue?_quote restName
  rw [render_object, renderProperties_eq_map]
  rcases rest with _ | rest
  · simp only [object.eq_def, Option.map_none, List.map_map]
    exact hkeys []
  · simp only [object.eq_def, Option.map_some, List.map_map]
    refine (hkeys [(restKey, library.render scope rest)]).trans ?_
    rw [List.mapM_cons, hrest]
    rfl

/-! ### What keys say -/

/-- Whether a key says that its property is optional. -/
def IsOptional (key : String) : Prop :=
  key.toList.getLast? = some '?'

instance (key : String) : Decidable (IsOptional key) :=
  inferInstanceAs (Decidable (key.toList.getLast? = some '?'))

/-- Whether keys say what an object is. No key comes twice; there is one for each property, which
says whether it is optional, and one for all others if there may be any. -/
structure Faithful (properties : List (Property Descriptor)) (rest : Option Descriptor)
    (keys : List String) : Prop where
  nodup : keys.Nodup
  declared : ∃ own : List String, keys = own ++ (if rest.isSome then [restName] else []) ∧
    List.Forall₂ (fun property key => IsOptional key ↔ property.required = false) properties own
  rest : restName ∈ keys ↔ rest.isSome

/-- Whether the name of a property says nothing by itself that a key would say. -/
def Plain (property : Property Descriptor) : Prop :=
  property.required = true → property.name ≠ restName ∧ ¬IsOptional property.name

instance (property : Property Descriptor) : Decidable (Plain property) :=
  inferInstanceAs (Decidable (property.required = true → _))

private theorem isOptional_append (name : String) : IsOptional (name ++ "?") := by
  rw [IsOptional, String.toList_append]
  exact List.getLast?_concat

private theorem not_isOptional_restName : ¬IsOptional restName := by
  decide

section Plain

variable {property other : Property Descriptor}

/-- The key of a plain property is marked as optional exactly if the property is. -/
theorem Plain.isOptional_keyOf_iff (h : Plain property) :
    IsOptional (keyOf property) ↔ property.required = false := by
  rcases hrequired : property.required with _ | _
  · rw [keyOf, hrequired]
    exact iff_of_true (isOptional_append property.name) rfl
  · rw [keyOf, hrequired]
    exact iff_of_false (h hrequired).2 Bool.noConfusion

/-- The key of a plain property is not the one for further keys. -/
theorem Plain.keyOf_ne (h : Plain property) : keyOf property ≠ restName := by
  intro heq
  rcases hrequired : property.required with _ | _
  · rw [← h.isOptional_keyOf_iff, heq] at hrequired
    exact not_isOptional_restName hrequired
  · rw [keyOf, hrequired] at heq
    exact (h hrequired).1 heq

/-- Keys tell apart plain properties with different names. -/
theorem Plain.name_eq (h : Plain property) (hother : Plain other)
    (heq : keyOf property = keyOf other) : property.name = other.name := by
  have hrequired : property.required = false ↔ other.required = false := by
    rw [← h.isOptional_keyOf_iff, ← hother.isOptional_keyOf_iff, heq]
  rcases hproperty : property.required with _ | _
  · rw [keyOf, keyOf, hproperty, hrequired.mp hproperty] at heq
    exact (String.append_left_inj "?").mp heq
  · rw [hproperty] at hrequired
    have hrequired' : other.required = true := by simpa using hrequired
    rw [keyOf, keyOf, hproperty, hrequired'] at heq
    exact heq

end Plain

section Faithful

variable {properties : List (Property Descriptor)}

/-- Plain properties with distinct names have distinct keys. -/
private theorem nodup_keys (hnames : (properties.map Property.name).Nodup)
    (h : ∀ property ∈ properties, Plain property) : (properties.map keyOf).Nodup := by
  refine List.Nodup.map_on (fun first hfirst second hsecond heq => ?_) (.of_map _ hnames)
  exact List.inj_on_of_nodup_map hnames hfirst hsecond
    ((h first hfirst).name_eq (h second hsecond) heq)

private theorem notMem_keys (h : ∀ property ∈ properties, Plain property) :
    restName ∉ properties.map keyOf := by
  intro hmem
  obtain ⟨property, hproperty, heq⟩ := List.mem_map.mp hmem
  exact (h property hproperty).keyOf_ne heq

/-- Plain properties have faithful keys. -/
private theorem faithful_of_plain (rest : Option Descriptor)
    (hnames : (properties.map Property.name).Nodup) (h : ∀ property ∈ properties, Plain property) :
    Faithful properties rest
      (properties.map keyOf ++ if rest.isSome then [restName] else []) where
  nodup := by
    rcases rest with _ | rest
    · simpa using nodup_keys hnames h
    · refine (nodup_keys hnames h).append (List.nodup_singleton _) ?_
      exact List.disjoint_singleton.mpr (notMem_keys h)
  declared := by
    refine ⟨_, rfl, List.forall₂_map_right_iff.mpr (List.forall₂_same.mpr ?_)⟩
    exact fun property hproperty => (h property hproperty).isOptional_keyOf_iff
  rest := by
    have hmem := notMem_keys h
    rcases rest with _ | rest <;> simp [hmem]

/-- The keys of a property that is not plain are not faithful. -/
private theorem plain_of_faithful {rest : Option Descriptor}
    (h : Faithful properties rest
      (properties.map keyOf ++ if rest.isSome then [restName] else []))
    {property : Property Descriptor} (hproperty : property ∈ properties) : Plain property := by
  intro hrequired
  have hkey : keyOf property = property.name := if_pos hrequired
  have hmem : property.name ∈ properties.map keyOf := hkey ▸ List.mem_map_of_mem hproperty
  constructor
  · -- The name would stand for all other properties, once too often if it does.
    intro heq
    rw [heq] at hmem
    have hrest := h.rest.mp (List.mem_append_left _ hmem)
    have hnodup := h.nodup
    rw [if_pos hrest] at hnodup
    exact List.disjoint_of_nodup_append hnodup hmem (List.mem_singleton_self _)
  · obtain ⟨own, heq, hown⟩ := h.declared
    rw [← List.append_cancel_right heq] at hown
    have hiff := List.forall₂_same.mp (List.forall₂_map_right_iff.mp hown) property hproperty
    rw [hkey, hrequired] at hiff
    exact fun hoptional => Bool.noConfusion (hiff.mp hoptional)

/-- **Faithful keys.** The keys of an object are the names of its properties, with a question mark
after those of optional ones, and one more if other properties may be there. They say what the
object is if and only if no required property is called like the key for all other properties, or
has a name that ends in a question mark. -/
theorem faithful_iff (scope : Scope) (properties : List (Property Descriptor))
    (hnames : (properties.map Property.name).Nodup) (rest : Option Descriptor) :
    ∃ keys, (library.render scope (.object properties rest)).keys? = some keys ∧
      keys = properties.map keyOf ++ (if rest.isSome then [restName] else []) ∧
      (Faithful properties rest keys ↔ ∀ property ∈ properties, Plain property) :=
  ⟨_, keys?_render scope properties rest, rfl,
    fun h _ hproperty => plain_of_faithful h hproperty, faithful_of_plain rest hnames⟩

end Faithful

/-- The properties of a node with tags. -/
def nodeProperties : List (Property Descriptor) := [
  ⟨"next", .reference "#/components/schemas/Node" "Node", false⟩,
  ⟨"x-id?", .scalar .integer, false⟩,
  ⟨"tags", .array (.scalar .string), true⟩]

/-- Plain properties, one of which needs quotes, have faithful keys. -/
theorem faithful_iff_node :
    ∃ keys, (library.render .declaration (.object nodeProperties (some (.scalar .string)))).keys? =
        some keys ∧
      keys = ["next?", "x-id??", "tags", "[string]"] ∧
      Faithful nodeProperties (some (.scalar .string)) keys := by
  obtain ⟨keys, hkeys, heq, hiff⟩ := faithful_iff .declaration nodeProperties (by decide)
    (some (.scalar .string))
  exact ⟨keys, hkeys, heq, hiff.mpr (by decide)⟩

/-- The keys of an object with a required property that is called like the key for all others are
not faithful. -/
theorem not_forall_faithful :
    ¬∀ (scope : Scope) (properties : List (Property Descriptor)) (rest : Option Descriptor),
      (properties.map Property.name).Nodup →
        ∃ keys, (library.render scope (.object properties rest)).keys? = some keys ∧
          Faithful properties rest keys := by
  intro h
  obtain ⟨keys, hkeys, hfaithful⟩ := h .declaration [⟨restName, .scalar .integer, true⟩]
    (some (.scalar .string)) (by decide)
  rw [keys?_render] at hkeys
  cases hkeys
  exact absurd hfaithful.nodup (by decide)

end Validator.Arktype

end ClientGen
