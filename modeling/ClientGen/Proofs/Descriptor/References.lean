import ClientGen.Descriptor.Basic
import Mathlib.Data.List.Basic

/-!
# References inside a type

`Descriptor.Mentions` says part by part where a type has a reference inside, at any depth. The list
`Descriptor.references` has exactly these (`mem_references_iff`).
-/

namespace ClientGen.Descriptor

/-- Whether a type has a reference to `key` under `name` inside, at any depth. -/
inductive Mentions (key name : String) : Descriptor → Prop
  | reference : Mentions key name (reference key name)
  | item {item : Descriptor} : Mentions key name item → Mentions key name (array item)
  | property {properties : List (Property Descriptor)} {rest : Option Descriptor}
      {property : Property Descriptor} :
      property ∈ properties → Mentions key name property.type →
        Mentions key name (object properties rest)
  | rest {properties : List (Property Descriptor)} {rest : Descriptor} :
      Mentions key name rest → Mentions key name (object properties (some rest))
  | case {kind : UnionKind} {members : List Descriptor} {member : Descriptor} :
      member ∈ members → Mentions key name member → Mentions key name (union kind members)
  | constraint {members : List Descriptor} {member : Descriptor} :
      member ∈ members → Mentions key name member → Mentions key name (intersection members)

/-- The references of an object are those of its properties and of all others. -/
theorem references_object (properties : List (Property Descriptor)) (rest : Option Descriptor) :
    (object properties rest).references =
      referencesOfProperties properties ++ (rest.map references).getD [] := by
  cases rest with
  | none => rw [references, Option.map_none, Option.getD_none]
  | some rest => rw [references, Option.map_some, Option.getD_some]

/-- The references of properties are those of their types. -/
theorem mem_referencesOfProperties {properties : List (Property Descriptor)}
    {reference : String × String} :
    reference ∈ referencesOfProperties properties ↔
      ∃ property ∈ properties, reference ∈ property.type.references := by
  induction properties with
  | nil => simp [referencesOfProperties]
  | cons property rest ih =>
    rw [referencesOfProperties, List.mem_append, ih, List.exists_mem_cons_iff]

/-- The references of members are those of each of them. -/
theorem mem_referencesOfMembers {members : List Descriptor} {reference : String × String} :
    reference ∈ referencesOfMembers members ↔
      ∃ member ∈ members, reference ∈ member.references := by
  induction members with
  | nil => simp [referencesOfMembers]
  | cons member rest ih =>
    rw [referencesOfMembers, List.mem_append, ih, List.exists_mem_cons_iff]

/-- A reference is listed wherever it is. -/
theorem Mentions.mem_references {key name : String} {type : Descriptor}
    (h : type.Mentions key name) : (key, name) ∈ type.references := by
  induction h with
  | reference => exact List.mem_singleton_self _
  | item _ ih => exact ih
  | property hproperty _ ih =>
    rw [references_object]
    exact List.mem_append_left _ (mem_referencesOfProperties.mpr ⟨_, hproperty, ih⟩)
  | rest _ ih =>
    rw [references_object]
    exact List.mem_append_right _ ih
  | case hmember _ ih => exact mem_referencesOfMembers.mpr ⟨_, hmember, ih⟩
  | constraint hmember _ ih => exact mem_referencesOfMembers.mpr ⟨_, hmember, ih⟩

variable {key name : String}

mutual

/-- What is listed is a reference inside. -/
theorem mentions_of_mem_references (type : Descriptor) (h : (key, name) ∈ type.references) :
    type.Mentions key name := by
  cases type with
  | reference otherKey otherName =>
    cases List.mem_singleton.mp h
    exact .reference
  | array item => exact .item (mentions_of_mem_references item h)
  | object properties rest =>
    rw [references_object] at h
    -- Properties come first, and then the type of further keys.
    rcases List.mem_append.mp h with hproperties | hrest
    · obtain ⟨property, hproperty, hmentions⟩ := mentions_of_mem_properties properties hproperties
      exact .property hproperty hmentions
    · cases rest with
      | none => cases hrest
      | some rest => exact .rest (mentions_of_mem_references rest hrest)
  | union kind members =>
    obtain ⟨member, hmember, hmentions⟩ := mentions_of_mem_members members h
    exact .case hmember hmentions
  | intersection members =>
    obtain ⟨member, hmember, hmentions⟩ := mentions_of_mem_members members h
    exact .constraint hmember hmentions
  | primitive kind format => cases h
  | enumeration values => cases h
  | unknown => cases h

/-- A reference of properties is mentioned by the type of one of them. -/
private theorem mentions_of_mem_properties (properties : List (Property Descriptor))
    (h : (key, name) ∈ referencesOfProperties properties) :
    ∃ property ∈ properties, property.type.Mentions key name := by
  cases properties with
  | nil => cases h
  | cons property rest =>
    obtain ⟨_, type, _⟩ := property
    rcases List.mem_append.mp h with hfirst | hrest
    · exact ⟨_, List.mem_cons_self, mentions_of_mem_references type hfirst⟩
    · obtain ⟨property, hproperty, hmentions⟩ := mentions_of_mem_properties rest hrest
      exact ⟨property, List.mem_cons_of_mem _ hproperty, hmentions⟩

/-- A reference of members is mentioned by one of them. -/
private theorem mentions_of_mem_members (members : List Descriptor)
    (h : (key, name) ∈ referencesOfMembers members) :
    ∃ member ∈ members, member.Mentions key name := by
  cases members with
  | nil => cases h
  | cons member rest =>
    rcases List.mem_append.mp h with hfirst | hrest
    · exact ⟨member, List.mem_cons_self, mentions_of_mem_references member hfirst⟩
    · obtain ⟨member, hmember, hmentions⟩ := mentions_of_mem_members rest hrest
      exact ⟨member, List.mem_cons_of_mem _ hmember, hmentions⟩

end

/-- **References inside.** The references of a type are those inside it at any depth. -/
theorem mem_references_iff {type : Descriptor} :
    (key, name) ∈ type.references ↔ type.Mentions key name :=
  ⟨mentions_of_mem_references type, Mentions.mem_references⟩

end ClientGen.Descriptor
