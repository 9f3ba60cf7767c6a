import ClientGen.Descriptor.Basic
import Mathlib.Data.List.Basic

/-!
# Types up to the names of references

A reference has a key, which says what it stands for, and a name, which says how that is declared.
`Descriptor.named name` is a type with all names replaced, given for each key the name of its
references; two types are the same but for these names if they agree when named alike. Naming
commutes with what is done to types, and whether two types are equal does not depend on the names as
long as they are given by the keys (`same_named`).
-/

namespace ClientGen.Descriptor

variable (f g : String → String)

mutual

/-- The type with other names for its references. -/
def named : Descriptor → Descriptor
  | reference key _ => reference key (f key)
  | array item => array item.named
  | object properties rest => object (namedProperties properties) (namedRest rest)
  | union kind members => union kind (namedMembers members)
  | intersection members => intersection (namedMembers members)
  | primitive kind format => primitive kind format
  | enumeration values => enumeration values
  | unknown => unknown

/-- Properties with other names for the references in their types. -/
def namedProperties : List (Property Descriptor) → List (Property Descriptor)
  | [] => []
  | property :: more => { property with type := property.type.named } :: namedProperties more

/-- The type of all other properties with other names for its references. -/
def namedRest : Option Descriptor → Option Descriptor
  | none => none
  | some rest => some rest.named

/-- Types with other names for their references. -/
def namedMembers : List Descriptor → List Descriptor
  | [] => []
  | member :: more => member.named :: namedMembers more

end

theorem namedRest_eq_map (rest : Option Descriptor) : namedRest f rest = rest.map (named f) := by
  rcases rest with _ | rest <;> rfl

theorem namedMembers_eq_map (members : List Descriptor) :
    namedMembers f members = members.map (named f) := by
  induction members with
  | nil => rw [namedMembers, List.map_nil]
  | cons member more ih => rw [namedMembers, ih, List.map_cons]

theorem namedProperties_eq_map (properties : List (Property Descriptor)) :
    namedProperties f properties =
      properties.map fun property => { property with type := property.type.named f } := by
  induction properties with
  | nil => rw [namedProperties, List.map_nil]
  | cons property more ih => rw [namedProperties, ih, List.map_cons]

/-! ### Equality -/

mutual

/-- Whether two types are equal does not depend on how keys are named. -/
theorem same_named (type other : Descriptor) :
    (type.named f).same (other.named f) = (type.named g).same (other.named g) := by
  cases type with
  | array item =>
    cases other with
    | array other => simpa only [named, same] using same_named item other
    | _ => simp only [named, same]
  | object properties rest =>
    cases other with
    | object others otherRest =>
      have hproperties := sameProperties_named properties others
      rcases rest with _ | type
      · rcases otherRest with _ | other <;> simp only [named, namedRest, same, hproperties]
      · rcases otherRest with _ | other
        · simp only [named, namedRest, same, hproperties]
        · simp only [named, namedRest, same, hproperties, same_named type other]
    | _ => simp only [named, same]
  | union kind members =>
    cases other with
    | union _ others => simp only [named, same, sameMembers_named members others]
    | _ => simp only [named, same]
  | intersection members =>
    cases other with
    | intersection others => simp only [named, same, sameMembers_named members others]
    | _ => simp only [named, same]
  | reference key name =>
    cases other with
    | reference other _ =>
      simp only [named, same]
      -- Equal keys are given equal names on either side, and different keys settle the comparison.
      by_cases h : key = other
      · rw [h, beq_self_eq_true, beq_self_eq_true, beq_self_eq_true]
      · rw [beq_eq_false_iff_ne.mpr h, Bool.false_and, Bool.false_and]
    | _ => simp only [named, same]
  | primitive kind format => cases other <;> simp only [named, same]
  | enumeration values => cases other <;> simp only [named, same]
  | unknown => cases other <;> simp only [named, same]

/-- Nor does it for properties, and for members below. -/
theorem sameProperties_named (properties others : List (Property Descriptor)) :
    sameProperties (namedProperties f properties) (namedProperties f others) =
      sameProperties (namedProperties g properties) (namedProperties g others) := by
  cases properties with
  | nil => cases others <;> simp only [namedProperties, sameProperties]
  | cons property more =>
    cases others with
    | nil => simp only [namedProperties, sameProperties]
    | cons other others =>
      obtain ⟨_, type, _⟩ := property
      simp only [namedProperties, sameProperties, same_named type other.type,
        sameProperties_named more others]

theorem sameMembers_named (members others : List Descriptor) :
    sameMembers (namedMembers f members) (namedMembers f others) =
      sameMembers (namedMembers g members) (namedMembers g others) := by
  cases members with
  | nil => cases others <;> simp only [namedMembers, sameMembers]
  | cons member more =>
    cases others with
    | nil => simp only [namedMembers, sameMembers]
    | cons other others =>
      simp only [namedMembers, sameMembers, same_named member other,
        sameMembers_named more others]

end

/-! ### References -/

mutual

/-- Naming keys anew keeps the references and changes their names. -/
theorem references_named (type : Descriptor) :
    (type.named f).references = type.references.map fun reference =>
      (reference.1, f reference.1) := by
  cases type with
  | object properties rest =>
    have hproperties := referencesOfProperties_named properties
    rcases rest with _ | type
    · simp only [named, namedRest, references, hproperties, List.append_nil]
    · simp only [named, namedRest, references, hproperties, references_named type, List.map_append]
  | array item => simp only [named, references, references_named item]
  | union _ members => simp only [named, references, referencesOfMembers_named members]
  | intersection members => simp only [named, references, referencesOfMembers_named members]
  | _ => simp only [named, references, List.map_nil, List.map_cons]

theorem referencesOfProperties_named (properties : List (Property Descriptor)) :
    referencesOfProperties (namedProperties f properties) =
      (referencesOfProperties properties).map fun reference => (reference.1, f reference.1) := by
  cases properties with
  | nil => simp only [namedProperties, referencesOfProperties, List.map_nil]
  | cons property more =>
    obtain ⟨_, type, _⟩ := property
    simp only [namedProperties, referencesOfProperties, references_named type,
      referencesOfProperties_named more, List.map_append]

theorem referencesOfMembers_named (members : List Descriptor) :
    referencesOfMembers (namedMembers f members) =
      (referencesOfMembers members).map fun reference => (reference.1, f reference.1) := by
  cases members with
  | nil => simp only [namedMembers, referencesOfMembers, List.map_nil]
  | cons member more =>
    simp only [namedMembers, referencesOfMembers, references_named member,
      referencesOfMembers_named more, List.map_append]

end

/-- In a type whose references are named by `f`, each has the name that `f` gives its key. -/
theorem snd_of_mem_references {f : String → String} {type : Descriptor} (h : type.named f = type)
    {reference : String × String} (hmem : reference ∈ type.references) :
    reference.2 = f reference.1 := by
  rw [← h, references_named] at hmem
  obtain ⟨old, -, rfl⟩ := List.mem_map.mp hmem
  rfl

mutual

/-- A type whose references are named by `f` is the same when named by `f`. -/
theorem named_eq_self {f : String → String} (type : Descriptor)
    (h : ∀ reference ∈ type.references, reference.2 = f reference.1) : type.named f = type := by
  cases type with
  | object properties rest =>
    rcases rest with _ | rest
    · rw [references, List.append_nil] at h
      rw [named, namedRest, namedProperties_eq_self properties h]
    · rw [references] at h
      obtain ⟨hproperties, hrest⟩ := List.forall_mem_append.mp h
      rw [named, namedRest, namedProperties_eq_self properties hproperties,
        named_eq_self rest hrest]
  | array item => rw [named, named_eq_self item h]
  | union _ members => rw [named, namedMembers_eq_self members h]
  | intersection members => rw [named, namedMembers_eq_self members h]
  | reference key name => rw [named, ← h (key, name) (List.mem_singleton_self _)]
  | _ => rw [named]

private theorem namedProperties_eq_self {f : String → String}
    (properties : List (Property Descriptor))
    (h : ∀ reference ∈ referencesOfProperties properties, reference.2 = f reference.1) :
    namedProperties f properties = properties := by
  cases properties with
  | nil => rw [namedProperties]
  | cons property more =>
    obtain ⟨name, type, required⟩ := property
    obtain ⟨htype, hmore⟩ := List.forall_mem_append.mp h
    rw [namedProperties, named_eq_self type htype, namedProperties_eq_self more hmore]

private theorem namedMembers_eq_self {f : String → String} (members : List Descriptor)
    (h : ∀ reference ∈ referencesOfMembers members, reference.2 = f reference.1) :
    namedMembers f members = members := by
  cases members with
  | nil => rw [namedMembers]
  | cons member more =>
    obtain ⟨hmember, hmore⟩ := List.forall_mem_append.mp h
    rw [namedMembers, named_eq_self member hmember, namedMembers_eq_self more hmore]

end

/-! ### Null -/

/-- Whether a type is `null` does not depend on names. -/
@[simp]
theorem isNull_named (type : Descriptor) : (type.named f).isNull = type.isNull := by
  cases type <;> simp only [named, isNull]

/-- Admitting `null` and naming keys anew can be exchanged. -/
theorem orNull_named (type : Descriptor) : type.orNull.named f = (type.named f).orNull := by
  have hany (members : List Descriptor) :
      (members.map (named f)).any isNull = members.any isNull := by
    rw [List.any_map]
    exact congrArg (members.any ·) (funext (isNull_named f))
  have hnull : null.named f = null := rfl
  cases type with
  | union kind members =>
    simp only [orNull, named, namedMembers_eq_map, hany]
    by_cases h : members.any isNull
    · simp only [h, if_true]
    · simp only [h, if_false, List.map_append, List.map_cons, List.map_nil, hnull,
        Bool.false_eq_true]
  | primitive kind format =>
    simp only [orNull, named]
    split_ifs <;> simp only [named, namedMembers_eq_map, List.map_cons, List.map_nil, hnull]
  | _ => simp only [orNull, named, isNull, namedMembers_eq_map, List.map_cons, List.map_nil, hnull,
      Bool.false_eq_true, if_false]

end ClientGen.Descriptor
