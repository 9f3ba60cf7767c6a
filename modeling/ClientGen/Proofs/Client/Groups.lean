import ClientGen.Client.Endpoint
import Mathlib.Data.List.Forall2
import Mathlib.Data.List.Nodup

/-!
# Parameters by location

The parameters of an endpoint are handed to it in one object with a group for each location. If no
two parameters at one location have one name, then the groups are those of the locations at which
there are parameters, in a fixed order, and each of them has the parameters at its location as they
are (`forall₂_groups`).
-/

namespace ClientGen

open Client

/-- Items that differ by name or by group differ by name in each group. -/
theorem nodup_names_of_group {α β γ : Type} [BEq β] [LawfulBEq β] {name : α → γ} {group : α → β}
    {items : List α} (h : (items.map fun item => (name item, group item)).Nodup) (b : β) :
    ((items.filter fun item => group item == b).map name).Nodup := by
  have hpairs :
      ((items.filter fun item => group item == b).map fun item => (name item, group item)) =
        ((items.filter fun item => group item == b).map name).map (·, b) := by
    rw [List.map_map]
    refine List.map_congr_left fun item hitem => ?_
    rw [eq_of_beq (List.mem_filter.mp hitem).2]
    rfl
  refine List.Nodup.of_map (·, b) ?_
  rw [← hpairs]
  exact h.sublist (List.filter_sublist.map _)

/-! ### Properties -/

namespace Client

variable {properties : List (Property Descriptor)}

/-- A property with a new name is added at the end. -/
theorem putProperty_of_notMem {new : Property Descriptor}
    (h : new.name ∉ properties.map Property.name) :
    putProperty properties new = properties ++ [new] := by
  induction properties with
  | nil => rfl
  | cons property rest ih =>
    rw [List.map_cons, List.mem_cons, not_or] at h
    rw [putProperty, if_neg (Ne.symm h.1), ih h.2, List.cons_append]

/-- Properties with new names are put one after another. -/
theorem foldl_putProperty {new : List (Property Descriptor)}
    (h : (properties.map Property.name ++ new.map Property.name).Nodup) :
    new.foldl putProperty properties = properties ++ new := by
  induction new generalizing properties with
  | nil => exact (List.append_nil _).symm
  | cons property rest ih =>
    have hfresh : property.name ∉ properties.map Property.name := fun hmem =>
      List.disjoint_of_nodup_append h hmem List.mem_cons_self
    rw [List.foldl_cons, putProperty_of_notMem hfresh, ih, List.append_assoc, List.singleton_append]
    rw [List.map_append, List.map_singleton, List.append_assoc, List.singleton_append]
    exact h

end Client

/-! ### Groups -/

/-- A parameter as a property of the object of its group. -/
def EndpointParameter.toProperty (parameter : EndpointParameter) : Property Descriptor :=
  ⟨parameter.name, parameter.type, parameter.required⟩

namespace Endpoint

/-- Whether an endpoint has a parameter at a location. -/
def Occurs (endpoint : Endpoint) (location : Location) : Prop :=
  ∃ parameter ∈ endpoint.parameters, parameter.location = location

instance (endpoint : Endpoint) : DecidablePred endpoint.Occurs := fun location =>
  inferInstanceAs (Decidable (∃ parameter ∈ endpoint.parameters, parameter.location = location))

/-- The locations of the parameters of an endpoint, in the order of a client. -/
def locations (endpoint : Endpoint) : List Location :=
  [.path, .query, .header, .cookie, .body].filter endpoint.Occurs

/-- Whether a property is the group of the parameters at a location: an object with exactly these
parameters, which is required if one of them is, or the body itself. -/
inductive IsGroup (endpoint : Endpoint) : Location → Property Descriptor → Prop
  | declared {location : Location} {required : Bool} (hlocation : location ≠ .body)
      (hrequired : required = true ↔
        ∃ parameter ∈ endpoint.parametersIn location, parameter.required = true) :
      IsGroup endpoint location ⟨location.key,
        .object ((endpoint.parametersIn location).map EndpointParameter.toProperty) none, required⟩
  | body {body : EndpointParameter} {more : List EndpointParameter}
      (hbody : endpoint.parametersIn .body = body :: more) :
      IsGroup endpoint .body ⟨Location.body.key, body.type, body.required⟩

variable {endpoint : Endpoint}

/-- There are parameters at a location exactly if the location occurs. -/
theorem parametersIn_eq_nil_iff {location : Location} :
    endpoint.parametersIn location = [] ↔ ¬endpoint.Occurs location := by
  rw [parametersIn, List.filter_eq_nil_iff, Occurs]
  simp only [beq_iff_eq, not_exists, not_and]

/-- The locations of an endpoint are those that occur. -/
theorem mem_locations {location : Location} :
    location ∈ endpoint.locations ↔ endpoint.Occurs location := by
  have hall : location ∈ [Location.path, .query, .header, .cookie, .body] := by
    cases location <;> decide
  rw [locations, List.mem_filter, decide_eq_true_eq]
  exact and_iff_right hall

/-- An endpoint has locations exactly if it has parameters. -/
theorem locations_eq_nil_iff : endpoint.locations = [] ↔ endpoint.parameters = [] := by
  rw [List.eq_nil_iff_forall_not_mem, List.eq_nil_iff_forall_not_mem]
  constructor
  · intro h parameter hparameter
    exact h parameter.location (mem_locations.mpr ⟨parameter, hparameter, rfl⟩)
  · intro h location hlocation
    obtain ⟨parameter, hparameter, -⟩ := mem_locations.mp hlocation
    exact h parameter hparameter

section Distinct

variable (hdistinct :
  (endpoint.parameters.map fun parameter => (parameter.name, parameter.location)).Nodup)
include hdistinct

/-- A location that occurs has one group, with the parameters there in their order, which is
required if one of them is. -/
theorem parameterGroup_of_occurs {location : Location} (hoccurs : endpoint.Occurs location) :
    parameterGroup endpoint location = [⟨location.key,
      .object ((endpoint.parametersIn location).map EndpointParameter.toProperty) none,
      (endpoint.parametersIn location).any EndpointParameter.required⟩] := by
  -- At one location all names are distinct, so that no parameter takes the place of another.
  have hproperties : (endpoint.parametersIn location).foldl (fun properties parameter =>
      putProperty properties ⟨parameter.name, parameter.type, parameter.required⟩) [] =
        (endpoint.parametersIn location).map EndpointParameter.toProperty := by
    have hnames : ((endpoint.parametersIn location).map EndpointParameter.name).Nodup :=
      nodup_names_of_group hdistinct location
    have hput : ((endpoint.parametersIn location).map EndpointParameter.toProperty).foldl
        putProperty [] = (endpoint.parametersIn location).map EndpointParameter.toProperty := by
      refine foldl_putProperty ?_
      rw [List.map_map]
      exact hnames
    rw [← hput, List.foldl_map]
    rfl
  have hsome : ((endpoint.parametersIn location).map EndpointParameter.toProperty).isEmpty =
      false := by
    rw [List.isEmpty_eq_false_iff, ne_eq, List.map_eq_nil_iff, parametersIn_eq_nil_iff]
    exact not_not_intro hoccurs
  rw [parameterGroup, hproperties, hsome, List.any_map]
  rfl

omit hdistinct in
/-- A location that does not occur has no group. -/
theorem parameterGroup_of_not_occurs {location : Location}
    (hoccurs : ¬endpoint.Occurs location) : parameterGroup endpoint location = [] := by
  rw [parameterGroup, parametersIn_eq_nil_iff.mpr hoccurs]
  rfl

/-- The groups of several locations are those of the locations that occur, in order. -/
theorem forall₂_parameterGroups {list : List Location} (hbody : Location.body ∉ list) :
    List.Forall₂ endpoint.IsGroup (list.filter endpoint.Occurs)
      (list.flatMap (parameterGroup endpoint)) := by
  induction list with
  | nil => exact .nil
  | cons location rest ih =>
    rw [List.mem_cons, not_or] at hbody
    rw [List.flatMap_cons, List.filter_cons]
    by_cases hoccurs : endpoint.Occurs location
    · rw [if_pos (decide_eq_true hoccurs), parameterGroup_of_occurs hdistinct hoccurs,
        List.singleton_append]
      exact .cons (.declared (Ne.symm hbody.1) List.any_eq_true) (ih hbody.2)
    · rw [if_neg (by simpa using hoccurs), parameterGroup_of_not_occurs hoccurs, List.nil_append]
      exact ih hbody.2

omit hdistinct in
/-- The group of the body is its parameter itself. -/
theorem forall₂_bodyGroup :
    List.Forall₂ endpoint.IsGroup ([Location.body].filter endpoint.Occurs)
      (bodyGroup endpoint) := by
  rw [bodyGroup]
  split
  next hnone =>
    have hoccurs : ¬endpoint.Occurs .body := parametersIn_eq_nil_iff.mp hnone
    rw [List.filter_cons_of_neg (by simpa using hoccurs)]
    exact .nil
  next body more hbody =>
    have hoccurs : endpoint.Occurs .body := by
      by_contra hoccurs
      rw [parametersIn_eq_nil_iff.mpr hoccurs] at hbody
      cases hbody
    rw [List.filter_cons_of_pos (by simpa using hoccurs)]
    exact .cons (.body hbody) .nil

/-- **Groups.** There is one group for each location of the parameters, in order. -/
theorem forall₂_groups :
    List.Forall₂ endpoint.IsGroup endpoint.locations
      (Location.declarable.flatMap (parameterGroup endpoint) ++ bodyGroup endpoint) := by
  -- The body is the last location, and the only one whose group is no object of parameters.
  have hsplit : endpoint.locations = Location.declarable.filter endpoint.Occurs ++
      [Location.body].filter endpoint.Occurs := by
    rw [← List.filter_append]
    rfl
  rw [hsplit]
  exact List.rel_append (forall₂_parameterGroups hdistinct (by decide)) forall₂_bodyGroup

/-- **Parameters.** An endpoint without parameters takes nothing, and any other takes an object
with the groups of its parameters. -/
theorem parametersType?_cases :
    (endpoint.parameters = [] ∧ parametersType? endpoint = none) ∨
      (endpoint.parameters ≠ [] ∧ ∃ groups, parametersType? endpoint = some (.object groups none) ∧
        List.Forall₂ endpoint.IsGroup endpoint.locations groups) := by
  have hgroups := forall₂_groups hdistinct
  rw [parametersType?]
  split
  next hnil =>
    rw [hnil] at hgroups
    exact Or.inl ⟨locations_eq_nil_iff.mp (List.forall₂_nil_right_iff.mp hgroups), rfl⟩
  next groups hne =>
    refine Or.inr ⟨fun hnone => ?_, _, rfl, hgroups⟩
    rw [locations_eq_nil_iff.mpr hnone] at hgroups
    exact hne (List.forall₂_nil_left_iff.mp hgroups)

end Distinct

end Endpoint

end ClientGen
