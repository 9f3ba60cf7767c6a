import ClientGen.Validator.Yup
import Mathlib.Data.List.Basic

/-!
# What Yup schemas are chained

A lazy schema of Yup can neither be marked as defined nor be joined to another. Whether a schema is
lazy is decided by how it is written, and a reference is written as a call of `y.lazy` only among
the declarations of schemas: behind them it is a bare name, also if what it names is itself declared
by such a call. `Validator.Yup.chains_render` says of every type which lazy schemas its validator
chains: those of references that are lazy without being written so (`Validator.Yup.exposed`), where
`Descriptor.chainsNamed` finds them.
-/

namespace ClientGen

open Script

/-! ### Lazy schemas -/

namespace Validator.Yup

/-- Whether an expression is a call that makes a lazy schema. -/
def isLazyCall : Expr → Bool
  | .call (.member (.name object) field) _ => object == "y" && field == "lazy"
  | _ => false

/-- Whether an expression is a lazy schema: a call that makes one, or the name of a constant whose
value is such a call. -/
def isLazyIn (constants : List (String × Expr)) : Expr → Bool
  | .name identifier => constants.any fun constant =>
      constant.1 == identifier && isLazyCall constant.2
  | expr => isLazyCall expr

/-- Whether calling a method marks a lazy schema as defined, or joins one. -/
def misuses (lazy : Expr → Bool) : Expr → List Expr → Bool
  | .member target field, arguments =>
    (field == "defined" && lazy target) ||
      (field == "concat" && (lazy target || arguments.any lazy))
  | _, _ => false

mutual

/-- Whether a lazy schema is marked as defined or joined anywhere in an expression. -/
def chains (lazy : Expr → Bool) : Expr → Bool
  | .call callee arguments =>
    misuses lazy callee arguments || chains lazy callee || chainsAny lazy arguments
  | .member target _ => chains lazy target
  | .array items => chainsAny lazy items
  | .object fields => chainsField lazy fields
  | .block _ fields => chainsField lazy fields
  | .lambda _ body => chains lazy body
  | .orElse left right => chains lazy left || chains lazy right
  | _ => false

/-- Whether one of several expressions does. -/
def chainsAny (lazy : Expr → Bool) : List Expr → Bool
  | [] => false
  | item :: rest => chains lazy item || chainsAny lazy rest

/-- Whether the value of a field does. -/
def chainsField (lazy : Expr → Bool) : List (String × Expr) → Bool
  | [] => false
  | field :: rest => chains lazy field.2 || chainsField lazy rest

end

end Validator.Yup

/-! ### Lazy schemas in a type -/

namespace Descriptor

/-- The type that the compositions around it come down to: one of a single type is that type. -/
def core : Descriptor → Descriptor
  | union _ [member] => member.core
  | intersection [member] => member.core
  | type => type

/-- Whether a type comes down to that of objects with any properties of one type. -/
def isRecord (type : Descriptor) : Bool :=
  match type.core with
  | object [] (some _) => true
  | _ => false

/-- Whether a type comes down to a reference with a name of some kind. -/
def isNamed (kind : String → Bool) (type : Descriptor) : Bool :=
  match type.core with
  | reference _ name => kind name
  | _ => false

mutual

/-- Whether a required property, or a member of an intersection, comes down to a reference with a
name of some kind, where no other member of that intersection is a record. -/
def chainsNamed (kind : String → Bool) : Descriptor → Bool
  | array item => item.chainsNamed kind
  | object [] (some rest) => rest.chainsNamed kind
  | object properties _ => chainsNamedProperty kind properties
  | union _ members => chainsNamedMember kind members
  | intersection members =>
    (decide (2 ≤ members.length) && !members.any isRecord && members.any (isNamed kind)) ||
      chainsNamedMember kind members
  | _ => false

/-- Whether a property is one, or has one in its type. -/
def chainsNamedProperty (kind : String → Bool) : List (Property Descriptor) → Bool
  | [] => false
  | property :: rest =>
    (property.required && property.type.isNamed kind) || property.type.chainsNamed kind ||
      chainsNamedProperty kind rest

/-- Whether a member has one in it. -/
def chainsNamedMember (kind : String → Bool) : List Descriptor → Bool
  | [] => false
  | member :: rest => member.chainsNamed kind || chainsNamedMember kind rest

end

end Descriptor

namespace Descriptor

/-- A type does not come down to a composition of a single type. -/
private theorem core_ne (type member : Descriptor) :
    (∀ kind, type.core ≠ union kind [member]) ∧ type.core ≠ intersection [member] := by
  fun_induction core type with
  | case1 kind inner ih => exact ih
  | case2 inner ih => exact ih
  | case3 type hunion hintersection =>
    exact ⟨fun kind h => hunion kind member h, fun h => hintersection member h⟩

private theorem isNamed_const_false (type : Descriptor) :
    type.isNamed (fun _ => false) = false := by
  unfold isNamed
  split <;> rfl

private theorem any_isNamed_const_false (members : List Descriptor) :
    members.any (isNamed fun _ => false) = false := by
  rw [List.any_eq_false]
  intro member _
  rw [isNamed_const_false]
  exact Bool.false_ne_true

mutual

/-- Nothing is said of references where no name is of the kind. -/
theorem chainsNamed_const_false (type : Descriptor) :
    type.chainsNamed (fun _ => false) = false := by
  cases type with
  | array item => exact chainsNamed_const_false item
  | object properties rest =>
    rcases properties with _ | ⟨property, properties⟩
    · rcases rest with _ | rest
      · rfl
      · exact chainsNamed_const_false rest
    · cases rest <;> exact chainsNamedProperty_const_false (property :: properties)
  | union kind members => exact chainsNamedMember_const_false members
  | intersection members =>
    rw [chainsNamed, any_isNamed_const_false, Bool.and_false, Bool.false_or]
    exact chainsNamedMember_const_false members
  | _ => rfl

theorem chainsNamedProperty_const_false (properties : List (Property Descriptor)) :
    chainsNamedProperty (fun _ => false) properties = false := by
  cases properties with
  | nil => rfl
  | cons property rest =>
    rw [chainsNamedProperty, isNamed_const_false, chainsNamed_const_false property.type,
      chainsNamedProperty_const_false rest, Bool.and_false]
    rfl

theorem chainsNamedMember_const_false (members : List Descriptor) :
    chainsNamedMember (fun _ => false) members = false := by
  cases members with
  | nil => rfl
  | cons member rest =>
    rw [chainsNamedMember, chainsNamed_const_false member, chainsNamedMember_const_false rest]
    rfl

end

end Descriptor

/-! ### Which validators are lazy -/

namespace Validator.Yup

variable (constants : List (String × Expr)) (scope : Scope)

/-- Whether an expression is no lazy schema, neither by its text nor by its value. -/
structure Eager (expr : Expr) : Prop where
  text : isLazy expr = false
  value : isLazyIn constants expr = false

variable {constants}

/-- What a method gives is lazy only if the method is `lazy`. -/
private theorem isLazyIn_invoke (target : Expr) {method : String} (h : method ≠ "lazy")
    (arguments : List Expr) : isLazyIn constants (target.invoke method arguments) = false := by
  have hne : (method == "lazy") = false := beq_eq_false_iff_ne.mpr h
  cases target <;> simp [Expr.invoke, isLazyIn, isLazyCall, hne]

/-- What a method other than that of lazy schemas returns is one only by the text before it. -/
private theorem eager_invoke {target : Expr} (h : isLazy target = false) {method : String}
    (hmethod : method ≠ "lazy") (arguments : List Expr) :
    Eager constants (target.invoke method arguments) := by
  have hne : (method == "lazy") = false := beq_eq_false_iff_ne.mpr hmethod
  have htext : isLazy (target.invoke method arguments) = isLazy target := by
    cases target <;> simp [Expr.invoke, isLazy, hne]
  exact ⟨htext.trans h, isLazyIn_invoke target hmethod arguments⟩

/-- A validator for anything is eager, as are all those below that do not call `lazy`. -/
private theorem eager_anything : Eager constants anything :=
  eager_invoke rfl (by decide) _

private theorem eager_null : Eager constants null :=
  eager_invoke rfl (by decide) _

/-- The checks of formats. -/
private theorem mem_of_formatCheck? {format check : String} (h : formatCheck? format = some check) :
    check ∈ ["datetime", "email", "uuid", "url"] := by
  unfold formatCheck? at h
  split_ifs at h <;> simp [← Option.some.inj h]

private theorem eager_primitive (kind : PrimitiveKind) (format : Option String) :
    Eager constants (primitive kind format) := by
  cases kind with
  | string =>
    rw [primitive]
    split
    next check hcheck =>
      obtain ⟨written, -, hwritten⟩ := Option.bind_eq_some_iff.mp hcheck
      refine eager_invoke rfl ?_ _
      rintro rfl
      exact absurd (mem_of_formatCheck? hwritten) (by decide)
    next => exact eager_invoke rfl (by decide) _
  | number => exact eager_invoke rfl (by decide) _
  | integer => exact eager_invoke rfl (by decide) _
  | boolean => exact eager_invoke rfl (by decide) _
  | null => exact eager_null

private theorem eager_membersTest (name message combinator : String) (members : List Expr) :
    Eager constants (membersTest name message combinator members) :=
  eager_invoke rfl (by decide) _

private theorem eager_literal (value : Literal) : Eager constants (literal value) := by
  cases value with
  | null => exact eager_null
  | _ => exact eager_invoke rfl (by decide) _

/-- Joined schemas are eager if the first of them is so by its text. -/
private theorem eager_join {first : Expr} (h : Eager constants first) (rest : List Expr) :
    Eager constants (rest.foldl (fun joined next => joined.invoke "concat" [next]) first) := by
  induction rest generalizing first with
  | nil => exact h
  | cons next rest ih => exact ih (eager_invoke h.text (by decide) _)

private theorem eager_intersection (first next : Expr) (rest : List Expr) :
    Eager constants (intersection (first :: next :: rest)) := by
  unfold intersection
  split_ifs with h
  · exact eager_membersTest _ _ _ _
  · rw [List.any_cons, Bool.or_eq_true, not_or, Bool.not_eq_true] at h
    exact eager_join (eager_invoke h.1 (by decide) _) rest

/-! ### What validators chain -/

variable {lazy : Expr → Bool}

private theorem chainsAny_eq (items : List Expr) :
    chainsAny lazy items = items.any (chains lazy) := by
  induction items with
  | nil => rfl
  | cons item rest ih => rw [chainsAny, ih, List.any_cons]

theorem chainsField_eq (fields : List (String × Expr)) :
    chainsField lazy fields = fields.any fun field => chains lazy field.2 := by
  induction fields with
  | nil => rfl
  | cons field rest ih => rw [chainsField, ih, List.any_cons]

/-- A method that does not chain itself chains on something lazy if its target or one of its
arguments does. -/
private theorem chains_invoke (target : Expr) {method : String} (hdefined : method ≠ "defined")
    (hconcat : method ≠ "concat") (arguments : List Expr) :
    chains lazy (target.invoke method arguments) =
      (chains lazy target || arguments.any (chains lazy)) := by
  rw [Expr.invoke, chains, chains, chainsAny_eq, misuses, beq_eq_false_iff_ne.mpr hdefined,
    beq_eq_false_iff_ne.mpr hconcat]
  rfl

private theorem chains_defined (target : Expr) :
    chains lazy (target.invoke "defined" []) = (lazy target || chains lazy target) := by
  simp [Expr.invoke, chains, chainsAny, misuses]

private theorem chains_concat (target next : Expr) :
    chains lazy (target.invoke "concat" [next]) =
      (lazy target || lazy next || (chains lazy target || chains lazy next)) := by
  simp [Expr.invoke, chains, chainsAny, misuses, Bool.or_assoc]

private theorem chains_anything : chains lazy anything = false := rfl

private theorem chains_primitive (kind : PrimitiveKind) (format : Option String) :
    chains lazy (primitive kind format) = false := by
  cases kind with
  | string =>
    rw [primitive]
    split
    next check hcheck =>
      obtain ⟨written, -, hwritten⟩ := Option.bind_eq_some_iff.mp hcheck
      have hmem := mem_of_formatCheck? hwritten
      rw [chains_invoke]
      · rfl
      · rintro rfl
        exact absurd hmem (by decide)
      · rintro rfl
        exact absurd hmem (by decide)
    next => rfl
  | _ => rfl

private theorem chains_literal (value : Literal) : chains lazy (literal value) = false := by
  cases value <;> rfl

/-- A test of members chains what one of them does. -/
private theorem chains_membersTest (name message : String) {combinator : String}
    (hdefined : combinator ≠ "defined") (hconcat : combinator ≠ "concat") (members : List Expr) :
    chains lazy (membersTest name message combinator members) = members.any (chains lazy) := by
  have haccepts : chains lazy ((Expr.name "member").invoke "isValidSync" [.name "value"]) = false :=
    rfl
  rw [membersTest, chains_invoke _ (by decide) (by decide), chains_anything]
  simp only [List.any_cons, List.any_nil, chains, Expr.string, chains_invoke _ hdefined hconcat,
    chainsAny_eq, haccepts, Bool.false_or, Bool.or_false]

private theorem chains_array (item : Expr) :
    chains lazy (library.array item) = chains lazy item := by
  simp [library, y, Expr.invoke, chains, chainsAny, misuses]

/-- An object with any properties chains what the type of them does. -/
private theorem chains_record (value : Expr) : chains lazy (record value) = chains lazy value := by
  simp [record, y, Expr.invoke, chains, chainsAny, chainsField, misuses]

/-- An object chains on its required fields, unless they say themselves that they are lazy. -/
private theorem chains_object (fields : List Field) (rest : Option Expr) :
    chains lazy (object fields rest) = fields.any fun field =>
      (field.required && !isLazy field.validator && lazy field.validator) ||
        chains lazy field.validator := by
  have hproperty (field : Field) : chains lazy (property field).2 =
      ((field.required && !isLazy field.validator && lazy field.validator) ||
        chains lazy field.validator) := by
    unfold property
    split_ifs with hrequired hlazy
    · simp [hlazy]
    · simp [hrequired, hlazy, chains_defined]
    · simp [hrequired, chains_invoke]
  rw [object, chains_invoke _ (by decide) (by decide)]
  simp [y, chains, chainsField_eq, List.any_map, Function.comp_def, hproperty]

private theorem chains_join (rest : List Expr) (first : Expr) (h : ∀ target arguments,
    lazy (Expr.invoke target "concat" arguments) = false) :
    chains lazy (rest.foldl (fun joined next => joined.invoke "concat" [next]) first) =
      ((!rest.isEmpty && lazy first) || rest.any lazy ||
        (chains lazy first || rest.any (chains lazy))) := by
  induction rest generalizing first with
  | nil => simp
  | cons next rest ih =>
    rw [List.foldl_cons, ih, h, chains_concat]
    simp [Bool.or_assoc, Bool.or_comm, Bool.or_left_comm]

/-! ### Types as validators -/

/-- The validator of a type is that of what it comes down to. -/
private theorem render_core (scope : Scope) (type : Descriptor) :
    library.render scope type.core = library.render scope type := by
  fun_induction Descriptor.core type with
  | case1 kind member ih => rw [ih]; rfl
  | case2 member ih => rw [ih]; rfl
  | case3 => rfl

private theorem renderMembers_eq_map (scope : Scope) (members : List Descriptor) :
    library.renderMembers scope members = members.map (library.render scope) := by
  induction members with
  | nil => rfl
  | cons member rest ih => rw [Library.renderMembers, ih, List.map_cons]

/-- A validator is lazy if the type comes down to that of objects with any properties, is as lazy as
a reference is if the type comes down to one, and is eager otherwise. -/
private theorem render_cases (constants : List (String × Expr)) (scope : Scope)
    (type : Descriptor) :
    (type.isRecord = true ∧ (∀ kind, type.isNamed kind = false) ∧
      ∃ value, library.render scope type = record value) ∨
    (type.isRecord = false ∧ ∃ name, (∀ kind, type.isNamed kind = kind name) ∧
      library.render scope type = reference scope name) ∨
    (type.isRecord = false ∧ (∀ kind, type.isNamed kind = false) ∧
      Eager constants (library.render scope type)) := by
  rw [← render_core, Descriptor.isRecord]
  simp only [Descriptor.isNamed]
  -- What a type comes down to is no composition of a single type.
  have hne := type.core_ne
  generalize type.core = core at hne
  cases core with
  | primitive kind format => exact .inr (.inr ⟨rfl, fun _ => rfl, eager_primitive kind format⟩)
  | array item => exact .inr (.inr ⟨rfl, fun _ => rfl, eager_invoke rfl (by decide) _⟩)
  | object properties rest =>
    cases properties with
    | nil =>
      cases rest with
      | none => exact .inr (.inr ⟨rfl, fun _ => rfl, eager_invoke rfl (by decide) _⟩)
      | some rest => exact .inl ⟨rfl, fun _ => rfl, _, rfl⟩
    | cons property properties =>
      refine .inr (.inr ⟨rfl, fun _ => rfl, ?_⟩)
      cases rest <;> exact eager_invoke rfl (by decide) _
  | enumeration values =>
    refine .inr (.inr ⟨rfl, fun _ => rfl, ?_⟩)
    rcases values with _ | ⟨value, _ | ⟨other, values⟩⟩
    · exact eager_invoke rfl (by decide) _
    · exact eager_literal value
    · exact eager_membersTest _ _ _ _
  | union kind members =>
    refine .inr (.inr ⟨rfl, fun _ => rfl, ?_⟩)
    rcases members with _ | ⟨member, _ | ⟨other, members⟩⟩
    · exact eager_anything
    · exact absurd rfl ((hne member).1 kind)
    · exact eager_membersTest _ _ _ _
  | intersection members =>
    refine .inr (.inr ⟨rfl, fun _ => rfl, ?_⟩)
    rcases members with _ | ⟨member, _ | ⟨other, members⟩⟩
    · exact eager_anything
    · exact absurd rfl (hne member).2
    · exact eager_intersection _ _ _
  | reference key name => exact .inr (.inl ⟨rfl, name, fun _ => rfl, rfl⟩)
  | unknown => exact .inr (.inr ⟨rfl, fun _ => rfl, eager_anything⟩)

/-- A validator says itself that it is lazy if the type is a record, or a reference to something
that does. -/
private theorem isLazy_render (scope : Scope) (type : Descriptor) :
    isLazy (library.render scope type) =
      (type.isRecord || type.isNamed fun name => isLazy (reference scope name)) := by
  obtain ⟨hrecord, -, value, hrender⟩ | ⟨hrecord, name, hnamed, hrender⟩ |
    ⟨hrecord, hnamed, heager⟩ := render_cases [] scope type
  · rw [hrender, hrecord]
    rfl
  · rw [hrender, hrecord, hnamed, Bool.false_or]
  · rw [heager.text, hrecord, hnamed, Bool.or_false]

/-- A validator is lazy if the type is a record, or a reference to something that is. -/
theorem isLazyIn_render (constants : List (String × Expr)) (scope : Scope)
    (type : Descriptor) :
    isLazyIn constants (library.render scope type) =
      (type.isRecord || type.isNamed fun name => isLazyIn constants (reference scope name)) := by
  obtain ⟨hrecord, -, value, hrender⟩ | ⟨hrecord, name, hnamed, hrender⟩ |
    ⟨hrecord, hnamed, heager⟩ := render_cases constants scope type
  · rw [hrender, hrecord]
    rfl
  · rw [hrender, hrecord, hnamed, Bool.false_or]
  · rw [heager.value, hrecord, hnamed, Bool.or_false]

/-- Whether a reference with a name is a lazy schema that is not written as one: never where schemas
are declared. -/
def exposed (constants : List (String × Expr)) : Scope → String → Bool
  | .declaration, _ => false
  | .endpoint, name => isLazyIn constants (.name name)

variable (constants : List (String × Expr)) (scope : Scope)

/-- A validator that is lazy without being written as such is that of a reference. -/
private theorem exposed_render (type : Descriptor) :
    (!isLazy (library.render scope type) && isLazyIn constants (library.render scope type)) =
      type.isNamed (exposed constants scope) := by
  obtain ⟨-, hnamed, value, hrender⟩ | ⟨-, name, hnamed, hrender⟩ | ⟨-, hnamed, heager⟩ :=
    render_cases constants scope type
  · rw [hrender, hnamed]
    rfl
  · rw [hrender, hnamed]
    cases scope <;> rfl
  · rw [heager.value, hnamed, Bool.and_false]

/-- Of the members of an intersection, exactly the named ones can be lazy without saying so
themselves. -/
private theorem exposed_members (members : List Descriptor) :
    (!(members.map (library.render scope)).any isLazy &&
        (members.map (library.render scope)).any (isLazyIn constants)) =
      (!members.any Descriptor.isRecord &&
        members.any (Descriptor.isNamed (exposed constants scope))) := by
  simp only [List.any_map, Function.comp_def, isLazy_render, isLazyIn_render]
  cases scope with
  | declaration =>
    -- Every reference is written as a lazy schema.
    have hnone : members.any (Descriptor.isNamed (exposed constants .declaration)) = false :=
      Descriptor.any_isNamed_const_false members
    rw [hnone, Bool.and_false]
    exact Bool.not_and_self _
  | endpoint =>
    have htext (member : Descriptor) :
        (member.isNamed fun name => isLazy (reference .endpoint name)) = false :=
      member.isNamed_const_false
    simp only [htext, Bool.or_false]
    cases hrecords : members.any Descriptor.isRecord with
    | true => rfl
    | false =>
      rw [List.any_eq_false] at hrecords
      rw [Bool.not_false, Bool.true_and, Bool.true_and, Bool.eq_iff_iff, List.any_eq_true,
        List.any_eq_true]
      refine exists_congr fun member => and_congr_right fun hmem => ?_
      rw [Bool.eq_false_iff.mpr (hrecords member hmem), Bool.false_or]
      rfl

/-- What an intersection of at least two validators chains. -/
private theorem chains_intersection (first next : Expr) (rest : List Expr) :
    chains (isLazyIn constants) (intersection (first :: next :: rest)) =
      ((!(first :: next :: rest).any isLazy && (first :: next :: rest).any (isLazyIn constants)) ||
        (first :: next :: rest).any (chains (isLazyIn constants))) := by
  unfold intersection
  split_ifs with h
  · rw [chains_membersTest _ _ (by decide) (by decide), h, Bool.not_true, Bool.false_and,
      Bool.false_or]
  · rw [chains_join _ _ fun target => isLazyIn_invoke target (by decide), Bool.eq_false_iff.mpr h]
    simp only [List.any_cons, List.isEmpty_cons, Bool.not_false, Bool.true_and, Bool.or_assoc]

mutual

/-- A validator chains lazy schemas exactly where its type says so of the references that are lazy
schemas without being written as such. -/
theorem chains_render (type : Descriptor) :
    chains (isLazyIn constants) (library.render scope type) =
      type.chainsNamed (exposed constants scope) := by
  cases type with
  | primitive kind format => exact chains_primitive kind format
  | array item => exact (chains_array _).trans (chains_render item)
  | object properties rest =>
    -- Without declared properties an object is empty, or a record.
    have hproperties := chains_renderProperties properties
    rcases properties with _ | ⟨property, properties⟩
    · rcases rest with _ | rest
      · rfl
      · exact (chains_record _).trans (chains_render rest)
    · rcases rest with _ | rest
      · exact (chains_object _ none).trans hproperties
      · exact (chains_object _ (some (library.render scope rest))).trans hproperties
  | enumeration values =>
    -- A literal chains on nothing.
    have hliterals : (values.map literal).any (chains (isLazyIn constants)) = false := by
      rw [List.any_map, List.any_eq_false]
      intro value _
      rw [Function.comp_apply, chains_literal]
      exact Bool.false_ne_true
    rcases values with _ | ⟨value, _ | ⟨other, values⟩⟩
    · rfl
    · exact chains_literal value
    · exact (chains_membersTest _ _ (by decide) (by decide) _).trans hliterals
  | union kind members =>
    have hmembers := chains_renderMembers members
    rcases members with _ | ⟨member, _ | ⟨other, members⟩⟩
    · rfl
    · rw [Library.renderMembers, Library.renderMembers, List.any_cons, List.any_nil,
        Bool.or_false] at hmembers
      exact hmembers
    · exact (chains_membersTest _ _ (by decide) (by decide) _).trans hmembers
  | intersection members =>
    have hmembers := chains_renderMembers members
    rcases members with _ | ⟨first, _ | ⟨next, rest⟩⟩
    · rfl
    · rw [Library.renderMembers, Library.renderMembers, List.any_cons, List.any_nil,
        Bool.or_false] at hmembers
      exact hmembers
    · have hexposed := exposed_members constants scope (first :: next :: rest)
      have hlength : decide (2 ≤ (first :: next :: rest).length) = true :=
        decide_eq_true (Nat.le_add_left 2 rest.length)
      -- Two or more members are concatenated unless one of them says that it is lazy.
      rw [← renderMembers_eq_map] at hexposed
      rw [Descriptor.chainsNamed, hlength, Bool.true_and, ← hexposed, ← hmembers]
      exact chains_intersection constants _ _ _
  | reference key name => cases scope <;> rfl
  | unknown => exact chains_anything

/-- The fields of an object chain on something lazy exactly if a named property is exposed there. -/
theorem chains_renderProperties (properties : List (Property Descriptor)) :
    ((library.renderProperties scope properties).any fun field =>
        (field.required && !isLazy field.validator && isLazyIn constants field.validator) ||
          chains (isLazyIn constants) field.validator) =
      Descriptor.chainsNamedProperty (exposed constants scope) properties := by
  cases properties with
  | nil => rfl
  | cons property rest =>
    rw [Library.renderProperties, List.any_cons, chains_renderProperties rest,
      chains_render property.type, Bool.and_assoc, exposed_render, Descriptor.chainsNamedProperty]

/-- The members of a composition chain on something lazy exactly if one of them does. -/
theorem chains_renderMembers (members : List Descriptor) :
    (library.renderMembers scope members).any (chains (isLazyIn constants)) =
      Descriptor.chainsNamedMember (exposed constants scope) members := by
  cases members with
  | nil => rfl
  | cons member rest =>
    rw [Library.renderMembers, List.any_cons, chains_renderMembers rest, chains_render member,
      Descriptor.chainsNamedMember]

end

end Validator.Yup

end ClientGen
