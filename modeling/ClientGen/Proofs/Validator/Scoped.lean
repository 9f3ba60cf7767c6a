import ClientGen.Proofs.Script.Scoped
import ClientGen.Target

/-!
# Names in validators

The validator of a type uses the names that its library comes with, and those of the references in
the type, and nothing else (`Library.Scopes.render`): this holds of every library whose building
blocks keep the names in scope, and it does so whatever the names of properties, the formats and the
values in the type are.
-/

namespace ClientGen

open Script Script.Lexer Identifier

/-- The names that an import brings in. -/
def Script.Import.bound : Import → List String
  | .names items _ => items
  | .all name _ => [name]

namespace Validator

/-- Whether what a library writes uses names that are in scope and no others. -/
structure Library.Scopes (library : Library) (names : String → Prop) : Prop where
  primitive : ∀ kind format, (library.primitive kind format).Scoped names
  array : ∀ item : Expr, item.Scoped names → (library.array item).Scoped names
  object : ∀ (fields : List Field) (rest : Option Expr),
    (∀ field ∈ fields, (∃ name, field.key = Quoted.key name) ∧ field.validator.Scoped names) →
      (∀ value ∈ rest, value.Scoped names) → (library.object fields rest).Scoped names
  record : ∀ value : Expr, value.Scoped names → (library.record value).Scoped names
  literal : ∀ value, (library.literal value).Scoped names
  union : ∀ members : List Expr, (∀ member ∈ members, member.Scoped names) →
    (library.union members).Scoped names
  intersection : ∀ members : List Expr, (∀ member ∈ members, member.Scoped names) →
    (library.intersection members).Scoped names
  reference : ∀ scope name, names name → (library.reference scope name).Scoped names
  unknown : library.unknown.Scoped names
  never : library.never.Scoped names
  standalone : ∀ validator : Expr, validator.Scoped names →
    (library.standalone validator).Scoped names

namespace Library

variable {library : Library} {names : String → Prop}

/-- A composition is in scope if its members are, and what stands for none and for several of them
is. -/
private theorem Scopes.compose {none : Expr} {wrap : List Expr → Expr} (hnone : none.Scoped names)
    (hwrap : ∀ members : List Expr, (∀ member ∈ members, member.Scoped names) →
      (wrap members).Scoped names)
    {members : List Expr} (h : ∀ member ∈ members, member.Scoped names) :
    (compose none wrap members).Scoped names := by
  rcases members with _ | ⟨first, _ | ⟨second, rest⟩⟩
  · exact hnone
  · exact h first List.mem_cons_self
  · exact hwrap _ h

mutual

/-- **Names in validators.** The validator of a type uses names that are in scope, if the library
does and the references in the type are called by such names. -/
theorem Scopes.render (hlibrary : library.Scopes names) (scope : Scope) (type : Descriptor)
    (h : ∀ reference ∈ type.references, names reference.2) :
    (library.render scope type).Scoped names := by
  cases type with
  | primitive kind format =>
    rw [Library.render]
    exact hlibrary.primitive kind format
  | array item =>
    rw [Descriptor.references] at h
    rw [Library.render]
    exact hlibrary.array _ (Scopes.render hlibrary scope item h)
  | object properties rest =>
    cases rest with
    | none =>
      rw [Descriptor.references, List.append_nil] at h
      rw [Library.render]
      exact hlibrary.object _ none (Scopes.renderProperties hlibrary scope properties h)
        fun _ hmem => absurd hmem (Option.not_mem_none _)
    | some value =>
      rw [Descriptor.references] at h
      have hvalue := Scopes.render hlibrary scope value (List.forall_mem_append.mp h).2
      cases properties with
      | nil =>
        rw [Library.render]
        exact hlibrary.record _ hvalue
      | cons property rest =>
        rw [Library.render]
        -- Only with declared properties do further keys belong to an object, and not to a record.
        refine hlibrary.object _ _ (Scopes.renderProperties hlibrary scope (property :: rest)
          (List.forall_mem_append.mp h).1) ?_
        rintro _ ⟨⟩
        exact hvalue
        exact fun hnil => nomatch hnil
  | enumeration values =>
    rw [Library.render]
    refine Scopes.compose hlibrary.never hlibrary.union fun member hmember => ?_
    obtain ⟨value, -, rfl⟩ := List.mem_map.mp hmember
    exact hlibrary.literal value
  | union kind members =>
    rw [Descriptor.references] at h
    rw [Library.render]
    exact Scopes.compose hlibrary.unknown hlibrary.union
      (Scopes.renderMembers hlibrary scope members h)
  | intersection members =>
    rw [Descriptor.references] at h
    rw [Library.render]
    exact Scopes.compose hlibrary.unknown hlibrary.intersection
      (Scopes.renderMembers hlibrary scope members h)
  | reference key name =>
    rw [Descriptor.references] at h
    rw [Library.render]
    exact hlibrary.reference scope name (h _ (List.mem_singleton_self _))
  | unknown =>
    rw [Library.render]
    exact hlibrary.unknown

/-- The fields of an object are in scope if the references in its properties are. The induction is
on the properties, mutual with that on types. -/
private theorem Scopes.renderProperties (hlibrary : library.Scopes names) (scope : Scope)
    (properties : List (Property Descriptor))
    (h : ∀ reference ∈ Descriptor.referencesOfProperties properties, names reference.2) :
    ∀ field ∈ library.renderProperties scope properties,
      (∃ name, field.key = Quoted.key name) ∧ field.validator.Scoped names := by
  cases properties with
  | nil =>
    rw [Library.renderProperties]
    exact fun _ hmem => absurd hmem List.not_mem_nil
  | cons property rest =>
    obtain ⟨name, type, required⟩ := property
    rw [Descriptor.referencesOfProperties] at h
    rw [Library.renderProperties]
    exact List.forall_mem_cons.mpr
      ⟨⟨⟨name, rfl⟩, Scopes.render hlibrary scope type (List.forall_mem_append.mp h).1⟩,
        Scopes.renderProperties hlibrary scope rest (List.forall_mem_append.mp h).2⟩

/-- The members of a union or an intersection are in scope if the references in them are. -/
private theorem Scopes.renderMembers (hlibrary : library.Scopes names) (scope : Scope)
    (members : List Descriptor)
    (h : ∀ reference ∈ Descriptor.referencesOfMembers members, names reference.2) :
    ∀ member ∈ library.renderMembers scope members, member.Scoped names := by
  cases members with
  | nil =>
    rw [Library.renderMembers]
    exact fun _ hmem => absurd hmem List.not_mem_nil
  | cons member rest =>
    rw [Descriptor.referencesOfMembers] at h
    rw [Library.renderMembers]
    exact List.forall_mem_cons.mpr
      ⟨Scopes.render hlibrary scope member (List.forall_mem_append.mp h).1,
        Scopes.renderMembers hlibrary scope rest (List.forall_mem_append.mp h).2⟩

end

end Library

/-! ### The libraries -/

section Libraries

variable {names : String → Prop}

/-- Steps from the left keep the names in scope. -/
private theorem scoped_foldl {step : Expr → Expr → Expr}
    (hstep : ∀ left right : Expr, left.Scoped names → right.Scoped names →
      (step left right).Scoped names)
    {first : Expr} (hfirst : first.Scoped names) {rest : List Expr}
    (hrest : ∀ next ∈ rest, next.Scoped names) : (rest.foldl step first).Scoped names := by
  induction rest generalizing first with
  | nil => exact hfirst
  | cons next rest ih =>
    obtain ⟨hnext, hmore⟩ := List.forall_mem_cons.mp hrest
    exact ih (hstep first next hfirst hnext) hmore

/-- An object is in scope if its properties are, each of which has its key or the optional form of
it. -/
private theorem scoped_properties (property : Field → String × Expr) {fields : List Field}
    (hkey : ∀ field, (property field).1 = field.key ∨
      (property field).1 = Quoted.optionalKey field.key)
    (hvalue : ∀ field : Field, field.validator.Scoped names → (property field).2.Scoped names)
    (h : ∀ field ∈ fields,
      (∃ name, field.key = Quoted.key name) ∧ field.validator.Scoped names) :
    ∀ field ∈ fields, Neutral (property field).1 ∧ (property field).2.Scoped names := by
  intro field hfield
  obtain ⟨⟨name, hname⟩, hvalidator⟩ := h field hfield
  refine ⟨?_, hvalue field hvalidator⟩
  rcases hkey field with heq | heq
  · rw [heq, hname]
    exact neutral_key name
  · rw [heq, hname, optionalKey_key]
    exact neutral_quote _

/-- A text with the check of its format is in scope, if the text is and the check is a function's
name. -/
private theorem scoped_text {formatCheck? : String → Option String}
    (hcheck : ∀ format, ∀ check ∈ formatCheck? format, isIdentifier check = true)
    {format : Option String} {plain : Expr} {checked : String → Expr} (hplain : plain.Scoped names)
    (hchecked : ∀ check, isIdentifier check = true → (checked check).Scoped names) :
    (match format.bind formatCheck? with
      | some check => checked check
      | none => plain).Scoped names := by
  split
  next check heq =>
    obtain ⟨format, -, hformat⟩ := Option.bind_eq_some_iff.mp heq
    exact hchecked check (hcheck format check hformat)
  next => exact hplain

theorem Zod.scopes (hz : names "z") : Zod.library.Scopes names where
  primitive kind format := by
    have hcheck (format : String) : ∀ check ∈ Zod.formatCheck? format,
        isIdentifier check = true := by
      unfold Zod.formatCheck?
      split_ifs <;> simp +decide
    cases kind with
    | string =>
      refine scoped_text hcheck ?_ fun check hidentifier => ?_
      · simp +decide [Zod.z, hz]
      · simp +decide [Zod.z, hz, hidentifier]
    | _ => simp +decide [Zod.library, Zod.primitive, Zod.z, hz]
  array item h := by simp +decide [Zod.library, Zod.z, hz, h]
  object fields rest hfields hrest := by
    -- Whether a property is optional is said by its validator.
    have hproperties := scoped_properties Zod.property (fun _ => Or.inl rfl)
      (fun field hvalidator => by
        unfold Zod.property
        split_ifs <;> simp +decide [hvalidator]) hfields
    cases rest with
    | none => simpa +decide [Zod.library, Zod.object, Zod.z, hz] using hproperties
    | some value =>
      simpa +decide [Zod.library, Zod.object, Zod.z, hz, hrest value rfl] using hproperties
  record value h := by simp +decide [Zod.library, Zod.z, hz, h]
  literal value := by cases value <;> simp +decide [Zod.library, Zod.literal, Zod.z, hz]
  union members h := by simpa +decide [Zod.library, Zod.z, hz] using h
  intersection members h := by
    cases members with
    | nil => simp +decide [Zod.library, Zod.intersection, Zod.z, hz]
    | cons first rest =>
      obtain ⟨hfirst, hrest⟩ := List.forall_mem_cons.mp h
      -- The members are combined from the left, so that there is nothing to say about none.
      refine scoped_foldl (fun left right hleft hright => ?_) hfirst hrest
      simp +decide [Zod.z, hz, hleft, hright]
  reference scope name h := by
    cases scope <;> simp +decide [Zod.library, Zod.reference, Zod.z, hz, h]
  unknown := by simp +decide [Zod.library, Zod.z, hz]
  never := by simp +decide [Zod.library, Zod.z, hz]
  standalone validator h := h

theorem Valibot.scopes (hv : names "v") : Valibot.library.Scopes names where
  primitive kind format := by
    have hcheck (format : String) : ∀ check ∈ Valibot.formatCheck? format,
        isIdentifier check = true := by
      unfold Valibot.formatCheck?
      split_ifs <;> simp +decide
    cases kind with
    | string =>
      refine scoped_text hcheck ?_ fun check hidentifier => ?_
      · simp +decide [Valibot.v, hv]
      · simp +decide [Valibot.v, hv, hidentifier]
    | _ => simp +decide [Valibot.library, Valibot.primitive, Valibot.v, hv]
  array item h := by simp +decide [Valibot.library, Valibot.v, hv, h]
  object fields rest hfields hrest := by
    have hproperties := scoped_properties Valibot.property (fun _ => Or.inl rfl)
      (fun field hvalidator => by
        unfold Valibot.property
        split_ifs <;> simp +decide [Valibot.v, hv, hvalidator]) hfields
    cases rest with
    | none => simpa +decide [Valibot.library, Valibot.object, Valibot.v, hv] using hproperties
    | some value =>
      simpa +decide [Valibot.library, Valibot.object, Valibot.v, hv, hrest value rfl]
        using hproperties
  record value h := by simp +decide [Valibot.library, Valibot.v, hv, h]
  literal value := by
    cases value <;> simp +decide [Valibot.library, Valibot.literal, Valibot.v, hv]
  union members h := by simpa +decide [Valibot.library, Valibot.v, hv] using h
  intersection members h := by simpa +decide [Valibot.library, Valibot.v, hv] using h
  reference scope name h := by
    cases scope <;> simp +decide [Valibot.library, Valibot.reference, Valibot.v, hv, h]
  unknown := by simp +decide [Valibot.library, Valibot.v, hv]
  never := by simp +decide [Valibot.library, Valibot.v, hv]
  standalone validator h := h

section IoTs

private theorem IoTs.scoped_shape {fields : List Field} (h : ∀ field ∈ fields,
    (∃ name, field.key = Quoted.key name) ∧ field.validator.Scoped names) :
    (IoTs.shape fields).Scoped names := by
  have hproperties := scoped_properties (fun field => (field.key, field.validator))
    (fun _ => Or.inl rfl) (fun _ => id) h
  simpa [IoTs.shape] using hproperties

variable (ht : names "t")

include ht

private theorem IoTs.scoped_chunk (fuel : Nat) (members : List Expr)
    (h : ∀ member ∈ members, member.Scoped names) :
    ∀ member ∈ IoTs.chunk fuel members, member.Scoped names := by
  induction fuel generalizing members with
  | zero => exact h
  | succ fuel ih =>
    rw [IoTs.chunk]
    split_ifs
    · exact h
    · refine List.forall_mem_append.mpr ⟨fun member hmem => h member (List.mem_of_mem_take hmem),
        List.forall_mem_singleton.mpr ?_⟩
      have hrest := ih (members.drop 4) fun member hmem => h member (List.mem_of_mem_drop hmem)
      simpa +decide [IoTs.t, IoTs.codec, ht] using hrest

private theorem IoTs.scoped_intersection (members : List Expr)
    (h : ∀ member ∈ members, member.Scoped names) : (IoTs.intersection members).Scoped names := by
  simpa +decide [IoTs.intersection, IoTs.t, IoTs.codec, ht]
    using IoTs.scoped_chunk ht _ members h

private theorem IoTs.scoped_record (value : Expr) (h : value.Scoped names) :
    (IoTs.record value).Scoped names := by
  simp +decide [IoTs.record, IoTs.t, IoTs.codec, ht, h]

/-- The codec of some of the properties. -/
private theorem IoTs.scoped_shapeOf {name : String} (hname : isIdentifier name = true)
    {fields : List Field} (h : ∀ field ∈ fields,
      (∃ name, field.key = Quoted.key name) ∧ field.validator.Scoped names) :
    (IoTs.t name [IoTs.shape fields]).Scoped names := by
  have hshape := IoTs.scoped_shape h
  have hvalue (value : String) : Expr.string value ≠ IoTs.shape fields := fun h => nomatch h
  simp [IoTs.t, IoTs.codec, ht, hname, hshape, hvalue]

private theorem IoTs.scoped_parts {fields : List Field} (hfields : ∀ field ∈ fields,
      (∃ name, field.key = Quoted.key name) ∧ field.validator.Scoped names)
    {rest : Option Expr} (hrest : ∀ value ∈ rest, value.Scoped names) :
    ∀ part ∈ IoTs.parts fields rest, part.Scoped names := by
  have hcodec (name : String) (hname : isIdentifier name = true) {part : List Field}
      (hpart : part ⊆ fields) : (IoTs.t name [IoTs.shape part]).Scoped names :=
    IoTs.scoped_shapeOf ht hname fun field hfield => hfields field (hpart hfield)
  unfold IoTs.parts
  dsimp only
  -- The parts are the required fields, the optional ones and the further keys, as far as there are
  -- any.
  refine List.forall_mem_append.mpr ⟨List.forall_mem_append.mpr ⟨?_, ?_⟩, ?_⟩
  · split_ifs
    · exact List.forall_mem_singleton.mpr (hcodec "type" rfl (List.filter_sublist.subset))
    · exact fun _ hmem => absurd hmem List.not_mem_nil
  · split_ifs
    · exact fun _ hmem => absurd hmem List.not_mem_nil
    · exact List.forall_mem_singleton.mpr (hcodec "partial" rfl (List.filter_sublist.subset))
  · cases rest with
    | none => exact fun _ hmem => absurd hmem List.not_mem_nil
    | some value =>
      exact List.forall_mem_singleton.mpr (IoTs.scoped_record ht value (hrest value rfl))

theorem IoTs.scopes : IoTs.library.Scopes names where
  primitive kind format := by
    cases kind <;> simp +decide [IoTs.library, IoTs.primitive, IoTs.codec, ht]
  array item h := by simp +decide [IoTs.library, IoTs.t, IoTs.codec, ht, h]
  object fields rest hfields hrest := by
    have hparts := IoTs.scoped_parts ht hfields hrest
    change (IoTs.object fields rest).Scoped names
    -- A single part stands for itself, and several are put together.
    rw [IoTs.object]
    split
    next part heq => exact hparts part (heq ▸ List.mem_singleton_self part)
    next => exact IoTs.scoped_intersection ht _ hparts
  record := IoTs.scoped_record ht
  literal value := by
    cases value <;> simp +decide [IoTs.library, IoTs.literal, IoTs.t, IoTs.codec, ht]
  union members h := by simpa +decide [IoTs.library, IoTs.t, IoTs.codec, ht] using h
  intersection := IoTs.scoped_intersection ht
  reference scope name h := by
    cases scope <;> simp +decide [IoTs.library, IoTs.reference, IoTs.t, IoTs.codec, ht, h]
  unknown := by simp +decide [IoTs.library, IoTs.codec, ht]
  never := by simp +decide [IoTs.library, IoTs.codec, ht]
  standalone validator h := h

end IoTs

theorem Typebox.scopes (htype : names "Type") : Typebox.library.Scopes names where
  primitive kind format := by
    cases kind with
    | string =>
      cases format <;> simp +decide [Typebox.library, Typebox.primitive, Typebox.type, htype]
    | _ => simp +decide [Typebox.library, Typebox.primitive, Typebox.type, htype]
  array item h := by simp +decide [Typebox.library, Typebox.type, htype, h]
  object fields rest hfields hrest := by
    have hproperties := scoped_properties Typebox.property (fun _ => Or.inl rfl)
      (fun field hvalidator => by
        unfold Typebox.property
        split_ifs <;> simp +decide [Typebox.type, htype, hvalidator]) hfields
    cases rest with
    | none => simpa +decide [Typebox.library, Typebox.object, Typebox.type, htype] using hproperties
    | some value =>
      simpa +decide [Typebox.library, Typebox.object, Typebox.type, htype, hrest value rfl]
        using hproperties
  record value h := by simp +decide [Typebox.library, Typebox.type, htype, h]
  literal value := by
    cases value <;> simp +decide [Typebox.library, Typebox.literal, Typebox.type, htype]
  union members h := by simpa +decide [Typebox.library, Typebox.type, htype] using h
  intersection members h := by simpa +decide [Typebox.library, Typebox.type, htype] using h
  reference scope name h := by
    cases scope <;> simp +decide [Typebox.library, Typebox.reference, Typebox.type, htype, h]
  unknown := by simp +decide [Typebox.library, Typebox.type, htype]
  never := by simp +decide [Typebox.library, Typebox.type, htype]
  standalone validator h := h

section Yup

variable (hy : names "y")

include hy

private theorem Yup.scoped_anything : Yup.anything.Scoped names := by
  simp +decide [Yup.anything, Yup.y, hy]

private theorem Yup.scoped_null : Yup.null.Scoped names := by
  simp +decide [Yup.null, Yup.scoped_anything hy]

/-- A test of members: what they use is not hidden by the parameter of the test. -/
private theorem Yup.scoped_membersTest (name message : String) {combinator : String}
    (hcombinator : isIdentifier combinator = true) {members : List Expr}
    (h : ∀ member ∈ members, member.Scoped names) :
    (Yup.membersTest name message combinator members).Scoped names := by
  have hmembers : ∀ member ∈ members,
      member.Scoped fun name => names name ∨ name ∈ some "value" :=
    fun member hmember => Expr.Scoped.mono member (fun _ => Or.inl) (h member hmember)
  simpa +decide [Yup.membersTest, Yup.scoped_anything hy, hcombinator, Expr.string] using hmembers

private theorem Yup.scoped_intersection {members : List Expr}
    (h : ∀ member ∈ members, member.Scoped names) : (Yup.intersection members).Scoped names := by
  unfold Yup.intersection
  split_ifs
  · exact Yup.scoped_membersTest hy _ _ rfl h
  · cases members with
    | nil => exact Yup.scoped_anything hy
    | cons first rest =>
      obtain ⟨hfirst, hrest⟩ := List.forall_mem_cons.mp h
      refine scoped_foldl (fun left right hleft hright => ?_) hfirst hrest
      simp +decide [hleft, hright]

theorem Yup.scopes (hobject : names "Object") : Yup.library.Scopes names where
  primitive kind format := by
    have hcheck (format : String) : ∀ check ∈ Yup.formatCheck? format,
        isIdentifier check = true := by
      unfold Yup.formatCheck?
      split_ifs <;> simp +decide
    cases kind with
    | string =>
      refine scoped_text hcheck ?_ fun check hidentifier => ?_
      · simp +decide [Yup.y, hy]
      · simp +decide [Yup.y, hy, hidentifier]
    | null => exact Yup.scoped_null hy
    | _ => simp +decide [Yup.library, Yup.primitive, Yup.y, hy]
  array item h := by simp +decide [Yup.library, Yup.y, hy, h]
  object fields rest hfields hrest := by
    have hproperties := scoped_properties Yup.property (fun _ => Or.inl rfl)
      (fun field hvalidator => by
        unfold Yup.property
        split_ifs <;> simp +decide [hvalidator]) hfields
    simpa +decide [Yup.library, Yup.object, Yup.y, hy] using hproperties
  record value h := by
    -- The value stands inside two functions, whose parameters are names beside the others.
    have hvalue : value.Scoped fun name =>
        (names name ∨ name ∈ some "record") ∨ name ∈ some "key" :=
      Expr.Scoped.mono value (fun _ h => Or.inl (Or.inl h)) h
    simpa +decide [Yup.library, Yup.record, Yup.y, hy, hobject] using hvalue
  literal value := by
    cases value with
    | null => exact Yup.scoped_null hy
    | _ => simp +decide [Yup.library, Yup.literal, Yup.y, hy]
  union members h := Yup.scoped_membersTest hy _ _ rfl h
  intersection members h := Yup.scoped_intersection hy h
  reference scope name h := by
    cases scope <;> simp +decide [Yup.library, Yup.reference, Yup.y, hy, h]
  unknown := Yup.scoped_anything hy
  never := by simp +decide [Yup.library, Yup.never, Yup.y, hy]
  standalone validator h := h

end Yup

private theorem Arktype.scoped_fold (operator : String) (members : List Expr)
    (h : ∀ member ∈ members, member.Scoped names) :
    (Arktype.fold operator members).Scoped names := by
  cases members with
  | nil => exact Expr.scoped_string _
  | cons first rest =>
    obtain ⟨hfirst, hrest⟩ := List.forall_mem_cons.mp h
    refine scoped_foldl (fun left right hleft hright => ?_) hfirst hrest
    simp [hleft, hright]

private theorem Arktype.neutral_restKey : Neutral Arktype.restKey := by
  decide

theorem Arktype.scopes (htype : names "type") : Arktype.library.Scopes names where
  primitive kind format := by cases kind <;> exact Expr.scoped_string _
  array item h := by simp [Arktype.library, h]
  object fields rest hfields hrest := by
    -- Here it is the key that says whether a property is optional.
    have hproperties := scoped_properties Arktype.property
      (fun field => by
        unfold Arktype.property
        split_ifs
        · exact Or.inl rfl
        · exact Or.inr rfl)
      (fun _ => id) hfields
    refine Expr.scoped_object.mpr (List.forall_mem_append.mpr ⟨?_, ?_⟩)
    · exact List.forall_mem_map.mpr hproperties
    · cases rest with
      | none => exact fun _ hmem => absurd hmem List.not_mem_nil
      | some value =>
        exact List.forall_mem_singleton.mpr ⟨Arktype.neutral_restKey, hrest value rfl⟩
  record value h := by simp [Arktype.library, Arktype.neutral_restKey, h]
  literal value := by cases value <;> simp [Arktype.library, Arktype.literal]
  union := Arktype.scoped_fold "|"
  intersection := Arktype.scoped_fold "&"
  reference scope name h := by cases scope <;> simp [Arktype.library, Arktype.reference, h]
  unknown := Expr.scoped_string _
  never := Expr.scoped_string _
  standalone validator h := by simp [Arktype.library, htype, h]

end Libraries

end Validator

end ClientGen
