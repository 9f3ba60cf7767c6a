import ClientGen.Proofs.Descriptor.Normal
import ClientGen.Proofs.Mapping.Calls
import ClientGen.Proofs.Mapping.Session

/-!
# Mapped types are in normal form

Whatever the keywords of a schema are, types in normal form make a type in normal form
(`normal_interpret`). So all outlines are in normal form, one that is made from a list of types has
no member twice, and one of a schema that says so admits `null` (`shaped_outline`). The mapper gives
outlines, and stores nothing else under the keys it follows (`formed_of_proceeds`).
-/

namespace ClientGen

open OpenApi

/-! ### Shapes -/

namespace OpenApi.Schema

/-- Whether the type of a schema is made from a list of types: it has such a list, or it is a
composition of one schema whose type is. -/
inductive ListsTypes : Schema → Prop
  | types {schema : Schema} {names : List String} (href : schema.ref = none)
      (hform : schema.content.form = .types names) : ListsTypes schema
  | oneOf {schema member : Schema} (href : schema.ref = none)
      (hform : schema.content.form = .oneOf [member]) (h : ListsTypes member) : ListsTypes schema
  | anyOf {schema member : Schema} (href : schema.ref = none)
      (hform : schema.content.form = .anyOf [member]) (h : ListsTypes member) : ListsTypes schema
  | allOf {schema member : Schema} (href : schema.ref = none)
      (hform : schema.content.form = .allOf [member]) (hproperties : schema.properties = none)
      (h : ListsTypes member) : ListsTypes schema

/-- Whether a schema is inside another, or is the other, such that types are made from it. -/
def Inside : Schema → Schema → Prop :=
  Relation.ReflTransGen fun schema inner => schema.ref = none ∧ inner ∈ schema.content.used

/-- The schema without the permission to be `null`. -/
def withoutNull (schema : Schema) : Schema :=
  { schema with nullable := none }

end OpenApi.Schema

/-- What holds of a schema and its type. -/
structure Shaped (schema : Schema) (type : Descriptor) : Prop where
  normal : type.Normal
  distinct : schema.ListsTypes → type.DistinctMembers
  admitsNull : schema.ref = none → schema.nullable = some true →
    type.AdmitsNull ∧ type.orNull = type

/-- Whether a type is an outline of a schema, and the schemas inside have the outlines they
should. -/
def Formed (schema : Schema) (type : Descriptor) : Prop :=
  ∃ name : String → String, type = schema.outline name ∧
    ∀ inner, schema.Inside inner → Shaped inner (inner.outline name)

namespace Outline

/-! ### Normal forms of keywords -/

/-- Members are kept only if they differ from those that are kept before. -/
theorem pairwise_distinct {α : Type} {same : α → α → Bool} {kept : List α} (values : List α)
    (h : kept.Pairwise fun earlier later => same earlier later = false) :
    (distinct same kept values).Pairwise fun earlier later => same earlier later = false := by
  induction values generalizing kept with
  | nil => exact h
  | cons value more ih =>
    refine ih ?_
    split_ifs with hany
    · exact h
    · exact Descriptor.pairwise_concat h hany

section Keywords

variable {keywords : Keywords Descriptor}

/-- A composition of normal types is normal if it is so for two or more members that are not merged
into one. -/
private theorem normal_compose {wrap : List Descriptor → Descriptor}
    (hwrap : ∀ {list : List Descriptor}, 2 ≤ list.length → (∀ member ∈ list, member.Normal) →
      (wrap list).Normal)
    {members : List Descriptor} (h : ∀ member ∈ members, member.Normal) :
    (compose wrap members).Normal := by
  rcases members with _ | ⟨first, _ | ⟨second, more⟩⟩
  · exact .unknown
  · exact h first List.mem_cons_self
  · exact hwrap (Nat.le_add_left 2 more.length) h

private theorem normal_constant (value : Json) : (constant value).Normal := by
  rw [constant]
  split
  · exact .enumeration (List.cons_ne_nil _ _) (List.pairwise_singleton _ _)
  · exact .unknown

private theorem normal_enumerated (values : List Json) : (enumerated values).Normal := by
  simp only [enumerated]
  split_ifs with hempty
  · exact .unknown
  · exact .enumeration (fun hnil => hempty (List.isEmpty_iff.mpr hnil)) (pairwise_distinct _ .nil)

private theorem normal_object (h : ∀ part ∈ keywords.parts, part.Normal) :
    (object keywords).Normal := by
  refine .object (fun property hproperty => ?_) fun type htype => ?_
  · obtain ⟨declared, hmem, rfl⟩ := List.mem_map.mp hproperty
    refine h declared.2 ?_
    simp only [Keywords.parts, List.mem_append, List.mem_map_of_mem hmem, true_or]
  · rcases hadditional : keywords.additional with _ | (_ | _) | rest <;>
      rw [hadditional, undeclared] at htype
    · split_ifs at htype
      · cases htype
        exact .unknown
      · cases htype
    · cases htype
    · cases htype
      exact .unknown
    · cases htype
      refine h type ?_
      simp [Keywords.parts, Keywords.rest, hadditional]

private theorem normal_array (h : ∀ part ∈ keywords.parts, part.Normal) :
    (array keywords).Normal := by
  refine .array ?_
  rcases hitems : keywords.items with _ | item
  · exact .unknown
  · exact h item (Keywords.mem_parts_of_items hitems)

private theorem normal_typeNamed (h : ∀ part ∈ keywords.parts, part.Normal) (name : String) :
    (typeNamed keywords name).Normal := by
  rw [typeNamed]
  split
  · exact .primitive _ _
  · split_ifs
    · exact normal_array h
    · exact normal_object h
    · exact .unknown

private theorem normal_typesNamed (h : ∀ part ∈ keywords.parts, part.Normal)
    (names : List String) : (typesNamed keywords names).Normal := by
  refine normal_compose .union fun type htype => ?_
  obtain ⟨name, -, rfl⟩ :=
    List.mem_map.mp ((Mapping.mem_of_mem_distinct htype).resolve_left List.not_mem_nil)
  exact normal_typeNamed h name

/-- The members of an intersection are normal if those of the parts are, the object beside them
included. -/
private theorem normal_conjuncts (h : ∀ part ∈ keywords.parts, part.Normal)
    {members : List Descriptor} (hmembers : ∀ member ∈ members, member.Normal) :
    ∀ member ∈ conjuncts keywords members, member.Normal := by
  rw [conjuncts]
  split_ifs
  · exact List.forall_mem_append.mpr
      ⟨hmembers, List.forall_mem_singleton.mpr (normal_object h)⟩
  · exact hmembers

/-- The type of keywords is normal, as far as it does not come from `nullable`, if those of the
parts are. -/
private theorem normal_shape (h : ∀ part ∈ keywords.parts, part.Normal) :
    (shape keywords).Normal := by
  have hmembers : ∀ member ∈ keywords.form.members, member.Normal :=
    fun member hmember => h member (Keywords.mem_parts_of_member hmember)
  rw [shape]
  rcases hform : keywords.form with value | members | members | members | values | name | names |
    _ | _ | _ | _ <;> rw [hform] at hmembers
  · exact normal_constant value
  · exact normal_compose .intersection (normal_conjuncts h hmembers)
  · exact normal_compose .union hmembers
  · exact normal_compose .union hmembers
  · exact normal_enumerated values
  · exact normal_typeNamed h name
  · exact normal_typesNamed h names
  · exact normal_object h
  · exact normal_array h
  · exact .unknown
  · exact .unknown

/-- Types in normal form make types in normal form. -/
theorem normal_interpret (h : ∀ part ∈ keywords.parts, part.Normal) :
    (interpret keywords).Normal := by
  rw [interpret]
  split_ifs
  · exact (normal_shape h).orNull
  · exact normal_shape h

/-- A schema that is made nullable gets the type from before, or `null`. -/
private theorem interpret_nullable (h : keywords.nullable = false) :
    interpret { keywords with nullable := true } = (interpret keywords).orNull := by
  have hshape : shape { keywords with nullable := true } = shape keywords := rfl
  rw [interpret, interpret, if_pos rfl, h, hshape]
  rfl

/-- The members of a union stay distinct when `null` is added. -/
private theorem distinctMembers_interpret (h : (shape keywords).DistinctMembers) :
    (interpret keywords).DistinctMembers := by
  rw [interpret]
  split_ifs
  · exact h.orNull
  · exact h

/-- A type that is given by its name has distinct members, for it is no union. -/
private theorem distinctMembers_typeNamed (name : String) :
    (typeNamed keywords name).DistinctMembers := by
  rw [typeNamed]
  split
  · trivial
  · split_ifs <;> trivial

private theorem distinctMembers_typesNamed (names : List String) :
    (typesNamed keywords names).DistinctMembers := by
  have hdistinct : (distinct Descriptor.same [] (names.map (typeNamed keywords))).Pairwise
      fun earlier later => earlier.same later = false := pairwise_distinct _ .nil
  rw [typesNamed]
  rcases heq : distinct Descriptor.same [] (names.map (typeNamed keywords)) with
    _ | ⟨type, _ | ⟨_, _⟩⟩
  · trivial
  · -- The type that is left is that of one of the names, which is no union.
    have hmem : type ∈ distinct Descriptor.same [] (names.map (typeNamed keywords)) := by
      rw [heq]
      exact List.mem_singleton_self type
    obtain ⟨name, -, rfl⟩ :=
      List.mem_map.mp ((Mapping.mem_of_mem_distinct hmem).resolve_left List.not_mem_nil)
    exact distinctMembers_typeNamed name
  · rw [heq] at hdistinct
    exact hdistinct

end Keywords

/-! ### Normal forms of outlines -/

section Outlines

variable (name : String → String)

/-- The outline of a schema is normal. The induction is on the schema, and its step is that an
interpretation of normal parts is normal. -/
theorem normal_outline (schema : Schema) : (schema.outline name).Normal := by
  refine Schema.induction_content (P := fun schema => (schema.outline name).Normal)
    (fun schema ih => ?_) schema
  rw [outline_eq]
  rcases schema.ref with _ | path
  · refine normal_interpret ?_
    rw [Keywords.parts_map]
    exact List.forall_mem_map.mpr ih
  · exact .reference _ _

/-- The outline of a schema without a reference from that of its keywords. -/
private theorem outline_of_form (schema : Schema) (href : schema.ref = none) :
    schema.outline name = interpret (schema.content.map (Schema.outline name)) := by
  rw [outline_eq, href]

/-- The outline of a schema that lists its types has distinct members. -/
theorem distinctMembers_outline {schema : Schema} (h : schema.ListsTypes) :
    (schema.outline name).DistinctMembers := by
  induction h with
  | types href hform =>
    rw [outline_of_form name _ href]
    refine distinctMembers_interpret ?_
    rw [shape, Keywords.form_map, hform]
    exact distinctMembers_typesNamed _
  | oneOf href hform _ ih =>
    rw [outline_of_form name _ href]
    refine distinctMembers_interpret ?_
    rw [shape, Keywords.form_map, hform]
    exact ih
  | anyOf href hform _ ih =>
    rw [outline_of_form name _ href]
    refine distinctMembers_interpret ?_
    rw [shape, Keywords.form_map, hform]
    exact ih
  | @allOf schema member href hform hproperties _ ih =>
    rw [outline_of_form name _ href]
    refine distinctMembers_interpret ?_
    -- Without properties beside it, the only member of `allOf` stands for the whole.
    have hnone : (schema.content.map (Schema.outline name)).properties.isSome = false := by
      rw [Keywords.map, Schema.content, hproperties]
      rfl
    rw [shape, Keywords.form_map, hform]
    simp only [Form.map, conjuncts, hnone, Bool.false_eq_true, if_false]
    exact ih

/-- Permission to be `null` is worked into the type last of all. -/
theorem outline_withoutNull {schema : Schema} (href : schema.ref = none)
    (hnullable : schema.nullable = some true) :
    schema.outline name = (schema.withoutNull.outline name).orNull := by
  have hcontent : schema.content.map (Schema.outline name) =
      { schema.withoutNull.content.map (Schema.outline name) with nullable := true } := by
    simp only [Keywords.map, Schema.content, Schema.withoutNull, hnullable]
    rfl
  have hplain : (schema.withoutNull.content.map (Schema.outline name)).nullable = false := rfl
  rw [outline_of_form name schema href, hcontent,
    outline_of_form name schema.withoutNull href]
  exact interpret_nullable hplain

/-- The outline of a schema is normal, has distinct members if the schema lists its types, and has
`null` among them once if the schema is nullable. -/
theorem shaped_outline (schema : Schema) : Shaped schema (schema.outline name) where
  normal := normal_outline name schema
  distinct := distinctMembers_outline name
  admitsNull href hnullable := by
    have hadmits := Descriptor.admitsNull_orNull (schema.withoutNull.outline name)
    rw [outline_withoutNull name href hnullable]
    exact ⟨hadmits, hadmits.orNull_eq⟩

theorem formed_outline (schema : Schema) : Formed schema (schema.outline name) :=
  ⟨name, rfl, fun inner _ => shaped_outline name inner⟩

end Outlines

end Outline

namespace Mapping

/-! ### Entries -/

/-- Whether an entry has a type that was stored as it is, has no type yet, or has one that its
target has. -/
def Filled (doc : Document) (stored : List (String × Descriptor)) (entry : Entry) : Prop :=
  (entry.key, entry.type) ∈ stored ∨ entry.type = .unknown ∨
    ∃ schema, (doc.target entry.key).2 = some schema ∧ Formed schema entry.type

section Entries

variable {doc : Document} {stored : List (String × Descriptor)}

/-- Following references fills entries with types that are formed after their targets. -/
private theorem kept_filled :
    Kept doc (fun _ => True) fun state =>
      ∀ entry ∈ state.table.entries, Filled doc stored entry := by
  refine ⟨fun _ _ _ _ _ _ => trivial, fun _ _ _ => id, fun _ _ => id, fun _ _ => id,
    fun _ schema key name _ _ second htarget _ _ h entry hentry => ?_⟩
  rcases Table.mem_insert hentry with rfl | hold
  · exact Or.inr (Or.inr ⟨schema, htarget, Outline.formed_outline _ schema⟩)
  · exact h entry hold

/-- Following references fills no entry but with the type of its target. -/
theorem filled_of_expandsAll (hclosed : doc.Closed) {visits : List Visit} {first second : Mapping}
    {log : List Descent} (h : ExpandsAll doc (depthLimit doc) visits first log second)
    (hcoherent : Coherent doc first)
    (hfirst : ∀ entry ∈ first.table.entries, Filled doc stored entry) :
    ∀ entry ∈ second.table.entries, Filled doc stored entry :=
  kept_filled.expandsAll hclosed h hcoherent (fun _ _ => trivial) hfirst

/-- Calls to the mapper fill entries with formed types, or with those that were written in place and
stored. -/
theorem Proceeds.filled (hclosed : doc.Closed) {first second : Mapping}
    (h : Proceeds doc first stored second) (hidle : Idle doc first)
    (hfirst : ∀ entry ∈ first.table.entries, Filled doc [] entry) :
    ∀ entry ∈ second.table.entries, Filled doc stored entry := by
  induction h with
  | refl => exact hfirst
  | components h ih =>
    have hcoherent := (h.idle hclosed hidle).coherent
    obtain ⟨log, later, hlater, hmap⟩ := mapComponents_run hclosed hcoherent
    rw [hmap]
    exact filled_of_expandsAll hclosed hlater hcoherent ih
  | schema h schema pointer ih =>
    have hcoherent := (h.idle hclosed hidle).coherent
    obtain ⟨log, later, hlater, hmap⟩ := mapSchema_run hclosed schema pointer hcoherent
    rw [hmap]
    exact filled_of_expandsAll hclosed hlater hcoherent ih
  | hoist _ key base type ih =>
    intro entry hentry
    rcases Table.mem_insert hentry with rfl | hold
    · -- The entry is the one that is stored as it is.
      exact Or.inl (List.mem_append_right _ (List.mem_singleton_self _))
    · exact (ih entry hold).imp_left (List.mem_append_left _)
  | report _ pointer reason ih => exact ih

end Entries

/-! ### Mapped types -/

section Types

variable {doc : Document} (hclosed : doc.Closed) {state : Mapping}
include hclosed

theorem formed_mapSchema (hcoherent : Coherent doc state) (schema : Schema) (pointer : String) :
    Formed schema ((mapSchema doc schema pointer).run state).1 := by
  rw [mapSchema_eq hclosed hcoherent]
  exact Outline.formed_outline _ schema

/-- Where a body or response is mapped, an entry is filled with its type at most. -/
private theorem filled_mapHoisted {first : Mapping} {stored : List (String × Descriptor)}
    (h : Proceeds doc first stored state) (hidle : Idle doc first)
    (hfirst : ∀ entry ∈ first.table.entries, Filled doc [] entry) (schema : Schema)
    (key base : String) :
    ∀ entry ∈ ((mapHoisted doc schema key base).run state).2.table.entries,
      Filled doc stored entry ∨ entry.key = key ∧ Formed schema entry.type := by
  intro entry hentry
  rcases hhoisted : state.hoisted? key with _ | reference
  · rw [mapHoisted_of_not_hoisted hhoisted, StateT.run_bind] at hentry
    have hmapped := (h.schema schema key).filled hclosed hidle hfirst
    have hformed := formed_mapSchema hclosed (h.idle hclosed hidle).coherent schema key
    generalize (mapSchema doc schema key).run state = result at hentry hmapped hformed
    obtain ⟨type, later⟩ := result
    dsimp only at hmapped hformed
    change entry ∈ ((if type.isComplex then hoist key base type else pure type).run
      later).2.table.entries at hentry
    -- The type is stored under its key if it is complex, and nowhere otherwise.
    split_ifs at hentry
    · rcases Table.mem_insert hentry with rfl | hold
      · exact Or.inr ⟨rfl, hformed⟩
      · exact Or.inl (hmapped entry hold)
    · exact Or.inl (hmapped entry hentry)
  · rw [mapHoisted_of_hoisted hhoisted] at hentry
    exact Or.inl (h.filled hclosed hidle hfirst entry hentry)

end Types

/-- Forgetting `null` does not change what is visited. -/
private theorem visits_withoutNull {schema : Schema} (href : schema.ref = none) (pointer : String) :
    schema.withoutNull.visits pointer = schema.visits pointer := by
  have hshape (keywords : Keywords (List Visit)) :
      Visit.shape { keywords with nullable := false } pointer = Visit.shape keywords pointer := rfl
  have hkeywords {σ : Type} (f : Schema × String → σ) :
      (schema.withoutNull.keywords pointer).map f =
        { (schema.keywords pointer).map f with nullable := false } := rfl
  have hplain : schema.withoutNull.ref = none := href
  rw [Schema.visits, Schema.fold_eq, Schema.fold_eq, href, hplain]
  dsimp only
  rw [hkeywords, hshape]

/-- **Normal form.** Whatever calls were made before, consider a call to map a schema, and any call
to map a schema that the mapper makes on the way. Its type is the outline of its schema, and at
every depth in normal form; unions that are made from lists of types have no member twice, and where
a schema says that it may be `null`, the type admits it and does not change if this is said again.
It is the type without this permission that is extended by `null`. Entries that were not stored as
they are have the types of their targets, or none yet, and mapping a body or response stores nothing
but the type of its schema. -/
theorem formed_of_proceeds {json : Json} {doc : Document} (h : Document.ofJson json = .ok doc)
    {stored : List (String × Descriptor)} {state : Mapping}
    (hstate : Proceeds doc (start doc) stored state) :
    (∀ schema pointer call, Call.MakesAll doc ⟨schema, pointer, state⟩ call →
      Formed call.schema (call.type doc)) ∧
    (∀ schema pointer, schema.ref = none → schema.nullable = some true →
      ((mapSchema doc schema pointer).run state).1 =
        ((mapSchema doc schema.withoutNull pointer).run state).1.orNull) ∧
    (∀ entry ∈ state.table.entries, Filled doc stored entry) ∧
    ∀ schema key base, ∀ entry ∈ ((mapHoisted doc schema key base).run state).2.table.entries,
      Filled doc stored entry ∨ entry.key = key ∧ Formed schema entry.type := by
  have hclosed := Document.closed_ofJson h
  have hidle := hstate.idle hclosed (idle_start doc)
  have hstart : ∀ entry ∈ (start doc).table.entries, Filled doc [] entry :=
    fun entry hentry => Or.inr (Or.inl (type_of_mem_start hentry))
  -- Calls on the way, `null`, entries, and what is hoisted next.
  refine ⟨fun schema pointer call hcall => ?_, fun schema pointer href hnullable => ?_,
    hstate.filled hclosed (idle_start doc) hstart,
    filled_mapHoisted hclosed hstate (idle_start doc) hstart⟩
  · have hduring := hcall.during hclosed hidle.coherent
    exact formed_mapSchema hclosed hduring.coherent call.schema call.pointer
  · have hvisits := visits_withoutNull href pointer
    rw [mapSchema_eq hclosed hidle.coherent, mapSchema_eq hclosed hidle.coherent, hvisits]
    exact Outline.outline_withoutNull _ href hnullable

/-- A schema for text, `null`, or a list of nodes. -/
def choiceSchema : Schema :=
  { type := some (.many ["string", "array", "string"])
    items := some { ref := some nodeKey }
    nullable := some true }

/-- The type of a nullable schema with a list of types, one of which is named twice, is formed after
it, and so are all entries. -/
theorem formed_of_proceeds_choice :
    Formed choiceSchema ((mapSchema nodeDocument choiceSchema "#").run
        ((mapComponents nodeDocument).run (start nodeDocument)).2).1 ∧
      ∀ entry ∈ ((mapComponents nodeDocument).run (start nodeDocument)).2.table.entries,
        Filled nodeDocument [] entry := by
  have hstate : Proceeds nodeDocument (start nodeDocument) []
      ((mapComponents nodeDocument).run (start nodeDocument)).2 := .components .refl
  generalize ((mapComponents nodeDocument).run (start nodeDocument)).2 = state at hstate ⊢
  obtain ⟨hcalls, -, hentries, -⟩ := formed_of_proceeds ofJson_nodeJson hstate
  exact ⟨hcalls choiceSchema "#" ⟨choiceSchema, "#", state⟩ .refl, hentries⟩

end Mapping

end ClientGen
