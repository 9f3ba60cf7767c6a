import ClientGen.Proofs.Mapping.Calls
import ClientGen.Proofs.Mapping.Session

/-!
# Unknown types are recorded

A schema whose outline is the unknown type has a fault among its visits (`exists_fault_of_outline`),
and mapping a schema records the faults of all its visits (`exists_appended`), each at the place of
the schema or inside (`within_of_fault`). So the mapper never gives the unknown type to a schema
without a diagnostic that says why (`exists_diagnostic_of_unknown`), and neither to a schema inside
it, or to the target of a reference in it (`exists_within_of_unknown`).
-/

namespace ClientGen

open OpenApi

/-! ### Places -/

/-- Whether a reference leads to the place of another, or to a place inside it. -/
def Reference.Within (pointer reference : String) : Prop :=
  reference = pointer ∨ ∃ rest, reference = pointer ++ "/" ++ rest

namespace Reference.Within

theorem child (pointer segment : String) : Within pointer (Reference.child pointer segment) :=
  Or.inr ⟨_, rfl⟩

theorem trans {pointer middle reference : String} (h : Within pointer middle)
    (h' : Within middle reference) : Within pointer reference := by
  rcases h with rfl | ⟨rest, rfl⟩
  · exact h'
  rcases h' with rfl | ⟨more, rfl⟩
  · exact Or.inr ⟨rest, rfl⟩
  · refine Or.inr ⟨rest ++ "/" ++ more, ?_⟩
    simp only [String.append_assoc]

end Reference.Within

/-- The schemas inside a schema have their places inside that of the schema. -/
theorem OpenApi.Schema.within_of_mem_parts {schema : Schema} {pointer : String}
    {part : Schema × String} (h : part ∈ (schema.keywords pointer).parts) :
    Reference.Within pointer part.2 := by
  have hlist {list : Option (List Schema)} {name : String}
      (h : part ∈ (list.map fun list => list.zipIdx.map fun member =>
        (member.1, Reference.child (Reference.child pointer name) (toString member.2))).getD []) :
      Reference.Within pointer part.2 := by
    rcases list with _ | list
    · cases h
    · obtain ⟨member, -, rfl⟩ := List.mem_map.mp h
      exact (Reference.Within.child _ _).trans (.child _ _)
  -- One case for each keyword with schemas in it.
  simp only [Keywords.parts, List.mem_append, Schema.keywords] at h
  rcases h with ((((h | h) | h) | h) | h) | h
  · rcases hproperties : schema.properties with _ | list
    · rw [hproperties] at h
      cases h
    · rw [hproperties] at h
      simp only [Option.map_some, Option.getD_some, List.map_map, List.mem_map] at h
      obtain ⟨property, -, rfl⟩ := h
      exact (Reference.Within.child _ _).trans (.child _ _)
  · rcases hitems : schema.items with _ | item
    · rw [hitems] at h
      cases h
    · rw [hitems] at h
      rw [List.mem_singleton.mp h]
      exact .child _ _
  · exact hlist h
  · exact hlist h
  · exact hlist h
  · rcases hadditional : schema.additional with _ | value | rest
    · rw [hadditional] at h
      cases h
    · rw [hadditional] at h
      cases h
    · rw [hadditional] at h
      rw [List.mem_singleton.mp h]
      exact .child _ _

namespace Mapping

open Visit

/-! ### Faults of unknown types -/

/-- Whether there is a fault to blame if a type is unknown. -/
private def Blames (visits : List Visit) (type : Descriptor) : Prop :=
  type = .unknown → ∃ diagnostic, fault diagnostic ∈ visits

section Keywords

variable {keywords : Keywords (List Visit × Descriptor)} {pointer : String}

private theorem blames_of_ne {visits : List Visit} {type : Descriptor} (h : type ≠ .unknown) :
    Blames visits type :=
  fun hunknown => absurd hunknown h

/-- For a composition that has members, what is to blame for them is to blame; without members it is
a fault itself. -/
private theorem blames_compose (keyword pointer : String) {wrap : List Descriptor → Descriptor}
    (hwrap : ∀ list, wrap list ≠ .unknown) {members : List (List Visit × Descriptor)}
    (h : ∀ member ∈ members, Blames member.1 member.2) :
    Blames (Visit.compose keyword pointer (members.map Prod.fst))
      (Outline.compose wrap (members.map Prod.snd)) := by
  rcases members with _ | ⟨first, _ | ⟨second, more⟩⟩
  · exact fun _ => ⟨_, List.mem_singleton_self _⟩
  · intro hunknown
    obtain ⟨diagnostic, hmem⟩ := h first List.mem_cons_self hunknown
    exact ⟨diagnostic, List.mem_append_left _ (List.mem_append_left _ hmem)⟩
  · exact blames_of_ne (hwrap _)

private theorem blames_constant (value : Json) :
    Blames (Visit.constant value pointer) (Outline.constant value) := by
  rw [Visit.constant, Outline.constant]
  rcases Literal.ofJson? value with _ | literal
  · exact fun _ => ⟨_, List.mem_singleton_self _⟩
  · exact blames_of_ne Descriptor.noConfusion

private theorem blames_enumerated (values : List Json) :
    Blames (Visit.enumerated values pointer) (Outline.enumerated values) := by
  simp only [Visit.enumerated, Outline.enumerated]
  split_ifs
  · exact fun _ => ⟨_, List.mem_append_right _ (List.mem_singleton_self _)⟩
  · exact blames_of_ne Descriptor.noConfusion

/-- For a type that is given by its name, only the name can be to blame. -/
private theorem blames_typeNamed (name : String) :
    Blames (Visit.typeNamed (keywords.map Prod.fst) pointer name)
      (Outline.typeNamed (keywords.map Prod.snd) name) := by
  rw [Visit.typeNamed, Outline.typeNamed]
  rcases scalarKind? name with _ | kind
  · dsimp only
    split_ifs
    · exact blames_of_ne Descriptor.noConfusion
    · exact blames_of_ne Descriptor.noConfusion
    · exact fun _ => ⟨_, List.mem_singleton_self _⟩
  · exact blames_of_ne Descriptor.noConfusion

/-- For a list of type names, one of the names is to blame, or that there are none. -/
private theorem blames_typesNamed (names : List String) :
    Blames (Visit.typesNamed (keywords.map Prod.fst) pointer names)
      (Outline.typesNamed (keywords.map Prod.snd) names) := by
  rcases names with _ | ⟨first, more⟩
  · exact fun _ => ⟨_, List.mem_singleton_self _⟩
  rw [Outline.typesNamed]
  intro hunknown
  rcases hdistinct : Outline.distinct Descriptor.same []
    ((first :: more).map (Outline.typeNamed (keywords.map Prod.snd))) with _ | ⟨type, _ | ⟨_, _⟩⟩
  · exact absurd hdistinct (distinct_ne_nil (Or.inr (List.cons_ne_nil _ _)))
  · -- The type that is left is that of one of the names.
    rw [hdistinct] at hunknown
    have hmem : type ∈ Outline.distinct Descriptor.same []
        ((first :: more).map (Outline.typeNamed (keywords.map Prod.snd))) := by
      rw [hdistinct]
      exact List.mem_singleton_self type
    obtain ⟨name, hname, rfl⟩ :=
      List.mem_map.mp ((mem_of_mem_distinct hmem).resolve_left List.not_mem_nil)
    obtain ⟨diagnostic, hfault⟩ := blames_typeNamed name hunknown
    exact ⟨diagnostic, List.mem_append_left _ (List.mem_flatMap.mpr ⟨name, hname, hfault⟩)⟩
  · rw [hdistinct] at hunknown
    cases hunknown

/-- For an intersection, what is to blame for its members is to blame, since the object beside them
is never unknown. -/
private theorem blames_conjuncts {members : List (List Visit × Descriptor)}
    (h : ∀ member ∈ members, Blames member.1 member.2) :
    Blames (Visit.compose "allOf" pointer
        (Visit.conjuncts (keywords.map Prod.fst) (members.map Prod.fst)))
      (Outline.compose .intersection
        (Outline.conjuncts (keywords.map Prod.snd) (members.map Prod.snd))) := by
  rw [Visit.conjuncts, Outline.conjuncts, Keywords.isSome_properties_map,
    Keywords.isSome_properties_map]
  have hwrap (list : List Descriptor) : Descriptor.intersection list ≠ .unknown :=
    Descriptor.noConfusion
  split_ifs
  · -- The object is one more member, and is known.
    let own : List Visit × Descriptor :=
      (Visit.object (keywords.map Prod.fst), Outline.object (keywords.map Prod.snd))
    have hown : Blames own.1 own.2 := blames_of_ne Descriptor.noConfusion
    have hall : ∀ member ∈ members ++ [own], Blames member.1 member.2 :=
      List.forall_mem_append.mpr ⟨h, List.forall_mem_singleton.mpr hown⟩
    have hblames := blames_compose "allOf" pointer hwrap hall
    rwa [List.map_append, List.map_append] at hblames
  · exact blames_compose "allOf" pointer hwrap h

/-- There is something to blame for keywords, whatever their form is, if there is for each of their
parts. -/
private theorem blames_shape (h : ∀ part ∈ keywords.parts, Blames part.1 part.2) :
    Blames (Visit.shape (keywords.map Prod.fst) pointer)
      (Outline.shape (keywords.map Prod.snd)) := by
  have hmembers : ∀ member ∈ keywords.form.members, Blames member.1 member.2 :=
    fun member hmember => h member (Keywords.mem_parts_of_member hmember)
  rw [Visit.shape, Outline.shape, Keywords.form_map, Keywords.form_map]
  rcases hform : keywords.form with json | members | members | members | values | name | names | _ |
    _ | _ | _ <;> rw [hform] at hmembers
  · exact blames_constant json
  · exact blames_conjuncts hmembers
  · exact blames_compose "oneOf" pointer (fun _ => Descriptor.noConfusion) hmembers
  · exact blames_compose "anyOf" pointer (fun _ => Descriptor.noConfusion) hmembers
  · exact blames_enumerated values
  · exact blames_typeNamed name
  · exact blames_typesNamed names
  · exact blames_of_ne Descriptor.noConfusion
  · exact blames_of_ne Descriptor.noConfusion
  · exact fun _ => ⟨_, List.mem_singleton_self _⟩
  · exact fun _ => ⟨_, List.mem_singleton_self _⟩

/-- Only the unknown type is unknown or `null`. -/
private theorem eq_unknown_of_orNull {type : Descriptor} (h : type.orNull = .unknown) :
    type = .unknown := by
  cases type with
  | unknown => rfl
  | union => cases h
  | enumeration => cases h
  | _ =>
    simp only [Descriptor.orNull] at h
    split_ifs at h

end Keywords

/-- A schema whose outline is the unknown type has a fault among its visits. -/
theorem exists_fault_of_outline {name : String → String} {schema : Schema} (pointer : String)
    (h : schema.outline name = .unknown) :
    ∃ diagnostic, fault diagnostic ∈ schema.visits pointer := by
  -- The induction is on the schema, with its visits beside its outline: what is to blame for a part
  -- is to blame for the whole.
  refine Schema.induction (P := fun schema pointer =>
    Blames (schema.visits pointer) (schema.outline name)) (fun schema pointer ih => ?_) schema
    pointer h
  rw [Schema.visits, Schema.fold_eq, Outline.outline_eq]
  rcases schema.ref with _ | path
  · let both := (schema.keywords pointer).map fun part =>
      (part.1.visits part.2, part.1.outline name)
    have hparts : ∀ part ∈ both.parts, Blames part.1 part.2 := by
      rw [Keywords.parts_map]
      exact List.forall_mem_map.mpr ih
    have hvisits : both.map Prod.fst = (schema.keywords pointer).map fun part =>
        part.1.visits part.2 := Keywords.map_map _ _ _
    have houtline : both.map Prod.snd = schema.content.map (Schema.outline name) := by
      rw [← Schema.keywords_map_fst schema pointer, Keywords.map_map, Keywords.map_map]
      rfl
    have hshape : Blames (Visit.shape (both.map Prod.fst) pointer)
        (Outline.shape (both.map Prod.snd)) := blames_shape hparts
    rw [hvisits, houtline] at hshape
    intro hunknown
    refine hshape ?_
    rw [Outline.interpret] at hunknown
    split_ifs at hunknown
    · exact eq_unknown_of_orNull hunknown
    · exact hunknown
  · exact blames_of_ne Descriptor.noConfusion

/-! ### Recording -/

section Recording

variable {doc : Document} (hclosed : doc.Closed)
include hclosed

/-- Making visits adds diagnostics, every fault among the visits included. -/
theorem exists_appended (visits : List Visit) {state : Mapping} (hcoherent : Coherent doc state) :
    ∃ new, (runAll (mapReference doc) visits state).diagnostics = state.diagnostics ++ new ∧
      ∀ diagnostic, fault diagnostic ∈ visits → diagnostic ∈ new := by
  induction visits generalizing state with
  | nil => exact ⟨[], (List.append_nil _).symm, fun _ hmem => absurd hmem List.not_mem_nil⟩
  | cons visit more ih =>
    have hfirst : ∃ new, (visit.run (mapReference doc) state).diagnostics =
        state.diagnostics ++ new ∧ ∀ diagnostic, fault diagnostic = visit → diagnostic ∈ new := by
      cases visit with
      | reference path =>
        obtain ⟨new, hnew⟩ := diagnostics_prefix_runAll hclosed hcoherent [.reference path]
        exact ⟨new, hnew.symm, fun _ => Visit.noConfusion⟩
      | fault first =>
        refine ⟨[first], rfl, ?_⟩
        rintro _ ⟨⟩
        exact List.mem_singleton_self _
    obtain ⟨new, hnew, hfault⟩ := hfirst
    have hnext : Coherent doc (visit.run (mapReference doc) state) :=
      coherent_runAll hclosed hcoherent [visit]
    obtain ⟨later, hlater, hfaults⟩ := ih hnext
    -- The first visit appends its own diagnostics, and the others append theirs behind them.
    refine ⟨new ++ later, ?_, fun diagnostic hmem => ?_⟩
    · rw [runAll, List.foldl_cons, ← runAll, hlater, hnew, List.append_assoc]
    · rcases List.mem_cons.mp hmem with heq | hmem
      · exact List.mem_append_left _ (hfault diagnostic heq)
      · exact List.mem_append_right _ (hfaults diagnostic hmem)

/-- **No silent loss.** If the type of a schema is unknown, then a fault in the schema is
recorded. -/
theorem exists_diagnostic_of_unknown {schema : Schema} {pointer : String} {state : Mapping}
    (hcoherent : Coherent doc state)
    (h : ((mapSchema doc schema pointer).run state).1 = .unknown) :
    ∃ diagnostic ∈ ((mapSchema doc schema pointer).run state).2.diagnostics,
      fault diagnostic ∈ schema.visits pointer := by
  rw [mapSchema_eq hclosed hcoherent] at h ⊢
  obtain ⟨diagnostic, hfault⟩ := exists_fault_of_outline pointer h
  obtain ⟨new, hnew, hfaults⟩ := exists_appended hclosed (schema.visits pointer) hcoherent
  refine ⟨diagnostic, ?_, hfault⟩
  rw [hnew]
  exact List.mem_append_right _ (hfaults diagnostic hfault)

end Recording

/-! ### Unknown types are never silent -/

/-- The faults of a schema are recorded at its place or inside it. -/
theorem within_of_fault {schema : Schema} {pointer : String} {diagnostic : Diagnostic}
    (h : fault diagnostic ∈ schema.visits pointer) :
    Reference.Within pointer diagnostic.pointer := by
  refine Schema.induction (P := fun schema pointer => fault diagnostic ∈ schema.visits pointer →
    Reference.Within pointer diagnostic.pointer) (fun schema pointer ih h => ?_) schema pointer h
  rcases of_mem_visits h with ⟨_, -, heq⟩ | ⟨part, hpart, hmem⟩ | ⟨_, heq⟩ | ⟨-, _, heq⟩
  · cases heq
  · have hinside := Keywords.mem_parts_of_used hpart
    exact (Schema.within_of_mem_parts hinside).trans (ih part hinside hmem)
  · cases heq
    exact Or.inl rfl
  · cases heq
    exact .child _ _

/-- **Unknown types.** Whatever calls were made before, consider a call to map a schema, and any
call to map a schema that the mapper makes on the way. It keeps the diagnostics of before and adds
some, all of which are kept; and if its type is unknown, it adds one at the place of its schema or
inside. The schemas inside that its type is made from, and no others, are mapped by such calls, each
of them after the visits of those before it. -/
theorem exists_within_of_unknown {json : Json} {doc : Document} (h : Document.ofJson json = .ok doc)
    {stored : List (String × Descriptor)} {state : Mapping}
    (hstate : Proceeds doc (start doc) stored state) {schema : Schema} {pointer : String}
    {call : Call} (hcall : Call.MakesAll doc ⟨schema, pointer, state⟩ call) :
    state.diagnostics <+: call.before.diagnostics ∧
      (call.after doc).diagnostics <+: ((mapSchema doc schema pointer).run state).2.diagnostics ∧
      (∃ new, (call.after doc).diagnostics = call.before.diagnostics ++ new ∧
        (call.type doc = .unknown →
          ∃ diagnostic ∈ new, Reference.Within call.pointer diagnostic.pointer)) ∧
      (call.schema.ref = none → call.MapsParts doc) := by
  have hclosed := Document.closed_ofJson h
  have hduring := hcall.during hclosed (hstate.idle hclosed (idle_start doc)).coherent
  refine ⟨hduring.before, hduring.after, ?_, Call.mapsParts doc⟩
  -- A schema of unknown type visits a fault, and every fault that is visited is reported.
  obtain ⟨new, hnew, hfaults⟩ :=
    exists_appended hclosed (call.schema.visits call.pointer) hduring.coherent
  have hrun := mapSchema_eq hclosed hduring.coherent call.schema call.pointer
  refine ⟨new, ?_, fun hunknown => ?_⟩
  · rw [Call.after, hrun, hnew]
  · rw [Call.type, hrun] at hunknown
    obtain ⟨diagnostic, hfault⟩ := exists_fault_of_outline call.pointer hunknown
    exact ⟨diagnostic, hfaults diagnostic hfault, within_of_fault hfault⟩

/-- A schema with a property that may be anything but one thing. -/
def negationSchema : Schema :=
  { properties := some [("rest", { not := some .null })] }

/-- A negation inside a property is unknown, and the diagnostic for it is at its place. -/
theorem exists_within_of_unknown_negation :
    ∃ diagnostic ∈ ((mapSchema nodeDocument negationSchema "#").run
        ((mapComponents nodeDocument).run (start nodeDocument)).2).2.diagnostics,
      Reference.Within "#/properties/rest" diagnostic.pointer := by
  let call : Call :=
    ⟨negationSchema, "#", ((mapComponents nodeDocument).run (start nodeDocument)).2⟩
  have href : call.schema.ref = none := rfl
  have hused : (call.schema.keywords call.pointer).used =
      [] ++ ({ not := some .null }, "#/properties/rest") :: [] := rfl
  obtain ⟨earlier, -, hmakes⟩ := (Call.mapsParts nodeDocument href).makes _ _ _ hused
  obtain ⟨-, hafter, ⟨new, hnew, hunknown⟩, -⟩ := exists_within_of_unknown ofJson_nodeJson
    (.components .refl) (.single hmakes)
  obtain ⟨diagnostic, hmem, hwithin⟩ := hunknown rfl
  refine ⟨diagnostic, hafter.subset ?_, hwithin⟩
  rw [hnew]
  exact List.mem_append_right _ hmem

end Mapping

end ClientGen
