import ClientGen.Proofs.Mapping.Entries

/-!
# Entries hold the types of their targets

A type is that of a schema in a state if it is the outline of the schema, with each reference that
leads to something called as its key is, and each other reference called after its key. There is
one such type at most (`IsTypeOf.eq`), and it stays the same however many names are given out later
(`IsTypeOf.extend`).

If all records are written as objects, a key that is finished leads to a schema, and its entry holds
the type of that schema (`Exact`). There are two ways to finish a key, and they come to the same: a
reference to the key is followed, or the schema is written in place and mapped there. So it makes no
difference which of them comes first, nor whether the schema refers to itself while it is mapped
(`Use.hoists`).
-/

namespace ClientGen.Mapping

open OpenApi

/-! ### Types of schemas -/

/-- How references to a key are called: as the key is if it leads to something, and after the key
otherwise. -/
def callName (doc : Document) (state : Mapping) (key : String) : String :=
  if (doc.target key).2.isSome then (state.names.name? key).getD "" else fallbackName key

/-- Whether a reference is called as it should be, and its key has a name if it needs one. -/
structure Called (doc : Document) (state : Mapping) (reference : String × String) : Prop where
  named : (doc.target reference.1).2.isSome → state.names.name? reference.1 = some reference.2
  dangling : (doc.target reference.1).2 = none → reference.2 = fallbackName reference.1

/-- Whether a type is that of a schema. -/
structure IsTypeOf (doc : Document) (state : Mapping) (schema : Schema) (type : Descriptor) :
    Prop where
  outline : ∀ name, type.named name = schema.outline name
  called : ∀ reference ∈ type.references, Called doc state reference

section Types

variable {doc : Document} {state earlier later : Mapping} {schema : Schema}
  {type other : Descriptor}

/-- There is only one name for a reference that is called as it should be. -/
theorem Called.eq {reference : String × String} (h : Called doc state reference) :
    reference.2 = callName doc state reference.1 := by
  rw [callName]
  split_ifs with htarget
  · rw [h.named htarget, Option.getD_some]
  · exact h.dangling (Option.not_isSome_iff_eq_none.mp htarget)

/-- A type stays that of a schema when further keys are named. -/
theorem IsTypeOf.extend (h : IsTypeOf doc earlier schema type)
    (hnames : ∀ key name, earlier.names.name? key = some name →
      later.names.name? key = some name) :
    IsTypeOf doc later schema type :=
  ⟨h.outline, fun reference hreference =>
    ⟨fun htarget => hnames _ _ ((h.called reference hreference).named htarget),
      (h.called reference hreference).dangling⟩⟩

/-- A schema has one type. -/
theorem IsTypeOf.eq (h : IsTypeOf doc state schema type) (h' : IsTypeOf doc state schema other) :
    type = other := by
  have hself {type : Descriptor} (h : IsTypeOf doc state schema type) :
      schema.outline (callName doc state) = type := by
    rw [← h.outline]
    exact Descriptor.named_eq_self type fun reference hreference =>
      (h.called reference hreference).eq
  exact (hself h).symm.trans (hself h')

end Types

/-! ### Exact entries -/

/-- Whether finished keys lead to schemas, and their entries hold the types of these. -/
def Exact (doc : Document) (state : Mapping) : Prop :=
  ∀ key ∈ state.mapped, ∃ entry schema, state.table.get? key = some entry ∧
    (doc.target key).2 = some schema ∧ IsTypeOf doc state schema entry.type

section Exact

variable {doc : Document} {state base : Mapping}

/-- At the start no key is finished, so that there is nothing to be exact. -/
theorem exact_start (doc : Document) : Exact doc (start doc) := by
  intro key hmapped
  rw [mapped_start] at hmapped
  cases hmapped

/-- Further names change nothing. -/
theorem Exact.congr (h : Exact doc state) (htable : base.table = state.table)
    (hmapped : base.mapped = state.mapped)
    (hnames : ∀ key name, state.names.name? key = some name → base.names.name? key = some name) :
    Exact doc base := by
  intro key hkey
  rw [hmapped] at hkey
  obtain ⟨entry, schema, hget, htarget, htype⟩ := h key hkey
  exact ⟨entry, schema, htable ▸ hget, htarget, htype.extend hnames⟩

/-- Finishing a key with the type of its target keeps the entries exact. -/
theorem Exact.store (h : Exact doc state) {key name : String} {schema : Schema} {type : Descriptor}
    (htarget : (doc.target key).2 = some schema) (htype : IsTypeOf doc state schema type) :
    Exact doc (state.store key name type) := by
  intro other hother
  by_cases heq : key = other
  · rw [← heq]
    exact ⟨_, schema, Table.get?_insert_self _ _ _ _, htarget, htype.extend fun _ _ => id⟩
  · have hold := (mem_mapped_store.mp hother).resolve_left fun hsame => heq hsame.symm
    obtain ⟨entry, target, hget, hleads, hentry⟩ := h other hold
    exact ⟨entry, target, (Table.get?_insert_of_ne _ heq _ _).trans hget, hleads,
      hentry.extend fun _ _ => id⟩

/-- The type of a schema whose visits come to a run. -/
theorem isTypeOf_outline {depth : Nat} {schema : Schema} {pointer : String}
    {first second : Mapping} {log : List Descent}
    (h : ExpandsAll doc depth (schema.visits pointer) first log second)
    (hcoherent : Coherent doc first) (hexact : Exact doc second) :
    IsTypeOf doc second schema (schema.outline (nameOf doc second)) := by
  refine ⟨fun name => Outline.outline_named _ name schema, fun reference hreference => ⟨?_, ?_⟩⟩
  · intro htarget
    exact (resolved_outline h hcoherent reference hreference htarget).1
  · intro hnone
    obtain ⟨hname, -⟩ := h.mem_references hreference
    -- What leads nowhere is never finished.
    have hunnamed : ¬((doc.target reference.1).2.isSome ∨ reference.1 ∈ second.mapped) := by
      rintro (htarget | hmapped)
      · rw [hnone] at htarget
        cases htarget
      · obtain ⟨-, schema, -, htarget, -⟩ := hexact _ hmapped
        rw [hnone] at htarget
        cases htarget
    rw [hname, nameOf, if_neg hunnamed, fallbackName]

/-- Whatever following references does keeps entries exact. -/
private theorem kept_exact (doc : Document) : Kept doc (fun _ => True) (Exact doc) where
  target _ _ _ _ _ _ := trivial
  report _ _ _ h := h.congr rfl rfl fun _ _ => id
  name _ key h := h.congr rfl rfl fun _ _ hname => Registry.name?_resolve_of_name? hname key
  enter _ _ h := h.congr rfl rfl fun _ _ => id
  leave _ schema _ _ _ _ second htarget hinner hcoherent h := by
    have hbelow : Exact doc { second with chain := second.chain.tail } :=
      h.congr rfl rfl fun _ _ => id
    exact hbelow.store htarget ((isTypeOf_outline hinner hcoherent h).extend fun _ _ => id)

end Exact

/-! ### Steady states -/

/-- Whether a state is between two schemas, and its entries are exact. -/
structure Steady (doc : Document) (state : Mapping) : Prop where
  idle : Idle doc state
  exact : Exact doc state

/-- Whether a computation leads from a steady state to another one that takes nothing back. -/
def Advances {α : Type} (doc : Document) (x : MapM α) : Prop :=
  ∀ state, Steady doc state → Steady doc (x.run state).2 ∧ Extends state (x.run state).2

namespace Advances

variable {doc : Document} {α β : Type}

theorem pure (a : α) : Advances doc (Pure.pure a) :=
  fun state hsteady => ⟨hsteady, .refl state⟩

theorem bind {x : MapM α} {f : α → MapM β} (hx : Advances doc x) (hf : ∀ a, Advances doc (f a)) :
    Advances doc (x >>= f) := by
  intro state hsteady
  obtain ⟨hfirst, hextends⟩ := hx state hsteady
  obtain ⟨hsecond, hextends'⟩ := hf (x.run state).1 (x.run state).2 hfirst
  exact ⟨hsecond, hextends.trans hextends'⟩

end Advances

section Schemas

variable {doc : Document}

theorem steady_start (doc : Document) : Steady doc (start doc) :=
  ⟨idle_start doc, exact_start doc⟩

theorem advances_report (pointer : String) (reason : Degradation) :
    Advances doc (report pointer reason) := by
  intro state hsteady
  have hstep : Step doc state .quiet _ := .report state ⟨pointer, reason⟩
  exact ⟨⟨⟨hstep.coherent hsteady.idle.coherent, hsteady.idle.chain⟩,
    hsteady.exact.congr rfl rfl fun _ _ => id⟩, hstep.keeps⟩

/-- Visits lead from a steady state to a steady one that takes nothing back. -/
private theorem steady_expandsAll (hclosed : doc.Closed) {visits : List Visit}
    {first second : Mapping} {log : List Descent} (hsteady : Steady doc first)
    (h : ExpandsAll doc (depthLimit doc) visits first log second) :
    Steady doc second ∧ Extends first second :=
  ⟨⟨⟨h.follows.coherent hsteady.idle.coherent, h.follows.chain.trans hsteady.idle.chain⟩,
    (kept_exact doc).expandsAll hclosed h hsteady.idle.coherent (fun _ _ => trivial)
      hsteady.exact⟩, h.follows.keeps⟩

/-- Mapping a schema gives its type. -/
theorem mapSchema_steady (hclosed : doc.Closed) (schema : Schema) (pointer : String)
    {state : Mapping} (hsteady : Steady doc state) :
    Steady doc ((mapSchema doc schema pointer).run state).2 ∧
      Extends state ((mapSchema doc schema pointer).run state).2 ∧
      IsTypeOf doc ((mapSchema doc schema pointer).run state).2 schema
        ((mapSchema doc schema pointer).run state).1 := by
  obtain ⟨log, later, hlater, hrun⟩ := mapSchema_run hclosed schema pointer hsteady.idle.coherent
  obtain ⟨hsteady', hextends⟩ := steady_expandsAll hclosed hsteady hlater
  rw [hrun]
  exact ⟨hsteady', hextends, isTypeOf_outline hlater hsteady.idle.coherent hsteady'.exact⟩

theorem advances_mapSchema (hclosed : doc.Closed) (schema : Schema) (pointer : String) :
    Advances doc (mapSchema doc schema pointer) := by
  intro state hsteady
  obtain ⟨hsteady', hextends, -⟩ := mapSchema_steady hclosed schema pointer hsteady
  exact ⟨hsteady', hextends⟩

theorem advances_mapComponents (hclosed : doc.Closed) : Advances doc (mapComponents doc) := by
  intro state hsteady
  obtain ⟨log, later, hlater, hrun⟩ := mapComponents_run hclosed hsteady.idle.coherent
  rw [hrun]
  exact steady_expandsAll hclosed hsteady hlater

end Schemas

/-! ### Parameters -/

section Parameters

variable {doc : Document}

/-- Merging parameters advances, because it does nothing but report. -/
private theorem advances_mergeParameters (merged : List (Parameter × String))
    (declared : List (Referable Parameter × String)) :
    Advances doc (mergeParameters doc merged declared) := by
  induction declared generalizing merged with
  | nil => exact .pure merged
  | cons first more ih =>
    rw [mergeParameters]
    split
    · exact ih _
    · exact (advances_report _ _).bind fun _ => ih _

private theorem advances_mapParameters (hclosed : doc.Closed) (merged : List (Parameter × String)) :
    Advances doc (mapParameters doc merged) := by
  induction merged with
  | nil => exact .pure []
  | cons first more ih =>
    obtain ⟨parameter, place⟩ := first
    have htype : Advances doc (parameterType doc parameter place) := by
      rw [parameterType_eq]
      split
      · exact advances_mapSchema hclosed _ _
      · exact .pure _
    rw [mapParameters]
    split
    · exact htype.bind fun _ => ih.bind fun _ => .pure _
    · exact (advances_report _ _).bind fun _ => ih

/-- Synthesizing the parameters of a path advances, because it does nothing but report. -/
private theorem advances_completePath (pointer : String) (parameters : List EndpointParameter)
    (names : List String) : Advances doc (completePath pointer parameters names) := by
  induction names generalizing parameters with
  | nil => exact .pure parameters
  | cons name more ih =>
    rw [completePath]
    split
    · exact ih _
    · exact (advances_report _ _).bind fun _ => ih _

theorem advances_siteParameters (hclosed : doc.Closed) (site : Site) :
    Advances doc (siteParameters doc site) :=
  (advances_mergeParameters _ _).bind fun _ => (advances_mapParameters hclosed _).bind fun _ =>
    advances_completePath _ _ _

end Parameters

/-! ### Uses of content -/

/-- A use of the content of a body or response. -/
structure Use where
  /-- Where the body or response stands. -/
  place : String
  /-- The schema for the preferred media type. -/
  schema : Schema
  /-- Where the schema stands. -/
  key : String
  /-- What the schema is called after. -/
  base : String
  /-- The state in which the schema is mapped. -/
  before : Mapping

/-- What a use comes to: the type that it gives and the state that it leaves. -/
def Use.outcome (doc : Document) (use : Use) : Descriptor × Mapping :=
  (mapHoisted doc use.schema use.key use.base).run use.before

/-- The type of the schema that is used. -/
def Use.type (doc : Document) (use : Use) : Descriptor :=
  ((mapSchema doc use.schema use.key).run use.before).1

section Uses

variable {doc : Document} {state : Mapping} {key : String}

/-- A finished key has been hoisted, and is referred to under its name. -/
theorem hoisted?_of_mem (h : Coherent doc state) (hmapped : key ∈ state.mapped) :
    ∃ name, state.names.name? key = some name ∧
      state.hoisted? key = some (.reference key name) := by
  obtain ⟨entry, hget, hname⟩ := h.entry key hmapped
  refine ⟨entry.name, hname, ?_⟩
  rw [hoisted?, if_pos (List.contains_iff_mem.mpr hmapped), hget, Option.map_some,
    Table.key_of_get? hget]

/-- A key that is not finished has not been hoisted. -/
theorem hoisted?_of_notMem (h : key ∉ state.mapped) : state.hoisted? key = none := by
  rw [hoisted?, if_neg (mt List.contains_iff_mem.mp h)]

/-- A use of content that is not finished hoists it if its type is complex, and otherwise leaves it
where it is written. -/
private theorem Use.outcome_of_notMem {use : Use} (h : use.key ∉ use.before.mapped) :
    use.outcome doc =
      if (use.type doc).isComplex then
        (hoist use.key use.base (use.type doc)).run
          ((mapSchema doc use.schema use.key).run use.before).2
      else (mapSchema doc use.schema use.key).run use.before := by
  rw [Use.outcome, mapHoisted_of_not_hoisted (hoisted?_of_notMem h), StateT.run_bind]
  change StateT.run (if (use.type doc).isComplex then _ else _) _ = _
  split_ifs <;> rfl

/-- What a use in a steady state comes to. -/
structure Use.Hoists (doc : Document) (use : Use) : Prop where
  steady : Steady doc (use.outcome doc).2
  keeps : Extends use.before (use.outcome doc).2
  type : IsTypeOf doc (use.outcome doc).2 use.schema (use.type doc)
  /-- A complex type is referred to, and the key is finished. -/
  complex : (use.type doc).isComplex = true → use.key ∈ (use.outcome doc).2.mapped ∧
    ∃ name, (use.outcome doc).1 = .reference use.key name ∧
      (use.outcome doc).2.names.name? use.key = some name
  simple : (use.outcome doc).1.isComplex = false

/-- Storing the type of a schema that is written in place keeps a state steady. -/
private theorem steady_hoist (hsteady : Steady doc state) {schema : Schema} {type : Descriptor}
    (htarget : (doc.target key).2 = some schema) (htype : IsTypeOf doc state schema type)
    (base : String) :
    Steady doc ((hoist key base type).run state).2 ∧
      Extends state ((hoist key base type).run state).2 := by
  have hstep : Step doc state (.hoist key type) _ :=
    .hoist state key (Identifier.typeName base) type hsteady.idle.chain
  have hnames (other name : String) (hname : state.names.name? other = some name) :=
    Registry.name?_resolveAs_of_name? hname key (Identifier.typeName base)
  have hnamed : Exact doc { state with
      names := (state.names.resolveAs key (Identifier.typeName base)).2 } :=
    hsteady.exact.congr rfl rfl hnames
  exact ⟨⟨⟨hstep.coherent hsteady.idle.coherent, hsteady.idle.chain⟩,
    hnamed.store htarget (htype.extend hnames)⟩, hstep.keeps⟩

/-- **Uses.** If the schema of a use is where its key leads, then the use keeps the state steady,
and gives no complex type but a reference to an entry with it. -/
theorem Use.hoists (hclosed : doc.Closed) {use : Use} (hsteady : Steady doc use.before)
    (htarget : (doc.target use.key).2 = some use.schema) : use.Hoists doc := by
  obtain ⟨hsteady', hextends, htype⟩ := mapSchema_steady hclosed use.schema use.key hsteady
  by_cases hmapped : use.key ∈ use.before.mapped
  · -- The entry that is there holds the type that mapping the schema once more would give.
    obtain ⟨name, hname, hhoisted⟩ := hoisted?_of_mem hsteady.idle.coherent hmapped
    have hrun : use.outcome doc = (.reference use.key name, use.before) :=
      mapHoisted_of_hoisted hhoisted
    obtain ⟨entry, target, -, hleads, hentry⟩ := hsteady.exact use.key hmapped
    obtain rfl : use.schema = target := Option.some.inj (htarget.symm.trans hleads)
    have heq : use.type doc = entry.type := htype.eq (hentry.extend hextends.names)
    constructor <;> rw [hrun]
    · exact hsteady
    · exact .refl use.before
    · exact heq ▸ hentry
    · exact fun _ => ⟨hmapped, name, rfl, hname⟩
    · rfl
  · by_cases hcomplex : (use.type doc).isComplex = true
    · -- If the schema refers to its own place, the key is finished by now. Then storing the type
      -- puts the same type in the place of the entry, under the name that the key has already.
      have hrun := (Use.outcome_of_notMem hmapped).trans (if_pos hcomplex)
      obtain ⟨hstored, hextends'⟩ := steady_hoist hsteady' htarget htype use.base
      constructor <;> rw [hrun]
      · exact hstored
      · exact hextends.trans hextends'
      · exact htype.extend hextends'.names
      · exact fun _ => ⟨mem_mapped_store.mpr (Or.inl rfl), _, rfl,
          Registry.name?_resolveAs_self _ _ _⟩
      · rfl
    · have hrun := (Use.outcome_of_notMem hmapped).trans (if_neg hcomplex)
      constructor <;> rw [hrun]
      · exact hsteady'
      · exact hextends
      · exact htype
      · exact fun h => absurd h hcomplex
      · exact Bool.eq_false_of_not_eq_true hcomplex

end Uses

end ClientGen.Mapping
