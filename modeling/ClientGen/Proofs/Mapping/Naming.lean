import ClientGen.Proofs.Identifier
import ClientGen.Proofs.Mapping.Expansion

/-!
# Names of types

An entry of the table is called as its key is in the registry, so that no two entries have one name
(`Orderly.nodup_names`), and each name has the shape of a type's name. This is so at any time,
whatever the keys and the operations are called, because every step of a mapping keeps it
(`Run.orderly`). A reference is called as its key is, too, unless there was nothing it refers to
when it was written: then it is called after its key (`Named`). Following references leaves only
such references in the entries (`tidy_expandsAll`).
-/

namespace ClientGen.Mapping

open OpenApi Identifier

/-! ### Entries -/

/-- What holds of the names and entries of a state at any time. -/
structure Orderly (state : Mapping) : Prop where
  distinct : state.names.Distinct Registry.generatedNames
  typeNames : state.names.All IsTypeName
  /-- Entries are called as their keys are. -/
  labelled : ∀ entry ∈ state.table.entries, state.names.name? entry.key = some entry.name
  nodup : (state.table.entries.map Entry.key).Nodup

/-- The name that a reference to a key has if nothing is found under it. -/
def fallbackName (key : String) : String :=
  typeName (Reference.lastSegment key)

/-- Where entries come from: an entry has a target, or it was written in place, or its fallback name
is the name of an entry anyway. -/
def Located (doc : Document) (state : Mapping) : Prop :=
  ∀ entry ∈ state.table.entries, (doc.target entry.key).2.isSome ∨
    Reference.lastSegment entry.key = "schema" ∨
      ∃ other ∈ state.table.entries, other.name = fallbackName entry.key

namespace Orderly

variable {state : Mapping}

/-- No two entries have one name. -/
theorem nodup_names (h : Orderly state) : (state.table.entries.map Entry.name).Nodup := by
  refine List.Nodup.map_on (fun entry hentry other hother heq => ?_) (List.Nodup.of_map _ h.nodup)
  have hname := h.labelled other hother
  rw [← heq] at hname
  exact List.inj_on_of_nodup_map h.nodup hentry hother
    (h.distinct.key_eq (h.labelled entry hentry) hname)

/-- Naming a key after a base that has the shape of the name of a type keeps a state orderly. -/
theorem resolveAs (h : Orderly state) (key : String) {base : String} (hbase : IsTypeName base) :
    Orderly { state with names := (state.names.resolveAs key base).2 } where
  distinct := h.distinct.resolveAs key base
  typeNames := h.typeNames.resolveAs (fun _ n hbase => hbase.numbered n) key hbase
  labelled entry hentry := Registry.name?_resolveAs_of_name? (h.labelled entry hentry) key base
  nodup := h.nodup

theorem insert (h : Orderly state) {key name : String} (hname : state.names.name? key = some name)
    (type : Descriptor) : Orderly { state with table := state.table.insert key name type } where
  distinct := h.distinct
  typeNames := h.typeNames
  labelled entry hentry := by
    rcases Table.mem_insert hentry with rfl | hold
    · exact hname
    · exact h.labelled entry hold
  nodup := Table.nodup_keys_insert h.nodup key name type

/-- Names and entries are all that matters. -/
theorem congr {other : Mapping} (h : Orderly state) (hnames : other.names = state.names)
    (htable : other.table = state.table) : Orderly other :=
  ⟨hnames ▸ h.distinct, hnames ▸ h.typeNames, hnames ▸ htable ▸ h.labelled, htable ▸ h.nodup⟩

theorem store (h : Orderly state) {key name : String} (hname : state.names.name? key = some name)
    (type : Descriptor) : Orderly (state.store key name type) :=
  (h.insert hname type).congr rfl rfl

/-- An entry that is replaced keeps its name. -/
theorem exists_name (h : Orderly state) {entry : Entry} (hentry : entry ∈ state.table.entries)
    {key name : String} (hname : state.names.name? key = some name) (type : Descriptor) :
    ∃ other ∈ (state.table.insert key name type).entries, other.name = entry.name := by
  by_cases hplace : entry.key = key
  · have hsame := h.labelled entry hentry
    rw [hplace, hname] at hsame
    exact ⟨_, Table.mem_insert_self _ key name type, Option.some.inj hsame⟩
  · exact ⟨entry, Table.mem_insert_of_ne hentry hplace name type, rfl⟩

end Orderly

/-- Storing a type under a key that leads to something, or under one of content, keeps entries
located. -/
theorem Located.store {doc : Document} {state : Mapping} (h : Located doc state)
    (horderly : Orderly state) {key name : String} (hname : state.names.name? key = some name)
    (hkey : (doc.target key).2.isSome ∨ Reference.lastSegment key = "schema") (type : Descriptor) :
    Located doc (state.store key name type) := by
  intro entry hentry
  rcases Table.mem_insert hentry with rfl | hold
  · exact hkey.imp_right Or.inl
  · refine (h entry hold).imp_right (Or.imp_right ?_)
    rintro ⟨other, hother, heq⟩
    obtain ⟨kept, hkept, hsame⟩ := horderly.exists_name hother hname type
    exact ⟨kept, hkept, hsame.trans heq⟩

section Steps

variable {doc : Document} {first second : Mapping} {event : Event} {events : List Event}

/-- A step that stores nothing that was written in place keeps names and entries orderly. -/
theorem Step.orderly (step : Step doc first event second) (hhoists : Event.hoists [event] = [])
    (h : Orderly first) (hlocated : Located doc first) : Orderly second ∧ Located doc second := by
  cases step with
  | report => exact ⟨h.congr rfl rfl, hlocated⟩
  | name key => exact ⟨h.resolveAs key (isTypeName_typeName _), hlocated⟩
  | enter key => exact ⟨h.congr rfl rfl, hlocated⟩
  | leave key name above schema type hchain htarget hname =>
    have habove : Orderly { first with chain := above } := h.congr rfl rfl
    have hlocated' : Located doc { first with chain := above } := hlocated
    exact ⟨habove.store hname type,
      hlocated'.store habove hname (Or.inl (Option.isSome_of_eq_some htarget)) type⟩
  | hoist => cases hhoists

/-- **Orderly names.** A run that stores nothing that was written in place keeps names and entries
orderly. -/
theorem Run.orderly (run : Run doc first events second) (hhoists : Event.hoists events = [])
    (h : Orderly first) (hlocated : Located doc first) : Orderly second ∧ Located doc second := by
  induction run with
  | nil => exact ⟨h, hlocated⟩
  | @cons _ _ _ event _ step _ ih =>
    obtain ⟨hfirst, hrest⟩ := List.append_eq_nil_iff.mp
      ((Event.hoists_append [event] _).symm.trans hhoists)
    obtain ⟨horderly, hmiddle⟩ := step.orderly hfirst h hlocated
    exact ih hrest horderly hmiddle

end Steps

/-! ### The start -/

/-- What else holds while component schemas get their names and places. -/
private structure Reserving (keys : List String) (state : Mapping) : Prop where
  orderly : Orderly state
  keyed : ∀ entry ∈ state.table.entries, entry.key ∈ keys
  /-- Names that are not free belong to entries. -/
  taken : ∀ name ∈ state.names.taken, name ∈ Registry.generatedNames ∨
    ∃ entry ∈ state.table.entries, entry.name = name
  /-- The fallback name of a key is not free. -/
  asked : ∀ key name, state.names.name? key = some name → fallbackName key ∈ state.names.taken

/-- Reserving a further key of the list leaves only such keys reserved. -/
private theorem Reserving.reserve {keys : List String} {state : Mapping} (h : Reserving keys state)
    {key : String} (hkey : key ∈ keys) : Reserving keys (state.reserve key) := by
  have hname := Registry.name?_resolve_self state.names key
  have hresolved := h.orderly.resolveAs key (isTypeName_typeName (Reference.lastSegment key))
  refine ⟨hresolved.insert hname .unknown, fun entry hentry => ?_, fun name htaken => ?_,
    fun other name hother => ?_⟩
  · rcases Table.mem_insert hentry with rfl | hold
    · exact hkey
    · exact h.keyed entry hold
  · rcases Registry.mem_taken_resolveAs htaken with rfl | hold
    · exact Or.inr ⟨_, Table.mem_insert_self _ key _ .unknown, rfl⟩
    · refine (h.taken name hold).imp_right ?_
      rintro ⟨entry, hentry, rfl⟩
      exact hresolved.exists_name hentry hname .unknown
  · rcases hold : state.names.name? other with _ | old
    -- The only key that has a new name is the one that is reserved.
    · have heq : other = key := by
        by_contra hne
        rw [show (state.reserve key).names.name? other = state.names.name? other from
          Registry.name?_resolveAs_of_ne _ hne _, hold] at hother
        cases hother
      rw [heq] at hold ⊢
      exact Registry.mem_taken_resolveAs_self hold _
    · exact Registry.taken_subset_resolveAs _ key _ (h.asked other old hold)

/-- At the start only the keys of the components are reserved. -/
private theorem reserving_start (doc : Document) :
    Reserving (doc.schemas.map fun schema => Reference.componentKey schema.1) (start doc) := by
  have hfold (keys more : List String) (hsubset : more ⊆ keys) (state : Mapping)
      (h : Reserving keys state) : Reserving keys (more.foldl reserve state) := by
    induction more generalizing state with
    | nil => exact h
    | cons key more ih =>
      obtain ⟨hkey, hmore⟩ := List.cons_subset.mp hsubset
      exact ih hmore _ (h.reserve hkey)
  refine hfold _ _ (List.Subset.refl _) {} ⟨⟨Registry.distinct_reserving _,
    Registry.all_reserving _ _, ?_, List.nodup_nil⟩, ?_, fun _ htaken => Or.inl htaken, ?_⟩
  · exact fun _ hmem => absurd hmem List.not_mem_nil
  · exact fun _ hmem => absurd hmem List.not_mem_nil
  · rintro _ _ ⟨⟩

theorem orderly_start (doc : Document) : Orderly (start doc) :=
  (reserving_start doc).orderly

/-- The entries at the start are those of the components. -/
theorem exists_component_of_mem_start {doc : Document} {entry : Entry}
    (h : entry ∈ (start doc).table.entries) :
    ∃ component ∈ doc.schemas, Reference.componentKey component.1 = entry.key :=
  List.mem_map.mp ((reserving_start doc).keyed entry h)

theorem located_start (doc : Document) : Located doc (start doc) := by
  intro entry hentry
  obtain ⟨component, hcomponent, hkey⟩ := exists_component_of_mem_start hentry
  by_cases hempty : component.1 = ""
  · -- The key of a component without a name has no target, but its name is that of an entry.
    right; right
    have hfallback : fallbackName entry.key ∉ Registry.generatedNames := by
      rw [← hkey, hempty]
      decide +kernel
    have hasked := (reserving_start doc).asked _ _ ((orderly_start doc).labelled entry hentry)
    exact ((reserving_start doc).taken _ hasked).resolve_left hfallback
  · left
    rw [← hkey]
    exact Document.isSome_target_of_mem_schemas hcomponent hempty

/-! ### References -/

/-- Whether a reference is called as its key is, or else by the fallback name of its key because
there is nothing that it refers to. -/
def Named (doc : Document) (state : Mapping) (reference : String × String) : Prop :=
  state.names.name? reference.1 = some reference.2 ∨
    ((doc.target reference.1).2 = none ∧ reference.2 = fallbackName reference.1)

/-- Whether the references in all entries are named. -/
def Tidy (doc : Document) (state : Mapping) : Prop :=
  ∀ entry ∈ state.table.entries, ∀ reference ∈ entry.type.references, Named doc state reference

section References

variable {doc : Document}

/-- Names are all that matters. -/
theorem Named.congr {state other : Mapping} {reference : String × String}
    (h : Named doc state reference) (hnames : other.names = state.names) :
    Named doc other reference := by
  rw [Named, hnames]
  exact h

/-- A reference that is called as it should be stays so while nothing is taken back. -/
theorem Named.extend {earlier later : Mapping} {reference : String × String}
    (h : Named doc earlier reference) (hextends : Extends earlier later) :
    Named doc later reference :=
  h.imp_left (hextends.names _ _)

/-- A named reference has the shape of a type's name. -/
theorem Named.isTypeName {state : Mapping} {reference : String × String}
    (h : Named doc state reference) (horderly : Orderly state) : IsTypeName reference.2 := by
  rcases h with hname | ⟨-, heq⟩
  · exact horderly.typeNames.of_name? hname
  · rw [heq]
    exact isTypeName_typeName _

/-- A table stays tidy as long as it is the same and nothing is taken back. -/
theorem Tidy.extend {earlier later : Mapping} (h : Tidy doc earlier)
    (hextends : Extends earlier later) (htable : later.table = earlier.table) :
    Tidy doc later := by
  intro entry hentry reference hreference
  rw [htable] at hentry
  exact (h entry hentry reference hreference).extend hextends

/-- Storing a type with named references keeps all of them named. -/
theorem Tidy.store {state : Mapping} (h : Tidy doc state) {key name : String} {type : Descriptor}
    (htype : ∀ reference ∈ type.references, Named doc state reference) :
    Tidy doc (state.store key name type) := by
  intro entry hentry reference hreference
  have hnamed : Named doc state reference := by
    rcases Table.mem_insert hentry with rfl | hold
    · exact htype reference hreference
    · exact h entry hold reference hreference
  exact hnamed.congr rfl

/-- A reference under the name of its key is called as it should be, if its key is reached or leads
nowhere. -/
private theorem named_nameOf {state : Mapping} (h : Coherent doc state) {key : String}
    (hreached : (doc.target key).2.isSome → state.Reached key) :
    Named doc state (key, nameOf doc state key) := by
  by_cases hkey : (doc.target key).2.isSome ∨ key ∈ state.mapped
  · obtain ⟨name, hname⟩ := Option.isSome_iff_exists.mp (h.named key (hkey.elim hreached Or.inl))
    left
    rw [nameOf, if_pos hkey, hname, Option.getD_some]
  · right
    refine ⟨Option.not_isSome_iff_eq_none.mp fun htarget => hkey (Or.inl htarget), ?_⟩
    rw [nameOf, if_neg hkey, fallbackName]

/-- The type of a schema whose visits come to a run has only named references. -/
theorem named_outline {depth : Nat} {schema : Schema} {pointer : String} {first second : Mapping}
    {log : List Descent} (h : ExpandsAll doc depth (schema.visits pointer) first log second)
    (hcoherent : Coherent doc first) :
    ∀ reference ∈ (schema.outline (nameOf doc second)).references,
      Named doc second reference := by
  intro reference hreference
  obtain ⟨hname, hreached⟩ := h.mem_references hreference
  have hnamed := named_nameOf (h.follows.coherent hcoherent) hreached
  rw [← hname] at hnamed
  exact hnamed

/-- Whatever following references does keeps the table tidy. -/
private theorem kept_tidy (doc : Document) : Kept doc (fun _ => True) (Tidy doc) where
  target _ _ _ _ _ _ := trivial
  report state diagnostic _ h := h.extend (Step.report state diagnostic : Step doc _ _ _).keeps rfl
  name state key h := h.extend (Step.name state key : Step doc _ _ _).keeps rfl
  enter _ _ h entry hentry reference hreference := (h entry hentry reference hreference).congr rfl
  leave _ _ _ _ _ _ second _ hinner hcoherent h := by
    -- What is above plays no role for names.
    have hbelow : Tidy doc { second with chain := second.chain.tail } :=
      fun entry hentry reference hreference => (h entry hentry reference hreference).congr rfl
    refine hbelow.store fun reference hreference => ?_
    exact (named_outline hinner hcoherent reference hreference).congr rfl

/-- **Named references.** Visits leave only named references in the entries. -/
theorem tidy_expandsAll (hclosed : doc.Closed) {visits : List Visit} {first second : Mapping}
    {log : List Descent} (h : ExpandsAll doc (depthLimit doc) visits first log second)
    (hcoherent : Coherent doc first) (htidy : Tidy doc first) : Tidy doc second :=
  (kept_tidy doc).expandsAll hclosed h hcoherent (fun _ _ => trivial) htidy

/-- The table is tidy at the start, because the types in it are not known yet. -/
theorem tidy_start (doc : Document) : Tidy doc (start doc) := by
  intro entry hentry reference hreference
  rw [type_of_mem_start hentry] at hreference
  cases hreference

end References

end ClientGen.Mapping
