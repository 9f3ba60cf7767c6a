import ClientGen.Proofs.Descriptor.Table
import ClientGen.Proofs.Mapping.Outline
import ClientGen.Proofs.OpenApi.References
import ClientGen.Proofs.Registry

/-!
# Mapping as a transition system

A mapping changes its state in five ways only (`Step`): it records a fault, gives a key a name,
descends into the target of a key, stores the type of the key it descended into last, or stores a
type that was written in place. A run is a sequence of such steps. What every step keeps, every run
keeps: names and finished keys are never taken back (`Run.keeps`), the keys above one another and
the finished ones are all different and named (`Run.coherent`), references in entries are resolved
(`Run.settled`), no key is descended into twice
(`Run.nodup_descents`), and the types of finished keys are the outlines of their targets
(`Run.translated`).
-/

namespace ClientGen.Mapping

open OpenApi

/-! ### States -/

/-- Whether the schema of a key has been reached. -/
def Reached (state : Mapping) (key : String) : Prop :=
  key ∈ state.mapped ∨ key ∈ state.chain

/-- Whether a reference to a key that has a target is declared under the right name. -/
def Resolved (doc : Document) (state : Mapping) (reference : String × String) : Prop :=
  (doc.target reference.1).2.isSome →
    state.names.name? reference.1 = some reference.2 ∧ state.Reached reference.1

/-- What holds of a state at any time. -/
structure Coherent (doc : Document) (state : Mapping) : Prop where
  /-- Reached keys have names. -/
  named : ∀ key, state.Reached key → (state.names.name? key).isSome
  /-- Only targets are descended into. -/
  target : ∀ key ∈ state.chain, (doc.target key).2.isSome
  nodup : state.chain.Nodup
  disjoint : ∀ key ∈ state.chain, key ∉ state.mapped
  /-- Finished keys have entries, which are called as they are. -/
  entry : ∀ key ∈ state.mapped, ∃ entry, state.table.get? key = some entry ∧
    state.names.name? key = some entry.name

/-- Whether the references in all entries are resolved. -/
def Settled (doc : Document) (state : Mapping) : Prop :=
  ∀ entry ∈ state.table.entries, ∀ reference ∈ entry.type.references,
    Resolved doc state reference

/-- Whether a later state has all names and reached keys of an earlier one. -/
structure Extends (earlier later : Mapping) : Prop where
  names : ∀ key name, earlier.names.name? key = some name → later.names.name? key = some name
  mapped : earlier.mapped ⊆ later.mapped
  reached : ∀ key, earlier.Reached key → later.Reached key

theorem Extends.refl (state : Mapping) : Extends state state :=
  ⟨fun _ _ => id, List.Subset.refl _, fun _ => id⟩

theorem Extends.trans {first second third : Mapping} (h : Extends first second)
    (h' : Extends second third) : Extends first third :=
  ⟨fun key name hname => h'.names key name (h.names key name hname),
    List.Subset.trans h.mapped h'.mapped,
    fun key hkey => h'.reached key (h.reached key hkey)⟩

/-- What a reference is resolved to is not taken back. -/
theorem Resolved.extend {doc : Document} {earlier later : Mapping} {reference : String × String}
    (h : Resolved doc earlier reference) (hextends : Extends earlier later) :
    Resolved doc later reference := by
  intro htarget
  obtain ⟨hname, hreached⟩ := h htarget
  exact ⟨hextends.names _ _ hname, hextends.reached _ hreached⟩

/-! ### Steps -/

/-- A descent into the target of a key, from within the targets of the keys above it. -/
structure Descent where
  key : String
  above : List String
deriving DecidableEq, Repr

/-- What can be seen of a step. -/
inductive Event
  | quiet
  | enter (descent : Descent)
  | leave (key : String)
  | hoist (key : String) (type : Descriptor)

namespace Event

/-- The descents among events. -/
def descents (events : List Event) : List Descent :=
  events.filterMap fun
    | enter descent => some descent
    | _ => none

/-- The keys under which events stored a type that was written in place. -/
def hoists (events : List Event) : List String :=
  events.filterMap fun
    | hoist key _ => some key
    | _ => none

theorem descents_append (events more : List Event) :
    descents (events ++ more) = descents events ++ descents more :=
  List.filterMap_append

theorem hoists_append (events more : List Event) :
    hoists (events ++ more) = hoists events ++ hoists more :=
  List.filterMap_append

end Event

/-- One step of a mapping of a document. -/
inductive Step (doc : Document) : Mapping → Event → Mapping → Prop
  | report (state : Mapping) (diagnostic : Diagnostic) :
    Step doc state .quiet { state with diagnostics := state.diagnostics ++ [diagnostic] }
  | name (state : Mapping) (key : String) :
    Step doc state .quiet { state with names := (state.names.resolve key).2 }
  | enter (state : Mapping) (key : String) (htarget : (doc.target key).2.isSome)
      (hnamed : (state.names.name? key).isSome) (hfresh : ¬state.Reached key) :
    Step doc state (.enter ⟨key, state.chain⟩) { state with chain := key :: state.chain }
  | leave (state : Mapping) (key name : String) (above : List String) (schema : Schema)
      (type : Descriptor) (hchain : state.chain = key :: above)
      (htarget : (doc.target key).2 = some schema) (hname : state.names.name? key = some name)
      (htype : ∀ g, type.named g = schema.outline g)
      (hresolved : ∀ reference ∈ type.references, Resolved doc state reference) :
    Step doc state (.leave key) ({ state with chain := above }.store key name type)
  | hoist (state : Mapping) (key base : String) (type : Descriptor) (hchain : state.chain = []) :
    Step doc state (.hoist key type)
      ({ state with names := (state.names.resolveAs key base).2 }.store key
        (state.names.resolveAs key base).1 type)

/-- Steps one after another. -/
inductive Run (doc : Document) : Mapping → List Event → Mapping → Prop
  | nil (state : Mapping) : Run doc state [] state
  | cons {first second third : Mapping} {event : Event} {events : List Event}
      (step : Step doc first event second) (run : Run doc second events third) :
    Run doc first (event :: events) third

variable {doc : Document} {first second third : Mapping} {event : Event} {events more : List Event}

theorem Run.single (step : Step doc first event second) : Run doc first [event] second :=
  .cons step (.nil _)

theorem Run.append (run : Run doc first events second) (next : Run doc second more third) :
    Run doc first (events ++ more) third := by
  induction run with
  | nil => exact next
  | cons step _ ih => exact .cons step (ih next)

/-! ### What a step keeps -/

/-- Storing a type finishes its key and no other. -/
theorem mem_mapped_store {state : Mapping} {key name other : String} {type : Descriptor} :
    other ∈ (state.store key name type).mapped ↔ other = key ∨ other ∈ state.mapped := by
  simp only [store]
  split_ifs with h
  · refine ⟨Or.inr, ?_⟩
    rintro (rfl | hmem)
    · exact List.contains_iff_mem.mp h
    · exact hmem
  · exact List.mem_cons

/-- A step takes nothing back, whatever it does. -/
theorem Step.keeps (step : Step doc first event second) : Extends first second := by
  cases step with
  | report => exact ⟨fun _ _ => id, List.Subset.refl _, fun _ => id⟩
  | name key =>
    exact ⟨fun _ _ h => Registry.name?_resolve_of_name? h key, List.Subset.refl _, fun _ => id⟩
  | enter =>
    exact ⟨fun _ _ => id, List.Subset.refl _, fun _ => Or.imp_right (List.mem_cons_of_mem _)⟩
  | leave key name above schema type hchain =>
    refine ⟨fun _ _ => id, fun _ h => mem_mapped_store.mpr (Or.inr h), fun other hreached => ?_⟩
    rcases hreached with hmapped | hchained
    · exact Or.inl (mem_mapped_store.mpr (Or.inr hmapped))
    · rw [hchain] at hchained
      rcases List.mem_cons.mp hchained with rfl | habove
      · exact Or.inl (mem_mapped_store.mpr (Or.inl rfl))
      · exact Or.inr habove
  | hoist key base =>
    exact ⟨fun _ _ h => Registry.name?_resolveAs_of_name? h key base,
      fun _ h => mem_mapped_store.mpr (Or.inr h),
      fun _ => Or.imp_left fun h => mem_mapped_store.mpr (Or.inr h)⟩

/-- Storing the type of a key keeps a state coherent, where the keys above and the names may change
at the same time as long as nothing is lost. -/
private theorem coherent_store {state : Mapping} (h : Coherent doc state) (base : Mapping)
    (htable : base.table = state.table) (hmapped : base.mapped = state.mapped)
    (hchain : base.chain.Sublist state.chain) {key name : String} {type : Descriptor}
    (hkey : key ∉ base.chain) (hname : base.names.name? key = some name)
    (hextends : Extends state (base.store key name type)) :
    Coherent doc (base.store key name type) where
  -- Names are never taken back, so that only the stored key has to be looked at.
  named other hreached := by
    have hold (hreached : state.Reached other) : (base.names.name? other).isSome := by
      obtain ⟨old, hold⟩ := Option.isSome_iff_exists.mp (h.named other hreached)
      exact Option.isSome_of_eq_some (hextends.names other old hold)
    rcases hreached with hmem | hmem
    · rcases mem_mapped_store.mp hmem with rfl | hmem
      · exact Option.isSome_of_eq_some hname
      · exact hold (Or.inl (hmapped ▸ hmem))
    · exact hold (Or.inr (hchain.subset hmem))
  target other hmem := h.target other (hchain.subset hmem)
  nodup := h.nodup.sublist hchain
  -- A key that is stored is not above any more.
  disjoint other hmem hstored := by
    rcases mem_mapped_store.mp hstored with rfl | hold
    · exact hkey hmem
    · exact h.disjoint other (hchain.subset hmem) (hmapped ▸ hold)
  entry other hmem := by
    by_cases heq : key = other
    · rw [← heq]
      exact ⟨_, Table.get?_insert_self _ _ _ _, hname⟩
    · have hold := (mem_mapped_store.mp hmem).resolve_left fun hother => heq hother.symm
      obtain ⟨entry, hget, hnamed⟩ := h.entry other (hmapped ▸ hold)
      refine ⟨entry, ?_, hextends.names other entry.name hnamed⟩
      exact (Table.get?_insert_of_ne _ heq _ _).trans (htable ▸ hget)

/-- **Coherence.** A step from a coherent state leads to a coherent state. -/
theorem Step.coherent (step : Step doc first event second) (h : Coherent doc first) :
    Coherent doc second := by
  have hextends := step.keeps
  cases step with
  | report => exact ⟨h.named, h.target, h.nodup, h.disjoint, h.entry⟩
  | name key =>
    refine ⟨fun other hreached => ?_, h.target, h.nodup, h.disjoint, fun other hmem => ?_⟩
    · obtain ⟨old, hold⟩ := Option.isSome_iff_exists.mp (h.named other hreached)
      exact Option.isSome_of_eq_some (hextends.names other old hold)
    · obtain ⟨entry, hget, hnamed⟩ := h.entry other hmem
      exact ⟨entry, hget, hextends.names other entry.name hnamed⟩
  | enter key htarget hnamed hfresh =>
    rw [Reached, not_or] at hfresh
    refine ⟨fun other hreached => ?_, List.forall_mem_cons.mpr ⟨htarget, h.target⟩,
      List.nodup_cons.mpr ⟨hfresh.2, h.nodup⟩, List.forall_mem_cons.mpr ⟨hfresh.1, h.disjoint⟩,
      h.entry⟩
    rcases hreached with hmem | hmem
    · exact h.named other (Or.inl hmem)
    · rcases List.mem_cons.mp hmem with rfl | hmem
      · exact hnamed
      · exact h.named other (Or.inr hmem)
  | leave key name above schema type hchain htarget hname htype hresolved =>
    -- A key that is left is not above itself.
    have hnodup := h.nodup
    rw [hchain] at hnodup
    refine coherent_store h { first with chain := above } rfl rfl ?_ (List.nodup_cons.mp hnodup).1
      hname hextends
    rw [hchain]
    exact List.sublist_cons_self key above
  | hoist key base type hchain =>
    refine coherent_store h { first with names := (first.names.resolveAs key base).2 } rfl rfl
      (List.Sublist.refl _) ?_ (Registry.name?_resolveAs_self _ _ _) hextends
    rw [hchain]
    exact List.not_mem_nil

/-- A step keeps the references in all entries resolved, if those in a type that was written in
place are. -/
theorem Step.settled (step : Step doc first event second) (h : Settled doc first)
    (hhoist : ∀ key type, event = .hoist key type →
      ∀ reference ∈ type.references, Resolved doc first reference) :
    Settled doc second := by
  have hextends := step.keeps
  intro entry hentry reference hreference
  have hkept (hold : entry ∈ first.table.entries) : Resolved doc second reference :=
    (h entry hold reference hreference).extend hextends
  -- Only leaving a target and hoisting add entries.
  cases step with
  | report => exact hkept hentry
  | name => exact hkept hentry
  | enter => exact hkept hentry
  | leave key name above schema type hchain htarget hname htype hresolved =>
    rcases Table.mem_insert hentry with rfl | hold
    · exact (hresolved reference hreference).extend hextends
    · exact hkept hold
  | hoist key base type hchain =>
    rcases Table.mem_insert hentry with rfl | hold
    · exact (hhoist key type rfl reference hreference).extend hextends
    · exact hkept hold

/-! ### What a run keeps -/

theorem Run.keeps (run : Run doc first events second) : Extends first second := by
  induction run with
  | nil state => exact .refl state
  | cons step _ ih => exact step.keeps.trans ih

/-- A step adds entries only under keys that it finishes. -/
theorem Step.mapped_of_mem (step : Step doc first event second) {entry : Entry}
    (h : entry ∈ second.table.entries) :
    (∃ old ∈ first.table.entries, old.key = entry.key) ∨ entry.key ∈ second.mapped := by
  have hkept (hold : entry ∈ first.table.entries) :
      ∃ old ∈ first.table.entries, old.key = entry.key := ⟨entry, hold, rfl⟩
  cases step with
  | report => exact Or.inl (hkept h)
  | name => exact Or.inl (hkept h)
  | enter => exact Or.inl (hkept h)
  | leave =>
    rcases Table.mem_insert h with rfl | hold
    · exact Or.inr (mem_mapped_store.mpr (Or.inl rfl))
    · exact Or.inl (hkept hold)
  | hoist =>
    rcases Table.mem_insert h with rfl | hold
    · exact Or.inr (mem_mapped_store.mpr (Or.inl rfl))
    · exact Or.inl (hkept hold)

/-- The key of an entry that a run adds is finished. -/
theorem Run.mapped_of_mem (run : Run doc first events second) {entry : Entry}
    (h : entry ∈ second.table.entries) :
    (∃ old ∈ first.table.entries, old.key = entry.key) ∨ entry.key ∈ second.mapped := by
  induction run with
  | nil => exact Or.inl ⟨entry, h, rfl⟩
  | cons step run ih =>
    rcases ih h with ⟨middle, hmiddle, hkey⟩ | hmapped
    · rw [← hkey]
      exact (step.mapped_of_mem hmiddle).imp_right fun hmem => run.keeps.mapped hmem
    · exact Or.inr hmapped

theorem Run.coherent (run : Run doc first events second) (h : Coherent doc first) :
    Coherent doc second := by
  induction run with
  | nil => exact h
  | cons step _ ih => exact ih (step.coherent h)

/-- Without anything written in place, a run keeps the references in all entries resolved. -/
theorem Run.settled (run : Run doc first events second) (hhoists : Event.hoists events = [])
    (h : Settled doc first) : Settled doc second := by
  induction run with
  | nil => exact h
  | @cons _ _ _ event _ step _ ih =>
    have hfirst : ∀ key type, event ≠ .hoist key type := by
      rintro key type rfl
      cases hhoists
    have hrest : Event.hoists _ = [] := (List.append_eq_nil_iff.mp
      ((Event.hoists_append [event] _).symm.trans hhoists)).2
    exact ih hrest (step.settled h fun key type heq => absurd heq (hfirst key type))

/-- **Every target at most once.** The keys that a run descends into are all different, were not
reached before and are reached afterwards; and no key is above itself. -/
theorem Run.nodup_descents (run : Run doc first events second) (h : Coherent doc first) :
    ((Event.descents events).map Descent.key).Nodup ∧
      ∀ descent ∈ Event.descents events, ¬first.Reached descent.key ∧
        second.Reached descent.key ∧ (descent.key :: descent.above).Nodup ∧
        (doc.target descent.key).2.isSome := by
  induction run with
  | nil => exact ⟨List.nodup_nil, fun _ hmem => absurd hmem List.not_mem_nil⟩
  | @cons first _ _ _ _ step run ih =>
    obtain ⟨hnodup, hdescents⟩ := ih (step.coherent h)
    have hextends := step.keeps
    -- The descents of the rest were not reached before the step either.
    have hrest (descent : Descent) (hmem : descent ∈ Event.descents _) :=
      (hdescents descent hmem).imp_left fun hfresh hreached =>
        hfresh (hextends.reached descent.key hreached)
    cases step with
    | enter key htarget hnamed hfresh =>
      have hentered : Reached { first with chain := key :: first.chain } key :=
        Or.inr List.mem_cons_self
      refine ⟨?_, List.forall_mem_cons.mpr ⟨⟨hfresh, run.keeps.reached key hentered, ?_, htarget⟩,
        hrest⟩⟩
      · refine List.nodup_cons.mpr ⟨fun hmem => ?_, hnodup⟩
        obtain ⟨descent, hdescent, rfl⟩ := List.mem_map.mp hmem
        exact (hdescents descent hdescent).1 hentered
      · exact List.nodup_cons.mpr ⟨fun hmem => hfresh (Or.inr hmem), h.nodup⟩
    | report => exact ⟨hnodup, hrest⟩
    | name => exact ⟨hnodup, hrest⟩
    | leave => exact ⟨hnodup, hrest⟩
    | hoist => exact ⟨hnodup, hrest⟩

/-- Whether events descend into the target of a key, or store a type under it. -/
def Touches (events : List Event) (key : String) : Prop :=
  key ∈ Event.hoists events ∨ ∃ descent ∈ Event.descents events, descent.key = key

theorem touches_append {key : String} :
    Touches (events ++ more) key ↔ Touches events key ∨ Touches more key := by
  simp only [Touches, Event.hoists_append, Event.descents_append, List.mem_append, or_and_right,
    exists_or]
  exact or_or_or_comm

/-- A step reaches the keys that its event touches, and no others. -/
theorem Step.reached_iff (step : Step doc first event second) {key : String} :
    second.Reached key ↔ first.Reached key ∨ Touches [event] key := by
  cases step with
  | report => simp [Reached, Touches, Event.hoists, Event.descents]
  | name => simp [Reached, Touches, Event.hoists, Event.descents]
  | enter entered =>
    simp only [Reached, Touches, Event.hoists, Event.descents, List.filterMap_cons,
      List.filterMap_nil, List.mem_cons, List.not_mem_nil, or_false, false_or, exists_eq_left]
    tauto
  | leave stored name above schema type hchain =>
    simp only [Reached, Touches, Event.hoists, Event.descents, List.filterMap_cons,
      List.filterMap_nil, mem_mapped_store, hchain, List.mem_cons, List.not_mem_nil, false_and,
      exists_false, or_false]
    tauto
  | hoist stored =>
    simp only [Reached, Touches, Event.hoists, Event.descents, List.filterMap_cons,
      List.filterMap_nil, mem_mapped_store, List.mem_cons, List.not_mem_nil, false_and,
      exists_false, or_false]
    tauto

/-- The keys that are reached in the end are those that were reached before or that the run
touches. -/
theorem Run.reached_iff (run : Run doc first events second) {key : String} :
    second.Reached key ↔ first.Reached key ∨ Touches events key := by
  induction run with
  | nil => simp [Touches, Event.hoists, Event.descents]
  | @cons _ _ _ event events step _ ih =>
    rw [ih, step.reached_iff, or_assoc, ← touches_append, List.singleton_append]

/-- Whether finished keys have the outlines of their targets as types, the keys in `hoisted` left
aside. -/
def Translated (doc : Document) (state : Mapping) (hoisted : List String) : Prop :=
  ∀ key ∈ state.mapped, key ∉ hoisted → ∃ entry schema, state.table.get? key = some entry ∧
    (doc.target key).2 = some schema ∧ ∀ g, entry.type.named g = schema.outline g

/-- A step finishes keys with the outlines of their targets, and those that it hoists are left aside
with the others. -/
theorem Step.translated (step : Step doc first event second) {hoisted : List String}
    (h : Translated doc first hoisted) :
    Translated doc second (hoisted ++ Event.hoists [event]) := by
  have hkept {key : String} (hmapped : key ∈ first.mapped)
      (hkey : key ∉ hoisted ++ Event.hoists [event]) :=
    h key hmapped fun hmem => hkey (List.mem_append_left _ hmem)
  intro key hmapped hkey
  cases step with
  | report => exact hkept hmapped hkey
  | name => exact hkept hmapped hkey
  | enter => exact hkept hmapped hkey
  | leave stored name above schema type hchain htarget hname htype =>
    by_cases heq : stored = key
    · rw [← heq]
      exact ⟨_, schema, Table.get?_insert_self _ _ _ _, htarget, htype⟩
    · obtain ⟨entry, target, hget, hrest⟩ := hkept
        ((mem_mapped_store.mp hmapped).resolve_left fun hother => heq hother.symm) hkey
      exact ⟨entry, target, (Table.get?_insert_of_ne _ heq _ _).trans hget, hrest⟩
  | hoist stored =>
    -- From here on the key that is stored is left aside.
    have heq : stored ≠ key := by
      rintro rfl
      exact hkey (List.mem_append_right _ List.mem_cons_self)
    obtain ⟨entry, target, hget, hrest⟩ := hkept
      ((mem_mapped_store.mp hmapped).resolve_left fun hother => heq hother.symm) hkey
    exact ⟨entry, target, (Table.get?_insert_of_ne _ heq _ _).trans hget, hrest⟩

/-- **Outlines.** The types of finished keys stay the outlines of their targets along a run, except
for those that are stored from what was written in place. -/
theorem Run.translated (run : Run doc first events second) {hoisted : List String}
    (h : Translated doc first hoisted) :
    Translated doc second (hoisted ++ Event.hoists events) := by
  induction run generalizing hoisted with
  | nil =>
    rw [show Event.hoists [] = [] from rfl, List.append_nil]
    exact h
  | @cons _ _ _ event events step _ ih =>
    have hall := ih (step.translated h)
    rw [List.append_assoc, ← Event.hoists_append] at hall
    exact hall

/-! ### Names -/

/-- How references to a key are named in a state. A key that has neither a target nor an entry is
called after its last segment. -/
def nameOf (doc : Document) (state : Mapping) (key : String) : String :=
  if (doc.target key).2.isSome ∨ key ∈ state.mapped then (state.names.name? key).getD ""
  else Identifier.typeName (Reference.lastSegment key)

/-- A reference under the name of its key is resolved, if its key is reached or leads nowhere. -/
theorem resolved_nameOf {state : Mapping} (h : Coherent doc state) {key : String}
    (hreached : (doc.target key).2.isSome → state.Reached key) :
    Resolved doc state (key, nameOf doc state key) := by
  intro htarget
  obtain ⟨name, hname⟩ := Option.isSome_iff_exists.mp (h.named key (hreached htarget))
  refine ⟨?_, hreached htarget⟩
  rw [nameOf, if_pos (Or.inl htarget), hname, Option.getD_some]

/-- Without anything written in place, only targets are finished. -/
theorem Run.target_of_mapped (run : Run doc first events second)
    (hhoists : Event.hoists events = [])
    {key : String} (hmapped : key ∈ second.mapped) :
    key ∈ first.mapped ∨ (doc.target key).2.isSome := by
  induction run with
  | nil => exact Or.inl hmapped
  | cons step _ ih =>
    cases step with
    | report => exact ih hhoists hmapped
    | name => exact ih hhoists hmapped
    | enter => exact ih hhoists hmapped
    | leave stored name above schema type hchain htarget =>
      refine (ih hhoists hmapped).elim (fun hstored => ?_) Or.inr
      rcases mem_mapped_store.mp hstored with rfl | hold
      · exact Or.inr (Option.isSome_of_eq_some htarget)
      · exact Or.inl hold
    | hoist => cases hhoists

/-- **Stable names.** Without anything written in place, a run does not change how references to a
key are named once the key has been reached, if it can be. -/
theorem Run.nameOf (run : Run doc first events second) (hhoists : Event.hoists events = [])
    (h : Coherent doc first) {key : String}
    (hreached : (doc.target key).2.isSome → first.Reached key) :
    Mapping.nameOf doc second key = Mapping.nameOf doc first key := by
  by_cases hkey : (doc.target key).2.isSome ∨ key ∈ first.mapped
  · have hfirst : first.Reached key := hkey.elim hreached Or.inl
    obtain ⟨name, hname⟩ := Option.isSome_iff_exists.mp (h.named key hfirst)
    have hsecond : (doc.target key).2.isSome ∨ key ∈ second.mapped :=
      hkey.imp_right fun hmem => run.keeps.mapped hmem
    rw [Mapping.nameOf, Mapping.nameOf, if_pos hkey, if_pos hsecond, hname,
      run.keeps.names key name hname]
  · -- A key that cannot be reached is not finished later either.
    have hsecond : ¬((doc.target key).2.isSome ∨ key ∈ second.mapped) := by
      rintro (htarget | hmapped)
      · exact hkey (Or.inl htarget)
      · exact hkey (run.target_of_mapped hhoists hmapped).symm
    rw [Mapping.nameOf, Mapping.nameOf, if_neg hkey, if_neg hsecond]

/-! ### The start -/

/-- Entries that are added by reservations have no type yet. -/
private theorem mem_entries_foldl_reserve {keys : List String} {state : Mapping} {entry : Entry}
    (h : entry ∈ (keys.foldl reserve state).table.entries) :
    entry ∈ state.table.entries ∨ entry.type = .unknown := by
  induction keys generalizing state with
  | nil => exact Or.inl h
  | cons key keys ih =>
    refine (ih h).elim (fun hentry => ?_) Or.inr
    rcases Table.mem_insert hentry with rfl | hold
    · exact Or.inr rfl
    · exact Or.inl hold

private theorem foldl_reserve (keys : List String) (state : Mapping) :
    (keys.foldl reserve state).chain = state.chain ∧
      (keys.foldl reserve state).mapped = state.mapped ∧
        (keys.foldl reserve state).diagnostics = state.diagnostics := by
  induction keys generalizing state with
  | nil => exact ⟨rfl, rfl, rfl⟩
  | cons key keys ih => exact ih (state.reserve key)

theorem chain_start (doc : Document) : (start doc).chain = [] :=
  (foldl_reserve _ _).1

theorem mapped_start (doc : Document) : (start doc).mapped = [] :=
  (foldl_reserve _ _).2.1

theorem diagnostics_start (doc : Document) : (start doc).diagnostics = [] :=
  (foldl_reserve _ _).2.2

theorem coherent_start (doc : Document) : Coherent doc (start doc) := by
  have hreached (key : String) : ¬(start doc).Reached key := by
    rw [Reached, mapped_start, chain_start]
    simp
  refine ⟨fun key h => absurd h (hreached key), fun key h => absurd (Or.inr h) (hreached key), ?_,
    fun key h => absurd (Or.inr h) (hreached key), fun key h => absurd (Or.inl h) (hreached key)⟩
  rw [chain_start]
  exact List.nodup_nil

/-- Nothing is known of any type at the start. -/
theorem type_of_mem_start {doc : Document} {entry : Entry}
    (h : entry ∈ (start doc).table.entries) : entry.type = .unknown :=
  (mem_entries_foldl_reserve h).resolve_left List.not_mem_nil

theorem settled_start (doc : Document) : Settled doc (start doc) := by
  intro entry hentry reference hreference
  rw [type_of_mem_start hentry] at hreference
  cases hreference

/-- At the start no key is finished, so that there is nothing to be translated. -/
theorem translated_start (doc : Document) : Translated doc (start doc) [] := by
  intro key hmapped
  rw [mapped_start] at hmapped
  cases hmapped

end ClientGen.Mapping
