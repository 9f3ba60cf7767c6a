import ClientGen.Proofs.Mapping.Effects
import Mathlib.Logic.Relation

/-!
# Calls to the mapper

Whoever uses a mapping makes calls to it, one after another, each of which leads from one state
between two schemas to the next (`Proceeds`). During a call to map a schema the mapper makes further
calls of the same kind (`Call.Makes`): one for each schema inside that the type is made from
(`shape_congr`), and one for the target of a reference that is followed. Diagnostics are only ever
added, so that those of a call made on the way are among those of the whole call, in order
(`Call.MakesAll.during`).
-/

namespace ClientGen

open OpenApi

namespace Mapping

/-! ### Nothing else is used -/

section Congruence

variable {τ : Type} {f g : τ → MapM Descriptor} {keywords : Keywords τ} {pointer : String}

private theorem object_congr (h : ∀ part ∈ keywords.partsOfObject, f part = g part) :
    object (keywords.map f) = object (keywords.map g) := by
  obtain ⟨hdeclared, hrest⟩ := List.forall_mem_append.mp h
  rw [object, object, declared, declared, Keywords.properties_congr hdeclared,
    Keywords.additional_congr hrest]
  rfl

private theorem array_congr (h : ∀ part ∈ keywords.items.toList, f part = g part) :
    array (keywords.map f) = array (keywords.map g) := by
  rw [array, array, Keywords.items_congr h]

private theorem named_congr {name : String}
    (h : ∀ part ∈ keywords.partsOfType name, f part = g part) :
    named (keywords.map f) pointer name = named (keywords.map g) pointer name := by
  rw [Keywords.partsOfType] at h
  rw [named, named, typeNamed, typeNamed]
  split
  · rfl
  · split_ifs at h ⊢
    · exact array_congr h
    · exact object_congr h
    · rfl

/-- A list of type names gives the same union under two ways of mapping single names that agree on
all of its members. -/
private theorem collectTypes_congr {named other : String → MapM Descriptor} {names : List String}
    (h : ∀ name ∈ names, named name = other name) (types : List Descriptor) :
    collectTypes named types names = collectTypes other types names := by
  induction names generalizing types with
  | nil => rfl
  | cons name more ih =>
    obtain ⟨hname, hmore⟩ := List.forall_mem_cons.mp h
    simp only [collectTypes, hname, ih hmore]

/-- The type of a schema is made from the schemas that are used, and from no others. -/
theorem shape_congr (h : ∀ part ∈ keywords.used, f part = g part) :
    shape (keywords.map f) pointer = shape (keywords.map g) pointer := by
  rw [Keywords.used] at h
  rw [shape, shape, Keywords.form_map, Keywords.form_map]
  rcases hform : keywords.form with json | members | members | members | values | name | names |
    _ | _ | _ | _ <;> rw [hform] at h
  · rfl
  · dsimp only [Form.map] at h ⊢
    -- Beside `allOf` properties count as one more member.
    rw [conjuncts, conjuncts, Keywords.isSome_properties_map, Keywords.isSome_properties_map]
    split_ifs at h ⊢
    · obtain ⟨hmembers, hobject⟩ := List.forall_mem_append.mp h
      rw [List.map_congr_left hmembers, object_congr hobject]
    · rw [List.map_congr_left h]
  · exact congrArg (compose "oneOf" pointer _) (List.map_congr_left h)
  · exact congrArg (compose "anyOf" pointer _) (List.map_congr_left h)
  · rfl
  · exact named_congr h
  · have hnames : ∀ name ∈ names,
        named (keywords.map f) pointer name = named (keywords.map g) pointer name :=
      fun name hname => named_congr fun part hpart =>
        h part (List.mem_flatMap.mpr ⟨name, hname, hpart⟩)
    dsimp only [Form.map]
    rw [typesNamed, typesNamed, collectTypes_congr hnames]
  · exact object_congr h
  · exact array_congr h
  · rfl
  · rfl

/-- What is made of keywords is made from the schemas that are used, and from no others. -/
theorem interpret_congr (h : ∀ part ∈ keywords.used, f part = g part) :
    interpret (keywords.map f) pointer = interpret (keywords.map g) pointer := by
  rw [interpret, interpret, shape_congr h]
  rfl

end Congruence

/-! ### Visits of the schemas inside -/

namespace Visit

/-- Whether visits are those of certain parts, one part after another, with nothing but faults in
between. -/
inductive Threads : List (List Visit) → List Visit → Prop
  | nil : Threads [] []
  | part (part : List Visit) {parts : List (List Visit)} {visits : List Visit}
      (h : Threads parts visits) : Threads (part :: parts) (part ++ visits)
  | fault (diagnostic : Diagnostic) {parts : List (List Visit)} {visits : List Visit}
      (h : Threads parts visits) : Threads parts (.fault diagnostic :: visits)

namespace Threads

variable {parts more : List (List Visit)} {visits others : List Visit}

/-- Parts after parts are visited one after another. -/
theorem append (h : Threads parts visits) (h' : Threads more others) :
    Threads (parts ++ more) (visits ++ others) := by
  induction h with
  | nil => exact h'
  | part part _ ih =>
    rw [List.cons_append, List.append_assoc]
    exact .part part ih
  | fault diagnostic _ ih => exact .fault diagnostic ih

/-- Parts may be visited without any faults in between. -/
theorem flatten (parts : List (List Visit)) : Threads parts parts.flatten := by
  induction parts with
  | nil => exact .nil
  | cons part parts ih => exact .part part ih

/-- A single part is visited by itself. -/
theorem singleton (part : List Visit) : Threads [part] part := by
  have h := Threads.part part .nil
  rwa [List.append_nil] at h

/-- A single fault is visited without any parts. -/
theorem of_fault (diagnostic : Diagnostic) : Threads [] [.fault diagnostic] :=
  .fault diagnostic .nil

/-- The visits before a part are those of the parts before it. -/
theorem split {before after : List (List Visit)} {part : List Visit}
    (h : Threads (before ++ part :: after) visits) :
    ∃ earlier later, earlier ++ part ++ later = visits ∧ Threads before earlier ∧
      Threads after later := by
  generalize hparts : before ++ part :: after = parts at h
  induction h generalizing before with
  | nil => exact absurd hparts (List.append_ne_nil_of_right_ne_nil _ (List.cons_ne_nil _ _))
  | @part first parts visits h ih =>
    rcases before with _ | ⟨other, before⟩
    · obtain ⟨rfl, rfl⟩ := List.cons.inj hparts
      exact ⟨[], visits, rfl, .nil, h⟩
    · obtain ⟨rfl, hrest⟩ := List.cons.inj hparts
      obtain ⟨earlier, later, rfl, hearlier, hlater⟩ := ih hrest
      refine ⟨other ++ earlier, later, ?_, .part other hearlier, hlater⟩
      simp only [List.append_assoc]
  | fault diagnostic _ ih =>
    obtain ⟨earlier, later, rfl, hearlier, hlater⟩ := ih hparts
    exact ⟨.fault diagnostic :: earlier, later, rfl, .fault diagnostic hearlier, hlater⟩

end Threads

section Threads

variable {keywords : Keywords (List Visit)}

private theorem threads_object : Threads keywords.partsOfObject (object keywords) := by
  refine (Threads.flatten _).append ?_
  rcases keywords.rest with _ | rest
  · exact .nil
  · exact .singleton rest

private theorem threads_array : Threads keywords.items.toList (array keywords) := by
  rw [array]
  rcases keywords.items with _ | item
  · exact .nil
  · exact .singleton item

/-- A name that is not known is a fault, and has no parts. -/
private theorem threads_typeNamed (pointer name : String) :
    Threads (keywords.partsOfType name) (typeNamed keywords pointer name) := by
  rw [Keywords.partsOfType, typeNamed]
  split_ifs with harray hobject
  · rw [harray]
    exact threads_array
  · rw [hobject]
    exact threads_object
  · rcases scalarKind? name with _ | kind
    · exact .of_fault _
    · exact .nil

/-- A list of type names makes the visits of the parts that belong to each of them in turn. -/
private theorem threads_typesNamed (pointer : String) (names : List String) :
    Threads (names.flatMap keywords.partsOfType)
      (names.flatMap (typeNamed keywords pointer)) := by
  induction names with
  | nil => exact .nil
  | cons name names ih => exact (threads_typeNamed pointer name).append ih

/-- Literals have no parts, so that all their visits are faults. -/
private theorem threads_literals (pointer : String) (values : List Json) :
    Threads [] (literals pointer values) := by
  induction values with
  | nil => exact .nil
  | cons value more ih =>
    rw [literals]
    split
    · exact ih
    · exact .fault _ ih

/-- Parts with at most one fault behind them. -/
private theorem Threads.faultIf {parts : List (List Visit)} {visits : List Visit}
    (h : Threads parts visits) (condition : Bool) (diagnostic : Diagnostic) :
    Threads parts (visits ++ if condition then [.fault diagnostic] else []) := by
  rw [← List.append_nil parts]
  refine h.append ?_
  split_ifs
  · exact .of_fault diagnostic
  · exact .nil

/-- The visits of keywords are those of the schemas inside that their type is made from, in
order. -/
theorem threads_shape (keywords : Keywords (List Visit)) (pointer : String) :
    Threads keywords.used (shape keywords pointer) := by
  rw [Keywords.used, shape]
  rcases keywords.form with json | members | members | members | values | name | names | _ | _ |
    _ | _
  · dsimp only
    rw [constant]
    split
    · exact .nil
    · exact .of_fault _
  · refine Threads.faultIf ?_ _ _
    dsimp only
    rw [conjuncts]
    split_ifs
    · -- The object is visited behind the members, as one more.
      rw [List.flatten_append, List.flatten_singleton]
      exact (Threads.flatten members).append threads_object
    · exact .flatten members
  · exact (Threads.flatten members).faultIf _ _
  · exact (Threads.flatten members).faultIf _ _
  · exact (threads_literals pointer values).faultIf _ _
  · exact threads_typeNamed pointer name
  · exact (threads_typesNamed pointer names).faultIf _ _
  · exact threads_object
  · exact threads_array
  · exact .of_fault _
  · exact .of_fault _

end Threads

end Visit

/-- The visits of a schema without a reference are those of the schemas inside that its type is made
from, in order. -/
theorem threads_visits {schema : Schema} (href : schema.ref = none) (pointer : String) :
    Visit.Threads ((schema.keywords pointer).used.map fun part => part.1.visits part.2)
      (schema.visits pointer) := by
  rw [Schema.visits, Schema.fold_eq, href, ← Keywords.used_map]
  exact Visit.threads_shape _ pointer

/-- Before one of the schemas inside, a schema visits those before it. -/
theorem split_visits {schema : Schema} {pointer : String} (href : schema.ref = none)
    {part : Schema × String} {before after : List (Schema × String)}
    (hused : (schema.keywords pointer).used = before ++ part :: after) :
    ∃ earlier later, earlier ++ part.1.visits part.2 ++ later = schema.visits pointer ∧
      Visit.Threads (before.map fun part => part.1.visits part.2) earlier := by
  have hthreads := threads_visits href pointer
  rw [hused, List.map_append, List.map_cons] at hthreads
  obtain ⟨earlier, later, hvisits, hearlier, -⟩ := hthreads.split
  exact ⟨earlier, later, hvisits, hearlier⟩

/-- The visits of a schema without a reference include those of each schema inside that its type is
made from. -/
theorem infix_visits {schema : Schema} {pointer : String} (href : schema.ref = none)
    {part : Schema × String} (h : part ∈ (schema.keywords pointer).used) :
    part.1.visits part.2 <:+: schema.visits pointer := by
  obtain ⟨before, after, hused⟩ := List.append_of_mem h
  obtain ⟨earlier, later, hvisits, -⟩ := split_visits href hused
  exact ⟨earlier, later, hvisits⟩

/-! ### Visits as runs -/

section Visits

variable {doc : Document} (hclosed : doc.Closed) {state : Mapping} (hcoherent : Coherent doc state)
include hclosed hcoherent

/-- Visits that start in a coherent state can be made within the depth limit. -/
theorem exists_expandsAll (visits : List Visit) :
    ∃ log, ExpandsAll doc (depthLimit doc) visits state log
      (Visit.runAll (mapReference doc) visits state) := by
  obtain ⟨log, later, hlater⟩ := expandsAll_of_forall
    (fun path state hcoherent hfits => expand_run hclosed hcoherent hfits) hcoherent
    fun path _ => fits_depthLimit doc state.chain path
  obtain rfl : Visit.runAll (mapReference doc) visits state = later := hlater.run
  exact ⟨log, hlater⟩

theorem coherent_runAll (visits : List Visit) :
    Coherent doc (Visit.runAll (mapReference doc) visits state) := by
  obtain ⟨log, hexpands⟩ := exists_expandsAll hclosed hcoherent visits
  exact hexpands.follows.coherent hcoherent

/-- Visits only add diagnostics. -/
theorem diagnostics_prefix_runAll (visits : List Visit) :
    state.diagnostics <+: (Visit.runAll (mapReference doc) visits state).diagnostics := by
  obtain ⟨log, hexpands⟩ := exists_expandsAll hclosed hcoherent visits
  obtain ⟨new, hnew, -⟩ := adds_expandsAll hclosed hexpands hcoherent
  exact ⟨new, hnew.symm⟩

/-- Mapping a schema makes its visits, and gives its outline. -/
theorem mapSchema_eq (schema : Schema) (pointer : String) :
    (mapSchema doc schema pointer).run state =
      (schema.outline (nameOf doc (Visit.runAll (mapReference doc) (schema.visits pointer) state)),
        Visit.runAll (mapReference doc) (schema.visits pointer) state) := by
  obtain ⟨log, later, hlater, hrun⟩ := mapSchema_run hclosed schema pointer hcoherent
  obtain rfl : Visit.runAll (mapReference doc) (schema.visits pointer) state = later := hlater.run
  exact hrun

end Visits

theorem runAll_append (onRef : String → MapM Descriptor) (visits more : List Visit)
    (state : Mapping) :
    Visit.runAll onRef (visits ++ more) state =
      Visit.runAll onRef more (Visit.runAll onRef visits state) :=
  List.foldl_append

/-! ### Calls made by the mapper -/

/-- A call to map the schema at a pointer, with the state in which it is made. -/
structure Call where
  schema : Schema
  pointer : String
  before : Mapping

namespace Call

/-- The type that a call gives. -/
def type (doc : Document) (call : Call) : Descriptor :=
  ((mapSchema doc call.schema call.pointer).run call.before).1

/-- The state that a call leaves. -/
def after (doc : Document) (call : Call) : Mapping :=
  ((mapSchema doc call.schema call.pointer).run call.before).2

/-- Whether one call makes another. A schema inside is mapped after the visits that come before its
own ones, and the target of a reference once its key has a name and has been descended into. -/
inductive Makes (doc : Document) : Call → Call → Prop
  | part {call : Call} {part : Schema × String} {earlier later : List Visit}
      (href : call.schema.ref = none) (hpart : part ∈ (call.schema.keywords call.pointer).used)
      (hvisits : earlier ++ part.1.visits part.2 ++ later = call.schema.visits call.pointer) :
      Makes doc call ⟨part.1, part.2, Visit.runAll (mapReference doc) earlier call.before⟩
  | target {call : Call} {path : String} {schema : Schema} (href : call.schema.ref = some path)
      (htarget : (doc.target path).2 = some schema)
      (hfresh : ¬call.before.Reached (doc.target path).1) :
      Makes doc call ⟨schema, (doc.target path).1, call.before.entered (doc.target path).1⟩

/-- Whether one call makes another, directly or through further calls, or is that call. -/
def MakesAll (doc : Document) : Call → Call → Prop :=
  Relation.ReflTransGen (Makes doc)

/-- How a call maps the schemas inside the one that it is made for. -/
structure MapsParts (doc : Document) (call : Call) : Prop where
  /-- Each schema that the type is made from is mapped once those before it have been visited. -/
  makes : ∀ before part after, (call.schema.keywords call.pointer).used = before ++ part :: after →
    ∃ earlier, Visit.Threads (before.map fun part => part.1.visits part.2) earlier ∧
      Makes doc call ⟨part.1, part.2, Visit.runAll (mapReference doc) earlier call.before⟩
  /-- What would be made of any other schema inside plays no role. -/
  others : ∀ map : Schema × String → MapM Descriptor,
    (∀ part ∈ (call.schema.keywords call.pointer).used, map part = mapSchema doc part.1 part.2) →
      interpret ((call.schema.keywords call.pointer).map map) call.pointer =
        mapSchema doc call.schema call.pointer

/-- A call for a schema without a reference maps exactly the schemas inside that its type is made
from, one after another. -/
theorem mapsParts (doc : Document) {call : Call} (href : call.schema.ref = none) :
    MapsParts doc call where
  makes before part after hused := by
    obtain ⟨earlier, later, hvisits, hearlier⟩ := split_visits href hused
    refine ⟨earlier, hearlier, .part href ?_ hvisits⟩
    rw [hused]
    exact List.mem_append_right before List.mem_cons_self
  others map hmap := by
    rw [interpret_congr hmap, mapSchema, Schema.translate, Schema.fold_eq, href]
    rfl

/-- Whether a call happens in the course of another, as far as can be seen from the diagnostics. -/
structure During (doc : Document) (outer inner : Call) : Prop where
  coherent : Coherent doc inner.before
  before : outer.before.diagnostics <+: inner.before.diagnostics
  after : (inner.after doc).diagnostics <+: (outer.after doc).diagnostics

namespace During

variable {doc : Document} {outer middle inner : Call}

theorem refl (h : Coherent doc outer.before) : During doc outer outer :=
  ⟨h, List.prefix_rfl, List.prefix_rfl⟩

theorem trans (h : During doc outer middle) (h' : During doc middle inner) :
    During doc outer inner :=
  ⟨h'.coherent, h.before.trans h'.before, h'.after.trans h.after⟩

end During

section During

variable {doc : Document} (hclosed : doc.Closed) {outer inner : Call}
include hclosed

/-- A call that another one makes happens in the course of it: it starts after some of the visits of
the other and ends before the rest of them. -/
private theorem Makes.during (h : Makes doc outer inner) (hcoherent : Coherent doc outer.before) :
    During doc outer inner := by
  cases h with
  | @part part earlier later href hpart hvisits =>
    have hbefore := coherent_runAll hclosed hcoherent earlier
    have hinner := coherent_runAll hclosed hbefore (part.1.visits part.2)
    refine ⟨hbefore, diagnostics_prefix_runAll hclosed hcoherent earlier, ?_⟩
    rw [after, after, mapSchema_eq hclosed hcoherent, mapSchema_eq hclosed hbefore, ← hvisits,
      runAll_append, runAll_append]
    exact diagnostics_prefix_runAll hclosed hinner later
  | @target path schema href htarget hfresh =>
    have hkey : (doc.target (doc.target path).1).2.isSome := by
      rw [Document.target_fst, Document.target_canonical, htarget]
      rfl
    refine ⟨(run_entered hkey hfresh).coherent hcoherent, List.prefix_rfl, ?_⟩
    have hreference : mapSchema doc outer.schema outer.pointer = mapReference doc path := by
      rw [mapSchema, Schema.translate, Schema.fold_eq, href]
    -- Storing the type of the target records nothing.
    rw [after, after, hreference, mapReference_of_target hclosed hcoherent hfresh htarget]
    exact List.prefix_rfl

/-- **Calls.** Whatever calls are made on the way, their diagnostics are among those of the whole
call, in order. -/
theorem MakesAll.during (h : MakesAll doc outer inner) (hcoherent : Coherent doc outer.before) :
    During doc outer inner := by
  induction h with
  | refl => exact .refl hcoherent
  | tail _ hmakes ih => exact ih.trans (hmakes.during hclosed ih.coherent)

end During

end Call

/-! ### Calls made to the mapper -/

/-- Whether calls to the mapper lead from one state to another. Types that were written in place
and stored on the way are listed with their keys. -/
inductive Proceeds (doc : Document) (first : Mapping) : List (String × Descriptor) → Mapping → Prop
  | refl : Proceeds doc first [] first
  | components {stored : List (String × Descriptor)} {state : Mapping}
      (h : Proceeds doc first stored state) :
      Proceeds doc first stored ((mapComponents doc).run state).2
  | schema {stored : List (String × Descriptor)} {state : Mapping}
      (h : Proceeds doc first stored state) (schema : Schema) (pointer : String) :
      Proceeds doc first stored ((mapSchema doc schema pointer).run state).2
  | hoist {stored : List (String × Descriptor)} {state : Mapping}
      (h : Proceeds doc first stored state) (key base : String) (type : Descriptor) :
      Proceeds doc first (stored ++ [(key, type)]) ((Mapping.hoist key base type).run state).2
  | report {stored : List (String × Descriptor)} {state : Mapping}
      (h : Proceeds doc first stored state) (pointer : String) (reason : Degradation) :
      Proceeds doc first stored ((Mapping.report pointer reason).run state).2

namespace Proceeds

variable {doc : Document} {first second : Mapping} {stored : List (String × Descriptor)}

/-- A run is continued by visits, which hoist nothing and end with an empty chain again. -/
private theorem exists_run_of_expandsAll {events : List Event} {visits : List Visit}
    {log : List Descent} (run : Run doc first events second) (hchain : second.chain = [])
    {last : Mapping} (h : ExpandsAll doc (depthLimit doc) visits second log last) :
    ∃ all, Run doc first all last ∧ Event.hoists all = Event.hoists events ∧ last.chain = [] := by
  obtain ⟨more, next, hhoists, -, hback⟩ := h.follows
  refine ⟨events ++ more, run.append next, ?_, hback.trans hchain⟩
  rw [Event.hoists_append, hhoists, List.append_nil]

/-- Calls are runs. -/
theorem exists_run (hclosed : doc.Closed) (h : Proceeds doc first stored second)
    (hidle : Idle doc first) :
    ∃ events, Run doc first events second ∧ Event.hoists events = stored.map Prod.fst ∧
      second.chain = [] := by
  induction h with
  | refl => exact ⟨[], .nil first, rfl, hidle.chain⟩
  | components _ ih =>
    obtain ⟨events, run, hhoists, hchain⟩ := ih
    obtain ⟨log, later, hlater, hmap⟩ := mapComponents_run hclosed (run.coherent hidle.coherent)
    rw [hmap, ← hhoists]
    exact exists_run_of_expandsAll run hchain hlater
  | schema _ schema pointer ih =>
    obtain ⟨events, run, hhoists, hchain⟩ := ih
    obtain ⟨log, later, hlater, hmap⟩ :=
      mapSchema_run hclosed schema pointer (run.coherent hidle.coherent)
    rw [hmap, ← hhoists]
    exact exists_run_of_expandsAll run hchain hlater
  -- Only hoisting stores a type that was written in place.
  | @hoist _ state _ key base type ih =>
    obtain ⟨events, run, hhoists, hchain⟩ := ih
    refine ⟨events ++ [.hoist key type],
      run.append (.single (.hoist state key (Identifier.typeName base) type hchain)), ?_, hchain⟩
    rw [Event.hoists_append, hhoists, List.map_append]
    rfl
  | @report _ state _ pointer reason ih =>
    obtain ⟨events, run, hhoists, hchain⟩ := ih
    refine ⟨events ++ [.quiet], run.append (.single (.report state ⟨pointer, reason⟩)), ?_, hchain⟩
    rw [Event.hoists_append, hhoists]
    exact List.append_nil _

/-- Calls to the mapper lead from one state between two schemas to another. -/
theorem idle (hclosed : doc.Closed) (h : Proceeds doc first stored second)
    (hidle : Idle doc first) : Idle doc second := by
  obtain ⟨events, run, -, hchain⟩ := h.exists_run hclosed hidle
  exact ⟨run.coherent hidle.coherent, hchain⟩

end Proceeds

end Mapping

end ClientGen
