import ClientGen.Proofs.Mapping.Entries
import ClientGen.Proofs.OpenApi.Source

/-!
# Components at the head of the table

Component schemas get their names and places before anything is mapped. A step stores a type under
the name that its key has, in the place that the key has or else behind all others (`Step.labels`),
so the table of a document begins with its components in document order. The names of the first ones
are given out before those that follow are looked at, and nothing but keys is looked at then.

Mapping the components decides what their entries are (`decided_mapComponents`): a component is
mapped then, or its key names nothing and never will. An operation stores types that are written in
place under keys that are no component's (`Stores.ne_componentKey`), and no other step touches what
is decided (`Step.get?_of_decided`). So neither references nor operations move, rename or change a
component (`components_stable`).
-/

namespace ClientGen

open OpenApi

/-- What an entry says, whether or not it is flagged as recursive. -/
def Entry.content (entry : Entry) : String × String × Descriptor :=
  (entry.key, entry.name, entry.type)

namespace Mapping

/-! ### Places and names -/

/-- Whether entries are called as their keys are. -/
def Labelled (state : Mapping) : Prop :=
  ∀ entry ∈ state.table.entries, state.names.name? entry.key = some entry.name

/-- Storing a type under the name of its key moves and renames no entry. -/
theorem Labelled.insert {state later : Mapping} (h : Labelled state) {key name : String}
    {type : Descriptor}
    (hnames : ∀ key name, state.names.name? key = some name → later.names.name? key = some name)
    (hname : later.names.name? key = some name)
    (htable : later.table = state.table.insert key name type) :
    Labelled later ∧ state.table.labels <+: later.table.labels := by
  rw [Labelled, htable]
  refine ⟨fun entry hentry => ?_, Table.labels_prefix_insert (fun entry hentry hkey => ?_) type⟩
  · rcases Table.mem_insert hentry with rfl | hold
    · exact hname
    · exact hnames _ _ (h entry hold)
  -- What stands under the key already is called as the key is, which has kept its name.
  · have hold := hnames _ _ (h entry hentry)
    rw [hkey, hname] at hold
    exact (Option.some.inj hold).symm

section Labels

variable {doc : Document} {first second : Mapping} {event : Event} {events : List Event}

/-- A step keeps entries called as their keys are, and the labels of a state are the first ones of
its successor. -/
theorem Step.labels (step : Step doc first event second) (h : Labelled first) :
    Labelled second ∧ first.table.labels <+: second.table.labels := by
  have hnames := step.keeps.names
  cases step with
  | report => exact ⟨h, List.prefix_rfl⟩
  | name => exact ⟨fun entry hentry => hnames _ _ (h entry hentry), List.prefix_rfl⟩
  | enter => exact ⟨h, List.prefix_rfl⟩
  | leave key name above schema type hchain htarget hname => exact h.insert hnames hname rfl
  | hoist key base => exact h.insert hnames (Registry.name?_resolveAs_self _ _ _) rfl

/-- **Places.** A run moves and renames no entry. -/
theorem Run.labels (run : Run doc first events second) (h : Labelled first) :
    Labelled second ∧ first.table.labels <+: second.table.labels := by
  induction run with
  | nil => exact ⟨h, List.prefix_rfl⟩
  | cons step _ ih =>
    obtain ⟨hmiddle, hstep⟩ := step.labels h
    obtain ⟨hlast, hrun⟩ := ih hmiddle
    exact ⟨hlast, hstep.trans hrun⟩

/-- A whole computation keeps entries called as their keys are, and takes no label back. -/
theorem Performed.labels {k : String → Prop} {p : Diagnostic → Prop}
    (h : Performed doc k p first second) (hfirst : Labelled first) :
    Labelled second ∧ first.table.labels <+: second.table.labels := by
  obtain ⟨events, run, -⟩ := h.run
  exact run.labels hfirst

end Labels

/-! ### Reservations -/

/-- The state in which components with these names have their places, and nothing is mapped. -/
def reserved (names : List String) : Mapping :=
  (names.map Reference.componentKey).foldl reserve {}

/-- The mapper starts with the names of all components reserved, and with nothing else. -/
theorem start_eq_reserved (doc : Document) : start doc = reserved (Ordered.keys doc.schemas) := by
  rw [start, reserved, Ordered.keys, List.map_map]
  rfl

/-- Further reservations keep entries called as their keys are, and take no label back. -/
private theorem labels_foldl_reserve (keys : List String) {state : Mapping} (h : Labelled state) :
    Labelled (keys.foldl reserve state) ∧
      state.table.labels <+: (keys.foldl reserve state).table.labels := by
  induction keys generalizing state with
  | nil => exact ⟨h, List.prefix_rfl⟩
  | cons key more ih =>
    have hreserve : Labelled (state.reserve key) ∧
        state.table.labels <+: (state.reserve key).table.labels :=
      h.insert (fun _ _ hname => Registry.name?_resolve_of_name? hname key)
        (Registry.name?_resolve_self state.names key) rfl
    obtain ⟨hlast, hmore⟩ := ih hreserve.1
    exact ⟨hlast, hreserve.2.trans hmore⟩

theorem labelled_reserved (names : List String) : Labelled (reserved names) :=
  (labels_foldl_reserve _ fun _ hmem => absurd hmem List.not_mem_nil).1

/-- Further components move and rename none of the first ones. -/
theorem labels_reserved_prefix {names all : List String} (h : names <+: all) :
    (reserved names).table.labels <+: (reserved all).table.labels := by
  obtain ⟨more, rfl⟩ := h
  rw [reserved, reserved, List.map_append, List.foldl_append]
  exact (labels_foldl_reserve _ (labelled_reserved names)).2

/-- Distinct keys that are reserved one after another take their places behind the earlier ones in
this order. -/
private theorem keys_foldl_reserve (keys : List String) (state : Mapping)
    (h : (state.table.entries.map Entry.key ++ keys).Nodup) :
    (keys.foldl reserve state).table.entries.map Entry.key =
      state.table.entries.map Entry.key ++ keys := by
  induction keys generalizing state with
  | nil => exact (List.append_nil _).symm
  | cons key more ih =>
    -- A key that occurs once goes behind all others.
    have hnew : key ∉ state.table.entries.map Entry.key := fun hmem =>
      (List.nodup_append.mp h).2.2 key hmem key List.mem_cons_self rfl
    have hkeys : (state.reserve key).table.entries.map Entry.key =
        state.table.entries.map Entry.key ++ [key] :=
      (Table.keys_putEntry _ _).trans (if_neg hnew)
    rw [← List.singleton_append, ← List.append_assoc, ← hkeys] at h
    rw [List.foldl_cons, ih _ h, hkeys, List.append_assoc, List.singleton_append]

theorem keys_reserved {names : List String} (h : names.Nodup) :
    (reserved names).table.entries.map Entry.key = names.map Reference.componentKey :=
  keys_foldl_reserve _ {} (h.map Reference.componentKey_injective)

theorem labelled_start (doc : Document) : Labelled (start doc) := by
  rw [start_eq_reserved]
  exact labelled_reserved _

/-- **Reservations.** Whatever is performed for a document, the table begins with the components
that have got their places, in order. -/
theorem keys_of_performed {doc : Document} (hnames : (Ordered.keys doc.schemas).Nodup)
    {k : String → Prop} {p : Diagnostic → Prop} {state : Mapping}
    (h : Performed doc k p (start doc) state) :
    (Ordered.keys doc.schemas).map Reference.componentKey <+:
      state.table.entries.map Entry.key := by
  have hkeys := (h.labels (labelled_start doc)).2.map Prod.fst
  rw [Table.map_fst_labels, Table.map_fst_labels, start_eq_reserved, keys_reserved hnames] at hkeys
  exact hkeys

/-- **Names.** The first components of a document are called as they are called without the
others. -/
theorem take_names_toApi {doc : Document} (hclosed : doc.Closed)
    (hnames : (Ordered.keys doc.schemas).Nodup) {names : List String}
    (h : names <+: Ordered.keys doc.schemas) :
    ((Document.toApi doc).types.entries.map Entry.name).take names.length =
      (reserved names).table.entries.map Entry.name := by
  have hstart := labels_reserved_prefix h
  rw [← start_eq_reserved] at hstart
  have hfinal := (performs_mapEndpoints hclosed _ (idle_start doc)).labels (labelled_start doc)
  have hprefix := (hstart.trans hfinal.2).map Prod.snd
  rw [Table.map_snd_labels, Table.map_snd_labels] at hprefix
  have hlength : ((reserved names).table.entries.map Entry.name).length = names.length := by
    have hkeys := congrArg List.length (keys_reserved (hnames.sublist h.sublist))
    rw [List.length_map, List.length_map] at hkeys
    rw [List.length_map, hkeys]
  have htake := List.prefix_iff_eq_take.mp hprefix
  rw [hlength] at htake
  rw [htake]
  exact congrArg (List.take names.length) (Table.map_name_markRecursive _)

/-! ### Decided entries -/

/-- Whether the entry of a key is what it will be: the key is finished, or it names nothing. -/
def Decided (doc : Document) (state : Mapping) (key : String) : Prop :=
  (doc.target key).2.isSome → key ∈ state.mapped

section Decided

variable {doc : Document} {first second : Mapping} {event : Event} {events : List Event}
  {key : String}

/-- A step leaves the entry of a decided key alone, unless it stores what was written in place under
the key. -/
theorem Step.get?_of_decided (step : Step doc first event second) (h : Coherent doc first)
    (hkey : Decided doc first key) (hhoist : key ∉ Event.hoists [event]) :
    second.table.get? key = first.table.get? key := by
  cases step with
  | report => rfl
  | name => rfl
  | enter => rfl
  | leave stored name above schema type hchain htarget =>
    -- What is left now was entered before, so it is not finished yet.
    have hne : stored ≠ key := by
      rintro rfl
      have hmem : stored ∈ first.chain := hchain ▸ List.mem_cons_self
      exact h.disjoint stored hmem (hkey (Option.isSome_of_eq_some htarget))
    exact Table.get?_insert_of_ne _ hne _ _
  | hoist stored =>
    have hne : stored ≠ key := by
      rintro rfl
      exact hhoist List.mem_cons_self
    exact Table.get?_insert_of_ne _ hne _ _

/-- **Decided entries.** So does a run. -/
theorem Run.get?_of_decided (run : Run doc first events second) (h : Coherent doc first)
    (hkey : Decided doc first key) (hhoist : key ∉ Event.hoists events) :
    second.table.get? key = first.table.get? key := by
  induction run with
  | nil => rfl
  | @cons _ _ _ event events step _ ih =>
    rw [show event :: events = [event] ++ events from rfl, Event.hoists_append, List.mem_append,
      not_or] at hhoist
    -- The key stays decided, since finished keys are never taken back.
    rw [ih (step.coherent h) (fun htarget => step.keeps.mapped (hkey htarget)) hhoist.2,
      step.get?_of_decided h hkey hhoist.1]

end Decided

/-! ### Components -/

section Components

variable {doc : Document}

/-- Mapping the components decides the entries of all of them. -/
theorem decided_mapComponents (hclosed : doc.Closed) {name : String}
    (h : name ∈ Ordered.keys doc.schemas) :
    Decided doc ((mapComponents doc).run (start doc)).2 (Reference.componentKey name) := by
  intro htarget
  obtain ⟨component, hmem, rfl⟩ := List.mem_map.mp h
  obtain ⟨log, later, hlater, hrun⟩ := mapComponents_run hclosed (coherent_start doc)
  rw [hrun]
  have hreached := hlater.reached _ (mem_paths_componentVisits.mpr ⟨component, hmem, rfl⟩) htarget
  rw [Reference.canonical_componentKey] at hreached
  refine hreached.resolve_right fun habove => ?_
  rw [hlater.follows.chain, chain_start] at habove
  cases habove

/-- The schema of a body or response never stands in the place of a component. -/
theorem Stores.ne_componentKey {key : String} (h : Stores doc key) (name : String) :
    key ≠ Reference.componentKey name := by
  rintro rfl
  obtain ⟨site, -, schema, hcontent⟩ := h
  obtain ⟨pointer, media, hkey⟩ := exists_contentSchema hcontent
  rw [Reference.componentKey_eq_child, contentSchema] at hkey
  -- Two segments before the last there is `content` in one and `components` in the other.
  have hsection := (Reference.child_inj.mp (Reference.child_inj.mp hkey).1).1
  exact absurd (Reference.child_inj.mp hsection).2 (by decide)

/-- Mapping the operations changes no entry of a component. -/
theorem get?_final (hclosed : doc.Closed) {name : String} (h : name ∈ Ordered.keys doc.schemas) :
    (final doc).table.get? (Reference.componentKey name) =
      ((mapComponents doc).run (start doc)).2.table.get? (Reference.componentKey name) := by
  have hidle := (performs_components hclosed _ (idle_start doc)).idle (idle_start doc)
  obtain ⟨events, run, hhoists⟩ := (Performs.mapM (performs_sites hclosed) _ hidle).run
  refine run.get?_of_decided hidle.coherent (decided_mapComponents hclosed h) fun hmem => ?_
  exact (hhoists _ hmem).ne_componentKey name rfl

/-- **Components.** The entries of the components are those that mapping them leaves behind. -/
theorem take_entries_final (hclosed : doc.Closed) (hnames : (Ordered.keys doc.schemas).Nodup) :
    (final doc).table.entries.take doc.schemas.length =
      ((mapComponents doc).run (start doc)).2.table.entries.take doc.schemas.length := by
  have hready : Ready doc ((mapComponents doc).run (start doc)).2 :=
    (yields_mapComponents hclosed (start doc) (ready_start doc) (sound_nil doc (start doc))).1
  -- Both tables begin with the same keys, so it is enough to look up these.
  have hmapped := Table.map_get?_of_prefix hready.orderly.nodup
    (keys_of_performed hnames (performs_components hclosed _ (idle_start doc)))
  have hfinal := Table.map_get?_of_prefix (ready_final hclosed).orderly.nodup
    (keys_of_performed hnames (performs_mapEndpoints hclosed _ (idle_start doc)))
  have hsame : ((Ordered.keys doc.schemas).map Reference.componentKey).map
        (final doc).table.get? =
      ((Ordered.keys doc.schemas).map Reference.componentKey).map
        ((mapComponents doc).run (start doc)).2.table.get? := by
    refine List.map_congr_left fun key hkey => ?_
    obtain ⟨name, hname, rfl⟩ := List.mem_map.mp hkey
    exact get?_final hclosed hname
  rw [hmapped, hfinal, List.length_map, Ordered.keys, List.length_map] at hsame
  exact List.map_injective_iff.mpr (Option.some_injective Entry) hsame

end Components

/-- **Stability.** The table of a document begins with its component schemas, in document order. How
the first of them are called depends on nothing but their names: documents that begin with the same
components call them the same, whatever else they say. And their entries are those that mapping the
components leaves behind, so that mapping the operations renames and changes none. -/
theorem components_stable {text : String} {doc : Document} (h : Document.ofText text = .ok doc) :
    (Ordered.keys doc.schemas).map Reference.componentKey <+:
        (Document.toApi doc).types.entries.map Entry.key ∧
      (∀ otherText other names, Document.ofText otherText = .ok other →
        names <+: Ordered.keys doc.schemas → names <+: Ordered.keys other.schemas →
          ((Document.toApi doc).types.entries.map Entry.name).take names.length =
            ((Document.toApi other).types.entries.map Entry.name).take names.length) ∧
      ((Document.toApi doc).types.entries.take doc.schemas.length).map Entry.content =
        (((mapComponents doc).run (start doc)).2.table.entries.take doc.schemas.length).map
          Entry.content := by
  obtain ⟨hdistinct, hdoc⟩ := Document.of_ofText h
  have hclosed := Document.closed_ofJson hdoc
  have hnames := Document.nodup_schemas hdistinct hdoc
  -- Keys, names and contents of the first entries. Only the flags for recursive types change later,
  -- and they are in none of these.
  refine ⟨?_, fun otherText other names hother hprefix hprefix' => ?_, ?_⟩
  · have hkeys := keys_of_performed hnames (performs_mapEndpoints hclosed _ (idle_start doc))
    rw [← Table.map_markRecursive Entry.key (fun _ => rfl)] at hkeys
    exact hkeys
  · obtain ⟨hdistinct', hdoc'⟩ := Document.of_ofText hother
    rw [take_names_toApi hclosed hnames hprefix, take_names_toApi
      (Document.closed_ofJson hdoc') (Document.nodup_schemas hdistinct' hdoc') hprefix']
  · rw [← take_entries_final hclosed hnames, List.map_take, List.map_take]
    exact congrArg (List.take doc.schemas.length)
      (Table.map_markRecursive Entry.content (fun _ => rfl) _)

/-- The text of a document with two components that would be called the same, which refer to each
other, and an operation that answers with one of them. -/
def twins : String := Text.concat [
  "\x7b\"paths\":\x7b\"/\":\x7b\"get\":\x7b\"responses\":\x7b\"200\":\x7b\"content\":\x7b",
  "\"text/json\":\x7b\"schema\":\x7b\"properties\":\x7b",
  "\"twin\":\x7b\"$ref\":\"#/components/schemas/a b\"\x7d\x7d\x7d\x7d\x7d\x7d\x7d\x7d\x7d\x7d,",
  "\"components\":\x7b\"schemas\":\x7b",
  "\"a-b\":\x7b\"properties\":\x7b\"twin\":\x7b\"$ref\":\"#/components/schemas/a b\"\x7d\x7d\x7d,",
  "\"a b\":\x7b\"properties\":\x7b\"twin\":\x7b\"$ref\":\"#/components/schemas/a-b\"\x7d",
  "\x7d\x7d\x7d\x7d\x7d"]

/-- The text of a document with nothing but components, of which the last one would be called the
same as the two before it. -/
def triplets : String := Text.concat [
  "\x7b\"components\":\x7b\"schemas\":\x7b",
  "\"a-b\":\x7b\x7d,\"a b\":\x7b\x7d,\"AB\":\x7b\x7d\x7d\x7d\x7d"]

/-- Of two components that would be called the same, the first keeps the name and the second is
counted, and an operation that answers with one of them changes neither. -/
theorem components_stable_twins :
    ∃ doc, Document.ofText twins = .ok doc ∧
      ["#/components/schemas/a-b", "#/components/schemas/a b"] <+:
        (Document.toApi doc).types.entries.map Entry.key ∧
      ((Document.toApi doc).types.entries.map Entry.name).take 2 = ["AB", "AB2"] ∧
      ((Document.toApi doc).types.entries.take 2).map Entry.content =
        (((mapComponents doc).run (start doc)).2.table.entries.take 2).map Entry.content := by
  obtain ⟨doc, hdoc, hnames⟩ :
      ∃ doc, Document.ofText twins = .ok doc ∧ Ordered.keys doc.schemas = ["a-b", "a b"] :=
    Document.exists_of_chars (by repeat' constructor) (by decide +kernel)
  obtain ⟨other, hother, hnames', hcalled⟩ :
      ∃ other, Document.ofText triplets = .ok other ∧
        Ordered.keys other.schemas = ["a-b", "a b", "AB"] ∧
        ((Document.toApi other).types.entries.map Entry.name).take 2 = ["AB", "AB2"] :=
    Document.exists_of_chars (by repeat' constructor) (by decide +kernel)
  obtain ⟨hkeys, hsame, hentries⟩ := components_stable hdoc
  have hlength : doc.schemas.length = 2 :=
    (List.length_map Prod.fst).symm.trans (congrArg List.length hnames)
  rw [hlength] at hentries
  rw [hnames] at hkeys
  have hprefix : ["a-b", "a b"] <+: Ordered.keys other.schemas := by
    rw [hnames']
    exact List.prefix_append _ ["AB"]
  refine ⟨doc, hdoc, hkeys, ?_, hentries⟩
  rw [← hcalled]
  exact hsame triplets other ["a-b", "a b"] hother (hnames ▸ List.prefix_rfl) hprefix

end Mapping

end ClientGen
