import ClientGen.Proofs.Mapping.Step
import ClientGen.Proofs.Mapping.Traversal
import Mathlib.Data.Finset.Card

/-!
# Following references

`descents` records the descents that the mapper makes on its way, and has no record at all where the
mapper would be cut off by its depth limit. Following a reference is a run of the transition system
with exactly these descents (`expand_run`), if the document is closed and the limit is large enough:
each key on the way down is new, and all but the first are references of the document.
-/

namespace ClientGen.Mapping

open OpenApi

/-! ### Descents -/

/-- The descents of visits one after another, given those of each reference. -/
def descentsAll (descents : String → Mapping → Option (List Descent))
    (onRef : String → MapM Descriptor) : List Visit → Mapping → Option (List Descent)
  | [], _ => some []
  | .reference path :: more, state => do
    let first ← descents path state
    let others ← descentsAll descents onRef more ((Visit.reference path).run onRef state)
    return first ++ others
  | .fault diagnostic :: more, state =>
    descentsAll descents onRef more ((Visit.fault diagnostic).run onRef state)

/-- The state in which the target of a key is mapped. -/
def entered (state : Mapping) (key : String) : Mapping :=
  { state with names := (state.names.resolve key).2, chain := key :: state.chain }

/-- The descents that following a reference makes, unless the depth limit cuts it off. -/
def descents (doc : Document) : Nat → String → Mapping → Option (List Descent)
  | 0, _, _ => none
  | depth + 1, path, state =>
    let (key, target) := doc.target path
    if state.mapped.contains key || state.chain.contains key then some []
    else
      match target with
      | none => some []
      | some schema =>
        (descentsAll (descents doc depth) (expand doc depth) (schema.visits key)
          (state.entered key)).map (⟨key, state.chain⟩ :: ·)

/-! ### One reference -/

section Expand

variable {doc : Document} {depth : Nat} {path : String} {state : Mapping}

/-- The guard of the recursion tests whether a key is finished or above. -/
private theorem contains_iff_reached {key : String} :
    (state.mapped.contains key || state.chain.contains key) = true ↔ state.Reached key := by
  rw [Bool.or_eq_true, List.contains_iff_mem, List.contains_iff_mem, Reached]

/-- A key that is finished or above is referred to by its name, and not descended into. -/
theorem expand_of_reached (h : state.Reached (doc.target path).1) :
    (expand doc (depth + 1) path).run state =
      (.reference (doc.target path).1 (state.names.resolve (doc.target path).1).1,
        { state with names := (state.names.resolve (doc.target path).1).2 }) := by
  have hcond := contains_iff_reached.mpr h
  simp only [expand, StateT.run_bind, StateT.run_get, pure_bind, hcond, if_true]
  rfl

/-- A key that leads nowhere is referred to by a name of its own, and the state stays as it is. -/
theorem expand_of_dangling (h : ¬state.Reached (doc.target path).1)
    (htarget : (doc.target path).2 = none) :
    (expand doc (depth + 1) path).run state = (dangling (doc.target path).1, state) := by
  have hcond := mt contains_iff_reached.mp h
  simp only [expand, StateT.run_bind, StateT.run_get, pure_bind, hcond, htarget]
  rfl

/-- A key that leads to a schema, and is neither finished nor above, is named and put above, then
its target is translated and stored. -/
theorem expand_of_target (h : ¬state.Reached (doc.target path).1) {schema : Schema}
    (htarget : (doc.target path).2 = some schema) :
    (expand doc (depth + 1) path).run state =
      let key := (doc.target path).1
      let name := (state.names.resolve key).1
      let (type, mapped) := (schema.translate (expand doc depth) key).run (state.entered key)
      (.reference key name, { mapped with chain := mapped.chain.tail }.store key name type) := by
  have hcond := mt contains_iff_reached.mp h
  simp only [expand, StateT.run_bind, StateT.run_get, pure_bind, hcond, htarget]
  rfl

private theorem descents_of_reached (h : state.Reached (doc.target path).1) :
    descents doc (depth + 1) path state = some [] := by
  simp only [descents, contains_iff_reached.mpr h, if_true]

private theorem descents_of_dangling (h : ¬state.Reached (doc.target path).1)
    (htarget : (doc.target path).2 = none) :
    descents doc (depth + 1) path state = some [] := by
  simp only [descents, mt contains_iff_reached.mp h, htarget]
  rfl

/-- Otherwise the first descent is the one into the key itself, and those of the visits of its
target come after it. -/
private theorem descents_of_target (h : ¬state.Reached (doc.target path).1) {schema : Schema}
    (htarget : (doc.target path).2 = some schema) :
    descents doc (depth + 1) path state =
      (descentsAll (descents doc depth) (expand doc depth) (schema.visits (doc.target path).1)
        (state.entered (doc.target path).1)).map (⟨(doc.target path).1, state.chain⟩ :: ·) := by
  simp only [descents, mt contains_iff_reached.mp h, htarget]
  rfl

end Expand

/-! ### Room -/

/-- The keys of the references in a document. -/
def keys (doc : Document) : Finset String :=
  (doc.raw.strings.map Reference.canonical).toFinset

/-- How many keys of the document are not above yet. -/
def room (doc : Document) (above : List String) : Nat :=
  (keys doc \ above.toFinset).card

/-- Whether a depth limit is large enough for a reference. One that is not in the document takes one
more level. -/
def Fits (doc : Document) (depth : Nat) (above : List String) (path : String) : Prop :=
  room doc above < depth ∧ (Reference.canonical path ∈ keys doc ∨ room doc above + 1 < depth)

/-- A document has no more keys of references than it has strings. -/
theorem room_le_countStrings (doc : Document) (above : List String) :
    room doc above ≤ doc.raw.countStrings := by
  refine (Finset.card_le_card Finset.sdiff_subset).trans ((List.toFinset_card_le _).trans ?_)
  rw [List.length_map, Json.length_strings]

/-- The depth limit is large enough for every reference. -/
theorem fits_depthLimit (doc : Document) (above : List String) (path : String) :
    Fits doc (depthLimit doc) above path := by
  have hroom := room_le_countStrings doc above
  constructor
  · rw [depthLimit]
    omega
  · right
    rw [depthLimit]
    omega

/-- There is less room below a key. -/
private theorem room_cons_lt {doc : Document} {depth : Nat} {above : List String} {path : String}
    (h : Fits doc (depth + 1) above path) (hnew : Reference.canonical path ∉ above) :
    room doc (Reference.canonical path :: above) < depth := by
  obtain ⟨hroom, hkey⟩ := h
  have hsubset : keys doc \ (Reference.canonical path :: above).toFinset ⊆
      keys doc \ above.toFinset := by
    rw [List.toFinset_cons]
    exact Finset.sdiff_subset_sdiff (Finset.Subset.refl _) (Finset.subset_insert _ _)
  -- A key of the document takes room away; any other key has a level of its own.
  rcases hkey with hkey | hroom
  · refine Nat.lt_of_lt_of_le (Finset.card_lt_card ?_) (Nat.lt_succ_iff.mp hroom)
    refine (Finset.ssubset_iff_of_subset hsubset).mpr ⟨Reference.canonical path, ?_, ?_⟩
    · exact Finset.mem_sdiff.mpr ⟨hkey, fun hmem => hnew (List.mem_toFinset.mp hmem)⟩
    · simp
  · refine Nat.lt_of_le_of_lt (Finset.card_le_card hsubset) ?_
    rw [room] at hroom
    omega

/-- The references in the target of a reference are in the document. -/
theorem mem_keys_of_target {doc : Document} (hclosed : doc.Closed) {path : String} {schema : Schema}
    (htarget : (doc.target path).2 = some schema) {other : String} (hother : other ∈ schema.refs) :
    Reference.canonical other ∈ keys doc :=
  List.mem_toFinset.mpr (List.mem_map_of_mem (hclosed path schema htarget hother))

/-- Below a key, the limit is large enough for the references of its target. -/
theorem Fits.descend {doc : Document} (hclosed : doc.Closed) {depth : Nat}
    {above : List String} {path : String} (h : Fits doc (depth + 1) above path)
    (hnew : Reference.canonical path ∉ above) {schema : Schema}
    (htarget : (doc.target path).2 = some schema) {other : String} (hother : other ∈ schema.refs) :
    Fits doc depth (Reference.canonical path :: above) other :=
  ⟨room_cons_lt h hnew, Or.inl (mem_keys_of_target hclosed htarget hother)⟩

/-! ### Following references is a run -/

/-- A run that stores nothing that was written in place and comes back from wherever it descended,
with its descents. -/
def Follows (doc : Document) (first : Mapping) (log : List Descent) (second : Mapping) : Prop :=
  ∃ events, Run doc first events second ∧ Event.hoists events = [] ∧
    Event.descents events = log ∧ second.chain = first.chain

namespace Follows

variable {doc : Document} {first second third : Mapping} {log more : List Descent}

theorem refl (state : Mapping) : Follows doc state [] state :=
  ⟨[], .nil state, rfl, rfl, rfl⟩

theorem trans (h : Follows doc first log second) (h' : Follows doc second more third) :
    Follows doc first (log ++ more) third := by
  obtain ⟨events, run, hhoists, hdescents, hchain⟩ := h
  obtain ⟨others, next, hhoists', hdescents', hchain'⟩ := h'
  refine ⟨events ++ others, run.append next, ?_, ?_, hchain'.trans hchain⟩
  · rw [Event.hoists_append, hhoists, hhoists', List.append_nil]
  · rw [Event.descents_append, hdescents, hdescents']

theorem coherent (h : Follows doc first log second) (hcoherent : Coherent doc first) :
    Coherent doc second := by
  obtain ⟨events, run, -⟩ := h
  exact run.coherent hcoherent

theorem keeps (h : Follows doc first log second) : Extends first second := by
  obtain ⟨events, run, -⟩ := h
  exact run.keeps

theorem chain (h : Follows doc first log second) : second.chain = first.chain := by
  obtain ⟨_, _, _, _, hchain⟩ := h
  exact hchain

/-- A run does not change the name of a key that leads nowhere or has been reached before. -/
theorem nameOf (h : Follows doc first log second) (hcoherent : Coherent doc first) {key : String}
    (hreached : (doc.target key).2.isSome → first.Reached key) :
    Mapping.nameOf doc second key = Mapping.nameOf doc first key := by
  obtain ⟨events, run, hhoists, -⟩ := h
  exact run.nameOf hhoists hcoherent hreached

end Follows

/-- What following a reference comes to: a run to a later state, which is the answer to what the
reference is, with the descents on record. -/
structure Expands (doc : Document) (depth : Nat) (path : String) (first : Mapping)
    (log : List Descent) (second : Mapping) : Prop where
  follows : Follows doc first log second
  run : (expand doc depth path).run first =
    (.reference (Reference.canonical path) (nameOf doc second (Reference.canonical path)), second)
  descents : descents doc depth path first = some log
  keys : ∀ descent ∈ log, descent.key = Reference.canonical path ∨ descent.key ∈ keys doc
  reached : (doc.target path).2.isSome → second.Reached (Reference.canonical path)

/-- What visits come to. -/
structure ExpandsAll (doc : Document) (depth : Nat) (visits : List Visit) (first : Mapping)
    (log : List Descent) (second : Mapping) : Prop where
  follows : Follows doc first log second
  run : Visit.runAll (expand doc depth) visits first = second
  answered : Answered (expand doc depth) (nameOf doc second) visits first
  descents : descentsAll (Mapping.descents doc depth) (expand doc depth) visits first = some log
  keys : ∀ descent ∈ log,
    (∃ path ∈ Visit.paths visits, descent.key = Reference.canonical path) ∨
      descent.key ∈ Mapping.keys doc
  reached : ∀ path ∈ Visit.paths visits, (doc.target path).2.isSome →
    second.Reached (Reference.canonical path)

namespace ExpandsAll

variable {doc : Document} {depth : Nat} {more : List Visit} {state : Mapping}

/-- Descents are into the targets of canonical keys. -/
theorem canonical_key {visits : List Visit} {first second : Mapping} {log : List Descent}
    (h : ExpandsAll doc depth visits first log second) {descent : Descent} (hmem : descent ∈ log) :
    Reference.canonical descent.key = descent.key := by
  rcases h.keys descent hmem with ⟨path, -, heq⟩ | hdoc
  · rw [heq, Reference.canonical_canonical]
  · obtain ⟨path, -, heq⟩ := List.mem_map.mp (List.mem_toFinset.mp hdoc)
    rw [← heq, Reference.canonical_canonical]

theorem nil (state : Mapping) : ExpandsAll doc depth [] state [] state :=
  ⟨.refl state, rfl, trivial, rfl, fun _ hmem => absurd hmem List.not_mem_nil,
    fun _ hmem => absurd hmem List.not_mem_nil⟩

/-- A reference is followed before the visits after it are made. -/
theorem reference {path : String} {next later : Mapping} {log others : List Descent}
    (hnext : Expands doc depth path state log next) (hcoherent : Coherent doc next)
    (hlater : ExpandsAll doc depth more next others later) :
    ExpandsAll doc depth (.reference path :: more) state (log ++ others) later := by
  have hstate : (Visit.reference path).run (expand doc depth) state = next :=
    congrArg Prod.snd hnext.run
  have hreached : (doc.target (Reference.canonical path)).2.isSome →
      next.Reached (Reference.canonical path) := by
    rw [Document.target_canonical]
    exact hnext.reached
  refine ⟨hnext.follows.trans hlater.follows, ?_, ⟨?_, ?_⟩, ?_, ?_, ?_⟩
  · rw [← hlater.run, ← hstate]
    rfl
  · -- The name was given by the first run, and the second keeps it.
    rw [hnext.run, hlater.follows.nameOf hcoherent hreached]
  · rw [hstate]
    exact hlater.answered
  · rw [descentsAll, hstate, hnext.descents, hlater.descents]
    rfl
  · intro descent hdescent
    rcases List.mem_append.mp hdescent with hdescent | hdescent
    · exact (hnext.keys descent hdescent).imp_left fun heq =>
        ⟨path, Visit.mem_paths.mpr List.mem_cons_self, heq⟩
    · refine (hlater.keys descent hdescent).imp_left ?_
      rintro ⟨other, hother, heq⟩
      exact ⟨other, Visit.mem_paths_cons_of_mem _ hother, heq⟩
  · intro other hother htarget
    rcases List.mem_cons.mp (Visit.mem_paths.mp hother) with heq | hrest
    · cases heq
      exact hlater.follows.keeps.reached _ (hnext.reached htarget)
    · exact hlater.reached other (Visit.mem_paths.mpr hrest) htarget

/-- A fault is reported before the visits after it are made. -/
theorem fault {diagnostic : Diagnostic} {later : Mapping} {log : List Descent}
    (hlater : ExpandsAll doc depth more
      ((Visit.fault diagnostic).run (expand doc depth) state) log later) :
    ExpandsAll doc depth (.fault diagnostic :: more) state log later := by
  have hstep : Follows doc state [] ((Visit.fault diagnostic).run (expand doc depth) state) :=
    ⟨_, .single (.report state diagnostic), rfl, rfl, rfl⟩
  refine ⟨hstep.trans hlater.follows, hlater.run, hlater.answered, hlater.descents, ?_, ?_⟩
  · intro descent hdescent
    refine (hlater.keys descent hdescent).imp_left ?_
    rintro ⟨other, hother, heq⟩
    exact ⟨other, Visit.mem_paths_cons_of_mem _ hother, heq⟩
  · intro other hother
    exact hlater.reached other (Visit.mem_paths.mpr
      ((List.mem_cons.mp (Visit.mem_paths.mp hother)).resolve_left fun heq => by cases heq))

end ExpandsAll

/-- Visits can be made if every reference among them can be followed in any coherent state in which
the depth fits. -/
theorem expandsAll_of_forall {doc : Document} {depth : Nat}
    (hexpand : ∀ path state, Coherent doc state → Fits doc depth state.chain path →
      ∃ log later, Expands doc depth path state log later)
    {visits : List Visit} {state : Mapping} (hcoherent : Coherent doc state)
    (hfits : ∀ path ∈ Visit.paths visits, Fits doc depth state.chain path) :
    ∃ log later, ExpandsAll doc depth visits state log later := by
  induction visits generalizing state with
  | nil => exact ⟨[], state, .nil state⟩
  | cons visit more ih =>
    have hmore {path : String} : path ∈ Visit.paths more → path ∈ Visit.paths (visit :: more) :=
      Visit.mem_paths_cons_of_mem visit
    rcases visit with path | diagnostic
    · obtain ⟨log, next, hnext⟩ := hexpand path state hcoherent
        (hfits path (Visit.mem_paths.mpr List.mem_cons_self))
      have hcoherent' := hnext.follows.coherent hcoherent
      -- What is above is the same after the reference as before it.
      obtain ⟨others, later, hlater⟩ := ih hcoherent' fun other hother =>
        hnext.follows.chain ▸ hfits other (hmore hother)
      exact ⟨log ++ others, later, .reference hnext hcoherent' hlater⟩
    · have hstep : Run doc state [.quiet] ((Visit.fault diagnostic).run (expand doc depth) state) :=
        .single (.report state diagnostic)
      obtain ⟨log, later, hlater⟩ := ih (hstep.coherent hcoherent) fun other hother =>
        hfits other (hmore hother)
      exact ⟨log, later, .fault hlater⟩

/-- A reference in the type of a schema whose visits come to a run is named as its key is in the
end, and its key has been reached if it has a target. -/
theorem ExpandsAll.mem_references {doc : Document} {depth : Nat} {schema : Schema}
    {pointer : String} {first second : Mapping} {log : List Descent}
    (h : ExpandsAll doc depth (schema.visits pointer) first log second)
    {reference : String × String}
    (hreference : reference ∈ (schema.outline (nameOf doc second)).references) :
    reference.2 = nameOf doc second reference.1 ∧
      ((doc.target reference.1).2.isSome → second.Reached reference.1) := by
  refine ⟨Descriptor.snd_of_mem_references
    (Outline.outline_named (nameOf doc second) (nameOf doc second) schema) hreference,
    fun htarget => ?_⟩
  obtain ⟨path, hpath, hkey⟩ := mem_paths_of_mem_references hreference pointer
  refine hkey ▸ h.reached path hpath ?_
  rw [← Document.target_canonical, hkey]
  exact htarget

/-- The type of a schema whose visits come to a run has only resolved references. -/
theorem resolved_outline {doc : Document} {depth : Nat} {schema : Schema} {pointer : String}
    {first second : Mapping} {log : List Descent}
    (h : ExpandsAll doc depth (schema.visits pointer) first log second)
    (hcoherent : Coherent doc first) :
    ∀ reference ∈ (schema.outline (nameOf doc second)).references,
      Resolved doc second reference := by
  intro reference hreference
  obtain ⟨hname, hreached⟩ := h.mem_references hreference
  have hresolved := resolved_nameOf (h.follows.coherent hcoherent) hreached
  rw [← hname] at hresolved
  exact hresolved

section Cases

variable {doc : Document} {depth : Nat} {path : String} {state : Mapping}

private theorem expands_of_reached (hcoherent : Coherent doc state)
    (h : state.Reached (Reference.canonical path)) :
    ∃ log later, Expands doc (depth + 1) path state log later := by
  have hkey := doc.target_fst path
  refine ⟨[], _, ⟨_, .single (.name state (Reference.canonical path)), rfl, rfl, rfl⟩, ?_, ?_,
    fun _ hmem => absurd hmem List.not_mem_nil, fun _ => h⟩
  · have hnamed : (doc.target (Reference.canonical path)).2.isSome ∨
        Reference.canonical path ∈ state.mapped :=
      h.symm.imp_left (hcoherent.target _)
    rw [expand_of_reached (hkey ▸ h), hkey, nameOf, if_pos hnamed, Registry.name?_resolve_self,
      Option.getD_some]
  · exact descents_of_reached (hkey ▸ h)

private theorem expands_of_dangling (h : ¬state.Reached (Reference.canonical path))
    (htarget : (doc.target path).2 = none) :
    ∃ log later, Expands doc (depth + 1) path state log later := by
  have hkey := doc.target_fst path
  refine ⟨[], state, .refl state, ?_, ?_, fun _ hmem => absurd hmem List.not_mem_nil,
    fun hsome => ?_⟩
  · have hunnamed : ¬((doc.target (Reference.canonical path)).2.isSome ∨
        Reference.canonical path ∈ state.mapped) := by
      rw [Document.target_canonical, htarget]
      exact fun hor => hor.elim (fun hsome => by cases hsome) fun hmem => h (Or.inl hmem)
    rw [expand_of_dangling (hkey ▸ h) htarget, hkey, dangling, nameOf, if_neg hunnamed]
  · exact descents_of_dangling (hkey ▸ h) htarget
  · rw [htarget] at hsome
    cases hsome

/-- Entering a key is a run of two steps: it is given a name, and descended into. -/
theorem run_entered {key : String} (htarget : (doc.target key).2.isSome)
    (hfresh : ¬state.Reached key) :
    Run doc state [.quiet, .enter ⟨key, state.chain⟩] (state.entered key) := by
  refine .cons (.name state key) (.single (.enter _ key htarget ?_ hfresh))
  exact Option.isSome_of_eq_some (Registry.name?_resolve_self state.names key)

/-- A reference to a new key can be followed if the visits of its target can be made from there. -/
private theorem expands_of_target (hclosed : doc.Closed) (hcoherent : Coherent doc state)
    (h : ¬state.Reached (Reference.canonical path)) {schema : Schema}
    (htarget : (doc.target path).2 = some schema) {log : List Descent} {inner : Mapping}
    (hinner : ExpandsAll doc depth (schema.visits (Reference.canonical path))
      (state.entered (Reference.canonical path)) log inner) :
    ∃ log later, Expands doc (depth + 1) path state log later := by
  have hkey := doc.target_fst path
  -- From here on the reference is its key.
  generalize hcanonical : Reference.canonical path = key at h hinner hkey
  have hkeyTarget : (doc.target key).2 = some schema := by
    rw [← hcanonical, Document.target_canonical, htarget]
  have hsome : (doc.target key).2.isSome := Option.isSome_of_eq_some hkeyTarget
  have hentered := run_entered hsome h
  have hcoherent' := hentered.coherent hcoherent
  obtain ⟨events, run, hhoists, hdescents, hchain⟩ := hinner.follows
  have hname : inner.names.name? key = some (state.names.resolve key).1 :=
    run.keeps.names _ _ (Registry.name?_resolve_self state.names key)
  have hleave : Step doc inner (.leave key) ({ inner with chain := state.chain }.store key
      (state.names.resolve key).1 (schema.outline (nameOf doc inner))) :=
    .leave inner key _ state.chain schema _ hchain hkeyTarget hname
      (fun g => Outline.outline_named _ g schema) (resolved_outline hinner hcoherent')
  refine ⟨⟨key, state.chain⟩ :: log, _, ⟨_, (hentered.append run).append (.single hleave), ?_, ?_,
    rfl⟩, ?_, ?_, ?_, fun _ => Or.inl (mem_mapped_store.mpr (Or.inl hcanonical))⟩
  · rw [Event.hoists_append, Event.hoists_append, hhoists]
    rfl
  · rw [Event.descents_append, Event.descents_append, hdescents]
    exact List.append_nil _
  · have htranslate := translate_traverses (expand doc depth) (nameOf doc inner) schema key
      (state.entered key) hinner.answered
    rw [hinner.run] at htranslate
    have hlater : nameOf doc ({ inner with chain := state.chain }.store key
        (state.names.resolve key).1 (schema.outline (nameOf doc inner))) key =
          (state.names.resolve key).1 := by
      rw [nameOf, if_pos (Or.inl hsome)]
      exact congrArg (Option.getD · "") hname
    rw [expand_of_target (hkey ▸ h) htarget, hkey, hcanonical, hlater]
    simp only [htranslate, hchain]
    rfl
  · rw [descents_of_target (hkey ▸ h) htarget, hkey, hinner.descents]
    rfl
  · refine List.forall_mem_cons.mpr ⟨Or.inl hcanonical.symm, fun descent hdescent => Or.inr ?_⟩
    rcases hinner.keys descent hdescent with ⟨other, hother, heq⟩ | hdoc
    · rw [heq]
      exact mem_keys_of_target hclosed htarget (Visit.paths_subset_refs _ _ hother)
    · exact hdoc

/-- The target of a reference is descended into in a coherent state. -/
private theorem coherent_entered (hcoherent : Coherent doc state)
    (h : ¬state.Reached (doc.target path).1) {schema : Schema}
    (htarget : (doc.target path).2 = some schema) :
    Coherent doc (state.entered (doc.target path).1) := by
  have hsome : (doc.target (doc.target path).1).2.isSome := by
    rw [Document.target_fst, Document.target_canonical, htarget]
    rfl
  exact (run_entered hsome h).coherent hcoherent

/-- Below a reference, the limit is large enough for what its target visits. -/
private theorem fits_entered (hclosed : doc.Closed) (hfits : Fits doc (depth + 1) state.chain path)
    (h : ¬state.Reached (doc.target path).1) {schema : Schema}
    (htarget : (doc.target path).2 = some schema) :
    ∀ other ∈ Visit.paths (schema.visits (doc.target path).1),
      Fits doc depth (state.entered (doc.target path).1).chain other := by
  intro other hother
  have hnew : Reference.canonical path ∉ state.chain := fun hmem =>
    h (Or.inr (doc.target_fst path ▸ hmem))
  rw [Document.target_fst]
  exact hfits.descend hclosed hnew htarget (Visit.paths_subset_refs _ _ hother)

end Cases

/-- **Following references.** In a closed document, and with a limit that is large enough, following
a reference is a run that comes back from all its descents, and these are on record. -/
theorem expand_run {doc : Document} (hclosed : doc.Closed) {depth : Nat} {path : String}
    {state : Mapping} (hcoherent : Coherent doc state) (hfits : Fits doc depth state.chain path) :
    ∃ log later, Expands doc depth path state log later := by
  induction depth generalizing path state with
  | zero => exact absurd hfits.1 (Nat.not_lt_zero _)
  | succ depth ih =>
    by_cases hreached : state.Reached (Reference.canonical path)
    · exact expands_of_reached hcoherent hreached
    · rcases htarget : (doc.target path).2 with _ | schema
      · exact expands_of_dangling hreached htarget
      · have hsome : (doc.target (Reference.canonical path)).2.isSome := by
          rw [Document.target_canonical, htarget]
          rfl
        have hnew : Reference.canonical path ∉ state.chain := fun hmem => hreached (Or.inr hmem)
        obtain ⟨log, inner, hinner⟩ := expandsAll_of_forall (fun path state => ih)
          ((run_entered hsome hreached).coherent hcoherent) fun other hother =>
            hfits.descend hclosed hnew htarget (Visit.paths_subset_refs _ _ hother)
        exact expands_of_target hclosed hcoherent hreached htarget hinner

/-! ### What following references keeps -/

/-- Whether a property of states is kept by whatever following references does, if only visits that
are allowed are made; those of the target of an allowed reference are allowed, too. -/
structure Kept (doc : Document) (allowed : Visit → Prop) (p : Mapping → Prop) : Prop where
  target : ∀ path schema, allowed (.reference path) → (doc.target path).2 = some schema →
    ∀ visit ∈ schema.visits (doc.target path).1, allowed visit
  report : ∀ state diagnostic, allowed (.fault diagnostic) → p state →
    p { state with diagnostics := state.diagnostics ++ [diagnostic] }
  name : ∀ state key, p state → p { state with names := (state.names.resolve key).2 }
  enter : ∀ state key, p state → p { state with chain := key :: state.chain }
  leave : ∀ depth (schema : Schema) key name first log second, (doc.target key).2 = some schema →
    ExpandsAll doc depth (schema.visits key) first log second → Coherent doc first → p second →
      p ({ second with chain := second.chain.tail }.store key name
        (schema.outline (nameOf doc second)))

namespace Kept

variable {doc : Document} {allowed : Visit → Prop} {p : Mapping → Prop}

/-- Visits keep what following each single reference keeps. -/
private theorem runAll (h : Kept doc allowed p) (hclosed : doc.Closed) {depth : Nat}
    (hexpand : ∀ path state, Coherent doc state → Fits doc depth state.chain path →
      allowed (.reference path) → p state → p ((expand doc depth path).run state).2)
    {visits : List Visit} {state : Mapping} (hcoherent : Coherent doc state)
    (hfits : ∀ path ∈ Visit.paths visits, Fits doc depth state.chain path)
    (hallowed : ∀ visit ∈ visits, allowed visit) (hstate : p state) :
    p (Visit.runAll (expand doc depth) visits state) := by
  -- The induction is on the visits. After each of them the state is coherent with the same chain,
  -- so that the depth still fits.
  induction visits generalizing state with
  | nil => exact hstate
  | cons visit more ih =>
    have hmore {path : String} : path ∈ Visit.paths more → path ∈ Visit.paths (visit :: more) :=
      Visit.mem_paths_cons_of_mem visit
    obtain ⟨hvisit, hrest⟩ := List.forall_mem_cons.mp hallowed
    rcases visit with path | diagnostic
    · have hfirst := hfits path (Visit.mem_paths.mpr List.mem_cons_self)
      obtain ⟨log, next, hnext⟩ := expand_run hclosed hcoherent hfirst
      have hchain := hnext.follows.chain
      have hstep : (Visit.reference path).run (expand doc depth) state = next :=
        congrArg Prod.snd hnext.run
      have hkept := hexpand path state hcoherent hfirst hvisit hstate
      rw [hnext.run] at hkept
      rw [Visit.runAll, List.foldl_cons, hstep]
      exact ih (hnext.follows.coherent hcoherent) (fun path h => hchain ▸ hfits path (hmore h))
        hrest hkept
    · have hstep : Step doc state .quiet ((Visit.fault diagnostic).run (expand doc depth) state) :=
        .report state diagnostic
      exact ih (hstep.coherent hcoherent) (fun path h => hfits path (hmore h)) hrest
        (h.report state diagnostic hvisit hstate)

/-- Following an allowed reference keeps the property, at any depth that fits. The induction is on
the depth, since the references in a target are followed at the next smaller one. -/
private theorem expand (h : Kept doc allowed p) (hclosed : doc.Closed) {depth : Nat} {path : String}
    {state : Mapping} (hcoherent : Coherent doc state) (hfits : Fits doc depth state.chain path)
    (hallowed : allowed (.reference path)) (hstate : p state) :
    p ((Mapping.expand doc depth path).run state).2 := by
  induction depth generalizing path state with
  | zero => exact absurd hfits.1 (Nat.not_lt_zero _)
  | succ depth ih =>
    by_cases hreached : state.Reached (doc.target path).1
    · rw [expand_of_reached hreached]
      exact h.name state _ hstate
    · rcases htarget : (doc.target path).2 with _ | schema
      · rw [expand_of_dangling hreached htarget]
        exact hstate
      · have hentered := coherent_entered hcoherent hreached htarget
        have hinside := fits_entered hclosed hfits hreached htarget
        obtain ⟨_, inner, hinner⟩ := expandsAll_of_forall
          (fun path state => expand_run hclosed) hentered hinside
        -- The target is mapped one level deeper, which is what the induction hypothesis is for.
        have hkept := h.runAll hclosed (fun path state => ih) hentered hinside
          (h.target path schema hallowed htarget) (h.enter _ _ (h.name state _ hstate))
        have htranslate := translate_traverses _ _ schema _ _ hinner.answered
        rw [hinner.run] at hkept htranslate
        rw [expand_of_target hreached htarget]
        simp only [htranslate]
        refine h.leave _ _ _ _ _ _ _ ?_ hinner hentered hkept
        rw [Document.target_fst, Document.target_canonical, htarget]

/-- **What following references keeps.** Visits that are allowed keep what following references
keeps. -/
theorem expandsAll (h : Kept doc allowed p) (hclosed : doc.Closed) {visits : List Visit}
    {first second : Mapping} {log : List Descent}
    (hexpands : ExpandsAll doc (depthLimit doc) visits first log second)
    (hcoherent : Coherent doc first) (hallowed : ∀ visit ∈ visits, allowed visit)
    (hfirst : p first) : p second := by
  rw [← hexpands.run]
  exact h.runAll hclosed (fun _ _ => h.expand hclosed) hcoherent
    (fun path _ => fits_depthLimit doc first.chain path) hallowed hfirst

end Kept

/-! ### The limit -/

/-- Visits do not depend on a depth if following each single reference does not. -/
private theorem runAll_congr {doc : Document} (hclosed : doc.Closed) {depth other : Nat}
    (hexpand : ∀ path state, Coherent doc state → Fits doc depth state.chain path →
      Fits doc other state.chain path →
      (expand doc depth path).run state = (expand doc other path).run state)
    {visits : List Visit} {state : Mapping} (hcoherent : Coherent doc state)
    (hfits : ∀ path ∈ Visit.paths visits, Fits doc depth state.chain path)
    (hfits' : ∀ path ∈ Visit.paths visits, Fits doc other state.chain path) :
    Visit.runAll (expand doc depth) visits state =
      Visit.runAll (expand doc other) visits state := by
  -- The induction is on the visits. Both sides reach the same state after the first one, with the
  -- same chain, so that the depths still fit.
  induction visits generalizing state with
  | nil => rfl
  | cons visit more ih =>
    have hmore {path : String} : path ∈ Visit.paths more → path ∈ Visit.paths (visit :: more) :=
      Visit.mem_paths_cons_of_mem visit
    rcases visit with path | diagnostic
    · have hfirst : path ∈ Visit.paths (.reference path :: more) :=
        Visit.mem_paths.mpr List.mem_cons_self
      obtain ⟨log, next, hnext⟩ := expand_run hclosed hcoherent (hfits path hfirst)
      have hchain := hnext.follows.chain
      have heq := hexpand path state hcoherent (hfits path hfirst) (hfits' path hfirst)
      have hstep : (Visit.reference path).run (expand doc depth) state = next :=
        congrArg Prod.snd hnext.run
      have hstep' : (Visit.reference path).run (expand doc other) state = next :=
        congrArg Prod.snd (heq.symm.trans hnext.run)
      rw [Visit.runAll, Visit.runAll, List.foldl_cons, List.foldl_cons, hstep, hstep']
      exact ih (hnext.follows.coherent hcoherent) (fun path h => hchain ▸ hfits path (hmore h))
        fun path h => hchain ▸ hfits' path (hmore h)
    · have hstep : Run doc state [.quiet] ((Visit.fault diagnostic).run (expand doc depth) state) :=
        .single (.report state diagnostic)
      exact ih (hstep.coherent hcoherent) (fun path h => hfits path (hmore h))
        fun path h => hfits' path (hmore h)

/-- Translating a schema does the same if following each of its references does. -/
private theorem translate_congr {doc : Document} (hclosed : doc.Closed) {depth other : Nat}
    (hexpand : ∀ path state, Coherent doc state → Fits doc depth state.chain path →
      Fits doc other state.chain path →
      (expand doc depth path).run state = (expand doc other path).run state)
    {schema : Schema} {pointer : String} {state : Mapping} (hcoherent : Coherent doc state)
    (hfits : ∀ path ∈ Visit.paths (schema.visits pointer), Fits doc depth state.chain path)
    (hfits' : ∀ path ∈ Visit.paths (schema.visits pointer), Fits doc other state.chain path) :
    (schema.translate (expand doc depth) pointer).run state =
      (schema.translate (expand doc other) pointer).run state := by
  obtain ⟨_, inner, hinner⟩ := expandsAll_of_forall
    (fun path state => expand_run hclosed) hcoherent hfits
  obtain ⟨_, inner', hinner'⟩ := expandsAll_of_forall
    (fun path state => expand_run hclosed) hcoherent hfits'
  have heq : inner = inner' := by
    rw [← hinner.run, ← hinner'.run]
    exact runAll_congr hclosed hexpand hcoherent hfits hfits'
  rw [translate_traverses _ _ schema _ _ hinner.answered,
    translate_traverses _ _ schema _ _ hinner'.answered, hinner.run, hinner'.run, heq]

/-- **The limit is no limit.** Any two limits that are large enough give the same: a mapper without
a limit would come to the same end. -/
theorem expand_limit {doc : Document} (hclosed : doc.Closed) {depth other : Nat} {path : String}
    {state : Mapping} (hcoherent : Coherent doc state) (hfits : Fits doc depth state.chain path)
    (hfits' : Fits doc other state.chain path) :
    (expand doc depth path).run state = (expand doc other path).run state := by
  induction depth generalizing other path state with
  | zero => exact absurd hfits.1 (Nat.not_lt_zero _)
  | succ depth ih =>
    rcases other with _ | other
    · exact absurd hfits'.1 (Nat.not_lt_zero _)
    · by_cases hreached : state.Reached (doc.target path).1
      · rw [expand_of_reached hreached, expand_of_reached hreached]
      · rcases htarget : (doc.target path).2 with _ | schema
        · rw [expand_of_dangling hreached htarget, expand_of_dangling hreached htarget]
        · have htranslate := translate_congr hclosed (fun path state => ih)
            (coherent_entered hcoherent hreached htarget)
            (fits_entered hclosed hfits hreached htarget)
            (fits_entered hclosed hfits' hreached htarget)
          rw [expand_of_target hreached htarget, expand_of_target hreached htarget]
          simp only [htranslate]

/-- **Without a limit.** Following a reference to a schema that has not been reached yet maps that
schema, below the key of the reference, and stores its type. -/
theorem mapReference_of_target {doc : Document} (hclosed : doc.Closed) {path : String}
    {state : Mapping} (hcoherent : Coherent doc state) (h : ¬state.Reached (doc.target path).1)
    {schema : Schema} (htarget : (doc.target path).2 = some schema) :
    (mapReference doc path).run state =
      let key := (doc.target path).1
      let name := (state.names.resolve key).1
      let (type, mapped) := (mapSchema doc schema key).run (state.entered key)
      (.reference key name, { mapped with chain := mapped.chain.tail }.store key name type) := by
  -- One level of the limit is used up, and what is left is still large enough.
  have hfits : Fits doc (doc.raw.countStrings + 1 + 1) state.chain path :=
    fits_depthLimit doc state.chain path
  have htranslate := translate_congr hclosed
    (fun path state hcoherent hfits hfits' => expand_limit hclosed hcoherent hfits hfits')
    (coherent_entered hcoherent h htarget) (fits_entered hclosed hfits h htarget)
    fun other _ => fits_depthLimit doc _ other
  rw [mapReference, depthLimit, expand_of_target h htarget]
  simp only [htranslate]
  rfl

/-- **Mapping a schema.** In a closed document, mapping a schema makes the visits of the schema,
each of which is a run that comes back from all its descents, and gives the outline of the schema,
with references named as they are in the end. -/
theorem mapSchema_run {doc : Document} (hclosed : doc.Closed) (schema : Schema) (pointer : String)
    {state : Mapping} (hcoherent : Coherent doc state) :
    ∃ log later, ExpandsAll doc (depthLimit doc) (schema.visits pointer) state log later ∧
      (mapSchema doc schema pointer).run state = (schema.outline (nameOf doc later), later) := by
  obtain ⟨log, later, hlater⟩ := expandsAll_of_forall
    (fun path state hcoherent hfits => expand_run hclosed hcoherent hfits) hcoherent
    fun path _ => fits_depthLimit doc state.chain path
  refine ⟨log, later, hlater, ?_⟩
  have htranslate := translate_traverses (expand doc (depthLimit doc)) (nameOf doc later) schema
    pointer state hlater.answered
  rw [hlater.run] at htranslate
  exact htranslate

/-- The visits of all component schemas, in order. -/
def componentVisits (doc : Document) : List Visit :=
  doc.schemas.map fun component => .reference (Reference.componentKey component.1)

theorem mem_paths_componentVisits {doc : Document} {path : String} :
    path ∈ Visit.paths (componentVisits doc) ↔
      ∃ component ∈ doc.schemas, Reference.componentKey component.1 = path := by
  rw [Visit.mem_paths, componentVisits, List.mem_map]
  simp only [Visit.reference.injEq]

/-- Mapping the components is visiting all of them. -/
private theorem mapComponents_eq_runAll (doc : Document) (state : Mapping) :
    (mapComponents doc).run state =
      ((), Visit.runAll (mapReference doc) (componentVisits doc) state) := by
  rw [mapComponents, componentVisits, List.forM_eq_forM]
  -- How references are followed plays no role.
  generalize mapReference doc = onRef
  induction doc.schemas generalizing state with
  | nil => rfl
  | cons component more ih =>
    rw [List.forM_cons, StateT.run_bind]
    exact ih _

/-- **Mapping all components.** In a closed document, mapping all components visits the reference to
each of them, which is a run that comes back from all its descents. -/
theorem mapComponents_run {doc : Document} (hclosed : doc.Closed) {state : Mapping}
    (hcoherent : Coherent doc state) :
    ∃ log later, ExpandsAll doc (depthLimit doc) (componentVisits doc) state log later ∧
      (mapComponents doc).run state = ((), later) := by
  obtain ⟨log, later, hlater⟩ := expandsAll_of_forall
    (fun path state hcoherent hfits => expand_run hclosed hcoherent hfits) hcoherent
    fun path _ => fits_depthLimit doc state.chain path
  have hrun : Visit.runAll (mapReference doc) (componentVisits doc) state = later := hlater.run
  refine ⟨log, later, hlater, ?_⟩
  rw [mapComponents_eq_runAll, hrun]

end ClientGen.Mapping
