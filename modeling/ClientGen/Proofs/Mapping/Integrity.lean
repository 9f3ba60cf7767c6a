import ClientGen.Generation.Basic
import ClientGen.Proofs.Mapping.Effects
import ClientGen.Proofs.Mapping.Naming
import ClientGen.Proofs.Mapping.Session

/-!
# Referential integrity

Every reference in what a document is mapped to, in the table or in an endpoint, leads to an entry
of the table, under its key and with its name, if there is anything in the document for it to lead
to (`toApi_integrity`). A reference is given out before its entry is there, so this is no property
of single steps: what each part of the mapper yields is *sound* in the state it leaves behind, and
remains so in all later states.
-/

namespace ClientGen.Mapping

open OpenApi

/-! ### Sound types -/

/-- Whether the references in types are resolved, and called as they should be. -/
def Sound (doc : Document) (state : Mapping) (types : List Descriptor) : Prop :=
  ∀ type ∈ types, ∀ reference ∈ type.references,
    Resolved doc state reference ∧ Named doc state reference

/-- What holds of a state whenever the mapper is between two schemas. -/
structure Ready (doc : Document) (state : Mapping) : Prop where
  coherent : Coherent doc state
  settled : Settled doc state
  chain : state.chain = []
  orderly : Orderly state
  located : Located doc state
  tidy : Tidy doc state

section Sound

variable {doc : Document} {first second : Mapping} {types more : List Descriptor}

/-- What is sound stays sound while nothing is taken back. -/
theorem Sound.extend (h : Sound doc first types) (hextends : Extends first second) :
    Sound doc second types :=
  fun type htype reference hreference => (h type htype reference hreference).imp
    (·.extend hextends) (·.extend hextends)

/-- Of what is sound, every part is. -/
theorem Sound.subset (h : Sound doc first types) (hsubset : more ⊆ types) :
    Sound doc first more :=
  fun type htype => h type (hsubset htype)

theorem Sound.append (h : Sound doc first types) (h' : Sound doc first more) :
    Sound doc first (types ++ more) :=
  fun type htype => (List.mem_append.mp htype).elim (h type) (h' type)

/-- No types are sound in any state. -/
theorem sound_nil (doc : Document) (state : Mapping) : Sound doc state [] :=
  fun _ hmem => absurd hmem List.not_mem_nil

/-- A type without references is sound in any state. -/
theorem sound_of_references_eq_nil {type : Descriptor} (h : type.references = [])
    (doc : Document) (state : Mapping) : Sound doc state [type] := by
  intro other hother reference hreference
  rw [List.mem_singleton.mp hother, h] at hreference
  cases hreference

end Sound

/-- Whether a computation takes a state that is ready, and in which the known types are sound, to
another such state, and yields sound types. -/
def Yields {α : Type} (doc : Document) (known : List Descriptor) (x : MapM α)
    (types : α → List Descriptor) : Prop :=
  ∀ state, Ready doc state → Sound doc state known →
    Ready doc (x.run state).2 ∧ Extends state (x.run state).2 ∧
      Sound doc (x.run state).2 (types (x.run state).1)

namespace Yields

variable {doc : Document} {known : List Descriptor} {α β ρ : Type}

theorem pure {a : α} {types : α → List Descriptor} (h : types a ⊆ known) :
    Yields doc known (Pure.pure a) types :=
  fun state hready hknown => ⟨hready, .refl state, hknown.subset h⟩

/-- The second of two computations may rely on what the first one yields. -/
theorem bind {x : MapM α} {f : α → MapM β} {types : α → List Descriptor}
    {more : β → List Descriptor} (hx : Yields doc known x types)
    (hf : ∀ a, Yields doc (known ++ types a) (f a) more) : Yields doc known (x >>= f) more := by
  intro state hready hknown
  obtain ⟨hready', hextends, hsound⟩ := hx state hready hknown
  obtain ⟨hready'', hextends', hsound'⟩ :=
    hf (x.run state).1 (x.run state).2 hready' ((hknown.extend hextends).append hsound)
  exact ⟨hready'', hextends.trans hextends', hsound'⟩

/-- What is yielded may be forgotten. -/
theorem weaken {x : MapM α} {types fewer : α → List Descriptor} (h : Yields doc known x types)
    (hsubset : ∀ a, fewer a ⊆ types a) : Yields doc known x fewer := by
  intro state hready hknown
  obtain ⟨hready', hextends, hsound⟩ := h state hready hknown
  exact ⟨hready', hextends, hsound.subset (hsubset _)⟩

theorem mono {x : MapM α} {types : α → List Descriptor} {more : List Descriptor}
    (h : Yields doc known x types) (hsubset : known ⊆ more) : Yields doc more x types :=
  fun state hready hknown => h state hready (hknown.subset hsubset)

theorem map {x : MapM α} {f : α → β} {types : α → List Descriptor} {more : β → List Descriptor}
    (h : Yields doc known x types) (hsubset : ∀ a, more (f a) ⊆ types a) :
    Yields doc known (f <$> x) more := by
  intro state hready hknown
  obtain ⟨hready', hextends, hsound⟩ := h state hready hknown
  exact ⟨hready', hextends, hsound.subset (hsubset _)⟩

theorem mapM {f : ρ → MapM α} {types : α → List Descriptor} {list : List ρ}
    (h : ∀ x ∈ list, Yields doc known (f x) types) :
    Yields doc known (list.mapM f) fun results => results.flatMap types := by
  induction list with
  | nil => exact pure (List.nil_subset _)
  | cons x more ih =>
    rw [List.mapM_cons]
    refine (h x List.mem_cons_self).bind fun a => ?_
    have hmore := ih fun y hy => h y (List.mem_cons_of_mem x hy)
    refine (hmore.mono (List.subset_append_left _ _)).bind fun results => pure ?_
    rw [List.flatMap_cons, List.append_assoc]
    exact List.subset_append_right _ _

end Yields

/-! ### Schemas -/

section Schemas

variable {doc : Document} {known : List Descriptor}

/-- A run without anything written in place keeps a state ready if it comes back. -/
private theorem Ready.follow {first second : Mapping} {log : List Descent} (h : Ready doc first)
    (hfollows : Follows doc first log second) (htidy : Tidy doc second) : Ready doc second := by
  obtain ⟨events, run, hhoists, -, hchain⟩ := hfollows
  obtain ⟨horderly, hlocated⟩ := run.orderly hhoists h.orderly h.located
  exact ⟨run.coherent h.coherent, run.settled hhoists h.settled, hchain.trans h.chain, horderly,
    hlocated, htidy⟩

theorem yields_report (pointer : String) (reason : Degradation) :
    Yields doc known (report pointer reason) fun _ => [] := by
  intro state hready _
  have hstep : Follows doc state [] ((report pointer reason).run state).2 :=
    ⟨_, .single (.report state ⟨pointer, reason⟩), rfl, rfl, rfl⟩
  exact ⟨hready.follow hstep (hready.tidy.extend hstep.keeps rfl), hstep.keeps, sound_nil _ _⟩

theorem yields_mapSchema (hclosed : doc.Closed) (schema : Schema) (pointer : String) :
    Yields doc known (mapSchema doc schema pointer) fun type => [type] := by
  intro state hready _
  obtain ⟨log, later, hlater, hrun⟩ := mapSchema_run hclosed schema pointer hready.coherent
  have htidy := tidy_expandsAll hclosed hlater hready.coherent hready.tidy
  rw [hrun]
  refine ⟨hready.follow hlater.follows htidy, hlater.follows.keeps,
    fun type htype reference hreference => ?_⟩
  rw [List.mem_singleton.mp htype] at hreference
  exact ⟨resolved_outline hlater hready.coherent reference hreference,
    named_outline hlater hready.coherent reference hreference⟩

/-- Mapping the components yields no types, for they are stored. -/
theorem yields_mapComponents (hclosed : doc.Closed) :
    Yields doc known (mapComponents doc) fun _ => [] := by
  intro state hready _
  obtain ⟨log, later, hlater, hrun⟩ := mapComponents_run hclosed hready.coherent
  have htidy := tidy_expandsAll hclosed hlater hready.coherent hready.tidy
  rw [hrun]
  exact ⟨hready.follow hlater.follows htidy, hlater.follows.keeps, sound_nil _ _⟩

/-- The reference to a finished key is sound. -/
private theorem sound_hoisted {state : Mapping} (hcoherent : Coherent doc state) {key : String}
    {type : Descriptor} (h : state.hoisted? key = some type) : Sound doc state [type] := by
  rw [hoisted?] at h
  split_ifs at h with hmapped
  have hmem := List.contains_iff_mem.mp hmapped
  obtain ⟨entry, hget, hname⟩ := hcoherent.entry key hmem
  rw [hget] at h
  cases h
  intro type htype reference hreference
  rw [List.mem_singleton.mp htype] at hreference
  rw [List.mem_singleton.mp hreference, Table.key_of_get? hget]
  exact ⟨fun _ => ⟨hname, Or.inl hmem⟩, Or.inl hname⟩

/-- Hoisting a type that is known yields the reference to it. Its key ends like the key of content,
so that it is that of no component. -/
theorem yields_hoist {key : String} (hkey : Reference.lastSegment key = "schema") (base : String)
    (type : Descriptor) :
    Yields doc (known ++ [type]) (hoist key base type) fun type => [type] := by
  intro state hready hknown
  have hstep : Step doc state (.hoist key type) _ :=
    .hoist state key (Identifier.typeName base) type hready.chain
  have hname := Registry.name?_resolveAs_self state.names key (Identifier.typeName base)
  have hresolved := hready.orderly.resolveAs key (Identifier.isTypeName_typeName base)
  have hsound := hknown type (List.mem_append_right _ (List.mem_singleton_self _))
  have hlocated : Located doc { state with
      names := (state.names.resolveAs key (Identifier.typeName base)).2 } := hready.located
  -- The new entry has the references of the type, which are sound, and its key is that of content.
  refine ⟨⟨hstep.coherent hready.coherent, ?_, hready.chain, hresolved.store hname type,
    hlocated.store hresolved hname (Or.inr hkey) type, ?_⟩, hstep.keeps, ?_⟩
  · refine hstep.settled hready.settled fun key' type' heq reference hreference => ?_
    cases heq
    exact (hsound reference hreference).1
  · intro entry hentry reference hreference
    rcases Table.mem_insert hentry with rfl | hold
    · exact (hsound reference hreference).2.extend hstep.keeps
    · exact (hready.tidy entry hold reference hreference).extend hstep.keeps
  · intro type htype reference hreference
    rw [List.mem_singleton.mp htype] at hreference
    rw [List.mem_singleton.mp hreference]
    exact ⟨fun _ => ⟨hname, Or.inl (mem_mapped_store.mpr (Or.inl rfl))⟩, Or.inl hname⟩

end Schemas

/-! ### Endpoints -/

section Endpoints

variable {doc : Document} {known : List Descriptor} {α : Type}

/-- Types without references are sound anyway. -/
private theorem Yields.free {x : MapM α} {types : α → List Descriptor} {type : Descriptor}
    (hfree : type.references = []) (h : Yields doc (known ++ [type]) x types) :
    Yields doc known x types :=
  fun state hready hknown =>
    h state hready (hknown.append (sound_of_references_eq_nil hfree doc state))

/-- Merging parameters yields no types. -/
private theorem yields_mergeParameters (merged : List (Parameter × String))
    (declared : List (Referable Parameter × String)) :
    Yields doc known (mergeParameters doc merged declared) fun _ => [] := by
  induction declared generalizing known merged with
  | nil => exact .pure (List.nil_subset _)
  | cons first more ih =>
    rw [mergeParameters]
    split
    · exact ih _
    · exact (yields_report _ _).bind fun _ => ih _

/-- Mapping the schema of a parameter yields its type. -/
private theorem yields_parameterType (hclosed : doc.Closed) (parameter : Parameter)
    (pointer : String) :
    Yields doc known (parameterType doc parameter pointer) fun type => [type] := by
  rw [parameterType]
  split
  · exact yields_mapSchema hclosed _ _
  · split
    · exact yields_mapSchema hclosed _ _
    · exact .free rfl (.pure (List.subset_append_right _ _))

private theorem yields_mapParameters (hclosed : doc.Closed) (merged : List (Parameter × String)) :
    Yields doc known (mapParameters doc merged) fun parameters => parameters.map (·.type) := by
  induction merged generalizing known with
  | nil => exact .pure (List.nil_subset _)
  | cons first more ih =>
    obtain ⟨parameter, pointer⟩ := first
    rw [mapParameters]
    split
    · refine (yields_parameterType hclosed parameter pointer).bind fun type => ?_
      refine ih.bind fun parameters => .pure ?_
      rw [List.append_assoc]
      exact List.subset_append_right _ _
    · exact (yields_report _ _).bind fun _ => ih

/-- Synthesizing parameters yields the types that are known and those of strings. -/
private theorem yields_completePath (pointer : String) (parameters : List EndpointParameter)
    (names : List String) (h : parameters.map (·.type) ⊆ known) :
    Yields doc known (completePath pointer parameters names) fun parameters =>
      parameters.map (·.type) := by
  induction names generalizing known parameters with
  | nil => exact .pure h
  | cons name more ih =>
    rw [completePath]
    split
    · exact ih parameters h
    · refine (yields_report _ _).bind fun _ => ?_
      rw [List.append_nil]
      -- The parameter that is made up is a text, which has no references.
      refine @Yields.free doc _ _ _ _ (.scalar .string) rfl (ih _ ?_)
      rw [List.map_append]
      exact List.append_subset.mpr ⟨List.Subset.trans h (List.subset_append_left _ _),
        List.subset_append_right _ _⟩

private theorem yields_siteParameters (hclosed : doc.Closed) (site : Site) :
    Yields doc known (siteParameters doc site) fun parameters => parameters.map (·.type) :=
  (yields_mergeParameters _ _).bind fun merged => (yields_mapParameters hclosed merged).bind
    fun _ => yields_completePath _ _ _ (List.subset_append_right _ _)

/-- Mapping content yields its type, which is a reference if it is hoisted. -/
private theorem yields_mapHoisted (hclosed : doc.Closed) (schema : Schema) {key : String}
    (hkey : Reference.lastSegment key = "schema") (base : String) :
    Yields doc known (mapHoisted doc schema key base) fun type => [type] := by
  intro state hready hknown
  rcases hhoisted : state.hoisted? key with _ | reference
  -- A type that is stored already is not mapped again, only referred to.
  · rw [mapHoisted_of_not_hoisted hhoisted]
    have hyields : Yields doc known (do
        let type ← mapSchema doc schema key
        if type.isComplex then hoist key base type else return type) fun type => [type] := by
      refine (yields_mapSchema hclosed schema key).bind fun type => ?_
      split
      · exact yields_hoist hkey base type
      · exact .pure (List.subset_append_right _ _)
    exact hyields state hready hknown
  · rw [mapHoisted_of_hoisted hhoisted]
    exact ⟨hready, .refl state, sound_hoisted hready.coherent hhoisted⟩

private theorem yields_mapBody (hclosed : doc.Closed) (body : Referable RequestBody)
    (pointer base : String) :
    Yields doc known (mapBody doc body pointer base) fun found =>
      found.toList.map (·.2.type) := by
  rw [mapBody]
  split
  · exact .pure (List.nil_subset _)
  · dsimp only
    split
    · rw [pure_bind]
      exact .free rfl (.pure (List.subset_append_right _ _))
    · split
      · refine (yields_mapHoisted hclosed _ (Reference.lastSegment_child _ _) _).bind fun type => ?_
        rw [pure_bind]
        exact .pure (List.subset_append_right _ _)
      · rw [pure_bind, pure_bind]
        exact .free rfl (.pure (List.subset_append_right _ _))

private theorem yields_mapResponse (hclosed : doc.Closed) (response : Referable Response)
    (pointer base status : String) :
    Yields doc known (mapResponse doc response pointer base status) Option.toList := by
  rw [mapResponse]
  split
  · exact (yields_report _ _).bind fun _ => .pure (List.nil_subset _)
  · dsimp only
    split
    · exact (yields_mapHoisted hclosed _ (Reference.lastSegment_child _ _) _).map
        fun _ => List.Subset.refl _
    · exact .pure (List.nil_subset _)

private theorem yields_siteBody (hclosed : doc.Closed) (site : Site) (base : String) :
    Yields doc known (siteBody doc site base) fun found => found.2.map (·.type) := by
  rw [siteBody]
  split
  · exact .pure (List.nil_subset _)
  · refine (yields_mapBody hclosed _ _ _).bind fun found => ?_
    split
    · exact .pure (List.subset_append_right _ _)
    · exact (yields_report _ _).bind fun _ => .pure (List.nil_subset _)

private theorem yields_siteResponses (hclosed : doc.Closed) (site : Site) (base : String) :
    Yields doc known (siteResponses doc site base) fun responses =>
      responses.filterMap Prod.snd := by
  have hall : Yields doc known (siteResponses doc site base) fun responses =>
      responses.flatMap fun response => response.2.toList :=
    .mapM fun response _ => (yields_mapResponse hclosed _ _ _ _).bind fun _ =>
      .pure (List.subset_append_right _ _)
  refine hall.weaken fun responses type htype => ?_
  obtain ⟨response, hmem, hsome⟩ := List.mem_filterMap.mp htype
  exact List.mem_flatMap.mpr ⟨response, hmem, Option.mem_toList.mpr hsome⟩

private theorem yields_mapSite (hclosed : doc.Closed) (site : Site) (name : String) :
    Yields doc known (mapSite doc site name) Api.endpointTypes := by
  refine (yields_siteParameters hclosed site).bind fun parameters => ?_
  refine (yields_siteBody hclosed site _).bind fun body => ?_
  refine (yields_siteResponses hclosed site _).bind fun responses => .pure ?_
  intro type htype
  simp only [Api.endpointTypes, List.map_append, List.mem_append] at htype ⊢
  tauto

theorem yields_mapEndpoints (hclosed : doc.Closed) :
    Yields doc known (mapEndpoints doc) fun endpoints => endpoints.flatMap Api.endpointTypes :=
  (yields_mapComponents hclosed).bind fun _ =>
    .mapM fun site _ => yields_mapSite hclosed site.1 site.2

end Endpoints

/-! ### Documents -/

theorem ready_start (doc : Document) : Ready doc (start doc) :=
  ⟨coherent_start doc, settled_start doc, chain_start doc, orderly_start doc, located_start doc,
    tidy_start doc⟩

/-- The state that the mapping of a document ends in. -/
def final (doc : Document) : Mapping :=
  ((mapEndpoints doc).run (start doc)).2

theorem ready_final {doc : Document} (hclosed : doc.Closed) : Ready doc (final doc) :=
  (yields_mapEndpoints hclosed (start doc) (ready_start doc) (sound_nil doc (start doc))).1

/-- In a state that is ready, a resolved reference to something has an entry with its name. -/
private theorem exists_entry_of_resolved {doc : Document} {state : Mapping}
    (hready : Ready doc state) {reference : String × String} (h : Resolved doc state reference)
    (htarget : (doc.target reference.1).2.isSome) :
    ∃ entry, state.finish.1.get? reference.1 = some entry ∧ entry.name = reference.2 := by
  obtain ⟨hname, hreached⟩ := h htarget
  -- Nothing is above any more, so that what was reached is finished.
  have hmapped : reference.1 ∈ state.mapped := by
    refine hreached.resolve_right fun hmem => ?_
    rw [hready.chain] at hmem
    cases hmem
  obtain ⟨entry, hget, hnamed⟩ := hready.coherent.entry reference.1 hmapped
  obtain ⟨flagged, hflagged, -, hsame, -⟩ := Table.get?_markRecursive hget
  refine ⟨flagged, hflagged, hsame.trans ?_⟩
  rw [hnamed] at hname
  exact Option.some.inj hname

/-- The references of what a document is mapped to are sound in the last state of the mapping. -/
theorem sound_of_mem_references {doc : Document} (hclosed : doc.Closed)
    {reference : String × String} (h : reference ∈ (Document.toApi doc).references) :
    Resolved doc (final doc) reference ∧ Named doc (final doc) reference := by
  obtain ⟨hready, -, hsound⟩ := yields_mapEndpoints hclosed (start doc) (ready_start doc)
    (sound_nil doc (start doc))
  rcases List.mem_append.mp h with hmem | hmem
  · obtain ⟨entry, hentry, hreference⟩ := List.mem_flatMap.mp hmem
    obtain ⟨old, hold, -, -, htype⟩ := Table.mem_markRecursive hentry
    rw [htype] at hreference
    exact ⟨hready.settled old hold reference hreference, hready.tidy old hold reference hreference⟩
  · obtain ⟨endpoint, hendpoint, hmem⟩ := List.mem_flatMap.mp hmem
    obtain ⟨type, htype, hreference⟩ := List.mem_flatMap.mp hmem
    exact hsound type (List.mem_flatMap.mpr ⟨endpoint, hendpoint, htype⟩) reference hreference

/-- Generation succeeds, whatever the target, if every reference has an entry. -/
private theorem generate_of_contains {api : Api}
    (h : ∀ reference ∈ api.references, api.types.contains reference.1 = true) (target : Target) :
    api.generate target = .ok (api.toModule target).text := by
  have hdangling : api.danglingKey? = none := by
    rw [Api.danglingKey?, List.find?_eq_none]
    intro key hkey
    obtain ⟨reference, hmem, rfl⟩ := List.mem_map.mp hkey
    simp [h reference hmem]
  rw [Api.generate, Api.checkedModule, hdangling]

/-- **Integrity.** If every reference in what a document is mapped to, in the table or in an
endpoint, has a target in the document, then each of them has an entry in the table, under its key
and with its name, and a client of the document is generated for every target. -/
theorem toApi_integrity {json : Json} {doc : Document} (h : Document.ofJson json = .ok doc)
    (htargets : ∀ reference ∈ (Document.toApi doc).references,
      (doc.target reference.1).2.isSome) :
    (∀ reference ∈ (Document.toApi doc).references, ∃ entry,
      (Document.toApi doc).types.get? reference.1 = some entry ∧ entry.name = reference.2) ∧
    ∀ target, ∃ text, (Document.toApi doc).generate target = .ok text := by
  have hclosed := Document.closed_ofJson h
  have hentries (reference : String × String)
      (hmem : reference ∈ (Document.toApi doc).references) : ∃ entry,
        (Document.toApi doc).types.get? reference.1 = some entry ∧ entry.name = reference.2 :=
    exists_entry_of_resolved (ready_final hclosed) (sound_of_mem_references hclosed hmem).1
      (htargets reference hmem)
  refine ⟨hentries, fun target => ⟨_, generate_of_contains (fun reference hmem => ?_) target⟩⟩
  obtain ⟨entry, hget, -⟩ := hentries reference hmem
  rw [Table.contains, List.any_eq_true]
  exact ⟨entry, Table.mem_of_get? hget, beq_iff_eq.mpr (Table.key_of_get? hget)⟩

/-- The place of the schema of the answer with a node. -/
def nodeSite : String :=
  "#/paths/~1/get/responses/200/content/text~1json/schema"

/-- A component that refers to itself and a response that is hoisted both have their entries, and
all clients are generated. -/
theorem toApi_integrity_node :
    (∃ entry, (Document.toApi nodeDocument).types.get? nodeKey = some entry ∧ entry.name = "Node") ∧
      (∃ entry, (Document.toApi nodeDocument).types.get? nodeSite = some entry ∧
        entry.name = "GetRootResponse200") ∧
      ∀ target, ∃ text, (Document.toApi nodeDocument).generate target = .ok text := by
  have hreferences : (Document.toApi nodeDocument).references =
      [(nodeKey, "Node"), (nodeKey, "Node"), (nodeSite, "GetRootResponse200")] := by
    decide +kernel
  have hsite : (nodeDocument.target nodeSite).2.isSome := by
    decide +kernel
  have htargets : ∀ reference ∈ (Document.toApi nodeDocument).references,
      (nodeDocument.target reference.1).2.isSome := by
    rw [hreferences]
    exact List.forall_mem_cons.mpr ⟨rfl, List.forall_mem_cons.mpr ⟨rfl,
      List.forall_mem_singleton.mpr hsite⟩⟩
  obtain ⟨hentries, hgenerate⟩ := toApi_integrity ofJson_nodeJson htargets
  rw [hreferences] at hentries
  have hsites := List.forall_mem_cons.mp (List.forall_mem_cons.mp hentries).2
  exact ⟨hsites.1, hsites.2 (nodeSite, "GetRootResponse200") List.mem_cons_self, hgenerate⟩

end ClientGen.Mapping
