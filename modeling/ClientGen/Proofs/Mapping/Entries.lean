import ClientGen.Proofs.Mapping.Integrity
import ClientGen.Proofs.Mapping.Pointers

/-!
# Where entries stand

The key of an entry is that of a component, or of a target of references, or the place of the schema
of a body or response (`key_of_mem_final`), and it is canonical (`canonical_of_mem_final`). A
reference with an entry is called as an entry is (`exists_name_of_mem_references`), unless its key
is such a place and the document has no schema there: then it was taken for dangling before the
entry was stored. In a document with all its records written as objects there is a schema in each
such place (`not_strays`).
-/

namespace ClientGen.Mapping

open OpenApi

/-! ### Keys -/

section Keys

variable {doc : Document}

/-- **Keys of entries.** -/
theorem key_of_mem_final (hclosed : doc.Closed) {entry : Entry}
    (h : entry ∈ (final doc).table.entries) :
    (∃ component ∈ doc.schemas, Reference.componentKey component.1 = entry.key) ∨
      (doc.target entry.key).2.isSome ∨ Stores doc entry.key := by
  have hidle := idle_start doc
  obtain ⟨events, run, hhoists⟩ := (performs_mapEndpoints hclosed _ hidle).run
  rcases run.touches_of_mem hidle h with ⟨old, hold, hkey⟩ | hmem | ⟨descent, hmem, hkey⟩
  · rw [← hkey]
    exact Or.inl (exists_component_of_mem_start hold)
  · exact Or.inr (Or.inr (hhoists _ hmem))
  · obtain ⟨-, -, -, htarget⟩ := (run.nodup_descents hidle.coherent).2 descent hmem
    exact Or.inr (Or.inl (hkey ▸ htarget))

end Keys

/-! ### Places without a schema -/

/-- Whether a type that was written in place may be stored where the document has no schema. -/
def Strays (doc : Document) : Prop :=
  ∃ key, Stores doc key ∧ (doc.target key).2 = none

/-- The schema of content does not stand where components do. -/
private theorem componentName?_contentSchema (pointer media : String) :
    Reference.componentName? "schemas" (contentSchema pointer media) = none := by
  rcases h : Reference.componentName? "schemas" (contentSchema pointer media) with _ | name
  · rfl
  · have hparent := Reference.eq_sectionStart_of_componentName? h
    rw [Reference.sectionStart_schemas, String.append_left_inj] at hparent
    have hsegment := (Reference.child_inj.mp (Reference.child_inj.mp hparent).1).2
    exact absurd hsegment (by decide)

/-- A schema of the body or of a response stands below a media type of some content. -/
theorem exists_contentSchema {doc : Document} {site : Site} {schema : Schema} {key : String}
    (h : site.Content doc schema key) : ∃ pointer media, key = contentSchema pointer media := by
  have hcontent {content : List (String × MediaType)} {pointer : String}
      (h : contentAt? content pointer = some (schema, key)) :
      ∃ media, key = contentSchema pointer media := by
    obtain ⟨⟨media, value⟩, -, hvalue⟩ := Option.bind_eq_some_iff.mp h
    obtain ⟨_, -, heq⟩ := Option.map_eq_some_iff.mp hvalue
    exact ⟨media, (congrArg Prod.snd heq).symm⟩
  cases h with
  | body _ _ h => exact ⟨_, hcontent h⟩
  | response _ _ h => exact ⟨_, hcontent h⟩

/-- Every entry stands under a canonical key. -/
theorem canonical_of_mem_final {doc : Document} (hclosed : doc.Closed) {entry : Entry}
    (h : entry ∈ (final doc).table.entries) : Reference.canonical entry.key = entry.key := by
  rcases (performs_mapEndpoints hclosed _ (idle_start doc)).keys entry h with
    ⟨old, hold, hkey⟩ | hcanonical | ⟨site, -, schema, hcontent⟩
  · obtain ⟨component, -, hcomponent⟩ := exists_component_of_mem_start hold
    rw [← hkey, ← hcomponent, Reference.canonical_componentKey]
  · exact hcanonical
  · obtain ⟨pointer, media, hkey⟩ := exists_contentSchema hcontent
    rw [hkey, Reference.canonical, componentName?_contentSchema]

/-- If all records are written as objects, a reference to the place of the schema of a body or
response leads to the schema. -/
theorem target_of_content {doc : Document} (hdistinct : doc.raw.Distinct)
    (hdoc : Document.ofJson doc.raw = .ok doc) (hobjects : doc.AsObjects) {site : Site}
    (hsite : site ∈ Site.all doc) {schema : Schema} {key : String}
    (hcontent : site.Content doc schema key) : (doc.target key).2 = some schema := by
  obtain ⟨json, hjson, hread⟩ := Document.exists_content hdistinct hdoc hobjects hsite hcontent
  obtain ⟨pointer, media, hkey⟩ := exists_contentSchema hcontent
  rw [Document.target, hkey, componentName?_contentSchema, ← hkey]
  simp only [Document.lookup?, hjson.value, Option.bind_some, hread]
  rfl

/-- If all records are written as objects, there is a schema wherever one is stored. -/
theorem not_strays {doc : Document} (hdistinct : doc.raw.Distinct)
    (hdoc : Document.ofJson doc.raw = .ok doc) (hobjects : doc.AsObjects) : ¬Strays doc := by
  rintro ⟨key, ⟨site, hsite, schema, hcontent⟩, hnone⟩
  rw [target_of_content hdistinct hdoc hobjects hsite hcontent] at hnone
  cases hnone

/-! ### Names -/

/-- An entry with no target is called by the fallback name of its key, or stands in the place of a
schema that strays. -/
private theorem exists_fallbackName {doc : Document} (hclosed : doc.Closed) {entry : Entry}
    (h : entry ∈ (final doc).table.entries) (hnone : (doc.target entry.key).2 = none) :
    (∃ other ∈ (final doc).table.entries, other.name = fallbackName entry.key) ∨
      (fallbackName entry.key = "Schema" ∧ Strays doc) := by
  have htarget : ¬(doc.target entry.key).2.isSome := by
    rw [hnone]
    exact Bool.false_ne_true
  -- An entry without a target was written in place, or its fallback name is that of another one.
  rcases (ready_final hclosed).located entry h with hsome | hsegment | hother
  · exact absurd hsome htarget
  · refine Or.inr ⟨?_, ?_⟩
    · rw [fallbackName, hsegment]
      decide +kernel
    · rcases key_of_mem_final hclosed h with ⟨component, hcomponent, hkey⟩ | hsome | hstores
      · rw [← hkey, Reference.componentKey_eq_child, Reference.lastSegment_child] at hsegment
        have hname : component.1 ≠ "" := by
          rw [hsegment]
          decide
        rw [← hkey] at htarget
        exact absurd (Document.isSome_target_of_mem_schemas hcomponent hname) htarget
      · exact absurd hsome htarget
      · exact ⟨entry.key, hstores, hnone⟩
  · exact Or.inl hother

/-- **Names of references.** A reference with an entry has the name of an entry, unless a type
strays and the reference has the one name that such references have. -/
theorem exists_name_of_mem_references {doc : Document} (hclosed : doc.Closed)
    {reference : String × String} (h : reference ∈ (Document.toApi doc).references)
    (hentry : (Document.toApi doc).types.contains reference.1 = true) :
    reference.2 ∈ (Document.toApi doc).types.entries.map Entry.name ∨
      (reference.2 = "Schema" ∧ Strays doc) := by
  have hnames : (Document.toApi doc).types.entries.map Entry.name =
      (final doc).table.entries.map Entry.name := Table.map_name_markRecursive _
  obtain ⟨flagged, hflagged, hkey⟩ := List.any_eq_true.mp hentry
  obtain ⟨entry, hmem, hsame, -⟩ := Table.mem_markRecursive hflagged
  have hkey : entry.key = reference.1 := hsame.symm.trans (beq_iff_eq.mp hkey)
  rw [hnames]
  -- The reference is called as its key is, or it was taken for dangling.
  rcases (sound_of_mem_references hclosed h).2 with hname | ⟨hnone, hfallback⟩
  · have hlabel := (ready_final hclosed).orderly.labelled entry hmem
    rw [hkey, hname] at hlabel
    rw [Option.some.inj hlabel]
    exact Or.inl (List.mem_map_of_mem hmem)
  · rw [← hkey] at hnone hfallback
    rw [hfallback]
    refine (exists_fallbackName hclosed hmem hnone).imp_left ?_
    rintro ⟨other, hother, hname⟩
    exact hname ▸ List.mem_map_of_mem hother

end ClientGen.Mapping
