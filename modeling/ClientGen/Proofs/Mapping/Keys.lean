import ClientGen.Proofs.Mapping.Components

/-!
# Keys of components

A component has one key. A pointer to it, however its segments are escaped, is a reference that
names it (`Reference.names_of_segments?`), all references that name it have the same key, and no
reference that names another component or none has that key. Since the entries of a table stand
under canonical keys, each component has exactly one entry, and no entry belongs to two
(`components_keyed`).
-/

namespace ClientGen

namespace Reference

/-- A text without special characters can be written as a segment in one way only. -/
private theorem eq_toList_of_decodeSegment {piece : List Char} {text : String}
    (h : decodeSegment (String.ofList piece) = text) (htilde : '~' ∉ text.toList)
    (hslash : '/' ∉ text.toList) : piece = text.toList := by
  subst h
  rw [← eq_decodeSegment htilde hslash, String.toList_ofList]

/-- A pointer to a component names it, however its segments are written. -/
theorem names_of_segments? {pointer name : String} (hname : name ≠ "")
    (h : Json.segments? pointer = some ["components", "schemas", name]) :
    Names ("#" ++ pointer) name := by
  rw [Json.segments?] at h
  split at h
  · cases h
  next rest hpointer =>
    -- The pointer has three segments, of which only the last one may be escaped.
    obtain ⟨first, more, hpieces, hfirst, hmore⟩ := List.map_eq_cons_iff.mp (Option.some.inj h)
    obtain ⟨second, last, rfl, hsecond, hlast⟩ := List.map_eq_cons_iff.mp hmore
    obtain ⟨third, rfl, hthird⟩ := List.map_eq_singleton_iff.mp hlast
    have hthird' : third ∈ Text.pieces '/' rest := by
      rw [hpieces]
      exact List.mem_cons_of_mem _ (List.mem_cons_of_mem _ (List.mem_singleton_self third))
    have hrest := Text.intercalate_pieces '/' rest
    rw [hpieces, eq_toList_of_decodeSegment hfirst (by decide) (by decide),
      eq_toList_of_decodeSegment hsecond (by decide) (by decide)] at hrest
    refine ⟨String.ofList third, ?_, ?_, ?_, hthird⟩
    · -- Put together with slashes, the segments are the reference from before.
      have hstart : "#/components/schemas/".toList =
          "#".toList ++ '/' :: ("components".toList ++ '/' :: ("schemas".toList ++ ['/'])) := rfl
      rw [← String.toList_inj, String.toList_append, String.toList_append, hpointer, ← hrest,
        String.toList_ofList (l := third), hstart]
      simp [List.intercalate_cons_cons]
    · rintro hempty
      rw [hempty] at hthird
      exact hname hthird.symm
    · rw [String.toList_ofList]
      exact Text.notMem_of_mem_pieces hthird'
  · cases h

/-- References that name components have the same key exactly if they name the same one. -/
theorem Names.eq_iff {first second name other : String} (h : Names first name)
    (h' : Names second other) : canonical first = canonical second ↔ name = other := by
  rw [h.canonical_eq, h'.canonical_eq, componentKey_injective.eq_iff]

/-- A reference that names no component is no component's key. -/
theorem ne_componentKey_of_componentName? {reference : String}
    (h : componentName? "schemas" reference = none) {name : String} (hname : name ≠ "") :
    reference ≠ componentKey name := by
  rintro rfl
  rw [componentName?_componentKey hname] at h
  cases h

end Reference

open OpenApi

namespace Mapping

variable {doc : Document}

/-- The entry under a key that names a component stands under the key of every reference to that
component, and of no other reference to a component. -/
private theorem key_eq_target_iff (hclosed : doc.Closed) {entry : Entry}
    (h : entry ∈ (Document.toApi doc).types.entries) {reference name other : String}
    (hreference : Reference.Names reference name) (hentry : Reference.Names entry.key other) :
    entry.key = (doc.target reference).1 ↔ name = other := by
  obtain ⟨old, hold, hkey, -⟩ := Table.mem_markRecursive h
  have hcanonical : Reference.canonical entry.key = entry.key := by
    rw [hkey]
    exact canonical_of_mem_final hclosed hold
  rw [Document.target_fst, ← hcanonical, eq_comm, hreference.eq_iff hentry]

/-- A component with a name has exactly one entry. -/
private theorem existsUnique_entry (hclosed : doc.Closed)
    (hnames : (Ordered.keys doc.schemas).Nodup) {name : String}
    (h : name ∈ Ordered.keys doc.schemas) (hname : name ≠ "") :
    ∃! entry, entry ∈ (Document.toApi doc).types.entries ∧ Reference.Names entry.key name := by
  have hkeys := keys_of_performed hnames (performs_mapEndpoints hclosed _ (idle_start doc))
  have hnodup := (ready_final hclosed).orderly.nodup
  rw [← Table.map_markRecursive Entry.key (fun _ => rfl)] at hkeys hnodup
  obtain ⟨entry, hentry, hkey⟩ := List.mem_map.mp (hkeys.subset (List.mem_map_of_mem h))
  have hnamed := Reference.names_componentKey hname
  have htarget : (doc.target (Reference.componentKey name)).1 = Reference.componentKey name := by
    rw [Document.target_fst, Reference.canonical_componentKey]
  refine ⟨entry, ⟨hentry, hkey ▸ hnamed⟩, ?_⟩
  -- Another entry whose key names the component has the same key, and no two keys are the same.
  rintro other ⟨hother, hstands⟩
  refine List.inj_on_of_nodup_map hnodup hother hentry ?_
  rw [hkey, ← htarget]
  exact (key_eq_target_iff hclosed hother hnamed hstands).mpr rfl

/-- **Keys.** Escaping a segment replaces every `~` and then every `/`, and unescaping undoes both
in the opposite order. The key of a component is read back as that component; references to
components have the same key exactly if they name the same one, a pointer to a component has that
component's key, and a reference that is not to a component is no component's key. So in the table
of a document each component with a name has exactly one entry, and an entry stands under the key of
a reference exactly if both name the same component. -/
theorem components_keyed (doc : Document) :
    (∀ segment,
      Reference.encodeSegment segment =
          Reference.replaceAll "/" "~1" (Reference.replaceAll "~" "~0" segment) ∧
        Reference.decodeSegment segment =
          Reference.replaceAll "~0" "~" (Reference.replaceAll "~1" "/" segment) ∧
        Reference.decodeSegment (Reference.encodeSegment segment) = segment ∧
        '/' ∉ (Reference.encodeSegment segment).toList) ∧
    (∀ name ≠ "",
      (∃ escaped, Reference.componentName? "schemas" (Reference.componentKey name) = some escaped ∧
        Reference.decodeSegment escaped = name) ∧
      (∀ reference, Reference.componentName? "schemas" reference = none →
        reference ≠ Reference.componentKey name) ∧
      ∀ pointer, Json.segments? pointer = some ["components", "schemas", name] →
        (doc.target ("#" ++ pointer)).1 = Reference.componentKey name) ∧
    (∀ first second name other, Reference.Names first name → Reference.Names second other →
      ((doc.target first).1 = (doc.target second).1 ↔ name = other)) ∧
    ∀ text, Document.ofText text = .ok doc →
      (∀ name ∈ Ordered.keys doc.schemas, name ≠ "" →
        ∃! entry, entry ∈ (Document.toApi doc).types.entries ∧ Reference.Names entry.key name) ∧
      ∀ entry ∈ (Document.toApi doc).types.entries, ∀ reference name other,
        Reference.Names reference name → Reference.Names entry.key other →
          (entry.key = (doc.target reference).1 ↔ name = other) := by
  -- Escapes first, then single keys, pairs of references, and the table.
  refine ⟨fun segment => ⟨Reference.encodeSegment_eq_replaceAll segment,
      Reference.decodeSegment_eq_replaceAll segment, Reference.decodeSegment_encodeSegment segment,
      Reference.slash_notMem_encodeSegment segment⟩,
    fun name hname => ⟨?_, ?_, fun pointer hpointer => ?_⟩, ?_, fun text h => ?_⟩
  · exact Reference.names_iff.mp (Reference.names_componentKey hname)
  · exact fun reference hnone => Reference.ne_componentKey_of_componentName? hnone hname
  · rw [Document.target_fst]
    exact (Reference.names_of_segments? hname hpointer).canonical_eq
  · intro first second name other hfirst hsecond
    rw [Document.target_fst, Document.target_fst]
    exact hfirst.eq_iff hsecond
  · obtain ⟨hdistinct, hdoc⟩ := Document.of_ofText h
    have hclosed := Document.closed_ofJson hdoc
    exact ⟨fun name hmem hname =>
        existsUnique_entry hclosed (Document.nodup_schemas hdistinct hdoc) hmem hname,
      fun entry hentry reference name other hreference hnamed =>
        key_eq_target_iff hclosed hentry hreference hnamed⟩

/-- The text of a document with components whose names look like escapes of one another, which are
referred to with and without escapes. -/
def escapedNames : String := Text.concat [
  "\x7b\"components\":\x7b\"schemas\":\x7b",
  "\"a/b\":\x7b\"properties\":\x7b\"next\":",
  "\x7b\"$ref\":\"#/components/schemas/a~01b\"\x7d\x7d\x7d,",
  "\"a~1b\":\x7b\"properties\":\x7b\"next\":",
  "\x7b\"$ref\":\"#/components/schemas/a~1b\"\x7d\x7d\x7d,",
  "\"c~2\":\x7b\"properties\":\x7b\"next\":\x7b\"$ref\":\"#/components/schemas/c~2\"\x7d\x7d\x7d",
  "\x7d\x7d\x7d"]

/-- Two spellings of the same name lead to one component, and two names that only look alike lead to
two. -/
theorem components_keyed_escapedNames :
    ∃ doc, Document.ofText escapedNames = .ok doc ∧
      (doc.target "#/components/schemas/c~2").1 = (doc.target "#/components/schemas/c~02").1 ∧
      (doc.target "#/components/schemas/a~1b").1 ≠ (doc.target "#/components/schemas/a~01b").1 ∧
      (doc.target "#/components/schemas/c~2").1 = "#/components/schemas/c~02" ∧
      ∃! entry, entry ∈ (Document.toApi doc).types.entries ∧ Reference.Names entry.key "c~2" := by
  obtain ⟨doc, hdoc, hmem⟩ :
      ∃ doc, Document.ofText escapedNames = .ok doc ∧ "c~2" ∈ Ordered.keys doc.schemas :=
    Document.exists_of_chars (by repeat' constructor) (by decide +kernel)
  obtain ⟨-, hkeys, hsame, htable⟩ := components_keyed doc
  obtain ⟨hentries, -⟩ := htable escapedNames hdoc
  have hplain : Reference.Names "#/components/schemas/c~2" "c~2" :=
    ⟨"c~2", by decide, by decide, by decide, by decide⟩
  have hescaped : Reference.Names "#/components/schemas/c~02" "c~2" :=
    ⟨"c~02", by decide, by decide, by decide, by decide⟩
  have hslash : Reference.Names "#/components/schemas/a~1b" "a/b" :=
    ⟨"a~1b", by decide, by decide, by decide, by decide⟩
  have htilde : Reference.Names "#/components/schemas/a~01b" "a~1b" :=
    ⟨"a~01b", by decide, by decide, by decide, by decide⟩
  refine ⟨doc, hdoc, (hsame _ _ _ _ hplain hescaped).mpr rfl, fun heq => ?_, ?_,
    hentries "c~2" hmem (by decide)⟩
  · exact absurd ((hsame _ _ _ _ hslash htilde).mp heq) (by decide)
  · exact (hkeys "c~2" (by decide)).2.2 "/components/schemas/c~2" (by decide)

end Mapping

end ClientGen
