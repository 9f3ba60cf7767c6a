import ClientGen.Proofs.Mapping.Integrity
import ClientGen.Proofs.Mapping.Operations
import ClientGen.Proofs.OpenApi.Places
import ClientGen.Proofs.OpenApi.Source

/-!
# Names in an API

What a client is generated from (`exists_of_generate`), and what its names are like: the entries of
the table have distinct names with the shape of a type's name, none of them one that a module
declares by itself (`nodup_names`, `notMem_generatedNames`). References have the same shape, and
endpoints that of an endpoint's name, and no two of them the same name (`nodup_endpointNames`),
whatever the document calls its parts.
-/

namespace ClientGen

open OpenApi Identifier Mapping

/-- **Generation.** Code is the text of the module of a document that the text is written for, all
of whose references have an entry. -/
theorem exists_of_generate {text code : String} {target : Target}
    (h : generate text target = .ok code) :
    ∃ json doc, readText text = .ok json ∧ Document.ofJson json = .ok doc ∧
      (∀ reference ∈ (Document.toApi doc).references,
        (Document.toApi doc).types.contains reference.1 = true) ∧
      code = ((Document.toApi doc).toModule target).text := by
  rcases hjson : readText text with error | json
  · rw [generate, Document.ofText, hjson] at h
    cases h
  rcases hdoc : Document.ofJson json with error | doc
  · rw [generate, Document.ofText, hjson] at h
    simp only [bind, Except.bind, hdoc] at h
    cases h
  refine ⟨json, doc, rfl, hdoc, ?_⟩
  have hcode : (Document.toApi doc).generate target = .ok code := by
    rw [generate, Document.ofText, hjson] at h
    simp only [bind, Except.bind, hdoc] at h
    exact h
  -- Nothing is generated unless every reference has an entry.
  rw [Api.generate, Api.checkedModule] at hcode
  rcases hdangling : (Document.toApi doc).danglingKey? with _ | key
  · rw [hdangling] at hcode
    cases hcode
    refine ⟨fun reference hreference => ?_, rfl⟩
    have hfound := List.find?_eq_none.mp hdangling reference.1 (List.mem_map_of_mem hreference)
    simpa using hfound
  · rw [hdangling] at hcode
    cases hcode

/-- A document without a dangling key is generated for every target. -/
theorem generate_of_danglingKey? {text : String} {doc : Document}
    (hdoc : Document.ofText text = .ok doc) (target : Target)
    (h : (Document.toApi doc).danglingKey? = none) :
    generate text target = .ok ((Document.toApi doc).toModule target).text := by
  rw [generate, hdoc]
  change (Document.toApi doc).generate target = _
  rw [Api.generate, Api.checkedModule, h]

namespace Mapping

variable {doc : Document}

/-- Entries are called as their keys are in the last state of the mapping. -/
theorem name?_of_mem_types (hclosed : doc.Closed) {entry : Entry}
    (h : entry ∈ (Document.toApi doc).types.entries) :
    (final doc).names.name? entry.key = some entry.name := by
  obtain ⟨old, hold, hkey, hname, -⟩ := Table.mem_markRecursive h
  rw [hkey, hname]
  exact (ready_final hclosed).orderly.labelled old hold

/-- Entries are called by names of types. -/
theorem isTypeName_of_mem_types (hclosed : doc.Closed) {entry : Entry}
    (h : entry ∈ (Document.toApi doc).types.entries) : IsTypeName entry.name :=
  (ready_final hclosed).orderly.typeNames.of_name? (name?_of_mem_types hclosed h)

/-- No entry has a name that a module declares by itself. -/
theorem notMem_generatedNames (hclosed : doc.Closed) {entry : Entry}
    (h : entry ∈ (Document.toApi doc).types.entries) :
    entry.name ∉ Registry.generatedNames :=
  (ready_final hclosed).orderly.distinct.free _
    (Registry.mem_assigned_of_name? (name?_of_mem_types hclosed h))

/-- No two entries have one name. -/
theorem nodup_names (hclosed : doc.Closed) :
    ((Document.toApi doc).types.entries.map Entry.name).Nodup := by
  have hnames : (Document.toApi doc).types.entries.map Entry.name =
      (final doc).table.entries.map Entry.name := Table.map_name_markRecursive _
  rw [hnames]
  exact (ready_final hclosed).orderly.nodup_names

/-- References are called by names of types. -/
theorem isTypeName_of_mem_references (hclosed : doc.Closed) {reference : String × String}
    (h : reference ∈ (Document.toApi doc).references) : IsTypeName reference.2 :=
  (sound_of_mem_references hclosed h).2.isTypeName (ready_final hclosed).orderly

/-- Endpoints are called by names of endpoints. -/
theorem isEndpointName_of_mem_endpoints {endpoint : Endpoint}
    (h : endpoint ∈ (Document.toApi doc).endpoints) : IsEndpointName endpoint.name := by
  have hname := List.mem_map_of_mem (f := Endpoint.name) h
  rw [map_name_endpoints] at hname
  obtain ⟨pair, hpair, heq⟩ := List.mem_map.mp hname
  exact heq ▸ Site.isEndpointName_of_mem_withNames hpair

/-- No two endpoints have one name. -/
theorem nodup_endpointNames (hplaced : doc.Placed) :
    ((Document.toApi doc).endpoints.map Endpoint.name).Nodup := by
  rw [map_name_endpoints]
  exact Site.nodup_withNames hplaced.nodup_pointers

end Mapping

end ClientGen
