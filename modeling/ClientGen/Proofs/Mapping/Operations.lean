import ClientGen.Mapping.Endpoint
import ClientGen.Proofs.Registry
import ClientGen.Proofs.Identifier

/-!
# Names of operations

Every operation has a name of its own, whatever it is called and wherever it stands: the names have
the shape of an endpoint's name (`isEndpointName_of_mem_withNames`), and no two of them are the same
if no two operations stand at one place (`nodup_withNames`). The endpoint of an operation is called
as the operation is (`map_name_endpoints`).
-/

namespace ClientGen

open OpenApi Identifier

namespace Site

/-- The names given out after the operations have theirs. -/
private def registered (names : Registry) (sites : List Site) : Registry :=
  sites.foldl (fun names site => (names.resolveAs site.pointer site.proposedName).2) names

variable {names : Registry} {sites : List Site} {pair : Site × String}

/-- A key that has a name keeps it when operations are registered. -/
private theorem name?_registered {key name : String} (h : names.name? key = some name)
    (sites : List Site) : (registered names sites).name? key = some name := by
  induction sites generalizing names with
  | nil => exact h
  | cons site more ih => exact ih (Registry.name?_resolveAs_of_name? h _ _)

/-- An operation is called as its place is in the end. -/
private theorem name?_of_mem_withNames (h : pair ∈ withNames names sites) :
    (registered names sites).name? pair.1.pointer = some pair.2 := by
  induction sites generalizing names with
  | nil => cases h
  | cons site more ih =>
    rw [withNames] at h
    rcases List.mem_cons.mp h with rfl | hmore
    · exact name?_registered (Registry.name?_resolveAs_self _ _ _) more
    · exact ih hmore

private theorem all_registered (h : names.All IsEndpointName) (sites : List Site) :
    (registered names sites).All IsEndpointName := by
  induction sites generalizing names with
  | nil => exact h
  | cons site more ih =>
    have hbase : IsEndpointName site.proposedName := isEndpointName_endpointName _ _
    exact ih (h.resolveAs (fun _ n hbase => hbase.numbered n) site.pointer hbase)

private theorem distinct_registered {reserved : List String} (h : names.Distinct reserved)
    (sites : List Site) : (registered names sites).Distinct reserved := by
  induction sites generalizing names with
  | nil => exact h
  | cons site more ih => exact ih (h.resolveAs site.pointer site.proposedName)

/-- The names of operations have the shape of an endpoint's name. -/
theorem isEndpointName_of_mem_withNames (h : pair ∈ withNames {} sites) :
    IsEndpointName pair.2 :=
  (all_registered (Registry.all_reserving _ []) sites).of_name? (name?_of_mem_withNames h)

/-- Naming operations neither drops nor reorders them. -/
theorem map_fst_withNames (names : Registry) (sites : List Site) :
    (withNames names sites).map Prod.fst = sites := by
  induction sites generalizing names with
  | nil => rfl
  | cons site more ih => rw [withNames, List.map_cons, ih]

/-- **A name for each operation.** Operations at different places have different names. -/
theorem nodup_withNames (h : (sites.map Site.pointer).Nodup) :
    ((withNames {} sites).map Prod.snd).Nodup := by
  have hsites : ((withNames {} sites).map Prod.fst).Nodup :=
    (map_fst_withNames {} sites).symm ▸ List.Nodup.of_map _ h
  have hmem {pair : Site × String} (hpair : pair ∈ withNames {} sites) : pair.1 ∈ sites :=
    map_fst_withNames {} sites ▸ List.mem_map_of_mem hpair
  refine List.Nodup.map_on (fun pair hpair other hother heq => ?_) (List.Nodup.of_map _ hsites)
  have hname := name?_of_mem_withNames hother
  rw [← heq] at hname
  have hplace := (distinct_registered (Registry.distinct_reserving []) sites).key_eq
    (name?_of_mem_withNames hpair) hname
  exact Prod.ext (List.inj_on_of_nodup_map h (hmem hpair) (hmem hother) hplace) heq

end Site

namespace Mapping

/-- Results of a computation for each member of a list can be told from the members, if each of them
can be in any state. -/
private theorem map_mapM {α β γ σ : Type} {f : α → StateM σ β} {g : β → γ} {g' : α → γ}
    (h : ∀ a state, g ((f a).run state).1 = g' a) (items : List α) (state : σ) :
    ((items.mapM f).run state).1.map g = items.map g' := by
  induction items generalizing state with
  | nil => rfl
  | cons item rest ih =>
    have hrest := ih ((f item).run state).2
    rw [List.mapM_cons, List.map_cons, ← h item state, ← hrest]
    rfl

/-- Endpoints are called as their operations are. -/
theorem map_name_endpoints (doc : Document) :
    (Document.toApi doc).endpoints.map Endpoint.name =
      (Site.withNames {} (Site.all doc)).map Prod.snd :=
  map_mapM (fun _ _ => rfl) _ _

/-- What the mapper gives for an operation whatever its name is and wherever the mapper is, the
endpoints have in the order of the operations. -/
theorem map_endpoints {γ : Type} {g : Endpoint → γ} {g' : Site → γ} {doc : Document}
    (h : ∀ site name state, g ((mapSite doc site name).run state).1 = g' site) :
    (Document.toApi doc).endpoints.map g = (Site.all doc).map g' := by
  have hpairs : (Document.toApi doc).endpoints.map g =
      (Site.withNames {} (Site.all doc)).map (g' ∘ Prod.fst) :=
    map_mapM (fun pair state => h pair.1 pair.2 state) _ _
  rw [hpairs, ← List.map_map, Site.map_fst_withNames]

end Mapping

end ClientGen
