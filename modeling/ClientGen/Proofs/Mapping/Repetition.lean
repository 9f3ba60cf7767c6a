import ClientGen.Proofs.Mapping.Calls
import ClientGen.Proofs.Mapping.Session

/-!
# Mapping a schema again

Mapping a schema reaches all targets of the references it visits (`ExpandsAll.reached`), and a
schema visits the same references wherever it stands (`paths_subset_paths`). References whose
targets were reached change nothing (`mapReference_of_followed`), so that mapping the schema again
does no more than record its faults once more, and gives the same type: the names of its references
are settled (`mapSchema_again`).
-/

namespace ClientGen

open OpenApi

namespace OpenApi.Schema

/-- Which schemas inside a schema are used does not depend on where it stands. -/
theorem map_fst_used (schema : Schema) (pointer : String) :
    (schema.keywords pointer).used.map Prod.fst = schema.content.used := by
  rw [← Keywords.used_map, keywords_map_fst]

end OpenApi.Schema

namespace Mapping

open Visit

/-- Which references a schema visits does not depend on where it stands. -/
theorem paths_subset_paths (schema : Schema) (pointer place : String) :
    paths (schema.visits pointer) ⊆ paths (schema.visits place) := by
  revert pointer place
  refine Schema.induction_content (P := fun schema => ∀ pointer place : String,
    paths (schema.visits pointer) ⊆ paths (schema.visits place)) (fun schema ih => ?_) schema
  intro pointer place path hpath
  rcases href : schema.ref with _ | own
  · rcases of_mem_visits (mem_paths.mp hpath) with ⟨_, hown, -⟩ | ⟨part, hpart, hmem⟩ | hfault
    · rw [href] at hown
      cases hown
    · -- The schema inside has another place here and there.
      have hchild : part.1 ∈ schema.content.used := by
        rw [← Schema.map_fst_used schema pointer]
        exact List.mem_map_of_mem hpart
      have hplaced := hchild
      rw [← Schema.map_fst_used schema place] at hplaced
      obtain ⟨other, hother, heq⟩ := List.mem_map.mp hplaced
      have hinner := ih part.1 (Keywords.mem_parts_of_used hchild) part.2 other.2
        (mem_paths.mpr hmem)
      rw [← heq] at hinner
      exact mem_paths.mpr ((infix_visits href hother).subset (mem_paths.mp hinner))
    · rcases hfault with ⟨_, heq⟩ | ⟨-, _, heq⟩ <;> cases heq
  · rw [Schema.visits, Schema.fold_eq, href] at hpath ⊢
    exact hpath

/-! ### Targets that were reached -/

/-- Whether the targets of all references among visits have been reached. -/
def Followed (doc : Document) (visits : List Visit) (state : Mapping) : Prop :=
  ∀ path ∈ paths visits, (doc.target path).2.isSome → state.Reached (Reference.canonical path)

section Followed

variable {doc : Document} {state : Mapping}

/-- A reference whose target has been reached, or that has none, changes nothing. -/
theorem mapReference_of_followed (hcoherent : Coherent doc state) {path : String}
    (h : (doc.target path).2.isSome → state.Reached (Reference.canonical path)) :
    ((mapReference doc path).run state).2 = state := by
  rw [← doc.target_fst path] at h
  by_cases hreached : state.Reached (doc.target path).1
  · obtain ⟨name, hname⟩ := Option.isSome_iff_exists.mp (hcoherent.named _ hreached)
    rw [mapReference, depthLimit, expand_of_reached hreached, Registry.resolve,
      Registry.resolveAs_of_name? hname]
  · rcases htarget : (doc.target path).2 with _ | schema
    · rw [mapReference, depthLimit, expand_of_dangling hreached htarget]
    · exact absurd (h (Option.isSome_of_eq_some htarget)) hreached

/-- If the targets of all references were reached, visits do no more than record faults. -/
theorem runAll_of_followed (hcoherent : Coherent doc state) {visits : List Visit}
    (h : Followed doc visits state) :
    ∃ new, runAll (mapReference doc) visits state =
      { state with diagnostics := state.diagnostics ++ new } := by
  -- The induction is on the visits: a reference that was followed changes nothing, and a fault adds
  -- its diagnostic.
  induction visits generalizing state with
  | nil =>
    refine ⟨[], ?_⟩
    rw [List.append_nil]
    rfl
  | cons visit more ih =>
    have hmore : Followed doc more state := fun path hpath =>
      h path (mem_paths_cons_of_mem visit hpath)
    cases visit with
    | reference path =>
      have hstep : (Visit.reference path).run (mapReference doc) state = state :=
        mapReference_of_followed hcoherent (h path (mem_paths.mpr List.mem_cons_self))
      rw [runAll, List.foldl_cons, hstep]
      exact ih hcoherent hmore
    | fault diagnostic =>
      have hstep : Step doc state .quiet ((Visit.fault diagnostic).run (mapReference doc) state) :=
        .report state diagnostic
      obtain ⟨new, hnew⟩ := ih (hstep.coherent hcoherent) hmore
      refine ⟨diagnostic :: new, ?_⟩
      rw [runAll, List.foldl_cons, ← runAll, hnew, List.append_cons]
      rfl

end Followed

/-! ### The second time -/

/-- **Repetition.** Whatever calls were made before, map a schema; then make any further calls that
store no types as they are, or none; and then map the schema again, as if it stood at any place. The
second time its type is the same, names of references included, and nothing happens to the table, to
the names and to the keys that were mapped: diagnostics may be added, and that is all. -/
theorem mapSchema_again {json : Json} {doc : Document} (h : Document.ofJson json = .ok doc)
    {stored : List (String × Descriptor)} {state : Mapping}
    (hstate : Proceeds doc (start doc) stored state) (schema : Schema) (pointer : String)
    {later : Mapping} (hlater : Proceeds doc ((mapSchema doc schema pointer).run state).2 [] later)
    (place : String) :
    ((mapSchema doc schema place).run later).1 = ((mapSchema doc schema pointer).run state).1 ∧
      ∃ new, ((mapSchema doc schema place).run later).2 =
        { later with diagnostics := later.diagnostics ++ new } := by
  have hclosed := Document.closed_ofJson h
  have hidle := hstate.idle hclosed (idle_start doc)
  obtain ⟨log, next, hnext, hrun⟩ := mapSchema_run hclosed schema pointer hidle.coherent
  rw [hrun] at hlater ⊢
  have hcoherent : Coherent doc next := hnext.follows.coherent hidle.coherent
  obtain ⟨events, run, hhoists, -⟩ := hlater.exists_run hclosed
    ⟨hcoherent, hnext.follows.chain.trans hidle.chain⟩
  have hfollowed : Followed doc (schema.visits place) later := by
    intro path hpath htarget
    have hvisited := paths_subset_paths schema place pointer hpath
    exact run.keeps.reached _ (hnext.reached path hvisited htarget)
  have hlast := run.coherent hcoherent
  obtain ⟨new, hnew⟩ := runAll_of_followed hlast hfollowed
  rw [mapSchema_eq hclosed hlast, hnew]
  refine ⟨outline_congr pointer fun path hpath => ?_, new, rfl⟩
  -- The name of a key that was reached stays as it is, and so does that of one without a target.
  refine run.nameOf hhoists hcoherent fun htarget => hnext.reached path hpath ?_
  rwa [Document.target_canonical] at htarget

theorem mapSchema_again_node :
    let first := (mapSchema nodeDocument nodeSchema "#").run (start nodeDocument)
    ((mapSchema nodeDocument nodeSchema "#/not").run first.2).1 = first.1 ∧
      ∃ new, ((mapSchema nodeDocument nodeSchema "#/not").run first.2).2 =
        { first.2 with diagnostics := first.2.diagnostics ++ new } :=
  mapSchema_again ofJson_nodeJson .refl nodeSchema "#" .refl "#/not"

end Mapping

end ClientGen
