import ClientGen.Proofs.Descriptor.References
import ClientGen.Proofs.Descriptor.Table
import Mathlib.Logic.Relation

/-!
# Entries that reach themselves

`Table.search` looks for a key depth first. It is told about a key only by a key that it saw, so
that what it comes upon can be reached (`exists_reach_of_search`). If it comes upon nothing, then
no step leads out of the keys that it saw: a key is seen when its targets are pushed, and what is
on the stack is looked at before the search ends (`Pushed`, `exists_closed_of_search`). That the
start is not seen from the start on makes no difference to this, and is what lets the search come
back to it.

So `Table.reaches` decides whether a path of one step or more leads from a key to another
(`reaches_iff`), and `Table.markRecursive` flags the entries on a cycle and no others.
-/

namespace ClientGen.Table

open Relation

/-! ### Steps -/

/-- Whether there is an edge from `key` to `other`. -/
def Leads (edges : List (String × List String)) (key other : String) : Prop :=
  other ∈ targets edges key

/-- Whether the type stored under `key` has a reference to `other` inside. -/
def RefersTo (table : Table) (key other : String) : Prop :=
  ∃ entry name, table.get? key = some entry ∧ entry.type.Mentions other name

/-- The edges of a key are the keys that its entry refers to. -/
theorem lookup_edges (table : Table) (key : String) :
    table.edges.lookup key =
      (table.get? key).map fun entry => entry.type.references.map Prod.fst := by
  have hentries (entries : List Entry) :
      (entries.map fun entry => (entry.key, entry.type.references.map Prod.fst)).lookup key =
        (entries.find? fun entry => entry.key == key).map fun entry =>
          entry.type.references.map Prod.fst := by
    induction entries with
    | nil => rfl
    | cons entry rest ih =>
      rw [List.map_cons, List.lookup_cons, List.find?_cons, BEq.comm (a := key)]
      split
      · rfl
      · exact ih
  exact hentries table.entries

/-- One key leads to another along the edges exactly if its entry refers to it. -/
theorem leads_edges_iff {table : Table} {key other : String} :
    Leads table.edges key other ↔ table.RefersTo key other := by
  rw [Leads, targets, lookup_edges]
  constructor
  · intro hmem
    rcases hget : table.get? key with _ | entry
    · rw [hget] at hmem
      cases hmem
    · rw [hget] at hmem
      obtain ⟨⟨_, name⟩, hreference, rfl⟩ := List.mem_map.mp hmem
      exact ⟨entry, name, hget, Descriptor.mem_references_iff.mp hreference⟩
  · rintro ⟨entry, name, hget, hmentions⟩
    rw [hget]
    exact List.mem_map.mpr ⟨(other, name), hmentions.mem_references, rfl⟩

/-! ### Search -/

variable {edges : List (String × List String)} {goal : String}

/-- What the search comes upon can be reached from a key on the stack. -/
theorem exists_reach_of_search {seen stack : List String}
    (h : search edges goal seen stack = true) :
    ∃ next ∈ stack, ReflTransGen (Leads edges) next goal := by
  induction seen, stack using search.induct edges goal with
  | case1 seen =>
    rw [search] at h
    cases h
  | case2 seen rest => exact ⟨goal, List.mem_cons_self, ReflTransGen.refl⟩
  | case3 seen next rest hne hseen ih =>
    rw [search, if_neg hne, if_pos hseen] at h
    obtain ⟨key, hkey, hreach⟩ := ih h
    exact ⟨key, List.mem_cons_of_mem next hkey, hreach⟩
  | case4 seen next rest hne hseen ih =>
    rw [search, if_neg hne, if_neg hseen] at h
    obtain ⟨key, hkey, hreach⟩ := ih h
    rcases List.mem_append.mp hkey with htarget | hrest
    · exact ⟨next, List.mem_cons_self, hreach.head (List.mem_reverse.mp htarget)⟩
    · exact ⟨key, List.mem_cons_of_mem next hrest, hreach⟩

/-- The state of a search: the targets of each key that was seen were seen too or are still on the
stack, and the goal was not seen. -/
structure Pushed (edges : List (String × List String)) (goal : String) (seen stack : List String) :
    Prop where
  pushed : ∀ key ∈ seen, ∀ other, Leads edges key other → other ∈ seen ∨ other ∈ stack
  unseen : goal ∉ seen

/-- A key that was seen can be dropped from the stack. -/
theorem Pushed.drop {seen rest : List String} {next : String}
    (h : Pushed edges goal seen (next :: rest)) (hnext : next ∈ seen) :
    Pushed edges goal seen rest := by
  refine ⟨fun key hkey other hother => ?_, h.unseen⟩
  rcases h.pushed key hkey other hother with hseen | hstack
  · exact Or.inl hseen
  · rcases List.mem_cons.mp hstack with rfl | hrest
    · exact Or.inl hnext
    · exact Or.inr hrest

/-- Another key is seen once its targets are on the stack. -/
theorem Pushed.see {seen rest : List String} {next : String}
    (h : Pushed edges goal seen (next :: rest)) (hnext : next ≠ goal) :
    Pushed edges goal (next :: seen) ((targets edges next).reverse ++ rest) := by
  refine ⟨fun key hkey other hother => ?_, List.not_mem_cons_of_ne_of_not_mem hnext.symm h.unseen⟩
  rcases List.mem_cons.mp hkey with rfl | hseen
  · exact Or.inr (List.mem_append_left rest (List.mem_reverse.mpr hother))
  · rcases h.pushed key hseen other hother with hold | hstack
    · exact Or.inl (List.mem_cons_of_mem next hold)
    · rcases List.mem_cons.mp hstack with rfl | hrest
      · exact Or.inl List.mem_cons_self
      · exact Or.inr (List.mem_append_right _ hrest)

/-- A search in vain ends with keys out of which no step leads, the goal not among them. -/
theorem exists_closed_of_search {seen stack : List String} (hpushed : Pushed edges goal seen stack)
    (h : search edges goal seen stack = false) :
    ∃ closed, seen ⊆ closed ∧ stack ⊆ closed ∧ Pushed edges goal closed [] := by
  induction seen, stack using search.induct edges goal with
  | case1 seen => exact ⟨seen, List.Subset.refl seen, List.nil_subset seen, hpushed⟩
  | case2 seen rest =>
    rw [search, if_pos rfl] at h
    cases h
  | case3 seen next rest hne hseen ih =>
    rw [search, if_neg hne, if_pos hseen] at h
    obtain ⟨closed, hold, hrest, hclosed⟩ := ih (hpushed.drop hseen) h
    exact ⟨closed, hold, List.cons_subset.mpr ⟨hold hseen, hrest⟩, hclosed⟩
  | case4 seen next rest hne hseen ih =>
    rw [search, if_neg hne, if_neg hseen] at h
    obtain ⟨closed, hold, hstack, hclosed⟩ := ih (hpushed.see hne) h
    obtain ⟨hnext, hold⟩ := List.cons_subset.mp hold
    exact ⟨closed, hold, List.cons_subset.mpr ⟨hnext, (List.append_subset.mp hstack).2⟩, hclosed⟩

/-- When no more keys are pushed, all that can be reached from closed keys is closed. -/
theorem Pushed.mem_of_reach {closed : List String} (h : Pushed edges goal closed [])
    {key other : String} (hkey : key ∈ closed) (hreach : ReflTransGen (Leads edges) key other) :
    other ∈ closed := by
  induction hreach with
  | refl => exact hkey
  | tail _ hstep ih => exact (h.pushed _ ih _ hstep).resolve_right List.not_mem_nil

/-- **Reachability.** The search finds a path of one step or more exactly if there is one. -/
theorem reaches_iff (edges : List (String × List String)) (start goal : String) :
    reaches edges start goal = true ↔ TransGen (Leads edges) start goal := by
  constructor
  · intro hreaches
    obtain ⟨next, hnext, hreach⟩ := exists_reach_of_search hreaches
    exact TransGen.head' (List.mem_reverse.mp hnext) hreach
  · intro hpath
    obtain ⟨next, hnext, hreach⟩ := TransGen.head'_iff.mp hpath
    by_contra hreaches
    have hstart : Pushed edges goal [] (targets edges start).reverse :=
      ⟨fun _ hkey => absurd hkey List.not_mem_nil, List.not_mem_nil⟩
    obtain ⟨closed, -, hstack, hclosed⟩ :=
      exists_closed_of_search hstart (Bool.not_eq_true _ ▸ hreaches)
    exact hclosed.unseen
      (hclosed.mem_of_reach (hstack (List.mem_reverse.mpr hnext)) hreach)

/-! ### Flags -/

/-- The table that insertions make one after the other, each of a type under a key and a name. -/
def ofInserts (inserts : List (String × String × Descriptor)) : Table :=
  inserts.foldl (fun table (key, name, type) => table.insert key name type) {}

/-- No entry is marked before the search. -/
theorem recursive_ofInserts (inserts : List (String × String × Descriptor)) :
    ∀ entry ∈ (ofInserts inserts).entries, entry.recursive = false := by
  have hfold (table : Table) (h : ∀ entry ∈ table.entries, entry.recursive = false) :
      ∀ entry ∈ (inserts.foldl (fun table (key, name, type) => table.insert key name type)
        table).entries, entry.recursive = false := by
    induction inserts generalizing table with
    | nil => exact h
    | cons insert rest ih =>
      refine ih _ fun entry hentry => ?_
      rcases mem_insert hentry with rfl | hold
      · rfl
      · exact h entry hold
  exact hfold {} fun _ hentry => absurd hentry List.not_mem_nil

/-- **Recursion.** In a table made by insertions, marking flags an entry exactly if one or more
steps lead from its key back to it, each from a key to a key that the type stored under it refers
to at any depth, and changes nothing else. The search behind this is right on every graph. -/
theorem markRecursive_ofInserts (inserts : List (String × String × Descriptor)) :
    List.Forall₂ (fun entry flagged =>
        flagged = { entry with recursive := flagged.recursive } ∧
          (flagged.recursive = true ↔
            TransGen (ofInserts inserts).RefersTo entry.key entry.key))
      (ofInserts inserts).entries (ofInserts inserts).markRecursive.entries ∧
    ∀ edges start goal,
      reaches edges start goal = true ↔ TransGen (Leads edges) start goal := by
  refine ⟨?_, reaches_iff⟩
  rw [markRecursive, List.forall₂_map_right_iff, List.forall₂_same]
  intro entry hentry
  have hsteps : Leads (ofInserts inserts).edges = (ofInserts inserts).RefersTo :=
    funext₂ fun _ _ => propext leads_edges_iff
  have hreaches := reaches_iff (ofInserts inserts).edges entry.key entry.key
  rw [hsteps] at hreaches
  split_ifs with hflag
  · exact ⟨rfl, iff_of_true rfl (hreaches.mp hflag)⟩
  · have hunflagged := recursive_ofInserts inserts entry hentry
    exact ⟨rfl, iff_of_false (hunflagged ▸ Bool.false_ne_true) (hreaches.not.mp hflag)⟩

/-- A type that only leads into a cycle is not recursive. -/
example :
    (ofInserts [("a", "A", .array (.reference "b" "B")), ("b", "B", .unknown),
        ("b", "B", .union .anyOf [.reference "a" "A", .reference "absent" "Absent"]),
        ("c", "C", .reference "a" "A")]).markRecursive.entries.map Entry.recursive =
      [true, true, false] := by
  decide +kernel

end ClientGen.Table
