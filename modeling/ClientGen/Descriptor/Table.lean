import ClientGen.Descriptor.Basic

/-!
# Type tables

Named types under distinct keys, in the order of first insertion. An entry put under a key that is
there replaces the old one in its place. `Table.markRecursive` flags the entries that can reach
themselves through the references of the stored types.
-/

namespace ClientGen

/-- A named type. -/
structure Entry where
  key : String
  name : String
  type : Descriptor
  /-- Whether the entry is known to reach itself. -/
  recursive : Bool := false

/-- Named types under distinct keys. -/
structure Table where
  entries : List Entry := []

namespace Table

/-- The entry under a key. -/
def get? (table : Table) (key : String) : Option Entry :=
  table.entries.find? fun entry => entry.key == key

/-- Whether there is an entry under a key. -/
def contains (table : Table) (key : String) : Bool :=
  table.entries.any fun entry => entry.key == key

/-- Entries with one more put among them, in the place of one with its key if there is any. -/
def putEntry (entries : List Entry) (new : Entry) : List Entry :=
  match entries with
  | [] => [new]
  | entry :: rest => if entry.key = new.key then new :: rest else entry :: putEntry rest new

/-- The table with a type stored under a key, not flagged as recursive. -/
def insert (table : Table) (key name : String) (type : Descriptor) : Table :=
  ⟨putEntry table.entries ⟨key, name, type, false⟩⟩

/-! ### Recursion -/

/-- For each entry the keys its type refers to. -/
def edges (table : Table) : List (String × List String) :=
  table.entries.map fun entry => (entry.key, entry.type.references.map Prod.fst)

/-- The keys one step from `key`; a key without an entry leads nowhere. -/
def targets (edges : List (String × List String)) (key : String) : List String :=
  (edges.lookup key).getD []

/-- The number of steps from keys with an entry that are not among `seen`. -/
def stepsAhead (edges : List (String × List String)) (seen : List String) : Nat :=
  match edges with
  | [] => 0
  | (key, targets) :: rest =>
    if key ∈ seen then stepsAhead rest seen else targets.length + stepsAhead rest seen

/-- Seeing a key leaves no more steps ahead than before. -/
theorem stepsAhead_cons_le (edges : List (String × List String)) (key : String)
    (seen : List String) : stepsAhead edges (key :: seen) ≤ stepsAhead edges seen := by
  induction edges with
  | nil => exact Nat.le_refl 0
  | cons edge rest ih =>
    rw [stepsAhead, stepsAhead]
    by_cases hseen : edge.1 ∈ seen
    · rw [if_pos hseen, if_pos (List.mem_cons_of_mem key hseen)]
      exact ih
    · rw [if_neg hseen]
      split
      · exact Nat.le_add_left_of_le ih
      · exact Nat.add_le_add_left ih edge.2.length

/-- Once a key is seen, the steps from it are no longer ahead. -/
theorem targets_add_stepsAhead_le (edges : List (String × List String)) {key : String}
    {seen : List String} (h : key ∉ seen) :
    (targets edges key).length + stepsAhead edges (key :: seen) ≤ stepsAhead edges seen := by
  induction edges with
  | nil => exact Nat.le_refl 0
  | cons edge rest ih =>
    rw [stepsAhead, stepsAhead]
    by_cases hedge : edge.1 = key
    · have htargets : targets (edge :: rest) key = edge.2 := by
        rw [targets, List.lookup_cons, hedge, beq_self_eq_true, Option.getD_some]
      rw [htargets, if_pos (hedge ▸ List.mem_cons_self), if_neg (hedge ▸ h)]
      exact Nat.add_le_add_left (stepsAhead_cons_le rest key seen) _
    · have htargets : targets (edge :: rest) key = targets rest key := by
        rw [targets, List.lookup_cons, beq_eq_false_iff_ne.mpr (Ne.symm hedge), targets]
      rw [htargets]
      by_cases hseen : edge.1 ∈ seen
      · rw [if_pos hseen, if_pos (List.mem_cons_of_mem key hseen)]
        exact ih
      · rw [if_neg hseen, if_neg (List.not_mem_cons_of_ne_of_not_mem hedge hseen),
          Nat.add_left_comm]
        exact Nat.add_le_add_left ih _

/-- Whether a depth-first search comes upon `goal`. The keys on the stack are the next ones to look
at, the first one first; a key that was seen before does not lead on again. -/
def search (edges : List (String × List String)) (goal : String) (seen stack : List String) :
    Bool :=
  match stack with
  | [] => false
  | next :: rest =>
    if next = goal then true
    else if next ∈ seen then search edges goal seen rest
    else search edges goal (next :: seen) ((targets edges next).reverse ++ rest)
termination_by stepsAhead edges seen + stack.length
decreasing_by
  · exact Nat.lt_succ_self _
  · rename_i hseen
    have hsteps := targets_add_stepsAhead_le edges hseen
    rw [List.length_append, List.length_reverse, List.length_cons]
    omega

/-- Whether `goal` is one step or more from `start`. The start does not count as seen. -/
def reaches (edges : List (String × List String)) (start goal : String) : Bool :=
  search edges goal [] (targets edges start).reverse

/-- The table with exactly the entries flagged that reach themselves. -/
def markRecursive (table : Table) : Table :=
  let edges := table.edges
  ⟨table.entries.map fun entry =>
    if reaches edges entry.key entry.key then { entry with recursive := true } else entry⟩

end Table

end ClientGen
