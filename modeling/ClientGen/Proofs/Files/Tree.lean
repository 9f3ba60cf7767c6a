import ClientGen.Files.Tree
import Mathlib.Data.List.Infix

/-!
# Growing trees of files

A tree of files grows by directories that a path lies in (`FileTree.Grows`). Growing changes nothing
that is there already, so a path leads where it led before (`FileTree.Grows.locate`). Making the
directory that a path lies in does nothing else, also when it fails half way
(`FileTree.grows_makeParent`), and writing a file changes what is at the place of its path and
nothing else (`FileTree.exists_of_write`, `FileTree.Grows.receives`). A store of files may fail
where a tree of files does not, but what it does is what it is documented to do (`FileStore.Acts`),
as the store of a tree does (`FileTree.acts_store`).
-/

namespace ClientGen

/-- The paths of the directories that a path lies in, from the outside in. -/
def FilePath.around (path : FilePath) : List FilePath :=
  match path.parent? with
  | some parent => parent.names.inits.map fun names => ⟨parent.absolute, names⟩
  | none => []

namespace FileTree

variable {tree tree' tree'' : FileTree} {path : FilePath} {paths : List FilePath}
  {place : List String} {node : FileNode} {text : String}

/-! ### Places -/

/-- What is taken out of a list is not found any more. -/
private theorem lookup_filter_self (nodes : List (List String × FileNode)) :
    (nodes.filter fun entry => entry.1 ≠ place).lookup place = none := by
  refine List.lookup_eq_none_iff.mpr fun entry hentry => ?_
  exact bne_iff_ne.mpr (Ne.symm (of_decide_eq_true (List.mem_filter.mp hentry).2))

/-- What is not taken out is found as before. -/
private theorem lookup_filter_of_ne {other : List String} (h : other ≠ place)
    (nodes : List (List String × FileNode)) :
    (nodes.filter fun entry => entry.1 ≠ place).lookup other = nodes.lookup other := by
  induction nodes with
  | nil => rfl
  | cons entry rest ih =>
    obtain ⟨first, node⟩ := entry
    by_cases hfirst : first = place
    · rw [List.filter_cons_of_neg (by simpa using hfirst), ih, List.lookup_cons,
        beq_eq_false_iff_ne.mpr (hfirst ▸ h)]
    · rw [List.filter_cons_of_pos (by simpa using hfirst), List.lookup_cons, List.lookup_cons, ih]

/-- What was put in a place is found there. -/
theorem node?_put_self (h : place ≠ []) : (tree.put place node).node? place = some node := by
  rw [node?, if_neg (mt List.isEmpty_iff.mp h), put, List.lookup_append, lookup_filter_self,
    Option.none_or, List.lookup_cons_self]

/-- Putting something in a place changes no other place. -/
theorem node?_put_of_ne {other : List String} (h : other ≠ place) :
    (tree.put place node).node? other = tree.node? other := by
  have hlast : List.lookup other [(place, node)] = none :=
    List.lookup_eq_none_iff.mpr (List.forall_mem_singleton.mpr (bne_iff_ne.mpr h))
  rw [node?, node?, put, List.lookup_append, lookup_filter_of_ne h, hlast, Option.or_none]

/-- A place without a directory is not the root. -/
theorem ne_nil_of_node? (h : tree.node? place ≠ some .directory) : place ≠ [] := by
  rintro rfl
  exact h rfl

/-- What is put where there is no directory takes no directory away. -/
theorem isDirectory_put (h : tree.node? place ≠ some .directory) {other : List String}
    (hother : tree.node? other = some .directory) :
    (tree.put place node).node? other = some .directory := by
  have hne : other ≠ place := by
    rintro rfl
    exact h hother
  rw [node?_put_of_ne hne, hother]

/-- More directories do not change where a path leads. -/
theorem walk_mono
    (h : ∀ place, tree.node? place = some .directory → tree'.node? place = some .directory)
    {start names : List String} (hwalk : tree.walk start names = .ok place) :
    tree'.walk start names = .ok place := by
  induction names generalizing start with
  | nil => exact hwalk
  | cons name rest ih =>
    unfold walk at hwalk ⊢
    split at hwalk
    · cases hwalk
    · cases hwalk
    · rename_i hstart
      rw [h _ hstart]
      split_ifs at hwalk ⊢
      · exact ih hwalk
      · exact ih hwalk
      · exact ih hwalk

/-- A path leads to the same place if no directory is taken away. -/
theorem locate_mono (hworking : tree'.working = tree.working)
    (h : ∀ place, tree.node? place = some .directory → tree'.node? place = some .directory)
    (hlocate : tree.locate path = .ok place) : tree'.locate path = .ok place := by
  unfold locate at hlocate ⊢
  rw [hworking]
  split_ifs at hlocate ⊢
  · exact walk_mono h hlocate
  · exact walk_mono h hlocate

/-- A path leads to the same place if something is put where there is no directory. -/
theorem locate_put (h : tree.node? place ≠ some .directory) {found : List String}
    (hlocate : tree.locate path = .ok found) :
    (tree.put place node).locate path = .ok found := by
  have hworking : (tree.put place node).working = tree.working := rfl
  exact locate_mono hworking (fun _ => isDirectory_put h) hlocate

/-! ### Growing -/

/-- A tree that grows by directories that some paths lead to. -/
structure Grows (paths : List FilePath) (tree tree' : FileTree) : Prop where
  working : tree'.working = tree.working
  node : ∀ place, tree'.node? place = tree.node? place ∨
    tree.node? place = none ∧ tree'.node? place = some .directory ∧
      ∃ path ∈ paths, tree'.locate path = .ok place

namespace Grows

/-- A tree grows into itself. -/
theorem refl (paths : List FilePath) (tree : FileTree) : Grows paths tree tree :=
  ⟨rfl, fun _ => .inl rfl⟩

/-- A tree that grows for some paths grows for more. -/
theorem mono {more : List FilePath} (h : paths ⊆ more) (hgrows : Grows paths tree tree') :
    Grows more tree tree' :=
  ⟨hgrows.working, fun place => (hgrows.node place).imp_right
    fun ⟨hnone, hnew, path, hpath, hlocate⟩ => ⟨hnone, hnew, path, h hpath, hlocate⟩⟩

/-- Directories stay directories. -/
theorem directory (h : Grows paths tree tree') (place : List String)
    (hplace : tree.node? place = some .directory) : tree'.node? place = some .directory := by
  rcases h.node place with hsame | ⟨-, hnew, -⟩
  · rw [hsame, hplace]
  · exact hnew

/-- A path leads where it led before. -/
theorem locate (h : Grows paths tree tree') (hlocate : tree.locate path = .ok place) :
    tree'.locate path = .ok place :=
  locate_mono h.working h.directory hlocate

/-- Trees grow step by step. -/
theorem trans (h : Grows paths tree tree') (h' : Grows paths tree' tree'') :
    Grows paths tree tree'' := by
  refine ⟨h'.working.trans h.working, fun place => ?_⟩
  rcases h'.node place with hsame | ⟨hnone, hnew⟩
  · rcases h.node place with hsame' | ⟨hnone, hnew, path, hpath, hlocate⟩
    · exact .inl (hsame.trans hsame')
    · exact .inr ⟨hnone, hsame.trans hnew, path, hpath, h'.locate hlocate⟩
  -- What is made in the second half was missing after the first, so it was not made there.
  · rcases h.node place with hsame' | ⟨-, hnew', -⟩
    · exact .inr ⟨hsame'.symm.trans hnone, hnew⟩
    · rw [hnone] at hnew'
      cases hnew'

end Grows

/-! ### Making directories -/

/-- A directory is made only where there is nothing yet. -/
theorem exists_of_makeDirectory (h : tree.makeDirectory path = .ok tree') :
    ∃ place, tree.locate path = .ok place ∧ tree.node? place = none ∧
      tree' = tree.put place .directory := by
  unfold makeDirectory at h
  cases hlocate : tree.locate path with
  | error fault =>
    rw [hlocate] at h
    cases h
  | ok place =>
    rw [hlocate] at h
    cases hnode : tree.node? place with
    | none =>
      simp only [bind, Except.bind, hnode, pure, Except.pure] at h
      exact ⟨place, rfl, hnode, (Except.ok.inj h).symm⟩
    | some node =>
      simp only [bind, Except.bind, hnode] at h
      cases h

/-- Making a directory makes a tree grow. -/
theorem grows_makeDirectory (hpath : path ∈ paths) (h : tree.makeDirectory path = .ok tree') :
    Grows paths tree tree' := by
  obtain ⟨place, hlocate, hnone, rfl⟩ := exists_of_makeDirectory h
  have hnew : tree.node? place ≠ some .directory := by
    rw [hnone]
    exact nofun
  refine ⟨rfl, fun other => ?_⟩
  by_cases hother : other = place
  · subst hother
    exact .inr ⟨hnone, node?_put_self (ne_nil_of_node? hnew), path, hpath,
      locate_put hnew hlocate⟩
  · exact .inl (node?_put_of_ne hother)

/-- So does making one unless it is there, even if that fails. -/
theorem grows_ensureDirectory (hpath : path ∈ paths) :
    Grows paths tree (tree.ensureDirectory path).1 := by
  unfold ensureDirectory
  split
  · rename_i made hmade
    exact grows_makeDirectory hpath hmade
  · exact .refl paths tree

/-- Directories are made one in the other, also if this ends with a failure. -/
theorem grows_ensureAll (tree : FileTree) (absolute : Bool) (names : List String) :
    Grows (names.reverse.inits.map fun names => ⟨absolute, names⟩) tree
      (tree.ensureAll absolute names).1 := by
  induction names generalizing tree with
  | nil => exact .refl _ tree
  | cons name outer ih =>
    have hself : (⟨absolute, (name :: outer).reverse⟩ : FilePath) ∈
        (name :: outer).reverse.inits.map fun names => ⟨absolute, names⟩ :=
      List.mem_map_of_mem (List.mem_inits _ _ |>.mpr List.prefix_rfl)
    have houter : (outer.reverse.inits.map fun names => (⟨absolute, names⟩ : FilePath)) ⊆
        (name :: outer).reverse.inits.map fun names => ⟨absolute, names⟩ := by
      refine List.map_subset _ fun front hfront => (List.mem_inits _ _).mpr ?_
      rw [List.reverse_cons]
      exact ((List.mem_inits _ _).mp hfront).trans (List.prefix_append _ _)
    have hall := (ih tree).mono houter
    -- Outer directories are made first, and even if one of them fails the others stay.
    rcases hmade : tree.ensureAll absolute outer with ⟨made, fault | _⟩
    · rw [hmade] at hall
      simp only [ensureAll, hmade]
      split
      · exact hall
      · exact grows_ensureDirectory hself
    · rw [hmade] at hall
      simp only [ensureAll, hmade]
      split
      · exact hall.trans (grows_ensureDirectory hself)
      · exact grows_ensureDirectory hself

/-- **Making the directory of a path.** The tree grows by directories that the path lies in. -/
theorem grows_makeParent (tree : FileTree) (path : FilePath) :
    Grows path.around tree (tree.makeParent path).1 := by
  unfold makeParent FilePath.around
  cases path.parent? with
  | some parent =>
    have h := grows_ensureAll tree parent.absolute parent.names.reverse
    rwa [List.reverse_reverse] at h
  | none => exact .refl _ tree

/-! ### Writing -/

/-- **Writing a file.** The text is at the place of the path, and nothing else is changed. -/
theorem exists_of_write (h : tree.write path text = .ok tree') :
    ∃ place, tree.locate path = .ok place ∧ tree.node? place ≠ some .directory ∧
      tree' = tree.put place (.file text) := by
  unfold write at h
  cases hlocate : tree.locate path with
  | error fault =>
    rw [hlocate] at h
    cases h
  | ok place =>
    simp only [hlocate, bind, Except.bind] at h
    split_ifs at h with hdirectory
    exact ⟨place, rfl, hdirectory, (Except.ok.inj h).symm⟩

/-- A tree with a text in the file at a path. At every other place there is what was there, or a
directory that the path lies in and that was missing. -/
structure Receives (path : FilePath) (text : String) (tree tree' : FileTree) : Prop where
  read : tree'.read path = .ok text
  others : ∃ place, tree'.locate path = .ok place ∧ ∀ other, other ≠ place →
    tree'.node? other = tree.node? other ∨
      tree.node? other = none ∧ tree'.node? other = some .directory ∧
        ∃ directory ∈ path.around, tree'.locate directory = .ok other

/-- A file is written after the directories that it lies in were made. -/
theorem Grows.receives (hgrows : Grows path.around tree tree')
    (hwrite : tree'.write path text = .ok tree'') : Receives path text tree tree'' := by
  obtain ⟨place, hplace, hdirectory, rfl⟩ := exists_of_write hwrite
  have hlocate {path : FilePath} {found : List String} (h : tree'.locate path = .ok found) :
      (tree'.put place (.file text)).locate path = .ok found :=
    locate_put hdirectory h
  refine ⟨?_, place, hlocate hplace, fun other hother => ?_⟩
  · simp only [FileTree.read, hlocate hplace, bind, Except.bind,
      node?_put_self (ne_nil_of_node? hdirectory)]
    rfl
  · rw [node?_put_of_ne hother]
    exact (hgrows.node other).imp_right
      fun ⟨hnone, hnew, directory, haround, hfound⟩ =>
        ⟨hnone, hnew, directory, haround, hlocate hfound⟩

end FileTree

/-! ### Stores -/

/-- A store of files with operations that do to a tree of files what they are documented to do. Any
of them can fail at any time. Reading changes nothing; making the directory of a path makes none but
directories that the path lies in, also when it fails half way; and a file is written as the tree of
files has it written, unless this fails. -/
structure FileStore.Acts (store : FileStore (StateM FileTree)) : Prop where
  unchanged : ∀ path tree, ((store.read path).run tree).2 = tree
  read : ∀ path tree text, ((store.read path).run tree).1 = .ok text →
    tree.read (.ofText path) = .ok text
  makeParent : ∀ path tree,
    FileTree.Grows (FilePath.ofText path).around tree ((store.makeParent path).run tree).2
  write : ∀ path text tree, ((store.write path text).run tree).1 = .ok () →
    tree.write (.ofText path) text = .ok ((store.write path text).run tree).2

/-- Writing changes the tree only if it succeeds. -/
theorem FileTree.run_write (path text : String) (tree : FileTree) :
    (FileTree.store.write path text).run tree =
      match tree.write (.ofText path) text with
      | .ok tree' => (.ok (), tree')
      | .error fault => (.error fault, tree) := by
  have hrun : (FileTree.store.write path text).run tree =
      (match tree.write (.ofText path) text with
        | .ok tree' => do
          set tree'
          return Except.ok ()
        | .error fault => return Except.error fault :
        StateM FileTree (Except FileFault Unit)).run tree := rfl
  rw [hrun]
  cases tree.write (.ofText path) text with
  | ok tree' => rfl
  | error fault => rfl

/-- The store of a tree of files acts as documented. -/
theorem FileTree.acts_store : FileTree.store.Acts where
  unchanged _ _ := rfl
  read _ _ _ h := h
  makeParent path tree := tree.grows_makeParent (.ofText path)
  write path text tree h := by
    rw [run_write] at h ⊢
    cases hwrite : tree.write (.ofText path) text with
    | ok tree' => rfl
    | error fault =>
      rw [hwrite] at h
      cases h

end ClientGen
