import ClientGen.Registry
import Mathlib.Data.List.Nodup
import Mathlib.Data.List.Perm.Subperm

/-!
# Names are kept and told apart

Resolving a key gives it a name (`name?_resolveAs_self`), and a key that has a name keeps it
whatever is resolved later (`name?_resolveAs_of_name?`). A new name is free (`freeName_notMem`):
there are more numbered variants than names to clash with. So no two keys ever have one name and no
key has a reserved one, whatever the names are made from (`Distinct.resolveAs`).
-/

namespace ClientGen.Registry

/-- A key without a name gets the first one that is free, and keeps it. -/
theorem resolveAs_of_none {registry : Registry} {key : String} (h : registry.name? key = none)
    (base : String) :
    registry.resolveAs key base =
      (freeName registry.taken base, ⟨(key, freeName registry.taken base) :: registry.assigned,
        freeName registry.taken base :: registry.taken⟩) := by
  rw [resolveAs, h]

/-- A key that has a name keeps it, and the registry stays as it is. -/
theorem resolveAs_of_name? {registry : Registry} {key name : String}
    (h : registry.name? key = some name) (base : String) :
    registry.resolveAs key base = (name, registry) := by
  rw [resolveAs, h]

theorem name?_resolveAs_self (registry : Registry) (key base : String) :
    (registry.resolveAs key base).2.name? key = some (registry.resolveAs key base).1 := by
  rcases h : registry.name? key with _ | name
  · rw [resolveAs_of_none h, name?, List.lookup_cons_self]
  · rw [resolveAs_of_name? h, h]

/-- No key loses its name. -/
theorem name?_resolveAs_of_name? {registry : Registry} {key name : String}
    (h : registry.name? key = some name) (other base : String) :
    (registry.resolveAs other base).2.name? key = some name := by
  rcases ho : registry.name? other with _ | _
  · have hne : (key == other) = false := by
      rw [beq_eq_false_iff_ne]
      rintro rfl
      rw [h] at ho
      cases ho
    rw [resolveAs_of_none ho, name?, List.lookup_cons, hne]
    exact h
  · rw [resolveAs_of_name? ho, h]

theorem name?_resolve_self (registry : Registry) (key : String) :
    (registry.resolve key).2.name? key = some (registry.resolve key).1 :=
  name?_resolveAs_self registry key _

theorem name?_resolve_of_name? {registry : Registry} {key name : String}
    (h : registry.name? key = some name) (other : String) :
    (registry.resolve other).2.name? key = some name :=
  name?_resolveAs_of_name? h other _

/-! ### Free names -/

/-- Different numbers give different names. -/
theorem numbered_injective (base : String) : Function.Injective (numbered base) := by
  intro m n h
  have hchars := congrArg String.toList h
  rw [numbered, numbered, String.toList_append, String.toList_append, Nat.toString_eq_repr,
    Nat.toString_eq_repr, Nat.repr_eq_ofList_toDigits, Nat.repr_eq_ofList_toDigits] at hchars
  have hdigits := congrArg (Nat.ofDigitChars 10 · 0) (List.append_cancel_left hchars)
  simp only [String.toList_ofList] at hdigits
  have hround (k : Nat) : Nat.ofDigitChars 10 (Nat.toDigits 10 k) 0 = k :=
    Nat.ofDigitChars_toDigits (by decide) (by decide)
  rw [hround, hround] at hdigits
  exact Nat.add_right_cancel hdigits

/-- A free name is the one asked for or a numbered variant of it. -/
theorem freeName_eq (taken : List String) (base : String) :
    freeName taken base = base ∨ ∃ n, freeName taken base = numbered base n := by
  unfold freeName
  split_ifs with hbase
  · dsimp only
    rcases hfind : ((List.range (taken.length + 1)).map (numbered base)).find?
        fun name => !taken.contains name with _ | name
    · exact Or.inl rfl
    · obtain ⟨n, -, hname⟩ := List.mem_map.mp (List.mem_of_find?_eq_some hfind)
      exact Or.inr ⟨n, hname.symm⟩
  · exact Or.inl rfl

/-- A free name is not taken. There is one, because more numbers are tried than names are taken. -/
theorem freeName_notMem (taken : List String) (base : String) : freeName taken base ∉ taken := by
  unfold freeName
  split_ifs with hbase
  · dsimp only
    rcases hfind : ((List.range (taken.length + 1)).map (numbered base)).find?
        fun name => !taken.contains name with _ | name
    · -- More variants than taken names cannot all be taken.
      have hsubset : (List.range (taken.length + 1)).map (numbered base) ⊆ taken := by
        intro name hname
        have htaken := List.find?_eq_none.mp hfind name hname
        simpa using htaken
      have hnodup : ((List.range (taken.length + 1)).map (numbered base)).Nodup :=
        List.nodup_range.map (numbered_injective base)
      have hlength := (List.subperm_of_subset hnodup hsubset).length_le
      rw [List.length_map, List.length_range] at hlength
      omega
    · have hfree := List.find?_some hfind
      simpa using hfree
  · exact hbase

/-! ### Taken names -/

theorem name?_resolveAs_of_ne (registry : Registry) {key other : String} (h : other ≠ key)
    (base : String) : (registry.resolveAs key base).2.name? other = registry.name? other := by
  rcases hname : registry.name? key with _ | name
  · rw [resolveAs_of_none hname, name?, List.lookup_cons, beq_eq_false_iff_ne.mpr h, name?]
  · rw [resolveAs_of_name? hname]

theorem taken_subset_resolveAs (registry : Registry) (key base : String) :
    registry.taken ⊆ (registry.resolveAs key base).2.taken := by
  rcases hname : registry.name? key with _ | name
  · rw [resolveAs_of_none hname]
    exact List.subset_cons_self _ _
  · rw [resolveAs_of_name? hname]
    exact List.Subset.refl _

/-- Resolving a key takes no name but the one it gives. -/
theorem mem_taken_resolveAs {registry : Registry} {key base name : String}
    (h : name ∈ (registry.resolveAs key base).2.taken) :
    name = (registry.resolveAs key base).1 ∨ name ∈ registry.taken := by
  rcases hname : registry.name? key with _ | old
  · rw [resolveAs_of_none hname] at h ⊢
    exact List.mem_cons.mp h
  · rw [resolveAs_of_name? hname] at h
    exact Or.inr h

/-- The name asked for is taken afterwards, if the key did not have a name already. -/
theorem mem_taken_resolveAs_self {registry : Registry} {key : String}
    (h : registry.name? key = none) (base : String) :
    base ∈ (registry.resolveAs key base).2.taken := by
  rw [resolveAs_of_none h]
  by_cases hbase : base ∈ registry.taken
  · exact List.mem_cons_of_mem _ hbase
  · rw [freeName, if_neg hbase]
    exact List.mem_cons_self

/-! ### Distinct names -/

/-- Whether a registry gives different keys different names, and never a reserved one. -/
structure Distinct (reserved : List String) (registry : Registry) : Prop where
  nodup : (registry.assigned.map Prod.snd).Nodup
  taken : ∀ pair ∈ registry.assigned, pair.2 ∈ registry.taken
  free : ∀ pair ∈ registry.assigned, pair.2 ∉ reserved
  kept : reserved ⊆ registry.taken

/-- Whether all names of a registry have a property. -/
def All (p : String → Prop) (registry : Registry) : Prop :=
  ∀ pair ∈ registry.assigned, p pair.2

theorem distinct_reserving (names : List String) : Distinct names (reserving names) :=
  ⟨List.nodup_nil, fun _ h => absurd h List.not_mem_nil, fun _ h => absurd h List.not_mem_nil,
    List.Subset.refl _⟩

theorem all_reserving (p : String → Prop) (names : List String) : All p (reserving names) :=
  fun _ h => absurd h List.not_mem_nil

section

variable {reserved : List String} {p : String → Prop} {registry : Registry}

theorem mem_assigned_of_name? {key name : String} (h : registry.name? key = some name) :
    (key, name) ∈ registry.assigned := by
  obtain ⟨before, after, hassigned, -⟩ := List.lookup_eq_some_iff.mp h
  rw [hassigned]
  exact List.mem_append_right before List.mem_cons_self

/-- **Distinct names.** Resolving a key keeps names distinct and apart from the reserved ones. -/
theorem Distinct.resolveAs (h : Distinct reserved registry) (key base : String) :
    Distinct reserved (registry.resolveAs key base).2 := by
  rcases hname : registry.name? key with _ | name
  · rw [resolveAs_of_none hname]
    have hfresh := freeName_notMem registry.taken base
    refine ⟨List.nodup_cons.mpr ⟨fun hmem => ?_, h.nodup⟩,
      List.forall_mem_cons.mpr ⟨List.mem_cons_self, fun pair hpair => ?_⟩,
      List.forall_mem_cons.mpr ⟨fun hmem => hfresh (h.kept hmem), h.free⟩,
      List.subset_cons_of_subset _ h.kept⟩
    · obtain ⟨pair, hpair, heq⟩ := List.mem_map.mp hmem
      have htaken := h.taken pair hpair
      rw [heq] at htaken
      exact hfresh htaken
    · exact List.mem_cons_of_mem _ (h.taken pair hpair)
  · rw [resolveAs_of_name? hname]
    exact h

/-- Two keys with one name are one key. -/
theorem Distinct.key_eq (h : Distinct reserved registry) {key other name : String}
    (hkey : registry.name? key = some name) (hother : registry.name? other = some name) :
    key = other := by
  have hpairs := List.inj_on_of_nodup_map h.nodup (mem_assigned_of_name? hkey)
    (mem_assigned_of_name? hother) rfl
  exact congrArg Prod.fst hpairs

/-- Resolving a key keeps a property of all names that the name asked for has, if a number at the
end does not destroy it. -/
theorem All.resolveAs (h : All p registry) (hnumbered : ∀ base n, p base → p (numbered base n))
    (key : String) {base : String} (hbase : p base) : All p (registry.resolveAs key base).2 := by
  rcases hname : registry.name? key with _ | name
  · rw [resolveAs_of_none hname]
    refine List.forall_mem_cons.mpr ⟨?_, h⟩
    rcases freeName_eq registry.taken base with heq | ⟨n, heq⟩
    · exact heq.symm ▸ hbase
    · exact heq.symm ▸ hnumbered base n hbase
  · rw [resolveAs_of_name? hname]
    exact h

theorem All.of_name? (h : All p registry) {key name : String}
    (hname : registry.name? key = some name) : p name :=
  h _ (mem_assigned_of_name? hname)

end

end ClientGen.Registry
