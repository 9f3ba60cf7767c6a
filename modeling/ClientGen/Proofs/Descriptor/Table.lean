import ClientGen.Descriptor.Table
import Mathlib.Data.List.Nodup

/-!
# Entries of a table

What an insertion does to the entry of a key (`get?_insert_self`, `get?_insert_of_ne`), and that
flagging recursive entries changes no key, name or type (`get?_markRecursive`). An insertion that
gives no entry another name leaves all entries in their places (`labels_prefix_insert`).
-/

namespace ClientGen.Table

/-- What is found under a key has that key. -/
theorem key_of_get? {table : Table} {key : String} {entry : Entry}
    (h : table.get? key = some entry) : entry.key = key := by
  have := List.find?_some h
  simpa using this

/-- What is found is an entry. -/
theorem mem_of_get? {table : Table} {key : String} {entry : Entry}
    (h : table.get? key = some entry) : entry ∈ table.entries :=
  List.mem_of_find?_eq_some h

/-- After an entry was put, it is found under its key, and under any other key what was found
before. -/
theorem find?_putEntry (entries : List Entry) (new : Entry) (key : String) :
    (putEntry entries new).find? (fun entry => entry.key == key) =
      if new.key = key then some new else entries.find? fun entry => entry.key == key := by
  induction entries with
  | nil => by_cases h : new.key = key <;> simp [putEntry, h]
  | cons entry rest ih =>
    by_cases hplace : entry.key = new.key
    · by_cases h : new.key = key <;> simp [putEntry, hplace, h]
    · rw [putEntry, if_neg hplace, List.find?_cons, ih, List.find?_cons]
      by_cases h : new.key = key
      · have hkey : (entry.key == key) = false := by
          rw [beq_eq_false_iff_ne, ← h]
          exact hplace
        simp only [hkey, h, if_true]
      · simp only [h, if_false]

/-- What was inserted is found under its key. -/
theorem get?_insert_self (table : Table) (key name : String) (type : Descriptor) :
    (table.insert key name type).get? key = some ⟨key, name, type, false⟩ := by
  rw [get?, insert, find?_putEntry, if_pos rfl]

/-- An insertion changes nothing under another key. -/
theorem get?_insert_of_ne (table : Table) {key other : String} (h : key ≠ other) (name : String)
    (type : Descriptor) : (table.insert key name type).get? other = table.get? other := by
  rw [get?, insert, find?_putEntry, if_neg h, get?]

/-- An entry is the one that was put, or was there before. -/
theorem mem_putEntry {entries : List Entry} {new entry : Entry} (h : entry ∈ putEntry entries new) :
    entry = new ∨ entry ∈ entries := by
  induction entries with
  | nil => exact Or.inl (List.mem_singleton.mp h)
  | cons first rest ih =>
    rw [putEntry] at h
    split_ifs at h with hplace
    · rcases List.mem_cons.mp h with rfl | hrest
      · exact Or.inl rfl
      · exact Or.inr (List.mem_cons_of_mem _ hrest)
    · rcases List.mem_cons.mp h with rfl | hrest
      · exact Or.inr List.mem_cons_self
      · exact (ih hrest).imp_right (List.mem_cons_of_mem _)

/-- An entry is the one that was inserted, or was there before. -/
theorem mem_insert {table : Table} {key name : String} {type : Descriptor} {entry : Entry}
    (h : entry ∈ (table.insert key name type).entries) :
    entry = ⟨key, name, type, false⟩ ∨ entry ∈ table.entries :=
  mem_putEntry h

/-- The keys of a table after an insertion. -/
theorem keys_putEntry (entries : List Entry) (new : Entry) :
    (putEntry entries new).map Entry.key =
      if new.key ∈ entries.map Entry.key then entries.map Entry.key
      else entries.map Entry.key ++ [new.key] := by
  induction entries with
  | nil => rfl
  | cons entry rest ih =>
    rw [putEntry]
    by_cases hplace : entry.key = new.key
    · simp [hplace]
    · have hne : ¬new.key = entry.key := fun heq => hplace heq.symm
      rw [if_neg hplace, List.map_cons, ih, List.map_cons]
      by_cases hmem : new.key ∈ rest.map Entry.key
      · rw [if_pos hmem, if_pos (List.mem_cons_of_mem _ hmem)]
      · rw [if_neg hmem, if_neg (List.mem_cons.not.mpr (not_or.mpr ⟨hne, hmem⟩)), List.cons_append]

/-- An insertion keeps the keys distinct. -/
theorem nodup_keys_insert {table : Table} (h : (table.entries.map Entry.key).Nodup)
    (key name : String) (type : Descriptor) :
    ((table.insert key name type).entries.map Entry.key).Nodup := by
  rw [insert, keys_putEntry]
  split_ifs with hmem
  · exact h
  · exact List.nodup_append.mpr ⟨h, List.nodup_singleton _, fun old hold new hnew heq =>
      hmem (List.mem_singleton.mp hnew ▸ heq ▸ hold)⟩

/-- The entries that an insertion leaves are those under other keys. -/
theorem mem_insert_of_ne {table : Table} {entry : Entry} (h : entry ∈ table.entries) {key : String}
    (hne : entry.key ≠ key) (name : String) (type : Descriptor) :
    entry ∈ (table.insert key name type).entries := by
  have hput (entries : List Entry) (h : entry ∈ entries) :
      entry ∈ putEntry entries ⟨key, name, type, false⟩ := by
    induction entries with
    | nil => cases h
    | cons first rest ih =>
      rw [putEntry]
      split_ifs with hplace
      · rcases List.mem_cons.mp h with rfl | hrest
        · exact absurd hplace hne
        · exact List.mem_cons_of_mem _ hrest
      · rcases List.mem_cons.mp h with rfl | hrest
        · exact List.mem_cons_self
        · exact List.mem_cons_of_mem _ (ih hrest)
  exact hput table.entries h

/-- What was inserted is an entry. -/
theorem mem_insert_self (table : Table) (key name : String) (type : Descriptor) :
    ⟨key, name, type, false⟩ ∈ (table.insert key name type).entries :=
  mem_of_get? (get?_insert_self table key name type)

/-- Flagging changes nothing but the flags. -/
theorem mem_markRecursive {table : Table} {entry : Entry}
    (h : entry ∈ table.markRecursive.entries) :
    ∃ old ∈ table.entries, entry.key = old.key ∧ entry.name = old.name ∧ entry.type = old.type := by
  obtain ⟨old, hmem, rfl⟩ := List.mem_map.mp h
  refine ⟨old, hmem, ?_⟩
  split_ifs <;> exact ⟨rfl, rfl, rfl⟩

/-- Marking keeps all of an entry that does not depend on the mark. -/
theorem map_markRecursive {α : Type} (f : Entry → α)
    (h : ∀ entry : Entry, f { entry with recursive := true } = f entry) (table : Table) :
    table.markRecursive.entries.map f = table.entries.map f := by
  rw [markRecursive, List.map_map]
  refine List.map_congr_left fun entry _ => ?_
  rw [Function.comp_apply]
  split_ifs
  · exact h entry
  · rfl

theorem map_name_markRecursive (table : Table) :
    table.markRecursive.entries.map Entry.name = table.entries.map Entry.name :=
  map_markRecursive Entry.name (fun _ => rfl) table

/-- What is found under a key stays, but for its mark. -/
theorem get?_markRecursive {table : Table} {key : String} {entry : Entry}
    (h : table.get? key = some entry) :
    ∃ flagged, table.markRecursive.get? key = some flagged ∧ flagged.key = entry.key ∧
      flagged.name = entry.name ∧ flagged.type = entry.type := by
  rw [get?, markRecursive, List.find?_map]
  have hkey : ((fun entry : Entry => entry.key == key) ∘ fun entry : Entry =>
      if reaches table.edges entry.key entry.key then { entry with recursive := true }
      else entry) = fun entry => entry.key == key := by
    funext old
    simp only [Function.comp_apply]
    split_ifs <;> rfl
  rw [hkey, show table.entries.find? (fun entry => entry.key == key) = some entry from h]
  refine ⟨_, rfl, ?_⟩
  dsimp only
  split_ifs <;> exact ⟨rfl, rfl, rfl⟩

/-! ### Places -/

/-- The keys of a table with their names, in order. -/
def labels (table : Table) : List (String × String) :=
  table.entries.map fun entry => (entry.key, entry.name)

theorem map_fst_labels (table : Table) :
    table.labels.map Prod.fst = table.entries.map Entry.key :=
  List.map_map

theorem map_snd_labels (table : Table) :
    table.labels.map Prod.snd = table.entries.map Entry.name :=
  List.map_map

/-- An insertion under the name that the key has, if it has an entry, moves and renames nothing. -/
theorem labels_prefix_insert {table : Table} {key name : String}
    (h : ∀ entry ∈ table.entries, entry.key = key → entry.name = name) (type : Descriptor) :
    table.labels <+: (table.insert key name type).labels := by
  have hput (entries : List Entry) (h : ∀ entry ∈ entries, entry.key = key → entry.name = name) :
      entries.map (fun entry => (entry.key, entry.name)) <+:
        (putEntry entries ⟨key, name, type, false⟩).map fun entry => (entry.key, entry.name) := by
    induction entries with
    | nil => exact List.nil_prefix
    | cons entry rest ih =>
      obtain ⟨hentry, hrest⟩ := List.forall_mem_cons.mp h
      rw [putEntry]
      split_ifs with hplace
      · have hlabel : (entry.key, entry.name) = (key, name) := Prod.ext hplace (hentry hplace)
        exact List.prefix_cons_iff.mpr (Or.inr ⟨_, congrArg (· :: _) hlabel, List.prefix_rfl⟩)
      · exact List.prefix_cons_iff.mpr (Or.inr ⟨_, rfl, ih hrest⟩)
  exact hput table.entries h

/-- If keys are distinct, then each entry is found under its key. -/
theorem get?_of_mem {table : Table} (h : (table.entries.map Entry.key).Nodup) {entry : Entry}
    (hmem : entry ∈ table.entries) : table.get? entry.key = some entry := by
  rcases hget : table.get? entry.key with _ | found
  · have hnone := List.find?_eq_none.mp hget entry hmem
    exact absurd (beq_self_eq_true entry.key) hnone
  · exact congrArg some
      (List.inj_on_of_nodup_map h (mem_of_get? hget) hmem (key_of_get? hget))

/-- If keys are distinct, then the first entries are those that are found under the first keys. -/
theorem map_get?_of_prefix {table : Table} (h : (table.entries.map Entry.key).Nodup)
    {keys : List String} (hkeys : keys <+: table.entries.map Entry.key) :
    keys.map table.get? = (table.entries.take keys.length).map some := by
  have htake := List.prefix_iff_eq_take.mp hkeys
  rw [← List.map_take] at htake
  calc keys.map table.get?
      = ((table.entries.take keys.length).map Entry.key).map table.get? :=
        congrArg (List.map table.get?) htake
    _ = (table.entries.take keys.length).map fun entry => table.get? entry.key := List.map_map
    _ = (table.entries.take keys.length).map some :=
        List.map_congr_left fun _ hmem => get?_of_mem h (List.mem_of_mem_take hmem)

end ClientGen.Table
