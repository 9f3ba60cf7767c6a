import ClientGen.OpenApi.Source
import Mathlib.Data.List.Nodup

/-!
# Values with distinct names

However the text of a document is written, no object in the value that is read from it has two
members with one name (`distinct_readText`): both readers put each member in the place of an earlier
one with its name.
-/

namespace ClientGen

namespace Ordered

variable {α : Type} {entries : List (String × α)}

/-- Putting a value under a name keeps the names distinct. -/
theorem nodup_keys_put (h : (keys entries).Nodup) (name : String) (value : α) :
    (keys (put entries name value)).Nodup := by
  rw [keys_put]
  split_ifs with hmem
  · exact h
  · exact List.nodup_append.mpr ⟨h, List.nodup_singleton _, fun old hold new hnew heq =>
      hmem (List.mem_singleton.mp hnew ▸ heq ▸ hold)⟩

/-- A value is the one that was put, or was there before. -/
theorem mem_put {entry : String × α} {name : String} {value : α}
    (h : entry ∈ put entries name value) : entry = (name, value) ∨ entry ∈ entries := by
  induction entries with
  | nil => exact Or.inl (List.mem_singleton.mp h)
  | cons first rest ih =>
    rw [put] at h
    split_ifs at h
    · exact (List.mem_cons.mp h).imp_right (List.mem_cons_of_mem _)
    · rcases List.mem_cons.mp h with rfl | hrest
      · exact Or.inr List.mem_cons_self
      · exact (ih hrest).imp_right (List.mem_cons_of_mem _)

end Ordered

namespace Json

mutual

/-- Whether no object in a value has two members with one name. -/
def Distinct : Json → Prop
  | .array items => DistinctItems items
  | .object members => (Ordered.keys members).Nodup ∧ DistinctMembers members
  | _ => True

/-- Whether no object in the values of a list has two members with one name. -/
def DistinctItems : List Json → Prop
  | [] => True
  | item :: rest => item.Distinct ∧ DistinctItems rest

/-- Whether no object in the values of members has two members with one name. -/
def DistinctMembers : List (String × Json) → Prop
  | [] => True
  | member :: rest => member.2.Distinct ∧ DistinctMembers rest

end

/-- Items are distinct inside if each of them is. -/
theorem distinctItems_iff {items : List Json} :
    DistinctItems items ↔ ∀ item ∈ items, item.Distinct := by
  induction items with
  | nil => exact ⟨fun _ _ hmem => absurd hmem List.not_mem_nil, fun _ => trivial⟩
  | cons item rest ih => rw [DistinctItems, ih, List.forall_mem_cons]

/-- Members are distinct inside if each of them is. -/
theorem distinctMembers_iff {members : List (String × Json)} :
    DistinctMembers members ↔ ∀ member ∈ members, member.2.Distinct := by
  induction members with
  | nil => exact ⟨fun _ _ hmem => absurd hmem List.not_mem_nil, fun _ => trivial⟩
  | cons member rest ih => rw [DistinctMembers, ih, List.forall_mem_cons]

/-- An array has distinct names if its items do. -/
@[simp]
theorem distinct_array {items : List Json} :
    (array items).Distinct ↔ ∀ item ∈ items, item.Distinct := by
  rw [Distinct, distinctItems_iff]

/-- An object has distinct names if its own are and those in its members are. -/
@[simp]
theorem distinct_object {members : List (String × Json)} : (object members).Distinct ↔
    (Ordered.keys members).Nodup ∧ ∀ member ∈ members, member.2.Distinct := by
  rw [Distinct, distinctMembers_iff]

theorem distinct_object_nil : (object []).Distinct :=
  distinct_object.mpr ⟨List.Pairwise.nil, List.forall_mem_nil _⟩

/-- Putting a value with distinct names into an object keeps names distinct. -/
theorem distinct_put {members : List (String × Json)} (h : (object members).Distinct)
    (name : String) {value : Json} (hvalue : value.Distinct) :
    (object (Ordered.put members name value)).Distinct := by
  rw [distinct_object] at h ⊢
  refine ⟨Ordered.nodup_keys_put h.1 name value, fun member hmember => ?_⟩
  rcases Ordered.mem_put hmember with rfl | hold
  · exact hvalue
  · exact h.2 member hold

/-! ### JSON -/

section Reading

/-- Whether a reader reads values with distinct names only. -/
private def ReadsDistinct (read : List Char → Option (Json × List Char)) : Prop :=
  ∀ text result, read text = some result → result.1.Distinct

variable {read : List Char → Option (Json × List Char)} (hread : ReadsDistinct read)
include hread

/-- The items that are read have distinct names, if what reads them gives such values. -/
private theorem distinct_items {fuel : Nat} {text : List Char} {result : List Json × List Char}
    (h : items read fuel text = some result) : (array result.1).Distinct := by
  induction fuel generalizing text result with
  | zero => cases h
  | succ fuel ih =>
    rw [items] at h
    obtain ⟨⟨item, rest⟩, hitem, h⟩ := Option.bind_eq_some_iff.mp h
    have hfirst := hread text _ hitem
    dsimp only at h
    split at h
    · obtain ⟨⟨more, after⟩, hmore, h⟩ := Option.bind_eq_some_iff.mp h
      cases h
      exact distinct_array.mpr (List.forall_mem_cons.mpr ⟨hfirst, distinct_array.mp (ih hmore)⟩)
    · cases h
      exact distinct_array.mpr (List.forall_mem_singleton.mpr hfirst)
    · cases h

/-- So do the members, whatever members were read before them. -/
private theorem distinct_members {fuel : Nat} {earlier : List (String × Json)} {text : List Char}
    {result : List (String × Json) × List Char} (hearlier : (object earlier).Distinct)
    (h : members read fuel earlier text = some result) : (object result.1).Distinct := by
  induction fuel generalizing earlier text with
  | zero =>
    rw [members] at h
    · cases h
    · simp
  | succ fuel ih =>
    unfold members at h
    split at h
    next fuel' rest heq =>
      cases heq
      obtain ⟨⟨name, rest⟩, -, h⟩ := Option.bind_eq_some_iff.mp h
      dsimp only at h
      split at h
      · obtain ⟨⟨item, rest⟩, hitem, h⟩ := Option.bind_eq_some_iff.mp h
        -- A member is put among the earlier ones, in the place of one with the same name.
        have hput := distinct_put hearlier (String.ofList name) (hread _ _ hitem)
        dsimp only at h
        split at h
        · exact ih hput h
        · cases h
          exact hput
        · cases h
      · cases h
    · cases h

end Reading

/-- A number has no names in it. -/
private theorem distinct_numberValue? {negative : Bool} {whole fraction exponent : List Char}
    {json : Json} (h : numberValue? negative whole fraction exponent = some json) :
    json.Distinct := by
  -- A number that is no integer within bounds is rounded.
  have hrounded {rounded : Option Binary64}
      (h : (do return Json.float (← rounded) : Option Json) = some json) : json.Distinct := by
    obtain ⟨_, -, hfloat⟩ := Option.bind_eq_some_iff.mp h
    cases hfloat
    trivial
  unfold numberValue? at h
  dsimp only at h
  split_ifs at h
  · obtain ⟨_, -, h⟩ := Option.bind_eq_some_iff.mp h
    exact hrounded h
  · cases h
    trivial
  · obtain ⟨_, -, h⟩ := Option.bind_eq_some_iff.mp h
    exact hrounded h
  · cases h
    trivial
  · obtain ⟨_, -, h⟩ := Option.bind_eq_some_iff.mp h
    exact hrounded h

private theorem distinct_number : ReadsDistinct number := by
  intro text result h
  unfold number at h
  dsimp only at h
  split_ifs at h
  obtain ⟨part, -, h⟩ := Option.bind_eq_some_iff.mp h
  obtain ⟨part', -, h⟩ := Option.bind_eq_some_iff.mp h
  obtain ⟨json, hjson, h⟩ := Option.bind_eq_some_iff.mp h
  cases h
  exact distinct_numberValue? hjson

/-- Whatever is read from a text has distinct names. -/
private theorem distinct_value (depth : Nat) : ReadsDistinct (value depth) := by
  -- The depth gets smaller with each level of brackets.
  induction depth using Nat.strongRecOn with
  | _ depth ih =>
    intro text result h
    unfold value at h
    split at h
    · obtain ⟨_, -, rfl⟩ := Option.map_eq_some_iff.mp h
      trivial
    · cases h
      trivial
    · cases h
      trivial
    · cases h
      trivial
    · split at h
      · cases h
        exact distinct_array.mpr (List.forall_mem_nil _)
      · obtain ⟨_, hitems, rfl⟩ := Option.map_eq_some_iff.mp h
        exact distinct_items (ih _ (Nat.lt_succ_self _)) hitems
    · split at h
      · cases h
        exact distinct_object_nil
      · obtain ⟨_, hmembers, rfl⟩ := Option.map_eq_some_iff.mp h
        exact distinct_members (ih _ (Nat.lt_succ_self _)) distinct_object_nil hmembers
    · exact distinct_number _ _ h

theorem distinct_parse? {text : String} {json : Json} (h : parse? text = some json) :
    json.Distinct := by
  rw [parse?] at h
  split at h
  next result rest heq =>
    split_ifs at h
    cases h
    exact distinct_value _ _ _ heq
  · cases h

end Json

/-! ### YAML -/

namespace Yaml.Value

open Json

mutual

/-- What a value is converted to has distinct names, because an entry takes the place of an earlier
one with its name. -/
theorem distinct_toJson {value : Value} {json : Json} (h : value.toJson = .ok json) :
    json.Distinct := by
  cases value with
  | null =>
    cases h
    trivial
  | bool value =>
    cases h
    trivial
  | int value =>
    cases h
    trivial
  | real value =>
    cases value <;> cases h <;> trivial
  | string value =>
    cases h
    trivial
  | sequence items =>
    rw [toJson] at h
    rcases hitems : itemsToJson items with error | list
    · rw [hitems] at h
      cases h
    · rw [hitems] at h
      cases h
      exact distinct_array.mpr (distinct_itemsToJson hitems)
  | mapping entries =>
    rw [toJson] at h
    -- A key that comes again replaces the earlier entry, so that the result repeats none.
    rcases hentries : entriesToJson [] entries with error | members
    · rw [hentries] at h
      cases h
    · rw [hentries] at h
      cases h
      exact distinct_entriesToJson distinct_object_nil hentries
  | tagged tag value =>
    rw [toJson] at h
    exact distinct_toJson h

theorem distinct_itemsToJson {items : List Value} {list : List Json}
    (h : itemsToJson items = .ok list) : ∀ item ∈ list, item.Distinct := by
  cases items with
  | nil =>
    cases h
    exact List.forall_mem_nil _
  | cons item rest =>
    rw [itemsToJson] at h
    rcases hitem : item.toJson with error | first
    · rw [hitem] at h
      cases h
    · rcases hrest : itemsToJson rest with error | others
      · rw [hitem, hrest] at h
        cases h
      · rw [hitem, hrest] at h
        cases h
        exact List.forall_mem_cons.mpr ⟨distinct_toJson hitem, distinct_itemsToJson hrest⟩

/-- Entries that are added to an object with distinct names leave it so. -/
theorem distinct_entriesToJson {earlier : List (String × Json)} {entries : List (Value × Value)}
    {members : List (String × Json)} (hearlier : (object earlier).Distinct)
    (h : entriesToJson earlier entries = .ok members) : (object members).Distinct := by
  cases entries with
  | nil =>
    cases h
    exact hearlier
  | cons entry rest =>
    obtain ⟨key, value⟩ := entry
    rw [entriesToJson] at h
    split at h
    · cases h
    next name hname =>
      rcases hvalue : value.toJson with error | json
      · rw [hvalue] at h
        cases h
      · rw [hvalue] at h
        exact distinct_entriesToJson (distinct_put hearlier name (distinct_toJson hvalue)) h

end

end Yaml.Value

/-- **Distinct names.** No object in the value that a text is written for has two members with one
name. -/
theorem OpenApi.distinct_readText {text : String} {json : Json} (h : readText text = .ok json) :
    json.Distinct := by
  unfold readText at h
  split_ifs at h
  · split at h
    next result hparse =>
      cases h
      exact Json.distinct_parse? hparse
    · cases h
  · split at h
    next value hvalue =>
      rcases hjson : value.toJson with key | result
      · rw [hjson] at h
        cases h
      · rw [hjson] at h
        cases h
        exact Yaml.Value.distinct_toJson hjson
    · cases h

end ClientGen
