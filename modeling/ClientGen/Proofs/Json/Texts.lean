import ClientGen.Json.Decode
import ClientGen.Json.Pointer
import Mathlib.Data.List.Basic

/-!
# Texts of a value

The texts among the parts of a value are finitely many (`length_strings`), and looking deeper finds
no others (`strings_at?`). A reader is *faithful* for texts of what it reads when they all are texts
of the value it read; the readers of lists, maps and records are faithful when those of their parts
are.
-/

namespace ClientGen.Json

mutual

/-- The texts among the values, member names left out. -/
def strings : Json → List String
  | .string value => [value]
  | .array items => stringsOfItems items
  | .object members => stringsOfMembers members
  | _ => []

/-- The texts among the values of a list. -/
def stringsOfItems : List Json → List String
  | [] => []
  | item :: rest => item.strings ++ stringsOfItems rest

/-- The texts among the values of members. -/
def stringsOfMembers : List (String × Json) → List String
  | [] => []
  | member :: rest => member.2.strings ++ stringsOfMembers rest

end

mutual

/-- The texts of a value are as many as are counted. -/
theorem length_strings (json : Json) : json.strings.length = json.countStrings := by
  cases json with
  | array items => rw [strings, countStrings, length_stringsOfItems]
  | object members => rw [strings, countStrings, length_stringsOfMembers]
  | _ => rfl

theorem length_stringsOfItems (items : List Json) :
    (stringsOfItems items).length = countStringsOfItems items := by
  cases items with
  | nil => rfl
  | cons item rest =>
    rw [stringsOfItems, countStringsOfItems, List.length_append, length_strings,
      length_stringsOfItems]

theorem length_stringsOfMembers (members : List (String × Json)) :
    (stringsOfMembers members).length = countStringsOfMembers members := by
  cases members with
  | nil => rfl
  | cons member rest =>
    obtain ⟨name, value⟩ := member
    rw [stringsOfMembers, countStringsOfMembers, List.length_append, length_strings,
      length_stringsOfMembers]

end

theorem stringsOfItems_eq_flatMap (items : List Json) :
    stringsOfItems items = items.flatMap strings := by
  induction items with
  | nil => rfl
  | cons item rest ih => rw [stringsOfItems, ih, List.flatMap_cons]

theorem stringsOfMembers_eq_flatMap (members : List (String × Json)) :
    stringsOfMembers members = members.flatMap fun member => member.2.strings := by
  induction members with
  | nil => rfl
  | cons member rest ih => rw [stringsOfMembers, ih, List.flatMap_cons]

/-- The texts of an item are texts of the array. -/
theorem strings_subset_of_item {item : Json} {items : List Json} (h : item ∈ items) :
    item.strings ⊆ (array items).strings := by
  rw [strings, stringsOfItems_eq_flatMap]
  exact fun text htext => List.mem_flatMap.mpr ⟨item, h, htext⟩

/-- The texts of a member are texts of the object. -/
theorem strings_subset_of_member {member : String × Json} {members : List (String × Json)}
    (h : member ∈ members) : member.2.strings ⊆ (object members).strings := by
  rw [strings, stringsOfMembers_eq_flatMap]
  exact fun text htext => List.mem_flatMap.mpr ⟨member, h, htext⟩

/-! ### Looking deeper -/

/-- The texts of a child are texts of the value. -/
theorem strings_child? {value child : Json} {segment : String}
    (h : value.child? segment = some child) : child.strings ⊆ value.strings := by
  cases value with
  | array items =>
    obtain ⟨i, -, hi⟩ := Option.bind_eq_some_iff.mp h
    exact strings_subset_of_item (List.mem_of_getElem? hi)
  | object members =>
    obtain ⟨before, after, rfl, -⟩ := List.lookup_eq_some_iff.mp h
    have hmem : (segment, child) ∈ before ++ (segment, child) :: after :=
      List.mem_append_right before List.mem_cons_self
    exact strings_subset_of_member hmem
  | _ => cases h

/-- The texts of the part of a value at a pointer are texts of the value. -/
theorem strings_at? {value part : Json} {pointer : String} (h : value.at? pointer = some part) :
    part.strings ⊆ value.strings := by
  obtain ⟨segments, -, hfold⟩ := Option.bind_eq_some_iff.mp h
  clear h
  induction segments generalizing value with
  | nil =>
    rw [List.foldlM_nil, Option.pure_def, Option.some.injEq] at hfold
    rw [hfold]
    exact List.Subset.refl _
  | cons segment more ih =>
    rw [List.foldlM_cons] at hfold
    obtain ⟨child, hchild, hmore⟩ := Option.bind_eq_some_iff.mp hfold
    exact List.Subset.trans (ih hmore) (strings_child? hchild)

/-! ### Faithful readers -/

/-- Whether `texts` of what is read are texts of the value it is read from. -/
def Faithful {α : Type} (read : Decoder α) (texts : α → List String) : Prop :=
  ∀ json value, read json = .ok value → texts value ⊆ json.strings

variable {α σ : Type}

/-- A text that is read is a text of the value. -/
theorem faithful_readString : Faithful readString fun text => [text] := by
  intro json text h
  cases json <;> simp_all [readString, strings]

theorem faithful_nil (read : Decoder α) : Faithful read fun _ => [] :=
  fun _ _ _ => List.nil_subset _

/-- A result that was changed afterwards is that of a computation that succeeded. -/
theorem exists_of_map_ok {ε β : Type} {result : Except ε α} {f : α → β} {b : β}
    (h : result.map f = .ok b) : ∃ a, result = .ok a ∧ f a = b := by
  rcases result with _ | a
  · cases h
  · exact ⟨a, rfl, Except.ok.inj h⟩

/-- If two computations succeed one after the other, each of them does. -/
theorem exists_of_bind_ok {ε β : Type} {result : Except ε α} {f : α → Except ε β} {b : β}
    (h : result >>= f = .ok b) : ∃ a, result = .ok a ∧ f a = .ok b := by
  rcases result with _ | a
  · cases h
  · exact ⟨a, rfl, h⟩

/-- Each result comes from an item of the list. -/
theorem exists_of_mem_mapM {ε β : Type} {f : α → Except ε β} {list : List α}
    {results : List β} (h : list.mapM f = .ok results) {b : β} (hb : b ∈ results) :
    ∃ a ∈ list, f a = .ok b := by
  induction list generalizing results with
  | nil =>
    cases h
    cases hb
  | cons a rest ih =>
    rw [List.mapM_cons] at h
    obtain ⟨first, ha, h⟩ := exists_of_bind_ok h
    obtain ⟨others, hrest, h⟩ := exists_of_bind_ok h
    cases h
    rcases List.mem_cons.mp hb with rfl | hb
    · exact ⟨a, List.mem_cons_self, ha⟩
    · obtain ⟨a', hmem, hok⟩ := ih hrest hb
      exact ⟨a', List.mem_cons_of_mem a hmem, hok⟩

/-- The texts of a list are those of its items. -/
theorem faithful_readList {item : Decoder α} {texts : α → List String} (h : Faithful item texts) :
    Faithful (readList item) fun list => list.flatMap texts := by
  intro json list hread text htext
  cases json with
  | array items =>
    obtain ⟨value, hvalue, htext⟩ := List.mem_flatMap.mp htext
    obtain ⟨json, hjson, hok⟩ := exists_of_mem_mapM hread hvalue
    exact strings_subset_of_item hjson (h json value hok htext)
  | _ => cases hread

/-- The texts of a map are those of its values. -/
theorem faithful_readMap {item : Decoder α} {texts : α → List String} (h : Faithful item texts) :
    Faithful (readMap item) fun list => list.flatMap fun member => texts member.2 := by
  intro json list hread text htext
  cases json with
  | object members =>
    obtain ⟨value, hvalue, htext⟩ := List.mem_flatMap.mp htext
    obtain ⟨member, hmember, hok⟩ := exists_of_mem_mapM hread hvalue
    obtain ⟨result, hresult, rfl⟩ := exists_of_map_ok hok
    exact strings_subset_of_member hmember (h member.2 result hresult htext)
  | _ => cases hread

/-- Where `null` is allowed, the texts are those of the value, if any. -/
theorem faithful_readNullable {value : Decoder α} {texts : α → List String}
    (h : Faithful value texts) :
    Faithful (readNullable value) fun found => found.toList.flatMap texts := by
  intro json found hread text htext
  have hsome : ∀ found, (value json).map some = .ok found →
      text ∈ found.toList.flatMap texts → text ∈ json.strings := by
    intro found hread htext
    obtain ⟨result, hvalue, rfl⟩ := exists_of_map_ok hread
    rw [Option.toList_some, List.flatMap_singleton] at htext
    exact h json result hvalue htext
  cases json with
  | null =>
    cases hread
    cases htext
  | _ => exact hsome found hread htext

/-! ### Faithful records -/

/-- Whether filling a field adds no texts to a record but those of the value it is filled from. -/
def RecordField.Faithful (field : RecordField σ) (texts : σ → List String) : Prop :=
  ∀ json before after, field.fill json before = .ok after →
    texts after ⊆ texts before ++ json.strings

/-- A field is faithful if its reader is and storing adds no texts but those of what was read. -/
theorem RecordField.faithful_of {texts : σ → List String} {part : α → List String}
    {value : Decoder α} (hvalue : Json.Faithful value part) (name : String) (presence : Presence)
    {store : σ → α → σ} (hstore : ∀ before value, texts (store before value) ⊆
      texts before ++ part value) :
    (RecordField.of name presence value store).Faithful texts := by
  intro json before after hfill text htext
  obtain ⟨result, hread, rfl⟩ := exists_of_map_ok hfill
  rcases List.mem_append.mp (hstore before result htext) with hbefore | hpart
  · exact List.mem_append_left _ hbefore
  · exact List.mem_append_right _ (hvalue json result hread hpart)

section Record

variable {texts : σ → List String} {fields : List (RecordField σ)}

/-- Members add no texts to a record but their own. -/
private theorem strings_foldlM_fillNamed (hfields : ∀ field ∈ fields, field.Faithful texts)
    {members : List (String × Json)} {before after : σ}
    (h : members.foldlM (fillNamed fields) before = .ok after) :
    texts after ⊆ texts before ++ stringsOfMembers members := by
  induction members generalizing before with
  | nil =>
    cases h
    exact List.subset_append_left _ _
  | cons member more ih =>
    rw [List.foldlM_cons] at h
    obtain ⟨next, hnext, h⟩ := exists_of_bind_ok h
    have hfirst : texts next ⊆ texts before ++ member.2.strings := by
      rw [fillNamed] at hnext
      split at hnext
      · exact hfields _ (List.mem_of_find?_eq_some ‹_›) _ _ _ hnext
      · cases hnext
        exact List.subset_append_left _ _
    have hall : texts before ++ member.2.strings ⊆
        texts before ++ stringsOfMembers (member :: more) := by
      rw [stringsOfMembers, ← List.append_assoc]
      exact List.subset_append_left _ _
    -- What is filled later adds the texts of the members after the first.
    refine List.Subset.trans (ih h) (List.append_subset.mpr ⟨List.Subset.trans hfirst hall, ?_⟩)
    rw [stringsOfMembers, ← List.append_assoc]
    exact List.subset_append_right _ _

/-- Items add no texts to a record but their own. -/
private theorem strings_fillInOrder {name : String} {count place : Nat}
    (hfields : ∀ field ∈ fields, field.Faithful texts) {items : List Json} {before after : σ}
    (h : fillInOrder name count place fields items before = .ok after) :
    texts after ⊆ texts before ++ stringsOfItems items := by
  induction fields generalizing place items before with
  | nil =>
    rw [fillInOrder] at h
    cases h
    exact List.subset_append_left _ _
  | cons field fields ih =>
    have hmore : ∀ field ∈ fields, field.Faithful texts :=
      fun field hfield => hfields field (List.mem_cons_of_mem _ hfield)
    cases items with
    | nil =>
      -- A field without an item is left as it is, or there is no record.
      rw [fillInOrder] at h
      split_ifs at h
      exact ih hmore h
    | cons item items =>
      rw [fillInOrder] at h
      obtain ⟨next, hnext, h⟩ := exists_of_bind_ok h
      have hfirst := hfields field List.mem_cons_self item before next hnext
      have hall : texts before ++ item.strings ⊆
          texts before ++ stringsOfItems (item :: items) := by
        rw [stringsOfItems, ← List.append_assoc]
        exact List.subset_append_left _ _
      refine List.Subset.trans (ih hmore h)
        (List.append_subset.mpr ⟨List.Subset.trans hfirst hall, ?_⟩)
      rw [stringsOfItems, ← List.append_assoc]
      exact List.subset_append_right _ _

/-- What a record is read from: an object whose members fill it by name, or an array whose items
fill it by place. -/
theorem filled_of_readRecord {name : String} {blank record : σ} {json : Json}
    (h : readRecord name fields blank json = .ok record) :
    (∃ members, json = .object members ∧ members.foldlM (fillNamed fields) blank = .ok record) ∨
      ∃ items, json = .array items ∧
        fillInOrder name fields.length 0 fields items blank = .ok record := by
  cases json with
  | object members =>
    rw [readRecord] at h
    obtain ⟨result, hfold, h⟩ := exists_of_bind_ok h
    split at h
    · cases h
    · cases h
      exact Or.inl ⟨members, rfl, hfold⟩
  | array items =>
    rw [readRecord] at h
    obtain ⟨result, hfill, h⟩ := exists_of_bind_ok h
    split_ifs at h
    · cases h
    · cases h
      exact Or.inr ⟨items, rfl, hfill⟩
  | _ => cases h

/-- A record that starts out without texts is read faithfully if all its fields are. -/
theorem faithful_readRecord {name : String} {blank : σ}
    (hfields : ∀ field ∈ fields, field.Faithful texts) (hblank : texts blank = []) :
    Faithful (readRecord name fields blank) texts := by
  intro json record hread
  rcases filled_of_readRecord hread with ⟨members, rfl, hfold⟩ | ⟨items, rfl, hfill⟩
  · have hstrings := strings_foldlM_fillNamed hfields hfold
    rw [hblank, List.nil_append] at hstrings
    exact hstrings
  · have hstrings := strings_fillInOrder hfields hfill
    rw [hblank, List.nil_append] at hstrings
    exact hstrings

end Record

end ClientGen.Json
