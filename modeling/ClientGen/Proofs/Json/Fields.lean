import ClientGen.Proofs.Json.Distinct
import ClientGen.Proofs.Json.Texts

/-!
# Where the fields of a record are written

A record is written as an object or as an array, and either way each of its fields has a place of
its own in the value (`Json.field?`). If no object in the value has two members with one name, then
a field of the record that is read is what its reader gives for the value in that place, and keeps
its default if there is none (`fills_readRecord`). Lists and maps are read item by item.
-/

namespace ClientGen

/-- Nothing is found under a name that is not there. -/
theorem Ordered.lookup_eq_none {α : Type} {entries : List (String × α)} {name : String}
    (h : name ∉ keys entries) : entries.lookup name = none := by
  rw [List.lookup_eq_none_iff]
  intro entry hentry
  exact bne_iff_ne.mpr fun heq => h (List.mem_map.mpr ⟨entry, hentry, heq.symm⟩)

namespace Json

variable {α β σ : Type}

/-! ### Lists and maps -/

/-- What is read from a list is read item by item. -/
theorem forall₂_of_mapM {ε : Type} {f : α → Except ε β} {list : List α} {results : List β}
    (h : list.mapM f = .ok results) : List.Forall₂ (fun a b => f a = .ok b) list results := by
  induction list generalizing results with
  | nil =>
    cases h
    exact .nil
  | cons a rest ih =>
    rw [List.mapM_cons] at h
    obtain ⟨first, hfirst, h⟩ := exists_of_bind_ok h
    obtain ⟨others, hrest, h⟩ := exists_of_bind_ok h
    cases h
    exact .cons hfirst (ih hrest)

theorem exists_of_mem_forall₂ {r : α → β → Prop} {first : List α} {second : List β}
    (h : List.Forall₂ r first second) {a : α} (ha : a ∈ first) : ∃ b ∈ second, r a b := by
  induction h with
  | nil => cases ha
  | @cons _ b _ _ hfirst _ ih =>
    rcases List.mem_cons.mp ha with rfl | ha
    · exact ⟨b, List.mem_cons_self, hfirst⟩
    · obtain ⟨other, hother, hr⟩ := ih ha
      exact ⟨other, List.mem_cons_of_mem b hother, hr⟩

/-- Lists that correspond item by item to a third correspond to each other. -/
theorem forall₂_trans {γ : Type} {r : α → β → Prop} {s : β → γ → Prop} {first : List α}
    {second : List β} {third : List γ} (h : List.Forall₂ r first second)
    (h' : List.Forall₂ s second third) :
    List.Forall₂ (fun a c => ∃ b, r a b ∧ s b c) first third := by
  induction h generalizing third with
  | nil =>
    cases h'
    exact .nil
  | cons hfirst _ ih =>
    cases h' with
    | cons hsecond hmore => exact .cons ⟨_, hfirst, hsecond⟩ (ih hmore)

/-- The items of a list are read one by one. -/
theorem exists_items_of_readList {item : Decoder α} {json : Json} {list : List α}
    (h : readList item json = .ok list) :
    ∃ items, json = .array items ∧
      List.Forall₂ (fun part value => item part = .ok value) items list := by
  cases json with
  | array items => exact ⟨items, rfl, forall₂_of_mapM h⟩
  | _ => cases h

/-- The values of a map are read one by one, under the names of their members. -/
theorem exists_members_of_readMap {item : Decoder α} {json : Json} {list : List (String × α)}
    (h : readMap item json = .ok list) :
    ∃ members, json = .object members ∧
      List.Forall₂ (fun member entry => entry.1 = member.1 ∧ item member.2 = .ok entry.2)
        members list := by
  cases json with
  | object members =>
    refine ⟨members, rfl, (forall₂_of_mapM h).imp fun member entry hentry => ?_⟩
    obtain ⟨value, hvalue, rfl⟩ := exists_of_map_ok hentry
    exact ⟨rfl, hvalue⟩
  | _ => cases h

theorem eq_ok_of_toOption {ε : Type} {result : Except ε α} {a : α}
    (h : result.toOption = some a) : result = .ok a := by
  cases result with
  | error => cases h
  | ok value => exact congrArg _ (Option.some.inj h)

/-- A value that was read where `null` is allowed was read by its own reader. -/
theorem readNullable_eq_some {value : Decoder α} {json : Json} {read : α}
    (h : readNullable value json = .ok (some read)) : value json = .ok read := by
  cases json with
  | null => cases h
  | _ =>
    obtain ⟨result, hvalue, heq⟩ := exists_of_map_ok h
    cases heq
    exact hvalue

/-- Nothing is read only from `null`. -/
theorem eq_null_of_readNullable {value : Decoder α} {json : Json}
    (h : readNullable value json = .ok none) : json = .null := by
  cases json with
  | null => rfl
  | _ =>
    obtain ⟨_, -, heq⟩ := exists_of_map_ok (show (value _).map some = .ok none from h)
    cases heq

/-! ### Records -/

/-- What is written for the field of a record with this name and place. -/
def field? (json : Json) (name : String) (place : Nat) : Option Json :=
  match json with
  | .object members => members.lookup name
  | .array items => items[place]?
  | _ => none

/-- A field of a value with distinct names has distinct names. -/
theorem Distinct.field? {json part : Json} (h : json.Distinct) {name : String} {place : Nat}
    (hpart : json.field? name place = some part) : part.Distinct := by
  cases json with
  | object members =>
    obtain ⟨before, after, rfl, -⟩ := List.lookup_eq_some_iff.mp hpart
    exact (distinct_object.mp h).2 (name, part) (List.mem_append_right before List.mem_cons_self)
  | array items => exact distinct_array.mp h part (List.mem_of_getElem? hpart)
  | _ => cases hpart

/-- Whether a field has the value that is written for it, or its default if nothing is. -/
def Fills (json : Json) (name : String) (place : Nat) (value : Decoder β) (blank read : β) : Prop :=
  match json.field? name place with
  | some part => value part = .ok read
  | none => read = blank

/-- The members of what may be an object. -/
def membersOf : Option Json → List (String × Json)
  | some (.object members) => members
  | _ => []

/-- So has every member of a field. -/
theorem Distinct.of_mem_membersOf {json : Json} (h : json.Distinct) {name : String} {place : Nat} :
    ∀ member ∈ membersOf (json.field? name place), member.2.Distinct := by
  rcases hpart : json.field? name place with _ | part
  · exact List.forall_mem_nil _
  · have hdistinct := h.field? hpart
    cases part with
    | object members => exact (distinct_object.mp hdistinct).2
    | _ => exact List.forall_mem_nil _

/-- The members of a field have different names. -/
theorem Distinct.nodup_membersOf {json : Json} (h : json.Distinct) (name : String) (place : Nat) :
    (Ordered.keys (membersOf (json.field? name place))).Nodup := by
  rcases hpart : json.field? name place with _ | part
  · exact List.nodup_nil
  · have hdistinct := h.field? hpart
    cases part with
    | object members => exact (distinct_object.mp hdistinct).1
    | _ => exact List.nodup_nil

/-- The values of a map that is a field are read one by one from what is written for it. -/
theorem forall₂_of_fills {json : Json} {name : String} {place : Nat} {item : Decoder α}
    {list : List (String × α)} (h : json.Fills name place (readMap item) [] list) :
    List.Forall₂ (fun member entry => entry.1 = member.1 ∧ item member.2 = .ok entry.2)
      (membersOf (json.field? name place)) list := by
  rw [Fills] at h
  split at h
  next part hpart =>
    obtain ⟨members, rfl, hmembers⟩ := exists_members_of_readMap h
    rw [hpart]
    exact hmembers
  next hnone =>
    rw [h, hnone]
    exact .nil

/-- The names in a map that is a field are distinct. -/
theorem nodup_keys_of_fills {json : Json} (hjson : json.Distinct) {name : String} {place : Nat}
    {item : Decoder α} {list : List (String × α)}
    (h : json.Fills name place (readMap item) [] list) : (Ordered.keys list).Nodup := by
  have hkeys : Ordered.keys list = Ordered.keys (membersOf (json.field? name place)) :=
    List.forall₂_eq_eq_eq ▸ List.forall₂_map_left_iff.mpr
      (List.forall₂_map_right_iff.mpr ((forall₂_of_fills h).flip.imp fun _ _ hentry => hentry.1))
  rw [hkeys]
  exact hjson.nodup_membersOf name place

/-- What is filled otherwise than by default is written. -/
theorem exists_of_fills {json : Json} {name : String} {place : Nat} {value : Decoder β}
    {blank read : β} (h : json.Fills name place value blank read) (hne : read ≠ blank) :
    ∃ part, json.field? name place = some part ∧ value part = .ok read := by
  rw [Fills] at h
  split at h
  next part hpart => exact ⟨part, hpart, h⟩
  next => exact absurd h hne

/-- Whether what is got from a record is the value of the field with a name. -/
def RecordField.Views (field : RecordField σ) (name : String) (get : σ → β) (value : Decoder β) :
    Prop :=
  ∀ json before after, field.fill json before = .ok after →
    if field.name = name then value json = .ok (get after) else get after = get before

/-- A field shows what its reader gives if it has the name, and shows no change otherwise. -/
@[simp]
theorem views_of {name other : String} {presence : Presence} {value : Decoder α}
    {store : σ → α → σ} {get : σ → β} {value' : Decoder β} :
    (RecordField.of other presence value store).Views name get value' ↔
      ∀ json before read, value json = .ok read →
        if other = name then value' json = .ok (get (store before read))
        else get (store before read) = get before := by
  refine ⟨fun h json before read hread => h json before _ ?_, fun h json before after hfill => ?_⟩
  · change Except.map (store before) (value json) = _
    rw [hread]
    rfl
  · obtain ⟨read, hread, rfl⟩ := exists_of_map_ok hfill
    exact h json before read hread

section Record

variable {fields : List (RecordField σ)} {name : String} {get : σ → β} {value : Decoder β}

/-- A member with another name does not change the field. -/
private theorem get_fillNamed (hviews : ∀ field ∈ fields, field.Views name get value)
    {member : String × Json} {before after : σ} (hne : member.1 ≠ name)
    (h : fillNamed fields before member = .ok after) : get after = get before := by
  rw [fillNamed] at h
  split at h
  next field hfield =>
    have hkey : field.name = member.1 := by simpa using List.find?_some hfield
    have hview := hviews field (List.mem_of_find?_eq_some hfield) _ _ _ h
    rw [if_neg fun heq => hne (hkey.symm.trans heq)] at hview
    exact hview
  next =>
    cases h
    rfl

/-- A record that is written as an object has in a field what its member says, or what was there
before. -/
private theorem fills_foldlM_fillNamed (hviews : ∀ field ∈ fields, field.Views name get value)
    (hname : name ∈ fields.map (·.name)) {place : Nat} {members : List (String × Json)}
    (hmembers : (Ordered.keys members).Nodup) {before after : σ}
    (h : members.foldlM (fillNamed fields) before = .ok after) :
    (object members).Fills name place value (get before) (get after) := by
  induction members generalizing before with
  | nil =>
    cases h
    rfl
  | cons member rest ih =>
    obtain ⟨hmember, hrest⟩ := List.nodup_cons.mp hmembers
    rw [List.foldlM_cons] at h
    obtain ⟨next, hnext, h⟩ := exists_of_bind_ok h
    have hlater := ih hrest h
    obtain ⟨key, json⟩ := member
    -- Keys are distinct, so that the member with this name is not overwritten later.
    by_cases heq : key = name
    · have hnone : rest.lookup name = none := Ordered.lookup_eq_none (heq ▸ hmember)
      have hfind : (fields.find? fun field => field.name == key).isSome := by
        obtain ⟨field, hfield, hsame⟩ := List.mem_map.mp hname
        exact List.find?_isSome.mpr ⟨field, hfield, beq_iff_eq.mpr (hsame.trans heq.symm)⟩
      obtain ⟨field, hfield⟩ := Option.isSome_iff_exists.mp hfind
      have hkey : field.name = key := by simpa using List.find?_some hfield
      rw [fillNamed, hfield] at hnext
      have hview := hviews field (List.mem_of_find?_eq_some hfield) _ _ _ hnext
      rw [if_pos (hkey.trans heq)] at hview
      simp only [Fills, field?, hnone] at hlater
      simp only [Fills, field?, List.lookup_cons, heq, beq_self_eq_true]
      exact hlater ▸ hview
    · -- Another member leaves what is viewed as it is.
      have hsame := get_fillNamed hviews heq hnext
      rw [hsame] at hlater
      simp only [Fills, field?, List.lookup_cons, beq_eq_false_iff_ne.mpr (Ne.symm heq)] at hlater ⊢
      exact hlater

/-- Fields with other names leave what is got from a record alone. -/
private theorem get_fillInOrder (hviews : ∀ field ∈ fields, field.Views name get value)
    (hname : name ∉ fields.map (·.name)) {record : String} {count start : Nat} {items : List Json}
    {before after : σ} (h : fillInOrder record count start fields items before = .ok after) :
    get after = get before := by
  induction fields generalizing start items before with
  | nil =>
    rw [fillInOrder] at h
    cases h
    rfl
  | cons field rest ih =>
    obtain ⟨hfield, hrest⟩ := List.forall_mem_cons.mp hviews
    rw [List.map_cons, List.mem_cons, not_or] at hname
    cases items with
    | nil =>
      rw [fillInOrder] at h
      -- Missing items are defaults, which are stored nowhere.
      split_ifs at h
      exact ih hrest hname.2 h
    | cons item items =>
      rw [fillInOrder] at h
      obtain ⟨next, hnext, h⟩ := exists_of_bind_ok h
      have hview := hfield _ _ _ hnext
      rw [if_neg (Ne.symm hname.1)] at hview
      exact (ih hrest hname.2 h).trans hview

/-- A record that is written as an array has in a field what stands in the place of the field, or
what was there before. -/
private theorem fills_fillInOrder (hviews : ∀ field ∈ fields, field.Views name get value)
    (hnames : (fields.map (·.name)).Nodup) {place : Nat}
    (hplace : (fields.map (·.name))[place]? = some name) {record : String} {count start : Nat}
    {items : List Json} {before after : σ}
    (h : fillInOrder record count start fields items before = .ok after) :
    (array items).Fills name place value (get before) (get after) := by
  induction fields generalizing place start items before with
  | nil => cases hplace
  | cons field rest ih =>
    obtain ⟨hfield, hrest⟩ := List.forall_mem_cons.mp hviews
    rw [List.map_cons] at hnames hplace
    obtain ⟨hnew, hnames⟩ := List.nodup_cons.mp hnames
    cases place with
    | zero =>
      -- The field has the first place, and no later field has its name.
      have hname : field.name = name := Option.some.inj hplace
      rw [hname] at hnew
      cases items with
      | nil =>
        rw [fillInOrder] at h
        split_ifs at h
        exact get_fillInOrder hrest hnew h
      | cons item items =>
        rw [fillInOrder] at h
        obtain ⟨next, hnext, h⟩ := exists_of_bind_ok h
        have hview := hfield _ _ _ hnext
        rw [if_pos hname, ← get_fillInOrder hrest hnew h] at hview
        exact hview
    | succ place =>
      have hlater : (rest.map (·.name))[place]? = some name := hplace
      have hname : field.name ≠ name := fun heq =>
        hnew (heq ▸ List.mem_of_getElem? hlater)
      cases items with
      | nil =>
        rw [fillInOrder] at h
        split_ifs at h
        exact ih hrest hnames hlater h
      | cons item items =>
        rw [fillInOrder] at h
        obtain ⟨next, hnext, h⟩ := exists_of_bind_ok h
        have hview := hfield _ _ _ hnext
        rw [if_neg hname] at hview
        have hfills := ih hrest hnames hlater h
        rw [hview] at hfills
        exact hfills

/-- **Fields.** A field of a record that is read from a value with distinct names has the value that
is written in its place, or its default if nothing is. -/
theorem fills_readRecord (get : σ → β) (hviews : ∀ field ∈ fields, field.Views name get value)
    (hnames : (fields.map (·.name)).Nodup) {place : Nat}
    (hplace : (fields.map (·.name))[place]? = some name) {title : String} {blank record : σ}
    {json : Json} (hjson : json.Distinct) (h : readRecord title fields blank json = .ok record) :
    json.Fills name place value (get blank) (get record) := by
  rcases filled_of_readRecord h with ⟨members, rfl, hfold⟩ | ⟨items, rfl, hfill⟩
  · have hkeys : (Ordered.keys members).Nodup := (distinct_object.mp hjson).1
    exact fills_foldlM_fillNamed hviews (List.mem_of_getElem? hplace) hkeys hfold
  · exact fills_fillInOrder hviews hnames hplace hfill

end Record

end Json

end ClientGen
