import ClientGen.OpenApi.Source
import ClientGen.Proofs.Json.Distinct

/-!
# From YAML to JSON

A YAML value has a JSON value unless a mapping in it has a key that names no member: `null`, a
collection or a tagged value. The first such key is what is refused, where a key comes before its
own value and both come before the next entry (`refusal?_toJson`). Tags have no effect
(`toJson_untagged`). A JSON value that is written as YAML is read back as it was, with its numbers
of the same kind and its members in the same order (`toJson_ofJson`).
-/

namespace ClientGen

namespace Ordered

variable {α : Type} {entries : List (String × α)} {name : String}

/-- A new name is put at the end. -/
theorem put_of_notMem (h : name ∉ keys entries) (value : α) :
    put entries name value = entries ++ [(name, value)] := by
  induction entries with
  | nil => rfl
  | cons entry rest ih =>
    rw [keys, List.map_cons, List.mem_cons, not_or] at h
    rw [put, if_neg (Ne.symm h.1), ih h.2, List.cons_append]

end Ordered

namespace Yaml

open Json

/-! ### Refusals -/

section Refusal

variable {ε α β : Type}

/-- What a computation fails with, if it does. -/
def refusal? : Except ε α → Option ε
  | .ok _ => none
  | .error error => some error

theorem refusal?_eq_some_iff {result : Except ε α} {error : ε} :
    refusal? result = some error ↔ result = .error error := by
  cases result <;> simp [refusal?]

theorem refusal?_eq_none_iff {result : Except ε α} :
    refusal? result = none ↔ ∃ value, result = .ok value := by
  cases result <;> simp [refusal?]

theorem refusal?_map (f : α → β) (result : Except ε α) :
    refusal? (result.map f) = refusal? result := by
  cases result <;> rfl

theorem refusal?_mapError {ε' : Type} (f : ε → ε') (result : Except ε α) :
    refusal? (result.mapError f) = (refusal? result).map f := by
  cases result <;> rfl

/-- What is computed first is refused first. -/
theorem refusal?_bind {result : Except ε α} {f : α → Except ε β} {later : Option ε}
    (h : ∀ value, refusal? (f value) = later) :
    refusal? (result >>= f) = (refusal? result).or later := by
  cases result with
  | error => rfl
  | ok value => exact h value

end Refusal

namespace Value

/-! ### Keys -/

/-- Whether a key names no member of an object. -/
def isUnsupported : Value → Bool
  | .null | .sequence _ | .mapping _ | .tagged _ _ => true
  | .bool _ | .int _ | .real _ | .string _ => false

mutual

/-- The keys of all mappings in a value, in document order, each before those in its own value. What
stands inside of a key is not looked at. -/
def keys : Value → List Value
  | .sequence items => keysOfItems items
  | .mapping entries => keysOfEntries entries
  | .tagged _ value => value.keys
  | _ => []

/-- The keys in the values of a list. -/
def keysOfItems : List Value → List Value
  | [] => []
  | item :: rest => item.keys ++ keysOfItems rest

/-- The keys of entries, and those in their values. -/
def keysOfEntries : List (Value × Value) → List Value
  | [] => []
  | (key, value) :: rest => key :: (value.keys ++ keysOfEntries rest)

end

/-- Whether a key is the first in a value that names no member. -/
def IsFirstUnsupported (value key : Value) : Prop :=
  ∃ before after, value.keys = before ++ key :: after ∧
    (∀ earlier ∈ before, earlier.isUnsupported = false) ∧ key.isUnsupported = true

/-- A key is not supported if it has no name. -/
theorem isUnsupported_eq (key : Value) : key.isUnsupported = key.keyName?.isNone := by
  cases key <;> rfl

/-- The first unsupported key is found by a search in depth-first order. -/
theorem find?_keys_eq_some_iff {value key : Value} :
    value.keys.find? isUnsupported = some key ↔ IsFirstUnsupported value key := by
  rw [List.find?_eq_some_iff_append, IsFirstUnsupported]
  simp only [Bool.not_eq_true']
  constructor
  · rintro ⟨hkey, before, after, hkeys, hbefore⟩
    exact ⟨before, after, hkeys, hbefore, hkey⟩
  · rintro ⟨before, after, hkeys, hbefore, hkey⟩
    exact ⟨hkey, before, after, hkeys, hbefore⟩

mutual

/-- **Refusals.** What is refused of a value is the first of its keys that is not supported. -/
theorem refusal?_toJson (value : Value) :
    refusal? value.toJson = value.keys.find? isUnsupported := by
  cases value with
  | null => rfl
  | bool => rfl
  | int => rfl
  | real value => cases value <;> rfl
  | string => rfl
  | sequence items => rw [toJson, refusal?_map, keys, refusal?_itemsToJson items]
  | mapping entries => rw [toJson, refusal?_map, keys, refusal?_entriesToJson [] entries]
  | tagged _ value => rw [toJson, keys, refusal?_toJson value]

/-- Items are refused for the first unsupported key in them. -/
theorem refusal?_itemsToJson (items : List Value) :
    refusal? (itemsToJson items) = (keysOfItems items).find? isUnsupported := by
  cases items with
  | nil => rfl
  | cons item rest =>
    rw [itemsToJson, keysOfItems, List.find?_append, ← refusal?_toJson item,
      ← refusal?_itemsToJson rest]
    refine refusal?_bind fun first => ?_
    have hitems (others : List Json) :
        refusal? (pure (first :: others) : Except Value (List Json)) = none := rfl
    rw [refusal?_bind hitems, Option.or_none]

/-- Entries are refused for the first unsupported key in them, whatever has been read before. -/
theorem refusal?_entriesToJson (members : List (String × Json)) (entries : List (Value × Value)) :
    refusal? (entriesToJson members entries) = (keysOfEntries entries).find? isUnsupported := by
  cases entries with
  | nil => rfl
  | cons entry rest =>
    obtain ⟨key, value⟩ := entry
    rw [entriesToJson, keysOfEntries, List.find?_cons, isUnsupported_eq key]
    -- A key without a name is refused before its value is looked at.
    rcases key.keyName? with _ | name
    · rfl
    · rw [Option.isNone_some, List.find?_append, ← refusal?_toJson value]
      exact refusal?_bind fun json => refusal?_entriesToJson _ rest

end

/-! ### Numbers -/

/-- Whether a value is a number: an integer that fits 64 bits, with a sign or without, or a number
with a point. -/
def IsNumber : Value → Prop
  | .int n => -Nat.pow 2 63 ≤ n ∧ n < Nat.pow 2 64
  | .real _ => True
  | _ => False

/-- A number as an integer of 64 bits with a sign. -/
def signed? : Value → Option Int
  | .int n => if -Nat.pow 2 63 ≤ n ∧ n < Nat.pow 2 63 then some n else none
  | _ => none

/-- A number as an integer of 64 bits without a sign. -/
def unsigned? : Value → Option Int
  | .int n => if 0 ≤ n ∧ n < Nat.pow 2 64 then some n else none
  | _ => none

/-- A number as a finite one of the binary64 format, to which an integer is rounded. -/
def finite? : Value → Option Binary64
  | .int n => Binary64.ofInt n
  | .real (.finite value) => some value
  | _ => none

/-- The first of the three readings that a number has, and `null` if it has none. -/
def readNumber (number : Value) : Json :=
  match number.signed? with
  | some n => .int n
  | none =>
    match number.unsigned? with
    | some n => .int n
    | none => number.finite?.elim .null .float

/-- A number is read by the first accessor that takes it. -/
theorem toJson_of_isNumber {number : Value} (h : number.IsNumber) :
    number.toJson = .ok number.readNumber := by
  cases number with
  | int n =>
    rw [toJson, readNumber, signed?]
    obtain ⟨hlow, hhigh⟩ := h
    split_ifs with hsigned
    · rfl
    · -- An integer that does not fit with a sign has none.
      have hunsigned : 0 ≤ n ∧ n < Nat.pow 2 64 := by omega
      rw [unsigned?, if_pos hunsigned]
  | real value => cases value <;> rfl
  | _ => exact h.elim

/-! ### Tags -/

mutual

/-- The value without the tags around it and around the values inside of it. Keys stay as they
are. -/
def untagged : Value → Value
  | .sequence items => .sequence (untaggedItems items)
  | .mapping entries => .mapping (untaggedEntries entries)
  | .tagged _ value => value.untagged
  | value => value

/-- Values without tags. -/
def untaggedItems : List Value → List Value
  | [] => []
  | item :: rest => item.untagged :: untaggedItems rest

/-- Entries with values without tags. -/
def untaggedEntries : List (Value × Value) → List (Value × Value)
  | [] => []
  | (key, value) :: rest => (key, value.untagged) :: untaggedEntries rest

end

mutual

/-- **Tags.** Neither the JSON value of a value nor what is refused of it depends on its tags. -/
theorem toJson_untagged (value : Value) : value.untagged.toJson = value.toJson := by
  cases value with
  | sequence items => rw [untagged, toJson, toJson, itemsToJson_untaggedItems items]
  | mapping entries => rw [untagged, toJson, toJson, entriesToJson_untaggedEntries [] entries]
  | tagged _ value => rw [untagged, toJson, toJson_untagged value]
  | _ => rfl

theorem itemsToJson_untaggedItems (items : List Value) :
    itemsToJson (untaggedItems items) = itemsToJson items := by
  cases items with
  | nil => rfl
  | cons item rest =>
    rw [untaggedItems, itemsToJson, itemsToJson, toJson_untagged item,
      itemsToJson_untaggedItems rest]

theorem entriesToJson_untaggedEntries (members : List (String × Json))
    (entries : List (Value × Value)) :
    entriesToJson members (untaggedEntries entries) = entriesToJson members entries := by
  cases entries with
  | nil => rfl
  | cons entry rest =>
    obtain ⟨key, value⟩ := entry
    have hrest (members : List (String × Json)) := entriesToJson_untaggedEntries members rest
    rw [untaggedEntries, entriesToJson, entriesToJson, toJson_untagged value]
    simp only [hrest]

end

/-! ### The round trip -/

mutual

/-- A JSON value as a YAML value. -/
def ofJson : Json → Value
  | .null => .null
  | .bool value => .bool value
  | .int value => .int value
  | .float value => .real (.finite value)
  | .string value => .string value
  | .array items => .sequence (itemsOfJson items)
  | .object members => .mapping (entriesOfJson members)

/-- The items of an array as YAML values. -/
def itemsOfJson : List Json → List Value
  | [] => []
  | item :: rest => ofJson item :: itemsOfJson rest

/-- The members of an object as entries under texts. -/
def entriesOfJson : List (String × Json) → List (Value × Value)
  | [] => []
  | (name, json) :: rest => (.string name, ofJson json) :: entriesOfJson rest

end

mutual

/-- **Round trip.** A JSON value that is written as YAML is read back as it was. -/
theorem toJson_ofJson {json : Json} (h : json.Distinct) : (ofJson json).toJson = .ok json := by
  cases json with
  | array items =>
    rw [ofJson, toJson, itemsToJson_itemsOfJson (distinct_array.mp h)]
    rfl
  | object members =>
    obtain ⟨hnames, hmembers⟩ := distinct_object.mp h
    have hread : entriesToJson [] (entriesOfJson members) = .ok members :=
      entriesToJson_entriesOfJson hnames hmembers
    rw [ofJson, toJson, hread]
    rfl
  | _ => rfl

/-- Items are read back as they were written. -/
theorem itemsToJson_itemsOfJson {items : List Json} (h : ∀ item ∈ items, item.Distinct) :
    itemsToJson (itemsOfJson items) = .ok items := by
  cases items with
  | nil => rfl
  | cons item rest =>
    obtain ⟨hitem, hrest⟩ := List.forall_mem_cons.mp h
    rw [itemsOfJson, itemsToJson, toJson_ofJson hitem, itemsToJson_itemsOfJson hrest]
    rfl

/-- Members with names of their own come behind earlier ones, in order. -/
theorem entriesToJson_entriesOfJson {earlier members : List (String × Json)}
    (hnames : (Ordered.keys (earlier ++ members)).Nodup)
    (h : ∀ member ∈ members, member.2.Distinct) :
    entriesToJson earlier (entriesOfJson members) = .ok (earlier ++ members) := by
  cases members with
  | nil => rw [List.append_nil, entriesOfJson, entriesToJson]
  | cons member rest =>
    obtain ⟨name, json⟩ := member
    obtain ⟨hjson, hrest⟩ := List.forall_mem_cons.mp h
    have hnew : name ∉ Ordered.keys earlier := by
      rw [Ordered.keys, List.map_append, List.map_cons] at hnames
      exact fun hmem => List.disjoint_of_nodup_append hnames hmem List.mem_cons_self
    -- The member joins the earlier ones, behind which the rest comes.
    rw [List.append_cons] at hnames ⊢
    rw [← Ordered.put_of_notMem hnew] at hnames ⊢
    rw [entriesOfJson, entriesToJson, toJson_ofJson hjson]
    exact entriesToJson_entriesOfJson hnames hrest

end

/-! ### All together -/

/-- **Conversion.** A value has a JSON value if and only if all keys in it name members; otherwise
the message shows the first key that does not. A number becomes the first of its three readings. And
a JSON value that is written as YAML, with tags around any of its parts, is read back as it was. -/
theorem toJson_faithful (value : Value) :
    ((∃ json, value.toJson = .ok json) ↔ ∀ key ∈ value.keys, key.isUnsupported = false) ∧
      (∀ message,
        (value.toJson.mapError fun key => (OpenApi.DocumentError.unsupportedKey key).message) =
            .error message ↔
          ∃ key, IsFirstUnsupported value key ∧
            message = "unsupported mapping key: " ++ key.shown) ∧
      (value.IsNumber → value.toJson = .ok value.readNumber) ∧
      ∀ json : Json, json.Distinct → (ofJson json).toJson = .ok json ∧
        (value.untagged = ofJson json → value.toJson = .ok json) := by
  refine ⟨?_, fun message => ?_, toJson_of_isNumber, fun json hdistinct => ?_⟩
  · rw [← refusal?_eq_none_iff, refusal?_toJson, List.find?_eq_none]
    simp only [Bool.not_eq_true]
  · rw [← refusal?_eq_some_iff, refusal?_mapError, refusal?_toJson, Option.map_eq_some_iff]
    refine exists_congr fun key => and_congr find?_keys_eq_some_iff ?_
    exact eq_comm
  · have hread := toJson_ofJson hdistinct
    exact ⟨hread, fun huntagged => by rw [← toJson_untagged, huntagged, hread]⟩

/-- A JSON value with numbers of all kinds. -/
def numbers : Json :=
  .object [("z", .array [.int (-9223372036854775808), .int 18446744073709551615,
    .float (Binary64.zero true)]), ("a", .object [("on", .bool true), ("", .null)])]

/-- The same value with tags around some of its parts. -/
def taggedNumbers : Value :=
  .tagged "all" (.mapping [
    (.string "z", .tagged "list" (.sequence [.int (-9223372036854775808),
      .tagged "large" (.int 18446744073709551615), .real (.finite (Binary64.zero true))])),
    (.string "a", .mapping [(.string "on", .bool true),
      (.string "", .tagged "no" (.tagged "value" .null))])])

/-- Numbers under tags are read back, and one that is too large to be signed is still read as a
number. -/
theorem toJson_faithful_tagged :
    numbers.Distinct ∧ taggedNumbers.untagged = ofJson numbers ∧
      taggedNumbers.toJson = .ok numbers ∧
      (Value.int 18446744073709551615).IsNumber ∧
      (Value.int 18446744073709551615).toJson =
        .ok (Value.int 18446744073709551615).readNumber := by
  have hdistinct : numbers.Distinct := by
    simp [numbers, Distinct, DistinctItems, DistinctMembers, Ordered.keys]
  have hnumber : (Value.int 18446744073709551615).IsNumber := by
    simp [IsNumber]
  exact ⟨hdistinct, rfl, ((toJson_faithful taggedNumbers).2.2.2 numbers hdistinct).2 rfl, hnumber,
    (toJson_faithful _).2.2.1 hnumber⟩

/-- The key inside of the first value comes before the second key. -/
example : (Value.mapping [(.int 200, .tagged "inner" (.mapping [(.null, .bool true)])),
    (.sequence [], .null)]).toJson = .error .null :=
  rfl

end Value

end Yaml

end ClientGen
