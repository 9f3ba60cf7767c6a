import ClientGen.Descriptor.Basic
import Mathlib.Data.List.Basic

/-!
# Types in normal form

A type is in normal form if every list of cases in it, at any depth, has the cases it should
(`Normal`): an enumeration lists at least one value and none twice, and a union or an intersection
has at least two members. Making `null` one more case (`orNull`) keeps the form (`Normal.orNull`)
and adds no case twice (`DistinctMembers.orNull`), and a second time it does nothing
(`admitsNull_orNull`, `AdmitsNull.orNull_eq`).
-/

namespace ClientGen.Descriptor

/-! ### Forms -/

/-- Whether a type is in normal form, at every depth. -/
inductive Normal : Descriptor → Prop
  | primitive (kind : PrimitiveKind) (format : Option String) : Normal (.primitive kind format)
  | array {item : Descriptor} (h : Normal item) : Normal (.array item)
  | object {properties : List (Property Descriptor)} {rest : Option Descriptor}
      (hproperties : ∀ property ∈ properties, Normal property.type)
      (hrest : ∀ type ∈ rest, Normal type) : Normal (.object properties rest)
  | enumeration {values : List Literal} (hne : values ≠ [])
      (hdistinct : values.Pairwise fun earlier later => earlier.same later = false) :
      Normal (.enumeration values)
  | union {kind : UnionKind} {members : List Descriptor} (hlength : 2 ≤ members.length)
      (hmembers : ∀ member ∈ members, Normal member) : Normal (.union kind members)
  | intersection {members : List Descriptor} (hlength : 2 ≤ members.length)
      (hmembers : ∀ member ∈ members, Normal member) : Normal (.intersection members)
  | reference (key name : String) : Normal (.reference key name)
  | unknown : Normal .unknown

/-- Whether no member comes twice if the type is a union. -/
def DistinctMembers : Descriptor → Prop
  | union _ members => members.Pairwise fun earlier later => earlier.same later = false
  | _ => True

/-- Whether a type admits `null` on the face of it: anything is admitted, or `null` is a case, or
there is nothing else. -/
def AdmitsNull : Descriptor → Prop
  | unknown => True
  | enumeration values => .null ∈ values
  | union _ members => null ∈ members
  | other => other = null

/-! ### One more case -/

/-- A type passes the test for `null` exactly if it is `null`. -/
theorem isNull_iff {type : Descriptor} : type.isNull = true ↔ type = null := by
  constructor
  · intro h
    rw [isNull.eq_def] at h
    split at h
    · rfl
    · cases h
  · rintro rfl
    rfl

/-- A type equals `null` exactly if the test for it says so. -/
theorem same_null (type : Descriptor) : type.same null = type.isNull := by
  cases type with
  | primitive kind format => rcases kind <;> rcases format <;> rfl
  | _ => rfl

/-- Only `null` equals the literal `null`. -/
theorem literal_eq_null {value : Literal} (h : value.same .null = true) : value = .null := by
  cases value with
  | null => rfl
  | _ => cases h

/-- A case that is not there yet can be added to different cases. -/
theorem pairwise_concat {α : Type} {same : α → α → Bool} {list : List α} {a : α}
    (h : list.Pairwise fun earlier later => same earlier later = false)
    (hany : ¬list.any (same · a) = true) :
    (list ++ [a]).Pairwise fun earlier later => same earlier later = false := by
  refine List.pairwise_append.mpr ⟨h, List.pairwise_singleton _ a, fun b hb c hc => ?_⟩
  rw [List.mem_singleton.mp hc, Bool.eq_false_iff]
  exact fun hsame => hany (List.any_eq_true.mpr ⟨b, hb, hsame⟩)

/-- Members stay distinct with `null` behind them, if it is not among them. -/
private theorem pairwise_null {members : List Descriptor}
    (h : members.Pairwise fun earlier later => earlier.same later = false)
    (hany : ¬members.any isNull = true) :
    (members ++ [null]).Pairwise fun earlier later => earlier.same later = false := by
  rw [← funext same_null] at hany
  exact pairwise_concat h hany

/-- Admitting `null` keeps members distinct. -/
theorem DistinctMembers.orNull {type : Descriptor} (h : type.DistinctMembers) :
    type.orNull.DistinctMembers := by
  cases type with
  | unknown => trivial
  | enumeration => trivial
  | union kind members =>
    simp only [Descriptor.orNull]
    split_ifs with hany
    · exact h
    · exact pairwise_null h hany
  | _ =>
    simp only [Descriptor.orNull]
    split_ifs with hnull
    · exact h
    · exact pairwise_null (List.pairwise_singleton _ _) (by simpa using hnull)

/-- Making `null` one more case keeps the normal form. -/
theorem Normal.orNull {type : Descriptor} (h : type.Normal) : type.orNull.Normal := by
  have hnull : Normal null := .primitive .null none
  -- A type that does not list its cases becomes one of two.
  have hother {type : Descriptor} (h : type.Normal) :
      (if type.isNull then type else .union .anyOf [type, null]).Normal := by
    split_ifs
    · exact h
    · refine .union (Nat.le_refl 2) ?_
      intro member hmember
      rcases List.mem_pair.mp hmember with rfl | rfl
      · exact h
      · exact hnull
  cases h with
  | unknown => exact .unknown
  | union hlength hmembers =>
    rw [Descriptor.orNull]
    split_ifs
    · exact .union hlength hmembers
    · refine .union ?_ (List.forall_mem_append.mpr ⟨hmembers, List.forall_mem_singleton.mpr hnull⟩)
      rw [List.length_append]
      omega
  | enumeration hne hdistinct =>
    rw [Descriptor.orNull]
    split_ifs with hany
    · exact .enumeration hne hdistinct
    · exact .enumeration (List.append_ne_nil_of_left_ne_nil hne _) (pairwise_concat hdistinct hany)
  | primitive => exact hother (.primitive _ _)
  | array h => exact hother (.array h)
  | object hproperties hrest => exact hother (.object hproperties hrest)
  | intersection hlength hmembers => exact hother (.intersection hlength hmembers)
  | reference => exact hother (.reference _ _)

/-- A type that is made to admit `null` admits it. -/
theorem admitsNull_orNull (type : Descriptor) : type.orNull.AdmitsNull := by
  cases type with
  | unknown => trivial
  | union kind members =>
    simp only [orNull]
    split_ifs with hany
    · -- The union has `null` in it already.
      obtain ⟨member, hmember, hnull⟩ := List.any_eq_true.mp hany
      rw [isNull_iff.mp hnull] at hmember
      exact hmember
    · exact List.mem_append_right members (List.mem_singleton_self null)
  | enumeration values =>
    simp only [orNull]
    split_ifs with hany
    · -- The enumeration has `null` in it already.
      obtain ⟨value, hvalue, hnull⟩ := List.any_eq_true.mp hany
      rw [literal_eq_null hnull] at hvalue
      exact hvalue
    · exact List.mem_append_right values (List.mem_singleton_self _)
  | _ =>
    simp only [orNull]
    split_ifs with hnull
    · exact isNull_iff.mp hnull
    · exact List.mem_pair.mpr (Or.inr rfl)

/-- A type that admits `null` already stays as it is. -/
theorem AdmitsNull.orNull_eq {type : Descriptor} (h : type.AdmitsNull) : type.orNull = type := by
  cases type with
  | unknown => rfl
  | union kind members => rw [orNull, if_pos (List.any_eq_true.mpr ⟨null, h, rfl⟩)]
  | enumeration values => rw [orNull, if_pos (List.any_eq_true.mpr ⟨.null, h, rfl⟩)]
  | primitive kind format =>
    rw [show primitive kind format = null from h]
    rfl
  | _ => cases h

end ClientGen.Descriptor
