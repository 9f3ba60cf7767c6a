import ClientGen.OpenApi.Document
import ClientGen.Proofs.Json.Fields
import ClientGen.Proofs.Reference

/-!
# Pointers into a value

A pointer that goes on with one more segment names the part of the value that the segment names
below the pointer (`at?_append`). Escaping a segment does not change what it names, and an item of
an array is found under its place as a number (`index?_toString`).
-/

namespace ClientGen

namespace Json

/-! ### Segments -/

/-- A number that is not zero does not begin with the digit zero. -/
private theorem head?_toDigits {n : Nat} (h : n ≠ 0) : (Nat.toDigits 10 n).head? ≠ some '0' := by
  induction n using Nat.strongRecOn with
  | _ n ih =>
    by_cases hlt : n < 10
    · rw [Nat.toDigits_of_lt_base hlt, List.head?_cons, ne_eq, Option.some_inj,
        Nat.digitChar_eq_zero]
      exact h
    · rw [Nat.toDigits_of_base_le (by decide) (Nat.not_lt.mp hlt), List.head?_append_of_ne_nil _
        Nat.toDigits_ne_nil]
      exact ih (n / 10) (by omega) (by omega)

/-- The place of an item is found under its digits. -/
theorem index?_toString (n : Nat) : index? (toString n) = some n := by
  have hchars : (toString n).toList = Nat.toDigits 10 n := by
    change (Nat.repr n).toList = _
    rw [Nat.repr_eq_ofList_toDigits, String.toList_ofList]
  have hdigits : (Nat.toDigits 10 n).all Char.isDigit = true :=
    List.all_eq_true.mpr fun c hc => Nat.isDigit_of_mem_toDigits (by decide) (by decide) hc
  have hempty : (Nat.toDigits 10 n).isEmpty = false := by simp [Nat.toDigits_ne_nil]
  have hvalue := Nat.ofDigitChars_ten_toDigits (n := n)
  rw [Nat.ofDigitChars_eq_foldl] at hvalue
  rw [index?, hchars]
  split
  next h =>
    rw [h] at hvalue
    exact congrArg some hvalue
  next rest hne h =>
    -- Only zero begins with the digit zero, and it has no other digit.
    have hzero : n = 0 := by
      by_contra hn
      exact head?_toDigits hn (by rw [h]; rfl)
    rw [hzero, Nat.toDigits_zero] at h
    cases h
    exact absurd rfl hne
  next =>
    rw [hdigits, hempty, hvalue]
    rfl

/-- A pointer goes on with the segment that is added to it. -/
theorem segments?_append {text : String} {segments : List String}
    (h : segments? text = some segments) {segment : String} (hslash : '/' ∉ segment.toList) :
    segments? (text ++ "/" ++ segment) = some (segments ++ [Reference.decodeSegment segment]) := by
  have hchars : (text ++ "/" ++ segment).toList = text.toList ++ '/' :: segment.toList := by
    rw [String.toList_append, String.toList_append, List.append_assoc]
    rfl
  rw [segments?] at h ⊢
  rw [hchars]
  split at h
  next htext =>
    cases h
    rw [htext]
    change some _ = some _
    rw [Text.pieces_of_notMem hslash, List.map_singleton, String.ofList_toList, List.nil_append]
  next rest htext =>
    cases h
    rw [htext, List.cons_append]
    change some (List.map _ (Text.pieces '/' (rest ++ '/' :: segment.toList))) = some _
    -- A segment without slashes is a single piece at the end.
    rw [Text.pieces_append_cons, Text.pieces_of_notMem hslash, List.map_append, List.map_singleton,
      String.ofList_toList]
  next => cases h

/-- **One more segment.** A pointer with one more segment names what the segment names in the part
at the pointer. -/
theorem at?_segment {text : String} {segments : List String} (h : segments? text = some segments)
    (value : Json) {segment : String} (hslash : '/' ∉ segment.toList) :
    value.at? (text ++ "/" ++ segment) =
      (value.at? text).bind fun part => part.child? (Reference.decodeSegment segment) := by
  rw [at?, segments?_append h hslash, at?, h, Option.bind_some, Option.bind_some,
    List.foldlM_append]
  refine congrArg (Option.bind _) (funext fun part => ?_)
  change (part.child? _ >>= pure) = _
  exact bind_pure _

/-- A longer pointer leads on from where the shorter one leads. -/
theorem at?_append {value part : Json} {text : String} (h : value.at? text = some part)
    {segment : String} (hslash : '/' ∉ segment.toList) :
    value.at? (text ++ "/" ++ segment) = part.child? (Reference.decodeSegment segment) := by
  obtain ⟨segments, hsegments, -⟩ := Option.bind_eq_some_iff.mp h
  rw [at?_segment hsegments value hslash, h, Option.bind_some]

/-! ### Distinct names -/

/-- If names are distinct, a member is found under its name. -/
theorem lookup_of_mem {members : List (String × Json)} (hnodup : (Ordered.keys members).Nodup)
    {member : String × Json} (hmem : member ∈ members) :
    members.lookup member.1 = some member.2 := by
  induction members with
  | nil => cases hmem
  | cons first rest ih =>
    obtain ⟨hfirst, hrest⟩ := List.nodup_cons.mp hnodup
    rcases List.mem_cons.mp hmem with rfl | hmem
    · rw [List.lookup_cons, beq_self_eq_true]
    · have hne : (member.1 == first.1) = false :=
        beq_eq_false_iff_ne.mpr fun heq => hfirst (List.mem_map.mpr ⟨member, hmem, heq⟩)
      rw [List.lookup_cons, hne]
      exact ih hrest hmem

/-- A child of a value with distinct names has distinct names. -/
theorem Distinct.child? {value child : Json} (h : value.Distinct) {segment : String}
    (hchild : value.child? segment = some child) : child.Distinct := by
  cases value with
  | object members =>
    obtain ⟨before, after, rfl, -⟩ := List.lookup_eq_some_iff.mp hchild
    exact (distinct_object.mp h).2 (segment, child)
      (List.mem_append_right before List.mem_cons_self)
  | array items =>
    obtain ⟨i, -, hitem⟩ := Option.bind_eq_some_iff.mp hchild
    exact distinct_array.mp h child (List.mem_of_getElem? hitem)
  | _ => cases hchild

/-- So has all that a pointer leads to. -/
theorem Distinct.at? {value part : Json} (h : value.Distinct) {text : String}
    (hpart : value.at? text = some part) : part.Distinct := by
  obtain ⟨segments, -, hfold⟩ := Option.bind_eq_some_iff.mp hpart
  clear hpart
  induction segments generalizing value with
  | nil =>
    rw [List.foldlM_nil, Option.pure_def, Option.some.injEq] at hfold
    exact hfold ▸ h
  | cons segment more ih =>
    rw [List.foldlM_cons] at hfold
    obtain ⟨child, hchild, hmore⟩ := Option.bind_eq_some_iff.mp hfold
    exact ih (h.child? hchild) hmore

end Json

/-! ### References into a document -/

namespace OpenApi.Document

variable {doc : Document} {pointer : String} {json : Json}

theorem value?_root (doc : Document) : doc.value? "#" = some doc.raw :=
  rfl

/-- What a reference names that goes on with one more segment. -/
theorem value?_segment (h : doc.value? pointer = some json) {segment : String}
    (hslash : '/' ∉ segment.toList) :
    doc.value? (pointer ++ "/" ++ segment) = json.child? (Reference.decodeSegment segment) := by
  obtain ⟨text, htext, hat⟩ := Option.bind_eq_some_iff.mp h
  have heq : pointer ++ "/" ++ segment = "#" ++ (text ++ "/" ++ segment) := by
    rw [Reference.eq_append_of_after? htext, String.append_assoc, String.append_assoc,
      String.append_assoc]
  rw [value?, heq, Reference.after?_append, Option.bind_some]
  exact Json.at?_append hat hslash

/-- What stands below a place. -/
theorem value?_child (h : doc.value? pointer = some json) (segment : String) :
    doc.value? (Reference.child pointer segment) = json.child? segment := by
  rw [Reference.child, value?_segment h (Reference.slash_notMem_encodeSegment segment),
    Reference.decodeSegment_encodeSegment]

/-- What stands in a place of a document with distinct names has distinct names. -/
theorem distinct_value? (hdistinct : doc.raw.Distinct) (h : doc.value? pointer = some json) :
    json.Distinct := by
  obtain ⟨text, -, hat⟩ := Option.bind_eq_some_iff.mp h
  exact hdistinct.at? hat

end OpenApi.Document

end ClientGen
