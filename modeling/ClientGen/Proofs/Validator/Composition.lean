import ClientGen.Validator.Arktype
import ClientGen.Validator.IoTs
import ClientGen.Validator.Zod
import Mathlib.Data.List.Basic
import Mathlib.Data.List.Perm.Basic

/-!
# Compositions of many members

Three libraries cannot take all members of a composition at once: io-ts takes at most five in an
intersection, Zod takes two, and an operator of ArkType stands between two. What they write is a
tree of compositions (`Composition`), whose leaves, from left to right, are the members as they were
given, however many there are (`keeps_members`): none is lost, written twice or moved. The tree of
io-ts grows to the right by what is left after four members, and its nodes have two to five parts,
because what is left has at least two members if there are more than five (`exists_chunk`). The
trees of the other two grow to the left, one member at a time (`exists_foldl`), and are known from
their leaves (`Composition.LeftNested.eq_of_members`).
-/

namespace ClientGen.Validator

open Script

/-! ### Trees of compositions -/

/-- How a library writes a composition: what stands before its parts, between each two of them, and
after them. -/
structure Form where
  opening : String
  separator : String
  closing : String

/-- A composition of texts, whose parts may be compositions themselves. -/
inductive Composition
  | member (text : String)
  | composed (parts : List Composition)

namespace Composition

mutual

/-- The members, at all depths, from left to right. -/
def members : Composition → List String
  | .member text => [text]
  | .composed parts => membersOfAll parts

/-- The members of compositions. -/
def membersOfAll : List Composition → List String
  | [] => []
  | part :: rest => part.members ++ membersOfAll rest

end

mutual

/-- The composition as it is written. -/
def text (form : Form) : Composition → String
  | .member text => text
  | .composed parts => form.opening ++ Text.join form.separator (texts form parts) ++ form.closing

/-- Compositions as they are written. -/
def texts (form : Form) : List Composition → List String
  | [] => []
  | part :: rest => part.text form :: texts form rest

end

/-- Whether every composition in a tree has at least `low` parts and at most `high`. -/
inductive Bounded (low high : Nat) : Composition → Prop
  | member (text : String) : Bounded low high (.member text)
  | composed {parts : List Composition} (hlow : low ≤ parts.length) (hhigh : parts.length ≤ high)
      (hparts : ∀ part ∈ parts, Bounded low high part) : Bounded low high (.composed parts)

/-- Whether every composition in a tree has two parts, the second of which is a member. -/
inductive LeftNested : Composition → Prop
  | member (text : String) : LeftNested (.member text)
  | composed {first : Composition} (text : String) (hfirst : LeftNested first) :
      LeftNested (.composed [first, .member text])

theorem membersOfAll_append (parts more : List Composition) :
    membersOfAll (parts ++ more) = membersOfAll parts ++ membersOfAll more := by
  induction parts with
  | nil => rfl
  | cons part rest ih => rw [List.cons_append, membersOfAll, membersOfAll, ih, List.append_assoc]

theorem membersOfAll_map_member (list : List String) : membersOfAll (list.map member) = list := by
  induction list with
  | nil => rfl
  | cons text rest ih =>
    rw [List.map_cons, membersOfAll, ih, members]
    rfl

theorem texts_eq_map (form : Form) (parts : List Composition) :
    texts form parts = parts.map (text form) := by
  induction parts with
  | nil => rfl
  | cons part rest ih => rw [texts, ih, List.map_cons]

theorem map_text_map_member (form : Form) (list : List String) :
    (list.map member).map (text form) = list := by
  rw [List.map_map]
  exact List.map_id list

theorem members_composed_member (first : Composition) (text : String) :
    members (.composed [first, .member text]) = first.members ++ [text] := rfl

theorem LeftNested.members_ne_nil {tree : Composition} (h : tree.LeftNested) :
    tree.members ≠ [] := by
  cases h with
  | member text => exact List.cons_ne_nil _ _
  | composed text hfirst =>
    rw [members_composed_member]
    exact List.append_ne_nil_of_right_ne_nil _ (List.cons_ne_nil _ _)

/-- A composition has a member besides its last one. -/
private theorem LeftNested.members_composed_ne {first : Composition} (h : first.LeftNested)
    (last text : String) : (Composition.composed [first, .member last]).members ≠ [text] := by
  intro heq
  rw [members_composed_member, List.append_eq_singleton_iff] at heq
  obtain ⟨hnil, -⟩ | ⟨-, hnil⟩ := heq
  · exact h.members_ne_nil hnil
  · exact List.cons_ne_nil _ _ hnil

/-- A tree that grows to the left is known from its members. -/
theorem LeftNested.eq_of_members {tree other : Composition} (h : tree.LeftNested)
    (hother : other.LeftNested) (heq : tree.members = other.members) : tree = other := by
  induction h generalizing other with
  | member text =>
    cases hother with
    | member _ => exact congrArg Composition.member (List.singleton_inj.mp heq)
    | composed last hfirst => exact absurd heq.symm (hfirst.members_composed_ne last text)
  | composed last hfirst ih =>
    cases hother with
    | member text => exact absurd heq (hfirst.members_composed_ne last text)
    | composed _ hfirst' =>
      rw [members_composed_member, members_composed_member] at heq
      obtain ⟨hmembers, hlast⟩ := List.append_inj' heq rfl
      rw [ih hfirst' hmembers, List.singleton_inj.mp hlast]

end Composition

/-! ### Trees that grow to the left -/

/-- Whether a text is the one composition of members that grows to the left. -/
def IsLeftNesting (form : Form) (members : List String) (text : String) : Prop :=
  ∃! tree : Composition, tree.LeftNested ∧ tree.members = members ∧ tree.text form = text

section LeftNesting

variable {form : Form} {combine : Expr → Expr → Expr}
  (hcombine : ∀ left right, (combine left right).text =
    form.opening ++ Text.join form.separator [left.text, right.text] ++ form.closing)
include hcombine

/-- Each further member is combined with all that is there before it. -/
private theorem exists_foldl (rest : List Expr) {first : Expr} {tree : Composition}
    (htree : tree.LeftNested) (htext : tree.text form = first.text) :
    ∃ result : Composition, result.LeftNested ∧
      result.members = tree.members ++ rest.map Expr.text ∧
      result.text form = (rest.foldl combine first).text := by
  induction rest generalizing first tree with
  | nil => exact ⟨tree, htree, (List.append_nil _).symm, htext⟩
  | cons next rest ih =>
    have hnext : (Composition.composed [tree, .member next.text]).text form =
        (combine first next).text := by
      rw [hcombine, ← htext]
      rfl
    obtain ⟨result, hresult, hmembers, hwritten⟩ := ih (.composed next.text htree) hnext
    refine ⟨result, hresult, ?_, hwritten⟩
    rw [hmembers, Composition.members_composed_member, List.append_assoc, List.map_cons,
      List.singleton_append]

/-- Combining expressions from the left nests them to the left. The induction is on what is combined
with the first one. -/
private theorem isLeftNesting_foldl (first : Expr) (rest : List Expr) :
    IsLeftNesting form ((first :: rest).map Expr.text) (rest.foldl combine first).text := by
  obtain ⟨tree, htree, hmembers, htext⟩ :=
    exists_foldl hcombine rest (.member first.text) (rfl : _ = first.text)
  refine ⟨tree, ⟨htree, hmembers, htext⟩, ?_⟩
  rintro other ⟨hother, hmembers', -⟩
  exact hother.eq_of_members htree (hmembers'.trans hmembers.symm)

end LeftNesting

/-- How Zod writes an intersection. -/
def Zod.intersectionForm : Form := ⟨"z.intersection(", ", ", ")"⟩

/-- How ArkType writes definitions with an operator. -/
def Arktype.tupleForm (operator : String) : Form := ⟨"[", ", \"" ++ operator ++ "\", ", "]"⟩

private theorem Zod.isLeftNesting_intersection {members : List Expr} (h : members ≠ []) :
    IsLeftNesting intersectionForm (members.map Expr.text) (Zod.intersection members).text := by
  obtain ⟨first, rest, rfl⟩ := List.exists_cons_of_ne_nil h
  refine isLeftNesting_foldl (fun left right => ?_) first rest
  simp only [Zod.z, Expr.invoke, Expr.text, Expr.texts]
  rfl

/-- A folded tuple is nested to the left, with its members in order. -/
private theorem Arktype.isLeftNesting_fold {operator : String}
    (hoperator : (Expr.string operator).text = "\"" ++ operator ++ "\"") {members : List Expr}
    (h : members ≠ []) :
    IsLeftNesting (tupleForm operator) (members.map Expr.text)
      (Arktype.fold operator members).text := by
  obtain ⟨first, rest, rfl⟩ := List.exists_cons_of_ne_nil h
  refine isLeftNesting_foldl (fun left right => ?_) first rest
  have hopening : ", \"" = ", " ++ "\"" := rfl
  have hclosing : "\", " = "\"" ++ ", " := rfl
  simp only [Expr.text, Expr.texts, tupleForm, Text.join_cons_cons, Text.join_singleton, hoperator,
    hopening, hclosing, String.append_assoc]

/-! ### Trees of intersections with at most five parts -/

/-- How io-ts writes an intersection. -/
def IoTs.intersectionForm : Form := ⟨"t.intersection([", ", ", "])"⟩

/-- Whether a text is a composition of members, with two to five parts each. -/
def IsChunked (members : List String) (text : String) : Prop :=
  ∃ tree : Composition, tree.Bounded 2 5 ∧ tree.members = members ∧
    tree.text IoTs.intersectionForm = text

namespace IoTs

private theorem texts_eq_map (items : List Expr) : Expr.texts items = items.map Expr.text := by
  induction items with
  | nil => rfl
  | cons item rest ih => rw [Expr.texts, ih, List.map_cons]

private theorem fieldTexts_eq_map (fields : List (String × Expr)) :
    Expr.fieldTexts fields = fields.map fun field => field.1 ++ ": " ++ field.2.text := by
  induction fields with
  | nil => rfl
  | cons field rest ih => rw [Expr.fieldTexts, ih, List.map_cons]

private theorem text_t (name : String) (argument : Expr) :
    (t name [argument]).text = "t." ++ name ++ "(" ++ argument.text ++ ")" := by
  simp only [t, codec, Expr.text, Expr.texts, Text.join_singleton]
  rfl

private theorem text_intersection (members : List Expr) (parts : List Composition)
    (h : members.map Expr.text = parts.map (Composition.text intersectionForm)) :
    (t "intersection" [.array members]).text =
      (Composition.composed parts).text intersectionForm := by
  have hopening : "t.intersection([" = "t." ++ "intersection" ++ "(" ++ "[" := rfl
  have hclosing : "])" = "]" ++ ")" := rfl
  rw [text_t, Expr.text, texts_eq_map, h, Composition.text, Composition.texts_eq_map]
  simp only [intersectionForm, hopening, hclosing, String.append_assoc]

/-- Chunks are two to five parts with the members that were given. More than five members leave at
least two after the first four, so that the fuel, which bounds the number of members, is never used
up. -/
private theorem exists_chunk {fuel : Nat} {members : List Expr} (hfuel : members.length ≤ fuel)
    (hlow : 2 ≤ members.length) :
    ∃ parts : List Composition, (Composition.composed parts).Bounded 2 5 ∧
      Composition.membersOfAll parts = members.map Expr.text ∧
      (chunk fuel members).map Expr.text = parts.map (Composition.text intersectionForm) := by
  induction fuel generalizing members with
  | zero => omega
  | succ fuel ih =>
    rw [chunk]
    split_ifs with hfew
    · -- Up to five members fit into one chunk.
      refine ⟨(members.map Expr.text).map .member, .composed ?_ ?_ ?_,
        Composition.membersOfAll_map_member _, ?_⟩
      · simpa using hlow
      · simpa using hfew
      · exact List.forall_mem_map.mpr fun text _ => .member text
      · exact (Composition.map_text_map_member _ _).symm
    · -- Otherwise four of them are split off. At least two are left, so that the rest is no single
      -- member.
      have hdrop : (members.drop 4).length = members.length - 4 := List.length_drop
      have hfuel' : (members.drop 4).length ≤ fuel := by omega
      have hlow' : 2 ≤ (members.drop 4).length := by omega
      obtain ⟨parts, hbounded, hmembers, htexts⟩ := ih hfuel' hlow'
      have htake : ((members.take 4).map Expr.text).length = 4 := by
        rw [List.length_map, List.length_take]
        omega
      have hlength : (((members.take 4).map Expr.text).map Composition.member ++
          [Composition.composed parts]).length = 5 := by
        rw [List.length_append, List.length_map, htake, List.length_singleton]
      refine ⟨((members.take 4).map Expr.text).map .member ++ [.composed parts],
        .composed ?_ ?_ ?_, ?_, ?_⟩
      · omega
      · omega
      · refine List.forall_mem_append.mpr ⟨?_, List.forall_mem_singleton.mpr hbounded⟩
        exact List.forall_mem_map.mpr fun text _ => .member text
      · -- The members of the chunk are the four, followed by those of the nested chunk.
        have hlast : Composition.membersOfAll [.composed parts] =
            (members.drop 4).map Expr.text := by
          rw [Composition.membersOfAll, Composition.members, hmembers, Composition.membersOfAll,
            List.append_nil]
        rw [Composition.membersOfAll_append, Composition.membersOfAll_map_member, hlast,
          ← List.map_append, List.take_append_drop]
      · rw [List.map_append, List.map_append, List.map_singleton, List.map_singleton,
          text_intersection _ _ htexts, Composition.map_text_map_member]

/-- An intersection of two or more members comes in chunks of two to five, with its members in
order. -/
private theorem isChunked_intersection {members : List Expr} (h : 2 ≤ members.length) :
    IsChunked (members.map Expr.text) (intersection members).text := by
  obtain ⟨parts, hbounded, hmembers, htexts⟩ := exists_chunk (Nat.le_refl members.length) h
  exact ⟨.composed parts, hbounded, hmembers, (text_intersection _ _ htexts).symm⟩

/-! ### Objects -/

/-- Properties with their keys, as they are written. -/
def shapeText (fields : List Field) : String :=
  Expr.objectText (fields.map fun field => field.key ++ ": " ++ field.validator.text)

/-- The codecs of an object, given its required and its optional properties: one for each of the two
kinds, the first unless there are only properties of the second, and one for all others. -/
def codecTexts (required optional : List Field) (rest : Option Expr) : List String :=
  (if required = [] ∧ optional ≠ [] then [] else ["t.type(" ++ shapeText required ++ ")"])
    ++ (if optional = [] then [] else ["t.partial(" ++ shapeText optional ++ ")"])
    ++ (match rest with
      | some value => ["t.record(t.string, " ++ value.text ++ ")"]
      | none => [])

private theorem text_shape (fields : List Field) : (shape fields).text = shapeText fields := by
  rw [shape, Expr.text, fieldTexts_eq_map, List.map_map]
  rfl

private theorem text_record (value : Expr) :
    (record value).text = "t.record(t.string, " ++ value.text ++ ")" := by
  simp only [record, t, codec, Expr.text, Expr.texts, Text.join_cons_cons, Text.join_singleton,
    ← String.append_assoc]
  rfl

/-- The parts of an object are its required fields, its optional ones and the codec for further
keys, as far as there are any. -/
private theorem map_text_parts (fields : List Field) (rest : Option Expr) :
    (parts fields rest).map Expr.text =
      codecTexts (fields.filter (·.required)) (fields.filter (!·.required)) rest := by
  have htype (part : List Field) :
      (t "type" [shape part]).text = "t.type(" ++ shapeText part ++ ")" := by
    rw [text_t, text_shape]
    rfl
  have hpartial (part : List Field) :
      (t "partial" [shape part]).text = "t.partial(" ++ shapeText part ++ ")" := by
    rw [text_t, text_shape]
    rfl
  unfold parts codecTexts
  generalize fields.filter (·.required) = required
  generalize fields.filter (!·.required) = optional
  rcases required with _ | ⟨first, required⟩ <;> rcases optional with _ | ⟨other, optional⟩ <;>
    rcases rest with _ | value <;> simp [htype, hpartial, text_record]

private theorem parts_ne_nil (fields : List Field) (rest : Option Expr) :
    parts fields rest ≠ [] := by
  intro hnil
  obtain ⟨hcodecs, -⟩ := List.append_eq_nil_iff.mp hnil
  obtain ⟨htype, hpartial⟩ := List.append_eq_nil_iff.mp hcodecs
  -- Without optional properties there is the codec of required ones.
  split_ifs at htype hpartial with hrequired hoptional
  rw [hoptional, Bool.or_true] at hrequired
  exact hrequired rfl

private theorem isChunked_object (fields : List Field) (rest : Option Expr) :
    IsChunked (codecTexts (fields.filter (·.required)) (fields.filter (!·.required)) rest)
      (object fields rest).text := by
  rw [← map_text_parts, object]
  rcases hparts : parts fields rest with _ | ⟨first, _ | ⟨second, more⟩⟩
  · exact absurd hparts (parts_ne_nil fields rest)
  · exact ⟨.member first.text, .member _, rfl, rfl⟩
  · refine isChunked_intersection ?_
    simp

/-- Whether a text lists properties with their keys: those that are required in one codec and those
that are optional in another, each once and in the order in which they were given, and all others in
a third codec. -/
def Lists (fields : List Field) (rest : Option Expr) (text : String) : Prop :=
  ∃ required optional : List Field,
    required.Sublist fields ∧ optional.Sublist fields ∧ (required ++ optional).Perm fields ∧
      (∀ field ∈ required, field.required = true) ∧
      (∀ field ∈ optional, field.required = false) ∧
      IsChunked (codecTexts required optional rest) text

/-- An object lists its required fields, its optional ones and the codec for further keys. -/
private theorem lists_object (fields : List Field) (rest : Option Expr) :
    Lists fields rest (object fields rest).text := by
  refine ⟨fields.filter (·.required), fields.filter (!·.required), List.filter_sublist,
    List.filter_sublist, ?_, fun field hfield => ?_, fun field hfield => ?_,
    isChunked_object fields rest⟩
  · simpa using List.filter_append_perm (·.required) fields
  · exact (List.mem_filter.mp hfield).2
  · simpa using (List.mem_filter.mp hfield).2

end IoTs

/-! ### All members are kept -/

/-- Whether compositions of members are written with all of them, in the shape that a library
takes. -/
structure Keeps (members : List Expr) : Prop where
  ioTs : IsChunked (members.map Expr.text) (IoTs.library.intersection members).text
  zod : IsLeftNesting Zod.intersectionForm (members.map Expr.text)
    (Zod.library.intersection members).text
  arktypeIntersection : IsLeftNesting (Arktype.tupleForm "&") (members.map Expr.text)
    (Arktype.library.intersection members).text
  arktypeUnion : IsLeftNesting (Arktype.tupleForm "|") (members.map Expr.text)
    (Arktype.library.union members).text

/-- **Members.** However many members a composition has, it is written as a tree of compositions
with just these members, in their order: io-ts has two to five parts in each intersection, and Zod
and ArkType have two, the second of which is a member. An object of io-ts is such a tree too; it
lists each required and each optional property once, in order, and has all others as a record. -/
theorem keeps_members {members : List Expr} (h : 2 ≤ members.length) (fields : List Field)
    (rest : Option Expr) :
    Keeps members ∧ IoTs.Lists fields rest (IoTs.library.object fields rest).text := by
  have hne : members ≠ [] := by
    rintro rfl
    simp at h
  refine ⟨⟨IoTs.isChunked_intersection h, Zod.isLeftNesting_intersection hne, ?_, ?_⟩,
    IoTs.lists_object fields rest⟩
  · exact Arktype.isLeftNesting_fold (by decide) hne
  · exact Arktype.isLeftNesting_fold (by decide) hne

/-- Seven members. -/
def sevenMembers : List Expr :=
  ["A", "B", "C", "D", "E", "F", "G"].map .name

/-- A required property between two optional ones. -/
def mixedFields : List Field :=
  [⟨"x", .name "X", false⟩, ⟨"y", .name "Y", true⟩, ⟨"z", .name "Z", false⟩]

/-- Seven members come in two chunks, and mixed fields in one of three. -/
theorem keeps_members_seven :
    2 ≤ sevenMembers.length ∧
      (IoTs.library.intersection sevenMembers).text =
        "t.intersection([A, B, C, D, t.intersection([E, F, G])])" ∧
      (IoTs.library.object mixedFields (some (.name "R"))).text = Text.concat [
        "t.intersection([t.type(\x7b y: Y \x7d), t.partial(\x7b x: X, z: Z \x7d), ",
        "t.record(t.string, R)])"] ∧
      Keeps sevenMembers ∧
      IoTs.Lists mixedFields (some (.name "R"))
        (IoTs.library.object mixedFields (some (.name "R"))).text :=
  ⟨by decide, by decide, by decide, keeps_members (by decide) mixedFields (some (.name "R"))⟩

end ClientGen.Validator
