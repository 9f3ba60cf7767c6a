import ClientGen.Proofs.Script.Precedence
import ClientGen.Script.Module

/-!
# Types are read back

The text of a type is read back as that type (`TypeExpr.ofText?_text`), and so is the declaration of
a type with its name, on one line or with a line for each property (`TypeExpr.declaration?_text`).
All types of descriptors can be read back, unless they list no values at all or refer to something
that is no name (`readable_ofDescriptor`).
-/

namespace ClientGen

mutual

/-- Whether all enumerations inside a type list values, and all its references are called by names
that need no quotes. -/
def Descriptor.Writable : Descriptor → Prop
  | .primitive _ _ => True
  | .array item => item.Writable
  | .object properties rest =>
    Descriptor.WritableProperties properties ∧
      (match rest with
      | some value => value.Writable
      | none => True)
  | .enumeration values => values ≠ []
  | .union _ members => Descriptor.WritableMembers members
  | .intersection members => Descriptor.WritableMembers members
  | .reference _ name => Quoted.needsQuotes name = false
  | .unknown => True

/-- The same for the types of properties. -/
def Descriptor.WritableProperties : List (Property Descriptor) → Prop
  | [] => True
  | property :: rest => property.type.Writable ∧ Descriptor.WritableProperties rest

/-- The same for all types of a list. -/
def Descriptor.WritableMembers : List Descriptor → Prop
  | [] => True
  | member :: rest => member.Writable ∧ Descriptor.WritableMembers rest

end

namespace Script.TypeExpr

open Lexer Grammar

/-! ### Whole texts -/

/-- **Types are read back.** The text of a type is read as that type. -/
theorem ofText?_text {type : TypeExpr} (h : type.Readable) :
    TypeTree.ofText? type.text = some type.tree := by
  obtain ⟨depth, hdepth⟩ := Nat.exists_eq_add_one.mpr
    (Nat.zero_lt_of_lt (height_lt_length_tokens type h))
  have hheight := height_lt_length_tokens type h
  rw [hdepth] at hheight
  have hparses := (reading type h depth (Nat.le_of_lt_succ hheight)).parses h [] fun _ _ => by
    rintro ⟨⟩
  rw [List.append_nil] at hparses
  rw [TypeTree.ofText?, whole, (reads_text type h).tokens?]
  simp only [Option.bind_eq_bind, Option.bind_some, hdepth, hparses]

private theorem run_indentation (indent : Nat) :
    run .idle (indentation indent).toList = some ([], .idle) := by
  induction indent with
  | zero => rfl
  | succ indent ih =>
    have hblanks : run .idle "  ".toList = some ([], .idle) := rfl
    rw [indentation, String.toList_append, run_append hblanks, ih]
    rfl

/-- The lines of the properties of an object type, each ended by a semicolon. -/
private theorem closes_memberLines (indent : Nat) {texts : List String} {lists : List (List Token)}
    (h : List.Forall₂ Reads texts lists) :
    Closes (Text.concat (texts.map fun text => indentation indent ++ "  " ++ text ++ ";\n"))
      (lists.flatMap (· ++ [.mark ';'])) := by
  have hblanks : run .idle "  ".toList = some ([], .idle) := rfl
  have hsemicolon : run .idle ";\n".toList = some ([.mark ';'], .idle) := rfl
  induction h with
  | nil => exact closes_of_run rfl
  | @cons text tokens texts lists htext _ ih =>
    have hmargin := (closes_of_run (run_indentation indent)).append (closes_of_run hblanks)
    have hline := hmargin.append (htext.close hsemicolon (by decide) (by decide))
    rw [← String.append_assoc] at hline
    rw [List.map_cons, Text.concat_cons, List.flatMap_cons]
    exact hline.append ih

/-- Lists with a separator behind each are the lists with one between each two, and one more. -/
private theorem flatMap_append_mark {lists : List (List Token)} (hne : lists ≠ []) (token : Token) :
    lists.flatMap (· ++ [token]) = [token].intercalate lists ++ [token] := by
  induction lists with
  | nil => exact absurd rfl hne
  | cons first rest ih =>
    cases rest with
    | nil => simp
    | cons second rest =>
      rw [List.flatMap_cons, ih (List.cons_ne_nil _ _), List.intercalate_cons_cons]
      simp only [List.append_assoc]

/-- What a declaration has behind its equals sign: tokens that are read as the type, and a
semicolon. -/
private structure Body (type : TypeExpr) (body : String) (tokens : List Token) : Prop where
  reads : Reads body (tokens ++ [.mark ';'])
  height : type.height ≤ tokens.length
  parses : ∀ depth, type.height ≤ depth →
    Parses (typeWithin (depth + 1)) typeStops tokens type.tree

/-- A type on one line. -/
private theorem body_text {type : TypeExpr} (h : type.Readable) :
    Body type (type.text ++ ";\n") type.tokens where
  reads := (reads_text type h).append (reads_of_run rfl) (by decide)
  height := Nat.le_of_lt (height_lt_length_tokens type h)
  parses depth hdepth := (reading type h depth hdepth).parses h

/-- An object type with a line for each property. -/
private theorem body_lines {members : List (Member TypeExpr)} (h : ReadableMembers members)
    (hne : members ≠ []) (indent : Nat) :
    Body (.object members)
      ("\x7b\n" ++ Text.concat ((memberTexts members).map fun text =>
        indentation indent ++ "  " ++ text ++ ";\n") ++ (indentation indent ++ "\x7d;\n"))
      (.mark '\x7b' :: ([.mark ';'].intercalate (memberLists members) ++
        ([.mark ';'] ++ [.mark '\x7d']))) := by
  have hlists : memberLists members ≠ [] := by
    obtain ⟨member, rest, rfl⟩ := List.exists_cons_of_ne_nil hne
    rw [memberLists]
    exact List.cons_ne_nil _ _
  refine ⟨?_, ?_, fun depth hdepth => ?_⟩
  · -- Each member is on a line of its own, with a semicolon behind it, the last one included.
    have hopen : run .idle "\x7b\n".toList = some ([.mark '\x7b'], .idle) := rfl
    have hclose : run .idle "\x7d;\n".toList = some ([.mark '\x7d', .mark ';'], .idle) := rfl
    have hlines := closes_memberLines indent (reads_memberTexts members h)
    have hend := (closes_of_run (run_indentation indent)).append (closes_of_run hclose)
    have hbody := (((closes_of_run hopen).append hlines).append hend).reads
    rw [flatMap_append_mark hlists] at hbody
    simp only [List.append_assoc, List.cons_append, List.nil_append] at hbody ⊢
    exact hbody
  · -- The limit for the depth is the number of tokens.
    have hheight := heightOfMembers_le members h
    rw [height]
    simp only [List.length_cons, List.length_append]
    omega
  · rw [height] at hdepth
    obtain ⟨depth, rfl⟩ := Nat.exists_eq_add_one.mpr (Nat.zero_lt_of_lt hdepth)
    have hmembers := reading_members members h depth (Nat.le_of_succ_le_succ hdepth)
    rw [tree]
    exact (trails_object hmembers (head?_memberLists _) (Or.inr ⟨rfl, hlists⟩)).parses_type

/-- A declaration is read back as its name and its type, at any indentation. -/
private theorem Body.declaration? {name : String} {type : TypeExpr} {body : String}
    {tokens : List Token} (h : Body type body tokens) (hname : Quoted.needsQuotes name = false)
    (indent : Nat) :
    TypeTree.declaration? (indentation indent ++ "export type " ++ name ++ " = " ++ body) =
      some (name, type.tree) := by
  have hhead : run .idle "export type ".toList = some ([.word "export", .word "type"], .idle) := by
    decide
  have hequals : run .idle " = ".toList = some ([.mark '='], .idle) := rfl
  have hapart : Apart (" = " ++ body).toList := apart_append " = " (by decide) (by decide) body
  have hreads := ((((reads_word hname).append (h.reads.append_of_run hequals) hapart).append_of_run
    hhead).append_of_run (run_indentation indent)).tokens?
  have hvalue := parses_enclosed (h.parses (tokens.length + 4) (Nat.le_add_right_of_le h.height))
    ';' (by decide) []
  simp only [String.append_assoc, List.cons_append, List.nil_append] at hreads ⊢
  rw [TypeTree.declaration?, whole, hreads]
  -- The tokens in front of the type and the semicolon behind it make up the depth.
  simp only [Option.bind_eq_bind, Option.bind_some, List.length_cons, List.length_append,
    List.length_nil, declaration, token, word, if_true, hvalue]
  rfl

/-- **Declarations are read back.** The declaration of a type is read as that type under its name,
however far it is indented. -/
theorem declaration?_text {definition : TypeAlias}
    (hname : Quoted.needsQuotes definition.name = false) (h : definition.type.Readable)
    (indent : Nat) :
    TypeTree.declaration? (definition.text indent) =
      some (definition.name, definition.type.tree) := by
  obtain ⟨name, type⟩ := definition
  have hline := (body_text h).declaration? hname indent
  simp only [← String.append_assoc] at hline
  cases type with
  | object members =>
    cases members with
    | nil => exact hline
    | cons member rest =>
      rw [Readable] at h
      have hlines := (body_lines h (List.cons_ne_nil member rest) indent).declaration? hname indent
      simp only [← String.append_assoc] at hlines
      rw [TypeAlias.text]
      exact hlines
  | _ => exact hline

/-! ### Types of descriptors -/

private theorem readableAll_iff {members : List TypeExpr} :
    ReadableAll members ↔ ∀ member ∈ members, member.Readable := by
  induction members with
  | nil => simp [ReadableAll]
  | cons member rest ih => simp [ReadableAll, ih]

/-- A composition can be read back if its members can, because one member stands for itself. -/
private theorem readable_compose {wrap : List TypeExpr → TypeExpr}
    (hwrap : ∀ members, (wrap members).Readable ↔ 2 ≤ members.length ∧ ReadableAll members)
    {members : List TypeExpr} (h : ReadableAll members) : (compose wrap members).Readable := by
  rcases members with _ | ⟨first, _ | ⟨second, rest⟩⟩
  · rw [compose, Readable]
    trivial
  · rw [ReadableAll] at h
    exact h.1
  · refine (hwrap _).mpr ⟨?_, h⟩
    rw [List.length_cons, List.length_cons]
    omega

private theorem readable_ofLiterals {values : List Literal} (h : values ≠ []) :
    (ofLiterals values).Readable := by
  rcases values with _ | ⟨first, _ | ⟨second, rest⟩⟩
  · exact absurd rfl h
  · rw [ofLiterals, Readable]
    trivial
  · rw [ofLiterals, Readable, readableAll_iff, List.length_map]
    · refine ⟨?_, fun member hmember => ?_⟩
      · rw [List.length_cons, List.length_cons]
        omega
      · obtain ⟨value, -, rfl⟩ := List.mem_map.mp hmember
        rw [Readable]
        trivial
    · simp

/-- An object is readable if its members and the type of its further keys are. -/
private theorem readable_ofObject {members : List (Member TypeExpr)} {rest : Option TypeExpr}
    (h : ReadableMembers members) (hrest : ∀ value ∈ rest, value.Readable) :
    (ofObject members rest).Readable := by
  unfold ofObject
  split
  · rw [Readable, Readable]
    trivial
  · rwa [Readable]
  · rw [Readable]
    exact hrest _ rfl
  · rw [Readable, ReadableAll, ReadableAll, ReadableAll, Readable, Readable]
    exact ⟨Nat.le_refl 2, h, hrest _ rfl, trivial⟩

private theorem readable_ofProperty {name : String} {type : TypeExpr} (h : type.Readable)
    (required : Bool) : (ofProperty name type required).type.Readable := by
  rw [ofProperty]
  split_ifs
  · exact h
  · rw [Readable, ReadableAll, ReadableAll, ReadableAll, Readable]
    exact ⟨Nat.le_refl 2, h, trivial, trivial⟩

mutual

/-- The type that a descriptor describes can be read back. -/
theorem readable_ofDescriptor (descriptor : Descriptor) (h : descriptor.Writable) :
    (ofDescriptor descriptor).Readable := by
  cases descriptor with
  | primitive kind format =>
    rw [ofDescriptor]
    cases kind <;> exact trivial
  | array item =>
    rw [Descriptor.Writable] at h
    rw [ofDescriptor, Readable]
    exact readable_ofDescriptor item h
  | object properties rest =>
    cases rest with
    | none =>
      rw [Descriptor.Writable] at h
      rw [ofDescriptor]
      exact readable_ofObject (readable_ofProperties properties h.1)
        fun _ hmem => absurd hmem (Option.not_mem_none _)
    | some value =>
      rw [Descriptor.Writable] at h
      rw [ofDescriptor]
      refine readable_ofObject (readable_ofProperties properties h.1) ?_
      rintro _ ⟨⟩
      exact readable_ofDescriptor value h.2
  | enumeration values =>
    rw [Descriptor.Writable] at h
    rw [ofDescriptor]
    -- An enumeration without values has no type that could be read.
    exact readable_ofLiterals h
  | union kind members =>
    rw [Descriptor.Writable] at h
    rw [ofDescriptor]
    exact readable_compose (fun _ => by rw [Readable]) (readable_ofDescriptors members h)
  | intersection members =>
    rw [Descriptor.Writable] at h
    rw [ofDescriptor]
    exact readable_compose (fun _ => by rw [Readable]) (readable_ofDescriptors members h)
  | reference key name =>
    rw [Descriptor.Writable] at h
    rw [ofDescriptor, Readable]
    exact ⟨name, rfl, h⟩
  | unknown =>
    rw [ofDescriptor, Readable]
    trivial

private theorem readable_ofProperties (properties : List (Property Descriptor))
    (h : Descriptor.WritableProperties properties) : ReadableMembers (ofProperties properties) := by
  cases properties with
  | nil =>
    rw [ofProperties, ReadableMembers]
    trivial
  | cons property rest =>
    obtain ⟨name, type, required⟩ := property
    rw [Descriptor.WritableProperties] at h
    rw [ofProperties, ReadableMembers]
    exact ⟨readable_ofProperty (readable_ofDescriptor type h.1) required,
      readable_ofProperties rest h.2⟩

private theorem readable_ofDescriptors (members : List Descriptor)
    (h : Descriptor.WritableMembers members) : ReadableAll (ofDescriptors members) := by
  cases members with
  | nil =>
    rw [ofDescriptors, ReadableAll]
    trivial
  | cons member rest =>
    rw [Descriptor.WritableMembers] at h
    rw [ofDescriptors, ReadableAll]
    exact ⟨readable_ofDescriptor member h.1, readable_ofDescriptors rest h.2⟩

end

/-- **Descriptors are read back.** If the enumerations in a descriptor list values and its
references are called by names that need no quotes, then the text of its type is read back as that
type, and so is the declaration of the type, however far it is indented. -/
theorem reads_ofDescriptor {descriptor : Descriptor} (h : descriptor.Writable) :
    TypeTree.ofText? (ofDescriptor descriptor).text = some (ofDescriptor descriptor).tree ∧
      ∀ name, Quoted.needsQuotes name = false → ∀ indent,
        TypeTree.declaration? (TypeAlias.text indent ⟨name, ofDescriptor descriptor⟩) =
          some (name, (ofDescriptor descriptor).tree) :=
  ⟨ofText?_text (readable_ofDescriptor descriptor h), fun name hname indent =>
    @declaration?_text ⟨name, ofDescriptor descriptor⟩ hname (readable_ofDescriptor descriptor h)
      indent⟩

/-- A type with the separators of types in its texts and in the name of a property. -/
def crowded : Descriptor :=
  .intersection [
    .union .anyOf [.enumeration [.string "a | b"], .null],
    .object [⟨"x; y", .array (.enumeration [.string "\"&", .int (-1)]), false⟩] (some .unknown)]

/-- Strings with bars, quotes and semicolons in them are read back as they are, and each operator
with its own operands. -/
theorem reads_ofDescriptor_crowded :
    TypeTree.ofText? ("(\"a | b\" | null) & \x7b \"x; y\"?: Array<\"\\\"&\" | -1> | undefined \x7d"
        ++ " & Record<string, unknown>") =
      some (.intersection [
        .union [.string "a | b", .keyword .null],
        .object [⟨"x; y", .union [.array (.union [.string "\"&", .numeral "-1"]),
          .keyword .undefined], true⟩],
        .record (.keyword .unknown)]) := by
  have hwritable : crowded.Writable := by
    simp [crowded, Descriptor.Writable, Descriptor.WritableMembers,
      Descriptor.WritableProperties, Descriptor.null, Descriptor.scalar]
  have hreads := (reads_ofDescriptor hwritable).1
  exact hreads

end Script.TypeExpr

end ClientGen
