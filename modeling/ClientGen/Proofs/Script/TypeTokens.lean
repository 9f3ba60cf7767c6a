import ClientGen.Proofs.Literal
import ClientGen.Proofs.Reference
import ClientGen.Proofs.Script.Grammar

/-!
# Tokens of types

What a type is to be read back as (`TypeExpr.tree`): directly nested unions are one union, directly
nested intersections are one intersection, and literals are known by their text. The text of a type
is read as the tokens of the type (`TypeExpr.reads_text`), whatever the names of its properties and
the texts among its literals contain.
-/

namespace ClientGen

namespace Script

/-! ### What a type is read as -/

/-- The alternatives of a type. -/
def TypeTree.alternatives : TypeTree → List TypeTree
  | .union members => members
  | tree => [tree]

/-- The factors of a type. -/
def TypeTree.factors : TypeTree → List TypeTree
  | .intersection members => members
  | tree => [tree]

end Script

/-- What a literal is read as. -/
def Literal.tree : Literal → Script.TypeTree
  | .string value => .string value
  | .int value => .numeral (toString value)
  | .number value => .numeral value.text
  | .bool value => .bool value
  | .null => .keyword .null

namespace Script.TypeExpr

open Lexer Grammar

mutual

/-- What a type is read as. -/
def tree : TypeExpr → TypeTree
  | .keyword word => .keyword word
  | .literal value => value.tree
  | .array item => .array item.tree
  | .object members => .object (memberTrees members)
  | .record value => .record value.tree
  | .union members => .union (alternativeTrees members)
  | .intersection members => .intersection (factorTrees members)
  | .named name => .named name

/-- The alternatives of the members of a union. -/
def alternativeTrees : List TypeExpr → List TypeTree
  | [] => []
  | member :: rest => member.tree.alternatives ++ alternativeTrees rest

/-- The factors of the members of an intersection. -/
def factorTrees : List TypeExpr → List TypeTree
  | [] => []
  | member :: rest => member.tree.factors ++ factorTrees rest

/-- What properties are read as. -/
def memberTrees : List (Member TypeExpr) → List (Member TypeTree)
  | [] => []
  | member :: rest => ⟨member.name, member.type.tree, member.optional⟩ :: memberTrees rest

end

mutual

/-- Whether a type can be read back: unions and intersections have several members, and names are
those of types of schemas. -/
def Readable : TypeExpr → Prop
  | .keyword _ => True
  | .literal _ => True
  | .array item => item.Readable
  | .object members => ReadableMembers members
  | .record value => value.Readable
  | .union members => 2 ≤ members.length ∧ ReadableAll members
  | .intersection members => 2 ≤ members.length ∧ ReadableAll members
  | .named name =>
    ∃ identifier, name = schemasNamespace ++ "." ++ identifier ∧
      Quoted.needsQuotes identifier = false

/-- Whether all types of a list can be read back. -/
def ReadableAll : List TypeExpr → Prop
  | [] => True
  | member :: rest => member.Readable ∧ ReadableAll rest

/-- Whether the types of all properties can be read back. -/
def ReadableMembers : List (Member TypeExpr) → Prop
  | [] => True
  | member :: rest => member.type.Readable ∧ ReadableMembers rest

end

/-! ### Tokens of a type -/

/-- The token of the key of a property. -/
def keyToken (name : String) : Token :=
  if Quoted.needsQuotes name then .string name else .word name

/-- The tokens of a name, which may be in the namespace of schemas. -/
def nameTokens (name : String) : List Token :=
  match Reference.after? (schemasNamespace ++ ".") name with
  | some identifier => [.word schemasNamespace, .mark '.', .word identifier]
  | none => [.word name]

mutual

/-- The tokens of a type. -/
def tokens : TypeExpr → List Token
  | .keyword word => [.word word.text]
  | .literal value => value.tokens
  | .array item =>
    if item.isList then .word "Array" :: .mark '<' :: (item.tokens ++ [.mark '>'])
    else item.tokens ++ [.mark '[', .mark ']']
  | .object members =>
    .mark '\x7b' :: ([.mark ';'].intercalate (memberLists members) ++ [.mark '\x7d'])
  | .record value =>
    .word "Record" :: .mark '<' :: .word "string" :: .mark ',' :: (value.tokens ++ [.mark '>'])
  | .union members => [.mark '|'].intercalate (tokenLists members)
  | .intersection members => [.mark '&'].intercalate (factorLists members)
  | .named name => nameTokens name

/-- The tokens of types. -/
def tokenLists : List TypeExpr → List (List Token)
  | [] => []
  | member :: rest => member.tokens :: tokenLists rest

/-- The tokens of types inside an intersection. -/
def factorLists : List TypeExpr → List (List Token)
  | [] => []
  | member :: rest =>
    (if member.isUnion then .mark '(' :: (member.tokens ++ [.mark ')']) else member.tokens)
      :: factorLists rest

/-- The tokens of properties. -/
def memberLists : List (Member TypeExpr) → List (List Token)
  | [] => []
  | member :: rest =>
    (keyToken member.name :: ((if member.optional then [.mark '?'] else [])
      ++ .mark ':' :: member.type.tokens)) :: memberLists rest

end

private theorem needsQuotes_keyword (word : Keyword) : Quoted.needsQuotes word.text = false := by
  cases word <;> decide

/-- The key of a property is one token. -/
theorem reads_key (name : String) : Reads (Quoted.key name) [keyToken name] := by
  unfold Quoted.key keyToken
  split_ifs with h
  · exact reads_of_run (run_quote name)
  · exact reads_word (Bool.not_eq_true _ ▸ h)

/-- A text between two others, the first of which leaves nothing open. -/
private theorem reads_enclosed {opening text closing : String} (before : List Token)
    {between after : List Token} (hopening : run .idle opening.toList = some (before, .idle))
    (htext : Reads text between)
    (hclosing : run .idle closing.toList = some (after, .idle)) (hapart : Apart closing.toList) :
    Reads (opening ++ text ++ closing) (before ++ (between ++ after)) := by
  rw [String.append_assoc]
  exact (htext.append (reads_of_run hclosing) hapart).append_of_run hopening

/-- The name of a schema is read as the namespace, a dot and the name. -/
private theorem reads_named {name : String}
    (h : ∃ identifier, name = schemasNamespace ++ "." ++ identifier ∧
      Quoted.needsQuotes identifier = false) : Reads name (nameTokens name) := by
  obtain ⟨identifier, rfl, hidentifier⟩ := h
  have hqualifier : run .idle (schemasNamespace ++ ".").toList =
      some ([.word schemasNamespace, .mark '.'], .idle) := by
    decide
  rw [nameTokens, Reference.after?_append]
  exact (reads_word hidentifier).append_of_run hqualifier

theorem apart_append (first : String) (h : Apart first.toList) (hne : first ≠ "")
    (second : String) : Apart (first ++ second).toList := by
  rw [String.toList_append]
  exact h.append_left (mt String.toList_eq_nil_iff.mp hne) _

mutual

/-- **Tokens.** The text of a type is read as the tokens of the type. -/
theorem reads_text (type : TypeExpr) (h : type.Readable) : Reads type.text type.tokens := by
  cases type with
  | keyword word =>
    rw [text, tokens]
    exact reads_word (needsQuotes_keyword word)
  | literal value =>
    rw [text, tokens]
    exact value.reads_text
  | array item =>
    rw [Readable] at h
    have hitem := reads_text item h
    rw [text, tokens]
    split_ifs
    · exact reads_enclosed [.word "Array", .mark '<'] (by decide) hitem rfl (by decide)
    · exact hitem.append (reads_of_run rfl) (by decide)
  | object members =>
    rw [Readable] at h
    have hsemicolon : run .idle "; ".toList = some ([.mark ';'], .idle) := rfl
    have hmembers := reads_join hsemicolon (by decide) (reads_memberTexts members h)
    rw [text, tokens, objectText]
    -- Without members nothing stands between the braces, not even a blank.
    split_ifs with hempty
    · cases members with
      | nil => exact reads_of_run rfl
      | cons member rest => cases hempty
    · exact reads_enclosed [.mark '\x7b'] rfl hmembers rfl (by decide)
  | record value =>
    rw [Readable] at h
    have hvalue := reads_text value h
    rw [text, tokens]
    exact reads_enclosed [.word "Record", .mark '<', .word "string", .mark ','] (by decide) hvalue
      rfl (by decide)
  | union members =>
    rw [Readable] at h
    rw [text, tokens]
    exact reads_join rfl (by decide) (reads_texts members h.2)
  | intersection members =>
    rw [Readable] at h
    rw [text, tokens]
    exact reads_join rfl (by decide) (reads_factorTexts members h.2)
  | named name =>
    rw [Readable] at h
    rw [text, tokens]
    exact reads_named h

theorem reads_texts (members : List TypeExpr) (h : ReadableAll members) :
    List.Forall₂ Reads (texts members) (tokenLists members) := by
  cases members with
  | nil =>
    rw [texts, tokenLists]
    exact .nil
  | cons member rest =>
    rw [ReadableAll] at h
    rw [texts, tokenLists]
    exact .cons (reads_text member h.1) (reads_texts rest h.2)

theorem reads_factorTexts (members : List TypeExpr) (h : ReadableAll members) :
    List.Forall₂ Reads (factorTexts members) (factorLists members) := by
  cases members with
  | nil =>
    rw [factorTexts, factorLists]
    exact .nil
  | cons member rest =>
    rw [ReadableAll] at h
    have hmember := reads_text member h.1
    rw [factorTexts, factorLists]
    refine .cons ?_ (reads_factorTexts rest h.2)
    split_ifs
    · exact reads_enclosed [.mark '('] rfl hmember rfl (by decide)
    · exact hmember

theorem reads_memberTexts (members : List (Member TypeExpr)) (h : ReadableMembers members) :
    List.Forall₂ Reads (memberTexts members) (memberLists members) := by
  cases members with
  | nil =>
    rw [memberTexts, memberLists]
    exact .nil
  | cons member rest =>
    obtain ⟨name, type, optional⟩ := member
    rw [ReadableMembers] at h
    have htype : Reads (": " ++ type.text) ([.mark ':'] ++ type.tokens) :=
      (reads_text type h.1).append_of_run rfl
    rw [memberTexts, memberLists]
    refine .cons ?_ (reads_memberTexts rest h.2)
    dsimp only
    -- A key is read on until a mark follows, which is a colon or a question mark.
    rw [String.append_assoc, String.append_assoc]
    cases optional with
    | false =>
      have hapart := apart_append ": " (by decide) (by decide) type.text
      exact (reads_key name).append htype hapart
    | true =>
      have hmark : run .idle "?".toList = some ([.mark '?'], .idle) := rfl
      have hapart := apart_append "?" (by decide) (by decide) (": " ++ type.text)
      exact (reads_key name).append (htype.append_of_run hmark) hapart

end

end Script.TypeExpr

end ClientGen
