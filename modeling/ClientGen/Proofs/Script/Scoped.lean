import ClientGen.Proofs.Script.Nesting
import ClientGen.Script.Module

/-!
# Names in types and expressions

The names that a type mentions (`TypeExpr.names`), and whether all names that an expression uses are
names of something, parameters of functions included (`Expr.Scoped`). The text of a type is neutral
if its names are (`TypeExpr.neutral_text`), and so is the text of an expression with its names in
scope, if those are identifiers (`Expr.Scoped.neutral`): whatever its literals and keys contain.
-/

namespace ClientGen.Script

open Lexer Identifier

/-! ### Types -/

namespace TypeExpr

mutual

/-- The names inside a type, from left to right. -/
def names : TypeExpr → List String
  | .keyword _ => []
  | .literal _ => []
  | .array item => item.names
  | .object members => namesOfMembers members
  | .record value => value.names
  | .union members => namesOfAll members
  | .intersection members => namesOfAll members
  | .named name => [name]

/-- The names inside a list of types. -/
def namesOfAll : List TypeExpr → List String
  | [] => []
  | member :: rest => member.names ++ namesOfAll rest

/-- The names inside the types of properties. -/
def namesOfMembers : List (Member TypeExpr) → List String
  | [] => []
  | member :: rest => member.type.names ++ namesOfMembers rest

end

mutual

/-- The text of a type is neutral if its names are. -/
theorem neutral_text (type : TypeExpr) (h : ∀ name ∈ type.names, Neutral name) :
    Neutral type.text := by
  cases type with
  | keyword word =>
    rw [text]
    cases word <;> decide
  | literal value =>
    rw [text]
    exact neutral_literal value
  | array item =>
    rw [names] at h
    have hitem := neutral_text item h
    rw [text]
    split_ifs
    · -- What is left open before the item is closed behind it.
      exact hitem.enclosed [] (by decide) (by decide)
    · exact hitem.append (by decide)
  | object members =>
    rw [names] at h
    have hmembers : Neutral (Text.join "; " (memberTexts members)) :=
      neutral_join (by decide) (neutral_memberTexts members h)
    rw [text, objectText]
    split_ifs
    · decide
    · exact hmembers.enclosed ['\x7d'] (by decide) (by decide)
  | record value =>
    rw [names] at h
    rw [text]
    exact (neutral_text value h).enclosed [] (by decide) (by decide)
  | union members =>
    rw [names] at h
    rw [text]
    exact neutral_join (by decide) (neutral_texts members h)
  | intersection members =>
    rw [names] at h
    rw [text]
    exact neutral_join (by decide) (neutral_factorTexts members h)
  | named name =>
    rw [names] at h
    rw [text]
    exact h name (List.mem_singleton_self name)

/-- The texts of types are neutral if the names in them are. -/
theorem neutral_texts (members : List TypeExpr) (h : ∀ name ∈ namesOfAll members, Neutral name) :
    ∀ text ∈ texts members, Neutral text := by
  cases members with
  | nil =>
    rw [texts]
    exact fun _ hmem => absurd hmem List.not_mem_nil
  | cons member rest =>
    rw [namesOfAll] at h
    rw [texts]
    exact List.forall_mem_cons.mpr ⟨neutral_text member (List.forall_mem_append.mp h).1,
      neutral_texts rest (List.forall_mem_append.mp h).2⟩

/-- So are the texts of factors, for parentheses are balanced. -/
theorem neutral_factorTexts (members : List TypeExpr)
    (h : ∀ name ∈ namesOfAll members, Neutral name) :
    ∀ text ∈ factorTexts members, Neutral text := by
  cases members with
  | nil =>
    rw [factorTexts]
    exact fun _ hmem => absurd hmem List.not_mem_nil
  | cons member rest =>
    rw [namesOfAll] at h
    have hmember := neutral_text member (List.forall_mem_append.mp h).1
    rw [factorTexts]
    refine List.forall_mem_cons.mpr ⟨?_, neutral_factorTexts rest (List.forall_mem_append.mp h).2⟩
    split_ifs
    · exact hmember.enclosed [')'] (by decide) (by decide)
    · exact hmember

/-- So are the texts of members, for keys are neutral. -/
theorem neutral_memberTexts (members : List (Member TypeExpr))
    (h : ∀ name ∈ namesOfMembers members, Neutral name) :
    ∀ text ∈ memberTexts members, Neutral text := by
  cases members with
  | nil =>
    rw [memberTexts]
    exact fun _ hmem => absurd hmem List.not_mem_nil
  | cons member rest =>
    obtain ⟨name, type, optional⟩ := member
    rw [namesOfMembers] at h
    have htype := neutral_text type (List.forall_mem_append.mp h).1
    have hmark : Neutral (if optional then "?" else "") := by cases optional <;> decide
    have hcolon : Neutral ": " := by decide
    rw [memberTexts]
    exact List.forall_mem_cons.mpr ⟨(((neutral_key name).append hmark).append hcolon).append htype,
      neutral_memberTexts rest (List.forall_mem_append.mp h).2⟩

end

end TypeExpr

/-! ### Expressions -/

namespace Expr

/-- Whether what is called finds something by its name, which is given as a text. -/
def looksUp : Expr → Bool
  | .member _ method => method == "Ref" || method == "Import"
  | _ => false

mutual

/-- Whether all names that an expression uses are names of something. Keys of objects may be
anything that is neutral. -/
def Scoped (names : String → Prop) : Expr → Prop
  | .verbatim _ => False
  | .name identifier => names identifier
  | .literal _ => True
  | .quotedName identifier => names identifier
  | .member target field => target.Scoped names ∧ isIdentifier field = true
  | .call callee arguments => callee.Scoped names ∧ ScopedAll names arguments ∧
      (callee.looksUp = true → ∀ name, Expr.string name ∈ arguments → names name)
  | .array items => ScopedAll names items
  | .object fields => ScopedFields names fields
  | .block _ fields => ScopedFields names fields
  | .lambda parameter body =>
    (∀ name ∈ parameter, isIdentifier name = true) ∧
      body.Scoped fun name => names name ∨ name ∈ parameter
  | .orElse left right => left.Scoped names ∧ right.Scoped names

/-- The same for all expressions of a list. -/
def ScopedAll (names : String → Prop) : List Expr → Prop
  | [] => True
  | item :: rest => item.Scoped names ∧ ScopedAll names rest

/-- The same for the values of fields. -/
def ScopedFields (names : String → Prop) : List (String × Expr) → Prop
  | [] => True
  | field :: rest => Neutral field.1 ∧ field.2.Scoped names ∧ ScopedFields names rest

end

section

variable {names : String → Prop}

theorem scopedAll_iff {items : List Expr} :
    ScopedAll names items ↔ ∀ item ∈ items, item.Scoped names := by
  induction items with
  | nil => exact ⟨fun _ => List.forall_mem_nil _, fun _ => trivial⟩
  | cons item rest ih =>
    rw [List.forall_mem_cons, ← ih]
    rfl

theorem scopedFields_iff {fields : List (String × Expr)} :
    ScopedFields names fields ↔ ∀ field ∈ fields, Neutral field.1 ∧ field.2.Scoped names := by
  induction fields with
  | nil => exact ⟨fun _ => List.forall_mem_nil _, fun _ => trivial⟩
  | cons field rest ih =>
    rw [List.forall_mem_cons, ← ih, and_assoc]
    rfl

@[simp]
theorem scoped_name {identifier : String} : (name identifier).Scoped names ↔ names identifier :=
  Iff.rfl

@[simp]
theorem scoped_literal (value : Literal) : (literal value).Scoped names :=
  trivial

@[simp]
theorem scoped_string (value : String) : (Expr.string value).Scoped names :=
  scoped_literal _

@[simp]
theorem scoped_quotedName {identifier : String} :
    (quotedName identifier).Scoped names ↔ names identifier :=
  Iff.rfl

@[simp]
theorem scoped_member {target : Expr} {field : String} :
    (member target field).Scoped names ↔ target.Scoped names ∧ isIdentifier field = true :=
  Iff.rfl

@[simp]
theorem string_inj {value other : String} : Expr.string value = Expr.string other ↔ value = other :=
  ⟨fun h => Literal.string.inj (literal.inj h), congrArg _⟩

@[simp]
theorem looksUp_name (identifier : String) : (name identifier).looksUp = false := rfl

@[simp]
theorem looksUp_member (target : Expr) (method : String) :
    (member target method).looksUp = (method == "Ref" || method == "Import") := rfl

/-- A call is in scope if its callee and arguments are. If the callee looks up names, its string
arguments are names that must be there. -/
@[simp]
theorem scoped_call {callee : Expr} {arguments : List Expr} :
    (call callee arguments).Scoped names ↔
      callee.Scoped names ∧ (∀ argument ∈ arguments, argument.Scoped names) ∧
        (callee.looksUp = true → ∀ name, Expr.string name ∈ arguments → names name) := by
  rw [← scopedAll_iff]
  rfl

/-- A method is called in scope if its target and arguments are, with the same exception for methods
that look up names. -/
@[simp]
theorem scoped_invoke {target : Expr} {method : String} {arguments : List Expr} :
    (target.invoke method arguments).Scoped names ↔
      target.Scoped names ∧ isIdentifier method = true ∧
        (∀ argument ∈ arguments, argument.Scoped names) ∧
        (method = "Ref" ∨ method = "Import" →
          ∀ name, Expr.string name ∈ arguments → names name) := by
  rw [invoke, scoped_call, scoped_member, and_assoc, looksUp_member, Bool.or_eq_true, beq_iff_eq,
    beq_iff_eq]

@[simp]
theorem scoped_array {items : List Expr} :
    (array items).Scoped names ↔ ∀ item ∈ items, item.Scoped names :=
  scopedAll_iff

@[simp]
theorem scoped_object {fields : List (String × Expr)} :
    (object fields).Scoped names ↔ ∀ field ∈ fields, Neutral field.1 ∧ field.2.Scoped names :=
  scopedFields_iff

@[simp]
theorem scoped_block {indent : Nat} {fields : List (String × Expr)} :
    (block indent fields).Scoped names ↔
      ∀ field ∈ fields, Neutral field.1 ∧ field.2.Scoped names :=
  scopedFields_iff

/-- The body of a function may use its parameter. -/
@[simp]
theorem scoped_lambda {parameter : Option String} {body : Expr} :
    (lambda parameter body).Scoped names ↔ (∀ name ∈ parameter, isIdentifier name = true) ∧
      body.Scoped fun name => names name ∨ name ∈ parameter :=
  Iff.rfl

@[simp]
theorem scoped_orElse {left right : Expr} :
    (orElse left right).Scoped names ↔ left.Scoped names ∧ right.Scoped names :=
  Iff.rfl

end

mutual

/-- More names do no harm. -/
theorem Scoped.mono (e : Expr) {names more : String → Prop}
    (hmore : ∀ name, names name → more name) (h : e.Scoped names) : e.Scoped more := by
  cases e with
  | verbatim written =>
    exact h.elim
  | name identifier => exact scoped_name.mpr (hmore identifier (scoped_name.mp h))
  | literal value => exact scoped_literal value
  | quotedName identifier =>
    exact scoped_quotedName.mpr (hmore identifier (scoped_quotedName.mp h))
  | member target field =>
    exact ⟨Scoped.mono target hmore h.1, h.2⟩
  | call callee arguments =>
    exact ⟨Scoped.mono callee hmore h.1, ScopedAll.mono arguments hmore h.2.1,
      fun hlooks name hname => hmore name (h.2.2 hlooks name hname)⟩
  | array items =>
    exact ScopedAll.mono items hmore h
  | object fields =>
    exact ScopedFields.mono fields hmore h
  | block indent fields =>
    exact ScopedFields.mono fields hmore h
  | lambda parameter body =>
    -- The parameter is in scope on both sides.
    exact ⟨h.1, Scoped.mono body (fun name => Or.imp_left (hmore name)) h.2⟩
  | orElse left right =>
    exact ⟨Scoped.mono left hmore h.1, Scoped.mono right hmore h.2⟩

/-- Expressions stay in scope if there are more names. -/
private theorem ScopedAll.mono (items : List Expr) {names more : String → Prop}
    (hmore : ∀ name, names name → more name) (h : ScopedAll names items) :
    ScopedAll more items := by
  cases items with
  | nil => trivial
  | cons item rest =>
    exact ⟨Scoped.mono item hmore h.1, ScopedAll.mono rest hmore h.2⟩

private theorem ScopedFields.mono (fields : List (String × Expr)) {names more : String → Prop}
    (hmore : ∀ name, names name → more name) (h : ScopedFields names fields) :
    ScopedFields more fields := by
  cases fields with
  | nil => trivial
  | cons field rest =>
    exact ⟨h.1, Scoped.mono field.2 hmore h.2.1, ScopedFields.mono rest hmore h.2.2⟩

end

theorem neutral_indentation (indent : Nat) : Neutral (indentation indent) := by
  induction indent with
  | zero => exact (by decide : Neutral "")
  | succ indent ih => exact Neutral.append (by decide : Neutral "  ") ih

mutual

/-- The text of an expression with its names in scope is neutral, if those are identifiers. -/
theorem Scoped.neutral (e : Expr) {names : String → Prop}
    (hnames : ∀ name, names name → isIdentifier name = true) (h : e.Scoped names) :
    Neutral e.text := by
  cases e with
  | verbatim written =>
    -- Text that is written as it is never is in scope.
    exact h.elim
  | name identifier =>
    rw [text]
    exact neutral_of_isIdentifier (hnames identifier h)
  | literal value =>
    rw [text]
    exact neutral_literal value
  | quotedName identifier =>
    have hquoted := quote_of_isIdentifier (hnames identifier h)
    rw [text, ← hquoted]
    exact neutral_quote identifier
  | member target field =>
    rw [text]
    exact ((Scoped.neutral target hnames h.1).append (by decide)).append
      (neutral_of_isIdentifier h.2)
  | call callee arguments =>
    have hcallee := Scoped.neutral callee hnames h.1
    have harguments : Neutral (Text.join ", " (texts arguments)) :=
      neutral_join (by decide) (ScopedAll.neutral arguments hnames h.2.1)
    rw [text]
    exact harguments.enclosed [')'] (Nests.append hcallee (by decide)) (by decide)
  | array items =>
    have hitems : Neutral (Text.join ", " (texts items)) :=
      neutral_join (by decide) (ScopedAll.neutral items hnames h)
    rw [text]
    exact hitems.enclosed [']'] (by decide) (by decide)
  | object fields =>
    have hfields : Neutral (Text.join ", " (fieldTexts fields)) :=
      neutral_join (by decide) (ScopedFields.neutral fields hnames h)
    rw [text, objectText]
    split_ifs
    · decide
    · exact hfields.enclosed ['\x7d'] (by decide) (by decide)
  | block indent fields =>
    -- The brace and its counterpart stand on different lines, so that the lines are read inside it.
    have hlines := neutral_concat (ScopedFields.neutral_lines fields hnames h
      (neutral_indentation indent))
    have hopening : Nests "\x7b\n" [] ['\x7d'] := by decide
    rw [text]
    exact ((hopening.append (hlines.nests _)).append ((neutral_indentation indent).nests _)).append
      (by decide)
  | lambda parameter body =>
    have hparameter : Neutral (parameter.getD "") := by
      cases parameter with
      | none => exact (by decide : Neutral "")
      | some name => exact neutral_of_isIdentifier (h.1 name rfl)
    -- The parameter of the function is one more name inside.
    have hnames' (name : String) (hname : names name ∨ name ∈ parameter) :
        isIdentifier name = true :=
      hname.elim (hnames name) (h.1 name)
    rw [text]
    exact (hparameter.enclosed [')'] (by decide) (by decide)).append
      (Scoped.neutral body hnames' h.2)
  | orElse left right =>
    rw [text]
    exact ((Scoped.neutral left hnames h.1).append (by decide)).append
      (Scoped.neutral right hnames h.2)

theorem ScopedAll.neutral (items : List Expr) {names : String → Prop}
    (hnames : ∀ name, names name → isIdentifier name = true) (h : ScopedAll names items) :
    ∀ text ∈ texts items, Neutral text := by
  cases items with
  | nil =>
    rw [texts]
    exact fun _ hmem => absurd hmem List.not_mem_nil
  | cons item rest =>
    rw [texts]
    exact List.forall_mem_cons.mpr ⟨Scoped.neutral item hnames h.1,
      ScopedAll.neutral rest hnames h.2⟩

theorem ScopedFields.neutral (fields : List (String × Expr)) {names : String → Prop}
    (hnames : ∀ name, names name → isIdentifier name = true) (h : ScopedFields names fields) :
    ∀ text ∈ fieldTexts fields, Neutral text := by
  cases fields with
  | nil =>
    rw [fieldTexts]
    exact fun _ hmem => absurd hmem List.not_mem_nil
  | cons field rest =>
    obtain ⟨key, value⟩ := field
    rw [fieldTexts]
    exact List.forall_mem_cons.mpr
      ⟨(h.1.append (by decide)).append (Scoped.neutral value hnames h.2.1),
        ScopedFields.neutral rest hnames h.2.2⟩

/-- Fields in scope are neutral on lines of their own, too. -/
theorem ScopedFields.neutral_lines (fields : List (String × Expr)) {names : String → Prop}
    (hnames : ∀ name, names name → isIdentifier name = true) (h : ScopedFields names fields)
    {margin : String} (hmargin : Neutral margin) : ∀ text ∈ lines margin fields, Neutral text := by
  cases fields with
  | nil =>
    rw [lines]
    exact fun _ hmem => absurd hmem List.not_mem_nil
  | cons field rest =>
    obtain ⟨key, value⟩ := field
    have hkey := (hmargin.append (by decide : Neutral "  ")).append h.1
    have hline := (hkey.append (by decide : Neutral ": ")).append
      (Scoped.neutral value hnames h.2.1)
    rw [lines]
    exact List.forall_mem_cons.mpr ⟨hline.append (by decide),
      ScopedFields.neutral_lines rest hnames h.2.2 hmargin⟩

end

end Expr

end ClientGen.Script
