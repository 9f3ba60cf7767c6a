import ClientGen.Literal
import ClientGen.Text.Join

/-!
# Script expressions

The expressions that make up the runtime part of a generated module, and how they are written. An
object literal stands on one line, or has a line for each field (`block`).
-/

namespace ClientGen.Script

/-- A script expression. Keys of objects are as they are written, with their quotes if any. -/
inductive Expr
  /-- An expression that is written already. -/
  | verbatim (text : String)
  | name (identifier : String)
  | literal (value : Literal)
  /-- An identifier between quotes. -/
  | quotedName (identifier : String)
  | member (target : Expr) (field : String)
  | call (callee : Expr) (arguments : List Expr)
  | array (items : List Expr)
  | object (fields : List (String × Expr))
  /-- An object with a line for each field, which starts on a line indented so many times. -/
  | block (indent : Nat) (fields : List (String × Expr))
  /-- A function with one parameter or none. -/
  | lambda (parameter : Option String) (body : Expr)
  /-- The left value unless it is missing, and then the right one. -/
  | orElse (left right : Expr)

/-- Two blanks for each level of indentation. -/
def indentation : Nat → String
  | 0 => ""
  | n + 1 => "  " ++ indentation n

namespace Expr

/-- A string literal. -/
def string (value : String) : Expr := literal (.string value)

/-- A call of a method. -/
def invoke (target : Expr) (method : String) (arguments : List Expr) : Expr :=
  call (member target method) arguments

/-- Fields written on one line, given their values as texts. -/
def objectText (fields : List String) : String :=
  if fields.isEmpty then "\x7b\x7d" else "\x7b " ++ Text.join ", " fields ++ " \x7d"

mutual

/-- The expression as it is written. -/
def text : Expr → String
  | .verbatim written => written
  | .name identifier => identifier
  | .literal value => value.text
  | .quotedName identifier => "\"" ++ identifier ++ "\""
  | .member target field => target.text ++ "." ++ field
  | .call callee arguments => callee.text ++ "(" ++ Text.join ", " (texts arguments) ++ ")"
  | .array items => "[" ++ Text.join ", " (texts items) ++ "]"
  | .object fields => objectText (fieldTexts fields)
  | .block indent fields =>
    "\x7b\n" ++ Text.concat (lines (indentation indent) fields) ++ indentation indent ++ "\x7d"
  | .lambda parameter body => "(" ++ parameter.getD "" ++ ") => " ++ body.text
  | .orElse left right => left.text ++ " ?? " ++ right.text

/-- Expressions as they are written. -/
def texts : List Expr → List String
  | [] => []
  | item :: rest => item.text :: texts rest

/-- Fields as they are written on one line. -/
def fieldTexts : List (String × Expr) → List String
  | [] => []
  | field :: rest => (field.1 ++ ": " ++ field.2.text) :: fieldTexts rest

/-- Fields as they are written on lines of their own, indented once more than `margin`. -/
def lines (margin : String) : List (String × Expr) → List String
  | [] => []
  | field :: rest =>
    (margin ++ "  " ++ field.1 ++ ": " ++ field.2.text ++ ",\n") :: lines margin rest

end

end Expr

end ClientGen.Script
