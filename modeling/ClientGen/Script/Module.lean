import ClientGen.Script.Expr
import ClientGen.Script.Type

/-!
# Modules

A generated module: imports and then a list of declarations with a blank line between each two.
-/

namespace ClientGen.Script

/-- An exported type with a name. -/
structure TypeAlias where
  name : String
  type : TypeExpr

/-- What follows the name of a constant as its type. -/
inductive Ascription
  | verbatim (text : String)
  /-- A generic type applied to the type of a schema. -/
  | ofSchema (generic name : String)

/-- An import of names from a package, or of the whole package under one name. -/
inductive Import
  | names (items : List String) (package : String)
  | all (name package : String)

/-- A declaration of a module. -/
inductive Item
  /-- An exported namespace of types. -/
  | typeNamespace (name : String) (types : List TypeAlias)
  | typeAlias (definition : TypeAlias)
  | constant (name : String) (ascription : Option Ascription) (value : Expr)
  /-- A constant that is not exported. -/
  | localConstant (name : String) (value : Expr)
  /-- Text that is written already. -/
  | verbatim (text : String)

/-- A module. -/
structure Module where
  imports : List Import
  items : List Item

/-- The declaration of a type, so many times indented. An object type with properties has a line for
each of them. -/
def TypeAlias.text (indent : Nat) (definition : TypeAlias) : String :=
  let margin := indentation indent
  let head := margin ++ "export type " ++ definition.name ++ " = "
  match definition.type with
  | .object (member :: rest) =>
    head ++ "\x7b\n"
      ++ Text.concat ((TypeExpr.memberTexts (member :: rest)).map fun text =>
        margin ++ "  " ++ text ++ ";\n")
      ++ margin ++ "\x7d;\n"
  | type => head ++ type.text ++ ";\n"

/-- The ascription as it is written. -/
def Ascription.text : Ascription → String
  | .verbatim text => text
  | .ofSchema generic name => generic ++ "<" ++ schemasNamespace ++ "." ++ name ++ ">"

/-- The import as it is written. -/
def Import.text : Import → String
  | .names items package =>
    "import \x7b " ++ Text.join ", " items ++ " \x7d from \"" ++ package ++ "\";\n"
  | .all name package => "import * as " ++ name ++ " from \"" ++ package ++ "\";\n"

/-- The text with a line break at its end. -/
def closeLine (text : String) : String :=
  if text.toList.getLast? = some '\n' then text else text ++ "\n"

/-- The declaration as it is written. -/
def Item.text : Item → String
  | .typeNamespace name types =>
    "export namespace " ++ name ++ " \x7b\n  // <" ++ name ++ ">\n"
      ++ Text.concat (types.map (TypeAlias.text 1)) ++ "  // </" ++ name ++ ">\n\x7d\n"
  | .typeAlias definition => definition.text 0
  | .constant name ascription value =>
    let type := match ascription with
      | some ascription => ": " ++ ascription.text
      | none => ""
    "export const " ++ name ++ type ++ " = " ++ value.text ++ ";\n"
  | .localConstant name value => "const " ++ name ++ " = " ++ value.text ++ ";\n"
  | .verbatim text => closeLine text

/-- The module as it is written. -/
def Module.text (module : Module) : String :=
  Text.concat (module.imports.map Import.text) ++ (if module.imports.isEmpty then "" else "\n")
    ++ Text.join "\n" (module.items.map Item.text)

end ClientGen.Script
