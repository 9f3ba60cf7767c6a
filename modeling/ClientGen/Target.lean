import ClientGen.Validator.Arktype
import ClientGen.Validator.IoTs
import ClientGen.Validator.Typebox
import ClientGen.Validator.Valibot
import ClientGen.Validator.Yup
import ClientGen.Validator.Zod

/-!
# Targets of generation

Which validator library a client comes with, if any.
-/

namespace ClientGen

/-- The validators a client comes with. -/
inductive Target
  /-- Types only. -/
  | none
  | zod
  | valibot
  | ioTs
  | typebox
  | yup
  | arktype
deriving DecidableEq, Repr

namespace Target

/-- All targets, in the order in which they are listed to users. -/
def all : List Target := [.none, .zod, .valibot, .ioTs, .typebox, .yup, .arktype]

/-- The name of a target. -/
def name : Target → String
  | .none => "none"
  | .zod => "zod"
  | .valibot => "valibot"
  | .ioTs => "io-ts"
  | .typebox => "typebox"
  | .yup => "yup"
  | .arktype => "arktype"

/-- The target with a name. -/
def ofName? (name : String) : Option Target :=
  all.find? fun target => target.name == name

/-- The word for a target in names of files. -/
def fileTag : Target → String
  | .none => "client"
  | target => target.name

/-- The names that users can choose from. -/
def expectedNames : String :=
  Text.join ", " (all.map name)

/-- The library of a target. -/
def library? : Target → Option Validator.Library
  | .none => Option.none
  | .zod => some Validator.Zod.library
  | .valibot => some Validator.Valibot.library
  | .ioTs => some Validator.IoTs.library
  | .typebox => some Validator.Typebox.library
  | .yup => some Validator.Yup.library
  | .arktype => some Validator.Arktype.library

end Target

end ClientGen
