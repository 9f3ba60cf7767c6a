import ClientGen.Number.Binary64

/-!
# JSON values

Values with the members of an object in order. An integer is one that fits 64 bits with or without
a sign; every other number is a binary64 number.
-/

namespace ClientGen

/-- A JSON value. The names of an object are distinct. -/
inductive Json
  | null
  | bool (value : Bool)
  | int (value : Int)
  | float (value : Binary64)
  | string (value : String)
  | array (items : List Json)
  | object (members : List (String × Json))
deriving Repr

namespace Json

mutual

/-- How many texts there are among the values, member names left out. -/
def countStrings : Json → Nat
  | .string _ => 1
  | .array items => countStringsOfItems items
  | .object members => countStringsOfMembers members
  | _ => 0

/-- How many texts there are among the values of a list. -/
def countStringsOfItems : List Json → Nat
  | [] => 0
  | item :: rest => item.countStrings + countStringsOfItems rest

/-- How many texts there are among the values of members. -/
def countStringsOfMembers : List (String × Json) → Nat
  | [] => 0
  | member :: rest => member.2.countStrings + countStringsOfMembers rest

end

mutual

/-- The depth of nesting; a value without parts has depth one. -/
def depth : Json → Nat
  | .array items => depthOfItems items + 1
  | .object members => depthOfMembers members + 1
  | _ => 1

/-- The greatest depth in a list of values. -/
def depthOfItems : List Json → Nat
  | [] => 0
  | item :: rest => max item.depth (depthOfItems rest)

/-- The greatest depth among the values of members. -/
def depthOfMembers : List (String × Json) → Nat
  | [] => 0
  | member :: rest => max member.2.depth (depthOfMembers rest)

end

end Json

end ClientGen
