import ClientGen.Yaml.Node
import ClientGen.Yaml.Scalar

/-!
# Composition of YAML values

The value of a document: every alias becomes what its number stands for, tags and plain scalars are
resolved, and equal keys in one mapping are refused. Collections nest at most 128 deep after that,
and there are at most a hundred times as many copies as there are events.
-/

namespace ClientGen.Yaml

/-- The deepest nesting of collections that is composed. -/
def maxDepth : Nat := 128

/-- How many copies there may be for each event. -/
def copiesPerEvent : Nat := 100

/-- A step of composition. The state is how many more copies there may be. -/
abbrev ComposeM := StateT Nat Option

namespace Value

/-- The name of a tag that makes a value of its own: what follows its exclamation mark, if anything
does. -/
def ownTag? (tag : String) : Option String :=
  match tag.toList with
  | ['!'] => some tag
  | '!' :: name => some (String.ofList name)
  | _ => none

/-- What an alias stands for is put in its place. A copy is outside any tag around the alias. -/
def follow (targets : List (Nat × Node)) (compose : Bool → Node → ComposeM Value) (inTag : Bool)
    (node : Node) : ComposeM Value :=
  match node with
  | .aliasOf number => do
    match ← get, targets.lookup number with
    | copies + 1, some target => do
      set copies
      compose false target
    | _, _ => failure
  | node => compose inTag node

/-- Entries that are composed one by one, no key the same as an earlier one. -/
def composeEntries (key value : Node → ComposeM Value) (entries : List (Value × Value)) :
    List (Node × Node) → ComposeM (List (Value × Value))
  | [] => return entries.reverse
  | (k, v) :: rest => do
    let k ← key k
    if entries.any fun entry => entry.1.same k then failure
    else
      let v ← value v
      composeEntries key value ((k, v) :: entries) rest

/-- The value of a node whose own tag, if it has any, is known. Tags of keys have no effect inside
of a tagged mapping. -/
def content (targets : List (Nat × Node)) (compose : Option (Bool → Node → ComposeM Value))
    (inTag : Bool) (node : Node) : ComposeM Value :=
  match node, compose with
  | .scalar properties text plain, _ =>
    match properties.tag, inTag with
    | some tag, false => ofTagged? tag text
    | _, _ => ofScalar? text plain
  | .sequence _ items, some compose =>
    Value.sequence <$> items.mapM (follow targets compose false)
  | .mapping _ entries, some compose =>
    Value.mapping <$>
      composeEntries (follow targets compose inTag) (follow targets compose false) [] entries
  | _, _ => failure

/-- The value of a node that is nested so deep at most. -/
def compose (targets : List (Nat × Node)) : Nat → Bool → Node → ComposeM Value
  | depth, inTag, node =>
    let inner := match depth with
      | 0 => none
      | depth + 1 => some (compose targets depth)
    match if inTag then none else node.properties.tag.bind ownTag? with
    | some tag => Value.tagged tag <$> content targets inner true node
    | none => content targets inner inTag node

/-- The value of a document. What an anchor's number stands for is the last node that has it. -/
def ofNode? (node : Node) : Option Value :=
  ((compose node.anchored.reverse maxDepth false node).run (copiesPerEvent * node.countEvents)).map
    Prod.fst

/-- The value of a text that is one document. -/
def ofText? (text : String) : Option Value := do
  ofNode? (← Node.ofTokens? (← Token.ofText? text))

end Value

end ClientGen.Yaml
