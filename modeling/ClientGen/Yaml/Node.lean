import ClientGen.Ordered
import ClientGen.Yaml.Token

/-!
# YAML nodes

The tokens of a text as the one document they have to make up, in which tags are resolved by the
directives in front of it and an alias carries the number of an anchor. Anchors are numbered by how
many names have been given when they occur, so that a name which is given again can share its
number with the next new one; `Node.anchored` lists what each number stands for.
-/

namespace ClientGen.Yaml

/-- What may stand in front of a node. -/
structure Properties where
  /-- The number of its anchor. -/
  anchor : Option Nat := none
  tag : Option String := none

/-- A node of a document. -/
inductive Node
  | aliasOf (number : Nat)
  | scalar (properties : Properties) (text : String) (plain : Bool)
  | sequence (properties : Properties) (items : List Node)
  | mapping (properties : Properties) (entries : List (Node × Node))

namespace Node

/-- A scalar without any text. -/
def empty : Node := scalar {} "" true

/-- What stands in front of a node. -/
def properties : Node → Properties
  | aliasOf _ => {}
  | scalar properties _ _ => properties
  | sequence properties _ => properties
  | mapping properties _ => properties

mutual

/-- The nodes with an anchor and their numbers, in the order in which they begin. -/
def anchored (node : Node) : List (Nat × Node) :=
  let inner := match node with
    | sequence _ items => anchoredItems items
    | mapping _ entries => anchoredEntries entries
    | _ => []
  match node.properties.anchor with
  | some number => (number, node) :: inner
  | none => inner

/-- The nodes with an anchor in a list. -/
def anchoredItems : List Node → List (Nat × Node)
  | [] => []
  | item :: rest => item.anchored ++ anchoredItems rest

/-- The nodes with an anchor among keys and values. -/
def anchoredEntries : List (Node × Node) → List (Nat × Node)
  | [] => []
  | (key, value) :: rest => key.anchored ++ value.anchored ++ anchoredEntries rest

end

mutual

/-- How many events make up a node: one for a scalar or alias, and two beside those of its parts for
any other. -/
def countEvents : Node → Nat
  | sequence _ items => countItems items + 2
  | mapping _ entries => countEntries entries + 2
  | _ => 1

/-- How many events make up the nodes of a list. -/
def countItems : List Node → Nat
  | [] => 0
  | item :: rest => item.countEvents + countItems rest

/-- How many events make up keys and values. -/
def countEntries : List (Node × Node) → Nat
  | [] => 0
  | (key, value) :: rest => key.countEvents + value.countEvents + countEntries rest

end

end Node

/-! ### Reading tokens -/

/-- Tokens that are read up to a place. -/
structure Reader where
  tokens : List Token
  /-- What each tag handle stands for. -/
  handles : List (String × String) := []
  /-- The numbers of the names that anchors have. -/
  anchors : List (String × Nat) := []

/-- A step of reading, which fails on a token that is out of place. -/
abbrev ReadM := StateT Reader Option

namespace Reader

/-- The next token, which stays where it is; none at the end. -/
def peek : ReadM (Option Token) := do
  return (← get).tokens.head?

/-- Skips the next token. -/
def skip : ReadM Unit :=
  modify fun reader => { reader with tokens := reader.tokens.tail }

/-- Skips the next token, which has to be the given one. -/
def expect (token : Token) : ReadM Unit := do
  if (← peek) = some token then skip else failure

/-- Whether the next token is one of those given. -/
def atAny (tokens : List Token) : ReadM Bool := do
  match ← peek with
  | some token => return tokens.contains token
  | none => return false

/-! ### Properties of nodes -/

/-- The anchor that comes next, if one does. -/
def anchor? : ReadM (Option String) := do
  match ← peek with
  | some (.anchor name) => do
    skip
    return some name
  | _ => return none

/-- The tag that comes next, if one does, with its handle resolved. -/
def tag? : ReadM (Option String) := do
  match ← peek with
  | some (.tag handle suffix) => do
    skip
    if handle = "" then return some suffix
    else
      match (← get).handles.lookup handle with
      | some start => return some (start ++ suffix)
      | none => failure
  | _ => return none

/-- An anchor and a tag in either order. -/
def nameAndTag : ReadM (Option String × Option String) := do
  match ← anchor? with
  | some name => return (some name, ← tag?)
  | none => do
    let tag ← tag?
    return (← anchor?, tag)

/-- The number of a new anchor. -/
def number (name : String) : ReadM Nat := do
  let anchors := (← get).anchors
  let number := anchors.length
  modify fun reader => { reader with anchors := Ordered.put anchors name number }
  return number

/-- Properties of a node that is about to begin. -/
def register (name tag : Option String) : ReadM Properties := do
  let anchor ← match name with
    | some name => some <$> number name
    | none => pure none
  return ⟨anchor, tag⟩

/-! ### Nodes -/

/-- An empty node, which is there only if it has an anchor or a tag. -/
def bare (name tag : Option String) : ReadM Node := do
  if name.isSome || tag.isSome then return .scalar (← register name tag) "" true else failure

mutual

/-- A node. Blocks can begin only where `block` says so, and a sequence that is not indented only
where `flush` does. The fuel bounds how many steps are nested or follow one another. -/
def node (fuel : Nat) (block flush : Bool) : ReadM Node :=
  match fuel with
  | 0 => failure
  | fuel + 1 => do
    if let some (.aliasOf name) ← peek then
      skip
      match (← get).anchors.lookup name with
      | some number => return .aliasOf number
      | none => failure
    else
      let (name, tag) ← nameAndTag
      match ← peek, block, flush with
      | some .blockEntry, _, true => return .sequence (← register name tag) (← flushItems fuel)
      | some (.scalar text plain), _, _ => do
        skip
        return .scalar (← register name (tag.filter (· ≠ "!"))) text plain
      | some .flowSequenceStart, _, _ => do
        skip
        return .sequence (← register name tag) (← flowItems fuel true)
      | some .flowMappingStart, _, _ => do
        skip
        return .mapping (← register name tag) (← flowEntries fuel true)
      | some .blockSequenceStart, true, _ => do
        skip
        return .sequence (← register name tag) (← blockItems fuel)
      | some .blockMappingStart, true, _ => do
        skip
        return .mapping (← register name tag) (← blockEntries fuel)
      | _, _, _ => bare name tag

/-- A node, or an empty one before any of the tokens that show that nothing is there. -/
def nodeUnless (fuel : Nat) (ends : List Token) (block flush : Bool) : ReadM Node :=
  match fuel with
  | 0 => failure
  | fuel + 1 => do
    if ← atAny ends then return .empty else node fuel block flush

/-- The items of a block sequence up to its end. -/
def blockItems (fuel : Nat) : ReadM (List Node) :=
  match fuel with
  | 0 => failure
  | fuel + 1 => do
    match ← peek with
    | some .blockEntry => do
      skip
      let item ← nodeUnless fuel [.blockEntry, .blockEnd] true false
      return item :: (← blockItems fuel)
    | some .blockEnd => do
      skip
      return []
    | _ => failure

/-- The items of a sequence that is not indented. -/
def flushItems (fuel : Nat) : ReadM (List Node) :=
  match fuel with
  | 0 => failure
  | fuel + 1 => do
    match ← peek with
    | some .blockEntry => do
      skip
      let item ← nodeUnless fuel [.blockEntry, .key, .value, .blockEnd] true false
      return item :: (← flushItems fuel)
    | _ => return []

/-- The entries of a block mapping up to its end. -/
def blockEntries (fuel : Nat) : ReadM (List (Node × Node)) :=
  match fuel with
  | 0 => failure
  | fuel + 1 => do
    match ← peek with
    | some .key => do
      skip
      let key ← nodeUnless fuel [.key, .value, .blockEnd] true true
      let value ← blockValue fuel
      return (key, value) :: (← blockEntries fuel)
    | some .blockEnd => do
      skip
      return []
    | _ => failure

/-- The value of a key in a block mapping. -/
def blockValue (fuel : Nat) : ReadM Node :=
  match fuel with
  | 0 => failure
  | fuel + 1 => do
    if (← peek) = some .value then
      skip
      nodeUnless fuel [.key, .value, .blockEnd] true true
    else return .empty

/-- The items of a flow sequence up to its end. An item may be a single key with a value. -/
def flowItems (fuel : Nat) (first : Bool) : ReadM (List Node) :=
  match fuel with
  | 0 => failure
  | fuel + 1 => do
    if ← atAny [.flowSequenceEnd] then
      skip
      return []
    else
      if !first then expect .flowEntry
      match ← peek with
      | some .key => do
        skip
        let item ← flowPair fuel
        return item :: (← flowItems fuel false)
      | some .flowSequenceEnd => do
        skip
        return []
      | _ => do
        let item ← node fuel false false
        return item :: (← flowItems fuel false)

/-- A single key with a value as a mapping. If the key is empty, the token that shows so is lost. -/
def flowPair (fuel : Nat) : ReadM Node :=
  match fuel with
  | 0 => failure
  | fuel + 1 => do
    let key ←
      if ← atAny [.value, .flowEntry, .flowSequenceEnd] then do
        skip
        pure .empty
      else node fuel false false
    let value ← flowValue fuel .flowSequenceEnd
    return .mapping {} [(key, value)]

/-- The value of a key in a flow collection with the given end. -/
def flowValue (fuel : Nat) (ending : Token) : ReadM Node :=
  match fuel with
  | 0 => failure
  | fuel + 1 => do
    if (← peek) = some .value then
      skip
      nodeUnless fuel [.flowEntry, ending] false false
    else return .empty

/-- The entries of a flow mapping up to its end. A key may stand without a value. -/
def flowEntries (fuel : Nat) (first : Bool) : ReadM (List (Node × Node)) :=
  match fuel with
  | 0 => failure
  | fuel + 1 => do
    if ← atAny [.flowMappingEnd] then
      skip
      return []
    else
      if !first then expect .flowEntry
      match ← peek with
      | some .key => do
        skip
        let key ← nodeUnless fuel [.value, .flowEntry, .flowMappingEnd] false false
        let value ← flowValue fuel .flowMappingEnd
        return (key, value) :: (← flowEntries fuel false)
      | some .flowMappingEnd => do
        skip
        return []
      | _ => do
        let key ← node fuel false false
        return (key, .empty) :: (← flowEntries fuel false)

end

/-! ### Documents -/

/-- Reads directives: at most one version, which has to be 1.1 or 1.2, and tag handles that are all
different. The fuel bounds their number. -/
def directives (fuel : Nat) (versioned : Bool) : ReadM Unit :=
  match fuel with
  | 0 => failure
  | fuel + 1 => do
    match ← peek with
    | some (.versionDirective major minor) =>
      if versioned || major != 1 || (minor != 1 && minor != 2) then failure
      else do
        skip
        directives fuel true
    | some (.tagDirective handle start) => do
      let handles := (← get).handles
      if (handles.lookup handle).isSome then failure
      else do
        skip
        modify fun reader => { reader with handles := handles ++ [(handle, start)] }
        directives fuel versioned
    | _ => return ()

/-- The handles that need no directive. -/
def defaultHandles : List (String × String) := [("!", "!"), ("!!", "tag:yaml.org,2002:")]

/-- Adds the handles that need no directive, unless directives say what they stand for. -/
def addDefaults : ReadM Unit :=
  modify fun reader => { reader with handles := reader.handles ++ defaultHandles }

/-- Whether the next token belongs to no node: a directive, a mark or the end. -/
def atBoundary : ReadM Bool := do
  match ← peek with
  | none => return true
  | some (.versionDirective _ _) => return true
  | some (.tagDirective _ _) => return true
  | some .documentStart => return true
  | some .documentEnd => return true
  | _ => return false

/-- The document. Directives have to be followed by the mark of its start, after which its node may
be missing. -/
def document (fuel : Nat) : ReadM Node := do
  match ← peek with
  | none => return .empty
  | some .documentEnd => failure
  | _ =>
    if ← atBoundary then
      directives fuel false
      addDefaults
      expect .documentStart
      if ← atBoundary then return .empty else node fuel true false
    else
      addDefaults
      node fuel true false

end Reader

/-- The node that a list of tokens makes up. Nothing but marks of its end may follow. -/
def Node.ofTokens? (tokens : List Token) : Option Node := do
  let fuel := 3 * tokens.length + 4
  let (node, reader) ← (Reader.document fuel).run { tokens := tokens }
  if reader.tokens.all (· == .documentEnd) then return node else none

end ClientGen.Yaml
