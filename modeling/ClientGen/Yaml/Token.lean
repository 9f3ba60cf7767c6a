import ClientGen.Yaml.Text

/-!
# YAML tokens

A YAML text as a list of tokens. Indentation shows as tokens for the start and the end of blocks. A
key without an indicator of its own is known as one only when the colon after it is read, so that
its token, and perhaps one for the start of a block, is put in front of it then; such a key lies on
one line and is not longer than 1024 characters.
-/

namespace ClientGen.Yaml

/-- A token. -/
inductive Token
  | versionDirective (major minor : Nat)
  | tagDirective (handle start : String)
  | documentStart
  | documentEnd
  | blockSequenceStart
  | blockMappingStart
  | blockEnd
  | flowSequenceStart
  | flowSequenceEnd
  | flowMappingStart
  | flowMappingEnd
  | blockEntry
  | flowEntry
  | key
  | value
  | aliasOf (name : String)
  | anchor (name : String)
  | tag (handle suffix : String)
  | scalar (text : String) (plain : Bool)
deriving DecidableEq, Repr

/-- A place where a key may have begun. -/
structure KeyCandidate where
  /-- Whether nothing but a key can begin there. -/
  required : Bool
  /-- How many tokens are before it. -/
  position : Nat
  index : Nat
  line : Nat
  column : Nat

/-- A text that is read up to a place. -/
structure Lexer where
  cursor : Cursor
  /-- The tokens so far, the latest first. -/
  tokens : List Token := []
  /-- How many tokens there are so far. -/
  count : Nat := 0
  /-- The columns of the open blocks, the innermost first. -/
  blocks : List Nat := []
  /-- Whether a key may begin here. -/
  keyAllowed : Bool := true
  /-- The candidate outside of flow collections. -/
  blockKey : Option KeyCandidate := none
  /-- The candidates inside the open flow collections, the innermost first. -/
  flowKeys : List (Option KeyCandidate) := []

namespace Lexer

/-- Whether a flow collection is open. -/
def inFlow (s : Lexer) : Bool :=
  !s.flowKeys.isEmpty

/-- The text of a lexer with one more token. -/
def emit (s : Lexer) (token : Token) : Lexer :=
  { s with tokens := token :: s.tokens, count := s.count + 1 }

/-- The lexer with a token after the first `position` ones. -/
def insert (s : Lexer) (position : Nat) (token : Token) : Lexer :=
  { s with
    tokens := s.tokens.insertIdx (s.count - position) token
    count := s.count + 1 }

/-- The lexer so many characters on. -/
def skip (s : Lexer) (n : Nat) : Lexer :=
  { s with cursor := s.cursor.skip n }

/-! ### Blocks -/

/-- The least column that is inside the innermost block. -/
def margin (s : Lexer) : Nat :=
  match s.blocks with
  | [] => 0
  | column :: _ => column + 1

/-- Opens a block at a column, with its token after the first `position` ones, unless one at this
column or after it is open. -/
def openBlock (s : Lexer) (column position : Nat) (token : Token) : Lexer :=
  if s.inFlow || column < s.margin then s
  else { s.insert position token with blocks := column :: s.blocks }

/-- Closes the blocks that satisfy a test, up to the first that does not. -/
def closeBlocks (s : Lexer) (test : Nat → Bool) : Lexer :=
  if s.inFlow then s
  else
    (s.blocks.takeWhile test).foldl (fun s _ => s.emit .blockEnd)
      { s with blocks := s.blocks.dropWhile test }

/-! ### Keys -/

/-- The candidate at the current level. -/
def candidate (s : Lexer) : Option KeyCandidate :=
  match s.flowKeys with
  | [] => s.blockKey
  | key :: _ => key

/-- Puts a candidate at the current level. -/
def setCandidate (s : Lexer) (key : Option KeyCandidate) : Lexer :=
  match s.flowKeys with
  | [] => { s with blockKey := key }
  | _ :: rest => { s with flowKeys := key :: rest }

/-- Drops the candidate at the current level, unless it has to be a key. -/
def dropCandidate (s : Lexer) : Option Lexer :=
  if s.candidate.any (·.required) then none else some (s.setCandidate none)

/-- Notes that a key may begin here. -/
def noteCandidate (s : Lexer) : Option Lexer :=
  if s.keyAllowed then do
    let c := s.cursor
    let required := !s.inFlow && s.blocks.head? == some c.column
    let s ← s.dropCandidate
    return s.setCandidate (some ⟨required, s.count, c.index, c.line, c.column⟩)
  else some s

/-- The candidate unless what has been read after it shows that it is no key. -/
def keepFresh (c : Cursor) (key : Option KeyCandidate) : Option (Option KeyCandidate) :=
  match key with
  | none => some none
  | some k =>
    if k.line < c.line ∨ k.index + 1024 < c.index then
      if k.required then none else some none
    else some (some k)

/-- Drops all candidates that are no keys, unless one has to be. -/
def dropStale (s : Lexer) : Option Lexer := do
  let blockKey ← keepFresh s.cursor s.blockKey
  let flowKeys ← s.flowKeys.mapM (keepFresh s.cursor)
  return { s with blockKey := blockKey, flowKeys := flowKeys }

/-! ### Between tokens -/

/-- The lexer at the next character that is neither blank nor part of a comment. A tab is no blank
where a key may begin outside of flow collections. The fuel bounds the number of lines. -/
def skipToToken (fuel : Nat) (s : Lexer) : Lexer :=
  match fuel with
  | 0 => s
  | fuel + 1 =>
    let c := s.cursor
    let c := if c.column == 0 && c.has 0 (· == byteOrderMark) then c.skip 1 else c
    let tabs := s.inFlow || !s.keyAllowed
    let c := c.skipWhile fun ch => ch == ' ' || (tabs && ch == '\t')
    let c := if c.has 0 (· == '#') then c.skipWhile (!isBreak ·) else c
    if c.has 0 isBreak then
      skipToToken fuel { s with cursor := c.skipBreak, keyAllowed := s.keyAllowed || !s.inFlow }
    else { s with cursor := c }

/-! ### Directives -/

/-- A number of at most nine digits. -/
def readNumber (c : Cursor) : Option (Nat × Cursor) :=
  let (digits, c) := c.span Char.isDigit
  if digits.isEmpty || 9 < digits.length then none
  else some (digits.foldl (fun n d => 10 * n + (d.toNat - '0'.toNat)) 0, c)

/-- A tag handle: words between exclamation marks, or in a directive one mark alone. Outside of a
directive the last mark may be missing. -/
def readHandle (directive : Bool) (c : Cursor) : Option (List Char × Cursor) :=
  if c.has 0 (· == '!') then
    let (word, c) := (c.skip 1).span isWord
    if c.has 0 (· == '!') then some ('!' :: (word ++ ['!']), c.skip 1)
    else if directive && !word.isEmpty then none
    else some ('!' :: word, c)
  else none

/-- A character of a tag. Brackets and commas are among them where nothing else can follow. -/
def isTagChar (wide : Bool) (c : Char) : Bool :=
  isWord c || ";/?:@&=+$.%!~*()".toList.contains c || c == '\x27'
    || (wide && (c == ',' || c == '[' || c == ']'))

/-- The value of a byte that is written as a percent sign and two hexadecimal digits. -/
def escapedByte? : List Char → Option (Nat × List Char)
  | '%' :: a :: b :: rest => do
    return ((← hexDigit? a) * 16 + (← hexDigit? b), rest)
  | _ => none

/-- A number of escaped bytes that continue a character. -/
def escapedTail? (n : Nat) (code : Nat) (text : List Char) : Option (Nat × List Char) :=
  match n with
  | 0 => some (code, text)
  | n + 1 => do
    let (byte, rest) ← escapedByte? text
    if 0x80 ≤ byte ∧ byte < 0xC0 then escapedTail? n (code * 64 + (byte - 0x80)) rest else none

/-- A character that is written by escaped bytes, and how many bytes it has. -/
def escapedChar? (text : List Char) : Option (Char × Nat) := do
  let (byte, rest) ← escapedByte? text
  let (more, start) ←
    if byte < 0x80 then some (0, byte)
    else if 0xC0 ≤ byte ∧ byte < 0xE0 then some (1, byte - 0xC0)
    else if 0xE0 ≤ byte ∧ byte < 0xF0 then some (2, byte - 0xE0)
    else if 0xF0 ≤ byte ∧ byte < 0xF8 then some (3, byte - 0xF0)
    else none
  let (code, _) ← escapedTail? more start rest
  if code.isValidChar then return (Char.ofNat code, more + 1) else none

/-- The characters of a tag with their escapes resolved. The fuel bounds their number. -/
def readTagChars (wide : Bool) (fuel : Nat) (c : Cursor) (out : List Char) :
    Option (List Char × Cursor) :=
  match fuel, c.rest with
  | fuel + 1, ch :: _ =>
    if ch = '%' then do
      let (code, bytes) ← escapedChar? c.rest
      readTagChars wide fuel (c.skip (3 * bytes)) (code :: out)
    else if isTagChar wide ch then readTagChars wide fuel (c.skip 1) (ch :: out)
    else some (out.reverse, c)
  | _, _ => some (out.reverse, c)

/-- The rest of a tag after `head`, which is no handle; there has to be something. -/
def readSuffix (wide : Bool) (head : List Char) (c : Cursor) : Option (List Char × Cursor) := do
  let (text, rest) ← readTagChars wide (c.rest.length + 1) c []
  if head.isEmpty && text.isEmpty then none else return (head.drop 1 ++ text, rest)

/-- A directive, which fills its line. -/
def readDirective (c : Cursor) : Option (Token × Cursor) := do
  let (name, c) := (c.skip 1).span isWord
  if name.isEmpty || !c.endsWord 0 then none
  else
    let c := c.skipWhile isBlank
    let (token, c) ←
      if name = "YAML".toList then do
        let (major, c) ← readNumber c
        if !c.has 0 (· == '.') then none
        let (minor, c) ← readNumber (c.skip 1)
        pure (Token.versionDirective major minor, c)
      else if name = "TAG".toList then do
        let (handle, c) ← readHandle true c
        if !c.has 0 isBlank then none
        let (start, c) ← readSuffix true [] (c.skipWhile isBlank)
        if !c.endsWord 0 then none
        pure (Token.tagDirective (String.ofList handle) (String.ofList start), c)
      else none
    return (token, ← c.skipRestOfLine)

/-! ### Properties of nodes -/

/-- The name of an anchor or alias after its first character. -/
def readName (c : Cursor) : Option (String × Cursor) :=
  let (name, c) := c.span isWord
  let ends := c.endsWord 0 || c.has 0 ("?:,]\x7d%@\x60".toList.contains ·)
  if name.isEmpty || !ends then none else some (String.ofList name, c)

/-- A tag. One between angle brackets has no handle, and neither has a lone exclamation mark. -/
def readTag (inFlow : Bool) (c : Cursor) : Option (Token × Cursor) := do
  let (handle, suffix, c) ←
    if c.has 1 (· == '<') then do
      let (suffix, c) ← readSuffix true [] (c.skip 2)
      if !c.has 0 (· == '>') then none
      pure ([], suffix, c.skip 1)
    else do
      let (handle, c) ← readHandle false c
      if 1 < handle.length ∧ handle.getLast? = some '!' then do
        let (suffix, c) ← readSuffix false [] c
        pure (handle, suffix, c)
      else do
        let (suffix, c) ← readSuffix false handle c
        pure (if suffix.isEmpty then ([], ['!'], c) else (['!'], suffix, c))
  if c.endsWord 0 || (inFlow && c.has 0 (· == ',')) then
    return (.tag (String.ofList handle) (String.ofList suffix), c)
  else none

/-! ### Tokens -/

/-- A mark between documents closes all blocks. -/
def fetchMark (s : Lexer) (token : Token) : Option Lexer := do
  let s ← (s.closeBlocks fun _ => true).dropCandidate
  return ({ s with keyAllowed := false }.emit token).skip 3

/-- A directive closes all blocks. -/
def fetchDirective (s : Lexer) : Option Lexer := do
  let s ← (s.closeBlocks fun _ => true).dropCandidate
  let (token, c) ← readDirective s.cursor
  return { s with keyAllowed := false, cursor := c }.emit token

/-- The start of a flow collection. -/
def fetchFlowStart (s : Lexer) (token : Token) : Option Lexer := do
  let s ← s.noteCandidate
  return ({ s with flowKeys := none :: s.flowKeys, keyAllowed := true }.emit token).skip 1

/-- The end of a flow collection. -/
def fetchFlowEnd (s : Lexer) (token : Token) : Option Lexer := do
  let s ← s.dropCandidate
  return ({ s with flowKeys := s.flowKeys.tail, keyAllowed := false }.emit token).skip 1

/-- A comma in a flow collection. -/
def fetchFlowEntry (s : Lexer) : Option Lexer := do
  let s ← s.dropCandidate
  return ({ s with keyAllowed := true }.emit .flowEntry).skip 1

/-- An indicator at the start of a line that belongs to a block, which it opens if need be. -/
def enterBlock (s : Lexer) (token : Token) : Option Lexer :=
  if s.inFlow then some s
  else if s.keyAllowed then some (s.openBlock s.cursor.column s.count token)
  else none

/-- The indicator of a sequence entry. -/
def fetchBlockEntry (s : Lexer) : Option Lexer := do
  let s ← s.enterBlock .blockSequenceStart
  let s ← s.dropCandidate
  return ({ s with keyAllowed := true }.emit .blockEntry).skip 1

/-- The indicator of a key. -/
def fetchKey (s : Lexer) : Option Lexer := do
  let s ← s.enterBlock .blockMappingStart
  let s ← s.dropCandidate
  return ({ s with keyAllowed := !s.inFlow }.emit .key).skip 1

/-- The indicator of a value, which makes a key of the candidate if there is one. -/
def fetchValue (s : Lexer) : Option Lexer :=
  match s.candidate with
  | some key =>
    let s := s.insert key.position .key
    let s := s.openBlock key.column key.position .blockMappingStart
    some (({ s.setCandidate none with keyAllowed := false }.emit .value).skip 1)
  | none => do
    let s ← s.enterBlock .blockMappingStart
    return ({ s with keyAllowed := !s.inFlow }.emit .value).skip 1

/-- A token inside a line that may begin a key. -/
def fetchInline (s : Lexer) (read : Cursor → Option (Token × Cursor)) : Option Lexer := do
  let s ← s.noteCandidate
  let (token, c) ← read s.cursor
  return { s with keyAllowed := false, cursor := c }.emit token

/-- A quoted scalar. -/
def fetchQuoted (s : Lexer) (single : Bool) : Option Lexer :=
  s.fetchInline fun c => do
    let (text, c) ← readQuoted single (c.rest.length + 1) (c.skip 1) []
    return (.scalar (String.ofList text) false, c)

/-- A plain scalar. A key may begin on a new line after it. -/
def fetchPlain (s : Lexer) : Option Lexer := do
  let s ← s.noteCandidate
  let c := s.cursor
  let (text, c, newLine) ← readPlain s.inFlow s.margin (2 * c.rest.length + 1) c none []
  return { s with keyAllowed := newLine, cursor := c }.emit (.scalar (String.ofList text) true)

/-- A block scalar. A key may begin after it. -/
def fetchBlockScalar (s : Lexer) (folded : Bool) : Option Lexer := do
  let s ← s.dropCandidate
  let (text, c) ← readBlock folded s.blocks.head? (s.cursor.skip 1)
  return { s with keyAllowed := true, cursor := c }.emit (.scalar (String.ofList text) false)

/-- A character that may have a meaning of its own where a token begins. -/
def isIndicator (c : Char) : Bool :=
  "-?:,[]#&*!|>\"%@\x60".toList.contains c || c == '\x7b' || c == '\x7d' || c == '\x27'

/-- Whether a plain scalar begins here. A blank cannot begin one, and some indicators can if no
blank follows them. -/
def atPlain (s : Lexer) (ch : Char) : Bool :=
  !(isIndicator ch || isBlank ch)
    || (ch == '-' && !s.cursor.has 1 isBlank)
    || (!s.inFlow && (ch == '?' || ch == ':') && !s.cursor.endsWord 1)

/-- The lexer after the next token, which begins with `ch`. -/
def fetch (s : Lexer) (ch : Char) : Option Lexer :=
  let c := s.cursor
  let alone := s.inFlow || c.endsWord 1
  if c.column = 0 ∧ ch = '%' then s.fetchDirective
  else if c.atMark '-' then s.fetchMark .documentStart
  else if c.atMark '.' then s.fetchMark .documentEnd
  else if ch = '[' then s.fetchFlowStart .flowSequenceStart
  else if ch = '\x7b' then s.fetchFlowStart .flowMappingStart
  else if ch = ']' then s.fetchFlowEnd .flowSequenceEnd
  else if ch = '\x7d' then s.fetchFlowEnd .flowMappingEnd
  else if ch = ',' then s.fetchFlowEntry
  else if ch = '-' ∧ c.endsWord 1 then s.fetchBlockEntry
  else if ch = '?' ∧ alone then s.fetchKey
  else if ch = ':' ∧ alone then s.fetchValue
  else if ch = '*' then
    s.fetchInline fun c => (readName (c.skip 1)).map fun (name, c) => (.aliasOf name, c)
  else if ch = '&' then
    s.fetchInline fun c => (readName (c.skip 1)).map fun (name, c) => (.anchor name, c)
  else if ch = '!' then s.fetchInline (readTag s.inFlow)
  else if ch = '|' ∧ !s.inFlow then s.fetchBlockScalar false
  else if ch = '>' ∧ !s.inFlow then s.fetchBlockScalar true
  else if ch = '\x27' then s.fetchQuoted true
  else if ch = '"' then s.fetchQuoted false
  else if s.atPlain ch then s.fetchPlain
  else none

/-- All tokens from here on. The fuel bounds their number. -/
def run (fuel : Nat) (s : Lexer) : Option (List Token) :=
  match fuel with
  | 0 => none
  | fuel + 1 => do
    let s ← (s.skipToToken (s.cursor.rest.length + 1)).dropStale
    match s.cursor.rest with
    | [] =>
      let s ← (s.closeBlocks fun _ => true).dropCandidate
      return s.tokens.reverse
    | ch :: _ =>
      let s := s.closeBlocks fun column => s.cursor.column < column
      run fuel (← s.fetch ch)

end Lexer

/-- The tokens of a text, if all its characters are allowed and its tokens are well-formed. -/
def Token.ofText? (text : String) : Option (List Token) :=
  let chars := text.toList
  if chars.all isAllowed then Lexer.run (chars.length + 1) { cursor := { rest := chars } } else none

end ClientGen.Yaml
