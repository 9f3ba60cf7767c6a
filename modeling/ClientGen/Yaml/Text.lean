import ClientGen.Yaml.Cursor

/-!
# Scalars in YAML text

Reading the text of a scalar in each of its styles. Line breaks inside a flow scalar are folded: one
is a blank, and of several the first is dropped. Inside a block scalar only the folded style does
so, and not next to lines that are indented further.
-/

namespace ClientGen.Yaml

/-! ### Gaps -/

/-- Blanks and line breaks between two parts of a flow scalar. -/
structure Gap where
  /-- Blanks before the first line break. -/
  blanks : List Char := []
  /-- What the line breaks stand for. -/
  breaks : List Char := []
  /-- Whether the first line break was escaped, which takes it away. -/
  escaped : Bool := false

/-- Whether a gap reaches over more than one line. -/
def Gap.isBroken (gap : Gap) : Bool :=
  gap.escaped || !gap.breaks.isEmpty

/-- The text that a gap stands for. -/
def Gap.text (gap : Gap) : List Char :=
  if gap.escaped then gap.breaks
  else
    match gap.breaks with
    | [] => gap.blanks
    | '\n' :: [] => [' ']
    | '\n' :: more => more
    | breaks => breaks

/-- The gap that begins here, and the place after it. A tab before the column `margin` on a new line
is a fault. The fuel bounds the length of the gap. -/
def readGap (margin : Nat) (fuel : Nat) (c : Cursor) (gap : Gap) : Option (Gap × Cursor) :=
  match fuel, c.rest with
  | fuel + 1, ch :: _ =>
    if isBlank ch then
      if gap.isBroken then
        if ch = '\t' ∧ c.column < margin then none else readGap margin fuel (c.skip 1) gap
      else readGap margin fuel (c.skip 1) { gap with blanks := gap.blanks ++ [ch] }
    else if isBreak ch then
      readGap margin fuel c.skipBreak { gap with breaks := gap.breaks ++ c.breakText }
    else some (gap, c)
  | _, _ => some (gap, c)

/-! ### Quoted scalars -/

/-- The value of a hexadecimal digit. -/
def hexDigit? (c : Char) : Option Nat :=
  if c.isDigit then some (c.toNat - '0'.toNat)
  else if 'a' ≤ c ∧ c ≤ 'f' then some (c.toNat - 'a'.toNat + 10)
  else if 'A' ≤ c ∧ c ≤ 'F' then some (c.toNat - 'A'.toNat + 10)
  else none

/-- The character whose code is written by the next so many hexadecimal digits. -/
def hexCode? (digits : Nat) (text : List Char) : Option Char :=
  if text.length < digits then none
  else do
    let values ← (text.take digits).mapM hexDigit?
    let code := values.foldl (fun n d => 16 * n + d) 0
    if code < 0xD800 ∨ (0xDFFF < code ∧ code ≤ 0x10FFFF) then return Char.ofNat code else none

/-- The character that an escape of one letter stands for. -/
def escaped? : Char → Option Char
  | '0' => some '\x00'
  | 'a' => some '\x07'
  | 'b' => some '\x08'
  | 't' => some '\t'
  | '\t' => some '\t'
  | 'n' => some '\n'
  | 'v' => some '\x0b'
  | 'f' => some '\x0c'
  | 'r' => some '\r'
  | 'e' => some '\x1b'
  | ' ' => some ' '
  | '"' => some '"'
  | '/' => some '/'
  | '\\' => some '\\'
  | 'N' => some '\x85'
  | '_' => some '\xa0'
  | 'L' => some '\u2028'
  | 'P' => some '\u2029'
  | _ => none

/-- How many hexadecimal digits follow the letter of an escape. -/
def escapeDigits? : Char → Option Nat
  | 'x' => some 2
  | 'u' => some 4
  | 'U' => some 8
  | _ => none

/-- A quoted scalar after its opening quote, and the place after it. `out` is what is read so far,
the latest character first. The fuel bounds the length of the scalar. -/
def readQuoted (single : Bool) (fuel : Nat) (c : Cursor) (out : List Char) :
    Option (List Char × Cursor) :=
  match fuel with
  | 0 => none
  | fuel + 1 =>
    if c.atDocumentMark then none
    else
      match c.rest with
      | [] => none
      | ch :: more =>
        if single && ch == '\x27' then
          if c.has 1 (· == '\x27') then readQuoted single fuel (c.skip 2) ('\x27' :: out)
          else some (out.reverse, c.skip 1)
        else if !single && ch == '"' then some (out.reverse, c.skip 1)
        else if !single && ch == '\\' then
          match more with
          | [] => none
          | e :: text =>
            if isBreak e then do
              let (gap, c) ← readGap 0 text.length (c.skip 1).skipBreak ⟨[], [], true⟩
              readQuoted single fuel c (gap.text.reverse ++ out)
            else
              match escapeDigits? e with
              | some digits => do
                let code ← hexCode? digits text
                readQuoted single fuel (c.skip (2 + digits)) (code :: out)
              | none => do
                let code ← escaped? e
                readQuoted single fuel (c.skip 2) (code :: out)
        else if isBlank ch || isBreak ch then do
          let (gap, c) ← readGap 0 (more.length + 1) c {}
          readQuoted single fuel c (gap.text.reverse ++ out)
        else readQuoted single fuel (c.skip 1) (ch :: out)

/-! ### Plain scalars -/

/-- An indicator of the flow style that ends a plain scalar inside of it. -/
def isFlowIndicator (c : Char) : Bool :=
  c == ',' || c == '[' || c == ']' || c == '\x7b' || c == '\x7d'

/-- A plain scalar, the place after it and whether that is on a new line. `gap` is what lies between
here and what is read so far (`out`, the latest character first). Lines of a scalar outside of flow
style begin at the column `margin` or after it. The fuel bounds the length of the scalar. -/
def readPlain (flow : Bool) (margin : Nat) (fuel : Nat) (c : Cursor) (gap : Option Gap)
    (out : List Char) : Option (List Char × Cursor × Bool) :=
  let stop := some (out.reverse, c, gap.any Gap.isBroken)
  match fuel with
  | 0 => none
  | fuel + 1 =>
    match c.rest with
    | [] => stop
    | ch :: more =>
      if isBlank ch || isBreak ch then do
        let (gap, c) ← readGap margin (more.length + 1) c {}
        if !flow && c.column < margin then some (out.reverse, c, gap.isBroken)
        else readPlain flow margin fuel c (some gap) out
      else if gap.isSome && (c.atDocumentMark || ch == '#') then stop
      else if flow && ch == ':' && c.has 1 fun next => isFlowIndicator next || next == '?' then none
      else if (ch == ':' && c.endsWord 1) || (flow && isFlowIndicator ch) then stop
      else
        let between := (gap.map Gap.text).getD []
        readPlain flow margin fuel (c.skip 1) none (ch :: (between.reverse ++ out))

/-! ### Block scalars -/

/-- What becomes of the line breaks at the end of a block scalar. -/
inductive Chomping
  | strip
  | clip
  | keep
deriving DecidableEq

/-- The chomping that a character asks for. -/
def Chomping.ofChar? : Char → Option Chomping
  | '+' => some .keep
  | '-' => some .strip
  | _ => none

/-- The header of a block scalar after its first character: chomping and indentation in either
order. An indentation of zero is a fault. -/
def readHeader (c : Cursor) : Option (Chomping × Nat × Cursor) :=
  let chomping := fun (c : Cursor) =>
    match c.rest.head?.bind Chomping.ofChar? with
    | some kind => (kind, c.skip 1)
    | none => (.clip, c)
  let digit := fun (c : Cursor) =>
    match c.rest with
    | ch :: _ =>
      if ch = '0' then none
      else if ch.isDigit then some (ch.toNat - '0'.toNat, c.skip 1)
      else some (0, c)
    | [] => some (0, c)
  if (c.rest.head?.bind Chomping.ofChar?).isSome then do
    let (kind, c) := chomping c
    let (indent, c) ← digit c
    return (kind, indent, c)
  else do
    let (indent, c) ← digit c
    if indent = 0 then return (.clip, 0, c)
    else
      let (kind, c) := chomping c
      return (kind, indent, c)

/-- Indentation and empty lines: what their breaks stand for, the greatest column reached, and the
place after them. `indent` is the indentation of the scalar, or zero if it is not known yet. The
fuel bounds the number of lines. -/
def readEmptyLines (indent : Nat) (fuel : Nat) (c : Cursor) (breaks : List Char) (widest : Nat) :
    Option (List Char × Nat × Cursor) :=
  match fuel with
  | 0 => none
  | fuel + 1 =>
    let margin := (c.rest.takeWhile (· == ' ')).length
    let c := c.skip (if indent = 0 then margin else min margin (indent - c.column))
    let widest := max widest c.column
    if (indent = 0 ∨ c.column < indent) ∧ c.has 0 (· == '\t') then none
    else if c.has 0 isBreak then
      readEmptyLines indent fuel c.skipBreak (breaks ++ c.breakText) widest
    else some (breaks, widest, c)

/-- The lines of a block scalar at the indentation `indent`. `last` is what the latest line break
stands for, `empty` what those of the empty lines after it stand for, and `further` says whether the
latest line begins with a blank. The result is the text, the last two as they are then, and the
place after the scalar. The fuel bounds the number of lines. -/
def readLines (folded : Bool) (indent : Nat) (fuel : Nat) (c : Cursor) (last empty : List Char)
    (further : Bool) (out : List Char) : Option (List Char × List Char × List Char × Cursor) :=
  match fuel with
  | 0 => none
  | fuel + 1 =>
    match c.rest with
    | [] => some (out, last, empty, c)
    | ch :: _ =>
      if c.column ≠ indent then some (out, last, empty, c)
      else do
        let blank := isBlank ch
        let joint :=
          if folded && last.head? == some '\n' && !further && !blank then
            if empty.isEmpty then [' '] else empty
          else last ++ empty
        let (line, c) := c.span (!isBreak ·)
        let last := c.breakText
        let c := if c.rest.isEmpty then c else c.skipBreak
        let (empty, _, c) ← readEmptyLines indent (c.rest.length + 1) c [] 0
        readLines folded indent fuel c last empty blank (out ++ joint ++ line)

/-- A block scalar after its first character, inside a block that is indented by `parent` if there
is one, and the place after it. -/
def readBlock (folded : Bool) (parent : Option Nat) (c : Cursor) : Option (List Char × Cursor) := do
  let (chomping, increment, c) ← readHeader c
  let c ← c.skipRestOfLine
  let given := if increment = 0 then 0 else parent.getD 0 + increment
  let (empty, widest, c) ← readEmptyLines given (c.rest.length + 1) c [] 0
  let least := match parent with
    | some n => n + 1
    | none => 1
  let indent := if given = 0 then max widest least else given
  let (text, last, empty, c) ← readLines folded indent (c.rest.length + 1) c [] empty false []
  let ending := match chomping with
    | .strip => []
    | .clip => last
    | .keep => last ++ empty
  return (text ++ ending, c)

end ClientGen.Yaml
