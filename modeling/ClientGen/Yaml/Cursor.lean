/-!
# Places in YAML text

A place in a text with its line and column, and the classes of characters that the grammar of tokens
is made of. A line break is a line feed, a carriage return, both in a row, a next line character or
a line or paragraph separator; all but the separators stand for a line feed.
-/

namespace ClientGen.Yaml

/-! ### Characters -/

/-- A character that a stream may hold. -/
def isAllowed (c : Char) : Bool :=
  let n := c.toNat
  n == 0x09 || n == 0x0A || n == 0x0D || (0x20 ≤ n && n ≤ 0x7E) || n == 0x85
    || (0xA0 ≤ n && n ≤ 0xFFFD) || 0x10000 ≤ n

/-- A blank inside a line. -/
def isBlank (c : Char) : Bool :=
  c == ' ' || c == '\t'

/-- A character that begins a line break. -/
def isBreak (c : Char) : Bool :=
  c == '\n' || c == '\r' || c == '\x85' || c == '\u2028' || c == '\u2029'

/-- A character of a word: an anchor, a tag handle or the name of a directive. -/
def isWord (c : Char) : Bool :=
  c.isAlphanum || c == '_' || c == '-'

/-- The byte order mark. -/
def byteOrderMark : Char := '\ufeff'

/-! ### Places -/

/-- A place in a text. -/
structure Cursor where
  /-- The text from here on. -/
  rest : List Char
  /-- How many characters are before this place. -/
  index : Nat := 0
  line : Nat := 0
  column : Nat := 0

namespace Cursor

/-- The place so many characters on, none of which is a line break. -/
def skip (c : Cursor) (n : Nat) : Cursor :=
  ⟨c.rest.drop n, c.index + n, c.line, c.column + n⟩

/-- The place after the line break that begins here. -/
def skipBreak (c : Cursor) : Cursor :=
  match c.rest with
  | '\r' :: '\n' :: rest => ⟨rest, c.index + 2, c.line + 1, 0⟩
  | _ :: rest => ⟨rest, c.index + 1, c.line + 1, 0⟩
  | [] => c

/-- What the line break that begins here stands for; at the end of the text, nothing. -/
def breakText (c : Cursor) : List Char :=
  match c.rest with
  | ch :: _ =>
    if ch = '\u2028' ∨ ch = '\u2029' then [ch] else if isBreak ch then ['\n'] else []
  | [] => []

/-- The characters from here on that satisfy a test, and the place after them. None of them is a
line break. -/
def span (c : Cursor) (test : Char → Bool) : List Char × Cursor :=
  let run := c.rest.takeWhile test
  (run, c.skip run.length)

/-- The place after the characters that satisfy a test. -/
def skipWhile (c : Cursor) (test : Char → Bool) : Cursor :=
  (c.span test).2

/-- Whether a character so many places on satisfies a test. -/
def has (c : Cursor) (n : Nat) (test : Char → Bool) : Bool :=
  (c.rest[n]?).any test

/-- Whether a blank, a line break or the end of the text is so many places on. -/
def endsWord (c : Cursor) (n : Nat) : Bool :=
  (c.rest[n]?).all fun ch => isBlank ch || isBreak ch

/-- Whether a mark between documents stands here: three equal characters at the start of a line. -/
def atMark (c : Cursor) (ch : Char) : Bool :=
  c.column == 0 && c.has 0 (· == ch) && c.has 1 (· == ch) && c.has 2 (· == ch) && c.endsWord 3

/-- Whether the start or the end of a document is marked here. -/
def atDocumentMark (c : Cursor) : Bool :=
  c.atMark '-' || c.atMark '.'

/-- The place at the end of the line, if nothing but blanks and a comment is before it. -/
def skipRestOfLine (c : Cursor) : Option Cursor :=
  let c := c.skipWhile isBlank
  let c := if c.has 0 (· == '#') then c.skipWhile (!isBreak ·) else c
  match c.rest with
  | [] => some c
  | ch :: _ => if isBreak ch then some c.skipBreak else none

end Cursor

end ClientGen.Yaml
