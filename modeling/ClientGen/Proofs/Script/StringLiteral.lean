import ClientGen.Json.Parser
import ClientGen.Proofs.Script.Nesting

/-!
# String literals

The whole grammar of string literals between double quotes, as strict scripts have it: escapes of
one character, of two or four hexadecimal digits or of any number of them in braces, and lines that
are continued. The value of a literal is a sequence of UTF-16 code units, which no two texts share
(`units_injective`). The literal that a text is quoted as ends where its closing quote is, whatever
follows, and its value is the text (`literal?_quote`). So a property key stands for the name that it
was made from (`keyUnits?_key`).
-/

namespace ClientGen.Script

/-! ### Code units -/

/-- The code units of a code point: one, or a surrogate pair if it does not fit one. -/
def codeUnits (code : Nat) : List Nat :=
  if code < 0x10000 then [code]
  else [0xD800 + (code - 0x10000) / 0x400, 0xDC00 + (code - 0x10000) % 0x400]

/-- The code units of characters. -/
def unitsOfChars (text : List Char) : List Nat :=
  text.flatMap fun c => codeUnits c.toNat

/-- The code units of a text. -/
def units (text : String) : List Nat :=
  unitsOfChars text.toList

/-- A character is no half of a surrogate pair. -/
private theorem toNat_bounds (c : Char) :
    c.toNat < 0xD800 ∨ 0xDFFF < c.toNat ∧ c.toNat < 0x110000 :=
  c.valid

/-- The first code units of a text tell its first character. -/
private theorem codeUnits_append_inj {c d : Char} {left right : List Nat}
    (h : codeUnits c.toNat ++ left = codeUnits d.toNat ++ right) : c = d ∧ left = right := by
  have hc := toNat_bounds c
  have hd := toNat_bounds d
  rw [← Char.toNat_inj]
  -- A unit on its own is no half of a pair, so both characters have as many units.
  unfold codeUnits at h
  split_ifs at h <;> simp only [List.cons_append, List.nil_append, List.cons.injEq] at h
  · exact h
  · omega
  · omega
  · exact ⟨by omega, h.2.2⟩

private theorem codeUnits_ne_nil (code : Nat) : codeUnits code ≠ [] := by
  unfold codeUnits
  split_ifs <;> exact List.cons_ne_nil _ _

/-- Characters can be told from their code units. -/
private theorem unitsOfChars_injective : Function.Injective unitsOfChars := by
  intro text other h
  induction text generalizing other with
  | nil =>
    cases other with
    | nil => rfl
    | cons d rest =>
      exact absurd (List.append_eq_nil_iff.mp h.symm).1 (codeUnits_ne_nil d.toNat)
  | cons c rest ih =>
    cases other with
    | nil => exact absurd (List.append_eq_nil_iff.mp h).1 (codeUnits_ne_nil c.toNat)
    | cons d rest' =>
      rw [unitsOfChars, unitsOfChars, List.flatMap_cons, List.flatMap_cons] at h
      obtain ⟨rfl, hrest⟩ := codeUnits_append_inj h
      rw [ih hrest]

/-- No two texts have the same code units. -/
theorem units_injective : Function.Injective units :=
  fun _ _ h => String.toList_inj.mp (unitsOfChars_injective h)

namespace StringLiteral

/-! ### The grammar -/

/-- Where in a literal a reader is. -/
inductive Mode
  | plain
  /-- After a backslash. -/
  | escape
  /-- After the escape of the character zero, which no digit may follow. -/
  | zero
  /-- After a line that is continued behind a carriage return, to which a line feed belongs. -/
  | continued
  /-- In an escape of hexadecimal digits, with the value of those before and how many there are
  after the next. -/
  | digits (more value : Nat)
  /-- Where an escape of four digits or one in braces begins. -/
  | unicode
  /-- In an escape in braces, with the value of its digits if there are any. -/
  | braced (value : Option Nat)

/-- What a character in a literal does. -/
inductive Step
  | close
  | read (units : List Nat) (mode : Mode)

/-- A character that is not escaped. A line ends no literal, it breaks it. -/
def plainStep (c : Char) : Option Step :=
  if c = '"' then some .close
  else if c = '\\' then some (.read [] .escape)
  else if c = '\n' ∨ c = '\r' then none
  else some (.read (codeUnits c.toNat) .plain)

/-- The code unit of an escape of one letter. -/
def letterUnit? : Char → Option Nat
  | 'b' => some 0x08
  | 't' => some 0x09
  | 'n' => some 0x0A
  | 'v' => some 0x0B
  | 'f' => some 0x0C
  | 'r' => some 0x0D
  | _ => none

/-- A character after a backslash. One that has no meaning there stands for itself. -/
def escapeStep (c : Char) : Option Step :=
  match letterUnit? c with
  | some unit => some (.read [unit] .plain)
  | none =>
    if c = 'x' then some (.read [] (.digits 1 0))
    else if c = 'u' then some (.read [] .unicode)
    else if c = '0' then some (.read [0] .zero)
    else if c.isDigit then none
    else if c = '\r' then some (.read [] .continued)
    else if c = '\n' ∨ c = '\u2028' ∨ c = '\u2029' then some (.read [] .plain)
    else some (.read (codeUnits c.toNat) .plain)

/-- A hexadecimal digit in an escape with a fixed number of them. -/
def digitStep (more value : Nat) (c : Char) : Option Step :=
  (Json.hexDigit? c).map fun digit =>
    match more with
    | 0 => .read (codeUnits (16 * value + digit)) .plain
    | more + 1 => .read [] (.digits more (16 * value + digit))

/-- A hexadecimal digit in an escape in braces, or the brace at its end. -/
def bracedStep (value : Option Nat) (c : Char) : Option Step :=
  if c = '}' then value.map fun code => .read (codeUnits code) .plain
  else
    (Json.hexDigit? c).bind fun digit =>
      let code := 16 * value.getD 0 + digit
      if code < 0x110000 then some (.read [] (.braced (some code))) else none

/-- What the next character does, if it may stand there. -/
def step : Mode → Char → Option Step
  | .plain, c => plainStep c
  | .escape, c => escapeStep c
  | .zero, c => if c.isDigit then none else plainStep c
  | .continued, c => if c = '\n' then some (.read [] .plain) else plainStep c
  | .digits more value, c => digitStep more value c
  | .unicode, c => if c = '{' then some (.read [] (.braced none)) else digitStep 3 0 c
  | .braced value, c => bracedStep value c

/-- Further code units in front of those that are read. -/
def prepend (units : List Nat) (result : List Nat × List Char) : List Nat × List Char :=
  (units ++ result.1, result.2)

/-- The code units up to the closing quote, and the text after it. -/
def body : Mode → List Char → Option (List Nat × List Char)
  | _, [] => none
  | mode, c :: rest =>
    match step mode c with
    | none => none
    | some .close => some ([], rest)
    | some (.read units next) => (body next rest).map (prepend units)

end StringLiteral

open StringLiteral

/-- The value of the string literal at the start of a text, and the text after it. -/
def literal? : List Char → Option (List Nat × List Char)
  | '"' :: rest => body .plain rest
  | _ => none

namespace StringLiteral

/-! ### Quoted texts -/

theorem map_prepend_nil (result : Option (List Nat × List Char)) :
    result.map (prepend []) = result := by
  rcases result with _ | _ <;> rfl

/-- One character makes its step, and the rest is read in the mode that is reached. -/
theorem body_cons {mode next : Mode} {c : Char} {units : List Nat}
    (h : step mode c = some (.read units next)) (rest : List Char) :
    body mode (c :: rest) = (body next rest).map (prepend units) := by
  rw [body, h]

/-- A backslash and a character behind it are read as one. -/
theorem body_escape {c : Char} {units : List Nat}
    (h : escapeStep c = some (.read units .plain)) (rest : List Char) :
    body .plain ('\\' :: c :: rest) = (body .plain rest).map (prepend units) := by
  have hopen : step .plain '\\' = some (.read [] .escape) := rfl
  have hescape : step .escape c = some (.read units .plain) := h
  rw [body_cons hopen, body_cons hescape, map_prepend_nil]

/-- One escaped character adds its code units to a literal. -/
theorem body_escapeChar (c : Char) (rest : List Char) :
    body .plain (Quoted.escapeChar c ++ rest) =
      (body .plain rest).map (prepend (codeUnits c.toNat)) := by
  -- Five characters are written behind a backslash, and all others as they are.
  unfold Quoted.escapeChar
  split
  · exact body_escape rfl rest
  · exact body_escape rfl rest
  · exact body_escape rfl rest
  · exact body_escape rfl rest
  · exact body_escape rfl rest
  next hbackslash hquote hline hreturn _ =>
    refine body_cons ?_ rest
    rw [step, plainStep, if_neg hquote, if_neg hbackslash, if_neg (not_or.mpr ⟨hline, hreturn⟩)]

/-- Escaped characters are read back as their code units. -/
theorem body_escapeChars (text rest : List Char) :
    body .plain (Quoted.escapeChars text ++ rest) =
      (body .plain rest).map (prepend (unitsOfChars text)) := by
  induction text with
  | nil =>
    rw [Quoted.escapeChars, unitsOfChars, List.flatMap_nil, List.flatMap_nil, List.nil_append,
      map_prepend_nil]
  | cons c text ih =>
    rw [Quoted.escapeChars, List.flatMap_cons, List.append_assoc, body_escapeChar,
      ← Quoted.escapeChars, ih, Option.map_map, unitsOfChars, unitsOfChars, List.flatMap_cons]
    refine congrArg (Option.map · _) (funext fun result => ?_)
    rw [Function.comp_apply, prepend, prepend, prepend, List.append_assoc]

end StringLiteral

/-- **Quoted texts.** Whatever follows the literal of a text, it is read up to its closing quote,
and its value is the text. -/
theorem literal?_quote (text : String) (rest : List Char) :
    literal? ((Quoted.quote text).toList ++ rest) = some (units text, rest) := by
  have hclose : body .plain ('"' :: rest) = some ([], rest) := rfl
  rw [Lexer.toList_quote, List.cons_append, literal?, List.append_assoc, List.singleton_append,
    body_escapeChars, hclose, Option.map_some, prepend, List.append_nil, units]

theorem literal?_quote_nil (text : String) :
    literal? (Quoted.quote text).toList = some (units text, []) := by
  have h := literal?_quote text []
  rwa [List.append_nil] at h

/-! ### Property keys -/

/-- Whether a text is an identifier of ASCII characters. -/
def isIdentifierName (text : String) : Bool :=
  match text.toList with
  | [] => false
  | c :: rest =>
    (Identifier.isStart c || c == '$') && rest.all fun d => Identifier.isPart d || d == '$'

/-- The code units of the name that a property key stands for: an identifier for itself, and a
string literal that is the whole key for its value. -/
def keyUnits? (written : String) : Option (List Nat) :=
  if isIdentifierName written then some (units written)
  else
    match literal? written.toList with
    | some (value, []) => some value
    | _ => none

/-- The names that need no quotes are the identifiers. -/
theorem isIdentifierName_eq (name : String) : isIdentifierName name = !Quoted.needsQuotes name := by
  rw [isIdentifierName, Quoted.needsQuotes]
  rcases name.toList with _ | ⟨c, rest⟩
  · rfl
  · exact (Bool.not_not _).symm

/-- No literal is an identifier. -/
theorem isIdentifierName_quote (text : String) : isIdentifierName (Quoted.quote text) = false := by
  rw [isIdentifierName, Lexer.toList_quote]
  rfl

/-- A key is an identifier, which is the name, or a literal with the name as its value. -/
theorem key_eq_or (name : String) :
    (isIdentifierName (Quoted.key name) = true ∧ Quoted.key name = name) ∨
      (isIdentifierName (Quoted.key name) = false ∧
        literal? (Quoted.key name).toList = some (units name, [])) := by
  rcases hquotes : Quoted.needsQuotes name with _ | _
  · have hkey : Quoted.key name = name := by rw [Quoted.key, hquotes, if_neg Bool.false_ne_true]
    rw [hkey, isIdentifierName_eq, hquotes]
    exact Or.inl ⟨rfl, rfl⟩
  · have hkey : Quoted.key name = Quoted.quote name := by rw [Quoted.key, if_pos hquotes]
    rw [hkey]
    exact Or.inr ⟨isIdentifierName_quote name, literal?_quote_nil name⟩

/-- **Property keys.** A key stands for the name that it was made from. -/
theorem keyUnits?_key (name : String) : keyUnits? (Quoted.key name) = some (units name) := by
  rw [keyUnits?]
  rcases key_eq_or name with ⟨hidentifier, hkey⟩ | ⟨hidentifier, hliteral⟩
  · rw [if_pos hidentifier, hkey]
  · rw [if_neg (Bool.eq_false_iff.mp hidentifier), hliteral]

/-- Keys of different names stand for different names. -/
theorem keyUnits?_key_inj {name other : String} :
    keyUnits? (Quoted.key name) = keyUnits? (Quoted.key other) ↔ name = other := by
  rw [keyUnits?_key, keyUnits?_key, Option.some_inj, units_injective.eq_iff]

/-- **Quoting.** The literal of a text is read as one literal with that value, whatever follows it.
The property key of a name is the name itself, as an identifier, or a literal with that value, and
keys of different names stand for different names. The key of an optional property is one literal
with the name and a question mark as its value. -/
theorem quoting_reads (text : String) :
    (∀ rest, literal? ((Quoted.quote text).toList ++ rest) = some (units text, rest)) ∧
      ((isIdentifierName (Quoted.key text) = true ∧ Quoted.key text = text) ∨
        literal? (Quoted.key text).toList = some (units text, [])) ∧
      (∀ other, keyUnits? (Quoted.key text) = keyUnits? (Quoted.key other) ↔ text = other) ∧
      literal? (Quoted.optionalKey (Quoted.key text)).toList = some (units (text ++ "?"), []) := by
  refine ⟨literal?_quote text, (key_eq_or text).imp_right And.right,
    fun _ => keyUnits?_key_inj, ?_⟩
  rw [Lexer.optionalKey_key]
  exact literal?_quote_nil (text ++ "?")

/-- A literal with escapes of all kinds: `\x41`, `\u{1F600}`, `\0`, a continued line and a quote. -/
example : literal? "\"\\x41\\u\x7b1F600\x7d\\0\\\n\\\"\" rest".toList =
    some ([0x41, 0xD83D, 0xDE00, 0, 0x22], " rest".toList) := by
  decide

end ClientGen.Script
