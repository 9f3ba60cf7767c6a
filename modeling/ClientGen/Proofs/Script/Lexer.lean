import ClientGen.Literal
import ClientGen.Proofs.Identifier
import ClientGen.Text.Join
import ClientGen.Text.Quoted
import Mathlib.Data.List.Basic

/-!
# Tokens of a script

The lexical grammar of what the generator writes: words, string literals between double quotes,
numbers, and punctuation, with blanks, line breaks and comments between them. The lexer reads one
character after another in one of a few modes, and the mode and the tokens so far are all that it
keeps (`Lexer.run_append`). A quoted text is one token whatever it contains (`run_quote`), because
escaping leaves no quote, backslash or line break by itself. A name that needs no quotes is one
word, and a numeral one number, unless what follows belongs to it too (`reads_word`,
`reads_number`).
-/

namespace ClientGen.Script

/-- A token. A string literal is known by its value. -/
inductive Token
  | word (text : String)
  | string (value : String)
  | number (text : String)
  | mark (symbol : Char)
deriving DecidableEq, Repr

namespace Lexer

/-- What is being read, with the characters of a token that is not over yet, the latest first. -/
inductive Mode
  | idle
  | word (read : List Char)
  | number (read : List Char)
  | string (read : List Char)
  /-- In a string literal, after a backslash. -/
  | escape (read : List Char)
  /-- After a slash that may begin a comment. -/
  | slash
  | comment
deriving DecidableEq, Repr

/-- The characters that are tokens by themselves. -/
def marks : List Char :=
  "()[]\x7b\x7d<>.,;:?|&=+-*".toList

/-- The characters that end a comment. -/
def lineEnds : List Char :=
  ['\n', '\r', '\u2028', '\u2029']

/-- The character that an escape stands for. -/
def unescape? : Char → Option Char
  | 'n' => some '\n'
  | 'r' => some '\r'
  | 't' => some '\t'
  | '\\' => some '\\'
  | '"' => some '"'
  | _ => none

/-- A character that belongs to no earlier token. -/
def start (c : Char) : Option (List Token × Mode) :=
  if c = ' ' ∨ c = '\n' then some ([], .idle)
  else if c = '"' then some ([], .string [])
  else if c = '/' then some ([], .slash)
  else if Quoted.isKeyStart c then some ([], .word [c])
  else if c.isDigit then some ([], .number [c])
  else if c ∈ marks then some ([.mark c], .idle)
  else none

/-- What is read after further tokens that are over. -/
def prepend (tokens : List Token) (result : List Token × Mode) : List Token × Mode :=
  (tokens ++ result.1, result.2)

/-- A character that belongs to no earlier token, after one that is over now. -/
def startAfter (token : Token) (c : Char) : Option (List Token × Mode) :=
  (start c).map (prepend [token])

/-- The tokens that are over with one more character, and the mode after it. -/
def next : Mode → Char → Option (List Token × Mode)
  | .idle, c => start c
  | .word read, c =>
    if Quoted.isKeyPart c then some ([], .word (c :: read))
    else startAfter (.word (String.ofList read.reverse)) c
  | .number read, c =>
    if c.isDigit || c == '.' then some ([], .number (c :: read))
    else startAfter (.number (String.ofList read.reverse)) c
  | .string read, c =>
    if c = '"' then some ([.string (String.ofList read.reverse)], .idle)
    else if c = '\\' then some ([], .escape read)
    else if c = '\n' ∨ c = '\r' then none
    else some ([], .string (c :: read))
  | .escape read, c => (unescape? c).map fun d => ([], .string (d :: read))
  | .slash, c => if c = '/' then some ([], .comment) else none
  | .comment, c => some ([], if c ∈ lineEnds then .idle else .comment)

/-- The last token at the end of a text. A string literal cannot end there. -/
def finish : Mode → Option (List Token)
  | .idle => some []
  | .word read => some [.word (String.ofList read.reverse)]
  | .number read => some [.number (String.ofList read.reverse)]
  | .comment => some []
  | .string _ => none
  | .escape _ => none
  | .slash => none

/-- The tokens that are over after a text, and the mode at its end. -/
def run : Mode → List Char → Option (List Token × Mode)
  | mode, [] => some ([], mode)
  | mode, c :: rest =>
    (next mode c).bind fun step => (run step.2 rest).map (prepend step.1)

/-- The tokens of a text that begins in some mode. -/
def scan (mode : Mode) (text : List Char) : Option (List Token) :=
  (run mode text).bind fun result => (finish result.2).map (result.1 ++ ·)

end Lexer

open Lexer

/-- The tokens of a text. -/
def tokens? (text : String) : Option (List Token) :=
  scan .idle text.toList

namespace Lexer

/-! ### One text after another -/

theorem map_prepend_nil (result : Option (List Token × Mode)) :
    result.map (prepend []) = result := by
  rcases result with _ | _ <;> rfl

/-- One character makes its step, and the rest is read in the mode that is reached. -/
theorem run_cons {mode middle : Mode} {c : Char} {tokens : List Token}
    (h : next mode c = some (tokens, middle)) (rest : List Char) :
    run mode (c :: rest) = (run middle rest).map (prepend tokens) := by
  rw [run, h, Option.bind_some]

theorem run_append {mode middle : Mode} {first : List Char} {tokens : List Token}
    (h : run mode first = some (tokens, middle)) (second : List Char) :
    run mode (first ++ second) = (run middle second).map (prepend tokens) := by
  induction first generalizing mode tokens with
  | nil =>
    cases h
    rw [List.nil_append, map_prepend_nil]
  | cons c rest ih =>
    obtain ⟨⟨now, between⟩, hnext, hrest⟩ := Option.bind_eq_some_iff.mp h
    obtain ⟨⟨more, last⟩, hrun, heq⟩ := Option.map_eq_some_iff.mp hrest
    cases heq
    have hboth (result : List Token × Mode) :
        prepend now (prepend more result) = prepend (now ++ more) result := by
      rw [prepend, prepend, prepend, List.append_assoc]
    rw [List.cons_append, run_cons hnext, ih hrun, Option.map_map]
    exact congrArg (Option.map · _) (funext hboth)

/-- The tokens of a text are followed by those of the rest. -/
theorem scan_append {mode middle : Mode} {first : List Char} {tokens : List Token}
    (h : run mode first = some (tokens, middle)) (second : List Char) :
    scan mode (first ++ second) = (scan middle second).map (tokens ++ ·) := by
  rw [scan, run_append h, scan]
  rcases run middle second with _ | ⟨more, last⟩
  · rfl
  · rcases hfinish : finish last with _ | tail
    · simp only [Option.map_some, Option.bind_some, prepend, hfinish, Option.map_none]
    · simp only [Option.map_some, Option.bind_some, prepend, hfinish, List.append_assoc]

/-! ### String literals -/

/-- One escaped character adds that character to a literal. -/
private theorem run_escapeChar (read : List Char) (c : Char) :
    run (.string read) (Quoted.escapeChar c) = some ([], .string (c :: read)) := by
  unfold Quoted.escapeChar
  split
  · rfl
  · rfl
  · rfl
  · rfl
  · rfl
  next hbackslash hquote hline hreturn _ =>
    have hnext : next (.string read) c = some ([], .string (c :: read)) := by
      rw [next, if_neg hquote, if_neg hbackslash, if_neg (not_or.mpr ⟨hline, hreturn⟩)]
    rw [run_cons hnext, map_prepend_nil, run]

/-- Escaped characters are read as a part of the string that they stand in. -/
private theorem run_escapeChars (read text : List Char) :
    run (.string read) (Quoted.escapeChars text) = some ([], .string (text.reverse ++ read)) := by
  induction text generalizing read with
  | nil => rfl
  | cons c rest ih =>
    rw [Quoted.escapeChars, List.flatMap_cons, run_append (run_escapeChar read c)]
    have hrest := ih (c :: read)
    rw [Quoted.escapeChars] at hrest
    rw [hrest, map_prepend_nil, List.reverse_cons, List.append_assoc, List.singleton_append]

theorem toList_quote (text : String) :
    (Quoted.quote text).toList = '"' :: (Quoted.escapeChars text.toList ++ ['"']) := by
  simp only [Quoted.quote, Quoted.escape, String.toList_append, String.toList_ofList]
  rfl

/-- **Quoted texts.** The literal of a text is read as one token with that value, whatever the text
contains. -/
theorem run_quote (text : String) :
    run .idle (Quoted.quote text).toList = some ([.string text], .idle) := by
  have hopen : run .idle ['"'] = some ([], .string []) := rfl
  have hclose : run (.string text.toList.reverse) ['"'] = some ([.string text], .idle) := by
    rw [run, next, if_pos rfl, List.reverse_reverse, String.ofList_toList]
    rfl
  have hbody := run_escapeChars [] text.toList
  rw [List.append_nil] at hbody
  rw [toList_quote, ← List.singleton_append, run_append hopen, run_append hbody, hclose]
  rfl

/-! ### Words and numbers -/

/-- A name needs no quotes exactly if it is written like a word. -/
theorem needsQuotes_eq_false {name : String} :
    Quoted.needsQuotes name = false ↔ ∃ c rest, name.toList = c :: rest ∧
      Quoted.isKeyStart c = true ∧ ∀ d ∈ rest, Quoted.isKeyPart d = true := by
  unfold Quoted.needsQuotes
  split
  next h => simp [h]
  next c rest h => simp [h, List.all_eq_true]

/-- A letter, an underscore or a dollar sign begins a word. -/
theorem start_of_isKeyStart {c : Char} (h : Quoted.isKeyStart c = true) :
    start c = some ([], .word [c]) := by
  have hne (d : Char) (hd : Quoted.isKeyStart d = false) : c ≠ d := by
    rintro rfl
    rw [h] at hd
    cases hd
  rw [start, if_neg (not_or.mpr ⟨hne ' ' rfl, hne '\n' rfl⟩), if_neg (hne '"' rfl),
    if_neg (hne '/' rfl), if_pos h]

theorem start_of_isDigit {c : Char} (h : c.isDigit = true) :
    start c = some ([], .number [c]) := by
  have hne (d : Char) (hd : d.isDigit = false) : c ≠ d := by
    rintro rfl
    rw [h] at hd
    cases hd
  have hletter : Quoted.isKeyStart c = false := by
    rw [Quoted.isKeyStart, Identifier.isAlpha_eq, Identifier.isUpper_of_isDigit h,
      Identifier.isLower_of_isDigit h, beq_eq_false_iff_ne.mpr (hne '_' rfl),
      beq_eq_false_iff_ne.mpr (hne '$' rfl)]
    rfl
  rw [start, if_neg (not_or.mpr ⟨hne ' ' rfl, hne '\n' rfl⟩), if_neg (hne '"' rfl),
    if_neg (hne '/' rfl), if_neg (by simp [hletter]), if_pos h]

/-- Parts of a word are read as parts of that word. -/
theorem run_wordParts {read text : List Char} (h : ∀ c ∈ text, Quoted.isKeyPart c = true) :
    run (.word read) text = some ([], .word (text.reverse ++ read)) := by
  induction text generalizing read with
  | nil => rfl
  | cons c rest ih =>
    have hnext : next (.word read) c = some ([], .word (c :: read)) := by
      rw [next, if_pos (h c List.mem_cons_self)]
    rw [run_cons hnext, map_prepend_nil, ih fun d hd => h d (List.mem_cons_of_mem c hd),
      List.reverse_cons, List.append_assoc, List.singleton_append]

theorem run_digits {read text : List Char} (h : ∀ c ∈ text, (c.isDigit || c == '.') = true) :
    run (.number read) text = some ([], .number (text.reverse ++ read)) := by
  induction text generalizing read with
  | nil => rfl
  | cons c rest ih =>
    have hnext : next (.number read) c = some ([], .number (c :: read)) := by
      rw [next, if_pos (h c List.mem_cons_self)]
    rw [run_cons hnext, map_prepend_nil, ih fun d hd => h d (List.mem_cons_of_mem c hd),
      List.reverse_cons, List.append_assoc, List.singleton_append]

/-! ### Exact tokens -/

/-- A character that could belong to a word or a number in front of it. -/
def glues (c : Char) : Bool :=
  Quoted.isKeyPart c || c == '.'

/-- Whether a text begins with a token of its own wherever it stands. -/
def Apart (text : List Char) : Prop :=
  ∀ c ∈ text.head?, glues c = false

instance (text : List Char) : Decidable (Apart text) :=
  Option.decidableForallMem text.head?

/-- Whether a text is read as certain tokens, whatever follows that begins with a token of its
own. -/
def Reads (text : String) (tokens : List Token) : Prop :=
  ∀ rest, Apart rest → scan .idle (text.toList ++ rest) = (scan .idle rest).map (tokens ++ ·)

theorem Apart.append {first second : List Char} (h : Apart first) (h' : Apart second) :
    Apart (first ++ second) := by
  cases first with
  | nil => exact h'
  | cons c rest => exact h

/-- Where a text that is not empty begins, whatever stands behind it. -/
theorem Apart.append_left {first : List Char} (h : Apart first) (hne : first ≠ [])
    (second : List Char) : Apart (first ++ second) := by
  obtain ⟨c, rest, rfl⟩ := List.exists_cons_of_ne_nil hne
  exact h

theorem Reads.tokens? {text : String} {tokens : List Token} (h : Reads text tokens) :
    tokens? text = some tokens := by
  have hend := h [] fun _ hmem => absurd hmem (Option.not_mem_none _)
  rw [List.append_nil] at hend
  rw [Script.tokens?, hend]
  exact congrArg some (List.append_nil tokens)

/-- A text after which nothing is left open is read on its own. -/
theorem reads_of_run {text : String} {tokens : List Token}
    (h : run .idle text.toList = some (tokens, .idle)) : Reads text tokens :=
  fun rest _ => scan_append h rest

/-- A text that stands apart is read after the one before it. -/
theorem Reads.append {first second : String} {tokens more : List Token} (h : Reads first tokens)
    (h' : Reads second more) (hapart : Apart second.toList) :
    Reads (first ++ second) (tokens ++ more) := by
  intro rest hrest
  rw [String.toList_append, List.append_assoc, h _ (hapart.append hrest), h' rest hrest,
    Option.map_map]
  exact congrArg (Option.map · _) (funext fun _ => (List.append_assoc _ _ _).symm)

/-- A text that comes back to where it began is read before any other. -/
theorem Reads.append_of_run {first second : String} {tokens more : List Token}
    (h : run .idle first.toList = some (tokens, .idle)) (h' : Reads second more) :
    Reads (first ++ second) (tokens ++ more) := by
  intro rest hrest
  rw [String.toList_append, List.append_assoc, scan_append h, h' rest hrest, Option.map_map]
  exact congrArg (Option.map · _) (funext fun _ => (List.append_assoc _ _ _).symm)

/-- Whether a text is read as certain tokens, whatever follows it. -/
def Closes (text : String) (tokens : List Token) : Prop :=
  ∀ rest, scan .idle (text.toList ++ rest) = (scan .idle rest).map (tokens ++ ·)

/-- A text that is over behind it is closed by one that leaves nothing open. -/
theorem Reads.close {text closing : String} {tokens more : List Token} (h : Reads text tokens)
    (hclosing : run .idle closing.toList = some (more, .idle)) (hapart : Apart closing.toList)
    (hne : closing ≠ "") : Closes (text ++ closing) (tokens ++ more) := by
  intro rest
  have hbehind := hapart.append_left (mt String.toList_eq_nil_iff.mp hne) rest
  rw [String.toList_append, List.append_assoc, h _ hbehind, scan_append hclosing, Option.map_map]
  exact congrArg (Option.map · _) (funext fun _ => (List.append_assoc _ _ _).symm)

theorem Closes.append {first second : String} {tokens more : List Token} (h : Closes first tokens)
    (h' : Closes second more) : Closes (first ++ second) (tokens ++ more) := by
  intro rest
  rw [String.toList_append, List.append_assoc, h, h', Option.map_map]
  exact congrArg (Option.map · _) (funext fun _ => (List.append_assoc _ _ _).symm)

theorem closes_of_run {text : String} {tokens : List Token}
    (h : run .idle text.toList = some (tokens, .idle)) : Closes text tokens :=
  fun rest => scan_append h rest

theorem Closes.reads {text : String} {tokens : List Token} (h : Closes text tokens) :
    Reads text tokens :=
  fun rest _ => h rest

/-- The items of a list of texts are read as lists of tokens, with the token of the separator
between each two. -/
theorem reads_join {separator : String} {token : Token}
    (hseparator : run .idle separator.toList = some ([token], .idle))
    (hapart : Apart separator.toList) {texts : List String} {lists : List (List Token)}
    (h : List.Forall₂ Reads texts lists) :
    Reads (Text.join separator texts) ([token].intercalate lists) := by
  induction h with
  | nil => exact reads_of_run rfl
  | @cons first tokens texts lists hfirst hrest ih =>
    cases hrest with
    | nil => simpa using hfirst
    | cons hsecond hmore =>
      rw [Text.join_cons_cons, List.intercalate_cons_cons, String.append_assoc, List.append_assoc]
      refine hfirst.append (ih.append_of_run hseparator) ?_
      -- The separator is not empty, because it is read as a token.
      have hne : separator.toList ≠ [] := by
        intro hnil
        rw [hnil] at hseparator
        cases hseparator
      rw [String.toList_append]
      exact hapart.append_left hne _

/-- A word or a number is over where another token begins. -/
private theorem scan_over {mode : Mode} {token : Token} {rest : List Char} (hrest : Apart rest)
    (hfinish : finish mode = some [token])
    (hnext : ∀ c, glues c = false → next mode c = startAfter token c) :
    scan mode rest = (scan .idle rest).map ([token] ++ ·) := by
  cases rest with
  | nil =>
    rw [scan, run, Option.bind_some, hfinish]
    rfl
  | cons c rest =>
    rw [scan, scan, run, run, hnext c (hrest c rfl), startAfter, next]
    rcases start c with _ | step
    · rfl
    · simp only [Option.map_some, Option.bind_some, prepend]
      rcases run step.2 rest with _ | result
      · rfl
      · simp only [Option.map_some, Option.bind_some, Option.map_map, Function.comp_def, prepend,
          List.append_assoc]

/-- **Words.** A name that needs no quotes is read as one word. -/
theorem reads_word {name : String} (h : Quoted.needsQuotes name = false) :
    Reads name [.word name] := by
  intro rest hrest
  obtain ⟨c, chars, hname, hstart, hparts⟩ := needsQuotes_eq_false.mp h
  have hword : run .idle name.toList = some ([], .word (chars.reverse ++ [c])) := by
    have hnext : next .idle c = some ([], .word [c]) := start_of_isKeyStart hstart
    rw [hname, run_cons hnext, map_prepend_nil, run_wordParts hparts]
  have hread : String.ofList (chars.reverse ++ [c]).reverse = name := by
    rw [List.reverse_append, List.reverse_reverse, List.reverse_singleton, List.singleton_append,
      ← hname, String.ofList_toList]
  have hover : scan (.word (chars.reverse ++ [c])) rest =
      (scan .idle rest).map ([.word name] ++ ·) := by
    refine scan_over hrest (by rw [finish, hread]) fun d hd => ?_
    rw [glues, Bool.or_eq_false_iff] at hd
    rw [next, if_neg (by simp [hd.1]), hread]
  rw [scan_append hword, hover, Option.map_map]
  rfl

/-- **Numbers.** Digits with points among them are read as one number. -/
theorem reads_number {numeral : String} {c : Char} {chars : List Char}
    (hnumeral : numeral.toList = c :: chars) (hstart : c.isDigit = true)
    (hparts : ∀ d ∈ chars, (d.isDigit || d == '.') = true) : Reads numeral [.number numeral] := by
  intro rest hrest
  have hnumber : run .idle numeral.toList = some ([], .number (chars.reverse ++ [c])) := by
    have hnext : next .idle c = some ([], .number [c]) := start_of_isDigit hstart
    rw [hnumeral, run_cons hnext, map_prepend_nil, run_digits hparts]
  have hread : String.ofList (chars.reverse ++ [c]).reverse = numeral := by
    rw [List.reverse_append, List.reverse_reverse, List.reverse_singleton, List.singleton_append,
      ← hnumeral, String.ofList_toList]
  have hover : scan (.number (chars.reverse ++ [c])) rest =
      (scan .idle rest).map ([.number numeral] ++ ·) := by
    refine scan_over hrest (by rw [finish, hread]) fun d hd => ?_
    -- A digit glues, too.
    rw [glues, Quoted.isKeyPart, Char.isAlphanum] at hd
    simp only [Bool.or_eq_false_iff] at hd
    rw [next, if_neg (by simp [hd]), hread]
  rw [scan_append hnumber, hover, Option.map_map]
  rfl

end Lexer

end ClientGen.Script
