import ClientGen.Proofs.Identifier
import ClientGen.Proofs.Literal

/-!
# Brackets of a script

A script is well formed if all its string literals are closed and its brackets nest. Only the
brackets matter that stand outside of literals and comments, so this is a property of the tokens.
What a text does to the brackets is the same wherever it stands, unless a literal or a comment is
open there (`run_settle`), and so texts can be put one after another (`Nests.append`). A text is
*neutral* if it leaves nothing open that was not open before it. Quoted texts are neutral whatever
they contain, and so are identifiers, keys and literals.
-/

namespace ClientGen.Script

namespace Lexer

/-! ### Brackets -/

/-- The closing bracket that belongs to an opening one. -/
def closer? : Char → Option Char
  | '(' => some ')'
  | '[' => some ']'
  | '\x7b' => some '\x7d'
  | _ => none

/-- Whether a character is a closing bracket. -/
def isCloser (c : Char) : Bool :=
  c == ')' || c == ']' || c == '\x7d'

/-- The bracket that a token is. -/
def Token.bracket? : Token → Option Char
  | .mark symbol => if (closer? symbol).isSome || isCloser symbol then some symbol else none
  | _ => none

/-- The brackets among tokens, in order. -/
def brackets (tokens : List Token) : List Char :=
  tokens.filterMap Token.bracket?

/-- The closing brackets that are missing after one more bracket, the one that has to come first in
front. There are none if a closing bracket comes that is not the first one missing. -/
def nestOne (missing : List Char) (bracket : Char) : Option (List Char) :=
  match closer? bracket with
  | some closer => some (closer :: missing)
  | none =>
    match missing with
    | [] => none
    | expected :: outer => if bracket = expected then some outer else none

/-- The closing brackets that are missing after further brackets. -/
def nest (missing : List Char) (brackets : List Char) : Option (List Char) :=
  brackets.foldlM nestOne missing

end Lexer

open Lexer

/-- Whether a text is a sequence of tokens, with all string literals closed and all brackets
balanced and nested. -/
def WellFormed (text : String) : Prop :=
  ∃ tokens, tokens? text = some tokens ∧ nest [] (brackets tokens) = some []

namespace Lexer

theorem brackets_append (tokens more : List Token) :
    brackets (tokens ++ more) = brackets tokens ++ brackets more :=
  List.filterMap_append

theorem nest_append {missing middle : List Char} {first : List Char}
    (h : nest missing first = some middle) (second : List Char) :
    nest missing (first ++ second) = nest middle second := by
  rw [nest] at h
  rw [nest, List.foldlM_append, h]
  rfl

/-- A bracket does not reach for the ones that are missing outside. -/
private theorem nestOne_outer {missing last : List Char} {bracket : Char}
    (h : nestOne missing bracket = some last) (outer : List Char) :
    nestOne (missing ++ outer) bracket = some (last ++ outer) := by
  rcases hcloser : closer? bracket with _ | closer
  · rcases missing with _ | ⟨expected, inner⟩
    · simp only [nestOne, hcloser] at h
      cases h
    · simp only [nestOne, hcloser, List.cons_append] at h ⊢
      split_ifs at h ⊢
      cases h
      rfl
  · simp only [nestOne, hcloser] at h ⊢
    cases h
    rfl

/-- Brackets that are missing further out do not matter. -/
theorem nest_outer {missing last brackets : List Char} (h : nest missing brackets = some last)
    (outer : List Char) : nest (missing ++ outer) brackets = some (last ++ outer) := by
  induction brackets generalizing missing with
  | nil =>
    cases h
    rfl
  | cons bracket rest ih =>
    obtain ⟨middle, hone, hrest⟩ := Option.bind_eq_some_iff.mp h
    exact Option.bind_eq_some_iff.mpr ⟨_, nestOne_outer hone outer, ih hrest⟩

/-! ### Runs up to the tokens at their ends -/

/-- The mode with a word or a number that is being read forgotten. -/
def Mode.settle : Mode → Mode
  | .word _ => .idle
  | .number _ => .idle
  | mode => mode

/-- What matters of a result: the brackets, and whether a literal or a comment is open. -/
def sketch (result : List Token × Mode) : List Char × Mode :=
  (brackets result.1, result.2.settle)

/-- The sketch of a result after further tokens. -/
private def sketchAfter (before : List Char) (result : List Char × Mode) : List Char × Mode :=
  (before ++ result.1, result.2)

/-- Of tokens that were read before, only the brackets matter. -/
private theorem map_sketch_prepend (tokens : List Token) (result : Option (List Token × Mode)) :
    (result.map (prepend tokens)).map sketch =
      (result.map sketch).map (sketchAfter (brackets tokens)) := by
  rw [Option.map_map, Option.map_map]
  refine congrArg (Option.map · result) (funext fun pair => ?_)
  rw [Function.comp_apply, sketch, prepend, brackets_append]
  rfl

/-- A token that is over where another begins changes no brackets unless it is one. -/
private theorem map_sketch_startAfter {token : Token} (h : Token.bracket? token = none) (c : Char) :
    (startAfter token c).map sketch = (start c).map sketch := by
  have hnone : brackets [token] = [] := List.filterMap_cons_none h
  rw [startAfter, map_sketch_prepend, hnone, Option.map_map]
  rfl

/-- What goes on with a word begins a word or a number by itself. -/
private theorem start_of_isKeyPart {c : Char} (h : Quoted.isKeyPart c = true) :
    ∃ mode, start c = some ([], mode) ∧ mode.settle = .idle := by
  by_cases hstart : Quoted.isKeyStart c = true
  · exact ⟨_, start_of_isKeyStart hstart, rfl⟩
  · have hdigit : c.isDigit = true := by
      rw [Quoted.isKeyStart, Bool.or_eq_true, Bool.or_eq_true, not_or, not_or] at hstart
      rw [Quoted.isKeyPart, Char.isAlphanum, Bool.or_eq_true, Bool.or_eq_true,
        Bool.or_eq_true] at h
      tauto
    exact ⟨_, start_of_isDigit hdigit, rfl⟩

/-- A mode that ends with the next character takes this character as the settled mode does. -/
private theorem next_settle (mode : Mode) (c : Char) :
    (next mode c).map sketch = (next mode.settle c).map sketch := by
  cases mode with
  | word read =>
    rw [next, Mode.settle, next]
    split_ifs with hpart
    · -- The word goes on, and would begin with this character otherwise: neither has a bracket.
      obtain ⟨mode, hstart, hsettle⟩ := start_of_isKeyPart hpart
      rw [hstart, Option.map_some, Option.map_some, sketch, sketch, hsettle]
      rfl
    · exact map_sketch_startAfter rfl c
  | number read =>
    rw [next, Mode.settle, next]
    split_ifs with hpart
    · -- A number goes on with a digit or a point. A point by itself is a mark, but no bracket.
      rcases Bool.or_eq_true _ _ ▸ hpart with hdigit | hpoint
      · rw [start_of_isDigit hdigit]
        rfl
      · rw [beq_iff_eq.mp hpoint]
        rfl
    · exact map_sketch_startAfter rfl c
  | _ => rfl

/-- **Context.** What a text does to the brackets does not depend on the word or number in front of
it. -/
theorem run_settle (mode : Mode) (text : List Char) :
    (run mode text).map sketch = (run mode.settle text).map sketch := by
  induction text generalizing mode with
  | nil => cases mode <;> rfl
  | cons c rest ih =>
    have hcons (mode : Mode) : (run mode (c :: rest)).map sketch =
        ((next mode c).map sketch).bind fun step =>
          ((run step.2 rest).map sketch).map (sketchAfter step.1) := by
      rw [run]
      rcases next mode c with _ | step
      · rfl
      · rw [Option.bind_some, map_sketch_prepend, ih step.2]
        rfl
    rw [hcons, hcons, next_settle]

/-! ### Texts -/

/-- The closing brackets that are missing after a text, if no literal or comment is open behind it
and none was open in front of it. -/
def missing? (text missing : List Char) : Option (List Char) :=
  (run .idle text).bind fun result =>
    if result.2.settle = .idle then nest missing (brackets result.1) else none

/-- Whether a text takes the brackets that are missing in front of it to those behind it. -/
def Nests (text : String) (missing last : List Char) : Prop :=
  missing? text.toList missing = some last

instance (text : String) (missing last : List Char) : Decidable (Nests text missing last) :=
  inferInstanceAs (Decidable (missing? text.toList missing = some last))

/-- Whether the brackets of a text are balanced. -/
def Neutral (text : String) : Prop :=
  Nests text [] []

instance (text : String) : Decidable (Neutral text) :=
  inferInstanceAs (Decidable (Nests text [] []))

/-- A text nests exactly if it can be read, ends between tokens, and its brackets match. -/
theorem nests_iff {text : String} {missing last : List Char} :
    Nests text missing last ↔ ∃ tokens mode, run .idle text.toList = some (tokens, mode) ∧
      mode.settle = .idle ∧ nest missing (brackets tokens) = some last := by
  rw [Nests, missing?, Option.bind_eq_some_iff]
  constructor
  · rintro ⟨⟨tokens, mode⟩, hrun, hnest⟩
    dsimp only at hnest
    split_ifs at hnest with hsettle
    exact ⟨tokens, mode, hrun, hsettle, hnest⟩
  · rintro ⟨tokens, mode, hrun, hsettle, hnest⟩
    refine ⟨(tokens, mode), hrun, ?_⟩
    rw [if_pos hsettle]
    exact hnest

/-- The brackets of a long text are counted from its characters. -/
theorem nests_ofList {text missing last : List Char} (h : missing? text missing = some last) :
    Nests (String.ofList text) missing last := by
  rw [Nests, String.toList_ofList]
  exact h

/-- **One text after another.** -/
theorem Nests.append {first second : String} {missing middle last : List Char}
    (h : Nests first missing middle) (h' : Nests second middle last) :
    Nests (first ++ second) missing last := by
  obtain ⟨tokens, mode, hrun, hsettle, hnest⟩ := nests_iff.mp h
  obtain ⟨more, final, hrun', hsettle', hnest'⟩ := nests_iff.mp h'
  have hcontext := run_settle mode second.toList
  rw [hsettle, hrun', Option.map_some, Option.map_eq_some_iff] at hcontext
  obtain ⟨⟨others, final'⟩, hothers, hsketch⟩ := hcontext
  obtain ⟨hbrackets, hfinal⟩ := Prod.mk.inj hsketch
  refine nests_iff.mpr ⟨tokens ++ others, final', ?_, hfinal.trans hsettle', ?_⟩
  · rw [String.toList_append, run_append hrun, hothers]
    rfl
  · rw [brackets_append, nest_append hnest, hbrackets, hnest']

/-- What nests does so within other brackets. -/
theorem Nests.outer {text : String} {missing last : List Char} (h : Nests text missing last)
    (outer : List Char) : Nests text (missing ++ outer) (last ++ outer) := by
  obtain ⟨tokens, mode, hrun, hsettle, hnest⟩ := nests_iff.mp h
  exact nests_iff.mpr ⟨tokens, mode, hrun, hsettle, nest_outer hnest outer⟩

/-- A neutral text changes nothing anywhere. -/
theorem Neutral.nests {text : String} (h : Neutral text) (missing : List Char) :
    Nests text missing missing :=
  Nests.outer h missing

theorem Neutral.append {first second : String} (h : Neutral first) (h' : Neutral second) :
    Neutral (first ++ second) :=
  Nests.append h h'

/-- A neutral text between brackets that belong to each other. -/
theorem Neutral.enclosed {opening text closing : String} (h : Neutral text) (missing : List Char)
    (hopening : Nests opening [] missing) (hclosing : Nests closing missing []) :
    Neutral (opening ++ text ++ closing) :=
  (hopening.append (h.nests missing)).append hclosing

/-- Neutral texts are well formed on their own. -/
theorem Neutral.wellFormed {text : String} (h : Neutral text) : WellFormed text := by
  obtain ⟨tokens, mode, hrun, hsettle, hnest⟩ := nests_iff.mp h
  have hfinish : ∃ tail, finish mode = some tail ∧ brackets tail = [] := by
    cases mode with
    | idle => exact ⟨_, rfl, rfl⟩
    | word read => exact ⟨_, rfl, rfl⟩
    | number read => exact ⟨_, rfl, rfl⟩
    | _ => cases hsettle
  obtain ⟨tail, htail, hbrackets⟩ := hfinish
  refine ⟨tokens ++ tail, ?_, ?_⟩
  · rw [tokens?, scan, hrun, Option.bind_some, htail]
    rfl
  · rw [brackets_append, hbrackets, List.append_nil, hnest]

/-! ### Lists of texts -/

/-- Neutral texts can be joined by a neutral separator. -/
theorem neutral_join {separator : String} (hseparator : Neutral separator) {texts : List String}
    (h : ∀ text ∈ texts, Neutral text) : Neutral (Text.join separator texts) := by
  induction texts with
  | nil => exact (rfl : Neutral "")
  | cons first rest ih =>
    obtain ⟨hfirst, hrest⟩ := List.forall_mem_cons.mp h
    cases rest with
    | nil => exact hfirst
    | cons second rest =>
      rw [Text.join_cons_cons]
      exact (hfirst.append hseparator).append (ih hrest)

theorem neutral_concat {texts : List String} (h : ∀ text ∈ texts, Neutral text) :
    Neutral (Text.concat texts) :=
  neutral_join (by decide) h

/-! ### Words, literals and keys -/

/-- A character of a word or a number. -/
def isPlain (c : Char) : Bool :=
  Quoted.isKeyPart c || c == '.' || c == '-'

private theorem neutral_singleton {c : Char} (h : isPlain c = true) :
    Neutral (String.singleton c) := by
  rw [isPlain, Bool.or_eq_true, Bool.or_eq_true, beq_iff_eq, beq_iff_eq] at h
  rcases h with (hpart | rfl) | rfl
  · obtain ⟨mode, hstart, hsettle⟩ := start_of_isKeyPart hpart
    refine nests_iff.mpr ⟨[], mode, ?_, hsettle, rfl⟩
    rw [String.toList_singleton, run, next, hstart]
    rfl
  · decide
  · decide

/-- A text without quotes and brackets is neutral. -/
theorem neutral_of_plain {text : String} (h : ∀ c ∈ text.toList, isPlain c = true) :
    Neutral text := by
  have hchars (chars : List Char) (h : ∀ c ∈ chars, isPlain c = true) :
      Neutral (String.ofList chars) := by
    induction chars with
    | nil => exact (rfl : Neutral "")
    | cons c rest ih =>
      obtain ⟨hc, hrest⟩ := List.forall_mem_cons.mp h
      have hsplit : String.ofList (c :: rest) = String.singleton c ++ String.ofList rest := by
        rw [← String.toList_inj, String.toList_append, String.toList_ofList, String.toList_ofList,
          String.toList_singleton, List.singleton_append]
      rw [hsplit]
      exact (neutral_singleton hc).append (ih hrest)
  rw [← String.ofList_toList (s := text)]
  exact hchars text.toList h

/-- **No way out of a literal.** A quoted text is neutral, whatever it contains. -/
theorem neutral_quote (text : String) : Neutral (Quoted.quote text) :=
  nests_iff.mpr ⟨_, _, run_quote text, rfl, rfl⟩

/-- A name that needs no quotes is neutral. -/
theorem neutral_of_needsQuotes {name : String} (h : Quoted.needsQuotes name = false) :
    Neutral name := by
  obtain ⟨c, rest, hname, hstart, hparts⟩ := needsQuotes_eq_false.mp h
  refine neutral_of_plain fun d hd => ?_
  rw [hname] at hd
  have hpart : Quoted.isKeyPart d = true := by
    rcases List.mem_cons.mp hd with rfl | hrest
    · rw [Quoted.isKeyStart, Bool.or_eq_true, Bool.or_eq_true] at hstart
      rw [Quoted.isKeyPart, Char.isAlphanum, Bool.or_eq_true, Bool.or_eq_true, Bool.or_eq_true]
      tauto
    · exact hparts d hrest
  rw [isPlain, hpart, Bool.true_or, Bool.true_or]

theorem neutral_of_isIdentifier {name : String} (h : Identifier.isIdentifier name = true) :
    Neutral name := by
  refine neutral_of_plain fun c hc => ?_
  have hpart := Identifier.isPart_of_mem h hc
  rw [Identifier.isPart, Bool.or_eq_true] at hpart
  rw [isPlain, Quoted.isKeyPart, Bool.or_eq_true, Bool.or_eq_true, Bool.or_eq_true,
    Bool.or_eq_true]
  tauto

/-- An identifier between quotes is quoted, because there is nothing to escape in it. -/
theorem quote_of_isIdentifier {name : String} (h : Identifier.isIdentifier name = true) :
    Quoted.quote name = "\"" ++ name ++ "\"" := by
  have hescape (c : Char) (hc : c ∈ name.toList) : Quoted.escapeChar c = [c] := by
    have hpart := Identifier.isPart_of_mem h hc
    have hne (d : Char) (hd : Identifier.isPart d = false) : c ≠ d := by
      rintro rfl
      rw [hpart] at hd
      cases hd
    unfold Quoted.escapeChar
    split
    · exact absurd rfl (hne '\\' rfl)
    · exact absurd rfl (hne '"' rfl)
    · exact absurd rfl (hne '\n' rfl)
    · exact absurd rfl (hne '\r' rfl)
    · exact absurd rfl (hne '\t' rfl)
    · rfl
  rw [Quoted.quote, Quoted.escape, Quoted.escapeChars, List.flatMap_congr hescape,
    List.flatMap_singleton', String.ofList_toList]

theorem neutral_key (name : String) : Neutral (Quoted.key name) := by
  unfold Quoted.key
  split_ifs with h
  · exact neutral_quote name
  · exact neutral_of_needsQuotes (Bool.not_eq_true _ ▸ h)

/-- The key of an optional property is the name with a question mark, quoted. -/
theorem optionalKey_key (name : String) :
    Quoted.optionalKey (Quoted.key name) = Quoted.quote (name ++ "?") := by
  unfold Quoted.key
  split_ifs with h
  · have hlast : (Quoted.escapeChars name.toList ++ ['"']).getLast? = some '"' :=
      List.getLast?_concat
    simp only [Quoted.optionalKey, toList_quote, hlast, if_true, List.dropLast_concat]
    rw [← String.toList_inj, String.toList_ofList, toList_quote, String.toList_append,
      Quoted.escapeChars, Quoted.escapeChars, List.flatMap_append, List.append_assoc]
    rfl
  · -- A name that needs no quotes does not begin with one.
    obtain ⟨c, rest, hname, hstart, -⟩ := needsQuotes_eq_false.mp (Bool.not_eq_true _ ▸ h)
    unfold Quoted.optionalKey
    split
    next rest' heq =>
      rw [hname] at heq
      cases heq
      cases hstart
    next => rfl

private theorem neutral_of_isNumeral {text : String} (h : IsNumeral text) : Neutral text := by
  have hdigit {c : Char} (hc : (c.isDigit || c == '.') = true) : isPlain c = true := by
    rw [Bool.or_eq_true] at hc
    rw [isPlain, Quoted.isKeyPart, Char.isAlphanum]
    rcases hc with hc | hc
    · simp only [hc, Bool.or_true, Bool.true_or]
    · simp only [hc, Bool.or_true, Bool.true_or]
  have hdigits {chars : List Char} (h : IsDigits chars) : ∀ c ∈ chars, isPlain c = true := by
    obtain ⟨c, rest, rfl, hc, hrest⟩ := h
    refine List.forall_mem_cons.mpr ⟨hdigit ?_, fun d hd => hdigit (hrest d hd)⟩
    rw [hc, Bool.true_or]
  refine neutral_of_plain ?_
  rcases h with h | ⟨digits, htext, h⟩
  · exact hdigits h
  · rw [htext]
    exact List.forall_mem_cons.mpr ⟨rfl, hdigits h⟩

/-- A literal is neutral, whatever is written in it. -/
theorem neutral_literal (value : Literal) : Neutral value.text := by
  cases value with
  | string value => exact neutral_quote value
  | int value => exact neutral_of_isNumeral (isNumeral_toString value)
  | number value => exact neutral_of_isNumeral (isNumeral_text value)
  | bool value => cases value <;> decide
  | null => decide

end Lexer

end ClientGen.Script
