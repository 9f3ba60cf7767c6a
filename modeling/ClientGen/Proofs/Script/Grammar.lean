import ClientGen.Proofs.Script.Lexer
import ClientGen.Script.Type
import Mathlib.Data.List.Forall2

/-!
# The grammar of types

How a type is read from tokens, by recursive descent: alternatives between bars, which are made of
factors between ampersands, which are primary types with brackets after them. What is read is a
`TypeTree`, in which a union has no union as a member and an intersection no intersection, and
numbers are known by their text.

The grammar is read with a limit on how deep types are nested in one another; the number of
tokens is enough.
-/

namespace ClientGen.Script

/-- A type as its text says it. -/
inductive TypeTree
  | keyword (keyword : Keyword)
  | string (value : String)
  | numeral (text : String)
  | bool (value : Bool)
  | array (item : TypeTree)
  | object (members : List (Member TypeTree))
  | record (value : TypeTree)
  | union (members : List TypeTree)
  | intersection (members : List TypeTree)
  | named (name : String)

/-- The keyword with a text. -/
def Keyword.ofText? (text : String) : Option Keyword :=
  [.string, .number, .boolean, .null, .undefined, .unknown, .never].find? (·.text == text)

/-- A reader of what tokens begin with. -/
abbrev Parser (α : Type) := List Token → Option (α × List Token)

namespace Grammar

variable {α : Type}

/-- A certain token. -/
def token (expected : Token) : Parser Unit
  | found :: rest => if found = expected then some ((), rest) else none
  | [] => none

/-- A certain mark, which may be missing. -/
def mark? (symbol : Char) : Parser Bool
  | .mark c :: rest => some (if c = symbol then (true, rest) else (false, .mark c :: rest))
  | tokens => some (false, tokens)

/-- Further items, each after a separator. The limit bounds their number. -/
def more (separator : Token) (item : Parser α) : Nat → Parser (List α)
  | limit + 1, found :: rest =>
    if found = separator then do
      let first ← item rest
      let others ← more separator item limit first.2
      return (first.1 :: others.1, others.2)
    else some ([], found :: rest)
  | _, tokens => some ([], tokens)

/-- One item or more with separators between them. -/
def chain (separator : Token) (item : Parser α) : Parser (List α) := fun tokens => do
  let first ← item tokens
  let others ← more separator item first.2.length first.2
  return (first.1 :: others.1, others.2)

/-! ### Exactly these tokens -/

/-- Whether a parser takes exactly certain tokens off whatever does not go on with one of
`stops`. -/
def Parses (parser : Parser α) (stops tokens : List Token) (value : α) : Prop :=
  ∀ rest, (∀ token ∈ stops, rest.head? ≠ some token) → parser (tokens ++ rest) = some (value, rest)

/-- Whether tokens are items, at least one, with separators between them. -/
def Splits (separator : Token) (item : Parser α) (stops tokens : List Token) (values : List α) :
    Prop :=
  ∃ lists, lists ≠ [] ∧ tokens = [separator].intercalate lists ∧
    List.Forall₂ (Parses item stops) lists values

theorem intercalate_cons (separator : Token) (first : List Token) (rest : List (List Token)) :
    [separator].intercalate (first :: rest) = first ++ rest.flatMap (separator :: ·) := by
  induction rest generalizing first with
  | nil => simp
  | cons second rest ih =>
    rw [List.intercalate_cons_cons, ih, List.flatMap_cons, List.append_assoc]
    rfl

theorem length_le_length_flatMap (separator : Token) (lists : List (List Token)) :
    lists.length ≤ (lists.flatMap (separator :: ·)).length := by
  induction lists with
  | nil => exact Nat.le_refl 0
  | cons first rest ih =>
    rw [List.flatMap_cons, List.length_append, List.length_cons, List.length_cons]
    omega

section

variable {separator : Token} {item : Parser α} {stops : List Token}

/-- What follows an item is a separator, or what follows all of them. -/
private theorem head?_flatMap_ne {lists : List (List Token)} {rest : List Token}
    (hseparator : separator ∉ stops) (hrest : ∀ token ∈ stops, rest.head? ≠ some token) :
    ∀ token ∈ stops, (lists.flatMap (separator :: ·) ++ rest).head? ≠ some token := by
  intro token htoken
  cases lists with
  | nil => exact hrest token htoken
  | cons first more =>
    rintro ⟨⟩
    exact hseparator htoken

/-- Values that each follow a separator are parsed one after another, as long as the limit is no
smaller than their number. -/
theorem parses_more (hseparator : separator ∉ stops) {lists : List (List Token)} {values : List α}
    (h : List.Forall₂ (Parses item stops) lists values) {limit : Nat}
    (hlimit : lists.length ≤ limit) :
    Parses (more separator item limit) (separator :: stops) (lists.flatMap (separator :: ·))
      values := by
  intro rest hrest
  obtain ⟨hhead, hrest⟩ := List.forall_mem_cons.mp hrest
  induction h generalizing limit with
  | nil =>
    rw [List.flatMap_nil, List.nil_append]
    -- There is nothing left to read, whatever the limit is.
    cases limit with
    | zero => rfl
    | succ limit =>
      cases rest with
      | nil => rfl
      | cons found rest =>
        have hfound : found ≠ separator := fun heq => hhead (congrArg some heq)
        rw [Grammar.more, if_neg hfound]
  | @cons first value more values hfirst hmore ih =>
    cases limit with
    | zero => cases hlimit
    | succ limit =>
      -- The item ends at the next separator, or where the whole list does.
      rw [List.flatMap_cons, List.append_assoc, List.cons_append, Grammar.more, if_pos rfl,
        hfirst _ (head?_flatMap_ne hseparator hrest)]
      simp only [Option.bind_eq_bind, Option.bind_some, ih (Nat.le_of_succ_le_succ hlimit)]
      rfl

/-- **Chains.** Items with separators between them are taken one by one. -/
theorem Splits.parses {tokens : List Token} {values : List α}
    (h : Splits separator item stops tokens values) (hseparator : separator ∉ stops) :
    Parses (chain separator item) (separator :: stops) tokens values := by
  obtain ⟨lists, hne, rfl, hlists⟩ := h
  intro rest hrest
  cases hlists with
  | nil => exact absurd rfl hne
  | @cons first value lists values hfirst hmore =>
    have hlimit : lists.length ≤ (lists.flatMap (separator :: ·) ++ rest).length := by
      rw [List.length_append]
      exact Nat.le_add_right_of_le (length_le_length_flatMap separator lists)
    have hstops := (List.forall_mem_cons.mp hrest).2
    rw [intercalate_cons, List.append_assoc, chain, hfirst _ (head?_flatMap_ne hseparator hstops)]
    simp only [Option.bind_eq_bind, Option.bind_some,
      parses_more hseparator hmore hlimit rest hrest]
    rfl

theorem Splits.single {tokens : List Token} {value : α} (h : Parses item stops tokens value) :
    Splits separator item stops tokens [value] :=
  ⟨[tokens], List.cons_ne_nil _ _, by simp, .cons h .nil⟩

/-- Lists of items with a separator between them are split into the items of both. -/
theorem Splits.append {tokens more : List Token} {values others : List α}
    (h : Splits separator item stops tokens values)
    (h' : Splits separator item stops more others) :
    Splits separator item stops (tokens ++ separator :: more) (values ++ others) := by
  obtain ⟨lists, hne, rfl, hlists⟩ := h
  obtain ⟨lists', hne', rfl, hlists'⟩ := h'
  refine ⟨lists ++ lists', List.append_ne_nil_of_left_ne_nil hne lists', ?_,
    List.rel_append hlists hlists'⟩
  obtain ⟨first, rest, rfl⟩ := List.exists_cons_of_ne_nil hne
  obtain ⟨first', rest', rfl⟩ := List.exists_cons_of_ne_nil hne'
  rw [List.cons_append, intercalate_cons, intercalate_cons, intercalate_cons, List.flatMap_append,
    List.flatMap_cons, List.append_assoc, List.cons_append]

end

/-! ### Types -/

/-- A word. -/
def word : Parser String
  | .word text :: rest => some (text, rest)
  | _ => none

/-- The key of a property. -/
def key : Parser String
  | .word text :: rest => some (text, rest)
  | .string value :: rest => some (value, rest)
  | _ => none

/-- A composition of types. One type stands for itself. -/
def collect (wrap : List TypeTree → TypeTree) : List TypeTree → TypeTree
  | [tree] => tree
  | trees => wrap trees

/-- The type with as many pairs of brackets after it as there are. -/
def brackets (item : TypeTree) : List Token → TypeTree × List Token
  | .mark '[' :: .mark ']' :: rest => brackets (.array item) rest
  | tokens => (item, tokens)

variable (type : Parser TypeTree)

/-- A property of an object type. -/
def member : Parser (Member TypeTree) := fun tokens => do
  let name ← key tokens
  let optional ← mark? '?' name.2
  let colon ← token (.mark ':') optional.2
  let value ← type colon.2
  return (⟨name.1, value.1, optional.1⟩, value.2)

/-- The properties of an object type up to its closing brace, with semicolons between them and
perhaps after the last. The limit bounds their number. -/
def members : Nat → Parser (List (Member TypeTree))
  | 0, _ => none
  | limit + 1, tokens =>
    if tokens.head? = some (.mark '\x7d') then some ([], tokens.tail)
    else do
      let first ← member type tokens
      match first.2 with
      | .mark ';' :: rest => do
        let others ← members limit rest
        return (first.1 :: others.1, others.2)
      | .mark '\x7d' :: rest => return ([first.1], rest)
      | _ => none

/-- A type up to a closing mark. -/
def enclosed (close : Char) : Parser TypeTree := fun tokens => do
  let inner ← type tokens
  let closed ← token (.mark close) inner.2
  return (inner.1, closed.2)

/-- A type that begins with a word: a generic one, a keyword, or a name, which may be qualified. -/
def ofWord (first : String) : Parser TypeTree := fun tokens =>
  if first = "Array" then do
    let opened ← token (.mark '<') tokens
    let item ← enclosed type '>' opened.2
    return (.array item.1, item.2)
  else if first = "Record" then do
    let opened ← token (.mark '<') tokens
    let index ← token (.word "string") opened.2
    let comma ← token (.mark ',') index.2
    let value ← enclosed type '>' comma.2
    return (.record value.1, value.2)
  else if first = "true" then some (.bool true, tokens)
  else if first = "false" then some (.bool false, tokens)
  else
    match Keyword.ofText? first with
    | some keyword => some (.keyword keyword, tokens)
    | none => do
      let names ← more (.mark '.') word tokens.length tokens
      return (.named (Text.join "." (first :: names.1)), names.2)

/-- A type that neither a bar, an ampersand nor brackets can take apart. -/
def primary : Parser TypeTree
  | .word first :: rest => ofWord type first rest
  | .string value :: rest => some (.string value, rest)
  | .number text :: rest => some (.numeral text, rest)
  | .mark '-' :: .number text :: rest => some (.numeral ("-" ++ text), rest)
  | .mark '(' :: rest => enclosed type ')' rest
  | .mark '\x7b' :: rest => do
    let found ← members type rest.length rest
    return (.object found.1, found.2)
  | _ => none

/-- A primary type with brackets after it. -/
def factor : Parser TypeTree := fun tokens => do
  let item ← primary type tokens
  return brackets item.1 item.2

/-- Factors between ampersands. -/
def term : Parser TypeTree := fun tokens => do
  let factors ← chain (.mark '&') (factor type) tokens
  return (collect .intersection factors.1, factors.2)

/-- Terms between bars. -/
def alternatives : Parser TypeTree := fun tokens => do
  let terms ← chain (.mark '|') (term type) tokens
  return (collect .union terms.1, terms.2)

/-- A type with others in it, nested less than `depth` deep. -/
def typeWithin : Nat → Parser TypeTree
  | 0 => fun _ => none
  | depth + 1 => alternatives (typeWithin depth)

/-- An exported type with its name. -/
def declaration (depth : Nat) : Parser (String × TypeTree) := fun tokens => do
  let exported ← token (.word "export") tokens
  let declared ← token (.word "type") exported.2
  let name ← word declared.2
  let equals ← token (.mark '=') name.2
  let value ← enclosed (typeWithin depth) ';' equals.2
  return ((name.1, value.1), value.2)

/-- What a whole text is read as, with as much depth as there are tokens. -/
def whole (parser : Nat → Parser α) (text : String) : Option α := do
  let tokens ← tokens? text
  match parser tokens.length tokens with
  | some (value, []) => some value
  | _ => none

end Grammar

/-- The type that a text is written for. -/
def TypeTree.ofText? (text : String) : Option TypeTree :=
  Grammar.whole Grammar.typeWithin text

/-- The exported type, with its name, that a text is written for. -/
def TypeTree.declaration? (text : String) : Option (String × TypeTree) :=
  Grammar.whole Grammar.declaration text

end ClientGen.Script
