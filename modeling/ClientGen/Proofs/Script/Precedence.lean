import ClientGen.Proofs.Script.TypeTokens

/-!
# Precedence

The parser takes exactly the tokens of a type (`TypeExpr.reading`). This is where parentheses
matter: a type has a place among alternatives, among factors or before brackets, which decides what
may follow it, and is taken apart at the marks that this place leaves to it. A union between
ampersands stands between parentheses, a list before brackets is written as a generic type instead,
and in all other places the marks tell what belongs together.
-/

namespace ClientGen.Script.TypeExpr

open Lexer Grammar

/-! ### Properties between braces -/

section Members

variable {type : Parser TypeTree} {stops : List Token} {first : List Token}
  {value : Member TypeTree}

private theorem head?_ne_of_begins {mark : Token}
    (h : ∃ token, first.head? = some token ∧ token ≠ mark) (behind : List Token) :
    ¬(first ++ behind).head? = some mark := by
  obtain ⟨token, hhead, hne⟩ := h
  rw [List.head?_append, hhead, Option.some_or, Option.some_inj]
  exact hne

/-- A property in front of the closing brace is the last. -/
private theorem members_last (hbrace : .mark '\x7d' ∉ stops)
    (hfirst : Parses (member type) stops first value)
    (hbegins : ∃ token, first.head? = some token ∧ token ≠ .mark '\x7d') (limit : Nat)
    (rest : List Token) :
    Grammar.members type (limit + 1) (first ++ .mark '\x7d' :: rest) = some ([value], rest) := by
  have hmember := hfirst (.mark '\x7d' :: rest) fun token htoken heq => by
    cases heq
    exact hbrace htoken
  rw [Grammar.members, if_neg (head?_ne_of_begins hbegins _)]
  simp only [hmember, Option.bind_eq_bind, Option.bind_some]
  rfl

/-- Behind the semicolon of a property are the others, if any. -/
private theorem members_semicolon (hsemicolon : .mark ';' ∉ stops)
    (hfirst : Parses (member type) stops first value)
    (hbegins : ∃ token, first.head? = some token ∧ token ≠ .mark '\x7d') {limit : Nat}
    {behind rest : List Token} {values : List (Member TypeTree)}
    (hbehind : Grammar.members type limit behind = some (values, rest)) :
    Grammar.members type (limit + 1) (first ++ .mark ';' :: behind) =
      some (value :: values, rest) := by
  have hmember := hfirst (.mark ';' :: behind) fun token htoken heq => by
    cases heq
    exact hsemicolon htoken
  rw [Grammar.members, if_neg (head?_ne_of_begins hbegins _)]
  simp only [hmember, Option.bind_eq_bind, Option.bind_some, hbehind]
  rfl

/-- Properties with semicolons between them, and perhaps after the last, are taken up to the closing
brace. -/
theorem parses_members (hsemicolon : .mark ';' ∉ stops) (hbrace : .mark '\x7d' ∉ stops)
    {lists : List (List Token)} {values : List (Member TypeTree)}
    (h : List.Forall₂ (Parses (member type) stops) lists values)
    (hkeys : ∀ list ∈ lists, ∃ first, list.head? = some first ∧ first ≠ .mark '\x7d')
    {trail : List Token} (htrail : trail = [] ∨ (trail = [.mark ';'] ∧ lists ≠ [])) {limit : Nat}
    (hlimit : lists.length < limit) (rest : List Token) :
    Grammar.members type limit
      ([.mark ';'].intercalate lists ++ (trail ++ .mark '\x7d' :: rest)) = some (values, rest) := by
  induction h generalizing limit with
  | nil =>
    obtain ⟨limit, rfl⟩ := Nat.exists_eq_add_one_of_ne_zero (Nat.ne_of_gt hlimit)
    rw [htrail.resolve_right fun h => h.2 rfl]
    rfl
  | @cons first value more values hfirst hmore ih =>
    obtain ⟨limit, rfl⟩ := Nat.exists_eq_add_one.mpr (Nat.zero_lt_of_lt hlimit)
    obtain ⟨hbegins, hkeys⟩ := List.forall_mem_cons.mp hkeys
    cases hmore with
    | nil =>
      rw [intercalate_cons, List.flatMap_nil, List.append_nil]
      rcases htrail with rfl | ⟨rfl, -⟩
      · exact members_last hbrace hfirst hbegins limit rest
      · obtain ⟨limit, rfl⟩ := Nat.exists_eq_add_one_of_ne_zero
          (Nat.ne_of_gt (Nat.lt_of_succ_lt_succ hlimit))
        -- Nothing but the brace is behind the last semicolon.
        exact members_semicolon hsemicolon hfirst hbegins rfl
    | @cons second value' more values' hsecond hmore =>
      have htail := ih hkeys (htrail.imp_right fun h => ⟨h.1, List.cons_ne_nil _ _⟩)
        (Nat.lt_of_succ_lt_succ hlimit)
      rw [List.intercalate_cons_cons, List.append_assoc, List.append_assoc]
      exact members_semicolon hsemicolon hfirst hbegins htail

end Members

/-! ### Compositions -/

/-- Whether a type is written as a list of alternatives or of factors, its tree is. -/
private theorem tree_of_isList {type : TypeExpr} (h : type.isList = false) :
    type.tree.alternatives = [type.tree] ∧ type.tree.factors = [type.tree] := by
  cases type with
  | literal value =>
    rw [tree]
    cases value <;> exact ⟨rfl, rfl⟩
  | union members => cases h
  | intersection members => cases h
  | _ =>
    rw [tree]
    exact ⟨rfl, rfl⟩

mutual

/-- A type has at least one alternative and one factor. -/
private theorem length_alternatives (type : TypeExpr) (h : type.Readable) :
    1 ≤ type.tree.alternatives.length ∧ 1 ≤ type.tree.factors.length := by
  cases type with
  | union members =>
    rw [Readable] at h
    have hlength := (length_alternativeTrees members h.2).1
    rw [tree]
    exact ⟨Nat.le_trans (Nat.le_of_succ_le h.1) hlength, Nat.le_refl 1⟩
  | intersection members =>
    rw [Readable] at h
    have hlength := (length_alternativeTrees members h.2).2
    rw [tree]
    exact ⟨Nat.le_refl 1, Nat.le_trans (Nat.le_of_succ_le h.1) hlength⟩
  | _ =>
    rw [(tree_of_isList (by rfl)).1, (tree_of_isList (by rfl)).2]
    exact ⟨Nat.le_refl 1, Nat.le_refl 1⟩

private theorem length_alternativeTrees (members : List TypeExpr) (h : ReadableAll members) :
    members.length ≤ (alternativeTrees members).length ∧
      members.length ≤ (factorTrees members).length := by
  cases members with
  | nil => exact ⟨Nat.zero_le _, Nat.zero_le _⟩
  | cons member rest =>
    rw [ReadableAll] at h
    obtain ⟨halternatives, hfactors⟩ := length_alternatives member h.1
    obtain ⟨hrest, hrest'⟩ := length_alternativeTrees rest h.2
    rw [alternativeTrees, factorTrees, List.length_append, List.length_append, List.length_cons]
    omega

end

/-- A composition of several types is what it is composed of. -/
private theorem collect_of_length (wrap : List TypeTree → TypeTree) {trees : List TypeTree}
    (h : 2 ≤ trees.length) : collect wrap trees = wrap trees := by
  match trees, h with
  | [], h => cases h
  | [_], h => cases Nat.le_of_succ_le_succ h
  | _ :: _ :: _, _ => rfl

/-- A type is its alternatives, or its factors, taken together. -/
private theorem collect_alternatives {type : TypeExpr} (h : type.Readable) :
    collect .union type.tree.alternatives = type.tree ∧
      collect .intersection type.tree.factors = type.tree := by
  cases type with
  | union members =>
    rw [Readable] at h
    have hlength := Nat.le_trans h.1 (length_alternativeTrees members h.2).1
    rw [tree]
    exact ⟨collect_of_length .union hlength, rfl⟩
  | intersection members =>
    rw [Readable] at h
    have hlength := Nat.le_trans h.1 (length_alternativeTrees members h.2).2
    rw [tree]
    exact ⟨rfl, collect_of_length .intersection hlength⟩
  | _ =>
    rw [(tree_of_isList (by rfl)).1, (tree_of_isList (by rfl)).2]
    exact ⟨rfl, rfl⟩

/-! ### Places -/

/-- What would go on with a type between ampersands. -/
def factorStops : List Token := [.mark '[', .mark '.']

/-- What would go on with a type between bars. -/
def termStops : List Token := .mark '&' :: factorStops

/-- What would go on with a type. -/
def typeStops : List Token := .mark '|' :: termStops

/-- The tokens of a type inside an intersection. -/
def factorTokens (type : TypeExpr) : List Token :=
  if type.isUnion then .mark '(' :: (type.tokens ++ [.mark ')']) else type.tokens

/-- Whether a parser takes certain tokens, and gives the type with the brackets behind them. -/
def Trails (inner : Parser TypeTree) (tokens : List Token) (tree : TypeTree) : Prop :=
  ∀ rest, rest.head? ≠ some (.mark '.') →
    factor inner (tokens ++ rest) = some (brackets tree rest)

/-- Whether a type is read in each of the places it can have, with others in it nested less than
`depth` deep. -/
structure Reading (depth : Nat) (type : TypeExpr) : Prop where
  trails : type.isList = false → Trails (typeWithin depth) type.tokens type.tree
  terms : Splits (.mark '|') (term (typeWithin depth)) termStops type.tokens type.tree.alternatives
  factors : Splits (.mark '&') (factor (typeWithin depth)) factorStops type.factorTokens
    type.tree.factors

/-- No brackets are taken where none follow. -/
private theorem brackets_of_head? {tree : TypeTree} {rest : List Token}
    (h : rest.head? ≠ some (.mark '[')) : Grammar.brackets tree rest = (tree, rest) := by
  unfold Grammar.brackets
  split
  · exact absurd rfl h
  · rfl

/-- What can be followed by brackets is a factor if none follow. -/
theorem Trails.parses {inner : Parser TypeTree} {tokens : List Token} {tree : TypeTree}
    (h : Trails inner tokens tree) : Parses (factor inner) factorStops tokens tree := by
  intro rest hrest
  have hbracket := hrest (.mark '[') List.mem_cons_self
  have hdot := hrest (.mark '.') (List.mem_cons_of_mem _ List.mem_cons_self)
  rw [h rest hdot, brackets_of_head? hbracket]

theorem trails_of_primary {inner : Parser TypeTree} {tokens : List Token} {tree : TypeTree}
    (h : Parses (primary inner) [.mark '.'] tokens tree) : Trails inner tokens tree := by
  intro rest hrest
  have hstops : ∀ token ∈ [Token.mark '.'], rest.head? ≠ some token := by
    intro token htoken
    rw [List.mem_singleton.mp htoken]
    exact hrest
  rw [factor, h rest hstops]
  rfl

/-- Factors between ampersands are a term. -/
theorem parses_term {depth : Nat} {tokens : List Token} {trees : List TypeTree}
    (h : Splits (.mark '&') (factor (typeWithin depth)) factorStops tokens trees) :
    Parses (term (typeWithin depth)) termStops tokens (collect .intersection trees) := by
  intro rest hrest
  rw [term, h.parses (by decide) rest hrest]
  rfl

/-- Terms between bars are a type, which takes one level of depth. -/
theorem parses_type {depth : Nat} {tokens : List Token} {trees : List TypeTree}
    (h : Splits (.mark '|') (term (typeWithin depth)) termStops tokens trees) :
    Parses (typeWithin (depth + 1)) typeStops tokens (collect .union trees) := by
  intro rest hrest
  rw [typeWithin, alternatives, h.parses (by decide) rest hrest]
  rfl

/-- A type that is read with brackets behind it is read. -/
theorem Trails.parses_type {depth : Nat} {tokens : List Token} {tree : TypeTree}
    (h : Trails (typeWithin depth) tokens tree) :
    Parses (typeWithin (depth + 1)) typeStops tokens tree :=
  TypeExpr.parses_type (.single (parses_term (.single h.parses)))

/-- A type is read with others around it. -/
theorem Reading.parses {depth : Nat} {type : TypeExpr} (h : Reading depth type)
    (hreadable : type.Readable) :
    Parses (typeWithin (depth + 1)) typeStops type.tokens type.tree := by
  have hparses := parses_type h.terms
  rw [(collect_alternatives hreadable).1] at hparses
  exact hparses

/-- A type that is no list is read in all places if it is read with brackets behind it. -/
theorem reading_of_trails {depth : Nat} {type : TypeExpr} (hlist : type.isList = false)
    (h : Trails (typeWithin depth) type.tokens type.tree) : Reading depth type := by
  obtain ⟨halternatives, hfactors⟩ := tree_of_isList hlist
  have hunion : type.isUnion = false := by
    cases type with
    | union members => cases hlist
    | _ => rfl
  have hsplits : Splits (.mark '&') (factor (typeWithin depth)) factorStops type.tokens
      [type.tree] :=
    .single h.parses
  refine ⟨fun _ => h, ?_, ?_⟩
  · rw [halternatives]
    exact .single (parses_term hsplits)
  · rw [hfactors, factorTokens, hunion]
    exact hsplits

/-! ### Types between marks -/

theorem parses_enclosed {inner : Parser TypeTree} {tokens : List Token} {tree : TypeTree}
    (h : Parses inner typeStops tokens tree) (close : Char) (hclose : .mark close ∉ typeStops)
    (rest : List Token) :
    enclosed inner close (tokens ++ .mark close :: rest) = some (tree, rest) := by
  have hinner := h (.mark close :: rest) fun token htoken heq => by
    cases heq
    exact hclose htoken
  simp only [enclosed, hinner, Option.bind_eq_bind, Option.bind_some, token, if_true]
  rfl

/-- A member is its key, whether it is optional, and its type. -/
theorem parses_member {inner : Parser TypeTree} {tokens : List Token} {tree : TypeTree}
    (h : Parses inner typeStops tokens tree) (name : String) (optional : Bool) :
    Parses (member inner) typeStops
      (keyToken name :: ((if optional then [.mark '?'] else []) ++ .mark ':' :: tokens))
      ⟨name, tree, optional⟩ := by
  intro rest hrest
  have hkey (behind : List Token) : key (keyToken name :: behind) = some (name, behind) := by
    unfold keyToken
    split_ifs <;> rfl
  have hmark : mark? '?' ((if optional then [.mark '?'] else []) ++ .mark ':' :: (tokens ++ rest)) =
      some (optional, .mark ':' :: (tokens ++ rest)) := by
    cases optional <;> rfl
  simp only [member, List.cons_append, List.append_assoc, hkey, hmark, Option.bind_eq_bind,
    Option.bind_some, token, if_true, h rest hrest]
  rfl

/-! ### Each kind of type -/

section Kinds

variable {inner : Parser TypeTree}

private theorem trails_keyword (keyword : Keyword) :
    Trails inner [.word keyword.text] (.keyword keyword) := by
  refine trails_of_primary fun rest _ => ?_
  cases keyword <;> rfl

private theorem trails_literal (value : Literal) : Trails inner value.tokens value.tree := by
  -- A negative number is written with a minus sign in front, which is read first.
  have hnumeral {text : String} (h : IsNumeral text) :
      Trails inner (numeralTokens text) (.numeral text) := by
    refine trails_of_primary fun rest _ => ?_
    rcases h with hdigits | ⟨digits, htext, -⟩
    · rw [numeralTokens_of_isDigits hdigits]
      rfl
    · have hsplit : text = "-" ++ String.ofList digits := by
        rw [← String.toList_inj, htext, String.toList_append, String.toList_ofList,
          String.toList_ofList]
        rfl
      rw [numeralTokens_of_minus htext, hsplit]
      rfl
  cases value with
  | string value => exact trails_of_primary fun rest _ => rfl
  | int value => exact hnumeral (isNumeral_toString value)
  | number value => exact hnumeral (isNumeral_text value)
  | bool value =>
    refine trails_of_primary fun rest _ => ?_
    cases value <;> rfl
  | null => exact trails_of_primary fun rest _ => rfl

/-- An array of a type that is no list has brackets behind that type. -/
private theorem trails_brackets {tokens : List Token} {tree : TypeTree}
    (h : Trails inner tokens tree) :
    Trails inner (tokens ++ [.mark '[', .mark ']']) (.array tree) := by
  intro rest hrest
  rw [List.append_assoc, h _ (by rintro ⟨⟩)]
  rfl

/-- An array of any type is a generic type of that type. -/
private theorem trails_generic {tokens : List Token} {tree : TypeTree}
    (h : Parses inner typeStops tokens tree) :
    Trails inner (.word "Array" :: .mark '<' :: (tokens ++ [.mark '>'])) (.array tree) := by
  refine trails_of_primary fun rest _ => ?_
  have hitem := parses_enclosed h '>' (by decide) rest
  have hword : primary inner (.word "Array" :: .mark '<' :: (tokens ++ .mark '>' :: rest)) =
      (enclosed inner '>' (tokens ++ .mark '>' :: rest)).bind fun item =>
        some (.array item.1, item.2) := rfl
  rw [List.cons_append, List.cons_append, List.append_assoc, List.singleton_append, hword, hitem]
  rfl

private theorem trails_record {tokens : List Token} {tree : TypeTree}
    (h : Parses inner typeStops tokens tree) :
    Trails inner
      (.word "Record" :: .mark '<' :: .word "string" :: .mark ',' :: (tokens ++ [.mark '>']))
      (.record tree) := by
  refine trails_of_primary fun rest _ => ?_
  have hvalue := parses_enclosed h '>' (by decide) rest
  have hword : primary inner (.word "Record" :: .mark '<' :: .word "string" :: .mark ',' ::
      (tokens ++ .mark '>' :: rest)) =
        (enclosed inner '>' (tokens ++ .mark '>' :: rest)).bind fun value =>
          some (.record value.1, value.2) := rfl
  rw [List.cons_append, List.cons_append, List.cons_append, List.cons_append, List.append_assoc,
    List.singleton_append, hword, hvalue]
  rfl

private theorem trails_named {name : String}
    (h : ∃ identifier, name = schemasNamespace ++ "." ++ identifier ∧
      Quoted.needsQuotes identifier = false) : Trails inner (nameTokens name) (.named name) := by
  obtain ⟨identifier, rfl, -⟩ := h
  refine trails_of_primary fun rest hrest => ?_
  have hidentifier : Parses word [] [.word identifier] identifier := fun _ _ => rfl
  have hmore : Parses (more (.mark '.') word (rest.length + 2)) [.mark '.']
      ([[.word identifier]].flatMap (.mark '.' :: ·)) [identifier] :=
    parses_more List.not_mem_nil (.cons hidentifier .nil) (Nat.succ_le_succ (Nat.zero_le _))
  have hword : primary inner
      (.word schemasNamespace :: .mark '.' :: .word identifier :: rest) =
        (more (.mark '.') word (rest.length + 2) (.mark '.' :: .word identifier :: rest)).bind
          fun names => some (.named (Text.join "." (schemasNamespace :: names.1)), names.2) := rfl
  have hnames := hmore rest hrest
  rw [List.flatMap_singleton, List.cons_append, List.singleton_append] at hnames
  rw [nameTokens, Reference.after?_append]
  dsimp only [List.cons_append, List.nil_append]
  rw [hword, hnames, Option.bind_some, Text.join_cons_cons, Text.join_singleton]

/-- A type between parentheses is that type. -/
private theorem trails_parentheses {tokens : List Token} {tree : TypeTree}
    (h : Parses inner typeStops tokens tree) :
    Trails inner (.mark '(' :: (tokens ++ [.mark ')'])) tree := by
  refine trails_of_primary fun rest _ => ?_
  rw [List.cons_append, List.append_assoc, List.singleton_append]
  exact parses_enclosed h ')' (by decide) rest

/-- An object type is its properties between braces, with a semicolon after the last perhaps. -/
theorem trails_object {lists : List (List Token)} {values : List (Member TypeTree)}
    (h : List.Forall₂ (Parses (member inner) typeStops) lists values)
    (hkeys : ∀ list ∈ lists, ∃ first, list.head? = some first ∧ first ≠ .mark '\x7d')
    {trail : List Token} (htrail : trail = [] ∨ (trail = [.mark ';'] ∧ lists ≠ [])) :
    Trails inner (.mark '\x7b' :: ([.mark ';'].intercalate lists ++ (trail ++ [.mark '\x7d'])))
      (.object values) := by
  refine trails_of_primary fun rest _ => ?_
  -- The limit is the number of tokens, and every member has at least one.
  have hlength : lists.length ≤ ([Token.mark ';'].intercalate lists).length := by
    cases lists with
    | nil => exact Nat.zero_le _
    | cons first more =>
      obtain ⟨⟨key, hkey, -⟩, -⟩ := List.forall_mem_cons.mp hkeys
      have hpos : 0 < first.length := List.length_pos_of_mem (List.mem_of_mem_head? hkey)
      have hmore := length_le_length_flatMap (.mark ';') more
      rw [intercalate_cons, List.length_append, List.length_cons]
      omega
  have hlimit : lists.length < ([Token.mark ';'].intercalate lists).length +
      (trail ++ .mark '\x7d' :: rest).length := by
    rw [List.length_append, List.length_cons]
    omega
  have hmembers := parses_members (by decide) (by decide) h hkeys htrail hlimit rest
  have hbrace (behind : List Token) : primary inner (.mark '\x7b' :: behind) =
      (Grammar.members inner behind.length behind).bind fun found =>
        some (.object found.1, found.2) := rfl
  rw [List.cons_append, List.append_assoc, List.append_assoc, List.singleton_append, hbrace,
    List.length_append, hmembers]
  rfl

end Kinds

/-! ### Depth -/

mutual

/-- How deep types are nested in a type. -/
def height : TypeExpr → Nat
  | .keyword _ => 0
  | .literal _ => 0
  | .array item => item.height + 1
  | .object members => heightOfMembers members + 1
  | .record value => value.height + 1
  | .union members => heightOfAll members + 1
  | .intersection members => heightOfAll members + 1
  | .named _ => 0

/-- How deep types are nested in the types of a list. -/
def heightOfAll : List TypeExpr → Nat
  | [] => 0
  | member :: rest => max member.height (heightOfAll rest)

/-- How deep types are nested in the types of properties. -/
def heightOfMembers : List (Member TypeExpr) → Nat
  | [] => 0
  | member :: rest => max member.type.height (heightOfMembers rest)

end

/-- Parentheses only add tokens. -/
private theorem length_le_length_factorTokens (type : TypeExpr) :
    type.tokens.length ≤ type.factorTokens.length := by
  unfold factorTokens
  split_ifs
  · simp only [List.length_cons, List.length_append]
    omega
  · exact Nat.le_refl _

/-- The tokens of a property begin with its key. -/
theorem head?_memberLists (members : List (Member TypeExpr)) :
    ∀ list ∈ memberLists members, ∃ first, list.head? = some first ∧ first ≠ .mark '\x7d' := by
  induction members with
  | nil =>
    rw [memberLists]
    exact fun _ hmem => absurd hmem List.not_mem_nil
  | cons member rest ih =>
    rw [memberLists]
    refine List.forall_mem_cons.mpr ⟨⟨keyToken member.name, rfl, ?_⟩, ih⟩
    unfold keyToken
    split_ifs <;> rintro ⟨⟩

mutual

/-- A type has more tokens than it is deep. -/
theorem height_lt_length_tokens (type : TypeExpr) (h : type.Readable) :
    type.height < type.tokens.length := by
  cases type with
  | keyword word =>
    rw [height, tokens]
    exact Nat.zero_lt_one
  | literal value =>
    -- A minus sign is a token of its own, and the digits are another one.
    have hnumeral (text : String) : 0 < (numeralTokens text).length := by
      unfold numeralTokens
      split <;> exact Nat.zero_lt_succ _
    rw [height, tokens]
    cases value with
    | int value => exact hnumeral _
    | number value => exact hnumeral _
    | _ => exact Nat.zero_lt_one
  | array item =>
    rw [Readable] at h
    have hitem := height_lt_length_tokens item h
    rw [height, tokens]
    split_ifs
    · simp only [List.length_cons, List.length_append]
      omega
    · simp only [List.length_cons, List.length_append]
      omega
  | object members =>
    rw [Readable] at h
    have hmembers := heightOfMembers_le members h
    rw [height, tokens]
    simp only [List.length_cons, List.length_append]
    omega
  | record value =>
    rw [Readable] at h
    have hvalue := height_lt_length_tokens value h
    rw [height, tokens]
    simp only [List.length_cons, List.length_append]
    omega
  | union members =>
    rw [Readable] at h
    have hmembers := (heightOfAll_le members h.2).1
    rw [height, tokens]
    omega
  | intersection members =>
    rw [Readable] at h
    have hmembers := (heightOfAll_le members h.2).2
    rw [height, tokens]
    omega
  | named name =>
    rw [height, tokens]
    unfold nameTokens
    split <;> exact Nat.zero_lt_succ _

/-- Types are no higher than they are long, their separators counted. -/
private theorem heightOfAll_le (members : List TypeExpr) (h : ReadableAll members) :
    heightOfAll members + members.length ≤
        ([Token.mark '|'].intercalate (tokenLists members)).length ∧
      heightOfAll members + members.length ≤
        ([Token.mark '&'].intercalate (factorLists members)).length := by
  match members, h with
  | [], _ => exact ⟨Nat.le_refl 0, Nat.le_refl 0⟩
  -- There is one separator less than there are members, so that a single one has to be taken alone.
  | [member], h =>
    rw [ReadableAll] at h
    have hmember := height_lt_length_tokens member h.1
    have hfactor := length_le_length_factorTokens member
    rw [factorTokens] at hfactor
    simp only [heightOfAll, tokenLists, factorLists, List.intercalate_singleton, List.length_cons,
      List.length_nil]
    omega
  | member :: second :: rest, h =>
    rw [ReadableAll] at h
    have hmember := height_lt_length_tokens member h.1
    have hfactor := length_le_length_factorTokens member
    have hrest := heightOfAll_le (second :: rest) h.2
    rw [factorTokens] at hfactor
    rw [heightOfAll, List.length_cons, tokenLists, factorLists]
    rw [tokenLists, factorLists] at hrest ⊢
    simp only [List.intercalate_cons_cons, List.length_append, List.length_singleton]
    omega

theorem heightOfMembers_le (members : List (Member TypeExpr)) (h : ReadableMembers members) :
    heightOfMembers members ≤ ([Token.mark ';'].intercalate (memberLists members)).length := by
  match members, h with
  | [], _ => exact Nat.le_refl 0
  | [member], h =>
    rw [ReadableMembers] at h
    have hmember := height_lt_length_tokens member.type h.1
    simp only [heightOfMembers, memberLists, List.intercalate_singleton, List.length_cons,
      List.length_append]
    omega
  | member :: second :: rest, h =>
    rw [ReadableMembers] at h
    have hmember := height_lt_length_tokens member.type h.1
    have hrest := heightOfMembers_le (second :: rest) h.2
    rw [heightOfMembers, memberLists]
    rw [memberLists] at hrest ⊢
    simp only [List.intercalate_cons_cons, List.length_append, List.length_cons]
    omega

end

/-! ### Types are read -/

mutual

/-- **Precedence.** In each of its places a type is read as that type from its tokens. -/
theorem reading (type : TypeExpr) (h : type.Readable) (depth : Nat) (hdepth : type.height ≤ depth) :
    Reading depth type := by
  cases type with
  | keyword word =>
    refine reading_of_trails rfl ?_
    rw [tokens, tree]
    exact trails_keyword word
  | literal value =>
    refine reading_of_trails rfl ?_
    rw [tokens, tree]
    exact trails_literal value
  | array item =>
    rw [Readable] at h
    rw [height] at hdepth
    refine reading_of_trails rfl ?_
    rw [tokens, tree]
    split_ifs with hlist
    · obtain ⟨depth, rfl⟩ := Nat.exists_eq_add_one.mpr (Nat.zero_lt_of_lt hdepth)
      have hitem := reading item h depth (Nat.le_of_succ_le_succ hdepth)
      exact trails_generic (hitem.parses h)
    · have hitem := reading item h depth (Nat.le_of_succ_le hdepth)
      exact trails_brackets (hitem.trails (Bool.not_eq_true _ ▸ hlist))
  | object members =>
    rw [Readable] at h
    rw [height] at hdepth
    obtain ⟨depth, rfl⟩ := Nat.exists_eq_add_one.mpr (Nat.zero_lt_of_lt hdepth)
    have hmembers := reading_members members h depth (Nat.le_of_succ_le_succ hdepth)
    refine reading_of_trails rfl ?_
    rw [tokens, tree]
    exact trails_object hmembers (head?_memberLists members) (Or.inl rfl)
  | record value =>
    rw [Readable] at h
    rw [height] at hdepth
    obtain ⟨depth, rfl⟩ := Nat.exists_eq_add_one.mpr (Nat.zero_lt_of_lt hdepth)
    have hvalue := reading value h depth (Nat.le_of_succ_le_succ hdepth)
    refine reading_of_trails rfl ?_
    rw [tokens, tree]
    exact trails_record (hvalue.parses h)
  | union members =>
    have hreadable := h
    rw [Readable] at h
    rw [height] at hdepth
    obtain ⟨depth, rfl⟩ := Nat.exists_eq_add_one.mpr (Nat.zero_lt_of_lt hdepth)
    have hne : members ≠ [] := List.ne_nil_of_length_pos (Nat.lt_of_lt_of_le Nat.zero_lt_two h.1)
    have hterms := reading_alternatives members h.2 hne (depth + 1) (Nat.le_of_succ_le hdepth)
    have hinner := reading_alternatives members h.2 hne depth (Nat.le_of_succ_le_succ hdepth)
    have htype := parses_type hinner
    have htree := (collect_alternatives hreadable).1
    rw [tree] at htree
    refine ⟨fun hlist => absurd hlist Bool.noConfusion, ?_, ?_⟩
    · rw [tokens, tree]
      exact hterms
    · -- Inside an intersection the alternatives stand between parentheses.
      rw [factorTokens, isUnion, if_pos rfl, tokens, tree]
      rw [show collect .union (alternativeTrees members) = _ from htree] at htype
      exact .single (trails_parentheses htype).parses
  | intersection members =>
    have hreadable := h
    rw [Readable] at h
    rw [height] at hdepth
    have hne : members ≠ [] := List.ne_nil_of_length_pos (Nat.lt_of_lt_of_le Nat.zero_lt_two h.1)
    have hfactors := reading_factors members h.2 hne depth (Nat.le_of_succ_le hdepth)
    have hterm := parses_term hfactors
    have htree := (collect_alternatives hreadable).2
    rw [tree] at htree
    refine ⟨fun hlist => absurd hlist Bool.noConfusion, ?_, ?_⟩
    · rw [tokens, tree]
      rw [show collect .intersection (factorTrees members) = _ from htree] at hterm
      exact .single hterm
    · have hunion : ¬(intersection members).isUnion = true := Bool.false_ne_true
      rw [factorTokens, if_neg hunion, tokens, tree]
      exact hfactors
  | named name =>
    rw [Readable] at h
    refine reading_of_trails rfl ?_
    rw [tokens, tree]
    exact trails_named h

/-- Alternatives are read back between bars, each as its own alternatives. -/
private theorem reading_alternatives (members : List TypeExpr) (h : ReadableAll members)
    (hne : members ≠ []) (depth : Nat) (hdepth : heightOfAll members ≤ depth) :
    Splits (.mark '|') (term (typeWithin depth)) termStops
      ([.mark '|'].intercalate (tokenLists members)) (alternativeTrees members) := by
  match members, h with
  | [], _ => exact absurd rfl hne
  -- Separators stand between members, so that the last one is taken alone.
  | [member], h =>
    rw [ReadableAll] at h
    rw [heightOfAll] at hdepth
    have hmember := reading member h.1 depth (Nat.le_trans (Nat.le_max_left _ _) hdepth)
    simp only [tokenLists, alternativeTrees, List.intercalate_singleton, List.append_nil]
    exact hmember.terms
  | member :: second :: rest, h =>
    rw [ReadableAll] at h
    rw [heightOfAll] at hdepth
    have hmember := reading member h.1 depth (Nat.le_trans (Nat.le_max_left _ _) hdepth)
    have hrest := reading_alternatives (second :: rest) h.2 (List.cons_ne_nil _ _) depth
      (Nat.le_trans (Nat.le_max_right _ _) hdepth)
    rw [tokenLists, alternativeTrees]
    rw [tokenLists] at hrest ⊢
    rw [List.intercalate_cons_cons, List.append_assoc, List.singleton_append]
    exact hmember.terms.append hrest

private theorem reading_factors (members : List TypeExpr) (h : ReadableAll members)
    (hne : members ≠ []) (depth : Nat) (hdepth : heightOfAll members ≤ depth) :
    Splits (.mark '&') (factor (typeWithin depth)) factorStops
      ([.mark '&'].intercalate (factorLists members)) (factorTrees members) := by
  match members, h with
  | [], _ => exact absurd rfl hne
  | [member], h =>
    rw [ReadableAll] at h
    rw [heightOfAll] at hdepth
    have hmember := reading member h.1 depth (Nat.le_trans (Nat.le_max_left _ _) hdepth)
    simp only [factorLists, factorTrees, List.intercalate_singleton, List.append_nil]
    exact hmember.factors
  | member :: second :: rest, h =>
    rw [ReadableAll] at h
    rw [heightOfAll] at hdepth
    have hmember := reading member h.1 depth (Nat.le_trans (Nat.le_max_left _ _) hdepth)
    have hrest := reading_factors (second :: rest) h.2 (List.cons_ne_nil _ _) depth
      (Nat.le_trans (Nat.le_max_right _ _) hdepth)
    rw [factorLists, factorTrees]
    rw [factorLists] at hrest ⊢
    rw [List.intercalate_cons_cons, List.append_assoc, List.singleton_append]
    exact hmember.factors.append hrest

theorem reading_members (members : List (Member TypeExpr)) (h : ReadableMembers members)
    (depth : Nat) (hdepth : heightOfMembers members ≤ depth) :
    List.Forall₂ (Parses (member (typeWithin (depth + 1))) typeStops) (memberLists members)
      (memberTrees members) := by
  match members, h with
  | [], _ =>
    rw [memberLists, memberTrees]
    exact .nil
  | ⟨name, type, optional⟩ :: rest, h =>
    rw [ReadableMembers] at h
    rw [heightOfMembers] at hdepth
    have htype := reading type h.1 depth (Nat.le_trans (Nat.le_max_left _ _) hdepth)
    have hrest := reading_members rest h.2 depth (Nat.le_trans (Nat.le_max_right _ _) hdepth)
    rw [memberLists, memberTrees]
    exact .cons (parses_member (htype.parses h.1) name optional) hrest

end

end ClientGen.Script.TypeExpr
