import ClientGen.Literal
import ClientGen.Proofs.Script.Lexer

/-!
# Literals as tokens

A literal is one token, or two for a negative number: the minus sign is a mark of its own. The text
of an integer or of a number has no exponent and begins with a digit after its sign
(`isNumeral_toString`, `isNumeral_text`), so that it is read back as it is written.
-/

namespace ClientGen

open Script Script.Lexer

/-! ### Numerals -/

/-- Whether characters are a digit and then digits with points among them. -/
def IsDigits (chars : List Char) : Prop :=
  ∃ c rest, chars = c :: rest ∧ c.isDigit = true ∧ ∀ d ∈ rest, (d.isDigit || d == '.') = true

/-- Whether a text is a number without an exponent, with a minus sign perhaps. -/
def IsNumeral (text : String) : Prop :=
  IsDigits text.toList ∨ ∃ digits, text.toList = '-' :: digits ∧ IsDigits digits

/-- Characters that are digits are digits of a number, if there are any. -/
theorem isDigits_of_forall_isDigit {chars : List Char} (hne : chars ≠ [])
    (h : ∀ c ∈ chars, c.isDigit = true) : IsDigits chars := by
  obtain ⟨c, rest, rfl⟩ := List.exists_cons_of_ne_nil hne
  refine ⟨c, rest, rfl, h c List.mem_cons_self, fun d hd => ?_⟩
  rw [h d (List.mem_cons_of_mem c hd), Bool.true_or]

/-- Digits and points may follow the digits of a number. -/
theorem IsDigits.append {chars more : List Char} (h : IsDigits chars)
    (hmore : ∀ d ∈ more, (d.isDigit || d == '.') = true) : IsDigits (chars ++ more) := by
  obtain ⟨c, rest, rfl, hc, hrest⟩ := h
  refine ⟨c, rest ++ more, rfl, hc, fun d hd => ?_⟩
  exact (List.mem_append.mp hd).elim (hrest d) (hmore d)

/-- The decimal digits of a number are digits. -/
private theorem isDigit_of_mem_toDigits {n : Nat} {c : Char} (h : c ∈ Nat.toDigits 10 n) :
    c.isDigit = true :=
  Nat.isDigit_of_mem_toDigits (by decide) (by decide) h

theorem isDigits_toDigits (n : Nat) : IsDigits (Nat.toDigits 10 n) :=
  isDigits_of_forall_isDigit Nat.toDigits_ne_nil fun _ => isDigit_of_mem_toDigits

/-- An integer is written as a numeral. -/
theorem isNumeral_toString (value : Int) : IsNumeral (toString value) := by
  cases value with
  | ofNat n =>
    left
    have htext : (toString (Int.ofNat n)).toList = Nat.toDigits 10 n := by
      change (Nat.repr n).toList = _
      rw [Nat.repr_eq_ofList_toDigits, String.toList_ofList]
    rw [htext]
    exact isDigits_toDigits n
  | negSucc n =>
    right
    have htext : (toString (Int.negSucc n)).toList = '-' :: Nat.toDigits 10 (n + 1) := by
      change ("-" ++ Nat.repr (n + 1)).toList = _
      rw [String.toList_append, Nat.repr_eq_ofList_toDigits, String.toList_ofList,
        String.toList_ofList]
      rfl
    exact ⟨_, htext, isDigits_toDigits (n + 1)⟩

private theorem isDigit_of_mem_zeros {n : Nat} {c : Char} (h : c ∈ Decimal.zeros n) :
    c.isDigit = true := by
  rw [List.eq_of_mem_replicate h]
  rfl

/-- A decimal in positional notation is written in digits and points. -/
theorem isDigits_positional (d : Decimal) : IsDigits d.positional := by
  have hdigit {c : Char} (h : c.isDigit = true) : (c.isDigit || c == '.') = true := by
    rw [h, Bool.true_or]
  unfold Decimal.positional
  dsimp only
  split_ifs with hexponent hzero hplaces
  · exact ⟨'0', [], rfl, rfl, fun _ h => absurd h List.not_mem_nil⟩
  · exact (isDigits_toDigits _).append fun c hc => hdigit (isDigit_of_mem_zeros hc)
  · refine IsDigits.append (isDigits_of_forall_isDigit ?_ fun c hc => ?_) ?_
    · -- There are more digits than places after the point.
      intro hnil
      have hlength := congrArg List.length hnil
      rw [List.length_take, List.length_nil] at hlength
      omega
    · exact isDigit_of_mem_toDigits (List.mem_of_mem_take hc)
    · refine List.forall_mem_cons.mpr ⟨rfl, fun c hc => ?_⟩
      exact hdigit (isDigit_of_mem_toDigits (List.mem_of_mem_drop hc))
  · refine ⟨'0', _, rfl, rfl, List.forall_mem_cons.mpr ⟨rfl, fun c hc => hdigit ?_⟩⟩
    exact (List.mem_append.mp hc).elim isDigit_of_mem_zeros isDigit_of_mem_toDigits

/-- A floating-point number is written as a numeral. -/
theorem isNumeral_text (value : Binary64) : IsNumeral value.text := by
  unfold Binary64.text
  dsimp only
  split_ifs
  · exact Or.inr ⟨_, String.toList_ofList, isDigits_positional _⟩
  · left
    rw [String.toList_ofList]
    exact isDigits_positional _

/-! ### Tokens -/

/-- The tokens of a number without an exponent. -/
def numeralTokens (text : String) : List Token :=
  match text.toList with
  | '-' :: digits => [.mark '-', .number (String.ofList digits)]
  | _ => [.number text]

/-- The tokens of a literal. -/
def Literal.tokens : Literal → List Token
  | .string value => [.string value]
  | .int value => numeralTokens (toString value)
  | .number value => numeralTokens value.text
  | .bool value => [.word (if value then "true" else "false")]
  | .null => [.word "null"]

private theorem reads_digits {text : String} (h : IsDigits text.toList) :
    Reads text [.number text] := by
  obtain ⟨c, rest, htext, hc, hrest⟩ := h
  exact reads_number htext hc hrest

/-- A numeral without a sign is one token. -/
theorem numeralTokens_of_isDigits {text : String} (h : IsDigits text.toList) :
    numeralTokens text = [.number text] := by
  obtain ⟨c, rest, htext, hc, -⟩ := h
  rw [numeralTokens, htext]
  split
  next digits heq =>
    cases heq
    cases hc
  next => rfl

/-- A numeral with a sign is two tokens. -/
theorem numeralTokens_of_minus {text : String} {digits : List Char}
    (h : text.toList = '-' :: digits) :
    numeralTokens text = [.mark '-', .number (String.ofList digits)] := by
  rw [numeralTokens, h]
  rfl

/-- A numeral is read as its tokens. -/
theorem reads_numeral {text : String} (h : IsNumeral text) : Reads text (numeralTokens text) := by
  rcases h with hdigits | ⟨digits, htext, hdigits⟩
  · rw [numeralTokens_of_isDigits hdigits]
    exact reads_digits hdigits
  · have hsplit : text = "-" ++ String.ofList digits := by
      rw [← String.toList_inj, htext, String.toList_append, String.toList_ofList,
        String.toList_ofList]
      rfl
    have hminus : run .idle "-".toList = some ([.mark '-'], .idle) := rfl
    rw [numeralTokens_of_minus htext, hsplit]
    refine Reads.append_of_run hminus (reads_digits ?_)
    rw [String.toList_ofList]
    exact hdigits

/-- **Literals.** A literal is read as its tokens. -/
theorem Literal.reads_text (value : Literal) : Reads value.text value.tokens := by
  cases value with
  | string value => exact reads_of_run (run_quote value)
  | int value => exact reads_numeral (isNumeral_toString value)
  | number value => exact reads_numeral (isNumeral_text value)
  | bool value =>
    cases value
    · exact reads_word rfl
    · exact reads_word rfl
  | null => exact reads_word rfl

end ClientGen
