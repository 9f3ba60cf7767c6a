import ClientGen.Identifier
import ClientGen.Method
import ClientGen.Registry
import Mathlib.Data.List.Basic

/-!
# Shapes of identifiers

A declaration is called by a letter or an underscore with letters, digits and underscores after it,
and not by a reserved word. Names of types and names of endpoints both have this shape, whatever
they are made from (`isTypeName_typeName`, `isEndpointName_endpointName`), and a number at the end
of one keeps it: no reserved word ends in a digit. The two kinds are apart, because an endpoint's
name begins with a small letter and a type's name never does.
-/

namespace ClientGen.Identifier

/-- A character that an identifier may begin with. -/
def isStart (c : Char) : Bool :=
  c.isAlpha || c == '_'

/-- A character that may stand inside an identifier. -/
def isPart (c : Char) : Bool :=
  c.isAlphanum || c == '_'

/-- Whether a text is an identifier: a letter or an underscore, and then letters, digits and
underscores. -/
def isIdentifier (name : String) : Bool :=
  match name.toList with
  | [] => false
  | c :: rest => isStart c && rest.all isPart

/-- What is true of all names of types. -/
structure IsTypeName (name : String) : Prop where
  identifier : isIdentifier name = true
  unreserved : name ∉ reservedWords
  capital : ∀ c ∈ name.toList.head?, c.isLower = false

/-- What is true of all names of endpoints. -/
structure IsEndpointName (name : String) : Prop where
  identifier : isIdentifier name = true
  unreserved : name ∉ reservedWords
  small : ∀ c ∈ name.toList.head?, c.isLower = true
  joined : '_' ∈ name.toList

/-! ### Identifiers -/

/-- Letters and digits may be parts of identifiers. -/
theorem isPart_of_isAlphanum {c : Char} (h : c.isAlphanum = true) : isPart c = true := by
  rw [isPart, h, Bool.true_or]

/-- What may begin an identifier may stand inside it. -/
theorem isPart_of_isStart {c : Char} (h : isStart c = true) : isPart c = true := by
  rw [isStart, Bool.or_eq_true] at h
  rw [isPart, Char.isAlphanum, Bool.or_eq_true, Bool.or_eq_true]
  exact h.imp_left Or.inl

/-- An identifier is a character that may begin one, with parts of identifiers behind it. -/
theorem isIdentifier_iff {name : String} :
    isIdentifier name = true ↔
      ∃ c rest, name.toList = c :: rest ∧ isStart c = true ∧ ∀ d ∈ rest, isPart d = true := by
  unfold isIdentifier
  split
  next h => simp [h]
  next c rest h => simp [h, List.all_eq_true]

/-- All characters of an identifier may be parts of identifiers. -/
theorem isPart_of_mem {name : String} (h : isIdentifier name = true) {c : Char}
    (hc : c ∈ name.toList) : isPart c = true := by
  obtain ⟨first, rest, hname, hfirst, hrest⟩ := isIdentifier_iff.mp h
  rw [hname] at hc
  rcases List.mem_cons.mp hc with rfl | hmem
  · exact isPart_of_isStart hfirst
  · exact hrest c hmem

/-- More characters that may stand inside an identifier keep it one. -/
theorem isIdentifier_append {name suffix : String} (h : isIdentifier name = true)
    (hsuffix : ∀ c ∈ suffix.toList, isPart c = true) : isIdentifier (name ++ suffix) = true := by
  obtain ⟨c, rest, hname, hc, hrest⟩ := isIdentifier_iff.mp h
  refine isIdentifier_iff.mpr ⟨c, rest ++ suffix.toList, ?_, hc, fun d hd => ?_⟩
  · rw [String.toList_append, hname, List.cons_append]
  · exact (List.mem_append.mp hd).elim (hrest d) (hsuffix d)

/-- What follows an identifier does not change its first character. -/
theorem head?_append_of_isIdentifier {name : String} (h : isIdentifier name = true)
    (suffix : String) : (name ++ suffix).toList.head? = name.toList.head? := by
  obtain ⟨c, rest, hname, -, -⟩ := isIdentifier_iff.mp h
  rw [String.toList_append, hname, List.cons_append, List.head?_cons, List.head?_cons]

/-! ### Reserved words -/

/-- No reserved word has an underscore in it or ends in a digit. -/
private theorem reservedWords_shape : ∀ word ∈ reservedWords,
    '_' ∉ word.toList ∧ ∀ c ∈ word.toList.getLast?, c.isDigit = false := by
  -- As a proposition about all characters of a word, it would be decided over all characters.
  have hwords : reservedWords.all (fun word => !word.toList.contains '_' &&
      word.toList.getLast?.all fun c => !c.isDigit) = true := by
    decide +kernel
  intro word hword
  have hshape := List.all_eq_true.mp hwords word hword
  simp only [Bool.and_eq_true, Bool.not_eq_true', List.contains_eq_mem, decide_eq_false_iff_not,
    Option.all_eq_true] at hshape
  exact hshape

/-- A name with an underscore in it is not reserved. -/
theorem notMem_reservedWords_of_underscore {name : String} (h : '_' ∈ name.toList) :
    name ∉ reservedWords :=
  fun hmem => (reservedWords_shape name hmem).1 h

/-- The digits of a number, of which there is at least one. -/
private theorem toList_toString_nat (n : Nat) :
    (toString n).toList ≠ [] ∧ ∀ c ∈ (toString n).toList, c.isDigit = true := by
  have hchars : (toString n).toList = Nat.toDigits 10 n := by
    rw [Nat.toString_eq_repr, Nat.repr_eq_ofList_toDigits, String.toList_ofList]
  rw [hchars]
  exact ⟨Nat.toDigits_ne_nil, fun c hc => Nat.isDigit_of_mem_toDigits (by decide) (by decide) hc⟩

/-- A name with a number behind it is not reserved. -/
private theorem numbered_notMem_reservedWords (base : String) (n : Nat) :
    Registry.numbered base n ∉ reservedWords := by
  intro hmem
  obtain ⟨hne, hdigits⟩ := toList_toString_nat (n + 2)
  obtain ⟨digits, last, hsplit⟩ := (List.eq_nil_or_concat' _).resolve_left hne
  have hlast : (Registry.numbered base n).toList.getLast? = some last := by
    rw [Registry.numbered, String.toList_append, hsplit, ← List.append_assoc,
      List.getLast?_concat]
  have hdigit : last.isDigit = true := by
    refine hdigits last ?_
    rw [hsplit]
    exact List.mem_append_right _ (List.mem_singleton_self last)
  have hletter := (reservedWords_shape _ hmem).2 last hlast
  rw [hdigit] at hletter
  cases hletter

/-! ### Numbers at the end -/

/-- The digits of a number may be parts of identifiers. -/
private theorem isPart_of_mem_toString {n : Nat} {c : Char} (h : c ∈ (toString n).toList) :
    isPart c = true := by
  have hdigit := (toList_toString_nat n).2 c h
  rw [isPart, Char.isAlphanum, hdigit, Bool.or_true, Bool.true_or]

/-- The name of a type stays one with a number behind it. -/
theorem IsTypeName.numbered {base : String} (h : IsTypeName base) (n : Nat) :
    IsTypeName (Registry.numbered base n) where
  identifier := isIdentifier_append h.identifier fun _ => isPart_of_mem_toString
  unreserved := numbered_notMem_reservedWords base n
  capital c hc := by
    rw [Registry.numbered, head?_append_of_isIdentifier h.identifier] at hc
    exact h.capital c hc

/-- The name of an endpoint stays one with a number behind it. -/
theorem IsEndpointName.numbered {base : String} (h : IsEndpointName base) (n : Nat) :
    IsEndpointName (Registry.numbered base n) where
  identifier := isIdentifier_append h.identifier fun _ => isPart_of_mem_toString
  unreserved := numbered_notMem_reservedWords base n
  small c hc := by
    rw [Registry.numbered, head?_append_of_isIdentifier h.identifier] at hc
    exact h.small c hc
  joined := by
    rw [Registry.numbered, String.toList_append]
    exact List.mem_append_left _ h.joined

/-! ### Words with capitals -/

/-- The code points of small letters. -/
theorem isLower_iff {c : Char} : c.isLower = true ↔ 97 ≤ c.val.toNat ∧ c.val.toNat ≤ 122 :=
  Bool.and_eq_true_iff.trans (and_congr decide_eq_true_iff decide_eq_true_iff)

/-- The code points of capital letters. -/
theorem isUpper_iff {c : Char} : c.isUpper = true ↔ 65 ≤ c.val.toNat ∧ c.val.toNat ≤ 90 :=
  decide_eq_true_iff

theorem isAlpha_eq (c : Char) : c.isAlpha = (c.isUpper || c.isLower) :=
  rfl

/-- The code points of digits. -/
theorem isDigit_iff {c : Char} : c.isDigit = true ↔ 48 ≤ c.val.toNat ∧ c.val.toNat ≤ 57 :=
  Bool.and_eq_true_iff.trans (and_congr decide_eq_true_iff decide_eq_true_iff)

private theorem isLower_of_isUpper {c : Char} (h : c.isUpper = true) : c.isLower = false := by
  rw [← Bool.not_eq_true, isLower_iff]
  rw [isUpper_iff] at h
  omega

theorem isLower_of_isDigit {c : Char} (h : c.isDigit = true) : c.isLower = false := by
  rw [← Bool.not_eq_true, isLower_iff]
  rw [isDigit_iff] at h
  omega

theorem isUpper_of_isDigit {c : Char} (h : c.isDigit = true) : c.isUpper = false := by
  rw [← Bool.not_eq_true, isUpper_iff]
  rw [isDigit_iff] at h
  omega

/-- The capital of a letter is a capital, and a digit is its own. -/
private theorem toUpper_of_isAlphanum {c : Char} (h : c.isAlphanum = true) :
    c.toUpper.isUpper = true ∨ (c.isDigit = true ∧ c.toUpper = c) := by
  have hsmall : ('a'.val ≤ c.val ∧ c.val ≤ 'z'.val) ↔ c.isLower = true := isLower_iff.symm
  unfold Char.toUpper
  by_cases hlower : c.isLower = true
  · left
    rw [dif_pos (hsmall.mpr hlower), isUpper_iff, UInt32.toNat_add]
    -- A small letter is thirty-two places behind its capital.
    have hshift : ('A'.val - 'a'.val).toNat = 4294967264 := by decide
    have hbounds := isLower_iff.mp hlower
    rw [hshift]
    omega
  · rw [dif_neg (mt hsmall.mp hlower)]
    rw [Char.isAlphanum, isAlpha_eq, Bool.or_eq_true, Bool.or_eq_true] at h
    exact h.imp (·.resolve_right hlower) fun hdigit => ⟨hdigit, rfl⟩

/-- Only letters and digits are left in words that are run together. -/
theorem isAlphanum_of_mem_pascalChars {start : Bool} {text : List Char} {c : Char}
    (h : c ∈ pascalChars start text) : c.isAlphanum = true := by
  induction text generalizing start with
  | nil => cases h
  | cons first rest ih =>
    rw [pascalChars] at h
    split_ifs at h with hfirst hstart
    · rcases List.mem_cons.mp h with rfl | hmem
      · rcases toUpper_of_isAlphanum hfirst with hupper | ⟨-, heq⟩
        · rw [Char.isAlphanum, isAlpha_eq, hupper, Bool.true_or, Bool.true_or]
        · rw [heq, hfirst]
      · exact ih hmem
    · rcases List.mem_cons.mp h with rfl | hmem
      · exact hfirst
      · exact ih hmem
    · exact ih h

/-- The first character is no small letter. -/
theorem isLower_head_pascalChars {text : List Char} {c : Char}
    (h : c ∈ (pascalChars true text).head?) : c.isLower = false := by
  induction text with
  | nil => cases h
  | cons first rest ih =>
    rw [pascalChars] at h
    by_cases hfirst : first.isAlphanum = true
    · rw [if_pos hfirst, if_pos rfl, List.head?_cons, Option.mem_some_iff] at h
      subst h
      rcases toUpper_of_isAlphanum hfirst with hupper | ⟨hdigit, heq⟩
      · exact isLower_of_isUpper hupper
      · rw [heq]
        exact isLower_of_isDigit hdigit
    · rw [if_neg hfirst] at h
      exact ih h

theorem isAlphanum_of_mem_pascalCase {text : String} {c : Char} (h : c ∈ (pascalCase text).toList) :
    c.isAlphanum = true := by
  rw [pascalCase, String.toList_ofList] at h
  exact isAlphanum_of_mem_pascalChars h

/-! ### Names of types -/

/-- An underscore in front of a name makes it one that is not reserved. -/
private theorem isTypeName_underscore {name : String}
    (h : ∀ c ∈ name.toList, isPart c = true) : IsTypeName ("_" ++ name) := by
  have hchars : ("_" ++ name).toList = '_' :: name.toList := String.toList_append
  refine ⟨isIdentifier_iff.mpr ⟨'_', name.toList, hchars, rfl, h⟩, ?_, ?_⟩
  · refine notMem_reservedWords_of_underscore ?_
    rw [hchars]
    exact List.mem_cons_self
  · rw [hchars]
    rintro c ⟨⟩
    rfl

/-- An identifier that does not begin with a small letter is the name of a type, once reserved words
are guarded. -/
private theorem isTypeName_guardReserved {name : String} (h : isIdentifier name = true)
    (hcapital : ∀ c ∈ name.toList.head?, c.isLower = false) :
    IsTypeName (guardReserved name) := by
  unfold guardReserved
  split_ifs with hreserved
  · exact isTypeName_underscore fun _ => isPart_of_mem h
  · exact ⟨h, hreserved, hcapital⟩

/-- **Names of types.** Whatever a type is called, its identifier has the shape of one, is not
reserved, and does not begin with a small letter. -/
theorem isTypeName_typeName (name : String) : IsTypeName (typeName name) := by
  unfold typeName
  dsimp only
  split_ifs with hempty
  · -- Nothing is left of the name, which is replaced by a fixed one.
    have hparts : "empty".toList.all isPart = true := by decide
    exact isTypeName_underscore (List.all_eq_true.mp hparts)
  · have hparts : ∀ c ∈ (pascalCase name).toList, isPart c = true :=
      fun c hc => isPart_of_isAlphanum (isAlphanum_of_mem_pascalCase hc)
    obtain ⟨c, rest, hchars⟩ := List.exists_cons_of_ne_nil
      (mt String.toList_eq_nil_iff.mp hempty)
    have halnum : c.isAlphanum = true :=
      isAlphanum_of_mem_pascalCase (hchars ▸ List.mem_cons_self)
    -- A leading digit is guarded by an underscore. Otherwise the first character is a letter.
    by_cases hdigit : c.isDigit = true
    · have hguard : guardDigit (pascalCase name) = "_" ++ pascalCase name := by
        simp only [guardDigit, hchars, hdigit, if_true]
      have hname := isTypeName_underscore hparts
      rw [hguard]
      exact isTypeName_guardReserved hname.identifier hname.capital
    · have hguard : guardDigit (pascalCase name) = pascalCase name := by
        simp only [guardDigit, hchars, hdigit, if_false, Bool.false_eq_true]
      rw [hguard]
      refine isTypeName_guardReserved (isIdentifier_iff.mpr ⟨c, rest, hchars, ?_, ?_⟩) ?_
      · rw [Char.isAlphanum, Bool.or_eq_true] at halnum
        rw [isStart, halnum.resolve_right hdigit, Bool.true_or]
      · exact fun d hd => hparts d (hchars ▸ List.mem_cons_of_mem c hd)
      · intro d hd
        rw [pascalCase, String.toList_ofList] at hd
        exact isLower_head_pascalChars hd

/-! ### Names of endpoints -/

/-- The word of a method is an identifier and begins with a small letter. -/
private theorem key_shape (method : Method) :
    isIdentifier method.key = true ∧ method.key.toList.head?.all Char.isLower = true := by
  cases method <;> decide

/-- **Names of endpoints.** Whatever an operation is called, its identifier has the shape of one, is
not reserved, begins with a small letter and has an underscore in it. -/
theorem isEndpointName_endpointName (method : Method) (name : String) :
    IsEndpointName (endpointName method.key name) := by
  obtain ⟨hkey, hsmall⟩ := key_shape method
  have hparts : ∀ c ∈ (if pascalCase name = "" then "Root" else pascalCase name).toList,
      isPart c = true := by
    split_ifs
    · exact List.all_eq_true.mp (by decide)
    · exact fun c hc => isPart_of_isAlphanum (isAlphanum_of_mem_pascalCase hc)
  have hjoined : '_' ∈ (endpointName method.key name).toList := by
    rw [endpointName, String.toList_append, String.toList_append]
    exact List.mem_append_left _ (List.mem_append_right _ List.mem_cons_self)
  have hstart : isIdentifier (method.key ++ "_") = true :=
    isIdentifier_append hkey (List.all_eq_true.mp (by decide))
  refine ⟨isIdentifier_append hstart hparts, notMem_reservedWords_of_underscore hjoined, ?_,
    hjoined⟩
  intro c hc
  refine (Option.all_eq_true _ _).mp hsmall c ?_
  rw [endpointName, head?_append_of_isIdentifier hstart, head?_append_of_isIdentifier hkey] at hc
  exact hc

end ClientGen.Identifier
