import ClientGen.OpenApi.Source
import ClientGen.Proofs.Json.Fields

/-!
# Documents from characters

The document of a text that is written as JSON is found from the characters of the text
(`ofText_of_readChars?`). It takes long to compute the characters of a long text, so what is to be
computed of the document of a given text is computed from its characters
(`Document.exists_of_chars`).
-/

namespace ClientGen

/-- The text of pieces that are given by their characters. -/
theorem Text.concat_eq_ofList {pieces : List String} {chars : List (List Char)}
    (h : List.Forall₂ (fun piece chars => String.ofList chars = piece) pieces chars) :
    concat pieces = String.ofList chars.flatten := by
  induction h with
  | nil => rfl
  | cons heq _ ih =>
    rw [concat_cons, ih, ← heq, ← String.toList_inj]
    simp only [String.toList_append, String.toList_ofList, List.flatten_cons]

namespace OpenApi

open Json

/-- The value of a text that is written as JSON, from its characters. -/
def readChars? (chars : List Char) : Option Json :=
  if (Text.trimStart chars).head? = some '\x7b' then
    match value maxDepth (skipSpace chars) with
    | some (result, rest) => if (skipSpace rest).isEmpty then some result else none
    | none => none
  else none

theorem readText_of_readChars? {chars : List Char} {json : Json}
    (h : readChars? chars = some json) : readText (String.ofList chars) = .ok json := by
  rw [readChars?] at h
  split at h
  next hbrace =>
    have hparse : Json.parse? (String.ofList chars) = some json := by
      rw [Json.parse?, String.toList_ofList]
      exact h
    rw [readText, isJsonText, String.toList_ofList, hbrace, hparse]
    rfl
  next => cases h

theorem Document.ofText_of_readText {text : String} {json : Json} {doc : Document}
    (hjson : readText text = .ok json) (hdoc : Document.ofJson json = .ok doc) :
    Document.ofText text = .ok doc := by
  rw [Document.ofText, hjson]
  simp only [bind, Except.bind, hdoc]
  rfl

/-- A property of the document of a text, which is given in pieces, is decided from the characters
of the pieces. -/
theorem Document.exists_of_chars {pieces : List String} {chars : List (List Char)}
    (hchars : List.Forall₂ (fun piece chars => String.ofList chars = piece) pieces chars)
    {p : Document → Prop} [DecidablePred p]
    (h : ((readChars? chars.flatten).bind fun json => (Document.ofJson json).toOption).any
      (fun doc => decide (p doc)) = true) :
    ∃ doc, Document.ofText (Text.concat pieces) = .ok doc ∧ p doc := by
  obtain ⟨doc, hdoc, hp⟩ := (Option.any_eq_true _ _).mp h
  obtain ⟨json, hjson, hread⟩ := Option.bind_eq_some_iff.mp hdoc
  rw [Text.concat_eq_ofList hchars]
  exact ⟨doc, ofText_of_readText (readText_of_readChars? hjson) (eq_ok_of_toOption hread),
    of_decide_eq_true hp⟩

end OpenApi

end ClientGen
