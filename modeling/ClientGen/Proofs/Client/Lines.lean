import ClientGen.Client.Fetcher
import ClientGen.Text.Pieces
import Mathlib.Data.List.Forall2

/-!
# Lines of written text

A text that is written line by line is cut at its line breaks into these lines again
(`pieces_textLines`), if there is no line break within them. The characters of fixed lines can be
counted at once (`textLines_eq_ofList`).
-/

namespace ClientGen

namespace Client

theorem textLines_cons (line : String) (rest : List String) :
    textLines (line :: rest) = line ++ "\n" ++ textLines rest := by
  rw [textLines, List.map_cons, Text.concat_cons]
  rfl

theorem textLines_append (first second : List String) :
    textLines (first ++ second) = textLines first ++ textLines second := by
  rw [textLines, List.map_append, Text.concat_append]
  rfl

/-- The text of lines that are given by their characters. -/
theorem textLines_eq_ofList {lines : List String} {texts : List (List Char)}
    (h : List.Forall₂ (fun line text => String.ofList text = line) lines texts) :
    textLines lines = String.ofList (texts.flatMap (· ++ ['\n'])) := by
  induction h with
  | nil => rfl
  | @cons line text lines texts heq _ ih =>
    rw [textLines_cons, ih, ← heq, ← String.toList_inj]
    simp only [String.toList_append, String.toList_ofList, List.flatMap_cons]
    rfl

/-- The lines of a text are cut apart one by one. -/
theorem pieces_textLines (lines : List String) :
    Text.pieces '\n' (textLines lines).toList =
      (lines.flatMap fun line => Text.pieces '\n' line.toList) ++ [[]] := by
  induction lines with
  | nil => rfl
  | cons line rest ih =>
    have hline : (textLines (line :: rest)).toList =
        line.toList ++ '\n' :: (textLines rest).toList := by
      rw [textLines_cons, String.toList_append, String.toList_append, List.append_assoc]
      rfl
    rw [hline, Text.pieces_append_cons, ih, List.flatMap_cons, List.append_assoc]

end Client

end ClientGen
