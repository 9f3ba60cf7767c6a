/-!
# Joining texts

Texts in a row with a separator between each two of them.
-/

namespace ClientGen.Text

/-- The texts with `separator` between each two. -/
def join (separator : String) : List String → String
  | [] => ""
  | first :: rest => rest.foldl (fun text next => text ++ separator ++ next) first

@[simp]
theorem join_nil (separator : String) : join separator [] = "" := rfl

@[simp]
theorem join_singleton (separator text : String) : join separator [text] = text := rfl

/-- What is joined to a text does not depend on how the text begins. -/
private theorem foldl_join (separator text : String) (rest : List String) (start : String) :
    rest.foldl (fun text next => text ++ separator ++ next) (start ++ text)
      = start ++ rest.foldl (fun text next => text ++ separator ++ next) text := by
  induction rest generalizing text with
  | nil => rfl
  | cons next rest ih =>
    rw [List.foldl_cons, List.foldl_cons, ← ih, String.append_assoc, String.append_assoc,
      String.append_assoc]

/-- Joining two or more texts puts one separator behind the first. -/
theorem join_cons_cons (separator first second : String) (rest : List String) :
    join separator (first :: second :: rest)
      = first ++ separator ++ join separator (second :: rest) := by
  rw [join, List.foldl_cons, foldl_join]
  rfl

/-- The texts one after the other. -/
def concat (texts : List String) : String :=
  join "" texts

theorem concat_cons (text : String) (rest : List String) :
    concat (text :: rest) = text ++ concat rest := by
  cases rest with
  | nil => rw [concat, concat, join_singleton, join_nil, String.append_empty]
  | cons next rest => rw [concat, concat, join_cons_cons, String.append_empty]

theorem concat_append (first second : List String) :
    concat (first ++ second) = concat first ++ concat second := by
  induction first with
  | nil => exact (String.empty_append).symm
  | cons text rest ih =>
    rw [List.cons_append, concat_cons, concat_cons, ih, String.append_assoc]

end ClientGen.Text
