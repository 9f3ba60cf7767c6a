/-!
# HTTP methods

The eight methods an operation can have, with the word that a document and a client use for each.
The words are distinct and `Method.ofKey?` reads exactly these back (`ofKey?_eq_some_iff`).
-/

namespace ClientGen

/-- An HTTP method. -/
inductive Method
  | get
  | put
  | post
  | delete
  | options
  | head
  | patch
  | trace
deriving DecidableEq, Repr

namespace Method

/-- All methods, in the order in which a client lists them. -/
def all : List Method := [.get, .put, .post, .delete, .options, .head, .patch, .trace]

/-- The lowercase word of a method. -/
def key : Method → String
  | .get => "get"
  | .put => "put"
  | .post => "post"
  | .delete => "delete"
  | .options => "options"
  | .head => "head"
  | .patch => "patch"
  | .trace => "trace"

/-- The uppercase word of a method. -/
def name : Method → String
  | .get => "GET"
  | .put => "PUT"
  | .post => "POST"
  | .delete => "DELETE"
  | .options => "OPTIONS"
  | .head => "HEAD"
  | .patch => "PATCH"
  | .trace => "TRACE"

/-- The method with a lowercase word. -/
def ofKey? (word : String) : Option Method :=
  all.find? fun method => method.key == word

/-- Every method is in the list of all methods. -/
theorem mem_all (method : Method) : method ∈ all := by
  cases method <;> simp [all]

/-- The word of a method is read back as that method. -/
theorem ofKey?_key (method : Method) : ofKey? method.key = some method := by
  cases method <;> rfl

/-- A word is read as a method exactly if it is the word of that method. -/
theorem ofKey?_eq_some_iff {word : String} {method : Method} :
    ofKey? word = some method ↔ method.key = word := by
  refine ⟨fun h => ?_, fun h => h ▸ ofKey?_key method⟩
  have := List.find?_some h
  simpa using this

end Method

end ClientGen
