/-!
# Ordered associations

Lists of named values in which every name occurs once and the order of first insertion is kept. A
value put under a name that is there replaces the old one in its place (`keys_put`).
-/

namespace ClientGen.Ordered

universe u

variable {α : Type u}

/-- The names, in order. -/
def keys (entries : List (String × α)) : List String :=
  entries.map Prod.fst

/-- The value under a name set, in place if the name is there and at the end otherwise. -/
def put (entries : List (String × α)) (name : String) (value : α) : List (String × α) :=
  match entries with
  | [] => [(name, value)]
  | entry :: rest =>
    if entry.1 = name then (name, value) :: rest else entry :: put rest name value

/-- The names with one more, unless it is among them. -/
theorem keys_put (entries : List (String × α)) (name : String) (value : α) :
    keys (put entries name value)
      = if name ∈ keys entries then keys entries else keys entries ++ [name] := by
  induction entries with
  | nil => simp [put, keys]
  | cons entry rest ih =>
    by_cases h : entry.1 = name
    · simp [put, keys, h]
    · have h' : ¬ name = entry.1 := fun e => h e.symm
      simp only [keys] at ih
      by_cases hm : name ∈ rest.map Prod.fst <;> simp [put, keys, h, h', ih, hm]

end ClientGen.Ordered
