import ClientGen.Text.Blank

/-!
# Media types

Which format of several a body or response is read in, and how a client sends a body of a format.
Parameters of a media type and blanks around it have no say in either.
-/

namespace ClientGen

/-- How a client sends a request body. -/
inductive RequestFormat
  | json
  | formData
  | formUrl
  | binary
  | text
deriving DecidableEq, Repr

/-- The word for a request format. -/
def RequestFormat.name : RequestFormat → String
  | .json => "json"
  | .formData => "form-data"
  | .formUrl => "form-url"
  | .binary => "binary"
  | .text => "text"

namespace Media

/-- The media type without its parameters and blanks. -/
def essence (media : String) : String :=
  Text.trim (String.ofList (media.toList.takeWhile (· ≠ ';')))

/-- Whether a text begins with another. -/
def startsWith (text start : String) : Bool :=
  start.toList.isPrefixOf text.toList

/-- Whether a text ends with another. -/
def endsWith (text ending : String) : Bool :=
  ending.toList.isSuffixOf text.toList

/-- Whether an essence is JSON. -/
def isJson (essence : String) : Bool :=
  essence == "application/json" || endsWith essence "+json"

/-- The rank of a media type; the least is preferred. -/
def rank (media : String) : Nat :=
  let essence := essence media
  if isJson essence then 0
  else if essence = "multipart/form-data" then 1
  else if essence = "application/x-www-form-urlencoded" then 2
  else if essence = "application/octet-stream" then 3
  else if startsWith essence "text/" then 4
  else 5

/-- The request format of an essence. -/
def requestFormat (essence : String) : RequestFormat :=
  if isJson essence then .json
  else if essence = "multipart/form-data" then .formData
  else if essence = "application/x-www-form-urlencoded" then .formUrl
  else if startsWith essence "text/" then .text
  else if essence = "application/octet-stream" || startsWith essence "image/"
      || startsWith essence "audio/" || startsWith essence "video/"
      || essence = "application/pdf" then .binary
  else .json

/-- The first of the entries of least rank. -/
def pick? {α : Type} : List (String × α) → Option (String × α)
  | [] => none
  | entry :: rest =>
    match pick? rest with
    | none => some entry
    | some best => if rank entry.1 ≤ rank best.1 then some entry else some best

end Media

end ClientGen
