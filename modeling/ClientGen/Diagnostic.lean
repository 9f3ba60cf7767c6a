/-!
# Diagnostics

Parts of a document that have no precise type, and why.
-/

namespace ClientGen

/-- Why a part of a document has no precise type. -/
inductive Degradation
  | nonScalarConst
  | emptyComposition (keyword : String)
  | emptyTypeList
  | unsupportedType (name : String)
  | nonScalarMember
  | noScalarMember
  | negation
  | missingType
  | unresolvedParameter
  | unsupportedLocation (name : String)
  | undeclaredPathParameter (name : String)
  | unresolvedBody
  | unresolvedResponse
  /-- A reason given by a caller. -/
  | stated (reason : String)
deriving DecidableEq, Repr

/-- A text between single quotes. -/
def Degradation.quoted (text : String) : String :=
  "\x27" ++ text ++ "\x27"

/-- The reason in words. -/
def Degradation.text : Degradation → String
  | .nonScalarConst => "non-scalar const"
  | .emptyComposition keyword => "empty " ++ keyword
  | .emptyTypeList => "empty type list"
  | .unsupportedType name => "unsupported type " ++ quoted name
  | .nonScalarMember => "non-scalar enum member skipped"
  | .noScalarMember => "enum without scalar values"
  | .negation => "\x60not\x60 is not expressible"
  | .missingType => "missing type"
  | .unresolvedParameter => "unresolved parameter reference"
  | .unsupportedLocation name => "unsupported parameter location " ++ quoted name
  | .undeclaredPathParameter name => "path parameter " ++ quoted name ++ " is not declared"
  | .unresolvedBody => "unresolved request body reference"
  | .unresolvedResponse => "unresolved response reference"
  | .stated reason => reason

/-- A part of a document that could not be mapped precisely. -/
structure Diagnostic where
  /-- A reference to the part. -/
  pointer : String
  reason : Degradation
deriving DecidableEq, Repr

end ClientGen
