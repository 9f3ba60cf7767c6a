import ClientGen.Identifier
import ClientGen.Reference

/-!
# Registry of names

Names handed out to keys, first come first served. A key keeps its name for good; a name that is
taken gets the least number from 2 on that makes it free. Reserved names count as taken from the
start.
-/

namespace ClientGen

/-- Names handed out so far. -/
structure Registry where
  /-- Each key with its name, the latest first. -/
  assigned : List (String × String) := []
  /-- Names that are not free, reserved ones included. -/
  taken : List String := []

namespace Registry

/-- The registry that never hands out any of `names`. -/
def reserving (names : List String) : Registry where
  taken := names

/-- Names that a generated module declares by itself. -/
def generatedNames : List String := [
  "Schemas", "Endpoints", "EndpointByMethod", "EndpointParameters", "MutationMethod", "Method",
  "RequestFormat", "DefaultEndpoint", "Endpoint", "Fetcher", "RequiredKeys", "MaybeOptionalArg",
  "ApiClient", "createApiClient", "GetEndpoints", "PostEndpoints", "PutEndpoints", "PatchEndpoints",
  "DeleteEndpoints", "AllEndpoints", "__Schemas", "Type"]

/-- The registry for schemas: a schema never gets a name the module declares by itself. -/
def forSchemas : Registry :=
  reserving generatedNames

/-- The name of a key, if it has one. -/
def name? (registry : Registry) (key : String) : Option String :=
  registry.assigned.lookup key

/-- The numbered variant of `base` for the `n`-th clash. -/
def numbered (base : String) (n : Nat) : String :=
  base ++ toString (n + 2)

/-- The name `base` if it is free, else its first free numbered variant. Among as many variants
as there are taken names, and one more, one is free. -/
def freeName (taken : List String) (base : String) : String :=
  if base ∈ taken then
    let variants := (List.range (taken.length + 1)).map (numbered base)
    (variants.find? fun name => !taken.contains name).getD base
  else base

/-- The name of `key`, which is made from `base` when the key has none yet. -/
def resolveAs (registry : Registry) (key base : String) : String × Registry :=
  match registry.name? key with
  | some name => (name, registry)
  | none =>
    let name := freeName registry.taken base
    (name, ⟨(key, name) :: registry.assigned, name :: registry.taken⟩)

/-- The name of `key`, made from the last segment of the key when it has none yet. -/
def resolve (registry : Registry) (key : String) : String × Registry :=
  registry.resolveAs key (Identifier.typeName (Reference.lastSegment key))

end Registry

end ClientGen
