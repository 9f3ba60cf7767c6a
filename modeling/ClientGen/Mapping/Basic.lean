import ClientGen.Diagnostic
import ClientGen.Descriptor.Table
import ClientGen.OpenApi.Document
import ClientGen.Registry

/-!
# The state of a mapping

What mapping the schemas of a document builds up: a type table, the names given to its keys, and the
diagnostics. Two sets of keys guard the work on references: the keys whose schemas are being
mapped (`chain`) and those whose schemas are done (`mapped`).
-/

namespace ClientGen

open OpenApi

/-- The state of a mapping. -/
structure Mapping where
  table : Table := {}
  names : Registry := .forSchemas
  /-- Keys whose mapping has begun, the innermost first. -/
  chain : List String := []
  /-- Keys whose entries are final. -/
  mapped : List String := []
  diagnostics : List Diagnostic := []

/-- A computation on the state of a mapping. -/
abbrev MapM := StateM Mapping

namespace Mapping

/-- The state with a name for `key` and an entry that keeps its place in the table. -/
def reserve (state : Mapping) (key : String) : Mapping :=
  let (name, names) := state.names.resolve key
  { state with names := names, table := state.table.insert key name .unknown }

/-- The state before anything is mapped. Component schemas get their names and places in the order
of the document. -/
def start (doc : Document) : Mapping :=
  (doc.schemas.map fun schema => Reference.componentKey schema.1).foldl reserve {}

/-- The state with the type of a key, which is final then. -/
def store (state : Mapping) (key name : String) (type : Descriptor) : Mapping :=
  { state with
    table := state.table.insert key name type
    mapped := if state.mapped.contains key then state.mapped else key :: state.mapped }

/-- Records a part of the document that has no precise type. -/
def report (pointer : String) (reason : Degradation) : MapM Unit :=
  modify fun state => { state with diagnostics := state.diagnostics ++ [⟨pointer, reason⟩] }

/-- The unknown type, recorded as such. -/
def degrade (pointer : String) (reason : Degradation) : MapM Descriptor := do
  report pointer reason
  return .unknown

/-- The name of a key, made from its last segment if it has none yet. -/
def resolveName (key : String) : MapM String := do
  let state ← get
  let (name, names) := state.names.resolve key
  set { state with names := names }
  return name

/-- Stores a type that was written in place, and gives the reference to it. -/
def hoist (key base : String) (type : Descriptor) : MapM Descriptor := do
  let state ← get
  let (name, names) := state.names.resolveAs key (Identifier.typeName base)
  set ({ state with names := names }.store key name type)
  return .reference key name

/-- The reference to the final entry of a key, if there is one. -/
def hoisted? (state : Mapping) (key : String) : Option Descriptor :=
  if state.mapped.contains key then
    (state.table.get? key).map fun entry => .reference entry.key entry.name
  else none

/-- The table with its recursive entries flagged, and the diagnostics. -/
def finish (state : Mapping) : Table × List Diagnostic :=
  (state.table.markRecursive, state.diagnostics)

end Mapping

end ClientGen
