import ClientGen.Json.Parser
import ClientGen.Mapping.Endpoint
import ClientGen.Client.Module
import ClientGen.Yaml.Token
import ClientGen.OpenApi.Document
import ClientGen.Text.Blank
import ClientGen.Text.Shown
import ClientGen.Text.Quoted
import ClientGen.Registry
import ClientGen.Text.Uppercase
import ClientGen.Yaml.Scalar
import ClientGen.Yaml.Composition
import ClientGen.CommandLine.Arguments
import ClientGen.CommandLine.Run
import ClientGen.Files.Tree
import ClientGen.Main
import ClientGen.Proofs.Mapping.Integrity
import ClientGen.Proofs.Validator.Chaining
import ClientGen.Proofs.Identifier
import ClientGen.Proofs.Script.RoundTrip
import ClientGen.Proofs.Validator.Scoped
import ClientGen.Proofs.Mapping.Naming
import ClientGen.Proofs.Client.Scoped
import ClientGen.Proofs.Mapping.Operations
import ClientGen.Proofs.Client.Names
import ClientGen.Proofs.Client.WellFormed
import ClientGen.Proofs.Json.Distinct
import ClientGen.Proofs.OpenApi.Places
import ClientGen.Proofs.Client.Declared
import ClientGen.Proofs.Client.Distinct
import ClientGen.Proofs.Mapping.Completeness
import ClientGen.Proofs.Mapping.Parameters
import ClientGen.Proofs.Mapping.Pointers
import ClientGen.Proofs.Mapping.Responses
import ClientGen.Proofs.Client.Closed
import ClientGen.Proofs.Client.Parity
import ClientGen.Proofs.CommandLine.Run
import ClientGen.Proofs.OpenApi.Lookup
import ClientGen.Proofs.Mapping.Components
import ClientGen.Proofs.Descriptor.Recursion
import ClientGen.Proofs.Registry.History
import ClientGen.Proofs.Client.Coverage
import ClientGen.Proofs.Mapping.Hoisting
import ClientGen.Proofs.Mapping.Calls
import ClientGen.Proofs.Descriptor.Normal
import ClientGen.Proofs.Mapping.NormalForm
import ClientGen.Proofs.Mapping.Repetition
import ClientGen.Proofs.Validator.Keys
import ClientGen.Proofs.Endpoint.Path
import ClientGen.Proofs.Endpoint.Media
import ClientGen.Proofs.Validator.Composition
import ClientGen.Proofs.Mapping.Formats
import ClientGen.Proofs.Client.Table
import ClientGen.Proofs.Yaml.Conversion
import ClientGen.Proofs.Mapping.Keys
import ClientGen.Proofs.Script.StringLiteral
