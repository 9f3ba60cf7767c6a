import ClientGen.Client.Endpoint
import ClientGen.Text.Uppercase

/-!
# The client

The class that sends requests through a given function, with a generic method for every HTTP method
that some endpoint has, and the types that its methods are made of.
-/

namespace ClientGen.Client

open Script

/-- Lines of text, each ended by a line break. -/
def textLines (lines : List String) : String :=
  Text.concat (lines.map fun line => line ++ "\n")

/-- The type of the endpoints that the table lists under an index. -/
def tableIndex (index : String) : String :=
  endpointByMethod ++ "[" ++ index ++ "]"

/-- The methods whose endpoints have a type of their own. -/
def shorthandMethods : List Method := [.get, .post, .put, .patch, .delete]

/-- The types of all endpoints with one method, and of all endpoints. -/
def shorthandTypes (endpoints : List Endpoint) : List Item :=
  let present := methodsPresent endpoints
  ((shorthandMethods.filter fun method => present.contains method).map fun method =>
      .typeAlias ⟨Text.capitalize method.key ++ "Endpoints",
        .named (tableIndex ("\"" ++ method.key ++ "\""))⟩)
    ++ [.typeAlias ⟨"AllEndpoints", .named (tableIndex ("keyof " ++ endpointByMethod))⟩]

/-- The types that the client is made of. -/
def clientTypes : Item :=
  .verbatim (textLines [
    "// <ApiClientTypes>",
    "export type EndpointParameters = \x7b",
    "  body?: unknown;",
    "  query?: Record<string, unknown>;",
    "  header?: Record<string, unknown>;",
    "  cookie?: Record<string, unknown>;",
    "  path?: Record<string, unknown>;",
    "\x7d;",
    "",
    "export type MutationMethod = \"post\" | \"put\" | \"patch\" | \"delete\";",
    "export type Method = \"get\" | \"head\" | \"options\" | \"trace\" | MutationMethod;",
    "",
    "export type RequestFormat = \"json\" | \"form-data\" | \"form-url\" | \"binary\" | \"text\";",
    "",
    "export type DefaultEndpoint = \x7b",
    "  parameters?: EndpointParameters | undefined;",
    "  response: unknown;",
    "\x7d;",
    "",
    "export type Endpoint<TConfig extends DefaultEndpoint = DefaultEndpoint> = \x7b",
    "  method: Method;",
    "  path: string;",
    "  requestFormat: RequestFormat;",
    "  parameters?: TConfig[\"parameters\"];",
    "  response: TConfig[\"response\"];",
    "  responses?: Record<string, unknown>;",
    "\x7d;",
    "",
    "export type Fetcher = (",
    "  method: Method,",
    "  url: string,",
    "  parameters?: EndpointParameters | undefined,",
    ") => Promise<unknown>;",
    "",
    "type RequiredKeys<T> = \x7b",
    "  [P in keyof T]-?: undefined extends T[P] ? never : P;",
    "\x7d[keyof T];",
    "",
    "type MaybeOptionalArg<T> = RequiredKeys<T> extends never ? [config?: T] : [config: T];",
    "// </ApiClientTypes>"])

/-- The start of the class, up to its methods for endpoints. -/
def classStart : List String := [
  "// <ApiClient>",
  "export class ApiClient \x7b",
  "  baseUrl: string = \"\";",
  "",
  "  constructor(public fetcher: Fetcher) \x7b\x7d",
  "",
  "  setBaseUrl(baseUrl: string) \x7b",
  "    this.baseUrl = baseUrl;",
  "    return this;",
  "  \x7d"]

/-- The method of the class for the endpoints with an HTTP method. -/
def classMethod (method : Method) : List String :=
  let key := method.key
  let group := tableIndex ("\"" ++ key ++ "\"")
  ["",
    "  // <ApiClient." ++ key ++ ">",
    "  " ++ key ++ "<Path extends keyof " ++ group ++ ", TEndpoint extends " ++ group ++ "[Path]>(",
    "    path: Path,",
    "    ...params: MaybeOptionalArg<TEndpoint[\"parameters\"]>",
    "  ): Promise<TEndpoint[\"response\"]> \x7b",
    "    return this.fetcher(\"" ++ key
      ++ "\", this.baseUrl + path, params[0]) as Promise<TEndpoint[\"response\"]>;",
    "  \x7d",
    "  // </ApiClient." ++ key ++ ">"]

/-- The end of the class, and the function that makes a client. -/
def classEnd : List String := [
  "\x7d",
  "",
  "export function createApiClient(fetcher: Fetcher, baseUrl?: string) \x7b",
  "  return new ApiClient(fetcher).setBaseUrl(baseUrl ?? \"\");",
  "\x7d",
  "// </ApiClient>"]

/-- The class, and the function that makes a client. -/
def clientClass (endpoints : List Endpoint) : Item :=
  .verbatim (textLines
    (classStart ++ (methodsPresent endpoints).flatMap classMethod ++ classEnd))

end ClientGen.Client
