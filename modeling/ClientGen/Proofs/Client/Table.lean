import ClientGen.Proofs.Client.Groups
import ClientGen.Proofs.Mapping.Parameters
import ClientGen.Proofs.OpenApi.Fields
import ClientGen.Proofs.OpenApi.Places
import ClientGen.Proofs.OpenApi.Source
import ClientGen.Proofs.Validator.Keys
import Mathlib.Data.List.Perm.Basic

/-!
# The table of endpoints

The endpoints by method and path are written twice, as a type and as a value. What each of the two
lists is read from it (`typeListing?`, `valueListing?`), and it is the same for both: every endpoint
once, under its own method (`typeListing?_tableType`, `valueListing?_tableValue`,
`lists_listing`). No row hides another, because no two endpoints of a document have one method and
one path (`nodup_paths`).
-/

namespace ClientGen

open Client OpenApi Script

namespace Client

/-! ### Reading the table -/

/-- What a table lists: for each method paths with the names of endpoints. -/
abbrev Listing := List (Method × List (String × String))

/-- The path and the name of an endpoint in a row of the table as a type. -/
def typeRow? : Member TypeExpr → Option (String × String)
  | ⟨path, .named name, false⟩ =>
    (Reference.after? (endpointsNamespace ++ ".") name).map fun name => (path, name)
  | _ => none

/-- The method and the rows of a group of the table as a type. -/
def typeGroup? : Member TypeExpr → Option (Method × List (String × String))
  | ⟨word, .object rows, false⟩ =>
    (Method.ofKey? word).bind fun method => (rows.mapM typeRow?).map fun rows => (method, rows)
  | _ => none

/-- What the table as a type lists. -/
def typeListing? : Item → Option Listing
  | .typeAlias ⟨_, .object groups⟩ => groups.mapM typeGroup?
  | _ => none

/-- The path and the name of an endpoint in a row of the table as a value. -/
def valueRow? : String × Expr → Option (String × String)
  | (written, .name name) => (keyValue? written).map fun path => (path, name)
  | _ => none

/-- The method and the rows of a group of the table as a value. -/
def valueGroup? : String × Expr → Option (Method × List (String × String))
  | (written, .block _ rows) => (keyValue? written).bind fun word =>
    (Method.ofKey? word).bind fun method => (rows.mapM valueRow?).map fun rows => (method, rows)
  | _ => none

/-- What the table as a value lists. -/
def valueListing? : Item → Option Listing
  | .constant _ _ (.block _ groups) => groups.mapM valueGroup?
  | _ => none

/-- The row of an endpoint. -/
def row (endpoint : Endpoint) : String × String :=
  (endpoint.path.raw, endpoint.name)

/-- What the table of endpoints lists. -/
def listing (endpoints : List Endpoint) : Listing :=
  (methodsPresent endpoints).map fun method => (method, (withMethod endpoints method).map row)

/-- **The table as a type.** -/
theorem typeListing?_tableType (endpoints : List Endpoint) :
    typeListing? (tableType endpoints) = some (listing endpoints) := by
  have hrow (endpoint : Endpoint) : typeRow? (property endpoint.path.raw
      (.named (endpointsNamespace ++ "." ++ endpoint.name))) = some (row endpoint) := by
    rw [property, typeRow?, Reference.after?_append]
    rfl
  refine mapM_map_eq_some _ fun method => ?_
  rw [property, typeGroup?, Method.ofKey?_key, mapM_map_eq_some _ hrow]
  rfl

private theorem keyValue?_methodKey (method : Method) : keyValue? method.key = some method.key := by
  have hkey : Quoted.key method.key = method.key := by
    cases method <;> decide
  rw [← hkey, keyValue?_key, hkey]

/-- **The table as a value.** -/
theorem valueListing?_tableValue (endpoints : List Endpoint) :
    valueListing? (tableValue endpoints) = some (listing endpoints) := by
  have hrow (endpoint : Endpoint) :
      valueRow? (Quoted.key endpoint.path.raw, .name endpoint.name) = some (row endpoint) := by
    rw [valueRow?, keyValue?_key]
    rfl
  refine mapM_map_eq_some _ fun method => ?_
  rw [valueGroup?, keyValue?_methodKey, Option.bind_some, Method.ofKey?_key,
    mapM_map_eq_some _ hrow]
  rfl

/-! ### What it lists -/

/-- Items by group, for groups that are distinct and all that there are, are the items in another
order. -/
theorem perm_flatMap_filter {α β : Type} [BEq β] [LawfulBEq β] (group : α → β) {groups : List β}
    (hgroups : groups.Nodup) {items : List α} (hitems : ∀ item ∈ items, group item ∈ groups) :
    (groups.flatMap fun b => items.filter fun item => group item == b).Perm items := by
  induction groups generalizing items with
  | nil =>
    have hnone : items = [] :=
      List.eq_nil_iff_forall_not_mem.mpr fun item hitem => List.not_mem_nil (hitems item hitem)
    rw [hnone]
    exact .nil
  | cons b rest ih =>
    obtain ⟨hb, hrest⟩ := List.nodup_cons.mp hgroups
    -- The other groups are those of the items that are left.
    have hothers : ∀ item ∈ items.filter (fun item => !(group item == b)), group item ∈ rest := by
      intro item hitem
      obtain ⟨hmem, hne⟩ := List.mem_filter.mp hitem
      exact (List.mem_cons.mp (hitems item hmem)).resolve_left (by simpa using hne)
    have hsame : (rest.flatMap fun other => items.filter fun item => group item == other) =
        rest.flatMap fun other =>
          (items.filter fun item => !(group item == b)).filter fun item => group item == other := by
      refine List.flatMap_congr fun other hother => ?_
      rw [List.filter_filter]
      refine List.filter_congr fun item _ => ?_
      rcases heq : group item == other with _ | _
      · rfl
      · have hne : ¬group item = b := by
          rintro rfl
          exact hb (eq_of_beq heq ▸ hother)
        simpa using hne
    rw [List.flatMap_cons, hsame]
    exact ((ih hrest hothers).append_left _).trans (List.filter_append_perm _ _)

/-- Whether a table lists endpoints: methods in the order of all methods, for each of them the
endpoints with this method in their order, and so every endpoint once under its own method. -/
structure Lists (endpoints : List Endpoint) (listing : Listing) : Prop where
  methods : (listing.map Prod.fst).Sublist Method.all
  groups : ∀ group ∈ listing, group.2 ≠ [] ∧
    group.2 = (endpoints.filter fun endpoint => endpoint.method == group.1).map
      fun endpoint => (endpoint.path.raw, endpoint.name)
  once : (listing.flatMap fun group => group.2.map (group.1, ·)).Perm
    (endpoints.map fun endpoint => (endpoint.method, endpoint.path.raw, endpoint.name))

section Listing

variable {endpoints : List Endpoint} {method : Method}

/-- The methods of the table are those of the endpoints. -/
theorem mem_methodsPresent :
    method ∈ methodsPresent endpoints ↔ ∃ endpoint ∈ endpoints, endpoint.method = method := by
  rw [methodsPresent, List.mem_filter, List.any_eq_true]
  simp only [Method.mem_all, true_and, beq_iff_eq]

theorem method_of_mem_withMethod {endpoint : Endpoint}
    (h : endpoint ∈ withMethod endpoints method) : endpoint.method = method :=
  eq_of_beq (List.mem_filter.mp h).2

/-- The rows of all groups are those of the endpoints group by group. -/
theorem rows_listing (endpoints : List Endpoint) :
    ((listing endpoints).flatMap fun group => group.2.map (group.1, ·)) =
      ((methodsPresent endpoints).flatMap (withMethod endpoints)).map
        fun endpoint => (endpoint.method, endpoint.path.raw, endpoint.name) := by
  rw [listing, List.flatMap_map, List.map_flatMap]
  refine List.flatMap_congr fun method _ => ?_
  rw [List.map_map]
  refine List.map_congr_left fun endpoint hendpoint => ?_
  rw [method_of_mem_withMethod hendpoint]
  rfl

/-- **Rows.** The table lists all endpoints. -/
theorem lists_listing (endpoints : List Endpoint) : Lists endpoints (listing endpoints) := by
  constructor
  · have hmethods : (listing endpoints).map Prod.fst = methodsPresent endpoints := by
      rw [listing, List.map_map]
      exact List.map_id _
    rw [hmethods]
    exact List.filter_sublist
  · intro group hgroup
    obtain ⟨method, hmethod, rfl⟩ := List.mem_map.mp hgroup
    obtain ⟨endpoint, hendpoint, hmethod⟩ := mem_methodsPresent.mp hmethod
    have hmem : endpoint ∈ withMethod endpoints method :=
      List.mem_filter.mpr ⟨hendpoint, beq_iff_eq.mpr hmethod⟩
    exact ⟨List.ne_nil_of_mem (List.mem_map_of_mem hmem), rfl⟩
  · have hmethods : (methodsPresent endpoints).Nodup :=
      List.Nodup.filter _ (by decide)
    rw [rows_listing]
    refine (perm_flatMap_filter Endpoint.method hmethods fun endpoint hendpoint => ?_).map _
    exact mem_methodsPresent.mpr ⟨endpoint, hendpoint, rfl⟩

/-- **Documents.** No two endpoints of a document have one method and one path. -/
theorem nodup_paths {doc : Document} (h : doc.Placed) :
    ((Document.toApi doc).endpoints.map
      fun endpoint => (endpoint.path.raw, endpoint.method)).Nodup := by
  have hsites : ((Document.toApi doc).endpoints.map
      fun endpoint => (endpoint.path.raw, endpoint.method)) =
        (Site.all doc).map fun site => (site.path, site.method) :=
    Mapping.map_endpoints fun _ _ _ => rfl
  rw [hsites]
  exact h.nodup_places

/-- Endpoints that differ by path or by method differ by path in each group. -/
theorem nodup_paths_listing
    (h : (endpoints.map fun endpoint => (endpoint.path.raw, endpoint.method)).Nodup)
    {group : Method × List (String × String)} (hgroup : group ∈ listing endpoints) :
    (group.2.map Prod.fst).Nodup := by
  obtain ⟨method, -, rfl⟩ := List.mem_map.mp hgroup
  rw [List.map_map]
  exact nodup_names_of_group h method

end Listing

/-- No two parameters of an endpoint of a document have one name at one location. -/
private theorem nodup_parameters {doc : Document} (hclosed : doc.Closed) {endpoint : Endpoint}
    (hendpoint : endpoint ∈ (Document.toApi doc).endpoints) :
    (endpoint.parameters.map fun parameter => (parameter.name, parameter.location)).Nodup := by
  obtain ⟨site, -, hgives⟩ :=
    Json.exists_of_mem_forall₂ (Mapping.forall₂_endpoints hclosed).flip hendpoint
  exact (Mapping.lawful_of_gives hclosed hgives).nodup

/-- **Nothing is lost.** If no two parameters of an endpoint at one location have one name, then the
endpoint takes an object with one group for each location of a parameter, and the group has exactly
the parameters at its location. The table of endpoints lists every endpoint once under its method,
the same as a type and as a value. In a document no two parameters of an endpoint at one location
have one name, and no row of the table hides another. -/
theorem lossless :
    (∀ endpoint : Endpoint,
      (endpoint.parameters.map fun parameter => (parameter.name, parameter.location)).Nodup →
        (endpoint.parameters = [] ∧ parametersType? endpoint = none) ∨
          (endpoint.parameters ≠ [] ∧
            ∃ groups, parametersType? endpoint = some (.object groups none) ∧
              List.Forall₂ endpoint.IsGroup endpoint.locations groups)) ∧
      (∀ endpoints : List Endpoint, ∃ listing, typeListing? (tableType endpoints) = some listing ∧
        valueListing? (tableValue endpoints) = some listing ∧ Lists endpoints listing) ∧
      ∀ text doc, Document.ofText text = .ok doc →
        (∀ endpoint ∈ (Document.toApi doc).endpoints,
          (endpoint.parameters.map fun parameter =>
            (parameter.name, parameter.location)).Nodup) ∧
        ∀ listing, typeListing? (tableType (Document.toApi doc).endpoints) = some listing →
          ∀ group ∈ listing, (group.2.map Prod.fst).Nodup := by
  refine ⟨fun endpoint => Endpoint.parametersType?_cases, fun endpoints => ?_, ?_⟩
  · exact ⟨listing endpoints, typeListing?_tableType endpoints, valueListing?_tableValue endpoints,
      lists_listing endpoints⟩
  · intro text doc hdoc
    obtain ⟨hdistinct, hread⟩ := Document.of_ofText hdoc
    refine ⟨fun endpoint => nodup_parameters (Document.closed_ofJson hread),
      fun found hfound group hgroup => ?_⟩
    have hplaced : doc.Placed := Document.placed_ofJson hdistinct hread
    rw [typeListing?_tableType] at hfound
    cases hfound
    exact nodup_paths_listing (nodup_paths hplaced) hgroup

/-- An endpoint with parameters at several locations, which are not in the order of a client. -/
def mixedEndpoint : Endpoint where
  method := .put
  path := PathTemplate.parse "/a"
  name := "put_a"
  operationId := none
  requestFormat := .json
  parameters := [⟨"b", .query, .scalar .string, false⟩, ⟨"a", .path, .scalar .string, true⟩,
    ⟨"a", .query, .scalar .string, true⟩, ⟨"body", .body, .unknown, false⟩]
  responses := []

/-- The text of a document with operations that are not in the order of their methods. -/
def unorderedText : String := Text.concat [
  "\x7b\"paths\":\x7b\"/b\":\x7b\"put\":\x7b\x7d,\"get\":\x7b\x7d\x7d,",
  "\"/a\":\x7b\"get\":\x7b\x7d\x7d\x7d\x7d"]

theorem lossless_mixed :
    (∃ groups, parametersType? mixedEndpoint = some (.object groups none) ∧
      List.Forall₂ mixedEndpoint.IsGroup [.path, .query, .body] groups) ∧
    ∃ doc, Document.ofText unorderedText = .ok doc ∧
      ∃ found, typeListing? (tableType (Document.toApi doc).endpoints) = some found ∧
        valueListing? (tableValue (Document.toApi doc).endpoints) = some found ∧
        found = [(.get, [("/b", "get_B"), ("/a", "get_A")]), (.put, [("/b", "put_B")])] ∧
        ∀ group ∈ found, (group.2.map Prod.fst).Nodup := by
  obtain ⟨hgroups, htable, hpaths⟩ := lossless
  constructor
  · rcases hgroups mixedEndpoint (by decide) with ⟨hnone, -⟩ | ⟨-, groups, htype, hholds⟩
    · cases hnone
    · exact ⟨groups, htype, hholds⟩
  · obtain ⟨doc, hdoc, hlisting⟩ : ∃ doc, Document.ofText unorderedText = .ok doc ∧
        listing (Document.toApi doc).endpoints =
          [(.get, [("/b", "get_B"), ("/a", "get_A")]), (.put, [("/b", "put_B")])] :=
      Document.exists_of_chars (by repeat' constructor) (by decide +kernel)
    obtain ⟨found, hfound, hvalue, -⟩ := htable (Document.toApi doc).endpoints
    refine ⟨doc, hdoc, found, hfound, hvalue, ?_, (hpaths _ doc hdoc).2 found hfound⟩
    rw [typeListing?_tableType, hlisting] at hfound
    exact (Option.some.inj hfound).symm

end Client

end ClientGen
