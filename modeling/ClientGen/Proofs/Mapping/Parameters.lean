import ClientGen.Proofs.Mapping.Effects
import ClientGen.Proofs.OpenApi.Fields

/-!
# Parameters of endpoints

Whatever parameters are declared for a path and an operation on it, in place or by references that
may lead to nothing, the endpoint has at most one parameter of a name in each location, and one in
the path for each placeholder (`toApi_lawful`). Of several declarations of a name in a location the
last that can be resolved is left (`mem_foldl_mergeParameter`): merging is a fold whose result can
be told from the list of declarations alone. What the later passes do to that list, dropping
parameters with other locations, adding those of the path and the body, cannot make names meet.
-/

namespace ClientGen

open OpenApi Mapping Json

/-! ### Locations -/

namespace Location

/-- A word stands for a location exactly if it is the key of one that can be declared. -/
theorem ofKey?_eq_some_iff {word : String} {location : Location} :
    ofKey? word = some location ↔ location ∈ declarable ∧ location.key = word := by
  constructor
  · intro h
    exact ⟨List.mem_of_find?_eq_some h, by simpa using List.find?_some h⟩
  · rintro ⟨hmem, rfl⟩
    cases location with
    | body => simp [declarable] at hmem
    | _ => rfl

/-- No word stands for the body. -/
theorem ne_body_of_ofKey? {word : String} {location : Location}
    (h : ofKey? word = some location) : location ≠ .body := by
  rintro rfl
  have hmem := (ofKey?_eq_some_iff.mp h).1
  simp [declarable] at hmem

end Location

/-! ### Declarations -/

/-- The last declaration of a name in a location. -/
def lastDeclaration? (declarations : List (Parameter × String)) (name word : String) :
    Option (Parameter × String) :=
  (declarations.filter fun declaration =>
    declaration.1.name = name ∧ declaration.1.location = word).getLast?

/-- What the schemas of a parameter say about its type, with references named by `name`. -/
def OpenApi.Parameter.outline (name : String → String) (parameter : Parameter) : Descriptor :=
  match parameter.schemaAt? "" with
  | some (schema, _) => schema.outline name
  | none => .scalar .string

/-- Whether a parameter of an endpoint is the one that is declared. -/
structure Survives (declaration : Parameter × String) (parameter : EndpointParameter) : Prop where
  name : parameter.name = declaration.1.name
  location : Location.ofKey? declaration.1.location = some parameter.location
  required : parameter.required = (declaration.1.required || parameter.location == .path)
  type : ∀ name, parameter.type.named name = declaration.1.outline name

/-- What holds of the parameters of the endpoint of an operation. -/
structure Lawful (doc : Document) (site : Site) (endpoint : Endpoint) : Prop where
  nodup : (endpoint.parameters.map fun parameter => (parameter.name, parameter.location)).Nodup
  /-- Each placeholder has exactly one parameter. -/
  placeholder : ∀ name ∈ endpoint.path.paramNames, endpoint.parameters.countP
    (fun parameter => parameter.location == .path && parameter.name == name) = 1
  required : ∀ parameter ∈ endpoint.parameters, parameter.location = .path →
    parameter.required = true
  /-- There is at most one body, and it is last. -/
  body : ∃ others body, endpoint.parameters = others ++ body ∧ body.length ≤ 1 ∧
    (∀ parameter ∈ others, parameter.location ≠ .body) ∧
      ∀ parameter ∈ body, parameter.location = .body
  /-- The last declaration that can be resolved survives if it has a location. -/
  survivor : ∀ name word declaration,
    lastDeclaration? (Site.resolved doc site.declared) name word = some declaration →
      (Location.ofKey? word).isSome → ∃ parameter ∈ endpoint.parameters,
        Survives declaration parameter
  /-- Any other parameter stands for a placeholder that is not declared. -/
  origin : ∀ parameter ∈ endpoint.parameters, parameter.location ≠ .body →
    (∃ declaration, lastDeclaration? (Site.resolved doc site.declared) parameter.name
      parameter.location.key = some declaration ∧ Survives declaration parameter) ∨
    (parameter = ⟨parameter.name, .path, .scalar .string, true⟩ ∧
      parameter.name ∈ endpoint.path.paramNames ∧
      lastDeclaration? (Site.resolved doc site.declared) parameter.name "path" = none)

namespace Mapping

/-! ### Merging -/

section Merge

variable {declarations : List (Parameter × String)} {declaration : Parameter × String}

/-- A declaration at the end is the last one of its own name and location, and of no other. -/
theorem lastDeclaration?_append_singleton (declarations : List (Parameter × String))
    (declaration : Parameter × String) (name word : String) :
    lastDeclaration? (declarations ++ [declaration]) name word =
      if declaration.1.name = name ∧ declaration.1.location = word then some declaration
      else lastDeclaration? declarations name word := by
  rw [lastDeclaration?, List.filter_append]
  split_ifs with h
  · rw [List.filter_cons_of_pos (by simpa using h), List.filter_nil, List.getLast?_concat]
  · rw [List.filter_cons_of_neg (by simpa using h), List.filter_nil, List.append_nil,
      lastDeclaration?]

/-- Merging leaves the last declaration of each name in each location, and no other. -/
theorem mem_foldl_mergeParameter :
    declaration ∈ declarations.foldl mergeParameter [] ↔
      lastDeclaration? declarations declaration.1.name declaration.1.location =
        some declaration := by
  induction declarations using List.reverseRecOn with
  | nil => simp [lastDeclaration?]
  | append_singleton declarations new ih =>
    rw [List.foldl_append, List.foldl_cons, List.foldl_nil, mergeParameter, List.mem_append,
      List.mem_filter, List.mem_singleton, ih, lastDeclaration?_append_singleton]
    simp only [Bool.or_eq_true, decide_eq_true_eq, ← not_and_or]
    split_ifs with hsame
    · -- Only the new declaration is left of those with its name and location.
      have hold : ¬¬(declaration.1.name = new.1.name ∧ declaration.1.location = new.1.location) :=
        not_not_intro ⟨hsame.1.symm, hsame.2.symm⟩
      rw [or_iff_right fun h => hold h.2, Option.some_inj, eq_comm]
    · have hne : declaration ≠ new := by
        rintro rfl
        exact hsame ⟨rfl, rfl⟩
      have hold : ¬(declaration.1.name = new.1.name ∧ declaration.1.location = new.1.location) :=
        fun h => hsame ⟨h.1.symm, h.2.symm⟩
      rw [or_iff_left hne, and_iff_left hold]

/-- No name is left twice at one location after merging. -/
theorem nodup_foldl_mergeParameter (declarations : List (Parameter × String)) :
    ((declarations.foldl mergeParameter []).map fun declaration =>
      (declaration.1.name, declaration.1.location)).Nodup := by
  induction declarations using List.reverseRecOn with
  | nil => exact List.nodup_nil
  | append_singleton declarations new ih =>
    rw [List.foldl_append, List.foldl_cons, List.foldl_nil, mergeParameter, List.map_append]
    refine List.nodup_append.mpr ⟨ih.sublist (List.filter_sublist.map _), List.nodup_singleton _,
      ?_⟩
    rintro _ hold _ hnew rfl
    obtain ⟨old, hmem, heq⟩ := List.mem_map.mp hold
    rw [List.map_singleton, List.mem_singleton] at hnew
    obtain ⟨hname, hlocation⟩ := Prod.mk.inj (heq.trans hnew)
    have hdiffers := (List.mem_filter.mp hmem).2
    simp [hname, hlocation] at hdiffers

end Merge

/-! ### Mapping and completing -/

section Parameters

variable {doc : Document}

/-- The outline of a parameter is that of its schema, wherever it stands. -/
private theorem outline_eq_of_schemaAt? {parameter : Parameter} (place : String)
    (name : String → String) :
    parameter.outline name =
      match parameter.schemaAt? place with
      | some (schema, _) => schema.outline name
      | none => .scalar .string := by
  rw [Parameter.outline, Parameter.schemaAt?, Parameter.schemaAt?]
  rcases parameter.schema with _ | schema
  · rcases firstSchema? (parameter.content.getD []) with _ | ⟨media, schema⟩ <;> rfl
  · rfl

/-- The type of a parameter is its outline, up to names. -/
private theorem named_parameterType (hclosed : doc.Closed) (parameter : Parameter) (place : String)
    {state : Mapping} (hidle : Idle doc state) (name : String → String) :
    ((parameterType doc parameter place).run state).1.named name = parameter.outline name := by
  rw [parameterType_eq, outline_eq_of_schemaAt? place]
  rcases parameter.schemaAt? place with _ | ⟨schema, pointer⟩
  · rfl
  · obtain ⟨log, later, -, hrun⟩ := mapSchema_run hclosed schema pointer hidle.coherent
    simp only [hrun]
    exact Outline.outline_named _ name schema

/-- Whether a parameter is declared in a location that is supported. -/
private def supported (declaration : Parameter × String) : Bool :=
  (Location.ofKey? declaration.1.location).isSome

/-- Mapping leaves the parameters with a location that is supported. -/
private theorem survives_mapParameters (hclosed : doc.Closed) {site : Site}
    {merged : List (Parameter × String)} (hsubset : merged ⊆ site.merged doc)
    {state : Mapping} (hidle : Idle doc state) :
    List.Forall₂ Survives (merged.filter supported) ((mapParameters doc merged).run state).1 := by
  induction merged generalizing state with
  | nil => exact .nil
  | cons first more ih =>
    obtain ⟨hfirst, hmore⟩ := List.cons_subset.mp hsubset
    obtain ⟨parameter, place⟩ := first
    rw [mapParameters]
    split
    next location hlocation =>
      have hsupported : supported (parameter, place) = true := Option.isSome_of_eq_some hlocation
      -- The location is known, so that the parameter survives with its type.
      have htype := performs_parameterType hclosed hfirst hsupported state hidle
      rw [List.filter_cons_of_pos hsupported]
      refine .cons ⟨rfl, hlocation, rfl, ?_⟩ (ih hmore (htype.idle hidle))
      exact named_parameterType hclosed parameter place hidle
    next hlocation =>
      -- The location is not known, so that the parameter is reported and dropped.
      have hunsupported : ¬supported (parameter, place) = true := by
        rw [supported, hlocation]
        exact Bool.false_ne_true
      have hreport : Performs doc (site.Stores doc) (site.Origin doc)
          (report place (.unsupportedLocation parameter.location)) :=
        performs_report (.unsupportedLocation hfirst hlocation)
      rw [List.filter_cons_of_neg hunsupported]
      exact ih hmore ((hreport state hidle).idle hidle)

/-- The parameter that is made up for a placeholder. -/
private def madeUp (name : String) : EndpointParameter :=
  ⟨name, .path, .scalar .string, true⟩

/-- The name of a parameter and its location. -/
private def slot (parameter : EndpointParameter) : String × Location :=
  (parameter.name, parameter.location)

/-- A name is declared for the path exactly if a parameter has it as its slot. -/
private theorem declaresPath_iff {parameters : List EndpointParameter} {name : String} :
    declaresPath parameters name = true ↔ (name, Location.path) ∈ parameters.map slot := by
  rw [declaresPath, List.any_eq_true, List.mem_map]
  refine exists_congr fun parameter => and_congr_right fun _ => ?_
  rw [Bool.and_eq_true, beq_iff_eq, beq_iff_eq, slot, Prod.mk.injEq, and_comm]

/-- Completing adds parameters for placeholders that have none, and leaves no placeholder without
one. -/
private theorem completePath_run (pointer : String) {parameters : List EndpointParameter}
    (names : List String)
    (hnodup : (parameters.map slot).Nodup) (state : Mapping) :
    ∃ added : List String, ((completePath pointer parameters names).run state).1 =
        parameters ++ added.map madeUp ∧
      (∀ name ∈ added, name ∈ names ∧ declaresPath parameters name = false) ∧
      ((parameters ++ added.map madeUp).map slot).Nodup ∧
      ∀ name ∈ names, declaresPath (parameters ++ added.map madeUp) name = true := by
  induction names generalizing parameters state with
  | nil =>
    refine ⟨[], (List.append_nil _).symm, List.forall_mem_nil _, ?_, List.forall_mem_nil _⟩
    rwa [List.map_nil, List.append_nil]
  | cons name more ih =>
    rw [completePath]
    split
    next hdeclares =>
      -- The name is declared: nothing is added for it, and it stays declared.
      obtain ⟨added, hrun, hadded, hnodup', hall⟩ := ih hnodup state
      refine ⟨added, hrun, fun other hother => ?_, hnodup', List.forall_mem_cons.mpr ⟨?_, hall⟩⟩
      · exact (hadded other hother).imp_left (List.mem_cons_of_mem _)
      · rw [declaresPath, List.any_append, ← declaresPath, hdeclares, Bool.true_or]
    next hdeclares =>
      -- The name is new: it gets a parameter, whose slot no other one has.
      have hnew : (name, Location.path) ∉ parameters.map slot := mt declaresPath_iff.mpr hdeclares
      have hnext : ((parameters ++ [madeUp name]).map slot).Nodup := by
        rw [List.map_append]
        refine List.nodup_append.mpr ⟨hnodup, List.nodup_singleton _, ?_⟩
        intro old hold made hmade heq
        rw [heq, List.mem_singleton.mp hmade] at hold
        exact hnew hold
      obtain ⟨added, hrun, hadded, hnodup', hall⟩ := ih hnext _
      have happend : parameters ++ [madeUp name] ++ added.map madeUp =
          parameters ++ (name :: added).map madeUp := by
        rw [List.append_assoc, List.singleton_append, List.map_cons]
      rw [happend] at hrun hnodup' hall
      refine ⟨name :: added, hrun, List.forall_mem_cons.mpr ⟨⟨List.mem_cons_self, ?_⟩, ?_⟩, hnodup',
        List.forall_mem_cons.mpr ⟨?_, hall⟩⟩
      · exact Bool.eq_false_iff.mpr hdeclares
      · intro other hother
        obtain ⟨hmem, hnone⟩ := hadded other hother
        -- What is not declared after the addition was not declared before it.
        rw [declaresPath, List.any_append, ← declaresPath, Bool.or_eq_false_iff] at hnone
        exact ⟨List.mem_cons_of_mem _ hmem, hnone.1⟩
      · refine declaresPath_iff.mpr (List.mem_map.mpr ⟨madeUp name, ?_, rfl⟩)
        exact List.mem_append_right _ List.mem_cons_self

/-- The body of an operation is at most one parameter. -/
private theorem siteBody_run (doc : Document) (site : Site) (base : String) (state : Mapping) :
    ((siteBody doc site base).run state).1.2.length ≤ 1 ∧
      ∀ parameter ∈ ((siteBody doc site base).run state).1.2, parameter.location = .body := by
  rw [siteBody]
  split
  · exact ⟨Nat.zero_le 1, List.forall_mem_nil _⟩
  next body hbody =>
    dsimp only
    rcases hresolve : doc.resolve? "requestBodies" doc.requestBodies RequestBody.read body with
      _ | value
    · rw [mapBody_of_unresolved hresolve]
      exact ⟨Nat.zero_le 1, List.forall_mem_nil _⟩
    · rw [mapBody_of_resolved hresolve]
      exact ⟨Nat.le_refl 1, List.forall_mem_singleton.mpr rfl⟩

end Parameters

/-! ### Endpoints -/

section Endpoints

variable {declarations : List (Parameter × String)} {parameters : List EndpointParameter}

/-- What is left of merged declarations has distinct slots. -/
private theorem nodup_survivors
    (h : List.Forall₂ Survives ((declarations.foldl mergeParameter []).filter supported)
      parameters) : (parameters.map slot).Nodup := by
  have hslots : parameters.map (fun parameter => (parameter.name, parameter.location.key)) =
      ((declarations.foldl mergeParameter []).filter supported).map fun declaration =>
        (declaration.1.name, declaration.1.location) := by
    refine List.forall₂_eq_eq_eq ▸ List.forall₂_map_left_iff.mpr
      (List.forall₂_map_right_iff.mpr (h.flip.imp fun parameter declaration hsurvives => ?_))
    exact Prod.ext hsurvives.name (Location.ofKey?_eq_some_iff.mp hsurvives.location).2
  have hnodup := (nodup_foldl_mergeParameter declarations).sublist
    (List.filter_sublist (p := supported).map _)
  rw [← hslots] at hnodup
  refine List.Nodup.of_map (fun slot : String × Location => (slot.1, slot.2.key)) ?_
  rw [List.map_map]
  exact hnodup

/-- A name that is declared for the path is so by exactly one parameter, if slots are distinct. -/
private theorem countP_eq_one (hnodup : (parameters.map slot).Nodup) {name : String}
    (h : declaresPath parameters name = true) :
    parameters.countP (fun parameter =>
      parameter.location == .path && parameter.name == name) = 1 := by
  have hcount := List.count_eq_one_of_mem hnodup (declaresPath_iff.mp h)
  rw [List.count, List.countP_map] at hcount
  rw [← hcount]
  refine List.countP_congr fun parameter _ => ?_
  simp only [slot, Function.comp_apply, Bool.and_eq_true, beq_iff_eq, Prod.mk.injEq]
  exact and_comm

/-- A declaration survives if it is the last of its name in a location that is supported. -/
private theorem exists_survivor
    (h : List.Forall₂ Survives ((declarations.foldl mergeParameter []).filter supported) parameters)
    {name word : String} {declaration : Parameter × String}
    (hlast : lastDeclaration? declarations name word = some declaration)
    (hword : (Location.ofKey? word).isSome) :
    declaration.1.name = name ∧ declaration.1.location = word ∧
      ∃ parameter ∈ parameters, Survives declaration parameter := by
  have hmem := List.mem_of_getLast? hlast
  obtain ⟨hname, hlocation⟩ : declaration.1.name = name ∧ declaration.1.location = word := by
    simpa using (List.mem_filter.mp hmem).2
  refine ⟨hname, hlocation, exists_of_mem_forall₂ h (List.mem_filter.mpr ⟨?_, ?_⟩)⟩
  · rw [mem_foldl_mergeParameter, hname, hlocation, hlast]
  · rw [supported, hlocation]
    exact hword

/-- A survivor is the last declaration of its name in its location. -/
private theorem exists_declaration
    (h : List.Forall₂ Survives ((declarations.foldl mergeParameter []).filter supported) parameters)
    {parameter : EndpointParameter} (hparameter : parameter ∈ parameters) :
    ∃ declaration, lastDeclaration? declarations parameter.name parameter.location.key =
      some declaration ∧ Survives declaration parameter := by
  obtain ⟨declaration, hmem, hsurvives⟩ := exists_of_mem_forall₂ h.flip hparameter
  refine ⟨declaration, ?_, hsurvives⟩
  rw [hsurvives.name, (Location.ofKey?_eq_some_iff.mp hsurvives.location).2]
  exact mem_foldl_mergeParameter.mp (List.mem_of_mem_filter hmem)

/-- Nothing is declared in the path under a name that no survivor has there. -/
private theorem lastDeclaration?_eq_none
    (h : List.Forall₂ Survives ((declarations.foldl mergeParameter []).filter supported) parameters)
    {name : String} (hundeclared : declaresPath parameters name = false) :
    lastDeclaration? declarations name "path" = none := by
  by_contra hsome
  obtain ⟨declaration, hlast⟩ := Option.ne_none_iff_exists'.mp hsome
  obtain ⟨hname, hword, parameter, hparameter, hsurvives⟩ := exists_survivor h hlast rfl
  have hlocation : parameter.location = .path := by
    have hpath := hsurvives.location
    rw [hword] at hpath
    exact (Option.some.inj hpath).symm
  have hdeclares : declaresPath parameters name = true :=
    declaresPath_iff.mpr (List.mem_map.mpr ⟨parameter, hparameter,
      Prod.ext (hsurvives.name.trans hname) hlocation⟩)
  rw [hundeclared] at hdeclares
  cases hdeclares

variable {doc : Document} {site : Site} {endpoint : Endpoint}

/-- All parameters but the body: the survivors of the declarations, and then those that are made up
for placeholders without one. -/
private theorem siteParameters_run (hclosed : doc.Closed) (site : Site) {state : Mapping}
    (hidle : Idle doc state) :
    ∃ survivors, ∃ added : List String,
      ((siteParameters doc site).run state).1 = survivors ++ added.map madeUp ∧
      List.Forall₂ Survives
        (((Site.resolved doc site.declared).foldl mergeParameter []).filter supported) survivors ∧
      (∀ name ∈ added, name ∈ (PathTemplate.parse site.path).paramNames ∧
        declaresPath survivors name = false) ∧
      ((survivors ++ added.map madeUp).map slot).Nodup ∧
      ∀ name ∈ (PathTemplate.parse site.path).paramNames,
        declaresPath (survivors ++ added.map madeUp) name = true := by
  have hmerged := performs_mergeParameters [] (List.Subset.refl site.declared) state hidle
  have hsubset : ((mergeParameters doc [] site.declared).run state).1 ⊆ site.merged doc := by
    rw [mergeParameters_run]
    exact List.Subset.refl _
  have hsurvivors := survives_mapParameters hclosed hsubset (hmerged.idle hidle)
  rw [mergeParameters_run] at hsurvivors
  -- Merging and mapping leave distinct slots, with which the path is completed.
  obtain ⟨added, hcompleted, hrest⟩ := completePath_run site.pointer
    (PathTemplate.parse site.path).paramNames (nodup_survivors hsurvivors)
    ((mapParameters doc ((Site.resolved doc site.declared).foldl mergeParameter [])).run
      ((mergeParameters doc [] site.declared).run state).2).2
  refine ⟨_, added, ?_, hsurvivors, hrest⟩
  rw [← hcompleted, ← mergeParameters_run [] site.declared state]
  rfl

/-- Only the body is a parameter in the body. -/
theorem ne_body_of_mem_siteParameters (hclosed : doc.Closed) (site : Site) {state : Mapping}
    (hidle : Idle doc state) :
    ∀ parameter ∈ ((siteParameters doc site).run state).1, parameter.location ≠ .body := by
  obtain ⟨survivors, added, hrun, hsurvivors, -⟩ := siteParameters_run hclosed site hidle
  rw [hrun]
  refine List.forall_mem_append.mpr ⟨fun parameter hmem => ?_, List.forall_mem_map.mpr ?_⟩
  · obtain ⟨_, -, hsurvives⟩ := exists_declaration hsurvivors hmem
    exact Location.ne_body_of_ofKey? hsurvives.location
  · exact fun _ _ => Location.noConfusion

/-- A body behind the other parameters is in a slot of its own. -/
private theorem nodup_slots {others body : List EndpointParameter}
    (hnodup : (others.map slot).Nodup)
    (hothers : ∀ parameter ∈ others, parameter.location ≠ .body) (hlength : body.length ≤ 1)
    (hbody : ∀ parameter ∈ body, parameter.location = .body) :
    ((others ++ body).map slot).Nodup := by
  rw [List.map_append]
  refine List.nodup_append.mpr ⟨hnodup, ?_, ?_⟩
  · rcases body with _ | ⟨parameter, _ | ⟨_, _⟩⟩
    · exact List.nodup_nil
    · exact List.nodup_singleton _
    · simp at hlength
  · intro old hold new hnew heq
    obtain ⟨parameter, hparameter, rfl⟩ := List.mem_map.mp hold
    obtain ⟨other, hother, rfl⟩ := List.mem_map.mp hnew
    exact hothers parameter hparameter ((congrArg Prod.snd heq).trans (hbody other hother))

/-- The endpoint of an operation has lawful parameters. -/
theorem lawful_of_gives (hclosed : doc.Closed) (h : Gives doc site endpoint) :
    Lawful doc site endpoint := by
  obtain ⟨parameters, body, hall, ⟨state, hidle, rfl⟩, before, base, -, hbody, -⟩ := h.parameters
  obtain ⟨hlength, hbodies⟩ := siteBody_run doc site base before
  rw [hbody] at hlength hbodies
  obtain ⟨survivors, added, hrun, hsurvivors, hadded, hnodup, hplaceholders⟩ :=
    siteParameters_run hclosed site hidle
  have hplaced := ne_body_of_mem_siteParameters hclosed site hidle
  rw [hrun] at hall hplaced
  have hdistinct : (endpoint.parameters.map slot).Nodup :=
    hall ▸ nodup_slots hnodup hplaced hlength hbodies
  -- A parameter that is not the body has been declared, or made up for a placeholder.
  have horigin : ∀ parameter ∈ endpoint.parameters, parameter.location ≠ .body →
      parameter ∈ survivors ∨ ∃ name ∈ added, parameter = madeUp name := by
    intro parameter hparameter hlocation
    rw [hall] at hparameter
    have hmem := (List.mem_append.mp hparameter).resolve_right fun hmem =>
      hlocation (hbodies parameter hmem)
    refine (List.mem_append.mp hmem).imp_right fun hmade => ?_
    obtain ⟨name, hname, rfl⟩ := List.mem_map.mp hmade
    exact ⟨name, hname, rfl⟩
  exact {
    nodup := hdistinct
    placeholder := fun name hname => by
      refine countP_eq_one hdistinct ?_
      rw [hall, declaresPath, List.any_append, ← declaresPath, hplaceholders name (h.path ▸ hname),
        Bool.true_or]
    required := fun parameter hparameter hpath => by
      rcases horigin parameter hparameter (hpath ▸ Location.noConfusion) with
        hmem | ⟨name, -, rfl⟩
      · obtain ⟨_, -, hsurvives⟩ := exists_declaration hsurvivors hmem
        rw [hsurvives.required, hpath]
        exact Bool.or_true _
      · rfl
    body := ⟨_, body, hall, hlength, hplaced, hbodies⟩
    survivor := fun name word declaration hlast hword => by
      obtain ⟨-, -, parameter, hparameter, hsurvives⟩ := exists_survivor hsurvivors hlast hword
      refine ⟨parameter, ?_, hsurvives⟩
      rw [hall]
      exact List.mem_append_left _ (List.mem_append_left _ hparameter)
    origin := fun parameter hparameter hlocation => by
      rcases horigin parameter hparameter hlocation with hmem | ⟨name, hname, rfl⟩
      · exact Or.inl (exists_declaration hsurvivors hmem)
      · obtain ⟨hplaceholder, hundeclared⟩ := hadded name hname
        exact Or.inr ⟨rfl, h.path ▸ hplaceholder, lastDeclaration?_eq_none hsurvivors hundeclared⟩ }

end Endpoints

/-- **Parameters.** The parameters of every endpoint are lawful. -/
theorem toApi_lawful {json : Json} {doc : Document} (h : Document.ofJson json = .ok doc) :
    List.Forall₂ (Lawful doc) (Site.all doc) (Document.toApi doc).endpoints := by
  have hclosed := Document.closed_ofJson h
  exact (forall₂_endpoints hclosed).imp fun site endpoint => lawful_of_gives hclosed

/-- A value that describes a document with placeholders that are repeated or empty, and with
parameters that are declared twice, by a reference, by a reference to nothing, and in a location
that does not exist. -/
def mixedJson : Json :=
  .object [
    ("paths", .object [("/\x7bid\x7d/\x7bid\x7d/\x7b\x7d", .object [
      ("parameters", .array [
        .object [("name", .string "q"), ("in", .string "query")],
        .object [("name", .string "id"), ("in", .string "path")]]),
      ("get", .object [
        ("parameters", .array [
          .object [("name", .string "q"), ("in", .string "query"), ("required", .bool true)],
          .object [("$ref", .string "#/components/parameters/P")],
          .object [("$ref", .string "#/none")],
          .object [("name", .string "x"), ("in", .string "form")]]),
        ("requestBody", .object [])])])]),
    ("components", .object [("parameters", .object [
      ("P", .object [("name", .string "id"), ("in", .string "path")])])])]

/-- An operation that has parameters merged from its path, one that is synthesized, and a body obeys
the laws. -/
theorem toApi_lawful_mixed :
    ∃ doc, Document.ofJson mixedJson = .ok doc ∧
      (Document.toApi doc).endpoints.map (fun endpoint => endpoint.parameters.map fun parameter =>
        (parameter.name, parameter.location, parameter.required)) =
        [[("q", .query, true), ("id", .path, true), ("", .path, true), ("body", .body, false)]] ∧
      List.Forall₂ (Lawful doc) (Site.all doc) (Document.toApi doc).endpoints := by
  have hparameters : (Document.ofJson mixedJson).toOption.map (fun doc =>
      (Document.toApi doc).endpoints.map fun endpoint => endpoint.parameters.map fun parameter =>
        (parameter.name, parameter.location, parameter.required)) =
      some [[("q", .query, true), ("id", .path, true), ("", .path, true),
        ("body", .body, false)]] := by
    decide +kernel
  rcases h : Document.ofJson mixedJson with error | doc
  · rw [h] at hparameters
    cases hparameters
  · rw [h] at hparameters
    exact ⟨doc, rfl, Option.some.inj hparameters, toApi_lawful h⟩

end Mapping

end ClientGen
