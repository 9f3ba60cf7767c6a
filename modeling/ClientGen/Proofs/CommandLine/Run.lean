import ClientGen.CommandLine.Run
import ClientGen.Proofs.Files.Tree

/-!
# Runs of the program

A run has six ends, one for each step at which it can stop (`Ends`, `ends_run`). What a run does to
a tree of files is read off its end: one that fails before it makes directories leaves the tree as
it was (`tree_eq_of_ends`), and one that succeeds has written what `generate` gives for the text of
the input, and has changed nothing else but for directories that the output lies in
(`receives_of_ends`). The errors of `generate` are those of a run (`ends_generation_iff`), unless
the settings are at fault, which is found before anything is read (`run_misconfigured`).
-/

namespace ClientGen

open OpenApi

/-! ### Errors -/

/-- A name that is no target is an error of the configuration. -/
theorem Target.isConfiguration_choose {name : String} {error : GenerationError}
    (h : Target.choose name = .error error) : error.isConfiguration = true := by
  unfold Target.choose at h
  split at h
  · cases h
  · cases h
    rfl

/-- So is a path that nothing can be written to. -/
theorem Settings.isConfiguration_checkOutput {path : String} {error : GenerationError}
    (h : Settings.checkOutput path = .error error) : error.isConfiguration = true := by
  unfold Settings.checkOutput at h
  split_ifs at h
  · cases h
    rfl
  · cases h
    rfl

/-- Settings fail with errors of the configuration. -/
theorem Settings.isConfiguration_ofUser {input target : String} {output : Option String}
    {error : GenerationError} (h : Settings.ofUser input output target = .error error) :
    error.isConfiguration = true := by
  -- The target is checked before the output, and neither needs the input to be read.
  unfold Settings.ofUser at h
  cases htarget : Target.choose target with
  | error fault =>
    rw [htarget] at h
    cases h
    exact Target.isConfiguration_choose htarget
  | ok chosen =>
    rw [htarget] at h
    cases output with
    | none => cases h
    | some path =>
      cases hpath : Settings.checkOutput path with
      | error fault =>
        simp only [bind, Except.bind, hpath] at h
        cases h
        exact Settings.isConfiguration_checkOutput hpath
      | ok checked =>
        simp only [bind, Except.bind, hpath] at h
        cases h

/-- The target and the output that a user gets. -/
theorem Settings.of_ofUser {input target : String} {output : Option String} {settings : Settings}
    (h : Settings.ofUser input output target = .ok settings) :
    Target.ofName? target = some settings.target ∧ settings.input = input ∧
      settings.output = output.getD (Settings.defaultOutput input settings.target) := by
  unfold Settings.ofUser Target.choose at h
  cases htarget : Target.ofName? target with
  | none =>
    rw [htarget] at h
    cases h
  | some chosen =>
    rw [htarget] at h
    cases output with
    | none =>
      cases h
      exact ⟨rfl, rfl, rfl⟩
    | some path =>
      simp only [bind, Except.bind, Settings.checkOutput] at h
      split_ifs at h
      cases h
      exact ⟨rfl, rfl, rfl⟩

end ClientGen

namespace ClientGen.CommandLine

open OpenApi

/-! ### Ends of a run -/

/-- How a run ends: the result and the tree of files after it, by the step at which it ends. -/
inductive Ends (store : FileStore (StateM FileTree)) (arguments : Arguments) (tree : FileTree) :
    Except RunError String × FileTree → Prop
  | misconfigured {error : GenerationError} (hsettings : arguments.settings = .error error) :
    Ends store arguments tree (.error (.generation error), tree)
  | unreadable {settings : Settings} {fault : FileFault} {read : FileTree}
    (hsettings : arguments.settings = .ok settings)
    (hread : (store.read settings.input).run tree = (.error fault, read)) :
    Ends store arguments tree (.error (.unreadableInput settings.input fault), read)
  | ungenerated {settings : Settings} {text : String} {error : GenerationError} {read : FileTree}
    (hsettings : arguments.settings = .ok settings)
    (hread : (store.read settings.input).run tree = (.ok text, read))
    (hgenerate : generate text settings.target = .error error) :
    Ends store arguments tree (.error (.generation error), read)
  | noDirectory {settings : Settings} {text code : String} {fault : FileFault}
    {read made : FileTree} (hsettings : arguments.settings = .ok settings)
    (hread : (store.read settings.input).run tree = (.ok text, read))
    (hgenerate : generate text settings.target = .ok code)
    (hmake : (store.makeParent settings.output).run read = (.error fault, made)) :
    Ends store arguments tree (.error (.noDirectory fault), made)
  | unwritable {settings : Settings} {text code : String} {fault : FileFault}
    {read made written : FileTree} (hsettings : arguments.settings = .ok settings)
    (hread : (store.read settings.input).run tree = (.ok text, read))
    (hgenerate : generate text settings.target = .ok code)
    (hmake : (store.makeParent settings.output).run read = (.ok (), made))
    (hwrite : (store.write settings.output code).run made = (.error fault, written)) :
    Ends store arguments tree (.error (.unwritableOutput settings.output fault), written)
  | written {settings : Settings} {text code : String} {read made written : FileTree}
    (hsettings : arguments.settings = .ok settings)
    (hread : (store.read settings.input).run tree = (.ok text, read))
    (hgenerate : generate text settings.target = .ok code)
    (hmake : (store.makeParent settings.output).run read = (.ok (), made))
    (hwrite : (store.write settings.output code).run made = (.ok (), written)) :
    Ends store arguments tree (.ok settings.output, written)

/-- A step of a run that can fail, and what comes after it. -/
private theorem run_bind {σ ε α β : Type} (step : ExceptT ε (StateM σ) α)
    (next : α → ExceptT ε (StateM σ) β) (state : σ) :
    (step >>= next).run.run state =
      match step.run.run state with
      | (.ok value, state') => (next value).run.run state'
      | (.error error, state') => (.error error, state') := by
  change (ExceptT.bindCont next (step.run.run state).1).run (step.run.run state).2 = _
  rcases step.run.run state with ⟨error | value, state'⟩
  · rfl
  · rfl

/-- A result that is given leaves the state as it is. -/
private theorem run_given {σ ε α : Type} (result : Except ε α) (state : σ) :
    (ExceptT.mk (pure result : StateM σ (Except ε α))).run.run state = (result, state) :=
  rfl

/-- Renaming an error changes neither the state nor when there is one. -/
private theorem run_mapError {σ ε ε' α : Type} (f : ε → ε') (operation : StateM σ (Except ε α))
    (state : σ) :
    (ExceptT.mk (Except.mapError f <$> operation)).run.run state =
      (((operation.run state).1).mapError f, (operation.run state).2) :=
  rfl

/-- **Ends of a run.** Every run ends in one of these ways. -/
theorem ends_run (store : FileStore (StateM FileTree)) (arguments : Arguments) (tree : FileTree) :
    Ends store arguments tree ((run store arguments).run tree) := by
  simp only [run, run_bind, run_given, run_mapError]
  rcases hsettings : arguments.settings with error | settings
  · exact .misconfigured hsettings
  dsimp only [Except.mapError]
  rcases hread : (store.read settings.input).run tree with ⟨fault | text, read⟩
  · exact .unreadable hsettings hread
  dsimp only
  rcases hdoc : Document.ofText text with error | doc
  · exact .ungenerated hsettings hread (by rw [generate, hdoc]; rfl)
  dsimp only
  have hgenerate : generate text settings.target = doc.toApi.generate settings.target := by
    rw [generate, hdoc]
    rfl
  rcases hcode : doc.toApi.generate settings.target with error | code
  · exact .ungenerated hsettings hread (hgenerate.trans hcode)
  dsimp only
  rcases hmake : (store.makeParent settings.output).run read with ⟨fault | _, made⟩
  · exact .noDirectory hsettings hread (hgenerate.trans hcode) hmake
  dsimp only
  rcases hwrite : (store.write settings.output code).run made with ⟨fault | _, written⟩
  · exact .unwritable hsettings hread (hgenerate.trans hcode) hmake hwrite
  · exact .written hsettings hread (hgenerate.trans hcode) hmake hwrite

/-! ### What a run does to a tree -/

/-- Whether a run ends with an error before it makes directories. -/
def RunError.isEarly : RunError → Bool
  | .generation _ => true
  | .unreadableInput _ _ => true
  | .noDirectory _ => false
  | .unwritableOutput _ _ => false

variable {store : FileStore (StateM FileTree)} {arguments : Arguments} {tree after : FileTree}

/-- Reading leaves the tree as it is. -/
theorem tree_eq_of_read (hacts : store.Acts) {path : String} {result : Except FileFault String}
    (hread : (store.read path).run tree = (result, after)) : after = tree := by
  rw [← hacts.unchanged path tree, hread]

/-- A run that fails early leaves the tree as it was. -/
theorem tree_eq_of_ends (hacts : store.Acts) {error : RunError} (hearly : error.isEarly = true)
    (h : Ends store arguments tree (.error error, after)) : after = tree := by
  cases h with
  | misconfigured hsettings => rfl
  | unreadable hsettings hread => exact tree_eq_of_read hacts hread
  | ungenerated hsettings hread hgenerate => exact tree_eq_of_read hacts hread
  | noDirectory hsettings hread hgenerate hmake => cases hearly
  | unwritable hsettings hread hgenerate hmake hwrite => cases hearly

/-- A run that succeeds has written the client of its input. -/
theorem receives_of_ends (hacts : store.Acts) {path : String}
    (h : Ends store arguments tree (.ok path, after)) :
    ∃ target text code, Target.ofName? arguments.runtime = some target ∧
      path = arguments.output.getD (Settings.defaultOutput arguments.input target) ∧
      tree.read (.ofText arguments.input) = .ok text ∧ generate text target = .ok code ∧
      tree.Receives (.ofText path) code after := by
  cases h with
  | @written settings text code read made _ hsettings hread hgenerate hmake hwrite =>
    obtain ⟨htarget, hinput, houtput⟩ := Settings.of_ofUser hsettings
    obtain rfl : read = tree := tree_eq_of_read hacts hread
    have htext : read.read (.ofText settings.input) = .ok text :=
      hacts.read _ _ _ (congrArg Prod.fst hread)
    -- Before the text is written the tree only grows by the directories around the output.
    have hgrows : FileTree.Grows (FilePath.ofText settings.output).around read made := by
      have h := hacts.makeParent settings.output read
      rwa [hmake] at h
    have hcode : made.write (.ofText settings.output) code = .ok after := by
      have h := hacts.write settings.output code made (congrArg Prod.fst hwrite)
      rwa [hwrite] at h
    exact ⟨settings.target, text, code, htarget, houtput, hinput ▸ htext, hgenerate,
      hgrows.receives hcode⟩

/-- A run reads and generates nothing but what its arguments say. -/
private theorem generate_congr {settings settings' : Settings} {text text' : String}
    {read : FileTree} (hsettings : arguments.settings = .ok settings)
    (htext : ((store.read settings.input).run tree).1 = .ok text)
    (hsettings' : arguments.settings = .ok settings')
    (hread : (store.read settings'.input).run tree = (.ok text', read)) :
    generate text settings.target = generate text' settings'.target := by
  obtain rfl : settings = settings' := Except.ok.inj (hsettings.symm.trans hsettings')
  rw [hread] at htext
  rw [Except.ok.inj htext]

/-- The errors of a document and of its references are those of `generate`. -/
theorem ends_generation_iff {error : GenerationError} (herror : error.isConfiguration = false)
    {result : Except RunError String} (h : Ends store arguments tree (result, after)) :
    result = .error (.generation error) ↔
      ∃ settings text, arguments.settings = .ok settings ∧
        ((store.read settings.input).run tree).1 = .ok text ∧
        generate text settings.target = .error error := by
  constructor
  · rintro rfl
    cases h with
    | misconfigured hsettings =>
      rw [Settings.isConfiguration_ofUser hsettings] at herror
      cases herror
    | ungenerated hsettings hread hgenerate =>
      exact ⟨_, _, hsettings, congrArg Prod.fst hread, hgenerate⟩
  · rintro ⟨settings, text, hsettings, htext, hfailed⟩
    -- Settings and text are determined by the arguments and the tree, so that so is what is
    -- generated.
    have hcongr {settings' : Settings} {text' : String} {read : FileTree}
        (hsettings' : arguments.settings = .ok settings')
        (hread : (store.read settings'.input).run tree = (.ok text', read)) :
        generate text settings.target = generate text' settings'.target :=
      generate_congr hsettings htext hsettings' hread
    cases h with
    | misconfigured hsettings' =>
      rw [hsettings] at hsettings'
      cases hsettings'
    | unreadable hsettings' hread =>
      obtain rfl := Except.ok.inj (hsettings.symm.trans hsettings')
      rw [hread] at htext
      cases htext
    | ungenerated hsettings' hread hgenerate =>
      rw [hcongr hsettings' hread, hgenerate] at hfailed
      rw [Except.error.inj hfailed]
    | noDirectory hsettings' hread hgenerate hmake =>
      rw [hcongr hsettings' hread, hgenerate] at hfailed
      cases hfailed
    | unwritable hsettings' hread hgenerate hmake hwrite =>
      rw [hcongr hsettings' hread, hgenerate] at hfailed
      cases hfailed
    | written hsettings' hread hgenerate hmake hwrite =>
      rw [hcongr hsettings' hread, hgenerate] at hfailed
      cases hfailed

/-- A run with faulty settings does nothing at all, whatever the files are kept in. -/
theorem run_misconfigured {m : Type → Type} [Monad m] [LawfulMonad m] (store : FileStore m)
    {error : GenerationError} (h : arguments.settings = .error error) :
    run store arguments = pure (.error (.generation error)) := by
  rw [run, h]
  exact pure_bind _ _

/-- A run exits with zero if it succeeds. -/
theorem exitCode_eq_zero_iff {result : Except RunError String} :
    exitCode result = 0 ↔ ∃ path, result = .ok path := by
  cases result with
  | ok path => exact iff_of_true rfl ⟨path, rfl⟩
  | error error => exact iff_of_false (show ¬(1 : UInt32) = 0 by decide) nofun

/-- A run exits with one if it fails. -/
theorem exitCode_eq_one_iff {result : Except RunError String} :
    exitCode result = 1 ↔ ∃ error, result = .error error := by
  cases result with
  | ok path => exact iff_of_false (show ¬(0 : UInt32) = 1 by decide) nofun
  | error error => exact iff_of_true rfl ⟨error, rfl⟩

/-- **Runs.** On a store that acts as documented, a run that fails before it makes directories
leaves all files as they were. One that succeeds has put the client of the input, as `generate` has
it, into the output that was asked for, and has changed nothing else but for missing directories
that the output lies in. The document or a reference is at fault exactly if `generate` says so, and
faulty settings are found before anything is done. The exit code says whether the run succeeded. -/
theorem run_atomic (hacts : store.Acts)
    {result : Except RunError String} (hrun : (run store arguments).run tree = (result, after)) :
    (∀ error, result = .error error → error.isEarly = true → after = tree) ∧
      (∀ path, result = .ok path → ∃ target text code,
        Target.ofName? arguments.runtime = some target ∧
        path = arguments.output.getD (Settings.defaultOutput arguments.input target) ∧
        tree.read (.ofText arguments.input) = .ok text ∧ generate text target = .ok code ∧
        tree.Receives (.ofText path) code after) ∧
      (∀ error : GenerationError, error.isConfiguration = false →
        (result = .error (.generation error) ↔
          ∃ settings text, arguments.settings = .ok settings ∧
            ((store.read settings.input).run tree).1 = .ok text ∧
            generate text settings.target = .error error)) ∧
      (∀ error, arguments.settings = .error error →
        ∀ (m : Type → Type) [Monad m] [LawfulMonad m] (files : FileStore m),
          run files arguments = pure (.error (.generation error))) ∧
      (exitCode result = 0 ↔ ∃ path, result = .ok path) ∧
      (exitCode result = 1 ↔ ∃ error, result = .error error) := by
  have hends : Ends store arguments tree (result, after) := hrun ▸ ends_run store arguments tree
  refine ⟨?_, ?_, fun error herror => ends_generation_iff herror hends,
    fun error hsettings m _ _ files => run_misconfigured files hsettings, exitCode_eq_zero_iff,
    exitCode_eq_one_iff⟩
  · rintro error rfl hearly
    exact tree_eq_of_ends hacts hearly hends
  · rintro path rfl
    exact receives_of_ends hacts hends

/-- A working directory with one document in it. -/
private def workingTree : FileTree where
  nodes := [(["home"], .directory), (["home", "api.json"], .file "\x7b\x7d")]
  working := ["home"]

/-- The document is to be made a client two directories further in. -/
private def nestedArguments : Arguments :=
  ⟨"api.json", some "out/gen/client.ts", "zod"⟩

/-- A run that makes two directories on its way. -/
theorem run_atomic_nested : FileTree.store.Acts ∧ ∃ result after code,
    (run FileTree.store nestedArguments).run workingTree = (result, after) ∧
    result = .ok "out/gen/client.ts" ∧ generate "\x7b\x7d" .zod = .ok code ∧
    workingTree.Receives (.ofText "out/gen/client.ts") code after ∧
    after.node? ["home", "out", "gen"] = some .directory ∧ exitCode result = 0 := by
  rcases hrun : (run FileTree.store nestedArguments).run workingTree with ⟨result, after⟩
  have hdirectory : after.node? ["home", "out", "gen"] = some .directory := by
    rw [show after = ((run FileTree.store nestedArguments).run workingTree).2 by rw [hrun]]
    rfl
  have hresult : result = .ok "out/gen/client.ts" := by
    rw [show result = ((run FileTree.store nestedArguments).run workingTree).1 by rw [hrun]]
    rfl
  obtain ⟨-, hok, -, -, hexit, -⟩ := run_atomic FileTree.acts_store hrun
  obtain ⟨target, text, code, htarget, -, htext, hcode, hreceives⟩ := hok _ hresult
  obtain rfl : Target.zod = target := Option.some.inj htarget
  obtain rfl : "\x7b\x7d" = text := Except.ok.inj htext
  exact ⟨FileTree.acts_store, result, after, code, rfl, hresult, hcode, hreceives, hdirectory,
    hexit.mpr ⟨_, hresult⟩⟩

end ClientGen.CommandLine
