import GoOutline.CommandLine.Run
import GoOutline.Proofs.Project.Isolation

/-!
# All or nothing on the command line

A command ends in one of few ways, whatever the files are. The command for one file always writes
one document, which is the outline of the file or a failure that says nothing about its symbols. The
command for a project writes nothing but an error when it cannot do its work; otherwise it writes
the whole project, and files without an outline only add warnings.

## Main definitions

* `FileArguments.Accepted`: the file that is asked for can be read, and its source is accepted
* `ProjectArguments.Fails`: the command for a project cannot do its work
* `ProjectArguments.Reaches`: the configuration and the files that a project run works with
* `FileRun`, `ProjectRun`: what the two commands may end in

## Main results

* `runFile_cases`, `runProject_cases`: the ways in which a command ends
* `runCommand_all_or_nothing`: every run of a command is one of these
-/

namespace GoOutline.CommandLine

/-! ## One file -/

/-- A path is given, the file there can be read, and its source is accepted. -/
def FileArguments.Accepted (t : FileTree) (a : FileArguments) : Prop :=
  ∃ path source parsed, a.path = some path ∧ t.read path = .ok source ∧
    GoOutline.parse path source = .ok parsed

/-- The value that is written in place of an outline: a message, and the path if one is given. -/
def failureValue (message : String) (path : Option String) : Json :=
  .object (("error", .string message) :: (path.map fun p => ("path", Json.string p)).toList)

/-- **A run of the command for one file.** Success is said exactly of accepted files, and then the
document is the outline; otherwise the document holds a message and the path at most. -/
structure FileRun (t : FileTree) (a : FileArguments) (out : Output) : Prop where
  exitCode_eq_zero_iff : out.exitCode = 0 ↔ a.Accepted t
  one_document : ∃ v : Json, out.stdout = v.render a.pretty ++ "\n"
  stderr_eq : out.stderr = ""
  of_accepted : a.Accepted t → ∃ path source outline, a.path = some path ∧
    t.read path = .ok source ∧ analyze path source = .ok outline ∧
    out.stdout = outline.toJson.render a.pretty ++ "\n"
  of_not_accepted : ¬ a.Accepted t → out.exitCode = 1 ∧
    ∃ message, out.stdout = (failureValue message a.path).render a.pretty ++ "\n"

section

variable {t : FileTree} {a : FileArguments}

theorem runFile_of_outcome_ok {outline : Outline} (h : fileOutcome t a = .ok outline) :
    runFile t a = ⟨0, outline.toJson.render a.pretty ++ "\n", ""⟩ := by
  rw [runFile, h]
  rfl

theorem runFile_of_outcome_error {message : String}
    (h : fileOutcome t a = .error ⟨message, a.path⟩) :
    runFile t a = ⟨1, (failureValue message a.path).render a.pretty ++ "\n", ""⟩ := by
  rw [runFile, h]
  rfl

/-- **The ways in which the command for one file ends.** -/
theorem runFile_cases (t : FileTree) (a : FileArguments) :
    (∃ path source parsed, a.path = some path ∧ t.read path = .ok source ∧
      GoOutline.parse path source = .ok parsed ∧
      runFile t a = ⟨0, parsed.outline.toJson.render a.pretty ++ "\n", ""⟩) ∨
    ¬ a.Accepted t ∧ ∃ message,
      runFile t a = ⟨1, (failureValue message a.path).render a.pretty ++ "\n", ""⟩ := by
  -- the path, the file behind it and its text are there, or the first that is not is what fails
  cases hpath : a.path with
  | none =>
    right
    constructor
    · rintro ⟨path, _, _, hgiven, -⟩
      rw [hpath] at hgiven
      cases hgiven
    · rw [← hpath]
      exact ⟨_, runFile_of_outcome_error (by rw [fileOutcome, hpath])⟩
  | some path =>
    cases hread : t.read path with
    | error e =>
      right
      constructor
      · rintro ⟨path', source, _, hgiven, hsource, -⟩
        cases hpath.symm.trans hgiven
        cases hread.symm.trans hsource
      · rw [← hpath]
        refine ⟨(AnalysisError.read e.message).message, runFile_of_outcome_error ?_⟩
        rw [fileOutcome, hpath]
        simp only [analyzeFile, hread]
    | ok source =>
      cases hparse : GoOutline.parse path source with
      | error e =>
        right
        constructor
        · rintro ⟨path', source', parsed, hgiven, hsource, hparsed⟩
          cases hpath.symm.trans hgiven
          cases hread.symm.trans hsource
          cases hparse.symm.trans hparsed
        · rw [← hpath]
          refine ⟨e.message, runFile_of_outcome_error ?_⟩
          rw [fileOutcome, hpath]
          simp only [analyzeFile, hread, analyze, hparse, Except.map]
      | ok parsed =>
        left
        refine ⟨path, source, parsed, rfl, hread, hparse, runFile_of_outcome_ok ?_⟩
        rw [fileOutcome, hpath]
        simp only [analyzeFile, hread, analyze, hparse, Except.map]

theorem fileRun_runFile (t : FileTree) (a : FileArguments) : FileRun t a (runFile t a) := by
  rcases runFile_cases t a with
    ⟨path, source, parsed, hpath, hread, hparse, hrun⟩ | ⟨hnot, message, hrun⟩
  · have haccepted : a.Accepted t := ⟨path, source, parsed, hpath, hread, hparse⟩
    rw [hrun]
    exact {
      exitCode_eq_zero_iff := ⟨fun _ => haccepted, fun _ => rfl⟩
      one_document := ⟨_, rfl⟩
      stderr_eq := rfl
      of_accepted := fun _ => ⟨path, source, parsed.outline, hpath, hread,
        analyze_eq_ok_iff.2 ⟨parsed, hparse, rfl⟩, rfl⟩
      of_not_accepted := fun h => absurd haccepted h }
  · rw [hrun]
    exact {
      exitCode_eq_zero_iff := ⟨nofun, fun h => absurd h hnot⟩
      one_document := ⟨_, rfl⟩
      stderr_eq := rfl
      of_accepted := fun h => absurd h hnot
      of_not_accepted := fun _ => ⟨rfl, message, rfl⟩ }

end

/-! ## A project -/

/-- **The command for a project cannot do its work**: the root cannot be accessed, the configuration
cannot be loaded, or the walk below the root fails. -/
inductive ProjectArguments.Fails (t : FileTree) (a : ProjectArguments) : Prop
  | root {e : FileError} (h : t.stat a.path = .error e)
  | config {place : List String} {entry : Entry} {e : LoadError}
      (hroot : t.stat a.path = .ok (place, entry))
      (h : Config.load t (configRoot a.path entry) a.config = .error e)
  | walk {place : List String} {entry : Entry} {config : Config} {source : Option String}
      {e : WalkError} (hroot : t.stat a.path = .ok (place, entry))
      (hload : Config.load t (configRoot a.path entry) a.config = .ok (config, source))
      (h : Project.collect ⟨a.path, applyFlags a config⟩ t = .error e)

/-- The configuration and the files that a run for a project works with: the configuration that is
loaded, with the settings of the command line, and the files that it selects. -/
inductive ProjectArguments.Reaches (t : FileTree) (a : ProjectArguments) :
    Config → List String → Prop
  | intro {place : List String} {entry : Entry} {config : Config} {source : Option String}
      {files : List String} (hroot : t.stat a.path = .ok (place, entry))
      (hload : Config.load t (configRoot a.path entry) a.config = .ok (config, source))
      (h : Project.collect ⟨a.path, applyFlags a config⟩ t = .ok files) :
      ProjectArguments.Reaches t a (applyFlags a config) files

/-- **A run of the command for a project.** It says so exactly when it cannot do its work, and then
writes no document at all; otherwise it writes the whole project, and one warning for each file
without an outline, in the order of their paths. -/
structure ProjectRun (t : FileTree) (colored : Bool) (a : ProjectArguments) (out : Output) :
    Prop where
  exitCode_eq_two_iff : out.exitCode = 2 ↔ a.Fails t
  of_fails : a.Fails t → out.stdout = ""
  of_not_fails : ¬ a.Fails t → out.exitCode = 0 ∧
    ∃ config files results, a.Reaches t config files ∧
      Project.Results.Faithful ⟨a.path, config⟩ t files results ∧
      (a.format = .json → out.stdout =
        (ProjectOutline.ofOutlines results.analyzed).toJson.render config.pretty ++ "\n") ∧
      (a.format = .pretty → out.stdout =
        (ProjectOutline.ofOutlines results.analyzed).report colored a.path) ∧
      out.stderr = emptyWarning a.path files ++ String.join (results.failed.map fun f =>
        "Warning: Failed to analyze file: " ++ f.error ++ "\n")

section

variable {t : FileTree} {a : ProjectArguments}

theorem not_fails_of_reaches {config : Config} {files : List String}
    (h : a.Reaches t config files) : ¬ a.Fails t := by
  rintro (he | ⟨hroot', he⟩ | ⟨hroot', hload', he⟩)
  all_goals obtain ⟨hroot, hload, hfiles⟩ := h
  · cases hroot.symm.trans he
  · cases hroot.symm.trans hroot'
    cases hload.symm.trans he
  · cases hroot.symm.trans hroot'
    cases hload.symm.trans hload'
    cases hfiles.symm.trans he

/-- **The ways in which the command for a project ends.** -/
theorem runProject_cases (t : FileTree) (colored : Bool) (a : ProjectArguments) :
    (a.Fails t ∧ ∃ message, runProject t colored a = ⟨2, "", "Error: " ++ message ++ "\n"⟩) ∨
    ∃ config files, a.Reaches t config files ∧
      runProject t colored a =
        { exitCode := 0
          stdout := projectText colored a config.pretty (Project.analyze ⟨a.path, config⟩ t files)
          stderr := emptyWarning a.path files ++
            (Project.analyzeFiles ⟨a.path, config⟩ t files).warnings } := by
  unfold runProject
  cases hroot : t.stat a.path with
  | error e => exact .inl ⟨.root hroot, _, rfl⟩
  | ok found =>
    obtain ⟨place, entry⟩ := found
    dsimp only
    cases hload : Config.load t (configRoot a.path entry) a.config with
    | error e => exact .inl ⟨.config hroot hload, _, rfl⟩
    | ok loaded =>
      obtain ⟨config, source⟩ := loaded
      simp only [runWithConfig]
      cases hfiles : Project.collect ⟨a.path, applyFlags a config⟩ t with
      | error e => exact .inl ⟨.walk hroot hload hfiles, _, rfl⟩
      | ok files => exact .inr ⟨_, files, .intro hroot hload hfiles, rfl⟩

theorem projectRun_runProject (t : FileTree) (colored : Bool) (a : ProjectArguments) :
    ProjectRun t colored a (runProject t colored a) := by
  rcases runProject_cases t colored a with ⟨hfails, message, hrun⟩ | ⟨config, files, hreaches, hrun⟩
  · rw [hrun]
    exact {
      exitCode_eq_two_iff := ⟨fun _ => hfails, fun _ => rfl⟩
      of_fails := fun _ => rfl
      of_not_fails := fun h => absurd hfails h }
  · have hnot := not_fails_of_reaches hreaches
    rw [hrun]
    exact {
      exitCode_eq_two_iff := ⟨nofun, fun h => absurd h hnot⟩
      of_fails := fun h => absurd h hnot
      of_not_fails := fun _ => ⟨rfl, config, files, _, hreaches,
        Project.faithful_analyzeFiles _ t files, fun hjson => by rw [projectText, hjson]; rfl,
        fun hpretty => by rw [projectText, hpretty]; rfl, rfl⟩ }

end

/-- **The command line is all or nothing**: a run of a command, on any files, is a run of the
command for one file or of the command for a project as these are meant. -/
theorem runCommand_all_or_nothing (t : FileTree) (colored : Bool) :
    (∀ a : FileArguments, FileRun t a (runCommand t colored (.file a))) ∧
    ∀ a : ProjectArguments, ProjectRun t colored a (runCommand t colored (.project a)) :=
  ⟨fileRun_runFile t, projectRun_runProject t colored⟩

end GoOutline.CommandLine
