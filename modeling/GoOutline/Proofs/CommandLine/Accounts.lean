import GoOutline.Proofs.CommandLine.Outcomes
import GoOutline.Proofs.Config.Exclusions
import GoOutline.Proofs.Files.Flat
import GoOutline.Proofs.Project.ReportText
import GoOutline.Proofs.Project.Selection

/-!
# A report accounts for the files

A report on a project has one line for each collected file that has an outline, and there is one
warning for each of the others, so no file goes missing. Two notices say that there are no files:
one in the report, which goes by its lines, and a warning, which goes by the collected files. They
disagree exactly when there are files and none of them has an outline.

## Main definitions

* `WarnsNoFiles`: the warning that there are no files
* `Accounts`: a run accounts for the files

## Main results

* `accounts_of_reaches`: a run that reaches some files accounts for them
* `report_accounts`: every run that ends well does
* `not_forall_saysNoFiles_iff`: a report may say that there are no files when there are some
-/

namespace GoOutline.CommandLine

open ReportText Text

/-- A text starts with the warning that there are no files at a path. -/
def WarnsNoFiles (path text : String) : Prop :=
  ∃ rest, text = "Warning: no Go files found under " ++ path ++ "\n" ++ rest

/-- **A run accounts for the files of a project**, with some lines about files in the report and
some warnings beside it. -/
structure Accounts (t : FileTree) (colored : Bool) (p : Project)
    (files lines warnings : List String) (out : Output) : Prop where
  /-- There is one line for each file with an outline. -/
  lines_perm : lines.Perm
    ((files.filterMap fun path => (p.attempt t path).toOption).map (Outline.reportLine colored))
  /-- There is one warning for each other file. -/
  warnings_perm : warnings.Perm ((files.filterMap (p.failure? t)).map Project.warning)
  length_add_length : lines.length + warnings.length = files.length
  stdout_eq : ∃ totals : Summary, out.stdout =
    heading colored p.root ++ body colored lines ++ totals.report colored
  stderr_eq : out.stderr = emptyWarning p.root files ++ String.join warnings
  /-- The number that is said is that of the lines. -/
  saysCount_iff : ∀ n, SaysCount colored p.root n out.stdout ↔ lines ≠ [] ∧ n = lines.length
  /-- The report says that there are no files when none of them has an outline. -/
  saysNoFiles_iff : SaysNoFiles colored p.root out.stdout ↔
    ∀ path ∈ files, ∃ e, p.attempt t path = .error e
  /-- The warning says so when there are none. -/
  warnsNoFiles_iff : WarnsNoFiles p.root out.stderr ↔ files = []
  /-- The two disagree when there are files and none of them has an outline. -/
  agree_iff : (SaysNoFiles colored p.root out.stdout ↔ WarnsNoFiles p.root out.stderr) ↔
    files = [] ∨ ∃ path ∈ files, ∃ o, p.attempt t path = .ok o

section

variable {t : FileTree} {p : Project}

/-- Some files have no outlines when none of them has one. -/
theorem filterMap_attempt_eq_nil_iff {files : List String} :
    (files.filterMap fun path => (p.attempt t path).toOption) = [] ↔
      ∀ path ∈ files, ∃ e, p.attempt t path = .error e := by
  rw [List.filterMap_eq_nil_iff]
  refine forall₂_congr fun path _ => ?_
  cases p.attempt t path <;> simp [Except.toOption]

theorem not_forall_error_iff {files : List String} :
    (¬ ∀ path ∈ files, ∃ e, p.attempt t path = .error e) ↔
      ∃ path ∈ files, ∃ o, p.attempt t path = .ok o := by
  simp only [not_forall, exists_prop]
  refine exists_congr fun path => and_congr_right fun _ => ?_
  cases p.attempt t path <;> simp

/-- The two kinds of warnings differ in what they say first. -/
theorem warning_append_ne (path : String) (f : FailedOutline) (s s' : String) :
    Project.warning f ++ s ≠ "Warning: no Go files found under " ++ path ++ "\n" ++ s' := by
  have hwarning : Project.warning f = "Warning: Failed to analyze file: " ++ f.error ++ "\n" := rfl
  rw [hwarning, String.append_assoc, String.append_assoc, String.append_assoc, String.append_assoc]
  intro h
  have hlist := congrArg String.toList h
  simp at hlist

/-- The warning that there are no files stands before the warnings about files, and none of these
is taken for it. -/
theorem warnsNoFiles_append_iff {path : String} {files : List String}
    {failed : List FailedOutline} :
    WarnsNoFiles path (emptyWarning path files ++ String.join (failed.map Project.warning)) ↔
      files = [] := by
  by_cases hfiles : files = []
  · rw [emptyWarning, if_pos (by simpa using hfiles)]
    exact iff_of_true ⟨_, rfl⟩ hfiles
  · rw [emptyWarning, if_neg (by simpa using hfiles), String.empty_append]
    refine iff_of_false ?_ hfiles
    rintro ⟨s, hs⟩
    cases failed with
    | nil =>
      have hlist := congrArg String.toList hs
      simp at hlist
    | cons f rest =>
      rw [List.map_cons, String.join_cons] at hs
      exact warning_append_ne path f _ s hs

end

section

variable {t : FileTree} {a : ProjectArguments} {config : Config} {files : List String}

/-- What a run works with is settled by its arguments. -/
theorem ProjectArguments.Reaches.unique {config' : Config} {files' : List String}
    (h : a.Reaches t config files) (h' : a.Reaches t config' files') :
    config = config' ∧ files = files' := by
  obtain ⟨hroot, hload, hfiles⟩ := h
  obtain ⟨hroot', hload', hfiles'⟩ := h'
  cases hroot.symm.trans hroot'
  cases hload.symm.trans hload'
  exact ⟨rfl, Except.ok.inj (hfiles.symm.trans hfiles')⟩

/-- A run that reaches some files ends well, with what comes of them. -/
theorem runCommand_of_reaches (colored : Bool) (h : a.Reaches t config files) :
    runCommand t colored (.project a) =
      { exitCode := 0
        stdout := projectText colored a config.pretty (Project.analyze ⟨a.path, config⟩ t files)
        stderr := emptyWarning a.path files ++
          (Project.analyzeFiles ⟨a.path, config⟩ t files).warnings } := by
  rcases runProject_cases t colored a with ⟨hfails, -⟩ | ⟨config', files', hreaches, hrun⟩
  · exact absurd hfails (not_fails_of_reaches h)
  · obtain ⟨rfl, rfl⟩ := h.unique hreaches
    exact hrun

theorem exists_reaches_of_exitCode {colored : Bool}
    (h : (runCommand t colored (.project a)).exitCode = 0) :
    ∃ config files, a.Reaches t config files := by
  rcases runProject_cases t colored a with ⟨-, message, hrun⟩ | ⟨config, files, hreaches, -⟩
  · rw [runCommand, hrun] at h
    cases h
  · exact ⟨config, files, hreaches⟩

/-- **A run that reaches some files** accounts for them. -/
theorem accounts_of_reaches (colored : Bool) (hformat : a.format = .pretty)
    (h : a.Reaches t config files) :
    ∃ lines warnings, Accounts t colored ⟨a.path, config⟩ files lines warnings
      (runCommand t colored (.project a)) := by
  let p : Project := ⟨a.path, config⟩
  let results := p.analyzeFiles t files
  let lines := results.analyzed.map (Outline.reportLine colored)
  have hstdout : (runCommand t colored (.project a)).stdout =
      heading colored p.root ++ body colored lines ++
        (Summary.ofOutlines results.analyzed).report colored := by
    rw [runCommand_of_reaches colored h, projectText, hformat]
    exact ProjectOutline.report_eq _ colored a.path
  have hstderr : (runCommand t colored (.project a)).stderr =
      emptyWarning p.root files ++ String.join (results.failed.map Project.warning) := by
    rw [runCommand_of_reaches colored h]
    rfl
  have hlines : lines.Perm ((files.filterMap fun path => (p.attempt t path).toOption).map
      (Outline.reportLine colored)) := by
    refine List.Perm.map _ ?_
    rw [Project.analyzed_analyzeFiles]
    exact List.mergeSort_perm _ _
  have hwarnings : (results.failed.map Project.warning).Perm
      ((files.filterMap (p.failure? t)).map Project.warning) := by
    refine List.Perm.map _ ?_
    rw [Project.failed_analyzeFiles]
    exact List.mergeSort_perm _ _
  -- no line is written exactly when every attempt fails
  have hnone : SaysNoFiles colored p.root (runCommand t colored (.project a)).stdout ↔
      ∀ path ∈ files, ∃ e, p.attempt t path = .error e := by
    rw [saysNoFiles_iff hstdout, ← filterMap_attempt_eq_nil_iff, ← List.length_eq_zero_iff,
      hlines.length_eq, List.length_map, List.length_eq_zero_iff]
  have hwarns : WarnsNoFiles p.root (runCommand t colored (.project a)).stderr ↔ files = [] := by
    rw [hstderr]
    exact warnsNoFiles_append_iff
  refine ⟨lines, results.failed.map Project.warning, ?_⟩
  exact {
    lines_perm := hlines
    warnings_perm := hwarnings
    length_add_length := by
      rw [List.length_map, List.length_map]
      exact (Project.faithful_analyzeFiles p t files).length_add_length
    stdout_eq := ⟨_, hstdout⟩
    stderr_eq := hstderr
    saysCount_iff := fun n => saysCount_iff hstdout
    saysNoFiles_iff := hnone
    warnsNoFiles_iff := hwarns
    agree_iff := by
      rw [hnone, hwarns, ← not_forall_error_iff]
      constructor
      · intro hagree
        exact (em (files = [])).imp id fun hne hall => hne (hagree.1 hall)
      · rintro (hnil | hsome)
        · exact iff_of_true (hnil ▸ List.forall_mem_nil _) hnil
        · exact iff_of_false hsome fun hnil => hsome (hnil ▸ List.forall_mem_nil _) }

end

/-! ## Directories of files -/

section

variable {sources : List (String × List UInt8)}

theorem isEntryName_of_mem_configNames {name : String} (h : name ∈ configNames) :
    IsEntryName name := by
  rcases List.mem_pair.1 h with rfl | rfl
  all_goals refine ⟨⟨?_, ?_, ?_, ?_⟩, ?_, ?_⟩ <;> decide

/-- A report on a directory of files reaches those that are selected by default, unless there is a
configuration among them. -/
theorem reaches_ofFiles (hnames : ∀ name ∈ configNames, name ∉ sources.map (·.1)) :
    ProjectArguments.Reaches (.ofFiles sources) { format := .pretty } {}
      (((sources.map fun f => Path.join "." f.1).filter (Project.selects ⟨".", {}⟩)).mergeSort
        Path.precedes) := by
  have hload : Config.load (.ofFiles sources) "." none = .ok ({}, none) := by
    refine Config.load_eq_ok_none_iff.2 ⟨rfl, rfl, fun name hname => ?_⟩
    exact FileTree.not_isFile_ofFiles (isEntryName_of_mem_configNames hname) (hnames name hname)
  have hcollect := Project.collect_of_walk (p := ⟨".", {}⟩) (FileTree.walk_ofFiles sources)
  exact .intro (a := { format := .pretty }) (FileTree.stat_ofFiles sources) hload hcollect

/-- What comes of a file in a directory is what comes of its content under its name. -/
theorem attempt_ofFiles (h : (FileTree.ofFiles sources).IsSound) {name : String}
    {content : List UInt8} (hmem : (name, content) ∈ sources) (config : Config) :
    Project.attempt ⟨".", config⟩ (.ofFiles sources) (Path.join "." name) =
      analyze name content := by
  have hname : Path.IsName name := (FileTree.isEntryName_of_mem_ofFiles h hmem).toIsName
  have hrelative : Path.relative "." (Path.descend "." [name]) = Path.joinSegments [name] :=
    (Path.relative_descend (by decide) (List.forall_mem_singleton.2 hname)).trans
      (if_neg (List.cons_ne_nil name []))
  rw [Path.joinSegments, String.intercalate_singleton] at hrelative
  rw [Project.attempt, FileTree.read_ofFiles h hmem, Project.relative]
  exact congrArg (analyze · content) hrelative

end

/-- A file that is no text. -/
def brokenSource : String × List UInt8 := ("b.go", [0xff])

/-- A source that is accepted. -/
def plainSource : String × List UInt8 := ("a.go", Utf8.encode "package a\n".toList)

theorem exists_attempt_brokenSource {sources : List (String × List UInt8)}
    (h : (FileTree.ofFiles sources).IsSound) (hmem : brokenSource ∈ sources) :
    ∃ e, Project.attempt ⟨".", {}⟩ (.ofFiles sources) "./b.go" = .error e := by
  have hfails : (analyze "b.go" [0xff]).toOption.isNone := by decide +kernel
  have hpath : Path.join "." "b.go" = "./b.go" := by decide
  rw [← hpath, attempt_ofFiles h hmem]
  cases hresult : analyze "b.go" [0xff] with
  | error e => exact ⟨e, rfl⟩
  | ok o =>
    rw [hresult] at hfails
    cases hfails

theorem exists_attempt_plainSource {sources : List (String × List UInt8)}
    (h : (FileTree.ofFiles sources).IsSound) (hmem : plainSource ∈ sources) :
    ∃ o, Project.attempt ⟨".", {}⟩ (.ofFiles sources) "./a.go" = .ok o := by
  have hsucceeds : (analyze "a.go" plainSource.2).toOption.isSome := by decide +kernel
  have hpath : Path.join "." "a.go" = "./a.go" := by decide
  rw [← hpath, attempt_ofFiles h hmem]
  cases hresult : analyze "a.go" plainSource.2 with
  | ok o => exact ⟨o, hresult⟩
  | error e =>
    rw [hresult] at hsucceeds
    cases hsucceeds

/-! ## All reports -/

/-- **A report accounts for the files**: a run that ends well and writes a report reaches the files
that are collected, and it accounts for them. -/
theorem report_accounts (t : FileTree) (colored : Bool) {a : ProjectArguments}
    (hformat : a.format = .pretty) (hexit : (runCommand t colored (.project a)).exitCode = 0) :
    (∃ config files, a.Reaches t config files) ∧
      ∀ config files, a.Reaches t config files →
        ∃ lines warnings, Accounts t colored ⟨a.path, config⟩ files lines warnings
          (runCommand t colored (.project a)) :=
  ⟨exists_reaches_of_exitCode hexit, fun _ _ => accounts_of_reaches colored hformat⟩

/-- A directory of both of these. -/
def mixedSources : FileTree := .ofFiles [brokenSource, plainSource]

theorem mixedSources_isSound : mixedSources.IsSound := by
  refine FileTree.isSound_ofFiles ?_ (by decide)
  simpa [brokenSource, plainSource] using Project.isEntryName_source

theorem reaches_mixedSources :
    ProjectArguments.Reaches mixedSources { format := .pretty } {} ["./a.go", "./b.go"] := by
  have hselects : ([brokenSource, plainSource].map fun f => Path.join "." f.1).filter
      (Project.selects ⟨".", {}⟩) = ["./b.go", "./a.go"] := by decide
  have hlast : Path.precedes "./b.go" "./a.go" = false := by decide
  have hsort : ["./b.go", "./a.go"].mergeSort Path.precedes = ["./a.go", "./b.go"] := by
    simp [List.mergeSort, List.MergeSort.Internal.splitInTwo, hlast]
  have hreaches := @reaches_ofFiles [brokenSource, plainSource] (by decide)
  rwa [hselects, hsort] at hreaches

theorem report_accounts_mixedSources :
    (runCommand mixedSources false (.project { format := .pretty })).exitCode = 0 ∧
      SaysCount false "." 1
        (runCommand mixedSources false (.project { format := .pretty })).stdout := by
  have hexit : (runCommand mixedSources false (.project { format := .pretty })).exitCode = 0 := by
    rw [runCommand_of_reaches false reaches_mixedSources]
  obtain ⟨-, haccounts⟩ := report_accounts mixedSources false rfl hexit
  obtain ⟨lines, warnings, h⟩ := haccounts _ _ reaches_mixedSources
  obtain ⟨o, ho⟩ := exists_attempt_plainSource mixedSources_isSound (by simp)
  obtain ⟨e, he⟩ := exists_attempt_brokenSource mixedSources_isSound (by simp)
  have hlength : lines.length = 1 := by
    rw [h.lines_perm.length_eq, List.length_map,
      List.filterMap_cons_some (b := o) (by exact congrArg Except.toOption ho),
      List.filterMap_cons_none (by exact congrArg Except.toOption he)]
    rfl
  refine ⟨hexit, (h.saysCount_iff 1).2 ⟨?_, hlength.symm⟩⟩
  exact List.ne_nil_of_length_pos (hlength ▸ Nat.one_pos)

/-- **A report may say that there are no files when there are some**: the only file there is has no
outline. -/
theorem not_forall_saysNoFiles_iff :
    ¬ ∀ (t : FileTree) (colored : Bool) (a : ProjectArguments) (config : Config)
      (files : List String), a.format = .pretty →
      (runCommand t colored (.project a)).exitCode = 0 → a.Reaches t config files →
        (SaysNoFiles colored a.path (runCommand t colored (.project a)).stdout ↔ files = []) := by
  intro hforall
  have hsound : (FileTree.ofFiles [brokenSource]).IsSound := by
    refine FileTree.isSound_ofFiles ?_ (by decide)
    simpa [brokenSource] using Project.isEntryName_source.1
  have hselects : ([brokenSource].map fun f => Path.join "." f.1).filter
      (Project.selects ⟨".", {}⟩) = ["./b.go"] := by decide
  have hreaches := @reaches_ofFiles [brokenSource] (by decide)
  rw [hselects, List.mergeSort_singleton] at hreaches
  obtain ⟨lines, warnings, haccounts⟩ := accounts_of_reaches false rfl hreaches
  have hnone := haccounts.saysNoFiles_iff.2
    (List.forall_mem_singleton.2 (exists_attempt_brokenSource hsound List.mem_cons_self))
  have hexit := congrArg Output.exitCode (runCommand_of_reaches false hreaches)
  exact List.cons_ne_nil _ _ ((hforall _ _ _ _ _ rfl hexit hreaches).1 hnone)

end GoOutline.CommandLine
