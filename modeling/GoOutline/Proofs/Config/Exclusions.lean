import GoOutline.CommandLine.Run
import GoOutline.Proofs.Files.Resolve
import GoOutline.Proofs.Text.Utf8

/-!
# Exclusions in force

Patterns for excluded paths are read twice: when a configuration is loaded, where the first one that
cannot be used ends the loading, and when the files of a project are selected, where one that is no
glob is left out. No loaded configuration has such a pattern, with whatever settings of the command
line, so nothing is left out, and a path is excluded exactly when some pattern stands for it.

## Main definitions

* `Config.InForce`: every pattern of a configuration is in use

## Main results

* `checkPatterns_eq_ok_iff`: when patterns pass the check
* `Config.excludes_exclusions_iff`: the paths that a configuration excludes
* `Config.load_eq_ok_some_iff`, `Config.load_eq_ok_none_iff`: what is loaded
* `Config.inForce_of_load`: the patterns of a loaded configuration are in force
-/

namespace GoOutline

open GoOutline.CommandLine GoOutline.Text

/-! ## Checking patterns -/

/-- A pattern passes the check when it is not blank and spells a glob. -/
theorem checkPattern_eq_ok_iff {pattern : String} :
    checkPattern pattern = .ok () ↔
      (∃ c ∈ pattern.toList, ¬ Blank.isBlank c) ∧ ∃ glob, Glob.read pattern = .ok glob := by
  have hblank : (Blank.trim pattern.toList).isEmpty ↔
      ¬ ∃ c ∈ pattern.toList, ¬ Blank.isBlank c := by
    rw [List.isEmpty_iff, Blank.trim_eq_nil_iff]
    simp
  unfold checkPattern
  split
  · next h => exact iff_of_false nofun fun hboth => hblank.1 h hboth.1
  · next h =>
    rw [hblank, not_not] at h
    cases Glob.read pattern with
    | error e => simp
    | ok glob => simpa using h

/-- The check of some patterns ends at the first that does not pass. -/
theorem checkPatterns_eq_ok_iff {patterns : List String} :
    checkPatterns patterns = .ok () ↔ ∀ pattern ∈ patterns, checkPattern pattern = .ok () := by
  induction patterns with
  | nil => simp [checkPatterns]
  | cons pattern rest ih =>
    rw [checkPatterns, List.forall_mem_cons]
    cases h : checkPattern pattern with
    | error e => simp
    | ok u => simp [ih]

namespace Config

/-- **The patterns of a configuration are all in force**: each of them is a glob and not blank, each
is in use, and a path is excluded when one of them stands for it by itself. A configuration with the
same patterns excludes the same paths, in whatever order and however often it has them. -/
structure InForce (c : Config) : Prop where
  not_blank : ∀ pattern ∈ c.excludedPaths, ∃ ch ∈ pattern.toList, ¬ Blank.isBlank ch
  is_glob : ∀ pattern ∈ c.excludedPaths, ∃ glob, Glob.read pattern = .ok glob
  each_in_use : c.exclusions.map Except.ok = c.excludedPaths.map Glob.read
  none_left_out : c.exclusions.length = c.excludedPaths.length
  excludes_iff : ∀ path, excludes c.exclusions path ↔
    ∃ pattern ∈ c.excludedPaths, ∃ glob, Glob.read pattern = .ok glob ∧ glob.accepts path
  excludes_congr : ∀ d : Config,
    (∀ pattern, pattern ∈ d.excludedPaths ↔ pattern ∈ c.excludedPaths) →
      ∀ path, excludes d.exclusions path = excludes c.exclusions path

section

variable {c d : Config}

theorem validate_eq_ok_iff :
    c.validate = .ok () ↔ ∀ pattern ∈ c.excludedPaths, checkPattern pattern = .ok () :=
  checkPatterns_eq_ok_iff

/-- **The paths that a configuration excludes** are those that one of its patterns stands for. -/
theorem excludes_exclusions_iff {path : String} :
    excludes c.exclusions path ↔
      ∃ pattern ∈ c.excludedPaths, ∃ glob, Glob.read pattern = .ok glob ∧ glob.accepts path := by
  rw [excludes, List.any_eq_true]
  constructor
  · rintro ⟨glob, hglob, haccepts⟩
    obtain ⟨pattern, hpattern, hread⟩ := List.mem_filterMap.1 hglob
    cases hr : Glob.read pattern with
    | error e => simp [hr, Except.toOption] at hread
    | ok read =>
      obtain rfl : read = glob := by simpa [hr, Except.toOption] using hread
      exact ⟨pattern, hpattern, read, hr, haccepts⟩
  · rintro ⟨pattern, hpattern, glob, hread, haccepts⟩
    refine ⟨glob, List.mem_filterMap.2 ⟨pattern, hpattern, ?_⟩, haccepts⟩
    rw [hread]
    rfl

/-- Where every pattern is a glob, each of them is in use. -/
theorem map_ok_exclusions
    (h : ∀ pattern ∈ c.excludedPaths, ∃ glob, Glob.read pattern = .ok glob) :
    c.exclusions.map Except.ok = c.excludedPaths.map Glob.read := by
  unfold exclusions
  generalize c.excludedPaths = patterns at h
  induction patterns with
  | nil => rfl
  | cons pattern rest ih =>
    obtain ⟨⟨glob, hread⟩, hrest⟩ := List.forall_mem_cons.1 h
    have hglob : (Glob.read pattern).toOption = some glob := by
      rw [hread]
      rfl
    rw [List.filterMap_cons, hglob, List.map_cons, List.map_cons, ih hrest, hread]

/-- Patterns that pass the check are all in force. -/
theorem inForce_of_validate (h : c.validate = .ok ()) : c.InForce := by
  have hcheck (pattern : String) (hpattern : pattern ∈ c.excludedPaths) :=
    checkPattern_eq_ok_iff.1 (validate_eq_ok_iff.1 h pattern hpattern)
  have hglob (pattern : String) (hpattern : pattern ∈ c.excludedPaths) :=
    (hcheck pattern hpattern).2
  have hmap := map_ok_exclusions hglob
  exact {
    not_blank := fun pattern hpattern => (hcheck pattern hpattern).1
    is_glob := hglob
    each_in_use := hmap
    none_left_out := by simpa using congrArg List.length hmap
    excludes_iff := fun path => excludes_exclusions_iff
    excludes_congr := by
      intro d hd path
      rw [Bool.eq_iff_iff, excludes_exclusions_iff, excludes_exclusions_iff]
      simp only [hd] }

/-- The settings of a command line, given however often, do not touch the patterns. -/
theorem excludedPaths_applyFlags (flags : List ProjectArguments) (c : Config) :
    (flags.foldr applyFlags c).excludedPaths = c.excludedPaths := by
  induction flags with
  | nil => rfl
  | cons a rest ih => exact ih

end

/-! ## Loading -/

section

variable {t : FileTree} {root path : String} {explicit : Option String} {config : Config}

/-- A file is loaded when it holds a configuration that passes the check. -/
theorem loadFile_eq_ok_iff :
    loadFile t path = .ok config ↔ readFile t path = .ok config ∧ config.validate = .ok () := by
  unfold loadFile
  cases readFile t path with
  | error e => simp
  | ok read =>
    dsimp only
    cases hvalid : read.validate with
    | error e =>
      refine iff_of_false (by simp) ?_
      rintro ⟨hread, hok⟩
      cases hread
      rw [hvalid] at hok
      cases hok
    | ok u =>
      refine ⟨fun hconfig => ?_, fun h => h.1⟩
      cases hconfig
      exact ⟨rfl, hvalid⟩

/-- A configuration that does not pass the check is not loaded, and nothing else in its place. -/
theorem loadFile_of_validate_error {e : PatternError} (hread : readFile t path = .ok config)
    (hvalid : config.validate = .error e) : loadFile t path = .error (.pattern e) := by
  rw [loadFile, hread]
  dsimp only
  rw [hvalid]

/-- There is no configuration file at a root when none of the names is a file there. -/
theorem discoverConfig?_eq_none_iff :
    discoverConfig? t root = none ↔ ∀ name ∈ configNames, ¬ t.isFile (Path.join root name) := by
  rw [discoverConfig?, List.find?_eq_none]
  exact List.forall_mem_map

theorem load_of_path (h : explicit.or (discoverConfig? t root) = some path) :
    load t root explicit = (loadFile t path).map (·, some path) := by
  rw [load, h]

theorem load_of_no_path (h : explicit.or (discoverConfig? t root) = none) :
    load t root explicit = .ok ({}, none) := by
  rw [load, h]

/-- **A configuration with a file** is loaded from the file that is named, or else from the first
one that is found, and has passed the check. -/
theorem load_eq_ok_some_iff :
    load t root explicit = .ok (config, some path) ↔
      explicit.or (discoverConfig? t root) = some path ∧
        readFile t path = .ok config ∧ config.validate = .ok () := by
  cases hpath : explicit.or (discoverConfig? t root) with
  | none => simp [load_of_no_path hpath]
  | some found =>
    rw [load_of_path hpath, ← loadFile_eq_ok_iff, Option.some.injEq]
    cases hload : loadFile t found with
    | error e =>
      refine iff_of_false (by simp [Except.map]) ?_
      rintro ⟨rfl, hok⟩
      rw [hload] at hok
      cases hok
    | ok read =>
      simp only [Except.map, Except.ok.injEq, Prod.mk.injEq, Option.some.injEq]
      constructor
      · rintro ⟨rfl, rfl⟩
        exact ⟨rfl, hload⟩
      · rintro ⟨rfl, hok⟩
        rw [hload] at hok
        cases hok
        exact ⟨rfl, rfl⟩

/-- **The defaults** are loaded when no file is named and there is none at the root. -/
theorem load_eq_ok_none_iff :
    load t root explicit = .ok (config, none) ↔
      config = {} ∧ explicit = none ∧
        ∀ name ∈ configNames, ¬ t.isFile (Path.join root name) := by
  rw [← discoverConfig?_eq_none_iff, ← Option.or_eq_none_iff]
  cases hpath : explicit.or (discoverConfig? t root) with
  | none => simp [load_of_no_path hpath, eq_comm]
  | some found =>
    rw [load_of_path hpath]
    cases loadFile t found with
    | error e => simp [Except.map]
    | ok read => simp [Except.map]

/-- What is loaded has passed the check, and the defaults have no patterns to check. -/
theorem validate_of_load {source : Option String}
    (h : load t root explicit = .ok (config, source)) : config.validate = .ok () := by
  cases source with
  | none =>
    obtain ⟨rfl, -⟩ := load_eq_ok_none_iff.1 h
    rfl
  | some path => exact (load_eq_ok_some_iff.1 h).2.2

end

/-- **Validated exclusions are in force.** A loaded configuration has its patterns in force, also
after settings of the command line; a configuration that does not pass the check is not loaded, and
nothing else in its place; the defaults are loaded exactly when no file is named and neither of the
two names is a file at the root. -/
theorem inForce_of_load (t : FileTree) (root : String) (explicit : Option String) :
    (∀ config source, load t root explicit = .ok (config, source) →
      ∀ flags : List ProjectArguments, (flags.foldr applyFlags config).InForce) ∧
    (∀ config path, load t root explicit = .ok (config, some path) →
      explicit.or (discoverConfig? t root) = some path ∧ readFile t path = .ok config) ∧
    (∀ config path e, explicit.or (discoverConfig? t root) = some path →
      readFile t path = .ok config → config.validate = .error e →
      load t root explicit = .error (.pattern e)) ∧
    ∀ config, load t root explicit = .ok (config, none) ↔
      config = {} ∧ explicit = none ∧
        ∀ name ∈ ["goanalyze.yaml", ".goanalyze.yaml"], ¬ t.isFile (Path.join root name) := by
  refine ⟨?_, ?_, ?_, fun config => load_eq_ok_none_iff⟩
  · intro config source hload flags
    apply inForce_of_validate
    rw [validate, excludedPaths_applyFlags]
    exact validate_of_load hload
  · intro config path hload
    obtain ⟨hpath, hread, -⟩ := load_eq_ok_some_iff.1 hload
    exact ⟨hpath, hread⟩
  · intro config path e hpath hread hvalid
    rw [load_of_path hpath, loadFile_of_validate_error hread hvalid]
    rfl

/-- Patterns for generated files, one of them twice. -/
def generatedPatterns : List String := ["**/gen/**", "*.pb.go", "**/gen/**"]

/-- A configuration with these patterns. -/
def generatedConfig : String :=
  "excluded_paths:\n  - \"**/gen/**\"\n  - \"*.pb.go\"\n  - \"**/gen/**\"\n"

/-- A project with this configuration at its root. -/
def generatedExcluded : FileTree where
  root := [("project",
    .directory [("goanalyze.yaml", .file (Utf8.encode generatedConfig.toList))])]

theorem stat_generatedExcluded : generatedExcluded.stat "project/goanalyze.yaml" =
    .ok (["project", "goanalyze.yaml"], .file (Utf8.encode generatedConfig.toList)) := by
  have hpath : Path.segments "project/goanalyze.yaml" = ["project", "goanalyze.yaml"] := by decide
  have hproject : ¬ FileTree.maxName < FileTree.byteLength "project" := by decide
  have hname : ¬ FileTree.maxName < FileTree.byteLength "goanalyze.yaml" := by decide
  refine FileTree.lookUp_eq_ok_iff.2
    ⟨FileTree.resolve_eq_ok_iff.2 ⟨by decide, by decide, by decide, ?_⟩, rfl⟩
  rw [hpath]
  simp [FileTree.resolveFrom, FileTree.at?, Entry.descend?, Entry.entries?, generatedExcluded,
    hproject, hname]

theorem read_generatedConfig :
    read generatedConfig = .ok { excludedPaths := generatedPatterns } := by
  have h : (read generatedConfig).toOption = some { excludedPaths := generatedPatterns } := by
    decide +kernel
  cases hread : read generatedConfig with
  | error e => simp [hread, Except.toOption] at h
  | ok config =>
    rw [hread] at h
    rw [Option.some.inj h]

theorem load_generatedExcluded : load generatedExcluded "project" none =
    .ok ({ excludedPaths := generatedPatterns }, some "project/goanalyze.yaml") := by
  have hfile : generatedExcluded.isFile "project/goanalyze.yaml" := by
    rw [FileTree.isFile, stat_generatedExcluded]
    rfl
  have hnames : configNames.map (Path.join "project") =
      ["project/goanalyze.yaml", "project/.goanalyze.yaml"] := by decide
  have hread : readFile generatedExcluded "project/goanalyze.yaml" =
      .ok { excludedPaths := generatedPatterns } := by
    rw [readFile, FileTree.read, stat_generatedExcluded]
    dsimp only
    rw [Utf8.decode_encode]
    dsimp only
    rw [String.ofList_toList, read_generatedConfig]
    rfl
  refine load_eq_ok_some_iff.2 ⟨?_, hread, by decide +kernel⟩
  rw [Option.none_or, discoverConfig?, hnames]
  exact List.find?_cons_of_pos hfile

theorem inForce_of_load_generatedExcluded :
    load generatedExcluded "project" none =
        .ok ({ excludedPaths := generatedPatterns }, some "project/goanalyze.yaml") ∧
      (applyFlags { includeTests := true, sequential := true }
        { excludedPaths := generatedPatterns }).InForce :=
  ⟨load_generatedExcluded, (inForce_of_load generatedExcluded "project" none).1 _ _
    load_generatedExcluded [{ includeTests := true, sequential := true }]⟩

end Config

end GoOutline
