import GoOutline.Project.Collect
import GoOutline.Proofs.Files.Reorder
import Mathlib.Data.List.Sort

/-!
# The files of a project

The files of a project are exactly those that its configuration asks for: the regular files below
the root, through links as well, that are sources of the language, that are in no directory that is
left out, and that neither the rule on tests nor a pattern excludes. They are in the order of their
components, whatever the order in which directories are listed.

## Main definitions

* `Project.Contains`: what belongs to a project, by the names that lead to it
* `Project.Lists`: the files of a project, in order and each once

## Main results

* `Project.selects_iff`: the files that are selected
* `Project.collect_eq_contained`: the files of a project
* `Project.not_forall_exists_collect`: links are not all that can stop a walk
-/

namespace GoOutline.Project

variable {p : Project} {t t' : FileTree} {names : List String} {files : List String}

/-- What a file of some names below the root is called relative to the root. -/
def nameBelow (p : Project) (names : List String) : String :=
  if names = [] then (Path.fileName? p.root).getD p.root else Path.joinSegments names

/-- **What belongs to a project**, by the names that lead to it from the root. -/
structure Contains (p : Project) (t : FileTree) (names : List String) : Prop where
  /-- It is a regular file, links followed. -/
  holds : t.Holds p.root names
  /-- It is in no directory that is left out. -/
  entered : ∀ name ∈ names.dropLast, ¬ IsSkipped name
  /-- It is called a source, and a test only if those are wanted. -/
  source : ∃ name, Path.fileName? (Path.descend p.root names) = some name ∧
    (∃ stem, stem ≠ [] ∧ name.toList = stem ++ ".go".toList) ∧
    (p.config.includeTestFiles ∨ ¬ "_test.go".toList <:+ name.toList)
  /-- No pattern excludes it. -/
  included : excludes p.config.exclusions (p.nameBelow names) = false

theorem handles_go_iff {extension : Option String} :
    Language.go.handles (extension.getD "") ↔ extension = some "go" := by
  cases extension <;> simp [Language.handles, Language.go]

/-- **The files that are selected** have the name of a source, are tests only if those are wanted,
and are not excluded. -/
theorem selects_iff (hroot : p.root ≠ "") (hnames : ∀ name ∈ names, Path.IsName name) :
    p.selects (Path.descend p.root names) ↔
      (∃ name, Path.fileName? (Path.descend p.root names) = some name ∧
        (∃ stem, stem ≠ [] ∧ name.toList = stem ++ ".go".toList) ∧
        (p.config.includeTestFiles ∨ ¬ "_test.go".toList <:+ name.toList)) ∧
      excludes p.config.exclusions (p.nameBelow names) = false := by
  have hrelative : p.relative (Path.descend p.root names) = p.nameBelow names :=
    Path.relative_descend hroot hnames
  rw [selects, hrelative, Bool.and_eq_true, Bool.and_eq_true, Bool.not_eq_true',
    Bool.or_eq_true, Bool.not_eq_true']
  refine and_congr_left fun _ => ?_
  cases hname : Path.fileName? (Path.descend p.root names) with
  | none =>
    have hextension : Path.extension? (Path.descend p.root names) = none := by
      rw [Path.extension?, hname]
    rw [handles_go_iff, hextension]
    simp
  | some name =>
    have hsource : Language.go.handles ((Path.extension? (Path.descend p.root names)).getD "") ↔
        ∃ stem, stem ≠ [] ∧ name.toList = stem ++ ".go".toList := by
      rw [handles_go_iff, Path.extension?_eq_go_iff hname]
      rfl
    have htest : isTestFile name = false ↔ ¬ "_test.go".toList <:+ name.toList := by
      rw [isTestFile, ← List.isSuffixOf_iff_suffix, Bool.not_eq_true]
    rw [hsource, Option.getD_some, htest]
    simp

/-- What is found and selected is what belongs to the project. -/
theorem contains_iff (ht : t.IsSound) :
    p.Contains t names ↔ t.Finds p.root names ∧ p.selects (Path.descend p.root names) := by
  constructor
  · rintro ⟨hholds, hentered, hsource, hincluded⟩
    have hfinds : t.Finds p.root names := ⟨hholds, hentered⟩
    obtain ⟨hroot, hnames⟩ := hfinds.isName ht
    exact ⟨hfinds, (selects_iff hroot hnames).2 ⟨hsource, hincluded⟩⟩
  · rintro ⟨hfinds, hselects⟩
    obtain ⟨hroot, hnames⟩ := hfinds.isName ht
    obtain ⟨hsource, hincluded⟩ := (selects_iff hroot hnames).1 hselects
    exact ⟨hfinds.holds, hfinds.entered, hsource, hincluded⟩

theorem collect_of_walk (hwalk : t.walk p.root = .ok files) :
    p.collect t = .ok ((files.filter p.selects).mergeSort Path.precedes) := by
  rw [collect, hwalk]
  rfl

theorem collect_of_walk_error {error : WalkError} (hwalk : t.walk p.root = .error error) :
    p.collect t = .error error := by
  rw [collect, hwalk]
  rfl

/-- The files are those of the project, in order, each once. -/
structure Lists (p : Project) (t : FileTree) (files : List String) : Prop where
  sorted : files.Pairwise fun a b => Path.precedes a b
  nodup : files.Nodup
  mem_iff : ∀ path, path ∈ files ↔ ∃ names, path = Path.descend p.root names ∧ p.Contains t names

/-- **A walk without obstacles collects the files of the project.** -/
theorem exists_collect (ht : t.IsSound) {place : FileTree.Place} {e : Entry}
    (hroot : t.linkStat p.root = .ok (place, e)) (h : ¬ t.Obstructed p.root) :
    ∃ files, p.collect t = .ok files ∧ p.Lists t files := by
  obtain ⟨files, hwalk, hnodup, hmem⟩ := FileTree.exists_walk ht hroot h
  refine ⟨_, collect_of_walk hwalk, ?_, ?_, fun path => ?_⟩
  · exact List.pairwise_mergeSort Path.precedes_trans Path.precedes_total _
  · exact (List.mergeSort_perm _ _).nodup_iff.2 (hnodup.filter _)
  · rw [List.mem_mergeSort, List.mem_filter, hmem]
    constructor
    · rintro ⟨⟨names, rfl, hfinds⟩, hselects⟩
      exact ⟨names, rfl, (contains_iff ht).2 ⟨hfinds, hselects⟩⟩
    · rintro ⟨names, rfl, hcontains⟩
      obtain ⟨hfinds, hselects⟩ := (contains_iff ht).1 hcontains
      exact ⟨⟨names, rfl, hfinds⟩, hselects⟩

/-- There is one list of the files of a project. -/
theorem Lists.eq (ht : t.IsSound) {files' : List String} (h : p.Lists t files)
    (h' : p.Lists t files') : files = files' := by
  have hperm : files.Perm files' :=
    (List.perm_ext_iff_of_nodup h.nodup h'.nodup).2 fun path => by rw [h.mem_iff, h'.mem_iff]
  -- paths with the same components could differ in their texts, but not below one root
  refine List.Perm.eq_of_pairwise ?_ h.sorted h'.sorted hperm
  intro a b ha hb hab hba
  obtain ⟨names, rfl, hcontains⟩ := (h.mem_iff a).1 ha
  obtain ⟨names', rfl, hcontains'⟩ := (h'.mem_iff b).1 hb
  obtain ⟨hfinds, -⟩ := (contains_iff ht).1 hcontains
  obtain ⟨hfinds', -⟩ := (contains_iff ht).1 hcontains'
  have hsame := Path.eq_of_componentsPrecede hab hba
  rw [Path.eq_of_components_descend (hfinds.isName ht).1 (hfinds.isName ht).2
    (hfinds'.isName ht).2 hsame]

theorem Contains.reordered (h : t.Reordered t') (ht : t.IsSound) (ht' : t'.IsSound)
    (hcontains : p.Contains t names) : p.Contains t' names :=
  { hcontains with holds := h.holds ht ht' hcontains.holds }

theorem Lists.reordered (h : t.Reordered t') (ht : t.IsSound) (ht' : t'.IsSound)
    (hlists : p.Lists t files) : p.Lists t' files := by
  refine ⟨hlists.sorted, hlists.nodup, fun path => ?_⟩
  rw [hlists.mem_iff]
  constructor
  · rintro ⟨names, rfl, hcontains⟩
    exact ⟨names, rfl, hcontains.reordered h ht ht'⟩
  · rintro ⟨names, rfl, hcontains⟩
    exact ⟨names, rfl, hcontains.reordered h.symm ht' ht⟩

/-- A collection that succeeds met no obstacle, so it is the list of the files. -/
theorem lists_of_collect (ht : t.IsSound) {place : FileTree.Place} {e : Entry}
    (hroot : t.linkStat p.root = .ok (place, e)) (h : p.collect t = .ok files) :
    ¬ t.Obstructed p.root ∧ p.Lists t files := by
  have hclear : ¬ t.Obstructed p.root := by
    intro hobstructed
    obtain ⟨error, hwalk⟩ := FileTree.exists_walk_error ht hobstructed
    rw [collect_of_walk_error hwalk] at h
    cases h
  obtain ⟨files', hfiles', hlists⟩ := exists_collect ht hroot hclear
  cases h.symm.trans hfiles'
  exact ⟨hclear, hlists⟩

/-- The order in which directories are listed makes no difference to the files of a project. -/
theorem collect_of_reordered (h : t.Reordered t') (ht : t.IsSound) (ht' : t'.IsSound)
    {place : FileTree.Place} {e : Entry} (hroot : t.linkStat p.root = .ok (place, e))
    (hfiles : p.collect t = .ok files) : p.collect t' = .ok files := by
  obtain ⟨hclear, hlists⟩ := lists_of_collect ht hroot hfiles
  obtain ⟨e', hroot', -⟩ := h.exists_lookUp_eq_ok ht ht' hroot
  have hclear' : ¬ t'.Obstructed p.root := mt (h.symm.obstructed ht' ht) hclear
  obtain ⟨files', hfiles', hlists'⟩ := exists_collect ht' hroot' hclear'
  rw [hfiles', (hlists.reordered h ht ht').eq ht' hlists']

/-! ## A source and a link -/

/-- A source and a link to it. -/
def linkedSource : FileTree := ⟨[("b.go", .link "a.go"), ("a.go", .file [])], []⟩

/-- The source and the link, listed in the other order. -/
def linkedSourceReordered : FileTree := ⟨[("a.go", .file []), ("b.go", .link "a.go")], []⟩

theorem isEntryName_source : IsEntryName "b.go" ∧ IsEntryName "a.go" := by
  refine ⟨⟨⟨?_, ?_, ?_, ?_⟩, ?_, ?_⟩, ⟨⟨?_, ?_, ?_, ?_⟩, ?_, ?_⟩⟩ <;> decide

theorem linkedSource_isSound : linkedSource.IsSound ∧ linkedSourceReordered.IsSound := by
  simp [FileTree.IsSound, linkedSource, linkedSourceReordered, Entry.IsSound, Entry.AllSound,
    isEntryName_source]

theorem linkedSource_reordered : linkedSource.Reordered linkedSourceReordered := by
  refine ⟨rfl, .directory (List.Perm.swap _ _ _) fun name e e' he he' => ?_⟩
  simp only [linkedSource, linkedSourceReordered, List.mem_cons, List.not_mem_nil, or_false,
    Prod.mk.injEq] at he he'
  rcases he with ⟨rfl, rfl⟩ | ⟨rfl, rfl⟩
  · have he' : e' = .link "a.go" := by simpa using he'
    exact he' ▸ .link _
  · have he' : e' = .file [] := by simpa using he'
    exact he' ▸ .file _

theorem linkStat_linkedSource :
    linkedSource.linkStat "." = .ok ([], .directory linkedSource.root) := by
  have hpath : Path.segments "." = ["."] := by decide
  have hroot : linkedSource.at? [] = some (.directory linkedSource.root) := rfl
  refine FileTree.lookUp_eq_ok_iff.2
    ⟨FileTree.resolve_eq_ok_iff.2 ⟨by decide, by decide, by decide, ?_⟩, hroot⟩
  rw [hpath]
  exact FileTree.resolveFrom_idle hroot (by simp)

theorem stat_linkedSource : linkedSource.stat "./b.go" = .ok (["a.go"], .file []) := by
  obtain ⟨hb, ha⟩ := isEntryName_source
  have hpath : Path.segments "./b.go" = [".", "b.go"] := by decide
  have htarget : Path.segments "a.go" = ["a.go"] := by decide
  have hrelative : Path.isAbsolute "a.go" = false := by decide
  refine FileTree.lookUp_eq_ok_iff.2
    ⟨FileTree.resolve_eq_ok_iff.2 ⟨by decide, by decide, by decide, ?_⟩, rfl⟩
  rw [hpath]
  simp [FileTree.resolveFrom, FileTree.at?, Entry.descend?, Entry.entries?, FileTree.maxLinks,
    linkedSource, List.lookup_cons, hrelative, htarget, Nat.not_lt.2 hb.short,
    Nat.not_lt.2 ha.short]

theorem walk_linkedSource : linkedSource.walk "." = .ok ["./b.go", "./a.go"] := by
  have hroot := FileTree.stat_of_linkStat linkStat_linkedSource fun _ => nofun
  have hdepth : linkedSource.walkDepth = 14 + 1 + 1 := by
    simp [FileTree.walkDepth, linkedSource, Entry.sizeAll, Entry.size]
  have hbelow : linkedSource.root.mapM (fun m =>
      linkedSource.walkFrom (14 + 1) [⟨".", []⟩] (Path.join "." m.1) m.2) =
        .ok [["./b.go"], ["./a.go"]] := by
    have hb : Path.join "." "b.go" = "./b.go" := by decide
    have ha : Path.join "." "a.go" = "./a.go" := by decide
    refine mapM_eq_ok_iff.2 (.cons ?_ (.cons ?_ .nil))
    · rw [hb]
      exact FileTree.walkFrom_of_follow_file (FileTree.follow_link_of_file _ stat_linkedSource)
    · rw [ha]
      exact FileTree.walkFrom_of_follow_file rfl
  rw [FileTree.walk, linkStat_linkedSource, hdepth]
  refine (FileTree.walkFrom_of_list rfl (by decide) (FileTree.list_eq_ok_iff.2 hroot)).trans ?_
  rw [hbelow]
  rfl

theorem collect_linkedSource : collect ⟨".", {}⟩ linkedSource = .ok ["./a.go", "./b.go"] := by
  have hselects : ["./b.go", "./a.go"].filter (selects ⟨".", {}⟩) = ["./b.go", "./a.go"] := by
    decide
  have hlast : Path.precedes "./b.go" "./a.go" = false := by decide
  have hsort : ["./b.go", "./a.go"].mergeSort Path.precedes = ["./a.go", "./b.go"] := by
    simp [List.mergeSort, List.MergeSort.Internal.splitInTwo, hlast]
  have hcollect := collect_of_walk (p := ⟨".", {}⟩) walk_linkedSource
  rwa [hselects, hsort] at hcollect

/-! ## The files of a project -/

/-- **The files of a project.** In a file system with an existing root, a walk that meets no
obstacle collects exactly the files that belong to the project, in the order of their components and
each once; a walk that meets one fails; and the order in which directories are listed makes no
difference to what is collected. -/
theorem collect_eq_contained (p : Project) {t : FileTree} (ht : t.IsSound) {place : FileTree.Place}
    {e : Entry} (hroot : t.linkStat p.root = .ok (place, e)) :
    (¬ t.Obstructed p.root → ∃ files, p.collect t = .ok files ∧ p.Lists t files) ∧
    (t.Obstructed p.root → ∃ error, p.collect t = .error error) ∧
    ∀ t' : FileTree, t'.IsSound → t.Reordered t' →
      ∀ files, p.collect t = .ok files → p.collect t' = .ok files := by
  refine ⟨exists_collect ht hroot, fun hobstructed => ?_, fun t' ht' h files hfiles => ?_⟩
  · obtain ⟨error, hwalk⟩ := FileTree.exists_walk_error ht hobstructed
    exact ⟨error, collect_of_walk_error hwalk⟩
  · exact collect_of_reordered h ht ht' hroot hfiles

theorem collect_eq_contained_linkedSource :
    Lists ⟨".", {}⟩ linkedSource ["./a.go", "./b.go"] ∧
      collect ⟨".", {}⟩ linkedSourceReordered = .ok ["./a.go", "./b.go"] := by
  obtain ⟨hclear, -, horder⟩ :=
    collect_eq_contained ⟨".", {}⟩ linkedSource_isSound.1 linkStat_linkedSource
  obtain ⟨hnot, -⟩ :=
    lists_of_collect linkedSource_isSound.1 linkStat_linkedSource collect_linkedSource
  obtain ⟨files, hfiles, hlists⟩ := hclear hnot
  cases hfiles.symm.trans collect_linkedSource
  exact ⟨hlists, horder _ linkedSource_isSound.2 linkedSource_reordered _ collect_linkedSource⟩

/-! ## Paths that are too long -/

/-- The working directory, with some slashes behind it. -/
def dotSlashes (n : Nat) : String := String.ofList ('.' :: List.replicate n '/')

theorem segments_dotSlashes (n : Nat) :
    Path.segments (dotSlashes n) = "." :: List.replicate n "" := by
  have hslashes : Path.splitSlashes (List.replicate n '/') = List.replicate (n + 1) [] := by
    induction n with
    | zero => rfl
    | succ n ih => rw [List.replicate_succ, Path.splitSlashes, if_pos rfl, ih]; rfl
  rw [Path.segments, dotSlashes, String.toList_ofList, Path.splitSlashes, if_neg (by decide),
    hslashes, List.replicate_succ, List.map_cons, List.map_replicate]

theorem byteLength_ofList_replicate (n : Nat) (c : Char) :
    FileTree.byteLength (String.ofList (List.replicate n c)) = n * c.utf8Size := by
  induction n with
  | zero => simp [FileTree.byteLength]
  | succ n ih =>
    rw [FileTree.byteLength] at ih ⊢
    rw [List.replicate_succ, String.ofList_cons, String.utf8ByteSize_append, ih,
      String.utf8ByteSize_singleton, Nat.succ_mul, Nat.add_comm]

theorem byteLength_dotSlashes (n : Nat) : FileTree.byteLength (dotSlashes n) = n + 1 := by
  have hslashes := byteLength_ofList_replicate n '/'
  have hslash : '/'.utf8Size = 1 := rfl
  rw [hslash, Nat.mul_one, FileTree.byteLength] at hslashes
  rw [FileTree.byteLength, dotSlashes, String.ofList_cons, String.utf8ByteSize_append, hslashes,
    String.utf8ByteSize_singleton, Nat.add_comm]
  rfl

/-- Slashes behind the working directory do not lead away from it. -/
theorem lookUp_dotSlashes {t : FileTree} {entries : List (String × Entry)}
    (h : t.at? t.workingDirectory = some (.directory entries)) {n : Nat}
    (hn : n + 1 ≤ FileTree.maxPath) (followLast : Bool) :
    t.lookUp followLast (dotSlashes n) = .ok (t.workingDirectory, .directory entries) := by
  have hchars : (dotSlashes n).toList = '.' :: List.replicate n '/' := String.toList_ofList
  refine FileTree.lookUp_eq_ok_iff.2 ⟨FileTree.resolve_eq_ok_iff.2 ⟨?_, ?_, ?_, ?_⟩, h⟩
  · rw [hchars]
    simp
  · intro hempty
    rw [hempty] at hchars
    cases hchars
  · rwa [byteLength_dotSlashes]
  · have hrelative : Path.isAbsolute (dotSlashes n) = false := by rw [Path.isAbsolute, hchars]; rfl
    rw [hrelative, segments_dotSlashes]
    refine FileTree.resolveFrom_idle h fun segment hsegment => ?_
    rcases List.mem_cons.1 hsegment with rfl | hsegment
    · exact .inr rfl
    · exact .inl (List.eq_of_mem_replicate hsegment)

/-- A tree with one empty directory. -/
def emptyDirectory : FileTree := ⟨[("directory", .directory [])], []⟩

theorem emptyDirectory_isSound : emptyDirectory.IsSound := by
  have hname : IsEntryName "directory" :=
    ⟨⟨by decide, by decide, by decide, by decide⟩, by decide, by decide⟩
  simpa [FileTree.IsSound, emptyDirectory, Entry.IsSound, Entry.AllSound] using hname

theorem exists_directory_of_at? {place : FileTree.Place} {e : Entry}
    (h : emptyDirectory.at? place = some e) : ∃ entries, e = .directory entries := by
  rw [FileTree.at?] at h
  rcases place with _ | ⟨first, rest⟩
  · cases h
    exact ⟨_, rfl⟩
  · by_cases hfirst : first = "directory"
    · subst hfirst
      rcases rest with _ | ⟨second, rest⟩
      · cases h
        exact ⟨[], rfl⟩
      · cases h
    · have hlookup : emptyDirectory.root.lookup first = none := by
        rw [emptyDirectory, List.lookup_cons, beq_eq_false_iff_ne.2 hfirst]
        rfl
      simp [Entry.descend?, Entry.entries?, hlookup] at h

theorem not_listed_link {root target : String} {place : FileTree.Place}
    {entries : List (String × Entry)} (names : List String)
    (hroot : emptyDirectory.linkStat root = .ok (place, .directory entries)) :
    ¬ emptyDirectory.Listed root names (.link target) := by
  intro h
  cases h with
  | root hlink => cases hroot.symm.trans hlink
  | entry _ hopen he =>
    have hplace := emptyDirectory_isSound.at?_concat (FileTree.at?_of_stat hopen) he
    obtain ⟨_, hdirectory⟩ := exists_directory_of_at? hplace
    cases hdirectory

/-- The root is as long as a path can be, so that its directory cannot be opened. -/
theorem obstructed_dotSlashes {n : Nat} (hn : n + 1 = FileTree.maxPath) :
    emptyDirectory.Obstructed (dotSlashes n) := by
  have hroot : emptyDirectory.at? emptyDirectory.workingDirectory =
    some (.directory emptyDirectory.root) := rfl
  have hlookUp := lookUp_dotSlashes hroot hn.le
  have hmeets : emptyDirectory.Meets (dotSlashes n) ([] ++ ["directory"]) (.directory []) :=
    ⟨.entry (.root (hlookUp false)) (hlookUp true) List.mem_cons_self, List.forall_mem_nil _⟩
  refine ⟨_, _, hmeets, .tooLong ?_ ?_⟩
  · intro name hname
    cases hname
    simp [IsSkipped]
  · have hname : Path.IsName "directory" := ⟨by decide, by decide, by decide, by decide⟩
    rw [Path.descend_concat, Path.descend_nil, ← hn, ← byteLength_dotSlashes n]
    exact FileTree.byteLength_lt_join (FileTree.ne_empty_of_lookUp (hlookUp true)) hname

/-- **Links are not all that can stop a walk**: an empty directory below a root that is written with
many slashes does, since its path is too long. -/
theorem not_forall_exists_collect :
    ¬ ∀ (p : Project) (t : FileTree), t.IsSound → (∃ found, t.linkStat p.root = .ok found) →
      (∀ names target, t.Meets p.root names (.link target) →
        ¬ t.Obstructs p.root names (.link target)) →
      ∃ files, p.collect t = .ok files := by
  intro h
  -- one dot and 4094 slashes: the longest path of this form, kept abstract below
  obtain ⟨n, hn⟩ : ∃ n, n + 1 = FileTree.maxPath := ⟨4094, rfl⟩
  have hroot := lookUp_dotSlashes (t := emptyDirectory) rfl hn.le false
  obtain ⟨error, hwalk⟩ :=
    FileTree.exists_walk_error emptyDirectory_isSound (obstructed_dotSlashes hn)
  have hcollect : collect ⟨dotSlashes n, {}⟩ emptyDirectory = .error error :=
    collect_of_walk_error hwalk
  obtain ⟨files, hfiles⟩ := h ⟨dotSlashes n, {}⟩ emptyDirectory emptyDirectory_isSound
    ⟨_, hroot⟩ fun names target hmeets _ => not_listed_link names hroot hmeets.listed
  cases hcollect.symm.trans hfiles

end GoOutline.Project
