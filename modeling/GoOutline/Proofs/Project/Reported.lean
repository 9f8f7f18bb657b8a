import GoOutline.Proofs.Project.Isolation
import GoOutline.Proofs.Project.Selection

/-!
# Reported paths

The path that a file is reported under tells it apart from every other file of the project. Below a
directory it leads back from the root to the file, however the root is written: only when nothing
is left of a path is the file known by its name alone, and that happens for no file below a
directory. So a project has one record for each of its files, an outline or a failure, and the
records are in the strict order of their paths. A root that is a file is the only file of its
project.

## Main definitions

* `Project.Identify`: records that are told apart by their paths

## Main results

* `Project.join_relative`: from the root back to a file
* `Project.relative_injOn`: no two files are reported under one path
* `Project.identify_of_injOn`: the records of files that are reported under different paths
* `Project.reported_identify`: all of these for the files of a project
-/

namespace GoOutline

open GoOutline.Text

theorem encode_toList_lt_iff {s t : String} :
    Utf8.encode s.toList < Utf8.encode t.toList ↔ s < t := by
  rw [← List.not_le, ← String.not_le, encode_toList_le_iff]

/-! ## Files and directories at the root -/

namespace FileTree

variable {t : FileTree} {root : String} {names : List String} {e : Entry} {place : Place}

/-- What is listed below a root is below a directory. -/
theorem Listed.exists_directory (h : Listed t root names e) (hnames : names ≠ []) :
    ∃ place entries, t.stat root = .ok (place, .directory entries) := by
  induction h with
  | root h => exact absurd rfl hnames
  | @entry front _ _ place entries _ _ hopen _ ih =>
    by_cases hfront : front = []
    · subst hfront
      exact ⟨place, entries, hopen⟩
    · exact ih hfront

theorem Listed.linkStat_root (h : Listed t root names e) (hnames : names = []) :
    ∃ place, t.linkStat root = .ok (place, e) := by
  cases h with
  | root h => exact ⟨_, h⟩
  | entry => exact absurd hnames (by simp)

/-- A root that is a directory is no regular file. -/
theorem Holds.ne_nil {entries : List (String × Entry)} (h : Holds t root names)
    (hroot : t.stat root = .ok (place, .directory entries)) : names ≠ [] := by
  rintro rfl
  obtain ⟨e, hlisted, hregular⟩ := h
  rcases hregular with ⟨content, rfl⟩ | ⟨-, place', content, hstat⟩
  · obtain ⟨place', hlink⟩ := hlisted.linkStat_root rfl
    have hstat := stat_of_linkStat hlink fun _ => nofun
    cases hstat.symm.trans hroot
  · rw [Path.descend_nil] at hstat
    cases hstat.symm.trans hroot

/-- Below a root that is no directory there is nothing but the root. -/
theorem Holds.eq_nil (h : Holds t root names)
    (hroot : ∀ place entries, t.stat root ≠ .ok (place, .directory entries)) : names = [] := by
  by_contra hnames
  obtain ⟨e, hlisted, -⟩ := h
  obtain ⟨place, entries, hstat⟩ := hlisted.exists_directory hnames
  exact hroot place entries hstat

end FileTree

namespace Project

variable {p : Project} {t : FileTree} {files : List String}

/-! ## From the root to a file -/

/-- A walk that succeeds has a root. -/
theorem exists_linkStat_of_collect (h : p.collect t = .ok files) :
    ∃ place e, t.linkStat p.root = .ok (place, e) := by
  cases hroot : t.linkStat p.root with
  | ok found => exact ⟨found.1, found.2, rfl⟩
  | error error =>
    have hwalk : t.walk p.root = .error (.access p.root error) := by rw [FileTree.walk, hroot]
    rw [collect_of_walk_error hwalk] at h
    cases h

/-- A file of a project is found by names below the root, and the project selects it. -/
theorem exists_finds_of_mem (ht : t.IsSound) (h : p.collect t = .ok files) {path : String}
    (hpath : path ∈ files) :
    ∃ names, path = Path.descend p.root names ∧ t.Finds p.root names ∧ p.selects path := by
  obtain ⟨place, e, hroot⟩ := exists_linkStat_of_collect h
  obtain ⟨-, hlists⟩ := lists_of_collect ht hroot h
  obtain ⟨names, rfl, hcontains⟩ := (hlists.mem_iff path).1 hpath
  obtain ⟨hfinds, hselects⟩ := (contains_iff ht).1 hcontains
  exact ⟨names, rfl, hfinds, hselects⟩

/-- **From the root back to a file.** Below a directory the root and the reported path make the path
of the file again, as the walk has written it. -/
theorem join_relative (ht : t.IsSound) (h : p.collect t = .ok files) {place : FileTree.Place}
    {entries : List (String × Entry)} (hroot : t.stat p.root = .ok (place, .directory entries))
    {path : String} (hpath : path ∈ files) : Path.join p.root (p.relative path) = path := by
  obtain ⟨names, rfl, hfinds, -⟩ := exists_finds_of_mem ht h hpath
  obtain ⟨hne, hnames⟩ := hfinds.isName ht
  have hbelow : names ≠ [] := hfinds.holds.ne_nil hroot
  rw [relative, Path.relative_descend hne hnames, if_neg hbelow]
  exact Path.join_joinSegments hne hnames hbelow

/-- A root that is no directory is the only file there can be. -/
theorem eq_root_of_mem (ht : t.IsSound) (h : p.collect t = .ok files)
    (hroot : ∀ place entries, t.stat p.root ≠ .ok (place, .directory entries)) {path : String}
    (hpath : path ∈ files) : path = p.root := by
  obtain ⟨names, rfl, hfinds, -⟩ := exists_finds_of_mem ht h hpath
  rw [hfinds.holds.eq_nil hroot, Path.descend_nil]

/-- **No two files are reported under one path.** -/
theorem relative_injOn (ht : t.IsSound) (h : p.collect t = .ok files) :
    ∀ a ∈ files, ∀ b ∈ files, p.relative a = p.relative b → a = b := by
  intro a ha b hb hab
  by_cases hroot : ∃ place entries, t.stat p.root = .ok (place, .directory entries)
  · obtain ⟨place, entries, hroot⟩ := hroot
    calc a = Path.join p.root (p.relative a) := (join_relative ht h hroot ha).symm
      _ = Path.join p.root (p.relative b) := by rw [hab]
      _ = b := join_relative ht h hroot hb
  · have hroot : ∀ place entries, t.stat p.root ≠ .ok (place, .directory entries) :=
      fun place entries hstat => hroot ⟨place, entries, hstat⟩
    rw [eq_root_of_mem ht h hroot ha, eq_root_of_mem ht h hroot hb]

theorem nodup_of_collect (ht : t.IsSound) (h : p.collect t = .ok files) : files.Nodup := by
  obtain ⟨place, e, hroot⟩ := exists_linkStat_of_collect h
  obtain ⟨-, hlists⟩ := lists_of_collect ht hroot h
  exact hlists.nodup

/-- What is selected has a name, and a root that is a file is reported under it. -/
theorem exists_name_of_selects (hroot : p.root ≠ "") (h : p.selects p.root) :
    ∃ name, (Path.components p.root).getLast? = some (.normal name) ∧ p.relative p.root = name := by
  rw [selects, Bool.and_eq_true, Bool.and_eq_true, handles_go_iff] at h
  obtain ⟨⟨hextension, -⟩, -⟩ := h
  have hnames : ∀ name ∈ ([] : List String), Path.IsName name := List.forall_mem_nil _
  have hrelative : p.relative p.root = (Path.fileName? p.root).getD p.root :=
    (Path.relative_descend hroot hnames).trans (if_pos rfl)
  cases hname : Path.fileName? p.root with
  | none =>
    rw [Path.extension?, hname] at hextension
    cases hextension
  | some name =>
    rw [hname, Option.getD_some] at hrelative
    refine ⟨name, ?_, hrelative⟩
    rw [Path.fileName?] at hname
    split at hname
    · next hlast => rw [hlast, Option.some.inj hname]
    · cases hname

/-! ## The records -/

/-- **Outlines and failures that are told apart by their paths**: one for each of some files. -/
structure Identify (p : Project) (files : List String) (outlines : List Outline)
    (failures : List FailedOutline) : Prop where
  /-- The outlines are in the strict order of the bytes of their paths. -/
  outlines_increasing : outlines.Pairwise fun a b =>
    Utf8.encode a.path.toList < Utf8.encode b.path.toList
  /-- The failures are too, and each has a path. -/
  failures_increasing : failures.Pairwise fun a b => ∃ x y, a.path = some x ∧ b.path = some y ∧
    Utf8.encode x.toList < Utf8.encode y.toList
  /-- No file has both. -/
  disjoint : ∀ o ∈ outlines, ∀ f ∈ failures, f.path ≠ some o.path
  /-- Every file has one of the two, under its own path. -/
  perm : (outlines.map (fun o => some o.path) ++ failures.map (·.path)).Perm
    (files.map fun path => some (p.relative path))
  /-- No two files are reported under one path. -/
  nodup : (files.map p.relative).Nodup

/-- A file has an outline or a failure, under its own path. -/
theorem perm_filterMap_attempt (p : Project) (t : FileTree) (files : List String) :
    ((files.filterMap fun path => (p.attempt t path).toOption).map (fun o => some o.path) ++
      (files.filterMap (p.failure? t)).map (·.path)).Perm
        (files.map fun path => some (p.relative path)) := by
  induction files with
  | nil => exact .nil
  | cons path rest ih =>
    cases hattempt : p.attempt t path with
    | ok o =>
      rw [List.filterMap_cons_some (b := o) (by rw [hattempt]; rfl),
        List.filterMap_cons_none (by rw [failure?, hattempt]), List.map_cons, List.map_cons,
        List.cons_append, path_of_attempt hattempt]
      exact ih.cons _
    | error e =>
      rw [List.filterMap_cons_none (by rw [hattempt]; rfl),
        List.filterMap_cons_some (by rw [failure?, hattempt]), List.map_cons, List.map_cons]
      exact List.perm_middle.trans (ih.cons _)

theorem perm_analyzeFiles (p : Project) (t : FileTree) (files : List String) :
    ((p.analyzeFiles t files).analyzed.map (fun o => some o.path) ++
      (p.analyzeFiles t files).failed.map (·.path)).Perm
        (files.map fun path => some (p.relative path)) := by
  rw [analyzed_analyzeFiles, failed_analyzeFiles]
  refine .trans ?_ (perm_filterMap_attempt p t files)
  exact ((List.mergeSort_perm _ _).map _).append ((List.mergeSort_perm _ _).map _)

theorem nodup_map_some_iff {α : Type} {key : α → String} {l : List α} :
    (l.map fun a => some (key a)).Nodup ↔ (l.map key).Nodup := by
  have hmap : (l.map fun a => some (key a)) = (l.map key).map some := by
    rw [List.map_map]
    rfl
  rw [hmap, List.nodup_map_iff (Option.some_injective _)]

/-- What is in order and under different paths is in strict order. -/
theorem pairwise_lt_of_nodup {α : Type} {key : α → String} {l : List α}
    (hsorted : l.Pairwise fun a b => Utf8.encode (key a).toList ≤ Utf8.encode (key b).toList)
    (hnodup : (l.map key).Nodup) :
    l.Pairwise fun a b => Utf8.encode (key a).toList < Utf8.encode (key b).toList := by
  have hne : l.Pairwise fun a b => key a ≠ key b := List.pairwise_map.1 hnodup
  refine (hsorted.and hne).imp ?_
  rintro a b ⟨hle, hne⟩
  rw [encode_toList_lt_iff]
  exact String.not_le.1 fun hge => hne (String.le_antisymm (encode_toList_le_iff.1 hle) hge)

/-- **Files that are reported under different paths** have one record each, told apart by their
paths. -/
theorem identify_of_injOn (hfiles : files.Nodup)
    (hrelative : ∀ a ∈ files, ∀ b ∈ files, p.relative a = p.relative b → a = b) :
    p.Identify files (p.analyzeFiles t files).analyzed (p.analyzeFiles t files).failed := by
  have hperm := perm_analyzeFiles p t files
  have hfaithful := faithful_analyzeFiles p t files
  have hnodup : (files.map p.relative).Nodup := hfiles.map_on fun a ha b hb => hrelative a ha b hb
  obtain ⟨houtlines, hfailures, hapart⟩ :=
    List.nodup_append.1 (hperm.nodup_iff.2 (nodup_map_some_iff.2 hnodup))
  constructor
  case outlines_increasing =>
    exact pairwise_lt_of_nodup hfaithful.analyzed_sorted (nodup_map_some_iff.1 houtlines)
  case failures_increasing =>
    have hpath : ∀ f ∈ (p.analyzeFiles t files).failed, f.path = some (f.path.getD "") := by
      intro f hf
      obtain ⟨path, -, e, -, rfl⟩ := hfaithful.failed_alone f hf
      rfl
    rw [List.map_congr_left hpath, nodup_map_some_iff] at hfailures
    refine (pairwise_lt_of_nodup hfaithful.failed_sorted hfailures).imp_of_mem ?_
    intro f g hf hg hlt
    exact ⟨_, _, hpath f hf, hpath g hg, hlt⟩
  case disjoint =>
    intro o ho f hf hsame
    exact hapart (some o.path) (List.mem_map_of_mem ho) f.path (List.mem_map_of_mem hf) hsame.symm
  case perm => exact hperm
  case nodup => exact hnodup

/-- **Reported paths identify files.** When the files of a project are collected, below a root that
is a directory every file is reported under a path that leads from the root to the file, so no two
files under one path; the project has one record for each file, and the records are in the strict
order of their paths. A root that is a file is the only file, and its record is under its last
component. -/
theorem reported_identify (p : Project) {t : FileTree} (ht : t.IsSound) {files : List String}
    (h : p.collect t = .ok files) :
    (∀ place entries, t.stat p.root = .ok (place, .directory entries) →
      (∀ path ∈ files,
        Path.components (Path.join p.root (p.relative path)) = Path.components path) ∧
      ∀ a ∈ files, ∀ b ∈ files, p.relative a = p.relative b → a = b) ∧
    p.Identify files (p.analyze t files).files (p.analyzeFiles t files).failed ∧
    ∀ place content, t.stat p.root = .ok (place, .file content) → p.root ∈ files →
      ∃ name, (Path.components p.root).getLast? = some (.normal name) ∧
        (p.analyze t files).files.map (fun o => some o.path) ++
          (p.analyzeFiles t files).failed.map (·.path) = [some name] := by
  refine ⟨?_, ?_, ?_⟩
  · intro place entries hroot
    refine ⟨fun path hpath => ?_, relative_injOn ht h⟩
    rw [join_relative ht h hroot hpath]
  · exact identify_of_injOn (nodup_of_collect ht h) (relative_injOn ht h)
  · intro place content hroot hmem
    have hfile : ∀ place entries, t.stat p.root ≠ .ok (place, .directory entries) := by
      intro place' entries hstat
      cases hstat.symm.trans hroot
    obtain ⟨_, _, hfinds, hselects⟩ := exists_finds_of_mem ht h hmem
    obtain ⟨name, hlast, hname⟩ := exists_name_of_selects (hfinds.isName ht).1 hselects
    -- all files are the root, and no file is listed twice
    have hfiles : files = [p.root] := by
      refine List.perm_singleton.1 ?_
      refine (List.perm_ext_iff_of_nodup (nodup_of_collect ht h) (List.nodup_singleton _)).2 ?_
      intro path
      rw [List.mem_singleton]
      exact ⟨eq_root_of_mem ht h hfile, fun hpath => hpath ▸ hmem⟩
    have hperm := perm_analyzeFiles p t files
    rw [hfiles, List.map_singleton, hname] at hperm
    refine ⟨name, hlast, ?_⟩
    rw [hfiles]
    exact List.perm_singleton.1 hperm

/-! ### A source and a link, from the directory and from the link -/

theorem linkStat_link_linkedSource :
    linkedSource.linkStat "./b.go" = .ok (["b.go"], .link "a.go") := by
  obtain ⟨hb, -⟩ := isEntryName_source
  have hpath : Path.segments "./b.go" = [".", "b.go"] := by decide
  refine FileTree.lookUp_eq_ok_iff.2
    ⟨FileTree.resolve_eq_ok_iff.2 ⟨by decide, by decide, by decide, ?_⟩, rfl⟩
  rw [hpath]
  simp [FileTree.resolveFrom, FileTree.at?, Entry.descend?, Entry.entries?, linkedSource,
    Nat.not_lt.2 hb.short]

theorem collect_link_linkedSource : collect ⟨"./b.go", {}⟩ linkedSource = .ok ["./b.go"] := by
  obtain ⟨n, hdepth⟩ : ∃ n, linkedSource.walkDepth = n + 1 :=
    ⟨15, by simp [FileTree.walkDepth, linkedSource, Entry.sizeAll, Entry.size]⟩
  have hwalk : linkedSource.walk "./b.go" = .ok ["./b.go"] := by
    rw [FileTree.walk, linkStat_link_linkedSource, hdepth]
    exact FileTree.walkFrom_of_follow_file (FileTree.follow_link_of_file _ stat_linkedSource)
  have hselects : ["./b.go"].filter (selects ⟨"./b.go", {}⟩) = ["./b.go"] := by decide
  have hcollect := collect_of_walk (p := ⟨"./b.go", {}⟩) hwalk
  rwa [hselects, List.mergeSort_singleton] at hcollect

theorem reported_identify_linkedSource :
    (Path.components (Path.join "." (relative ⟨".", {}⟩ "./a.go")) = Path.components "./a.go" ∧
      Identify ⟨".", {}⟩ ["./a.go", "./b.go"]
        (analyze ⟨".", {}⟩ linkedSource ["./a.go", "./b.go"]).files
        (analyzeFiles ⟨".", {}⟩ linkedSource ["./a.go", "./b.go"]).failed) ∧
    ∃ name, (Path.components "./b.go").getLast? = some (.normal name) ∧
      (analyze ⟨"./b.go", {}⟩ linkedSource ["./b.go"]).files.map (fun o => some o.path) ++
        (analyzeFiles ⟨"./b.go", {}⟩ linkedSource ["./b.go"]).failed.map (·.path) = [some name] := by
  have hdirectory := FileTree.stat_of_linkStat linkStat_linkedSource fun _ => nofun
  constructor
  · obtain ⟨hbelow, hidentify, -⟩ :=
      reported_identify ⟨".", {}⟩ linkedSource_isSound.1 collect_linkedSource
    exact ⟨(hbelow _ _ hdirectory).1 _ List.mem_cons_self, hidentify⟩
  · obtain ⟨-, -, hfile⟩ :=
      reported_identify ⟨"./b.go", {}⟩ linkedSource_isSound.1 collect_link_linkedSource
    exact hfile _ _ stat_linkedSource List.mem_cons_self

end Project

end GoOutline
