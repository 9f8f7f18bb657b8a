import GoOutline.Proofs.Files.Walk

/-!
# Directories of files

A tree that is one directory of regular files. A walk from the working directory finds all of them,
each under the working directory and its name, and what is not listed is not found.

## Main definitions

* `FileTree.ofFiles`: a directory of regular files

## Main results

* `FileTree.walk_ofFiles`: the walk from the working directory
* `FileTree.read_ofFiles`, `FileTree.not_isFile_ofFiles`: what is found there, and what is not
-/

namespace GoOutline.FileTree

/-- A directory of regular files, in which paths start. -/
def ofFiles (files : List (String × List UInt8)) : FileTree where
  root := files.map fun f => (f.1, .file f.2)

variable {files : List (String × List UInt8)} {name : String} {content : List UInt8}

theorem isSound_ofFiles (hnames : ∀ f ∈ files, IsEntryName f.1) (hnodup : (files.map (·.1)).Nodup) :
    (ofFiles files).IsSound := by
  have hall : Entry.AllSound (ofFiles files).root := by
    clear hnodup
    induction files with
    | nil => trivial
    | cons f rest ih =>
      obtain ⟨hname, hrest⟩ := List.forall_mem_cons.1 hnames
      exact ⟨hname, trivial, ih hrest⟩
  refine Entry.isSound_directory.2 ⟨?_, hall⟩
  rwa [ofFiles, List.map_map]

theorem linkStat_ofFiles (files : List (String × List UInt8)) :
    (ofFiles files).linkStat "." = .ok ([], .directory (ofFiles files).root) := by
  have hpath : Path.segments "." = ["."] := by decide
  have hroot : (ofFiles files).at? [] = some (.directory (ofFiles files).root) := rfl
  refine lookUp_eq_ok_iff.2 ⟨resolve_eq_ok_iff.2 ⟨by decide, by decide, by decide, ?_⟩, hroot⟩
  rw [hpath]
  exact resolveFrom_idle hroot (by simp)

theorem stat_ofFiles (files : List (String × List UInt8)) :
    (ofFiles files).stat "." = .ok ([], .directory (ofFiles files).root) :=
  stat_of_linkStat (linkStat_ofFiles files) fun _ => nofun

theorem join_dot (h : Path.IsName name) : Path.join "." name = "./" ++ name :=
  Path.join_of_not_slash (by decide) h.isAbsolute (by decide)

theorem segments_join_dot (h : Path.IsName name) :
    Path.segments (Path.join "." name) = [".", name] := by
  have hdot : Path.segments "." = ["."] := by decide
  obtain ⟨front, -, hfront, hjoin⟩ := Path.exists_segments_join (by decide : "." ≠ "") h
  rw [hjoin]
  rcases hfront with hfront | hfront
  · rw [← hfront, hdot]
    rfl
  · rw [hdot] at hfront
    simp [List.singleton_eq_append_iff] at hfront

theorem mem_root_ofFiles (hmem : (name, content) ∈ files) :
    (name, Entry.file content) ∈ (ofFiles files).root :=
  List.mem_map_of_mem (f := fun f => (f.1, Entry.file f.2)) hmem

theorem isEntryName_of_mem_ofFiles (h : (ofFiles files).IsSound) (hmem : (name, content) ∈ files) :
    IsEntryName name :=
  h.isEntryName (at?_of_stat (stat_ofFiles files)) (mem_root_ofFiles hmem)

/-- A file of the directory is found under its name. -/
theorem read_ofFiles (h : (ofFiles files).IsSound) (hmem : (name, content) ∈ files) :
    (ofFiles files).read (Path.join "." name) = .ok content := by
  have hname := isEntryName_of_mem_ofFiles h hmem
  have hlong : byteLength (Path.join "." name) ≤ maxPath := by
    have hshort := hname.short
    rw [join_dot hname.toIsName, byteLength, String.utf8ByteSize_append]
    rw [byteLength, maxName] at hshort
    have hdot : "./".utf8ByteSize = 2 := by decide
    rw [hdot, maxPath]
    omega
  have hlink : ∀ target, Entry.file content ≠ .link target := by simp
  rw [read, stat_join h (stat_ofFiles files) (mem_root_ofFiles hmem) hlink hlong]

/-- What the directory does not list is no file. -/
theorem not_isFile_ofFiles (hname : IsEntryName name) (hmissing : name ∉ files.map (·.1)) :
    ¬ (ofFiles files).isFile (Path.join "." name) := by
  have hlookup : (ofFiles files).root.lookup name = none := by
    rw [List.lookup_eq_none_iff]
    intro m hm
    obtain ⟨f, hf, rfl⟩ := List.mem_map.1 hm
    have hne : name ≠ f.1 := fun heq => hmissing (heq ▸ List.mem_map_of_mem hf)
    simpa using hne
  intro hfile
  cases hstat : (ofFiles files).stat (Path.join "." name) with
  | error e =>
    rw [isFile, hstat] at hfile
    cases hfile
  | ok found =>
    obtain ⟨place, e⟩ := found
    obtain ⟨-, -, -, hresolve⟩ := resolve_eq_ok_iff.1 (lookUp_eq_ok_iff.1 hstat).1
    have hnotFound : (ofFiles files).resolveFrom true maxLinks [] [".", name] =
        .error .notFound := by
      rw [resolveFrom_stay rfl (by decide)]
      refine resolveFrom_of_missing rfl ?_ ?_ (Nat.not_lt.2 hname.short) hlookup
      · simp [hname.ne_empty, hname.ne_dot]
      · simp [hname.ne_dots]
    rw [segments_join_dot hname.toIsName, Path.isAbsolute_join (by decide) hname.toIsName]
      at hresolve
    cases hnotFound.symm.trans hresolve

/-- **The walk from the working directory** finds all files. -/
theorem walk_ofFiles (files : List (String × List UInt8)) :
    (ofFiles files).walk "." = .ok (files.map fun f => Path.join "." f.1) := by
  have hroot := stat_ofFiles files
  obtain ⟨depth, hdepth⟩ : ∃ depth, (ofFiles files).walkDepth = depth + 1 + 1 := by
    let n := Entry.sizeAll (ofFiles files).root
    exact ⟨n * (n + 2) + (2 * n + 2), Nat.add_mul n 2 (n + 2)⟩
  have hbelow : (ofFiles files).root.mapM (fun m =>
      (ofFiles files).walkFrom (depth + 1) [⟨".", []⟩] (Path.join "." m.1) m.2) =
        .ok (files.map fun f => [Path.join "." f.1]) := by
    rw [mapM_eq_ok_iff, ofFiles, List.forall₂_map_left_iff, List.forall₂_map_right_iff]
    exact List.forall₂_same.2 fun f _ => walkFrom_of_follow_file rfl
  rw [walk, linkStat_ofFiles, hdepth]
  refine (walkFrom_of_list rfl (by decide) (list_eq_ok_iff.2 hroot)).trans ?_
  rw [hbelow]
  exact congrArg Except.ok (by rw [← List.flatMap_def, List.map_eq_flatMap])

end GoOutline.FileTree
