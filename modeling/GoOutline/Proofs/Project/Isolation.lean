import GoOutline.Project.Analysis
import GoOutline.Proofs.Text.Utf8
import Mathlib.Data.List.Sort

/-!
# Files in isolation

The outline of a project is made of the outlines of its files, each as if it were alone. No file is
lost, the order of the files matters only among those reported under one path, and it does not
matter which file is ready first.

## Main definitions

* `Project.attempt`: what comes of one file
* `Project.Results.Faithful`: results that are those of the files by themselves

## Main results

* `Project.atOnce_eq_oneByOne`: the order in which files get ready
* `Project.faithful_analyzeFiles`: the results of a project are those of its files
* `Project.analyzeFiles_perm`: the order of the files
* `Project.analyzeFiles_isolated`: all of these together
-/

namespace GoOutline

open GoOutline.Text

/-! ## Sorting by a text -/

section

variable {α : Type} (key : α → String)

theorem key_le_trans (a b c : α) (hab : decide (key a ≤ key b)) (hbc : decide (key b ≤ key c)) :
    decide (key a ≤ key c) :=
  decide_eq_true (String.le_trans (of_decide_eq_true hab) (of_decide_eq_true hbc))

theorem key_le_total (a b : α) : decide (key a ≤ key b) || decide (key b ≤ key a) := by
  rw [Bool.or_eq_true, decide_eq_true_eq, decide_eq_true_eq]
  exact String.le_total (key a) (key b)

theorem pairwise_mergeSort_key (l : List α) :
    (l.mergeSort fun a b => key a ≤ key b).Pairwise fun a b => key a ≤ key b :=
  (List.pairwise_mergeSort (key_le_trans key) (key_le_total key) l).imp of_decide_eq_true

/-- Sorting keeps the order of what has one key. -/
theorem filter_mergeSort_key (l : List α) (x : String) :
    (l.mergeSort fun a b => key a ≤ key b).filter (key · = x) = l.filter (key · = x) := by
  have hsorted : (l.filter (key · = x)).Pairwise fun a b => decide (key a ≤ key b) := by
    refine List.pairwise_of_forall_mem_list fun a ha b hb => ?_
    have hax : key a = x := by simpa using List.of_mem_filter ha
    have hbx : key b = x := by simpa using List.of_mem_filter hb
    rw [hax, hbx]
    exact decide_eq_true (String.le_refl x)
  -- a sorted sublist stays one, so what has the key is in its old order in the sorted list
  have hsub : (l.filter (key · = x)).Sublist
      ((l.mergeSort fun a b => key a ≤ key b).filter (key · = x)) := by
    have hsub := (List.sublist_mergeSort (key_le_trans key) (key_le_total key) hsorted
      List.filter_sublist).filter (key · = x)
    rwa [List.filter_filter, funext fun a => Bool.and_self (decide (key a = x))] at hsub
  refine (hsub.eq_of_length ?_).symm
  exact ((List.mergeSort_perm l _).filter _).length_eq.symm

/-- Sorting by a key that tells everything apart does not depend on the order before. -/
theorem mergeSort_key_eq_of_perm {l l' : List α} (h : l.Perm l')
    (hkey : ∀ a ∈ l, ∀ b ∈ l, key a = key b → a = b) :
    (l.mergeSort fun a b => key a ≤ key b) = l'.mergeSort fun a b => key a ≤ key b := by
  have hl := List.mergeSort_perm l fun a b => key a ≤ key b
  have hl' := List.mergeSort_perm l' fun a b => key a ≤ key b
  refine List.Perm.eq_of_pairwise ?_ (pairwise_mergeSort_key key l) (pairwise_mergeSort_key key l')
    ((hl.trans h).trans hl'.symm)
  intro a b ha hb hab hba
  have hb' : b ∈ l := h.mem_iff.2 (hl'.mem_iff.1 hb)
  exact hkey a (hl.mem_iff.1 ha) b hb' (String.le_antisymm hab hba)

end

/-- Texts are in the order of their bytes. -/
theorem encode_toList_le_iff {s t : String} :
    Utf8.encode s.toList ≤ Utf8.encode t.toList ↔ s ≤ t := by
  rw [Utf8.encode_le_encode_iff, ← String.not_lt]
  exact Iff.rfl

/-! ## One file -/

/-- Whether a source is accepted does not depend on the path it is reported under. -/
theorem parse_path {path : String} {source : List UInt8} {p : Parsed}
    (h : parse path source = .ok p) (q : String) : parse q source = .ok { p with path := q } := by
  obtain ⟨text, hdecode, hfault, hpackage, rfl⟩ := parse_eq_ok_iff.1 h
  exact parse_eq_ok_iff.2 ⟨text, hdecode, hfault, hpackage, rfl⟩

/-- A source has one outline, whatever the path it is reported under. -/
theorem analyze_path {path : String} {source : List UInt8} {o : Outline}
    (h : analyze path source = .ok o) (q : String) :
    analyze q source = .ok { o with path := q } := by
  obtain ⟨p, hp, rfl⟩ := analyze_eq_ok_iff.1 h
  exact analyze_eq_ok_iff.2 ⟨_, parse_path hp q, rfl⟩

theorem path_of_analyze {path : String} {source : List UInt8} {o : Outline}
    (h : analyze path source = .ok o) : o.path = path := by
  have hsame := analyze_path h path
  rw [h] at hsame
  exact congrArg Outline.path (Except.ok.inj hsame)

namespace Project

/-- What comes of a file by itself, reported under its path in the project. -/
def attempt (p : Project) (t : FileTree) (path : String) : Except AnalysisError Outline :=
  match t.read path with
  | .error e => .error (.read e.message)
  | .ok source => GoOutline.analyze (p.relative path) source

/-- What is reported in place of the outline of a file. -/
def failure? (p : Project) (t : FileTree) (path : String) : Option FailedOutline :=
  match p.attempt t path with
  | .error e => some ⟨e.message, some (p.relative path)⟩
  | .ok _ => none

section

variable {p : Project} {t : FileTree} {path : String}

/-- What comes of a file is reported with the message of the error. -/
theorem analyzeFile_eq_mapError : p.analyzeFile t path =
    (p.attempt t path).mapError fun e => ⟨e.message, some (p.relative path)⟩ := by
  rw [analyzeFile, attempt]
  cases t.read path with
  | error e => rfl
  | ok source =>
    dsimp only
    cases GoOutline.analyze (p.relative path) source <;> rfl

theorem analyzeFile_of_attempt_ok {o : Outline} (h : p.attempt t path = .ok o) :
    p.analyzeFile t path = .ok o := by
  rw [analyzeFile_eq_mapError, h]
  rfl

theorem analyzeFile_of_attempt_error {e : AnalysisError} (h : p.attempt t path = .error e) :
    p.analyzeFile t path = .error ⟨e.message, some (p.relative path)⟩ := by
  rw [analyzeFile_eq_mapError, h]
  rfl

/-- A file with an outline can be read, and its source has this outline. -/
theorem exists_read_of_attempt {o : Outline} (h : p.attempt t path = .ok o) :
    ∃ source, t.read path = .ok source ∧ GoOutline.analyze (p.relative path) source = .ok o := by
  unfold attempt at h
  cases hread : t.read path with
  | error e => rw [hread] at h; cases h
  | ok source => rw [hread] at h; exact ⟨source, rfl, h⟩

theorem path_of_attempt {o : Outline} (h : p.attempt t path = .ok o) :
    o.path = p.relative path := by
  obtain ⟨source, -, hanalyze⟩ := exists_read_of_attempt h
  exact path_of_analyze hanalyze

theorem path_of_failure? {f : FailedOutline} (h : p.failure? t path = some f) :
    f.path = some (p.relative path) := by
  unfold failure? at h
  split at h
  · cases h; rfl
  · cases h

end

/-! ## The order in which files get ready -/

section

variable {α β : Type} (f : α → β) (xs : List α)

/-- A place holds the result of its file once that is ready, and what was there before until
then. -/
theorem getElem?_foldl_set (ready : List Nat) (places : List (Option β)) (j : Nat) :
    (ready.foldl (fun places i => places.set i (xs[i]?.map f)) places)[j]? =
      if j ∈ ready ∧ j < places.length then some (xs[j]?.map f) else places[j]? := by
  induction ready generalizing places with
  | nil => simp
  | cons i rest ih =>
    rw [List.foldl_cons, ih, List.length_set, List.getElem?_set]
    by_cases hlength : j < places.length
    · by_cases hij : i = j
      · subst hij
        simp [hlength]
      · simp [hlength, hij, Ne.symm hij]
    · have hset : i = j → ¬ i < places.length := fun hij => hij ▸ hlength
      simpa [hlength] using hset

/-- When all files are ready, every place holds the result of its file. -/
theorem asReady_of_perm {ready : List Nat} (h : ready.Perm (List.range xs.length)) :
    asReady f xs ready = xs.map fun x => some (f x) := by
  refine List.ext_getElem? fun j => ?_
  rw [asReady, getElem?_foldl_set, List.length_replicate, List.getElem?_map]
  by_cases hj : j < xs.length
  · rw [if_pos ⟨h.mem_iff.2 (List.mem_range.2 hj), hj⟩, List.getElem?_eq_getElem hj]
    rfl
  · rw [if_neg fun hready => hj hready.2, List.getElem?_replicate, if_neg hj,
      List.getElem?_eq_none (Nat.not_lt.1 hj)]
    rfl

end

variable (p : Project) (t : FileTree)

/-- **It does not matter which file is ready first.** Once all are ready, the results are those of
one file after another. -/
theorem atOnce_eq_oneByOne {paths : List String} {ready : List Nat}
    (h : ready.Perm (List.range paths.length)) :
    p.atOnce t paths ready = p.oneByOne t paths := by
  rw [atOnce, asReady_of_perm _ _ h]
  exact List.filterMap_map.trans (congrFun List.filterMap_eq_map' paths)

/-- Whether files may be analyzed at the same time does not matter. -/
theorem analyzeFiles_eq_ofList (paths : List String) :
    p.analyzeFiles t paths = .ofList (p.oneByOne t paths) := by
  rw [analyzeFiles, atOnce_eq_oneByOne p t (List.Perm.refl _), ite_self]

/-- The results are the same, whatever the order in which the files get ready. -/
theorem ofList_asReady {paths : List String} {ready : List Nat}
    (h : ready.Perm (List.range paths.length)) :
    Results.ofList (asReady (p.analyzeFile t) paths ready).reduceOption =
      p.analyzeFiles t paths := by
  rw [analyzeFiles_eq_ofList, ← atOnce_eq_oneByOne p t h]
  rfl

/-! ## Some files -/

/-- The outlines are those of the files that have one. -/
theorem analyzed_analyzeFiles (paths : List String) :
    (p.analyzeFiles t paths).analyzed =
      (paths.filterMap fun path => (p.attempt t path).toOption).mergeSort
        fun a b => a.path ≤ b.path := by
  rw [analyzeFiles_eq_ofList]
  refine congrArg (List.mergeSort · fun a b : Outline => a.path ≤ b.path) ?_
  rw [oneByOne, List.filterMap_map]
  refine List.filterMap_congr fun path _ => ?_
  cases h : p.attempt t path with
  | ok o => rw [Function.comp_apply, analyzeFile_of_attempt_ok h]; rfl
  | error e => rw [Function.comp_apply, analyzeFile_of_attempt_error h]; rfl

/-- The failures are those of the other files. -/
theorem failed_analyzeFiles (paths : List String) :
    (p.analyzeFiles t paths).failed =
      (paths.filterMap (p.failure? t)).mergeSort fun a b => a.path.getD "" ≤ b.path.getD "" := by
  rw [analyzeFiles_eq_ofList]
  refine congrArg
    (List.mergeSort · fun a b : FailedOutline => a.path.getD "" ≤ b.path.getD "") ?_
  rw [oneByOne, List.filterMap_map]
  refine List.filterMap_congr fun path _ => ?_
  cases h : p.attempt t path with
  | ok o => rw [Function.comp_apply, analyzeFile_of_attempt_ok h, failure?, h]
  | error e => rw [Function.comp_apply, analyzeFile_of_attempt_error h, failure?, h]

/-- The results are those of the files by themselves. -/
structure Results.Faithful (paths : List String) (r : Results) : Prop where
  /-- No file is lost. -/
  length_add_length : r.analyzed.length + r.failed.length = paths.length
  /-- An outline is that of the source of a file. The same source has it under every other path, and
  so has the file when it is analyzed alone. -/
  analyzed_alone : ∀ o ∈ r.analyzed, ∃ path ∈ paths, ∃ source, t.read path = .ok source ∧
    GoOutline.analyze (p.relative path) source = .ok o ∧
    (∀ q, GoOutline.analyze q source = .ok { o with path := q }) ∧
    GoOutline.analyzeFile t path = .ok { o with path := path }
  /-- A failure is that of a file, and is reported under its path. -/
  failed_alone : ∀ f ∈ r.failed, ∃ path ∈ paths, ∃ e, p.attempt t path = .error e ∧
    f = ⟨e.message, some (p.relative path)⟩
  /-- The outlines are in the order of the bytes of their paths. -/
  analyzed_sorted : r.analyzed.Pairwise fun a b =>
    Utf8.encode a.path.toList ≤ Utf8.encode b.path.toList
  /-- The failures are in the order of the bytes of their paths. -/
  failed_sorted : r.failed.Pairwise fun a b =>
    Utf8.encode (a.path.getD "").toList ≤ Utf8.encode (b.path.getD "").toList
  /-- The outlines under one path are those of the files reported under it, in their order. -/
  analyzed_under : ∀ reported, r.analyzed.filter (·.path = reported) =
    (paths.filter (p.relative · = reported)).filterMap fun path => (p.attempt t path).toOption
  /-- The failures under one path are those of the files reported under it, in their order. -/
  failed_under : ∀ reported, r.failed.filter (·.path.getD "" = reported) =
    (paths.filter (p.relative · = reported)).filterMap (p.failure? t)

/-- A file with an outline has the same one when it is analyzed alone, except for the path. -/
theorem alone_of_attempt {path : String} {o : Outline} (h : p.attempt t path = .ok o) :
    ∃ source, t.read path = .ok source ∧ GoOutline.analyze (p.relative path) source = .ok o ∧
      (∀ q, GoOutline.analyze q source = .ok { o with path := q }) ∧
      GoOutline.analyzeFile t path = .ok { o with path := path } := by
  obtain ⟨source, hread, hanalyze⟩ := exists_read_of_attempt h
  refine ⟨source, hread, hanalyze, analyze_path hanalyze, ?_⟩
  rw [GoOutline.analyzeFile, hread]
  exact analyze_path hanalyze path

/-- Every file has an outline or a failure. -/
theorem length_filterMap_add_length_filterMap (paths : List String) :
    (paths.filterMap fun path => (p.attempt t path).toOption).length +
      (paths.filterMap (p.failure? t)).length = paths.length := by
  induction paths with
  | nil => rfl
  | cons path rest ih =>
    cases h : p.attempt t path with
    | ok o =>
      rw [List.filterMap_cons_some (b := o) (by rw [h]; rfl),
        List.filterMap_cons_none (by rw [failure?, h]), List.length_cons, List.length_cons, ← ih]
      omega
    | error e =>
      rw [List.filterMap_cons_none (by rw [h]; rfl),
        List.filterMap_cons_some (by rw [failure?, h]), List.length_cons, List.length_cons, ← ih]
      omega

/-- What comes of the files under a path, when each result is under the path of its file. -/
theorem filter_filterMap_relative {α : Type} {f : String → Option α} {key : α → String}
    (hkey : ∀ path a, f path = some a → key a = p.relative path) (paths : List String)
    (reported : String) :
    (paths.filterMap f).filter (key · = reported) =
      (paths.filter (p.relative · = reported)).filterMap f := by
  induction paths with
  | nil => rfl
  | cons path rest ih =>
    cases h : f path with
    | none =>
      rw [List.filterMap_cons_none h, ih, List.filter_cons]
      split
      · rw [List.filterMap_cons_none h]
      · rfl
    | some a =>
      rw [List.filterMap_cons_some h, List.filter_cons, List.filter_cons, hkey path a h, ih]
      split
      · rw [List.filterMap_cons_some h]
      · rfl

theorem path_of_toOption_attempt (path : String) (o : Outline)
    (h : (p.attempt t path).toOption = some o) : o.path = p.relative path := by
  cases hattempt : p.attempt t path with
  | error e => rw [hattempt] at h; cases h
  | ok o' =>
    rw [hattempt] at h
    cases h
    exact path_of_attempt hattempt

theorem getD_path_of_failure? (path : String) (f : FailedOutline) (h : p.failure? t path = some f) :
    f.path.getD "" = p.relative path := by
  rw [path_of_failure? h]
  rfl

/-- **The results of a project are those of its files.** -/
theorem faithful_analyzeFiles (paths : List String) :
    (p.analyzeFiles t paths).Faithful p t paths where
  length_add_length := by
    rw [analyzed_analyzeFiles, failed_analyzeFiles, List.length_mergeSort, List.length_mergeSort]
    exact length_filterMap_add_length_filterMap p t paths
  analyzed_alone := by
    intro o ho
    rw [analyzed_analyzeFiles, List.mem_mergeSort, List.mem_filterMap] at ho
    obtain ⟨path, hpath, ho⟩ := ho
    cases hattempt : p.attempt t path with
    | error e => rw [hattempt] at ho; cases ho
    | ok o' =>
      rw [hattempt] at ho
      cases ho
      exact ⟨path, hpath, alone_of_attempt p t hattempt⟩
  failed_alone := by
    intro f hf
    rw [failed_analyzeFiles, List.mem_mergeSort, List.mem_filterMap] at hf
    obtain ⟨path, hpath, hf⟩ := hf
    unfold failure? at hf
    split at hf
    · next e hattempt =>
      cases hf
      exact ⟨path, hpath, e, hattempt, rfl⟩
    · cases hf
  analyzed_sorted := by
    rw [analyzed_analyzeFiles]
    exact (pairwise_mergeSort_key Outline.path _).imp encode_toList_le_iff.2
  failed_sorted := by
    rw [failed_analyzeFiles]
    exact (pairwise_mergeSort_key (fun f : FailedOutline => f.path.getD "") _).imp
      encode_toList_le_iff.2
  analyzed_under := by
    intro reported
    rw [analyzed_analyzeFiles, filter_mergeSort_key Outline.path]
    exact filter_filterMap_relative p (path_of_toOption_attempt p t) paths reported
  failed_under := by
    intro reported
    rw [failed_analyzeFiles, filter_mergeSort_key fun f : FailedOutline => f.path.getD ""]
    exact filter_filterMap_relative p (getD_path_of_failure? p t) paths reported

/-! ## The order of the files -/

/-- Files under different paths have results under different paths. -/
theorem eq_of_key_eq {α : Type} {f : String → Option α} {key : α → String}
    (hkey : ∀ path a, f path = some a → key a = p.relative path) {paths : List String}
    (hpaths : (paths.map p.relative).Nodup) :
    ∀ a ∈ paths.filterMap f, ∀ b ∈ paths.filterMap f, key a = key b → a = b := by
  intro a ha b hb hab
  obtain ⟨x, hx, hxa⟩ := List.mem_filterMap.1 ha
  obtain ⟨y, hy, hyb⟩ := List.mem_filterMap.1 hb
  rw [hkey x a hxa, hkey y b hyb] at hab
  have hxy : x = y := List.inj_on_of_nodup_map hpaths hx hy hab
  rw [hxy, hyb] at hxa
  exact (Option.some.inj hxa).symm

/-- **The order of the files** does not matter when they are reported under different paths. -/
theorem analyzeFiles_perm {paths paths' : List String} (h : paths.Perm paths')
    (hpaths : (paths.map p.relative).Nodup) : p.analyzeFiles t paths = p.analyzeFiles t paths' := by
  have hanalyzed : (p.analyzeFiles t paths).analyzed = (p.analyzeFiles t paths').analyzed := by
    rw [analyzed_analyzeFiles, analyzed_analyzeFiles]
    exact mergeSort_key_eq_of_perm Outline.path (h.filterMap _)
      (eq_of_key_eq p (path_of_toOption_attempt p t) hpaths)
  have hfailed : (p.analyzeFiles t paths).failed = (p.analyzeFiles t paths').failed := by
    rw [failed_analyzeFiles, failed_analyzeFiles]
    exact mergeSort_key_eq_of_perm (fun f : FailedOutline => f.path.getD "") (h.filterMap _)
      (eq_of_key_eq p (getD_path_of_failure? p t) hpaths)
  calc p.analyzeFiles t paths
      = ⟨(p.analyzeFiles t paths).analyzed, (p.analyzeFiles t paths).failed⟩ := rfl
    _ = ⟨(p.analyzeFiles t paths').analyzed, (p.analyzeFiles t paths').failed⟩ := by
        rw [hanalyzed, hfailed]
    _ = p.analyzeFiles t paths' := rfl

/-! ## All together -/

/-- **Files are analyzed in isolation.** The results are those of the files by themselves. They do
not depend on the order of files that are reported under different paths, nor on whether files may
be analyzed at the same time, nor on which of them is ready first. Every file counts in the summary
or has a warning. -/
theorem analyzeFiles_isolated (paths : List String) :
    (p.analyzeFiles t paths).Faithful p t paths ∧
      ((paths.map p.relative).Nodup → ∀ paths', paths.Perm paths' →
        p.analyzeFiles t paths' = p.analyzeFiles t paths) ∧
      (∀ parallel,
        ({ p with config := { p.config with parallel } } : Project).analyzeFiles t paths =
          p.analyzeFiles t paths) ∧
      (∀ ready : List Nat, ready.Perm (List.range paths.length) →
        Results.ofList (asReady (p.analyzeFile t) paths ready).reduceOption =
          p.analyzeFiles t paths) ∧
      ∃ warnings : List String, (p.analyzeFiles t paths).warnings = String.join warnings ∧
        warnings = (p.analyzeFiles t paths).failed.map warning ∧
        (p.analyze t paths).summary.totalFiles + warnings.length = paths.length := by
  refine ⟨faithful_analyzeFiles p t paths, fun hpaths paths' hperm => ?_, fun parallel => ?_,
    fun ready hready => ofList_asReady p t hready, _, rfl, rfl, ?_⟩
  · exact (analyzeFiles_perm p t hperm hpaths).symm
  · rw [analyzeFiles_eq_ofList, analyzeFiles_eq_ofList]
    rfl
  · rw [List.length_map]
    exact (faithful_analyzeFiles p t paths).length_add_length

/-- A file with an outline and one without. -/
def twoFiles : FileTree where
  root := [("b.go", .file (Utf8.encode "package b\n".toList)),
    ("a.go", .file (Utf8.encode "func\n".toList))]

theorem analyzeFiles_isolated_twoFiles :
    (["c.go", "b.go", "a.go"].map (Project.mk "." {}).relative).Nodup ∧
      (Project.mk "." {}).analyzeFiles twoFiles ["a.go", "b.go", "c.go"] =
        (Project.mk "." {}).analyzeFiles twoFiles ["c.go", "b.go", "a.go"] := by
  have hpaths : (["c.go", "b.go", "a.go"].map (Project.mk "." {}).relative).Nodup := by
    decide +kernel
  refine ⟨hpaths, ?_⟩
  exact (analyzeFiles_isolated (Project.mk "." {}) twoFiles _).2.1 hpaths _ (by decide)

end Project

end GoOutline
