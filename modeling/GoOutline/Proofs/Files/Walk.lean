import GoOutline.Files.Walk
import GoOutline.Proofs.Files.Resolve
import Mathlib.Data.Finset.Card
import Mathlib.Data.List.Forall2
import Mathlib.Data.List.Nodup

/-!
# What a walk finds

A walk goes through the entries of a root and of every directory that it enters. It fails exactly
when it meets an obstacle: a link that cannot be followed, a link back to a directory that it is
inside of, or a directory whose path is too long to be opened. Otherwise it finds exactly the
regular files, through links as well. It never runs out of depth, since between two links it goes
down the tree, and every link it follows leads to a directory that it is not inside of.

## Main definitions

* `FileTree.Listed`, `FileTree.Meets`: what is below a root, and what a walk meets of it
* `FileTree.Obstructs`, `FileTree.Obstructed`: what ends a walk
* `FileTree.Holds`: regular files below a root, links followed

## Main results

* `FileTree.exists_walk_error`: a walk that meets an obstacle fails
* `FileTree.exists_walk`: any other walk finds the regular files
-/

namespace GoOutline

/-! ## Results of lists -/

section

variable {α β ε : Type} {f : α → Except ε β}

theorem mapM_eq_ok_iff {xs : List α} {ys : List β} :
    xs.mapM f = .ok ys ↔ List.Forall₂ (fun x y => f x = .ok y) xs ys := by
  induction xs generalizing ys with
  | nil =>
    rw [List.mapM_nil, List.forall₂_nil_left_iff]
    exact ⟨fun h => (Except.ok.inj h).symm, fun h => h ▸ rfl⟩
  | cons x xs ih =>
    rw [List.mapM_cons, List.forall₂_cons_left_iff]
    constructor
    · intro h
      cases hx : f x with
      | error e => rw [hx] at h; cases h
      | ok y =>
        cases hxs : xs.mapM f with
        | error e => rw [hx, hxs] at h; cases h
        | ok rest =>
          rw [hx, hxs] at h
          cases h
          exact ⟨y, rest, rfl, ih.1 hxs, rfl⟩
    · rintro ⟨y, rest, hx, hxs, rfl⟩
      rw [hx, ih.2 hxs]
      rfl

theorem exists_of_mapM_eq_ok {xs : List α} {ys : List β} (h : xs.mapM f = .ok ys) {x : α}
    (hx : x ∈ xs) : ∃ y ∈ ys, f x = .ok y := by
  have hall := mapM_eq_ok_iff.1 h
  clear h
  induction hall with
  | nil => cases hx
  | @cons x' y xs ys hxy _ ih =>
    rcases List.mem_cons.1 hx with rfl | hx
    · exact ⟨y, List.mem_cons_self, hxy⟩
    · obtain ⟨y', hy', hxy'⟩ := ih hx
      exact ⟨y', List.mem_cons_of_mem _ hy', hxy'⟩

theorem exists_of_mapM_eq_error {xs : List α} {e : ε} (h : xs.mapM f = .error e) :
    ∃ x ∈ xs, f x = .error e := by
  induction xs with
  | nil => cases h
  | cons x xs ih =>
    rw [List.mapM_cons] at h
    cases hx : f x with
    | error e' =>
      rw [hx] at h
      cases h
      exact ⟨x, List.mem_cons_self, hx⟩
    | ok y =>
      cases hxs : xs.mapM f with
      | ok rest => rw [hx, hxs] at h; cases h
      | error e' =>
        rw [hx, hxs] at h
        cases h
        obtain ⟨x', hx', he⟩ := ih hxs
        exact ⟨x', List.mem_cons_of_mem _ hx', he⟩

end

/-- A directory of this name is left out below the root: it is hidden, or it holds no files of the
project itself. -/
def IsSkipped (name : String) : Prop :=
  name.toList.head? = some '.' ∨ name = "vendor" ∨ name = "testdata" ∨ name = "node_modules"

theorem isPruned_iff {name : String} : isPruned name ↔ IsSkipped name := by
  simp [isPruned, IsSkipped, skippedDirectories]

namespace FileTree

/-! ## What is below a root -/

section

variable (t : FileTree) (root : String)

/-- **Names lead from a root to an entry** as its directory lists it. -/
inductive Listed : List String → Entry → Prop
  | root {place : Place} {e : Entry} (h : t.linkStat root = .ok (place, e)) : Listed [] e
  | entry {names : List String} {d e : Entry} {place : Place} {entries : List (String × Entry)}
      {name : String} (hnames : Listed names d)
      (hopen : t.stat (Path.descend root names) = .ok (place, .directory entries))
      (he : (name, e) ∈ entries) : Listed (names ++ [name]) e

/-- **A walk meets an entry**: no directory between the root and the entry is left out. -/
structure Meets (names : List String) (e : Entry) : Prop where
  listed : Listed t root names e
  entered : ∀ name ∈ names.dropLast, ¬ IsSkipped name

/-- **What ends a walk.** -/
inductive Obstructs : List String → Entry → Prop
  /-- A link that cannot be followed. -/
  | broken {names : List String} {target : String} {e : FileError}
      (h : t.stat (Path.descend root names) = .error e) : Obstructs names (.link target)
  /-- A link to a directory that it is inside of. -/
  | loop {front back : List String} {target : String} {place : Place}
      {entries entries' : List (String × Entry)} (hback : back ≠ [])
      (hfront : t.stat (Path.descend root front) = .ok (place, .directory entries))
      (h : t.stat (Path.descend root (front ++ back)) = .ok (place, .directory entries')) :
      Obstructs (front ++ back) (.link target)
  /-- A directory to enter whose path is too long to be opened. -/
  | tooLong {names : List String} {entries : List (String × Entry)}
      (hlast : ∀ name ∈ names.getLast?, ¬ IsSkipped name)
      (h : maxPath < byteLength (Path.descend root names)) : Obstructs names (.directory entries)

/-- A walk from the root meets something that ends it. -/
def Obstructed : Prop := ∃ names e, Meets t root names e ∧ Obstructs t root names e

/-- **Names lead to a regular file** below a root, links followed. -/
def Holds (names : List String) : Prop :=
  ∃ e, Listed t root names e ∧
    ((∃ content, e = .file content) ∨
      (∃ target, e = .link target) ∧
        ∃ place content, t.stat (Path.descend root names) = .ok (place, .file content))

end

section

variable {t : FileTree} {root : String} {names : List String} {e : Entry}

theorem Listed.root_ne_empty (h : Listed t root names e) : root ≠ "" := by
  induction h with
  | root h => exact ne_empty_of_lookUp h
  | entry _ _ _ ih => exact ih

theorem Listed.isEntryName (ht : t.IsSound) (h : Listed t root names e) :
    ∀ name ∈ names, IsEntryName name := by
  induction h with
  | root _ => exact List.forall_mem_nil _
  | entry _ hopen he ih =>
    rw [List.forall_mem_append, List.forall_mem_singleton]
    exact ⟨ih, ht.isEntryName (at?_of_stat hopen) he⟩

theorem Listed.isName (ht : t.IsSound) (h : Listed t root names e) :
    ∀ name ∈ names, Path.IsName name :=
  fun name hname => (h.isEntryName ht name hname).toIsName

/-- What is listed is found under its path, unless it is a link or the path is too long. -/
theorem Listed.exists_stat (ht : t.IsSound) (h : Listed t root names e)
    (hlink : ∀ target, e ≠ .link target) (hlong : byteLength (Path.descend root names) ≤ maxPath) :
    ∃ place, t.stat (Path.descend root names) = .ok (place, e) := by
  cases h with
  | root h => exact ⟨_, stat_of_linkStat h hlink⟩
  | entry _ hopen he =>
    rw [Path.descend_concat] at hlong ⊢
    exact ⟨_, stat_join ht hopen he hlink hlong⟩

end

/-! ## Where a walk is -/

/-- The names from the root to where a walk is, and the directories that it is inside of. -/
inductive Inside (t : FileTree) (root : String) : List String → List Ancestor → Prop
  | root : Inside t root [] []
  | enter {names : List String} {ancestors : List Ancestor} {place : Place}
      {entries : List (String × Entry)} (name : String) (h : Inside t root names ancestors)
      (hopen : t.stat (Path.descend root names) = .ok (place, .directory entries)) :
      Inside t root (names ++ [name]) (⟨Path.descend root names, place⟩ :: ancestors)

section

variable {t : FileTree} {root : String} {names : List String} {ancestors : List Ancestor}

/-- **The ancestors are the directories on the way.** -/
theorem Inside.mem_place_iff (h : Inside t root names ancestors) {place : Place} :
    place ∈ ancestors.map (·.place) ↔ ∃ front back entries, back ≠ [] ∧ names = front ++ back ∧
      t.stat (Path.descend root front) = .ok (place, .directory entries) := by
  induction h with
  | root =>
    simp only [List.map_nil, List.not_mem_nil, false_iff]
    rintro ⟨front, back, _, hback, hnames, -⟩
    exact hback (List.append_eq_nil_iff.1 hnames.symm).2
  | @enter names ancestors above entries name _ hopen ih =>
    rw [List.map_cons, List.mem_cons, ih]
    constructor
    · rintro (rfl | ⟨front, back, entries', hback, rfl, hfront⟩)
      · exact ⟨names, [name], entries, List.cons_ne_nil _ _, rfl, hopen⟩
      · exact ⟨front, back ++ [name], entries', by simp, by rw [List.append_assoc], hfront⟩
    · rintro ⟨front, back, entries', hback, hnames, hfront⟩
      rcases List.eq_nil_or_concat' back with rfl | ⟨back, last, rfl⟩
      · exact absurd rfl hback
      rw [← List.append_assoc] at hnames
      obtain ⟨rfl, -⟩ := List.append_inj' hnames rfl
      by_cases hempty : back = []
      · subst hempty
        rw [List.append_nil, hfront] at hopen
        cases hopen
        exact .inl rfl
      · exact .inr ⟨front, back, entries', hempty, rfl, hfront⟩

theorem Inside.exists_at? (h : Inside t root names ancestors) {a : Ancestor} (ha : a ∈ ancestors) :
    ∃ e, t.at? a.place = some e := by
  have hplace : a.place ∈ ancestors.map (·.place) := List.mem_map_of_mem ha
  obtain ⟨_, _, entries, -, -, hopen⟩ := h.mem_place_iff.1 hplace
  exact ⟨_, at?_of_stat hopen⟩

theorem isPrunedBelow_iff (h : Inside t root names ancestors) (hroot : root ≠ "")
    (hnames : ∀ name ∈ names, Path.IsName name) :
    isPrunedBelow ancestors (Path.descend root names) ↔
      ∃ name ∈ names.getLast?, IsSkipped name := by
  cases h with
  | root => simp [isPrunedBelow]
  | @enter names ancestors place entries name _ _ =>
    have hbefore : ∀ n ∈ names, Path.IsName n := fun n hn => hnames n (List.mem_append_left _ hn)
    have hfile := Path.fileName?_join (Path.descend_ne_empty hroot hbefore)
      (hnames name List.mem_concat_self)
    rw [isPrunedBelow, Path.descend_concat, hfile, List.getLast?_concat]
    simp [isPruned_iff]

end

/-! ## Steps of a walk -/

section

variable {t : FileTree} {ancestors : List Ancestor} {path : String} {depth : Nat} {e : Entry}

theorem walkFrom_of_follow_error {error : WalkError}
    (h : t.follow ancestors path e = .error error) :
    t.walkFrom (depth + 1) ancestors path e = .error error := by
  rw [walkFrom, h]

theorem walkFrom_of_follow_file {content : List UInt8}
    (h : t.follow ancestors path e = .ok (.file content)) :
    t.walkFrom (depth + 1) ancestors path e = .ok [path] := by
  rw [walkFrom, h]

/-- A directory is passed over, or it is opened and there is a walk below it for each of its
entries. -/
theorem walkFrom_of_directory {entries : List (String × Entry)}
    (h : t.follow ancestors path e = .ok (.directory entries)) :
    t.walkFrom (depth + 1) ancestors path e =
      if isPrunedBelow ancestors path then .ok []
      else
        match t.list path with
        | .error error => .error (.access path error)
        | .ok (place, entries) =>
          (entries.mapM fun m =>
            t.walkFrom depth (⟨path, place⟩ :: ancestors) (Path.join path m.1) m.2).map
              List.flatten := by
  rw [walkFrom, h]
  rfl

theorem walkFrom_of_pruned {entries : List (String × Entry)}
    (h : t.follow ancestors path e = .ok (.directory entries))
    (hpruned : isPrunedBelow ancestors path) :
    t.walkFrom (depth + 1) ancestors path e = .ok [] := by
  rw [walkFrom_of_directory h, if_pos hpruned]

theorem walkFrom_of_list_error {entries : List (String × Entry)} {error : FileError}
    (h : t.follow ancestors path e = .ok (.directory entries))
    (hpruned : ¬ isPrunedBelow ancestors path) (hlist : t.list path = .error error) :
    t.walkFrom (depth + 1) ancestors path e = .error (.access path error) := by
  rw [walkFrom_of_directory h, if_neg hpruned, hlist]

theorem walkFrom_of_list {entries entries' : List (String × Entry)} {place : Place}
    (h : t.follow ancestors path e = .ok (.directory entries'))
    (hpruned : ¬ isPrunedBelow ancestors path) (hlist : t.list path = .ok (place, entries)) :
    t.walkFrom (depth + 1) ancestors path e =
      (entries.mapM fun m =>
        t.walkFrom depth (⟨path, place⟩ :: ancestors) (Path.join path m.1) m.2).map
          List.flatten := by
  rw [walkFrom_of_directory h, if_neg hpruned, hlist]

theorem list_eq_ok_iff {place : Place} {entries : List (String × Entry)} :
    t.list path = .ok (place, entries) ↔ t.stat path = .ok (place, .directory entries) := by
  cases hstat : t.stat path with
  | error error => simp [list, hstat]
  | ok found =>
    obtain ⟨place', e'⟩ := found
    cases e' <;> simp [list, hstat]

section

variable (target : String)

theorem follow_link_of_error {error : FileError} (h : t.stat path = .error error) :
    t.follow ancestors path (.link target) = .error (.access path error) := by
  unfold follow
  rw [h]

theorem follow_link_of_file {place : Place} {content : List UInt8}
    (h : t.stat path = .ok (place, .file content)) :
    t.follow ancestors path (.link target) = .ok (.file content) := by
  unfold follow
  rw [h]
  rfl

theorem follow_link_of_directory {place : Place} {entries : List (String × Entry)}
    (h : t.stat path = .ok (place, .directory entries))
    (hplace : place ∉ ancestors.map (·.place)) :
    t.follow ancestors path (.link target) = .ok (.directory entries) := by
  have hnone : ancestors.find? (·.place == place) = none := by
    refine List.find?_eq_none.2 fun a ha hsame => ?_
    exact hplace (List.mem_map.2 ⟨a, ha, beq_iff_eq.1 hsame⟩)
  unfold follow
  rw [h]
  dsimp only
  rw [hnone]
  rfl

theorem exists_follow_link_error {place : Place} {entries : List (String × Entry)}
    (h : t.stat path = .ok (place, .directory entries))
    (hplace : place ∈ ancestors.map (·.place)) :
    ∃ error, t.follow ancestors path (.link target) = .error error := by
  obtain ⟨a, ha, hsame⟩ := List.mem_map.1 hplace
  cases hfind : ancestors.find? (·.place == place) with
  | none => exact absurd (beq_iff_eq.2 hsame) (List.find?_eq_none.1 hfind a ha)
  | some b =>
    refine ⟨.loop path b.path, ?_⟩
    unfold follow
    rw [h]
    dsimp only
    rw [hfind]
    rfl

end

end

theorem exists_list_error {t : FileTree} {path : String} (h : maxPath < byteLength path) :
    ∃ e, t.list path = .error e := by
  obtain ⟨e, he⟩ := exists_stat_error h
  exact ⟨e, by rw [list, he]⟩

/-! ## What a walk finds is there -/

/-- A walk finds a regular file: the names lead to it, through no directory that is left out. -/
structure Finds (t : FileTree) (root : String) (names : List String) : Prop where
  holds : Holds t root names
  entered : ∀ name ∈ names.dropLast, ¬ IsSkipped name

/-- The outcome of a walk from some names on is explained by what is below the root: an error by an
obstacle, and the files by themselves. -/
def Explained (t : FileTree) (root : String) (names : List String) :
    Except WalkError (List String) → Prop
  | .error _ => Obstructed t root
  | .ok files => files.Nodup ∧
    ∀ path ∈ files, ∃ more, path = Path.descend root (names ++ more) ∧ Finds t root (names ++ more)

section

variable {t : FileTree} {root : String} {names : List String} {e : Entry}

theorem Finds.isName (ht : t.IsSound) (h : Finds t root names) :
    root ≠ "" ∧ ∀ name ∈ names, Path.IsName name := by
  obtain ⟨e, hlisted, -⟩ := h.holds
  exact ⟨hlisted.root_ne_empty, hlisted.isName ht⟩

/-- A file that is found is known by the names that lead to it. -/
theorem Finds.eq_of_descend_eq (ht : t.IsSound) {names' : List String} (h : Finds t root names)
    (h' : Finds t root names') (heq : Path.descend root names = Path.descend root names') :
    names = names' :=
  Path.eq_of_components_descend (h.isName ht).1 (h.isName ht).2 (h'.isName ht).2
    (congrArg Path.components heq)

/-- What is found below different names is different. -/
theorem explained_flatten (ht : t.IsSound)
    {f : String × Entry → Except WalkError (List String)} {entries : List (String × Entry)}
    {found : List (List String)}
    (hfound : List.Forall₂ (fun m files => f m = .ok files) entries found)
    (hnames : (entries.map (·.1)).Nodup)
    (h : ∀ m ∈ entries, Explained t root (names ++ [m.1]) (f m)) :
    found.flatten.Nodup ∧ ∀ path ∈ found.flatten, ∃ m ∈ entries, ∃ more,
      path = Path.descend root (names ++ [m.1] ++ more) ∧
        Finds t root (names ++ [m.1] ++ more) := by
  induction hfound with
  | nil => exact ⟨List.nodup_nil, List.forall_mem_nil _⟩
  | @cons m files entries found hm _ ih =>
    obtain ⟨hfirst, hrest⟩ := List.nodup_cons.1 hnames
    obtain ⟨hnodup, hpaths⟩ := ih hrest fun m' hm' => h m' (List.mem_cons_of_mem _ hm')
    have hfiles := h m List.mem_cons_self
    rw [hm] at hfiles
    obtain ⟨hnodup', hpaths'⟩ := hfiles
    rw [List.flatten_cons]
    refine ⟨List.nodup_append.2 ⟨hnodup', hnodup, ?_⟩, ?_⟩
    · -- a path below two entries would give them one name
      rintro a ha b hb rfl
      obtain ⟨more, hpath, hfinds⟩ := hpaths' a ha
      obtain ⟨m', hm', more', hpath', hfinds'⟩ := hpaths a hb
      have hsame := hfinds.eq_of_descend_eq ht hfinds' (hpath.symm.trans hpath')
      rw [List.append_assoc, List.append_assoc, List.append_cancel_left_eq] at hsame
      have hname : m.1 = m'.1 := (List.cons.inj hsame).1
      exact hfirst (List.mem_map.2 ⟨m', hm', hname.symm⟩)
    · intro path hpath
      rcases List.mem_append.1 hpath with hpath | hpath
      · obtain ⟨more, hmore⟩ := hpaths' path hpath
        exact ⟨m, List.mem_cons_self, more, hmore⟩
      · obtain ⟨m', hm', hmore⟩ := hpaths path hpath
        exact ⟨m', List.mem_cons_of_mem _ hm', hmore⟩

theorem explained_entries (ht : t.IsSound)
    {f : String × Entry → Except WalkError (List String)} {entries : List (String × Entry)}
    (hnames : (entries.map (·.1)).Nodup)
    (h : ∀ m ∈ entries, Explained t root (names ++ [m.1]) (f m)) :
    Explained t root names ((entries.mapM f).map List.flatten) := by
  cases hfound : entries.mapM f with
  | error error =>
    obtain ⟨m, hm, herror⟩ := exists_of_mapM_eq_error hfound
    have hobstructed := h m hm
    rw [herror] at hobstructed
    exact hobstructed
  | ok found =>
    obtain ⟨hnodup, hpaths⟩ := explained_flatten ht (mapM_eq_ok_iff.1 hfound) hnames h
    refine ⟨hnodup, fun path hpath => ?_⟩
    obtain ⟨m, -, more, hmore⟩ := hpaths path hpath
    rw [List.append_assoc] at hmore
    exact ⟨[m.1] ++ more, hmore⟩

theorem explained_singleton (h : Finds t root names) :
    Explained t root names (.ok [Path.descend root names]) := by
  refine ⟨List.nodup_singleton _, fun path hpath => ⟨[], ?_, ?_⟩⟩
  · rw [List.append_nil]
    exact List.mem_singleton.1 hpath
  · rwa [List.append_nil]

theorem explained_nil : Explained t root names (.ok []) := ⟨List.nodup_nil, List.forall_mem_nil _⟩

/-- An entry of a directory that is entered is met. -/
theorem Meets.entry (h : Meets t root names e) {place : Place} {entries : List (String × Entry)}
    (hlast : ∀ name ∈ names.getLast?, ¬ IsSkipped name)
    (hopen : t.stat (Path.descend root names) = .ok (place, .directory entries)) {name : String}
    {e' : Entry} (he : (name, e') ∈ entries) : Meets t root (names ++ [name]) e' := by
  refine ⟨.entry h.listed hopen he, ?_⟩
  rw [List.dropLast_concat]
  rcases List.eq_nil_or_concat' names with rfl | ⟨before, last, rfl⟩
  · exact List.forall_mem_nil _
  · have hbefore := h.entered
    rw [List.dropLast_concat] at hbefore
    rw [List.forall_mem_append, List.forall_mem_singleton]
    exact ⟨hbefore, hlast last (List.getLast?_concat)⟩

/-- Walks of some depth are explained, from wherever they go on. -/
def WalksExplained (t : FileTree) (root : String) (depth : Nat) : Prop :=
  ∀ {names : List String} {e : Entry} {ancestors : List Ancestor}, Meets t root names e →
    Inside t root names ancestors →
    Explained t root names (t.walkFrom depth ancestors (Path.descend root names) e)

section

variable {ancestors : List Ancestor} {depth : Nat} {entries : List (String × Entry)}

/-- The walk goes on into a directory, however it came to it. -/
theorem explained_of_open (ht : t.IsSound) (hwalks : WalksExplained t root depth)
    (hmeets : Meets t root names e) (hinside : Inside t root names ancestors) {place : Place}
    {entries' : List (String × Entry)}
    (hfollow : t.follow ancestors (Path.descend root names) e = .ok (.directory entries'))
    (hnot : ¬ isPrunedBelow ancestors (Path.descend root names))
    (hopen : t.stat (Path.descend root names) = .ok (place, .directory entries)) :
    Explained t root names (t.walkFrom (depth + 1) ancestors (Path.descend root names) e) := by
  have hpruned := isPrunedBelow_iff hinside hmeets.listed.root_ne_empty (hmeets.listed.isName ht)
  have hlast : ∀ name ∈ names.getLast?, ¬ IsSkipped name := fun name hname hskipped =>
    hnot (hpruned.2 ⟨name, hname, hskipped⟩)
  rw [walkFrom_of_list hfollow hnot (list_eq_ok_iff.2 hopen)]
  refine explained_entries ht (ht.directory (at?_of_stat hopen)).1 fun m hm => ?_
  have hstep := hwalks (hmeets.entry hlast hopen hm) (.enter m.1 hinside hopen)
  rwa [Path.descend_concat] at hstep

/-- A directory is left out, or its path is too long, or the walk goes on into it. -/
theorem explained_directory (ht : t.IsSound) (hwalks : WalksExplained t root depth)
    (hmeets : Meets t root names (.directory entries)) (hinside : Inside t root names ancestors) :
    Explained t root names
      (t.walkFrom (depth + 1) ancestors (Path.descend root names) (.directory entries)) := by
  have hfollow : t.follow ancestors (Path.descend root names) (.directory entries) =
    .ok (.directory entries) := rfl
  by_cases hskip : isPrunedBelow ancestors (Path.descend root names) = true
  · rw [walkFrom_of_pruned hfollow hskip]
    exact explained_nil
  by_cases hlong : byteLength (Path.descend root names) ≤ maxPath
  · obtain ⟨place, hopen⟩ := hmeets.listed.exists_stat ht (fun _ => nofun) hlong
    exact explained_of_open ht hwalks hmeets hinside hfollow hskip hopen
  · rw [Nat.not_le] at hlong
    obtain ⟨error, herror⟩ := exists_list_error hlong
    have hpruned := isPrunedBelow_iff hinside hmeets.listed.root_ne_empty (hmeets.listed.isName ht)
    rw [walkFrom_of_list_error hfollow hskip herror]
    refine ⟨names, _, hmeets, .tooLong (fun name hname hskipped => ?_) hlong⟩
    exact hskip (hpruned.2 ⟨name, hname, hskipped⟩)

/-- A link to a directory leads back to one that the walk is inside of, or to one that is left out,
or the walk goes on into it. -/
theorem explained_link_directory (ht : t.IsSound) (hwalks : WalksExplained t root depth)
    {target : String} (hmeets : Meets t root names (.link target))
    (hinside : Inside t root names ancestors) {place : Place}
    (hstat : t.stat (Path.descend root names) = .ok (place, .directory entries)) :
    Explained t root names
      (t.walkFrom (depth + 1) ancestors (Path.descend root names) (.link target)) := by
  by_cases hloop : place ∈ ancestors.map (·.place)
  · obtain ⟨error, herror⟩ := exists_follow_link_error target hstat hloop
    rw [walkFrom_of_follow_error herror]
    obtain ⟨front, back, entries', hback, rfl, hfront⟩ := hinside.mem_place_iff.1 hloop
    exact ⟨_, _, hmeets, .loop hback hfront hstat⟩
  · have hfollow := follow_link_of_directory target hstat hloop
    by_cases hskip : isPrunedBelow ancestors (Path.descend root names) = true
    · rw [walkFrom_of_pruned hfollow hskip]
      exact explained_nil
    · exact explained_of_open ht hwalks hmeets hinside hfollow hskip hstat

/-- A link leads nowhere, to a file, or to a directory. -/
theorem explained_link (ht : t.IsSound) (hwalks : WalksExplained t root depth) {target : String}
    (hmeets : Meets t root names (.link target)) (hinside : Inside t root names ancestors) :
    Explained t root names
      (t.walkFrom (depth + 1) ancestors (Path.descend root names) (.link target)) := by
  cases hstat : t.stat (Path.descend root names) with
  | error error =>
    rw [walkFrom_of_follow_error (follow_link_of_error target hstat)]
    exact ⟨names, _, hmeets, .broken hstat⟩
  | ok found =>
    obtain ⟨place, led⟩ := found
    cases led with
    | file content =>
      rw [walkFrom_of_follow_file (follow_link_of_file target hstat)]
      exact explained_singleton
        ⟨⟨_, hmeets.listed, .inr ⟨⟨target, rfl⟩, place, content, hstat⟩⟩, hmeets.entered⟩
    | link target' =>
      have hwalk : t.walkFrom (depth + 1) ancestors (Path.descend root names) (.link target) =
          .ok [] := by
        rw [walkFrom, follow, hstat]
        rfl
      rw [hwalk]
      exact explained_nil
    | directory entries => exact explained_link_directory ht hwalks hmeets hinside hstat

end

/-- **What a walk says is explained**: by induction on the depth, every error by an obstacle that
the walk meets, and every file by the names that lead to it. -/
theorem explained_walkFrom (ht : t.IsSound) (depth : Nat) : WalksExplained t root depth := by
  induction depth with
  | zero => exact fun _ _ => explained_nil
  | succ depth ih =>
    intro names e ancestors hmeets hinside
    cases e with
    | file content =>
      have hfollow : t.follow ancestors (Path.descend root names) (.file content) =
        .ok (.file content) := rfl
      rw [walkFrom_of_follow_file hfollow]
      exact explained_singleton ⟨⟨_, hmeets.listed, .inl ⟨content, rfl⟩⟩, hmeets.entered⟩
    | directory entries => exact explained_directory ht ih hmeets hinside
    | link target => exact explained_link ht ih hmeets hinside

end

/-! ## Room for a walk -/

/-- The number of places in a tree. -/
def extent (t : FileTree) : Nat := Entry.sizeAll t.root + 1

/-- How many directories deeper a walk can still go: every link that it follows leads to a place
that it is not inside of, and between two links it goes down the tree. -/
def room (t : FileTree) (ancestors : List Ancestor) : Nat :=
  (t.extent - (ancestors.map (·.place)).toFinset.card) * t.extent +
    (t.extent - (ancestors.head?.map (·.place.length)).getD 0)

section

variable {t : FileTree} {ancestors : List Ancestor}

theorem length_lt_extent {place : Place} {e : Entry} (h : t.at? place = some e) :
    place.length < t.extent := by
  have hplace := (Entry.mem_places_of_descend? h).2
  rwa [Entry.size] at hplace

/-- A walk is inside of no more places than there are. -/
theorem card_places_le (h : ∀ a ∈ ancestors, ∃ e, t.at? a.place = some e) :
    (ancestors.map (·.place)).toFinset.card ≤ t.extent := by
  have hsubset : (ancestors.map (·.place)).toFinset ⊆ (Entry.directory t.root).places.toFinset := by
    intro place hplace
    obtain ⟨a, ha, rfl⟩ := List.mem_map.1 (List.mem_toFinset.1 hplace)
    obtain ⟨e, he⟩ := h a ha
    exact List.mem_toFinset.2 (Entry.mem_places_of_descend? he).1
  calc (ancestors.map (·.place)).toFinset.card
      ≤ (Entry.directory t.root).places.toFinset.card := Finset.card_le_card hsubset
    _ ≤ (Entry.directory t.root).places.length := List.toFinset_card_le _
    _ = t.extent := by rw [Entry.length_places, Entry.size, extent]

theorem head_length_lt_extent (h : ∀ a ∈ ancestors, ∃ e, t.at? a.place = some e) :
    (ancestors.head?.map (·.place.length)).getD 0 < t.extent := by
  cases ancestors with
  | nil => exact Nat.succ_pos _
  | cons a rest =>
    obtain ⟨e, he⟩ := h a List.mem_cons_self
    exact length_lt_extent he

/-- A place that the walk is not inside of takes up one of the places that are left. -/
theorem room_cons_of_not_mem {a : Ancestor} (h : ∀ b ∈ a :: ancestors, ∃ e, t.at? b.place = some e)
    (hnew : a.place ∉ ancestors.map (·.place)) : t.room (a :: ancestors) < t.room ancestors := by
  have hcard := card_places_le h
  have hhead := head_length_lt_extent fun b hb => h b (List.mem_cons_of_mem _ hb)
  rw [List.map_cons, List.toFinset_cons,
    Finset.card_insert_of_notMem (mt List.mem_toFinset.1 hnew)] at hcard
  rw [room, room, List.map_cons, List.toFinset_cons,
    Finset.card_insert_of_notMem (mt List.mem_toFinset.1 hnew)]
  generalize (ancestors.map (·.place)).toFinset.card = count at hcard ⊢
  have hleft : t.extent - count = (t.extent - (count + 1)) + 1 := by omega
  rw [hleft, Nat.succ_mul]
  omega

/-- A directory one step down the tree takes up some of the way down. -/
theorem room_cons_of_concat {a b : Ancestor} {name : String} {e : Entry}
    (hplace : b.place = a.place ++ [name]) (he : t.at? b.place = some e) :
    t.room (b :: a :: ancestors) < t.room (a :: ancestors) := by
  have hdepth := length_lt_extent he
  have hcount : ((a :: ancestors).map (·.place)).toFinset.card ≤
      ((b :: a :: ancestors).map (·.place)).toFinset.card := by
    refine Finset.card_le_card fun place hp => ?_
    rw [List.map_cons, List.toFinset_cons]
    exact Finset.mem_insert_of_mem hp
  have hproduct := Nat.mul_le_mul_right t.extent (Nat.sub_le_sub_left hcount t.extent)
  rw [room, room]
  simp only [List.head?_cons, Option.map_some, Option.getD_some]
  rw [hplace, List.length_append, List.length_singleton] at hdepth ⊢
  omega

theorem room_nil_lt_walkDepth (t : FileTree) : t.room [] < t.walkDepth := by
  have hroom : t.room [] = t.extent * t.extent + t.extent := rfl
  have hdepth : t.walkDepth = (t.extent + 1) * (t.extent + 1) := rfl
  rw [hroom, hdepth]
  simp only [Nat.add_mul, Nat.mul_add]
  omega

end

/-! ## What is there is found -/

section

variable {t : FileTree} {root : String} {names : List String} {ancestors : List Ancestor}
  {files : List String}

/-- A directory that is listed as one is a step down from the directory that lists it. -/
theorem Inside.place_eq (ht : t.IsSound) (h : Inside t root names ancestors) {place : Place}
    {entries entries' : List (String × Entry)} (hlisted : Listed t root names (.directory entries'))
    (hopen : t.stat (Path.descend root names) = .ok (place, .directory entries)) :
    ancestors = [] ∨ ∃ a rest name, ancestors = a :: rest ∧ place = a.place ++ [name] := by
  cases h with
  | root => exact .inl rfl
  | @enter before ancestors above listing name _ habove =>
    right
    refine ⟨_, _, name, rfl, ?_⟩
    generalize hconcat : before ++ [name] = names at hlisted hopen
    cases hlisted with
    | root _ => simp at hconcat
    | entry _ habove' he =>
      obtain ⟨rfl, hname⟩ := List.append_inj' hconcat rfl
      cases List.singleton_inj.1 hname
      cases habove.symm.trans habove'
      have hlong := byteLength_le_of_lookUp hopen
      rw [Path.descend_concat] at hopen hlong
      have hstat := stat_join ht habove he (fun _ => nofun) hlong
      cases hstat.symm.trans hopen
      rfl

/-- A directory that a successful walk has come to is entered, which leaves less room. -/
theorem exists_follow_directory (ht : t.IsSound) (hinside : Inside t root names ancestors)
    {d : Entry} (hlisted : Listed t root names d) {place : Place} {entries : List (String × Entry)}
    (hopen : t.stat (Path.descend root names) = .ok (place, .directory entries)) {depth : Nat}
    (hwalk : t.walkFrom (depth + 1) ancestors (Path.descend root names) d = .ok files) :
    (∃ entries', t.follow ancestors (Path.descend root names) d = .ok (.directory entries')) ∧
      t.room (⟨Path.descend root names, place⟩ :: ancestors) < t.room ancestors := by
  have hplaces : ∀ b ∈ ⟨Path.descend root names, place⟩ :: ancestors,
      ∃ e, t.at? b.place = some e := by
    rw [List.forall_mem_cons]
    exact ⟨⟨_, at?_of_stat hopen⟩, fun b hb => hinside.exists_at? hb⟩
  cases d with
  | file content =>
    obtain ⟨place', hstat⟩ :=
      hlisted.exists_stat ht (fun _ => nofun) (byteLength_le_of_lookUp hopen)
    cases hstat.symm.trans hopen
  | directory entries' =>
    refine ⟨⟨entries', rfl⟩, ?_⟩
    rcases hinside.place_eq ht hlisted hopen with rfl | ⟨a, rest, name, rfl, hplace⟩
    · exact room_cons_of_not_mem hplaces List.not_mem_nil
    · exact room_cons_of_concat hplace (at?_of_stat hopen)
  | link target =>
    -- a link to a place that is being walked would have made the walk fail
    by_cases hloop : place ∈ ancestors.map (·.place)
    · obtain ⟨error, herror⟩ := exists_follow_link_error target hopen hloop
      rw [walkFrom_of_follow_error herror] at hwalk
      cases hwalk
    · exact ⟨⟨entries, follow_link_of_directory target hopen hloop⟩,
        room_cons_of_not_mem hplaces hloop⟩

/-- **A successful walk comes to everything that it meets**, with room to go on. -/
theorem exists_walkFrom_of_meets (ht : t.IsSound) (hwalk : t.walk root = .ok files) {e : Entry}
    (h : Meets t root names e) :
    ∃ depth ancestors below, Inside t root names ancestors ∧ t.room ancestors < depth + 1 ∧
      t.walkFrom (depth + 1) ancestors (Path.descend root names) e = .ok below ∧ below ⊆ files := by
  obtain ⟨hlisted, hentered⟩ := h
  induction hlisted with
  | @root place e h =>
    rw [walk, h] at hwalk
    have hroom := t.room_nil_lt_walkDepth
    obtain ⟨depth, hdepth⟩ : ∃ depth, t.walkDepth = depth + 1 :=
      Nat.exists_eq_add_one.2 (by omega)
    rw [hdepth] at hroom hwalk
    exact ⟨depth, [], files, .root, hroom, hwalk, List.Subset.refl _⟩
  | @entry names d e place entries name hnames hopen he ih =>
    rw [List.dropLast_concat] at hentered
    obtain ⟨depth, ancestors, below, hinside, hroom, hbelow, hsubset⟩ :=
      ih fun n hn => hentered n (List.mem_of_mem_dropLast hn)
    obtain ⟨⟨entries', hfollow⟩, hless⟩ := exists_follow_directory ht hinside hnames hopen hbelow
    have hpruned : ¬ isPrunedBelow ancestors (Path.descend root names) := by
      rw [isPrunedBelow_iff hinside hnames.root_ne_empty (hnames.isName ht)]
      rintro ⟨last, hlast, hskipped⟩
      exact hentered last (List.mem_of_getLast? hlast) hskipped
    rw [walkFrom_of_list hfollow hpruned (list_eq_ok_iff.2 hopen)] at hbelow
    cases hfound : entries.mapM fun m =>
        t.walkFrom depth (⟨Path.descend root names, place⟩ :: ancestors)
          (Path.join (Path.descend root names) m.1) m.2 with
    | error error => rw [hfound] at hbelow; cases hbelow
    | ok found =>
      rw [hfound] at hbelow
      cases hbelow
      -- so it has come to the entry, and what it found there is part of what it found
      obtain ⟨part, hpart, hwalked⟩ := exists_of_mapM_eq_ok hfound he
      obtain ⟨depth, rfl⟩ : ∃ k, depth = k + 1 := Nat.exists_eq_add_one.2 (by omega)
      refine ⟨depth, _, part, .enter name hinside hopen, by omega, ?_, ?_⟩
      · rwa [Path.descend_concat]
      · intro path hpath
        exact hsubset (List.mem_flatten.2 ⟨part, hpart, hpath⟩)

/-- **A walk that meets an obstacle fails.** -/
theorem exists_walk_error (ht : t.IsSound) (h : Obstructed t root) :
    ∃ error, t.walk root = .error error := by
  cases hwalk : t.walk root with
  | error error => exact ⟨error, rfl⟩
  | ok files =>
    exfalso
    obtain ⟨names, e, hmeets, hobstructs⟩ := h
    obtain ⟨depth, ancestors, below, hinside, -, hbelow, -⟩ :=
      exists_walkFrom_of_meets ht hwalk hmeets
    cases hobstructs with
    | @broken names target e he =>
      rw [walkFrom_of_follow_error (follow_link_of_error target he)] at hbelow
      cases hbelow
    | @loop front back target place entries entries' hback hfront hlink =>
      have hplace := hinside.mem_place_iff.2 ⟨front, back, entries, hback, rfl, hfront⟩
      obtain ⟨error, herror⟩ := exists_follow_link_error target hlink hplace
      rw [walkFrom_of_follow_error herror] at hbelow
      cases hbelow
    | @tooLong names entries hlast hlong =>
      have hpruned : ¬ isPrunedBelow ancestors (Path.descend root names) := by
        rw [isPrunedBelow_iff hinside hmeets.listed.root_ne_empty (hmeets.listed.isName ht)]
        rintro ⟨last, hmem, hskipped⟩
        exact hlast last hmem hskipped
      have hfollow : t.follow ancestors (Path.descend root names) (.directory entries) =
        .ok (.directory entries) := rfl
      obtain ⟨error, herror⟩ := exists_list_error hlong
      rw [walkFrom_of_list_error hfollow hpruned herror] at hbelow
      cases hbelow

theorem mem_of_finds (ht : t.IsSound) (hwalk : t.walk root = .ok files) (h : Finds t root names) :
    Path.descend root names ∈ files := by
  obtain ⟨⟨e, hlisted, hregular⟩, hentered⟩ := h
  obtain ⟨depth, ancestors, below, -, -, hbelow, hsubset⟩ :=
    exists_walkFrom_of_meets ht hwalk ⟨hlisted, hentered⟩
  obtain ⟨content, hfollow⟩ : ∃ content,
      t.follow ancestors (Path.descend root names) e = .ok (.file content) := by
    rcases hregular with ⟨content, rfl⟩ | ⟨⟨target, rfl⟩, place, content, hstat⟩
    · exact ⟨content, rfl⟩
    · exact ⟨content, follow_link_of_file target hstat⟩
  rw [walkFrom_of_follow_file hfollow] at hbelow
  cases hbelow
  exact hsubset List.mem_cons_self

/-- **A walk that meets no obstacle finds the regular files** below its root, each once. -/
theorem exists_walk (ht : t.IsSound) {place : Place} {e : Entry}
    (hroot : t.linkStat root = .ok (place, e)) (h : ¬ Obstructed t root) :
    ∃ files, t.walk root = .ok files ∧ files.Nodup ∧
      ∀ path, path ∈ files ↔ ∃ names, path = Path.descend root names ∧ Finds t root names := by
  have hexplained : Explained t root [] (t.walk root) := by
    rw [walk, hroot]
    exact explained_walkFrom ht t.walkDepth ⟨.root hroot, List.forall_mem_nil _⟩ .root
  cases hwalk : t.walk root with
  | error error =>
    rw [hwalk] at hexplained
    exact absurd hexplained h
  | ok files =>
    rw [hwalk] at hexplained
    obtain ⟨hnodup, hpaths⟩ := hexplained
    refine ⟨files, rfl, hnodup, fun path => ⟨hpaths path, ?_⟩⟩
    rintro ⟨names, rfl, hfinds⟩
    exact mem_of_finds ht hwalk hfinds

end

end FileTree

end GoOutline
