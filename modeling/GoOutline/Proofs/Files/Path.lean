import GoOutline.Files.Path
import Mathlib.Data.List.Basic
import Mathlib.Data.List.Induction

/-!
# Paths below a root

A path that is made by going down from a root, name by name, means what the root means and then the
names. So it is known by these names: two such paths mean the same only when they are the same, and
relative to the root such a path is its names with slashes between them.

## Main definitions

* `Path.IsName`: a text that a path can be continued with
* `Path.descend`: the path of some names below a root

## Main results

* `Path.components_descend`, `Path.descend_injective`: the names are what such a path means
* `Path.relative_descend`: the path relative to its root
* `Path.join_joinSegments`: the root and the names make the path again
* `Path.extension?_eq_go_iff`: the names of source files
* `Path.precedes_trans`, `Path.precedes_total`, `Path.precedes_antisymm`: the order of paths
-/

namespace GoOutline.Path

/-! ## Segments -/

theorem splitSlashes_ne_nil (cs : List Char) : splitSlashes cs ≠ [] := by
  cases cs with
  | nil => exact List.cons_ne_nil _ _
  | cons c rest =>
    rw [splitSlashes]
    split
    · exact List.cons_ne_nil _ _
    · split <;> exact List.cons_ne_nil _ _

/-- A slash divides the pieces before it from those after it. -/
theorem splitSlashes_append_slash (a b : List Char) :
    splitSlashes (a ++ '/' :: b) = splitSlashes a ++ splitSlashes b := by
  induction a with
  | nil => rfl
  | cons c rest ih =>
    rw [List.cons_append, splitSlashes, splitSlashes, ih]
    split
    · rfl
    · obtain ⟨first, more, hrest⟩ := List.exists_cons_of_ne_nil (splitSlashes_ne_nil rest)
      rw [hrest]
      rfl

/-- What has no slash is one piece. -/
theorem splitSlashes_of_not_mem {cs : List Char} (h : '/' ∉ cs) : splitSlashes cs = [cs] := by
  induction cs with
  | nil => rfl
  | cons c rest ih =>
    obtain ⟨hc, hrest⟩ := not_or.1 (mt List.mem_cons.2 h)
    rw [splitSlashes, if_neg (Ne.symm hc), ih hrest]

/-- A text that a path can be continued with: it holds no slash, and it is neither empty nor one of
the two that stand for a directory itself and for the one above it. -/
structure IsName (name : String) : Prop where
  ne_empty : name ≠ ""
  ne_dot : name ≠ "."
  ne_dots : name ≠ ".."
  no_slash : '/' ∉ name.toList

section

variable {base name : String}

theorem segments_of_isName (h : IsName name) : segments name = [name] := by
  rw [segments, splitSlashes_of_not_mem h.no_slash, List.map_singleton, String.ofList_toList]

/-- A name is a component by itself. -/
theorem IsName.ofSegment? (h : IsName name) :
    Component.ofSegment? name = some (.normal name) := by
  rw [Component.ofSegment?, if_neg (by simp [h.ne_empty, h.ne_dot]), if_neg (by simp [h.ne_dots])]

/-- A name means something in a path. -/
theorem IsName.isIdle (h : IsName name) : isIdle name = false := by
  rw [Path.isIdle, h.ofSegment?]
  rfl

theorem IsName.isAbsolute (h : IsName name) : isAbsolute name = false := by
  rw [Path.isAbsolute, beq_eq_false_iff_ne]
  intro hslash
  exact h.no_slash (List.mem_of_head? hslash)

/-- A name is put behind the segments of a path; it takes the place of an empty one at the end. -/
theorem exists_segments_join (hbase : base ≠ "") (h : IsName name) :
    ∃ front, front ≠ [] ∧ (segments base = front ∨ segments base = front ++ [""]) ∧
      segments (join base name) = front ++ [name] := by
  have hname := segments_of_isName h
  unfold segments at hname ⊢
  unfold join
  rw [h.isAbsolute, Bool.false_or, if_neg (by simpa using hbase)]
  by_cases hslash : base.toList.getLast? = some '/'
  · obtain ⟨before, hbefore⟩ := List.getLast?_eq_some_iff.1 hslash
    refine ⟨(splitSlashes before).map String.ofList, ?_, .inr ?_, ?_⟩
    · simpa using splitSlashes_ne_nil before
    · rw [hbefore, splitSlashes_append_slash, List.map_append]
      rfl
    · rw [if_pos (by simpa using hslash), String.toList_append, hbefore, List.append_assoc,
        List.singleton_append, splitSlashes_append_slash, List.map_append, hname]
  · refine ⟨(splitSlashes base.toList).map String.ofList, ?_, .inl rfl, ?_⟩
    · simpa using splitSlashes_ne_nil base.toList
    · have htext : (base ++ "/" ++ name).toList = base.toList ++ '/' :: name.toList := by
        rw [String.toList_append, String.toList_append, List.append_assoc]
        rfl
      rw [if_neg (by simpa using hslash), htext, splitSlashes_append_slash, List.map_append, hname]

theorem toList_ne_nil (h : base ≠ "") : base.toList ≠ [] := by
  intro hnil
  exact h (String.toList_eq_nil_iff.1 hnil)

/-- A path below another starts with its characters. -/
theorem exists_toList_join (hbase : base ≠ "") (h : IsName name) :
    ∃ rest, (join base name).toList = base.toList ++ rest ∧ rest ≠ [] := by
  have hname := toList_ne_nil h.ne_empty
  unfold join
  rw [h.isAbsolute, Bool.false_or, if_neg (by simpa using hbase)]
  split
  · exact ⟨name.toList, by rw [String.toList_append], hname⟩
  · exact ⟨'/' :: name.toList, by simp, List.cons_ne_nil _ _⟩

/-- A path stays absolute or relative when it is continued with a name. -/
theorem isAbsolute_join (hbase : base ≠ "") (h : IsName name) :
    isAbsolute (join base name) = isAbsolute base := by
  obtain ⟨rest, hrest, -⟩ := exists_toList_join hbase h
  obtain ⟨c, cs, hcs⟩ := List.exists_cons_of_ne_nil (toList_ne_nil hbase)
  rw [isAbsolute, isAbsolute, hrest, hcs]
  rfl

theorem join_ne_empty (hbase : base ≠ "") (h : IsName name) : join base name ≠ "" := by
  obtain ⟨rest, hrest, -⟩ := exists_toList_join hbase h
  intro hempty
  rw [hempty] at hrest
  exact toList_ne_nil hbase (List.append_eq_nil_iff.1 hrest.symm).1

/-- Joining adds no character but a slash. -/
theorem not_mem_join {c : Char} (hc : c ≠ '/') (hbase : c ∉ base.toList) (hname : c ∉ name.toList) :
    c ∉ (join base name).toList := by
  unfold join
  split
  · exact hname
  · split <;> simp [hbase, hname, hc]

end

/-! ## Components -/

/-- What the first segment of a path stands for. -/
def leadComponents (absolute : Bool) (first : String) : List Component :=
  if absolute then [.root]
  else if first = "." then [.current]
  else (Component.ofSegment? first).toList

/-- The first segment settles the lead, and each other is a component or nothing. -/
theorem components_of_segments {path first : String} {rest : List String}
    (h : segments path = first :: rest) :
    components path =
      leadComponents (isAbsolute path) first ++ rest.filterMap Component.ofSegment? := by
  rw [components, Layout.ofPath, h, leadComponents]
  dsimp only
  by_cases habsolute : isAbsolute path = true
  · rw [if_pos habsolute, if_pos habsolute]
    rfl
  · rw [if_neg habsolute, if_neg habsolute]
    by_cases hdot : first = "."
    · rw [if_pos (beq_iff_eq.2 hdot), if_pos hdot, Layout.components]
      cases rest with
      | nil => rfl
      | cons segment rest => rfl
    · rw [if_neg (by simpa using hdot), if_neg hdot, Layout.components, List.filterMap_cons]
      cases Component.ofSegment? first <;> rfl

/-- **A name below a path is one component more.** -/
theorem components_join {base name : String} (hbase : base ≠ "") (h : IsName name) :
    components (join base name) = components base ++ [.normal name] := by
  obtain ⟨front, hfront, hsegments, hjoin⟩ := exists_segments_join hbase h
  obtain ⟨first, more, rfl⟩ := List.exists_cons_of_ne_nil hfront
  have hname : [name].filterMap Component.ofSegment? = [.normal name] := by
    rw [List.filterMap_cons_some h.ofSegment?, List.filterMap_nil]
  rw [List.cons_append] at hsegments hjoin
  rw [components_of_segments hjoin, isAbsolute_join hbase h, List.filterMap_append, hname]
  rcases hsegments with hsegments | hsegments
  · rw [components_of_segments hsegments, List.append_assoc]
  · have hempty : [""].filterMap Component.ofSegment? = [] := rfl
    rw [components_of_segments hsegments, List.filterMap_append, hempty, List.append_nil,
      List.append_assoc]

/-- A path that is not empty means something. -/
theorem components_ne_nil {path : String} (h : path ≠ "") : components path ≠ [] := by
  obtain ⟨c, cs, hcs⟩ := List.exists_cons_of_ne_nil (toList_ne_nil h)
  obtain ⟨first, rest, hsegments⟩ : ∃ first rest, segments path = first :: rest :=
    List.exists_cons_of_ne_nil (by simpa [segments] using splitSlashes_ne_nil path.toList)
  rw [components_of_segments hsegments, leadComponents]
  by_cases habsolute : isAbsolute path = true
  · rw [if_pos habsolute]
    exact List.cons_ne_nil _ _
  · rw [if_neg habsolute]
    split
    · exact List.cons_ne_nil _ _
    · next hdot =>
      have hc : c ≠ '/' := by
        rintro rfl
        exact habsolute (by rw [isAbsolute, hcs]; rfl)
      have hfirst : first ≠ "" := by
        rintro rfl
        rw [segments, hcs, splitSlashes, if_neg hc] at hsegments
        split at hsegments <;> simp at hsegments
      rw [Component.ofSegment?, if_neg (by simp [hfirst, hdot])]
      split <;> exact List.cons_ne_nil _ _

/-- The name that a path is continued with is its file name. -/
theorem fileName?_join {base name : String} (hbase : base ≠ "") (h : IsName name) :
    fileName? (join base name) = some name := by
  rw [fileName?, components_join hbase h, List.getLast?_concat]

/-! ## Names below a root -/

/-- The path of some names below a root. -/
def descend (root : String) (names : List String) : String := names.foldl join root

section

variable {root : String} {names : List String}

@[simp] theorem descend_nil (root : String) : descend root [] = root := rfl

/-- Going down by one more name is joining it. -/
theorem descend_concat (root : String) (names : List String) (name : String) :
    descend root (names ++ [name]) = join (descend root names) name := by
  rw [descend, List.foldl_append]
  rfl

theorem descend_ne_empty (hroot : root ≠ "") (h : ∀ name ∈ names, IsName name) :
    descend root names ≠ "" := by
  induction names using List.reverseRecOn with
  | nil => exact hroot
  | append_singleton names name ih =>
    rw [descend_concat]
    exact join_ne_empty (ih fun n hn => h n (List.mem_append_left _ hn))
      (h name List.mem_concat_self)

theorem isAbsolute_descend (hroot : root ≠ "") (h : ∀ name ∈ names, IsName name) :
    isAbsolute (descend root names) = isAbsolute root := by
  induction names using List.reverseRecOn with
  | nil => rfl
  | append_singleton names name ih =>
    have hnames : ∀ n ∈ names, IsName n := fun n hn => h n (List.mem_append_left _ hn)
    rw [descend_concat, isAbsolute_join (descend_ne_empty hroot hnames)
      (h name List.mem_concat_self), ih hnames]

/-- **The path of names below a root** means what the root means, and then the names. -/
theorem components_descend (hroot : root ≠ "") (h : ∀ name ∈ names, IsName name) :
    components (descend root names) = components root ++ names.map .normal := by
  induction names using List.reverseRecOn with
  | nil => rw [descend_nil, List.map_nil, List.append_nil]
  | append_singleton names name ih =>
    have hnames : ∀ n ∈ names, IsName n := fun n hn => h n (List.mem_append_left _ hn)
    rw [descend_concat, components_join (descend_ne_empty hroot hnames)
      (h name List.mem_concat_self), ih hnames, List.map_append, List.append_assoc]
    rfl

/-- Below one root, paths that mean the same are by the same names. -/
theorem eq_of_components_descend {names' : List String} (hroot : root ≠ "")
    (h : ∀ name ∈ names, IsName name) (h' : ∀ name ∈ names', IsName name)
    (heq : components (descend root names) = components (descend root names')) :
    names = names' := by
  rw [components_descend hroot h, components_descend hroot h', List.append_cancel_left_eq] at heq
  exact List.map_injective_iff.2 (fun _ _ => Component.normal.inj) heq

end

/-! ## Relative to the root -/

/-- As many components are left out as there are in front of some names; only idle segments are left
before these. -/
theorem dropWhile_dropComponents {front names : List String} (h : ∀ name ∈ names, IsName name) :
    (dropComponents (front.filterMap Component.ofSegment?).length (front ++ names)).dropWhile
      isIdle = names := by
  have hnames : names.dropWhile isIdle = names := by
    cases names with
    | nil => rfl
    | cons name rest =>
      rw [List.dropWhile_cons, (h name List.mem_cons_self).isIdle]
      rfl
  induction front with
  | nil =>
    rw [List.filterMap_nil, List.length_nil, dropComponents, List.nil_append, hnames]
  | cons segment rest ih =>
    cases hsegment : Component.ofSegment? segment with
    | none =>
      have hidle : isIdle segment = true := by rw [isIdle, hsegment]; rfl
      rw [List.filterMap_cons_none hsegment, List.cons_append]
      cases hcount : (rest.filterMap Component.ofSegment?).length with
      | zero =>
        rw [hcount, dropComponents] at ih
        rw [dropComponents, List.dropWhile_cons, hidle]
        exact ih
      | succ n =>
        rw [hcount] at ih
        rw [dropComponents, hidle]
        exact ih
    | some component =>
      have hidle : isIdle segment = false := by rw [isIdle, hsegment]; rfl
      rw [List.filterMap_cons_some hsegment, List.length_cons, List.cons_append, dropComponents,
        hidle]
      exact ih

/-- A name is not idle, so nothing is trimmed behind the names. -/
theorem trimEnd_names {names : List String} (h : ∀ name ∈ names, IsName name) :
    (⟨none, names⟩ : Layout).trimEnd = ⟨none, names⟩ := by
  rcases List.eq_nil_or_concat' names with rfl | ⟨before, last, rfl⟩
  · rfl
  · have hidle := (h last List.mem_concat_self).isIdle
    rw [Layout.trimEnd, List.reverse_append, List.reverse_singleton, List.singleton_append,
      List.dropWhile_cons, hidle]
    simp

/-- The names are the last segments of a path below a root. -/
theorem exists_segments_descend {root : String} {names : List String} (hroot : root ≠ "")
    (h : ∀ name ∈ names, IsName name) (hnames : names ≠ []) :
    ∃ front, front ≠ [] ∧ (segments root = front ∨ segments root = front ++ [""]) ∧
      segments (descend root names) = front ++ names := by
  induction names using List.reverseRecOn with
  | nil => exact absurd rfl hnames
  | append_singleton names name ih =>
    have hbefore : ∀ n ∈ names, IsName n := fun n hn => h n (List.mem_append_left _ hn)
    have hname := h name List.mem_concat_self
    rw [descend_concat]
    rcases List.eq_nil_or_concat' names with rfl | ⟨before, last, rfl⟩
    · exact exists_segments_join hroot hname
    · obtain ⟨front, hfront, hsegments, hdescend⟩ := ih hbefore (by simp)
      obtain ⟨front', -, hsegments', hjoin⟩ :=
        exists_segments_join (descend_ne_empty hroot hbefore) hname
      rcases hsegments' with hsegments' | hsegments'
      · refine ⟨front, hfront, hsegments, ?_⟩
        rw [hjoin, ← hsegments', hdescend, List.append_assoc]
      · rw [hdescend, ← List.append_assoc] at hsegments'
        obtain ⟨-, hlast⟩ := List.append_inj' hsegments' rfl
        exact absurd (List.singleton_inj.1 hlast) (hbefore last List.mem_concat_self).ne_empty

/-- The names end the layout of a path below a root; before them stands what the root means. -/
theorem exists_layout_descend {root : String} {names : List String} (hroot : root ≠ "")
    (h : ∀ name ∈ names, IsName name) :
    ∃ lead front, Layout.ofPath (descend root names) = ⟨lead, front ++ names⟩ ∧
      components root = lead.toList ++ front.filterMap Component.ofSegment? := by
  by_cases hnames : names = []
  · subst hnames
    exact ⟨(Layout.ofPath root).lead, (Layout.ofPath root).body, by rw [List.append_nil]; rfl, rfl⟩
  obtain ⟨front, hfront, hsegments, hdescend⟩ := exists_segments_descend hroot h hnames
  obtain ⟨first, more, rfl⟩ := List.exists_cons_of_ne_nil hfront
  rw [List.cons_append] at hsegments hdescend
  have habsolute := isAbsolute_descend hroot h
  have hcomponents : components root =
      leadComponents (isAbsolute root) first ++ more.filterMap Component.ofSegment? := by
    rcases hsegments with hsegments | hsegments
    · exact components_of_segments hsegments
    · rw [components_of_segments hsegments, List.filterMap_append]
      exact congrArg _ (List.append_nil _)
  rw [Layout.ofPath, hdescend]
  dsimp only
  rw [habsolute, hcomponents, leadComponents]
  -- what the root starts with settles the lead: a slash, a dot or neither
  by_cases hroot : isAbsolute root = true
  · exact ⟨some .root, more, by rw [if_pos hroot], by rw [if_pos hroot]; rfl⟩
  · rw [if_neg hroot, if_neg hroot]
    by_cases hdot : first = "."
    · refine ⟨some .current, "" :: more, ?_, by rw [if_pos hdot]; rfl⟩
      rw [if_pos (beq_iff_eq.2 hdot), if_neg (by simp [hnames])]
      rfl
    · refine ⟨none, first :: more, by rw [if_neg (by simpa using hdot)]; rfl, ?_⟩
      rw [if_neg hdot, List.filterMap_cons]
      cases Component.ofSegment? first <;> rfl

/-- What is left of a path below its root is the names. -/
theorem below?_descend {root : String} {names : List String} (hroot : root ≠ "")
    (h : ∀ name ∈ names, IsName name) :
    below? root (descend root names) = some (joinSegments names) := by
  obtain ⟨lead, front, hlayout, hcomponents⟩ := exists_layout_descend hroot h
  have hstart : (components root).isPrefixOf (Layout.ofPath (descend root names)).components := by
    rw [List.isPrefixOf_iff_prefix, ← components, components_descend hroot h]
    exact List.prefix_append _ _
  have hempty : (components root).isEmpty = false := by
    simpa using components_ne_nil hroot
  have hlength : (components root).length - lead.toList.length =
      (front.filterMap Component.ofSegment?).length := by
    rw [hcomponents, List.length_append, Nat.add_sub_cancel_left]
  rw [below?, hstart, hempty, hlayout]
  dsimp only
  rw [hlength, dropWhile_dropComponents h, trimEnd_names h]
  rfl

theorem joinSegments_ne_empty {names : List String} (h : ∀ name ∈ names, IsName name)
    (hnames : names ≠ []) : joinSegments names ≠ "" := by
  obtain ⟨name, rest, rfl⟩ := List.exists_cons_of_ne_nil hnames
  have hname := toList_ne_nil (h name List.mem_cons_self).ne_empty
  intro hempty
  have htext := congrArg String.toList hempty
  rw [joinSegments, String.toList_intercalate] at htext
  cases rest <;> simp_all [List.intercalate]

/-- **A path below a root**, relative to it, is its names with slashes between them; the root itself
is known by its own name. -/
theorem relative_descend {root : String} {names : List String} (hroot : root ≠ "")
    (h : ∀ name ∈ names, IsName name) :
    relative root (descend root names) =
      if names = [] then (fileName? root).getD root else joinSegments names := by
  rw [relative, below?_descend hroot h]
  dsimp only
  by_cases hnames : names = []
  · subst hnames
    rfl
  · rw [if_neg hnames, if_neg (by simpa using joinSegments_ne_empty h hnames)]

/-! ## Back from the root -/

/-- A path that starts with a name starts at no root. -/
theorem isAbsolute_name_append {name : String} (h : IsName name) (rest : String) :
    isAbsolute (name ++ rest) = false := by
  obtain ⟨c, cs, hname⟩ := List.exists_cons_of_ne_nil (toList_ne_nil h.ne_empty)
  have hc : c ≠ '/' := by
    rintro rfl
    exact h.no_slash (hname ▸ List.mem_cons_self)
  rw [isAbsolute, String.toList_append, hname]
  simpa using hc

/-- Behind a slash nothing is put in. -/
theorem join_of_slash {base path : String} (hpath : isAbsolute path = false)
    (hslash : base.toList.getLast? = some '/') : join base path = base ++ path := by
  have hbase : base ≠ "" := by
    rintro rfl
    cases hslash
  rw [join, hpath, Bool.false_or, if_neg (by simpa using hbase), if_pos (by simpa using hslash)]

/-- Elsewhere a slash is put in. -/
theorem join_of_not_slash {base path : String} (hbase : base ≠ "") (hpath : isAbsolute path = false)
    (hslash : base.toList.getLast? ≠ some '/') : join base path = base ++ "/" ++ path := by
  rw [join, hpath, Bool.false_or, if_neg (by simpa using hbase), if_neg (by simpa using hslash)]

/-- What ends in a name ends in no slash. -/
theorem join_append_name {name rest : String} (before : String) (h : IsName name)
    (hrest : isAbsolute rest = false) :
    join (before ++ name) rest = before ++ name ++ "/" ++ rest := by
  refine join_of_not_slash ?_ hrest ?_
  · intro hempty
    exact h.ne_empty (String.append_eq_empty_iff.1 hempty).2
  · intro hslash
    rw [String.toList_append, List.getLast?_append_of_ne_nil _ (toList_ne_nil h.ne_empty)] at hslash
    exact h.no_slash (List.mem_of_getLast? hslash)

/-- A path below a name, which is below a root, is a path below the root. -/
theorem join_name_slash {root name : String} (hroot : root ≠ "") (h : IsName name) {rest : String}
    (hrest : isAbsolute rest = false) :
    join root (name ++ "/" ++ rest) = join (join root name) rest := by
  have habsolute : isAbsolute (name ++ "/" ++ rest) = false := by
    rw [String.append_assoc]
    exact isAbsolute_name_append h _
  by_cases hslash : root.toList.getLast? = some '/'
  · rw [join_of_slash habsolute hslash, join_of_slash h.isAbsolute hslash,
      join_append_name root h hrest]
    simp only [String.append_assoc]
  · rw [join_of_not_slash hroot habsolute hslash, join_of_not_slash hroot h.isAbsolute hslash,
      join_append_name (root ++ "/") h hrest]
    simp only [String.append_assoc]

theorem joinSegments_cons_cons (first second : String) (rest : List String) :
    joinSegments (first :: second :: rest) = first ++ "/" ++ joinSegments (second :: rest) := by
  refine String.toList_injective ?_
  simp [joinSegments, String.toList_intercalate]

theorem isAbsolute_joinSegments {names : List String} (h : ∀ name ∈ names, IsName name)
    (hnames : names ≠ []) : isAbsolute (joinSegments names) = false := by
  obtain ⟨first, rest, rfl⟩ := List.exists_cons_of_ne_nil hnames
  have hfirst := h first List.mem_cons_self
  cases rest with
  | nil =>
    rw [joinSegments, String.intercalate_singleton]
    exact hfirst.isAbsolute
  | cons second rest =>
    rw [joinSegments_cons_cons, String.append_assoc]
    exact isAbsolute_name_append hfirst _

/-- **Names with slashes between them lead from a root to the path of the names**, written as the
walk writes it. -/
theorem join_joinSegments {root : String} {names : List String} (hroot : root ≠ "")
    (h : ∀ name ∈ names, IsName name) (hnames : names ≠ []) :
    join root (joinSegments names) = descend root names := by
  induction names generalizing root with
  | nil => exact absurd rfl hnames
  | cons first rest ih =>
    have hfirst := h first List.mem_cons_self
    have hrest : ∀ name ∈ rest, IsName name := fun name hname =>
      h name (List.mem_cons_of_mem _ hname)
    rcases rest with _ | ⟨second, rest⟩
    · rw [joinSegments, String.intercalate_singleton]
      rfl
    · have hmore : second :: rest ≠ [] := List.cons_ne_nil _ _
      calc join root (joinSegments (first :: second :: rest))
          = join root (first ++ "/" ++ joinSegments (second :: rest)) := by
            rw [joinSegments_cons_cons]
        _ = join (join root first) (joinSegments (second :: rest)) :=
            join_name_slash hroot hfirst (isAbsolute_joinSegments hrest hmore)
        _ = descend (join root first) (second :: rest) :=
            ih (join_ne_empty hroot hfirst) hrest hmore
        _ = descend root (first :: second :: rest) := rfl

/-! ## Extensions -/

/-- **A file of the language** has a name that ends in its extension, after at least one more
character. -/
theorem extension?_eq_go_iff {path name : String} (h : fileName? path = some name) :
    extension? path = some "go" ↔ ∃ stem, stem ≠ [] ∧ name.toList = stem ++ ['.', 'g', 'o'] := by
  rw [extension?, h]
  dsimp only
  constructor
  · intro hgo
    split at hgo
    · next hlength =>
      have hafter : name.toList.reverse.takeWhile (· != '.') = ['o', 'g'] := by
        have htext := congrArg String.toList (Option.some.inj hgo)
        rw [String.toList_ofList] at htext
        exact List.reverse_injective htext
      rw [hafter] at hlength
      -- the character before the extension is the dot, and it is not the first one
      obtain ⟨before, hbefore⟩ : ∃ before, name.toList.reverse = 'o' :: 'g' :: before :=
        ⟨_, by rw [← List.takeWhile_append_dropWhile (l := name.toList.reverse), hafter]; rfl⟩
      have hcount := congrArg List.length hbefore
      simp only [List.length_reverse, List.length_cons, List.length_nil] at hcount hlength
      obtain ⟨dot, stem, rfl⟩ : ∃ dot stem, before = dot :: stem :=
        List.exists_cons_of_length_pos (by omega)
      have hdot : dot = '.' := by
        rw [hbefore] at hafter
        simpa [List.takeWhile_cons] using hafter
      rw [List.length_cons] at hcount
      refine ⟨stem.reverse, List.reverse_ne_nil_iff.2 (List.ne_nil_of_length_pos (by omega)), ?_⟩
      rw [← List.reverse_reverse name.toList, hbefore, hdot]
      simp
    · cases hgo
  · rintro ⟨stem, hstem, hname⟩
    have hreverse : name.toList.reverse = 'o' :: 'g' :: '.' :: stem.reverse := by
      rw [hname, List.reverse_append]
      rfl
    have hafter : name.toList.reverse.takeWhile (· != '.') = ['o', 'g'] := by
      rw [hreverse]
      rfl
    have hlength := List.length_pos_iff.2 hstem
    rw [hafter, hname, if_pos]
    · rfl
    · simp only [List.length_append, List.length_cons, List.length_nil]
      omega

/-! ## Order -/

section

variable {a b c : Component}

theorem Component.before_irrefl (a : Component) : a.before a = false := by
  cases a <;> simp [before, rank]

theorem Component.before_trans (hab : a.before b) (hbc : b.before c) : a.before c := by
  rcases a with _ | _ | _ | x <;> rcases b with _ | _ | _ | y <;> rcases c with _ | _ | _ | z
  case normal.normal.normal =>
    exact decide_eq_true (String.lt_trans (of_decide_eq_true hab) (of_decide_eq_true hbc))
  all_goals simp_all [before, rank]

/-- Two components are the same or one is before the other. -/
theorem Component.before_or_eq_or_before (a b : Component) :
    a.before b ∨ a = b ∨ b.before a := by
  rcases a with _ | _ | _ | x <;> rcases b with _ | _ | _ | y
  case normal.normal =>
    by_cases hxy : x < y
    · exact .inl (decide_eq_true hxy)
    · by_cases hyx : y < x
      · exact .inr (.inr (decide_eq_true hyx))
      · exact .inr (.inl (congrArg _ (String.le_antisymm (String.not_lt.1 hyx)
          (String.not_lt.1 hxy))))
  all_goals simp [before, rank]

end

section

variable {as bs cs : List Component}

/-- Of two paths one precedes the other. -/
theorem componentsPrecede_total (as bs : List Component) :
    componentsPrecede as bs ∨ componentsPrecede bs as := by
  induction as generalizing bs with
  | nil => exact .inl (by rw [componentsPrecede])
  | cons a as ih =>
    cases bs with
    | nil => exact .inr (by rw [componentsPrecede])
    | cons b bs =>
      rw [componentsPrecede, componentsPrecede]
      rcases a.before_or_eq_or_before b with hab | rfl | hba
      · exact .inl (by rw [hab]; rfl)
      · simpa [Component.before_irrefl] using ih bs
      · exact .inr (by rw [hba]; rfl)

/-- Preceding is transitive. -/
theorem componentsPrecede_trans (hab : componentsPrecede as bs) (hbc : componentsPrecede bs cs) :
    componentsPrecede as cs := by
  induction as generalizing bs cs with
  | nil => rw [componentsPrecede]
  | cons a as ih =>
    cases bs with
    | nil => rw [componentsPrecede] at hab; cases hab
    | cons b bs =>
      cases cs with
      | nil => rw [componentsPrecede] at hbc; cases hbc
      | cons c cs =>
        simp only [componentsPrecede, Bool.or_eq_true, Bool.and_eq_true, beq_iff_eq] at hab hbc ⊢
        rcases hab with hab | ⟨rfl, hab⟩
        · rcases hbc with hbc | ⟨rfl, -⟩
          · exact .inl (Component.before_trans hab hbc)
          · exact .inl hab
        · rcases hbc with hbc | ⟨rfl, hbc⟩
          · exact .inl hbc
          · exact .inr ⟨rfl, ih hab hbc⟩

/-- Paths that precede each other mean the same. -/
theorem eq_of_componentsPrecede (hab : componentsPrecede as bs) (hba : componentsPrecede bs as) :
    as = bs := by
  induction as generalizing bs with
  | nil =>
    cases bs with
    | nil => rfl
    | cons b bs => rw [componentsPrecede] at hba; cases hba
  | cons a as ih =>
    cases bs with
    | nil => rw [componentsPrecede] at hab; cases hab
    | cons b bs =>
      simp only [componentsPrecede, Bool.or_eq_true, Bool.and_eq_true, beq_iff_eq] at hab hba
      rcases hab with hab | ⟨rfl, hab⟩
      · rcases hba with hba | ⟨rfl, -⟩
        · have hself := Component.before_trans hab hba
          rw [Component.before_irrefl] at hself
          cases hself
        · rw [Component.before_irrefl] at hab
          cases hab
      · rcases hba with hba | ⟨-, hba⟩
        · rw [Component.before_irrefl] at hba
          cases hba
        · rw [ih hab hba]

end

theorem precedes_total (a b : String) : precedes a b || precedes b a := by
  rw [Bool.or_eq_true]
  exact componentsPrecede_total (components a) (components b)

theorem precedes_trans (a b c : String) (hab : precedes a b) (hbc : precedes b c) :
    precedes a c :=
  componentsPrecede_trans hab hbc

end GoOutline.Path
