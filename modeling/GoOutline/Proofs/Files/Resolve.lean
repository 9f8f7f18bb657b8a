import GoOutline.Files.Tree
import GoOutline.Proofs.Files.Path

/-!
# Where paths lead

A path is resolved from left to right, so what a longer path leads to depends on the shorter one
only through the place that this leads to. In a file system, whose directories hold proper names,
each once, an entry of a directory is found under the path of the directory and its name, unless
that is too long to be looked up.

## Main definitions

* `IsEntryName`: what a directory can hold as a name
* `FileTree.IsSound`: every directory holds proper names, each once

## Main results

* `FileTree.goesOn_resolveFrom`: a longer path goes on where the shorter one leads
* `FileTree.stat_join`: an entry under the path of its directory and its name
* `FileTree.stat_of_linkStat`: what is no link is found with links followed, too
-/

namespace GoOutline

/-- What a directory can hold as a name. -/
structure IsEntryName (name : String) : Prop extends Path.IsName name where
  no_zero : '\x00' ∉ name.toList
  short : FileTree.byteLength name ≤ FileTree.maxName

namespace Entry

mutual

/-- Every directory at or below an entry holds proper names, each once. -/
def IsSound : Entry → Prop
  | .directory entries => (entries.map (·.1)).Nodup ∧ AllSound entries
  | _ => True

/-- The entries have proper names, and every directory below them holds such names, each once. -/
def AllSound : List (String × Entry) → Prop
  | [] => True
  | (name, e) :: rest => IsEntryName name ∧ IsSound e ∧ AllSound rest

end

/-- A directory is sound when its names differ and everything in it is sound. -/
theorem isSound_directory {entries : List (String × Entry)} :
    (directory entries).IsSound ↔ (entries.map (·.1)).Nodup ∧ AllSound entries := by
  rw [IsSound]

theorem AllSound.of_mem {entries : List (String × Entry)} (h : AllSound entries)
    {name : String} {e : Entry} (he : (name, e) ∈ entries) : IsEntryName name ∧ e.IsSound := by
  induction entries with
  | nil => cases he
  | cons m rest ih =>
    obtain ⟨k, d⟩ := m
    rw [AllSound] at h
    rcases List.mem_cons.1 he with heq | he
    · cases heq
      exact ⟨h.1, h.2.1⟩
    · exact ih h.2.2 he

/-- What is found under a name is an entry. -/
theorem mem_of_lookup {entries : List (String × Entry)} {name : String} {e : Entry}
    (h : entries.lookup name = some e) : (name, e) ∈ entries := by
  obtain ⟨before, after, rfl, -⟩ := List.lookup_eq_some_iff.1 h
  exact List.mem_append_right _ List.mem_cons_self

/-- In a list of distinct names, an entry is found under its name. -/
theorem lookup_of_mem {entries : List (String × Entry)} (hnames : (entries.map (·.1)).Nodup)
    {name : String} {e : Entry} (h : (name, e) ∈ entries) : entries.lookup name = some e := by
  induction entries with
  | nil => cases h
  | cons m rest ih =>
    obtain ⟨k, d⟩ := m
    obtain ⟨hk, hrest⟩ := List.nodup_cons.1 hnames
    rcases List.mem_cons.1 h with heq | hmem
    · cases heq
      exact List.lookup_cons_self
    · have hne : name ≠ k := by
        rintro rfl
        exact hk (List.mem_map.2 ⟨(name, e), hmem, rfl⟩)
      rw [List.lookup_cons, beq_eq_false_iff_ne.2 hne]
      exact ih hrest hmem

/-- The last step of a descent is a look into a directory. -/
theorem descend?_concat (e : Entry) (place : FileTree.Place) (name : String) :
    e.descend? (place ++ [name]) =
      ((e.descend? place).bind entries?).bind (List.lookup name) := by
  induction place generalizing e with
  | nil =>
    rw [List.nil_append, descend?, descend?, Option.bind_some]
    cases e.entries? with
    | none => rfl
    | some entries =>
      cases hbelow : entries.lookup name with
      | none => simp [hbelow]
      | some below => simp [hbelow, descend?]
  | cons first rest ih =>
    rw [List.cons_append, descend?, descend?]
    cases e.entries? with
    | none => rfl
    | some entries =>
      cases hbelow : entries.lookup first with
      | none => simp [hbelow]
      | some below => simpa [hbelow] using ih below

/-- Everything in a sound tree is sound. -/
theorem IsSound.descend? {e e' : Entry} (h : e.IsSound) {place : FileTree.Place}
    (he : e.descend? place = some e') : e'.IsSound := by
  induction place generalizing e with
  | nil =>
    rw [Entry.descend?] at he
    cases he
    exact h
  | cons name rest ih =>
    rw [Entry.descend?] at he
    cases e with
    | file content => cases he
    | link target => cases he
    | directory entries =>
      cases hbelow : entries.lookup name with
      | none => simp [entries?, hbelow] at he
      | some below =>
        have he' : below.descend? rest = some e' := by simpa [entries?, hbelow] using he
        exact ih ((isSound_directory.1 h).2.of_mem (mem_of_lookup hbelow)).2 he'

/-! ## Places -/

mutual

/-- The places at and below an entry. -/
def places : Entry → List FileTree.Place
  | .directory entries => [] :: placesAll entries
  | _ => [[]]

/-- The places at and below some entries. -/
def placesAll : List (String × Entry) → List FileTree.Place
  | [] => []
  | (name, e) :: rest => (places e).map (name :: ·) ++ placesAll rest

end

mutual

/-- A tree has as many places as entries. -/
theorem length_places : (e : Entry) → e.places.length = e.size
  | .file _ => by rw [places, size]; all_goals simp
  | .link _ => by rw [places, size]; all_goals simp
  | .directory entries => by rw [places, size, List.length_cons, length_placesAll entries]

theorem length_placesAll : (entries : List (String × Entry)) →
    (placesAll entries).length = sizeAll entries
  | [] => by rw [placesAll, sizeAll, List.length_nil]
  | (name, e) :: rest => by
    rw [placesAll, sizeAll, List.length_append, List.length_map, length_places e,
      length_placesAll rest]

end

theorem size_pos (e : Entry) : 0 < e.size := by
  cases e with
  | file content => rw [size]; all_goals simp
  | link target => rw [size]; all_goals simp
  | directory entries => rw [size]; omega

/-- An entry is no larger than the directory it is in. -/
theorem size_le_sizeAll {entries : List (String × Entry)} {name : String} {e : Entry}
    (h : (name, e) ∈ entries) : e.size ≤ sizeAll entries := by
  induction entries with
  | nil => cases h
  | cons m rest ih =>
    obtain ⟨k, d⟩ := m
    rw [sizeAll]
    rcases List.mem_cons.1 h with heq | h
    · cases heq
      omega
    · have hrest := ih h
      omega

theorem mem_placesAll {entries : List (String × Entry)} {name : String} {e : Entry}
    (h : (name, e) ∈ entries) {place : FileTree.Place} (hplace : place ∈ e.places) :
    name :: place ∈ placesAll entries := by
  induction entries with
  | nil => cases h
  | cons m rest ih =>
    rw [placesAll, List.mem_append]
    rcases List.mem_cons.1 h with rfl | h
    · exact .inl (List.mem_map_of_mem hplace)
    · exact .inr (ih h)

/-- An entry below another is at one of its places, and not deeper than there are entries. -/
theorem mem_places_of_descend? {e e' : Entry} {place : FileTree.Place}
    (h : e.descend? place = some e') : place ∈ e.places ∧ place.length < e.size := by
  induction place generalizing e with
  | nil =>
    refine ⟨?_, size_pos e⟩
    cases e <;> simp [places]
  | cons name rest ih =>
    cases e with
    | file content => cases h
    | link target => cases h
    | directory entries =>
      rw [descend?] at h
      cases hbelow : entries.lookup name with
      | none => simp [entries?, hbelow] at h
      | some below =>
        have h' : below.descend? rest = some e' := by simpa [entries?, hbelow] using h
        obtain ⟨hmem, hlength⟩ := ih h'
        have hsize := size_le_sizeAll (mem_of_lookup hbelow)
        rw [places, size, List.length_cons]
        exact ⟨List.mem_cons_of_mem _ (mem_placesAll (mem_of_lookup hbelow) hmem), by omega⟩

end Entry

namespace FileTree

/-- **A file system**: every directory holds proper names, each once. -/
def IsSound (t : FileTree) : Prop := (Entry.directory t.root).IsSound

section

variable {t : FileTree} {place : Place} {entries : List (String × Entry)} {name : String}
  {e : Entry}

theorem IsSound.directory (h : t.IsSound) (hplace : t.at? place = some (.directory entries)) :
    (entries.map (·.1)).Nodup ∧ Entry.AllSound entries :=
  Entry.isSound_directory.1 (Entry.IsSound.descend? h hplace)

/-- Names in a sound tree are names of entries. -/
theorem IsSound.isEntryName (h : t.IsSound) (hplace : t.at? place = some (.directory entries))
    (he : (name, e) ∈ entries) : IsEntryName name :=
  ((h.directory hplace).2.of_mem he).1

/-- What is at the end of a path is found in the directory before it. -/
theorem at?_concat (t : FileTree) (place : Place) (name : String) :
    t.at? (place ++ [name]) = ((t.at? place).bind Entry.entries?).bind (List.lookup name) :=
  Entry.descend?_concat _ _ _

theorem IsSound.at?_concat (h : t.IsSound) (hplace : t.at? place = some (.directory entries))
    (he : (name, e) ∈ entries) : t.at? (place ++ [name]) = some e := by
  rw [FileTree.at?_concat, hplace]
  exact Entry.lookup_of_mem (h.directory hplace).1 he

end

/-! ## Steps of a resolution -/

section

variable {t : FileTree} {followLast : Bool} {links : Nat} {here : Place} {segment : String}
  {rest : List String}

/-- Nothing is found in what is no directory. -/
theorem resolveFrom_of_not_directory (hhere : (t.at? here).bind Entry.entries? = none) :
    t.resolveFrom followLast links here (segment :: rest) = .error .notDirectory := by
  rw [resolveFrom, hhere]

variable {entries : List (String × Entry)}
  (hhere : (t.at? here).bind Entry.entries? = some entries)

include hhere

/-- Empty segments and dots lead nowhere else. -/
theorem resolveFrom_stay (hidle : segment == "" || segment == ".") :
    t.resolveFrom followLast links here (segment :: rest) =
      t.resolveFrom followLast links here rest := by
  rw [resolveFrom, hhere]
  exact if_pos hidle

variable (hidle : ¬ (segment == "" || segment == "."))

include hidle

/-- Two dots lead to the directory above. -/
theorem resolveFrom_up (hup : segment == "..") :
    t.resolveFrom followLast links here (segment :: rest) =
      t.resolveFrom followLast links here.dropLast rest := by
  rw [resolveFrom, hhere]
  exact (if_neg hidle).trans (if_pos hup)

variable (hup : ¬ (segment == ".."))

include hup

theorem resolveFrom_of_long (hlong : maxName < byteLength segment) :
    t.resolveFrom followLast links here (segment :: rest) = .error .nameTooLong := by
  rw [resolveFrom, hhere]
  exact (if_neg hidle).trans ((if_neg hup).trans (if_pos hlong))

variable (hlong : ¬ maxName < byteLength segment)

include hlong

theorem resolveFrom_of_missing (hmissing : entries.lookup segment = none) :
    t.resolveFrom followLast links here (segment :: rest) = .error .notFound := by
  rw [resolveFrom, hhere]
  dsimp only
  rw [if_neg hidle, if_neg hup, if_neg hlong, hmissing]

/-- A segment that names an entry of a directory goes down to it, unless it is a link. -/
theorem resolveFrom_down {e : Entry} (he : entries.lookup segment = some e)
    (hlink : ∀ target, e = .link target → False) :
    t.resolveFrom followLast links here (segment :: rest) =
      t.resolveFrom followLast links (here ++ [segment]) rest := by
  rw [resolveFrom, hhere]
  dsimp only
  rw [if_neg hidle, if_neg hup, if_neg hlong, he]
  cases e with
  | file content => rfl
  | directory entries => rfl
  | link target => exact (hlink target rfl).elim

variable {target : String} (hlink : entries.lookup segment = some (.link target))

include hlink

/-- A link in the last place is left alone. -/
theorem resolveFrom_last_link (hlast : rest.isEmpty && !followLast) :
    t.resolveFrom followLast links here (segment :: rest) = .ok (here ++ [segment]) := by
  rw [resolveFrom, hhere]
  dsimp only
  rw [if_neg hidle, if_neg hup, if_neg hlong, hlink]
  exact if_pos hlast

variable (hlast : ¬ (rest.isEmpty && !followLast))

include hlast

/-- No more links are followed than allowed. -/
theorem resolveFrom_of_no_links :
    t.resolveFrom followLast 0 here (segment :: rest) = .error .tooManyLinks := by
  rw [resolveFrom, hhere]
  dsimp only
  rw [if_neg hidle, if_neg hup, if_neg hlong, hlink]
  exact if_neg hlast

/-- Any other link is followed, and what it leads through comes first. -/
theorem resolveFrom_link :
    t.resolveFrom followLast (links + 1) here (segment :: rest) =
      t.resolveFrom followLast links (if Path.isAbsolute target then [] else here)
        (Path.segments target ++ rest) := by
  rw [resolveFrom, hhere]
  dsimp only
  rw [if_neg hidle, if_neg hup, if_neg hlong, hlink]
  exact if_neg hlast

end

/-! ## Resolution -/

/-- The segments lead to a place, from where any others go on, or fail whatever comes after them. -/
def GoesOn (t : FileTree) (links : Nat) (here : Place) (segments : List String) : Prop :=
  (∃ place left, t.resolveFrom true links here segments = .ok place ∧
    ∀ tail, t.resolveFrom true links here (segments ++ tail) =
      t.resolveFrom true left place tail) ∨
  ∃ e, ∀ tail, t.resolveFrom true links here (segments ++ tail) = .error e

section

variable {t : FileTree} {links : Nat} {here : Place} {segments : List String}

/-- A step that changes nothing about the rest of the way goes on as the way does. -/
theorem GoesOn.of_step {left : Nat} {place : Place} {more : List String}
    (hstep : ∀ tail, t.resolveFrom true links here (segments ++ tail) =
      t.resolveFrom true left place (more ++ tail)) (h : t.GoesOn left place more) :
    t.GoesOn links here segments := by
  rcases h with ⟨last, left', hlast, htail⟩ | ⟨e, he⟩
  · have hstart := hstep []
    rw [List.append_nil, List.append_nil] at hstart
    exact .inl ⟨last, left', hstart.trans hlast, fun tail => (hstep tail).trans (htail tail)⟩
  · exact .inr ⟨e, fun tail => (hstep tail).trans (he tail)⟩

/-- **A longer path goes on where the shorter one leads**, or both fail for one reason. -/
theorem goesOn_resolveFrom (t : FileTree) (links : Nat) (here : Place) (segments : List String) :
    t.GoesOn links here segments := by
  -- one case for each step of the resolution: it looks at the first segment only, and never at
  -- those that may follow
  induction links, here, segments using resolveFrom.induct t true with
  | case1 links here => exact .inl ⟨here, links, by rw [resolveFrom], fun tail => rfl⟩
  | case2 links here segment rest h =>
    exact .inr ⟨_, fun tail => resolveFrom_of_not_directory h⟩
  | case3 links here segment rest entries h hidle ih =>
    exact .of_step (fun tail => resolveFrom_stay h hidle) ih
  | case4 links here segment rest entries h hidle hup ih =>
    exact .of_step (fun tail => resolveFrom_up h hidle hup) ih
  | case5 links here segment rest entries h hidle hup hlong =>
    exact .inr ⟨_, fun tail => resolveFrom_of_long h hidle hup hlong⟩
  | case6 links here segment rest entries h hidle hup hlong hmissing =>
    exact .inr ⟨_, fun tail => resolveFrom_of_missing h hidle hup hlong hmissing⟩
  | case7 links here segment rest entries h hidle hup hlong target hlink hlast => simp at hlast
  | case8 here segment rest entries h hidle hup hlong target hlink hlast =>
    exact .inr ⟨_, fun tail => resolveFrom_of_no_links h hidle hup hlong hlink (by simp)⟩
  | case9 here segment rest entries h hidle hup hlong target hlink hlast links start ih =>
    refine .of_step (fun tail => ?_) ih
    rw [List.append_assoc]
    exact resolveFrom_link h hidle hup hlong hlink (by simp)
  | case10 links here segment rest entries h hidle hup hlong found hfound hlookup ih =>
    exact .of_step (fun tail => resolveFrom_down h hidle hup hlong hlookup hfound) ih

/-- Segments that stay in a directory lead to it. -/
theorem resolveFrom_idle {entries : List (String × Entry)}
    (hhere : t.at? here = some (.directory entries))
    (h : ∀ segment ∈ segments, segment = "" ∨ segment = ".") {followLast : Bool} :
    t.resolveFrom followLast links here segments = .ok here := by
  induction segments with
  | nil => rw [resolveFrom]
  | cons segment rest ih =>
    obtain ⟨hsegment, hrest⟩ := List.forall_mem_cons.1 h
    have hentries : (t.at? here).bind Entry.entries? = some entries := by rw [hhere]; rfl
    rw [resolveFrom_stay hentries (by simpa using hsegment)]
    exact ih hrest

/-- A name that is no link is gone down to. -/
theorem resolveFrom_name {entries : List (String × Entry)} {name : String} {e : Entry}
    (hhere : t.at? here = some (.directory entries)) (hname : IsEntryName name)
    (he : entries.lookup name = some e) (hlink : ∀ target, e ≠ .link target) (followLast : Bool)
    (rest : List String) :
    t.resolveFrom followLast links here (name :: rest) =
      t.resolveFrom followLast links (here ++ [name]) rest := by
  have hentries : (t.at? here).bind Entry.entries? = some entries := by rw [hhere]; rfl
  refine resolveFrom_down hentries ?_ ?_ (Nat.not_lt.2 hname.short) he hlink
  · simp [hname.ne_empty, hname.ne_dot]
  · simp [hname.ne_dots]

/-- One more name goes down from where the others lead. -/
theorem resolveFrom_concat {place : Place} {entries : List (String × Entry)} {name : String}
    {e : Entry} (h : t.resolveFrom true links here segments = .ok place)
    (hplace : t.at? place = some (.directory entries)) (hname : IsEntryName name)
    (he : entries.lookup name = some e) (hlink : ∀ target, e ≠ .link target) :
    t.resolveFrom true links here (segments ++ [name]) = .ok (place ++ [name]) := by
  rcases t.goesOn_resolveFrom links here segments with ⟨place', left, hplace', htail⟩ | ⟨e', he'⟩
  · cases hplace'.symm.trans h
    rw [htail, resolveFrom_name hplace hname he hlink, resolveFrom]
  · have herror := he' []
    rw [List.append_nil, h] at herror
    cases herror

theorem resolveFrom_of_concat_empty {place : Place}
    (h : t.resolveFrom true links here (segments ++ [""]) = .ok place) :
    t.resolveFrom true links here segments = .ok place := by
  rcases t.goesOn_resolveFrom links here segments with ⟨place', left, hplace', htail⟩ | ⟨e', he'⟩
  · rw [htail, resolveFrom] at h
    split at h
    · cases h
    · rw [if_pos (by simp), resolveFrom] at h
      rw [hplace', h]
  · rw [he'] at h
    cases h

end

/-! ## Paths -/

section

variable {t : FileTree} {followLast : Bool} {path : String} {place : Place} {e : Entry}

/-- A path can be resolved when it is no longer than allowed and its segments lead somewhere. -/
theorem resolve_eq_ok_iff :
    t.resolve followLast path = .ok place ↔
      '\x00' ∉ path.toList ∧ path ≠ "" ∧ byteLength path ≤ maxPath ∧
      t.resolveFrom followLast maxLinks
        (if Path.isAbsolute path then [] else t.workingDirectory) (Path.segments path) =
          .ok place := by
  rw [resolve]
  by_cases hzero : '\x00' ∈ path.toList
  · simp [hzero]
  · by_cases hempty : path = ""
    · simp [hempty]
    · by_cases hlong : maxPath < byteLength path
      · simp [hlong, hempty, hzero, Nat.not_le.2 hlong]
      · simp [hlong, hempty, hzero, Nat.not_lt.1 hlong]

/-- A look at a path finds what is at the place where it leads. -/
theorem lookUp_eq_ok_iff :
    t.lookUp followLast path = .ok (place, e) ↔
      t.resolve followLast path = .ok place ∧ t.at? place = some e := by
  rw [lookUp]
  cases hresolve : t.resolve followLast path with
  | error error => simp
  | ok place' =>
    dsimp only
    cases hplace : t.at? place' with
    | none =>
      simp only [reduceCtorEq, Except.ok.injEq, false_iff, not_and]
      rintro rfl
      rw [hplace]
      exact nofun
    | some e' =>
      simp only [Except.ok.injEq, Prod.mk.injEq]
      constructor
      · rintro ⟨rfl, rfl⟩
        exact ⟨rfl, hplace⟩
      · rintro ⟨rfl, he⟩
        exact ⟨rfl, Option.some.inj (hplace.symm.trans he)⟩

theorem at?_of_stat (h : t.stat path = .ok (place, e)) : t.at? place = some e :=
  (lookUp_eq_ok_iff.1 h).2

theorem ne_empty_of_lookUp (h : t.lookUp followLast path = .ok (place, e)) : path ≠ "" :=
  (resolve_eq_ok_iff.1 (lookUp_eq_ok_iff.1 h).1).2.1

theorem byteLength_le_of_lookUp (h : t.lookUp followLast path = .ok (place, e)) :
    byteLength path ≤ maxPath :=
  (resolve_eq_ok_iff.1 (lookUp_eq_ok_iff.1 h).1).2.2.1

/-- A path below another is longer. -/
theorem byteLength_lt_join {base name : String} (hbase : base ≠ "") (h : Path.IsName name) :
    byteLength base < byteLength (Path.join base name) := by
  have hpos : 0 < name.utf8ByteSize := by
    rw [Nat.pos_iff_ne_zero, Ne, String.utf8ByteSize_eq_zero_iff]
    exact h.ne_empty
  have hbase' : (base == "") = false := beq_eq_false_iff_ne.2 hbase
  rw [byteLength, byteLength, Path.join, h.isAbsolute, hbase', Bool.or_false,
    if_neg Bool.false_ne_true]
  split
  · rw [String.utf8ByteSize_append]
    omega
  · rw [String.utf8ByteSize_append, String.utf8ByteSize_append]
    omega

/-- A path that is too long cannot be looked up. -/
theorem exists_stat_error (h : maxPath < byteLength path) : ∃ e, t.stat path = .error e := by
  cases hstat : t.stat path with
  | error e => exact ⟨e, rfl⟩
  | ok found =>
    obtain ⟨place, e⟩ := found
    exact absurd (byteLength_le_of_lookUp hstat) (Nat.not_le.2 h)

/-- **An entry of a directory** is found under the path of the directory and its name, if that is
not too long. -/
theorem stat_join {entries : List (String × Entry)} {name : String} (ht : t.IsSound)
    (h : t.stat path = .ok (place, .directory entries)) (he : (name, e) ∈ entries)
    (hlink : ∀ target, e ≠ .link target) (hlong : byteLength (Path.join path name) ≤ maxPath) :
    t.stat (Path.join path name) = .ok (place ++ [name], e) := by
  obtain ⟨hresolve, hplace⟩ := lookUp_eq_ok_iff.1 h
  obtain ⟨hzero, hempty, -, hfrom⟩ := resolve_eq_ok_iff.1 hresolve
  have hname := ht.isEntryName hplace he
  have hlookup := Entry.lookup_of_mem (ht.directory hplace).1 he
  refine lookUp_eq_ok_iff.2 ⟨resolve_eq_ok_iff.2 ⟨?_, ?_, hlong, ?_⟩, ht.at?_concat hplace he⟩
  · exact Path.not_mem_join (by decide) hzero hname.no_zero
  · exact Path.join_ne_empty hempty hname.toIsName
  · obtain ⟨front, -, hsegments, hjoin⟩ := Path.exists_segments_join hempty hname.toIsName
    rw [Path.isAbsolute_join hempty hname.toIsName, hjoin]
    refine resolveFrom_concat ?_ hplace hname hlookup hlink
    rcases hsegments with hsegments | hsegments
    · rw [← hsegments]
      exact hfrom
    · rw [hsegments] at hfrom
      exact resolveFrom_of_concat_empty hfrom

/-- Where no link is at the end, it does not matter whether that would be followed. -/
theorem resolveFrom_of_not_link {links : Nat} {here : Place} {segments : List String}
    (h : t.resolveFrom false links here segments = .ok place) (hplace : t.at? place = some e)
    (hlink : ∀ target, e ≠ .link target) : t.resolveFrom true links here segments = .ok place := by
  -- the two ways to resolve a path part only where it ends in a link
  induction links, here, segments using resolveFrom.induct t false with
  | case1 links here => rw [resolveFrom] at h ⊢; exact h
  | case2 links here segment rest hnone => rw [resolveFrom_of_not_directory hnone] at h; cases h
  | case3 links here segment rest entries hhere hidle ih =>
    rw [resolveFrom_stay hhere hidle] at h ⊢
    exact ih h
  | case4 links here segment rest entries hhere hidle hup ih =>
    rw [resolveFrom_up hhere hidle hup] at h ⊢
    exact ih h
  | case5 links here segment rest entries hhere hidle hup hlong =>
    rw [resolveFrom_of_long hhere hidle hup hlong] at h
    cases h
  | case6 links here segment rest entries hhere hidle hup hlong hmissing =>
    rw [resolveFrom_of_missing hhere hidle hup hlong hmissing] at h
    cases h
  | case7 links here segment rest entries hhere hidle hup hlong target htarget hlast =>
    rw [resolveFrom_last_link hhere hidle hup hlong htarget hlast] at h
    rw [← Except.ok.inj h, FileTree.at?_concat, hhere, Option.bind_some, htarget] at hplace
    exact absurd (Option.some.inj hplace).symm (hlink target)
  | case8 here segment rest entries hhere hidle hup hlong target htarget hlast =>
    rw [resolveFrom_of_no_links hhere hidle hup hlong htarget hlast] at h
    cases h
  | case9 here segment rest entries hhere hidle hup hlong target htarget hlast links start ih =>
    rw [resolveFrom_link hhere hidle hup hlong htarget hlast] at h
    rw [resolveFrom_link hhere hidle hup hlong htarget (by simp)]
    exact ih h
  | case10 links here segment rest entries hhere hidle hup hlong found hfound hlookup ih =>
    rw [resolveFrom_down hhere hidle hup hlong hlookup hfound] at h ⊢
    exact ih h

/-- What is no link is found with links followed, too. -/
theorem stat_of_linkStat (h : t.linkStat path = .ok (place, e))
    (hlink : ∀ target, e ≠ .link target) : t.stat path = .ok (place, e) := by
  obtain ⟨hresolve, hplace⟩ := lookUp_eq_ok_iff.1 h
  obtain ⟨hzero, hempty, hlong, hfrom⟩ := resolve_eq_ok_iff.1 hresolve
  exact lookUp_eq_ok_iff.2 ⟨resolve_eq_ok_iff.2
    ⟨hzero, hempty, hlong, resolveFrom_of_not_link hfrom hplace hlink⟩, hplace⟩

end

end FileTree

end GoOutline
