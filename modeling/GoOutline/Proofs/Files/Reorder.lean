import GoOutline.Proofs.Files.Walk
import Mathlib.Data.Option.Basic

/-!
# Directories listed in another order

The order in which directories list their entries makes no difference to what is where: every path
leads to the same place, and a walk meets the same obstacles and the same files.

## Main definitions

* `Entry.Reordered`, `FileTree.Reordered`: the same entries, listed in another order

## Main results

* `FileTree.Reordered.resolveFrom`: paths lead to the same places
* `FileTree.Reordered.obstructed`, `FileTree.Reordered.holds`: what a walk meets
-/

namespace GoOutline

namespace Entry

/-- The same entry, with what is in it listed in another order. -/
inductive Reordered : Entry → Entry → Prop
  | file (content : List UInt8) : Reordered (.file content) (.file content)
  | link (target : String) : Reordered (.link target) (.link target)
  | directory {entries entries' : List (String × Entry)}
      (hnames : (entries.map (·.1)).Perm (entries'.map (·.1)))
      (h : ∀ name e e', (name, e) ∈ entries → (name, e') ∈ entries' → Reordered e e') :
      Reordered (.directory entries) (.directory entries')

theorem Reordered.symm {e e' : Entry} (h : Reordered e e') : Reordered e' e := by
  induction h with
  | file content => exact .file content
  | link target => exact .link target
  | directory hnames _ ih =>
    exact .directory hnames.symm fun name e e' he he' => ih name e' e he' he

theorem Reordered.exists_mem {entries entries' : List (String × Entry)}
    (h : Reordered (.directory entries) (.directory entries')) {name : String} {e : Entry}
    (he : (name, e) ∈ entries) : ∃ e', (name, e') ∈ entries' ∧ Reordered e e' := by
  cases h with
  | directory hnames h =>
    have hname : name ∈ entries'.map (·.1) :=
      hnames.mem_iff.1 (List.mem_map.2 ⟨(name, e), he, rfl⟩)
    obtain ⟨⟨_, e'⟩, he', rfl⟩ := List.mem_map.1 hname
    exact ⟨e', he', h _ e e' he he'⟩

section

variable {e e' : Entry}

theorem Reordered.lookup {entries entries' : List (String × Entry)}
    (h : Reordered (.directory entries) (.directory entries'))
    (hentries : (Entry.directory entries).IsSound) (hentries' : (Entry.directory entries').IsSound)
    (name : String) : Option.Rel Reordered (entries.lookup name) (entries'.lookup name) := by
  cases hlookup : entries.lookup name with
  | some e =>
    obtain ⟨e', he', hreordered⟩ := h.exists_mem (mem_of_lookup hlookup)
    rw [lookup_of_mem (isSound_directory.1 hentries').1 he']
    exact .some hreordered
  | none =>
    cases hlookup' : entries'.lookup name with
    | none => exact .none
    | some e' =>
      obtain ⟨e, he, -⟩ := h.symm.exists_mem (mem_of_lookup hlookup')
      rw [lookup_of_mem (isSound_directory.1 hentries).1 he] at hlookup
      cases hlookup

/-- The same place holds the same entry. -/
theorem Reordered.descend? (h : Reordered e e') (he : e.IsSound) (he' : e'.IsSound)
    (place : FileTree.Place) : Option.Rel Reordered (e.descend? place) (e'.descend? place) := by
  induction place generalizing e e' with
  | nil =>
    rw [Entry.descend?, Entry.descend?]
    exact .some h
  | cons name rest ih =>
    rw [Entry.descend?, Entry.descend?]
    cases h with
    | file content => exact .none
    | link target => exact .none
    | @directory entries entries' hnames h =>
      have hlookup := Reordered.lookup (.directory hnames h) he he' name
      simp only [entries?, Option.bind_eq_bind, Option.bind_some]
      cases hbelow : entries.lookup name with
      | none =>
        cases hbelow' : entries'.lookup name with
        | none => exact .none
        | some below' => rw [hbelow, hbelow'] at hlookup; cases hlookup
      | some below =>
        cases hbelow' : entries'.lookup name with
        | none => rw [hbelow, hbelow'] at hlookup; cases hlookup
        | some below' =>
          rw [hbelow, hbelow'] at hlookup
          cases hlookup with
          | some hreordered =>
            exact ih hreordered ((isSound_directory.1 he).2.of_mem (mem_of_lookup hbelow)).2
              ((isSound_directory.1 he').2.of_mem (mem_of_lookup hbelow')).2

end

end Entry

namespace FileTree

/-- **The same file system**, with its directories listed in another order. -/
structure Reordered (t t' : FileTree) : Prop where
  workingDirectory_eq : t.workingDirectory = t'.workingDirectory
  root : (Entry.directory t.root).Reordered (.directory t'.root)

namespace Reordered

variable {t t' : FileTree}

theorem symm (h : Reordered t t') : Reordered t' t := ⟨h.workingDirectory_eq.symm, h.root.symm⟩

/-- A link is listed as the same link. -/
theorem lookup_link {entries entries' : List (String × Entry)} {name target : String}
    (h : Option.Rel Entry.Reordered (entries.lookup name) (entries'.lookup name))
    (htarget : entries.lookup name = some (.link target)) :
    entries'.lookup name = some (.link target) := by
  rw [htarget] at h
  generalize entries'.lookup name = found at h
  cases h with
  | some hreordered =>
    cases hreordered
    rfl

/-- What is no link is listed as none. -/
theorem lookup_other {entries entries' : List (String × Entry)} {name : String} {e : Entry}
    (h : Option.Rel Entry.Reordered (entries.lookup name) (entries'.lookup name))
    (he : entries.lookup name = some e) (hlink : ∀ target, e = .link target → False) :
    ∃ e', entries'.lookup name = some e' ∧ ∀ target, e' = .link target → False := by
  rw [he] at h
  generalize entries'.lookup name = found at h
  cases h with
  | @some _ e' hreordered =>
    refine ⟨e', rfl, ?_⟩
    rintro target rfl
    cases hreordered
    exact hlink target rfl

section

variable (h : Reordered t t') (ht : t.IsSound) (ht' : t'.IsSound)

include h ht ht'

theorem at? (place : Place) : Option.Rel Entry.Reordered (t.at? place) (t'.at? place) :=
  h.root.descend? ht ht' place

/-- What is no directory is none in both. -/
theorem entries?_eq_none {here : Place} (hnone : (t.at? here).bind Entry.entries? = none) :
    (t'.at? here).bind Entry.entries? = none := by
  have hat := h.at? ht ht' here
  revert hnone
  generalize t.at? here = found at hat
  generalize t'.at? here = found' at hat
  cases hat with
  | none => exact id
  | some hreordered => cases hreordered <;> simp [Entry.entries?]

/-- The same names are found in a directory. -/
theorem exists_entries? {here : Place} {entries : List (String × Entry)}
    (hhere : (t.at? here).bind Entry.entries? = some entries) :
    ∃ entries', (t'.at? here).bind Entry.entries? = some entries' ∧
      ∀ name, Option.Rel Entry.Reordered (entries.lookup name) (entries'.lookup name) := by
  have hat := h.at? ht ht' here
  cases he : t.at? here with
  | none => rw [he] at hhere; cases hhere
  | some e =>
    cases he' : t'.at? here with
    | none => rw [he, he'] at hat; cases hat
    | some e' =>
      rw [he, he'] at hat
      rw [he, Option.bind_some] at hhere
      cases hat with
      | some hreordered =>
        cases hreordered with
        | file content => cases hhere
        | link target => cases hhere
        | @directory entries₀ entries' hnames hentries =>
          cases hhere
          refine ⟨entries', rfl, ?_⟩
          exact Entry.Reordered.lookup (.directory hnames hentries)
            (Entry.IsSound.descend? ht he) (Entry.IsSound.descend? ht' he')

/-- **Paths lead to the same places.** -/
theorem resolveFrom (followLast : Bool) (links : Nat) (here : Place) (segments : List String) :
    t.resolveFrom followLast links here segments =
      t'.resolveFrom followLast links here segments := by
  -- one case for each way to go on from `here`: which one it is hangs on what is found under a
  -- name, and that is the same in both
  induction links, here, segments using FileTree.resolveFrom.induct t followLast with
  | case1 links here => rw [FileTree.resolveFrom, FileTree.resolveFrom]
  | case2 links here segment rest hnone =>
    rw [resolveFrom_of_not_directory hnone,
      resolveFrom_of_not_directory (h.entries?_eq_none ht ht' hnone)]
  | case3 links here segment rest entries hhere hidle ih =>
    obtain ⟨entries', hhere', -⟩ := h.exists_entries? ht ht' hhere
    rw [resolveFrom_stay hhere hidle, resolveFrom_stay hhere' hidle, ih]
  | case4 links here segment rest entries hhere hidle hup ih =>
    obtain ⟨entries', hhere', -⟩ := h.exists_entries? ht ht' hhere
    rw [resolveFrom_up hhere hidle hup, resolveFrom_up hhere' hidle hup, ih]
  | case5 links here segment rest entries hhere hidle hup hlong =>
    obtain ⟨entries', hhere', -⟩ := h.exists_entries? ht ht' hhere
    rw [resolveFrom_of_long hhere hidle hup hlong, resolveFrom_of_long hhere' hidle hup hlong]
  | case6 links here segment rest entries hhere hidle hup hlong hmissing =>
    obtain ⟨entries', hhere', hnames⟩ := h.exists_entries? ht ht' hhere
    have hmissing' : entries'.lookup segment = none := by
      have hname := hnames segment
      rw [hmissing] at hname
      generalize entries'.lookup segment = found at hname
      cases hname
      rfl
    rw [resolveFrom_of_missing hhere hidle hup hlong hmissing,
      resolveFrom_of_missing hhere' hidle hup hlong hmissing']
  | case7 links here segment rest entries hhere hidle hup hlong target htarget hlast =>
    obtain ⟨entries', hhere', hnames⟩ := h.exists_entries? ht ht' hhere
    have htarget' := lookup_link (hnames segment) htarget
    rw [resolveFrom_last_link hhere hidle hup hlong htarget hlast,
      resolveFrom_last_link hhere' hidle hup hlong htarget' hlast]
  | case8 here segment rest entries hhere hidle hup hlong target htarget hlast =>
    obtain ⟨entries', hhere', hnames⟩ := h.exists_entries? ht ht' hhere
    have htarget' := lookup_link (hnames segment) htarget
    rw [resolveFrom_of_no_links hhere hidle hup hlong htarget hlast,
      resolveFrom_of_no_links hhere' hidle hup hlong htarget' hlast]
  | case9 here segment rest entries hhere hidle hup hlong target htarget hlast links start ih =>
    obtain ⟨entries', hhere', hnames⟩ := h.exists_entries? ht ht' hhere
    have htarget' := lookup_link (hnames segment) htarget
    rw [resolveFrom_link hhere hidle hup hlong htarget hlast,
      resolveFrom_link hhere' hidle hup hlong htarget' hlast]
    exact ih
  | case10 links here segment rest entries hhere hidle hup hlong found hfound hlookup ih =>
    obtain ⟨entries', hhere', hnames⟩ := h.exists_entries? ht ht' hhere
    obtain ⟨found', hlookup', hfound'⟩ := lookup_other (hnames segment) hlookup hfound
    rw [resolveFrom_down hhere hidle hup hlong hlookup hfound,
      resolveFrom_down hhere' hidle hup hlong hlookup' hfound', ih]

/-- A path is looked up with the same outcome, up to the order of what is found. -/
theorem lookUp (followLast : Bool) (path : String) :
    (∃ e, t.lookUp followLast path = .error e ∧ t'.lookUp followLast path = .error e) ∨
    ∃ place e e', t.lookUp followLast path = .ok (place, e) ∧
      t'.lookUp followLast path = .ok (place, e') ∧ e.Reordered e' := by
  have hresolve : t.resolve followLast path = t'.resolve followLast path := by
    rw [resolve, resolve, h.resolveFrom ht ht', h.workingDirectory_eq]
  rw [FileTree.lookUp, FileTree.lookUp, hresolve]
  cases t'.resolve followLast path with
  | error error => exact .inl ⟨error, rfl, rfl⟩
  | ok place =>
    have hat := h.at? ht ht' place
    dsimp only
    generalize t.at? place = found at hat
    generalize t'.at? place = found' at hat
    cases hat with
    | none => exact .inl ⟨.notFound, rfl, rfl⟩
    | @some e e' hreordered => exact .inr ⟨place, e, e', rfl, rfl, hreordered⟩

theorem lookUp_eq_error {followLast : Bool} {path : String} {e : FileError}
    (he : t.lookUp followLast path = .error e) : t'.lookUp followLast path = .error e := by
  rcases h.lookUp ht ht' followLast path with ⟨e', he', hsame⟩ | ⟨place, _, _, hok, -⟩
  · cases he.symm.trans he'
    exact hsame
  · cases he.symm.trans hok

theorem exists_lookUp_eq_ok {followLast : Bool} {path : String} {place : Place} {e : Entry}
    (he : t.lookUp followLast path = .ok (place, e)) :
    ∃ e', t'.lookUp followLast path = .ok (place, e') ∧ e.Reordered e' := by
  rcases h.lookUp ht ht' followLast path with ⟨_, he', -⟩ | ⟨_, _, e', hok, hok', hreordered⟩
  · cases he.symm.trans he'
  · cases he.symm.trans hok
    exact ⟨e', hok', hreordered⟩

theorem exists_stat_directory {path : String} {place : Place} {entries : List (String × Entry)}
    (hopen : t.stat path = .ok (place, .directory entries)) :
    ∃ entries', t'.stat path = .ok (place, .directory entries') ∧
      (Entry.directory entries).Reordered (.directory entries') := by
  obtain ⟨e', hopen', hreordered⟩ := h.exists_lookUp_eq_ok ht ht' hopen
  cases e' with
  | file content => cases hreordered
  | link target => cases hreordered
  | directory entries' => exact ⟨entries', hopen', hreordered⟩

variable {root : String} {names : List String} {e : Entry}

/-- By induction on the way from the root: each directory on it is opened in both. -/
theorem exists_listed (hlisted : Listed t root names e) :
    ∃ e', Listed t' root names e' ∧ e.Reordered e' := by
  induction hlisted with
  | root hroot =>
    obtain ⟨e', hroot', hreordered⟩ := h.exists_lookUp_eq_ok ht ht' hroot
    exact ⟨e', .root hroot', hreordered⟩
  | entry _ hopen he ih =>
    obtain ⟨d', hlisted', -⟩ := ih
    obtain ⟨entries', hopen', hentries⟩ := h.exists_stat_directory ht ht' hopen
    obtain ⟨e', he', hreordered⟩ := hentries.exists_mem he
    exact ⟨e', .entry hlisted' hopen' he', hreordered⟩

theorem obstructs (hobstructs : Obstructs t root names e) {e' : Entry} (he : e.Reordered e') :
    Obstructs t' root names e' := by
  cases hobstructs with
  | broken hbroken =>
    cases he
    exact .broken (h.lookUp_eq_error ht ht' hbroken)
  | loop hback hfront hlink =>
    cases he
    obtain ⟨_, hfront', -⟩ := h.exists_stat_directory ht ht' hfront
    obtain ⟨_, hlink', -⟩ := h.exists_stat_directory ht ht' hlink
    exact .loop hback hfront' hlink'
  | tooLong hlast hlong =>
    cases he
    exact .tooLong hlast hlong

/-- **A walk meets the same obstacles.** -/
theorem obstructed (hobstructed : Obstructed t root) : Obstructed t' root := by
  obtain ⟨names, e, ⟨hlisted, hentered⟩, hobstructs⟩ := hobstructed
  obtain ⟨e', hlisted', hreordered⟩ := h.exists_listed ht ht' hlisted
  exact ⟨names, e', ⟨hlisted', hentered⟩, h.obstructs ht ht' hobstructs hreordered⟩

/-- **The same files are below a root.** -/
theorem holds (hholds : Holds t root names) : Holds t' root names := by
  obtain ⟨e, hlisted, hregular⟩ := hholds
  obtain ⟨e', hlisted', hreordered⟩ := h.exists_listed ht ht' hlisted
  refine ⟨e', hlisted', ?_⟩
  rcases hregular with ⟨content, rfl⟩ | ⟨⟨target, rfl⟩, place, content, hstat⟩
  · cases hreordered
    exact .inl ⟨content, rfl⟩
  · obtain ⟨found', hstat', hfound⟩ := h.exists_lookUp_eq_ok ht ht' hstat
    cases hreordered
    cases hfound
    exact .inr ⟨⟨target, rfl⟩, place, content, hstat'⟩

end

end Reordered

end FileTree

end GoOutline
