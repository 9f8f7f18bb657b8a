import GoOutline.Proofs.Outline.Locations
import GoOutline.Proofs.Syntax.Parts
import Mathlib.Data.List.DropRight

/-!
# Imports

Every import specification of a source is reported, in the order of the text, with its local name
and its path. The path is a string literal, and what is reported of it is its text without the
double quotes at its ends: of an interpreted literal that is what stands between its quotes, unless
that ends in a quote as well, and a raw literal is left as it is.

## Main definitions

* `Lexeme.IsLiteral`: a string literal and its contents
* `unquoted`: a literal without the double quotes at its ends
* `Syntax.Node.importSpecsIn`: the import specifications of a tree
* `ReportsImport`: the record of an import specification

## Main results

* `Lexeme.exists_isLiteral_of_string?`: the literals that the grammar takes
* `toList_withoutQuotes`: what is left of a literal, and `unquoted_eq_iff` when that is its contents
* `importSpecs_of_allFit`: the specifications of a tree stand in its import declarations
* `reportsImports_of_parse`: the imports of an accepted source
* `not_forall_specifier_eq_contents`: a path that is reported with its quotes
-/

namespace GoOutline

open GoOutline.Syntax GoOutline.Text

/-! ## String literals -/

namespace Syntax.Lexeme

/-- A double quote stands behind a backslash. -/
def EscapesQuote (a b : Char) : Prop := b = '"' → a = '\\'

/-- A string literal of a kind, its contents and its text: a raw literal has no back quote in it,
and the double quotes in an interpreted literal are escaped. -/
inductive IsLiteral : Kind → List Char → List Char → Prop where
  | raw {contents : List Char} : rawQuote ∉ contents →
    IsLiteral .rawStringLiteral contents (rawQuote :: (contents ++ [rawQuote]))
  | interpreted {contents : List Char} : ('"' :: contents).IsChain EscapesQuote →
    IsLiteral .interpretedStringLiteral contents ('"' :: (contents ++ ['"']))

theorem IsLiteral.length_eq {kind : Kind} {contents text : List Char}
    (h : IsLiteral kind contents text) : text.length = contents.length + 2 := by
  cases h with
  | raw _ => simp
  | interpreted _ => simp

/-- The contents of a raw literal end with the first back quote. -/
theorem exists_take_eq_of_raw? {text : List Char} {n : Nat} (h : raw? text = some n) :
    ∃ contents, text.take n = contents ++ [rawQuote] ∧ rawQuote ∉ contents := by
  induction text generalizing n with
  | nil => cases h
  | cons c rest ih =>
    rw [raw?] at h
    split at h
    · next hc =>
      cases h
      rw [eq_of_beq hc]
      exact ⟨[], rfl, List.not_mem_nil⟩
    · next hc =>
      split at h
      · cases h
      · obtain ⟨m, hm, rfl⟩ := Option.map_eq_some_iff.1 h
        obtain ⟨contents, htake, hcontents⟩ := ih hm
        refine ⟨c :: contents, ?_, ?_⟩
        · rw [Nat.add_comm, List.take_succ_cons, htake]
          rfl
        · rw [List.mem_cons, not_or]
          exact ⟨fun heq => hc (beq_iff_eq.2 heq.symm), hcontents⟩

/-- Characters that are no quotes may stand behind any other. -/
theorem isChain_of_forall_ne {a : Char} {cs : List Char} (h : ∀ c ∈ cs, c ≠ '"') :
    (a :: cs).IsChain EscapesQuote := by
  induction cs generalizing a with
  | nil => exact List.isChain_singleton a
  | cons c rest ih =>
    obtain ⟨hc, hrest⟩ := List.forall_mem_cons.1 h
    exact List.isChain_cons_cons.2 ⟨fun heq => absurd heq hc, ih hrest⟩

/-- A hexadecimal digit is no quote. -/
theorem ne_quote_of_isHex {c : Char} (h : isHex c) : c ≠ '"' := by
  rintro rfl
  exact absurd h (by decide)

/-- What follows a backslash: a character, which may be a quote, or digits. -/
theorem isChain_escape? {text : List Char} {n : Nat} (h : escape? text = some n) :
    ('\\' :: text.take n).IsChain EscapesQuote := by
  have hdigits : ∀ (a : Char) (cs : List Char), a ≠ '"' → cs.all isHex →
      ('\\' :: a :: cs).IsChain EscapesQuote := by
    intro a cs ha hcs
    refine isChain_of_forall_ne (List.forall_mem_cons.2 ⟨ha, fun c hc => ?_⟩)
    exact ne_quote_of_isHex (List.all_eq_true.1 hcs c hc)
  unfold escape? at h
  split at h
  · split at h
    · next ha =>
      cases h
      exact hdigits _ _ (by decide) (by simpa using ha)
    · cases h
  · split at h
    · next ha =>
      cases h
      rw [Bool.and_eq_true] at ha
      exact hdigits _ _ (by decide) ha.2
    · cases h
  · split at h
    · next ha =>
      cases h
      rw [Bool.and_eq_true] at ha
      exact hdigits _ _ (by decide) ha.2
    · cases h
  · split at h
    · cases h
    · cases h
      exact List.isChain_cons_cons.2 ⟨fun _ => rfl, List.isChain_singleton _⟩
  · cases h

/-- The contents of an interpreted literal end with the first quote that is not escaped. The first
`skip` characters belong to an escape that starts before them. -/
theorem exists_take_eq_of_interpreted? {skip : Nat} {text : List Char} {before : Char} {n : Nat}
    (hskip : (before :: text.take skip).IsChain EscapesQuote)
    (h : interpreted? skip text = some n) :
    ∃ contents, text.take n = contents ++ ['"'] ∧
      (before :: contents).IsChain EscapesQuote := by
  have hcons : ∀ {c : Char} {rest : List Char} {m : Nat} {before : Char},
      EscapesQuote before c →
      (∃ contents, rest.take m = contents ++ ['"'] ∧ (c :: contents).IsChain EscapesQuote) →
      ∃ contents, (c :: rest).take (1 + m) = contents ++ ['"'] ∧
        (before :: contents).IsChain EscapesQuote := by
    rintro c rest m before hc ⟨contents, htake, hchain⟩
    refine ⟨c :: contents, ?_, List.isChain_cons_cons.2 ⟨hc, hchain⟩⟩
    rw [Nat.add_comm, List.take_succ_cons, htake]
    rfl
  fun_induction interpreted? skip text generalizing before n with
  | case1 => cases h
  | case2 skip c rest ih =>
    -- inside an escape, whose characters are known to follow each other
    obtain ⟨m, hm, rfl⟩ := Option.map_eq_some_iff.1 h
    rw [List.take_succ_cons, List.isChain_cons_cons] at hskip
    exact hcons hskip.1 (ih hskip.2 hm)
  | case3 rest =>
    cases h
    exact ⟨[], rfl, List.isChain_singleton before⟩
  | case4 rest ih =>
    obtain ⟨k, hk, h⟩ := Option.bind_eq_some_iff.1 h
    obtain ⟨m, hm, rfl⟩ := Option.map_eq_some_iff.1 h
    exact hcons (fun heq => absurd heq (by decide)) (ih k (isChain_escape? hk) hm)
  | case5 => cases h
  | case6 c rest hquote _ _ ih =>
    obtain ⟨m, hm, rfl⟩ := Option.map_eq_some_iff.1 h
    exact hcons (fun heq => absurd heq hquote) (ih (List.isChain_singleton c) hm)

/-- **The string literals** that the grammar takes. -/
theorem exists_isLiteral_of_string? {text : List Char} {kind : Kind} {n : Nat}
    (h : string? text = some (kind, n)) : ∃ contents, IsLiteral kind contents (text.take n) := by
  unfold string? at h
  split at h
  · next c rest =>
    split at h
    · next hc =>
      obtain ⟨m, hm, heq⟩ := Option.map_eq_some_iff.1 h
      cases heq
      obtain ⟨contents, htake, hchain⟩ :=
        exists_take_eq_of_interpreted? (List.isChain_singleton '"') hm
      refine ⟨contents, ?_⟩
      rw [Nat.add_comm, List.take_succ_cons, htake, eq_of_beq hc]
      exact .interpreted hchain
    · split at h
      · next hc =>
        obtain ⟨m, hm, heq⟩ := Option.map_eq_some_iff.1 h
        cases heq
        obtain ⟨contents, htake, hcontents⟩ := exists_take_eq_of_raw? hm
        refine ⟨contents, ?_⟩
        rw [Nat.add_comm, List.take_succ_cons, htake, eq_of_beq hc]
        exact .raw hcontents
      · cases h
  · cases h

end Syntax.Lexeme

/-! ## Literals without their quotes -/

/-- A literal without the double quotes at its ends: all of a raw literal, and the contents of an
interpreted one, without the quote at their end if there is one. -/
def unquoted : Kind → List Char → List Char
  | .rawStringLiteral, contents => Lexeme.rawQuote :: (contents ++ [Lexeme.rawQuote])
  | _, contents => if contents.getLast? = some '"' then contents.dropLast else contents

/-- The contents are what is left of interpreted literals that do not end in an escaped quote, and
of no others. -/
theorem unquoted_eq_iff {kind : Kind} {contents text : List Char}
    (h : Lexeme.IsLiteral kind contents text) :
    unquoted kind contents = contents ↔
      kind = .interpretedStringLiteral ∧ contents.getLast? ≠ some '"' := by
  cases h with
  | raw _ =>
    refine ⟨fun heq => ?_, nofun⟩
    have hlength := congrArg List.length heq
    rw [unquoted, List.length_cons, List.length_append, List.length_singleton] at hlength
    omega
  | interpreted _ =>
    rw [unquoted]
    · split
      · next hlast =>
        refine ⟨fun heq => ?_, fun hne => absurd hlast hne.2⟩
        have hlength := congrArg List.length heq
        have hpos := List.length_pos_iff.2 (List.ne_nil_of_mem (List.mem_of_getLast? hlast))
        rw [List.length_dropLast] at hlength
        omega
      · next hlast => exact ⟨fun _ => ⟨rfl, hlast⟩, fun _ => rfl⟩
    · exact nofun

/-- A quote at the end of the contents of an interpreted literal is the only one there: it stands
behind a backslash. -/
theorem rdropWhile_contents {contents : List Char}
    (h : ('"' :: contents).IsChain Lexeme.EscapesQuote) :
    contents.rdropWhile (· == '"') =
      if contents.getLast? = some '"' then contents.dropLast else contents := by
  rcases List.eq_nil_or_concat contents with rfl | ⟨front, last, rfl⟩
  · rfl
  rw [List.concat_eq_append] at h ⊢
  rw [List.getLast?_concat, List.dropLast_concat]
  split
  · next hlast =>
    obtain rfl := Option.some.inj hlast
    rw [List.rdropWhile_concat_pos _ _ _ (by decide)]
    rw [← List.cons_append] at h
    obtain ⟨-, -, hescaped⟩ := List.isChain_append.1 h
    -- what is before the quote is the opening quote or the end of the contents so far
    rcases List.eq_nil_or_concat front with rfl | ⟨init, c, rfl⟩
    · rfl
    rw [List.concat_eq_append] at hescaped ⊢
    have hlast : c ∈ ('"' :: (init ++ [c])).getLast? := by
      rw [← List.cons_append]
      exact List.getLast?_concat
    have hc : c = '\\' := hescaped c hlast '"' rfl rfl
    exact List.rdropWhile_concat_neg _ _ _ (by rw [hc]; decide)
  · next hlast =>
    refine List.rdropWhile_concat_neg _ _ _ fun hquote => hlast ?_
    rw [eq_of_beq hquote]

/-- **A literal without the double quotes at its ends.** -/
theorem toList_withoutQuotes {kind : Kind} {contents : List Char} {text : String}
    (h : Lexeme.IsLiteral kind contents text.toList) :
    (withoutQuotes text).toList = unquoted kind contents := by
  rw [withoutQuotes, String.toList_ofList]
  generalize text.toList = cs at h
  change (cs.dropWhile (· == '"')).rdropWhile (· == '"') = unquoted kind contents
  cases h with
  | raw _ =>
    -- a back quote at either end stops the search for double quotes
    rw [List.dropWhile_cons_of_neg (by decide), ← List.cons_append,
      List.rdropWhile_concat_neg _ _ _ (by decide)]
    rfl
  | interpreted hchain =>
    rw [List.dropWhile_cons_of_pos (by decide)]
    cases contents with
    | nil => rfl
    | cons a rest =>
      have ha : ¬ (a == '"') := fun hquote =>
        absurd ((List.isChain_cons_cons.1 hchain).1 (eq_of_beq hquote)) (by decide)
      rw [List.cons_append, List.dropWhile_cons_of_neg (p := (· == '"')) ha, ← List.cons_append,
        List.rdropWhile_concat_pos _ _ _ (by decide)]
      exact rdropWhile_contents hchain

/-! ## Where import specifications stand -/

namespace Syntax.Node

/-- The import specifications of a tree, in reading order. -/
def importSpecsIn (n : Node) : List Node := n.preorder.filter (·.kind == .importSpec)

/-- The specifications of a node are those of its children, one child after the other. -/
theorem importSpecsIn_eq (n : Node) :
    n.importSpecsIn =
      (if n.kind == .importSpec then [n] else []) ++ n.children.flatMap importSpecsIn := by
  obtain ⟨head, children⟩ := n
  rw [importSpecsIn, preorder, preorderAll_eq_flatMap, List.filter_cons, List.filter_flatMap]
  split
  · rfl
  · rfl

/-- Picking the nodes with a property one by one. -/
theorem flatMap_eq_filter {p : Node → Bool} {ns : List Node} {f : Node → List Node}
    (h : ∀ n ∈ ns, f n = if p n then [n] else []) : ns.flatMap f = ns.filter p := by
  induction ns with
  | nil => rfl
  | cons n rest ih =>
    obtain ⟨hn, hrest⟩ := List.forall_mem_cons.1 h
    rw [List.flatMap_cons, hn, ih hrest, List.filter_cons]
    split
    · rfl
    · rfl

section

variable {n : Node}

/-- Below a node that may stand anywhere, all nodes are such nodes. -/
theorem AllFit.not_isPlaced (h : n.AllFit) (hk : n.kind.isPlaced = false) :
    ∀ m ∈ n.preorder, m.kind.isPlaced = false := by
  induction n using childInduction with
  | mk head children ih =>
    intro m hm
    rcases mem_preorder_iff.1 hm with rfl | ⟨c, hc, hm⟩
    · exact hk
    · have hplaces := h.fits.places c hc
      rw [Kind.within_of_not_isPlaced hk] at hplaces
      exact ih c hc (h.children c hc) (Scope.not_isPlaced_of_inner hplaces) m hm

theorem AllFit.importSpecsIn_of_not_isPlaced (h : n.AllFit) (hk : n.kind.isPlaced = false) :
    n.importSpecsIn = [] := by
  refine List.filter_eq_nil_iff.2 fun m hm hkind => ?_
  have hplaced := h.not_isPlaced hk m hm
  rw [eq_of_beq hkind] at hplaced
  cases hplaced

/-- A specification holds no other one. -/
theorem AllFit.importSpecsIn_importSpec (h : n.AllFit) (hk : n.kind = .importSpec) :
    n.importSpecsIn = [n] := by
  rw [importSpecsIn_eq, hk]
  refine congrArg (n :: ·) (List.flatMap_eq_nil_iff.2 fun c hc => ?_)
  have hplaced := Scope.not_isPlaced_of_inner (h.places hk c hc)
  exact (h.children c hc).importSpecsIn_of_not_isPlaced hplaced

/-- The specifications in a list are among its children. -/
theorem AllFit.importSpecsIn_importSpecList (h : n.AllFit) (hk : n.kind = .importSpecList) :
    n.importSpecsIn = n.children.filter (·.kind == .importSpec) := by
  rw [importSpecsIn_eq, hk]
  refine flatMap_eq_filter fun c hc => ?_
  have hfit := h.children c hc
  rcases Scope.cases_of_admits (h.places hk c hc) with hplaced | ⟨hkind, -⟩ | ⟨-, hs⟩ | ⟨-, hs⟩
  · rw [hfit.importSpecsIn_of_not_isPlaced hplaced, if_neg]
    intro hkind
    rw [eq_of_beq hkind] at hplaced
    cases hplaced
  · rw [hfit.importSpecsIn_importSpec hkind, hkind]
    rfl
  · cases hs
  · cases hs

/-- The specifications in a declaration are the ones that are read. -/
theorem AllFit.importSpecsIn_importDeclaration (h : n.AllFit) (hk : n.kind = .importDeclaration) :
    n.importSpecsIn = importSpecs n := by
  rw [importSpecsIn_eq, hk]
  refine List.flatMap_congr fun c hc => ?_
  have hfit := h.children c hc
  rcases Scope.cases_of_admits (h.places hk c hc) with hplaced | ⟨hkind, -⟩ | ⟨hkind, -⟩ | ⟨-, hs⟩
  · have hother : ∀ k : Kind, k.isPlaced → (c.kind == k) = false := by
      rintro k hk
      refine beq_eq_false_iff_ne.2 ?_
      rintro rfl
      exact absurd (hplaced.symm.trans hk) Bool.false_ne_true
    rw [hfit.importSpecsIn_of_not_isPlaced hplaced, hother .importSpec rfl,
      hother .importSpecList rfl]
    rfl
  · rw [hfit.importSpecsIn_importSpec hkind, hkind]
    rfl
  · rw [hfit.importSpecsIn_importSpecList hkind, hkind]
    rfl
  · cases hs

end

end Syntax.Node

/-- The visits to import declarations below some nodes at the top level of a file are to those among
them. -/
theorem flatMap_importSpecs_underAll {ns : List Node} (hfit : ∀ n ∈ ns, n.AllFit)
    (hplaces : ∀ n ∈ ns, Scope.file.admits n.kind) (before : List Node) :
    ((Visit.underAll before ns).filter (·.node.kind = .importDeclaration)).flatMap
        (fun v => importSpecs v.node) = ns.flatMap Node.importSpecsIn := by
  induction ns generalizing before with
  | nil => rw [Visit.underAll_nil]; rfl
  | cons n rest ih =>
    obtain ⟨hn, hrest⟩ := List.forall_mem_cons.1 hfit
    obtain ⟨hplace, hplaces⟩ := List.forall_mem_cons.1 hplaces
    rw [Visit.underAll_cons, List.filter_append, List.flatMap_append, ih hrest hplaces,
      List.flatMap_cons]
    congr 1
    rcases Scope.cases_of_admits hplace with hplaced | ⟨-, hs⟩ | ⟨-, hs⟩ | ⟨hkind, -⟩
    · rw [hn.importSpecsIn_of_not_isPlaced hplaced, List.filter_eq_nil_iff.2]
      · rfl
      · intro v hv hkind
        have hv := hn.not_isPlaced hplaced _ (Visit.node_mem_of_mem_under hv)
        rw [of_decide_eq_true hkind] at hv
        cases hv
    · rcases hs with hs | hs <;> cases hs
    · cases hs
    · have hdescends : Visit.descends n = false := by
        rw [Visit.descends, hkind]
        rfl
      rw [Visit.under_eq, hdescends, hn.importSpecsIn_importDeclaration hkind]
      simp [hkind]

/-! ## Accepted sources -/

/-- The record of an import specification: the local name if there is one, and the path, which is a
string literal, without the double quotes at its ends. These are its contents exactly when the
literal is an interpreted one that does not end in an escaped quote. -/
structure ReportsImport (spec : Node) (i : Import) : Prop where
  importedNames : i.importedNames = ((spec.child? .name).map (·.text)).toList
  moduleSpecifier : ∃ path contents, spec.child? .path = some path ∧
    Lexeme.IsLiteral path.kind contents path.text.toList ∧
    i.moduleSpecifier.toList = unquoted path.kind contents ∧
    (i.moduleSpecifier.toList = contents ↔
      path.kind = .interpretedStringLiteral ∧ contents.getLast? ≠ some '"')

/-- **The record of a specification** whose nodes have their parts. -/
theorem reportsImport_importOf {spec : Node} (hfit : spec.AllFit) (hk : spec.kind = .importSpec) :
    ReportsImport spec (importOf spec) := by
  obtain ⟨path, hpath⟩ := hfit.fits.exists_child? hk (List.mem_singleton_self Role.path)
  obtain ⟨text, k, hstring, htext⟩ : Role.path.Fits path := (hfit.child? hpath).2
  obtain ⟨contents, hliteral⟩ := Lexeme.exists_isLiteral_of_string? hstring
  have hliteral : Lexeme.IsLiteral path.kind contents path.text.toList := by
    rwa [htext, String.toList_ofList]
  have hspecifier : (importOf spec).moduleSpecifier.toList = unquoted path.kind contents := by
    rw [importOf, hpath]
    exact toList_withoutQuotes hliteral
  refine ⟨rfl, path, contents, hpath, hliteral, hspecifier, ?_⟩
  rw [hspecifier]
  exact unquoted_eq_iff hliteral

section

variable {path : String} {source : List UInt8} {p : Parsed}

theorem kind_of_parse (hp : parse path source = .ok p) : p.tree.kind = .sourceFile := by
  obtain ⟨c, items, -, htree⟩ := exists_isFile_of_parse hp
  rw [htree]
  rfl

/-- The imports of an accepted source are the records of all its import specifications. -/
theorem imports_of_parse (hp : parse path source = .ok p) :
    p.outline.imports = p.tree.importSpecsIn.map importOf := by
  have hfit := fits_of_parse hp
  have hkind := kind_of_parse hp
  have hdescends : Visit.descends p.tree = true := by
    rw [Visit.descends, hkind]
    rfl
  have hspecs : ((Visit.preorder p.tree).filter (·.node.kind = .importDeclaration)).flatMap
      (fun v => importSpecs v.node) = p.tree.importSpecsIn := by
    rw [Visit.preorder, Visit.under_eq, hdescends, Node.importSpecsIn_eq, hkind,
      List.filter_cons_of_neg (by rw [hkind]; decide)]
    exact flatMap_importSpecs_underAll hfit.children (hfit.places hkind) []
  rw [← hspecs, List.map_flatMap, Parsed.outline, imports_ofTree, filterMap_imported?_entriesOf]

/-- **Every import specification is reported**, in the order of the text, in every accepted
source. -/
theorem reportsImports_of_parse (hp : parse path source = .ok p) :
    List.Forall₂ ReportsImport p.tree.importSpecsIn p.outline.imports := by
  rw [imports_of_parse hp]
  refine List.forall₂_map_right_iff.2 (List.forall₂_same.2 fun spec hspec => ?_)
  obtain ⟨hmem, hkind⟩ := List.mem_filter.1 hspec
  exact reportsImport_importOf ((fits_of_parse hp).of_mem hmem) (eq_of_beq hkind)

end

/-- Imports with and without local names, one of them with a raw literal and one with an escaped
quote at the end. -/
def namedImports : List UInt8 := Text.Utf8.encode
  "package p; import \"os\"; import (
	m \"math\"
	. \"a/b\"
	_ \x60c\x60
	\"d\\\"\"
)
".toList

theorem reportsImports_of_parse_namedImports :
    ∃ p, parse "t.go" namedImports = .ok p ∧
      p.outline.imports = [⟨[], "os"⟩, ⟨["m"], "math"⟩, ⟨["."], "a/b"⟩, ⟨["_"], "\x60c\x60"⟩,
        ⟨[], "d\\"⟩] ∧
      List.Forall₂ ReportsImport p.tree.importSpecsIn p.outline.imports := by
  have h : (parse "t.go" namedImports).toOption.any fun p =>
      p.outline.imports = [⟨[], "os"⟩, ⟨["m"], "math"⟩, ⟨["."], "a/b"⟩, ⟨["_"], "\x60c\x60"⟩,
        ⟨[], "d\\"⟩] := by
    decide +kernel
  obtain ⟨p, hp, hq⟩ := exists_parse_eq_ok h
  exact ⟨p, hp, of_decide_eq_true hq, reportsImports_of_parse hp⟩

/-- An import with a raw literal. -/
def rawImport : List UInt8 := Text.Utf8.encode "package p\n\nimport \x60fmt\x60\n".toList

/-- Not every path is reported without its quotes. -/
theorem not_forall_specifier_eq_contents :
    ¬ ∀ (path : String) (source : List UInt8) (p : Parsed), parse path source = .ok p →
      List.Forall₂ (fun spec (i : Import) =>
          i.importedNames = ((spec.child? .name).map (·.text)).toList ∧
          ∃ path contents, spec.child? .path = some path ∧
            Lexeme.IsLiteral path.kind contents path.text.toList ∧
            i.moduleSpecifier.toList = contents)
        p.tree.importSpecsIn p.outline.imports := by
  intro hall
  have h : (parse "test.go" rawImport).toOption.any fun p =>
      (p.tree.importSpecsIn.map fun spec => (spec.child? .path).map (·.text)) =
          [some "\x60fmt\x60"] ∧
        p.outline.imports = [⟨[], "\x60fmt\x60"⟩] := by
    decide +kernel
  obtain ⟨p, hp, hq⟩ := exists_parse_eq_ok h
  obtain ⟨hpaths, himports⟩ := of_decide_eq_true hq
  have hreports := hall _ _ p hp
  obtain ⟨spec, hspecs, hpath⟩ := List.map_eq_singleton_iff.1 hpaths
  rw [hspecs, himports, List.forall₂_cons] at hreports
  obtain ⟨⟨-, path, contents, hchild, hliteral, hcontents⟩, -⟩ := hreports
  rw [hchild, Option.map_some, Option.some.injEq] at hpath
  have hlength := hliteral.length_eq
  rw [hpath, ← hcontents] at hlength
  exact absurd hlength (by decide)

end GoOutline
