import GoOutline.Project.Basic
import GoOutline.Proofs.Outline.Accounting
import Mathlib.Algebra.BigOperators.Group.List.Basic
import Mathlib.Algebra.Order.Field.Rat
import Mathlib.Data.List.MinMax
import Mathlib.Tactic.Positivity

/-!
# Totals of a project

The summary of a project adds up its files. Its coverage is worked out from two sums, so the exact
share of documented symbols is no mean of the shares of the files: a file counts for as much as it
has symbols, and one without symbols does not count at all.

## Main definitions

* `Summary.CountsAdd`: a summary whose counts are the sums of those of two others
* `Summary.wordTotal`: a sum in words of 64 bits
* `Outline.documentedShare`, `Summary.documentedShare`: the exact share of documented symbols

## Main results

* `Summary.total_append`, `Summary.total_perm`: sums over some outlines
* `Summary.documentedShare_le`, `Summary.le_documentedShare`: bounds on the share
* `Summary.summary_aggregates`: what the summary of some outlines amounts to
-/

namespace GoOutline

/-- The exact share of documented symbols in a file, zero when there are no symbols. -/
def Outline.documentedShare (o : Outline) : ℚ :=
  o.documentation.documentedSymbols / o.documentation.totalSymbols

/-- The file has symbols. -/
def Outline.HasSymbols (o : Outline) : Prop := 0 < o.documentation.totalSymbols

instance (o : Outline) : Decidable o.HasSymbols := inferInstanceAs (Decidable (_ < _))

/-- No more symbols are documented than there are. -/
def Outline.IsTallied (o : Outline) : Prop :=
  o.documentation.documentedSymbols ≤ o.documentation.totalSymbols

/-- Files that are analyzed are tallied. -/
theorem isTallied_of_analyze {path : String} {source : List UInt8} {o : Outline}
    (h : analyze path source = .ok o) : o.IsTallied := by
  obtain ⟨p, -, rfl⟩ := analyze_eq_ok_iff.1 h
  rw [Outline.IsTallied, Parsed.outline, documentation_ofTree, foldl_record]
  exact Nat.add_le_add_left List.countP_le_length 0

namespace Summary

/-! ## Sums -/

section

variable (count : Outline → Nat) {a b : List Outline}

theorem total_eq_sum (outlines : List Outline) :
    total count outlines = (outlines.map count).sum := by
  induction outlines with
  | nil => rfl
  | cons o rest ih => rw [total, ih, List.map_cons, List.sum_cons]

theorem total_append (a b : List Outline) :
    total count (a ++ b) = total count a + total count b := by
  rw [total_eq_sum, total_eq_sum, total_eq_sum, List.map_append, List.sum_append]

/-- Sums do not depend on the order. -/
theorem total_perm (h : a.Perm b) : total count a = total count b := by
  rw [total_eq_sum, total_eq_sum]
  exact (h.map count).sum_eq

/-- What counts nothing can be left out. -/
theorem total_filter {p : Outline → Bool} (outlines : List Outline)
    (h : ∀ o ∈ outlines, p o = false → count o = 0) :
    total count (outlines.filter p) = total count outlines := by
  induction outlines with
  | nil => rfl
  | cons o rest ih =>
    obtain ⟨ho, hrest⟩ := List.forall_mem_cons.1 h
    cases hp : p o with
    | true => rw [List.filter_cons_of_pos hp, total, total, ih hrest]
    | false => rw [List.filter_cons_of_neg (by simp [hp]), ih hrest, total, ho hp, Nat.zero_add]

/-- The sum of a count in words of 64 bits, which wrap around. -/
def wordTotal (outlines : List Outline) : UInt64 :=
  outlines.foldl (fun sum o => sum + (count o).toUInt64) 0

/-- Added to a word, a sum that fits 64 bits on the whole fits on the way. -/
theorem toNat_foldl_add (outlines : List Outline) (start : UInt64)
    (h : start.toNat + total count outlines < 2 ^ 64) :
    (outlines.foldl (fun sum o => sum + (count o).toUInt64) start).toNat =
      start.toNat + total count outlines := by
  induction outlines generalizing start with
  | nil => rfl
  | cons o rest ih =>
    rw [total] at h
    have hstep : (start + (count o).toUInt64).toNat = start.toNat + count o := by
      rw [UInt64.toNat_add, Nat.toUInt64, UInt64.toNat_ofNat', Nat.mod_eq_of_lt (a := count o)]
      · exact Nat.mod_eq_of_lt (by omega)
      · omega
    rw [List.foldl_cons, ih _ (by rw [hstep]; omega), hstep, total, Nat.add_assoc]

/-- A sum that fits 64 bits is the same in words. -/
theorem toNat_wordTotal {outlines : List Outline} (h : total count outlines < 2 ^ 64) :
    (wordTotal count outlines).toNat = total count outlines := by
  rw [wordTotal, toNat_foldl_add count outlines 0 (by simpa using h)]
  simp

end

/-- The counts of the first summary are the sums of those of the two others. -/
structure CountsAdd (s a b : Summary) : Prop where
  totalFiles : s.totalFiles = a.totalFiles + b.totalFiles
  totalClasses : s.totalClasses = a.totalClasses + b.totalClasses
  totalInterfaces : s.totalInterfaces = a.totalInterfaces + b.totalInterfaces
  totalFunctions : s.totalFunctions = a.totalFunctions + b.totalFunctions
  totalEnums : s.totalEnums = a.totalEnums + b.totalEnums
  totalTypeAliases : s.totalTypeAliases = a.totalTypeAliases + b.totalTypeAliases

theorem countsAdd_append (a b : List Outline) :
    CountsAdd (ofOutlines (a ++ b)) (ofOutlines a) (ofOutlines b) where
  totalFiles := List.length_append
  totalClasses := total_append _ a b
  totalInterfaces := total_append _ a b
  totalFunctions := total_append _ a b
  totalEnums := total_append _ a b
  totalTypeAliases := total_append _ a b

theorem ofOutlines_perm {a b : List Outline} (h : a.Perm b) : ofOutlines a = ofOutlines b := by
  simp only [ofOutlines, h.length_eq, total_perm _ h]

/-! ## The share of documented symbols -/

/-- The documented symbols of some files. -/
def documented (outlines : List Outline) : Nat :=
  total (·.documentation.documentedSymbols) outlines

/-- All symbols of some files. -/
def symbols (outlines : List Outline) : Nat := total (·.documentation.totalSymbols) outlines

/-- The exact share of documented symbols in some files, zero when there are no symbols. -/
def documentedShare (outlines : List Outline) : ℚ := documented outlines / symbols outlines

/-- Two sums are compared term by term. -/
theorem mul_total_le_mul_total {x y : ℚ} {f g : Outline → Nat} {outlines : List Outline}
    (h : ∀ o ∈ outlines, x * f o ≤ y * g o) : x * total f outlines ≤ y * total g outlines := by
  induction outlines with
  | nil => simp [total]
  | cons o rest ih =>
    obtain ⟨ho, hrest⟩ := List.forall_mem_cons.1 h
    rw [total, total, Nat.cast_add, Nat.cast_add, mul_add, mul_add]
    exact add_le_add ho (ih hrest)

section

variable {outlines : List Outline}

theorem symbols_pos_iff : 0 < symbols outlines ↔ ∃ o ∈ outlines, o.HasSymbols := by
  rw [symbols, total_eq_sum, List.sum_pos_iff_exists_pos_nat]
  simp only [List.mem_map, exists_exists_and_eq_and, Outline.HasSymbols]

theorem symbols_eq_zero_iff : symbols outlines = 0 ↔ ∀ o ∈ outlines, ¬ o.HasSymbols := by
  rw [← Nat.le_zero, ← Nat.not_lt, symbols_pos_iff]
  simp only [not_exists, not_and]

/-- A lower bound on the shares of the files with symbols is one on their common share. -/
theorem le_documentedShare {x : ℚ} (hsymbols : 0 < symbols outlines)
    (h : ∀ o ∈ outlines, o.HasSymbols → x ≤ o.documentedShare) :
    x ≤ documentedShare outlines := by
  have hsum : x * symbols outlines ≤ 1 * documented outlines := by
    refine mul_total_le_mul_total fun o ho => ?_
    by_cases hpos : o.HasSymbols
    · rw [one_mul, ← le_div_iff₀ (Nat.cast_pos.2 hpos)]
      exact h o ho hpos
    · rw [Nat.eq_zero_of_not_pos hpos, Nat.cast_zero, mul_zero, one_mul]
      exact Nat.cast_nonneg _
  rwa [one_mul, ← le_div_iff₀ (Nat.cast_pos.2 hsymbols)] at hsum

/-- An upper bound on the shares of the files with symbols is one on their common share: a file
without symbols adds nothing to the documented ones. -/
theorem documentedShare_le {y : ℚ} (hsymbols : 0 < symbols outlines)
    (htallied : ∀ o ∈ outlines, o.IsTallied)
    (h : ∀ o ∈ outlines, o.HasSymbols → o.documentedShare ≤ y) :
    documentedShare outlines ≤ y := by
  have hsum : 1 * documented outlines ≤ y * symbols outlines := by
    refine mul_total_le_mul_total fun o ho => ?_
    by_cases hpos : o.HasSymbols
    · rw [one_mul, ← div_le_iff₀ (Nat.cast_pos.2 hpos)]
      exact h o ho hpos
    · have hzero := Nat.eq_zero_of_not_pos hpos
      have hdocumented := htallied o ho
      rw [Outline.IsTallied, hzero] at hdocumented
      rw [hzero, Nat.eq_zero_of_le_zero hdocumented, Nat.cast_zero, mul_zero, mul_zero]
  rwa [one_mul, ← div_le_iff₀ (Nat.cast_pos.2 hsymbols)] at hsum

/-- The share of a tallied file is between zero and one. -/
theorem documentedShare_mem_of_isTallied {o : Outline} (h : o.IsTallied) :
    0 ≤ o.documentedShare ∧ o.documentedShare ≤ 1 :=
  ⟨by unfold Outline.documentedShare; positivity,
    div_le_one_of_le₀ (Nat.cast_le.2 h) (Nat.cast_nonneg _)⟩

/-- Of the files with symbols, one has the smallest share and one the largest. -/
theorem exists_extreme_shares (h : ∃ o ∈ outlines, o.HasSymbols) :
    ∃ least ∈ outlines, ∃ greatest ∈ outlines, least.HasSymbols ∧ greatest.HasSymbols ∧
      ∀ o ∈ outlines, o.HasSymbols →
        least.documentedShare ≤ o.documentedShare ∧
          o.documentedShare ≤ greatest.documentedShare := by
  obtain ⟨o, ho, hpos⟩ := h
  have hmem {o : Outline} (ho : o ∈ outlines) (hpos : o.HasSymbols) :
      o ∈ outlines.filter (·.HasSymbols) := List.mem_filter.2 ⟨ho, decide_eq_true hpos⟩
  have hne : outlines.filter (·.HasSymbols) ≠ [] := List.ne_nil_of_mem (hmem ho hpos)
  obtain ⟨least, hleast⟩ := Option.ne_none_iff_exists'.1
    (mt (List.argmin_eq_none (f := Outline.documentedShare)).1 hne)
  obtain ⟨greatest, hgreatest⟩ := Option.ne_none_iff_exists'.1
    (mt (List.argmax_eq_none (f := Outline.documentedShare)).1 hne)
  obtain ⟨hleast', hleast''⟩ := List.mem_filter.1 (List.argmin_mem hleast)
  obtain ⟨hgreatest', hgreatest''⟩ := List.mem_filter.1 (List.argmax_mem hgreatest)
  exact ⟨least, hleast', greatest, hgreatest', of_decide_eq_true hleast'',
    of_decide_eq_true hgreatest'', fun o ho hpos =>
      ⟨List.le_of_mem_argmin (hmem ho hpos) hleast, List.le_of_mem_argmax (hmem ho hpos) hgreatest⟩⟩

/-- Files without symbols can be left out of both sums. -/
theorem sums_filter_hasSymbols (htallied : ∀ o ∈ outlines, o.IsTallied) :
    documented (outlines.filter (·.HasSymbols)) = documented outlines ∧
      symbols (outlines.filter (·.HasSymbols)) = symbols outlines := by
  have hnone : ∀ o ∈ outlines, decide o.HasSymbols = false → o.documentation.totalSymbols = 0 :=
    fun o _ h => Nat.eq_zero_of_not_pos (of_decide_eq_false h)
  refine ⟨total_filter _ _ fun o ho h => ?_, total_filter _ _ hnone⟩
  have hdocumented := htallied o ho
  rw [Outline.IsTallied, hnone o ho h] at hdocumented
  exact Nat.eq_zero_of_le_zero hdocumented

end

/-- **The summary is a true aggregate.**

* The counts over two lists of files are the sums of the counts over each, and so are the two sums
  that the coverage is worked out from. The order of the files does not matter. Sums in words of 64
  bits are the same as long as they fit.
* The coverage is that of the documented symbols in all symbols, zero when there are none.
* In tallied files, as analysis makes them, the exact share lies between the smallest and the
  largest share of the files with symbols, hence between zero and one. It is zero when no file has
  symbols, and files without symbols do not matter to it wherever they stand. -/
theorem summary_aggregates :
    (∀ a b : List Outline, CountsAdd (ofOutlines (a ++ b)) (ofOutlines a) (ofOutlines b) ∧
      documented (a ++ b) = documented a + documented b ∧
      symbols (a ++ b) = symbols a + symbols b) ∧
    (∀ a b : List Outline, a.Perm b → ofOutlines a = ofOutlines b) ∧
    (∀ (count : Outline → Nat) (outlines : List Outline), total count outlines < 2 ^ 64 →
      (wordTotal count outlines).toNat = total count outlines) ∧
    (∀ path source o, analyze path source = .ok o → o.IsTallied) ∧
    ∀ outlines : List Outline,
      (ofOutlines outlines).overallDocCoverage = (if symbols outlines = 0 then 0.0
        else (documented outlines).toFloat / (symbols outlines).toFloat * 100.0) ∧
      ((∀ o ∈ outlines, o.IsTallied) →
        ((∃ o ∈ outlines, o.HasSymbols) →
          ∃ least ∈ outlines, ∃ greatest ∈ outlines, least.HasSymbols ∧ greatest.HasSymbols ∧
            (∀ o ∈ outlines, o.HasSymbols → least.documentedShare ≤ o.documentedShare ∧
              o.documentedShare ≤ greatest.documentedShare) ∧
            0 ≤ least.documentedShare ∧
            least.documentedShare ≤ documentedShare outlines ∧
            documentedShare outlines ≤ greatest.documentedShare ∧
            greatest.documentedShare ≤ 1) ∧
        ((∀ o ∈ outlines, ¬ o.HasSymbols) →
          documentedShare outlines = 0 ∧ (ofOutlines outlines).overallDocCoverage = 0.0) ∧
        ∀ outlines' : List Outline, (∀ o ∈ outlines', o.IsTallied) →
          outlines'.filter (·.HasSymbols) = outlines.filter (·.HasSymbols) →
          documentedShare outlines' = documentedShare outlines ∧
          (ofOutlines outlines').overallDocCoverage =
            (ofOutlines outlines).overallDocCoverage) := by
  refine ⟨fun a b => ⟨countsAdd_append a b, total_append _ a b, total_append _ a b⟩,
    fun a b => ofOutlines_perm, fun count outlines => toNat_wordTotal count,
    fun path source o => isTallied_of_analyze, fun outlines => ⟨rfl, fun htallied => ⟨?_, ?_, ?_⟩⟩⟩
  · intro hsome
    have hsymbols := symbols_pos_iff.2 hsome
    obtain ⟨least, hleast, greatest, hgreatest, hleast', hgreatest', hbounds⟩ :=
      exists_extreme_shares hsome
    exact ⟨least, hleast, greatest, hgreatest, hleast', hgreatest', hbounds,
      (documentedShare_mem_of_isTallied (htallied least hleast)).1,
      le_documentedShare hsymbols fun o ho hpos => (hbounds o ho hpos).1,
      documentedShare_le hsymbols htallied fun o ho hpos => (hbounds o ho hpos).2,
      (documentedShare_mem_of_isTallied (htallied greatest hgreatest)).2⟩
  · intro hnone
    have hsymbols := symbols_eq_zero_iff.2 hnone
    refine ⟨?_, if_pos hsymbols⟩
    rw [documentedShare, hsymbols, Nat.cast_zero, div_zero]
  · intro outlines' htallied' hfilter
    obtain ⟨hdocumented, hsymbols⟩ := sums_filter_hasSymbols htallied
    obtain ⟨hdocumented', hsymbols'⟩ := sums_filter_hasSymbols htallied'
    rw [hfilter] at hdocumented' hsymbols'
    have hD : documented outlines' = documented outlines := hdocumented'.symm.trans hdocumented
    have hT : symbols outlines' = symbols outlines := hsymbols'.symm.trans hsymbols
    constructor
    · rw [documentedShare, documentedShare, hD, hT]
    · exact congrArg₂ Doc.percentage hD hT

/-- A file of which nothing but its counts is known. -/
def tallyOnly (documented symbols : Nat) : Outline where
  path := ""
  classes := []
  functions := []
  interfaces := []
  enums := []
  typeAliases := []
  imports := []
  exports := []
  documentation := Doc.Tally.toCoverage ⟨documented, symbols⟩

/-- A quarter of one file is documented, three quarters of one that is twice as large, and there is
nothing in a third. -/
def unevenFiles : List Outline := [tallyOnly 1 4, tallyOnly 0 0, tallyOnly 6 8]

theorem summary_aggregates_unevenFiles :
    (∀ o ∈ unevenFiles, o.IsTallied) ∧ (∃ o ∈ unevenFiles, o.HasSymbols) ∧
      (documented unevenFiles, symbols unevenFiles) = (7, 12) ∧
      (∃ least ∈ unevenFiles, ∃ greatest ∈ unevenFiles,
        least.documentedShare ≤ documentedShare unevenFiles ∧
        documentedShare unevenFiles ≤ greatest.documentedShare) ∧
      documentedShare [tallyOnly 1 4, tallyOnly 6 8] = documentedShare unevenFiles := by
  have htallied : ∀ o ∈ unevenFiles, o.IsTallied := by
    simp [unevenFiles, Outline.IsTallied, tallyOnly, Doc.Tally.toCoverage]
  have hsome : ∃ o ∈ unevenFiles, o.HasSymbols :=
    ⟨tallyOnly 1 4, List.mem_cons_self, Nat.zero_lt_succ 3⟩
  have htallied' : ∀ o ∈ [tallyOnly 1 4, tallyOnly 6 8], o.IsTallied := by
    simp [Outline.IsTallied, tallyOnly, Doc.Tally.toCoverage]
  obtain ⟨hbounds, -, hadded⟩ := (summary_aggregates.2.2.2.2 unevenFiles).2 htallied
  obtain ⟨least, hleast, greatest, hgreatest, -, -, -, -, hlow, hhigh, -⟩ := hbounds hsome
  exact ⟨htallied, hsome, rfl, ⟨least, hleast, greatest, hgreatest, hlow, hhigh⟩,
    (hadded _ htallied' rfl).1⟩

end Summary

end GoOutline
