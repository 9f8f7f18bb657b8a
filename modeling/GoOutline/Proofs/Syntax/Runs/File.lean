import GoOutline.Proofs.Syntax.Runs.Statements
import GoOutline.Syntax.Grammar.File

/-!
# Runs of a file

The rules tied together read runs at every depth, by induction on the depth. A file is a run of
items with terminators, and the comments after them.

## Main results

* `runs_grammar`: the grammar
* `ensures_fileRule`: a whole file
-/

namespace GoOutline.Syntax

open Rule

variable {g : Grammar}

/-- One more level of nesting. -/
theorem runs_ruleOf (hg : g.Runs) : (ruleOf g).Runs where
  type := fun line => runs_typeRule hg line
  expression := fun level site => runs_expressionRule hg level site
  literalValue := runs_literalValueRule hg
  block := runs_blockRule hg
  statement := runs_statementRule hg
  ifStatement := runs_ifRule hg

/-- **The grammar** reads runs at every depth. -/
theorem runs_grammar (depth : Nat) : (grammar depth).Runs := by
  induction depth with
  | zero =>
    exact {
      type := fun _ _ _ => .stuck
      expression := fun _ _ _ _ => .stuck
      literalValue := fun _ => .stuck
      block := fun _ => .stuck
      statement := fun _ _ => .stuck
      ifStatement := fun _ => .stuck }
  | succ depth ih => exact runs_ruleOf ih

theorem stays_namedFunctionAhead : namedFunctionAhead.Stays := stays_probe _

theorem stays_looksLikeMethod (g : Grammar) : (looksLikeMethod g).Stays := stays_probe _

theorem runs_topLevel (hg : g.Runs) : (topLevel g).Runs (.one .file) := by
  intro c
  have hstatement : (g (.statement .file)).Runs (.one .file) := (hg.statement .file).placed
  refine .look (stays_nextWord false) fun word => ?_
  split
  · exact runs_packageClause.placed c
  · exact runs_importDeclaration c
  · refine .look stays_namedFunctionAhead fun named => ?_
    refine .ite ((runs_functionDeclaration hg).placed c) ?_
    refine .look (stays_looksLikeMethod g) fun method => ?_
    exact .ite ((runs_methodDeclaration hg).placed c) (hstatement c)
  · exact hstatement c

/-- Items with terminators, and the comments after them. -/
def IsFile (c : Cursor) (ns : List Node) : Prop :=
  ∃ items d, ns = items ++ (d.trivia false).1 ∧ Run (.many .file) c items d

theorem IsFile.after {c d : Cursor} {first ns : List Node} (hfirst : Run (.many .file) c first d)
    (h : IsFile d ns) : IsFile c (first ++ ns) := by
  obtain ⟨items, e, rfl, hitems⟩ := h
  exact ⟨first ++ items, e, (List.append_assoc ..).symm, hfirst.append hitems⟩

theorem isFile_comments {c d : Cursor} {ns : List Node} (h : comments c = .ok (ns, d)) :
    IsFile c ns := by
  have htrivia : c.trivia false = (ns, d) := Except.ok.inj h
  exact ⟨[], c, congrArg Prod.fst htrivia.symm, .nil _ c⟩

theorem ensures_fileItems (hg : g.Runs) (rounds : Nat) (c : Cursor) :
    (fileItems g rounds).Ensures c fun ns _ => IsFile c ns := by
  induction rounds generalizing c with
  | zero => exact .stuck
  | succ rounds ih =>
    refine .look (stays_upcoming false) fun text => ?_
    refine .ite (fun _ _ h => isFile_comments h) ?_
    refine .bind (runs_topLevel hg c) fun first d hfirst => .terminator? hfirst ?_ ?_
    · exact fun ts e hitem => .bind (ih e) fun more f hmore => .pure (.after hitem hmore)
    · refine .look (stays_upcoming false) fun text => .ite ?_ .stuck
      refine .bind (.self comments d) fun last e hlast => .pure ?_
      exact .after (.items hfirst.run) (isFile_comments hlast)

/-- **A whole file** is a run of items with terminators, and comments. -/
theorem ensures_fileRule (c : Cursor) : fileRule.Ensures c fun ns _ => IsFile c ns :=
  fun _ _ h => Ensures.bounded
    (fun rounds => ensures_fileItems (runs_grammar (depthFor c.rest.length)) rounds c) h

end GoOutline.Syntax
