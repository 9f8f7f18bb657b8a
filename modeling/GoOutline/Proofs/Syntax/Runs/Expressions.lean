import GoOutline.Proofs.Syntax.Runs.Types
import GoOutline.Syntax.Grammar.Expressions

/-!
# Runs of expressions

The rules for expressions read runs, given a grammar that does. What is applied to an operand is
read with the operand in hand, so these rules are taken for operands that may stand anywhere.

## Main results

* `runs_expressionRule`: expressions
* `runs_literalValueRule`: the braces of composite literals
* `runs_expressionList`: lists of expressions
-/

namespace GoOutline.Syntax

open Rule

variable {g : Grammar} {m : Setting}

theorem runs_innerExpression (hg : g.Runs) : (innerExpression g).Runs m := hg.expression _ _

/-- Expressions with commas between them. -/
theorem runs_expressionList (hg : g.Runs) (first rest : Site) :
    (expressionList g first rest).Runs m := by
  refine runs_enclosed rfl fun c => .next (hg.expression _ _) fun head d hhead => ?_
  refine .look (stays_nextIs _ ',') fun comma => .ite ?_ (.pure hhead)
  refine .next runs_comma fun comma e hcomma => ?_
  refine .next (.bounded (runs_commaList (hg.expression _ _))) fun more f hmore => ?_
  exact .pure ((hhead.append hcomma.run).append hmore.run)

/-! ## Literal braces -/

theorem runs_literalElement (hg : g.Runs) : (literalElement g).Runs m :=
  runs_enclosed rfl fun c =>
    .look (stays_nextIs false '{') fun _ => .ite (hg.literalValue c) (runs_innerExpression hg c)

/-- An element of a literal, perhaps with its key. -/
theorem runs_keyedElement (hg : g.Runs) : (keyedElement g).Runs m := by
  intro c
  refine .anywhere (fun m => runs_literalElement hg) fun first d hfirst => ?_
  refine .look (stays_nextIs false ':') fun colon => .ite ?_ (.pure (hfirst m))
  refine .part (runs_symbol (by decide)) fun colon e hcolon => ?_
  refine .part (runs_literalElement hg) fun value f hvalue => .pure (.enclose rfl ?_)
  exact (((hfirst .items).labelled (by decide)).append hcolon.run).append
    (hvalue.labelled (by decide)).run

/-- Elements in braces. -/
theorem runs_literalValueRule (hg : g.Runs) : (literalValueRule g).Runs m :=
  runs_enclosed rfl (runs_bracketed (runs_symbol (by decide)) (runs_keyedElement hg)
    (runs_symbol (by decide)))

/-! ## Calls and brackets -/

theorem runs_argument (hg : g.Runs) : (argument g).Runs m := by
  intro c
  refine .anywhere (fun m => runs_innerExpression hg) fun value d hvalue => ?_
  refine .look (stays_nextStarts false "...") fun dots => .ite ?_ (.pure (hvalue m))
  refine .part (runs_symbol (by decide)) fun dots e hdots => .pure (.enclose rfl ?_)
  exact (hvalue .items).append hdots.run

/-- Arguments in parentheses, the first of which is read by a rule of its own. -/
theorem runs_argumentsWith (hg : g.Runs) {first : Rule (List Node)} (hfirst : first.Runs .items) :
    (argumentsWith g first).Runs m := by
  refine runs_enclosed rfl fun c => .next (runs_symbol (by decide)) fun opening d hopening => ?_
  refine .look (stays_nextIs false ')') fun empty => ?_
  extract_lets k
  have hk : ∀ items e, Run .items d items e → (k items).Ensures e (Read .items c) := by
    intro items e hitems
    refine .next (runs_closing (by decide)) fun close f hclose => .pure ?_
    exact (hopening.append hitems).append hclose.run
  refine .ite (.bind (mayRun_nil d) hk) (.part hfirst fun head e hhead => ?_)
  refine .look (stays_nextIs false ',') fun comma => .ite ?_ (.bind (.pure hhead.run) hk)
  refine .part runs_comma fun comma f hcomma => .look (stays_nextIs false ')') fun last => ?_
  have hsofar := hhead.append hcomma.run
  refine .ite (.bind (.pure hsofar.run) hk) ?_
  refine .part (.bounded (runs_commaItems (runs_argument hg))) fun more h hmore => ?_
  exact .bind (.pure (hsofar.append hmore.run).run) hk

theorem runs_arguments (hg : g.Runs) : (arguments g).Runs m :=
  runs_argumentsWith hg (runs_argument hg)

/-- Arguments the first of which may be a type. -/
theorem runs_allocationArguments (hg : g.Runs) : (allocationArguments g).Runs m := by
  refine runs_argumentsWith hg fun c => .orElse ?_ (runs_argument hg c)
  refine .next (hg.type false) fun type d htype => .look (stays_nextIs false ',') fun comma => ?_
  exact .look (stays_nextIs false ')') fun close => .ite (.pure htype) .stuck

/-- The single operand of a conversion in its parentheses. -/
theorem runs_conversionOperand (hg : g.Runs) : (conversionOperand g).Runs m := by
  intro c
  refine .next (runs_symbol (by decide)) fun opening d hopening => ?_
  refine .next (runs_innerExpression hg) fun operand e hoperand => ?_
  have hsofar := hopening.append hoperand.run
  refine .look (stays_nextIs false ',') fun comma => ?_
  refine .perhaps_ite runs_comma.may mayRun_nil fun comma f hcomma => ?_
  refine .next (runs_closing (by decide)) fun close h hclose => .pure ?_
  exact (hsofar.append hcomma).append hclose.run

/-- The bounds of a slice after the first, with their colons. -/
theorem runs_sliceBounds (hg : g.Runs) : (sliceBounds g).Runs m := by
  intro c
  refine .next (runs_symbol (by decide)) fun colon d hcolon => ?_
  refine .look (stays_nextIs false ']') fun empty => .ite (.pure hcolon) ?_
  refine .next (runs_innerExpression hg) fun upper e hupper => ?_
  have hsofar := hcolon.append hupper.run
  refine .look (stays_nextIs false ':') fun more => .ite ?_ (.pure hsofar)
  refine .next (runs_symbol (by decide)) fun second f hsecond => ?_
  refine .next (runs_innerExpression hg) fun capacity h hcapacity => .pure ?_
  exact (hsofar.append hsecond.run).append hcapacity.run

section

variable {c d : Cursor} {operand : List Node}

/-- An operand with an index or with bounds behind it. -/
theorem ensures_indexOrSlice (hg : g.Runs) (hoperand : Read .items c operand d) :
    (indexOrSlice g operand).Ensures d (Read m c) := by
  refine .part (runs_symbol (by decide)) fun opening e hopening => ?_
  have hopened := hoperand.append hopening.run
  refine .look (stays_nextIs false ':') fun colon => .ite ?_ ?_
  · refine .part (runs_sliceBounds hg) fun bounds f hbounds => ?_
    refine .part (runs_closing (by decide)) fun close h hclose => .pure (.enclose rfl ?_)
    exact (hopened.append hbounds.run).append hclose.run
  · refine .part (runs_innerExpression hg) fun index f hindex => ?_
    have hindexed := hopened.append hindex.run
    refine .look (stays_nextIs false ':') fun colon => .ite ?_ ?_
    · refine .part (runs_sliceBounds hg) fun bounds h hbounds => ?_
      refine .part (runs_closing (by decide)) fun close i hclose => .pure (.enclose rfl ?_)
      exact (hindexed.append hbounds.run).append hclose.run
    · refine .part (runs_closing (by decide)) fun close h hclose => .pure (.enclose rfl ?_)
      exact hindexed.append hclose.run

/-- An operand with type arguments behind it. -/
theorem ensures_instantiation (hg : g.Runs) (site : Site) (isName : Bool)
    (hoperand : Read .items c operand d) :
    (instantiation g site isName operand).Ensures d (Read m c) := by
  refine .part (runs_inRole (by decide) (runs_typeArguments hg)) fun types e htypes => ?_
  have hsofar := hoperand.append htypes.run
  refine .look (stays_nextIs _ '(') fun call => .ite ?_ (.ite (.pure (.enclose rfl hsofar)) .stuck)
  refine .part (runs_arguments hg) fun arguments f harguments => .pure (.enclose rfl ?_)
  exact hsofar.append harguments.run

/-! ## What is applied to an operand -/

/-- An operand with a field or a type assertion behind it. -/
theorem ensures_selector (hg : g.Runs) (shape : Shape) (hoperand : Read .items c operand d) :
    (selector g shape operand).Ensures d fun r e => ∀ m, Read m c r.2 e := by
  refine .part (runs_symbol (by decide)) fun dot e hdot => ?_
  have hdotted := hoperand.append hdot.run
  refine .look (stays_nextIs false '(') fun assertion => .ite ?_ ?_
  · refine .part (runs_symbol (by decide)) fun opening f hopening => ?_
    refine .part (runs_inRole (by decide) (hg.type false)) fun type h htype => ?_
    refine .part (runs_symbol (by decide)) fun close i hclose => .pure fun m => .enclose rfl ?_
    exact ((hdotted.append hopening.run).append htype.run).append hclose.run
  · refine .part (runs_word rfl) fun field f hfield => .pure fun m => .enclose rfl ?_
    exact hdotted.append hfield.run

end

/-- **Whatever is applied to an operand**, the whole is a run from where the operand started. -/
theorem ensures_applications (hg : g.Runs) (site : Site) (start : Cursor) (rounds : Nat)
    {d : Cursor} (operand : Shape × List Node) (hoperand : ∀ m, Read m start operand.2 d) :
    (applications g site start rounds operand).Ensures d (Read m start) := by
  induction rounds generalizing operand d with
  | zero => exact .stuck
  | succ rounds ih =>
    obtain ⟨shape, operand⟩ := operand
    refine .look (stays_upcoming _) fun text => ?_
    split
    · exact .pure (hoperand m)
    · exact .bind (ensures_selector hg shape (hoperand .items)) fun next e hnext => ih next hnext
    · refine .bind (q := fun next e => ∀ m, Read m start next e) ?_ fun next e hnext => ih _ hnext
      refine fun next e h m => Ensures.orElse (ensures_indexOrSlice hg (hoperand .items)) ?_ h
      exact ensures_instantiation hg site shape.isName (hoperand .items)
    · refine .part (runs_arguments hg) fun arguments e harguments => ih _ fun m => .enclose rfl ?_
      exact (hoperand .items).append harguments.run
    -- the operand was the type of a literal, and is read again as such
    · refine .ite (.pure (hoperand m)) (.set ?_)
      refine .part (runs_inRole (by decide) (runs_namedType hg site.line)) fun type e htype => ?_
      refine .part (runs_inRole (by decide) hg.literalValue) fun body f hbody => ?_
      exact ih _ fun m => .enclose rfl (htype.append hbody.run)
    · exact .pure (hoperand m)

/-! ## Operands -/

/-- A literal or a conversion is a run from where its type starts. -/
theorem ensures_typedOperand (hg : g.Runs) {type : Rule (List Node)} {b c : Cursor}
    (htype : type.Ensures c (Read .items b)) (mayHoldLiteral : Bool) :
    (typedOperand g type mayHoldLiteral).Ensures c (Read m b) := by
  refine .bind htype fun type d htype => .look (stays_nextIs false '{') fun brace => .ite ?_ ?_
  · refine .part (runs_inRole (by decide) hg.literalValue) fun body e hbody => ?_
    exact .pure (.enclose rfl ((htype.labelled (by decide)).append hbody.run))
  · refine .part (runs_conversionOperand hg) fun operand e hoperand => ?_
    exact .pure (.enclose rfl ((htype.labelled (by decide)).append hoperand.run))

/-- A type, and the literal or the conversion that it starts. -/
theorem runs_typedOperand (hg : g.Runs) {type : Rule (List Node)} (htype : type.Runs .items)
    (mayHoldLiteral : Bool) : (typedOperand g type mayHoldLiteral).Runs m :=
  fun c => ensures_typedOperand hg (htype c) mayHoldLiteral

theorem runs_implicitLengthArrayType (hg : g.Runs) : (implicitLengthArrayType g).Runs m := by
  have helement : (inRole .element (g (.type false))).MayRun .items :=
    (runs_inRole (by decide) (hg.type false)).may
  refine runs_enclosed rfl fun c => .next (runs_symbol (by decide)) fun opening d hopening => ?_
  refine .extend hopening (runs_symbol (by decide)).may fun dots e hdots => ?_
  refine .extend hdots (runs_symbol (by decide)).may fun close f hclose => ?_
  exact .extend hclose helement fun element h hall => .pure hall

theorem runs_bracketOperand (hg : g.Runs) : (bracketOperand g).Runs m :=
  runs_typedOperand hg
    (fun c => .orElse (runs_bracketType hg false c) (runs_implicitLengthArrayType hg c)) true

/-- A function literal or a function type. -/
theorem runs_functionOperand (hg : g.Runs) : (functionOperand g).Runs m := by
  intro c
  refine .part (runs_signature hg false) fun signature d hsignature => ?_
  refine .look (stays_nextIs false '{') fun brace => .ite ?_ ?_
  · refine .part (runs_inRole (by decide) hg.block) fun body e hbody => .pure (.enclose rfl ?_)
    exact hsignature.append hbody.run
  · exact ensures_typedOperand hg (.pure (.enclose rfl hsignature)) false

/-- An expression or a type in parentheses. -/
theorem runs_parenthesizedOperand (hg : g.Runs) : (parenthesizedOperand g).Runs m := by
  intro c
  refine .orElse (runs_enclosed rfl ?_ c) (runs_typedOperand hg (hg.type false) false c)
  refine fun c => .next (runs_symbol (by decide)) fun opening d hopening => ?_
  refine .extend hopening (runs_innerExpression hg).may fun inner e hinner => ?_
  exact .extend hinner (runs_symbol (by decide)).may fun close f hall => .pure hall

/-- A rule that reads a value. -/
theorem ensures_value {rule : Rule (List Node)} (h : ∀ m, rule.Runs m) (c : Cursor) :
    Ensures (do return (Shape.value, ← rule)) c fun r d => ∀ m, Read m c r.2 d :=
  .anywhere h fun _ _ hnodes => .pure hnodes

/-- An operand that starts with a word. -/
theorem ensures_wordOperand (hg : g.Runs) (site : Site) (name : String) (c : Cursor) :
    (wordOperand g site name).Ensures c fun r d => ∀ m, Read m c r.2 d := by
  have hconversion := ensures_value (fun m => runs_typedOperand hg (hg.type false) false) c
  have hidentifier : ∀ m, (word .identifier).Runs m := fun m => runs_word rfl
  have hallocation : Ensures (do
      let name ← word .identifier
      if ← nextIs site.line '(' then
        let arguments ← allocationArguments g
        return (Shape.value, Node.enclose .callExpression (name ++ arguments))
      else return (Shape.value, name)) c fun r d => ∀ m, Read m c r.2 d := by
    refine .anywhere hidentifier fun name d hname => .look (stays_nextIs _ '(') fun call => ?_
    refine .ite (.part (runs_allocationArguments hg) fun arguments e harguments => ?_) (.pure hname)
    exact .pure fun m => .enclose rfl ((hname .items).append harguments.run)
  -- one case for each word, in the order of the rule
  unfold wordOperand
  split
  · exact ensures_value (fun m => runs_functionOperand hg) c
  · exact ensures_value (fun m => runs_typedOperand hg (runs_structType hg) true) c
  · exact ensures_value (fun m => runs_typedOperand hg (runs_mapType hg false) true) c
  · exact hconversion
  · exact hconversion
  · exact ensures_value (fun m => runs_word rfl) c
  · exact ensures_value (fun m => runs_word rfl) c
  · exact ensures_value (fun m => runs_word rfl) c
  · exact ensures_value (fun m => runs_word rfl) c
  · exact hallocation
  · exact hallocation
  · exact .anywhere hidentifier fun name d hname => .pure hname

section

variable {text : List Char} {a b : Option (Kind × Nat)}

/-- Of two readings of a literal, both of kinds that may stand anywhere, the longer is of one. -/
theorem isFree_of_longer (ha : ∀ x ∈ a, x.1.isFree) (hb : ∀ x ∈ b, x.1.isFree) :
    ∀ x ∈ Lexeme.longer a b, x.1.isFree := by
  intro x hx
  unfold Lexeme.longer at hx
  split at hx
  · split at hx
    · exact hb x hx
    · exact ha x hx
  · exact ha x hx
  · exact hb x hx

theorem isFree_of_imaginary? {length : Option Nat} :
    ∀ x ∈ Lexeme.imaginary? text length, x.1.isFree := by
  intro x hx
  obtain ⟨n, -, hn⟩ := Option.bind_eq_some_iff.1 hx
  split at hn
  · cases hn
    rfl
  · cases hn

theorem isFree_of_map {kind : Kind} (hk : kind.isFree) {length : Option Nat} :
    ∀ x ∈ length.map (Prod.mk kind), x.1.isFree := by
  intro x hx
  obtain ⟨n, -, rfl⟩ := Option.map_eq_some_iff.1 hx
  exact hk

/-- A number, a string or a rune is of a plain kind. -/
theorem isFree_of_literal :
    ∀ x ∈ Lexeme.longer (Lexeme.number? text)
      (Lexeme.longer (Lexeme.string? text) ((Lexeme.rune? text).map (.runeLiteral, ·))),
      x.1.isFree := by
  have hfloat : ∀ x ∈ Lexeme.longer ((Lexeme.decimalFloat? text).map (.floatLiteral, ·))
      ((Lexeme.hexFloat? text).map (.floatLiteral, ·)), x.1.isFree :=
    isFree_of_longer (isFree_of_map rfl) (isFree_of_map rfl)
  have himaginary : ∀ a b c : Option Nat, ∀ x ∈ Lexeme.longer (Lexeme.imaginary? text a)
      (Lexeme.longer (Lexeme.imaginary? text b) (Lexeme.imaginary? text c)), x.1.isFree :=
    fun a b c => isFree_of_longer isFree_of_imaginary?
      (isFree_of_longer isFree_of_imaginary? isFree_of_imaginary?)
  have hnumber : ∀ x ∈ Lexeme.number? text, x.1.isFree :=
    isFree_of_longer (isFree_of_map rfl) (isFree_of_longer hfloat (himaginary _ _ _))
  refine isFree_of_longer hnumber (isFree_of_longer ?_ (isFree_of_map rfl))
  exact fun x hx => isFree_of_string? hx

/-- An operator in front of an operand is of a plain kind. -/
theorem isFree_of_unaryOperator? {spelling : String}
    (h : Lexeme.unaryOperator? text = some spelling) : (Kind.token spelling).isFree := by
  have hall : ∀ s ∈ ["<-", "+", "-", "!", "^", "*", "&"], (Kind.token s).isFree := by decide
  exact hall spelling (List.mem_of_find?_eq_some h)

/-- An operator between operands is of a plain kind. -/
theorem isFree_of_binaryOperator? {statement : Bool} {spelling : String} {precedence : Nat}
    (h : Lexeme.binaryOperator? statement text = some (spelling, precedence)) :
    (Kind.token spelling).isFree := by
  have hall : ∀ o ∈ Lexeme.binaryOperators, (Kind.token o.1).isFree := by decide
  unfold Lexeme.binaryOperator? at h
  split at h
  · cases h
  · exact hall (spelling, precedence) (List.mem_of_find?_eq_some h)

end

/-- An operand is a run in every setting. -/
theorem ensures_operandRule (hg : g.Runs) (site : Site) (c : Cursor) :
    (operandRule g site).Ensures c fun r d => ∀ m, Read m c r.2 d := by
  refine .look (stays_upcoming false) fun text => ?_
  split
  · exact ensures_value (fun m => runs_parenthesizedOperand hg) c
  · exact ensures_value (fun m => runs_bracketOperand hg) c
  · exact ensures_value (fun m => runs_typedOperand hg (hg.type false) false) c
  · split
    · split
      · next kind n h => exact ensures_value (fun m => runs_take (isFree_of_literal _ h) n) c
      · exact .stuck
    · exact ensures_wordOperand hg site _ c

/-- An operator and its operand, or an operand and what is applied to it. -/
theorem runs_unaryRule (hg : g.Runs) (site : Site) : (unaryRule g site).Runs m := by
  intro c
  refine .look (stays_upcoming false) fun text => ?_
  split
  · next operator h =>
    have hoperator : (symbol operator).Runs .items := runs_symbol (isFree_of_unaryOperator? h)
    refine runs_enclosed rfl (fun c => .next hoperator fun operator d hoperator => ?_) c
    exact .extend hoperator (hg.expression _ _).may fun operand e hall => .pure hall
  · refine .get (.bind (ensures_operandRule hg site c) fun operand d hoperand => ?_)
    exact .bounded fun rounds => ensures_applications hg site c rounds operand hoperand

/-- Operators and operands behind a first one, by the levels of the operators. -/
theorem ensures_binaryTail (hg : g.Runs) (level : Nat) (site : Site) (rounds : Nat)
    {c d : Cursor} {left : List Node} (hleft : ∀ m, Read m c left d) :
    (binaryTail g level site rounds left).Ensures d (Read m c) := by
  induction rounds generalizing left d with
  | zero => exact .stuck
  | succ rounds ih =>
    refine .look (stays_upcoming _) fun text => ?_
    split
    · next spelling precedence h =>
      refine .ite (.pure (hleft m)) ?_
      refine .part (runs_symbol (isFree_of_binaryOperator? h)) fun operator e hoperator => ?_
      refine .part (hg.expression _ _) fun right f hright => ih fun m => .enclose rfl ?_
      exact ((hleft .items).append hoperator.run).append hright.run
    · exact .pure (hleft m)

/-- **Expressions** are runs. -/
theorem runs_expressionRule (hg : g.Runs) (level : Nat) (site : Site) :
    (expressionRule g level site).Runs m := by
  intro c
  refine .anywhere (fun m => runs_unaryRule hg site) fun first d hfirst => ?_
  exact .bounded fun rounds => ensures_binaryTail hg level site rounds hfirst

end GoOutline.Syntax
