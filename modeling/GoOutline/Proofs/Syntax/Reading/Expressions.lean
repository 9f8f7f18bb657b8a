import GoOutline.Proofs.Syntax.Reading.Types

/-!
# Reading types as expressions

In brackets, where the length of an array may stand, the text of a type is read as an expression
when it is a name, perhaps behind stars. The texts of all other types are not read there.

## Main definitions

* `TypeExpr.isOperand`: the types whose text is an expression too
* `Node.IsValue`: what the expression is read as

## Main results

* `reads_operand`: the text of a name is read as an expression
* `stops_operand`: the text of another type is not
-/

namespace GoOutline

open GoOutline.Syntax GoOutline.Text

/-- The text of the type is an expression too: a name, perhaps behind stars. -/
def TypeExpr.isOperand : TypeExpr → Bool
  | .named _ | .qualified _ _ => true
  | .pointer e => e.isOperand
  | _ => false

namespace Syntax

open Rule

/-- The tree has neither faults nor functions, and adds no weight wherever it stands. -/
structure Node.IsValue (n : Node) : Prop where
  isComment : n.isComment = false
  ne_typeIdentifier : n.kind ≠ .typeIdentifier
  quiet : n.Quiet
  weight : ∀ parent embedding, n.weight parent embedding = 0

/-- The kinds of words among operands. -/
def Kind.isOperandWord : Kind → Bool
  | .identifier | .fieldIdentifier | .nilLiteral | .trueLiteral | .falseLiteral
  | .iotaLiteral => true
  | _ => false

theorem Node.isValue_leaf {kind : Kind} {text : String} (h : kind.isOperandWord) :
    (Node.leaf kind nowhere text).IsValue := by
  unfold Kind.isOperandWord at h
  split at h
  case h_7 => cases h
  all_goals exact ⟨rfl, nofun, quiet_leaf _ (by decide), fun _ _ => rfl⟩

theorem Node.weightAll_eq_zero {ns : List Node}
    (h : ∀ n ∈ ns, ∀ parent embedding, n.weight parent embedding = 0) (parent : Kind)
    (embedding : Bool) : weightAll parent embedding ns = 0 := by
  induction ns with
  | nil => rfl
  | cons n rest ih =>
    obtain ⟨hn, hrest⟩ := List.forall_mem_cons.1 h
    rw [weightAll, hn, ih hrest]
    rfl

theorem Node.isValue_mark (spelling : String) : (Node.mark spelling).IsValue :=
  ⟨rfl, nofun, quiet_mark spelling, fun _ _ => rfl⟩

/-- An expression around values. -/
theorem Node.isValue_around {kind : Kind} {ns : List Node}
    (hkind : kind ∈ [.selectorExpression, .unaryExpression]) (h : ∀ n ∈ ns, n.IsValue) :
    (Node.around kind ns).IsValue := by
  have hweight : ∀ parent embedding, weightAll parent embedding ns = 0 :=
    weightAll_eq_zero fun n hn => (h n hn).weight
  simp only [List.mem_cons, List.not_mem_nil, or_false] at hkind
  have hname : kind ≠ .typeIdentifier := by
    rcases hkind with rfl | rfl <;> decide
  rcases hkind with rfl | rfl
  all_goals
    refine ⟨rfl, hname, quiet_around (by decide) fun n hn => (h n hn).quiet,
      fun parent embedding => ?_⟩
    rw [around, weight, hweight]
    rfl

section

variable {g : Grammar} {level : Nat} {text rest : List Char} {name : String} {e : TypeExpr}

/-- Nothing is applied to an operand in front of a closing bracket. -/
theorem reads_applications {start : Cursor} (rounds : Nat) {shape : Shape} {operand : List Node} :
    (applications g {} start (rounds + 1) (shape, operand)).Reads (']' :: rest) (']' :: rest)
      (· = operand) := by
  have hlead : Leads false (']' :: rest) (']' :: rest) := leads_token (by decide)
  exact (looks_upcoming false).bind hlead (.pure rfl)

/-- No operator follows an operand in front of a closing bracket. -/
theorem reads_binaryTail {rounds : Nat} {left : List Node} :
    (binaryTail g level {} (rounds + 1) left).Reads (']' :: rest) (']' :: rest) (· = left) := by
  have hlead : Leads false (']' :: rest) (']' :: rest) := leads_token (by decide)
  have hnone : Lexeme.binaryOperator? false (']' :: rest) = none := rfl
  refine (looks_upcoming false).bind hlead ?_
  simp only [id_eq, hnone]
  exact .pure rfl

theorem reads_expressionRule {post : List Node → Prop}
    (h : (unaryRule g {}).Reads text (']' :: rest) post) :
    (expressionRule g level {}).Reads text (']' :: rest) post := by
  refine .bind h fun first hfirst => .bounded (reads_binaryTail.mono ?_)
  rintro _ rfl
  exact hfirst

/-! ## Names -/

theorem unaryOperator?_eq_none {after : List Char} (hname : IsIdentifier name) :
    Lexeme.unaryOperator? (name.toList ++ after) = none := by
  have hheads : ∀ spelling ∈ ["<-", "+", "-", "!", "^", "*", "&"], ∃ c,
      spelling.toList.head? = some c ∧ Identifier.isStart c = false := by
    intro spelling hspelling
    simp only [List.mem_cons, List.not_mem_nil, or_false] at hspelling
    rcases hspelling with rfl | rfl | rfl | rfl | rfl | rfl | rfl
    all_goals exact ⟨_, rfl, by decide⟩
  refine List.find?_eq_none.2 fun spelling hspelling => ?_
  obtain ⟨c, hc, hstart⟩ := hheads spelling hspelling
  rw [Lexeme.startsWith_eq_false hc (hname.isWord.head?_ne hstart)]
  exact Bool.false_ne_true

/-- A name is an operand. -/
theorem reads_wordOperand {site : Site} {after : List Char} (hname : IsIdentifier name)
    (hlead : Leads false text (name.toList ++ after)) (hends : Lexeme.EndsWord after)
    (hafter : Leads site.line after after) (hparenthesis : (after.head? == some '(') = false) :
    (wordOperand g site name).Reads text after fun r =>
      ∃ kind, Kind.isOperandWord kind ∧ Node.unplacedAll r.2 = [.leaf kind nowhere name] := by
  have hword : ∀ kind, (word kind).ReadsAs text after [.leaf kind nowhere name] := by
    intro kind
    have hread : (word kind).ReadsAs text after [.leaf kind nowhere (String.ofList name.toList)] :=
      reads_word hlead hname.isWord hends
    rwa [String.ofList_toList] at hread
  have hkeyword := hname.not_typeKeyword
  unfold wordOperand
  split
  case h_6 => exact .bind (hword .nilLiteral) fun ns hns => .pure ⟨_, rfl, hns⟩
  case h_7 => exact .bind (hword .trueLiteral) fun ns hns => .pure ⟨_, rfl, hns⟩
  case h_8 => exact .bind (hword .falseLiteral) fun ns hns => .pure ⟨_, rfl, hns⟩
  case h_9 => exact .bind (hword .iotaLiteral) fun ns hns => .pure ⟨_, rfl, hns⟩
  case h_12 => exact .bind (hword .identifier) fun ns hns => .pure ⟨_, rfl, hns⟩
  case h_10 | h_11 =>
    refine .bind (hword .identifier) fun ns hns => (looks_nextIs site.line '(').bind hafter ?_
    rw [hparenthesis, if_neg Bool.false_ne_true]
    exact .pure ⟨_, rfl, hns⟩
  all_goals exact absurd (by decide) hkeyword

/-- A name is an operand of any expression. -/
theorem reads_unaryRule_name {after : List Char} {post : List Node → Prop}
    (hname : IsIdentifier name) (hlead : Leads false text (name.toList ++ after))
    (hends : Lexeme.EndsWord after) (hafter : Leads false after after)
    (hparenthesis : (after.head? == some '(') = false)
    (happly : ∀ start shape operand kind, Kind.isOperandWord kind →
      Node.unplacedAll operand = [.leaf kind nowhere name] →
      (bounded fun rounds => applications g {} start rounds (shape, operand)).Reads
        after rest post) :
    (unaryRule g {}).Reads text rest post := by
  refine (looks_upcoming false).bind hlead ?_
  rw [id_eq, unaryOperator?_eq_none hname]
  refine .get fun p => ?_
  have hoperand : (operandRule g {}).Reads text after fun r =>
      ∃ kind, Kind.isOperandWord kind ∧ Node.unplacedAll r.2 = [.leaf kind nowhere name] := by
    refine (looks_upcoming false).bind hlead ?_
    have hnot : ∀ c more, Identifier.isStart c = false → name.toList ++ after ≠ c :: more :=
      fun c more hc => hname.isWord.append_ne_cons hc
    have hword : String.ofList (Lexeme.word (name.toList ++ after)) = name := by
      rw [hname.isWord.word_append hends, String.ofList_toList]
    dsimp only [id_eq]
    split
    case h_4 =>
      rw [hword]
      split
      · exact absurd rfl hname.isWord.1
      · exact reads_wordOperand hname hlead hends hafter hparenthesis
    all_goals next heq => exact absurd heq (hnot _ _ (by decide))
  refine .bind hoperand ?_
  rintro ⟨shape, operand⟩ ⟨kind, hkind, hns⟩
  exact happly _ shape operand kind hkind hns

end

/-! ## Types in the place of an expression -/

/-- The grammar reads the text of a type in brackets as an expression. -/
def Grammar.ReadsOperand (g : Grammar) (e : TypeExpr) : Prop :=
  ∀ {level text rest}, Leads false text (e.render.toList ++ (']' :: rest)) →
    (g (.expression level {})).ReadsOne text (']' :: rest) Node.IsValue

/-- The grammar does not read the text of a type in brackets as an expression. -/
def Grammar.StopsOperand (g : Grammar) (e : TypeExpr) : Prop :=
  ∀ {level text rest}, Leads false text (e.render.toList ++ (']' :: rest)) →
    (g (.expression level {})).Stops text

section

variable {g : Grammar} {text rest : List Char} {name package : String} {e : TypeExpr}

theorem readsOperand_named (hname : IsIdentifier name) :
    Grammar.ReadsOperand (ruleOf g) (.named name) := by
  intro level text rest hlead
  refine reads_expressionRule ?_
  refine reads_unaryRule_name hname hlead (Lexeme.endsWord_cons (by decide))
    (leads_token (by decide)) rfl ?_
  intro start shape operand kind hkind hoperand
  refine .bounded ((reads_applications _).mono ?_)
  rintro _ rfl
  exact ⟨_, hoperand, Node.isValue_leaf hkind⟩

/-- A name behind a dot is applied to an operand. -/
theorem reads_selector {shape : Shape} {operand : List Node} {kind : Kind}
    (hname : IsIdentifier name) (hkind : kind.isOperandWord)
    (hoperand : Node.unplacedAll operand = [.leaf kind nowhere package]) :
    (selector g shape operand).Reads (".".toList ++ (name.toList ++ (']' :: rest))) (']' :: rest)
      fun r => ∃ n, Node.unplacedAll r.2 = [n] ∧ n.IsValue := by
  refine .bind (reads_symbol (leads_token (by decide))) fun dot hdot => ?_
  refine (looks_nextIs false '(').bind hname.isWord.leads ?_
  rw [hname.isWord.head?_ne (by decide), if_neg Bool.false_ne_true]
  refine .bind (reads_word hname.isWord.leads hname.isWord (Lexeme.endsWord_cons (by decide)))
    fun field hfield => .pure ⟨.around .selectorExpression [.leaf kind nowhere package, .mark ".",
      .leaf .fieldIdentifier nowhere (String.ofList name.toList)], ?_, ?_⟩
  · refine Node.unplacedAll_enclose _ ?_ (Node.isValue_leaf hkind).isComment
    rw [Node.unplacedAll_append, Node.unplacedAll_append, hoperand, hdot, hfield]
    rfl
  · refine Node.isValue_around (by decide) ?_
    have hfield : ∀ text, (Node.leaf .fieldIdentifier nowhere text).IsValue :=
      fun text => Node.isValue_leaf rfl
    simp [Node.isValue_leaf hkind, Node.isValue_mark, hfield]

theorem readsOperand_qualified (hpackage : IsIdentifier package) (hname : IsIdentifier name) :
    Grammar.ReadsOperand (ruleOf g) (.qualified package name) := by
  intro level text rest hlead
  rw [TypeExpr.toList_render_qualified] at hlead
  refine reads_expressionRule ?_
  refine reads_unaryRule_name hpackage hlead (Lexeme.endsWord_cons (by decide))
    (leads_token (by decide)) rfl ?_
  intro start shape operand kind hkind hoperand
  have hdot : Leads false (".".toList ++ (name.toList ++ (']' :: rest)))
      (".".toList ++ (name.toList ++ (']' :: rest))) := leads_token (by decide)
  refine .bounded ((looks_upcoming false).bind hdot ?_)
  -- the dot is followed by a name, so it is a selector; behind it nothing is applied
  dsimp only [id_eq]
  split
  · next heq => exact absurd (List.cons.inj heq).2 (hname.isWord.append_ne_cons (by decide))
  · refine .bind (reads_selector hname hkind hoperand) ?_
    rintro ⟨shape', operand'⟩ hoperand'
    refine (reads_applications (name.toList ++ (']' :: rest)).length).mono ?_
    rintro _ rfl
    exact hoperand'
  · next heq => exact absurd (List.cons.inj heq).1 (by decide)
  · next heq => exact absurd (List.cons.inj heq).1 (by decide)
  · next heq => exact absurd (List.cons.inj heq).1 (by decide)
  · next hother _ _ _ => exact absurd rfl (hother _)

/-- A star is an operator in front of an operand. -/
theorem readsOperand_pointer (he : e.Writable) (h : g.ReadsOperand e) :
    Grammar.ReadsOperand (ruleOf g) (.pointer e) := by
  intro level text rest hlead
  rw [TypeExpr.toList_render_pointer] at hlead
  refine reads_expressionRule ((looks_upcoming false).bind hlead ?_)
  have hread : Reads (do
      let operator ← symbol "*"
      let operand ← g (.expression Goal.operandLevel {})
      return operator ++ operand) text (']' :: rest) fun ns =>
        ∃ n, Node.unplacedAll ns = [.mark "*", n] ∧ n.IsValue := by
    refine .bind (reads_symbol hlead) fun operator hoperator => ?_
    refine .bind (h he.leads) fun operand hoperand => ?_
    obtain ⟨n, hn, hvalue⟩ := hoperand
    refine .pure ⟨n, ?_, hvalue⟩
    rw [Node.unplacedAll_append, hoperator, hn]
    rfl
  refine .map hread ?_
  rintro ns ⟨n, hn, hvalue⟩
  refine ⟨.around .unaryExpression [.mark "*", n], Node.unplacedAll_enclose _ hn rfl, ?_⟩
  exact Node.isValue_around (by decide) (by simp [Node.isValue_mark, hvalue])

/-! ### Types that are no expressions -/

/-- A type in front of a closing bracket is neither a literal nor a conversion. -/
theorem stops_typedOperand {type : Rule (List Node)} {mayHoldLiteral : Bool} {n : Node}
    (h : type.ReadsAs text (']' :: rest) [n]) :
    (typedOperand g type mayHoldLiteral).Stops text := by
  have hlead : Leads false (']' :: rest) (']' :: rest) := leads_token (by decide)
  refine Reads.bind_stops h fun ns _ => (looks_nextIs false '{').bind_stops hlead ?_
  have hbrace : ((']' :: rest).head? == some '{') = false := rfl
  rw [hbrace, Bool.and_false, if_neg Bool.false_ne_true]
  exact Stops.bind (Stops.bind (stops_symbol hlead rfl))

/-- An expression stops where its operand does. -/
theorem stops_expressionRule {level : Nat} {token : List Char} (hlead : Leads false text token)
    (hoperator : Lexeme.unaryOperator? token = none) (h : (operandRule g {}).Stops text) :
    (expressionRule g level {}).Stops text := by
  refine Stops.bind ((looks_upcoming false).bind_stops hlead ?_)
  rw [id_eq, hoperator]
  exact Stops.get fun p => Stops.bind h

theorem stopsOperand_slice (he : e.Writable) (h : g.ReadsType e) :
    Grammar.StopsOperand (ruleOf g) (.slice e) := by
  intro level text rest hlead
  have htype : (bracketType g false).ReadsAs text (']' :: rest) [(TypeExpr.slice e).tree] :=
    reads_bracketType he h hlead (endsType_cons (by decide))
  rw [TypeExpr.toList_render_slice] at hlead
  refine stops_expressionRule hlead rfl ((looks_upcoming false).bind_stops hlead ?_)
  exact Stops.bind (stops_typedOperand (Reads.orElse htype))

theorem stopsOperand_map {key value : TypeExpr} (hkey : key.Writable) (hvalue : value.Writable)
    (hk : g.ReadsType key) (hv : g.ReadsType value) :
    Grammar.StopsOperand (ruleOf g) (.map key value) := by
  intro level text rest hlead
  have htype : (mapType g false).ReadsAs text (']' :: rest) [(TypeExpr.map key value).tree] :=
    reads_mapType hkey hvalue hk hv hlead (endsType_cons (by decide))
  rw [TypeExpr.toList_render_map] at hlead
  refine stops_expressionRule hlead rfl ((looks_upcoming false).bind_stops hlead ?_)
  exact Stops.bind (stops_typedOperand htype)

theorem stopsOperand_chan (h : g.ReadsType (.chan e)) :
    Grammar.StopsOperand (ruleOf g) (.chan e) := by
  intro level text rest hlead
  have htype : (g (.type false)).ReadsAs text (']' :: rest) [(TypeExpr.chan e).tree] :=
    h hlead (endsType_cons (by decide))
  rw [TypeExpr.toList_render_chan] at hlead
  refine stops_expressionRule hlead rfl ((looks_upcoming false).bind_stops hlead ?_)
  exact Stops.bind (stops_typedOperand htype)

theorem stopsOperand_interface (h : g.ReadsType .interface) :
    Grammar.StopsOperand (ruleOf g) .interface := by
  intro level text rest hlead
  have htype : (g (.type false)).ReadsAs text (']' :: rest) [TypeExpr.interface.tree] :=
    h hlead (endsType_cons (by decide))
  rw [TypeExpr.toList_render_interface] at hlead
  refine stops_expressionRule hlead rfl ((looks_upcoming false).bind_stops hlead ?_)
  exact Stops.bind (stops_typedOperand htype)

theorem stopsOperand_pointer (he : e.Writable) (h : g.StopsOperand e) :
    Grammar.StopsOperand (ruleOf g) (.pointer e) := by
  intro level text rest hlead
  rw [TypeExpr.toList_render_pointer] at hlead
  refine Stops.bind ((looks_upcoming false).bind_stops hlead (Stops.map ?_))
  exact Reads.bind_stops (reads_symbol hlead) fun operator _ => Stops.bind (h he.leads)

end

/-! ## The grammar -/

/-- **Names are read as expressions** in brackets, behind any number of stars. -/
theorem reads_operand {e : TypeExpr} (he : e.Writable) {depth : Nat} (hdepth : e.height ≤ depth)
    (hoperand : e.isOperand) : (grammar depth).ReadsOperand e := by
  induction he generalizing depth with
  | named hname =>
    obtain ⟨d, rfl⟩ := Nat.exists_eq_add_of_le' hdepth
    exact readsOperand_named hname
  | qualified hpackage hname =>
    obtain ⟨d, rfl⟩ := Nat.exists_eq_add_of_le' hdepth
    exact readsOperand_qualified hpackage hname
  | pointer he ih =>
    obtain ⟨d, rfl⟩ := Nat.exists_eq_add_of_le' (Nat.one_le_of_lt hdepth)
    exact readsOperand_pointer he (ih (Nat.le_of_succ_le_succ hdepth) hoperand)
  | slice => cases hoperand
  | map => cases hoperand
  | interface => cases hoperand
  | chan => cases hoperand

/-- **Other types are no expressions** in brackets. -/
theorem stops_operand {e : TypeExpr} (he : e.Writable) {depth : Nat} (hdepth : e.height < depth)
    (hoperand : e.isOperand = false) : (grammar depth).StopsOperand e := by
  induction he generalizing depth with
  | named => cases hoperand
  | qualified => cases hoperand
  | pointer he ih =>
    obtain ⟨d, rfl⟩ := Nat.exists_eq_add_of_le' (Nat.one_le_of_lt hdepth)
    exact stopsOperand_pointer he (ih (Nat.lt_of_succ_lt_succ hdepth) hoperand)
  | slice he =>
    obtain ⟨d, rfl⟩ := Nat.exists_eq_add_of_le' (Nat.one_le_of_lt hdepth)
    refine stopsOperand_slice he (readsType_grammar he ?_)
    exact Nat.le_of_lt (Nat.lt_of_succ_lt_succ hdepth)
  | map hkey hvalue =>
    obtain ⟨d, rfl⟩ := Nat.exists_eq_add_of_le' (Nat.one_le_of_lt hdepth)
    obtain ⟨hk, hv⟩ := Nat.max_lt.1 (Nat.lt_of_succ_lt_succ hdepth)
    exact stopsOperand_map hkey hvalue (readsType_grammar hkey hk.le)
      (readsType_grammar hvalue hv.le)
  | interface =>
    obtain ⟨d, rfl⟩ := Nat.exists_eq_add_of_le' (Nat.one_le_of_lt hdepth)
    exact stopsOperand_interface (readsType_grammar .interface (Nat.le_of_lt_succ hdepth))
  | chan he =>
    obtain ⟨d, rfl⟩ := Nat.exists_eq_add_of_le' (Nat.one_le_of_lt hdepth)
    exact stopsOperand_chan (readsType_grammar (.chan he) (Nat.le_of_lt_succ hdepth))

end Syntax

end GoOutline
