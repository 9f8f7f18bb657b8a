import GoOutline.Proofs.Syntax.Runs.Declarations
import GoOutline.Syntax.Grammar.Statements

/-!
# Runs of statements

The rules for statements read runs, given a grammar that does. Semicolons stand between statements,
where each follows on one, and between the parts of a header.

## Main results

* `runs_statementRule`, `runs_blockRule`, `runs_ifRule`: the statements that other rules refer to
-/

namespace GoOutline.Syntax

open Rule

variable {g : Grammar} {m : Setting}

/-! ## Simple statements -/

/-- What stands left in a simple statement is a run of its own. -/
theorem ensures_leftSide (hg : g.Runs) (site : Site) (c : Cursor) :
    (leftSide g site).Ensures c fun left d => ∀ m, Read m c (left.first ++ left.more) d := by
  refine .anywhere (fun m => hg.expression _ _) fun first d hfirst => ?_
  refine .look (stays_nextIs _ ',') fun comma => .ite ?_ (.pure fun m => ?_)
  · refine .anywhere (fun m => runs_comma) fun comma e hcomma => ?_
    refine .anywhere (fun m => .bounded (runs_commaList (hg.expression _ _))) fun more f hmore => ?_
    exact .pure fun m => (hfirst m).append ((hcomma m).append (hmore m).run).run
  · rw [List.append_nil]
    exact hfirst m

section

variable {c d : Cursor}

/-- A left side, an operator and what stands to its right, as one node. -/
theorem ensures_operation {kind : Kind} (hk : kind.isFree) {spelling : String}
    (hs : (Kind.token spelling).isFree) {left : List Node} (hleft : Read .items c left d)
    {right : Rule (List Node)} (hright : right.Runs .items) :
    Ensures (do
      let operator ← symbol spelling
      let values ← right
      return Node.enclose kind (left ++ operator ++ values)) d (Read m c) := by
  refine .part (runs_symbol hs) fun operator e hoperator => ?_
  refine .part hright fun values f hvalues => .pure (.enclose hk ?_)
  exact (hleft.append hoperator.run).append hvalues.run

/-- A left side and the operator after it, as one node. -/
theorem ensures_postfix {kind : Kind} (hk : kind.isFree) {spelling : String}
    (hs : (Kind.token spelling).isFree) {left : List Node} (hleft : Read .items c left d) :
    Ensures (do return Node.enclose kind (left ++ (← symbol spelling))) d (Read m c) :=
  .part (runs_symbol hs) fun _ _ hoperator => .pure (.enclose hk (hleft.append hoperator.run))

/-- An assignment operator is of a plain kind. -/
theorem isFree_of_assign {text : List Char} {spelling : String}
    (h : continuation? text = some (.assign spelling)) : (Kind.token spelling).isFree := by
  have hall : ∀ s ∈ Lexeme.assignmentOperators, (Kind.token s).isFree := by decide
  have hoperator : Lexeme.assignmentOperator? text = some spelling := by
    unfold continuation? at h
    split_ifs at h
    · cases h
    · cases h
    · cases h
    · cases h
    · obtain ⟨s, hs, heq⟩ := Option.map_eq_some_iff.1 h
      cases heq
      exact hs
  unfold Lexeme.assignmentOperator? at hoperator
  split at hoperator
  · cases hoperator
  · exact hall spelling (List.mem_of_find?_eq_some hoperator)

/-- Whatever follows on its left side, a simple statement is a run. -/
theorem ensures_simpleTail (hg : g.Runs) (line : Bool) (right : Site) {left : LeftSide}
    (hleft : Read .items c (left.first ++ left.more) d) :
    (simpleTail g line right left).Ensures d (Read m c) := by
  have hvalues : (expressionList g right right).Runs .items := runs_expressionList hg right right
  have hlist : Read .items c left.list d := .enclose rfl hleft
  refine .look (stays_upcoming line) fun text => ?_
  split
  · exact ensures_operation rfl (by decide) hlist hvalues
  · next spelling h => exact ensures_operation rfl (isFree_of_assign h) hlist hvalues
  · extract_lets k
    have hk : left.more = [] → ∀ r, (k r).Ensures d (Read m c) := by
      intro hmore r
      rw [hmore, List.append_nil] at hleft
      simp only [k]
      split
      · exact ensures_postfix rfl (by decide) hleft
      · exact ensures_postfix rfl (by decide) hleft
      · exact ensures_operation rfl (by decide) hleft (hg.expression _ _)
      · exact .pure (.enclose rfl hleft)
    split
    · exact .stopped
    · next hmore => exact hk (by simpa using hmore) ()

end

theorem runs_simpleStatement (hg : g.Runs) (site right : Site) :
    (simpleStatement g site right).Runs m :=
  fun c => .bind (ensures_leftSide hg site c) fun _ _ hleft =>
    ensures_simpleTail hg site.line right (hleft .items)

/-! ## Lists of statements -/

theorem stays_listEnds (place : Place) : (listEnds place).Stays :=
  .bind (stays_upcoming false) fun _ => .ite (stays_pure true) (stays_pure _)

/-- A rule that only tells what it finds. -/
theorem stays_probe (look : Rule Bool) : Stays fun cursor =>
    match look cursor with
    | .ok (found, _) => .ok (found, cursor)
    | .error _ => .ok (false, cursor) := by
  intro c found d h
  dsimp only at h
  split at h
  · cases h
    rfl
  · cases h
    rfl

theorem stays_labelAhead : labelAhead.Stays := stays_probe _

/-- A name and its colon. -/
theorem runs_label : label.Runs m := by
  refine fun c => .next (runs_word rfl) fun name d hname => ?_
  exact .extend hname (runs_symbol (by decide)).may fun colon e hall => .pure hall

/-- A label with nothing after it is a run; without one the rule stays. -/
theorem ensures_emptyLabel? (place : Place) (c : Cursor) :
    (emptyLabel? place).Ensures c fun o d => (∀ ns ∈ o, Read m c ns d) ∧ (o = none → d = c) := by
  refine .get (.look stays_labelAhead fun ahead => .ite (.pure ⟨nofun, fun _ => rfl⟩) ?_)
  refine .part runs_label fun parts d hparts => .look (stays_listEnds place) fun ends => ?_
  refine .ite (.pure ⟨?_, nofun⟩) (.set (.pure ⟨nofun, fun _ => rfl⟩))
  rintro ns ⟨rfl⟩
  exact .enclose rfl hparts

/-- Statements with terminators between them, labels among them. -/
theorem mayRun_statementList (hg : g.Runs) (place : Place) (rounds : Nat) :
    (statementList g place rounds).MayRun .items := by
  induction rounds with
  | zero => exact fun _ => .stuck
  | succ rounds ih =>
    intro c
    refine .look (stays_listEnds place) fun ends => .ite (mayRun_nil c) ?_
    refine .bind (ensures_emptyLabel? (m := .items) place c) fun label d hlabel => ?_
    -- a label without a statement ends the list
    cases label with
    | some parts => exact .pure (hlabel.1 parts rfl).run
    | none =>
      obtain rfl := hlabel.2 rfl
      refine .bind (hg.statement _ d) fun first e hfirst => ?_
      refine .terminator? hfirst (fun ts f hitem => ?_) (.pure (.items hfirst.run))
      exact .bind (ih f) fun more h hmore => .pure (hitem.append hmore)

/-- Statements in braces. -/
theorem runs_blockRule (hg : g.Runs) : (blockRule g).Runs m := by
  refine runs_enclosed rfl fun c => .next (runs_symbol (by decide)) fun opening d hopening => ?_
  refine .extend hopening (.bounded (mayRun_statementList hg .body)) fun body e hbody => ?_
  exact .extend hbody (runs_symbol (by decide)).may fun close f hall => .pure hall

/-! ## Conditional statements and loops -/

/-- The condition of a conditional statement, perhaps behind a simple statement. -/
theorem runs_ifHeader (hg : g.Runs) : (ifHeader g).Runs .header := by
  intro c
  refine .next (runs_simpleStatement hg headerSite {}) fun first d hfirst => ?_
  refine .look (stays_nextIs false ';') fun semicolon => .ite ?_ (.ite (.pure hfirst) .stuck)
  refine .next runs_semicolon fun semicolon e hsemicolon => ?_
  refine .next (hg.expression _ _) fun condition f hcondition => .pure ?_
  exact (hfirst.append hsemicolon.run).append hcondition.run

/-- A conditional statement and its alternative. -/
theorem runs_ifRule (hg : g.Runs) : (ifRule g).Runs m := by
  refine runs_header (by decide) fun c => .next (runs_keyword (by decide)) fun head d hhead => ?_
  refine .next (runs_ifHeader hg) fun header e hheader => ?_
  refine .next hg.block fun consequence f hconsequence => ?_
  have hsofar := (hhead.append hheader.run).append hconsequence.run
  refine .look (stays_nextWord true) fun word => .ite ?_ (.pure hsofar)
  refine .next (runs_keyword (by decide)) fun otherwise h hotherwise => ?_
  refine .look (stays_nextWord false) fun word => ?_
  refine .perhaps_ite hg.ifStatement.may hg.block.may fun alternative i halternative => .pure ?_
  exact (hsofar.append hotherwise.run).append halternative

theorem runs_rangeTail (hg : g.Runs) : (rangeTail g).Runs m := by
  refine fun c => .next (runs_keyword (by decide)) fun range d hrange => ?_
  exact .extend hrange (Runs.may (hg.expression _ _)) fun value e hall => .pure hall

/-- The two semicolons in the header of a loop and what stands between and behind them. -/
theorem runs_clauseTail (hg : g.Runs) : (clauseTail g).Runs .header := by
  intro c
  refine .next runs_semicolon fun first d hfirst => .look (stays_nextIs false ';') fun empty => ?_
  refine .perhaps_ite mayRun_nil (Runs.may (hg.expression _ _)) fun condition e hcondition => ?_
  refine .next runs_semicolon fun second f hsecond => .look (stays_nextIs false '{') fun empty => ?_
  have hupdate : (simpleStatement g headerSite headerSite).Runs .header :=
    runs_simpleStatement hg headerSite headerSite
  refine .perhaps_ite mayRun_nil hupdate.may fun update h hupdate => .pure ?_
  exact ((hfirst.append hcondition).append hsecond.run).append hupdate

/-- The header of a loop: clauses, a range, a condition or nothing. -/
theorem mayRun_forHeader (hg : g.Runs) : (forHeader g).MayRun m := by
  intro c
  refine .look (stays_nextIs false '{') fun empty => .ite (mayRun_nil c) ?_
  refine .look (stays_nextIs false ';') fun clauses => ?_
  refine .ite ((runs_header (by decide) (runs_clauseTail hg)).may c) ?_
  refine .look (stays_nextWord false) fun word => ?_
  refine .ite ((runs_enclosed rfl (runs_rangeTail hg)).may c) ?_
  refine .mono ?_ fun ns e (h : Read m c ns e) => h.run
  refine .bind (ensures_leftSide hg headerSite c) fun left d hleft => .get ?_
  have hlist : Read .items c left.list d := .enclose rfl (hleft .items)
  refine .look (stays_upcoming false) fun text => ?_
  extract_lets k
  have hk : ∀ operator e, Run .items d operator e → (k operator).Ensures e (Read m c) := by
    intro operator e hoperator
    refine .look (stays_nextWord false) fun word => .ite ?_ (.set ?_)
    -- a range, or the left side is that of a simple statement after all
    · refine .part (runs_rangeTail hg) fun tail f htail => .pure (.enclose rfl ?_)
      exact (hlist.append hoperator).append htail.run
    · refine .bind (q := fun first e => ∀ m, Read m c first e) ?_ fun first e hfirst => ?_
      · exact fun _ _ h m => ensures_simpleTail hg false {} (hleft .items) h
      refine .look (stays_nextIs false ';') fun more => .ite ?_ (.ite (.pure (hfirst m)) .stuck)
      refine .bind (runs_clauseTail hg e) fun tail f htail => .pure (.header (by decide) ?_)
      exact (hfirst .header).append htail.run
  split
  · exact .bind ((runs_symbol (by decide)).may d) hk
  · exact .bind ((runs_symbol (by decide)).may d) hk
  · exact .bind (mayRun_nil d) hk

theorem runs_forRule (hg : g.Runs) : (forRule g).Runs m := by
  refine runs_enclosed rfl fun c => .next (runs_keyword (by decide)) fun head d hhead => ?_
  refine .extend hhead (mayRun_forHeader hg) fun header e hheader => ?_
  exact .extend hheader (runs_inRole (by decide) hg.block).may fun body f hall => .pure hall

/-! ## Switch and select statements -/

theorem runs_defaultCase (hg : g.Runs) : (defaultCase g).Runs m := by
  refine runs_enclosed rfl fun c => .next (runs_keyword (by decide)) fun head d hhead => ?_
  refine .extend hhead (runs_symbol (by decide)).may fun colon e hcolon => ?_
  exact .extend hcolon (.bounded (mayRun_statementList hg .clause)) fun body f hall => .pure hall

/-- A case with what it is about, and its statements. -/
theorem runs_caseClause (hg : g.Runs) {kind : Kind} (hk : kind.isFree)
    {subject : Rule (List Node)} (h : subject.Runs .items) :
    (caseClause g kind subject).Runs m := by
  refine runs_enclosed hk fun c => .next (runs_keyword (by decide)) fun head d hhead => ?_
  refine .extend hhead h.may fun subject e hsubject => ?_
  refine .extend hsubject (runs_symbol (by decide)).may fun colon f hcolon => ?_
  exact .extend hcolon (.bounded (mayRun_statementList hg .clause)) fun body i hall => .pure hall

/-- Cases and defaults in any order. -/
theorem mayRun_clauses (hg : g.Runs) {case : Rule (List Node)} (h : case.Runs m) (rounds : Nat) :
    (clauses g case rounds).MayRun m := by
  induction rounds with
  | zero => exact fun _ => .stuck
  | succ rounds ih =>
    intro c
    -- a clause of either kind has the other clauses behind it
    have hall : ∀ clause : Rule (List Node), clause.Runs m →
        Ensures (do let first ← clause; return first ++ (← clauses g case rounds)) c (Run m c) := by
      intro clause hclause
      refine .bind (hclause.may c) fun first d hfirst => ?_
      exact .bind (ih d) fun rest e hrest => .pure (hfirst.append hrest)
    refine .look (stays_nextWord false) fun word => ?_
    split
    · exact hall case h
    · exact hall _ (runs_defaultCase hg)
    · exact mayRun_nil c

theorem runs_clauseBody (hg : g.Runs) {case : Rule (List Node)} (h : case.Runs m) :
    (clauseBody g case).Runs m := by
  refine fun c => .next (runs_symbol (by decide)) fun opening d hopening => ?_
  refine .extend hopening (.bounded (mayRun_clauses hg h)) fun clauses e hclauses => ?_
  exact .extend hclauses (runs_symbol (by decide)).may fun close f hall => .pure hall

/-- The header of a switch, in front of its braces. -/
theorem ensures_switchHeader (hg : g.Runs) (c : Cursor) :
    (switchHeader g).Ensures c fun r d => Run .header c (r.1 ++ r.2) d := by
  have hsimple : (simpleStatement g headerSite {}).Runs .header :=
    runs_simpleStatement hg headerSite {}
  refine .look (stays_nextIs false '{') fun empty => .ite (.pure (.nil _ c)) ?_
  refine .bind (hsimple c) fun first d hfirst => .look (stays_nextIs false ';') fun semicolon => ?_
  refine .ite ?_ (.pure hfirst.run)
  refine .bind (runs_semicolon d) fun semicolon e hsemicolon => ?_
  have hsofar := hfirst.append hsemicolon.run
  refine .look (stays_nextIs false '{') fun empty => .ite (.pure ?_) ?_
  · rw [List.append_nil]
    exact hsofar.run
  · exact .bind (hsimple e) fun second f hsecond => .pure (hsofar.append hsecond.run).run

theorem runs_switchRule (hg : g.Runs) : (switchRule g).Runs m := by
  intro c
  refine .bind (runs_keyword (m := .header) (by decide) c) fun head d hhead => ?_
  refine .bind (ensures_switchHeader hg d) fun header e hheader => ?_
  obtain ⟨initializer, subject⟩ := header
  have hbody : ∀ {kind case}, kind ∈ headerKinds → case.Runs .header → Ensures (do
      let body ← clauseBody g case
      return Node.enclose kind (head ++ initializer ++ subject ++ body)) e (Read m c) := by
    intro kind case hkind hcase
    refine .bind (runs_clauseBody hg hcase e) fun body f hbody => .pure (.header hkind ?_)
    rw [List.append_assoc head]
    exact (hhead.append hheader).append hbody.run
  refine .ite (hbody (by decide) (runs_caseClause hg rfl ?_))
    (.ite (hbody (by decide) (runs_caseClause hg rfl ?_)) .stuck)
  · exact .bounded (runs_commaList (runs_inRole (by decide) (hg.type false)))
  · exact runs_expressionList hg {} {}

/-- What a case of a select statement waits for. -/
theorem runs_communication (hg : g.Runs) : (communication g).Runs m := by
  intro c
  have hvalue : (innerExpression g).Runs .items := runs_innerExpression hg
  refine .bind (ensures_leftSide hg {} c) fun left d hleft => ?_
  have hlist : Read .items c left.list d := .enclose rfl (hleft .items)
  refine .look (stays_upcoming false) fun text => ?_
  split
  · exact ensures_operation rfl (by decide) hlist hvalue
  · exact ensures_operation rfl (by decide) hlist hvalue
  · extract_lets k
    have hk : left.more = [] → ∀ r, (k r).Ensures d (Read m c) := by
      intro hmore r
      have hfirst := hleft .items
      rw [hmore, List.append_nil] at hfirst
      refine .ite ?_ (.pure (.enclose rfl hfirst))
      exact ensures_operation rfl (by decide) hfirst hvalue
    split
    · exact .stopped
    · next hmore => exact hk (by simpa using hmore) ()

theorem runs_selectRule (hg : g.Runs) : (selectRule g).Runs m := by
  have hcase : (caseClause g .communicationCase (communication g)).Runs .items :=
    runs_caseClause hg rfl (runs_communication hg)
  refine runs_enclosed rfl fun c => .next (runs_keyword (by decide)) fun head d hhead => ?_
  exact .extend hhead (runs_clauseBody hg hcase).may fun body e hall => .pure hall

/-! ## Statements -/

theorem stays_lineEnds (place : Place) : (lineEnds place).Stays := by
  refine .bind (stays_upcoming true) fun text => ?_
  split
  · exact stays_pure true
  · exact .ite (stays_pure true) (.bind (stays_nextWord true) fun _ => stays_pure _)

/-- A jump, whose label may be left out. -/
theorem runs_jump {kind : Kind} (hk : kind.isFree) {spelling : String}
    (hs : (Kind.token spelling).isFree) (place : Place) : (jump kind spelling place).Runs m := by
  refine runs_enclosed hk fun c => .next (runs_keyword hs) fun head d hhead => ?_
  refine .look (stays_lineEnds place) fun ends => .ite (.pure hhead) ?_
  exact .next (runs_word rfl) fun label e hlabel => .pure (hhead.append hlabel.run)

/-- A keyword and an expression. -/
theorem runs_prefixed (hg : g.Runs) {kind : Kind} (hk : kind.isFree) {spelling : String}
    (hs : (Kind.token spelling).isFree) : (prefixed g kind spelling).Runs m := by
  refine runs_enclosed hk fun c => .next (runs_keyword hs) fun head d hhead => ?_
  exact .extend hhead (Runs.may (hg.expression _ _)) fun value e hall => .pure hall

/-- Statements that start with no keyword. -/
theorem runs_plainStatement (hg : g.Runs) (place : Place) :
    (plainStatement g place).Runs .item := by
  intro c
  refine .look (stays_upcoming false) fun text => ?_
  split
  · exact hg.block c
  · exact runs_take rfl 1 c
  · refine .look stays_labelAhead fun ahead => .ite (runs_enclosed rfl ?_ c) ?_
    · refine fun c => .next runs_label fun label d hlabel => ?_
      exact .extend hlabel (hg.statement place).items.may fun statement e hall => .pure hall
    · exact runs_simpleStatement hg lineSite lineSite c

/-- **Statements** are runs. -/
theorem runs_statementRule (hg : g.Runs) (place : Place) : (statementRule g place).Runs .item := by
  intro c
  refine .look (stays_nextWord false) fun word => ?_
  split
  · exact runs_constDeclaration hg c
  · exact runs_varDeclaration hg c
  · exact runs_typeDeclaration hg c
  · refine runs_enclosed rfl (fun c => .next (runs_keyword (by decide)) fun head d hhead => ?_) c
    refine .look (stays_lineEnds place) fun ends => .ite (.pure hhead) ?_
    refine .next (runs_expressionList hg lineSite lineSite) fun values e hvalues => .pure ?_
    exact hhead.append hvalues.run
  · exact runs_prefixed hg rfl (by decide) c
  · exact runs_prefixed hg rfl (by decide) c
  · exact hg.ifStatement c
  · exact runs_forRule hg c
  · exact runs_switchRule hg c
  · exact runs_selectRule hg c
  · exact runs_word rfl c
  · exact runs_jump rfl (by decide) place c
  · exact runs_jump rfl (by decide) place c
  · refine runs_enclosed rfl (fun c => .next (runs_keyword (by decide)) fun head d hhead => ?_) c
    exact .extend hhead (runs_word rfl).may fun label e hall => .pure hall
  · exact runs_plainStatement hg place c

end GoOutline.Syntax
