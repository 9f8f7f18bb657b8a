import GoOutline.Proofs.Syntax.Runs.Expressions
import GoOutline.Syntax.Grammar.Declarations

/-!
# Runs of declarations

The rules for declarations and for the head of a file read runs, given a grammar that does.

## Main results

* `runs_constDeclaration`, `runs_varDeclaration`, `runs_typeDeclaration`: declarations that are
  statements
* `runs_packageClause`, `runs_importDeclaration`: the head of a file
* `runs_functionDeclaration`, `runs_methodDeclaration`: functions and methods
-/

namespace GoOutline.Syntax

open Rule

variable {g : Grammar} {m : Setting}

/-- One specification, or several in parentheses. -/
theorem runs_specGroup {spec : Rule (List Node)} (h : spec.Runs .item) :
    (specGroup spec).Runs .items := by
  intro c
  refine .look (stays_nextIs false '(') fun group => .ite ?_ (h.items c)
  refine .next (runs_symbol (by decide)) fun opening d hopening => ?_
  refine .extend hopening (.bounded (mayRun_closedItems h)) fun specs e hspecs => ?_
  exact .extend hspecs (runs_symbol (by decide)).may fun close f hall => .pure hall

/-- An equals sign and values. -/
theorem runs_initialValues (hg : g.Runs) : (initialValues g).Runs m := by
  have hvalues : (inRole .value (expressionList g lineSite lineSite)).MayRun m :=
    (runs_inRole (by decide) (runs_expressionList hg lineSite lineSite)).may
  refine fun c => .next (runs_symbol (by decide)) fun equals d hequals => ?_
  exact .extend hequals hvalues fun values e hall => .pure hall

/-- Constants, perhaps with values, which may have a type. -/
theorem runs_constSpec (hg : g.Runs) : (constSpec g).Runs .item := by
  refine runs_declared rfl rfl fun c => .next (runs_nameList rfl) fun names d hnames => ?_
  refine .look (stays_upcoming true) fun text => .ite ?_ (.ite ?_ (.pure hnames))
  · exact .next (runs_initialValues hg) fun values e hvalues => .pure (hnames.append hvalues.run)
  · refine .next (runs_inRole (by decide) (hg.type true)) fun type e htype => ?_
    refine .next (runs_initialValues hg) fun values f hvalues => .pure ?_
    exact (hnames.append htype.run).append hvalues.run

theorem runs_constDeclaration (hg : g.Runs) : (constDeclaration g).Runs .item := by
  refine runs_declared rfl rfl fun c => .next (runs_keyword (by decide)) fun head d hhead => ?_
  exact .extend hhead (runs_specGroup (runs_constSpec hg)).may fun specs e hall => .pure hall

/-- Variables with a type, values or both. -/
theorem runs_varSpec (hg : g.Runs) : (varSpec g).Runs .item := by
  refine runs_declared rfl rfl fun c => .next (runs_nameList rfl) fun names d hnames => ?_
  refine .look (stays_nextIs false '=') fun equals => .ite ?_ ?_
  · exact .next (runs_initialValues hg) fun values e hvalues => .pure (hnames.append hvalues.run)
  refine .next (runs_inRole (by decide) (hg.type true)) fun type e htype => ?_
  have hsofar := hnames.append htype.run
  refine .look (stays_nextIs true '=') fun equals => .ite ?_ (.pure hsofar)
  exact .next (runs_initialValues hg) fun values f hvalues => .pure (hsofar.append hvalues.run)

theorem runs_varDeclaration (hg : g.Runs) : (varDeclaration g).Runs .item := by
  refine runs_declared rfl rfl fun c => .next (runs_keyword (by decide)) fun head d hhead => ?_
  refine .look (stays_nextIs false '(') fun group => .ite ?_ ?_
  · have hspecs : (enclosed .varSpecList (specGroup (varSpec g))).Runs .items :=
      runs_enclosed rfl (runs_specGroup (runs_varSpec hg))
    exact .next hspecs fun specs e hspecs => .pure (hhead.append hspecs.run)
  · exact .next (runs_varSpec hg).items fun spec e hspec => .pure (hhead.append hspec.run)

/-- A bracket behind the name starts type parameters or a type. -/
theorem runs_typeDefinition (hg : g.Runs) : (typeDefinition g).Runs .item := by
  have hplain : ∀ {m}, (inRole .type (g (.type true))).Runs m :=
    runs_inRole (by decide) (hg.type true)
  refine runs_declared rfl rfl fun c => .next (runs_named rfl) fun name d hname => ?_
  refine .look (stays_nextIs false '[') fun bracket => .ite ?_ ?_
  · refine .bind (.heavier (hplain d) ?_) fun rest e hrest => .pure (hname.append hrest.run)
    refine .next (runs_inRole (by decide) (runs_typeParameterList hg)) fun list e hlist => ?_
    exact .extend hlist hplain.may fun type f hall => .pure hall
  · exact .next hplain fun type e htype => .pure (hname.append htype.run)

/-- An equals sign behind the name makes an alias. -/
theorem runs_typeSpec (hg : g.Runs) : (typeSpec g).Runs .item := by
  intro c
  refine .get (.after fun _ _ => .after fun isAlias _ => .set ?_)
  refine .ite (runs_declared rfl rfl ?_ c) (runs_typeDefinition hg c)
  refine fun c => .next (runs_named rfl) fun name d hname => ?_
  refine .extend hname (runs_symbol (by decide)).may fun equals e hequals => ?_
  exact .extend hequals (runs_inRole (by decide) (hg.type true)).may fun type f hall => .pure hall

theorem runs_typeDeclaration (hg : g.Runs) : (typeDeclaration g).Runs .item := by
  refine runs_declared rfl rfl fun c => .next (runs_keyword (by decide)) fun head d hhead => ?_
  exact .extend hhead (runs_specGroup (runs_typeSpec hg)).may fun specs e hall => .pure hall

/-! ## The head of a file -/

theorem runs_packageClause : packageClause.Runs .item := by
  refine runs_declared rfl rfl fun c => .next (runs_keyword (by decide)) fun head d hhead => ?_
  exact .extend hhead (runs_word rfl).may fun name e hall => .pure hall

/-- A dot in the role of a name, where one comes next, and what follows it. -/
theorem ensures_dotName {c : Cursor} {k : List Node → Rule (List Node)} {x : Rule (List Node)}
    {post : List Node → Cursor → Prop} (hk : ∀ ns d, Run m c ns d → (k ns).Ensures d post)
    (hx : x.Ensures c post) :
    Ensures (do
      if ← nextIs false '.' then
        let name ← inRole .name (take .dot 1)
        k name
      else x) c post := by
  intro ns d h
  change (if (c.upcoming false).head? == some '.' then inRole .name (take .dot 1) >>= k
    else x) c = _ at h
  split at h
  · next hdot =>
    refine Ensures.bind (q := Run m c) (.map (.self (take .dot 1) c) fun name e hname => ?_) hk h
    exact .dot (eq_of_beq hdot) hname
  · exact hx h

/-- A string literal in the role of a path. -/
theorem ensures_path {kind : Kind} {k : Nat} (c : Cursor)
    (h : Lexeme.string? (c.upcoming false) = some (kind, k)) :
    (inRole .path (take kind k)).Ensures c fun ns d =>
      Read .items c ns d ∧ HoldsPart .path ns := by
  refine .map (.self (take kind k) c) fun ns d hns => ?_
  have hread : Read .items c ns d := runs_take (isFree_of_string? h) k c hns
  have hpart : HoldsPart .path (Node.labelled .path ns) := Node.holdsPart_labelled .path hread.holds
  refine ⟨⟨.labelled (by decide) (fun n hn hcomment => ?_) hread.run, hpart.holds⟩, hpart⟩
  rcases mem_take hns hn with ⟨-, hcomment'⟩ | ⟨span, rfl⟩
  · exact absurd hcomment' hcomment
  · exact ⟨c.upcoming false, k, h, rfl⟩

/-- A look at the text from the next token on. -/
theorem Rule.Ensures.upcoming {α : Type} {c : Cursor} {line : Bool} {f : List Char → Rule α}
    {post : α → Cursor → Prop} (h : (f (c.upcoming line)).Ensures c post) :
    (Rule.upcoming line >>= f).Ensures c post :=
  fun _ _ hr => h hr

/-- A specification in a declaration or in its list. -/
theorem runs_importSpec {s : Scope} (hs : s.admits .importSpec) : importSpec.Runs (.one s) := by
  refine runs_declaredWith rfl hs rfl (by decide) fun c => ?_
  -- `k` reads the path after the local name
  extract_lets k
  have hk : ∀ name d, Run .items c name d →
      (k name).Ensures d fun ns e => Read .items c ns e ∧ HoldsPart .path ns := by
    intro name d hname
    refine .upcoming ?_
    split
    · next kind n h =>
      refine .bind (ensures_path d h) fun path e hpath => .pure ?_
      exact ⟨hname.then hpath.1, hpath.2.append_right name⟩
    · exact .stuck
  refine ensures_dotName hk (.look (stays_nextWord false) fun word => ?_)
  split
  · exact .bind (mayRun_nil c) hk
  · exact .bind ((runs_named rfl).may c) hk
  · exact .bind ((runs_named rfl).may c) hk

/-- The list of a declaration. -/
theorem runs_importSpecList {x : Rule (List Node)} (hx : x.Runs (.many .specs)) :
    (enclosed .importSpecList x).Runs (.many .imports) :=
  runs_composed rfl rfl fun c => (hx c).mono fun _ _ h => ⟨h, Kind.fits_of_not_isComposed rfl⟩

/-- Imports stand in an import declaration and nowhere else. -/
theorem runs_importDeclaration : importDeclaration.Runs (.one .file) := by
  refine runs_declared rfl rfl fun c => .next (runs_keyword (by decide)) fun head d hhead => ?_
  refine .look (stays_nextIs false '(') fun group => .ite (.next (runs_importSpecList ?_) ?_) ?_
  · refine fun c => .next (runs_symbol (by decide)) fun opening d hopening => ?_
    have hspec := runs_importSpec (s := .specs) rfl
    refine .extend hopening (.bounded (mayRun_terminatedItems hspec)) fun specs e hspecs => ?_
    exact .extend hspecs (runs_symbol (by decide)).may fun close f hall => .pure hall
  · exact fun list e hlist => .pure (hhead.append hlist.run)
  · exact .next (runs_importSpec rfl).items fun spec e hspec => .pure (hhead.append hspec.run)

/-! ## Functions -/

/-- The parameters of a function are one of its parts. -/
theorem runsWith_functionTail (hg : g.Runs) : (functionTail g).RunsWith .parameters .items := by
  refine fun c => .rolePart (runsWith_parameters hg) fun parameters d hparameters hpart => ?_
  refine .mayPart (mayRun_resultRule hg true) fun result e hresult => ?_
  refine .look (stays_nextIs true '{') fun brace => ?_
  have hend : ∀ body f, Run .items e body f →
      Ensures (do return parameters ++ result ++ body) f
        fun ns h => Read .items c ns h ∧ HoldsPart .parameters ns := by
    intro body f hbody
    refine .pure ⟨(hparameters.append hresult).append hbody, ?_⟩
    exact (hpart.append_left result).append_left body
  have hbody : (inRole .body (g .block)).Runs .items := runs_inRole (by decide) hg.block
  exact .ite (.mayPart hbody.may hend) (.mayPart mayRun_nil hend)

theorem runs_functionDeclaration (hg : g.Runs) : (functionDeclaration g).Runs .item := by
  refine runs_declaredWith rfl rfl rfl (by decide) fun c => ?_
  refine .part (runs_keyword (by decide)) fun head d hhead => ?_
  refine .part (runs_named rfl) fun name e hname => .look (stays_nextIs false '[') fun bracket => ?_
  have htail : ∀ typeParameters f, Run .items e typeParameters f →
      Ensures (do let tail ← functionTail g; return head ++ name ++ typeParameters ++ tail) f
        fun ns h => Read .items c ns h ∧ HoldsPart .parameters ns := by
    intro typeParameters f htypeParameters
    refine .rolePart (runsWith_functionTail hg) fun tail h htail hpart => .pure ⟨?_, ?_⟩
    · exact ((hhead.append hname.run).append htypeParameters).append htail.run
    · exact hpart.append_right _
  have hlist : (inRole .typeParameters (typeParameterList g)).Runs .items :=
    runs_inRole (by decide) (runs_typeParameterList hg)
  exact .ite (.mayPart hlist.may htail) (.mayPart mayRun_nil htail)

theorem runs_methodDeclaration (hg : g.Runs) : (methodDeclaration g).Runs .item := by
  refine runs_declaredWith rfl rfl rfl (by decide) fun c => ?_
  refine .part (runs_keyword (by decide)) fun head d hhead => ?_
  refine .part (runs_inRole (by decide) (runs_parameterList hg)) fun receiver e hreceiver => ?_
  refine .part (runs_named rfl) fun name f hname => ?_
  refine .rolePart (runsWith_functionTail hg) fun tail h htail hpart => .pure ⟨?_, ?_⟩
  · exact ((hhead.append hreceiver.run).append hname.run).append htail.run
  · exact hpart.append_right _

end GoOutline.Syntax
