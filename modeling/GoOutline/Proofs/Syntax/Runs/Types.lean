import GoOutline.Proofs.Syntax.Runs.Basic
import GoOutline.Syntax.Grammar.Types

/-!
# Runs of types

The rules for types, parameter lists and the bodies of struct and interface types read runs, given a
grammar that does.

## Main definitions

* `Grammar.Runs`: every reading of a grammar reads runs

## Main results

* `runs_typeRule`: types
* `runs_parameterList`, `mayRun_resultRule`: the signatures of functions
* `runs_namedType`: types that a name starts
-/

namespace GoOutline.Syntax

open Rule

/-- Every reading of a grammar reads runs. Only statements may be declarations. -/
structure Grammar.Runs (g : Grammar) : Prop where
  type (line : Bool) {m : Setting} : (g (.type line)).Runs m
  expression (level : Nat) (site : Site) {m : Setting} : (g (.expression level site)).Runs m
  literalValue {m : Setting} : (g .literalValue).Runs m
  block {m : Setting} : (g .block).Runs m
  statement (place : Place) : (g (.statement place)).Runs .item
  ifStatement {m : Setting} : (g .ifStatement).Runs m

variable {g : Grammar} {m : Setting}

theorem runs_alternatives (hg : g.Runs) (line : Bool) (rounds : Nat) :
    (typeUnion.alternatives g line rounds).Runs m := by
  induction rounds with
  | zero => exact fun _ => .stuck
  | succ rounds ih =>
    intro c
    refine .next (hg.type line) fun first d hfirst => .look (stays_nextIs line '|') fun bar => ?_
    refine .ite (.next (runs_symbol (by decide)) fun bar e hbar => ?_) (.pure hfirst)
    exact .next ih fun more f hmore => .pure ((hfirst.append hbar.run).append hmore.run)

/-- Alternatives of a type with bars between them. -/
theorem runs_typeUnion (hg : g.Runs) {kind : Kind} (hk : kind.isFree) (line : Bool) :
    (typeUnion g kind line).Runs m :=
  runs_enclosed hk (.bounded (runs_alternatives hg line))

/-- Type arguments in brackets. -/
theorem runs_typeArguments (hg : g.Runs) : (typeArguments g).Runs m := by
  have hunion : (typeUnion g .typeElem false).Runs .items := runs_typeUnion hg rfl false
  refine runs_enclosed rfl fun c => .next (runs_symbol (by decide)) fun opening d hopening => ?_
  refine .extend hopening (Runs.bounded (runs_commaItems hunion)).may fun items e hitems => ?_
  exact .extend hitems (runs_closing (by decide)).may fun close f hall => .pure hall

/-- A name that turns out to be a package is read as such. -/
theorem word_packageIdentifier {c d : Cursor} {first : List Node}
    (h : word .typeIdentifier c = .ok (first, d)) :
    word .packageIdentifier c = .ok (first.map fun n =>
      if n.isComment then n else .leaf .packageIdentifier n.span n.text, d) := by
  have hcomments : (c.trivia false).1.map (fun n =>
      if n.isComment then n else .leaf .packageIdentifier n.span n.text) = (c.trivia false).1 := by
    refine (List.map_congr_left fun n hn => ?_).trans (List.map_id _)
    rw [if_pos (trivia_comments false c n hn).2]
    rfl
  rw [word_eq] at h ⊢
  split at h
  · cases h
  · next hword =>
    rw [take_eq] at h
    obtain ⟨rfl, rfl⟩ := Prod.mk.inj (Except.ok.inj h)
    rw [if_neg hword, take_eq, List.map_append, hcomments]
    rfl

/-- A type that a name starts is no pointer. -/
theorem ensures_kind_namedType (g : Grammar) (line : Bool) (c : Cursor) :
    (namedType g line).Ensures c fun ns _ => ∀ n ∈ ns, n.kind ≠ .pointerType := by
  refine .bind (ensures_kind_word .typeIdentifier c) fun first d hfirst => ?_
  refine .look (stays_nextIs line '.') fun dot => .look (stays_nextStarts line "...") fun dots => ?_
  extract_lets k package
  have hk : ∀ base e, (∀ n ∈ base, n.kind ≠ .pointerType) →
      (k base).Ensures e fun ns _ => ∀ n ∈ ns, n.kind ≠ .pointerType := by
    intro base e hbase
    refine .look (stays_nextIs line '[') fun bracket => .ite ?_ (.pure hbase)
    refine .after fun arguments f => .pure ?_
    have hgeneric : Kind.genericType ≠ .pointerType := by decide
    exact Node.kind_ne_of_forall (by decide) hgeneric fun n hn => kind_of_mem_enclose hn
  refine .ite ?_ (.bind (.pure ?_) hk)
  · refine .after fun dot e => .after fun name f => .bind (.pure ?_) hk
    have hqualified : Kind.qualifiedType ≠ .pointerType := by decide
    exact Node.kind_ne_of_forall (by decide) hqualified fun n hn => kind_of_mem_enclose hn
  · exact Node.kind_ne_of_forall (by decide) (by decide) hfirst

/-- A type that starts with a name. -/
theorem runs_namedType (hg : g.Runs) (line : Bool) : (namedType g line).Runs m := by
  intro c
  refine .bind (.self (word .typeIdentifier) c) fun first d hfirst => ?_
  refine .look (stays_nextIs line '.') fun dot => .look (stays_nextStarts line "...") fun dots => ?_
  extract_lets k package
  have hword : word .packageIdentifier c = .ok (package, d) := word_packageIdentifier hfirst
  have hpackage : Run .items c (Node.labelled .package package) d := by
    refine .labelled (by decide) (fun n hn hcomment => ?_) (.word rfl hword)
    exact congrArg Kind.isName ((ensures_kind_word _ c hword n hn).resolve_left hcomment)
  have hk : ∀ base e, (∀ m, Read m c base e) → (k base).Ensures e (Read m c) := by
    intro base e hbase
    refine .look (stays_nextIs line '[') fun bracket => .ite ?_ (.pure (hbase m))
    refine .part (runs_typeArguments hg) fun arguments f harguments => .pure (.enclose rfl ?_)
    exact (Read.labelled (by decide) (hbase .items)).append
      (Read.labelled (by decide) harguments).run
  refine .ite ?_ (.bind (.pure fun m => ⟨.word rfl hfirst, holds_word rfl hfirst⟩) hk)
  refine .part (runs_symbol (by decide)) fun dot e hdot => ?_
  refine .bind (.self (word .typeIdentifier) e) fun name f hname => ?_
  refine .bind (.pure fun m => Read.enclose rfl ?_) hk
  exact (hpackage.then hdot).append (.name rfl hname)

/-! ## Parameters -/

theorem runs_groupNames (rounds : Nat) : (groupNames rounds).Runs m := by
  induction rounds with
  | zero => exact fun _ => .stuck
  | succ rounds ih =>
    intro c
    refine .next (runs_named rfl) fun name d hname => .look (stays_nextIs false ',') fun comma => ?_
    refine .ite ?_ (.look (stays_upcoming false) fun text => .ite (.pure hname) .stuck)
    refine .next runs_comma fun comma e hcomma => ?_
    exact .next ih fun more f hmore => .pure ((hname.append hcomma.run).append hmore.run)

/-- The names in front of a shared type. -/
theorem runs_leadingNames : leadingNames.Runs m := by
  intro c
  have hnames : (bounded groupNames).Runs m := .bounded runs_groupNames
  exact .look (stays_nextWord false) fun word => .ite .stopped (hnames c)

theorem stays_groupEnds : groupEnds.Stays :=
  .bind (stays_nextIs false ',') fun _ => .bind (stays_nextIs false ')') fun _ =>
    .ite (stays_pure ()) stays_stuck

/-- Names and the one type that they share. -/
theorem runs_sharedType (hg : g.Runs) : (sharedType g).Runs m := by
  refine runs_composed rfl rfl fun c => .part runs_leadingNames fun names d hnames => ?_
  refine .rolePart (runsWith_inRole (by decide) (hg.type false)) fun type e htype hpart => ?_
  refine .look stays_groupEnds fun _ => .pure ⟨hnames.append htype.run, ?_⟩
  exact Kind.fits_of_holdsPart rfl nofun (hpart.append_right names)

theorem runs_bareType (hg : g.Runs) : (bareType g).Runs m :=
  runs_composed rfl rfl fun c =>
    (runsWith_inRole (by decide) (hg.type false) c).mono fun _ _ htype =>
      ⟨htype.1, Kind.fits_of_holdsPart rfl nofun htype.2⟩

/-- A variadic parameter: perhaps a name, dots and a type. -/
theorem runs_variadicGroup (hg : g.Runs) :
    (enclosed .variadicParameterDeclaration (do
      let name ← if ← nextStarts false "..." then pure [] else inRole .name (word .identifier)
      let dots ← symbol "..."
      let type ← inRole .type (g (.type false))
      return name ++ dots ++ type)).Runs m := by
  refine runs_composed rfl rfl fun c => .look (stays_nextStarts false "...") fun dots => ?_
  have hrest : ∀ name d, Run .items c name d →
      Ensures (do
        let dots ← symbol "..."
        let type ← inRole .type (g (.type false))
        return name ++ dots ++ type) d
        fun ns e => Read .items c ns e ∧ Kind.Fits .variadicParameterDeclaration ns := by
    intro name d hname
    refine .part (runs_symbol (by decide)) fun dots e hdots => ?_
    refine .rolePart (runsWith_inRole (by decide) (hg.type false)) fun type f htype hpart => ?_
    refine .pure ⟨(hname.then hdots).append htype.run, ?_⟩
    exact Kind.fits_of_holdsPart rfl nofun (hpart.append_right _)
  exact .ite (.mayPart mayRun_nil hrest) (.mayPart (runs_named rfl).may hrest)

/-- Parameters that are types only. -/
theorem runs_bareTypes (hg : g.Runs) (rounds : Nat) : (bareTypes g rounds).Runs m := by
  induction rounds with
  | zero => exact fun _ => .stuck
  | succ rounds ih =>
    intro c
    refine .look (stays_nextWord false) fun word => ?_
    refine .next (runs_bareType hg) fun first d hfirst => ?_
    refine .ite (.look stays_groupEnds fun _ => .pure hfirst) ?_
    refine .next runs_comma fun comma e hcomma => ?_
    exact .next ih fun more f hmore => .pure ((hfirst.append hcomma.run).append hmore.run)

/-- Names that share a type, or several types when one of the names is a keyword. -/
theorem runs_namedGroup (hg : g.Runs) : (namedGroup g).Runs m := by
  intro c
  refine .look (stays_peek _) fun names => .ite ?_ (runs_sharedType hg c)
  exact .heavier (runs_sharedType hg c) (Runs.bounded (runs_bareTypes hg) c)

theorem runs_parameterGroup (hg : g.Runs) : (parameterGroup g).Runs m := by
  intro c
  exact .orElse (runs_namedGroup hg c) (.orElse (runs_variadicGroup hg c) (runs_bareType hg c))

/-- Parameters in parentheses. -/
theorem runs_parameterList (hg : g.Runs) : (parameterList g).Runs m :=
  runs_enclosed rfl (runs_bracketed (runs_symbol (by decide)) (runs_parameterGroup hg)
    (runs_symbol (by decide)))

/-- A parameter list in the role of the parameters. -/
theorem runsWith_parameters (hg : g.Runs) :
    (inRole .parameters (parameterList g)).RunsWith .parameters m := by
  intro c
  have hlist : (parameterList g).Ensures c fun ns _ =>
      ∀ n ∈ ns, n.isComment ∨ n.kind = .parameterList :=
    (ensures_enclosed (m := .items) (by decide) (runs_bracketed (runs_symbol (by decide))
      (runs_parameterGroup hg) (runs_symbol (by decide))) c).mono fun _ _ h => h.1
  refine .map (Ensures.and (runs_parameterList (m := m) hg c) hlist) fun ns d h => ?_
  have hpart : HoldsPart .parameters (Node.labelled .parameters ns) :=
    Node.holdsPart_labelled .parameters h.1.holds
  refine ⟨⟨.labelled (by decide) (fun n hn hcomment => ?_) h.1.run, hpart.holds⟩, hpart⟩
  exact (h.2 n hn).resolve_left hcomment

/-- A result is a list of parameters, a type or nothing. -/
theorem mayRun_resultRule (hg : g.Runs) (line : Bool) : (resultRule g line).MayRun m := by
  intro c
  refine .look (stays_upcoming line) fun text => ?_
  refine .ite ((runs_inRole (by decide) (runs_parameterList hg)).may c) ?_
  exact .ite ((runs_inRole (by decide) (hg.type line)).may c) (mayRun_nil c)

theorem runs_typeParameterGroup (hg : g.Runs) : (typeParameterGroup g).Runs m := by
  have hunion : (typeUnion g .typeConstraint false).Runs .items := runs_typeUnion hg rfl false
  refine runs_enclosed rfl fun c => .next runs_leadingNames fun names d hnames => ?_
  exact .extend hnames (runs_inRole (by decide) hunion).may fun constraint e hall => .pure hall

/-- Type parameters in brackets. -/
theorem runs_typeParameterList (hg : g.Runs) : (typeParameterList g).Runs m := by
  have hgroup := runs_typeParameterGroup (m := .items) hg
  refine runs_enclosed rfl fun c => .next (runs_symbol (by decide)) fun opening d hopening => ?_
  refine .extend hopening (Runs.bounded (runs_commaItems hgroup)).may fun groups e hgroups => ?_
  exact .extend hgroups (runs_symbol (by decide)).may fun close f hall => .pure hall

/-! ## Struct and interface bodies -/

/-- A string is an interpreted or a raw one. -/
theorem kind_of_string? {text : List Char} {kind : Kind} {n : Nat}
    (h : Lexeme.string? text = some (kind, n)) :
    kind = .interpretedStringLiteral ∨ kind = .rawStringLiteral := by
  unfold Lexeme.string? at h
  split at h
  · split at h
    · obtain ⟨k, -, hk⟩ := Option.map_eq_some_iff.1 h
      cases hk
      exact .inl rfl
    · split at h
      · obtain ⟨k, -, hk⟩ := Option.map_eq_some_iff.1 h
        cases hk
        exact .inr rfl
      · cases h
  · cases h

/-- A string literal is of a plain kind. -/
theorem isFree_of_string? {text : List Char} {kind : Kind} {n : Nat}
    (h : Lexeme.string? text = some (kind, n)) : kind.isFree := by
  rcases kind_of_string? h with rfl | rfl
  · rfl
  · rfl

theorem mayRun_fieldTag : fieldTag.MayRun m := by
  intro c
  refine .look (stays_upcoming true) fun text => ?_
  split
  · next kind n h => exact (runs_inRole (by decide) (runs_take (isFree_of_string? h) n)).may c
  · exact mayRun_nil c

/-- A tag is no pointer. -/
theorem ensures_kind_fieldTag (c : Cursor) :
    fieldTag.Ensures c fun ns _ => ∀ n ∈ ns, n.kind ≠ .pointerType := by
  refine .look (stays_upcoming true) fun text => ?_
  split
  · next kind k h =>
    have hkind : kind ≠ .pointerType := by
      rcases kind_of_string? h with rfl | rfl
      · decide
      · decide
    refine .map (ensures_kind_take kind k c) fun ns d hns n hn => ?_
    obtain ⟨m, hm, hsame⟩ := Node.kind_of_mem_labelled .tag hn
    rw [hsame]
    exact Node.kind_ne_of_forall (by decide) hkind hns m hm
  · exact .pure (List.forall_mem_nil _)

/-- The rule reads the parts of a field. -/
def ReadsField (rule : Rule (List Node)) : Prop :=
  ∀ c, rule.Ensures c fun ns d => Read .items c ns d ∧ Kind.fieldDeclaration.Fits ns

/-- A field has a type, and one without a name has no pointer as its type. -/
theorem Kind.fits_fieldDeclaration {ns : List Node} (htype : HoldsPart .type ns)
    (h : HoldsPart .name ns ∨ ∀ n ∈ ns, n.kind ≠ .pointerType) : fieldDeclaration.Fits ns :=
  ⟨List.forall_mem_singleton.2 htype, nofun, fun _ => h⟩

/-- Fields with names have a type and a name. -/
theorem readsField_namedField (hg : g.Runs) : ReadsField (namedField g) := by
  intro c
  refine .rolePart (runsWith_nameList rfl) fun names d hnames hname => ?_
  refine .rolePart (runsWith_inRole (by decide) (hg.type true)) fun type e htype hpart => ?_
  refine .pure ⟨hnames.append htype.run, Kind.fits_fieldDeclaration ?_ ?_⟩
  · exact hpart.append_right names
  · exact .inl (hname.append_left _)

/-- The star of an embedded field is no part of its type. -/
theorem readsField_embeddedField (hg : g.Runs) : ReadsField (embeddedField g) := by
  intro c
  refine .look (stays_nextIs false '*') fun star => ?_
  have htype : ∀ star d, Run .items c star d ∧ (∀ n ∈ star, n.kind ≠ .pointerType) →
      Ensures (do let type ← inRole .type (namedType g true); return star ++ type) d
        fun ns e => Read .items c ns e ∧ Kind.fieldDeclaration.Fits ns := by
    rintro star d ⟨hstar, hnone⟩
    have hread : (inRole .type (namedType g true)).RunsWith .type .items :=
      runsWith_inRole rfl (runs_namedType hg true)
    have hkind : (inRole .type (namedType g true)).Ensures d fun ns _ =>
        ∀ n ∈ ns, n.kind ≠ .pointerType := by
      refine .map (ensures_kind_namedType g true d) fun ns e hns n hn => ?_
      obtain ⟨m, hm, hkind⟩ := Node.kind_of_mem_labelled .type hn
      rw [hkind]
      exact hns m hm
    refine .bind ((hread d).and hkind) fun type e htype => .pure ⟨hstar.then htype.1.1, ?_⟩
    refine Kind.fits_fieldDeclaration (htype.1.2.append_right star) (.inr ?_)
    exact List.forall_mem_append.2 ⟨hnone, htype.2⟩
  refine .ite (.bind ?_ htype) (.bind (.pure ⟨.nil .items c, List.forall_mem_nil _⟩) htype)
  have hstar : (symbol "*").MayRun .items := (runs_symbol (by decide)).may
  refine ((hstar c).and (ensures_kind_symbol "*" c)).mono fun ns d hns => ⟨hns.1, ?_⟩
  exact Node.kind_ne_of_forall (by decide) (by decide) hns.2

/-- A field with its tag. -/
theorem ReadsField.withTag {field : Rule (List Node)} (h : ReadsField field) :
    ReadsField (do return (← field) ++ (← fieldTag)) := by
  intro c
  refine .bind (h c) fun ns d hns => ?_
  have hread : fieldTag.MayRun .items := mayRun_fieldTag
  refine .bind ((hread d).and (ensures_kind_fieldTag d)) fun tag e htag => .pure ?_
  refine ⟨hns.1.append htag.1, Kind.fits_fieldDeclaration ?_ ?_⟩
  · exact (hns.2.parts .type List.mem_cons_self).append_left tag
  · rcases hns.2.embedded rfl with hname | hnone
    · exact .inl (hname.append_left tag)
    · exact .inr (List.forall_mem_append.2 ⟨hnone, htag.2⟩)

theorem runs_fieldDeclaration (hg : g.Runs) (rounds : Nat) :
    (fieldDeclaration g rounds).Runs .item := by
  cases rounds with
  | zero => exact fun _ => .stuck
  | succ rounds =>
    refine runs_declaration rfl rfl fun c => .look (stays_nextIs false '*') fun star => ?_
    -- `k` reads the field once the text after its first name is known
    extract_lets withTag k
    have hnamed : ReadsField (withTag (namedField g)) := (readsField_namedField hg).withTag
    have hembedded : ReadsField (withTag (embeddedField g)) := (readsField_embeddedField hg).withTag
    have hk : ∀ text, (k text).Ensures c fun ns d =>
        Read .items c ns d ∧ Kind.fieldDeclaration.Fits ns := by
      intro text
      simp only [k]
      split
      · exact hnamed c
      · refine .orElse (.bind (hembedded c) fun field d hfield => ?_) (hnamed c)
        exact .look (stays_peek _) fun _ => .pure hfield
      · split
        · exact hnamed c
        · exact hembedded c
    exact .ite (.look (stays_pure _) hk) (.look (stays_peek _) hk)

/-- The fields in their braces. -/
theorem runs_bracedFields (hg : g.Runs) :
    Rule.Runs .items (do
      let opening ← symbol "\x7b"
      let fields ← bounded (terminatedItems '}' (bounded (fieldDeclaration g)))
      let close ← symbol "\x7d"
      return opening ++ fields ++ close) := by
  have hfield : (bounded (fieldDeclaration g)).Runs .item := .bounded (runs_fieldDeclaration hg)
  refine fun c => .next (runs_symbol (by decide)) fun opening d hopening => ?_
  refine .extend hopening (.bounded (mayRun_terminatedItems hfield)) fun fields e hfields => ?_
  exact .extend hfields (runs_symbol (by decide)).may fun close f hall => .pure hall

theorem runs_fieldDeclarationList (hg : g.Runs) : (fieldDeclarationList g).Runs m :=
  runs_enclosed rfl (runs_bracedFields hg)

/-- The fields of a struct are in one list. -/
theorem ensures_fieldDeclarationList (hg : g.Runs) (c : Cursor) :
    (fieldDeclarationList g).Ensures c fun ns _ =>
      ∃ list, ns.filter (·.kind == .fieldDeclarationList) = [list] :=
  (ensures_enclosed (by decide) (runs_bracedFields hg) c).mono fun _ _ h => h.2

/-- A method or a union of types. -/
theorem runs_interfaceElement (hg : g.Runs) : (interfaceElement g).Runs .item := by
  intro c
  refine .get (.look (stays_nextWord false) fun name => ?_)
  extract_lets k
  have hk : ∀ isMethod, (k isMethod).Ensures c (Read .item c) := by
    intro isMethod
    refine .ite (runs_declaredWith rfl rfl rfl (by decide) (fun c => ?_) c)
      (runs_typeUnion hg rfl true c)
    refine .part (runs_named rfl) fun name d hname => ?_
    refine .rolePart (runsWith_parameters hg) fun parameters e hparameters hpart => ?_
    refine .mayPart (mayRun_resultRule hg true) fun result f hresult => .pure ⟨?_, ?_⟩
    · exact (hname.append hparameters.run).append hresult
    · exact (hpart.append_right name).append_left result
  refine .ite (.look (stays_pure _) hk) (.after fun _ d => .after fun isMethod e => .set ?_)
  exact .look (stays_pure _) hk

/-! ## Types -/

/-- A struct type has one list of fields. -/
theorem runs_structType (hg : g.Runs) : (structType g).Runs m := by
  refine runs_composed rfl rfl fun c => ?_
  have hkeyword : (keyword "struct").Runs .items := runs_keyword (by decide)
  have hfields : (fieldDeclarationList g).Runs .items := runs_fieldDeclarationList hg
  refine .bind ((hkeyword c).and (ensures_kind_keyword _ c)) fun head d hhead => ?_
  refine .bind ((hfields d).and (ensures_fieldDeclarationList hg d)) fun list e hlist => ?_
  refine .pure ⟨hhead.1.append hlist.1.run, nofun, fun _ => ?_, nofun⟩
  have hnone : head.filter (·.kind == .fieldDeclarationList) = [] := by
    refine List.filter_eq_nil_iff.2 fun n hn hkind => ?_
    exact Node.kind_ne_of_forall (by decide) (by decide) hhead.2 n hn (eq_of_beq hkind)
  rw [List.filter_append, hnone]
  exact hlist.2

theorem runs_interfaceType (hg : g.Runs) : (interfaceType g).Runs m := by
  have helement := runs_interfaceElement hg
  refine runs_enclosed rfl fun c => .next (runs_keyword (by decide)) fun head d hhead => ?_
  refine .extend hhead (runs_symbol (by decide)).may fun opening e hopening => ?_
  refine .extend hopening (.bounded (mayRun_terminatedItems helement)) fun items f hitems => ?_
  exact .extend hitems (runs_symbol (by decide)).may fun close i hall => .pure hall

theorem runs_mapType (hg : g.Runs) (line : Bool) : (mapType g line).Runs m := by
  refine runs_enclosed rfl fun c => .next (runs_keyword (by decide)) fun head d hhead => ?_
  refine .extend hhead (runs_symbol (by decide)).may fun opening e hopening => ?_
  refine .extend hopening (runs_inRole (by decide) (hg.type false)).may fun key f hkey => ?_
  refine .extend hkey (runs_symbol (by decide)).may fun close i hclose => ?_
  exact .extend hclose (runs_inRole (by decide) (hg.type line)).may fun value j hall => .pure hall

/-- The arrow of a channel stands before or behind its keyword, or nowhere. -/
theorem runs_channelType (hg : g.Runs) (line : Bool) : (channelType g line).Runs m := by
  refine runs_enclosed rfl fun c => .look (stays_nextStarts false "<-") fun arrow => ?_
  have harrow : ∀ {m}, (symbol "<-").Runs m := runs_symbol (by decide)
  refine .perhaps_ite harrow.may mayRun_nil fun before d hbefore => ?_
  refine .next (runs_keyword (by decide)) fun head e hhead => ?_
  refine .look (stays_nextStarts false "<-") fun arrow => ?_
  refine .perhaps_ite harrow.may mayRun_nil fun after f hafter => ?_
  refine .next (runs_inRole (by decide) (hg.type line)) fun value h hvalue => ?_
  exact .pure (((hbefore.then hhead).append hafter).append hvalue.run)

theorem runs_signature (hg : g.Runs) (line : Bool) : (signature g line).Runs m := by
  refine fun c => .next (runs_keyword (by decide)) fun head d hhead => ?_
  refine .extend hhead (runsWith_parameters hg).runs.may fun parameters e hparameters => ?_
  exact .extend hparameters (mayRun_resultRule hg line) fun result f hall => .pure hall

/-- Arrays and slices. -/
theorem runs_bracketType (hg : g.Runs) (line : Bool) : (bracketType g line).Runs m := by
  intro c
  have helement : (inRole .element (g (.type line))).Runs .items :=
    runs_inRole (by decide) (hg.type line)
  refine .part (runs_symbol (by decide)) fun opening d hopening => ?_
  refine .look (stays_nextIs false ']') fun empty => .ite ?_ ?_
  · refine .part (runs_symbol (by decide)) fun close e hclose => ?_
    refine .part helement fun element f helement => .pure (.enclose rfl ?_)
    exact (hopening.append hclose.run).append helement.run
  · refine .part (runs_inRole (by decide) (hg.expression _ _)) fun length e hlength => ?_
    refine .part (runs_symbol (by decide)) fun close f hclose => ?_
    refine .part helement fun element h helement => .pure (.enclose rfl ?_)
    exact ((hopening.append hlength.run).append hclose.run).append helement.run

/-- **Types** are runs. -/
theorem runs_typeRule (hg : g.Runs) (line : Bool) : (typeRule g line).Runs m := by
  intro c
  refine .look (stays_upcoming false) fun text => ?_
  split
  -- by the first character: pointers, arrays and slices, parentheses, negation, channels
  · refine runs_enclosed rfl (fun c => .next (runs_symbol (by decide)) fun star d hstar => ?_) c
    exact .extend hstar (hg.type line).may fun pointee e hall => .pure hall
  · exact runs_bracketType hg line c
  · refine runs_enclosed rfl (fun c => .next (runs_symbol (by decide)) fun opening d ho => ?_) c
    refine .extend ho (hg.type false).may fun inner e hinner => ?_
    exact .extend hinner (runs_symbol (by decide)).may fun close f hall => .pure hall
  · refine runs_enclosed rfl (fun c => .next (runs_symbol (by decide)) fun tilde d htilde => ?_) c
    exact .extend htilde (hg.type line).may fun inner e hall => .pure hall
  · exact runs_channelType hg line c
  -- by the first word: the keywords of types, or a name
  · split
    · exact runs_structType hg c
    · exact runs_interfaceType hg c
    · exact runs_mapType hg line c
    · exact runs_channelType hg line c
    · exact runs_enclosed rfl (runs_signature hg line) c
    · exact runs_namedType hg line c

end GoOutline.Syntax
