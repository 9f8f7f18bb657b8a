import GoOutline.Proofs.Syntax.Spelling.Basic

/-!
# How runs of nodes come about

Whatever the rules of the grammar read is put together in a few ways: leaves are taken from the
source, runs are put behind one another, nodes are put around runs, roles are given, and terminators
follow on items. `Run` says so without the rules. A property of trees that is closed under these
ways holds of all trees, by one induction, and whether a rule reads in these ways follows its shape.

## Main definitions

* `Kind.isDeclaration`, `Kind.isPlain`: the kinds of what can be documented, and all kinds but
  these, names, comments and terminators
* `Kind.Fits`, `Role.Fits`: the parts that nodes of some kinds always have, and what stands in some
  roles
* `Scope`: where the parts of an import declaration may stand
* `Setting`: what a run may hold
* `Run`, `Read`: the runs between two cursors, and those that hold more than comments
* `Rule.Ensures`: what a rule reads from a cursor has a property
* `Rule.Runs`, `Rule.MayRun`: a rule reads nodes in these ways, at least one or perhaps none
* `Rule.RunsWith`: a rule reads nodes in these ways, and one of them in a role

## Main results

* `Rule.Ensures.bind`, `Rule.Ensures.look`, `Rule.Ensures.extend`: rules one after the other
* `Rule.runs_word`, `Rule.runs_symbol`, `Rule.runs_keyword`: single tokens
* `Rule.runs_enclosed`, `Rule.runs_declared`, `Rule.runs_inRole`: nodes around parts, and roles
* `Rule.runs_commaItems`, `Rule.mayRun_terminatedItems`: lists
-/

namespace GoOutline.Syntax

open GoOutline.Text

/-! ## Kinds -/

/-- The kinds of declarations, of their parts that may be documented, and of the members of
types. -/
def Kind.isDeclaration : Kind → Bool
  | .packageClause | .importDeclaration | .importSpec | .constDeclaration | .constSpec
  | .varDeclaration | .varSpec | .functionDeclaration | .methodDeclaration | .typeDeclaration
  | .typeSpec | .typeAlias | .fieldDeclaration | .methodElem => true
  | _ => false

/-- All kinds but those of declarations, names, comments and terminators. -/
def Kind.isPlain (k : Kind) : Bool :=
  !k.isDeclaration && !k.isName && k != .comment && !k.isTerminator

/-- The kinds of the nodes in which semicolons stand between the parts of a header. -/
def headerKinds : List Kind :=
  [.ifStatement, .forClause, .expressionSwitchStatement, .typeSwitchStatement]

theorem Kind.isPlain_iff {kind : Kind} : kind.isPlain ↔
    ¬ kind.isDeclaration ∧ ¬ kind.isName ∧ kind ≠ .comment ∧ ¬ kind.isTerminator := by
  simp [isPlain, and_assoc]

/-- Declarations are no names, no comments and no terminators. -/
theorem Kind.of_isDeclaration {kind : Kind} (h : kind.isDeclaration) :
    ¬ kind.isName ∧ kind ≠ .comment ∧ ¬ kind.isTerminator := by
  cases kind with
  | token spelling => cases h
  | _ =>
    revert h
    decide

/-- Names are no declarations, no comments and no terminators. -/
theorem Kind.of_isName {kind : Kind} (h : kind.isName) :
    ¬ kind.isDeclaration ∧ kind ≠ .comment ∧ ¬ kind.isTerminator := by
  cases kind with
  | token spelling => cases h
  | _ =>
    revert h
    decide

theorem isPlain_of_mem_headerKinds {kind : Kind} (h : kind ∈ headerKinds) : kind.isPlain := by
  have hall : ∀ kind ∈ headerKinds, kind.isPlain := by decide
  exact hall kind h

/-! ## Parts of nodes -/

/-- The roles of the parts that every node of a kind has. -/
def Kind.partRoles : Kind → List Role
  | .fieldDeclaration | .parameterDeclaration | .variadicParameterDeclaration => [.type]
  | .functionDeclaration | .methodDeclaration | .methodElem => [.parameters]
  | .importSpec => [.path]
  | _ => []

/-- Nodes of the kind always have certain parts. -/
def Kind.isComposed (k : Kind) : Bool := k == .structType || !k.partRoles.isEmpty

/-- Nodes of the kind stand in certain places only. -/
def Kind.isPlaced : Kind → Bool
  | .sourceFile | .importDeclaration | .importSpecList | .importSpec => true
  | _ => false

/-- The plain kinds of nodes that may have any parts and stand anywhere. -/
def Kind.isFree (k : Kind) : Bool := k.isPlain && !k.isComposed && !k.isPlaced

/-- One of the nodes is in a role. -/
def HoldsPart (r : Role) (ns : List Node) : Prop := ∃ n ∈ ns, n.role = some r ∧ ¬ n.isComment

/-- The nodes may be the parts of a node of a kind. -/
structure Kind.Fits (kind : Kind) (ns : List Node) : Prop where
  parts : ∀ r ∈ kind.partRoles, HoldsPart r ns
  fields : kind = .structType → ∃ list, ns.filter (·.kind == .fieldDeclarationList) = [list]
  /-- A field without a name has no pointer as its type: its star is a part of its own. -/
  embedded : kind = .fieldDeclaration → HoldsPart .name ns ∨ ∀ n ∈ ns, n.kind ≠ .pointerType

/-- What stands in a role: parameters are a list of them, a package is a name, and a path is a
string literal. -/
def Role.Fits : Role → Node → Prop
  | .parameters, n => n.kind = .parameterList
  | .package, n => n.kind.isName
  | .path, n =>
    ∃ text k, Lexeme.string? text = some (n.kind, k) ∧ n.text = String.ofList (text.take k)
  | _, _ => True

/-- The roles that anything may be in, as far as the rules tell. -/
def Role.isOpen : Role → Bool
  | .name | .parameters | .package | .path => false
  | _ => true

section

variable {kind : Kind} {role : Role} {ns ms : List Node}

theorem Kind.isFree_iff :
    kind.isFree ↔ kind.isPlain ∧ kind.isComposed = false ∧ kind.isPlaced = false := by
  simp [isFree, and_assoc]

/-- What may stand anywhere is no declaration, no name, no comment and no terminator. -/
theorem Kind.of_isFree (h : kind.isFree) :
    ¬ kind.isDeclaration ∧ ¬ kind.isName ∧ kind ≠ .comment ∧ ¬ kind.isTerminator :=
  isPlain_iff.1 (isFree_iff.1 h).1

/-- Any nodes may be the parts of a node that needs none. -/
theorem Kind.fits_of_not_isComposed (h : kind.isComposed = false) : kind.Fits ns := by
  rw [isComposed, Bool.or_eq_false_iff, Bool.not_eq_false', List.isEmpty_iff] at h
  constructor
  · rw [h.2]
    exact List.forall_mem_nil _
  · rintro rfl
    exact absurd h.1 (by decide)
  · rintro rfl
    cases h.2

/-- The parts of a node that has one part in a role. -/
theorem Kind.fits_of_holdsPart (hk : kind.partRoles = [role]) (hfield : kind ≠ .fieldDeclaration)
    (h : HoldsPart role ns) : kind.Fits ns := by
  constructor
  · rw [hk]
    exact List.forall_mem_singleton.2 h
  · rintro rfl
    cases hk
  · exact fun heq => absurd heq hfield

theorem Role.ne_name_of_isOpen (h : role.isOpen) : role ≠ .name := by
  rintro rfl
  cases h

/-- Anything may be in an open role. -/
theorem Role.fits_of_isOpen (h : role.isOpen) (n : Node) : role.Fits n := by
  cases role with
  | name => trivial
  | parameters => cases h
  | package => cases h
  | path => cases h
  | _ => trivial

theorem HoldsPart.append_left (h : HoldsPart role ns) (ms : List Node) :
    HoldsPart role (ns ++ ms) := by
  obtain ⟨n, hn, hpart⟩ := h
  exact ⟨n, List.mem_append_left _ hn, hpart⟩

theorem HoldsPart.append_right (ns : List Node) (h : HoldsPart role ms) :
    HoldsPart role (ns ++ ms) := by
  obtain ⟨n, hn, hpart⟩ := h
  exact ⟨n, List.mem_append_right _ hn, hpart⟩

end

/-! ## Places -/

/-- The places in which kinds of nodes may stand. -/
inductive Scope where
  /-- Anywhere but in the others. -/
  | inner
  /-- In the list of an import declaration. -/
  | specs
  /-- In an import declaration. -/
  | imports
  /-- At the top level of a file. -/
  | file
  deriving DecidableEq

/-- The place that is inside a node of the kind. -/
def Kind.within : Kind → Scope
  | .sourceFile => .file
  | .importDeclaration => .imports
  | .importSpecList => .specs
  | _ => .inner

/-- A node of the kind may stand in the place. -/
def Scope.admits : Scope → Kind → Bool
  | _, .sourceFile => false
  | s, .importDeclaration => s == .file
  | s, .importSpecList => s == .imports
  | s, .importSpec => s == .imports || s == .specs
  | _, _ => true

/-- What is no part of an import may stand in every place. -/
theorem Scope.admits_of_not_isPlaced {kind : Kind} (h : kind.isPlaced = false) (s : Scope) :
    s.admits kind := by
  unfold Kind.isPlaced at h
  unfold Scope.admits
  split at h
  all_goals simp_all

theorem Kind.within_of_not_isPlaced {kind : Kind} (h : kind.isPlaced = false) :
    kind.within = .inner := by
  unfold Kind.isPlaced at h
  unfold Kind.within
  split at h
  all_goals simp_all

/-- Inside all but the nodes around imports, nothing of an import stands. -/
theorem Scope.not_isPlaced_of_inner {kind : Kind} (h : Scope.inner.admits kind) :
    kind.isPlaced = false := by
  unfold Kind.isPlaced
  split
  all_goals first | rfl | cases h

/-- The kinds that may stand in a place. -/
theorem Scope.cases_of_admits {s : Scope} {kind : Kind} (h : s.admits kind) :
    kind.isPlaced = false ∨ (kind = .importSpec ∧ (s = .imports ∨ s = .specs)) ∨
      (kind = .importSpecList ∧ s = .imports) ∨ kind = .importDeclaration ∧ s = .file := by
  unfold admits at h
  unfold Kind.isPlaced
  split at h
  all_goals simp_all

/-! ## Runs -/

/-- What a run may hold, besides what may stand in a place. -/
inductive Setting where
  /-- Anything but terminators. -/
  | one (s : Scope)
  /-- Items, and terminators that each follow on one. -/
  | many (s : Scope)
  /-- Semicolons, and no declarations. -/
  | header
  deriving DecidableEq

namespace Setting

/-- An item in no particular place. -/
abbrev item : Setting := .one .inner

/-- Items in no particular place, and terminators that each follow on one. -/
abbrev items : Setting := .many .inner

/-- The place of a run. -/
def scope : Setting → Scope
  | one s | many s => s
  | header => .inner

end Setting

/-- The runs that come about between two cursors. -/
inductive Run : Setting → Cursor → List Node → Cursor → Prop where
  | nil (m : Setting) (c : Cursor) : Run m c [] c
  | append {m : Setting} {c d e : Cursor} {ns ms : List Node} :
    Run m c ns d → Run m d ms e → Run m c (ns ++ ms) e
  | leaf {kind : Kind} {k : Nat} {m : Setting} {c d : Cursor} {ns : List Node} :
    kind.isFree → Rule.take kind k c = .ok (ns, d) → Run m c ns d
  | word {kind : Kind} {m : Setting} {c d : Cursor} {ns : List Node} :
    kind.isName || kind.isFree → Rule.word kind c = .ok (ns, d) → Run m c ns d
  /-- A name in its role. -/
  | name {kind : Kind} {m : Setting} {c d : Cursor} {ns : List Node} :
    kind.isName → Rule.word kind c = .ok (ns, d) → Run m c (Node.labelled .name ns) d
  /-- The dot in the role of a name. -/
  | dot {m : Setting} {c d : Cursor} {ns : List Node} :
    (c.upcoming false).head? = some '.' → Rule.take .dot 1 c = .ok (ns, d) →
    Run m c (Node.labelled .name ns) d
  | labelled {role : Role} {m : Setting} {c d : Cursor} {ns : List Node} :
    role ≠ .name → (∀ n ∈ ns, ¬ n.isComment → role.Fits n) → Run m c ns d →
    Run m c (Node.labelled role ns) d
  | enclose {kind : Kind} {m : Setting} {c d : Cursor} {ns : List Node} :
    kind.isPlain → m.scope.admits kind → kind.Fits ns → Run (.many kind.within) c ns d →
    Run m c (Node.enclose kind ns) d
  | declare {kind : Kind} {s : Scope} {c d : Cursor} {ns : List Node} :
    kind.isDeclaration → s.admits kind → kind.Fits ns → Run (.many kind.within) c ns d →
    Run (.one s) c (Node.enclose kind ns) d
  | header {kind : Kind} {m : Setting} {c d : Cursor} {ns : List Node} :
    kind ∈ headerKinds → Run .header c ns d → Run m c (Node.enclose kind ns) d
  /-- A semicolon between the parts of a header. -/
  | semicolon {c d : Cursor} {ns : List Node} :
    Rule.take (.token ";") 1 c = .ok (ns, d) → Run .header c ns d
  | items {s : Scope} {c d : Cursor} {ns : List Node} : Run (.one s) c ns d → Run (.many s) c ns d
  /-- What may stand anywhere may stand in a place. -/
  | placed {s : Scope} {c d : Cursor} {ns : List Node} : Run .item c ns d → Run (.one s) c ns d
  /-- An item and the terminator that follows on it. -/
  | terminated {s : Scope} {c d e : Cursor} {ns ts : List Node} :
    Run (.one s) c ns d → ns ≠ [] → Rule.terminator? d = .ok (some ts, e) →
    Run (.many s) c (ns ++ ts) e

/-- The runs that hold a node other than a comment. -/
structure Read (m : Setting) (c : Cursor) (ns : List Node) (d : Cursor) : Prop where
  run : Run m c ns d
  holds : ∃ n ∈ ns, ¬ n.isComment

section

variable (kind : Kind) (role : Role) {ns : List Node}

/-- A node around a run has comments in front of it. -/
theorem kind_of_mem_enclose {kind : Kind} {n : Node} (hn : n ∈ Node.enclose kind ns) :
    n.isComment ∨ n.kind = kind := by
  unfold Node.enclose at hn
  rcases List.mem_append.1 hn with hn | hn
  · exact .inl (List.mem_takeWhile_imp hn)
  · split at hn
    · cases hn
    · cases List.mem_singleton.1 hn
      exact .inr rfl

/-- There is one node around nodes that are not all comments. -/
theorem Node.filter_kind_enclose (hk : kind ≠ .comment) (h : ∃ n ∈ ns, ¬ n.isComment) :
    ∃ n, (enclose kind ns).filter (·.kind == kind) = [n] := by
  obtain ⟨first, rest, hrest⟩ : ∃ first rest, ns.dropWhile isComment = first :: rest := by
    refine List.exists_cons_of_ne_nil fun hnil => ?_
    obtain ⟨n, hn, hcomment⟩ := h
    exact hcomment (List.dropWhile_eq_nil_iff.1 hnil n hn)
  have hfront : (ns.takeWhile isComment).filter (·.kind == kind) = [] := by
    refine List.filter_eq_nil_iff.2 fun n hn hkind => ?_
    have hcomment := List.mem_takeWhile_imp hn
    exact hk ((eq_of_beq hkind).symm.trans (eq_of_beq hcomment))
  rw [enclose, hrest, List.filter_append, hfront, List.nil_append]
  exact ⟨_, List.filter_cons_of_pos (p := fun n : Node => n.kind == kind) (beq_self_eq_true kind)⟩

/-- Nodes of one kind and comments are of no other kind. -/
theorem Node.kind_ne_of_forall {kind other : Kind} (hother : other ≠ .comment) (hne : kind ≠ other)
    (h : ∀ n ∈ ns, n.isComment ∨ n.kind = kind) : ∀ n ∈ ns, n.kind ≠ other := by
  rintro n hn rfl
  rcases h n hn with hcomment | hkind
  · exact hother (eq_of_beq hcomment)
  · exact hne hkind.symm

/-- A role does not change the kind of a node. -/
theorem Node.kind_of_mem_labelled {n : Node} (hn : n ∈ labelled role ns) :
    ∃ m ∈ ns, n.kind = m.kind := by
  obtain ⟨⟨head, children⟩, hm, rfl⟩ := List.mem_map.1 hn
  refine ⟨_, hm, ?_⟩
  split
  · rfl
  · rfl

/-- Nodes that are not all comments hold a part in the role they are given. -/
theorem Node.holdsPart_labelled (h : ∃ n ∈ ns, ¬ n.isComment) :
    HoldsPart role (labelled role ns) := by
  obtain ⟨n, hn, hcomment⟩ := h
  obtain ⟨head, children⟩ := n
  refine ⟨withRole role (.mk head children), List.mem_map.2 ⟨_, hn, if_neg hcomment⟩, rfl, ?_⟩
  exact hcomment

end

section

variable {m : Setting} {c d e : Cursor} {ns ms : List Node} {kind : Kind} {role : Role}

/-- A part is no comment. -/
theorem HoldsPart.holds (h : HoldsPart role ns) : ∃ n ∈ ns, ¬ n.isComment := by
  obtain ⟨n, hn, -, hcomment⟩ := h
  exact ⟨n, hn, hcomment⟩

theorem Read.ne_nil (h : Read m c ns d) : ns ≠ [] := by
  obtain ⟨n, hn, -⟩ := h.holds
  exact List.ne_nil_of_mem hn

/-- A run behind a read one. -/
theorem Read.append (hns : Read m c ns d) (hms : Run m d ms e) : Read m c (ns ++ ms) e := by
  obtain ⟨n, hn, hcomment⟩ := hns.holds
  exact ⟨hns.run.append hms, n, List.mem_append_left _ hn, hcomment⟩

/-- A read run behind another. -/
theorem Run.then (hns : Run m c ns d) (hms : Read m d ms e) : Read m c (ns ++ ms) e := by
  obtain ⟨n, hn, hcomment⟩ := hms.holds
  exact ⟨hns.append hms.run, n, List.mem_append_right _ hn, hcomment⟩

/-- Nodes of a kind that is not that of comments are around more than comments. -/
theorem Node.holds_enclose (hk : kind ≠ .comment) (h : ∃ n ∈ ns, ¬ n.isComment) :
    ∃ n ∈ Node.enclose kind ns, ¬ n.isComment := by
  obtain ⟨n, hfilter⟩ := Node.filter_kind_enclose kind hk h
  have hn : n ∈ (Node.enclose kind ns).filter (·.kind == kind) := by
    rw [hfilter]
    exact List.mem_singleton_self n
  obtain ⟨hmem, hkind⟩ := List.mem_filter.1 hn
  exact ⟨n, hmem, fun hcomment => hk ((eq_of_beq hkind).symm.trans (eq_of_beq hcomment))⟩

theorem Run.labelled_of_isOpen (hr : role.isOpen) (h : Run m c ns d) :
    Run m c (Node.labelled role ns) d :=
  .labelled (Role.ne_name_of_isOpen hr) (fun n _ _ => Role.fits_of_isOpen hr n) h

/-- A run in an open role. -/
theorem Read.labelled (hr : role.isOpen) (h : Read m c ns d) :
    Read m c (Node.labelled role ns) d :=
  ⟨.labelled_of_isOpen hr h.run, (Node.holdsPart_labelled role h.holds).holds⟩

theorem Read.composed (hk : kind.isPlain) (hs : m.scope.admits kind) (hf : kind.Fits ns)
    (h : Read (.many kind.within) c ns d) : Read m c (Node.enclose kind ns) d :=
  ⟨.enclose hk hs hf h.run, Node.holds_enclose (Kind.isPlain_iff.1 hk).2.2.1 h.holds⟩

/-- A run of items in a node of a kind that may stand anywhere. -/
theorem Read.enclose (hk : kind.isFree) (h : Read .items c ns d) :
    Read m c (Node.enclose kind ns) d := by
  obtain ⟨hplain, hcomposed, hplaced⟩ := Kind.isFree_iff.1 hk
  refine .composed hplain (Scope.admits_of_not_isPlaced hplaced _)
    (Kind.fits_of_not_isComposed hcomposed) ?_
  rwa [Kind.within_of_not_isPlaced hplaced]

/-- A header with its semicolons in the node of its statement. -/
theorem Read.header (hk : kind ∈ headerKinds) (h : Read .header c ns d) :
    Read m c (Node.enclose kind ns) d := by
  have hplain := Kind.isPlain_iff.1 (isPlain_of_mem_headerKinds hk)
  exact ⟨.header hk h.run, Node.holds_enclose hplain.2.2.1 h.holds⟩

/-- A run in a declaration, where this may stand. -/
theorem Read.declare {s : Scope} (hk : kind.isDeclaration) (hs : s.admits kind) (hf : kind.Fits ns)
    (h : Read (.many kind.within) c ns d) : Read (.one s) c (Node.enclose kind ns) d :=
  ⟨.declare hk hs hf h.run, Node.holds_enclose (Kind.of_isDeclaration hk).2.1 h.holds⟩

end

/-! ## What rules ensure -/

namespace Rule

section

variable {α β : Type}

/-- Whatever the rule reads from a cursor and wherever it ends, the two have a property. -/
def Ensures (rule : Rule α) (c : Cursor) (post : α → Cursor → Prop) : Prop :=
  ∀ ⦃a d⦄, rule c = .ok (a, d) → post a d

/-- The rule does not move on. -/
def Stays (rule : Rule α) : Prop := ∀ c, rule.Ensures c fun _ d => d = c

variable {x y : Rule α} {z u : Rule β} {f : β → Rule α} {c : Cursor} {post : α → Cursor → Prop}
  {q : β → Cursor → Prop}

/-- What a rule reads is what it reads. -/
theorem Ensures.self (x : Rule α) (c : Cursor) : x.Ensures c fun a d => x c = .ok (a, d) :=
  fun _ _ h => h

theorem Ensures.mono {post' : α → Cursor → Prop} (h : x.Ensures c post)
    (hpost : ∀ a d, post a d → post' a d) : x.Ensures c post' :=
  fun _ _ hr => hpost _ _ (h hr)

theorem Ensures.and {post' : α → Cursor → Prop} (h : x.Ensures c post) (h' : x.Ensures c post') :
    x.Ensures c fun a d => post a d ∧ post' a d :=
  fun _ _ hr => ⟨h hr, h' hr⟩

theorem Ensures.pure {a : α} (h : post a c) : (pure a : Rule α).Ensures c post := by
  intro b d hb
  cases hb
  exact h

theorem Ensures.stuck : (stuck : Rule α).Ensures c post := nofun

/-- **Rules one after the other**: what the first ensures is there for the second. -/
theorem Ensures.bind (hz : z.Ensures c q) (hf : ∀ b d, q b d → (f b).Ensures d post) :
    (z >>= f).Ensures c post := by
  intro a d h
  change (z c).bind (fun r => f r.1 r.2) = .ok (a, d) at h
  cases hr : z c with
  | error e =>
    rw [hr] at h
    cases h
  | ok r =>
    rw [hr] at h
    exact hf r.1 r.2 (hz hr) h

/-- Nothing comes after a rule that stops. -/
theorem Ensures.stopped : ((Rule.stuck : Rule β) >>= f).Ensures c post :=
  .bind (q := fun _ _ => False) .stuck fun _ _ h => h.elim

/-- A rule after a look ahead. -/
theorem Ensures.look (hz : z.Stays) (hf : ∀ b, (f b).Ensures c post) :
    (z >>= f).Ensures c post := by
  refine .bind (hz c) ?_
  rintro b d rfl
  exact hf b

/-- A rule after one that may leave the cursor anywhere. -/
theorem Ensures.after (hf : ∀ b d, (f b).Ensures d post) : (z >>= f).Ensures c post :=
  .bind (.self z c) fun b d _ => hf b d

theorem Ensures.map {g : β → α} (hz : z.Ensures c q) (hg : ∀ b d, q b d → post (g b) d) :
    (g <$> z).Ensures c post :=
  .bind hz fun b d hb => .pure (hg b d hb)

theorem Ensures.ite {p : Prop} [Decidable p] (hx : x.Ensures c post) (hy : y.Ensures c post) :
    (if p then x else y).Ensures c post := by
  split
  · exact hx
  · exact hy

theorem Ensures.get {f : Cursor → Rule α} (h : (f c).Ensures c post) :
    ((get : Rule Cursor) >>= f).Ensures c post := by
  refine .bind (q := fun b d => b = c ∧ d = c) (fun b d hb => ?_) ?_
  · cases hb
    exact ⟨rfl, rfl⟩
  · rintro b d ⟨rfl, rfl⟩
    exact h

/-- A rule from a cursor that was kept. -/
theorem Ensures.set {d : Cursor} {f : Unit → Rule α} (h : (f ()).Ensures d post) :
    ((set d : Rule Unit) >>= f).Ensures c post := by
  refine .bind (q := fun _ e => e = d) (fun b e hb => ?_) ?_
  · cases hb
    rfl
  · rintro b e rfl
    exact h

/-- What both of two rules ensure is ensured by the one that is taken. -/
theorem Ensures.orElse (hx : x.Ensures c post) (hy : y.Ensures c post) :
    (orElse x y).Ensures c post := by
  intro a d h
  unfold Rule.orElse at h
  split at h
  · next hr =>
    cases h
    exact hx hr
  · split at h
    · next hr =>
      cases h
      exact hy hr
    · cases h

/-- A loop ensures what it does in every number of rounds. -/
theorem Ensures.bounded {loop : Nat → Rule α} (h : ∀ rounds, (loop rounds).Ensures c post) :
    (bounded loop).Ensures c post :=
  fun _ _ hr => h (c.rest.length + 1) hr

/-- What both of two readings ensure is ensured by the heavier one. -/
theorem Ensures.heavier {kind : Kind} {x y : Rule (List Node)} {post : List Node → Cursor → Prop}
    (hx : x.Ensures c post) (hy : y.Ensures c post) : (heavier kind x y).Ensures c post := by
  intro a d h
  unfold Rule.heavier at h
  split at h
  · next hr hs =>
    split at h
    · cases h
      exact hy hs
    · cases h
      exact hx hr
  · next hr _ =>
    cases h
    exact hx hr
  · next hs =>
    cases h
    exact hy hs
  · cases h

/-! ### Looking ahead -/

theorem stays_of_eq_ok {look : Cursor → α} (h : ∀ c, x c = .ok (look c, c)) : x.Stays := by
  intro c a d hr
  rw [h] at hr
  cases hr
  rfl

theorem stays_upcoming (line : Bool) : (upcoming line).Stays := stays_of_eq_ok fun _ => rfl

theorem stays_nextIs (line : Bool) (c : Char) : (nextIs line c).Stays := stays_of_eq_ok fun _ => rfl

theorem stays_nextStarts (line : Bool) (spelling : String) : (nextStarts line spelling).Stays :=
  stays_of_eq_ok fun _ => rfl

theorem stays_nextWord (line : Bool) : (nextWord line).Stays := stays_of_eq_ok fun _ => rfl

theorem stays_pure (a : α) : (pure a : Rule α).Stays := fun _ => .pure rfl

theorem stays_stuck : (stuck : Rule α).Stays := fun _ => .stuck

theorem Stays.bind (hz : z.Stays) (hf : ∀ b, (f b).Stays) : (z >>= f).Stays :=
  fun c => .look hz fun b => hf b c

theorem Stays.ite {p : Prop} [Decidable p] (hx : x.Stays) (hy : y.Stays) :
    (if p then x else y).Stays :=
  fun c => .ite (hx c) (hy c)

/-- A look ahead with a rule goes back to where it started. -/
theorem stays_peek (x : Rule α) : (peek x).Stays :=
  fun _ => .get (.after fun _ _ => .set (.pure rfl))

end

/-! ## Rules that read runs -/

/-- The rule reads a run with at least one node. -/
def Runs (m : Setting) (rule : Rule (List Node)) : Prop := ∀ c, rule.Ensures c (Read m c)

/-- The rule reads a run with a node in a role. -/
def RunsWith (role : Role) (m : Setting) (rule : Rule (List Node)) : Prop :=
  ∀ c, rule.Ensures c fun ns d => Read m c ns d ∧ HoldsPart role ns

/-- The rule reads a run. -/
def MayRun (m : Setting) (rule : Rule (List Node)) : Prop := ∀ c, rule.Ensures c (Run m c)

section

variable {m : Setting} {x y : Rule (List Node)} {kind : Kind} {role : Role}

theorem Runs.may (h : x.Runs m) : x.MayRun m := fun c => (h c).mono fun _ _ hr => hr.run

/-- A rule that reads a run with a part reads a run. -/
theorem RunsWith.runs (h : x.RunsWith role m) : x.Runs m :=
  fun c => (h c).mono fun _ _ hr => hr.1

/-- An item is one of many. -/
theorem Runs.items {s : Scope} (h : x.Runs (.one s)) : x.Runs (.many s) :=
  fun c => (h c).mono fun _ _ hr => ⟨.items hr.run, hr.holds⟩

/-- What may stand anywhere may stand in a place. -/
theorem Runs.placed {s : Scope} (h : x.Runs .item) : x.Runs (.one s) :=
  fun c => (h c).mono fun _ _ hr => ⟨.placed hr.run, hr.holds⟩

/-! ### One rule after the other

The run of the whole starts at a cursor `b`, before what has been read so far. -/

section

variable {b c : Cursor} {ns : List Node} {f : List Node → Rule (List Node)}

/-- A part of a run, and what follows on it. -/
theorem Ensures.next (hx : x.Runs m)
    (hf : ∀ ns d, Read m c ns d → (f ns).Ensures d (Read m b)) :
    (x >>= f).Ensures c (Read m b) :=
  .bind (hx c) hf

/-- One more part behind what has been read so far, and what follows on it. -/
theorem Ensures.extend (hns : Read m b ns c) (hx : x.MayRun m)
    (hf : ∀ ms d, Read m b (ns ++ ms) d → (f ms).Ensures d (Read m b)) :
    (x >>= f).Ensures c (Read m b) :=
  .bind (hx c) fun ms d hms => hf ms d (hns.append hms)

/-- A part that may be left out, and what follows on it. -/
theorem Ensures.perhaps (hx : x.MayRun m)
    (hf : ∀ ns d, Run m c ns d → (f ns).Ensures d (Read m b)) :
    (x >>= f).Ensures c (Read m b) :=
  .bind (hx c) hf

/-- One of two parts that may be left out, and what follows on it. -/
theorem Ensures.perhaps_ite {p : Prop} [Decidable p] (hx : x.MayRun m) (hy : y.MayRun m)
    (hf : ∀ ns d, Run m c ns d → (f ns).Ensures d (Read m b)) :
    (if p then x >>= f else y >>= f).Ensures c (Read m b) :=
  .ite (.perhaps hx hf) (.perhaps hy hf)

/-- A part of a node, and what follows on it. -/
theorem Ensures.part {α : Type} {f : List Node → Rule α} {post : α → Cursor → Prop}
    (hx : x.Runs .items) (hf : ∀ ns d, Read .items c ns d → (f ns).Ensures d post) :
    (x >>= f).Ensures c post :=
  .bind (hx c) hf

/-- A part of a node in a role, and what follows on it. -/
theorem Ensures.rolePart {α : Type} {f : List Node → Rule α} {post : α → Cursor → Prop}
    (hx : x.RunsWith role .items)
    (hf : ∀ ns d, Read .items c ns d → HoldsPart role ns → (f ns).Ensures d post) :
    (x >>= f).Ensures c post :=
  .bind (hx c) fun ns d h => hf ns d h.1 h.2

/-- A part of a node that may be left out, and what follows on it. -/
theorem Ensures.mayPart {α : Type} {f : List Node → Rule α} {post : α → Cursor → Prop}
    (hx : x.MayRun .items) (hf : ∀ ns d, Run .items c ns d → (f ns).Ensures d post) :
    (x >>= f).Ensures c post :=
  .bind (hx c) hf

/-- A part that may stand anywhere, and what follows on it. -/
theorem Ensures.anywhere {α : Type} {f : List Node → Rule α} {post : α → Cursor → Prop}
    (hx : ∀ m, x.Runs m) (hf : ∀ ns d, (∀ m, Read m c ns d) → (f ns).Ensures d post) :
    (x >>= f).Ensures c post :=
  .bind (fun _ _ h m => hx m c h) hf

end

/-! ### Single tokens -/

theorem take_eq (kind : Kind) (k : Nat) (c : Cursor) :
    take kind k c = .ok ((c.trivia false).1 ++ [((c.trivia false).2.leaf kind k).1],
      ((c.trivia false).2.leaf kind k).2) := rfl

theorem word_eq (kind : Kind) (c : Cursor) :
    word kind c = (if (Lexeme.word (c.upcoming false)).isEmpty then stuck
      else take kind (Lexeme.word (c.upcoming false)).length) c := rfl

/-- A leaf of a kind that is not that of comments is there. -/
theorem holds_take (hk : kind ≠ .comment) {k : Nat} {c d : Cursor} {ns : List Node}
    (h : take kind k c = .ok (ns, d)) : ∃ n ∈ ns, ¬ n.isComment := by
  cases h
  exact ⟨_, List.mem_append_right _ List.mem_cons_self, fun hcomment => hk (eq_of_beq hcomment)⟩

/-- A leaf of a kind that may stand anywhere. -/
theorem runs_take (hk : kind.isFree) (k : Nat) : (take kind k).Runs m :=
  fun _ _ _ h => ⟨.leaf hk h, holds_take (Kind.of_isFree hk).2.2.1 h⟩

/-- A mark of punctuation other than a semicolon. -/
theorem runs_symbol {spelling : String} (hk : (Kind.token spelling).isFree) :
    (symbol spelling).Runs m :=
  fun c => .look (stays_nextStarts false spelling) fun _ => .ite (runs_take hk _ c) .stuck

/-- A keyword. -/
theorem runs_keyword {spelling : String} (hk : (Kind.token spelling).isFree) :
    (keyword spelling).Runs m :=
  fun c => .look (stays_nextWord false) fun _ => .ite (runs_take hk _ c) .stuck

/-- A leaf has comments in front of it. -/
theorem ensures_kind_take (kind : Kind) (k : Nat) (c : Cursor) :
    (take kind k).Ensures c fun ns _ => ∀ n ∈ ns, n.isComment ∨ n.kind = kind := by
  intro ns d h n hn
  rcases mem_take h hn with ⟨-, hcomment⟩ | ⟨span, rfl⟩
  · exact .inl hcomment
  · exact .inr rfl

theorem ensures_kind_keyword (spelling : String) (c : Cursor) :
    (keyword spelling).Ensures c fun ns _ => ∀ n ∈ ns, n.isComment ∨ n.kind = .token spelling :=
  .look (stays_nextWord false) fun _ => .ite (ensures_kind_take _ _ c) .stuck

theorem ensures_kind_symbol (spelling : String) (c : Cursor) :
    (symbol spelling).Ensures c fun ns _ => ∀ n ∈ ns, n.isComment ∨ n.kind = .token spelling :=
  .look (stays_nextStarts false spelling) fun _ => .ite (ensures_kind_take _ _ c) .stuck

theorem ensures_kind_word (kind : Kind) (c : Cursor) :
    (word kind).Ensures c fun ns _ => ∀ n ∈ ns, n.isComment ∨ n.kind = kind :=
  .look (stays_upcoming false) fun _ => .ite .stuck (ensures_kind_take _ _ c)

/-- A closing mark. -/
theorem runs_closing {spelling : String} (hk : (Kind.token spelling).isFree) :
    (closing spelling).Runs m := by
  intro c ns d h
  unfold closing at h
  split at h
  · next hr =>
    cases h
    exact runs_symbol hk c hr
  · split at h
    · cases h
    · cases h

/-- A semicolon in a header. -/
theorem runs_semicolon : (symbol ";").Runs .header := by
  intro c
  refine .look (stays_nextStarts false ";") fun _ => .ite ?_ .stuck
  intro ns d h
  exact ⟨.semicolon h, holds_take (by decide) h⟩

/-- A word is no comment. -/
theorem holds_word (hk : kind.isName || kind.isFree) {c d : Cursor} {ns : List Node}
    (h : word kind c = .ok (ns, d)) : ∃ n ∈ ns, ¬ n.isComment := by
  have hcomment : kind ≠ .comment := by
    rcases Bool.or_eq_true_iff.1 hk with hk | hk
    · exact (Kind.of_isName hk).2.1
    · exact (Kind.of_isFree hk).2.2.1
  rw [word_eq] at h
  split at h
  · cases h
  · exact holds_take hcomment h

theorem runs_word (hk : kind.isName || kind.isFree) : (word kind).Runs m :=
  fun _ _ _ h => ⟨.word hk h, holds_word hk h⟩

/-- A word in the role of a name. -/
theorem runsWith_named (hk : kind.isName) : (inRole .name (word kind)).RunsWith .name m := by
  refine fun c => .map (.self (word kind) c) fun ns d h => ?_
  have hpart : HoldsPart .name (Node.labelled .name ns) :=
    Node.holdsPart_labelled .name (holds_word (by simp [hk]) h)
  exact ⟨⟨.name hk h, hpart.holds⟩, hpart⟩

theorem runs_named (hk : kind.isName) : (inRole .name (word kind)).Runs m :=
  (runsWith_named hk).runs

/-! ### Rules put together -/

theorem mayRun_nil : (pure [] : Rule (List Node)).MayRun m := fun c => .pure (.nil m c)

theorem Runs.bounded {loop : Nat → Rule (List Node)} (h : ∀ rounds, (loop rounds).Runs m) :
    (bounded loop).Runs m :=
  fun c => .bounded fun rounds => h rounds c

theorem MayRun.bounded {loop : Nat → Rule (List Node)} (h : ∀ rounds, (loop rounds).MayRun m) :
    (bounded loop).MayRun m :=
  fun c => .bounded fun rounds => h rounds c

theorem runsWith_inRole (hr : role.isOpen) (hx : x.Runs m) : (inRole role x).RunsWith role m :=
  fun c => .map (hx c) fun _ _ h => ⟨h.labelled hr, Node.holdsPart_labelled role h.holds⟩

/-- A run that is given an open role. -/
theorem runs_inRole (hr : role.isOpen) (hx : x.Runs m) : (inRole role x).Runs m :=
  (runsWith_inRole hr hx).runs

/-- A node of a kind that may stand anywhere. -/
theorem runs_enclosed (hk : kind.isFree) (hx : x.Runs .items) : (enclosed kind x).Runs m :=
  fun c => .map (hx c) fun _ _ h => h.enclose hk

/-- A node with the parts that nodes of its kind have. -/
theorem runs_composed (hk : kind.isPlain) (hs : m.scope.admits kind)
    (hx : ∀ c, x.Ensures c fun ns d => Read (.many kind.within) c ns d ∧ kind.Fits ns) :
    (enclosed kind x).Runs m :=
  fun c => .map (hx c) fun _ _ h => h.1.composed hk hs h.2

/-- What is enclosed is in one node, and there are comments in front of it. -/
theorem ensures_enclosed (hk : kind ≠ .comment) (hx : x.Runs m) (c : Cursor) :
    (enclosed kind x).Ensures c fun ns _ =>
      (∀ n ∈ ns, n.isComment ∨ n.kind = kind) ∧ ∃ n, ns.filter (·.kind == kind) = [n] :=
  .map (hx c) fun _ _ h =>
    ⟨fun _ hn => kind_of_mem_enclose hn, Node.filter_kind_enclose kind hk h.holds⟩

/-- A declaration with the parts that declarations of its kind have, in a place of its own. -/
theorem runs_declaration {s : Scope} (hk : kind.isDeclaration) (hs : s.admits kind)
    (hx : ∀ c, x.Ensures c fun ns d => Read (.many kind.within) c ns d ∧ kind.Fits ns) :
    (enclosed kind x).Runs (.one s) :=
  fun c => .map (hx c) fun _ _ h => h.1.declare hk hs h.2

/-- A declaration of a kind that needs no parts. -/
theorem runs_declared {s : Scope} (hk : kind.isDeclaration && !kind.isComposed)
    (hs : s.admits kind) (hx : x.Runs (.many kind.within)) : (enclosed kind x).Runs (.one s) := by
  rw [Bool.and_eq_true, Bool.not_eq_true'] at hk
  exact runs_declaration hk.1 hs fun c => (hx c).mono fun _ _ h =>
    ⟨h, Kind.fits_of_not_isComposed hk.2⟩

/-- A declaration of a kind that needs a part in one role. -/
theorem runs_declaredWith {s : Scope} (hk : kind.isDeclaration) (hs : s.admits kind)
    (hrole : kind.partRoles = [role]) (hfield : kind ≠ .fieldDeclaration)
    (hx : x.RunsWith role (.many kind.within)) : (enclosed kind x).Runs (.one s) :=
  runs_declaration hk hs fun c => (hx c).mono fun _ _ h =>
    ⟨h.1, Kind.fits_of_holdsPart hrole hfield h.2⟩

/-- The node of a statement around its header. -/
theorem runs_header (hk : kind ∈ headerKinds) (hx : x.Runs .header) : (enclosed kind x).Runs m :=
  fun c => .map (hx c) fun _ _ h => h.header hk

end

/-! ### Lists -/

section

variable {m : Setting} {close : Char} {line : Bool} {item x y : Rule (List Node)}

theorem runs_comma : (symbol ",").Runs m := runs_symbol (by decide)

/-- **Items with commas between them**, and perhaps one behind the last. -/
theorem runs_commaItems (h : item.Runs m) (rounds : Nat) :
    (commaItems close item rounds).Runs m := by
  induction rounds with
  | zero => exact fun _ => .stuck
  | succ rounds ih =>
    intro c
    refine .next h fun first d hfirst => .look (stays_nextIs false ',') fun more => ?_
    refine .ite (.next runs_comma fun comma e hcomma => ?_) (.pure hfirst)
    have hsofar := hfirst.append hcomma.run
    refine .look (stays_nextIs false close) fun closes => .ite (.pure hsofar) ?_
    exact .next ih fun more f hmore => .pure (hsofar.append hmore.run)

/-- A bracketed list of items, which may be empty or a lone comma. -/
theorem runs_bracketed (hx : x.Runs m) (h : item.Runs m) (hy : y.Runs m) :
    Runs m (do
      let opening ← x
      let items ←
        if ← nextIs false close then pure []
        else if ← nextIs false ',' then symbol ","
        else bounded (commaItems close item)
      let last ← y
      return opening ++ items ++ last) := by
  intro c
  refine .next hx fun opening d hopening => ?_
  refine .look (stays_nextIs false close) fun empty => ?_
  refine .look (stays_nextIs false ',') fun comma => ?_
  -- the closing bracket is read in the same way after each of the three
  have hlast : ∀ items e, Run m d items e →
      Ensures (do let last ← y; return opening ++ items ++ last) e (Read m c) := by
    intro items e hitems
    exact .next hy fun last f hlast => .pure ((hopening.append hitems).append hlast.run)
  refine .ite (.perhaps mayRun_nil hlast) ?_
  exact .perhaps_ite runs_comma.may (Runs.bounded (runs_commaItems h)).may hlast

/-- A list with commas between its items. -/
theorem runs_commaList (h : item.Runs m) (rounds : Nat) : (commaList line item rounds).Runs m := by
  induction rounds with
  | zero => exact fun _ => .stuck
  | succ rounds ih =>
    intro c
    refine .next h fun first d hfirst => .look (stays_nextIs line ',') fun more => ?_
    refine .ite (.next runs_comma fun comma e hcomma => ?_) (.pure hfirst)
    exact .next ih fun more f hmore => .pure ((hfirst.append hcomma.run).append hmore.run)

/-- Names with commas between them. -/
theorem runs_nameList {kind : Kind} (hk : kind.isName) :
    (bounded (commaList line (inRole .name (word kind)))).Runs m :=
  .bounded (runs_commaList (runs_named hk))

/-- The first of the names is there. -/
theorem runsWith_nameList {kind : Kind} (hk : kind.isName) :
    (bounded (commaList line (inRole .name (word kind)))).RunsWith .name .items := by
  refine fun c => .bounded fun rounds => ?_
  cases rounds with
  | zero => exact .stuck
  | succ rounds =>
    refine .rolePart (runsWith_named hk) fun first d hfirst hpart => ?_
    refine .look (stays_nextIs line ',') fun more => .ite ?_ (.pure ⟨hfirst, hpart⟩)
    refine .part runs_comma fun comma e hcomma => ?_
    refine .part (runs_commaList (runs_named hk) rounds) fun more f hmore => .pure ⟨?_, ?_⟩
    · exact (hfirst.append hcomma.run).append hmore.run
    · exact (hpart.append_left comma).append_left more

/-- When no terminator follows, the cursor stays. -/
theorem eq_of_terminator?_none {c d : Cursor} (h : terminator? c = .ok (none, d)) : d = c := by
  unfold terminator? at h
  split at h
  split at h
  · split at h
    · cases h
    · cases h
      rfl
  · cases h
    rfl

/-- What a rule reads that goes on after an item in two ways. -/
theorem Ensures.terminator? {s : Scope} {c d : Cursor} {first : List Node}
    {f : Option (List Node) → Rule (List Node)} {post : List Node → Cursor → Prop}
    (hfirst : Read (.one s) c first d)
    (hsome : ∀ ts e, Run (.many s) c (first ++ ts) e → (f (some ts)).Ensures e post)
    (hnone : (f none).Ensures d post) : (terminator? >>= f).Ensures d post := by
  refine .bind (.self Rule.terminator? d) fun o e h => ?_
  cases o with
  | some ts => exact hsome ts e (.terminated hfirst.run hfirst.ne_nil h)
  | none =>
    obtain rfl := eq_of_terminator?_none h
    exact hnone

/-- Items that are each followed by a terminator, except perhaps the last. -/
theorem mayRun_terminatedItems {s : Scope} (h : item.Runs (.one s)) (rounds : Nat) :
    (terminatedItems close item rounds).MayRun (.many s) := by
  induction rounds with
  | zero => exact fun _ => .stuck
  | succ rounds ih =>
    intro c
    refine .look (stays_nextIs false close) fun closes => .ite (mayRun_nil c) ?_
    refine .bind (h c) fun first d hfirst => .terminator? hfirst (fun ts e hitem => ?_) ?_
    · exact .bind (ih e) fun more f hmore => .pure (hitem.append hmore)
    · exact .pure (.items hfirst.run)

/-- A terminator that has to come is one that may come. -/
theorem ensures_terminator (c : Cursor) :
    terminator.Ensures c fun ts d => terminator? c = .ok (some ts, d) := by
  refine .bind (.self terminator? c) fun o d h => ?_
  cases o with
  | none => exact .stuck
  | some ts => exact .pure h

/-- Items that are each followed by a terminator. -/
theorem mayRun_closedItems (h : item.Runs .item) (rounds : Nat) :
    (closedItems close item rounds).MayRun .items := by
  induction rounds with
  | zero => exact fun _ => .stuck
  | succ rounds ih =>
    intro c
    refine .look (stays_nextIs false close) fun closes => .ite (mayRun_nil c) ?_
    refine .bind (h c) fun first d hfirst => .bind (ensures_terminator d) fun last e hlast => ?_
    exact .bind (ih e) fun more f hmore =>
      .pure ((Run.terminated hfirst.run hfirst.ne_nil hlast).append hmore)

end

end Rule

end GoOutline.Syntax
