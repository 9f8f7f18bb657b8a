import GoOutline.Proofs.Syntax.Reading.Groups
import Mathlib.Data.List.Chain

/-!
# Reading lists of parameters

The groups of a parameter list are written with commas between them. Where names are written for all
groups or for none, the list is read back, except that names alone may be taken for the names of the
group that follows them: the word `chan` is then one more name, and so is the word `map` in front of
what may be the length of an array.

## Main definitions

* `ParameterGroup`: names, perhaps none, and their type
* `ParameterGroup.asRead`: the groups that a written list is read as
* `ParameterGroup.clashes`: a name alone that is taken for a name of the next group
* `ParameterGroup.IsUnambiguous`: no group of a list clashes with the next
* `Declares`: what nodes in a list declare

## Main results

* `ParameterGroup.asRead_eq_self_iff`: a list is read as it is written when no two groups clash
* `reads_parameterList`: a list is read as the groups that it declares
-/

namespace GoOutline

open GoOutline.Syntax GoOutline.Text

/-- A group of a parameter list: names, perhaps none, and their type. -/
structure ParameterGroup where
  names : List String
  type : TypeExpr
  deriving DecidableEq, Repr

namespace ParameterGroup

/-- The text of a group: its names with commas between them and its type, or its type alone. -/
def text (group : ParameterGroup) : String :=
  match group.names with
  | [] => group.type.render
  | names => String.intercalate ", " names ++ " " ++ group.type.render

/-- The text of a list: its groups with commas between them. -/
def listText (groups : List ParameterGroup) : String := String.intercalate ", " (groups.map text)

/-- The group is written in identifiers. -/
structure Writable (group : ParameterGroup) : Prop where
  names : ∀ name ∈ group.names, IsIdentifier name
  type : group.type.Writable

/-- The groups of a list are written in identifiers, and either all of them have names or none
has. -/
structure IsList (groups : List ParameterGroup) : Prop where
  writable : ∀ group ∈ groups, group.Writable
  uniform : (∀ group ∈ groups, group.names ≠ []) ∨ ∀ group ∈ groups, group.names = []

instance (group : ParameterGroup) : Decidable group.Writable :=
  decidable_of_iff ((∀ name ∈ group.names, IsIdentifier name) ∧ group.type.Writable)
    ⟨fun h => ⟨h.1, h.2⟩, fun h => ⟨h.1, h.2⟩⟩

instance (groups : List ParameterGroup) : Decidable (IsList groups) :=
  decidable_of_iff ((∀ group ∈ groups, group.Writable) ∧
      ((∀ group ∈ groups, group.names ≠ []) ∨ ∀ group ∈ groups, group.names = []))
    ⟨fun h => ⟨h.1, h.2⟩, fun h => ⟨h.1, h.2⟩⟩

theorem IsList.of_append {first more : List ParameterGroup} (h : IsList (first ++ more)) :
    IsList more where
  writable group hgroup := h.writable group (List.mem_append_right first hgroup)
  uniform := by
    rcases h.uniform with hall | hnone
    · exact .inl fun group hgroup => hall group (List.mem_append_right first hgroup)
    · exact .inr fun group hgroup => hnone group (List.mem_append_right first hgroup)

/-! ## Groups as they are read -/

/-- The group that a name alone and the group after it are read as together, if they are. The name
is one of the names of a group that has names. The word `chan` is a name like it, in front of the
type of the elements, and so is the word `map`, in front of an array, when the key is an
expression. -/
def joined? (name : String) : ParameterGroup → Option ParameterGroup
  | ⟨[], .chan element⟩ => some ⟨[name, "chan"], element⟩
  | ⟨[], .map key value⟩ => if key.isOperand then some ⟨[name, "map"], .slice value⟩ else none
  | ⟨[], _⟩ => none
  | ⟨names, type⟩ => some ⟨name :: names, type⟩

/-- A group in front of groups as they are read. -/
def readBefore (group : ParameterGroup) (read : List ParameterGroup) : List ParameterGroup :=
  match group, read with
  | ⟨[], .named name⟩, next :: more =>
    match next.joined? name with
    | some both => both :: more
    | none => group :: next :: more
  | _, _ => group :: read

/-- The groups that a list is read as. -/
def asRead (groups : List ParameterGroup) : List ParameterGroup := groups.foldr readBefore []

/-- The group is a name alone, and the next one has names, is a channel, or is a map whose key is an
expression. -/
def clashes (group next : ParameterGroup) : Bool :=
  match group, next with
  | ⟨[], .named _⟩, ⟨_ :: _, _⟩ => true
  | ⟨[], .named _⟩, ⟨[], .chan _⟩ => true
  | ⟨[], .named _⟩, ⟨[], .map key _⟩ => key.isOperand
  | _, _ => false

/-- No group clashes with the next. -/
def IsUnambiguous (groups : List ParameterGroup) : Prop :=
  groups.IsChain fun group next => group.clashes next = false

instance (groups : List ParameterGroup) : Decidable (IsUnambiguous groups) :=
  inferInstanceAs (Decidable (groups.IsChain fun group next => group.clashes next = false))

/-- A type alone. -/
def bare (type : TypeExpr) : ParameterGroup := ⟨[], type⟩

/-- A name alone. -/
def alone (name : String) : ParameterGroup := ⟨[], .named name⟩

section

variable {group next : ParameterGroup} {groups more : List ParameterGroup} {names : List String}

theorem asRead_cons (group : ParameterGroup) (groups : List ParameterGroup) :
    asRead (group :: groups) = group.readBefore (asRead groups) := rfl

/-- Groups other than names alone are read as they are. -/
theorem readBefore_of_ne (h : ∀ name, group ≠ alone name) (read : List ParameterGroup) :
    group.readBefore read = group :: read := by
  unfold readBefore
  split
  · next name _ _ => exact absurd rfl (h name)
  · rfl

theorem names_joined? {both : ParameterGroup} {name : String} (h : next.joined? name = some both) :
    both.names ≠ [] := by
  unfold joined? at h
  split at h
  · cases h
    exact List.cons_ne_nil _ _
  · split at h
    · cases h
      exact List.cons_ne_nil _ _
    · cases h
  · cases h
  · cases h
    exact List.cons_ne_nil _ _

/-- Names alone are read together with the groups that they clash with. -/
theorem clashes_alone (name : String) (next : ParameterGroup) :
    (alone name).clashes next = (next.joined? name).isSome := by
  obtain ⟨names, type⟩ := next
  cases names with
  | cons _ _ => rfl
  | nil =>
    cases type with
    | map key value => cases h : key.isOperand <;> simp [clashes, alone, joined?, h]
    | _ => rfl

theorem clashes_of_ne (h : ∀ name, group ≠ alone name) (next : ParameterGroup) :
    group.clashes next = false := by
  unfold clashes
  split
  · next name _ _ _ => exact absurd rfl (h name)
  · next name _ => exact absurd rfl (h name)
  · next name _ _ => exact absurd rfl (h name)
  · rfl

/-- A group stays by itself when it does not clash with the next. -/
theorem readBefore_eq_cons_iff {read : List ParameterGroup} :
    group.readBefore read = group :: groups ↔
      read = groups ∧ ∀ next ∈ read.head?, group.clashes next = false := by
  by_cases halone : ∃ name, group = alone name
  · obtain ⟨name, rfl⟩ := halone
    cases read with
    | nil => simp [readBefore, alone]
    | cons next more =>
      have hclash : (∀ other ∈ (next :: more).head?, (alone name).clashes other = false) ↔
          next.joined? name = none := by
        rw [List.head?_cons, ← Option.isNone_iff_eq_none, ← Option.isSome_eq_false_iff,
          ← clashes_alone]
        constructor
        · intro h
          exact h next rfl
        · rintro h _ ⟨⟩
          exact h
      rw [hclash]
      cases hjoined : next.joined? name with
      | none => simp [readBefore, alone, hjoined]
      | some both =>
        -- two groups that are read as one have names, and a name alone has none
        have hnames := names_joined? hjoined
        refine ⟨fun heq => absurd ?_ hnames, nofun⟩
        have hread : (alone name).readBefore (next :: more) = both :: more := by
          simp [readBefore, alone, hjoined]
        rw [hread] at heq
        rw [(List.cons.inj heq).1]
        rfl
  · have hne : ∀ name, group ≠ alone name := fun name heq => halone ⟨name, heq⟩
    rw [readBefore_of_ne hne]
    constructor
    · intro heq
      exact ⟨(List.cons.inj heq).2, fun next _ => clashes_of_ne hne next⟩
    · rintro ⟨rfl, -⟩
      rfl

/-- **A list is read as it is written** when no group clashes with the next. -/
theorem asRead_eq_self_iff : asRead groups = groups ↔ IsUnambiguous groups := by
  induction groups with
  | nil => simp [asRead, IsUnambiguous]
  | cons group groups ih =>
    rw [asRead_cons, readBefore_eq_cons_iff, IsUnambiguous, List.isChain_cons, ← IsUnambiguous,
      ← ih, and_comm]
    refine and_congr_left fun hread => ?_
    rw [hread]

/-! ### Names alone -/

/-- Names alone in front of a group that they are read together with. -/
theorem asRead_run_joined {word : String} {type : TypeExpr} (hne : names ≠ [])
    (hread : asRead groups = next :: more)
    (hjoined : ∀ name, next.joined? name = some ⟨[name, word], type⟩) :
    asRead (names.map alone ++ groups) = ⟨names ++ [word], type⟩ :: more := by
  induction names with
  | nil => exact absurd rfl hne
  | cons name names ih =>
    rw [List.map_cons, List.cons_append, asRead_cons]
    cases names with
    | nil =>
      rw [List.map_nil, List.nil_append, hread]
      simp only [readBefore, alone, hjoined]
      rfl
    | cons second names =>
      rw [ih (List.cons_ne_nil _ _)]
      rfl

/-- Names alone that are not read together with what follows them. -/
theorem asRead_run_bare (names : List String)
    (h : ∀ name, ∀ next ∈ (asRead groups).head?, (alone name).clashes next = false) :
    asRead (names.map alone ++ groups) =
      names.map alone ++ asRead groups := by
  induction names with
  | nil => rfl
  | cons name names ih =>
    rw [List.map_cons, List.cons_append, List.cons_append, asRead_cons, ih]
    refine readBefore_eq_cons_iff.2 ⟨rfl, fun next hnext => ?_⟩
    cases names with
    | nil => exact h name next hnext
    | cons second names =>
      cases hnext
      rfl

end

/-! ## Texts -/

section

variable {rest : List Char}

theorem toList_intercalate_append (ss : List String) :
    (String.intercalate ", " ss).toList ++ rest = itemsText ss rest := by
  rw [String.toList_intercalate]
  induction ss with
  | nil => rfl
  | cons s ss ih =>
    cases ss with
    | nil => simp [itemsText, afterItems]
    | cons t ss =>
      rw [List.map_cons, List.map_cons, List.intercalate_cons_cons, ← List.map_cons,
        itemsText_cons (List.cons_ne_nil t ss), ← ih]
      simp

theorem toList_listText (groups : List ParameterGroup) :
    (listText groups).toList ++ rest = itemsText (groups.map text) rest :=
  toList_intercalate_append _

theorem toList_text_named {group : ParameterGroup} (h : group.names ≠ []) :
    group.text.toList ++ rest =
      itemsText group.names (' ' :: (group.type.render.toList ++ rest)) := by
  unfold text
  split
  · next hnil => exact absurd hnil h
  · rw [String.toList_append, String.toList_append, List.append_assoc, List.append_assoc,
      toList_intercalate_append]
    rfl

end

end ParameterGroup

/-! ## Reading -/

namespace Syntax

open Rule ParameterGroup

/-- The nodes, with commas between them, declare the groups. -/
inductive Declares : List Node → List ParameterGroup → Prop where
  | nil : Declares [] []
  | comma {ns : List Node} {groups : List ParameterGroup} :
    Declares ns groups → Declares (.mark "," :: ns) groups
  | group (group : ParameterGroup) {t : Node} {ns : List Node} {groups : List ParameterGroup} :
    t.StandsFor group.type → Declares ns groups →
      Declares (groupTree group.names t :: ns) (group :: groups)

theorem Declares.append {ns ms : List Node} {groups more : List ParameterGroup}
    (hns : Declares ns groups) (hms : Declares ms more) : Declares (ns ++ ms) (groups ++ more) := by
  induction hns with
  | nil => exact hms
  | comma _ ih => exact .comma ih
  | group group ht _ ih => exact .group group ht ih

theorem declares_bareTrees (names : List String) :
    Declares (bareTrees names) (names.map alone) := by
  induction names with
  | nil => exact .nil
  | cons name names ih => exact .group (alone name) (standsFor_tree _) (.comma ih)

theorem Declares.quiet {ns : List Node} {groups : List ParameterGroup} (h : Declares ns groups) :
    ∀ n ∈ ns, n.Quiet := by
  induction h with
  | nil => exact fun n hn => absurd hn List.not_mem_nil
  | comma _ ih => exact List.forall_mem_cons.2 ⟨Node.quiet_mark ",", ih⟩
  | group group ht _ ih =>
    refine List.forall_mem_cons.2 ⟨Node.quiet_around (by decide) ?_, ih⟩
    refine List.forall_mem_append.2 ⟨fun n hn => ?_, ?_⟩
    · rcases mem_nameTrees hn with rfl | ⟨name, -, rfl⟩
      · exact Node.quiet_mark ","
      · exact (Node.quiet_leaf _ (by decide)).withRole
    · simp [ht.quiet.withRole]

/-- The rule reads the text up to the rest as nodes that declare the groups. -/
def Rule.ReadsGroups (rule : Rule (List Node)) (text rest : List Char)
    (groups : List ParameterGroup) : Prop :=
  rule.Reads text rest fun ns => Declares (Node.unplacedAll ns) groups

section

variable {item : Rule (List Node)} {text more rest token : List Char}
  {groups others : List ParameterGroup} {rounds : Nat}

theorem reads_commaItems_last (h : item.ReadsGroups text (')' :: rest) groups) :
    (commaItems ')' item (rounds + 1)).ReadsGroups text (')' :: rest) groups := by
  refine .bind h fun ns hns => ?_
  refine (looks_nextIs false ',').bind (leads_token (by decide)) ?_
  exact .pure hns

theorem reads_commaItems_more (h : item.ReadsGroups text (',' :: ' ' :: more) groups)
    (hlead : Leads false (' ' :: more) token) (hclose : (token.head? == some ')') = false)
    (hmore : (commaItems ')' item rounds).ReadsGroups (' ' :: more) rest others) :
    (commaItems ')' item (rounds + 1)).ReadsGroups text rest (groups ++ others) := by
  have hcomma : Leads false (',' :: ' ' :: more) (",".toList ++ (' ' :: more)) :=
    leads_token (by decide)
  refine .bind h fun ns hns => (looks_nextIs false ',').bind hcomma ?_
  refine .bind (reads_symbol hcomma) fun comma hcomma => ?_
  refine (looks_nextIs false ')').bind hlead ?_
  rw [hclose, if_neg Bool.false_ne_true]
  refine .bind hmore fun ms hms => .pure ?_
  rw [Node.unplacedAll_append, Node.unplacedAll_append, hcomma, List.append_assoc]
  exact hns.append (.comma hms)

end

/-! ### Names alone and a keyword -/

section

variable {text rest : List Char} {names ts : List String} {depth : Nat}

theorem readsType_names (hnames : ∀ name ∈ names, IsIdentifier name) :
    ∀ name ∈ names, (grammar (depth + 1)).ReadsType (.named name) := by
  intro name hname
  exact readsType_grammar (.named (hnames name hname)) (Nat.succ_le_succ depth.zero_le)

/-- Names alone in front of a channel are read with the word `chan` as names. -/
theorem reads_run_chan {element : TypeExpr} (hne : names ≠ [])
    (hnames : ∀ name ∈ names, IsIdentifier name) (he : element.Writable)
    (hheight : (TypeExpr.chan element).height ≤ depth) (hrest : EndsItem rest)
    (hlead : Leads false text (itemsText (names ++ (TypeExpr.chan element).render :: ts) rest)) :
    (parameterGroup (grammar (depth + 1))).ReadsGroups text (afterItems ts rest)
      [⟨names ++ ["chan"], element⟩] := by
  have hchan : (grammar (depth + 1)).ReadsType (.chan element) :=
    readsType_grammar (.chan he) (Nat.le_succ_of_le hheight)
  have helement : (grammar (depth + 1)).ReadsType element :=
    readsType_grammar he (Nat.le_of_lt (Nat.lt_succ_of_lt hheight))
  have hends := (endsItem_afterItems ts hrest).endsType false
  refine Reads.mono ((keywordAhead_chan he).reads_shared (q := (· = element.tree)) hne hnames
    (readsType_names hnames)
    (.chan he) hchan hrest ((helement he.leads.space hends).readsOne rfl) ?_ ?_ hlead) ?_
  · rintro _ rfl
    exact element.isComment_tree
  · rintro _ rfl
    have hchan := TypeExpr.weight_chan element
    have hweight : (element.tree.withRole .type).weight .parameterDeclaration false =
        element.weight := TypeExpr.weight_tree_withRole (by decide) (by decide) element
    omega
  · rintro ns ⟨_, hns, _, rfl, rfl⟩
    rw [hns]
    exact .group ⟨names ++ ["chan"], element⟩ (standsFor_tree element) .nil

/-- Names alone in front of a map are read with the word `map` as names, when the key is an
expression. -/
theorem reads_run_map {key value : TypeExpr} (hne : names ≠ [])
    (hnames : ∀ name ∈ names, IsIdentifier name) (hkey : key.Writable) (hvalue : value.Writable)
    (hheight : (TypeExpr.map key value).height ≤ depth) (hoperand : key.isOperand)
    (hrest : EndsItem rest)
    (hlead : Leads false text (itemsText (names ++ (TypeExpr.map key value).render :: ts) rest)) :
    (parameterGroup (grammar (depth + 1))).ReadsGroups text (afterItems ts rest)
      [⟨names ++ ["map"], .slice value⟩] := by
  have hmap : (grammar (depth + 1)).ReadsType (.map key value) :=
    readsType_grammar (.map hkey hvalue) (Nat.le_succ_of_le hheight)
  obtain ⟨hk, hv⟩ := Nat.max_lt.1 (Nat.lt_of_succ_le hheight)
  have hends := (endsItem_afterItems ts hrest).endsType false
  have harray := reads_array hkey hvalue (reads_operand hkey hk.le hoperand)
    (readsType_grammar hvalue hv.le) hends (leads_token (by decide))
  refine Reads.mono ((keywordAhead_map key value).reads_shared hne hnames (readsType_names hnames)
    (.map hkey hvalue) hmap hrest harray ?_ ?_ hlead) ?_
  · rintro _ ⟨n, hn, rfl⟩
    rfl
  · -- the key adds no weight where it is a type
    rintro _ ⟨n, hn, rfl⟩
    have hnonpos := key.weight_nonpos
    rw [TypeExpr.weight_map, weight_arrayTree hn]
    omega
  · rintro ns ⟨_, hns, _, ⟨n, hn, rfl⟩, rfl⟩
    rw [hns]
    exact .group ⟨names ++ ["map"], .slice value⟩ (standsFor_arrayTree hn value) .nil

/-- Names alone in front of a map are types, when the key is no expression. -/
theorem reads_run_map_bare {key value : TypeExpr} (hne : names ≠ [])
    (hnames : ∀ name ∈ names, IsIdentifier name) (hkey : key.Writable) (hvalue : value.Writable)
    (hheight : (TypeExpr.map key value).height ≤ depth) (hoperand : key.isOperand = false)
    (hrest : EndsItem rest)
    (hlead : Leads false text (itemsText (names ++ (TypeExpr.map key value).render :: ts) rest)) :
    (parameterGroup (grammar (depth + 1))).ReadsGroups text (afterItems ts rest)
      (names.map alone ++ [bare (.map key value)]) := by
  have hmap : (grammar (depth + 1)).ReadsType (.map key value) :=
    readsType_grammar (.map hkey hvalue) (Nat.le_succ_of_le hheight)
  obtain ⟨hk, -⟩ := Nat.max_lt.1 (Nat.lt_of_succ_le hheight)
  have hstops : (grammar (depth + 1) (.type false)).Stops ("[".toList ++ (key.render.toList ++
      ("]".toList ++ (value.render.toList ++ afterItems ts rest)))) :=
    stops_array hkey (stops_operand hkey hk hoperand) (leads_token (by decide))
  refine Reads.mono ((keywordAhead_map key value).reads_separate hne hnames
    (readsType_names hnames)
    (.map hkey hvalue) hmap hrest hstops hlead) ?_
  intro ns hns
  rw [hns]
  exact (declares_bareTrees names).append
    (.group (bare (.map key value)) (standsFor_tree _) .nil)

end

/-! ### Lists -/

section

variable {text rest : List Char} {depth : Nat} {groups : List ParameterGroup}
  {group : ParameterGroup}

theorem leads_text (h : group.Writable) (rest : List Char) :
    Leads false (group.text.toList ++ rest) (group.text.toList ++ rest) ∧
      ((group.text.toList ++ rest).head? == some ')') = false ∧
      ((group.text.toList ++ rest).head? == some ',') = false := by
  by_cases hnames : group.names = []
  · have htext : group.text = group.type.render := by rw [ParameterGroup.text, hnames]
    rw [htext]
    exact ⟨h.type.leads, h.type.head?_ne (by decide) (by decide),
      h.type.head?_ne (by decide) (by decide)⟩
  · rw [toList_text_named hnames]
    obtain ⟨name, names, hcons⟩ := List.exists_cons_of_ne_nil hnames
    have hname := (h.names name (hcons ▸ List.mem_cons_self)).isWord
    rw [hcons]
    exact ⟨hname.leads, hname.head?_ne (by decide), hname.head?_ne (by decide)⟩

/-- Names alone at the start of a list, and what is something else. -/
theorem exists_run (groups : List ParameterGroup) :
    ∃ (names : List String) (more : List ParameterGroup), groups = names.map alone ++ more ∧
      ∀ next ∈ more.head?, ∀ name, next ≠ alone name := by
  induction groups with
  | nil => exact ⟨[], [], rfl, nofun⟩
  | cons group groups ih =>
    by_cases h : ∃ name, group = alone name
    · obtain ⟨name, rfl⟩ := h
      obtain ⟨names, more, rfl, hmore⟩ := ih
      exact ⟨name :: names, more, rfl, hmore⟩
    · refine ⟨[], group :: groups, rfl, ?_⟩
      rintro _ ⟨⟩ name heq
      exact h ⟨name, heq⟩

theorem map_text_run (names : List String) (more : List ParameterGroup) :
    (names.map alone ++ more).map ParameterGroup.text =
      names ++ more.map ParameterGroup.text := by
  rw [List.map_append, List.map_map]
  exact congrArg (· ++ _) (List.map_id names)

/-- Groups at the start of a list that are read at once, as what is read of the list first. -/
def ReadsFirst (depth : Nat) (rest : List Char) (groups : List ParameterGroup) : Prop :=
  ∃ first more read, groups = first ++ more ∧ first ≠ [] ∧ asRead groups = read ++ asRead more ∧
    ∀ {text}, Leads false text (itemsText (groups.map ParameterGroup.text) (')' :: rest)) →
      (parameterGroup (grammar (depth + 1))).ReadsGroups text
        (afterItems (more.map ParameterGroup.text) (')' :: rest)) read

/-- A group that is no name alone is read by itself. -/
theorem readsFirst_group {others : List ParameterGroup} (h : group.Writable)
    (hheight : group.type.height ≤ depth) (hnamed : ∀ name, group ≠ alone name) :
    ReadsFirst depth rest (group :: others) := by
  refine ⟨[group], others, [group], rfl, List.cons_ne_nil _ _, ?_, ?_⟩
  · rw [asRead_cons, readBefore_of_ne hnamed]
    rfl
  · intro text hlead
    have htype : (grammar (depth + 1)).ReadsType group.type :=
      readsType_grammar h.type (Nat.le_succ_of_le hheight)
    have hends : EndsItem (afterItems (others.map ParameterGroup.text) (')' :: rest)) :=
      endsItem_afterItems _ endsItem_parenthesis
    have hread : (parameterGroup (grammar (depth + 1))).ReadsAs text
        (afterItems (others.map ParameterGroup.text) (')' :: rest))
        [groupTree group.names group.type.tree] := by
      rw [List.map_cons, itemsText] at hlead
      by_cases hnames : group.names = []
      · have htext : group.text = group.type.render := by rw [ParameterGroup.text, hnames]
        rw [htext] at hlead
        -- a single name could be one of several with a type behind them
        have hne : ∀ name, group.type ≠ .named name := by
          intro name heq
          refine hnamed name ?_
          rw [alone, ← hnames, ← heq]
        rw [hnames]
        exact reads_bare (stops_leadingNames_type h.type hne hlead) h.type htype hends hlead
      · rw [toList_text_named hnames] at hlead
        exact reads_named hnames h.names h.type htype hends hlead
    refine Reads.mono hread fun ns hns => ?_
    rw [hns]
    exact .group group (standsFor_tree group.type) .nil

/-- The first of names alone is read by itself, when no names with a type are ahead. -/
theorem readsFirst_alone {name : String} {others : List ParameterGroup} (hname : IsIdentifier name)
    (hread : asRead (alone name :: others) = alone name :: asRead others)
    (hstops : ∀ {text}, Leads false text
      (itemsText ((alone name :: others).map ParameterGroup.text) (')' :: rest)) →
      leadingNames.Stops text) : ReadsFirst depth rest (alone name :: others) := by
  refine ⟨[alone name], others, [alone name], rfl, List.cons_ne_nil _ _, hread, ?_⟩
  intro text hlead
  have htype : (grammar (depth + 1)).ReadsType (.named name) :=
    readsType_grammar (.named hname) (Nat.succ_le_succ depth.zero_le)
  have hends : EndsItem (afterItems (others.map ParameterGroup.text) (')' :: rest)) :=
    endsItem_afterItems _ endsItem_parenthesis
  have hread := reads_bare (e := .named name) (hstops hlead) (.named hname) htype hends hlead
  refine Reads.mono hread ?_
  intro ns hns
  rw [hns]
  exact .group (alone name) (standsFor_tree (.named name)) .nil

/-- Names alone and a type are read at once. -/
theorem readsFirst_whole (read : List ParameterGroup) {names : List String} {type : TypeExpr}
    {others : List ParameterGroup}
    (hasRead : asRead (names.map alone ++ bare type :: others) = read ++ asRead others)
    (hread : ∀ {text}, Leads false text
      (itemsText (names ++ type.render :: others.map ParameterGroup.text) (')' :: rest)) →
      (parameterGroup (grammar (depth + 1))).ReadsGroups text
        (afterItems (others.map ParameterGroup.text) (')' :: rest)) read) :
    ReadsFirst depth rest (names.map alone ++ bare type :: others) := by
  refine ⟨names.map alone ++ [bare type], others, read, by simp, by simp, hasRead, ?_⟩
  rw [map_text_run]
  exact hread

theorem asRead_bare_cons {type : TypeExpr} (h : ∀ name, type ≠ .named name)
    (others : List ParameterGroup) : asRead (bare type :: others) = bare type :: asRead others := by
  refine readBefore_of_ne ?_ _
  intro name heq
  exact h name (congrArg ParameterGroup.type heq)

/-- Names alone and a type that they do not clash with are read as they are. -/
theorem asRead_run_type {type : TypeExpr} (hnamed : ∀ name, type ≠ .named name)
    (hclash : ∀ name, (alone name).clashes (bare type) = false) (names : List String)
    (others : List ParameterGroup) :
    asRead (names.map alone ++ bare type :: others) =
      names.map alone ++ bare type :: asRead others := by
  have hothers := asRead_bare_cons hnamed others
  rw [asRead_run_bare names, hothers]
  rw [hothers]
  rintro name _ ⟨⟩
  exact hclash name

/-- The first of names alone is read by itself unless the type is a channel or a map. -/
theorem readsFirst_run_plain {names : List String} {type : TypeExpr}
    {others : List ParameterGroup} (hne : names ≠ []) (hnames : ∀ name ∈ names, IsIdentifier name)
    (htype : type.Writable) (hnamed : ∀ name, type ≠ .named name)
    (hchan : ∀ element, type ≠ .chan element) (hmap : ∀ key value, type ≠ .map key value)
    (hclash : ∀ name, (alone name).clashes (bare type) = false) :
    ReadsFirst depth rest (names.map alone ++ bare type :: others) := by
  obtain ⟨name, more, rfl⟩ := List.exists_cons_of_ne_nil hne
  rw [List.map_cons, List.cons_append]
  refine readsFirst_alone (hnames name List.mem_cons_self) ?_ fun hlead => ?_
  · have hread := asRead_run_type hnamed hclash (name :: more) others
    rwa [List.map_cons, List.cons_append, List.cons_append,
      ← asRead_run_type hnamed hclash more others] at hread
  · rw [← List.cons_append, ← List.map_cons, map_text_run] at hlead
    exact stops_leadingNames_run_type hne hnames htype hnamed hchan hmap
      endsItem_parenthesis hlead

/-- Names alone are read first as what follows them asks for. -/
theorem readsFirst_run {names : List String} {type : TypeExpr} {others : List ParameterGroup}
    (hne : names ≠ []) (hnames : ∀ name ∈ names, IsIdentifier name) (htype : type.Writable)
    (hheight : type.height ≤ depth) (hnamed : ∀ name, type ≠ .named name) :
    ReadsFirst depth rest (names.map alone ++ bare type :: others) := by
  have hends : EndsItem (')' :: rest) := endsItem_parenthesis
  have hothers := asRead_bare_cons hnamed others
  have hplain : (∀ element, type ≠ .chan element) → (∀ key value, type ≠ .map key value) →
      (∀ name, (alone name).clashes (bare type) = false) →
      ReadsFirst depth rest (names.map alone ++ bare type :: others) :=
    readsFirst_run_plain hne hnames htype hnamed
  cases htype with
  | @named name => exact absurd rfl (hnamed name)
  | pointer => exact hplain nofun nofun fun _ => rfl
  | slice => exact hplain nofun nofun fun _ => rfl
  | qualified => exact hplain nofun nofun fun _ => rfl
  | interface => exact hplain nofun nofun fun _ => rfl
  | @chan element he =>
    refine readsFirst_whole [⟨names ++ ["chan"], element⟩]
      (asRead_run_joined hne hothers fun _ => rfl) fun hlead => ?_
    exact reads_run_chan hne hnames he hheight hends hlead
  | @map key value hkey hvalue =>
    -- a key that is an expression is read as the length of an array, and the word as a name
    cases hoperand : key.isOperand with
    | true =>
      refine readsFirst_whole [⟨names ++ ["map"], .slice value⟩]
        (asRead_run_joined hne hothers fun _ => if_pos hoperand) fun hlead => ?_
      exact reads_run_map hne hnames hkey hvalue hheight hoperand hends hlead
    | false =>
      have hclash : ∀ name, (alone name).clashes (bare (.map key value)) = false := by
        intro name
        simp [clashes, alone, bare, hoperand]
      refine readsFirst_whole (names.map alone ++ [bare (.map key value)]) ?_ fun hlead => ?_
      · rw [asRead_run_type hnamed hclash, List.append_assoc]
        rfl
      · exact reads_run_map_bare hne hnames hkey hvalue hheight hoperand hends hlead

/-- Names alone that end a list are read one by one. -/
theorem readsFirst_end {names : List String} (hne : names ≠ [])
    (hnames : ∀ name ∈ names, IsIdentifier name) : ReadsFirst depth rest (names.map alone) := by
  obtain ⟨name, more, rfl⟩ := List.exists_cons_of_ne_nil hne
  have hread : ∀ names : List String, asRead (names.map alone) = names.map alone := by
    intro names
    have hnil : asRead [] = [] := rfl
    have hrun : asRead (names.map alone ++ []) = names.map alone ++ asRead [] :=
      asRead_run_bare names nofun
    rwa [hnil, List.append_nil] at hrun
  refine readsFirst_alone (hnames name List.mem_cons_self) ?_ fun hlead => ?_
  · rw [hread, ← List.map_cons, hread]
  · have htext := map_text_run (name :: more) []
    rw [List.append_nil, List.map_nil, List.append_nil] at htext
    rw [← List.map_cons, htext] at hlead
    exact stops_leadingNames_end hne hnames hlead

/-- Some groups at the start of any list are read at once. -/
theorem readsFirst (hne : groups ≠ []) (h : IsList groups)
    (hheight : ∀ group ∈ groups, group.type.height ≤ depth) : ReadsFirst depth rest groups := by
  obtain ⟨names, more, rfl, hmore⟩ := exists_run groups
  have hnames : ∀ name ∈ names, IsIdentifier name := by
    intro name hname
    have hwritable := h.writable (alone name) (List.mem_append_left _ (List.mem_map_of_mem hname))
    cases hwritable.type with
    | named hname => exact hname
  cases more with
  | nil =>
    rw [List.append_nil] at hne ⊢
    exact readsFirst_end (fun hnil => hne (congrArg (List.map alone) hnil)) hnames
  | cons next others =>
    have hmem : next ∈ names.map alone ++ next :: others :=
      List.mem_append_right _ List.mem_cons_self
    cases names with
    | nil => exact readsFirst_group (h.writable next hmem) (hheight next hmem) (hmore next rfl)
    | cons name names =>
      -- the first group has no names, so the one that follows the names alone has none either
      have hbare : next = bare next.type := by
        rcases h.uniform with hall | hnone
        · exact absurd rfl (hall (alone name) List.mem_cons_self)
        · rw [bare, ← hnone next hmem]
      rw [hbare]
      refine readsFirst_run (List.cons_ne_nil _ _) hnames (h.writable next hmem).type
        (hheight next hmem) ?_
      intro name heq
      rw [heq] at hbare
      exact hmore next rfl name hbare

/-- The groups of a list are read one after the other. -/
theorem reads_groups {rounds : Nat} (hne : groups ≠ []) (h : IsList groups)
    (hheight : ∀ group ∈ groups, group.type.height ≤ depth) (hrounds : groups.length ≤ rounds)
    (hlead : Leads false text (itemsText (groups.map ParameterGroup.text) (')' :: rest))) :
    (commaItems ')' (parameterGroup (grammar (depth + 1))) rounds).ReadsGroups text (')' :: rest)
      (asRead groups) := by
  induction rounds generalizing groups text with
  | zero => exact absurd (List.length_eq_zero_iff.1 (Nat.le_zero.1 hrounds)) hne
  | succ rounds ih =>
    obtain ⟨first, more, read, rfl, hfirst, hasRead, hread⟩ := readsFirst hne h hheight
    have hlength := List.length_pos_iff.2 hfirst
    rw [List.length_append] at hrounds
    rw [hasRead]
    cases more with
    | nil =>
      have hnil : asRead [] = [] := rfl
      rw [hnil, List.append_nil]
      exact reads_commaItems_last (hread hlead)
    | cons next others =>
      obtain ⟨hnext, hclose, -⟩ := leads_text (h.of_append.writable next List.mem_cons_self)
        (afterItems (others.map ParameterGroup.text) (')' :: rest))
      refine reads_commaItems_more (hread hlead) hnext.space hclose ?_
      refine ih (List.cons_ne_nil _ _) h.of_append ?_ (by omega) hnext.space
      exact fun group hgroup => hheight group (List.mem_append_right first hgroup)

/-- The node is a list of the groups in parentheses. -/
def Node.Lists (n : Node) (groups : List ParameterGroup) : Prop :=
  ∃ ns, n = .around .parameterList (.mark "(" :: (ns ++ [.mark ")"])) ∧ Declares ns groups

theorem Node.Lists.isComment {n : Node} (h : n.Lists groups) : n.isComment = false := by
  obtain ⟨ns, rfl, -⟩ := h
  rfl

theorem Node.Lists.quiet {n : Node} (h : n.Lists groups) : n.Quiet := by
  obtain ⟨ns, rfl, hns⟩ := h
  refine quiet_around (by decide) (List.forall_mem_cons.2 ⟨quiet_mark "(", ?_⟩)
  refine List.forall_mem_append.2 ⟨hns.quiet, ?_⟩
  simp [quiet_mark]

/-- **A parameter list** declares the groups that it is read as. -/
theorem reads_parameterList (h : IsList groups)
    (hheight : ∀ group ∈ groups, group.type.height ≤ depth)
    (hlead : Leads false text
      ('(' :: itemsText (groups.map ParameterGroup.text) (')' :: rest))) :
    (parameterList (grammar (depth + 1))).ReadsOne text rest (·.Lists (asRead groups)) := by
  have hclose : Leads false (')' :: rest) (")".toList ++ rest) := leads_token (by decide)
  refine Reads.map (q := fun ns => ∃ ms, Node.unplacedAll ns = .mark "(" :: (ms ++ [.mark ")"]) ∧
    Declares ms (asRead groups)) ?_ ?_
  · have hopen : Leads false text
        ("(".toList ++ itemsText (groups.map ParameterGroup.text) (')' :: rest)) := hlead
    refine .bind (reads_symbol hopen) fun opening hopening => ?_
    have hparts : ∀ {items close : List Node}, Node.unplacedAll close = [.mark ")"] →
        Node.unplacedAll (opening ++ items ++ close) =
          .mark "(" :: (Node.unplacedAll items ++ [.mark ")"]) := by
      intro items close hclosed
      rw [Node.unplacedAll_append, Node.unplacedAll_append, hopening, hclosed, List.append_assoc]
      rfl
    cases groups with
    | nil =>
      refine (looks_nextIs false ')').bind hclose ((looks_nextIs false ',').bind hclose ?_)
      refine .bind reads_nil fun items hitems => ?_
      refine .bind (reads_symbol hclose) fun close hclosed => .pure ?_
      exact ⟨_, hparts hclosed, hitems ▸ .nil⟩
    | cons group groups =>
      obtain ⟨hfirst, hparenthesis, hcomma⟩ := leads_text (h.writable group List.mem_cons_self)
        (afterItems (groups.map ParameterGroup.text) (')' :: rest))
      refine (looks_nextIs false ')').bind hfirst ((looks_nextIs false ',').bind hfirst ?_)
      simp only [hparenthesis, hcomma, Bool.false_eq_true, if_false]
      have hrounds := length_itemsText ((group :: groups).map ParameterGroup.text) (')' :: rest)
      rw [List.length_map] at hrounds
      refine .bind (.bounded (reads_groups (List.cons_ne_nil _ _) h hheight hrounds hfirst))
        fun items hitems => ?_
      refine .bind (reads_symbol hclose) fun close hclosed => .pure ?_
      exact ⟨_, hparts hclosed, hitems⟩
  · rintro ns ⟨ms, hns, hms⟩
    exact ⟨_, Node.unplacedAll_enclose _ hns rfl, ms, rfl, hms⟩

end

end Syntax

end GoOutline
