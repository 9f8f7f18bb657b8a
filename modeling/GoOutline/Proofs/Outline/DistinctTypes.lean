import GoOutline.Proofs.Outline.Binding
import GoOutline.Proofs.Syntax.Reading.Parameters

/-!
# Types told apart by their texts

The text of a type is made without marks around the types in it. It can still be taken apart again:
a type can be read from the front of a text, whatever follows it, as long as that goes on with
neither the word nor the dot that the type ends at. So two types are written alike only when they
are the same, as long as their names are neither keywords nor the word for other shapes. The same
holds of the results of functions.

## Main definitions

* `IsPlainName`: the names that no type form takes up
* `TypeExpr.NamesAre`: all names in a type have a property
* `TypeExpr.read?`: a type at the front of a text
* `ResultTypes`, `IsResult`: the types of a result, and whether they stand in parentheses

## Main results

* `TypeExpr.read?_render`: a type is read back from its text
* `TypeExpr.eq_of_render_append`: equal texts are those of equal types and equal rests
* `eq_of_texts_eq`: types and results are told apart by their texts
-/

namespace GoOutline

open GoOutline.Syntax GoOutline.Text

/-- The text is an identifier, other than a keyword and the word for types of other shapes. -/
structure IsPlainName (name : String) : Prop where
  isWord : Lexeme.IsWord name.toList
  not_keyword : name ∉ keywords
  ne_unknown : name ≠ TypeExpr.unknown.render

instance (name : String) : Decidable (IsPlainName name) :=
  have : Decidable (Lexeme.IsWord name.toList) :=
    inferInstanceAs (Decidable (name.toList ≠ [] ∧ Lexeme.word name.toList = name.toList))
  decidable_of_iff
    (Lexeme.IsWord name.toList ∧ name ∉ keywords ∧ name ≠ TypeExpr.unknown.render)
    ⟨fun h => ⟨h.1, h.2.1, h.2.2⟩, fun h => ⟨h.1, h.2, h.3⟩⟩

namespace TypeExpr

/-- Every name in the type has a property. -/
def NamesAre (p : String → Prop) : TypeExpr → Prop
  | .named name => p name
  | .pointer e | .slice e | .chan e => e.NamesAre p
  | .map key value => key.NamesAre p ∧ value.NamesAre p
  | .qualified package name => p package ∧ p name
  | .interface | .func | .unknown => True

instance decidableNamesAre (p : String → Prop) [DecidablePred p] :
    (e : TypeExpr) → Decidable (e.NamesAre p)
  | .named name => inferInstanceAs (Decidable (p name))
  | .pointer e | .slice e | .chan e => decidableNamesAre p e
  | .map key value =>
    have := decidableNamesAre p key
    have := decidableNamesAre p value
    inferInstanceAs (Decidable (key.NamesAre p ∧ value.NamesAre p))
  | .qualified package name => inferInstanceAs (Decidable (p package ∧ p name))
  | .interface | .func | .unknown => .isTrue trivial

/-! ## Reading types back -/

/-- The type that a first word starts, given a reader for the types in it. -/
def readAfter (read : List Char → Option (TypeExpr × List Char)) (first : String)
    (rest : List Char) : Option (TypeExpr × List Char) :=
  match first with
  | "map" => do
    let (key, rest) ← read (rest.drop 1)
    let (value, rest) ← read (rest.drop 1)
    return (.map key value, rest)
  | "chan" => (read (rest.drop 1)).map (Prod.map .chan id)
  | "interface" => some (.interface, rest.drop 2)
  | "func" => some (.func, rest)
  | "unknown" => some (.unknown, rest)
  -- no other word is one of a type, so it is a name, or the package before one
  | name =>
    match rest with
    | '.' :: more =>
      let second := Lexeme.word more
      some (.qualified name (String.ofList second), more.drop second.length)
    | _ => some (.named name, rest)

/-- Reads a type from the front of a text, with types nested at most `depth` deep in it. -/
def read? : Nat → List Char → Option (TypeExpr × List Char)
  | 0, _ => none
  | depth + 1, text =>
    match text with
    | '*' :: rest => (read? depth rest).map (Prod.map .pointer id)
    | '[' :: rest => (read? depth (rest.drop 1)).map (Prod.map .slice id)
    | _ =>
      let first := Lexeme.word text
      readAfter (read? depth) (String.ofList first) (text.drop first.length)

/-- What follows a type does not go on with the type. -/
structure EndsText (rest : List Char) : Prop where
  endsWord : Lexeme.EndsWord rest
  not_dot : ∀ more, rest ≠ '.' :: more

theorem endsText_nil : EndsText [] := ⟨nofun, nofun⟩

theorem endsText_cons {c : Char} {rest : List Char} (hc : Identifier.isContinue c = false)
    (hdot : c ≠ '.') : EndsText (c :: rest) :=
  ⟨Lexeme.endsWord_cons hc, fun _ h => hdot (List.cons.inj h).1⟩

section

variable {name rest : List Char} {depth : Nat}

theorem read?_word (h : Lexeme.IsWord name) (hrest : Lexeme.EndsWord rest) :
    read? (depth + 1) (name ++ rest) = readAfter (read? depth) (String.ofList name) rest := by
  rw [read?]
  · simp only [h.word_append hrest, List.drop_left]
  · exact fun _ => h.append_ne_cons (by decide)
  · exact fun _ => h.append_ne_cons (by decide)

/-- A name that no form of types takes up starts a name, qualified or not. -/
theorem readAfter_name {read : List Char → Option (TypeExpr × List Char)} {name : String}
    (h : IsPlainName name) (rest : List Char) :
    readAfter read name rest =
      match rest with
      | '.' :: more =>
        let second := Lexeme.word more
        some (.qualified name (String.ofList second), more.drop second.length)
      | _ => some (.named name, rest) := by
  have hkeyword : ∀ word ∈ keywords, name ≠ word := by
    rintro word hword rfl
    exact h.not_keyword hword
  unfold readAfter
  split
  · exact absurd rfl (hkeyword "map" (by decide))
  · exact absurd rfl (hkeyword "chan" (by decide))
  · exact absurd rfl (hkeyword "interface" (by decide))
  · exact absurd rfl (hkeyword "func" (by decide))
  · exact absurd rfl h.ne_unknown
  · rfl

end

theorem exists_eq_succ_of_height_le {e : TypeExpr} {depth : Nat} (h : e.height ≤ depth) :
    ∃ d, depth = d + 1 := by
  have hpos : 0 < e.height := by cases e <;> simp [height]
  exact Nat.exists_eq_add_one_of_ne_zero (hpos.trans_le h).ne'

/-- **A type is read back from its text**, whatever text comes after it. -/
theorem read?_render {e : TypeExpr} (he : e.NamesAre IsPlainName) {rest : List Char}
    (hrest : EndsText rest) {depth : Nat} (hdepth : e.height ≤ depth) :
    read? depth (e.render.toList ++ rest) = some (e, rest) := by
  -- by induction on the type, whatever the rest: behind a part of a type stands a bracket, or the
  -- rest of the whole
  induction e generalizing rest depth with
  | named name =>
    obtain ⟨d, rfl⟩ := exists_eq_succ_of_height_le hdepth
    rw [render, read?_word he.isWord hrest.endsWord, String.ofList_toList, readAfter_name he]
    split
    · exact absurd rfl (hrest.not_dot _)
    · rfl
  | pointer e ih =>
    obtain ⟨d, rfl⟩ := exists_eq_succ_of_height_le hdepth
    rw [toList_render_pointer]
    change (read? d (e.render.toList ++ rest)).map _ = _
    rw [ih he hrest (Nat.le_of_succ_le_succ hdepth)]
    rfl
  | slice e ih =>
    obtain ⟨d, rfl⟩ := exists_eq_succ_of_height_le hdepth
    rw [toList_render_slice]
    change (read? d (e.render.toList ++ rest)).map _ = _
    rw [ih he hrest (Nat.le_of_succ_le_succ hdepth)]
    rfl
  | map key value ihk ihv =>
    obtain ⟨d, rfl⟩ := exists_eq_succ_of_height_le hdepth
    obtain ⟨hkey, hvalue⟩ := Nat.max_le.1 (Nat.le_of_succ_le_succ hdepth)
    rw [toList_render_map]
    have hword : Lexeme.IsWord "map".toList := ⟨by decide, by decide⟩
    refine (read?_word hword (Lexeme.endsWord_cons (c := '[') (by decide))).trans ?_
    change ((read? d (key.render.toList ++ (']' :: (value.render.toList ++ rest)))).bind
      fun r => (read? d (r.2.drop 1)).bind fun q => some (map r.1 q.1, q.2)) = _
    rw [ihk he.1 (endsText_cons (by decide) (by decide)) hkey]
    change ((read? d (value.render.toList ++ rest)).bind fun q => some (map key q.1, q.2)) = _
    rw [ihv he.2 hrest hvalue]
    rfl
  | qualified package name =>
    obtain ⟨d, rfl⟩ := exists_eq_succ_of_height_le hdepth
    rw [toList_render_qualified]
    refine (read?_word he.1.isWord (Lexeme.endsWord_cons (c := '.') (by decide))).trans ?_
    rw [String.ofList_toList, readAfter_name he.1]
    change some (qualified package (String.ofList (Lexeme.word (name.toList ++ rest))),
      (name.toList ++ rest).drop (Lexeme.word (name.toList ++ rest)).length) = _
    rw [he.2.isWord.word_append hrest.endsWord, String.ofList_toList, List.drop_left]
  | interface =>
    obtain ⟨d, rfl⟩ := exists_eq_succ_of_height_le hdepth
    have hword : Lexeme.IsWord "interface".toList := ⟨by decide, by decide⟩
    exact read?_word hword (Lexeme.endsWord_cons (c := '\x7b') (by decide))
  | chan e ih =>
    obtain ⟨d, rfl⟩ := exists_eq_succ_of_height_le hdepth
    rw [toList_render_chan]
    have hword : Lexeme.IsWord "chan".toList := ⟨by decide, by decide⟩
    refine (read?_word hword Lexeme.endsWord_space).trans ?_
    change (read? d (e.render.toList ++ rest)).map _ = _
    rw [ih he hrest (Nat.le_of_succ_le_succ hdepth)]
    rfl
  | func =>
    obtain ⟨d, rfl⟩ := exists_eq_succ_of_height_le hdepth
    have hword : Lexeme.IsWord "func".toList := ⟨by decide, by decide⟩
    exact read?_word hword hrest.endsWord
  | unknown =>
    obtain ⟨d, rfl⟩ := exists_eq_succ_of_height_le hdepth
    have hword : Lexeme.IsWord "unknown".toList := ⟨by decide, by decide⟩
    exact read?_word hword hrest.endsWord

/-- **Texts are taken apart in one way**: equal texts that start with types start with the same
type, and go on alike. -/
theorem eq_of_render_append {e e' : TypeExpr} (he : e.NamesAre IsPlainName)
    (he' : e'.NamesAre IsPlainName) {rest rest' : List Char} (hrest : EndsText rest)
    (hrest' : EndsText rest') (h : e.render.toList ++ rest = e'.render.toList ++ rest') :
    e = e' ∧ rest = rest' := by
  have hread := read?_render he hrest (Nat.le_max_left e.height e'.height)
  have hread' := read?_render he' hrest' (Nat.le_max_right e.height e'.height)
  rw [h, hread'] at hread
  obtain ⟨rfl, rfl⟩ := Prod.mk.inj (Option.some.inj hread)
  exact ⟨rfl, rfl⟩

/-- No type starts with a parenthesis. -/
theorem render_ne_parenthesis {e : TypeExpr} (he : e.NamesAre IsPlainName) (text : List Char) :
    e.render.toList ≠ '(' :: text := by
  intro h
  have hread := read?_render he endsText_nil le_rfl
  obtain ⟨d, hd⟩ := exists_eq_succ_of_height_le (e := e) le_rfl
  rw [List.append_nil, h, hd] at hread
  -- no word stands in front of a parenthesis, so a reader finds a name without letters there
  have hname : read? (d + 1) ('(' :: text) = some (.named "", '(' :: text) := by
    cases d <;> rfl
  rw [hname] at hread
  obtain ⟨rfl, -⟩ := Prod.mk.inj (Option.some.inj hread)
  exact he.isWord.1 rfl

end TypeExpr

/-! ## Results -/

/-- The types of a result, one for each group. -/
inductive ResultTypes where
  /-- A type without parentheses. -/
  | bare (type : TypeExpr)
  /-- Types in parentheses. -/
  | listed (types : List TypeExpr)
  deriving DecidableEq, Repr

/-- The types in the order in which they are written. -/
def ResultTypes.types : ResultTypes → List TypeExpr
  | .bare type => [type]
  | .listed types => types

/-- The type that a group declares; that of a variadic group is not spelled out. -/
def typeOfGroup? (group : Node) : Option TypeExpr :=
  if group.kind = .variadicParameterDeclaration then some .unknown
  else (group.child? .type).map TypeExpr.ofNode

/-- What a result says. A type by itself and a single group without names are bare, all other groups
are listed. -/
inductive IsResult : Node → ResultTypes → Prop where
  | type {n : Node} : n.kind ≠ .parameterList → IsResult n (.bare (.ofNode n))
  | unnamed {n group : Node} {e : TypeExpr} : n.kind = .parameterList →
    parameterGroups n = [group] → group.child? .name = none → typeOfGroup? group = some e →
    IsResult n (.bare e)
  | groups {n : Node} {es : List TypeExpr} : n.kind = .parameterList → es ≠ [] →
    (parameterGroups n).map typeOfGroup? = es.map some →
    (∀ group, parameterGroups n = [group] → group.child? .name ≠ none) →
    IsResult n (.listed es)

namespace ResultTypes

/-- The text of a result. -/
def render : ResultTypes → String
  | .bare e => e.render
  | .listed es => resultTuple (es.map TypeExpr.render)

theorem groupType_eq (group : Node) :
    groupType group = (typeOfGroup? group).map TypeExpr.render := by
  unfold groupType typeOfGroup?
  by_cases h : group.kind = .variadicParameterDeclaration
  · simp [h]
  · simp only [h, beq_iff_eq, if_false, Option.map_map]
    rfl

/-- The texts of the types of some groups. -/
theorem filterMap_groupType_eq (groups : List Node) :
    groups.filterMap groupType = ((groups.map typeOfGroup?).filterMap id).map TypeExpr.render := by
  rw [List.filterMap_map, List.map_filterMap]
  exact List.filterMap_congr fun group _ => groupType_eq group

end ResultTypes

/-- The text of a result is that of what it says. -/
theorem returnTypeOf_of_isResult {n : Node} {r : ResultTypes} (h : IsResult n r) :
    returnTypeOf (some n) = some r.render := by
  cases h with
  | type hkind => simp [returnTypeOf, hkind, ResultTypes.render, TypeExpr.renderNode]
  | unnamed hkind hgroups hname htype =>
    simp [returnTypeOf, hkind, hgroups, hname, ResultTypes.groupType_eq, htype, ResultTypes.render]
  | @groups es hkind hne hgroups hnamed =>
    have htexts : (parameterGroups n).filterMap groupType = es.map TypeExpr.render := by
      rw [ResultTypes.filterMap_groupType_eq, hgroups, List.filterMap_map]
      simp
    rw [returnTypeOf, ResultTypes.render, ← htexts]
    simp only [hkind, beq_self_eq_true, if_true]
    split
    · next hnil => simp_all
    · next group hgroup =>
      rw [Option.isNone_eq_false_iff.2 (Option.isSome_iff_ne_none.2 (hnamed group hgroup))]
      cases hg : groupType group <;> simp [hgroup, hg]
    · rfl

/-! ## Results told apart -/

section

open TypeExpr

/-- What follows a type among others in parentheses does not go on with the type. -/
theorem endsText_afterItems (ss : List String) : EndsText (afterItems ss [')']) := by
  cases ss with
  | nil => exact endsText_cons (by decide) (by decide)
  | cons s ss => exact endsText_cons (by decide) (by decide)

theorem eq_of_afterItems {es es' : List TypeExpr} (hes : ∀ e ∈ es, e.NamesAre IsPlainName)
    (hes' : ∀ e ∈ es', e.NamesAre IsPlainName)
    (h : afterItems (es.map render) [')'] = afterItems (es'.map render) [')']) : es = es' := by
  induction es generalizing es' with
  | nil =>
    cases es' with
    | nil => rfl
    | cons e' es' => simp [afterItems] at h
  | cons e es ih =>
    cases es' with
    | nil => simp [afterItems] at h
    | cons e' es' =>
      rw [List.forall_mem_cons] at hes hes'
      have htexts := (List.cons.inj (List.cons.inj h).2).2
      obtain ⟨rfl, hrest⟩ := eq_of_render_append hes.1 hes'.1 (endsText_afterItems _)
        (endsText_afterItems _) htexts
      rw [ih hes.2 hes'.2 hrest]

theorem toList_resultTuple (ss : List String) :
    (resultTuple ss).toList = '(' :: itemsText ss [')'] := by
  rw [resultTuple, String.toList_append, String.toList_append, List.append_assoc]
  exact congrArg ('(' :: ·) (ParameterGroup.toList_intercalate_append ss)

/-- Results are told apart by their texts. -/
theorem ResultTypes.eq_of_render_eq {r r' : ResultTypes} (hne : r.types ≠ []) (hne' : r'.types ≠ [])
    (hr : ∀ e ∈ r.types, e.NamesAre IsPlainName) (hr' : ∀ e ∈ r'.types, e.NamesAre IsPlainName)
    (h : r.render = r'.render) : r = r' := by
  replace h := congrArg String.toList h
  cases r with
  | bare e =>
    have he := hr e List.mem_cons_self
    cases r' with
    | bare e' =>
      have he' := hr' e' List.mem_cons_self
      have htexts : e.render.toList ++ [] = e'.render.toList ++ [] := congrArg (· ++ []) h
      rw [(eq_of_render_append he he' endsText_nil endsText_nil htexts).1]
    | listed es' =>
      exact absurd (h.trans (toList_resultTuple _)) (render_ne_parenthesis he _)
  | listed es =>
    cases r' with
    | bare e' =>
      have he' := hr' e' List.mem_cons_self
      exact absurd (h.symm.trans (toList_resultTuple _)) (render_ne_parenthesis he' _)
    | listed es' =>
      -- the first types follow the parenthesis, the others a comma each
      cases es with
      | nil => exact absurd rfl hne
      | cons e es =>
        cases es' with
        | nil => exact absurd rfl hne'
        | cons e' es' =>
          obtain ⟨he, hes⟩ : e.NamesAre IsPlainName ∧ _ := List.forall_mem_cons.1 hr
          obtain ⟨he', hes'⟩ : e'.NamesAre IsPlainName ∧ _ := List.forall_mem_cons.1 hr'
          have htexts : itemsText ((e :: es).map TypeExpr.render) [')'] =
              itemsText ((e' :: es').map TypeExpr.render) [')'] :=
            (List.cons.inj ((toList_resultTuple _).symm.trans
              (h.trans (toList_resultTuple _)))).2
          obtain ⟨rfl, hrest⟩ := eq_of_render_append he he' (endsText_afterItems _)
            (endsText_afterItems _) htexts
          rw [eq_of_afterItems hes hes' hrest]

end

theorem IsResult.types_ne_nil {n : Node} {r : ResultTypes} (h : IsResult n r) : r.types ≠ [] := by
  cases h with
  | type => exact List.cons_ne_nil _ _
  | unnamed => exact List.cons_ne_nil _ _
  | groups _ hne => exact hne

/-- **Types and results are told apart by their texts.** Two types over plain names that are written
alike are the same. Two results of such types that are reported alike have the same types in the
same order, and both are bare or both are listed. -/
theorem eq_of_texts_eq :
    (∀ e e' : TypeExpr, e.NamesAre IsPlainName → e'.NamesAre IsPlainName →
        e.render = e'.render → e = e') ∧
      ∀ (n n' : Node) (r r' : ResultTypes), IsResult n r → IsResult n' r' →
        (∀ e ∈ r.types, e.NamesAre IsPlainName) → (∀ e ∈ r'.types, e.NamesAre IsPlainName) →
        returnTypeOf (some n) = returnTypeOf (some n') → r = r' := by
  constructor
  · intro e e' he he' h
    have hbare : ResultTypes.bare e = .bare e' :=
      ResultTypes.eq_of_render_eq (List.cons_ne_nil _ _) (List.cons_ne_nil _ _)
        (by simpa [ResultTypes.types] using he) (by simpa [ResultTypes.types] using he') h
    exact ResultTypes.bare.inj hbare
  · intro n n' r r' hn hn' hr hr' h
    rw [returnTypeOf_of_isResult hn, returnTypeOf_of_isResult hn'] at h
    exact ResultTypes.eq_of_render_eq hn.types_ne_nil hn'.types_ne_nil hr hr' (Option.some.inj h)

/-- Two functions whose results are written in two ways and reported alike. -/
def resultsAlike : List UInt8 := Utf8.encode
  "package p
func f() (m map[K]int, a, b *io.Reader) \x7b\x7d
func g() (map[K]int, *io.Reader) \x7b\x7d
".toList

theorem eq_of_texts_eq_resultsAlike :
    ∃ p n n' r r', parse "t.go" resultsAlike = .ok p ∧
      p.tree.children.filterMap (·.child? .result) = [n, n'] ∧ IsResult n r ∧ IsResult n' r' ∧
      (∀ e ∈ r.types, e.NamesAre IsPlainName) ∧ (∀ e ∈ r'.types, e.NamesAre IsPlainName) ∧
      returnTypeOf (some n) = returnTypeOf (some n') ∧ r = r' := by
  have h : (parse "t.go" resultsAlike).toOption.any fun p =>
      let results := p.tree.children.filterMap (·.child? .result)
      results.length == 2 && results.all fun n =>
        n.kind == .parameterList && (parameterGroups n).map typeOfGroup? ==
          [some (.map (.named "K") (.named "int")),
            some (.pointer (.qualified "io" "Reader"))] := by
    decide +kernel
  obtain ⟨p, hp, hq⟩ := exists_parse_eq_ok h
  rw [Bool.and_eq_true, beq_iff_eq, List.length_eq_two, List.all_eq_true] at hq
  obtain ⟨⟨n, n', hresults⟩, hq⟩ := hq
  let es := [TypeExpr.map (.named "K") (.named "int"), .pointer (.qualified "io" "Reader")]
  have hes : ∀ e ∈ (ResultTypes.listed es).types, e.NamesAre IsPlainName := by decide
  have hlisted : ∀ m ∈ [n, n'], IsResult m (.listed es) := by
    intro m hm
    obtain ⟨hkind, hgroups⟩ := Bool.and_eq_true_iff.1 (hq m (hresults ▸ hm))
    refine .groups (eq_of_beq hkind) (by decide) (eq_of_beq hgroups) fun group hgroup => ?_
    rw [hgroup] at hgroups
    simp at hgroups
  have hn := hlisted n (by simp)
  have hn' := hlisted n' (by simp)
  have htexts : returnTypeOf (some n) = returnTypeOf (some n') :=
    (returnTypeOf_of_isResult hn).trans (returnTypeOf_of_isResult hn').symm
  exact ⟨p, n, n', _, _, hp, hresults, hn, hn', hes, hes, htexts,
    eq_of_texts_eq.2 n n' _ _ hn hn' hes hes htexts⟩

end GoOutline
