import GoOutline.Proofs.Syntax.Spelling.Basic
import GoOutline.Syntax.Tree

/-!
# Reading known texts

What the rules of the grammar read when it is known which text is in front of them. The trees are
known up to the places of their nodes in the source, which depend on where the text stands.

A rule reads a text up to a rest, or it stops in it. Both are closed under the ways in which rules
are put together, so the reading of a construct follows the shape of its rule.

## Main definitions

* `Node.unplaced`: a tree without its places in the source
* `Node.Sound`, `Node.Quiet`: no faults are in a tree, and no functions either
* `Leads`: no comments, and at most white space, stand before a token
* `Rule.Reads`, `Rule.ReadsAs`: what a rule reads from a text
* `Rule.Stops`: a rule cannot read from a text

## Main results

* `Rule.Reads.bind`, `Rule.Reads.orElse`, `Rule.Stops.orElse`: rules put together
* `Rule.reads_symbol`, `Rule.reads_word`, `Rule.reads_keyword`: single tokens
* `Rule.reads_enclosed`, `Rule.reads_inRole`: nodes around parts, and roles
-/

namespace GoOutline.Syntax

open GoOutline.Text

/-! ## Trees without places -/

/-- The span of a node that has no place. -/
def nowhere : Span := ⟨Point.origin, Point.origin⟩

namespace Node

mutual

/-- The tree without its places in the source. -/
def unplaced : Node → Node
  | .mk head children => .mk { head with span := nowhere } (unplacedAll children)

/-- Some trees without their places in the source. -/
def unplacedAll : List Node → List Node
  | [] => []
  | n :: rest => unplaced n :: unplacedAll rest

end

/-- A token without a place. -/
def mark (spelling : String) : Node := leaf (.token spelling) nowhere spelling

/-- A node without a place around its children. -/
def around (kind : Kind) (children : List Node) : Node :=
  .mk ⟨kind, none, nowhere, "", false⟩ children

section

variable {kind : Kind} {r : Role} {n : Node} {ns ms : List Node}

@[simp] theorem kind_unplaced (n : Node) : n.unplaced.kind = n.kind := by
  obtain ⟨head, children⟩ := n
  rw [unplaced]
  rfl

@[simp] theorem role_unplaced (n : Node) : n.unplaced.role = n.role := by
  obtain ⟨head, children⟩ := n
  rw [unplaced]
  rfl

@[simp] theorem text_unplaced (n : Node) : n.unplaced.text = n.text := by
  obtain ⟨head, children⟩ := n
  rw [unplaced]
  rfl

@[simp] theorem children_unplaced (n : Node) : n.unplaced.children = unplacedAll n.children := by
  obtain ⟨head, children⟩ := n
  rw [unplaced]
  rfl

@[simp] theorem isComment_unplaced (n : Node) : n.unplaced.isComment = n.isComment := by
  rw [isComment, kind_unplaced]
  rfl

@[simp] theorem isFault_unplaced (n : Node) : n.unplaced.isFault = n.isFault := by
  obtain ⟨head, children⟩ := n
  rw [unplaced]
  rfl

theorem unplacedAll_eq_map (ns : List Node) : unplacedAll ns = ns.map unplaced := by
  induction ns with
  | nil => rw [unplacedAll]; rfl
  | cons n rest ih => rw [unplacedAll, ih]; rfl

@[simp] theorem unplacedAll_nil : unplacedAll [] = [] := unplacedAll_eq_map []

/-- Places are taken away part by part. -/
@[simp] theorem unplacedAll_append (ns ms : List Node) :
    unplacedAll (ns ++ ms) = unplacedAll ns ++ unplacedAll ms := by
  simp only [unplacedAll_eq_map, List.map_append]

theorem unplacedAll_leaf (kind : Kind) (span : Span) (text : String) :
    unplacedAll [leaf kind span text] = [leaf kind nowhere text] := by
  rw [unplacedAll, unplacedAll_nil, leaf, unplaced, unplacedAll_nil]
  rfl

/-- What is a single node without places is one with them. -/
theorem exists_of_unplacedAll_eq_singleton (h : unplacedAll ns = [n]) :
    ∃ m, ns = [m] ∧ m.unplaced = n := by
  rw [unplacedAll_eq_map] at h
  exact List.map_eq_singleton_iff.1 h

/-- A role may be given before or after places are taken away. -/
theorem unplaced_withRole (r : Role) (n : Node) :
    (n.withRole r).unplaced = n.unplaced.withRole r := by
  obtain ⟨head, children⟩ := n
  rw [withRole, unplaced, unplaced]
  rfl

theorem unplacedAll_labelled (r : Role) (ns : List Node) :
    unplacedAll (labelled r ns) = labelled r (unplacedAll ns) := by
  rw [unplacedAll_eq_map, unplacedAll_eq_map, labelled, labelled, List.map_map, List.map_map]
  refine List.map_congr_left fun n _ => ?_
  change unplaced (if n.isComment then n else n.withRole r) =
    if n.unplaced.isComment then n.unplaced else n.unplaced.withRole r
  rw [isComment_unplaced]
  split
  · rfl
  · exact unplaced_withRole r n

/-- A single node that is no comment gets the role. -/
theorem labelled_singleton (h : n.isComment = false) : labelled r [n] = [n.withRole r] := by
  rw [labelled, List.map_singleton, h]
  rfl

/-- The node around parts that no comment starts. -/
theorem unplacedAll_enclose (first : Node) {rest : List Node}
    (h : unplacedAll ns = first :: rest) (hcomment : first.isComment = false) :
    unplacedAll (enclose kind ns) = [around kind (first :: rest)] := by
  cases ns with
  | nil => simp at h
  | cons n ns =>
    rw [unplacedAll_eq_map] at h
    obtain ⟨rfl, hrest⟩ := List.cons.inj h
    rw [isComment_unplaced] at hcomment
    rw [enclose, List.takeWhile_cons, List.dropWhile_cons, hcomment]
    change unplacedAll ([] ++ [mk ⟨kind, none, spanOf n ns, "", false⟩ (n :: ns)]) = _
    rw [List.nil_append, unplacedAll, unplacedAll_nil, unplaced, unplacedAll_eq_map, List.map_cons,
      hrest]
    rfl

/-- The child in a role does not depend on places. -/
theorem child?_unplaced (n : Node) (r : Role) :
    n.unplaced.child? r = (n.child? r).map unplaced := by
  rw [child?, children_unplaced, unplacedAll_eq_map, List.find?_map]
  refine congrArg (fun p => (List.find? p n.children).map unplaced) (funext fun m => ?_)
  exact congrArg (· == some r) (role_unplaced m)

@[simp] theorem isComment_withRole (n : Node) (r : Role) :
    (n.withRole r).isComment = n.isComment := by
  obtain ⟨head, children⟩ := n
  rfl

end

end Node

/-! ## Trees without faults -/

namespace Node

/-- The tree has no fault. -/
def Sound (n : Node) : Prop := n.hasFault = false

/-- The trees have no fault. -/
def AllSound (ns : List Node) : Prop := hasFaultIn ns = false

section

variable {kind : Kind} {r : Role} {n : Node} {ns ms : List Node}

/-- A sound node is no fault and has sound children. -/
theorem sound_mk {head : Head} :
    (mk head ns).Sound ↔ (mk head ns).isFault = false ∧ AllSound ns := by
  rw [Sound, hasFault, AllSound, Bool.or_eq_false_iff]

@[simp] theorem allSound_nil : AllSound [] := by rw [AllSound, hasFaultIn]

@[simp] theorem allSound_cons : AllSound (n :: ns) ↔ n.Sound ∧ AllSound ns := by
  rw [AllSound, hasFaultIn, Bool.or_eq_false_iff]
  rfl

@[simp] theorem sound_mark (spelling : String) : (mark spelling).Sound :=
  sound_mk.2 ⟨rfl, allSound_nil⟩

/-- A node around sound ones is sound when it is no error. -/
theorem sound_around (h : kind ≠ .error) (hns : AllSound ns) : (around kind ns).Sound :=
  sound_mk.2 ⟨by simpa [isFault, Node.kind, head, isMissing] using h, hns⟩

mutual

/-- Faults do not depend on places. -/
theorem sound_unplaced : ∀ n : Node, n.unplaced.Sound ↔ n.Sound
  | .mk head children => by
    have hfault := isFault_unplaced (mk head children)
    rw [unplaced] at hfault ⊢
    rw [sound_mk, sound_mk, hfault, allSound_unplacedAll children]

theorem allSound_unplacedAll : ∀ ns : List Node, AllSound (unplacedAll ns) ↔ AllSound ns
  | [] => by rw [unplacedAll]
  | n :: rest => by
    rw [unplacedAll, allSound_cons, allSound_cons, sound_unplaced n, allSound_unplacedAll rest]

end

end

end Node

/-- The node is neither a fault nor a function. -/
structure Head.Quiet (head : Head) : Prop where
  ne_error : head.kind ≠ .error
  not_missing : head.isMissing = false
  ne_function : head.kind ≠ .functionDeclaration

namespace Node

/-- The tree has neither faults nor functions. -/
def Quiet : Node → Prop := Every Head.Quiet

section

variable {kind : Kind} {n : Node} {ns : List Node} {r : Role}

theorem quiet_leaf (kind : Kind) {text : String}
    (hk : kind ≠ .error ∧ kind ≠ .functionDeclaration) : (leaf kind nowhere text).Quiet :=
  .mk ⟨hk.1, rfl, hk.2⟩ fun _ hn => absurd hn List.not_mem_nil

theorem quiet_mark (spelling : String) : (mark spelling).Quiet := quiet_leaf _ ⟨nofun, nofun⟩

theorem quiet_around (hk : kind ≠ .error ∧ kind ≠ .functionDeclaration) (h : ∀ n ∈ ns, n.Quiet) :
    (around kind ns).Quiet :=
  .mk ⟨hk.1, rfl, hk.2⟩ h

/-- A role changes nothing about quietness. -/
theorem Quiet.withRole (h : n.Quiet) : (n.withRole r).Quiet := by
  cases h with
  | mk hhead hchildren => exact .mk ⟨hhead.ne_error, hhead.not_missing, hhead.ne_function⟩ hchildren

/-- Nodes that are each sound are sound together. -/
theorem allSound_of_forall (h : ∀ n ∈ ns, n.Sound) : AllSound ns := by
  induction ns with
  | nil => exact allSound_nil
  | cons n rest ih =>
    obtain ⟨hn, hrest⟩ := List.forall_mem_cons.1 h
    exact allSound_cons.2 ⟨hn, ih hrest⟩

/-- There is no fault in a quiet node. -/
theorem Quiet.sound (h : n.Quiet) : n.Sound := by
  induction h with
  | @mk head children hhead _ ih =>
    refine sound_mk.2 ⟨?_, allSound_of_forall ih⟩
    rw [isFault, Bool.or_eq_false_iff, beq_eq_false_iff_ne]
    exact ⟨hhead.ne_error, hhead.not_missing⟩

end

end Node

/-! ## What stands before a token -/

/-- The character starts a token, whatever follows it. -/
def startsToken (line : Bool) (c : Char) : Bool :=
  (!Cursor.isSpace c || (line && c == '\n')) && c != '/'

/-- No comments, and at most white space, stand before a token. With `line` a line feed counts as a
token. -/
def Leads (line : Bool) (text token : List Char) : Prop :=
  ∀ p, ∃ q, Cursor.trivia line ⟨text, p⟩ = ([], ⟨token, q⟩)

section

variable {line : Bool} {text token rest : List Char} {c : Char}

/-- Going on drops characters of the text, whatever becomes of the point. -/
theorem Cursor.exists_advance (n : Nat) (text : List Char) (p : Point) :
    ∃ q, Cursor.advance n ⟨text, p⟩ = ⟨text.drop n, q⟩ := by
  induction n generalizing text p with
  | zero => exact ⟨p, by cases text <;> rfl⟩
  | succ n ih =>
    cases text with
    | nil => exact ⟨p, rfl⟩
    | cons c rest => exact ih rest (p.advance c (Utf8.width c))

theorem Cursor.commentLength_eq_none (h : c ≠ '/') : Cursor.commentLength (c :: rest) = none := by
  unfold Cursor.commentLength
  split
  · next heq => exact absurd (List.cons.inj heq).1 h
  · next heq => exact absurd (List.cons.inj heq).1 h
  · rfl

theorem leads_nil (line : Bool) : Leads line [] [] := fun p => ⟨p, rfl⟩

/-- A token that stands at the front has nothing before it. -/
theorem leads_token (h : startsToken line c) : Leads line (c :: rest) (c :: rest) := by
  intro p
  refine ⟨p, ?_⟩
  rw [startsToken, Bool.and_eq_true, bne_iff_ne] at h
  have hspace : (Cursor.isSpace c && !(line && c == '\n')) = false := by
    cases hs : Cursor.isSpace c with
    | false => rfl
    | true => simpa [hs] using h.1
  rw [Cursor.trivia, Cursor.triviaLoop]
  simp only [hspace, Cursor.commentLength_eq_none h.2]
  rfl

/-- White space before what leads to a token. -/
theorem Leads.cons (h : Leads line text token) (hspace : Cursor.isSpace c)
    (hline : (line && c == '\n') = false) : Leads line (c :: text) token := by
  intro p
  obtain ⟨q, hq⟩ := h (p.advance c (Utf8.width c))
  refine ⟨q, ?_⟩
  rw [Cursor.trivia, Cursor.triviaLoop]
  simp only [hspace, hline]
  exact hq

/-- Blanks may stand before a token. -/
theorem Leads.space (h : Leads line text token) : Leads line (' ' :: text) token := by
  refine h.cons (by decide) ?_
  cases line <;> rfl

/-- Line feeds may stand before a token where lines do not matter. -/
theorem Leads.newline (h : Leads false text token) : Leads false ('\n' :: text) token :=
  h.cons (by decide) rfl

/-- Skipping what is between tokens never lengthens the text. -/
theorem Cursor.length_triviaLoop (line : Bool) (fuel : Nat) (cursor : Cursor) :
    (Cursor.triviaLoop line fuel cursor).2.rest.length ≤ cursor.rest.length := by
  have hadvance : ∀ n (cursor : Cursor), (cursor.advance n).rest.length ≤ cursor.rest.length := by
    intro n cursor
    obtain ⟨q, hq⟩ := Cursor.exists_advance n cursor.rest cursor.point
    rw [hq, List.length_drop]
    exact Nat.sub_le _ _
  -- every round of the loop ends it or moves on
  induction fuel generalizing cursor with
  | zero => exact le_refl _
  | succ fuel ih =>
    rw [Cursor.triviaLoop]
    split
    · exact le_refl _
    · split
      · exact (ih _).trans (hadvance 1 cursor)
      · split
        · exact le_refl _
        · next n _ => exact (ih _).trans (hadvance n cursor)

/-- What leads to a token is no shorter. -/
theorem Leads.length_le (h : Leads line text token) : token.length ≤ text.length := by
  obtain ⟨q, hq⟩ := h Point.origin
  have hlength := Cursor.length_triviaLoop line (text.length + 1) ⟨text, Point.origin⟩
  have hloop : Cursor.triviaLoop line (text.length + 1) ⟨text, Point.origin⟩ =
      ([], ⟨token, q⟩) := hq
  rwa [hloop] at hlength

/-- What comes next is the token that the text leads to. -/
theorem Leads.upcoming (h : Leads line text token) (p : Point) :
    Cursor.upcoming line ⟨text, p⟩ = token := by
  obtain ⟨q, hq⟩ := h p
  rw [Cursor.upcoming, hq]

/-- No white space may be part of a word. -/
theorem startsToken_of_isStart (h : Identifier.isStart c) : startsToken line c := by
  have hother : ∀ d : Char, Identifier.isStart d = false → c ≠ d := by
    rintro d hd rfl
    exact absurd (hd.symm.trans h) Bool.false_ne_true
  have hspace : Cursor.isSpace c = false := by
    rw [Cursor.isSpace, Bool.or_eq_false_iff, beq_eq_false_iff_ne]
    refine ⟨hother ' ' (by decide), Bool.eq_false_iff.2 fun hrange => ?_⟩
    rw [Bool.and_eq_true, decide_eq_true_eq, decide_eq_true_eq] at hrange
    have hlow : 9 ≤ c.toNat := hrange.1
    have hhigh : c.toNat ≤ 13 := hrange.2
    have hcontrol : ∀ n, 9 ≤ n → n ≤ 13 → Identifier.isStart (Char.ofNat n) = false := by decide
    have hstart := hcontrol c.toNat hlow hhigh
    rw [Char.ofNat_toNat] at hstart
    exact absurd (hstart.symm.trans h) Bool.false_ne_true
  have hslash : c ≠ '/' := hother '/' (by decide)
  simp [startsToken, hspace, hslash]

end

/-! ## Words in a text -/

namespace Lexeme

/-- A word before the text ends there. -/
def EndsWord (rest : List Char) : Prop := ∀ c ∈ rest.head?, Identifier.isContinue c = false

/-- A word ends before a character that it cannot go on with. -/
theorem endsWord_cons {c : Char} {rest : List Char} (h : Identifier.isContinue c = false) :
    EndsWord (c :: rest) := by
  rintro d hd
  cases hd
  exact h

theorem endsWord_space {rest : List Char} : EndsWord (' ' :: rest) := endsWord_cons (by decide)

section

variable {name rest : List Char}

/-- A word has a first character, which may start it, and the others may go on. -/
theorem IsWord.exists_cons (h : IsWord name) :
    ∃ c cs, name = c :: cs ∧ Identifier.isStart c ∧ cs.all Identifier.isContinue := by
  cases name with
  | nil => exact absurd rfl h.1
  | cons c cs =>
    obtain ⟨hc, hcs⟩ := h.of_cons
    exact ⟨c, cs, rfl, hc, hcs⟩

/-- The word at the front of a text that starts with one. -/
theorem IsWord.word_append (h : IsWord name) (hrest : EndsWord rest) :
    word (name ++ rest) = name := by
  obtain ⟨c, cs, rfl, hc, hcs⟩ := h.exists_cons
  rw [List.cons_append, word_cons, if_pos hc, List.takeWhile_append,
    List.takeWhile_eq_self_iff.2 (List.all_eq_true.1 hcs), if_pos rfl]
  have hnil : rest.takeWhile Identifier.isContinue = [] := by
    cases rest with
    | nil => rfl
    | cons d rest => rw [List.takeWhile_cons, hrest d rfl]; rfl
  rw [hnil, List.append_nil]

/-- A word is a token where it stands. -/
theorem IsWord.leads (h : IsWord name) {line : Bool} :
    Leads line (name ++ rest) (name ++ rest) := by
  obtain ⟨c, cs, rfl, hc, -⟩ := h.exists_cons
  exact leads_token (startsToken_of_isStart hc)

/-- A word starts with none of the characters that words do not start with. -/
theorem IsWord.head?_ne (h : IsWord name) {c : Char} (hc : Identifier.isStart c = false) :
    ((name ++ rest).head? == some c) = false := by
  obtain ⟨d, ds, rfl, hd, -⟩ := h.exists_cons
  rw [List.cons_append, List.head?_cons, beq_eq_false_iff_ne]
  rintro heq
  rw [Option.some.inj heq, hc] at hd
  exact absurd hd Bool.false_ne_true

/-- A text that starts with a word starts with no character that cannot start one. -/
theorem IsWord.append_ne_cons (h : IsWord name) {c : Char} (hc : Identifier.isStart c = false)
    {more : List Char} : name ++ rest ≠ c :: more := by
  intro heq
  have hhead : ((name ++ rest).head? == some c) = false := h.head?_ne hc
  rw [heq, List.head?_cons, beq_self_eq_true] at hhead
  exact Bool.noConfusion hhead

theorem startsWith_eq_false {spelling : String} {text : List Char} {c : Char}
    (hc : spelling.toList.head? = some c) (htext : (text.head? == some c) = false) :
    startsWith spelling text = false := by
  obtain ⟨more, hspelling⟩ := List.head?_eq_some_iff.1 hc
  rw [startsWith, hspelling]
  cases text with
  | nil => rfl
  | cons d rest =>
    have hne : (c == d) = false := by
      rw [List.head?_cons, beq_eq_false_iff_ne] at htext
      exact beq_eq_false_iff_ne.2 fun heq => htext (congrArg some heq.symm)
    rw [List.isPrefixOf_cons_cons, hne]
    rfl

theorem word_eq_nil {c : Char} (h : Identifier.isStart c = false) : word (c :: rest) = [] := by
  rw [word_cons, h]
  rfl

end

end Lexeme

/-! ## What rules read -/

namespace Rule

section

variable {α β : Type}

/-- The rule reads the text up to the rest, and what it gives has a property. -/
def Reads (rule : Rule α) (text rest : List Char) (post : α → Prop) : Prop :=
  ∀ p, ∃ a q, rule ⟨text, p⟩ = .ok (a, ⟨rest, q⟩) ∧ post a

/-- The rule cannot read from the text. -/
def Stops (rule : Rule α) (text : List Char) : Prop := ∀ p, ∃ e, rule ⟨text, p⟩ = .error e

variable {x y : Rule α} {z : Rule β} {f : β → Rule α} {text mid rest token : List Char}
  {post : α → Prop} {q : β → Prop} {line : Bool}

/-- A rule that reads nothing gives what it is made of. -/
theorem Reads.pure {a : α} (h : post a) : (pure a : Rule α).Reads text text post :=
  fun p => ⟨a, p, rfl, h⟩

/-- What is read has every weaker property. -/
theorem Reads.mono {post' : α → Prop} (h : x.Reads text rest post) (hpost : ∀ a, post a → post' a) :
    x.Reads text rest post' := by
  intro p
  obtain ⟨a, q, hx, ha⟩ := h p
  exact ⟨a, q, hx, hpost a ha⟩

/-- Two rules one after the other read two texts one behind the other. -/
theorem Reads.bind (hz : z.Reads text mid q) (hf : ∀ b, q b → (f b).Reads mid rest post) :
    (z >>= f).Reads text rest post := by
  intro p
  obtain ⟨b, r, hb, hqb⟩ := hz p
  obtain ⟨a, s, ha, hpost⟩ := hf b hqb r
  refine ⟨a, s, ?_, hpost⟩
  change (z ⟨text, p⟩).bind (fun t => f t.1 t.2) = _
  rw [hb]
  exact ha

theorem Reads.map {g : β → α} (hz : z.Reads text rest q) (hg : ∀ b, q b → post (g b)) :
    (g <$> z).Reads text rest post :=
  .bind hz fun b hb => .pure (hg b hb)

theorem stops_stuck : (stuck : Rule α).Stops text := fun _ => ⟨_, rfl⟩

/-- Rules stop where the first of them stops. -/
theorem Stops.bind (hz : z.Stops text) : (z >>= f).Stops text := by
  intro p
  obtain ⟨e, he⟩ := hz p
  refine ⟨e, ?_⟩
  change (z ⟨text, p⟩).bind (fun t => f t.1 t.2) = _
  rw [he]
  rfl

/-- Rules stop where the second stops on what the first leaves. -/
theorem Reads.bind_stops (hz : z.Reads text mid q) (hf : ∀ b, q b → (f b).Stops mid) :
    (z >>= f).Stops text := by
  intro p
  obtain ⟨b, r, hb, hqb⟩ := hz p
  obtain ⟨e, he⟩ := hf b hqb r
  refine ⟨e, ?_⟩
  change (z ⟨text, p⟩).bind (fun t => f t.1 t.2) = _
  rw [hb]
  exact he

theorem Stops.map {g : β → α} (hz : z.Stops text) : (g <$> z).Stops text :=
  Stops.bind (f := fun b => Pure.pure (g b)) hz

/-! ### Two readings -/

/-- The first of two rules is taken when it reads. -/
theorem Reads.orElse (hx : x.Reads text rest post) : (orElse x y).Reads text rest post := by
  intro p
  obtain ⟨a, q, ha, hpost⟩ := hx p
  refine ⟨a, q, ?_, hpost⟩
  rw [Rule.orElse, ha]

/-- The second of two rules is taken when the first stops. -/
theorem Stops.orElse (hx : x.Stops text) (hy : y.Reads text rest post) :
    (orElse x y).Reads text rest post := by
  intro p
  obtain ⟨e, he⟩ := hx p
  obtain ⟨a, q, ha, hpost⟩ := hy p
  refine ⟨a, q, ?_, hpost⟩
  rw [Rule.orElse, he]
  simp only [ha]

/-- A look ahead with a rule that reads gives what it reads and leaves the text. -/
theorem Reads.peek (hx : x.Reads text rest post) : (peek x).Reads text text post := by
  intro p
  obtain ⟨a, q, ha, hpost⟩ := hx p
  refine ⟨a, p, ?_, hpost⟩
  change (x ⟨text, p⟩).bind (fun t => .ok (t.1, (⟨text, p⟩ : Cursor))) = _
  rw [ha]
  rfl

theorem Stops.peek (hx : x.Stops text) : (peek x).Stops text := by
  intro p
  obtain ⟨e, he⟩ := hx p
  refine ⟨e, ?_⟩
  change (x ⟨text, p⟩).bind (fun t => .ok (t.1, (⟨text, p⟩ : Cursor))) = _
  rw [he]
  rfl

/-- A loop reads what it reads in as many rounds as the text has characters. -/
theorem Reads.bounded {loop : Nat → Rule α} (h : (loop (text.length + 1)).Reads text rest post) :
    (bounded loop).Reads text rest post := h

theorem Stops.bounded {loop : Nat → Rule α} (h : (loop (text.length + 1)).Stops text) :
    (bounded loop).Stops text := h

/-- A rule that takes note of where it is. -/
theorem Reads.get {f : Cursor → Rule α} (h : ∀ p, (f ⟨text, p⟩).Reads text rest post) :
    (get >>= f).Reads text rest post :=
  fun p => h p p

theorem Stops.get {f : Cursor → Rule α} (h : ∀ p, (f ⟨text, p⟩).Stops text) :
    (get >>= f).Stops text :=
  fun p => h p p

/-- A rule that goes back to where it has been. -/
theorem Reads.set {f : Unit → Rule α} {p : Point} (h : (f ()).Reads text rest post) :
    ((set (⟨text, p⟩ : Cursor) : Rule Unit) >>= f).Reads mid rest post :=
  fun _ => h p

/-! ### Looking ahead -/

/-- A rule that looks at what comes next and does not move. -/
def Looks (z : Rule β) (line : Bool) (look : List Char → β) : Prop :=
  ∀ cursor, z cursor = .ok (look (cursor.upcoming line), cursor)

variable {look : List Char → β}

/-- A look ahead gives what it sees of the token and leaves the text. -/
theorem Looks.reads (hz : z.Looks line look) (h : Leads line text token) :
    z.Reads text text (· = look token) := by
  intro p
  refine ⟨_, p, hz _, ?_⟩
  rw [h.upcoming]

theorem looks_upcoming (line : Bool) : (upcoming line).Looks line id := fun _ => rfl

theorem looks_nextIs (line : Bool) (c : Char) : (nextIs line c).Looks line (·.head? == some c) :=
  fun _ => rfl

theorem looks_nextStarts (line : Bool) (spelling : String) :
    (nextStarts line spelling).Looks line (Lexeme.startsWith spelling) :=
  fun _ => rfl

theorem looks_nextWord (line : Bool) :
    (nextWord line).Looks line fun text => String.ofList (Lexeme.word text) :=
  fun _ => rfl

/-- What a rule does after a look at what comes next. -/
theorem Looks.bind (hz : z.Looks line look) (h : Leads line text token)
    (hf : (f (look token)).Reads text rest post) : (z >>= f).Reads text rest post := by
  refine Reads.bind (hz.reads h) ?_
  rintro b rfl
  exact hf

theorem Looks.bind_stops (hz : z.Looks line look) (h : Leads line text token)
    (hf : (f (look token)).Stops text) : (z >>= f).Stops text := by
  refine Reads.bind_stops (hz.reads h) ?_
  rintro b rfl
  exact hf

end

/-! ### Nodes -/

/-- The rule reads the text up to the rest as some nodes, wherever the text stands. -/
def ReadsAs (rule : Rule (List Node)) (text rest : List Char) (nodes : List Node) : Prop :=
  rule.Reads text rest fun ns => Node.unplacedAll ns = nodes

section

variable {x y : Rule (List Node)} {text rest token : List Char} {ns ms : List Node} {kind : Kind}
  {spelling : String}

theorem reads_pure (h : Node.unplacedAll ns = ms) :
    (pure ns : Rule (List Node)).ReadsAs text text ms :=
  .pure h

theorem reads_nil : (pure [] : Rule (List Node)).ReadsAs text text [] :=
  reads_pure Node.unplacedAll_nil

/-- A node is put around what is read. -/
theorem reads_enclosed {first : Node} (hx : x.ReadsAs text rest (first :: ns))
    (hcomment : first.isComment = false) :
    (enclosed kind x).ReadsAs text rest [.around kind (first :: ns)] :=
  .map hx fun _ h => Node.unplacedAll_enclose first h hcomment

/-- What is read gets a role. -/
theorem reads_inRole {role : Role} (hx : x.ReadsAs text rest ns) :
    (inRole role x).ReadsAs text rest (Node.labelled role ns) := by
  refine .map hx ?_
  rintro ms rfl
  exact Node.unplacedAll_labelled role ms

/-- One node in a role. -/
theorem reads_inRole_one {role : Role} {n : Node} (hx : x.ReadsAs text rest [n])
    (hcomment : n.isComment = false) : (inRole role x).ReadsAs text rest [n.withRole role] := by
  have h : (inRole role x).ReadsAs text rest (Node.labelled role [n]) := reads_inRole hx
  rwa [Node.labelled_singleton hcomment] at h

/-- A leaf takes characters of the token that comes next. -/
theorem reads_take (kind : Kind) (h : Leads false text token) (n : Nat) :
    (take kind n).ReadsAs text (token.drop n)
      [.leaf kind nowhere (String.ofList (token.take n))] := by
  intro p
  obtain ⟨q, hq⟩ := h p
  obtain ⟨r, hr⟩ := Cursor.exists_advance n token q
  refine ⟨_, r, ?_, Node.unplacedAll_leaf kind ⟨q, r⟩ _⟩
  rw [take, hq]
  simp only [Cursor.leaf, hr]
  rfl

/-- A symbol is read where its spelling comes next. -/
theorem reads_symbol (h : Leads false text (spelling.toList ++ rest)) :
    (symbol spelling).ReadsAs text rest [.mark spelling] := by
  refine (looks_nextStarts false spelling).bind h ?_
  have hstarts : Lexeme.startsWith spelling (spelling.toList ++ rest) :=
    List.isPrefixOf_iff_prefix.2 (List.prefix_append _ _)
  rw [hstarts]
  have htake := reads_take (.token spelling) h spelling.length
  rwa [← String.length_toList, List.drop_left, List.take_left, String.ofList_toList] at htake

/-- A symbol is not read where the next token does not start with its spelling. -/
theorem stops_symbol (h : Leads false text token)
    (hstarts : Lexeme.startsWith spelling token = false) : (symbol spelling).Stops text := by
  refine (looks_nextStarts false spelling).bind_stops h ?_
  rw [hstarts]
  exact stops_stuck

/-- A word, as a leaf. -/
theorem reads_word {name : List Char} (h : Leads false text (name ++ rest))
    (hname : Lexeme.IsWord name) (hrest : Lexeme.EndsWord rest) :
    (word kind).ReadsAs text rest [.leaf kind nowhere (String.ofList name)] := by
  refine (looks_upcoming false).bind h ?_
  have hword : Lexeme.word (id (name ++ rest)) = name := hname.word_append hrest
  have hempty : name.isEmpty = false := List.isEmpty_eq_false_iff.2 hname.1
  simp only [hword, hempty]
  have htake := reads_take kind h name.length
  rwa [List.drop_left, List.take_left] at htake

/-- A word is not read where no word comes next. -/
theorem stops_word (h : Leads false text token) (hword : Lexeme.word token = []) :
    (word kind).Stops text := by
  refine (looks_upcoming false).bind_stops h ?_
  simp only [id_eq, hword]
  exact stops_stuck

/-- A particular word, as a token. -/
theorem reads_keyword (h : Leads false text (spelling.toList ++ rest))
    (hspelling : Lexeme.IsWord spelling.toList) (hrest : Lexeme.EndsWord rest) :
    (keyword spelling).ReadsAs text rest [.mark spelling] := by
  refine (looks_nextWord false).bind h ?_
  rw [hspelling.word_append hrest, String.ofList_toList, beq_self_eq_true, if_pos rfl]
  have htake := reads_take (.token spelling) h spelling.length
  rwa [← String.length_toList, List.drop_left, List.take_left, String.ofList_toList] at htake

/-! ### One node of some form -/

/-- The rule reads the text up to the rest as one node with a property. -/
def ReadsOne (rule : Rule (List Node)) (text rest : List Char) (q : Node → Prop) : Prop :=
  rule.Reads text rest fun ns => ∃ n, Node.unplacedAll ns = [n] ∧ q n

theorem ReadsAs.readsOne {n : Node} {q : Node → Prop} (h : x.ReadsAs text rest [n]) (hq : q n) :
    x.ReadsOne text rest q :=
  h.mono fun _ hns => ⟨n, hns, hq⟩

theorem ReadsOne.inRole {q : Node → Prop} {role : Role} (hx : x.ReadsOne text rest q)
    (hq : ∀ n, q n → n.isComment = false) :
    (inRole role x).Reads text rest fun ns =>
      ∃ n, Node.unplacedAll ns = [n.withRole role] ∧ q n := by
  refine .map hx ?_
  rintro ns ⟨n, hns, hn⟩
  refine ⟨n, ?_, hn⟩
  rw [Node.unplacedAll_labelled, hns, Node.labelled_singleton (hq n hn)]

/-! ### The heavier of two readings -/

/-- Of two readings the first is taken when the second stops. -/
theorem Reads.heavier_left {post : List Node → Prop} (hx : x.Reads text rest post)
    (hy : y.Stops text) : (heavier kind x y).Reads text rest post := by
  intro p
  obtain ⟨a, q, ha, hpost⟩ := hx p
  obtain ⟨e, he⟩ := hy p
  refine ⟨a, q, ?_, hpost⟩
  rw [heavier, ha, he]

/-- Of two readings that both fit, the first one counts unless the second is heavier. -/
theorem Reads.heavier_first {p q : List Node → Prop} (hx : x.Reads text rest p)
    (hy : y.Reads text rest q)
    (h : ∀ a b, p a → q b → Node.weightAll kind false b ≤ Node.weightAll kind false a) :
    (heavier kind x y).Reads text rest p := by
  intro start
  obtain ⟨a, last, ha, hpa⟩ := hx start
  obtain ⟨b, last', hb, hqb⟩ := hy start
  refine ⟨a, last, ?_, hpa⟩
  have hweight : ¬ Node.weightAll kind false a < Node.weightAll kind false b :=
    Int.not_lt.2 (h a b hpa hqb)
  rw [heavier, ha, hb]
  simp only [hweight, decide_false, Bool.and_false, Bool.false_eq_true, if_false]

/-- Of two readings the second is taken when the first stops. -/
theorem Stops.heavier_right {post : List Node → Prop} (hx : x.Stops text)
    (hy : y.Reads text rest post) : (heavier kind x y).Reads text rest post := by
  intro p
  obtain ⟨e, he⟩ := hx p
  obtain ⟨a, q, ha, hpost⟩ := hy p
  refine ⟨a, q, ?_, hpost⟩
  rw [heavier, he, ha]

end

end Rule

end GoOutline.Syntax
