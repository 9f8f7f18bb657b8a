import GoOutline.Doc.Comment
import Mathlib.Data.List.Chain
import Mathlib.Data.List.DropRight
import Mathlib.Data.List.Infix

/-!
# The paragraphs of comments

What the comments of a documentation say is put in a normal form: the lines that are not empty in
their order, in paragraphs with one empty line between them. The paragraphs are said here without
the loop that makes them, as the runs of lines between empty ones.

## Main definitions

* `Comment.HasLines`: the lines that a comment says
* `Comment.paragraphs`: the runs of lines between empty lines
* `Comment.joinParagraphs`: paragraphs as one text
* `Comment.AreParagraphs`: the paragraphs of a text
* `Comment.IsTidy`: texts without superfluous blanks

## Main results

* `Comment.hasLines_iff`: the lines of every comment
* `Comment.tidy_eq_intercalate`: the loop makes paragraphs
* `Comment.splitOn_joinParagraphs`: the lines of a text of paragraphs
* `Comment.isTidy_joinParagraphs`: texts of paragraphs are tidy
* `Comment.text_eq_joinParagraphs`: the text of comments is that of their paragraphs
-/

namespace GoOutline.Doc.Comment

open GoOutline.Text

/-! ## Directives -/

/-- Some letters of tags, a colon and another such letter stand at the front. -/
def IsTagged (body : List Char) : Prop :=
  ∃ tag c rest, body = tag ++ ':' :: c :: rest ∧ tag ≠ [] ∧ (∀ t ∈ tag, isTagChar t) ∧ isTagChar c

/-- What follows the slashes is addressed to a tool. -/
def IsDirective (body : List Char) : Prop :=
  (∃ opening ∈ directiveOpenings, opening.toList <+: body) ∨ IsTagged body

theorem hasTag_iff (body : List Char) : hasTag body ↔ IsTagged body := by
  constructor
  · intro h
    rw [hasTag, Bool.and_eq_true, Bool.not_eq_true', List.isEmpty_eq_false_iff] at h
    obtain ⟨htag, hrest⟩ := h
    split at hrest
    next c rest hdrop =>
      refine ⟨body.takeWhile isTagChar, c, rest, ?_, htag, ?_, hrest⟩
      · rw [← hdrop, List.takeWhile_append_dropWhile]
      · exact List.all_eq_true.1 List.all_takeWhile
    next => cases hrest
  · rintro ⟨tag, c, rest, rfl, htag, hall, hc⟩
    have hcolon : isTagChar ':' = false := by decide
    rw [hasTag, List.takeWhile_append_of_pos hall, List.dropWhile_append_of_pos hall,
      List.takeWhile_cons_of_neg (by simp [hcolon]), List.dropWhile_cons_of_neg (by simp [hcolon])]
    simp [htag, hc]

theorem isDirective_iff (body : List Char) : isDirective body ↔ IsDirective body := by
  rw [isDirective, Bool.or_eq_true, List.any_eq_true, hasTag_iff, IsDirective]
  simp only [List.isPrefixOf_iff_prefix]

/-- No directive stands behind a space. -/
theorem not_isDirective_space (body : List Char) : ¬ IsDirective (' ' :: body) := by
  rw [← isDirective_iff]
  simp [isDirective, directiveOpenings, hasTag, List.isPrefixOf,
    show isTagChar ' ' = false by decide]

/-! ## The lines of a comment -/

/-- The lines that a comment says: none when it is addressed to a tool, one when it starts with two
slashes, without the space that may follow them, and those between its marks otherwise. -/
inductive HasLines : List Char → List (List Char) → Prop where
  | directive {body : List Char} : IsDirective body → HasLines ('/' :: '/' :: body) []
  | spaced (body : List Char) : HasLines ('/' :: '/' :: ' ' :: body) [body]
  | line {body : List Char} : ¬ IsDirective body → ' ' ∉ body.head? →
    HasLines ('/' :: '/' :: body) [body]
  | closed (body : List Char) : HasLines ('/' :: '*' :: (body ++ ['*', '/'])) (body.splitOn '\n')
  | unclosed {body : List Char} : ¬ ['*', '/'] <:+ body →
    HasLines ('/' :: '*' :: body) (body.splitOn '\n')
  | other {comment : List Char} : ¬ ['/', '/'] <+: comment → ¬ ['/', '*'] <+: comment →
    HasLines comment []

theorem splitLines_eq_splitOn (s : List Char) : splitLines s = s.splitOn '\n' := by
  induction s with
  | nil => rfl
  | cons c s ih =>
    rw [splitLines, List.splitOn_cons_eq_if_modifyHead, ih]
    simp only [beq_iff_eq]
    split
    · rfl
    · obtain ⟨first, more, h⟩ := List.exists_cons_of_ne_nil (List.splitOn_ne_nil '\n' s)
      rw [h]
      rfl

theorem withoutClosing_append (body : List Char) : withoutClosing (body ++ ['*', '/']) = body := by
  simp [withoutClosing]

theorem withoutClosing_of_not_suffix {body : List Char} (h : ¬ ['*', '/'] <:+ body) :
    withoutClosing body = body := by
  unfold withoutClosing
  split
  next rest hrev =>
    refine absurd ⟨rest.reverse, ?_⟩ h
    rw [← List.reverse_inj, hrev]
    simp
  next => rfl

theorem lines_of_hasLines {comment : List Char} {ls : List (List Char)} (h : HasLines comment ls) :
    lines comment = ls := by
  cases h with
  | directive hbody =>
    rw [lines, if_pos ((isDirective_iff _).2 hbody)]
    rintro rest rfl
    exact not_isDirective_space rest hbody
  | spaced body => rfl
  | line hbody hspace =>
    rw [lines, if_neg (mt (isDirective_iff _).1 hbody)]
    rintro rest rfl
    exact hspace rfl
  | closed body => rw [lines, withoutClosing_append, splitLines_eq_splitOn]
  | unclosed hbody => rw [lines, withoutClosing_of_not_suffix hbody, splitLines_eq_splitOn]
  | other hslashes hstar =>
    unfold lines
    split
    · exact absurd ⟨_, rfl⟩ hslashes
    · exact absurd ⟨_, rfl⟩ hslashes
    · exact absurd ⟨_, rfl⟩ hstar
    · rfl

theorem exists_hasLines (comment : List Char) : ∃ ls, HasLines comment ls := by
  by_cases hslashes : ['/', '/'] <+: comment
  · obtain ⟨body, rfl⟩ := hslashes
    by_cases hbody : IsDirective body
    · exact ⟨_, .directive hbody⟩
    · rcases body with _ | ⟨c, body⟩
      · exact ⟨_, .line hbody (by simp)⟩
      · by_cases hc : c = ' '
        · subst hc
          exact ⟨_, .spaced body⟩
        · exact ⟨_, .line hbody (by simpa using hc)⟩
  · by_cases hstar : ['/', '*'] <+: comment
    · obtain ⟨body, rfl⟩ := hstar
      by_cases hbody : ['*', '/'] <:+ body
      · obtain ⟨body, rfl⟩ := hbody
        exact ⟨_, .closed body⟩
      · exact ⟨_, .unclosed hbody⟩
    · exact ⟨_, .other hslashes hstar⟩

/-- **The lines of a comment** are those that it says. -/
theorem hasLines_iff {comment : List Char} {ls : List (List Char)} :
    HasLines comment ls ↔ lines comment = ls := by
  refine ⟨lines_of_hasLines, ?_⟩
  rintro rfl
  obtain ⟨ls, h⟩ := exists_hasLines comment
  rwa [lines_of_hasLines h]

/-! ## Paragraphs -/

/-- The runs of lines between empty lines. -/
def paragraphs (ls : List (List Char)) : List (List (List Char)) :=
  (ls.splitOnP List.isEmpty).filter (!·.isEmpty)

/-- Paragraphs with an empty line between them. -/
def joinParagraphs (ps : List (List (List Char))) : List Char :=
  List.intercalate ['\n', '\n'] (ps.map joinLines)

theorem paragraphs_cons_nil (ls : List (List Char)) : paragraphs ([] :: ls) = paragraphs ls := by
  simp [paragraphs, List.splitOnP_cons_eq_if_modifyHead]

/-- Nothing but the empty lines is lost. -/
theorem flatten_paragraphs (ls : List (List Char)) :
    (paragraphs ls).flatten = ls.filter (!·.isEmpty) := by
  rw [paragraphs, List.flatten_filter_not_isEmpty]
  induction ls with
  | nil => rfl
  | cons l ls ih =>
    rw [List.splitOnP_cons_eq_if_modifyHead]
    cases hl : l.isEmpty with
    | true => simpa [hl] using ih
    | false =>
      obtain ⟨first, more, h⟩ := List.exists_cons_of_ne_nil (List.splitOnP_ne_nil List.isEmpty ls)
      rw [h] at ih ⊢
      simpa [hl] using ih

/-- Lines joined in paragraphs, as the first paragraph and the others behind an empty line each. -/
theorem intercalate_cons {α : Type} (x : α) (p : List α) (ps : List (List α)) :
    [x].intercalate (p :: ps) = p ++ ps.flatMap (x :: ·) := by
  induction ps generalizing p with
  | nil => simp
  | cons q ps ih => simp [List.intercalate_cons_cons, ih]

section

variable {l : List Char} {ls : List (List Char)} {first : List (List Char)}
  {more : List (List (List Char))}

/-- A line starts a paragraph, or stands at the start of the first one. -/
theorem splitOnP_cons_of_ne_nil (hl : l ≠ []) (h : ls.splitOnP List.isEmpty = first :: more) :
    (l :: ls).splitOnP List.isEmpty = (l :: first) :: more := by
  rw [List.splitOnP_cons_eq_if_modifyHead, if_neg (by simpa using hl), h]
  rfl

theorem paragraphs_cons_of_ne_nil (hl : l ≠ []) (h : ls.splitOnP List.isEmpty = first :: more) :
    paragraphs (l :: ls) = (l :: first) :: more.filter (!·.isEmpty) := by
  rw [paragraphs, splitOnP_cons_of_ne_nil hl h]
  rfl

end

theorem exists_splitOnP_eq_cons (ls : List (List Char)) :
    ∃ first more, ls.splitOnP List.isEmpty = first :: more :=
  List.exists_cons_of_ne_nil (List.splitOnP_ne_nil List.isEmpty ls)

/-! ## The loop -/

theorem tidy_cons_of_eq_nil {l : List Char} (hl : Blank.trimEnd l = []) (started pending : Bool)
    (ls : List (List Char)) : tidy started pending (l :: ls) = tidy started started ls := by
  simp [tidy, hl]

theorem tidy_cons_of_ne_nil {l : List Char} (hl : Blank.trimEnd l ≠ []) (started : Bool)
    (ls : List (List Char)) :
    tidy started false (l :: ls) = Blank.trimEnd l :: tidy true false ls ∧
      tidy started true (l :: ls) = [] :: Blank.trimEnd l :: tidy true false ls := by
  simp [tidy, hl]

/-- Once a line has been kept, the loop goes on with the paragraphs, each behind an empty line. When
the line was the last one read, the first run of lines still belongs to its paragraph. -/
theorem tidy_true (ls : List (List Char)) :
    tidy true true ls = (paragraphs (ls.map Blank.trimEnd)).flatMap ([] :: ·) ∧
      ∀ first more, (ls.map Blank.trimEnd).splitOnP List.isEmpty = first :: more →
        tidy true false ls = first ++ (more.filter (!·.isEmpty)).flatMap ([] :: ·) := by
  induction ls with
  | nil =>
    refine ⟨rfl, fun first more h => ?_⟩
    obtain ⟨rfl, rfl⟩ := List.cons.inj h
    rfl
  | cons l ls ih =>
    rw [List.map_cons]
    by_cases hl : Blank.trimEnd l = []
    · rw [tidy_cons_of_eq_nil hl, tidy_cons_of_eq_nil hl, hl, paragraphs_cons_nil]
      refine ⟨ih.1, fun first more h => ?_⟩
      rw [List.splitOnP_cons_eq_if_modifyHead] at h
      obtain ⟨rfl, rfl⟩ := List.cons.inj h
      exact ih.1
    · obtain ⟨first, more, hsplit⟩ := exists_splitOnP_eq_cons (ls.map Blank.trimEnd)
      rw [(tidy_cons_of_ne_nil hl true ls).1, (tidy_cons_of_ne_nil hl true ls).2,
        ih.2 first more hsplit, paragraphs_cons_of_ne_nil hl hsplit,
        splitOnP_cons_of_ne_nil hl hsplit]
      refine ⟨rfl, fun first' more' h => ?_⟩
      obtain ⟨rfl, rfl⟩ := List.cons.inj h
      rfl

/-- **The loop makes paragraphs**: it keeps the lines without the blanks they end with, and puts an
empty line between paragraphs. -/
theorem tidy_eq_intercalate (ls : List (List Char)) :
    tidy false false ls = List.intercalate [[]] (paragraphs (ls.map Blank.trimEnd)) := by
  induction ls with
  | nil => rfl
  | cons l ls ih =>
    rw [List.map_cons]
    by_cases hl : Blank.trimEnd l = []
    · rw [tidy_cons_of_eq_nil hl, hl, paragraphs_cons_nil, ih]
    · obtain ⟨first, more, hsplit⟩ := exists_splitOnP_eq_cons (ls.map Blank.trimEnd)
      rw [(tidy_cons_of_ne_nil hl false ls).1, (tidy_true ls).2 first more hsplit,
        paragraphs_cons_of_ne_nil hl hsplit, intercalate_cons]
      rfl

/-! ## Texts of paragraphs -/

/-- Paragraphs as they are made: neither they nor their lines are empty. -/
theorem paragraphs_ne_nil {ls p : List (List Char)} (hp : p ∈ paragraphs ls) : p ≠ [] := by
  simpa using (List.mem_filter.1 hp).2

theorem mem_of_mem_paragraphs {ls p : List (List Char)} {l : List Char} (hp : p ∈ paragraphs ls)
    (hl : l ∈ p) : l ∈ ls ∧ l ≠ [] := by
  have h := List.mem_flatten.2 ⟨p, hp, hl⟩
  rw [flatten_paragraphs, List.mem_filter] at h
  exact ⟨h.1, by simpa using h.2⟩

theorem joinLines_append {ls ls' : List (List Char)} (hls : ls ≠ []) (hls' : ls' ≠ []) :
    joinLines (ls ++ ls') = joinLines ls ++ '\n' :: joinLines ls' := by
  obtain ⟨l, ls, rfl⟩ := List.exists_cons_of_ne_nil hls
  obtain ⟨l', ls', rfl⟩ := List.exists_cons_of_ne_nil hls'
  induction ls generalizing l with
  | nil => simp [joinLines, List.intercalate_cons_cons]
  | cons m ls ih =>
    have hrest := ih m (List.cons_ne_nil _ _)
    simp only [joinLines, List.cons_append, List.intercalate_cons_cons] at hrest ⊢
    simp only [hrest, List.append_assoc]

/-- An empty line between paragraphs makes for two line feeds. -/
theorem joinLines_intercalate {ps : List (List (List Char))} (hps : ∀ p ∈ ps, p ≠ []) :
    joinLines (List.intercalate [[]] ps) = joinParagraphs ps := by
  induction ps with
  | nil => rfl
  | cons p ps ih =>
    rw [List.forall_mem_cons] at hps
    cases ps with
    | nil => simp [joinParagraphs]
    | cons q ps =>
      have hrest : List.intercalate [[]] (q :: ps) ≠ [] := by
        rw [intercalate_cons]
        exact List.append_ne_nil_of_left_ne_nil (hps.2 q List.mem_cons_self) _
      have hempty : joinLines ([[]] ++ List.intercalate [[]] (q :: ps)) =
          '\n' :: joinParagraphs (q :: ps) := by
        rw [joinLines_append (List.cons_ne_nil _ _) hrest, ih hps.2]
        rfl
      rw [List.intercalate_cons_cons, List.append_assoc, joinLines_append hps.1 (by simp), hempty]
      simp [joinParagraphs, List.intercalate_cons_cons]

theorem mem_intercalate {ps : List (List (List Char))} {l : List Char}
    (h : l ∈ List.intercalate [[]] ps) : l = [] ∨ ∃ p ∈ ps, l ∈ p := by
  cases ps with
  | nil => cases h
  | cons p ps =>
    rw [intercalate_cons, List.mem_append, List.mem_flatMap] at h
    rcases h with h | ⟨q, hq, h⟩
    · exact .inr ⟨p, List.mem_cons_self, h⟩
    · rcases List.mem_cons.1 h with h | h
      · exact .inl h
      · exact .inr ⟨q, List.mem_cons_of_mem _ hq, h⟩

/-- The first line is one of a paragraph. -/
theorem exists_mem_of_head?_intercalate {ps : List (List (List Char))}
    (hps : ∀ p ∈ ps, p ≠ []) {l : List Char} (h : l ∈ (List.intercalate [[]] ps).head?) :
    ∃ p ∈ ps, l ∈ p := by
  cases ps with
  | nil => cases h
  | cons p ps =>
    rw [intercalate_cons, List.head?_append_of_ne_nil _ (hps p List.mem_cons_self)] at h
    exact ⟨p, List.mem_cons_self, List.mem_of_mem_head? h⟩

/-- The last line is one of a paragraph. -/
theorem exists_mem_of_getLast?_intercalate {ps : List (List (List Char))}
    (hps : ∀ p ∈ ps, p ≠ []) {l : List Char} (h : l ∈ (List.intercalate [[]] ps).getLast?) :
    ∃ p ∈ ps, l ∈ p := by
  cases ps with
  | nil => cases h
  | cons p ps =>
    rw [intercalate_cons] at h
    rcases List.eq_nil_or_concat' ps with rfl | ⟨ps, q, rfl⟩
    · rw [List.flatMap_nil, List.append_nil] at h
      exact ⟨p, List.mem_cons_self, List.mem_of_getLast? h⟩
    · have hq : q ∈ p :: (ps ++ [q]) := by simp
      obtain ⟨q, m, rfl⟩ := (List.eq_nil_or_concat' q).resolve_left (hps q hq)
      have hsplit : p ++ (ps ++ [q ++ [m]]).flatMap ([] :: ·) =
          p ++ ps.flatMap ([] :: ·) ++ [] :: q ++ [m] := by simp
      rw [hsplit, List.getLast?_concat] at h
      obtain rfl := Option.some.inj h
      exact ⟨_, hq, by simp⟩

/-- The paragraphs of a text: they are not empty, and their lines are not empty, end in no blank and
hold no line feed. -/
structure AreParagraphs (ps : List (List (List Char))) : Prop where
  ne_nil : ∀ p ∈ ps, p ≠ []
  line_ne_nil : ∀ p ∈ ps, ∀ l ∈ p, l ≠ []
  trimmed : ∀ p ∈ ps, ∀ l ∈ p, Blank.trimEnd l = l
  no_feed : ∀ p ∈ ps, ∀ l ∈ p, '\n' ∉ l

/-- Also the lines between paragraphs end in no blank. -/
theorem AreParagraphs.trimEnd_eq {ps : List (List (List Char))} (h : AreParagraphs ps)
    {l : List Char} (hl : l ∈ List.intercalate [[]] ps) : Blank.trimEnd l = l := by
  rcases mem_intercalate hl with rfl | ⟨p, hp, hl⟩
  · rfl
  · exact h.trimmed p hp l hl

theorem not_isBlank_getLast?_of_trimEnd_eq {l : List Char} (h : Blank.trimEnd l = l) :
    ∀ c ∈ l.getLast?, ¬ Blank.isBlank c := by
  intro c hc
  rw [← h] at hc
  simp [Blank.not_isBlank_getLast?_trimEnd hc]

/-- The lines of a text of paragraphs are those that were joined, if there are any; otherwise the
text is one empty line. -/
theorem splitOn_joinParagraphs {ps : List (List (List Char))} (h : AreParagraphs ps)
    (hps : ps ≠ []) : (joinParagraphs ps).splitOn '\n' = List.intercalate [[]] ps := by
  rw [← joinLines_intercalate h.ne_nil, joinLines]
  apply List.splitOn_intercalate
  · intro l hl
    rcases mem_intercalate hl with rfl | ⟨p, hp, hl⟩
    · exact List.not_mem_nil
    · exact h.no_feed p hp l hl
  · obtain ⟨p, rest, rfl⟩ := List.exists_cons_of_ne_nil hps
    rw [intercalate_cons]
    exact List.append_ne_nil_of_left_ne_nil (h.ne_nil p List.mem_cons_self) _

/-! ## Tidy texts -/

/-- No line ends in a blank, the first and the last are not blank, and there is at most one empty
line in a row. -/
structure IsTidy (t : List Char) : Prop where
  trimmed : ∀ l ∈ t.splitOn '\n', ∀ c ∈ l.getLast?, ¬ Blank.isBlank c
  first : t ≠ [] → ∀ l ∈ (t.splitOn '\n').head?, ∃ c ∈ l, ¬ Blank.isBlank c
  last : t ≠ [] → ∀ l ∈ (t.splitOn '\n').getLast?, ∃ c ∈ l, ¬ Blank.isBlank c
  sparse : ¬ ['\n', '\n', '\n'] <:+: t

theorem isTidy_nil : IsTidy [] where
  trimmed := by simp
  first := fun h => absurd rfl h
  last := fun h => absurd rfl h
  sparse := by simp

/-- After an empty line comes one that is not empty. -/
def Alternate (l l' : List Char) : Prop := l = [] → l' ≠ []

theorem isChain_append_of_ne_nil {p ls : List (List Char)} (hp : ∀ l ∈ p, l ≠ [])
    (hls : ls.IsChain Alternate) : (p ++ ls).IsChain Alternate := by
  induction p with
  | nil => exact hls
  | cons l p ih =>
    rw [List.forall_mem_cons] at hp
    exact List.isChain_cons.2 ⟨fun _ _ h => absurd h hp.1, ih hp.2⟩

/-- Paragraphs behind empty lines have no two of these in a row. -/
theorem isChain_flatMap {ps : List (List (List Char))} (hps : ∀ p ∈ ps, p ≠ [])
    (hlines : ∀ p ∈ ps, ∀ l ∈ p, l ≠ []) : (ps.flatMap ([] :: ·)).IsChain Alternate := by
  induction ps with
  | nil => exact .nil
  | cons p ps ih =>
    rw [List.forall_mem_cons] at hps hlines
    obtain ⟨l, p, rfl⟩ := List.exists_cons_of_ne_nil hps.1
    have hrest := isChain_append_of_ne_nil hlines.1 (ih hps.2 hlines.2)
    refine List.isChain_cons.2 ⟨fun m hm _ => ?_, hrest⟩
    obtain rfl : l = m := by simpa using hm
    exact hlines.1 l List.mem_cons_self

/-- Nor have paragraphs with empty lines between them. -/
theorem isChain_intercalate {ps : List (List (List Char))} (hps : ∀ p ∈ ps, p ≠ [])
    (hlines : ∀ p ∈ ps, ∀ l ∈ p, l ≠ []) : (List.intercalate [[]] ps).IsChain Alternate := by
  cases ps with
  | nil => exact .nil
  | cons p ps =>
    rw [List.forall_mem_cons] at hps hlines
    rw [intercalate_cons]
    exact isChain_append_of_ne_nil hlines.1 (isChain_flatMap hps.2 hlines.2)

/-- **Every text of paragraphs is tidy.** -/
theorem isTidy_joinParagraphs {ps : List (List (List Char))} (h : AreParagraphs ps) :
    IsTidy (joinParagraphs ps) := by
  by_cases hps : ps = []
  · subst hps
    exact isTidy_nil
  have hsplit := splitOn_joinParagraphs h hps
  have hink : ∀ p ∈ ps, ∀ l ∈ p, ∃ c ∈ l, ¬ Blank.isBlank c := by
    intro p hp l hl
    have hlast := List.getLast?_eq_some_getLast (h.line_ne_nil p hp l hl)
    exact ⟨_, List.mem_of_getLast? hlast,
      not_isBlank_getLast?_of_trimEnd_eq (h.trimmed p hp l hl) _ hlast⟩
  exact {
    trimmed := by
      rw [hsplit]
      exact fun l hl => not_isBlank_getLast?_of_trimEnd_eq (h.trimEnd_eq hl)
    first := by
      rw [hsplit]
      intro _ l hl
      obtain ⟨p, hp, hl⟩ := exists_mem_of_head?_intercalate h.ne_nil hl
      exact hink p hp l hl
    last := by
      rw [hsplit]
      intro _ l hl
      obtain ⟨p, hp, hl⟩ := exists_mem_of_getLast?_intercalate h.ne_nil hl
      exact hink p hp l hl
    sparse := by
      -- three line feeds in a row would stand around two empty lines
      rintro ⟨before, after, hlinefeeds⟩
      replace hlinefeeds : joinParagraphs ps =
          before ++ '\n' :: ([] ++ '\n' :: ([] ++ '\n' :: after)) := by
        rw [← hlinefeeds]
        simp
      rw [hlinefeeds] at hsplit
      simp only [List.splitOn_append_cons_self, List.splitOn_nil] at hsplit
      have hchain := isChain_intercalate h.ne_nil h.line_ne_nil
      rw [← hsplit] at hchain
      exact (List.isChain_cons_cons.1 (List.isChain_append.1 hchain).2.1).1 rfl rfl }

/-! ## The text of comments -/

/-- The lines of comments, without the blanks that they end with. -/
def linesOf (comments : List String) : List (List Char) :=
  (comments.flatMap fun c => lines c.toList).map Blank.trimEnd

/-- A comment that starts with two slashes holds no line feed. -/
def EndsWithLine (comment : String) : Prop :=
  ['/', '/'] <+: comment.toList → '\n' ∉ comment.toList

instance (comment : String) : Decidable (EndsWithLine comment) :=
  inferInstanceAs (Decidable (['/', '/'] <+: comment.toList → '\n' ∉ comment.toList))

theorem notMem_of_mem_splitOn {s l : List Char} (hl : l ∈ s.splitOn '\n') : '\n' ∉ l := by
  induction s generalizing l with
  | nil => simp_all
  | cons c s ih =>
    rw [List.splitOn_cons_eq_if_modifyHead] at hl
    obtain ⟨first, more, h⟩ := List.exists_cons_of_ne_nil (List.splitOn_ne_nil '\n' s)
    rw [h] at hl ih
    split at hl
    next hc =>
      rcases List.mem_cons.1 hl with rfl | hl
      · exact List.not_mem_nil
      · exact ih hl
    next hc =>
      rcases List.mem_cons.1 hl with rfl | hl
      · simpa [Ne.symm (by simpa using hc : c ≠ '\n')] using ih List.mem_cons_self
      · exact ih (List.mem_cons_of_mem _ hl)

theorem notMem_of_hasLines {comment : String} (hcomment : EndsWithLine comment)
    {ls : List (List Char)} (h : HasLines comment.toList ls) {l : List Char} (hl : l ∈ ls) :
    '\n' ∉ l := by
  generalize htext : comment.toList = text at h
  rw [EndsWithLine, htext] at hcomment
  cases h with
  | directive => cases hl
  | spaced body =>
    obtain rfl := List.mem_singleton.1 hl
    simpa using hcomment ⟨_, rfl⟩
  | line =>
    obtain rfl := List.mem_singleton.1 hl
    simpa using hcomment ⟨_, rfl⟩
  | closed => exact notMem_of_mem_splitOn hl
  | unclosed => exact notMem_of_mem_splitOn hl
  | other => cases hl

theorem trimEnd_trimEnd (l : List Char) : Blank.trimEnd (Blank.trimEnd l) = Blank.trimEnd l := by
  unfold Blank.trimEnd
  rw [List.reverse_reverse, List.dropWhile_idempotent]

/-- What is read from comments are paragraphs. -/
theorem areParagraphs_linesOf {comments : List String} (h : ∀ c ∈ comments, EndsWithLine c) :
    AreParagraphs (paragraphs (linesOf comments)) where
  ne_nil := fun _ => paragraphs_ne_nil
  line_ne_nil := fun _ hp _ hl => (mem_of_mem_paragraphs hp hl).2
  trimmed := by
    intro p hp l hl
    obtain ⟨m, -, rfl⟩ := List.mem_map.1 (mem_of_mem_paragraphs hp hl).1
    exact trimEnd_trimEnd m
  no_feed := by
    intro p hp l hl hfeed
    obtain ⟨m, hm, rfl⟩ := List.mem_map.1 (mem_of_mem_paragraphs hp hl).1
    obtain ⟨c, hc, hm⟩ := List.mem_flatMap.1 hm
    exact notMem_of_hasLines (h c hc) (hasLines_iff.2 rfl) hm
      ((Blank.trimEnd_prefix m).subset hfeed)

theorem toList_text (comments : List String) :
    (text comments).toList = joinParagraphs (paragraphs (linesOf comments)) := by
  rw [text, String.toList_ofList, tidy_eq_intercalate,
    joinLines_intercalate fun _ => paragraphs_ne_nil]
  rfl

/-- **The text of comments is that of their paragraphs.** Every comment says the lines that its form
asks for; in the text stand those of them that are not empty, all of them in order and without the
blanks they end with, in paragraphs with one empty line between. When no line comment holds a line
feed, the text is tidy. -/
theorem text_eq_joinParagraphs :
    (∀ comment ls, HasLines comment ls ↔ lines comment = ls) ∧
      (∀ ls, (paragraphs ls).flatten = ls.filter (!·.isEmpty)) ∧
      ∀ comments : List String,
        (text comments).toList = joinParagraphs (paragraphs (linesOf comments)) ∧
          ((∀ c ∈ comments, EndsWithLine c) → IsTidy (text comments).toList) := by
  refine ⟨fun _ _ => hasLines_iff, flatten_paragraphs, fun comments => ⟨toList_text comments, ?_⟩⟩
  intro hcomments
  rw [toList_text]
  exact isTidy_joinParagraphs (areParagraphs_linesOf hcomments)

/-- Comments of both forms, with empty lines at their ends and a directive between them. -/
def paragraphComments : List String :=
  ["//", "// One.  ", "//go:generate two", "/*\n\n\n  Two.\nThree. \n*/", "//Four."]

theorem text_eq_joinParagraphs_paragraphComments :
    (∀ c ∈ paragraphComments, EndsWithLine c) ∧
      text paragraphComments = "One.\n\n  Two.\nThree.\n\nFour." ∧
      IsTidy (text paragraphComments).toList :=
  have hcomments : ∀ c ∈ paragraphComments, EndsWithLine c := by decide
  ⟨hcomments, by decide +kernel, (text_eq_joinParagraphs.2.2 paragraphComments).2 hcomments⟩

end GoOutline.Doc.Comment
