import GoOutline.Json.Printer
import Mathlib.Tactic.SplitIfs

/-!
# The two layouts of a value

A value has the same text in both layouts, except for the spaces and line feeds that stand outside
of its string literals. On one line, nothing in its text is a control character.

## Main definitions

* `Text.unspaced`: a text without the spaces and line feeds outside of its string literals
* `Text.IsForm`: what can stand for a character in a string literal
* `Text.Condenses`: a piece of indented text and the same piece on one line

## Main results

* `condenses_chars`: the text of a value, in both layouts
* `unspaced_render`: the indented text without these blanks is the text on one line
* `le_toNat_of_mem_render`: on one line there are no control characters
-/

namespace GoOutline.Json

namespace Text

/-! ## Blanks outside of string literals -/

mutual

/-- The text without the spaces and line feeds that stand outside of its string literals. -/
def unspaced : List Char → List Char
  | [] => []
  | c :: cs =>
    if c = ' ' ∨ c = '\n' then unspaced cs
    else if c = '"' then c :: unspacedLiteral cs
    else c :: unspaced cs

/-- The same for a text that starts inside a string literal. The literal ends with the next quote,
but a backslash takes the character after it along. -/
def unspacedLiteral : List Char → List Char
  | [] => []
  | '"' :: cs => '"' :: unspaced cs
  | '\\' :: c :: cs => '\\' :: c :: unspacedLiteral cs
  | c :: cs => c :: unspacedLiteral cs

end

/-! ## Characters in literals -/

/-- The character stands for itself inside a literal. -/
def IsPlain (c : Char) : Prop := c ≠ '"' ∧ c ≠ '\\' ∧ 32 ≤ c.toNat

instance (c : Char) : Decidable (IsPlain c) := inferInstanceAs (Decidable (_ ∧ _))

/-- What can stand for a character in a literal. -/
inductive IsForm : List Char → Prop
  /-- A backslash and a character that names another one. -/
  | short {d : Char} (h : 32 ≤ d.toNat) : IsForm ['\\', d]
  /-- A small number. -/
  | code {high low : Char} (hhigh : IsPlain high) (hlow : IsPlain low) :
    IsForm ['\\', 'u', '0', '0', high, low]
  /-- The character itself. -/
  | plain {c : Char} (h : IsPlain c) : IsForm [c]

theorem isPlain_hexDigit {d : Nat} (h : d < 16) : IsPlain (hexDigit d) := by
  have table : ∀ d, d < 16 → IsPlain (hexDigit d) := by decide
  exact table d h

/-- What a character is written as inside quotes is one of the forms. -/
theorem isForm_escapeChar (c : Char) : IsForm (escapeChar c) := by
  unfold escapeChar
  split_ifs with hquote hback hnewline hreturn htab hbackspace hfeed hcontrol
  · exact .short (by decide)
  · exact .short (by decide)
  · exact .short (by decide)
  · exact .short (by decide)
  · exact .short (by decide)
  · exact .short (by decide)
  · exact .short (by decide)
  · exact .code (isPlain_hexDigit (by omega)) (isPlain_hexDigit (by omega))
  · exact .plain ⟨hquote, hback, Nat.not_lt.1 hcontrol⟩

/-- A plain character does not end a literal. -/
theorem unspacedLiteral_plain {c : Char} (h : IsPlain c) (cs : List Char) :
    unspacedLiteral (c :: cs) = c :: unspacedLiteral cs :=
  unspacedLiteral.eq_4 c cs h.1 fun _ _ heq => absurd heq h.2.1

/-- The form of a character does not end the literal. -/
theorem IsForm.unspacedLiteral_append {cs : List Char} (h : IsForm cs) (rest : List Char) :
    unspacedLiteral (cs ++ rest) = cs ++ unspacedLiteral rest := by
  cases h with
  | short h => rfl
  | code hhigh hlow =>
    simp only [List.cons_append, List.nil_append, unspacedLiteral]
    rw [unspacedLiteral_plain (by decide), unspacedLiteral_plain (by decide),
      unspacedLiteral_plain hhigh, unspacedLiteral_plain hlow]
  | plain h => exact unspacedLiteral_plain h rest

theorem IsForm.le_toNat {cs : List Char} (h : IsForm cs) : ∀ c ∈ cs, 32 ≤ c.toNat := by
  cases h with
  | short h => simpa using h
  | code hhigh hlow => simpa using ⟨hhigh.2.2, hlow.2.2⟩
  | plain h => simpa using h.2.2

/-! ## Literals -/

/-- A literal stays as it is, whatever is in it. -/
theorem unspaced_quoted (s : String) (rest : List Char) :
    unspaced (quoted s ++ rest) = quoted s ++ unspaced rest := by
  have hliteral (cs : List Char) : unspacedLiteral (cs.flatMap escapeChar ++ '"' :: rest) =
      cs.flatMap escapeChar ++ '"' :: unspaced rest := by
    induction cs with
    | nil => rfl
    | cons c cs ih =>
      rw [List.flatMap_cons, List.append_assoc, (isForm_escapeChar c).unspacedLiteral_append, ih,
        List.append_assoc]
  have hquoted := congrArg ('"' :: ·) (hliteral s.toList)
  simpa [quoted, unspaced] using hquoted

/-- Nothing in a literal is a control character. -/
theorem le_toNat_of_mem_quoted (s : String) : ∀ c ∈ quoted s, 32 ≤ c.toNat := by
  intro c hc
  simp only [quoted, List.mem_cons, List.mem_append, List.mem_flatMap, List.not_mem_nil,
    or_false] at hc
  rcases hc with rfl | ⟨d, -, hd⟩ | rfl
  · decide
  · exact (isForm_escapeChar d).le_toNat c hd
  · decide

/-! ## Pieces of text -/

/-- The character stands outside of string literals, and it is no blank. -/
def IsBare (c : Char) : Prop := 32 < c.toNat ∧ c ≠ '"'

instance (c : Char) : Decidable (IsBare c) := inferInstanceAs (Decidable (_ ∧ _))

/-- All characters are such. -/
def AreBare (cs : List Char) : Prop := ∀ c ∈ cs, IsBare c

instance (cs : List Char) : Decidable (AreBare cs) := List.decidableBAll IsBare cs

namespace AreBare

variable {cs cs' : List Char}

theorem cons {c : Char} (hc : IsBare c) (h : AreBare cs) : AreBare (c :: cs) :=
  List.forall_mem_cons.2 ⟨hc, h⟩

theorem append (h : AreBare cs) (h' : AreBare cs') : AreBare (cs ++ cs') :=
  List.forall_mem_append.2 ⟨h, h'⟩

theorem take (h : AreBare cs) (n : Nat) : AreBare (cs.take n) :=
  fun c hc => h c (List.mem_of_mem_take hc)

theorem drop (h : AreBare cs) (n : Nat) : AreBare (cs.drop n) :=
  fun c hc => h c (List.mem_of_mem_drop hc)

end AreBare

/-- A piece of a text, indented as `long` and on one line as `short`: whatever follows, it is
`short` that is left of the indented piece, and in that there are no control characters. -/
structure Condenses (long short : List Char) : Prop where
  unspaced_append : ∀ rest, unspaced (long ++ rest) = short ++ unspaced rest
  le_toNat : ∀ c ∈ short, 32 ≤ c.toNat

theorem unspaced_cons {c : Char} (h : IsBare c) (cs : List Char) :
    unspaced (c :: cs) = c :: unspaced cs := by
  have hspace : ¬ (c = ' ' ∨ c = '\n') := by
    rintro (rfl | rfl)
    · exact absurd h.1 (by decide)
    · exact absurd h.1 (by decide)
  rw [unspaced, if_neg hspace, if_neg h.2]

namespace Condenses

variable {long short long' short' : List Char}

theorem append (h : Condenses long short) (h' : Condenses long' short') :
    Condenses (long ++ long') (short ++ short') where
  unspaced_append rest := by
    rw [List.append_assoc, h.unspaced_append, h'.unspaced_append, List.append_assoc]
  le_toNat := List.forall_mem_append.2 ⟨h.le_toNat, h'.le_toNat⟩

theorem cons {c : Char} (hc : IsBare c) (h : Condenses long short) :
    Condenses (c :: long) (c :: short) where
  unspaced_append rest := by
    rw [List.cons_append, unspaced_cons hc, h.unspaced_append, List.cons_append]
  le_toNat := List.forall_mem_cons.2 ⟨Nat.le_of_lt hc.1, h.le_toNat⟩

/-- What is neither blank nor part of a literal is the same in both layouts. -/
theorem bare {cs : List Char} (h : AreBare cs) : Condenses cs cs := by
  induction cs with
  | nil => exact ⟨fun _ => rfl, List.forall_mem_nil _⟩
  | cons c cs ih =>
    obtain ⟨hc, hcs⟩ := List.forall_mem_cons.1 h
    exact (ih hcs).cons hc

end Condenses

/-- A quoted text keeps its blanks. -/
theorem condenses_quoted (s : String) : Condenses (quoted s) (quoted s) :=
  ⟨unspaced_quoted s, le_toNat_of_mem_quoted s⟩

/-- Blanks between tokens are left out. -/
theorem unspaced_spaces (n : Nat) (rest : List Char) :
    unspaced (List.replicate n ' ' ++ rest) = unspaced rest := by
  induction n with
  | zero => rfl
  | succ n ih => rw [List.replicate_succ, List.cons_append, unspaced, if_pos (.inl rfl), ih]

/-- A line break and its indentation are layout only. -/
theorem condenses_lineBreak (depth : Nat) :
    Condenses (lineBreak true depth) (lineBreak false depth) where
  unspaced_append rest := by
    change unspaced ('\n' :: (List.replicate (2 * depth) ' ' ++ rest)) = unspaced rest
    rw [unspaced, if_pos (.inr rfl), unspaced_spaces]
  le_toNat := List.forall_mem_nil _

/-- The blank behind a colon is layout only. -/
theorem condenses_colon : Condenses (colon true) (colon false) where
  unspaced_append _ := rfl
  le_toNat := List.forall_mem_singleton.2 (by decide)

/-! ## Numbers -/

theorem isBare_of_isDigit {c : Char} (h : Decimal.isDigit c) : IsBare c := by
  rw [Decimal.isDigit, Bool.and_eq_true, decide_eq_true_eq, decide_eq_true_eq] at h
  constructor
  · exact Nat.lt_of_lt_of_le (by decide) (show '0'.toNat ≤ c.toNat from h.1)
  · rintro rfl
    exact absurd h.1 (by decide)

theorem areBare_digits (n : Nat) : AreBare (Decimal.digits n) :=
  fun c hc => isBare_of_isDigit (Decimal.isDigit_of_mem_digits n c hc)

theorem areBare_zeros (n : Nat) : AreBare (List.replicate n '0') := by
  intro c hc
  rw [List.eq_of_mem_replicate hc]
  decide

/-- A decimal point is put among digits. -/
theorem areBare_pointed {ds : List Char} (h : AreBare ds) (whole : Nat) :
    AreBare (Decimal.FloatFormat.pointed ds whole) := by
  have hback : AreBare (if (ds.drop whole).isEmpty then ['0'] else ds.drop whole) := by
    split
    · decide
    · exact h.drop whole
  exact .append (.append (h.take whole) (areBare_zeros _)) (.cons (by decide) hback)

theorem areBare_renderScientific (s : Decimal.Scientific) :
    AreBare (floatFormat.renderScientific s) := by
  have hdigits := areBare_digits s.digits
  unfold Decimal.FloatFormat.renderScientific
  dsimp only
  split
  · split
    · exact .append (.append (by decide) (areBare_zeros _)) hdigits
    · exact areBare_pointed hdigits _
  · refine .append (.append ?_ ?_) (areBare_digits _)
    · split
      · exact hdigits
      · exact .append (hdigits.take _) (.cons (by decide) (hdigits.drop _))
    · split <;> decide

/-- A double is written without blanks and quotes. -/
theorem areBare_floatFormat (x : Float) : AreBare (floatFormat.render x) := by
  unfold Decimal.FloatFormat.render
  split
  · decide
  · refine .append ?_ (areBare_renderScientific _)
    split <;> decide

/-- Numbers are the same in both layouts. -/
theorem condenses_numeral (n : Number) : Condenses (numeral n) (numeral n) := by
  refine .bare ?_
  cases n with
  | float x => exact areBare_floatFormat x
  | int i =>
    rw [numeral]
    split
    · exact .cons (by decide) (areBare_digits _)
    · exact areBare_digits _

end Text

/-! ## Values -/

open Text

mutual

/-- The text of a value, in both layouts. -/
theorem condenses_chars (depth : Nat) :
    (v : Json) → Condenses (v.chars true depth) (v.chars false depth)
  | .null => by
    rw [chars, chars]
    exact .bare (by decide)
  | .bool b => by
    rw [chars, chars]
    exact .bare (by cases b <;> decide)
  | .number n => by
    rw [chars, chars]
    exact condenses_numeral n
  | .string s => by
    rw [chars, chars]
    exact condenses_quoted s
  | .array [] => by
    rw [chars, chars]
    exact .bare (by decide)
  | .array (item :: items) => by
    rw [chars, chars]
    exact .cons (by decide) (((condenses_lineBreak _).append
      (condenses_chars (depth + 1) item)).append (condenses_moreItems depth items))
  | .object [] => by
    rw [chars, chars]
    exact .bare (by decide)
  | .object (member :: members) => by
    rw [chars, chars]
    exact .cons (by decide) (((condenses_lineBreak _).append
      (condenses_memberChars (depth + 1) member)).append (condenses_moreMembers depth members))

/-- The items of an array, one after another. -/
theorem condenses_moreItems (depth : Nat) :
    (items : List Json) → Condenses (moreItems true depth items) (moreItems false depth items)
  | [] => by
    rw [moreItems, moreItems]
    exact (condenses_lineBreak depth).append (.bare (by decide))
  | item :: items => by
    rw [moreItems, moreItems]
    exact .cons (by decide) (((condenses_lineBreak _).append
      (condenses_chars (depth + 1) item)).append (condenses_moreItems depth items))

/-- A member is its key and its value. -/
theorem condenses_memberChars (depth : Nat) : (member : String × Json) →
    Condenses (memberChars true depth member) (memberChars false depth member)
  | (key, v) => by
    rw [memberChars, memberChars]
    exact ((condenses_quoted key).append condenses_colon).append (condenses_chars depth v)

/-- The members of an object, one after another. -/
theorem condenses_moreMembers (depth : Nat) : (members : List (String × Json)) →
    Condenses (moreMembers true depth members) (moreMembers false depth members)
  | [] => by
    rw [moreMembers, moreMembers]
    exact (condenses_lineBreak depth).append (.bare (by decide))
  | member :: members => by
    rw [moreMembers, moreMembers]
    exact .cons (by decide) (((condenses_lineBreak _).append
      (condenses_memberChars (depth + 1) member)).append (condenses_moreMembers depth members))

end

/-- **The two layouts of a value are one document**: without the spaces and line feeds outside of
its literals, the indented text is the text on one line. -/
theorem unspaced_render (v : Json) : unspaced (v.render true).toList = (v.render false).toList := by
  rw [render, render, String.toList_ofList, String.toList_ofList]
  simpa [unspaced] using (condenses_chars 0 v).unspaced_append []

/-- **On one line there are no control characters.** -/
theorem le_toNat_of_mem_render (v : Json) : ∀ c ∈ (v.render false).toList, 32 ≤ c.toNat := by
  rw [render, String.toList_ofList]
  exact (condenses_chars 0 v).le_toNat

end GoOutline.Json
