/-!
# Blank characters and trimming

A blank is a character with the property `White_Space` of the character standard. Texts are lists
of characters here, so that trimming is a matter of `dropWhile`.

## Main definitions

* `Blank.isBlank`: the class
* `Blank.trimStart`, `Blank.trimEnd`, `Blank.trim`: removal of blanks at the ends
* `Blank.trimmed`: `trim` on strings

## Main results

* `Blank.trimEnd_eq_nil_iff`, `Blank.trim_eq_nil_iff`: nothing is left exactly of blank texts
* `Blank.not_isBlank_head?_trim`, `Blank.not_isBlank_getLast?_trim`: what is left has no blank at
  either end
-/

namespace GoOutline.Text.Blank

/-- The character is white space. -/
def isBlank (c : Char) : Bool :=
  let n := c.toNat
  (9 ≤ n && n ≤ 13) || n == 0x20 || n == 0x85 || n == 0xA0 || n == 0x1680 ||
    (0x2000 ≤ n && n ≤ 0x200A) || n == 0x2028 || n == 0x2029 || n == 0x202F || n == 0x205F ||
    n == 0x3000

/-- The text without the blanks it starts with. -/
def trimStart (s : List Char) : List Char := s.dropWhile isBlank

/-- The text without the blanks it ends with. -/
def trimEnd (s : List Char) : List Char := (s.reverse.dropWhile isBlank).reverse

/-- The text without the blanks at both ends. -/
def trim (s : List Char) : List Char := trimEnd (trimStart s)

/-- `trim` on strings. -/
def trimmed (s : String) : String := String.ofList (trim s.toList)

theorem trimStart_eq_nil_iff (s : List Char) : trimStart s = [] ↔ ∀ c ∈ s, isBlank c = true := by
  induction s with
  | nil => simp [trimStart]
  | cons c s ih =>
    unfold trimStart at ih ⊢
    by_cases h : isBlank c = true <;> simp [h, ih]

theorem trimEnd_eq_nil_iff (s : List Char) : trimEnd s = [] ↔ ∀ c ∈ s, isBlank c = true := by
  have h := trimStart_eq_nil_iff s.reverse
  simp only [trimStart, List.mem_reverse] at h
  simp [trimEnd, h]

theorem trimStart_append_takeWhile (s : List Char) :
    s.takeWhile isBlank ++ trimStart s = s :=
  List.takeWhile_append_dropWhile

theorem trim_eq_nil_iff (s : List Char) : trim s = [] ↔ ∀ c ∈ s, isBlank c = true := by
  rw [trim, trimEnd_eq_nil_iff]
  constructor
  · intro h c hc
    rw [← trimStart_append_takeWhile s, List.mem_append] at hc
    rcases hc with hc | hc
    · simpa using List.all_eq_true.mp (List.all_takeWhile (l := s)) c hc
    · exact h c hc
  · exact fun h c hc => h c (List.dropWhile_sublist isBlank |>.subset hc)

theorem not_isBlank_head?_trimStart {s : List Char} {c : Char} (h : (trimStart s).head? = some c) :
    isBlank c = false := by
  induction s with
  | nil => simp [trimStart] at h
  | cons d s ih =>
    unfold trimStart at ih h
    by_cases hd : isBlank d = true
    · exact ih (by simpa [hd] using h)
    · obtain rfl : d = c := by simpa [hd] using h
      exact Bool.eq_false_iff.mpr hd

theorem trimEnd_prefix (s : List Char) : trimEnd s <+: s := by
  have h := List.dropWhile_suffix (l := s.reverse) isBlank
  rwa [← List.reverse_prefix, List.reverse_reverse] at h

theorem not_isBlank_getLast?_trimEnd {s : List Char} {c : Char}
    (h : (trimEnd s).getLast? = some c) : isBlank c = false := by
  rw [trimEnd, List.getLast?_reverse] at h
  exact not_isBlank_head?_trimStart h

theorem not_isBlank_head?_trim {s : List Char} {c : Char} (h : (trim s).head? = some c) :
    isBlank c = false := by
  obtain ⟨rest, hrest⟩ := trimEnd_prefix (trimStart s)
  refine not_isBlank_head?_trimStart (s := s) ?_
  rw [← hrest, List.head?_append, ← trim, h]
  rfl

theorem not_isBlank_getLast?_trim {s : List Char} {c : Char} (h : (trim s).getLast? = some c) :
    isBlank c = false :=
  not_isBlank_getLast?_trimEnd h

end GoOutline.Text.Blank
