import GoOutline.Json.Printer
import GoOutline.Json.Reader
import Mathlib.Data.List.Basic

/-!
# Reading written strings and numbers

A string is read back from its literal, whatever characters are in it. What is read of a number does
not depend on what follows it, as long as that is no part of a number. An integer of 64 bits is read
back from its digits; a double is as far as its decimal text is.

## Main definitions

* `Reader.EndsNumber`: what may follow a number
* `Number.IsReadable`: an integer that fits 64 bits, or a double that its text reads back as

## Main results

* `Reader.string?_escape`: strings
* `Reader.number?_append`: what follows a number
* `Reader.number?_numeral`: numbers
-/

namespace GoOutline.Json

open Text

namespace Reader

/-! ## Strings -/

theorem hexValue?_hexDigit {d : Nat} (h : d < 16) : hexValue? (hexDigit d) = some d := by
  have table : ∀ d, d < 16 → hexValue? (hexDigit d) = some d := by decide
  exact table d h

/-- A character that needs no escape stands for itself. -/
theorem string?_plain {c : Char} (hquote : c ≠ '"') (hback : c ≠ '\\') (hcontrol : 32 ≤ c.toNat)
    (rest : List Char) :
    string? (c :: rest) = (string? rest).map fun (s, r) => (c :: s, r) := by
  rw [string?.eq_def]
  split
  · next h => cases h
  · next h => cases h; exact absurd rfl hquote
  · next h => cases h; exact absurd rfl hback
  · next h => cases h; exact absurd rfl hback
  · next h =>
    cases h
    have hc : (c == '\\') = false := beq_eq_false_iff_ne.2 hback
    rw [if_neg (by simp [hc]; omega)]

/-- A character is read back from its form in a literal. -/
theorem string?_escapeChar (c : Char) (rest : List Char) :
    string? (escapeChar c ++ rest) = (string? rest).map fun (s, r) => (c :: s, r) := by
  unfold escapeChar
  split_ifs with hquote hback hnewline hreturn htab hbackspace hfeed hcontrol
  · subst hquote; rfl
  · subst hback; rfl
  · subst hnewline; rfl
  · subst hreturn; rfl
  · subst htab; rfl
  · rw [← Char.ofNat_toNat c, hbackspace]; rfl
  · rw [← Char.ofNat_toNat c, hfeed]; rfl
  · have hcode : hexCode? '0' '0' (hexDigit (c.toNat / 16)) (hexDigit (c.toNat % 16)) =
        some c.toNat := by
      rw [hexCode?, hexValue?_hexDigit (by omega), hexValue?_hexDigit (by omega)]
      have hvalue : c.toNat / 16 * 16 + c.toNat % 16 = c.toNat := Nat.div_add_mod' _ _
      simp [hexValue?, Decimal.isDigit, hvalue]
    simp only [List.cons_append, List.nil_append]
    rw [string?, hcode]
    simp only [Char.ofNat_toNat]
    rw [if_neg (by simp; omega), if_neg (by simp; omega)]
  · exact string?_plain hquote hback (by omega) rest

/-- **A string is read back** from its literal. -/
theorem string?_escape (s rest : List Char) :
    string? (s.flatMap escapeChar ++ '"' :: rest) = some (s, rest) := by
  induction s with
  | nil => rfl
  | cons c s ih => rw [List.flatMap_cons, List.append_assoc, string?_escapeChar, ih]; rfl

/-! ## What follows a number -/

/-- The text starts with nothing that could be part of a number. -/
def EndsNumber (rest : List Char) : Prop :=
  ∀ c ∈ rest.head?, Decimal.isDigit c = false ∧ c ≠ '.' ∧ c ≠ 'e' ∧ c ≠ 'E'

section

variable {rest : List Char}

theorem endsNumber_nil : EndsNumber [] := nofun

theorem endsNumber_cons {c : Char} (h : Decimal.isDigit c = false ∧ c ≠ '.' ∧ c ≠ 'e' ∧ c ≠ 'E')
    (rest : List Char) : EndsNumber (c :: rest) := by
  rintro d ⟨⟩
  exact h

theorem EndsNumber.takeWhile_append (h : EndsNumber rest) (s : List Char) :
    (s ++ rest).takeWhile Decimal.isDigit = s.takeWhile Decimal.isDigit := by
  induction s with
  | nil =>
    cases rest with
    | nil => rfl
    | cons c rest => simp [(h c rfl).1]
  | cons c s ih => simp only [List.cons_append, List.takeWhile_cons, ih]

theorem EndsNumber.dropWhile_append (h : EndsNumber rest) (s : List Char) :
    (s ++ rest).dropWhile Decimal.isDigit = s.dropWhile Decimal.isDigit ++ rest := by
  induction s with
  | nil =>
    cases rest with
    | nil => rfl
    | cons c rest => simp [(h c rfl).1]
  | cons c s ih =>
    simp only [List.cons_append, List.dropWhile_cons, ih]
    split <;> rfl

theorem EndsNumber.skipDigits_append (h : EndsNumber rest) (s : List Char) :
    skipDigits (s ++ rest) = ((skipDigits s).1, (skipDigits s).2 ++ rest) := by
  simp only [skipDigits, h.takeWhile_append, h.dropWhile_append]

theorem EndsNumber.significand_append (h : EndsNumber rest) (sig : Nat) (s : List Char) :
    significand sig (s ++ rest) =
      ((significand sig s).1, (significand sig s).2.1, (significand sig s).2.2 ++ rest) := by
  induction s generalizing sig with
  | nil =>
    cases rest with
    | nil => rfl
    | cons c rest => simp [significand, (h c rfl).1]
  | cons c s ih =>
    simp only [List.cons_append, significand, ih]
    split <;> rfl

variable {negative : Bool} {sig : Nat} {e : Int} {s r : List Char} {n : Number}

theorem EndsNumber.exponentDigits?_append (h : EndsNumber rest)
    (hs : exponentDigits? negative s = some (e, r)) :
    exponentDigits? negative (s ++ rest) = some (e, r ++ rest) := by
  simp only [exponentDigits?, h.takeWhile_append, h.dropWhile_append] at hs ⊢
  split at hs
  · cases hs
  · next hds =>
    rw [if_neg hds]
    cases hs
    rfl

theorem EndsNumber.exponent?_append (h : EndsNumber rest) (hs : exponent? s = some (e, r)) :
    exponent? (s ++ rest) = some (e, r ++ rest) := by
  fun_cases exponent? s with
  | case1 s => exact h.exponentDigits?_append hs
  | case2 s => exact h.exponentDigits?_append hs
  | case3 s hplus hminus =>
    rw [exponent?.eq_3 s hplus hminus] at hs
    rw [exponent?.eq_3 _ _ _, h.exponentDigits?_append hs]
    all_goals
      rintro rest' heq
      cases s with
      | nil => cases hs
      | cons c s => cases heq; simp at hplus hminus

theorem EndsNumber.withExponent_append (h : EndsNumber rest)
    (hs : withExponent negative sig e s = some (n, r)) :
    withExponent negative sig e (s ++ rest) = some (n, r ++ rest) := by
  -- where the number ends, `rest` must not be taken for its exponent
  cases s with
  | nil =>
    obtain ⟨x, hx, hnr⟩ := Option.map_eq_some_iff.1 hs
    cases hnr
    cases rest with
    | nil => exact hs
    | cons c rest =>
      obtain ⟨-, -, he, hE⟩ := h c rfl
      simp [withExponent, he, hE, hx]
  | cons c s =>
    simp only [List.cons_append, withExponent] at hs ⊢
    split_ifs at hs ⊢
    · obtain ⟨⟨more, r'⟩, hmore, hs⟩ := Option.bind_eq_some_iff.1 hs
      obtain ⟨x, hx, hs⟩ := Option.bind_eq_some_iff.1 hs
      cases hs
      rw [h.exponent?_append hmore]
      simp [hx]
    · obtain ⟨x, hx, hnr⟩ := Option.map_eq_some_iff.1 hs
      cases hnr
      rw [hx]
      rfl

theorem EndsNumber.withFraction_append (h : EndsNumber rest)
    (hs : withFraction negative sig e s = some (n, r)) :
    withFraction negative sig e (s ++ rest) = some (n, r ++ rest) := by
  simp only [withFraction, h.significand_append, h.skipDigits_append] at hs ⊢
  split_ifs at hs ⊢
  exact h.withExponent_append hs

theorem EndsNumber.afterWhole_append (h : EndsNumber rest) {skipped : Nat}
    (hs : afterWhole negative sig skipped s = some (n, r)) :
    afterWhole negative sig skipped (s ++ rest) = some (n, r ++ rest) := by
  fun_cases afterWhole negative sig skipped s with
  | case1 s => exact h.withFraction_append hs
  | case2 c s hpoint hmore =>
    rw [afterWhole.eq_2 _ _ _ _ _ hpoint, if_pos hmore] at hs
    rw [List.cons_append, afterWhole.eq_2 _ _ _ _ _ hpoint, if_pos hmore]
    exact h.withExponent_append hs
  | case3 c s hpoint hmore =>
    rw [afterWhole.eq_2 _ _ _ _ _ hpoint, if_neg hmore] at hs
    rw [List.cons_append, afterWhole.eq_2 _ _ _ _ _ hpoint, if_neg hmore]
    cases hs
    rfl
  | case4 hmore =>
    rw [afterWhole, if_pos hmore] at hs
    cases rest with
    | nil => rwa [List.append_nil, List.append_nil, afterWhole, if_pos hmore]
    | cons c rest =>
      have hpoint : c ≠ '.' := (h c rfl).2.1
      rw [List.nil_append, afterWhole.eq_2 _ _ _ _ _ hpoint, if_pos (by simp [hmore])]
      exact h.withExponent_append hs
  | case5 hmore =>
    rw [afterWhole, if_neg hmore] at hs
    cases hs
    cases rest with
    | nil => rw [List.append_nil, afterWhole, if_neg hmore]
    | cons c rest =>
      obtain ⟨-, hpoint, he, hE⟩ := h c rfl
      rw [List.nil_append, afterWhole.eq_2 _ _ _ _ _ hpoint, if_neg (by simp [he, hE, hmore])]

theorem EndsNumber.unsigned?_append (h : EndsNumber rest)
    (hs : unsigned? negative s = some (n, r)) :
    unsigned? negative (s ++ rest) = some (n, r ++ rest) := by
  cases s with
  | nil => cases hs
  | cons c s =>
    unfold unsigned? at hs ⊢
    simp only [h.significand_append, h.skipDigits_append] at hs ⊢
    rw [List.cons_append, List.head?_cons] at *
    split at hs
    · cases hs
    · next hdigits =>
      rw [if_neg hdigits]
      exact h.afterWhole_append hs

/-- What follows a number does not matter to the number. -/
theorem number?_append (h : EndsNumber rest) (hs : number? s = some (n, r)) :
    number? (s ++ rest) = some (n, r ++ rest) := by
  cases s with
  | nil => cases hs
  | cons c s =>
    by_cases hminus : c = '-'
    · subst hminus
      have hs' : unsigned? true s = some (n, r) := hs
      exact h.unsigned?_append hs'
    · have hunsigned (cs : List Char) : number? (c :: cs) = unsigned? false (c :: cs) := by
        unfold number?
        split
        · next heq => cases heq; exact absurd rfl hminus
        · rfl
      rw [hunsigned] at hs
      rw [List.cons_append, hunsigned]
      exact h.unsigned?_append hs

end

/-! ## Numbers -/

/-- A number starts with a digit or a minus sign. -/
theorem exists_cons_of_number? {s : List Char} {p : Number × List Char}
    (h : number? s = some p) : ∃ c r, s = c :: r ∧ (c = '-' ∨ Decimal.isDigit c) := by
  cases s with
  | nil => cases h
  | cons c r =>
    refine ⟨c, r, rfl, ?_⟩
    by_contra! hc
    obtain ⟨hminus, hdigit⟩ := hc
    rw [number?.eq_2 _ (by simpa using hminus), unsigned?, significand, if_neg (by simp [hdigit])]
      at h
    cases h

/-- Reading digits only makes a significand larger. -/
theorem le_foldl_digits (sig : Nat) (ds : List Char) :
    sig ≤ ds.foldl (fun n c => 10 * n + Decimal.digitValue c) sig := by
  induction ds generalizing sig with
  | nil => exact Nat.le_refl _
  | cons c ds ih =>
    have hrest := ih (10 * sig + Decimal.digitValue c)
    rw [List.foldl_cons]
    omega

/-- Digits that spell a number of 64 bits are all taken. -/
theorem significand_digits {sig : Nat} {ds : List Char} (hds : ∀ c ∈ ds, Decimal.isDigit c)
    (hsize : ds.foldl (fun n c => 10 * n + Decimal.digitValue c) sig ≤ maxSignificand) :
    significand sig ds =
      (ds.foldl (fun n c => 10 * n + Decimal.digitValue c) sig, ds.length, []) := by
  induction ds generalizing sig with
  | nil => rfl
  | cons c ds ih =>
    obtain ⟨hc, hds⟩ := List.forall_mem_cons.1 hds
    rw [List.foldl_cons] at hsize
    have hfits := Nat.le_trans (le_foldl_digits _ ds) hsize
    rw [significand, if_pos (by simp [hc, hfits]), ih hds hsize]
    rfl

/-- An integer of 64 bits is read back from its digits. -/
theorem unsigned?_digits (negative : Bool) {m : Nat} (hm : m ≤ maxSignificand) :
    unsigned? negative (Decimal.digits m) = some (integer negative m, []) := by
  have hvalue : (Decimal.digits m).foldl (fun n c => 10 * n + Decimal.digitValue c) 0 = m :=
    Decimal.value_digits m
  have hsig : significand 0 (Decimal.digits m) = (m, (Decimal.digits m).length, []) := by
    rw [significand_digits (Decimal.isDigit_of_mem_digits m) (by rwa [hvalue]), hvalue]
  rw [unsigned?, hsig]
  refine (if_neg fun hbad => ?_).trans rfl
  rcases Nat.eq_zero_or_pos m with rfl | hpos
  · have hdigits : Decimal.digits 0 = ['0'] := by rw [Decimal.digits]; rfl
    simp [hdigits] at hbad
  · simp [Decimal.head?_digits_ne hpos, Decimal.digits_ne_nil m] at hbad

/-- A magnitude that is not zero and fits 63 bits keeps its minus sign. -/
theorem integer_negative {m : Nat} (hpos : 0 < m) (hsize : m ≤ 0x8000000000000000) :
    integer true m = .int (-(m : Int)) := by
  have hlimit : Nat.pow 2 63 = 0x8000000000000000 := rfl
  rw [integer, if_neg (by decide), if_neg]
  simp only [hlimit, Bool.or_eq_true, decide_eq_true_eq]
  omega

end Reader

/-- The number can be read back: it is an integer of 64 bits, with or without a sign, or a double
that its text reads back as. -/
def Number.IsReadable : Number → Prop
  | .int i => -0x8000000000000000 ≤ i ∧ i < 0x10000000000000000
  | .float x => Reader.number? (floatFormat.render x) = some (.float x, [])

/-- **A number is read back** from its text. -/
theorem Reader.number?_numeral {n : Number} (h : n.IsReadable) :
    number? (numeral n) = some (n, []) := by
  cases n with
  | float x => exact h
  | int i =>
    obtain ⟨hlow, hhigh⟩ := h
    have hlimit : maxSignificand = 0xFFFFFFFFFFFFFFFF := rfl
    have hsize : i.natAbs ≤ maxSignificand := by omega
    rw [numeral]
    split
    · next hneg =>
      rw [number?, unsigned?_digits true hsize, integer_negative (by omega) (by omega)]
      congr
      omega
    · next hpos =>
      obtain ⟨c, ds, hds⟩ := List.exists_cons_of_ne_nil (Decimal.digits_ne_nil i.natAbs)
      have hc : c ≠ '-' := by
        rintro rfl
        have hdigit := Decimal.isDigit_of_mem_digits i.natAbs '-'
        rw [hds] at hdigit
        exact absurd (hdigit List.mem_cons_self) (by decide)
      rw [number?.eq_2 _ (by rw [hds]; simpa using hc), unsigned?_digits false hsize]
      change some (Number.int (i.natAbs : Int), _) = _
      congr
      omega

end GoOutline.Json
