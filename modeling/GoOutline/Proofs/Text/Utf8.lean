import GoOutline.Text.Utf8
import Mathlib.Order.Lattice

/-!
# Reading encoded texts

Every text can be read back from its encoding, what is read is always an encoding, and encodings are
in the order of their texts.

## Main results

* `Utf8.step_encodeChar`: one character is read back
* `Utf8.decode_encode`: a text is read back
* `Utf8.encode_decode`, `Utf8.decode_eq_iff`: nothing but encodings is read
* `Utf8.encode_le_encode_iff`: texts and their encodings are in the same order
-/

namespace GoOutline.Text.Utf8

/-! ## Bytes -/

section

variable {n m : Nat}

theorem toNat_toUInt8 (h : n < 256) : n.toUInt8.toNat = n := by
  rw [Nat.toUInt8, UInt8.toNat_ofNat']
  exact Nat.mod_eq_of_lt h

theorem toUInt8_lt_iff (h : n < 256) (b : UInt8) : n.toUInt8 < b ↔ n < b.toNat := by
  rw [UInt8.lt_iff_toNat_lt, toNat_toUInt8 h]

theorem toUInt8_le_iff (h : n < 256) (b : UInt8) : n.toUInt8 ≤ b ↔ n ≤ b.toNat := by
  rw [UInt8.le_iff_toNat_le, toNat_toUInt8 h]

theorem le_toUInt8_iff (h : n < 256) (b : UInt8) : b ≤ n.toUInt8 ↔ b.toNat ≤ n := by
  rw [UInt8.le_iff_toNat_le, toNat_toUInt8 h]

theorem toUInt8_eq_iff (h : n < 256) (b : UInt8) : n.toUInt8 = b ↔ n = b.toNat := by
  rw [← UInt8.toNat_inj, toNat_toUInt8 h]

theorem toUInt8_lt_toUInt8_iff (hn : n < 256) (hm : m < 256) : n.toUInt8 < m.toUInt8 ↔ n < m := by
  rw [toUInt8_lt_iff hn, toNat_toUInt8 hm]

theorem toUInt8_eq_toUInt8_iff (hn : n < 256) (hm : m < 256) : n.toUInt8 = m.toUInt8 ↔ n = m := by
  rw [toUInt8_eq_iff hn, toNat_toUInt8 hm]

theorem isTail_toUInt8 (h : n < 64) : isTail (0x80 + n).toUInt8 := by
  have hn : 0x80 + n < 256 := by omega
  simp only [isTail, le_toUInt8_iff hn, toUInt8_le_iff hn, UInt8.reduceToNat, Bool.and_eq_true,
    decide_eq_true_eq]
  omega

theorem tailBits_toUInt8 (h : n < 64) : tailBits (0x80 + n).toUInt8 = n := by
  have hn : (0x80 + n).toUInt8.toNat = 0x80 + n := toNat_toUInt8 (by omega)
  unfold tailBits
  omega

/-- The second byte of three is in range when the code point takes three bytes. -/
theorem secondOfThree_toUInt8 (hn : n < 16) (hm : m < 64) (hlong : 0x20 ≤ n * 64 + m)
    (hsurrogate : n * 64 + m < 0x360 ∨ 0x37F < n * 64 + m) :
    secondOfThree (0xE0 + n).toUInt8 (0x80 + m).toUInt8 := by
  have ha : 0xE0 + n < 256 := by omega
  have hb : 0x80 + m < 256 := by omega
  simp only [secondOfThree, beq_iff_eq, toUInt8_eq_iff ha, UInt8.reduceToNat, isTail_toUInt8 hm,
    le_toUInt8_iff hb, toUInt8_le_iff hb]
  split_ifs with h1 h2
  · rw [Bool.and_eq_true, decide_eq_true_eq, decide_eq_true_eq]
    omega
  · rw [Bool.and_eq_true, decide_eq_true_eq, decide_eq_true_eq]
    omega
  · rfl

/-- The second byte of four is in range when the code point takes four bytes. -/
theorem secondOfFour_toUInt8 (hn : n < 5) (hm : m < 64) (hlong : 0x10 ≤ n * 64 + m)
    (hlast : n * 64 + m < 0x110) : secondOfFour (0xF0 + n).toUInt8 (0x80 + m).toUInt8 := by
  have ha : 0xF0 + n < 256 := by omega
  have hb : 0x80 + m < 256 := by omega
  simp only [secondOfFour, beq_iff_eq, toUInt8_eq_iff ha, UInt8.reduceToNat, isTail_toUInt8 hm,
    le_toUInt8_iff hb, toUInt8_le_iff hb]
  split_ifs with h1 h2
  · rw [Bool.and_eq_true, decide_eq_true_eq, decide_eq_true_eq]
    omega
  · rw [Bool.and_eq_true, decide_eq_true_eq, decide_eq_true_eq]
    omega
  · rfl

end

/-! ## Reading back -/

/-- A character is a code point outside the surrogates. -/
theorem toNat_cases (c : Char) : c.toNat < 0xD800 ∨ 0xDFFF < c.toNat ∧ c.toNat < 0x110000 := c.valid

section

variable {n : Nat} (rest : List UInt8)

/-- A character of one byte is read back. -/
theorem step_one (h : n < 0x80) : step (n.toUInt8 :: rest) = some (Char.ofNat n, rest) := by
  have ha : n < 256 := by omega
  simp only [step, toUInt8_lt_iff ha, UInt8.reduceToNat, toNat_toUInt8 ha]
  rw [if_pos h]

/-- So is one of two bytes. -/
theorem step_two (hlow : 0x80 ≤ n) (hhigh : n < 0x800) :
    step ((0xC0 + n / 64).toUInt8 :: (0x80 + n % 64).toUInt8 :: rest) =
      some (Char.ofNat n, rest) := by
  have ha : 0xC0 + n / 64 < 256 := by omega
  have hb : n % 64 < 64 := Nat.mod_lt _ (by decide)
  have hvalue : (0xC0 + n / 64 - 0xC0) * 64 + n % 64 = n := by omega
  simp only [step, toUInt8_lt_iff ha, UInt8.reduceToNat, toNat_toUInt8 ha, isTail_toUInt8 hb,
    tailBits_toUInt8 hb, hvalue]
  rw [if_neg (by omega), if_neg (by omega), if_pos (by omega)]
  rfl

/-- So is one of three bytes, which is no surrogate. -/
theorem step_three (hlow : 0x800 ≤ n) (hhigh : n < 0x10000) (hvalid : n < 0xD800 ∨ 0xDFFF < n) :
    step ((0xE0 + n / 4096).toUInt8 :: (0x80 + n / 64 % 64).toUInt8 ::
      (0x80 + n % 64).toUInt8 :: rest) = some (Char.ofNat n, rest) := by
  have ha : 0xE0 + n / 4096 < 256 := by omega
  have hb : n / 64 % 64 < 64 := Nat.mod_lt _ (by decide)
  have hc : n % 64 < 64 := Nat.mod_lt _ (by decide)
  have hsecond := secondOfThree_toUInt8 (n := n / 4096) (by omega) hb (by omega) (by omega)
  have hvalue : (0xE0 + n / 4096 - 0xE0) * 4096 + n / 64 % 64 * 64 + n % 64 = n := by omega
  simp only [step, toUInt8_lt_iff ha, UInt8.reduceToNat, toNat_toUInt8 ha, isTail_toUInt8 hc,
    tailBits_toUInt8 hb, tailBits_toUInt8 hc, hsecond, hvalue]
  rw [if_neg (by omega), if_neg (by omega), if_neg (by omega), if_pos (by omega)]
  rfl

/-- So is one of four bytes. -/
theorem step_four (hlow : 0x10000 ≤ n) (hhigh : n < 0x110000) :
    step ((0xF0 + n / 262144).toUInt8 :: (0x80 + n / 4096 % 64).toUInt8 ::
      (0x80 + n / 64 % 64).toUInt8 :: (0x80 + n % 64).toUInt8 :: rest) =
      some (Char.ofNat n, rest) := by
  have ha : 0xF0 + n / 262144 < 256 := by omega
  have hb : n / 4096 % 64 < 64 := Nat.mod_lt _ (by decide)
  have hc : n / 64 % 64 < 64 := Nat.mod_lt _ (by decide)
  have hd : n % 64 < 64 := Nat.mod_lt _ (by decide)
  have hsecond := secondOfFour_toUInt8 (n := n / 262144) (by omega) hb (by omega) (by omega)
  have hvalue : (0xF0 + n / 262144 - 0xF0) * 262144 + n / 4096 % 64 * 4096 + n / 64 % 64 * 64 +
      n % 64 = n := by omega
  simp only [step, toUInt8_lt_iff ha, UInt8.reduceToNat, toNat_toUInt8 ha, isTail_toUInt8 hc,
    isTail_toUInt8 hd, tailBits_toUInt8 hb, tailBits_toUInt8 hc, tailBits_toUInt8 hd, hsecond,
    hvalue]
  rw [if_neg (by omega), if_neg (by omega), if_neg (by omega), if_neg (by omega),
    if_pos (by omega)]
  rfl

end

/-- The character at the front of its encoding is read back. -/
theorem step_encodeChar (c : Char) (rest : List UInt8) :
    step (encodeChar c ++ rest) = some (c, rest) := by
  have hc := toNat_cases c
  have hstep : step (encodeChar c ++ rest) = some (Char.ofNat c.toNat, rest) := by
    simp only [encodeChar]
    split_ifs with h1 h2 h3
    · exact step_one rest h1
    · exact step_two rest (by omega) h2
    · exact step_three rest (by omega) h3 (by omega)
    · exact step_four rest (by omega) (by omega)
  rw [hstep, Char.ofNat_toNat]

/-- A text is decoded character by character. -/
theorem decode_of_step {bs rest : List UInt8} {c : Char} (h : step bs = some (c, rest)) :
    decode bs = (c :: (decode rest).1, (decode rest).2) := by
  rw [decode]
  split
  · next hnone => rw [h] at hnone; cases hnone
  · next hsome =>
    rw [h] at hsome
    cases hsome
    rfl

theorem encode_cons (c : Char) (s : List Char) : encode (c :: s) = encodeChar c ++ encode s := rfl

/-- **A text is read back** from its encoding, and nothing is left. -/
theorem decode_encode (s : List Char) : decode (encode s) = (s, []) := by
  induction s with
  | nil =>
    change decode [] = ([], [])
    rw [decode]
    rfl
  | cons c s ih =>
    change decode (encodeChar c ++ encode s) = (c :: s, [])
    rw [decode_of_step (step_encodeChar c (encode s)), ih]

/-! ## What is read -/

theorem toNat_ofNat_of_valid {n : Nat} (h : n.isValidChar) : (Char.ofNat n).toNat = n := by
  rw [Char.ofNat, dif_pos h]
  rfl

theorem isTail_iff {b : UInt8} : isTail b ↔ 0x80 ≤ b.toNat ∧ b.toNat ≤ 0xBF := by
  simp only [isTail, Bool.and_eq_true, decide_eq_true_eq, UInt8.le_iff_toNat_le,
    UInt8.reduceToNat]

/-- The second of three bytes keeps out long forms and surrogates. -/
theorem bounds_of_secondOfThree {a b : UInt8} (h : secondOfThree a b) :
    (0x80 ≤ b.toNat ∧ b.toNat ≤ 0xBF) ∧ (a.toNat = 0xE0 → 0xA0 ≤ b.toNat) ∧
      (a.toNat = 0xED → b.toNat ≤ 0x9F) := by
  simp only [secondOfThree, beq_iff_eq, ← UInt8.toNat_inj, UInt8.reduceToNat] at h
  split_ifs at h
  all_goals simp only [isTail_iff, Bool.and_eq_true, decide_eq_true_eq, UInt8.le_iff_toNat_le,
    UInt8.reduceToNat] at h
  all_goals omega

/-- The second of four bytes keeps out long forms and what is beyond the last character. -/
theorem bounds_of_secondOfFour {a b : UInt8} (h : secondOfFour a b) :
    (0x80 ≤ b.toNat ∧ b.toNat ≤ 0xBF) ∧ (a.toNat = 0xF0 → 0x90 ≤ b.toNat) ∧
      (a.toNat = 0xF4 → b.toNat ≤ 0x8F) := by
  simp only [secondOfFour, beq_iff_eq, ← UInt8.toNat_inj, UInt8.reduceToNat] at h
  split_ifs at h
  all_goals simp only [isTail_iff, Bool.and_eq_true, decide_eq_true_eq, UInt8.le_iff_toNat_le,
    UInt8.reduceToNat] at h
  all_goals omega

/-- A code point has one of four forms, by its size. -/
theorem encodeChar_ofNat {n : Nat} (h : n.isValidChar) :
    encodeChar (Char.ofNat n) =
      if n < 0x80 then [n.toUInt8]
      else if n < 0x800 then [(0xC0 + n / 64).toUInt8, (0x80 + n % 64).toUInt8]
      else if n < 0x10000 then
        [(0xE0 + n / 4096).toUInt8, (0x80 + n / 64 % 64).toUInt8, (0x80 + n % 64).toUInt8]
      else
        [(0xF0 + n / 262144).toUInt8, (0x80 + n / 4096 % 64).toUInt8,
          (0x80 + n / 64 % 64).toUInt8, (0x80 + n % 64).toUInt8] := by
  rw [encodeChar, toNat_ofNat_of_valid h]

theorem toUInt8_eq {n : Nat} {b : UInt8} (h : n = b.toNat) : n.toUInt8 = b := by
  rw [h]
  exact (toUInt8_eq_iff b.toNat_lt b).2 rfl

section

variable {a b c d : UInt8}

theorem encodeChar_one (ha : a.toNat < 0x80) : encodeChar (Char.ofNat a.toNat) = [a] := by
  rw [encodeChar_ofNat (.inl (by omega)), if_pos ha, toUInt8_eq rfl]

theorem encodeChar_two (ha : 0xC2 ≤ a.toNat) (ha' : a.toNat < 0xE0) (hb : isTail b) :
    encodeChar (Char.ofNat ((a.toNat - 0xC0) * 64 + tailBits b)) = [a, b] := by
  rw [isTail_iff] at hb
  unfold tailBits
  generalize hn : (a.toNat - 0xC0) * 64 + (b.toNat - 0x80) = n
  rw [encodeChar_ofNat (.inl (by omega)), if_neg (by omega), if_pos (by omega),
    toUInt8_eq (b := a) (by omega), toUInt8_eq (b := b) (by omega)]

/-- Three bytes that are accepted are the form of what they stand for. -/
theorem encodeChar_three (ha : 0xE0 ≤ a.toNat) (ha' : a.toNat < 0xF0) (hb : secondOfThree a b)
    (hc : isTail c) :
    encodeChar (Char.ofNat ((a.toNat - 0xE0) * 4096 + tailBits b * 64 + tailBits c)) =
      [a, b, c] := by
  rw [isTail_iff] at hc
  have hb := bounds_of_secondOfThree hb
  unfold tailBits
  generalize hn : (a.toNat - 0xE0) * 4096 + (b.toNat - 0x80) * 64 + (c.toNat - 0x80) = n
  rw [encodeChar_ofNat (by unfold Nat.isValidChar; omega), if_neg (by omega), if_neg (by omega),
    if_pos (by omega), toUInt8_eq (b := a) (by omega), toUInt8_eq (b := b) (by omega),
    toUInt8_eq (b := c) (by omega)]

/-- So are four. -/
theorem encodeChar_four (ha : 0xF0 ≤ a.toNat) (ha' : a.toNat < 0xF5) (hb : secondOfFour a b)
    (hc : isTail c) (hd : isTail d) :
    encodeChar (Char.ofNat ((a.toNat - 0xF0) * 262144 + tailBits b * 4096 + tailBits c * 64 +
      tailBits d)) = [a, b, c, d] := by
  rw [isTail_iff] at hc hd
  have hb := bounds_of_secondOfFour hb
  unfold tailBits
  generalize hn : (a.toNat - 0xF0) * 262144 + (b.toNat - 0x80) * 4096 + (c.toNat - 0x80) * 64 +
    (d.toNat - 0x80) = n
  rw [encodeChar_ofNat (by unfold Nat.isValidChar; omega), if_neg (by omega), if_neg (by omega),
    if_neg (by omega), toUInt8_eq (b := a) (by omega), toUInt8_eq (b := b) (by omega),
    toUInt8_eq (b := c) (by omega), toUInt8_eq (b := d) (by omega)]

end

/-- What a step reads is the encoding of the character that it gives. -/
theorem eq_encodeChar_of_step {bs rest : List UInt8} {c : Char} (h : step bs = some (c, rest)) :
    bs = encodeChar c ++ rest := by
  unfold step at h
  simp only [UInt8.lt_iff_toNat_lt, UInt8.reduceToNat] at h
  repeat' split at h
  all_goals simp only [reduceCtorEq, Option.some.injEq, Prod.mk.injEq, Bool.and_eq_true] at *
  all_goals obtain ⟨rfl, rfl⟩ := h
  · next ha => rw [encodeChar_one ha]; rfl
  · next hb => rw [encodeChar_two (by omega) (by omega) hb]; rfl
  · next hbc => rw [encodeChar_three (by omega) (by omega) hbc.1 hbc.2]; rfl
  · next hbcd => rw [encodeChar_four (by omega) (by omega) hbcd.1.1 hbcd.1.2 hbcd.2]; rfl

/-- **Every byte is accounted for**: the text that is read off the front, encoded, and then what
could not be read. -/
theorem encode_decode (bs : List UInt8) : bs = encode (decode bs).1 ++ (decode bs).2 := by
  fun_induction decode bs with
  | case1 bs h => simp [encode]
  | case2 bs c r h hlen cs rest hrest ih =>
    rw [hrest] at ih
    rw [eq_encodeChar_of_step h, encode_cons, List.append_assoc]
    exact congrArg _ ih

/-- **A source is a text** when it is the encoding of one. -/
theorem decode_eq_iff {bs : List UInt8} {s : List Char} : decode bs = (s, []) ↔ bs = encode s := by
  constructor
  · intro h
    have hbs := encode_decode bs
    rwa [h, List.append_nil] at hbs
  · rintro rfl
    exact decode_encode s

/-! ## Order -/

/-- The encodings of two characters differ before either ends, and in the order of the characters:
a shorter encoding has a smaller lead byte, and bytes of one length are the digits of the code
point. -/
theorem encodeChar_append_lt {c d : Char} (h : c < d) (r s : List UInt8) :
    encodeChar c ++ r < encodeChar d ++ s := by
  have hc := toNat_cases c
  have hd := toNat_cases d
  have hlt : c.toNat < d.toNat := h
  simp only [encodeChar]
  generalize c.toNat = n at *
  generalize d.toNat = m at *
  -- one case for each pair of lengths, of which none but the lead bytes matter when they differ
  split_ifs
  all_goals simp (disch := omega) only [List.cons_append, List.nil_append, List.cons_lt_cons_iff,
    toUInt8_lt_toUInt8_iff, toUInt8_eq_toUInt8_iff]
  all_goals omega

/-- Encodings are in the order of their texts. -/
theorem encode_lt_encode {s t : List Char} (h : s < t) : encode s < encode t := by
  induction s generalizing t with
  | nil =>
    cases t with
    | nil => exact absurd h (List.lt_irrefl _)
    | cons d t =>
      have hstep := step_encodeChar d (encode t)
      rw [encode_cons]
      cases hbytes : encodeChar d ++ encode t with
      | nil => rw [hbytes] at hstep; cases hstep
      | cons b bs => exact List.nil_lt_cons b bs
  | cons c s ih =>
    cases t with
    | nil => exact absurd h (List.not_lt_nil _)
    | cons d t =>
      rw [encode_cons, encode_cons]
      rcases List.cons_lt_cons_iff.1 h with hlt | ⟨rfl, hlt⟩
      · exact encodeChar_append_lt hlt _ _
      · exact List.append_left_lt (ih hlt)

/-- **Encodings are in the order of their texts.** -/
theorem encode_le_encode_iff {s t : List Char} : encode s ≤ encode t ↔ ¬ t < s := by
  constructor
  · intro h hlt
    exact List.not_lt.2 h (encode_lt_encode hlt)
  · intro h hlt
    rcases List.le_iff_lt_or_eq.1 (List.not_lt.1 h) with hst | rfl
    · exact List.lt_asymm hlt (encode_lt_encode hst)
    · exact List.lt_irrefl _ hlt

end GoOutline.Text.Utf8
