import GoOutline.Proofs.Text.Utf8
import Mathlib.Data.List.Basic

/-!
# Well-formed bytes

What it means for bytes to be UTF-8, without a reader: they are the shortest forms of code points,
one after the other. How far some bytes are well formed is where the reader stops, also when the
last character breaks off.

## Main definitions

* `Utf8.IsForm`: bytes that stand for a number, however many they are
* `Utf8.IsCharacter`: the shortest form of a code point outside of the surrogates
* `Utf8.IsText`: characters one after the other
* `Utf8.IsLongestText`: a length up to which bytes are text, and no longer one

## Main results

* `Utf8.isText_iff`: bytes are text when they are the encoding of a text
* `Utf8.isLongestText_validLength`: the longest text at the front is what the reader takes
* `Utf8.validLength_of_truncated`: a character that breaks off is not taken at all
-/

namespace GoOutline.Text.Utf8

/-! ## Characters -/

/-- The bytes are a form of the number: as a single byte, or as a lead byte that tells how many
bytes follow it, each with six more bits. A small number has several forms. -/
inductive IsForm (n : Nat) : List UInt8 → Prop
  | one (h : n < 0x80) : IsForm n [n.toUInt8]
  | two (h : n < 0x800) : IsForm n [(0xC0 + n / 64).toUInt8, (0x80 + n % 64).toUInt8]
  | three (h : n < 0x10000) : IsForm n
      [(0xE0 + n / 4096).toUInt8, (0x80 + n / 64 % 64).toUInt8, (0x80 + n % 64).toUInt8]
  | four (h : n < 0x200000) : IsForm n
      [(0xF0 + n / 262144).toUInt8, (0x80 + n / 4096 % 64).toUInt8, (0x80 + n / 64 % 64).toUInt8,
        (0x80 + n % 64).toUInt8]

/-- The number is a code point that is no surrogate. -/
def IsScalar (n : Nat) : Prop := n ≤ 0x10FFFF ∧ ¬ (0xD800 ≤ n ∧ n ≤ 0xDFFF)

/-- The bytes are one complete character: the shortest form of a code point that is no
surrogate. -/
def IsCharacter (bs : List UInt8) : Prop :=
  ∃ n, IsScalar n ∧ IsForm n bs ∧ ∀ bs', IsForm n bs' → bs.length ≤ bs'.length

/-- The bytes are characters, one after the other. -/
def IsText (bs : List UInt8) : Prop :=
  ∃ characters : List (List UInt8), (∀ c ∈ characters, IsCharacter c) ∧ bs = characters.flatten

theorem isScalar_toNat (c : Char) : IsScalar c.toNat := by
  have hc := toNat_cases c
  unfold IsScalar
  omega

/-- How many bytes a form has at least. -/
theorem IsForm.le_length {n : Nat} {bs : List UInt8} (h : IsForm n bs) :
    1 ≤ bs.length ∧ (0x80 ≤ n → 2 ≤ bs.length) ∧ (0x800 ≤ n → 3 ≤ bs.length) ∧
      (0x10000 ≤ n → 4 ≤ bs.length) := by
  cases h
  all_goals simp only [List.length_cons, List.length_nil]
  all_goals omega

/-- The encoding of a character is a form of its code point, and no other form is shorter. -/
theorem isForm_encodeChar (c : Char) :
    IsForm c.toNat (encodeChar c) ∧
      ∀ bs, IsForm c.toNat bs → (encodeChar c).length ≤ bs.length := by
  have hc := toNat_cases c
  unfold encodeChar
  generalize c.toNat = n at hc
  dsimp only
  split_ifs with h1 h2 h3
  · exact ⟨.one h1, fun bs h => h.le_length.1⟩
  · exact ⟨.two h2, fun bs h => h.le_length.2.1 (Nat.not_lt.1 h1)⟩
  · exact ⟨.three h3, fun bs h => h.le_length.2.2.1 (Nat.not_lt.1 h2)⟩
  · exact ⟨.four (by omega), fun bs h => h.le_length.2.2.2 (Nat.not_lt.1 h3)⟩

theorem eq_of_isForm_of_length {n : Nat} {bs bs' : List UInt8} (h : IsForm n bs)
    (h' : IsForm n bs') (hlength : bs.length = bs'.length) : bs = bs' := by
  cases h <;> cases h' <;> simp at hlength ⊢

/-- **A character is the encoding of one**: the shortest form is unique. -/
theorem isCharacter_iff {bs : List UInt8} : IsCharacter bs ↔ ∃ c, bs = encodeChar c := by
  constructor
  · rintro ⟨n, hscalar, hform, hshortest⟩
    have hvalid : n.isValidChar := by
      unfold IsScalar at hscalar
      unfold Nat.isValidChar
      omega
    obtain ⟨hchar, hchar'⟩ := isForm_encodeChar (Char.ofNat n)
    rw [toNat_ofNat_of_valid hvalid] at hchar hchar'
    refine ⟨Char.ofNat n, eq_of_isForm_of_length hform hchar ?_⟩
    exact Nat.le_antisymm (hshortest _ hchar) (hchar' _ hform)
  · rintro ⟨c, rfl⟩
    exact ⟨c.toNat, isScalar_toNat c, isForm_encodeChar c⟩

/-- **Bytes are text** when they are the encoding of a text. -/
theorem isText_iff {bs : List UInt8} : IsText bs ↔ ∃ s, bs = encode s := by
  constructor
  · rintro ⟨characters, h, rfl⟩
    induction characters with
    | nil => exact ⟨[], rfl⟩
    | cons b characters ih =>
      obtain ⟨hb, hrest⟩ := List.forall_mem_cons.1 h
      obtain ⟨c, rfl⟩ := isCharacter_iff.1 hb
      obtain ⟨s, hs⟩ := ih hrest
      exact ⟨c :: s, by rw [List.flatten_cons, hs, encode_cons]⟩
  · rintro ⟨s, rfl⟩
    refine ⟨s.map encodeChar, fun b hb => ?_, List.flatMap_def⟩
    obtain ⟨c, -, rfl⟩ := List.mem_map.1 hb
    exact isCharacter_iff.2 ⟨c, rfl⟩

/-! ## The bytes of a character -/

/-- How many bytes follow a lead byte. -/
def tailCount (a : UInt8) : Nat :=
  if a < 0x80 then 0 else if a < 0xE0 then 1 else if a < 0xF0 then 2 else 3

/-- A character is a lead byte with as many continuation bytes as that tells. -/
theorem exists_lead_encodeChar (c : Char) :
    ∃ a tails, encodeChar c = a :: tails ∧ tails.length = tailCount a ∧
      ∀ b ∈ tails, isTail b := by
  have hc := toNat_cases c
  have htail (n : Nat) : isTail (0x80 + n % 64).toUInt8 := isTail_toUInt8 (Nat.mod_lt _ (by decide))
  have hlast (n : Nat) : ∀ b ∈ [(0x80 + n % 64).toUInt8], isTail b :=
    List.forall_mem_singleton.2 (htail n)
  unfold encodeChar
  generalize c.toNat = n at hc
  dsimp only
  split_ifs with h1 h2 h3
  · refine ⟨_, _, rfl, ?_, List.forall_mem_nil _⟩
    rw [tailCount, if_pos ((toUInt8_lt_iff (by omega) _).2 h1)]
    rfl
  · refine ⟨_, _, rfl, ?_, hlast _⟩
    simp only [tailCount, toUInt8_lt_iff (show 0xC0 + n / 64 < 256 by omega), UInt8.reduceToNat]
    rw [if_neg (by omega), if_pos (by omega)]
    rfl
  · refine ⟨_, _, rfl, ?_, List.forall_mem_cons.2 ⟨htail _, hlast _⟩⟩
    simp only [tailCount, toUInt8_lt_iff (show 0xE0 + n / 4096 < 256 by omega), UInt8.reduceToNat]
    rw [if_neg (by omega), if_neg (by omega), if_pos (by omega)]
    rfl
  · refine ⟨_, _, rfl, ?_,
      List.forall_mem_cons.2 ⟨htail _, List.forall_mem_cons.2 ⟨htail _, hlast _⟩⟩⟩
    simp only [tailCount, toUInt8_lt_iff (show 0xF0 + n / 262144 < 256 by omega),
      UInt8.reduceToNat]
    rw [if_neg (by omega), if_neg (by omega), if_neg (by omega)]
    rfl

/-- A character from some code point on, of those that take a single byte, has no byte below
that. -/
theorem le_toNat_of_mem_encodeChar {c : Char} {n : Nat} (hn : n ≤ 0x80) (hc : n ≤ c.toNat) :
    ∀ b ∈ encodeChar c, n ≤ b.toNat := by
  have hvalid := toNat_cases c
  unfold encodeChar
  generalize c.toNat = m at hc hvalid
  dsimp only
  have hbyte {k : Nat} (hk : k < 256) (hnk : n ≤ k) : n ≤ k.toUInt8.toNat := by
    rwa [toNat_toUInt8 hk]
  split_ifs with h1 h2 h3
  all_goals simp only [List.forall_mem_cons, List.not_mem_nil, false_imp_iff, implies_true,
      and_true]
  · exact hbyte (by omega) hc
  · exact ⟨hbyte (by omega) (by omega), hbyte (by omega) (by omega)⟩
  · exact ⟨hbyte (by omega) (by omega), hbyte (by omega) (by omega), hbyte (by omega) (by omega)⟩
  · exact ⟨hbyte (by omega) (by omega), hbyte (by omega) (by omega), hbyte (by omega) (by omega),
      hbyte (by omega) (by omega)⟩

theorem le_toNat_of_mem_encode {s : List Char} {n : Nat} (hn : n ≤ 0x80)
    (hs : ∀ c ∈ s, n ≤ c.toNat) : ∀ b ∈ encode s, n ≤ b.toNat := by
  intro b hb
  obtain ⟨c, hc, hb⟩ := List.mem_flatMap.1 hb
  exact le_toNat_of_mem_encodeChar hn (hs c hc) b hb

/-! ## The longest text at the front -/

/-- Bytes are text up to a length, and up to no longer one. -/
structure IsLongestText (source : List UInt8) (length : Nat) : Prop where
  le_length : length ≤ source.length
  isText : IsText (source.take length)
  not_isText : ∀ longer, length < longer → longer ≤ source.length →
    ¬ IsText (source.take longer)

/-- What follows a text is read as if it stood alone. -/
theorem decode_encode_append (s : List Char) (bs : List UInt8) :
    decode (encode s ++ bs) = (s ++ (decode bs).1, (decode bs).2) := by
  induction s with
  | nil => rfl
  | cons c s ih =>
    rw [encode_cons, List.append_assoc, decode_of_step (step_encodeChar c _), ih]
    rfl

theorem length_decode_le (bs : List UInt8) : (decode bs).2.length ≤ bs.length := by
  have hlength := congrArg List.length (encode_decode bs)
  rw [List.length_append] at hlength
  omega

/-- What the reader takes is a text, and it is the rest that it leaves. -/
theorem take_validLength (source : List UInt8) :
    source.take (validLength source) = encode (decode source).1 := by
  have hsource := encode_decode source
  have hlength := congrArg List.length hsource
  rw [List.length_append] at hlength
  have hvalid : validLength source = (encode (decode source).1).length := by
    rw [validLength]
    omega
  calc source.take (validLength source)
    _ = (encode (decode source).1 ++ (decode source).2).take (encode (decode source).1).length := by
      rw [hvalid, ← hsource]
    _ = encode (decode source).1 := List.take_left

/-- **The longest text at the front** is what the reader takes. -/
theorem isLongestText_validLength (source : List UInt8) :
    IsLongestText source (validLength source) where
  le_length := Nat.sub_le _ _
  isText := isText_iff.2 ⟨_, take_validLength source⟩
  not_isText := by
    rintro longer hlonger hle htext
    obtain ⟨s, hs⟩ := isText_iff.1 htext
    -- the reader takes a longer text as well, so it would leave less than it does
    have hdecode := decode_encode_append s (source.drop longer)
    rw [← hs, List.take_append_drop] at hdecode
    have hrest := length_decode_le (source.drop longer)
    rw [List.length_drop] at hrest
    rw [validLength, hdecode] at hlonger
    dsimp only at hlonger
    omega

/-- A character that breaks off is not read: nothing of its form goes on after it. -/
theorem step_of_truncated {part more rest : List UInt8} (h : IsCharacter (part ++ more))
    (hpart : part ≠ []) (hmore : more ≠ []) (hrest : ∀ b ∈ rest.head?, isTail b = false) :
    step (part ++ rest) = none := by
  by_contra hstep
  obtain ⟨⟨d, r⟩, hstep⟩ := Option.ne_none_iff_exists'.1 hstep
  obtain ⟨c, hc⟩ := isCharacter_iff.1 h
  obtain ⟨a, tails, hctails, hccount, -⟩ := exists_lead_encodeChar c
  obtain ⟨a', tails', hdtails, hdcount, htails'⟩ := exists_lead_encodeChar d
  have hread := eq_encodeChar_of_step hstep
  obtain ⟨b, part, rfl⟩ := List.exists_cons_of_ne_nil hpart
  rw [hctails, List.cons_append] at hc
  rw [hdtails, List.cons_append, List.cons_append] at hread
  obtain ⟨rfl, htails⟩ := List.cons_eq_cons.1 hc
  obtain ⟨rfl, hafter⟩ := List.cons_eq_cons.1 hread
  -- both characters have one lead byte, so the one that is read is longer than the part
  have hlonger : part.length < tails'.length := by
    have hlength := congrArg List.length htails
    have hpos := List.length_pos_iff.2 hmore
    rw [List.length_append] at hlength
    omega
  obtain ⟨between, rfl, hrest'⟩ : ∃ between, tails' = part ++ between ∧ rest = between ++ r := by
    rcases List.append_eq_append_iff.1 hafter with ⟨between, hlong, hr⟩ | ⟨between, hp, -⟩
    · exact ⟨between, hlong, hr⟩
    · rw [hp, List.length_append] at hlonger
      omega
  obtain ⟨x, between, rfl⟩ : ∃ x xs, between = x :: xs := by
    refine List.exists_cons_of_ne_nil ?_
    rintro rfl
    simp at hlonger
  have hx := hrest x (by rw [hrest']; rfl)
  rw [htails' x (by simp)] at hx
  cases hx

/-- **A character that breaks off** is not taken at all: the text ends in front of it. -/
theorem validLength_of_truncated {front part more rest : List UInt8} (hfront : IsText front)
    (h : IsCharacter (part ++ more)) (hpart : part ≠ []) (hmore : more ≠ [])
    (hrest : ∀ b ∈ rest.head?, isTail b = false) :
    validLength (front ++ part ++ rest) = front.length := by
  obtain ⟨s, rfl⟩ := isText_iff.1 hfront
  have hnone : decode (part ++ rest) = ([], part ++ rest) := by
    rw [decode]
    split
    · rfl
    · next hsome => rw [step_of_truncated h hpart hmore hrest] at hsome; cases hsome
  rw [validLength, List.append_assoc, decode_encode_append, hnone, List.length_append]
  dsimp only
  omega

end GoOutline.Text.Utf8
