/-!
# UTF-8

Source files are bytes. `Utf8.step` reads one character off the front of a byte sequence when a
complete, shortest-form encoding of a code point outside the surrogates stands there;
`Utf8.decode` repeats it and returns the characters together with the bytes it could not read, so
that the first bad byte of a file is known by what is left.

## Main definitions

* `Utf8.encodeChar`, `Utf8.encode`: the bytes of characters
* `Utf8.step`: one character off the front
* `Utf8.decode`: all characters, and the unread rest
* `Utf8.validLength`: how many bytes the longest readable part takes
-/

namespace GoOutline.Text.Utf8

/-- The number of bytes of a character's encoding. -/
def width (c : Char) : Nat :=
  if c.toNat < 0x80 then 1 else if c.toNat < 0x800 then 2 else if c.toNat < 0x10000 then 3 else 4

/-- The bytes of one character. -/
def encodeChar (c : Char) : List UInt8 :=
  let n := c.toNat
  if n < 0x80 then [n.toUInt8]
  else if n < 0x800 then [(0xC0 + n / 64).toUInt8, (0x80 + n % 64).toUInt8]
  else if n < 0x10000 then
    [(0xE0 + n / 4096).toUInt8, (0x80 + n / 64 % 64).toUInt8, (0x80 + n % 64).toUInt8]
  else
    [(0xF0 + n / 262144).toUInt8, (0x80 + n / 4096 % 64).toUInt8, (0x80 + n / 64 % 64).toUInt8,
      (0x80 + n % 64).toUInt8]

/-- The bytes of a text. -/
def encode (s : List Char) : List UInt8 := s.flatMap encodeChar

/-- The byte continues a character. -/
def isTail (b : UInt8) : Bool := 0x80 ≤ b && b ≤ 0xBF

/-- The six low bits of a continuation byte. -/
def tailBits (b : UInt8) : Nat := b.toNat - 0x80

/-- The second byte `b` may follow the lead byte `a` of a sequence of three bytes: this leaves out
overlong forms and surrogates. -/
def secondOfThree (a b : UInt8) : Bool :=
  if a == 0xE0 then 0xA0 ≤ b && b ≤ 0xBF
  else if a == 0xED then 0x80 ≤ b && b ≤ 0x9F
  else isTail b

/-- The second byte `b` may follow the lead byte `a` of a sequence of four bytes: this leaves out
overlong forms and what lies above the last code point. -/
def secondOfFour (a b : UInt8) : Bool :=
  if a == 0xF0 then 0x90 ≤ b && b ≤ 0xBF
  else if a == 0xF4 then 0x80 ≤ b && b ≤ 0x8F
  else isTail b

/-- The character at the front of the bytes and the bytes after it, when one is complete there. -/
def step : List UInt8 → Option (Char × List UInt8)
  | [] => none
  | a :: r =>
    if a < 0x80 then some (Char.ofNat a.toNat, r)
    else if a < 0xC2 then none
    else if a < 0xE0 then
      match r with
      | b :: r =>
        if isTail b then some (Char.ofNat ((a.toNat - 0xC0) * 64 + tailBits b), r) else none
      | [] => none
    else if a < 0xF0 then
      match r with
      | b :: c :: r =>
        if secondOfThree a b && isTail c then
          some (Char.ofNat ((a.toNat - 0xE0) * 4096 + tailBits b * 64 + tailBits c), r)
        else none
      | _ => none
    else if a < 0xF5 then
      match r with
      | b :: c :: d :: r =>
        if secondOfFour a b && isTail c && isTail d then
          some (Char.ofNat ((a.toNat - 0xF0) * 262144 + tailBits b * 4096 + tailBits c * 64 +
            tailBits d), r)
        else none
      | _ => none
    else none

/-- A step leaves fewer bytes than it was given. -/
theorem step_length {bs : List UInt8} {c : Char} {r : List UInt8} (h : step bs = some (c, r)) :
    r.length < bs.length := by
  unfold step at h
  repeat' split at h
  all_goals simp only [reduceCtorEq, Option.some.injEq, Prod.mk.injEq] at h
  all_goals obtain ⟨-, rfl⟩ := h
  all_goals simp
  all_goals omega

/-- The characters of the longest readable part, and the bytes from the first unreadable one on. -/
def decode (bs : List UInt8) : List Char × List UInt8 :=
  match h : step bs with
  | none => ([], bs)
  | some (c, r) =>
    have := step_length h
    let (cs, rest) := decode r
    (c :: cs, rest)
termination_by bs.length

/-- The number of bytes before the first one that is not part of a character. -/
def validLength (bs : List UInt8) : Nat := bs.length - (decode bs).2.length

end GoOutline.Text.Utf8
