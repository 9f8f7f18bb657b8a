/-!
# Similar words

Two words are compared by the characters they share at nearly the same places, and by how many of
those are out of order: the similarity of words with `a` and `b` characters, `m` of them shared and
`t` pairs out of order, is the mean of `m / a`, `m / b` and `(m - t) / m`. Words are similar enough
to be suggested for each other above seven tenths.

## Main definitions

* `Similarity.shared`: the shared characters of two words
* `Similarity.score`: the similarity as a fraction
* `Similarity.similarTo`: the similar ones among some words, the most similar last
-/

namespace GoOutline.Similarity

/-- A fraction. -/
structure Fraction where
  numerator : Nat
  denominator : Nat
  deriving DecidableEq, Repr, Inhabited

/-- One fraction is less than another or equal to it. -/
def Fraction.le (x y : Fraction) : Bool :=
  x.numerator * y.denominator ≤ y.numerator * x.denominator

/-- One fraction is less than another. -/
def Fraction.lt (x y : Fraction) : Bool :=
  x.numerator * y.denominator < y.numerator * x.denominator

/-- How far apart a character may stand in two words that share it. -/
def reach (a b : List Char) : Nat := max a.length b.length / 2 - 1

/-- The place of the first character of a word that is `c`, lies between two places and is not
taken. -/
def findPlace (c : Char) (low high : Nat) (taken : List Nat) : Nat → List Char → Option Nat
  | _, [] => none
  | j, d :: rest =>
    if j < high && low ≤ j && c == d && !taken.contains j then some j
    else findPlace c low high taken (j + 1) rest

/-- The characters of a word, from place `i` on, that another word shares, with the places they take
in it. -/
def shared (range : Nat) (b : List Char) : Nat → List Nat → List Char → List (Char × Nat)
  | _, _, [] => []
  | i, taken, c :: rest =>
    match findPlace c (i - range) (min b.length (i + range + 1)) taken 0 b with
    | some j => (c, j) :: shared range b (i + 1) (j :: taken) rest
    | none => shared range b (i + 1) taken rest

/-- The similarity of two words. -/
def score (a b : List Char) : Fraction :=
  let matched := shared (reach a b) b 0 [] a
  let m := matched.length
  let places := (matched.map (·.2)).mergeSort (· ≤ ·)
  let inOrder := places.filterMap fun j => b[j]?
  let t := ((matched.map (·.1)).zip inOrder).countP (fun (x, y) => x != y) / 2
  if a.isEmpty && b.isEmpty then ⟨1, 1⟩
  else if m = 0 then ⟨0, 1⟩
  else
    ⟨m * m * b.length + m * m * a.length + (m - t) * a.length * b.length,
      3 * a.length * b.length * m⟩

/-- The least similarity that is not enough to suggest a word. -/
def threshold : Fraction := ⟨7, 10⟩

/-- The words that are similar to a word, the most similar last. -/
def similarTo (word : String) (words : List String) : List String :=
  let scored := words.map fun w => (score word.toList w.toList, w)
  let close := scored.filter fun (s, _) => threshold.lt s
  (close.mergeSort fun x y => x.1.le y.1).map (·.2)

end GoOutline.Similarity
