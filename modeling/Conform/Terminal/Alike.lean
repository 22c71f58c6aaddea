/-!
# Words that are alike

Whether a word may have been meant as another. Equal characters of the two words are partners where
they stand about as far from the start; how many there are, and whether they come in the same
order, says how much the words are alike.
-/

namespace Conform.Terminal

/-- How far from the start partners may stand apart. -/
def reach (word other : List Char) : Nat :=
  max word.length other.length / 2 - 1

/-- The first place in `other` where the character at `place` has a partner, those in `taken` left
out. -/
def partner? (other : List Char) (reach : Nat) (taken : List Nat) (c : Char) (place : Nat) :
    Option Nat :=
  (other.zipIdx.find? fun (d, i) =>
    c = d && place ≤ i + reach && i ≤ place + reach && i ∉ taken).map Prod.snd

/-- The characters of `word` that have a partner in `other`, each with the place of its partner. The
characters choose in their order, and no two the same. -/
def partners (word other : List Char) : List (Char × Nat) :=
  word.zipIdx.foldl
    (fun found (c, place) =>
      match partner? other (reach word other) (found.map Prod.snd) c place with
      | some i => found ++ [(c, i)]
      | none => found)
    []

/-- How many pairs of partners would have to change places for all of them to come in the same order
in both words: half as many as stand out of order. -/
def transpositions (found : List (Char × Nat)) (other : List Char) : Nat :=
  let ordered := (other.zipIdx.filter fun (_, i) => i ∈ found.map Prod.snd).map Prod.fst
  ((found.map Prod.fst).zip ordered).countP (fun (c, d) => c ≠ d) / 2

/-- Whether two words are alike: the mean of three shares is at least seven tenths. They are the
share of each word's characters that have partners, and the share of the partners that come in the
same order. -/
def alike (word other : String) : Bool :=
  let w := word.toList
  let o := other.toList
  let found := partners w o
  let n := found.length
  n ≠ 0 &&
    21 * (n * w.length * o.length) ≤
      10 * (n * n * o.length + n * n * w.length +
        (n - transpositions found o) * w.length * o.length)

end Conform.Terminal
