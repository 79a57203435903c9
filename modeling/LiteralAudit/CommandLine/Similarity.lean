import LiteralAudit.Binary64
import LiteralAudit.Text

/-!
How alike two words are. Two equal characters match if they stand at most a
window apart, and each character matches once. The similarity is the mean of
three shares: of the characters of either word that match, and of the matches
that come in the same order in both words. It is worked out in binary numbers,
share by share, so a mean of seven tenths may come out a little above that.
-/

namespace LiteralAudit.Similarity

/-- How far apart matching characters may stand. -/
def window (a b : Text) : Nat := max a.length b.length / 2 - 1

/-- The first free place in `places` of the given character, within the window
around `i`. A place is a character, its index and whether it is taken. -/
def freePlace? (reach i : Nat) (c : Char) (places : List (Char × Nat × Bool)) : Option Nat :=
  (places.find? fun (d, j, taken) => !taken && d = c && i ≤ j + reach && j ≤ i + reach).map
    fun (_, j, _) => j

/-- Matches the characters of a word, from index `i` on, with free places. The
answer has the characters that matched, and the places with those that they
took. -/
def matchFrom (reach : Nat) : Nat → Text → List (Char × Nat × Bool) →
    Text × List (Char × Nat × Bool)
  | _, [], places => ([], places)
  | i, c :: rest, places =>
    match freePlace? reach i c places with
    | none => matchFrom reach (i + 1) rest places
    | some j =>
      let taken := places.map fun (d, k, t) => (d, k, t || k == j)
      let (matched, places) := matchFrom reach (i + 1) rest taken
      (c :: matched, places)

/-- The mean of three shares, each given as a part and a whole. -/
def mean? (first second third : Nat × Nat) : Option Binary64 := do
  let a ← Binary64.nearest? first.1 first.2
  let b ← Binary64.nearest? second.1 second.2
  let c ← Binary64.nearest? third.1 third.2
  (← (← a.add? b).add? c).div? (← Binary64.ofNat? 3)

/-- The similarity of two words; words without a match have none. -/
def between (a b : Text) : Binary64 :=
  let places := b.zipIdx.map fun (c, j) => (c, j, false)
  let (matched, places) := matchFrom (window a b) 0 a places
  let partners := (places.filter fun (_, _, taken) => taken).map fun (c, _, _) => c
  let m := matched.length
  if m = 0 then .zero
  else
    let swapped := ((matched.zip partners).countP fun (c, d) => c ≠ d) / 2
    (mean? (m, a.length) (m, b.length) (m - swapped, m)).getD .zero

/-- Whether two words with this similarity are alike: it is more than seven tenths. -/
def isHigh (similarity : Binary64) : Bool :=
  (Binary64.nearest? 7 10).any fun bound => bound.lt similarity

/-- The word that is most like the given one, if any is like enough; of several, the
last. -/
def best? {α : Type} (name : α → Text) (words : List α) (word : Text) : Option α :=
  let better (best : Option (Binary64 × α)) (a : α) : Option (Binary64 × α) :=
    let similarity := between word (name a)
    if isHigh similarity && best.all fun (s, _) => !similarity.lt s then some (similarity, a)
    else best
  (words.foldl better none).map Prod.snd

end LiteralAudit.Similarity
