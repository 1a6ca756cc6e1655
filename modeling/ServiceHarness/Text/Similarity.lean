/-!
# Similar words

The Jaro similarity of two words: characters match if they are equal and not
too far apart, and matched characters in another order count half.  It is the
mean of three fractions, kept here as one exact fraction.
-/

namespace ServiceHarness.Text.Similarity

/-- Looks for a character at the positions from `low` to below `high` that are
not taken; gives its position. -/
def findFree (c : Char) (low high : Nat) (taken : List Nat) : Nat → List Char → Option Nat
  | _, [] => none
  | i, x :: rest =>
      if low ≤ i ∧ i < high ∧ x = c ∧ i ∉ taken then some i
      else findFree c low high taken (i + 1) rest

/-- The matched characters of a word from position `i` on, and the positions in
the other word that they take. -/
def matchFrom (range : Nat) (other : List Char) (i : Nat) (matched : List Char)
    (taken : List Nat) : List Char → List Char × List Nat
  | [] => (matched.reverse, taken)
  | c :: rest =>
      match findFree c (i - range) (i + range + 1) taken 0 other with
      | some j => matchFrom range other (i + 1) (c :: matched) (j :: taken) rest
      | none => matchFrom range other (i + 1) matched taken rest

structure Fraction where
  num : Nat
  den : Nat
  deriving DecidableEq, Repr

def Fraction.lt (x y : Fraction) : Bool := x.num * y.den < y.num * x.den

def jaro (a b : List Char) : Fraction :=
  let range := max a.length b.length / 2 - 1
  let (matched, taken) := matchFrom range b 0 [] [] a
  let m := matched.length
  if a = [] ∧ b = [] then ⟨1, 1⟩
  else if m = 0 then ⟨0, 1⟩
  else
    let inOrder := (b.zipIdx.filter fun (_, j) => taken.contains j).map (·.1)
    let half := ((matched.zip inOrder).filter fun (x, y) => x ≠ y).length / 2
    ⟨m * m * b.length + m * m * a.length + (m - half) * a.length * b.length,
      3 * a.length * b.length * m⟩

def threshold : Fraction := ⟨7, 10⟩

/-- Adds a candidate behind those that are not more similar. -/
def insertCandidate (x : Fraction × String) :
    List (Fraction × String) → List (Fraction × String)
  | [] => [x]
  | y :: rest => if x.1.lt y.1 then x :: y :: rest else y :: insertCandidate x rest

def similarWords (word : String) (known : List String) : List String :=
  let scored := known.map fun k => (jaro word.toList k.toList, k)
  ((scored.filter fun x => threshold.lt x.1).foldl (fun found x => insertCandidate x found) []).map
    (·.2)

end ServiceHarness.Text.Similarity
