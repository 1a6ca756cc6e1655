/-!
# Templates

A line of a template is a row of fixed texts and slots.  `Line.fill` puts a
value into every slot.  Templates are plain data, so that a property of all
rendered lines can be read off the finitely many template lines and a property
of the values.
-/

namespace ServiceHarness.Harness

inductive Piece (σ : Type) where
  | text (s : String)
  | slot (x : σ)
  deriving DecidableEq, Repr

instance {σ : Type} : Coe String (Piece σ) := ⟨.text⟩

abbrev Line (σ : Type) := List (Piece σ)

namespace Line

variable {σ : Type}

def fillPiece (value : σ → String) : Piece σ → String
  | .text s => s
  | .slot x => value x

def fill (value : σ → String) (line : Line σ) : String :=
  String.join (line.map (fillPiece value))

end Line

/-- Every line of a text ends with a newline, the last one too. -/
def joinLines (lines : List String) : String :=
  String.join (lines.map (· ++ "\n"))

end ServiceHarness.Harness
