import ServiceHarness.Document.Toml.Fault

/-!
# Data

The values of a document.  Numbers keep their digits, for their size matters
only to the report of a value that is not wanted; of a date or time nothing is
kept.
-/

namespace ServiceHarness.Document.Toml

inductive FloatForm where
  | infinite
  | notANumber
  | decimal (whole fraction : List Char) (downward : Bool) (exponent : List Char)
  deriving DecidableEq, Repr

structure Located (δ : Type) where
  span : Span
  value : δ
  deriving DecidableEq, Repr

structure Member (δ : Type) where
  key : List Char
  keySpan : Span
  content : Located δ
  deriving DecidableEq, Repr

/-- How a table came to be.  An `implied` table was only named on the way to
another one, `dotted` tells whether by a dotted key. -/
structure Origin where
  implied : Bool
  dotted : Bool
  inline : Bool
  deriving DecidableEq, Repr

def Origin.written : Origin := ⟨false, false, false⟩

def Origin.implicit (dotted : Bool) : Origin := ⟨true, dotted, false⟩

/-- The items of an array are in order, those of an array of tables in reverse. -/
inductive Datum where
  | string (chars : List Char)
  | integer (negative : Bool) (radix : Radix) (digits : List Char)
  | float (negative : Bool) (form : FloatForm)
  | boolean (b : Bool)
  | moment
  | array (items : List (Located Datum))
  | tables (reversed : List (Located Datum))
  | table (origin : Origin) (members : List (Member Datum))
  deriving Repr

def Datum.kind : Datum → String
  | string _ => "string"
  | integer _ _ _ => "integer"
  | float _ _ => "float"
  | boolean _ => "boolean"
  | moment => "datetime"
  | array _ => "array"
  | tables _ => "array"
  | table _ _ => "inline table"

end ServiceHarness.Document.Toml
