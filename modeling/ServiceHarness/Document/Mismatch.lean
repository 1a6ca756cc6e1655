import ServiceHarness.Text.Shown

/-!
# Values of the wrong shape

A document that is well formed can still hold something else than a
description.  These are the ways, which both formats share, and their texts.
-/

namespace ServiceHarness.Document

open ServiceHarness.Text

/-- What stands in the document.  A `float` comes with its text, which each
format writes in its own way. -/
inductive Found where
  | null
  | boolean (b : Bool)
  | integer (n : Int)
  | wideInteger (n : Int) (width : String)
  | float (text : String)
  | string (chars : List Char)
  | sequence
  | map
  deriving DecidableEq, Repr

def Found.label : Found → String
  | null => "null"
  | boolean b => "boolean `" ++ (if b then "true" else "false") ++ "`"
  | integer n => "integer `" ++ toString n ++ "`"
  | wideInteger n width => "integer `" ++ toString n ++ "` as " ++ width
  | float text => "floating point `" ++ text ++ "`"
  | string chars => "string " ++ Shown.quote chars
  | sequence => "sequence"
  | map => "map"

inductive Wanted where
  | string
  | sequence
  | record (title : String)
  deriving DecidableEq, Repr

def Wanted.label : Wanted → String
  | string => "a string"
  | sequence => "a sequence"
  | record title => "struct " ++ title

inductive Mismatch where
  | type (found : Found) (wanted : Wanted)
  | length (count : Nat) (title : String) (fields : Nat)
  | missing (field : String)
  | duplicate (field : String)
  | unknown (field : String) (known : List String)
  deriving DecidableEq, Repr

def fieldList (known : List String) : String :=
  ", ".intercalate (known.map fun field => "`" ++ field ++ "`")

def Mismatch.message : Mismatch → String
  | type found wanted =>
      "invalid type: " ++ found.label ++ ", expected " ++ wanted.label
  | length count title fields =>
      "invalid length " ++ toString count ++ ", expected struct " ++ title ++
        " with " ++ toString fields ++ " elements"
  | missing field => "missing field `" ++ field ++ "`"
  | duplicate field => "duplicate field `" ++ field ++ "`"
  | unknown field known =>
      "unknown field `" ++ field ++ "`, expected one of " ++ fieldList known

end ServiceHarness.Document
