import ServiceHarness.Document.Toml.Assembly
import ServiceHarness.Document.Toml.Number
import ServiceHarness.Document.Record
import ServiceHarness.Service.Basic

/-!
# Reading descriptions from TOML

A record is a table with exactly its fields, or an array of their values in
declaration order.  The members of a table are looked at in the order of their
keys; fields that are missing come last.
-/

namespace ServiceHarness.Document.Toml

open ServiceHarness.Text

def Datum.found : Datum → Except Problem Found
  | .string chars => .ok (.string chars)
  | .integer negative radix digits =>
      match (integerValue? negative radix digits).bind integerFound with
      | some found => .ok found
      | none => .error .integerTooLarge
  | .float negative form =>
      match floatText negative form with
      | some text => .ok (.float text)
      | none => .error .floatTooLarge
  | .boolean b => .ok (.boolean b)
  | .moment => .ok .map
  | .array _ => .ok .sequence
  | .tables _ => .ok .sequence
  | .table _ _ => .ok .map

def wrongType (wanted : Wanted) (d : Located Datum) : Fault :=
  match d.value.found with
  | .ok found => ⟨.mismatch (.type found wanted), d.span⟩
  | .error problem => ⟨problem, d.span⟩

def readString (d : Located Datum) : Except Fault String :=
  match d.value with
  | .string chars => .ok (String.ofList chars)
  | _ => .error (wrongType .string d)

def keyLe : List Char → List Char → Bool
  | [], _ => true
  | _ :: _, [] => false
  | a :: s, b :: t => if a = b then keyLe s t else a < b

def sortedMembers (members : Members) : Members :=
  members.mergeSort fun m n => keyLe m.key n.key

/-- The key under which a date or time would hold its text. -/
def momentKey : String := "$__toml_private_datetime"

structure RecordForm (α β γ : Type) where
  names : RecordNames
  first : Located Datum → Except Fault α
  second : Located Datum → Except Fault β
  third : Located Datum → Except Fault γ

namespace RecordForm

variable {α β γ : Type}

def readMember (form : RecordForm α β γ) (draft : Draft α β γ) (m : Member Datum) :
    Except Fault (Draft α β γ) := do
  let key := String.ofList m.key
  if key = form.names.first then
    return { draft with first := some (← form.first m.content) }
  else if key = form.names.second then
    return { draft with second := some (← form.second m.content) }
  else if key = form.names.third then
    return { draft with third := some (← form.third m.content) }
  else
    throw ⟨.mismatch (.unknown key form.names.fields), m.keySpan⟩

/-- Reads a record from the members of a table; `span` is where a missing field
is reported. -/
def readTable (form : RecordForm α β γ) (span : Span) (members : Members) :
    Except Fault (α × β × γ) := do
  let draft ← (sortedMembers members).foldlM form.readMember .empty
  match draft.finish form.names with
  | .ok values => return values
  | .error field => throw ⟨.mismatch (.missing field), span⟩

/-- Reads a record from an array; further items are not looked at. -/
def readArray (form : RecordForm α β γ) (span : Span) (items : List (Located Datum)) :
    Except Fault (α × β × γ) := do
  let short := fun count : Nat =>
    (⟨.mismatch (.length count form.names.title 3), span⟩ : Fault)
  match items with
  | [] => throw (short 0)
  | a :: items =>
      let a ← form.first a
      match items with
      | [] => throw (short 1)
      | b :: items =>
          let b ← form.second b
          match items with
          | [] => throw (short 2)
          | c :: _ => return (a, b, ← form.third c)

def read (form : RecordForm α β γ) (d : Located Datum) : Except Fault (α × β × γ) :=
  match d.value with
  | .table _ members => form.readTable d.span members
  | .array items => form.readArray d.span items
  | .tables reversed => form.readArray d.span reversed.reverse
  | .moment => .error ⟨.mismatch (.unknown momentKey form.names.fields), d.span⟩
  | _ => .error (wrongType (.record form.names.title) d)

end RecordForm

def methodForm : RecordForm String String String :=
  ⟨methodNames, readString, readString, readString⟩

def readMethod (d : Located Datum) : Except Fault Method :=
  (methodForm.read d).map fun (name, request, response) => ⟨name, request, response⟩

def readMethodItems (done : List Method) : List (Located Datum) → Except Fault (List Method)
  | [] => .ok done.reverse
  | d :: rest =>
      match readMethod d with
      | .error fault => .error fault
      | .ok m => readMethodItems (m :: done) rest

def readMethods (d : Located Datum) : Except Fault (List Method) :=
  match d.value with
  | .array items => readMethodItems [] items
  | .tables reversed => readMethodItems [] reversed.reverse
  | _ => .error (wrongType .sequence d)

def serviceForm : RecordForm String String (List Method) :=
  ⟨serviceNames, readString, readString, readMethods⟩

/-- The first byte of a text document may be a mark of its encoding. -/
def dropMark : List Char → Nat × List Char
  | '\uFEFF' :: rest => (3, rest)
  | chars => (0, chars)

def readChars (chars : List Char) : Except Fault Service := do
  let (offset, chars) := dropMark chars
  let members ← assemble (← statements (lex offset chars))
  let (package, name, methods) ← serviceForm.readTable (.point 0) members
  return ⟨package, name, methods⟩

def read (bytes : Bytes) : Except String Service :=
  match Utf8.decode bytes with
  | .error fault => .error fault.message
  | .ok chars =>
      match readChars chars with
      | .ok s => .ok s
      | .error fault => .error (fault.message bytes)

end ServiceHarness.Document.Toml
