import ServiceHarness.Document.Json.Number
import ServiceHarness.Document.Json.Text
import ServiceHarness.Document.Record
import ServiceHarness.Service.Basic

/-!
# Reading descriptions from JSON

A record is an object with exactly its fields, in any order, or an array of
their values in declaration order.  Every fault is found in reading order.  A
rule that a whole record breaks is reported behind its closing bracket, one
that a key breaks behind the key.
-/

namespace ServiceHarness.Document.Json

open ServiceHarness.Text

abbrev Read (α : Type) := Except Fault (α × Cursor)

def readWord (found : Found) (c : Cursor) : Bytes → Read Found
  | [] => .ok (found, c)
  | byte :: rest =>
      match c.peek? with
      | none => .error (c.faultHere .endInValue)
      | some next =>
          if next = byte then readWord found c.advance rest
          else .error (c.faultAhead .wantsWord)

def readFound (c : Cursor) : Read Found :=
  match c.peek? with
  | some byte =>
      if byte = 110 then readWord .null c.advance [117, 108, 108]
      else if byte = 116 then readWord (.boolean true) c.advance [114, 117, 101]
      else if byte = 102 then readWord (.boolean false) c.advance [97, 108, 115, 101]
      else if byte = 45 then readNumber true c.advance
      else if isDigitByte byte then readNumber false c
      else if byte = 34 then
        match c.advance.readText with
        | .ok (chars, rest) => .ok (.string chars, rest)
        | .error fault => .error fault
      else if byte = 91 then .ok (.sequence, c)
      else if byte = 123 then .ok (.map, c)
      else .error (c.faultAhead .wantsValue)
  | none => .error (c.faultAhead .wantsValue)

def wrongType (wanted : Wanted) (c : Cursor) : Fault :=
  match readFound c with
  | .ok (found, rest) => rest.faultHere (.mismatch (.type found wanted))
  | .error fault => fault

def readString (c : Cursor) : Read String :=
  let c := c.skipBlanks
  match c.peek? with
  | none => .error (c.faultHere .endInValue)
  | some byte =>
      if byte = 34 then
        match c.advance.readText with
        | .ok (chars, rest) => .ok (String.ofList chars, rest)
        | .error fault => .error fault
      else .error (wrongType .string c)

def nextItem (first : Bool) (c : Cursor) : Except Fault (Bool × Cursor) :=
  let c := c.skipBlanks
  match c.peek? with
  | none => .error (c.faultHere .endInList)
  | some byte =>
      if byte = 93 then .ok (false, c)
      else if first then .ok (true, c)
      else if byte = 44 then
        let c := c.advance.skipBlanks
        match c.peek? with
        | none => .error (c.faultHere .endInValue)
        | some byte =>
            if byte = 93 then .error (c.faultAhead .trailingComma) else .ok (true, c)
      else .error (c.faultAhead .wantsListComma)

def closeArray (c : Cursor) : Except Fault Cursor :=
  let c := c.skipBlanks
  match c.peek? with
  | none => .error (c.faultHere .endInList)
  | some byte =>
      if byte = 93 then .ok c.advance
      else if byte = 44 then
        let c := c.advance.skipBlanks
        .error (c.faultAhead (if c.peek? = some 93 then .trailingComma else .trailingCharacters))
      else .error (c.faultAhead .trailingCharacters)

def nextKey (first : Bool) (c : Cursor) : Except Fault (Bool × Cursor) :=
  let c := c.skipBlanks
  match c.peek? with
  | none => .error (c.faultHere .endInObject)
  | some byte =>
      if byte = 125 then .ok (false, c)
      else if first then
        if byte = 34 then .ok (true, c) else .error (c.faultAhead .keyNotString)
      else if byte = 44 then
        let c := c.advance.skipBlanks
        match c.peek? with
        | none => .error (c.faultHere .endInValue)
        | some byte =>
            if byte = 34 then .ok (true, c)
            else if byte = 125 then .error (c.faultAhead .trailingComma)
            else .error (c.faultAhead .keyNotString)
      else .error (c.faultAhead .wantsObjectComma)

def readColon (c : Cursor) : Except Fault Cursor :=
  let c := c.skipBlanks
  match c.peek? with
  | none => .error (c.faultHere .endInObject)
  | some byte => if byte = 58 then .ok c.advance else .error (c.faultAhead .wantsColon)

/-- Where a refused key is reported: behind the blanks that follow it, and
behind the closing brace if that comes next. -/
def behindKey (c : Cursor) : Cursor :=
  let c := c.skipBlanks
  if c.peek? = some 125 then c.advance else c

/-- A record's names and the readers of its fields. -/
structure RecordForm (α β γ : Type) where
  names : RecordNames
  first : Cursor → Read α
  second : Cursor → Read β
  third : Cursor → Read γ

namespace RecordForm

variable {α β γ : Type}

def readField {τ : Type} (read : Cursor → Read τ) (set : τ → Draft α β γ)
    (name : String) (old : Option τ) (c : Cursor) : Read (Draft α β γ) :=
  match old with
  | some _ => .error ((behindKey c).faultHere (.mismatch (.duplicate name)))
  | none =>
      match readColon c with
      | .error fault => .error fault
      | .ok c =>
          match read c with
          | .error fault => .error fault
          | .ok (value, c) => .ok (set value, c)

def readMember (form : RecordForm α β γ) (draft : Draft α β γ) (key : String)
    (c : Cursor) : Read (Draft α β γ) :=
  if key = form.names.first then
    readField form.first (fun a => { draft with first := some a }) key draft.first c
  else if key = form.names.second then
    readField form.second (fun b => { draft with second := some b }) key draft.second c
  else if key = form.names.third then
    readField form.third (fun x => { draft with third := some x }) key draft.third c
  else
    .error ((behindKey c).faultHere (.mismatch (.unknown key form.names.fields)))

def closeObject (form : RecordForm α β γ) (draft : Draft α β γ) (c : Cursor) :
    Read (α × β × γ) :=
  match draft.finish form.names with
  | .ok values => .ok (values, c.advance)
  | .error field => .error (c.advance.faultHere (.mismatch (.missing field)))

/-- Reads members until the object closes.  Each one fills an empty field, so
that `rounds` need not exceed the number of fields by more than one. -/
def readMembers (form : RecordForm α β γ) (draft : Draft α β γ) (first : Bool) (c : Cursor) :
    (rounds : Nat) → Read (α × β × γ)
  | 0 => .error (c.faultHere .wantsObjectComma)
  | rounds + 1 =>
      match nextKey first c with
      | .error fault => .error fault
      | .ok (false, c) => form.closeObject draft c
      | .ok (true, c) =>
          match c.advance.readText with
          | .error fault => .error fault
          | .ok (key, c) =>
              match form.readMember draft (String.ofList key) c with
              | .error fault => .error fault
              | .ok (draft, c) => form.readMembers draft false c rounds

def readItem {τ : Type} (form : RecordForm α β γ) (read : Cursor → Read τ) (count : Nat)
    (c : Cursor) : Read τ :=
  match nextItem (count == 0) c with
  | .error fault => .error fault
  | .ok (true, c) => read c
  | .ok (false, c) =>
      .error (c.advance.faultHere (.mismatch (.length count form.names.title 3)))

def readItems (form : RecordForm α β γ) (c : Cursor) :
    Except Fault ((α × β × γ) × Cursor) := do
  let (a, c) ← form.readItem form.first 0 c
  let (b, c) ← form.readItem form.second 1 c
  let (x, c) ← form.readItem form.third 2 c
  let c ← closeArray c
  return ((a, b, x), c)

def read (form : RecordForm α β γ) (c : Cursor) : Read (α × β × γ) :=
  let c := c.skipBlanks
  match c.peek? with
  | none => .error (c.faultHere .endInValue)
  | some byte =>
      if byte = 91 then form.readItems c.advance
      else if byte = 123 then form.readMembers .empty true c.advance 4
      else .error (wrongType (.record form.names.title) c)

end RecordForm

def methodForm : RecordForm String String String :=
  ⟨methodNames, readString, readString, readString⟩

def readMethod (c : Cursor) : Read Method :=
  match methodForm.read c with
  | .ok ((name, request, response), c) => .ok (⟨name, request, response⟩, c)
  | .error fault => .error fault

/-- Reads methods up to the closing bracket.  Each one takes bytes, so that
`rounds` need not exceed their number. -/
def readMethodItems (methods : List Method) (c : Cursor) : (rounds : Nat) → Read (List Method)
  | 0 => .error (c.faultHere .endInList)
  | rounds + 1 =>
      match nextItem methods.isEmpty c with
      | .error fault => .error fault
      | .ok (false, c) => .ok (methods.reverse, c.advance)
      | .ok (true, c) =>
          match readMethod c with
          | .error fault => .error fault
          | .ok (m, c) => readMethodItems (m :: methods) c rounds

def readMethods (rounds : Nat) (c : Cursor) : Read (List Method) :=
  let c := c.skipBlanks
  match c.peek? with
  | none => .error (c.faultHere .endInValue)
  | some byte =>
      if byte = 91 then readMethodItems [] c.advance rounds
      else .error (wrongType .sequence c)

def serviceForm (rounds : Nat) : RecordForm String String (List Method) :=
  ⟨serviceNames, readString, readString, readMethods rounds⟩

def read (bytes : Bytes) : Except Fault Service :=
  match (serviceForm (bytes.length + 1)).read (.ofBytes bytes) with
  | .error fault => .error fault
  | .ok ((package, name, methods), c) =>
      let c := c.skipBlanks
      if c.rest = [] then .ok ⟨package, name, methods⟩
      else .error (c.faultAhead .trailingCharacters)

end ServiceHarness.Document.Json
