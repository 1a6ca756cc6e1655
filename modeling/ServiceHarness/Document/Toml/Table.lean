import ServiceHarness.Document.Toml.Scalar

/-!
# Tables

Statements build up one table.  A dotted key or a header names tables on its
way and makes those that do not exist yet.  A table can be written only once: a
header may complete a table that was only named by longer headers, a dotted key
one that was only named by dotted keys.
-/

namespace ServiceHarness.Document.Toml

open ServiceHarness.Text

structure Key where
  chars : List Char
  span : Span
  deriving DecidableEq, Repr

abbrev Members := List (Member Datum)

structure Table where
  origin : Origin
  members : Members
  deriving Repr

def Table.empty : Table := ⟨.written, []⟩

def Key.fault (k : Key) (problem : Problem) : Fault := ⟨problem, k.span⟩

def maxPath : Nat := 80

namespace Table

def find? (t : Table) (key : List Char) : Option (Member Datum) :=
  t.members.find? fun m => m.key = key

def insert (t : Table) (m : Member Datum) : Table :=
  { t with members := m :: t.members }

def erase (t : Table) (key : List Char) : Table :=
  { t with members := t.members.filter fun m => m.key ≠ key }

def replace (t : Table) (key : List Char) (value : Datum) : Table :=
  { t with members := t.members.map fun m =>
      if m.key = key then { m with content.value := value } else m }

end Table

abbrev Built := Except Fault Table

/-- The table that a value on a path leads to, and how to put it back. -/
def enter (dotted : Bool) (k : Key) (value : Datum) :
    Except Fault (Table × (Table → Datum)) :=
  match value with
  | .table origin members =>
      if origin.inline then .error (k.fault (.notExtensible "inline table"))
      else if dotted ∧ !origin.implied then .error (k.fault .duplicateKey)
      else .ok (⟨origin, members⟩, fun t => .table t.origin t.members)
  | .tables (⟨span, .table origin members⟩ :: earlier) =>
      .ok (⟨origin, members⟩, fun t => .tables (⟨span, .table t.origin t.members⟩ :: earlier))
  | value => .error (k.fault (.notExtensible value.kind))

/-- Changes the table at the end of a path; tables that are missing on the way
are made. -/
def Table.atPath (dotted : Bool) (change : Table → Built) : List Key → Table → Built
  | [], t => change t
  | k :: path, t =>
      match t.find? k.chars with
      | none => do
          let child ← Table.atPath dotted change path ⟨.implicit dotted, []⟩
          return t.insert ⟨k.chars, k.span, ⟨k.span, .table child.origin child.members⟩⟩
      | some m => do
          let (child, back) ← enter dotted k m.content.value
          let child ← Table.atPath dotted change path child
          return t.replace k.chars (back child)

def Table.descend (dotted : Bool) (path : List Key) (change : Table → Built) (t : Table) : Built :=
  match path with
  | [] => change t
  | k :: _ =>
      if maxPath ≤ path.length then .error (k.fault .pathTooLong)
      else t.atPath dotted change path

def Table.assign (t : Table) (path : List Key) (k : Key) (content : Located Datum) : Built :=
  let dotted := !path.isEmpty
  t.descend dotted path fun parent =>
    if parent.origin.dotted ≠ dotted then .error (k.fault .duplicateKey)
    else
      match parent.find? k.chars with
      | some _ => .error (k.fault .duplicateKey)
      | none => .ok (parent.insert ⟨k.chars, k.span, content⟩)

def Raw.decodedKey (r : Raw) : Except Fault Key := do
  return ⟨← r.decodeKey, r.span⟩

def decodePath (done : List Key) : List Raw → Except Fault (List Key × Option Key)
  | [] =>
      match done with
      | [] => .ok ([], none)
      | last :: path => .ok (path.reverse, some last)
  | r :: rest =>
      match r.decodedKey with
      | .error fault => .error fault
      | .ok k => decodePath (k :: done) rest

def Table.assignRaw (t : Table) (path : List Raw) (content : Except Fault (Located Datum)) :
    Built :=
  match decodePath [] path with
  | .error fault => .error fault
  | .ok (_, none) => .ok t
  | .ok (keys, some key) =>
      match content with
      | .error fault => .error fault
      | .ok content => t.assign keys key content

mutual

def Value.decode : Value → Except Fault (Located Datum)
  | .scalar raw => raw.decodeScalar.map fun datum => ⟨raw.span, datum⟩
  | .array span items => (decodeItems [] items).map fun data => ⟨span, .array data⟩
  | .inline span entries =>
      (decodeEntries .empty entries).map fun t =>
        ⟨span, .table { t.origin with inline := true } t.members⟩

def decodeItems (done : List (Located Datum)) : List Value → Except Fault (List (Located Datum))
  | [] => .ok done.reverse
  | v :: rest =>
      match v.decode with
      | .error fault => .error fault
      | .ok datum => decodeItems (datum :: done) rest

def decodeEntries (t : Table) : List (Assignment Value) → Built
  | [] => .ok t
  | ⟨path, v⟩ :: rest =>
      match t.assignRaw path v.decode with
      | .error fault => .error fault
      | .ok t => decodeEntries t rest

end

end ServiceHarness.Document.Toml
