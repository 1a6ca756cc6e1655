import ServiceHarness.Document.Toml.Table

/-!
# Assembly

Statements are put together in order.  What follows a header goes into a table
of its own, which is put into its place when the next header or the end of the
document comes.
-/

namespace ServiceHarness.Document.Toml

open ServiceHarness.Text

structure Header where
  array : Bool
  span : Span
  path : List Key
  key : Key
  deriving DecidableEq, Repr

structure Assembly where
  root : Table
  current : Table
  header : Option Header
  deriving Repr

namespace Assembly

def init : Assembly := ⟨.empty, .empty, none⟩

def addToTables (h : Header) (t : Table) (parent : Table) : Built :=
  let item : Located Datum := ⟨h.span, .table t.origin t.members⟩
  match parent.find? h.key.chars with
  | none =>
      .ok (parent.insert ⟨h.key.chars, h.key.span, ⟨h.span, .tables [item]⟩⟩)
  | some m =>
      match m.content.value with
      | .tables earlier =>
          .ok (parent.replace h.key.chars (.tables (item :: earlier)))
      | _ => .error (h.key.fault .duplicateKey)

def addTable (h : Header) (t : Table) (parent : Table) : Built :=
  .ok ((parent.erase h.key.chars).insert
    ⟨h.key.chars, h.key.span, ⟨h.span, .table t.origin t.members⟩⟩)

def close (a : Assembly) : Except Fault Assembly :=
  match a.header with
  | none => .ok { a with root := a.current, current := .empty }
  | some h =>
      let add := if h.array then addToTables h a.current else addTable h a.current
      (a.root.descend false h.path add).map fun root => ⟨root, .empty, none⟩

def reopen (key : Key) (parent : Table) : Except Fault Members :=
  match parent.find? key.chars with
  | none => .ok []
  | some m =>
      match m.content.value with
      | .table origin members =>
          if origin.implied ∧ !origin.dotted then .ok members
          else .error (key.fault .duplicateKey)
      | _ => .error (key.fault .duplicateKey)

def lookUp (path : List Key) (root : Table) : Except Fault (Table × Table) := do
  let root ← root.descend false path .ok
  let rec go : List Key → Table → Except Fault Table
    | [], t => .ok t
    | k :: rest, t =>
        match t.find? k.chars with
        | none => .ok .empty
        | some m => do
            let (child, _) ← enter false k m.content.value
            go rest child
  return (root, ← go path root)

def startHeader (a : Assembly) (array : Bool) (span : Span) (path : List Key) (key : Key) :
    Except Fault Assembly := do
  let h : Header := ⟨array, span, path, key⟩
  if array then return { a with current := .empty, header := some h }
  let (root, parent) ← lookUp path a.root
  let members ← reopen key parent
  return ⟨root, ⟨.written, members⟩, some h⟩

def add (a : Assembly) (s : Statement) : Except Fault Assembly :=
  match s with
  | .assign ⟨path, v⟩ =>
      (a.current.assignRaw path v.decode).map fun current => { a with current := current }
  | .header array span path => do
      let a ← a.close
      match ← decodePath [] path with
      | (_, none) => return a
      | (keys, some key) => a.startHeader array span keys key

end Assembly

def assemble (statements : List Statement) : Except Fault Members := do
  let a ← statements.foldlM Assembly.add .init
  return (← a.close).root.members

end ServiceHarness.Document.Toml
