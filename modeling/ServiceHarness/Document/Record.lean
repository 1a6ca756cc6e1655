/-!
# Records

Both kinds of record in a description have three fields.  A draft holds the
fields read so far.
-/

namespace ServiceHarness.Document

structure RecordNames where
  title : String
  first : String
  second : String
  third : String
  deriving DecidableEq, Repr

namespace RecordNames

def fields (names : RecordNames) : List String :=
  [names.first, names.second, names.third]

end RecordNames

def serviceNames : RecordNames :=
  ⟨"ServiceDescription", "package", "service", "methods"⟩

def methodNames : RecordNames :=
  ⟨"MethodDescription", "name", "request_type", "response_type"⟩

structure Draft (α β γ : Type) where
  first : Option α
  second : Option β
  third : Option γ
  deriving DecidableEq, Repr

namespace Draft

variable {α β γ : Type}

def empty : Draft α β γ := ⟨none, none, none⟩

def finish (names : RecordNames) (d : Draft α β γ) : Except String (α × β × γ) :=
  match d.first, d.second, d.third with
  | some a, some b, some c => .ok (a, b, c)
  | none, _, _ => .error names.first
  | some _, none, _ => .error names.second
  | some _, some _, none => .error names.third

end Draft

end ServiceHarness.Document
