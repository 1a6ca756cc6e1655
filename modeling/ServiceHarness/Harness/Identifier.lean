/-!
# Identifiers

The names that may stand in Go source: ASCII letters, digits and underscores
with no digit in front, neither the blank identifier nor a keyword.  ASCII
covers every name that a protocol definition allows.
-/

namespace ServiceHarness.Harness

def isLetter (c : Char) : Bool :=
  ('a' ≤ c && c ≤ 'z') || ('A' ≤ c && c ≤ 'Z')

def isDigit (c : Char) : Bool :=
  '0' ≤ c && c ≤ '9'

def isIdentifierStart (c : Char) : Bool :=
  c == '_' || isLetter c

def isIdentifierPart (c : Char) : Bool :=
  isIdentifierStart c || isDigit c

def keywords : List String :=
  ["break", "case", "chan", "const", "continue", "default", "defer", "else",
    "fallthrough", "for", "func", "go", "goto", "if", "import", "interface",
    "map", "package", "range", "return", "select", "struct", "switch", "type",
    "var"]

def hasIdentifierShape : List Char → Bool
  | [] => false
  | c :: rest => isIdentifierStart c && rest.all isIdentifierPart

def isIdentifier (s : String) : Bool :=
  hasIdentifierShape s.toList && s != "_" && !keywords.contains s

/-- The names that a harness imports, declares at package level or binds in a
procedure.  A message type of such a name would be shadowed or declared twice. -/
def harnessNames : List String :=
  ["codes", "context", "ioutil", "json", "reflect", "status", "testing",
    "NewTestClient", "actionJSONKey", "errorExpectationJSONKey",
    "expectedErrorCodeJSONKey", "expectedResponseJSONKey", "requestJSONKey",
    "actualErrCode", "ctx", "decodeErr", "err", "errCodeF", "errExpectation",
    "expectedErrCode", "expectedRes", "handler", "req", "reqErr", "reqJSON",
    "res", "resErr", "resJSON", "runner", "t", "testCase", "testHandler"]

def isHarnessName (s : String) : Bool :=
  harnessNames.contains s

end ServiceHarness.Harness
