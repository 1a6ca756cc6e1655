import ServiceHarness.Service.Basic
import ServiceHarness.Harness.Identifier

/-!
# Names that can be rendered

Every name of a description is spliced into Go source, so each has to be an
identifier.  Message types must not meet a name of the harness itself, and two
methods must not share a name, since each one is a case of a switch and a
method of the runner.  `checkNames` reports the first name that fails.
-/

namespace ServiceHarness.Harness

inductive Field where
  | package
  | service
  | methodName
  | requestType
  | responseType
  deriving DecidableEq, Repr

def Field.label : Field → String
  | package => "package identifier"
  | service => "service name"
  | methodName => "method name"
  | requestType => "request type"
  | responseType => "response type"

inductive NamingError where
  | invalidIdentifier (field : Field) (value : String)
  | reservedName (field : Field) (value : String)
  | duplicateMethod (name : String)
  deriving DecidableEq, Repr

def NamingError.message : NamingError → String
  | invalidIdentifier field value =>
      field.label ++ " `" ++ value ++ "` is not a valid Go identifier"
  | reservedName field value =>
      field.label ++ " `" ++ value ++ "` collides with a name declared by the harness"
  | duplicateMethod name => "method " ++ name ++ " is declared more than once"

def requireIdentifier (field : Field) (value : String) : Except NamingError Unit :=
  if isIdentifier value then .ok () else .error (.invalidIdentifier field value)

def requireTypeName (field : Field) (value : String) : Except NamingError Unit := do
  requireIdentifier field value
  if isHarnessName value then throw (.reservedName field value)

/-- One method, where `seen` holds the names of the earlier ones. -/
def checkMethod (seen : List String) (m : Method) : Except NamingError Unit := do
  requireIdentifier .methodName m.name
  requireTypeName .requestType m.request
  requireTypeName .responseType m.response
  if seen.contains m.name then throw (.duplicateMethod m.name)

def checkMethods (seen : List String) : List Method → Except NamingError Unit
  | [] => .ok ()
  | m :: rest => do
      checkMethod seen m
      checkMethods (m.name :: seen) rest

def checkNames (s : Service) : Except NamingError Unit := do
  requireIdentifier .package s.package
  requireIdentifier .service s.name
  checkMethods [] s.methods

end ServiceHarness.Harness
