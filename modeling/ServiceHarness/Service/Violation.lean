import ServiceHarness.Service.Basic

/-!
# Structural rules

A description is valid if its package, its service name and its method list
are not empty and every method has a name, a request type and a response type.
`Service.violations` lists every broken rule: first the three rules on the
service, then the missing names, the missing request types and the missing
response types, each group in declaration order.
-/

namespace ServiceHarness

/-- A broken rule.  An `index` is the position of a method, counted from zero. -/
inductive Violation where
  | emptyPackage
  | emptyServiceName
  | noMethods
  | emptyMethodName (index : Nat)
  | emptyRequestType (index : Nat) (method : String)
  | emptyResponseType (index : Nat) (method : String)
  deriving DecidableEq, Repr

namespace Violation

def message : Violation → String
  | emptyPackage => "package identifier is empty"
  | emptyServiceName => "service name is empty"
  | noMethods => "service declares no methods"
  | emptyMethodName index => "method #" ++ toString index ++ " has an empty name"
  | emptyRequestType index method =>
      "method #" ++ toString index ++ " (" ++ method ++ ") has an empty request type"
  | emptyResponseType index method =>
      "method #" ++ toString index ++ " (" ++ method ++ ") has an empty response type"

end Violation

namespace Service

def methodViolations (broken : Method → Bool) (violation : Nat → Method → Violation)
    (methods : List Method) : List Violation :=
  methods.zipIdx.filterMap fun (method, index) =>
    if broken method then some (violation index method) else none

def violations (s : Service) : List Violation :=
  (if s.package = "" then [.emptyPackage] else []) ++
  (if s.name = "" then [.emptyServiceName] else []) ++
  (if s.methods = [] then [.noMethods] else []) ++
  methodViolations (·.name == "") (fun index _ => .emptyMethodName index) s.methods ++
  methodViolations (·.request == "")
    (fun index method => .emptyRequestType index method.name) s.methods ++
  methodViolations (·.response == "")
    (fun index method => .emptyResponseType index method.name) s.methods

def validate (s : Service) : Except Violation Unit :=
  match s.violations with
  | [] => .ok ()
  | violation :: _ => .error violation

end Service

/-- A description that breaks no rule. -/
structure ValidService where
  service : Service
  valid : service.violations = []
  deriving DecidableEq

namespace ValidService

def ofService (s : Service) : Except Violation ValidService :=
  match h : s.violations with
  | [] => .ok ⟨s, h⟩
  | violation :: _ => .error violation

def package (v : ValidService) : String := v.service.package

def name (v : ValidService) : String := v.service.name

def methods (v : ValidService) : List Method := v.service.methods

end ValidService

end ServiceHarness
