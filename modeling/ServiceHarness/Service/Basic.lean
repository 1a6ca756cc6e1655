/-!
# Services

A service description: the package the harness is declared in, the name of the
service, and its methods in declaration order.
-/

namespace ServiceHarness

structure Method where
  name : String
  request : String
  response : String
  deriving DecidableEq, Repr, Inhabited

structure Service where
  package : String
  name : String
  methods : List Method
  deriving DecidableEq, Repr, Inhabited

def Service.methodNames (s : Service) : List String :=
  s.methods.map Method.name

end ServiceHarness
