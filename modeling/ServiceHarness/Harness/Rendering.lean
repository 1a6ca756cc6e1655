import ServiceHarness.Service.Violation
import ServiceHarness.Text.Quoted
import ServiceHarness.Harness.Skeleton
import ServiceHarness.Harness.Naming

/-!
# Rendering

A harness is the opening, one case per method, the end of the switch, and one
procedure per method with a blank line between two of them, all in declaration
order.
-/

namespace ServiceHarness.Harness

def fileValue (s : Service) : FileSlot → String
  | .package => s.package
  | .service => s.name

def methodValue (s : Service) (m : Method) : MethodSlot → String
  | .service => s.name
  | .name => m.name
  | .key => Text.Quoted.literal m.name
  | .request => m.request
  | .response => m.response

def openingLines (s : Service) : List String :=
  opening.map (Line.fill (fileValue s))

def caseLines (s : Service) (m : Method) : List String :=
  dispatchCase.map (Line.fill (methodValue s m))

def dispatchEndLines (s : Service) : List String :=
  dispatchEnd.map (Line.fill (fileValue s))

def procedureLines (s : Service) (m : Method) : List String :=
  procedure.map (Line.fill (methodValue s m))

def harnessLines (s : Service) : List String :=
  openingLines s ++ s.methods.flatMap (caseLines s) ++ dispatchEndLines s ++
    [""].intercalate (s.methods.map (procedureLines s))

def harnessText (s : Service) : String :=
  joinLines (harnessLines s)

def render (v : ValidService) : Except NamingError String := do
  checkNames v.service
  return harnessText v.service

end ServiceHarness.Harness
