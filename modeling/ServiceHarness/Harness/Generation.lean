import ServiceHarness.Document.LoadError
import ServiceHarness.Harness.Rendering

/-!
# Generation

`generate` validates a description and renders its harness.
-/

namespace ServiceHarness.Harness

open ServiceHarness.Document

inductive GenerationError where
  | validation (violation : Violation)
  | load (error : LoadError)
  | naming (error : NamingError)
  | rendering
  deriving DecidableEq, Repr

def GenerationError.message : GenerationError → String
  | validation violation => "invalid service description: " ++ violation.message
  | load error => "cannot load service description: " ++ error.message
  | naming error => error.message
  | rendering => "template rendering failed"

/-- A generator holds the valid description that it renders. -/
structure Generator where
  service : ValidService
  deriving DecidableEq

namespace Generator

def ofService (s : Service) : Except GenerationError Generator :=
  match ValidService.ofService s with
  | .ok v => .ok ⟨v⟩
  | .error violation => .error (.validation violation)

def generate (g : Generator) : Except GenerationError String :=
  match render g.service with
  | .ok text => .ok text
  | .error e => .error (.naming e)

end Generator

def generate (s : Service) : Except GenerationError String := do
  let g ← Generator.ofService s
  g.generate

end ServiceHarness.Harness
