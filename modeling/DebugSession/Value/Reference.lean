import DebugSession.Config
import DebugSession.Identity

namespace DebugSession

structure ValueFlags where
  readOnly : Bool := false
  field : Bool := false
  property : Bool := false
  localVariable : Bool := false
  parameter : Bool := false
  literal : Bool := false
  arrayElement : Bool := false
  deriving DecidableEq, Repr, Inhabited

namespace ValueFlags

def union (a b : ValueFlags) : ValueFlags where
  readOnly := a.readOnly || b.readOnly
  field := a.field || b.field
  property := a.property || b.property
  localVariable := a.localVariable || b.localVariable
  parameter := a.parameter || b.parameter
  literal := a.literal || b.literal
  arrayElement := a.arrayElement || b.arrayElement

def contains (a b : ValueFlags) : Bool := a.union b == a

end ValueFlags

structure EvaluationContext where
  evaluator : EvaluatorId := .nameResolving
  scope : TargetValue
  options : EvaluationOptions
  timeout : Nat
  output : RouterId
  deriving DecidableEq, Repr, Inhabited

inductive ValueOrigin
  | slot (slot : Slot)
  | literal (value : TargetValue)
  deriving DecidableEq, Repr

structure Reference where
  context : EvaluationContext
  name : String
  flags : ValueFlags
  origin : ValueOrigin
  deriving DecidableEq, Repr

def Reference.literal (context : EvaluationContext) (name : String) (value : TargetValue) :
    Reference :=
  ⟨context, name, { literal := true, readOnly := true }, .literal value⟩

end DebugSession
