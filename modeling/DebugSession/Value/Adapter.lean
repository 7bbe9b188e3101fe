import DebugSession.Literal
import DebugSession.Value.Node

namespace DebugSession

abbrev Eval (m : Type → Type) := ExceptT EvalError m

inductive Reply (α : Type)
  | now (answer : α)
  | later
  deriving Repr

structure Adapter (m : Type → Type) where
  readSlot : EvaluationContext → Slot → Eval m TargetValue
  slotType : EvaluationContext → Slot → Eval m TargetType
  writeSlot : EvaluationContext → Slot → TargetValue → Eval m Unit
  isNull : EvaluationContext → TargetValue → m Bool
  isPrimitive : EvaluationContext → TargetValue → m Bool
  isArray : EvaluationContext → TargetValue → m Bool
  isClassInstance : EvaluationContext → TargetValue → m Bool
  valueType : EvaluationContext → TargetValue → Eval m TargetType
  typeName : EvaluationContext → TargetType → m String
  locals : EvaluationContext → Eval m (List Reference)
  parameters : EvaluationContext → Eval m (List Reference)
  receiver : EvaluationContext → Eval m (Option Reference)
  members : EvaluationContext → TargetType → TargetValue → Eval m (List Reference)
  member : EvaluationContext → TargetType → TargetValue → String → Eval m (Option Reference)
  arrayElement : EvaluationContext → TargetValue → List Nat → Eval m Reference
  cast : EvaluationContext → TargetValue → TargetType → Eval m TargetValue
  toLiteral : EvaluationContext → TargetValue → Eval m Literal
  createLiteral : EvaluationContext → Literal → Eval m TargetValue
  createNode : EvaluationContext → ChildSource → ValuePath → TargetValue → ValueFlags →
    Eval m (Reply NodeId)
  owedNode : EvaluationContext → ChildSource → ValuePath → TargetValue → ValueFlags → Eval m NodeId
  children : EvaluationContext → ValuePath → TargetValue → ChildRange →
    Eval m (Reply (List NodeId))
  callToString : EvaluationContext → TargetValue → Eval m String
  childTimeout : m Nat
  awaitInvocations : m Unit

namespace Adapter

variable {m : Type → Type} [Monad m]

def firstMember
    (members : EvaluationContext → TargetType → TargetValue → Eval m (List Reference))
    (ctx : EvaluationContext) (type : TargetType) (object : TargetValue) (name : String) :
    Eval m (Option Reference) := do
  return (← members ctx type object).find? (·.name == name)

def noArrayElement (_ : EvaluationContext) (_ : TargetValue) (_ : List Nat) : Eval m Reference :=
  throw .unsupportedExpression

def noLiterals (_ : EvaluationContext) (_ : Literal) : Eval m TargetValue :=
  throw .unsupportedExpression

def defaultChildTimeout : Nat := 1000

end Adapter

end DebugSession
