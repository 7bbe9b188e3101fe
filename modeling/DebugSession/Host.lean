import DebugSession.Engine
import DebugSession.Evaluator
import DebugSession.StackWalk
import DebugSession.World

namespace DebugSession

structure ChildProvider (m : Type → Type) where
  children : ValuePath → ChildRange → Eval m (List NodeId)
  setValue : ValuePath → String → Eval m String

structure Host (σ : Type) where
  engine : SessionId → Engine (Act σ)
  observe : SessionId → CallbackId → SessionEvent → Act σ Unit
  storeChanged : CallbackId → StoreId → Announcement → Act σ Unit
  vetoes : CallbackId → StoreId → Act σ Bool
  write : CallbackId → Bool → String → Act σ Unit
  /-- Whether the handler accepts a failure as dealt with. -/
  handleFault : CallbackId → SessionError → Act σ Bool
  trace : CallbackId → BreakEvent → String → Act σ Unit
  customHit : CallbackId → String → BreakEvent → Act σ Bool
  resolveType : CallbackId → String → SourceLocation → Act σ (Option String)
  provideEvaluator : CallbackId → String → Act σ (Option EvaluatorId)
  evaluator : Nat → Evaluator (Act σ)
  debuggee : Adapter (Act σ)
  stackWalk : BacktraceId → StackWalk (Act σ)
  source : SourceId → ChildProvider (Act σ)

namespace Host

variable {σ : Type} (h : Host σ)

def evaluatorOf : EvaluatorId → Evaluator (Act σ)
  | .nameResolving => nameResolving h.debuggee
  | .provided raw => h.evaluator raw

def writeTo (r : RouterId) (sink : Sink) (isError : Bool) (text : String) : Act σ Unit := do
  (← Act.router r).write h.write sink isError text

def log (s : SessionId) (isError : Bool) (text : String) : Act σ Unit := do
  h.writeTo (← Act.session s).output .log isError text

end Host

end DebugSession
