import DebugSession.Error
import DebugSession.Target
import DebugSession.Value.Reference

namespace DebugSession

structure StackWalk (m : Type → Type) where
  frameCount : m Nat
  frame : Nat → ExceptT EngineError m FrameInfo
  locals : Nat → EvaluationOptions → m (List NodeId)
  parameters : Nat → EvaluationOptions → m (List NodeId)
  allLocals : Nat → EvaluationOptions → m (List NodeId)
  receiver : Nat → EvaluationOptions → m (Option NodeId)
  expressions : Nat → List String → EvaluationOptions → m (List NodeId)
  context : Nat → EvaluationOptions → m (Option EvaluationContext)
  disassemble : Nat → Int → Nat → m (List AssemblyLine)

namespace StackWalk

variable {m : Type → Type} [Monad m]

def listing (frameCount : m Nat) (frame : Nat → ExceptT EngineError m FrameInfo)
    (locals parameters : Nat → EvaluationOptions → m (List NodeId))
    (receiver : Nat → EvaluationOptions → m (Option NodeId))
    (expressions : Nat → List String → EvaluationOptions → m (List NodeId)) : StackWalk m where
  frameCount := frameCount
  frame := frame
  locals := locals
  parameters := parameters
  allLocals := fun i options => do return (← parameters i options) ++ (← locals i options)
  receiver := receiver
  expressions := expressions
  context := fun _ _ => pure none
  disassemble := fun _ _ _ => pure []

end StackWalk

end DebugSession
