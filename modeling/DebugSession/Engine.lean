import DebugSession.BreakEvent
import DebugSession.Command
import DebugSession.TypeNames

namespace DebugSession

inductive EngineRequest
  | command (c : Command)
  | setActiveThread (process thread : Nat)
  | insert (event : BreakEvent)
  | remove (handle : BindingHandle)
  | update (handle : BindingHandle) (event : BreakEvent)
  | enable (handle : BindingHandle) (on : Bool)
  | threads (process : Nat)
  | processes
  | backtrace (process thread : Nat)
  | disassembleFile (file : String)
  deriving DecidableEq, Repr

namespace EngineRequest

def name : EngineRequest → String
  | command c => c.name
  | setActiveThread _ _ => "set_active_thread"
  | insert _ => "insert"
  | remove _ => "remove"
  | update _ _ => "update"
  | enable _ _ => "enable"
  | threads _ => "get_threads"
  | processes => "get_processes"
  | backtrace _ _ => "get_backtrace"
  | disassembleFile _ => "disassemble_file"

@[reducible] def Answer : EngineRequest → Type
  | insert _ => Binding
  | threads _ => List ThreadInfo
  | processes => List ProcessInfo
  | backtrace _ _ => Option Backtrace
  | disassembleFile _ => Option (List AssemblyLine)
  | _ => Unit

end EngineRequest

abbrev Attempt (m : Type → Type) := ExceptT EngineError m

structure Engine (m : Type → Type) where
  connect : m Unit
  answer : (q : EngineRequest) → Attempt m q.Answer
  allowsChanges : m Bool
  canCancel : m Bool
  cancel : m Unit
  resolveExpression : String → SourceLocation → (String → m (Option String)) →
    Attempt m (Option String)

namespace Engine

variable {m : Type → Type} [Monad m]

def qualifyExpression (expression : String) (_ : SourceLocation)
    (ask : String → m (Option String)) : Attempt m (Option String) := do
  return some (← (TypeNames.qualify ask expression : m String))

def answering (answer : (q : EngineRequest) → Attempt m q.Answer) : Engine m where
  connect := pure ()
  answer := answer
  allowsChanges := pure true
  canCancel := pure false
  cancel := pure ()
  resolveExpression := qualifyExpression

end Engine

end DebugSession
