import DebugSession.BreakpointStore
import DebugSession.Config
import DebugSession.Event
import DebugSession.Output
import DebugSession.Report
import DebugSession.Value.Node

namespace DebugSession

def TargetEventKind.name : TargetEventKind → String
  | exceptionThrown => "ExceptionThrown"
  | exited => "TargetExited"
  | hitBreakpoint => "TargetHitBreakpoint"
  | interrupted => "TargetInterrupted"
  | signaled => "TargetSignaled"
  | stopped => "TargetStopped"
  | unhandledException => "UnhandledException"
  | ready => "TargetReady"
  | threadStarted => "ThreadStarted"
  | threadStopped => "ThreadStopped"

def Topic.name : Topic → String
  | started => "Started"
  | ready => "Ready"
  | stopped => "Stopped"
  | interrupted => "Interrupted"
  | hitBreakpoint => "HitBreakpoint"
  | signaled => "Signaled"
  | exited => "Exited"
  | exceptionThrown => "ExceptionThrown"
  | unhandledException => "UnhandledException"
  | threadStarted => "ThreadStarted"
  | threadStopped => "ThreadStopped"
  | any => "Any"
  | busyState => "BusyState"

def BindingStatus.name : BindingStatus → String
  | notBound => "NotBound"
  | bound => "Bound"
  | invalid => "Invalid"
  | bindError => "BindError"
  | disconnected => "Disconnected"

def Dispatch.name : Dispatch → String
  | inline => "Inline"
  | worker => "Worker"

def NodeKind.name : NodeKind → String
  | object => "Object"
  | array => "Array"
  | primitive => "Primitive"
  | error => "Error"
  | unknown => "Unknown"
  | notSupported => "NotSupported"
  | evaluating => "Evaluating"

def Change.name : Change → String
  | added => "added"
  | removed => "removed"
  | modified => "modified"
  | enableChanged => "enable_changed"
  | statusChanged => "status_changed"

def Sink.name : Sink → String
  | target => "output"
  | log => "log"

def ValueFlags.names : List String :=
  ["READ_ONLY", "FIELD", "PROPERTY", "VARIABLE", "PARAMETER", "LITERAL", "ARRAY_ELEMENT"]

def HitAction.names : List String := ["BREAK", "PRINT_EXPRESSION", "CUSTOM_ACTION"]

def EngineError.name : EngineError → String
  | failed _ => "Failed"
  | notSupported _ => "NotSupported"
  | notRunning => "NotRunning"
  | unknownHandle _ => "UnknownHandle"

def SessionError.name : SessionError → String
  | invalidArgument _ _ => "InvalidArgument"
  | command _ _ => "Command"
  | breakEvent _ _ => "BreakEvent"
  | workerPanicked _ _ => "WorkerPanicked"
  | threadSpawn _ => "ThreadSpawn"
  | detached => "Detached"
  | invalidConfig _ => "InvalidConfig"

def EvalError.name : EvalError → String
  | notSupported _ => "NotSupported"
  | evaluation _ => "Evaluation"
  | unresolvedName _ => "UnresolvedName"
  | internal _ => "Internal"

def ValueError.name : ValueError → String
  | notEditable => "NotEditable"
  | notAnArray => "NotAnArray"
  | isAnArray => "IsAnArray"
  | indexOutOfRange _ _ => "IndexOutOfRange"
  | assignment _ => "Assignment"

def StoreError.name : StoreError → String
  | readOnly => "ReadOnly"
  | unknownBreakEvent _ => "UnknownBreakEvent"

class Failure (ε : Type) where
  name : ε → String
  message : ε → String

instance : Failure EngineError := ⟨EngineError.name, EngineError.message⟩
instance : Failure SessionError := ⟨SessionError.name, SessionError.message⟩
instance : Failure EvalError := ⟨EvalError.name, EvalError.message⟩
instance : Failure ValueError := ⟨ValueError.name, ValueError.message⟩
instance : Failure StoreError := ⟨StoreError.name, StoreError.message⟩

def Report.failure {ε : Type} [Failure ε] (e : ε) : Report :=
  .record [("error", report (Failure.name e)), ("message", report (Failure.message e))]

end DebugSession
