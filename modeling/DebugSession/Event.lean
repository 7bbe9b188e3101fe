import DebugSession.Error
import DebugSession.Target

namespace DebugSession

inductive TargetEventKind
  | exceptionThrown
  | exited
  | hitBreakpoint
  | interrupted
  | signaled
  | stopped
  | unhandledException
  | ready
  | threadStarted
  | threadStopped
  deriving DecidableEq, Repr

/-- What a subscription can ask for. `any` is the second round of every target event. -/
inductive Topic
  | started
  | ready
  | stopped
  | interrupted
  | hitBreakpoint
  | signaled
  | exited
  | exceptionThrown
  | unhandledException
  | threadStarted
  | threadStopped
  | any
  | busyState
  deriving DecidableEq, Repr

namespace TargetEventKind

def all : List TargetEventKind :=
  [exceptionThrown, exited, hitBreakpoint, interrupted, signaled, stopped, unhandledException, ready,
   threadStarted, threadStopped]

def isStop : TargetEventKind → Bool
  | exceptionThrown | hitBreakpoint | interrupted | signaled | stopped | unhandledException => true
  | exited | ready | threadStarted | threadStopped => false

def topic : TargetEventKind → Topic
  | exceptionThrown => .exceptionThrown
  | exited => .exited
  | hitBreakpoint => .hitBreakpoint
  | interrupted => .interrupted
  | signaled => .signaled
  | stopped => .stopped
  | unhandledException => .unhandledException
  | ready => .ready
  | threadStarted => .threadStarted
  | threadStopped => .threadStopped

end TargetEventKind

def Topic.all : List Topic := TargetEventKind.all.map (·.topic) ++ [started, any, busyState]

structure TargetEvent where
  kind : TargetEventKind
  process : Option ProcessInfo := none
  thread : Option ThreadInfo := none
  backtrace : Option Backtrace := none
  breakEvent : Option BreakEventId := none
  signal : Option Int := none
  exitCode : Option Int := none
  isStop : Bool := false
  deriving DecidableEq, Repr

structure BusyState where
  isBusy : Bool
  description : Option String := none
  deriving DecidableEq, Repr

inductive SessionEvent
  | started
  | target (event : TargetEvent)
  | anyTarget (event : TargetEvent)
  | busy (state : BusyState)
  deriving DecidableEq, Repr

def SessionEvent.topic : SessionEvent → Topic
  | .started => .started
  | .target event => event.kind.topic
  | .anyTarget _ => .any
  | .busy _ => .busyState

end DebugSession
