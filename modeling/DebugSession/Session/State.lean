import DebugSession.BindingTable
import DebugSession.BreakpointStore
import DebugSession.Observers
import DebugSession.Session.CommandQueue
import DebugSession.Session.Lifecycle
import DebugSession.Session.Memory

namespace DebugSession

structure Handlers where
  fault : Option CallbackId := none
  trace : Option CallbackId := none
  customHit : Option CallbackId := none
  typeNames : Option CallbackId := none
  deriving Repr, Inhabited

structure Session where
  config : SessionConfig
  held : Bool := true
  lifecycle : Lifecycle := {}
  options : SessionOptions := {}
  activeThread : Option ThreadInfo := none
  /-- The processes last listed, until an event of the target makes them stale. -/
  processes : Option (List ProcessInfo) := none
  store : Option StoreId := none
  ownsStore : Bool := false
  subscription : Option ListenerId := none
  bindings : BindingTable := {}
  observers : Observers CallbackId := {}
  output : RouterId
  queue : CommandQueue := {}
  handlers : Handlers := {}
  expressions : Memory String := {}
  evaluators : EvaluatorRegistry := {}
  /-- Failures of queued commands that no handler accepted. -/
  faults : List SessionError := []
  deriving Repr, Inhabited

def Session.new (config : SessionConfig) (output : RouterId) : Session :=
  { config := config, options := { evaluation := config.evaluation }, output := output }

end DebugSession
