import DebugSession.Simulation.Memory

namespace DebugSession.Simulation

inductive Call
  | request (q : EngineRequest)
  | resolve (expression : String)
  | cancel
  deriving Repr

def Call.name : Call → String
  | request q => q.name
  | resolve _ => "resolve"
  | cancel => "cancel"

inductive Happening
  | call (s : SessionId) (c : Call)
  | event (s : SessionId) (subscriber : Nat) (e : SessionEvent)
  | change (follower : String) (a : Announcement)
  | written (s : Option SessionId) (sink : Sink) (isError : Bool) (text : String)
  | fault (s : SessionId) (e : SessionError)
  | traced (s : SessionId) (e : BreakEvent) (text : String)
  | hit (s : SessionId) (action : String) (e : BreakEvent)
  | askedType (name : String)
  | askedEvaluator (extension : String)
  | askedChildren (path : ValuePath) (range : ChildRange)
  | assigned (path : ValuePath) (text : String)
  | stored (name : String)
  | awaitedInvocations
  deriving Repr

structure Surroundings (ρ : Type) where
  report : Happening → Program ρ Unit
  toNode : Reference → Program ρ NodeId
  evaluate : EvaluationContext → String → Program ρ NodeId
  deriving Inhabited

end DebugSession.Simulation
