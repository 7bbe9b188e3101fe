import DebugSession.Command

namespace DebugSession

structure CommandQueue where
  waiting : List Command := []
  running : List Command := []
  deriving DecidableEq, Repr, Inhabited

namespace CommandQueue

def accept (q : CommandQueue) (c : Command) : CommandQueue :=
  { q with waiting := q.waiting ++ [c] }

def take? (q : CommandQueue) : Option (Command × CommandQueue) :=
  match q.waiting with
  | [] => none
  | c :: rest => some (c, ⟨rest, q.running ++ [c]⟩)

def finish (q : CommandQueue) (c : Command) : CommandQueue :=
  { q with running := q.running.erase c }

def isIdle (q : CommandQueue) : Bool := q.waiting.isEmpty && q.running.isEmpty

end CommandQueue

end DebugSession
