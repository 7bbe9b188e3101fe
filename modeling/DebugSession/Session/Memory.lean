import DebugSession.Identity

namespace DebugSession

structure Memory (α : Type) where
  entries : List (String × Option α) := []
  deriving Repr, Inhabited

namespace Memory

variable {α : Type}

def find? (m : Memory α) (key : String) : Option (Option α) := m.entries.lookup key

def store (m : Memory α) (key : String) (answer : Option α) : Memory α :=
  if (m.find? key).isSome then m else ⟨m.entries ++ [(key, answer)]⟩

end Memory

structure EvaluatorRegistry where
  provider : Option CallbackId := none
  known : Memory EvaluatorId := {}
  deriving Repr, Inhabited

end DebugSession
