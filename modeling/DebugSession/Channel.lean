namespace DebugSession

structure Channel (α : Type) where
  capacity : Nat := 1
  contents : List α := []
  isClosed : Bool := false
  deriving Repr, Inhabited

inductive Received (α : Type)
  | value (a : α)
  | nothingYet
  | nothingMore
  deriving Repr

namespace Channel

variable {α : Type}

/-- Nothing can be sent into a channel that is full or closed. -/
def send (c : Channel α) (a : α) : Option (Channel α) :=
  if c.isClosed || c.capacity ≤ c.contents.length then none
  else some { c with contents := c.contents ++ [a] }

def close (c : Channel α) : Channel α := { c with isClosed := true }

def receive (c : Channel α) : Received α × Channel α :=
  match c.contents with
  | a :: rest => (.value a, { c with contents := rest })
  | [] => (if c.isClosed then .nothingMore else .nothingYet, c)

end Channel

end DebugSession
