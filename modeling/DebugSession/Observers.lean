import DebugSession.Event

namespace DebugSession

structure SubscriptionId where
  raw : Nat
  deriving DecidableEq, Repr, Inhabited

structure Subscriber (κ : Type) where
  id : SubscriptionId
  topic : Option Topic
  callback : κ
  deriving Repr

/-- Numbers of subscriptions are not used again. -/
structure Observers (κ : Type) where
  next : Nat := 0
  subscribers : List (Subscriber κ) := []
  deriving Repr, Inhabited

namespace Observers

variable {κ : Type}

def subscribe (o : Observers κ) (topic : Option Topic) (callback : κ) :
    SubscriptionId × Observers κ :=
  (⟨o.next⟩, ⟨o.next + 1, o.subscribers ++ [⟨⟨o.next⟩, topic, callback⟩]⟩)

def contains (o : Observers κ) (id : SubscriptionId) : Bool := o.subscribers.any (·.id == id)

def unsubscribe (o : Observers κ) (id : SubscriptionId) : Observers κ :=
  { o with subscribers := o.subscribers.filter (·.id != id) }

def audience (o : Observers κ) (topic : Topic) : List κ :=
  (o.subscribers.filter fun s => s.topic.all (· == topic)).map (·.callback)

variable {m : Type → Type} [Monad m]

/-- One round. The list is read once, before anyone is told. -/
def emit (current : m (Observers κ)) (tell : κ → SessionEvent → m Unit) (event : SessionEvent) :
    m Unit := do
  (← current).audience event.topic |>.forM (tell · event)

/-- The typed round ends before the round for everyone starts. -/
def emitTarget (current : m (Observers κ)) (tell : κ → SessionEvent → m Unit)
    (event : TargetEvent) : m Unit := do
  emit current tell (.target event)
  emit current tell (.anyTarget event)

end Observers

end DebugSession
