import DebugSession.Channel
import DebugSession.Output
import DebugSession.Session.State
import DebugSession.Value.Node

namespace DebugSession

/-- A failure that no result speaks of. It ends whatever is under way, up to where it is caught. -/
structure Panic where
  text : Option String := none
  deriving DecidableEq, Repr, Inhabited

def Panic.message (p : Panic) : String := p.text.getD "unknown panic"

structure Scope where
  thread : Thread
  locks : List (SessionId × Thread) := []
  /-- Sessions that an operation under way keeps alive. -/
  entered : List SessionId := []
  deriving Repr, Inhabited

inductive Listener
  | session (id : SessionId)
  | external (callback : CallbackId)
  deriving DecidableEq, Repr

structure OpenEvaluation where
  result : PendingId
  reference : Reference
  name : String
  value : TargetValue
  deriving Repr

structure World (σ : Type) where
  host : σ
  sessions : Array Session := #[]
  stores : Array (BreakpointStore Listener) := #[]
  routers : Array (OutputRouter CallbackId) := #[]
  nodes : Array Node := #[]
  channels : Array (Channel NodeId) := #[]
  openEvaluations : List OpenEvaluation := []
  nextBreakEvent : Nat := 1
  directory : String := "/"

/-- Programs over the world of a host. A panic keeps what was changed before it. -/
abbrev Act (σ : Type) := ReaderT Scope (ExceptT Panic (StateM (World σ)))

namespace Act

variable {σ α : Type}

instance : Inhabited (Act σ α) := ⟨throw default⟩

def run (a : Act σ α) (scope : Scope) (w : World σ) : Except Panic α × World σ :=
  (ReaderT.run a scope).run.run w

def outcome (a : Act σ α) : Act σ (Except Panic α) :=
  tryCatch (Except.ok <$> a) fun p => return .error p

def followedBy (a : Act σ α) (last : Act σ Unit) : Act σ α := do
  let r ← outcome a
  last
  match r with
  | .ok x => return x
  | .error p => throw p

def host : Act σ σ := return (← get).host

def modifyHost (f : σ → σ) : Act σ Unit := modify fun w => { w with host := f w.host }

def thread : Act σ Thread := return (← read).thread

def onThread (t : Thread) (a : Act σ α) : Act σ α := withReader ({ · with thread := t }) a

/-- Locks are re-entrant, and a thread that has to wait for one is not run before it is free. -/
def locked (s : SessionId) (a : Act σ α) : Act σ α :=
  withReader (fun c => { c with locks := (s, c.thread) :: c.locks }) a

def lockedElsewhere (s : SessionId) : Act σ Bool := do
  let c ← read
  return c.locks.any fun l => l.1 == s && l.2 != c.thread

def session (s : SessionId) : Act σ Session := return (← get).sessions.getD s.index default

def modifySession (s : SessionId) (f : Session → Session) : Act σ Unit :=
  modify fun w => { w with sessions := w.sessions.modify s.index f }

/-- A session lives while the host has it, while it has commands to carry out, and until the last
operation on it has ended. -/
def isLive (s : SessionId) : Act σ Bool := do
  let x ← session s
  return x.held || !x.queue.isIdle || (← read).entered.contains s

def keeping (s : SessionId) (a : Act σ α) : Act σ α :=
  withReader (fun c => { c with entered := s :: c.entered }) a

def entering (s : SessionId) (otherwise : α) (a : Act σ α) : Act σ α := do
  if ← isLive s then keeping s a else return otherwise

def transition (s : SessionId) (t : Transition) : Act σ Unit :=
  modifySession s fun x => { x with lifecycle := x.lifecycle.after t }

def store (st : StoreId) : Act σ (BreakpointStore Listener) :=
  return (← get).stores.getD st.index {}

def setStore (st : StoreId) (x : BreakpointStore Listener) : Act σ Unit :=
  modify fun w => { w with stores := w.stores.setIfInBounds st.index x }

def newStore : Act σ StoreId := do
  let w ← get
  set { w with stores := w.stores.push {} }
  return ⟨w.stores.size⟩

def newBreakEventId : Act σ BreakEventId := do
  let w ← get
  set { w with nextBreakEvent := w.nextBreakEvent + 1 }
  return ⟨w.nextBreakEvent⟩

def router (r : RouterId) : Act σ (OutputRouter CallbackId) :=
  return (← get).routers.getD r.index {}

def setWriter (r : RouterId) (sink : Sink) (w : Option CallbackId) : Act σ Unit :=
  modify fun x => { x with routers := x.routers.modify r.index (·.setWriter sink w) }

def newRouter : Act σ RouterId := do
  let w ← get
  set { w with routers := w.routers.push {} }
  return ⟨w.routers.size⟩

def node (n : NodeId) : Act σ Node := return (← get).nodes.getD n.index default

def modifyNode (n : NodeId) (f : Node → Node) : Act σ Unit :=
  modify fun w => { w with nodes := w.nodes.modify n.index f }

def newNode (n : Node) : Act σ NodeId := do
  let w ← get
  set { w with nodes := w.nodes.push n }
  return ⟨w.nodes.size⟩

def newChannel (capacity : Nat) : Act σ PendingId := do
  let w ← get
  set { w with channels := w.channels.push { capacity := capacity } }
  return ⟨w.channels.size⟩

def channel (p : PendingId) : Act σ (Channel NodeId) :=
  return (← get).channels.getD p.index {}

def setChannel (p : PendingId) (c : Channel NodeId) : Act σ Unit :=
  modify fun w => { w with channels := w.channels.setIfInBounds p.index c }

end Act

end DebugSession
