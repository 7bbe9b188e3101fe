import DebugSession.Session.Attachment

namespace DebugSession.SessionId

open Act

variable {σ : Type} (h : Host σ)

def observers (s : SessionId) : Act σ (Observers CallbackId) := return (← session s).observers

def emit (s : SessionId) (e : SessionEvent) : Act σ Unit :=
  Observers.emit (observers s) (h.observe s) e

def attachEvent (s : SessionId) (e : TargetEvent) : TargetEvent :=
  { e with
    process := e.process.map ({ · with session := some s })
    thread := e.thread.map ({ · with session := some s })
    backtrace := e.backtrace.map ({ · with session := some s })
    isStop := e.isStop || e.kind.isStop }

/-- Takes an event into the state of the session. The thread that it names becomes active, and the
list of processes is no longer up to date. -/
def noting (x : Session) (e : TargetEvent) : Session :=
  { x with
    processes := none
    activeThread := e.thread.or x.activeThread
    lifecycle := x.lifecycle.after (.reported e.kind) }

def targetEvent (s : SessionId) (e : TargetEvent) : Act σ Unit := do
  let e := attachEvent s e
  modifySession s (noting · e)
  Observers.emitTarget (observers s) (h.observe s) e

def getReady (s : SessionId) : Act σ Unit := locked s do
  transition s .initialized
  bindAll h s

def engineStarted (s : SessionId) (t : Option ThreadInfo) : Act σ Unit := do
  targetEvent h s { kind := .ready, thread := t }
  getReady h s

end DebugSession.SessionId
