import DebugSession.Host

namespace DebugSession.SessionId

open Act

variable {σ : Type} (h : Host σ)

def offerFault (s : SessionId) (e : SessionError) : Act σ Bool := do
  match (← session s).handlers.fault with
  | some c => h.handleFault c e
  | none => return false

def modifyBindings (s : SessionId) (f : BindingTable → BindingTable) : Act σ Unit :=
  modifySession s fun x => { x with bindings := f x.bindings }

def bindings (s : SessionId) : Act σ BindingTable := return (← session s).bindings

def isStarted (s : SessionId) : Act σ Bool := return (← session s).lifecycle.started

def recordBindFailure (s : SessionId) (e : BreakEvent) (err : EngineError) : Act σ Unit := do
  h.log s false (e.bindFailureMessage err.message)
  modifyBindings s (·.insert (.failed e err.message))
  discard <| offerFault h s (.breakEvent e.text err)

def addBreakEvent (s : SessionId) (e : BreakEvent) : Act σ Bool := do
  match ← ((h.engine s).answer (.insert e)).run with
  | .ok b =>
    modifyBindings s (·.insert (.ofBinding e b))
    return true
  | .error err =>
    recordBindFailure h s e err
    return false

def reportEditFailure (s : SessionId) (e : BreakEvent) (err : EngineError) : Act σ Unit := do
  if ← isStarted s then h.log s false (err.message ++ "\n")
  discard <| offerFault h s (.breakEvent e.text err)

def removeBreakEvent (s : SessionId) (id : BreakEventId) : Act σ Unit := do
  match (← bindings s).get? id with
  | none => return
  | some r =>
    match r.handle with
    | none => modifyBindings s (·.remove id)
    | some handle =>
      match ← ((h.engine s).answer (.remove handle)).run with
      | .ok _ => modifyBindings s (·.remove id)
      | .error err => reportEditFailure h s r.breakEvent err

/-- Has the engine change a bound event, and records the change once it is made. Events that are not
bound are left alone. -/
def changeBreakEvent (s : SessionId) (e : BreakEvent)
    (change : BindingHandle → EngineRequest) (record : BreakEvent → BreakEvent) :
    Act σ Unit := do
  match (← bindings s).get? e.id with
  | none => return
  | some r =>
    match r.handle with
    | none => return
    | some handle =>
      match ← ((h.engine s).answer (change handle)).run with
      | .ok _ => modifyBindings s (·.insert { r with breakEvent := record r.breakEvent })
      | .error err => reportEditFailure h s e err

def updateBreakEvent (s : SessionId) (e : BreakEvent) : Act σ Unit :=
  changeBreakEvent h s e (.update · e) fun _ => e

def enableBreakEvent (s : SessionId) (e : BreakEvent) : Act σ Unit :=
  changeBreakEvent h s e (.enable · e.enabled) ({ · with enabled := e.enabled })

/-- Whether the session forbids users to edit its store. It does when it is too busy to answer. -/
def isReadOnly (s : SessionId) : Act σ Bool := do
  if ← lockedElsewhere s then return true
  else locked s do return !(← (h.engine s).allowsChanges)

def whenStarted (s : SessionId) (a : Act σ Unit) : Act σ Unit :=
  entering s () <| locked s do if ← isStarted s then a

def isAdjusting (s : SessionId) : Act σ Bool :=
  entering s false do return (← bindings s).isEditing (← thread)

def follow (s : SessionId) (a : Announcement) : Act σ Unit := do
  match a.change with
  | .added =>
    unless ← isAdjusting s do whenStarted s (discard <| addBreakEvent h s a.event)
  | .removed =>
    unless ← isAdjusting s do whenStarted s (removeBreakEvent h s a.event.id)
  | .modified => whenStarted s (updateBreakEvent h s a.event)
  | .enableChanged => whenStarted s (enableBreakEvent h s a.event)
  | .statusChanged => return

end DebugSession.SessionId
