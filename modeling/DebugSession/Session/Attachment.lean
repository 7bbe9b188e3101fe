import DebugSession.Store.Edit
import DebugSession.Text.FilePath

namespace DebugSession.SessionId

open Act

variable {σ : Type} (h : Host σ)

def release (s : SessionId) (st : StoreId) (subscription : Option ListenerId) : Act σ Unit := do
  (← store st).events.forM fun e => do
    removeBreakEvent h s e.id
    st.announceStatus h e.id
  if let some l := subscription then st.unsubscribe l
  st.resetAdjusted h

def bindEvents (s : SessionId) (st : StoreId) : Act σ Unit := do
  (← store st).events.forM fun e => discard <| addBreakEvent h s e

def pointAt (s : SessionId) (new : Option StoreId) : Act σ Unit := do
  modifySession s ({ · with store := new, ownsStore := false })
  if let some st := new then
    if ← isStarted s then bindEvents h s st
    let l ← st.subscribe (.session s)
    modifySession s ({ · with subscription := some l })

/-- Attaches a store in place of the one before, or only detaches that. Events of the old store are
unbound, and each is announced; those bound from the new one are not. -/
def setStore (s : SessionId) (new : Option StoreId) : Act σ Unit := keeping s <| locked s do
  let x ← session s
  modifySession s ({ · with store := none, subscription := none })
  if let some old := x.store then release h s old x.subscription
  pointAt h s new

/-- The attached store. On first use the session makes one for itself; a disposed session makes one
that it is not attached to. -/
def breakpoints (s : SessionId) : Act σ StoreId := locked s do
  let x ← session s
  match x.store with
  | some st => return st
  | none =>
    let st ← newStore
    unless x.lifecycle.disposed do
      setStore h s (some st)
      modifySession s ({ · with ownsStore := true })
    return st

def bindAll (s : SessionId) : Act σ Unit := do bindEvents h s (← breakpoints h s)

def breakEventStatus (s : SessionId) (id : BreakEventId) : Act σ BindingStatus := do
  let x ← session s
  if !x.lifecycle.started then return .notBound
  return ((x.bindings.get? id).map (·.status)).getD .notBound

def breakEventMessage (s : SessionId) (id : BreakEventId) : Act σ String := do
  let x ← session s
  if !x.lifecycle.started then return notHitMessage
  return ((x.bindings.get? id).map (·.message)).getD notHitMessage

def announceStatus (s : SessionId) (id : BreakEventId) : Act σ Unit := do
  if let some st := (← session s).store then st.announceStatus h id

def setStatus (s : SessionId) (handle : BindingHandle) (status : BindingStatus)
    (message : Option String) : Act σ Unit := do
  match (← bindings s).owner? handle with
  | none => return
  | some id =>
    modifyBindings s (·.setStatus handle status message)
    announceStatus h s id

def recordMove (s : SessionId) (e : BreakEvent) : Act σ Unit := do
  if let some r := (← bindings s).get? e.id then
    modifyBindings s (·.insert { r with breakEvent := e })

def move (s : SessionId) (st : StoreId) (id : BreakEventId) (line : Nat) :
    Act σ (Except StoreError (Option LineAdjustment)) := locked s do
  let r ← st.move id line
  if let .ok (some a) := r then recordMove s a.new
  return r

/-- Moves an event to where the engine has bound it. The session's own listener is told while the
edit is open, and so does not bind the event again; the lock is free by then. -/
def adjust (s : SessionId) (id : BreakEventId) (line : Nat) : Act σ (Except StoreError Unit) := do
  match (← session s).store with
  | none => return .error (.unknownBreakEvent id)
  | some st =>
    let t ← thread
    modifyBindings s (·.beginEdit t)
    followedBy (moveAndTell st) (modifyBindings s (·.endEdit t))
where
  moveAndTell (st : StoreId) : Act σ (Except StoreError Unit) := do
    match ← s.move st id line with
    | .error err => return .error err
    | .ok none => return .ok ()
    | .ok (some a) =>
      st.announceAll h a.announcements
      return .ok ()

def isIn (directory file : String) (r : BindingRecord) : Bool :=
  let absolute (f : String) := Text.FilePath.absolute directory.toList f.toList
  r.breakEvent.file.any fun f => absolute f == absolute file

def fileLoaded (s : SessionId) (file : String) : Act σ Unit := do
  let x ← session s
  if x.config.autoRetry then
    let directory := (← get).directory
    let waiting := x.bindings.recordsWhere fun r =>
      (r.status == .notBound || r.status == .bindError) && isIn directory file r
    waiting.forM fun r => do
      if ← addBreakEvent h s r.breakEvent then announceStatus h s r.id

def fileUnloaded (s : SessionId) (file : String) : Act σ Unit := do
  let x ← session s
  if x.config.autoRetry then
    let directory := (← get).directory
    let stale := x.bindings.recordsWhere fun r => r.status == .bound && isIn directory file r
    stale.forM fun r => do
      modifyBindings s (·.remove r.id)
      if let some st := x.store then st.announceStatus h r.id

end DebugSession.SessionId
