import DebugSession.Session.Binding

namespace DebugSession.StoreId

open Act

variable {σ : Type} (h : Host σ)

def announce (st : StoreId) (a : Announcement) : Act σ Unit := do
  (← store st).listeners.forM fun (_, listener) =>
    match listener with
    | .session s => s.follow h a
    | .external c => h.storeChanged c st a

def announceAll (st : StoreId) (as : List Announcement) : Act σ Unit := as.forM (announce h st)

/-- Asks listeners for a veto, up to the first that has one. A session that is gone has none. -/
def isReadOnly (st : StoreId) : Act σ Bool := do
  (← store st).listeners.anyM fun (_, listener) =>
    match listener with
    | .session s => entering s false (s.isReadOnly h)
    | .external c => h.vetoes c st

def edit (st : StoreId) (e : Edit) : Act σ (Except StoreError (List Announcement)) := do
  if ← isReadOnly h st then return .error .readOnly
  match (← store st).apply e with
  | .error err => return .error err
  | .ok (x, as) =>
    setStore st x
    announceAll h st as
    return .ok as

def move (st : StoreId) (id : BreakEventId) (line : Nat) :
    Act σ (Except StoreError (Option LineAdjustment)) := do
  match (← store st).adjust id line with
  | .error err => return .error err
  | .ok (x, a) =>
    setStore st x
    return .ok a

def adjust (st : StoreId) (id : BreakEventId) (line : Nat) : Act σ (Except StoreError Unit) := do
  match ← move st id line with
  | .error err => return .error err
  | .ok none => return .ok ()
  | .ok (some a) =>
    announceAll h st a.announcements
    return .ok ()

/-- Puts events that engines moved back on the lines that users gave them, here in the order of
their first moves. No order is promised: any other one comes to the same store. -/
def resetAdjusted (st : StoreId) : Act σ Unit := do
  let x ← store st
  setStore st { x with adjusted := [] }
  x.adjusted.forM fun (id, line) => do
    let (y, as) := (← store st).restore id line
    setStore st y
    announceAll h st as

def announceStatus (st : StoreId) (id : BreakEventId) : Act σ Unit := do
  match (← store st).get? id with
  | some e => announce h st ⟨.statusChanged, e⟩
  | none => return

def subscribe (st : StoreId) (l : Listener) : Act σ ListenerId := do
  let (id, x) := (← store st).subscribe l
  setStore st x
  return id

def unsubscribe (st : StoreId) (id : ListenerId) : Act σ Unit := do
  setStore st ((← store st).unsubscribe id)

end DebugSession.StoreId
