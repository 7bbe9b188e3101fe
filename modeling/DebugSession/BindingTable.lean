import DebugSession.BreakEvent
import DebugSession.Identity

namespace DebugSession

/-- Records stand in the order of their last insertion, one for each break event. `owners` has one
entry for each handle. `openEdits` has one entry for each open scope: the thread that opened it. -/
structure BindingTable where
  records : List BindingRecord := []
  owners : List (BindingHandle × BreakEventId) := []
  openEdits : List Thread := []
  deriving Repr, Inhabited

namespace BindingTable

def get? (t : BindingTable) (id : BreakEventId) : Option BindingRecord :=
  t.records.find? (·.id == id)

def contains (t : BindingTable) (id : BreakEventId) : Bool := (t.get? id).isSome

def owner? (t : BindingTable) (h : BindingHandle) : Option BreakEventId := t.owners.lookup h

def containsHandle (t : BindingTable) (h : BindingHandle) : Bool := (t.owner? h).isSome

def byHandle? (t : BindingTable) (h : BindingHandle) : Option BindingRecord :=
  (t.owner? h).bind t.get?

def size (t : BindingTable) : Nat := t.records.length

def handleCount (t : BindingTable) : Nat := t.owners.length

def release (t : BindingTable) (r : BindingRecord) : BindingTable :=
  { t with owners := t.owners.filter fun o => !(some o.1 == r.handle && o.2 == r.id) }

def remove (t : BindingTable) (id : BreakEventId) : BindingTable :=
  match t.get? id with
  | none => t
  | some r => { t.release r with records := t.records.filter (·.id != id) }

def own (t : BindingTable) (id : BreakEventId) : Option BindingHandle → BindingTable
  | none => t
  | some h => { t with owners := t.owners.filter (·.1 != h) ++ [(h, id)] }

/-- A record inserted again moves to the end. -/
def insert (t : BindingTable) (r : BindingRecord) : BindingTable :=
  let t := (t.remove r.id).own r.id r.handle
  { t with records := t.records ++ [r] }

def setStatus (t : BindingTable) (h : BindingHandle) (status : BindingStatus)
    (message : Option String) : BindingTable :=
  match t.owner? h with
  | none => t
  | some id =>
    { t with records := t.records.map fun r =>
        if r.id == id then { r with status := status, statusMessage := message } else r }

def recordsWhere (t : BindingTable) (p : BindingRecord → Bool) : List BindingRecord :=
  t.records.filter p

def beginEdit (t : BindingTable) (thread : Thread) : BindingTable :=
  { t with openEdits := thread :: t.openEdits }

/-- Scopes of one thread cannot be told apart, so any of them may be the one that ends. -/
def endEdit (t : BindingTable) (thread : Thread) : BindingTable :=
  { t with openEdits := t.openEdits.erase thread }

def isEditing (t : BindingTable) (thread : Thread) : Bool := t.openEdits.contains thread

end BindingTable

end DebugSession
