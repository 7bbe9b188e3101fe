import DebugSession.BreakEvent

namespace DebugSession

structure ListenerId where
  raw : Nat
  deriving DecidableEq, Repr, Inhabited

inductive Change
  | added
  | removed
  | modified
  | enableChanged
  | statusChanged
  deriving DecidableEq, Repr

structure Announcement where
  change : Change
  event : BreakEvent
  deriving DecidableEq, Repr

/-- Break events stand in the order of their first addition. `adjusted` remembers the line of each
event that the engine moved, from before its first move. Its order is one of many: nobody may rely
on which of the moved events comes first. -/
structure BreakpointStore (κ : Type) where
  events : List BreakEvent := []
  adjusted : List (BreakEventId × Nat) := []
  listeners : List (ListenerId × κ) := []
  nextListener : Nat := 0
  deriving Repr, Inhabited

inductive Edit
  | add (event : BreakEvent)
  | remove (id : BreakEventId)
  | clear
  | enable (id : BreakEventId) (on : Bool)
  | condition (id : BreakEventId) (text : Option String)
  | move (id : BreakEventId) (line : Nat)
  deriving DecidableEq, Repr

structure LineAdjustment where
  old : BreakEvent
  new : BreakEvent
  deriving DecidableEq, Repr

/-- Listeners hear of a move by the engine as of a removal and an addition. -/
def LineAdjustment.announcements (a : LineAdjustment) : List Announcement :=
  [⟨.removed, a.old⟩, ⟨.added, a.new⟩]

namespace BreakpointStore

variable {κ : Type}

def get? (s : BreakpointStore κ) (id : BreakEventId) : Option BreakEvent :=
  s.events.find? (·.id == id)

def size (s : BreakpointStore κ) : Nat := s.events.length

def subscribe (s : BreakpointStore κ) (listener : κ) : ListenerId × BreakpointStore κ :=
  (⟨s.nextListener⟩,
    { s with
      listeners := s.listeners ++ [(⟨s.nextListener⟩, listener)]
      nextListener := s.nextListener + 1 })

def unsubscribe (s : BreakpointStore κ) (id : ListenerId) : BreakpointStore κ :=
  { s with listeners := s.listeners.filter (·.1 != id) }

def replace (s : BreakpointStore κ) (e : BreakEvent) : BreakpointStore κ :=
  { s with events := s.events.map fun old => if old.id == e.id then e else old }

def put (s : BreakpointStore κ) (e : BreakEvent) : BreakpointStore κ :=
  if (s.get? e.id).isSome then s.replace e else { s with events := s.events ++ [e] }

def erase (s : BreakpointStore κ) (id : BreakEventId) : BreakpointStore κ :=
  { s with events := s.events.filter (·.id != id) }

def forget (s : BreakpointStore κ) (id : BreakEventId) : BreakpointStore κ :=
  { s with adjusted := s.adjusted.filter (·.1 != id) }

def edit (s : BreakpointStore κ) (change : Change) (old new : BreakEvent) :
    BreakpointStore κ × List Announcement :=
  (s.replace new, if old = new then [] else [⟨change, new⟩])

/-- The effect of a user's edit, which fails only when it names an event that is not stored. A move
by the user makes the new line the one to return to. -/
def apply (s : BreakpointStore κ) :
    Edit → Except StoreError (BreakpointStore κ × List Announcement)
  | .add e => .ok (s.put e, [⟨.added, e⟩])
  | .remove id =>
    match s.get? id with
    | none => .error (.unknownBreakEvent id)
    | some e => .ok ((s.erase id).forget id, [⟨.removed, e⟩])
  | .clear => .ok ({ s with events := [], adjusted := [] }, s.events.map (⟨.removed, ·⟩))
  | .enable id on =>
    match s.get? id with
    | none => .error (.unknownBreakEvent id)
    | some e => .ok (s.edit .enableChanged e { e with enabled := on })
  | .condition id text =>
    match s.get? id with
    | none => .error (.unknownBreakEvent id)
    | some e => .ok (s.edit .modified e { e with condition := text })
  | .move id line =>
    match s.get? id with
    | none => .error (.unknownBreakEvent id)
    | some e => .ok ((s.forget id).edit .modified e (e.withLine line))

def remember (s : BreakpointStore κ) (id : BreakEventId) (line : Nat) : BreakpointStore κ :=
  if s.adjusted.any (·.1 == id) then s else { s with adjusted := s.adjusted ++ [(id, line)] }

def adjust (s : BreakpointStore κ) (id : BreakEventId) (line : Nat) :
    Except StoreError (BreakpointStore κ × Option LineAdjustment) :=
  match s.get? id with
  | none => .error (.unknownBreakEvent id)
  | some e =>
    match e.line with
    | none => .ok (s, none)
    | some before =>
      if before = line then .ok (s, none)
      else
        let new := e.withLine line
        .ok ((s.remember id before).replace new, some ⟨e, new⟩)

def restore (s : BreakpointStore κ) (id : BreakEventId) (line : Nat) :
    BreakpointStore κ × List Announcement :=
  match s.get? id with
  | none => (s, [])
  | some e => (s.replace (e.withLine line), [⟨.modified, e.withLine line⟩])

end BreakpointStore

end DebugSession
