import DebugSession.Error

namespace DebugSession

inductive BreakEventKind
  | breakpoint (file : String) (line : Nat) (column : Option Nat)
  | catchpoint (exception : String) (includeSubclasses : Bool)
  deriving DecidableEq, Repr

structure HitAction where
  stop : Bool := false
  print : Bool := false
  custom : Bool := false
  deriving DecidableEq, Repr

namespace HitAction

def union (a b : HitAction) : HitAction :=
  ⟨a.stop || b.stop, a.print || b.print, a.custom || b.custom⟩

def contains (a b : HitAction) : Bool :=
  (!b.stop || a.stop) && (!b.print || a.print) && (!b.custom || a.custom)

end HitAction

/-- What the user asked for. How the engine binds it is no part of it. -/
structure BreakEvent where
  id : BreakEventId
  kind : BreakEventKind
  enabled : Bool := true
  condition : Option String := none
  hitAction : HitAction := { stop := true }
  trace : Option String := none
  customAction : Option String := none
  deriving DecidableEq, Repr

namespace BreakEvent

def breakpoint (id : BreakEventId) (file : String) (line : Nat) : BreakEvent :=
  { id := id, kind := .breakpoint file line none }

def catchpoint (id : BreakEventId) (exception : String) : BreakEvent :=
  { id := id, kind := .catchpoint exception true }

def withTrace (e : BreakEvent) (expression : String) : BreakEvent :=
  { e with hitAction := { print := true }, trace := some expression }

def withCustomAction (e : BreakEvent) (action : String) : BreakEvent :=
  { e with hitAction := e.hitAction.union { custom := true }, customAction := some action }

def file (e : BreakEvent) : Option String :=
  match e.kind with
  | .breakpoint file _ _ => some file
  | .catchpoint _ _ => none

def line (e : BreakEvent) : Option Nat :=
  match e.kind with
  | .breakpoint _ line _ => some line
  | .catchpoint _ _ => none

def exception (e : BreakEvent) : Option String :=
  match e.kind with
  | .breakpoint _ _ _ => none
  | .catchpoint name _ => some name

def withLine (e : BreakEvent) (line : Nat) : BreakEvent :=
  match e.kind with
  | .breakpoint file _ column => { e with kind := .breakpoint file line column }
  | .catchpoint _ _ => e

def text (e : BreakEvent) : String :=
  match e.kind with
  | .breakpoint file line none => s!"{file}:{line}"
  | .breakpoint file line (some column) => s!"{file}:{line}:{column}"
  | .catchpoint name _ => s!"catch {name}"

def bindFailureMessage (e : BreakEvent) (reason : String) : String :=
  match e.kind with
  | .breakpoint file line _ =>
    s!"Could not set breakpoint at location '{file}:{line}' ({reason})\n"
  | .catchpoint name _ => s!"Could not set catchpoint for exception '{name}' ({reason})\n"

end BreakEvent

inductive BindingStatus
  | notBound
  | bound
  | invalid
  | bindError
  | disconnected
  deriving DecidableEq, Repr, Inhabited

def BindingStatus.all : List BindingStatus := [notBound, bound, invalid, bindError, disconnected]

def BindingStatus.message : BindingStatus → String
  | .bindError => "The breakpoint could not be bound"
  | .invalid => "The breakpoint location is invalid"
  | .notBound => "The breakpoint could not yet be bound to a valid location"
  | .bound | .disconnected => ""

def notHitMessage : String := "The breakpoint will not currently be hit"

structure BindingHandle where
  raw : Nat
  deriving DecidableEq, Repr, Inhabited

def BindingHandle.text (h : BindingHandle) : String := s!"#{h.raw}"

structure Binding where
  handle : BindingHandle
  status : BindingStatus := .bound
  statusMessage : Option String := none
  deriving DecidableEq, Repr, Inhabited

structure BindingRecord where
  breakEvent : BreakEvent
  handle : Option BindingHandle := none
  status : BindingStatus := .notBound
  statusMessage : Option String := none
  deriving DecidableEq, Repr

namespace BindingRecord

def id (r : BindingRecord) : BreakEventId := r.breakEvent.id

def message (r : BindingRecord) : String := r.statusMessage.getD r.status.message

def ofBinding (e : BreakEvent) (b : Binding) : BindingRecord :=
  ⟨e, some b.handle, b.status, b.statusMessage⟩

def failed (e : BreakEvent) (reason : String) : BindingRecord :=
  ⟨e, none, .bindError, some reason⟩

end BindingRecord

end DebugSession
