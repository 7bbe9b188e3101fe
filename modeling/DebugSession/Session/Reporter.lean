import DebugSession.Session.Inspection

namespace DebugSession

structure Reporter where
  session : SessionId
  deriving DecidableEq, Repr

def SessionId.reporter (s : SessionId) : Reporter := ⟨s⟩

namespace Reporter

open Act

variable {σ : Type} (h : Host σ) (r : Reporter)

def phase? : Act σ (Option Phase) := entering r.session none do return some (← r.session.phase)

def targetEvent (e : TargetEvent) : Act σ Unit := entering r.session () (r.session.targetEvent h e)

def started (t : Option ThreadInfo) : Act σ Unit := entering r.session () (r.session.engineStarted h t)

def write (sink : Sink) (isError : Bool) (text : String) : Act σ Unit :=
  entering r.session () do h.writeTo (← Act.session r.session).output sink isError text

def fileLoaded (file : String) : Act σ Unit := entering r.session () (r.session.fileLoaded h file)

def fileUnloaded (file : String) : Act σ Unit :=
  entering r.session () (r.session.fileUnloaded h file)

def busy (state : BusyState) : Act σ Unit := entering r.session () (r.session.emit h (.busy state))

def setStatus (handle : BindingHandle) (status : BindingStatus) (message : Option String) :
    Act σ Unit :=
  entering r.session () (r.session.setStatus h handle status message)

def recordFor (handle : BindingHandle) : Act σ (Option BindingRecord) :=
  entering r.session none do return (← r.session.bindings).byHandle? handle

def trace (handle : BindingHandle) (text : String) : Act σ Unit := entering r.session () do
  match (← r.session.bindings).byHandle? handle with
  | none => return
  | some record =>
    match (← Act.session r.session).handlers.trace with
    | some c => h.trace c record.breakEvent text
    | none => h.log r.session false (text ++ "\n")

def customHit (action : String) (handle : BindingHandle) : Act σ Bool :=
  entering r.session true do
    match (← r.session.bindings).byHandle? handle with
    | none => return true
    | some record =>
      match (← Act.session r.session).handlers.customHit with
      | some c => h.customHit c action record.breakEvent
      | none => return true

def adjust (id : BreakEventId) (line : Nat) : Act σ (Except StoreError Unit) :=
  entering r.session (.ok ()) (r.session.adjust h id line)

end Reporter

end DebugSession
