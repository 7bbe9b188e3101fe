import DebugSession.Session.Delivery

namespace DebugSession.SessionId

open Act

variable {σ : Type} (h : Host σ)

def tearDown (s : SessionId) : Act σ Unit := do
  let x ← session s
  unless x.lifecycle.disposed do
    transition s .disposed
    unless x.ownsStore do setStore h s none

def settle (s : SessionId) : Command → Act σ Unit
  | .attach _ _ => transition s .attached
  | .detach => transition s .detached
  | _ => return

def body (s : SessionId) : Command → Attempt (Act σ) Unit
  | .dispose => (tearDown h s : Act σ Unit)
  | c => do
    discard <| (h.engine s).answer (.command c)
    (settle s c : Act σ Unit)

/-- Makes up for a failed command, and reports its failure unless the handler accepts it. -/
def recover (s : SessionId) (c : Command) (err : EngineError) : Act σ (Except SessionError Unit) := do
  if let some kind := c.recovery then targetEvent h s { kind := kind }
  let fault := SessionError.command c.name err
  return if ← offerFault h s fault then .ok () else .error fault

def execute (s : SessionId) (c : Command) : Act σ (Except SessionError Unit) := locked s do
  match ← (body h s c).run with
  | .ok _ => return .ok ()
  | .error err => recover h s c err

def announceStart (s : SessionId) : Act σ Unit := do
  transition s .resumed
  emit h s .started

def handOver (s : SessionId) (c : Command) : Dispatch → Act σ (Except SessionError Unit)
  | .inline => execute h s c
  | .worker => do
    modifySession s fun x => { x with queue := x.queue.accept c }
    return .ok ()

def accept (s : SessionId) (c : Command) : Act σ (Except SessionError Unit) := locked s do
  let x ← session s
  if c.needsLiveSession && x.lifecycle.disposed then return .ok ()
  if c.resumes then announceStart h s
  handOver h s c x.config.dispatch

def takeOptions (s : SessionId) (c : Command) : Act σ Unit :=
  match c.options? with
  | none => return
  | some options =>
    modifySession s fun x => if x.lifecycle.disposed then x else { x with options := options }

/-- Issues a command. With a worker the answer tells only of its acceptance. -/
def command (s : SessionId) (c : Command) : Act σ (Except SessionError Unit) := do
  match c.check with
  | .error err => return .error err
  | .ok _ =>
    entering s (.error .detached) <| locked s do
      takeOptions s c
      accept h s c

def addFault (s : SessionId) (e : SessionError) : Act σ Unit :=
  modifySession s fun x => { x with faults := x.faults ++ [e] }

/-- Runs a command on a worker. A failure that nobody accepted is kept, and a panic too, for which
nothing is made up. -/
def work (s : SessionId) (c : Command) : Act σ Unit := do
  match ← outcome (execute h s c) with
  | .ok (.ok _) => return
  | .ok (.error e) => addFault s e
  | .error p => addFault s (.workerPanicked c.name p.message)

def workNext (s : SessionId) : Act σ Bool := do
  match (← session s).queue.take? with
  | none => return false
  | some (c, queue) =>
    modifySession s ({ · with queue := queue })
    onThread (.worker s) (work h s c)
    modifySession s fun x => { x with queue := x.queue.finish c }
    return true

def takeFaults (s : SessionId) : Act σ (List SessionError) := do
  let x ← session s
  modifySession s ({ · with faults := [] })
  return x.faults

end DebugSession.SessionId
