import DebugSession.Event

namespace DebugSession

inductive Phase
  | idle
  | starting
  | running
  | stopped
  | exited
  | disposed
  deriving DecidableEq, Repr, Inhabited

def Phase.text : Phase → String
  | idle => "idle"
  | starting => "starting"
  | running => "running"
  | stopped => "stopped"
  | exited => "exited"
  | disposed => "disposed"

structure Lifecycle where
  started : Bool := false
  running : Bool := false
  exited : Bool := false
  attached : Bool := false
  disposed : Bool := false
  deriving DecidableEq, Repr, Inhabited

inductive Transition
  | resumed
  | reported (kind : TargetEventKind)
  | initialized
  | attached
  | detached
  | disposed
  deriving DecidableEq, Repr

namespace Lifecycle

/-- A stop ends the running and an exit ends the whole run; other events leave the flags alone. -/
def reported (l : Lifecycle) (kind : TargetEventKind) : Lifecycle :=
  if kind.isStop then { l with running := false }
  else if kind = .exited then { l with running := false, started := false, exited := true }
  else l

def after (l : Lifecycle) : Transition → Lifecycle
  | .resumed => { l with exited := false, running := true }
  | .reported kind => l.reported kind
  | .initialized => { l with started := true }
  | .attached => { l with attached := true }
  | .detached => { l with attached := false }
  | .disposed => { l with disposed := true }

def phase (l : Lifecycle) : Phase :=
  if l.disposed then .disposed
  else if l.running then if l.started then .running else .starting
  else if l.exited then .exited
  else if l.started then .stopped
  else .idle

end Lifecycle

end DebugSession
