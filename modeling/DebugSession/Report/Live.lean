import DebugSession.Report.Data
import DebugSession.Session.Frames
import DebugSession.Session.Reporter

namespace DebugSession

open Act

variable {σ : Type} (h : Host σ)

def isReachable (s : Option SessionId) : Act σ Bool := return (← liveSession s).isSome

def ThreadInfo.describe (t : ThreadInfo) : Act σ Report := do
  return .record [("process", report t.process), ("id", report t.id), ("name", report t.name),
    ("location", report t.location), ("live", report (← isReachable t.session))]

def ProcessInfo.describe (p : ProcessInfo) : Act σ Report := do
  return .record [("id", report p.id), ("name", report p.name),
    ("live", report (← isReachable p.session))]

def Backtrace.describe (b : Backtrace) : Act σ Report := return report (← b.frameCount h)

def NodeId.describe (n : NodeId) : Act σ Report := return (← node n).summary

def TargetEvent.describe (e : TargetEvent) : Act σ Report := do
  return .record [("stop", report e.isStop), ("thread", report (← e.thread.mapM (·.describe))),
    ("process", report (← e.process.mapM (·.describe))),
    ("frames", report (← e.backtrace.mapM (·.describe h))),
    ("break_event", report e.breakEvent), ("signal", report e.signal),
    ("exit_code", report e.exitCode)]

def SessionEvent.describe : SessionEvent → Act σ Report
  | started => return .absent
  | busy b => return report b
  | anyTarget e => return .list [report e.kind.name, report e.isStop]
  | target e => e.describe h

namespace StackFrame

variable (f : StackFrame)

def heading : Act σ (List (String × Report)) := do
  return [("display", report f.text), ("address", report f.info.address),
    ("index", report f.index), ("language", report f.info.language),
    ("location", report f.info.location.text),
    ("extension", report f.info.location.fileExtension),
    ("live", report (← isReachable f.session)), ("options", report f.options)]

def values (options : EvaluationOptions) : Act σ (List (String × Report)) := do
  let list (ns : List NodeId) : Act σ Report := return report (← ns.mapM (·.describe))
  return [("locals", ← list (← f.locals h options)),
    ("parameters", ← list (← f.parameters h options)),
    ("all_locals", ← list (← f.allLocals h options)),
    ("this", report (← (← f.receiver h options).mapM (·.describe)))]

def describe : Act σ Report := return .record ((← f.heading) ++ (← f.values h f.options))

end StackFrame

def SessionId.describe (s : SessionId) : Act σ Report := do
  let x ← session s
  let l := x.lifecycle
  return if x.held then .list [report l.phase.text, report l.running, report l.started,
      report l.attached, report l.disposed, report x.ownsStore, report x.bindings.handleCount]
    else .absent

end DebugSession
