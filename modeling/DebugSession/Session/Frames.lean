import DebugSession.Session.Inspection

namespace DebugSession

open Act

variable {σ : Type} (h : Host σ)

def liveSession : Option SessionId → Act σ (Option SessionId)
  | some s => return if ← isLive s then some s else none
  | none => return none

def ProcessInfo.threads (p : ProcessInfo) : Act σ (Except SessionError (List ThreadInfo)) := do
  match ← liveSession p.session with
  | some s => s.threads h p.id
  | none => return .error .detached

def ThreadInfo.backtrace (t : ThreadInfo) : Act σ (Except SessionError (Option Backtrace)) := do
  match ← liveSession t.session with
  | some s => s.backtrace h t.process t.id
  | none => return .error .detached

namespace Backtrace

def frameCount (b : Backtrace) : Act σ Nat := (h.stackWalk b.source).frameCount

def options (b : Backtrace) : Act σ EvaluationOptions := do
  match ← liveSession b.session with
  | some s => return (← Act.session s).options.evaluation
  | none => return {}

def frame (b : Backtrace) (index : Nat) : Act σ (Except SessionError StackFrame) := do
  match ← ((h.stackWalk b.source).frame index).run with
  | .error e => return .error (.command "frame" e)
  | .ok info =>
    return .ok { info := info, index := index, options := ← b.options, backtrace := b.source,
                 session := b.session }

def framesAt (b : Backtrace) : List Nat → Act σ (Except SessionError (List StackFrame))
  | [] => return .ok []
  | i :: rest => do
    match ← b.frame h i with
    | .error e => return .error e
    | .ok f => return (← b.framesAt rest).map (f :: ·)

def frames (b : Backtrace) : Act σ (Except SessionError (List StackFrame)) := do
  b.framesAt h (List.range (← b.frameCount h))

end Backtrace

namespace StackFrame

variable (f : StackFrame)

def walk : StackWalk (Act σ) := h.stackWalk f.backtrace

def locals (options : EvaluationOptions) : Act σ (List NodeId) := (f.walk h).locals f.index options

def parameters (options : EvaluationOptions) : Act σ (List NodeId) :=
  (f.walk h).parameters f.index options

def allLocals (options : EvaluationOptions) : Act σ (List NodeId) :=
  (f.walk h).allLocals f.index options

def receiver (options : EvaluationOptions) : Act σ (Option NodeId) :=
  (f.walk h).receiver f.index options

def expressions (es : List String) (options : EvaluationOptions) : Act σ (List NodeId) :=
  (f.walk h).expressions f.index es options

def optionsWith (allowMethods : Bool) : EvaluationOptions :=
  { f.options with allowMethods := allowMethods }

def expression (e : String) (allowMethods : Bool) : Act σ NodeId := do
  match ← f.expressions h [e] (f.optionsWith allowMethods) with
  | n :: _ => return n
  | [] => newNode (.unknown e)

def evaluator (ctx : EvaluationContext) : Act σ EvaluatorId := do
  match ← liveSession f.session with
  | some s => s.evaluatorFor h f.info.location.fileExtension
  | none => return ctx.evaluator

def completion (expression : String) : Act σ (Option Completion) := do
  match ← (f.walk h).context f.index f.options with
  | none => return none
  | some ctx => complete h.debuggee (h.evaluatorOf (← f.evaluator h ctx)) ctx expression

def disassemble (first : Int) (count : Nat) : Act σ (List AssemblyLine) :=
  (f.walk h).disassemble f.index first count

end StackFrame

end DebugSession
