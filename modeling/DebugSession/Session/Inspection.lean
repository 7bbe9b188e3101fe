import DebugSession.Session.Dispatch

namespace DebugSession.SessionId

open Act

variable {σ : Type} (h : Host σ)

def openWith (config : SessionConfig) : Act σ SessionId := do
  let output ← newRouter
  let w ← get
  set { w with sessions := w.sessions.push (Session.new config output) }
  let s : SessionId := ⟨w.sessions.size⟩
  (h.engine s).connect
  return s

def drop (s : SessionId) : Act σ Bool := do
  modifySession s ({ · with held := false })
  isLive s

def phase (s : SessionId) : Act σ Phase := return (← session s).lifecycle.phase

def ask (s : SessionId) (q : EngineRequest) : Act σ (Except SessionError q.Answer) :=
  entering s (.error .detached) <| locked s do
    match ← ((h.engine s).answer q).run with
    | .ok x => return .ok x
    | .error e => return .error (.command q.name e)

def setActiveThread (s : SessionId) (t : ThreadInfo) : Act σ (Except SessionError Unit) :=
  entering s (.error .detached) <| locked s do
    modifySession s ({ · with activeThread := some { t with session := some s } })
    match ← s.ask h (.setActiveThread t.process t.id) with
    | .ok _ => return .ok ()
    | .error fault => return if ← offerFault h s fault then .ok () else .error fault

/-- Lists the processes and remembers them until the next event of the target. -/
def listProcesses (s : SessionId) : Act σ (Except SessionError (List ProcessInfo)) := do
  let answer ← s.ask h .processes
  let answer := answer.map (·.map ({ · with session := some s }))
  if let .ok ps := answer then modifySession s ({ · with processes := some ps })
  return answer

def processes (s : SessionId) : Act σ (Except SessionError (List ProcessInfo)) :=
  entering s (.error .detached) <| locked s do
    match (← session s).processes with
    | some ps => return .ok ps
    | none => s.listProcesses h

def threads (s : SessionId) (process : Nat) : Act σ (Except SessionError (List ThreadInfo)) := do
  let answer ← s.ask h (.threads process)
  return answer.map (·.map ({ · with session := some s }))

def backtrace (s : SessionId) (process thread : Nat) :
    Act σ (Except SessionError (Option Backtrace)) := do
  let answer ← s.ask h (.backtrace process thread)
  return answer.map (·.map ({ · with session := some s }))

def disassembleFile (s : SessionId) (file : String) :
    Act σ (Except SessionError (Option (List AssemblyLine))) :=
  s.ask h (.disassembleFile file)

/-- Asks the engine to abort evaluations. The request does not wait behind commands, and with
workers it has a thread of its own, where a panic is lost. -/
def cancelEvaluations (s : SessionId) : Act σ Unit := keeping s do
  match (← session s).config.dispatch with
  | .inline => (h.engine s).cancel
  | .worker => discard <| onThread (.canceller s) (outcome (h.engine s).cancel)

def expressionKey (expression : String) (l : SourceLocation) : String :=
  s!"{expression} {l.text}"

def askExpression (s : SessionId) (resolver : CallbackId) (expression : String)
    (l : SourceLocation) : Act σ (Option String) := do
  let types (name : String) := h.resolveType resolver name l
  match ← ((h.engine s).resolveExpression expression l types).run with
  | .ok answer => return answer
  | .error e =>
    h.log s true s!"Error while resolving expression: {e.message}"
    return none

/-- Makes the type names of an expression full ones. The engine is asked once for each key; without
a resolver of type names the expression stays as it is. -/
def resolveExpression (s : SessionId) (expression : String) (l : SourceLocation) :
    Act σ String := keeping s do
  let x ← session s
  match x.handlers.typeNames with
  | none => return expression
  | some resolver =>
    let key := expressionKey expression l
    match x.expressions.find? key with
    | some known => return known.getD expression
    | none =>
      let answer ← s.askExpression h resolver expression l
      modifySession s fun x => { x with expressions := x.expressions.store key answer }
      return (((← session s).expressions.find? key).join).getD expression

def findEvaluator (s : SessionId) (extension : Option String) : Act σ (Option EvaluatorId) :=
    keeping s do
  let x ← session s
  match x.evaluators.provider, extension.filter (!·.isEmpty) with
  | some provider, some ext =>
    match x.evaluators.known.find? ext with
    | some known => return known
    | none =>
      let answer ← h.provideEvaluator provider ext
      modifySession s fun x =>
        { x with evaluators := { x.evaluators with known := x.evaluators.known.store ext answer } }
      return ((← session s).evaluators.known.find? ext).join
  | _, _ => return none

def evaluatorFor (s : SessionId) (extension : Option String) : Act σ EvaluatorId := do
  return (← s.findEvaluator h extension).getD .nameResolving

def setEvaluatorProvider (s : SessionId) (provider : Option CallbackId) : Act σ Unit :=
  modifySession s fun x => { x with evaluators := { provider := provider } }

end DebugSession.SessionId
