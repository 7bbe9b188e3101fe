import DebugSession.Host

namespace DebugSession

open Act

variable {σ α : Type} (h : Host σ)

inductive Timed (α : Type)
  | done (a : α)
  | lost

/-- A timeout of zero evaluates on the thread of the caller, which a panic then reaches. -/
def timed (timeout : Nat) (a : Act σ α) : Act σ (Timed α) := do
  if timeout = 0 then return .done (← a)
  else
    match ← outcome a with
    | .ok x => return .done x
    | .error _ => return .lost

def reportError (ctx : EvaluationContext) (e : EvalError) : Act σ Unit :=
  h.writeTo ctx.output .log true (e.message ++ "\n")

def failureNode (ctx : EvaluationContext) (name : String) : EvalError → Act σ NodeId
  | .notSupported message => newNode (.notSupported name message)
  | .internal message => do
    reportError h ctx (.internal message)
    newNode (.unknown name)
  | e => newNode (.error name e.message)

inductive Description
  | made (n : NodeId)
  | owed (value : TargetValue)

namespace Reference

def nullNode (r : Reference) (name : String) : Eval (Act σ) NodeId := do
  let type ← r.type h.debuggee
  let typeName ← (h.debuggee.typeName r.context type : Act σ String)
  (newNode (.nullObject name typeName) : Act σ NodeId)

def finishNode (r : Reference) (n : NodeId) : Act σ Unit := do
  if (← node n).isArray then modifyNode n (·.withChunk r.context.options.fetchChunk)

def makeNode (r : Reference) (name : String) (v : TargetValue) : Eval (Act σ) Description := do
  match ← h.debuggee.createNode r.context (.reference r) (.root name) v r.flags with
  | .now n =>
    (finishNode r n : Act σ Unit)
    return .made n
  | .later => return .owed v

def makeOwedNode (r : Reference) (name : String) (v : TargetValue) : Eval (Act σ) Description := do
  let n ← h.debuggee.owedNode r.context (.reference r) (.root name) v r.flags
  (finishNode r n : Act σ Unit)
  return .made n

def readNode (r : Reference) (name : String) : Eval (Act σ) Description := do
  let v ← r.value h.debuggee
  if ← h.debuggee.isNull r.context v then return .made (← r.nullNode h name)
  else r.makeNode h name v

def orFailureNode (r : Reference) (name : String) (a : Eval (Act σ) Description) :
    Act σ Description := do
  match ← a.run with
  | .ok d => return d
  | .error e => return .made (← failureNode h r.context name e)

def panicNode (r : Reference) (name : String) : Act σ NodeId := do
  reportError h r.context (.internal s!"evaluation of '{name}' panicked")
  newNode (.unknown name)

def pendingNode (r : Reference) (name : String) (v : TargetValue) : Act σ NodeId := do
  let p ← newChannel 1
  modify fun w => { w with openEvaluations := w.openEvaluations ++ [⟨p, r, name, v⟩] }
  newNode (.evaluating name p)

def shownName (r : Reference) : String := if r.name.isEmpty then "?" else r.name

def toNode (r : Reference) : Act σ NodeId := do
  match ← timed r.context.timeout (r.orFailureNode h r.shownName (r.readNode h r.shownName)) with
  | .done (.made n) => return n
  | .done (.owed v) => r.pendingNode r.shownName v
  | .lost => r.panicNode h r.shownName

def childNodes (r : Reference) (path : ValuePath) (range : ChildRange) :
    Eval (Act σ) (List NodeId) := do
  let ctx ← (childContext h.debuggee r.context : Act σ EvaluationContext)
  let fetch : Eval (Act σ) (Reply (List NodeId)) := do
    let v ← r.value h.debuggee
    h.debuggee.children ctx path v range
  match ← (timed ctx.timeout fetch.run : Act σ _) with
  | .done (.ok (.now ns)) => return ns
  | .done (.ok .later) => throw (.evaluation "Timeout when getting children")
  | .done (.error e) => throw e
  | .lost => throw (.internal "child enumeration panicked")

def assignText (r : Reference) (text : String) : Eval (Act σ) Unit := do
  let ctx := r.context
  (h.debuggee.awaitInvocations : Act σ Unit)
  let type ← r.type h.debuggee
  let options := { ctx.options with expectedType := some type, allowMethods := true }
  let evaluated ← (h.evaluatorOf ctx.evaluator).evaluate ctx text options
  let v ← h.debuggee.cast ctx (← evaluated.value h.debuggee) type
  r.assign h.debuggee v

def canonicalText (r : Reference) : Eval (Act σ) String := do
  (h.evaluatorOf r.context.evaluator).toExpression r.context (← r.value h.debuggee)

def reportAssignment (r : Reference) (e : EvalError) : Act σ Unit :=
  h.writeTo r.context.output .log false s!"Value assignment failed: {e.message}\n"

/-- Assigns and answers what the place holds then, or the given text if that cannot be told. What
goes wrong is only logged. -/
def assignAndShow (r : Reference) (text : String) : Act σ String := do
  if let .error e ← (r.assignText h text).run then r.reportAssignment h e
  match ← (r.canonicalText h).run with
  | .ok shown => return shown
  | .error e =>
    r.reportAssignment h e
    return text

end Reference

def evaluateNode (E : Evaluator (Act σ)) (ctx : EvaluationContext) (expression : String) :
    Act σ NodeId := do
  match ← (E.evaluate ctx expression ctx.options).run with
  | .ok r => r.toNode h
  | .error e => failureNode h ctx expression e

def OpenEvaluation.resume (e : OpenEvaluation) : Act σ Unit := do
  let node := e.reference.orFailureNode h e.name (e.reference.makeOwedNode h e.name e.value)
  match ← outcome node with
  | .ok (.made n) =>
    let c ← channel e.result
    setChannel e.result ((c.send n).getD c)
  | .ok (.owed _) | .error _ => setChannel e.result (← channel e.result).close

def resumeEvaluations : Act σ Unit := do
  let es := (← get).openEvaluations
  modify fun w => { w with openEvaluations := [] }
  es.forM (·.resume h)

end DebugSession
