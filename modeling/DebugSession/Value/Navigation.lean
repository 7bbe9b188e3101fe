import DebugSession.AccessPath
import DebugSession.Value.Adapter

namespace DebugSession

variable {m : Type → Type} [Monad m] (A : Adapter m)

def indexBound : Nat := UInt64.size

def childContext (ctx : EvaluationContext) : m EvaluationContext := do
  return { ctx with timeout := ← A.childTimeout }

inductive PlainValue
  | primitive (literal : Literal)
  | object (value : TargetValue)

namespace Reference

def value (r : Reference) : Eval m TargetValue :=
  match r.origin with
  | .slot s => A.readSlot r.context s
  | .literal v => pure v

def type (r : Reference) : Eval m TargetType :=
  match r.origin with
  | .slot s => A.slotType r.context s
  | .literal v => A.valueType r.context v

def assign (r : Reference) (v : TargetValue) : Eval m Unit :=
  match r.origin with
  | .slot s => A.writeSlot r.context s v
  | .literal _ => throw (.evaluation "Literal values cannot be assigned")

def plainValue (r : Reference) : Eval m (Option PlainValue) := do
  let v ← r.value A
  if ← A.isNull r.context v then return none
  if ← A.isPrimitive r.context v then
    return some (.primitive (← A.toLiteral r.context v))
  return some (.object v)

def toText (r : Reference) : Eval m String := do
  let v ← r.value A
  if r.context.options.allowToString then A.callToString r.context v
  else
    let name ← A.typeName r.context (← A.valueType r.context v)
    return "\x7b" ++ name ++ "\x7d"

def memberReferences (r : Reference) : Eval m (List Reference) := do
  let v ← r.value A
  if ← A.isClassInstance r.context v then
    let type ← A.valueType r.context v
    A.members (← (childContext A r.context : m EvaluationContext)) type v
  else return []

def children (r : Reference) : m (List Reference) := do
  match ← (r.memberReferences A).run with
  | .ok rs => return rs
  | .error _ => return []

def parseIndices (name : String) : Except EvalError (List Nat) :=
  match AccessPath.indices indexBound name.toList with
  | some is => .ok is
  | none => .error (.evaluation s!"Invalid array index '{name}'")

def child (r : Reference) (name : String) : Eval m (Option Reference) := do
  let v ← r.value A
  if ← A.isNull r.context v then return none
  if ← A.isArray r.context v then
    let is ← (parseIndices name : Except EvalError (List Nat))
    return some (← A.arrayElement r.context v is)
  if ← A.isClassInstance r.context v then
    let type ← A.valueType r.context v
    A.member (← (childContext A r.context : m EvaluationContext)) type v name
  else return none

def childAtPath (r : Reference) : List String → Eval m (Option Reference)
  | [] => pure (some r)
  | name :: rest => do
    match ← r.child A name with
    | some c => c.childAtPath rest
    | none => return none

end Reference

end DebugSession
