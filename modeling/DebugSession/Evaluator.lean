import DebugSession.TypeNames
import DebugSession.Value.Navigation

namespace DebugSession

structure Evaluator (m : Type → Type) where
  evaluate : EvaluationContext → String → EvaluationOptions → Eval m Reference
  toExpression : EvaluationContext → TargetValue → Eval m String

structure CompletionItem where
  name : String
  flags : ValueFlags
  deriving DecidableEq, Repr

structure Completion where
  items : List CompletionItem
  length : Nat
  deriving DecidableEq, Repr

variable {m : Type → Type} [Monad m] (A : Adapter m)

def findNamed (name : String) (rs : List Reference) : Option Reference := rs.find? (·.name == name)

def resolveReceiver (ctx : EvaluationContext) (name : String) : Eval m Reference := do
  match ← A.receiver ctx with
  | none => throw (.unresolvedName name)
  | some this =>
    if this.name == name then return this
    match findNamed name (← (this.children A : m (List Reference))) with
    | some r => return r
    | none => throw (.unresolvedName name)

/-- Scopes are listed one after another, and a later one only when the name was not found. -/
def resolveIdentifier (ctx : EvaluationContext) (name : String) : Eval m Reference := do
  match findNamed name (← A.locals ctx) with
  | some r => return r
  | none =>
    match findNamed name (← A.parameters ctx) with
    | some r => return r
    | none => resolveReceiver A ctx name

def followSteps (expression : String) (r : Reference) : List String → Eval m Reference
  | [] => pure r
  | step :: rest => do
    match ← r.child A step with
    | some c => followSteps expression c rest
    | none => throw (.unresolvedName expression)

namespace NameResolving

def evaluateWith (word : Char → Bool) (ctx : EvaluationContext) (expression : String) :
    Eval m Reference := do
  let text := Text.trim expression.toList
  let trimmed := String.ofList text
  match Literal.parse text with
  | some literal => return .literal ctx trimmed (← A.createLiteral ctx literal)
  | none =>
    match AccessPath.parse word text with
    | none => throw .unsupportedExpression
    | some (name, steps) =>
      let start ← resolveIdentifier A ctx (String.ofList name)
      followSteps A trimmed start (steps.map String.ofList)

def evaluate : EvaluationContext → String → Eval m Reference := evaluateWith A Text.isWord

def toExpression (ctx : EvaluationContext) (v : TargetValue) : Eval m String := do
  return (← A.toLiteral ctx v).toExpression

end NameResolving

def nameResolving : Evaluator m where
  evaluate := fun ctx expression _ => NameResolving.evaluate A ctx expression
  toExpression := NameResolving.toExpression A

namespace Completion

def splitLast (expression : List Char) : List Char × List Char :=
  let typed := (expression.reverse.takeWhile Text.isWord).reverse
  (expression.take (expression.length - typed.length), typed)

def visible (ctx : EvaluationContext) : Eval m (List Reference) := do
  let locals ← A.locals ctx
  let parameters ← A.parameters ctx
  match ← A.receiver ctx with
  | none => return locals ++ parameters
  | some this =>
    let members ← (this.children A : m (List Reference))
    return locals ++ parameters ++ this :: members

def beforePoint (s : List Char) : Option (List Char) :=
  match (Text.trimEnd s).reverse with
  | '.' :: r => some r.reverse
  | _ => none

def select (typed : List Char) (rs : List Reference) : List CompletionItem :=
  rs.foldl (fun items r =>
    if typed.isPrefixOf r.name.toList && !items.any (·.name == r.name) then
      items ++ [⟨r.name, r.flags⟩]
    else items) []

def candidates (E : Evaluator m) (ctx : EvaluationContext) (before : List Char) :
    m (Option (List Reference)) := do
  match beforePoint before with
  | some target =>
    if (Text.trim target).isEmpty then return none
    match ← (E.evaluate ctx (String.ofList target) ctx.options).run with
    | .ok r => return some (← r.children A)
    | .error _ => return none
  | none =>
    match ← (visible A ctx).run with
    | .ok rs => return some rs
    | .error _ => return none

end Completion

def complete (E : Evaluator m) (ctx : EvaluationContext) (expression : String) :
    m (Option Completion) := do
  let (before, typed) := Completion.splitLast expression.toList
  match ← Completion.candidates A E ctx before with
  | none => return none
  | some rs =>
    let items := Completion.select typed rs
    return if items.isEmpty then none else some ⟨items, (String.ofList typed).utf8ByteSize⟩

end DebugSession
