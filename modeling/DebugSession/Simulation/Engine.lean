import DebugSession.Simulation.Debuggee

namespace DebugSession.Simulation

open Act

variable {ρ : Type}

def script (s : SessionId) : Program ρ Script := return (← memory).scripts.getD s.index default

def modifyScript (s : SessionId) (f : Script → Script) : Program ρ Unit :=
  modifyMemory fun m => { m with scripts := m.scripts.modify s.index f }

def enter (S : Surroundings ρ) (s : SessionId) (c : Call) : Attempt (Program ρ) Unit := do
  (S.report (.call s c) : Program ρ Unit)
  let x ← (script s : Program ρ Script)
  if let some p := x.panics.lookup c.name then (throw p : Program ρ Unit)
  if let some e := x.failures.lookup c.name then throw e

/-- Handles are numbered in order, unless the script says one. An event is bound unless the script
gives another status. -/
def insert (s : SessionId) (e : BreakEvent) : Attempt (Program ρ) Binding := do
  let x ← (script s : Program ρ Script)
  if e.file.any x.refused.contains then throw (.failed "No source file loaded for this location")
  let (handle, result) := x.insertions.headD (none, none)
  let (status, message) := result.getD (.bound, none)
  (modifyScript s fun x =>
    { x with
      insertions := x.insertions.tail
      handles := if handle.isSome then x.handles else x.handles + 1 } : Program ρ Unit)
  return ⟨⟨handle.getD (x.handles + 1)⟩, status, message⟩

def addressBound : Nat := UInt64.size

def disassembly (address : Nat) : List AssemblyLine :=
  [⟨address, "op1", some 1⟩, ⟨(address + 1) % addressBound, "op2", some 2⟩]

def answer (s : SessionId) (x : Script) : (q : EngineRequest) → Attempt (Program ρ) q.Answer
  | .insert e => insert s e
  | .threads p => return x.threads.filter (·.process == p)
  | .processes => return x.processes
  | .backtrace _ _ => return if x.frames.isSome then some { source := ⟨s.index⟩ } else none
  | .disassembleFile file => return (x.assembly.lookup file).map disassembly
  | .command _ | .setActiveThread _ _ | .remove _ | .update _ _ | .enable _ _ => return ()

def perform (S : Surroundings ρ) (s : SessionId) (q : EngineRequest) :
    Attempt (Program ρ) q.Answer := do
  let x ← (script s : Program ρ Script)
  if x.isPlain && q matches .disassembleFile _ then answer s {} q
  else
    enter S s (.request q)
    answer s x q

def resolve (S : Surroundings ρ) (s : SessionId) (expression : String)
    (l : SourceLocation) (ask : String → Program ρ (Option String)) :
    Attempt (Program ρ) (Option String) := do
  if (← (script s : Program ρ Script)).isPlain then Engine.qualifyExpression expression l ask
  else
    enter S s (.resolve expression)
    if expression.contains '@' then throw (.failed "unexpected character '@'")
    else if expression.contains '#' then return none
    else Engine.qualifyExpression expression l ask

def engine (S : Surroundings ρ) (s : SessionId) : Engine (Program ρ) where
  connect := pure ()
  answer := perform S s
  allowsChanges := do
    let x ← script s
    return x.isPlain || !x.isLocked
  canCancel := do
    let x ← script s
    return x.cancels && !x.isPlain
  cancel := do unless (← script s).isPlain do discard (enter S s .cancel).run
  resolveExpression := resolve S s

def lines (address : Nat) (first : Int) (count : Nat) : List AssemblyLine :=
  (List.range (min count 8)).map fun (i : Nat) =>
    let line := first + i
    ⟨(address + i) % addressBound, s!"op{line}", if 0 ≤ line && line < UInt32.size then some line.toNat else none⟩

def stackFrame (s : SessionId) (index : Nat) : Attempt (Program ρ) (FrameInfo × Bool) := do
  match ((← (script s : Program ρ Script)).frames.getD [])[index]? with
  | none => throw (.failed "no such frame")
  | some (.error e) => throw e
  | some (.ok f) => return f

def nodesOf (toNode : Reference → Program ρ NodeId) (among : Eval (Program ρ) (List Reference)) :
    Program ρ (List NodeId) := do
  match ← among.run with
  | .ok rs => rs.mapM toNode
  | .error _ => return []

def stackWalk (S : Surroundings ρ) (b : BacktraceId) : StackWalk (Program ρ) :=
  let s : SessionId := ⟨b.raw⟩
  let A := debuggee S
  let inContext (o : EvaluationOptions) : Program ρ EvaluationContext := do
    return { (← memory).context with options := o }
  { StackWalk.listing (do return ((← script s).frames.getD []).length)
      (fun i => do return (← stackFrame s i).1)
      (fun _ o => do nodesOf S.toNode (A.locals (← inContext o)))
      (fun _ o => do nodesOf S.toNode (A.parameters (← inContext o)))
      (fun _ o => do
        let ctx ← inContext o
        return (← nodesOf S.toNode (do return (← A.receiver ctx).toList)).head?)
      (fun _ es o => do es.mapM (S.evaluate (← inContext o))) with
    context := fun i o => do
      match ← (stackFrame s i).run with
      | .ok (_, true) => return some (← inContext o)
      | _ => return none
    disassemble := fun i first count => do
      match ← (stackFrame s i).run with
      | .ok (f, _) => return lines f.address first count
      | .error _ => return [] }

structure NamedFrame where
  info : FrameInfo
  locals : List String := []
  parameters : List String := []
  receivers : List String := []

def namedNode (value : String) (name : String) : Program ρ NodeId :=
  newNode (.primitive none (.root name) "int" value false)

def shownOption (o : EvaluationOptions) (e : String) : Program ρ NodeId :=
  newNode (.primitive none (.root e) "string" (toString o.allowMethods) false)

def namesWalk (frames : List (Except EngineError NamedFrame)) : StackWalk (Program ρ) :=
  let frame (i : Nat) : Except EngineError NamedFrame :=
    frames[i]?.getD (.error (.failed "no such frame"))
  let names (f : NamedFrame → List String) (value : String) (i : Nat) : Program ρ (List NodeId) :=
    ((frame i).toOption.elim [] f).mapM (namedNode value)
  .listing (pure frames.length)
    (fun i => do return (← (frame i : Except EngineError NamedFrame)).info)
    (fun i _ => names (·.locals) "locals" i)
    (fun i _ => names (·.parameters) "parameters" i)
    (fun i _ => do return (← names (·.receivers) "this" i).getLast?)
    (fun _ es o => (es.filter (!·.isEmpty)).mapM (shownOption o))

end DebugSession.Simulation
