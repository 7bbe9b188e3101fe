import DebugSession.Host

namespace DebugSession.Simulation

structure Variable where
  name : String
  cell : Nat
  flags : ValueFlags := {}
  deriving Repr, Inhabited

inductive Value
  | literal (l : Literal)
  | null (type : String)
  | array (cells : List Nat) (elementType : String)
  | object (type : String) (fields : List Variable)
  | failing (e : EvalError)
  | panicking (text : String)
  deriving Inhabited

def literalTypeName : Literal → String
  | .null => "object"
  | .bool _ => "bool"
  | .int _ => "int"
  | .uint _ => "uint"
  | .float _ => "double"
  | .char _ => "char"
  | .text _ => "string"
  | .pointer _ => "ptr"
  | .other _ => "other"

namespace Value

def typeName : Value → String
  | literal l => literalTypeName l
  | null type | object type _ => type
  | array _ elementType => elementType ++ "[]"
  | failing _ | panicking _ => "?"

def toLiteral : Value → Literal
  | literal l => l
  | null _ => .null
  | v => .other v.typeName

end Value

structure Frame where
  locals : List Variable := []
  parameters : List Variable := []
  receiver : Option Variable := none
  isForeign : Bool := false
  deriving Inhabited

structure Script where
  processes : List ProcessInfo := []
  threads : List ThreadInfo := []
  frames : Option (List (Except EngineError (FrameInfo × Bool))) := none
  assembly : List (String × Nat) := []
  cancels : Bool := false
  isPlain : Bool := false
  handles : Nat := 0
  insertions : List (Option Nat × Option (BindingStatus × Option String)) := []
  refused : List String := []
  isLocked : Bool := false
  failures : List (String × EngineError) := []
  panics : List (String × Panic) := []
  extensions : List String := []
  deriving Inhabited

structure Follower where
  store : StoreId
  id : ListenerId
  name : String
  deriving Inhabited

structure Memory where
  cells : Array Value := #[]
  slots : Array Variable := #[]
  readings : Array Value := #[]
  typeNames : Array String := #[]
  frame : Frame := {}
  childTimeout : Nat := 0
  isPlain : Bool := false
  faults : List (String × EvalError) := []
  /-- How many elements more than asked for are answered with. -/
  surplus : Int := 0
  silent : Option String := none
  scripts : Array Script := #[]
  context : EvaluationContext := default
  supply : Nat := 0
  subscribers : Array SubscriptionId := #[]
  followers : Array Follower := #[]
  vetoes : List String := []
  resolvers : Array (List (String × String)) := #[]
  deriving Inhabited

variable {ρ : Type}

abbrev Program (ρ : Type) := Act (Memory × ρ)

def memory : Program ρ Memory := return (← Act.host).1

def modifyMemory (f : Memory → Memory) : Program ρ Unit := Act.modifyHost fun s => (f s.1, s.2)

def newCell (v : Value) : Program ρ Nat := do
  let m ← memory
  modifyMemory ({ · with cells := m.cells.push v })
  return m.cells.size

def keep {α : Type} (key : String) (value : Option α) (entries : List (String × α)) :
    List (String × α) :=
  value.toList.map (key, ·) ++ entries.filter (·.1 != key)

end DebugSession.Simulation
