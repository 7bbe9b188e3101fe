import DebugSession.Simulation.Happening

namespace DebugSession.Simulation

open Act

variable {ρ : Type}

def check (operation : String) : Eval (Program ρ) Unit := do
  let m ← (memory : Program ρ Memory)
  if let some e := m.faults.lookup operation then throw e

def isSilent (operation : String) : Program ρ Bool := return (← memory).silent == some operation

def reading (v : TargetValue) : Program ρ Value := return (← memory).readings.getD v.handle default

def newReading (v : Value) : Program ρ TargetValue := do
  let m ← memory
  modifyMemory ({ · with readings := m.readings.push v })
  return ⟨m.readings.size⟩

def newType (v : Value) : Program ρ TargetType := do
  let m ← memory
  modifyMemory ({ · with typeNames := m.typeNames.push v.typeName })
  return ⟨m.typeNames.size⟩

def typeName (t : TargetType) : Program ρ String := return (← memory).typeNames.getD t.handle ""

def variableAt (slot : Slot) : Program ρ Variable := return (← memory).slots.getD slot.handle default

def cell (n : Nat) : Program ρ Value := return (← memory).cells.getD n default

def refer (ctx : EvaluationContext) (flags : ValueFlags) (v : Variable) : Program ρ Reference := do
  let m ← memory
  let v := { v with flags := v.flags.union flags }
  modifyMemory ({ · with slots := m.slots.push v })
  return ⟨ctx, v.name, v.flags, .slot ⟨m.slots.size⟩⟩

def inScope (operation : String) (flags : ValueFlags) (among : Frame → List Variable)
    (ctx : EvaluationContext) : Eval (Program ρ) (List Reference) := do
  check operation
  let m ← (memory : Program ρ Memory)
  if m.frame.isForeign then throw (.internal "foreign scope")
  ((among m.frame).mapM (refer ctx flags) : Program ρ _)

def fieldsOf (ctx : EvaluationContext) (v : TargetValue) : Program ρ (List Reference) := do
  match ← reading v with
  | .object _ fields => fields.mapM (refer ctx { field := true })
  | _ => return []

def members (ctx : EvaluationContext) (_ : TargetType) (v : TargetValue) :
    Eval (Program ρ) (List Reference) := do
  check "members"
  (fieldsOf ctx v : Program ρ _)

def readSlot (ctx : EvaluationContext) (slot : Slot) : Eval (Program ρ) TargetValue := do
  check "value"
  let v ← (variableAt slot : Program ρ Variable)
  if v.flags.property && !ctx.options.allowMethods then
    throw (.notSupported "Implicit evaluation is disabled")
  match ← (cell v.cell : Program ρ Value) with
  | .failing e => throw e
  | .panicking text => (throw ⟨some text⟩ : Program ρ TargetValue)
  | x => (newReading x : Program ρ TargetValue)

def toLiteral (_ : EvaluationContext) (v : TargetValue) : Eval (Program ρ) Literal := do
  check "to_literal"
  return (← (reading v : Program ρ Value)).toLiteral

def nodeOf (source : ChildSource) (path : ValuePath) (flags : ValueFlags) (v : Value) : Node :=
  match v with
  | .null type => .nullObject path.last type
  | .array cells _ => .array (some source) path v.typeName cells.length none
  | .object type _ => .object (some source) path type ("\x7b" ++ type ++ "\x7d") none
  | v => .primitive (some source) path v.typeName v.toLiteral.toExpression !flags.readOnly

def owedNode (_ : EvaluationContext) (source : ChildSource) (path : ValuePath) (v : TargetValue)
    (flags : ValueFlags) : Eval (Program ρ) NodeId := do
  let x ← (reading v : Program ρ Value)
  (newNode (nodeOf source path flags x) : Program ρ NodeId)

def createNode (ctx : EvaluationContext) (source : ChildSource) (path : ValuePath) (v : TargetValue)
    (flags : ValueFlags) : Eval (Program ρ) (Reply NodeId) := do
  check "create_node"
  if ← (isSilent "create_node" : Program ρ Bool) then return .later
  else return .now (← owedNode ctx source path v flags)

def elementCell (v : Value) (here : Nat) : List Nat → Eval (Program ρ) Nat
  | [] => pure here
  | i :: rest =>
    match v with
    | .array cells _ =>
      match cells[i]? with
      | some c => do elementCell (← (cell c : Program ρ Value)) c rest
      | none => throw (.evaluation "Index out of range")
    | _ => throw (.evaluation "wrong number of indices")

def elementAt (ctx : EvaluationContext) (is : List Nat) (c : Nat) : Program ρ Reference :=
  refer ctx { arrayElement := true } ⟨"[" ++ ",".intercalate (is.map toString) ++ "]", c, {}⟩

def element (ctx : EvaluationContext) (v : TargetValue) (is : List Nat) :
    Eval (Program ρ) Reference := do
  check "array_element"
  let c ← elementCell (← (reading v : Program ρ Value)) 0 is
  (elementAt ctx is c : Program ρ Reference)

def answered (range : ChildRange) (size : Nat) (surplus : Int) : List Nat :=
  match range with
  | .all => List.range size
  | .range start count => (List.range (min (start + (count + surplus).toNat) size)).drop start

def elementNode (ctx : EvaluationContext) (path : ValuePath) (i cell : Nat) :
    Eval (Program ρ) (Reply NodeId) := do
  let r ← (elementAt ctx [i] cell : Program ρ Reference)
  match r.origin with
  | .slot slot => createNode ctx (.reference r) (path.append r.name) (← readSlot ctx slot) r.flags
  | .literal x => createNode ctx (.reference r) (path.append r.name) x r.flags

def elementNodes (ctx : EvaluationContext) (path : ValuePath) :
    List (Nat × Nat) → Eval (Program ρ) (Reply (List NodeId))
  | [] => return .now []
  | (i, cell) :: rest => do
    match ← elementNode ctx path i cell with
    | .later => return .later
    | .now n =>
      match ← elementNodes ctx path rest with
      | .later => return .later
      | .now ns => return .now (n :: ns)

def answeredElements (range : ChildRange) (cells : List Nat) (surplus : Int) : List (Nat × Nat) :=
  let range := match range with
    | .all => .range 0 cells.length
    | r => r
  (answered range cells.length surplus).filterMap fun i => cells[i]?.map (i, ·)

def fieldNodes (S : Surroundings ρ) : List Reference → Program ρ (Reply (List NodeId))
  | [] => return .now []
  | r :: rest => do
    let n ← S.toNode r
    if (← node n).isEvaluating then return .later
    match ← fieldNodes S rest with
    | .later => return .later
    | .now ns => return .now (n :: ns)

def children (S : Surroundings ρ) (ctx : EvaluationContext) (path : ValuePath) (v : TargetValue)
    (range : ChildRange) : Eval (Program ρ) (Reply (List NodeId)) := do
  let m ← (memory : Program ρ Memory)
  if m.silent.isNone then (S.report (.askedChildren path range) : Program ρ Unit)
  check "children"
  if m.silent == some "children" then return .later
  match ← (reading v : Program ρ Value) with
  | .object _ _ =>
    let made : Program ρ (Reply (List NodeId)) := do fieldNodes S (← fieldsOf ctx v)
    made
  | .array cells _ => elementNodes ctx path (answeredElements range cells m.surplus)
  | _ => return .now []

def write (S : Surroundings ρ) (_ : EvaluationContext) (slot : Slot) (v : TargetValue) :
    Eval (Program ρ) Unit := do
  check "set_value"
  let store : Program ρ Unit := do
    let x ← variableAt slot
    S.report (.stored x.name)
    let y ← reading v
    modifyMemory fun m => { m with cells := m.cells.setIfInBounds x.cell y }
  store

def cast (_ : EvaluationContext) (v : TargetValue) (t : TargetType) :
    Eval (Program ρ) TargetValue := do
  check "cast"
  let name ← (typeName t : Program ρ String)
  match ← (reading v : Program ρ Value) with
  | .null type =>
    if type == name then return v
    else if Text.isUpper (name.toList.headD ' ') then (newReading (.null name) : Program ρ TargetValue)
    else throw (.evaluation s!"Cannot convert '{type}' to '{name}'")
  | x =>
    if x.typeName == name then return v
    else throw (.evaluation s!"Cannot convert '{x.typeName}' to '{name}'")

def createLiteral (_ : EvaluationContext) (l : Literal) : Eval (Program ρ) TargetValue := do
  check "create_literal"
  (newReading (if l matches .null then .null "object" else .literal l) : Program ρ TargetValue)

def toText (ctx : EvaluationContext) (v : TargetValue) : Eval (Program ρ) String := do
  check "to_string"
  match ← (reading v : Program ρ Value) with
  | .literal (.text s) => return s
  | _ => return (← toLiteral ctx v).toExpression

def typeAfter (a : Program ρ Value) : Eval (Program ρ) TargetType := do
  check "value_type"
  let type : Program ρ TargetType := do newType (← a)
  type

def debuggee (S : Surroundings ρ) : Adapter (Program ρ) where
  readSlot := readSlot
  slotType := fun _ slot => typeAfter do cell (← variableAt slot).cell
  writeSlot := write S
  isNull := fun _ v => return (← reading v) matches .null _
  isPrimitive := fun _ v => return (← reading v) matches .literal _
  isArray := fun _ v => return (← reading v) matches .array _ _
  isClassInstance := fun _ v => return (← reading v) matches .object _ _
  valueType := fun _ v => typeAfter (reading v)
  typeName := fun _ => typeName
  locals := inScope "locals" { localVariable := true } (·.locals)
  parameters := inScope "parameters" { parameter := true } (·.parameters)
  receiver := fun ctx => do
    let rs ← inScope "this" { localVariable := true, readOnly := true } (·.receiver.toList) ctx
    return rs.head?
  members := members
  member := Adapter.firstMember members
  arrayElement := fun ctx v is => do
    if (← (memory : Program ρ Memory)).isPlain then Adapter.noArrayElement ctx v is
    else element ctx v is
  cast := cast
  toLiteral := toLiteral
  createLiteral := fun ctx l => do
    if (← (memory : Program ρ Memory)).isPlain then Adapter.noLiterals ctx l
    else createLiteral ctx l
  createNode := createNode
  owedNode := owedNode
  children := children S
  callToString := toText
  childTimeout := do
    let m ← memory
    return if m.isPlain then Adapter.defaultChildTimeout else m.childTimeout
  awaitInvocations := do unless (← memory).isPlain do S.report .awaitedInvocations

end DebugSession.Simulation
