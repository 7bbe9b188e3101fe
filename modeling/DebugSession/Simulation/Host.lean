import DebugSession.Session.Inspection
import DebugSession.Simulation.Engine

namespace DebugSession.Simulation

open Act

variable {ρ : Type}

def callback (s : SessionId) (flag : Bool) : CallbackId := ⟨2 * s.index + flag.toNat + 1⟩

def owner? (c : CallbackId) : Option SessionId :=
  if c.raw = 0 then none else some ⟨(c.raw - 1) / 2⟩

def owner (c : CallbackId) : SessionId := (owner? c).getD default

def flag (c : CallbackId) : Bool := c.raw != 0 && c.raw % 2 == 0

def numberedChild (path : ValuePath) (i : Nat) : Program ρ NodeId :=
  newNode (.primitive none (path.append s!"f{i}") "int" (toString i) false)

def numbered (S : Surroundings ρ) : ChildProvider (Program ρ) where
  children := fun path range => do
    (S.report (.askedChildren path range) : Program ρ Unit)
    check "source"
    let m ← (memory : Program ρ Memory)
    ((answered range m.supply m.surplus).mapM (numberedChild path) : Program ρ (List NodeId))
  setValue := fun path text => do
    (S.report (.assigned path text) : Program ρ Unit)
    check "source"
    return "<" ++ String.ofList (Text.trim text.toList) ++ ">"

def host (S : Surroundings ρ) : Host (Memory × ρ) where
  engine := engine S
  observe := fun s c e => S.report (.event s c.raw e)
  storeChanged := fun c _ a => do
    if let some f := (← memory).followers[c.raw]? then S.report (.change f.name a)
  vetoes := fun c _ => do
    let m ← memory
    return m.followers[c.raw]?.any (m.vetoes.contains ·.name)
  write := fun c isError text =>
    S.report (.written (owner? c) (if flag c then .target else .log) isError text)
  handleFault := fun c e => do
    S.report (.fault (owner c) e)
    return flag c
  trace := fun c e text => S.report (.traced (owner c) e text)
  customHit := fun c action e => do
    S.report (.hit (owner c) action e)
    return flag c
  resolveType := fun c name _ => do
    S.report (.askedType name)
    return ((← memory).resolvers.getD c.raw []).lookup name
  provideEvaluator := fun c extension => do
    S.report (.askedEvaluator extension)
    let known := (← script (owner c)).extensions.contains extension
    return if known then some (.provided 0) else none
  evaluator := fun _ => nameResolving (debuggee S)
  debuggee := debuggee S
  stackWalk := stackWalk S
  source := fun _ => numbered S

def enterFrame (frame : Frame) (options : EvaluationOptions) : Program ρ Unit := do
  let output ← newRouter
  setWriter output .log (some ⟨0⟩)
  let context := { scope := ⟨0⟩, options := options, timeout := 0, output := output }
  modifyMemory ({ · with frame := frame, context := context })

def subscribe (s : SessionId) (topic : Option Topic) : Program ρ Nat := do
  let m ← memory
  let n := m.subscribers.size
  let (id, observers) := (← session s).observers.subscribe topic ⟨n⟩
  modifySession s ({ · with observers := observers })
  modifyMemory ({ · with subscribers := m.subscribers.push id })
  return n

def unsubscribe (s : SessionId) (n : Nat) : Program ρ Bool := do
  match (← memory).subscribers[n]? with
  | none => return false
  | some id =>
    let observers := (← session s).observers
    modifySession s ({ · with observers := observers.unsubscribe id })
    return observers.contains id

def follow (st : StoreId) (name : String) : Program ρ Nat := do
  let m ← memory
  let n := m.followers.size
  let id ← st.subscribe (.external ⟨n⟩)
  modifyMemory ({ · with followers := m.followers.push ⟨st, id, name⟩ })
  return n

def unfollow (n : Nat) : Program ρ Unit := do
  if let some f := (← memory).followers[n]? then f.store.unsubscribe f.id

def newResolver (names : List (String × String)) : Program ρ CallbackId := do
  let m ← memory
  modifyMemory ({ · with resolvers := m.resolvers.push names })
  return ⟨m.resolvers.size⟩

def setSink (s : SessionId) (sink : Sink) (on : Bool) : Program ρ Unit := do
  setWriter (← session s).output sink (if on then some (callback s (sink == .target)) else none)

def openSession (S : Surroundings ρ) (config : SessionConfig) (script : Script) :
    Program ρ SessionId := do
  modifyMemory fun m => { m with scripts := m.scripts.push script }
  let s ← SessionId.openWith (host S) config
  discard <| subscribe s none
  setSink s .log true
  setSink s .target true
  return s

end DebugSession.Simulation
