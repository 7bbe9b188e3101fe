import DebugSession.Value.Description

namespace DebugSession

open Act

variable {σ : Type} (h : Host σ)

namespace ChildSource

def children (path : ValuePath) (range : ChildRange) : ChildSource → Eval (Act σ) (List NodeId)
  | .reference r => r.childNodes h path range
  | .external s => (h.source s).children path range

def setValue (path : ValuePath) (text : String) : ChildSource → Eval (Act σ) String
  | .reference r => (r.assignAndShow h text : Act σ String)
  | .external s => (h.source s).setValue path text

end ChildSource

namespace NodeId

def fetch (n : Node) (range : ChildRange) : Act σ (Except EvalError (List NodeId)) :=
  match n.source with
  | some source => (source.children h n.path range).run
  | none => return .ok []

def keep (id : NodeId) (cs : Array NodeId) : Act σ Unit :=
  modifyNode id ({ · with children := some cs })

def findNamed (cs : List NodeId) (name : String) : Act σ (Option NodeId) := do
  cs.findM? fun c => return (← node c).name == name

/-- A child by name. A failed fetch shows as an error node and is tried again by the next call. -/
def child (id : NodeId) (name : String) : Act σ (Except ValueError (Option NodeId)) := do
  let n ← node id
  if n.isArray then return .error .isAnArray
  match n.children with
  | some cs => return .ok (← findNamed cs.toList name)
  | none =>
    match ← fetch h n .all with
    | .ok cs =>
      id.keep cs.toArray
      return .ok (← findNamed cs name)
    | .error e => return .ok (some (← newNode (.error "" e.message)))

def elementName (index : Nat) : String := s!"[{index}]"

def fetchElement (id : NodeId) (n : Node) (index start count : Nat) : Act σ NodeId := do
  match ← fetch h n (.range start count) with
  | .error e => newNode (.error (elementName index) e.message)
  | .ok items =>
    let cs := Elements.absorb (n.children.getD #[]) count items
    id.keep cs
    match cs[index]? with
    | some c => return c
    | none =>
      newNode (.error (elementName index) "The debugger returned fewer array elements than requested")

def element (id : NodeId) (index : Nat) : Act σ (Except ValueError NodeId) := do
  let n ← node id
  if !n.isArray then return .error .notAnArray
  if n.length ≤ index then return .error (.indexOutOfRange index n.length)
  match Elements.step (n.children.getD #[]) n.length n.chunk index with
  | .cached c => return .ok c
  | .fetch start count => return .ok (← id.fetchElement h n index start count)

/-- All elements, or the one error that kept the last of them from being fetched. -/
def elements (id : NodeId) (n : Node) : Act σ (List NodeId) := do
  if 0 < n.length then
    let last := n.length - 1
    if let .ok c ← id.element h last then
      if (← node c).isError && (← node id).cachedChildCount ≤ last then return [c]
  return ((← node id).children.getD #[]).toList

/-- All children of a node that is no array. A failed fetch is kept as the only child. -/
def members (id : NodeId) (n : Node) : Act σ (List NodeId) := do
  match n.children with
  | some cs => return cs.toList
  | none =>
    let cs ← match ← fetch h n .all with
      | .ok cs => pure cs
      | .error e => pure [← newNode (.error "" e.message)]
    id.keep cs.toArray
    return cs

def children (id : NodeId) : Act σ (List NodeId) := do
  let n ← node id
  if n.isArray then id.elements h n else id.members h n

def setValue (id : NodeId) (text : String) : Act σ (Except ValueError Unit) := do
  let n ← node id
  if !n.editable then return .error .notEditable
  match n.source with
  | none => return .error .notEditable
  | some source =>
    match ← (source.setValue h n.path text).run with
    | .ok shown =>
      modifyNode id ({ · with value := shown })
      return .ok ()
    | .error e => return .error (.assignment e)

def resolve (id result : NodeId) : Act σ NodeId := do
  modifyNode id ({ · with resolved := some result })
  return result

/-- The final node of an evaluation, or none while it is still to be delivered. Any other node is
final. An evaluation that died leaves an unknown node, and the first answer stands. -/
def waitForResult (id : NodeId) : Act σ (Option NodeId) := do
  let n ← node id
  match n.pending, n.resolved with
  | none, _ => return some id
  | some _, some r => return some r
  | some p, none =>
    let (received, c) := (← channel p).receive
    setChannel p c
    match received with
    | .value r => return some (← id.resolve r)
    | .nothingMore => return some (← id.resolve (← newNode (.unknown n.name)))
    | .nothingYet => return none

end NodeId

end DebugSession
