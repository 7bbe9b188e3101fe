import DebugSession.Value.Path
import DebugSession.Value.Reference

namespace DebugSession

inductive NodeKind
  | object
  | array
  | primitive
  | error
  | unknown
  | notSupported
  | evaluating
  deriving DecidableEq, Repr, Inhabited

inductive ChildRange
  | all
  | range (start count : Nat)
  deriving DecidableEq, Repr

inductive ChildSource
  | reference (r : Reference)
  | external (source : SourceId)
  deriving DecidableEq, Repr

/-- `children` is none until they are first asked for. An evaluating node has `pending`, and
`resolved` once its result has been seen. -/
structure Node where
  kind : NodeKind
  path : ValuePath
  typeName : String := ""
  value : String := ""
  editable : Bool := false
  isNull : Bool := false
  source : Option ChildSource := none
  children : Option (Array NodeId) := none
  length : Nat := 0
  chunk : Nat := 50
  pending : Option PendingId := none
  resolved : Option NodeId := none
  deriving DecidableEq, Repr, Inhabited

namespace Node

def object (source : Option ChildSource) (path : ValuePath) (typeName value : String)
    (children : Option (Array NodeId)) : Node :=
  { kind := .object, path, typeName, value, source, children }

def nullObject (name typeName : String) : Node :=
  { kind := .object, path := .root name, typeName, value := "(null)", isNull := true }

def primitive (source : Option ChildSource) (path : ValuePath) (typeName value : String)
    (editable : Bool) : Node :=
  { kind := .primitive, path, typeName, value, source, editable }

def array (source : Option ChildSource) (path : ValuePath) (typeName : String) (length : Nat)
    (children : Option (Array NodeId)) : Node :=
  { kind := .array, path, typeName, value := s!"[{length}]", source, length, children }

def unknown (name : String) : Node := { kind := .unknown, path := .root name }

def error (name message : String) : Node :=
  { kind := .error, path := .root name, value := message }

def notSupported (name message : String) : Node :=
  { kind := .notSupported, path := .root name, value := message }

def evaluating (name : String) (pending : PendingId) : Node :=
  { kind := .evaluating, path := .root name, value := "Evaluating...", pending := some pending }

def withChunk (n : Node) (chunk : Nat) : Node := { n with chunk := max chunk 1 }

def name (n : Node) : String := n.path.last

def isArray (n : Node) : Bool := n.kind == .array

def isError (n : Node) : Bool := n.kind == .error

def isEvaluating (n : Node) : Bool := n.kind == .evaluating

def isEditable (n : Node) : Bool := n.editable && n.source.isSome

def arrayLength (n : Node) : Except ValueError Nat :=
  if n.isArray then .ok n.length else .error .notAnArray

def hasChildren (n : Node) : Bool :=
  if n.source.isNone then n.children.any (!·.isEmpty)
  else match n.kind with
    | .array => 0 < n.length
    | .object => !n.isNull
    | _ => false

def cachedChildCount (n : Node) : Nat := (n.children.getD #[]).size

end Node

namespace Elements

variable {α : Type}

inductive Step (α : Type)
  | cached (element : α)
  | fetch (start count : Nat)
  deriving DecidableEq, Repr

/-- A missing element is fetched with all before it that are missing too, and with what fits into
one chunk from it on. -/
def step (cached : Array α) (length chunk index : Nat) : Step α :=
  match cached[index]? with
  | some a => .cached a
  | none => .fetch cached.size (min (index + chunk) length - cached.size)

def absorb (cached : Array α) (count : Nat) (fetched : List α) : Array α :=
  cached ++ (fetched.take count).toArray

end Elements

end DebugSession
