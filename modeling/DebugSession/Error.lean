namespace DebugSession

structure BreakEventId where
  raw : Nat
  deriving DecidableEq, Repr, Hashable, Inhabited

def BreakEventId.text (id : BreakEventId) : String := s!"break event {id.raw}"

inductive EngineError
  | failed (message : String)
  | notSupported (operation : String)
  | notRunning
  | unknownHandle (handle : Nat)
  deriving DecidableEq, Repr

def EngineError.message : EngineError → String
  | .failed message => message
  | .notSupported operation => s!"operation '{operation}' is not supported by this backend"
  | .notRunning => "target is not running"
  | .unknownHandle handle => s!"unknown backend handle {handle}"

inductive SessionError
  | invalidArgument (name reason : String)
  | command (name : String) (source : EngineError)
  | breakEvent (description : String) (source : EngineError)
  | workerPanicked (name message : String)
  | threadSpawn (message : String)
  | detached
  | invalidConfig (reason : String)
  deriving DecidableEq, Repr

def SessionError.message : SessionError → String
  | .invalidArgument name reason => s!"invalid argument '{name}': {reason}"
  | .command name source => s!"{name} failed: {source.message}"
  | .breakEvent description source => s!"{description}: {source.message}"
  | .workerPanicked name message => s!"command '{name}' panicked: {message}"
  | .threadSpawn message => s!"failed to spawn dispatch worker: {message}"
  | .detached => "object is not attached to a live debugger session"
  | .invalidConfig reason => s!"invalid debugger configuration: {reason}"

inductive EvalError
  | notSupported (message : String)
  | evaluation (message : String)
  | unresolvedName (name : String)
  | internal (message : String)
  deriving DecidableEq, Repr

def EvalError.message : EvalError → String
  | .notSupported message => message
  | .evaluation message => message
  | .unresolvedName name => s!"Invalid Expression: '{name}'"
  | .internal message => s!"internal evaluator error: {message}"

def EvalError.unsupportedExpression : EvalError := .notSupported "Expression not supported."

def EvalError.ofEngine : EngineError → EvalError
  | .notSupported operation => .notSupported s!"operation '{operation}' is not supported"
  | e => .evaluation e.message

inductive ValueError
  | notEditable
  | notAnArray
  | isAnArray
  | indexOutOfRange (index length : Nat)
  | assignment (source : EvalError)
  deriving DecidableEq, Repr

def ValueError.message : ValueError → String
  | .notEditable => "value is not editable"
  | .notAnArray => "object is not an array"
  | .isAnArray => "object is an array"
  | .indexOutOfRange index length => s!"array index {index} out of range (length {length})"
  | .assignment source => s!"value assignment failed: {source.message}"

inductive StoreError
  | readOnly
  | unknownBreakEvent (id : BreakEventId)
  deriving DecidableEq, Repr

def StoreError.message : StoreError → String
  | .readOnly => "breakpoints are read-only right now"
  | .unknownBreakEvent id => s!"unknown break event {id.text}"

end DebugSession
