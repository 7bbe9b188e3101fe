import DebugSession.Config
import DebugSession.Identity
import DebugSession.Location

namespace DebugSession

structure ProcessInfo where
  id : Nat
  name : String := ""
  session : Option SessionId := none
  deriving DecidableEq, Repr, Inhabited

structure ThreadInfo where
  process : Nat
  id : Nat
  name : String := ""
  location : Option String := none
  session : Option SessionId := none
  deriving DecidableEq, Repr, Inhabited

/-- Names and locations of a thread change while it runs; these two numbers do not. -/
def ThreadInfo.same (a b : ThreadInfo) : Bool := a.process == b.process && a.id == b.id

abbrev Environment := List (String × String)

def Environment.set (env : Environment) (name value : String) : Environment :=
  if env.any (·.1 == name) then env.map fun e => if e.1 == name then (name, value) else e
  else env ++ [(name, value)]

def Environment.ofList (settings : List (String × String)) : Environment :=
  settings.foldl (fun env e => Environment.set env e.1 e.2) []

structure StartInfo where
  command : String
  arguments : List String := []
  directory : Option String := none
  environment : Environment := []
  deriving DecidableEq, Repr, Inhabited

structure AssemblyLine where
  address : Nat
  code : String
  sourceLine : Option Nat
  deriving DecidableEq, Repr

structure FrameInfo where
  address : Nat
  location : SourceLocation
  language : String
  deriving DecidableEq, Repr

structure Backtrace where
  source : BacktraceId
  session : Option SessionId := none
  deriving DecidableEq, Repr, Inhabited

structure StackFrame where
  info : FrameInfo
  index : Nat
  options : EvaluationOptions
  backtrace : BacktraceId
  session : Option SessionId
  deriving DecidableEq, Repr

namespace StackFrame

def upperHex (n : Nat) : String := String.ofList ((Nat.toDigits 16 n).map Char.toUpper)

def place (l : SourceLocation) : String :=
  match l.file, l.line with
  | some file, some line => if file.isEmpty then "" else s!" at {file}:{line}"
  | some file, none => if file.isEmpty then "" else s!" at {file}"
  | none, _ => ""

def text (f : StackFrame) : String :=
  s!"0x{upperHex f.info.address} in {f.info.location.method}" ++ place f.info.location

end StackFrame

end DebugSession
