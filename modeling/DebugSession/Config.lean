import DebugSession.Error
import DebugSession.Text.Letter
import DebugSession.Toml.Reader
import DebugSession.Value.Handle

namespace DebugSession

structure EvaluationOptions where
  allowMethods : Bool := true
  allowToString : Bool := true
  /-- Elements fetched from a requested one on. -/
  fetchChunk : Nat := 50
  childTimeout : Nat := 1000
  expectedType : Option TargetType := none
  deriving DecidableEq, Repr, Inhabited

structure SteppingOptions where
  overProperties : Bool := true
  projectOnly : Bool := true
  deriving DecidableEq, Repr, Inhabited

structure SessionOptions where
  evaluation : EvaluationOptions := {}
  stepping : SteppingOptions := {}
  deriving DecidableEq, Repr, Inhabited

inductive Dispatch
  | inline
  | worker
  deriving DecidableEq, Repr, Inhabited

structure SessionConfig where
  dispatch : Dispatch := .worker
  /-- Commands keep their order only with one worker. -/
  workers : Nat := 1
  autoRetry : Bool := false
  readOnlyTimeout : Nat := 10
  evaluation : EvaluationOptions := {}
  deriving DecidableEq, Repr, Inhabited

namespace SessionConfig

def inline : SessionConfig := { dispatch := .inline }

def withAutoRetry (config : SessionConfig) (enabled : Bool) : SessionConfig :=
  { config with autoRetry := enabled }

inductive Fault
  | document
  | unreadable
  | dispatchMode (text : String)
  | workers
  | fetchChunk
  deriving DecidableEq, Repr

def Fault.reason : Fault → String
  | .document => "debugger.toml: invalid document"
  | .unreadable => "debugger.toml: file cannot be read"
  | .dispatchMode text => s!"invalid dispatch.mode '{text}'"
  | .workers => "dispatch.workers must be at least 1"
  | .fetchChunk => "evaluation.array_fetch_chunk must be at least 1"

def Fault.error (f : Fault) : SessionError := .invalidConfig f.reason

def normalWord (s : String) : String :=
  String.ofList ((Text.trim s.toList).map Char.toLower)

def parseDispatch (text : String) : Except Fault Dispatch :=
  let word := normalWord text
  if word == "inline" || word == "sync" then .ok .inline
  else if word == "worker" || word == "thread" then .ok .worker
  else .error (.dispatchMode text)

structure Settings where
  mode : Option String
  workers : Option Nat
  autoRetry : Option Bool
  readOnlyTimeout : Option Nat
  fetchChunk : Option Nat
  childTimeout : Option Nat
  allowMethods : Option Bool
  allowToString : Option Bool
  deriving DecidableEq, Repr

open Toml

def checkOthers (names : List String) (es : Entries) : Except Fault Unit :=
  if es.all fun e => names.contains e.1 || e.2.isReadable then .ok () else .error .document

/-- The entries of a section under the given names. An absent section has none, and a date in its
place gives none. A section may also be an array of at least as many values, of which those after
the last name are not looked at. -/
def section? (doc : Entries) (name : String) (names : List String) : Except Fault Entries :=
  match doc.lookup name with
  | none => .ok []
  | some (.scalar .dateTime) => .ok []
  | some (.array items) =>
    if names.length ≤ items.length then .ok (names.zip items) else .error .document
  | some v => match v.entries? with
    | some es => (checkOthers names es).map fun _ => es
    | none => .error .document

def setting {α : Type} (read : Scalar → Option α) (es : Entries) (name : String) :
    Except Fault (Option α) :=
  match es.lookup name with
  | none => .ok none
  | some v => match v.scalar?.bind read with
    | some a => .ok (some a)
    | none => .error .document

def text? : Scalar → Option String
  | .text s => some s
  | _ => none

def truth? : Scalar → Option Bool
  | .bool b => some b
  | _ => none

def word? : Scalar → Option Nat
  | .integer n => if 0 ≤ n && n < UInt64.size then some n.toNat else none
  | _ => none

/-- The kind of every setting is checked before any value is judged. -/
def readSettings (doc : Entries) : Except Fault Settings := do
  checkOthers ["dispatch", "breakpoints", "evaluation"] doc
  let dispatch ← section? doc "dispatch" ["mode", "workers"]
  let breakpoints ← section? doc "breakpoints" ["auto_retry_unbound", "read_only_check_timeout_ms"]
  let evaluation ← section? doc "evaluation"
    ["array_fetch_chunk", "child_timeout_ms", "allow_method_evaluation", "allow_to_string_calls"]
  return {
    mode := ← setting text? dispatch "mode"
    workers := ← setting word? dispatch "workers"
    autoRetry := ← setting truth? breakpoints "auto_retry_unbound"
    readOnlyTimeout := ← setting word? breakpoints "read_only_check_timeout_ms"
    fetchChunk := ← setting word? evaluation "array_fetch_chunk"
    childTimeout := ← setting word? evaluation "child_timeout_ms"
    allowMethods := ← setting truth? evaluation "allow_method_evaluation"
    allowToString := ← setting truth? evaluation "allow_to_string_calls" }

def positive (fault : Fault) (default : Nat) : Option Nat → Except Fault Nat
  | none => .ok default
  | some 0 => .error fault
  | some n => .ok n

def ofSettings (s : Settings) : Except Fault SessionConfig := do
  let base : SessionConfig := {}
  let dispatch ← (s.mode.map parseDispatch).getD (.ok base.dispatch)
  let workers ← positive .workers base.workers s.workers
  let fetchChunk ← positive .fetchChunk base.evaluation.fetchChunk s.fetchChunk
  return {
    dispatch := dispatch
    workers := workers
    autoRetry := s.autoRetry.getD base.autoRetry
    readOnlyTimeout := s.readOnlyTimeout.getD base.readOnlyTimeout
    evaluation := {
      allowMethods := s.allowMethods.getD base.evaluation.allowMethods
      allowToString := s.allowToString.getD base.evaluation.allowToString
      fetchChunk := fetchChunk
      childTimeout := s.childTimeout.getD base.evaluation.childTimeout } }

def ofToml (text : String) : Except Fault SessionConfig :=
  match Toml.read text.toList with
  | some doc => do ofSettings (← readSettings doc)
  | none => .error .document

def ofFile : Option String → Except Fault SessionConfig
  | some text => ofToml text
  | none => .error .unreadable

structure Overrides where
  inlineDispatch : Option String := none
  autoRetry : Option String := none
  deriving DecidableEq, Repr

def isAffirmative (s : String) : Bool :=
  let word := normalWord s
  word == "1" || word == "true" || word == "yes" || word == "on"

def override (config : SessionConfig) (o : Overrides) : SessionConfig :=
  { config with
    dispatch := match o.inlineDispatch with
      | some s => if isAffirmative s then .inline else .worker
      | none => config.dispatch
    autoRetry := (o.autoRetry.map isAffirmative).getD config.autoRetry }

end SessionConfig

end DebugSession
