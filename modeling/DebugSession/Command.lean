import DebugSession.Event
import DebugSession.Text.Letter

namespace DebugSession

inductive Command
  | run (start : StartInfo) (options : SessionOptions)
  | attach (process : Nat) (options : SessionOptions)
  | detach
  | proceed
  | stepLine
  | nextLine
  | stepInstruction
  | nextInstruction
  | finish
  | stop
  | exit
  | dispose
  deriving DecidableEq, Repr

namespace Command

def name : Command → String
  | run _ _ => "run"
  | attach _ _ => "attach"
  | detach => "detach"
  | proceed => "continue"
  | stepLine => "step_line"
  | nextLine => "next_line"
  | stepInstruction => "step_instruction"
  | nextInstruction => "next_instruction"
  | finish => "finish"
  | stop => "stop"
  | exit => "exit"
  | dispose => "dispose"

def plain : List Command :=
  [detach, proceed, stepLine, nextLine, stepInstruction, nextInstruction, finish, stop, exit, dispose]

/-- The event that stands in for the one that a failed command will not bring about. -/
def recovery : Command → Option TargetEventKind
  | run _ _ | attach _ _ | finish => some .exited
  | proceed | stepLine | nextLine | stepInstruction | nextInstruction => some .stopped
  | detach | stop | exit | dispose => none

/-- Whether the target runs once the command is accepted. Only then is anything to be recovered. -/
def resumes (c : Command) : Bool := c.recovery.isSome

def needsLiveSession : Command → Bool
  | dispose => false
  | _ => true

def options? : Command → Option SessionOptions
  | run _ options | attach _ options => some options
  | _ => none

def check : Command → Except SessionError Unit
  | run start _ =>
    if (Text.trim start.command.toList).isEmpty then
      .error (.invalidArgument "start.command" "a command to launch is required")
    else .ok ()
  | attach process _ =>
    if process = 0 then .error (.invalidArgument "process" "a process id is required")
    else .ok ()
  | _ => .ok ()

end Command

end DebugSession
