import DebugSession.Text.FilePath

namespace DebugSession

structure SourceLocation where
  method : String := ""
  file : Option String := none
  line : Option Nat := none
  column : Option Nat := none
  deriving DecidableEq, Repr, Inhabited

namespace SourceLocation

def position (l : SourceLocation) : String :=
  match l.line, l.column with
  | some line, some column => s!":{line}:{column}"
  | some line, none => s!":{line}"
  | none, _ => ""

def text (l : SourceLocation) : String :=
  let place := l.file.getD "<unknown>" ++ l.position
  if l.method.isEmpty then place else place ++ s!" ({l.method})"

def fileExtension (l : SourceLocation) : Option String := do
  let file ← l.file
  let ext ← Text.FilePath.extension? file.toList
  return String.ofList ('.' :: ext)

end SourceLocation

end DebugSession
