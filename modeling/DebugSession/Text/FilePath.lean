namespace DebugSession.Text.FilePath

def parts : List Char → List (List Char)
  | [] => [[]]
  | '/' :: r => [] :: parts r
  | c :: r =>
    match parts r with
    | [] => [[c]]
    | s :: rest => (c :: s) :: rest

def components (s : List Char) : List (List Char) :=
  (parts s).filter fun p => !p.isEmpty && p != ['.']

def join : List (List Char) → List Char
  | [] => []
  | [s] => s
  | s :: rest => s ++ '/' :: join rest

/-- What a path starts from. Exactly two leading slashes are kept; more count as one. -/
def origin (directory : List Char) : List Char → List Char
  | ['/', '/'] => ['/', '/']
  | '/' :: '/' :: c :: _ => if c == '/' then ['/'] else ['/', '/']
  | '/' :: _ => ['/']
  | _ => directory

def closed (s : List Char) : List Char := if s.getLast? == some '/' then s else s ++ ['/']

/-- The absolute form of a path as seen from a directory. No file is looked at: two points stay,
and a slash at the end stays. An empty path is left alone. -/
def absolute (directory s : List Char) : List Char :=
  if s.isEmpty then []
  else
    let start := origin directory s
    let body := components s
    let whole := if body.isEmpty then start else closed start ++ join body
    if s.getLast? == some '/' then closed whole else whole

def afterLastPoint (name : List Char) : Option (List Char) :=
  let ext := (name.reverse.takeWhile (· != '.')).reverse
  if ext.length + 1 < name.length then some ext else none

def extension? (s : List Char) : Option (List Char) := do
  let name ← (components s).getLast?
  if name == ['.', '.'] then none else afterLastPoint name

end DebugSession.Text.FilePath
