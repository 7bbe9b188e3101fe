import DebugSession.Toml.Scalar

namespace DebugSession.Toml

def isSpace (c : Char) : Bool := c == ' ' || c == '\t'

def skipSpaces (s : List Char) : List Char := s.dropWhile isSpace

def isControl (c : Char) : Bool := (c.toNat < 32 && c != '\t') || c.toNat == 127

def newline? : List Char → Option (List Char)
  | '\n' :: r => some r
  | '\r' :: '\n' :: r => some r
  | _ => none

def skipComment : List Char → List Char
  | '#' :: r => r.dropWhile fun c => !isControl c
  | s => s

def lineEnd? (s : List Char) : Option (List Char) :=
  match skipComment (skipSpaces s) with
  | [] => some []
  | s => newline? s

def skipLinesFrom (inComment : Bool) : List Char → List Char
  | [] => []
  | '\n' :: r => skipLinesFrom false r
  | '\r' :: '\n' :: r => skipLinesFrom false r
  | c :: r =>
    if inComment then if isControl c then c :: r else skipLinesFrom true r
    else if isSpace c then skipLinesFrom false r
    else if c == '#' then skipLinesFrom true r
    else c :: r

def skipLines (s : List Char) : List Char := skipLinesFrom false s

def scalarValue? (n : Nat) : Option Char :=
  if n.isValidChar then some (Char.ofNat n) else none

def hexEscape (n : Nat) (s : List Char) : Option (Char × List Char) :=
  let digits := s.take n
  if digits.length == n && digits.all isHexDigit then
    (scalarValue? (valueOf 16 digits)).map (·, s.drop n)
  else none

def escape? : List Char → Option (Char × List Char)
  | 'b' :: r => some ('\x08', r)
  | 't' :: r => some ('\t', r)
  | 'n' :: r => some ('\n', r)
  | 'f' :: r => some ('\x0c', r)
  | 'r' :: r => some ('\r', r)
  | 'e' :: r => some ('\x1b', r)
  | '"' :: r => some ('"', r)
  | '\\' :: r => some ('\\', r)
  | 'x' :: r => hexEscape 2 r
  | 'u' :: r => hexEscape 4 r
  | 'U' :: r => hexEscape 8 r
  | _ => none

def lineText (quote : Char) : Nat → List Char → Option (List Char × List Char)
  | 0, _ => none
  | _ + 1, [] => none
  | fuel + 1, c :: r =>
    if c == quote then some ([], r)
    else if isControl c then none
    else if c == '\\' && quote == '"' then do
      let (d, r) ← escape? r
      let (body, rest) ← lineText quote fuel r
      return (d :: body, rest)
    else do
      let (body, rest) ← lineText quote fuel r
      return (c :: body, rest)

def skipBlanks : List Char → List Char
  | ' ' :: r => skipBlanks r
  | '\t' :: r => skipBlanks r
  | '\n' :: r => skipBlanks r
  | '\r' :: '\n' :: r => skipBlanks r
  | s => s

def swallowed? (s : List Char) : Option (List Char) := (newline? (skipSpaces s)).map skipBlanks

def linesText (quote : Char) : Nat → List Char → Option (List Char × List Char)
  | 0, _ => none
  | _ + 1, [] => none
  | fuel + 1, c :: r =>
    if c == quote then
      let quotes := (c :: r).takeWhile (· == quote)
      let rest := (c :: r).dropWhile (· == quote)
      if quotes.length > 5 then none
      else if quotes.length ≥ 3 then some (quotes.drop 3, rest)
      else do
        let (body, rest) ← linesText quote fuel rest
        return (quotes ++ body, rest)
    else if c == '\\' && quote == '"' then
      match swallowed? r with
      | some r => linesText quote fuel r
      | none => do
        let (d, r) ← escape? r
        let (body, rest) ← linesText quote fuel r
        return (d :: body, rest)
    else if isControl c && (newline? (c :: r)).isNone then none
    else do
      let (body, rest) ← linesText quote fuel r
      return (c :: body, rest)

/-- Quoted text of either form after its first quote. A line end right after three opening quotes
does not belong to it. -/
def quotedText (quote : Char) (fuel : Nat) (s : List Char) : Option (List Char × List Char) :=
  match s with
  | a :: b :: r =>
    if a == quote && b == quote then linesText quote fuel ((newline? r).getD r)
    else lineText quote fuel s
  | s => lineText quote fuel s

def isBareKey (c : Char) : Bool := c.isAlphanum || c == '_' || c == '-'

def keyPart (s : List Char) : Option (String × List Char) :=
  match s with
  | '"' :: r => (lineText '"' (s.length + 1) r).map fun (t, rest) => (String.ofList t, rest)
  | '\'' :: r => (lineText '\'' (s.length + 1) r).map fun (t, rest) => (String.ofList t, rest)
  | s =>
    let name := s.takeWhile isBareKey
    if name.isEmpty then none else some (String.ofList name, s.drop name.length)

def maxDepth : Nat := 80

def keyParts : Nat → List Char → Option (List String × List Char)
  | 0, _ => none
  | room + 1, s => do
    let (part, s) ← keyPart (skipSpaces s)
    match skipSpaces s with
    | '.' :: r =>
      let (parts, rest) ← keyParts room r
      return (part :: parts, rest)
    | rest => return ([part], rest)

def key (s : List Char) : Option (List String × List Char) := keyParts maxDepth s

def endsValue (c : Char) : Bool :=
  c == ',' || c == ']' || c == '\x7d' || c == '#' || c == '\n' || c == '\r' || isSpace c

def bareToken (s : List Char) : List Char × List Char :=
  let token := s.takeWhile fun c => !endsValue c
  let rest := s.drop token.length
  match date? token, rest with
  | some [], ' ' :: c :: r =>
    if c.isDigit then
      let more := (c :: r).takeWhile fun c => !endsValue c
      (token ++ ' ' :: more, (c :: r).drop more.length)
    else (token, rest)
  | _, _ => (token, rest)

mutual

def value : Nat → Nat → List Char → Option (Node × List Char)
  | 0, _, _ => none
  | fuel + 1, room, s =>
    match s with
    | '"' :: r =>
      (quotedText '"' fuel r).map fun (t, rest) => (.scalar (.text (String.ofList t)), rest)
    | '\'' :: r =>
      (quotedText '\'' fuel r).map fun (t, rest) => (.scalar (.text (String.ofList t)), rest)
    | '[' :: r =>
      if room == 0 then none
      else (items fuel (room - 1) r).map fun (vs, rest) => (.array vs, rest)
    | '\x7b' :: r =>
      if room == 0 then none
      else (members fuel (room - 1) [] r).map fun (es, rest) => (.inlineTable es, rest)
    | s =>
      let (token, rest) := bareToken s
      (scalar? token).map fun v => (.scalar v, rest)

def items : Nat → Nat → List Char → Option (List Node × List Char)
  | 0, _, _ => none
  | fuel + 1, room, s => do
    let s := skipLines s
    match s with
    | ']' :: rest => return ([], rest)
    | s =>
      let (v, s) ← value fuel room s
      match skipLines s with
      | ',' :: r =>
        let (vs, rest) ← items fuel room r
        return (v :: vs, rest)
      | ']' :: rest => return ([v], rest)
      | _ => none

/-- The entries of an inline table up to and with its closing brace. Only inside a key must all
stand on one line. -/
def members : Nat → Nat → Entries → List Char → Option (Entries × List Char)
  | 0, _, _, _ => none
  | fuel + 1, room, es, s => do
    let s := skipLines s
    match s with
    | '\x7d' :: rest => return (es, rest)
    | s =>
      let (k, s) ← key s
      let '=' :: r := skipLines s | none
      let (v, s) ← value fuel room (skipLines r)
      let es ← Entries.insert v k es
      match skipLines s with
      | ',' :: r => members fuel room es r
      | '\x7d' :: rest => return (es, rest)
      | _ => none

end

structure Document where
  root : Entries
  header : List String

def line (fuel : Nat) (doc : Document) (s : List Char) : Option (Document × List Char) :=
  match s with
  | '[' :: '[' :: r => do
    let (k, s) ← key r
    let ']' :: ']' :: r := skipSpaces s | none
    let root ← Entries.descend openElement k doc.root
    return (⟨root, k⟩, r)
  | '[' :: r => do
    let (k, s) ← key r
    let ']' :: r := skipSpaces s | none
    let root ← Entries.descend openTable k doc.root
    return (⟨root, k⟩, r)
  | s => do
    let (k, rest) ← key s
    let '=' :: r := skipSpaces rest | none
    let (v, rest) ← value fuel maxDepth (skipSpaces r)
    let root ← Entries.within (Entries.insert v k) doc.header doc.root
    return (⟨root, doc.header⟩, rest)

def lines : Nat → Document → List Char → Option Entries
  | 0, _, _ => none
  | fuel + 1, doc, s =>
    match skipSpaces s with
    | [] => some doc.root
    | s =>
      match lineEnd? s with
      | some rest => lines fuel doc rest
      | none => do
        let (doc, rest) ← line fuel doc s
        lines fuel doc (← lineEnd? rest)

def read (s : List Char) : Option Entries :=
  let s := if s.head? == some '\ufeff' then s.tail else s
  lines (2 * s.length + 2) ⟨[], []⟩ s

end DebugSession.Toml
