import DebugSession.Text.Letter

namespace DebugSession.TypeNames

open Text

def isDotted (c : Char) : Bool := isWord c || c == '.'

def quoted (quote : Char) : List Char → List Char × List Char
  | [] => ([], [])
  | c :: r =>
    if c == quote then ([c], r)
    else if c == '\\' then
      match r with
      | [] => ([c], [])
      | d :: r => let (body, rest) := quoted quote r; (c :: d :: body, rest)
    else let (body, rest) := quoted quote r; (c :: body, rest)

theorem quoted_append (quote : Char) (s : List Char) :
    (quoted quote s).1 ++ (quoted quote s).2 = s := by
  fun_induction quoted quote s <;> simp_all

theorem length_quoted_le (quote : Char) (s : List Char) :
    (quoted quote s).2.length ≤ s.length := by
  have h := congrArg List.length (quoted_append quote s)
  rw [List.length_append] at h
  omega

inductive Piece
  | quoted (text : List Char)
  | name (text : List Char)
  | other (c : Char)
  deriving DecidableEq, Repr

def Piece.text : Piece → List Char
  | quoted t => t
  | name t => t
  | other c => [c]

theorem length_dropWhile_le (p : Char → Bool) (s : List Char) :
    (s.dropWhile p).length ≤ s.length :=
  (List.dropWhile_suffix p).length_le

def split : List Char → List Piece
  | [] => []
  | c :: r =>
    if c == '"' || c == '\'' then
      .quoted (c :: (quoted c r).1) :: split (quoted c r).2
    else if isLetter c || c == '_' then
      .name (c :: r.takeWhile isDotted) :: split (r.dropWhile isDotted)
    else .other c :: split r
  termination_by s => s.length
  decreasing_by
    · exact Nat.lt_succ_of_le (length_quoted_le c r)
    · exact Nat.lt_succ_of_le (length_dropWhile_le isDotted r)
    · exact Nat.lt_succ_self _

def segments : List Char → List (List Char)
  | [] => [[]]
  | '.' :: r => [] :: segments r
  | c :: r =>
    match segments r with
    | [] => [[c]]
    | s :: rest => (c :: s) :: rest

def joinDots : List (List Char) → List Char
  | [] => []
  | [s] => s
  | s :: rest => s ++ '.' :: joinDots rest

variable {m : Type → Type} [Monad m]

/-- Asks for the first `n` segments, then for fewer, and stops at the first answer. The segments
after the recognized ones are kept. -/
def resolveSegments (ask : String → m (Option String)) (parts : List (List Char)) :
    Nat → m (List Char)
  | 0 => pure (joinDots parts)
  | n + 1 => do
    let start := joinDots (parts.take (n + 1))
    if start.isEmpty then resolveSegments ask parts n
    else
      match ← ask (String.ofList start) with
      | some answer => return joinDots (answer.toList :: parts.drop (n + 1))
      | none => resolveSegments ask parts n

def resolveName (ask : String → m (Option String)) (name : List Char) : m (List Char) :=
  resolveSegments ask (segments name) (segments name).length

/-- A name after a point is a member of what precedes it. Blanks may stand between the two. What
is `written` so far has its last character first. -/
def followsPoint (written : List Char) : Bool := (written.dropWhile isBlank).head? == some '.'

def qualifyPiece (ask : String → m (Option String)) (written : List Char) (p : Piece) :
    m (List Char) :=
  match p with
  | .name t => do
    let text ← if followsPoint written then pure t else resolveName ask t
    return text.reverse ++ written
  | p => pure (p.text.reverse ++ written)

/-- Whether a name is a member is judged by the output so far, as later readers will see it. -/
def qualify (ask : String → m (Option String)) (expression : String) : m String := do
  let written ← (split expression.toList).foldlM (qualifyPiece ask) []
  return String.ofList written.reverse

end DebugSession.TypeNames
