import DebugSession.Text.Letter
import DebugSession.Decimal.Reader

namespace DebugSession.AccessPath

open Text Decimal

def isName (word : Char → Bool) (s : List Char) : Bool :=
  match s with
  | [] => false
  | c :: _ => !c.isDigit && s.all word

def bracketed : List Char → Option (List Char × List Char)
  | [] => none
  | c :: r =>
    if c == ']' then some ([c], r)
    else (bracketed r).map fun (body, rest) => (c :: body, rest)

theorem bracketed_append {s body rest : List Char} (h : bracketed s = some (body, rest)) :
    body ++ rest = s := by
  induction s generalizing body rest with
  | nil => simp [bracketed] at h
  | cons c r ih =>
    rw [bracketed] at h
    split at h
    · simp at h; simp [← h.1, ← h.2]
    · obtain ⟨⟨b, t⟩, hb, he⟩ := Option.map_eq_some_iff.1 h
      simp at he
      rw [← he.1, ← he.2, List.cons_append, ih hb]

theorem length_bracketed_le {s body rest : List Char} (h : bracketed s = some (body, rest)) :
    rest.length ≤ s.length := by
  have := congrArg List.length (bracketed_append h)
  rw [List.length_append] at this
  omega

/-- The steps of a path after its first name. A bracketed step keeps its brackets and loses all
blanks. -/
def parseSteps (word : Char → Bool) : List Char → Option (List (List Char))
  | [] => some []
  | '.' :: r =>
    if isName word (r.takeWhile word) then
      (parseSteps word (r.dropWhile word)).map (r.takeWhile word :: ·)
    else none
  | '[' :: r =>
    match h : bracketed r with
    | some (body, rest) =>
      have := length_bracketed_le h
      (parseSteps word rest).map (('[' :: body.filter fun c => !isBlank c) :: ·)
    | none => none
  | _ => none
  termination_by s => s.length
  decreasing_by
    · exact Nat.lt_succ_of_le (List.dropWhile_suffix word).length_le
    · exact Nat.lt_succ_of_le this

def parse (word : Char → Bool) (s : List Char) : Option (List Char × List (List Char)) :=
  if isName word (s.takeWhile word) then
    (parseSteps word (s.dropWhile word)).map (s.takeWhile word, ·)
  else none

def splitCommas : List Char → List (List Char)
  | [] => [[]]
  | ',' :: r => [] :: splitCommas r
  | c :: r =>
    match splitCommas r with
    | [] => [[c]]
    | s :: rest => (c :: s) :: rest

def unbracket : List Char → Option (List Char)
  | '[' :: r => if r.getLast? == some ']' then some r.dropLast else none
  | _ => none

def indices (bound : Nat) (s : List Char) : Option (List Nat) :=
  (unbracket s).bind fun body => (splitCommas body).mapM fun part => readUnsigned bound (trim part)

end DebugSession.AccessPath
