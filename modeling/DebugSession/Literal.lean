import DebugSession.Text.Letter
import DebugSession.Text.Escape
import DebugSession.Decimal.Reader

namespace DebugSession

open Text Decimal

/-- A value of the debuggee as an expression can denote it. `other` is text that the debuggee
rendered itself and that need not read back. -/
inductive Literal
  | null
  | bool (value : Bool)
  | int (value : Int)
  | uint (value : Nat)
  | float (value : Float)
  | char (value : Char)
  | text (value : String)
  | pointer (address : Nat)
  | other (rendered : String)

namespace Literal

def wordBound : Nat := UInt64.size

def intBound : Nat := Nat.pow 2 63

def intText (n : Int) : List Char :=
  if n < 0 then '-' :: Nat.toDigits 10 n.natAbs else Nat.toDigits 10 n.natAbs

/-- The expression that denotes a literal. Quotes inside quoted text are not escaped, which reading
allows because a literal ends only at the end of the expression. -/
def expression : Literal → List Char
  | null => "null".toList
  | bool b => (if b then "true" else "false").toList
  | int n => intText n
  | uint n => Nat.toDigits 10 n
  | float x => floatText x
  | char c => '\'' :: escapeChar c ++ ['\'']
  | text s => '"' :: escape s.toList ++ ['"']
  | pointer a => '0' :: 'x' :: Nat.toDigits 16 a
  | other s => s.toList

def toExpression (l : Literal) : String := String.ofList l.expression

def unquote (quote : Char) : List Char → Option (List Char)
  | [] => none
  | c :: r => if c == quote && r.getLast? == some quote then some r.dropLast else none

def parseText (body : List Char) : Option Literal :=
  (unescape body).map fun s => text (String.ofList s)

def parseChar (body : List Char) : Option Literal :=
  match unescape body with
  | some [c] => some (char c)
  | _ => none

/-- Signed integers come before unsigned ones, so only what exceeds them is unsigned; what is no
integer but starts like a number is read as a float. -/
def parseNumber (s : List Char) : Option Literal :=
  match readSigned intBound s with
  | some n => some (int n)
  | none =>
    match readUnsigned wordBound s with
    | some n => some (uint n)
    | none =>
      match s with
      | c :: _ => if c.isDigit || c == '-' || c == '.' then (readFloat s).map float else none
      | [] => none

def parseUnnamed (s : List Char) : Option Literal :=
  match unquote '"' s, unquote '\'' s, s with
  | some body, _, _ => parseText body
  | none, some body, _ => parseChar body
  | none, none, '0' :: 'x' :: digits => (readHex wordBound digits).map pointer
  | none, none, s => parseNumber s

/-- A whole expression as a literal. The shape alone decides how it is read: malformed quoted text
or a malformed pointer is no literal of another kind. -/
def parse (s : List Char) : Option Literal :=
  if s == "null".toList then some null
  else if s == "true".toList then some (bool true)
  else if s == "false".toList then some (bool false)
  else parseUnnamed s

end Literal

end DebugSession
