import DebugSession.Decimal.Reader
import DebugSession.Toml.Tree

namespace DebugSession.Toml

def isHexDigit (c : Char) : Bool :=
  c.isDigit || ('a' ≤ c && c ≤ 'f') || ('A' ≤ c && c ≤ 'F')

def hexDigitValue (c : Char) : Nat :=
  if c.isDigit then c.toNat - '0'.toNat
  else if 'a' ≤ c then c.toNat - 'a'.toNat + 10
  else c.toNat - 'A'.toNat + 10

def groupedDigits (isDigit : Char → Bool) : List Char → Option (List Char)
  | [] => none
  | [c] => if isDigit c then some [c] else none
  | c :: '_' :: r => if isDigit c then (groupedDigits isDigit r).map (c :: ·) else none
  | c :: r => if isDigit c then (groupedDigits isDigit r).map (c :: ·) else none

def valueOf (base : Nat) (digits : List Char) : Nat :=
  digits.foldl (fun n c => base * n + hexDigitValue c) 0

def plainDigits (s : List Char) : Option Nat := do
  let digits ← groupedDigits Char.isDigit s
  if digits.length > 1 && digits.head? == some '0' then none
  else some (valueOf 10 digits)

def unsign : List Char → List Char
  | '+' :: r => r
  | '-' :: r => r
  | s => s

def integer? : List Char → Option Int
  | '0' :: 'x' :: r => (groupedDigits isHexDigit r).map fun ds => (valueOf 16 ds : Int)
  | '0' :: 'o' :: r =>
    (groupedDigits (fun c => '0' ≤ c && c ≤ '7') r).map fun ds => (valueOf 8 ds : Int)
  | '0' :: 'b' :: r =>
    (groupedDigits (fun c => c == '0' || c == '1') r).map fun ds => (valueOf 2 ds : Int)
  | '-' :: r => (plainDigits r).map fun n => -(n : Int)
  | s => (plainDigits (unsign s)).map Int.ofNat

def isExponentPart (s : List Char) : Bool := (groupedDigits Char.isDigit (unsign s)).isSome

def isExponentMark (c : Char) : Bool := c == 'e' || c == 'E'

def isFloat (s : List Char) : Bool :=
  let s := unsign s
  if s == "inf".toList || s == "nan".toList then true
  else
    let whole := s.takeWhile fun c => c.isDigit || c == '_'
    let rest := s.drop whole.length
    (plainDigits whole).isSome &&
      match rest with
      | '.' :: r =>
        let fraction := r.takeWhile fun c => c.isDigit || c == '_'
        (groupedDigits Char.isDigit fraction).isSome &&
          match r.drop fraction.length with
          | [] => true
          | c :: r => isExponentMark c && isExponentPart r
      | c :: r => isExponentMark c && isExponentPart r
      | [] => false

def fixedDigits (n : Nat) (s : List Char) : Option (Nat × List Char) :=
  let digits := s.take n
  if digits.length == n && digits.all Char.isDigit then some (valueOf 10 digits, s.drop n)
  else none

def daysInMonth (year month : Nat) : Nat :=
  if month == 2 then
    if year % 4 == 0 && (year % 100 != 0 || year % 400 == 0) then 29 else 28
  else if month == 4 || month == 6 || month == 9 || month == 11 then 30 else 31

def date? (s : List Char) : Option (List Char) := do
  let (year, '-' :: s) ← fixedDigits 4 s | none
  let (month, '-' :: s) ← fixedDigits 2 s | none
  let (day, s) ← fixedDigits 2 s
  if 1 ≤ month && month ≤ 12 && 1 ≤ day && day ≤ daysInMonth year month then some s else none

def hourMinute? (s : List Char) : Option (List Char) := do
  let (hour, ':' :: s) ← fixedDigits 2 s | none
  let (writeDown, s) ← fixedDigits 2 s
  if hour ≤ 23 && writeDown ≤ 59 then some s else none

def time? (s : List Char) : Option (List Char) := do
  let s ← hourMinute? s
  match s with
  | ':' :: s =>
    let (second, s) ← fixedDigits 2 s
    if second > 60 then none
    match s with
    | '.' :: s =>
      let rest := s.dropWhile Char.isDigit
      if rest.length == s.length then none else some rest
    | s => some s
  | s => some s

def isOffset (s : List Char) : Bool :=
  match s with
  | [] => true
  | ['Z'] => true
  | ['z'] => true
  | '+' :: r => hourMinute? r == some []
  | '-' :: r => hourMinute? r == some []
  | _ => false

def isDateTime (s : List Char) : Bool :=
  match date? s with
  | some [] => true
  | some (c :: r) =>
    (c == 'T' || c == 't' || c == ' ') && (time? r).any isOffset
  | none => time? s == some []

def overflows (s : List Char) : Bool :=
  match Decimal.readDigits ((unsign s).filter (· != '_')) with
  | some d => Decimal.bitsOfDigits d == Decimal.specialField * Nat.pow 2 Decimal.fractionBits
  | none => false

def scalar? (s : List Char) : Option Scalar :=
  if s == "true".toList then some (.bool true)
  else if s == "false".toList then some (.bool false)
  else if isDateTime s then some .dateTime
  else match integer? s with
    | some n => some (.integer n)
    | none => if isFloat s then some (.float (overflows s)) else none

end DebugSession.Toml
