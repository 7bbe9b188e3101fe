import DebugSession.Decimal.Shortest

namespace DebugSession.Decimal

def digitValue (c : Char) : Nat := c.toNat - '0'.toNat

def readNat (s : List Char) : Option Nat :=
  if !s.isEmpty && s.all Char.isDigit then
    some (s.foldl (fun n c => 10 * n + digitValue c) 0)
  else none

def readUnsigned (bound : Nat) : List Char → Option Nat
  | '+' :: r => (readNat r).filter (· < bound)
  | s => (readNat s).filter (· < bound)

def readSigned (bound : Nat) : List Char → Option Int
  | '-' :: r => (readNat r).bind fun n => if n ≤ bound then some (-n) else none
  | s => (readUnsigned bound s).map Int.ofNat

def hexValue (c : Char) : Option Nat :=
  if c.isDigit then some (digitValue c)
  else if 'a' ≤ c && c ≤ 'f' then some (c.toNat - 'a'.toNat + 10)
  else if 'A' ≤ c && c ≤ 'F' then some (c.toNat - 'A'.toNat + 10)
  else none

def readHexDigits (bound : Nat) (s : List Char) : Option Nat := do
  if s.isEmpty then none
  let n ← s.foldlM (fun n c => (hexValue c).map (16 * n + ·)) 0
  if n < bound then some n else none

def readHex (bound : Nat) : List Char → Option Nat
  | '+' :: r => readHexDigits bound r
  | s => readHexDigits bound s

def roundDiv (n d : Nat) : Nat :=
  let q := n / d
  if 2 * (n % d) < d then q
  else if d < 2 * (n % d) then q + 1
  else q + q % 2

/-- The bits of the float nearest to a positive `numerator / denominator`. Rounding up to a full
mantissa carries into the exponent field, which is what the sum of the two fields does. -/
def bitsOfRatio (numerator denominator : Nat) : Nat :=
  let estimate : Int := Nat.log2 numerator - Nat.log2 denominator
  let fits (e : Int) : Bool :=
    denominator * Nat.pow 2 e.toNat ≤ numerator * Nat.pow 2 (-e).toNat
  let power := if fits estimate then estimate else estimate - 1
  let q := max (power - fractionBits) minExponent
  let m := roundDiv (numerator * Nat.pow 2 (-q).toNat) (denominator * Nat.pow 2 q.toNat)
  let field := (q - minExponent).toNat
  min (field * Nat.pow 2 fractionBits + m) (specialField * Nat.pow 2 fractionBits)

/-- Beyond these decimal magnitudes every number is zero or infinite as a float, so that exponents
are bounded before any power of ten is formed. -/
def bitsOfDigits (d : Digits) : Nat :=
  let magnitude : Int := digitCount d.digits + d.exponent
  if d.digits == 0 || magnitude < -330 then 0
  else if 330 < magnitude then specialField * Nat.pow 2 fractionBits
  else bitsOfRatio (d.digits * Nat.pow 10 d.exponent.toNat) (Nat.pow 10 (-d.exponent).toNat)

def splitPoint : List Char → List Char × List Char
  | '.' :: r => (r.takeWhile Char.isDigit, r.dropWhile Char.isDigit)
  | s => ([], s)

def readExponent : List Char → Option Int
  | [] => some 0
  | c :: r =>
    if c == 'e' || c == 'E' then
      match r with
      | '-' :: ds => (readNat ds).map fun n => -(n : Int)
      | '+' :: ds => (readNat ds).map Int.ofNat
      | ds => (readNat ds).map Int.ofNat
    else none

def readDigits (s : List Char) : Option Digits := do
  let whole := s.takeWhile Char.isDigit
  let (fraction, rest) := splitPoint (s.dropWhile Char.isDigit)
  let mantissa ← readNat (whole ++ fraction)
  let exponent ← readExponent rest
  return ⟨mantissa, exponent - fraction.length⟩

def quietNaN : Nat := specialField * Nat.pow 2 fractionBits + Nat.pow 2 (fractionBits - 1)

def magnitudeBits (s : List Char) : Option Nat :=
  let name := String.ofList (s.map Char.toLower)
  if name == "inf" || name == "infinity" then some (specialField * Nat.pow 2 fractionBits)
  else if name == "nan" then some quietNaN
  else (readDigits s).map bitsOfDigits

def readFloat (s : List Char) : Option Float :=
  match s with
  | '-' :: r => (magnitudeBits r).map fun b => Float.ofBits (UInt64.ofNat (Nat.pow 2 63 + b))
  | '+' :: r => (magnitudeBits r).map fun b => Float.ofBits (UInt64.ofNat b)
  | r => (magnitudeBits r).map fun b => Float.ofBits (UInt64.ofNat b)

end DebugSession.Decimal
