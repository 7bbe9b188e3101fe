namespace DebugSession.Decimal

structure Binary where
  mantissa : Nat
  exponent : Int
  deriving DecidableEq

def fractionBits : Nat := 52

def minExponent : Int := -1074

def specialField : Nat := 2047

def exponentField (bits : UInt64) : Nat := (bits.toNat / Nat.pow 2 fractionBits) % 2048

def fractionField (bits : UInt64) : Nat := bits.toNat % Nat.pow 2 fractionBits

def isNegative (bits : UInt64) : Bool := bits.toNat / Nat.pow 2 63 == 1

def Binary.ofBits (bits : UInt64) : Binary :=
  match exponentField bits with
  | 0 => ⟨fractionField bits, minExponent⟩
  | e + 1 => ⟨Nat.pow 2 fractionBits + fractionField bits, e + minExponent⟩

structure Rounding where
  low : Nat
  value : Nat
  high : Nat
  denominator : Nat
  closed : Bool

/-- The numbers that round to `b`. The gap below a power of two is half the gap above it. Both
ends belong to the interval when the mantissa is even. -/
def Binary.rounding (b : Binary) : Rounding :=
  let below := if b.mantissa == Nat.pow 2 fractionBits && b.exponent != minExponent then 1 else 2
  let scale := Nat.pow 2 (b.exponent - 2).toNat
  { low := (4 * b.mantissa - below) * scale
    value := 4 * b.mantissa * scale
    high := (4 * b.mantissa + 2) * scale
    denominator := Nat.pow 2 (2 - b.exponent).toNat
    closed := b.mantissa % 2 == 0 }

structure Digits where
  digits : Nat
  exponent : Int
  deriving DecidableEq

def Digits.over (d : Digits) (numerator denominator : Nat) : Nat × Nat :=
  (d.digits * Nat.pow 10 d.exponent.toNat * denominator,
    numerator * Nat.pow 10 (-d.exponent).toNat)

def Rounding.contains (r : Rounding) (d : Digits) : Bool :=
  let lo := d.over r.low r.denominator
  let hi := d.over r.high r.denominator
  if r.closed then lo.2 ≤ lo.1 && hi.1 ≤ hi.2 else lo.2 < lo.1 && hi.1 < hi.2

def Rounding.nearerAbove (r : Rounding) (below above : Digits) : Bool :=
  let b := below.over r.value r.denominator
  let a := above.over r.value r.denominator
  a.1 - a.2 ≤ b.2 - b.1

def digitCount (n : Nat) : Nat := (Nat.toDigits 10 n).length

def Rounding.magnitude (r : Rounding) : Int :=
  if r.denominator ≤ r.value then digitCount (r.value / r.denominator)
  else 1 - digitCount (r.denominator / r.value)

def Rounding.onGrid (r : Rounding) (n : Nat) : Option Digits :=
  let k := r.magnitude - n
  let floor := r.value * Nat.pow 10 (-k).toNat / (r.denominator * Nat.pow 10 k.toNat)
  let below : Digits := ⟨floor, k⟩
  let above : Digits := ⟨floor + 1, k⟩
  match r.contains below, r.contains above with
  | true, true => some (if r.nearerAbove below above then above else below)
  | true, false => some below
  | false, true => some above
  | false, false => none

def Rounding.shortest (r : Rounding) : Digits :=
  ((List.range 17).findSome? fun n => r.onGrid (n + 1)).getD ⟨r.value, 0⟩

def Digits.normal (d : Digits) : Digits :=
  if d.digits % 10 == 0 then ⟨d.digits / 10, d.exponent + 1⟩ else d

def Digits.positional (d : Digits) : List Char :=
  let text := Nat.toDigits 10 d.digits
  if 0 ≤ d.exponent then text ++ List.replicate d.exponent.toNat '0'
  else
    let places := (-d.exponent).toNat
    let padded := List.replicate (places + 1 - text.length) '0' ++ text
    padded.take (padded.length - places) ++ '.' :: padded.drop (padded.length - places)

def magnitudeText (bits : UInt64) : List Char :=
  if exponentField bits == 0 && fractionField bits == 0 then ['0']
  else (Binary.ofBits bits).rounding.shortest.normal.positional

def floatText (f : Float) : List Char :=
  let bits := f.toBits
  if exponentField bits == specialField && fractionField bits != 0 then ['N', 'a', 'N']
  else
    let magnitude :=
      if exponentField bits == specialField then ['i', 'n', 'f'] else magnitudeText bits
    if isNegative bits then '-' :: magnitude else magnitude

end DebugSession.Decimal
