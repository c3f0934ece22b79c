/-! Doubles as exact rationals. A double is kept as its 64 bits; arithmetic goes through natural
numbers and rounds once, to the nearest double, a half to the even one. -/
namespace BufferLint.Decimal

/-- The integer nearest to `num / den`; a half goes to the even neighbour. -/
def roundDiv (num den : Nat) : Nat :=
  let quotient := num / den
  let twice := 2 * (num % den)
  if twice < den || (twice = den && quotient % 2 = 0) then quotient else quotient + 1

/- `num / den` times a power of two, as a quotient of natural numbers. -/
def scaled (num den : Nat) (power : Int) : Nat × Nat :=
  if power < 0 then (num, den * Nat.pow 2 power.natAbs)
  else (num * Nat.pow 2 power.natAbs, den)

def floorLog2 (num den : Nat) : Int :=
  let guess : Int := (Nat.log2 num : Int) - (Nat.log2 den : Int)
  let (n, d) := scaled num den (-guess)
  if d ≤ n then guess else guess - 1

structure Binary64 where
  bits : UInt64
  deriving DecidableEq, Repr, Inhabited

namespace Binary64

def signBit : Nat := 0x8000000000000000

def hiddenBit : Nat := 0x10000000000000

def infinity : Nat := 0x7ff0000000000000

/- The bits of the double nearest to `num / den`. A significand of 53 bits that rounds up
to 54 carries into the exponent by the layout alone. -/
def magnitudeBits (num den : Nat) : Nat :=
  if num = 0 then 0
  else
    let power := max (-1074) (floorLog2 num den - 52)
    let (n, d) := scaled num den (-power)
    min infinity ((power + 1074).toNat * hiddenBit + roundDiv n d)

def ofRatio (negative : Bool) (num den : Nat) : Binary64 :=
  ⟨UInt64.ofNat (magnitudeBits num den + if negative then signBit else 0)⟩

def ofNat (n : Nat) : Binary64 := ofRatio false n 1

def isNegative (x : Binary64) : Bool := signBit ≤ x.bits.toNat

def magnitude (x : Binary64) : Nat := x.bits.toNat % signBit

def isInfinite (x : Binary64) : Bool := x.magnitude = infinity

def isZero (x : Binary64) : Bool := x.magnitude = 0

def negate (x : Binary64) : Binary64 :=
  ⟨UInt64.ofNat (x.magnitude + if x.isNegative then 0 else signBit)⟩

/-- Significand and power of two of a finite double. -/
def parts (x : Binary64) : Nat × Int :=
  let exponent : Nat := x.magnitude / hiddenBit
  let fraction : Nat := x.magnitude % hiddenBit
  if exponent = 0 then (fraction, -1074) else (hiddenBit + fraction, (exponent : Int) - 1075)

def ratio (x : Binary64) : Nat × Nat := scaled x.parts.1 1 x.parts.2

def mul (x y : Binary64) : Binary64 :=
  let (a, b) := x.ratio
  let (c, d) := y.ratio
  ofRatio (x.isNegative != y.isNegative) (a * c) (b * d)

def div (x y : Binary64) : Binary64 :=
  let (a, b) := x.ratio
  let (c, d) := y.ratio
  ofRatio (x.isNegative != y.isNegative) (a * d) (b * c)

end Binary64
end BufferLint.Decimal
