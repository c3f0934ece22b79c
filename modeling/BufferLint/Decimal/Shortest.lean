import BufferLint.Decimal.Binary64

/-! The shortest decimal that reads back as a given double. The reals that round to the double form
an interval, its ends included when the significand is even; on decimal grids with 1, 2, … 17
digits the double's two neighbours are tried, and the first grid with one inside wins. -/
namespace BufferLint.Decimal

/- The reals that round to a double, in quarters of its last place: the ends, and whether they
belong to it. -/
structure Interval where
  low : Nat
  value : Nat
  high : Nat
  closed : Bool

def Interval.ofParts (significand : Nat) (power : Int) : Interval where
  low := 4 * significand - (if significand = Binary64.hiddenBit ∧ power ≠ -1074 then 1 else 2)
  value := 4 * significand
  high := 4 * significand + 2
  closed := significand % 2 = 0

def Interval.holds (i : Interval) (n d : Nat) : Bool :=
  if i.closed then i.low * d ≤ n && n ≤ i.high * d else i.low * d < n && n < i.high * d

/-- `digits · 10 ^ exponent` -/
structure Scientific where
  digits : Nat
  exponent : Int
  deriving DecidableEq, Repr

def floorLog10Search (num den : Nat) : Nat → Int → Int
  | 0, guess => guess
  | fuel + 1, guess =>
    let power := Nat.pow 10 guess.natAbs
    let small := if guess < 0 then num * power < den else num < den * power
    if small then floorLog10Search num den fuel (guess - 1) else guess

/- The floor of the decimal logarithm of `num / den`, for positive numbers. A binary logarithm
gives it up to one place too high, from where the search goes down. -/
def floorLog10 (num den : Nat) : Int :=
  floorLog10Search num den 4 ((floorLog2 num den + 1) * 30103 / 100000 + 1)

/- The neighbours of the value on the grid of multiples of `10 ^ exponent` that read back, the
nearer one first chosen, a tie to the even one. `unit` is a quarter of the last place. -/
def onGrid (i : Interval) (unit : Nat × Nat) (exponent : Int) : Option Scientific :=
  let power := Nat.pow 10 exponent.natAbs
  let (stepNum, stepDen) :=
    if exponent < 0 then (unit.2, unit.1 * power) else (unit.2 * power, unit.1)
  let down := i.value * stepDen / stepNum
  let up := down + 1
  let downIn := down ≠ 0 && i.holds (down * stepNum) stepDen
  let upIn := i.holds (up * stepNum) stepDen
  let gapDown := i.value * stepDen - down * stepNum
  let gapUp := up * stepNum - i.value * stepDen
  if downIn && upIn then
    if gapDown < gapUp || (gapDown = gapUp && down % 2 = 0) then some ⟨down, exponent⟩
    else some ⟨up, exponent⟩
  else if downIn then some ⟨down, exponent⟩
  else if upIn then some ⟨up, exponent⟩
  else none

def shortestSearch (i : Interval) (unit : Nat × Nat) (top : Int) : Nat → Nat → Scientific
  | 0, _ => ⟨i.value, 0⟩
  | fuel + 1, places =>
    (onGrid i unit (top - places)).getD (shortestSearch i unit top fuel (places + 1))

/-- The shortest decimal for a positive finite double. -/
def shortest (x : Binary64) : Scientific :=
  let (significand, power) := x.parts
  let (num, den) := x.ratio
  shortestSearch (Interval.ofParts significand power) (scaled 1 4 power) (floorLog10 num den) 17 0

/-- A digit text and the exponent of its first digit, without zeros at the end. -/
def Scientific.normal (d : Scientific) : List Char × Int :=
  let all := Nat.toDigits 10 d.digits
  let text := (all.reverse.dropWhile (· == '0')).reverse
  (text, d.exponent + (all.length : Int) - 1)

/- Positional with at least one decimal place while the first digit stands for 10⁻⁵ to 10¹⁵,
otherwise one digit before the point and a signed exponent. -/
def numberText (x : Binary64) : List Char :=
  let sign := if x.isNegative then ['-'] else []
  if x.isZero then sign ++ ['0', '.', '0']
  else
    let (digits, exponent) := (shortest x).normal
    let body :=
      if exponent < -5 || 15 < exponent then
        let mantissa := match digits with
          | [] => []
          | [d] => [d]
          | d :: rest => d :: '.' :: rest
        let mark := if exponent < 0 then ['e', '-'] else ['e', '+']
        mantissa ++ mark ++ Nat.toDigits 10 exponent.natAbs
      else if exponent < 0 then
        ['0', '.'] ++ List.replicate (exponent.natAbs - 1) '0' ++ digits
      else
        let whole := exponent.toNat + 1
        let padded := digits ++ List.replicate (whole - digits.length) '0'
        let fraction := padded.drop whole
        padded.take whole ++ ['.'] ++ (if fraction.isEmpty then ['0'] else fraction)
    sign ++ body

def oneDecimal (x : Binary64) : String :=
  let (num, den) := x.ratio
  let tenths := roundDiv (num * 10) den
  (if x.isNegative then "-" else "") ++ toString (tenths / 10) ++ "." ++ toString (tenths % 10)

end BufferLint.Decimal
