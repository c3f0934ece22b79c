/-! Spans of time in messages. -/
namespace BufferLint.Text

/-- The thousandths of a second without zeros at the end. -/
def thousandths (n : Nat) : List Char :=
  let digits := Nat.toDigits 10 (1000 + n)
  ((digits.drop 1).reverse.dropWhile (· == '0')).reverse

/- Milliseconds below a second, seconds with their fraction from there on. No time at all has the
smallest unit. -/
def duration (ms : Nat) : String :=
  if ms = 0 then "0ns"
  else if ms < 1000 then toString ms ++ "ms"
  else
    let fraction := thousandths (ms % 1000)
    let tail := if fraction.isEmpty then [] else '.' :: fraction
    toString (ms / 1000) ++ String.ofList tail ++ "s"

def padRight (width : Nat) (text : String) : String :=
  text ++ String.ofList (List.replicate (width - text.length) ' ')

end BufferLint.Text
