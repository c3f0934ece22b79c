import BufferLint.Json.Basic
import BufferLint.Text.Utf8

/-! Reading a JSON text, byte by byte. The reader stops at the first fault and tells where: a fault
is placed after the bytes that were consumed, or one further when the offending byte was only
looked at. -/
namespace BufferLint.Json

open BufferLint.Text (Bytes utf8 decodeUtf8? decodableCount)

inductive Fault where
  | endInValue
  | endInString
  | endInList
  | endInObject
  | expectedWord
  | expectedValue
  | invalidNumber
  | numberOutOfRange
  | controlCharacter
  | invalidEscape
  | loneSurrogate
  | endOfHexEscape
  | invalidCodePoint
  | trailingComma
  | expectedListEnd
  | expectedObjectEnd
  | keyNotString
  | expectedColon
  | nestedTooDeep
  | trailingCharacters
  deriving DecidableEq, Repr

def Fault.message : Fault → String
  | .endInValue => "EOF while parsing a value"
  | .endInString => "EOF while parsing a string"
  | .endInList => "EOF while parsing a list"
  | .endInObject => "EOF while parsing an object"
  | .expectedWord => "expected ident"
  | .expectedValue => "expected value"
  | .invalidNumber => "invalid number"
  | .numberOutOfRange => "number out of range"
  | .controlCharacter => "control character (\\u0000-\\u001F) found while parsing a string"
  | .invalidEscape => "invalid escape"
  | .loneSurrogate => "lone leading surrogate in hex escape"
  | .endOfHexEscape => "unexpected end of hex escape"
  | .invalidCodePoint => "invalid unicode code point"
  | .trailingComma => "trailing comma"
  | .expectedListEnd => "expected `,` or `]`"
  | .expectedObjectEnd => "expected `,` or `\x7d`"
  | .keyNotString => "key must be a string"
  | .expectedColon => "expected `:`"
  | .nestedTooDeep => "recursion limit exceeded"
  | .trailingCharacters => "trailing characters"

/-- Why and with how many bytes left reading stopped. -/
structure Stop where
  fault : Fault
  left : Nat
  deriving DecidableEq, Repr

/-! Readers return what they read together with the bytes behind it. -/

def stopHere {α : Type} (fault : Fault) (rest : Bytes) : Except Stop α :=
  .error ⟨fault, rest.length⟩

/-- A fault at the next byte, which was looked at and not consumed. -/
def stopAtNext {α : Type} (fault : Fault) (rest : Bytes) : Except Stop α :=
  .error ⟨fault, rest.length - 1⟩

def byte (c : Char) : UInt8 := c.toUInt8

def isBlankByte (b : UInt8) : Bool :=
  b == byte ' ' || b == byte '\t' || b == byte '\n' || b == byte '\r'

def skipBlank (bs : Bytes) : Bytes := bs.dropWhile isBlankByte

def isDigitByte (b : UInt8) : Bool := byte '0' ≤ b && b ≤ byte '9'

def digitValue (b : UInt8) : Nat := b.toNat - 48

def readWord (value : Json) : Bytes → Bytes → Except Stop (Json × Bytes)
  | [], rest => .ok (value, rest)
  | _ :: _, [] => stopHere .endInValue []
  | expected :: more, b :: rest =>
    if b == expected then readWord value more rest else stopHere .expectedWord rest

def largestWord : Nat := 0xffffffffffffffff

/-- The largest exponent that is added up exactly. -/
def largestExponent : Nat := 0x7fffffff

/- The double `significand · 10 ^ exponent`, each factor a double and each step rounded. Past
308 places the division is made in steps. The fuel bounds the number of steps. -/
def scaleDouble : Nat → Decimal.Binary64 → Int → Option Decimal.Binary64
  | 0, x, _ => some x
  | fuel + 1, x, exponent =>
    if exponent.natAbs ≤ 308 then
      let power := Decimal.Binary64.ofNat (Nat.pow 10 exponent.natAbs)
      if exponent < 0 then some (x.div power)
      else
        let y := x.mul power
        if y.isInfinite then none else some y
    else if x.isZero then some x
    else if 0 ≤ exponent then none
    else scaleDouble fuel (x.div (.ofNat (Nat.pow 10 308))) (exponent + 308)

def doubleOf (negative : Bool) (significand : Nat) (exponent : Int) : Option Decimal.Binary64 :=
  (scaleDouble 5 (.ofNat significand) exponent).map (fun x => if negative then x.negate else x)

def finishDouble (negative : Bool) (significand : Nat) (exponent : Int) (rest : Bytes) :
    Except Stop (Number × Bytes) :=
  match doubleOf negative significand exponent with
  | some x => .ok (.double x, rest)
  | none => stopHere .numberOutOfRange rest

/- The digits of an exponent behind its first. An exponent too large to count is out of range
when it is positive, and makes the number zero when it is negative or the digits were zero. -/
def readExponentDigits (negative : Bool) (significand : Nat) (before : Int) (down : Bool) :
    Nat → Bytes → Except Stop (Number × Bytes)
  | exponent, [] =>
    finishDouble negative significand (if down then before - exponent else before + exponent) []
  | exponent, b :: rest =>
    if isDigitByte b then
      let next := exponent * 10 + digitValue b
      if largestExponent < next then
        if significand ≠ 0 && !down then stopHere .numberOutOfRange rest
        else .ok (.double (.ofRatio negative 0 1), rest.dropWhile isDigitByte)
      else readExponentDigits negative significand before down next rest
    else
      finishDouble negative significand (if down then before - exponent else before + exponent)
        (b :: rest)

def readExponent (negative : Bool) (significand : Nat) (before : Int) (bs : Bytes) :
    Except Stop (Number × Bytes) :=
  let (down, bs) := match bs with
    | b :: rest => if b == byte '+' then (false, rest) else if b == byte '-' then (true, rest)
      else (false, bs)
    | [] => (false, bs)
  match bs with
  | [] => stopHere .endInValue []
  | b :: rest =>
    if isDigitByte b then readExponentDigits negative significand before down (digitValue b) rest
    else stopHere .invalidNumber rest

def isExponentMark (b : UInt8) : Bool := b == byte 'e' || b == byte 'E'

def finishDigits (negative : Bool) (significand : Nat) (exponent : Int) :
    Bytes → Except Stop (Number × Bytes)
  | b :: rest =>
    if isExponentMark b then readExponent negative significand exponent rest
    else finishDouble negative significand exponent (b :: rest)
  | [] => finishDouble negative significand exponent []

/- The digits behind a decimal point. Digits that no longer fit 64 bits are passed over. -/
def readFraction (negative : Bool) (before : Int) :
    Nat → Nat → Bytes → Except Stop (Number × Bytes)
  | significand, places, [] =>
    if places = 0 then stopAtNext .endInValue []
    else finishDigits negative significand (before - places) []
  | significand, places, b :: rest =>
    if isDigitByte b then
      let next := significand * 10 + digitValue b
      if largestWord < next then
        finishDigits negative significand (before - places) (rest.dropWhile isDigitByte)
      else readFraction negative before next (places + 1) rest
    else if places = 0 then stopAtNext .invalidNumber (b :: rest)
    else finishDigits negative significand (before - places) (b :: rest)

/- Digits of a whole number beyond 64 bits only raise the exponent. -/
def readLongWhole (negative : Bool) (significand : Nat) :
    Nat → Bytes → Except Stop (Number × Bytes)
  | exponent, [] => finishDouble negative significand exponent []
  | exponent, b :: rest =>
    if isDigitByte b then readLongWhole negative significand (exponent + 1) rest
    else if b == byte '.' then readFraction negative exponent significand 0 rest
    else finishDigits negative significand exponent (b :: rest)

/- A whole number that fits. A negative one below the signed range, and minus zero, are doubles. -/
def wholeNumber (negative : Bool) (n : Nat) : Number :=
  if !negative then .integer n
  else if n = 0 || 0x8000000000000000 < n then .double (.negate (.ofNat n))
  else .integer (-n)

def finishWhole (negative : Bool) (n : Nat) : Bytes → Except Stop (Number × Bytes)
  | [] => .ok (wholeNumber negative n, [])
  | b :: rest =>
    if b == byte '.' then readFraction negative 0 n 0 rest
    else if isExponentMark b then readExponent negative n 0 rest
    else .ok (wholeNumber negative n, b :: rest)

def readWhole (negative : Bool) : Nat → Bytes → Except Stop (Number × Bytes)
  | n, [] => finishWhole negative n []
  | n, b :: rest =>
    if isDigitByte b then
      let next := n * 10 + digitValue b
      if largestWord < next then readLongWhole negative n 1 rest
      else readWhole negative next rest
    else finishWhole negative n (b :: rest)

def readNumber (negative : Bool) : Bytes → Except Stop (Number × Bytes)
  | [] => stopHere .endInValue []
  | b :: rest =>
    if b == byte '0' then
      match rest with
      | d :: _ => if isDigitByte d then stopAtNext .invalidNumber rest
        else finishWhole negative 0 rest
      | [] => finishWhole negative 0 rest
    else if isDigitByte b then readWhole negative (digitValue b) rest
    else stopHere .invalidNumber rest

def hexValue (b : UInt8) : Option Nat :=
  if isDigitByte b then some (b.toNat - 48)
  else if byte 'a' ≤ b && b ≤ byte 'f' then some (b.toNat - 87)
  else if byte 'A' ≤ b && b ≤ byte 'F' then some (b.toNat - 55)
  else none

def hexQuad (a b c d : UInt8) : Option Nat := do
  let a ← hexValue a
  let b ← hexValue b
  let c ← hexValue c
  let d ← hexValue d
  return ((a * 16 + b) * 16 + c) * 16 + d

def readHex : Bytes → Except Stop (Nat × Bytes)
  | a :: b :: c :: d :: rest =>
    match hexQuad a b c d with
    | some n => .ok (n, rest)
    | none => stopHere .invalidEscape rest
  | _ => stopHere .endInString []

def isLeadSurrogate (n : Nat) : Bool := 0xd800 ≤ n && n ≤ 0xdbff

def isTrailSurrogate (n : Nat) : Bool := 0xdc00 ≤ n && n ≤ 0xdfff

def pairSurrogates (lead trail : Nat) : Nat := (lead - 0xd800) * 0x400 + (trail - 0xdc00) + 0x10000

/-- The byte that has to come between two surrogates. -/
def expectByte (expected : UInt8) : Bytes → Except Stop Bytes
  | [] => stopHere .endInString []
  | b :: rest => if b == expected then .ok rest else stopHere .endOfHexEscape rest

def readTrailSurrogate (lead : Nat) (bs : Bytes) : Except Stop (Nat × Bytes) := do
  let bs ← expectByte (byte '\x5c') bs
  let bs ← expectByte (byte 'u') bs
  let (trail, bs) ← readHex bs
  if isTrailSurrogate trail then return (pairSurrogates lead trail, bs)
  else stopHere .loneSurrogate bs

def readUnicodeEscape (bs : Bytes) : Except Stop (Nat × Bytes) := do
  let (n, bs) ← readHex bs
  if isTrailSurrogate n then stopHere .loneSurrogate bs
  else if isLeadSurrogate n then readTrailSurrogate n bs
  else return (n, bs)

def simpleEscape (b : UInt8) : Option Char :=
  if b == byte '\x22' then some '\x22'
  else if b == byte '\x5c' then some '\x5c'
  else if b == byte '/' then some '/'
  else if b == byte 'b' then some '\x08'
  else if b == byte 'f' then some '\x0c'
  else if b == byte 'n' then some '\n'
  else if b == byte 'r' then some '\r'
  else if b == byte 't' then some '\t'
  else none

def readEscape : Bytes → Except Stop (Char × Bytes)
  | [] => stopHere .endInString []
  | b :: rest =>
    match simpleEscape b with
    | some c => .ok (c, rest)
    | none =>
      if b == byte 'u' then (readUnicodeEscape rest).map (fun r => (Char.ofNat r.1, r.2))
      else stopHere .invalidEscape rest

/- A string that is not UTF-8 is at fault as far before its end as its last bytes, from the first
that begins no character on, are many; escapes count as the characters they stand for. -/
def stopAtUndecodable {α : Type} (decoded rest : Bytes) : Except Stop α :=
  .error ⟨.invalidCodePoint, rest.length + (decoded.length - decodableCount decoded)⟩

/- The characters of a string up to its closing quote; `done` has the bytes so far, last first.
Every round consumes a byte, so the number of bytes is fuel enough. -/
def readChars : Nat → Bytes → Bytes → Except Stop (String × Bytes)
  | 0, _, bs => stopHere .endInString bs
  | _ + 1, _, [] => stopHere .endInString []
  | fuel + 1, done, b :: rest =>
    if b == byte '\x22' then
      match decodeUtf8? done.reverse with
      | some s => .ok (s, rest)
      | none => stopAtUndecodable done.reverse rest
    else if b == byte '\x5c' then do
      let (c, rest) ← readEscape rest
      readChars fuel ((String.utf8EncodeChar c).reverse ++ done) rest
    else if b < 0x20 then stopHere .controlCharacter rest
    else readChars fuel (b :: done) rest

def readString (fuel : Nat) (bs : Bytes) : Except Stop (String × Bytes) := readChars fuel [] bs

/-- Containers may be nested this deep, less one. -/
def depthLimit : Nat := 128

def readColon (bs : Bytes) : Except Stop Bytes :=
  match skipBlank bs with
  | [] => stopAtNext .endInObject []
  | b :: rest => if b == byte ':' then .ok rest else stopAtNext .expectedColon (b :: rest)

def nextItem (first : Bool) (bs : Bytes) : Except Stop (Bool × Bytes) :=
  match skipBlank bs with
  | [] => stopAtNext .endInList []
  | b :: rest =>
    if b == byte ']' then .ok (false, rest)
    else if first then .ok (true, b :: rest)
    else if b == byte ',' then
      match skipBlank rest with
      | [] => stopAtNext .endInValue []
      | c :: more =>
        if c == byte ']' then stopAtNext .trailingComma (c :: more) else .ok (true, c :: more)
    else stopAtNext .expectedListEnd (b :: rest)

def nextField (first : Bool) (bs : Bytes) : Except Stop (Bool × Bytes) :=
  match skipBlank bs with
  | [] => stopAtNext .endInObject []
  | b :: rest =>
    if b == byte '\x7d' then .ok (false, rest)
    else if first then
      if b == byte '\x22' then .ok (true, rest) else stopAtNext .keyNotString (b :: rest)
    else if b == byte ',' then
      match skipBlank rest with
      | [] => stopAtNext .endInValue []
      | c :: more =>
        if c == byte '\x22' then .ok (true, more)
        else if c == byte '\x7d' then stopAtNext .trailingComma (c :: more)
        else stopAtNext .keyNotString (c :: more)
    else stopAtNext .expectedObjectEnd (b :: rest)

mutual

/-- A value. `depth` is how many containers may still be opened. A call is followed by at most two
calls for each byte, so twice the number of bytes and two is fuel enough, and what is left of it is
more than the bytes that are left. -/
def readValue : Nat → Nat → Bytes → Except Stop (Json × Bytes)
  | 0, _, bs => stopHere .endInValue bs
  | fuel + 1, depth, bs =>
    match skipBlank bs with
    | [] => stopAtNext .endInValue []
    | b :: rest =>
      if b == byte 'n' then readWord .null ("ull".toList.map byte) rest
      else if b == byte 't' then readWord (.bool true) ("rue".toList.map byte) rest
      else if b == byte 'f' then readWord (.bool false) ("alse".toList.map byte) rest
      else if b == byte '-' then (readNumber true rest).map (fun r => (.number r.1, r.2))
      else if isDigitByte b then (readNumber false (b :: rest)).map (fun r => (.number r.1, r.2))
      else if b == byte '\x22' then (readString fuel rest).map (fun r => (.string r.1, r.2))
      else if b == byte '[' then
        if depth ≤ 1 then stopAtNext .nestedTooDeep (b :: rest)
        else readItems fuel (depth - 1) [] rest
      else if b == byte '\x7b' then
        if depth ≤ 1 then stopAtNext .nestedTooDeep (b :: rest)
        else readFields fuel (depth - 1) [] rest
      else stopAtNext .expectedValue (b :: rest)

def readItems : Nat → Nat → List Json → Bytes → Except Stop (Json × Bytes)
  | 0, _, _, bs => stopHere .endInList bs
  | fuel + 1, depth, done, bs => do
    let (more, bs) ← nextItem done.isEmpty bs
    if more then
      let (item, bs) ← readValue fuel depth bs
      readItems fuel depth (item :: done) bs
    else return (.array done.reverse, bs)

def readFields : Nat → Nat → List (String × Json) → Bytes → Except Stop (Json × Bytes)
  | 0, _, _, bs => stopHere .endInObject bs
  | fuel + 1, depth, done, bs => do
    let (more, bs) ← nextField done.isEmpty bs
    if more then
      let (name, bs) ← readString fuel bs
      let bs ← readColon bs
      let (value, bs) ← readValue fuel depth bs
      readFields fuel depth ((name, value) :: done) bs
    else return (ofFields done.reverse, bs)

end

structure SyntaxError where
  fault : Fault
  line : Nat
  column : Nat
  deriving DecidableEq, Repr

def SyntaxError.message (e : SyntaxError) : String :=
  e.fault.message ++ " at line " ++ toString e.line ++ " column " ++ toString e.column

def Stop.locate (bs : Bytes) (stop : Stop) : SyntaxError :=
  let consumed := bs.take (bs.length - stop.left)
  { fault := stop.fault
    line := consumed.count (byte '\n') + 1
    column := (consumed.reverse.takeWhile (· != byte '\n')).length }

def readDocument (bs : Bytes) : Except Stop Json := do
  let (value, rest) ← readValue (2 * bs.length + 2) depthLimit bs
  let rest := skipBlank rest
  if rest.isEmpty then return value else stopAtNext .trailingCharacters rest

def parseBytes (bs : Bytes) : Except SyntaxError Json :=
  (readDocument bs).mapError (Stop.locate bs)

def parse (s : String) : Except SyntaxError Json := parseBytes (utf8 s)

end BufferLint.Json
