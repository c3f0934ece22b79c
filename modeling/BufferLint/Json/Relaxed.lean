import BufferLint.Json.Reader
import BufferLint.Text.Alphanumeric
import BufferLint.Text.Blank

/-! JSON as people write it in settings files: with comments, commas that are left out or trail,
strings in single quotes, bare words and numbers as keys, hexadecimal numbers and a plus sign. A
fault is placed at the character where the token that does not fit begins. -/
namespace BufferLint.Json.Relaxed

open BufferLint.Text

inductive Fault where
  | unexpectedToken
  | openComment
  | openString
  | openArray
  | openObject
  | expectedDigitAfterSign
  | expectedDigit
  | expectedExponent
  | invalidEscape
  | invalidEscapeInDouble
  | invalidEscapeInSingle
  | expectedHexDigits
  /-- An escape that stands for half of a pair, as it was written, and what is wrong with it. -/
  | invalidUnicode (escape : String) (reason : String)
  | unexpectedCloseBracket
  | unexpectedCloseBrace
  | unexpectedComma
  | unexpectedColon
  | unexpectedWord
  | unexpectedInObject
  | expectedColon
  | expectedValue
  | moreThanOneValue
  deriving DecidableEq, Repr

def Fault.message : Fault → String
  | .unexpectedToken => "Unexpected token"
  | .openComment => "Unterminated comment block"
  | .openString => "Unterminated string literal"
  | .openArray => "Unterminated array"
  | .openObject => "Unterminated object"
  | .expectedDigitAfterSign => "Expected digit following negative sign"
  | .expectedDigit => "Expected digit"
  | .expectedExponent => "Expected plus, minus, or digit in number literal"
  | .invalidEscape => "Invalid escape"
  | .invalidEscapeInDouble => "Invalid escape in double quote string"
  | .invalidEscapeInSingle => "Invalid escape in single quote string"
  | .expectedHexDigits => "Expected four hex digits"
  | .invalidUnicode escape reason =>
    "Invalid unicode escape sequence. '" ++ escape ++ " (" ++ reason ++
      ")' is not a valid UTF8 character"
  | .unexpectedCloseBracket => "Unexpected close bracket"
  | .unexpectedCloseBrace => "Unexpected close brace"
  | .unexpectedComma => "Unexpected comma"
  | .unexpectedColon => "Unexpected colon"
  | .unexpectedWord => "Unexpected word"
  | .unexpectedInObject => "Unexpected token in object"
  | .expectedColon => "Expected colon after the string or word in object property"
  | .expectedValue => "Expected value after colon in object property"
  | .moreThanOneValue => "Text cannot contain more than one JSON value"

/-- Why reading stopped, and how many characters were left from the fault on. -/
structure Stop where
  fault : Fault
  left : Nat
  deriving DecidableEq, Repr

def stopAt {α : Type} (fault : Fault) (cs : List Char) : Except Stop α :=
  .error ⟨fault, cs.length⟩

inductive Token where
  | openBrace
  | closeBrace
  | openBracket
  | closeBracket
  | comma
  | colon
  | text (value : String)
  | word (value : String)
  | number (literal : List Char)
  | bool (value : Bool)
  | null
  deriving DecidableEq, Repr

def afterBlock : List Char → Option (List Char)
  | [] => none
  | '*' :: '/' :: rest => some rest
  | _ :: rest => afterBlock rest

/- The text from the next token on. Every round drops characters: their number is fuel enough. -/
def skipTrivia : Nat → List Char → Except Stop (List Char)
  | 0, cs => .ok cs
  | fuel + 1, cs =>
    let cs := cs.dropWhile isBlank
    match cs with
    | '/' :: '/' :: rest => skipTrivia fuel (rest.dropWhile (· != '\n'))
    | '/' :: '*' :: rest =>
      match afterBlock rest with
      | some rest => skipTrivia fuel rest
      | none => stopAt .openComment cs
    | _ => .ok cs

def hexCharValue (c : Char) : Option Nat :=
  if c.isDigit then some (c.toNat - 48)
  else if 'a' ≤ c ∧ c ≤ 'f' then some (c.toNat - 87)
  else if 'A' ≤ c ∧ c ≤ 'F' then some (c.toNat - 55)
  else none

def fourHex : List Char → Option (String × Nat × List Char)
  | a :: b :: c :: d :: rest => do
    let w ← hexCharValue a
    let x ← hexCharValue b
    let y ← hexCharValue c
    let z ← hexCharValue d
    return (String.ofList [a, b, c, d], ((w * 16 + x) * 16 + y) * 16 + z, rest)
  | _ => none

/-- A unicode escape behind its letter; `start` is the text from its backslash on. -/
def readUnicode (start cs : List Char) : Except Stop (Char × List Char) :=
  match fourHex cs with
  | none => stopAt .expectedHexDigits start
  | some (written, n, rest) =>
    if isTrailSurrogate n then stopAt (.invalidUnicode written "unpaired low surrogate") start
    else if isLeadSurrogate n then
      match rest with
      | '\x5c' :: 'u' :: rest =>
        match fourHex rest with
        | none => stopAt .expectedHexDigits start
        | some (_, m, rest) =>
          if isTrailSurrogate m then .ok (Char.ofNat (pairSurrogates n m), rest)
          else
            stopAt (.invalidUnicode written "high surrogate not followed by low surrogate") start
      | _ => stopAt (.invalidUnicode written "unpaired high surrogate") start
    else .ok (Char.ofNat n, rest)

/- An escape behind its backslash; a string escapes its own kind of quote only. `none` stands for
a text that ends behind the backslash. -/
def readEscape (quote : Char) (start : List Char) :
    List Char → Except Stop (Option (Char × List Char))
  | [] => .ok none
  | c :: rest =>
    if c = '\x22' then
      if quote = '\x22' then .ok (some (c, rest)) else stopAt .invalidEscapeInSingle start
    else if c = '\x27' then
      if quote = '\x27' then .ok (some (c, rest)) else stopAt .invalidEscapeInDouble start
    else if c = '\x5c' || c = '/' then .ok (some (c, rest))
    else if c = 'b' then .ok (some ('\x08', rest))
    else if c = 'f' then .ok (some ('\x0c', rest))
    else if c = 'n' then .ok (some ('\n', rest))
    else if c = 'r' then .ok (some ('\r', rest))
    else if c = 't' then .ok (some ('\t', rest))
    else if c = 'u' then (readUnicode start rest).map some
    else stopAt .invalidEscape start

/- The characters of a string up to its closing quote; `done` has those so far, last first, and
`opening` is the text from the opening quote on. -/
def readChars (quote : Char) (opening : List Char) :
    Nat → List Char → List Char → Except Stop (String × List Char)
  | 0, _, _ => stopAt .openString opening
  | _ + 1, _, [] => stopAt .openString opening
  | fuel + 1, done, c :: rest =>
    if c = quote then .ok (String.ofList done.reverse, rest)
    else if c = '\x5c' then do
      match ← readEscape quote (c :: rest) rest with
      | some (e, rest) => readChars quote opening fuel (e :: done) rest
      | none => stopAt .openString opening
    else readChars quote opening fuel (c :: done) rest

def isHexChar (c : Char) : Bool := (hexCharValue c).isSome

/-! The parts of a number literal are returned as they are written, with the text behind them. -/

def takeDigits (isOne : Char → Bool) (fault : Fault) (cs : List Char) :
    Except Stop (List Char × List Char) :=
  if cs.head?.any isOne then .ok (cs.takeWhile isOne, cs.dropWhile isOne) else stopAt fault cs

def takeFraction : List Char → Except Stop (List Char × List Char)
  | '.' :: rest => do
    let (digits, rest) ← takeDigits Char.isDigit .expectedDigit rest
    return ('.' :: digits, rest)
  | cs => .ok ([], cs)

def takeExponentBody : List Char → Except Stop (List Char × List Char)
  | [] => stopAt .expectedExponent []
  | sign :: rest =>
    if sign = '-' || sign = '+' then do
      let (digits, rest) ← takeDigits Char.isDigit .expectedDigit rest
      return (sign :: digits, rest)
    else takeDigits Char.isDigit .expectedExponent (sign :: rest)

def takeExponent : List Char → Except Stop (List Char × List Char)
  | mark :: rest =>
    if mark = 'e' || mark = 'E' then do
      let (body, rest) ← takeExponentBody rest
      return (mark :: body, rest)
    else .ok ([], mark :: rest)
  | [] => .ok ([], [])

def takeDecimals (whole cs : List Char) : Except Stop (List Char × List Char) := do
  let (fraction, rest) ← takeFraction cs
  let (exponent, rest) ← takeExponent rest
  return (whole ++ fraction ++ exponent, rest)

def isHexMark (c : Char) : Bool := c = 'x' || c = 'X'

def takeUnsigned : List Char → Except Stop (List Char × List Char)
  | [] => stopAt .expectedDigitAfterSign []
  | c :: rest =>
    if c = '0' then
      match rest with
      | mark :: digits =>
        if isHexMark mark then do
          let (digits, rest) ← takeDigits isHexChar .expectedDigit digits
          return ('0' :: mark :: digits, rest)
        else takeDecimals ['0'] rest
      | [] => .ok (['0'], [])
    else if c.isDigit then
      takeDecimals (c :: rest.takeWhile Char.isDigit) (rest.dropWhile Char.isDigit)
    else stopAt .expectedDigitAfterSign (c :: rest)

def readNumberToken : List Char → Except Stop (Token × List Char)
  | [] => stopAt .expectedDigitAfterSign []
  | c :: rest =>
    if c = '-' || c = '+' then do
      let (body, rest) ← takeUnsigned rest
      return (.number (c :: body), rest)
    else do
      let (body, rest) ← takeUnsigned (c :: rest)
      return (.number body, rest)

def hexNatural (digits : List Char) : Nat :=
  digits.foldl (fun n c => n * 16 + (hexCharValue c).getD 0) 0

def hexNumber (negative : Bool) (digits : List Char) : Option Number :=
  let n := hexNatural digits
  if n < 0x8000000000000000 then some (.integer (if negative then -n else n)) else none

def decimalNumber (literal : List Char) : Option Number :=
  match (match literal with
    | '-' :: rest => readNumber true (utf8 (String.ofList rest))
    | _ => readNumber false (utf8 (String.ofList literal))) with
  | .ok (n, []) => some n
  | _ => none

/-- The value of a literal; one that no number can hold stands for its own text. -/
def literalValue (literal : List Char) : Json :=
  let (negative, body) := match literal with
    | '-' :: rest => (true, rest)
    | '+' :: rest => (false, rest)
    | _ => (false, literal)
  let value := match body with
    | '0' :: x :: digits =>
      if isHexMark x then hexNumber negative digits
      else decimalNumber (if negative then '-' :: body else body)
    | _ => decimalNumber (if negative then '-' :: body else body)
  match value with
  | some n => .number n
  | none => .string (String.ofList literal)

def takeWord (word : String) (cs : List Char) : Option (List Char) :=
  if word.toList.isPrefixOf cs then
    let rest := cs.drop word.length
    if rest.head?.any isAlphanumeric then none else some rest
  else none

def isWordChar (c : Char) : Bool := isAlphanumeric c || c = '-' || c = '_'

/-- A bare word runs up to a blank or a colon and holds letters, digits, hyphens and low lines. -/
def readBareWord (start : List Char) : Except Stop (Token × List Char) :=
  let word := start.takeWhile (fun c => !isBlank c && c != ':')
  if word.isEmpty || !word.all isWordChar then stopAt .unexpectedToken start
  else .ok (.word (String.ofList word), start.drop word.length)

def readWordToken (start : List Char) : Except Stop (Token × List Char) :=
  match takeWord "true" start with
  | some rest => .ok (.bool true, rest)
  | none =>
    match takeWord "false" start with
    | some rest => .ok (.bool false, rest)
    | none =>
      match takeWord "null" start with
      | some rest => .ok (.null, rest)
      | none => readBareWord start

/- The token that begins with `c`. The number of characters behind it is fuel enough. -/
def readToken (fuel : Nat) (c : Char) (rest : List Char) : Except Stop (Token × List Char) :=
  if c = '\x7b' then .ok (.openBrace, rest)
  else if c = '\x7d' then .ok (.closeBrace, rest)
  else if c = '[' then .ok (.openBracket, rest)
  else if c = ']' then .ok (.closeBracket, rest)
  else if c = ',' then .ok (.comma, rest)
  else if c = ':' then .ok (.colon, rest)
  else if c = '\x22' || c = '\x27' then
    (readChars c (c :: rest) fuel [] rest).map (fun r => (.text r.1, r.2))
  else if c = '/' then stopAt .unexpectedToken (c :: rest)
  else if c = '-' || c = '+' || c.isDigit then readNumberToken (c :: rest)
  else readWordToken (c :: rest)

structure Lexeme where
  token : Option Token
  start : List Char
  rest : List Char

/- One more than the number of characters is fuel enough. -/
def next (fuel : Nat) (cs : List Char) : Except Stop Lexeme := do
  let cs ← skipTrivia fuel cs
  match cs with
  | [] => return ⟨none, [], []⟩
  | c :: rest =>
    let (token, rest) ← readToken fuel c rest
    return ⟨some token, cs, rest⟩

def skipComma (fuel : Nat) (lexeme : Lexeme) : Except Stop Lexeme :=
  match lexeme.token with
  | some .comma => next fuel lexeme.rest
  | _ => .ok lexeme

def keyOf : Token → Option String
  | .text s => some s
  | .word s => some s
  | .number literal => some (String.ofList literal)
  | _ => none

def valueLexeme (fuel : Nat) (lexeme : Lexeme) : Except Stop (Token × Lexeme) := do
  match lexeme.token with
  | some .colon =>
    let lexeme ← next fuel lexeme.rest
    match lexeme.token with
    | some token => return (token, lexeme)
    | none => stopAt .expectedValue lexeme.start
  | _ => stopAt .expectedColon lexeme.start

mutual

/- A value that begins with a token, and the text behind it. Each call is followed by at most two
for each character, so twice their number and two is fuel enough, and what is left of it is more
than the characters that are left. -/
def readValue : Nat → Token → Lexeme → Except Stop (Json × List Char)
  | 0, _, lexeme => stopAt .unexpectedToken lexeme.start
  | fuel + 1, token, lexeme =>
    match token with
    | .openBrace => do readFields fuel lexeme.start [] (← next fuel lexeme.rest)
    | .openBracket => do readItems fuel lexeme.start [] (← next fuel lexeme.rest)
    | .text s => .ok (.string s, lexeme.rest)
    | .number literal => .ok (literalValue literal, lexeme.rest)
    | .bool b => .ok (.bool b, lexeme.rest)
    | .null => .ok (.null, lexeme.rest)
    | .closeBracket => stopAt .unexpectedCloseBracket lexeme.start
    | .closeBrace => stopAt .unexpectedCloseBrace lexeme.start
    | .comma => stopAt .unexpectedComma lexeme.start
    | .colon => stopAt .unexpectedColon lexeme.start
    | .word _ => stopAt .unexpectedWord lexeme.start

def readItems : Nat → List Char → List Json → Lexeme → Except Stop (Json × List Char)
  | 0, opening, _, _ => stopAt .openArray opening
  | fuel + 1, opening, done, lexeme =>
    match lexeme.token with
    | none => stopAt .openArray opening
    | some .closeBracket => .ok (.array done.reverse, lexeme.rest)
    | some token => do
      let (item, rest) ← readValue fuel token lexeme
      readItems fuel opening (item :: done) (← skipComma fuel (← next fuel rest))

def readFields : Nat → List Char → List (String × Json) → Lexeme → Except Stop (Json × List Char)
  | 0, opening, _, _ => stopAt .openObject opening
  | fuel + 1, opening, done, lexeme =>
    match lexeme.token with
    | none => stopAt .openObject opening
    | some .closeBrace => .ok (ofFields done.reverse, lexeme.rest)
    | some token =>
      match keyOf token with
      | none => stopAt .unexpectedInObject lexeme.start
      | some key => do
        let (token, lexeme) ← valueLexeme fuel (← next fuel lexeme.rest)
        let (value, rest) ← readValue fuel token lexeme
        readFields fuel opening ((key, value) :: done) (← skipComma fuel (← next fuel rest))

end

def readDocument (cs : List Char) : Except Stop (Option Json) := do
  let fuel := 2 * cs.length + 2
  let first ← next fuel cs
  match first.token with
  | none => return none
  | some token =>
    let (value, rest) ← readValue fuel token first
    let behind ← next fuel rest
    match behind.token with
    | none => return some value
    | some _ => stopAt .moreThanOneValue behind.start

structure SyntaxError where
  fault : Fault
  line : Nat
  column : Nat
  deriving DecidableEq, Repr

def SyntaxError.message (e : SyntaxError) : String :=
  e.fault.message ++ " on line " ++ toString e.line ++ " column " ++ toString e.column

def Stop.locate (cs : List Char) (stop : Stop) : SyntaxError :=
  let before := cs.take (cs.length - stop.left)
  { fault := stop.fault
    line := before.count '\n' + 1
    column := (before.reverse.takeWhile (· != '\n')).length + 1 }

def parse (text : String) : Except SyntaxError (Option Json) :=
  (readDocument text.toList).mapError (Stop.locate text.toList)

end BufferLint.Json.Relaxed
