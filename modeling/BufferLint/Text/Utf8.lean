/-! Texts as bytes. Decoding refuses what is not the encoding of a text. -/
namespace BufferLint.Text

abbrev Bytes := List UInt8

def utf8 (s : String) : Bytes := s.toList.flatMap String.utf8EncodeChar

def decodeUtf8? (bs : Bytes) : Option String := String.fromUTF8? bs.toByteArray

@[simp] theorem decode_utf8 (s : String) : decodeUtf8? (utf8 s) = some s := by
  have encoded : (utf8 s).toByteArray = s.toByteArray := String.utf8Encode_toList
  simp [decodeUtf8?, encoded, String.fromUTF8?, s.isValidUTF8, String.fromUTF8]

/-- The character at the beginning, if the bytes begin with one. -/
def firstChar? (bs : Bytes) : Option Char := (bs.take 4).toByteArray.utf8DecodeChar? 0

/- Adds the bytes of the whole characters at the beginning to `count`. A character has a byte at
least, so the number of bytes is fuel enough. -/
def countDecodable : Nat → Nat → Bytes → Nat
  | 0, count, _ => count
  | fuel + 1, count, bs =>
    match firstChar? bs with
    | some c => countDecodable fuel (count + c.utf8Size) (bs.drop c.utf8Size)
    | none => count

def decodableCount (bs : Bytes) : Nat := countDecodable bs.length 0 bs

end BufferLint.Text
