import BufferLint.FileType
import BufferLint.Scan.JsonSyntax
import BufferLint.Scan.Python
import BufferLint.Scan.Reduced
import BufferLint.Scan.Script

/-! One in-process check of a whole buffer. -/
namespace BufferLint

open BufferLint.Text

def detailedLines : Nat := 1000

def scanAs (type : FileType) (content : List Char) : List Diagnostic :=
  match type with
  | .javascript | .typescript => Scan.Script.scan content
  | .python => Scan.Python.scan content
  | .json => Scan.JsonSyntax.scan content
  | _ => Scan.Reduced.scan content

def analyze (content : String) (type : FileType) : List Diagnostic :=
  let cs := content.toList
  if type = .unknown || allBlank cs then []
  else if detailedLines < (lines cs).length then Scan.Reduced.notice :: Scan.Reduced.scan cs
  else scanAs type cs

end BufferLint
