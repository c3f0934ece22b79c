/-! Words as a person types them: the case of ASCII letters does not matter. -/
namespace BufferLint.Text

def lowered (t : String) : String := String.ofList (t.toList.map Char.toLower)

end BufferLint.Text
