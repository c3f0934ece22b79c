/-! A text as a list of lines. A newline ends a line, so a text has one line more than it has
newlines; a carriage return is a character like any other until a reader drops it. -/
namespace BufferLint.Text

def addChar (c : Char) (ls : List (List Char)) : List (List Char) :=
  if c = '\n' then [] :: ls
  else match ls with
    | [] => [[c]]
    | l :: rest => (c :: l) :: rest

def lines (cs : List Char) : List (List Char) := cs.foldr addChar [[]]

@[simp] theorem lines_nil : lines [] = [[]] := rfl

@[simp] theorem lines_newline (cs : List Char) : lines ('\n' :: cs) = [] :: lines cs := rfl

theorem lines_cons (c : Char) (cs : List Char) : lines (c :: cs) = addChar c (lines cs) := rfl

theorem lines_ne_nil (cs : List Char) : lines cs ≠ [] := by
  cases cs with
  | nil => simp
  | cons c rest =>
    rw [lines_cons]
    unfold addChar
    split
    · simp
    · split <;> simp

theorem lines_length (cs : List Char) : (lines cs).length = cs.count '\n' + 1 := by
  induction cs with
  | nil => rfl
  | cons c rest ih =>
    rw [lines_cons]
    unfold addChar
    split
    · next h => simp [h, ih]
    · next h =>
      cases hl : lines rest with
      | nil => exact absurd hl (lines_ne_nil rest)
      | cons l more =>
        rw [hl] at ih
        simp only [List.length_cons] at ih
        simp [h, ih]

/-- One carriage return at the end of a line is part of the line break. -/
def dropReturn (line : List Char) : List Char :=
  if line.getLast? = some '\r' then line.dropLast else line

/-- Does `part` stand somewhere in `cs`, character by character? -/
def occurs (part : List Char) : List Char → Bool
  | [] => part.isEmpty
  | c :: rest => part.isPrefixOf (c :: rest) || occurs part rest

end BufferLint.Text
