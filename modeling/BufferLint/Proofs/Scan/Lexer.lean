import BufferLint.Scan.Script

/-! A lexer that reads a text once, from its first character to its last, and knows of lines only
that a newline ends a line comment. It says of every character where it stands and what it is
part of. -/
namespace BufferLint.Scan.Script

open BufferLint.Text

inductive Mode where
  | code
  | lineComment
  | blockComment
  | string (delimiter : Char)
  deriving DecidableEq, Repr

inductive Label where
  | code
  | delimiter
  | body
  | comment
  deriving DecidableEq, Repr

structure Place where
  line : Nat
  column : Nat
  deriving DecidableEq, Repr

def Place.after (p : Place) (c : Char) : Place :=
  if c = '\n' then ⟨p.line + 1, 0⟩ else ⟨p.line, p.column + 1⟩

structure Glyph where
  char : Char
  label : Label
  place : Place
  deriving DecidableEq, Repr

/-- A backslash in a string takes the next character along, be it a newline. -/
def glyphs : Mode → Place → List Char → List Glyph
  | _, _, [] => []
  | .code, p, '/' :: '/' :: rest =>
    ⟨'/', .comment, p⟩ :: ⟨'/', .comment, p.after '/'⟩ ::
      glyphs .lineComment ((p.after '/').after '/') rest
  | .code, p, '/' :: '*' :: rest =>
    ⟨'/', .comment, p⟩ :: ⟨'*', .comment, p.after '/'⟩ ::
      glyphs .blockComment ((p.after '/').after '*') rest
  | .code, p, c :: rest =>
    if isQuote c then ⟨c, .delimiter, p⟩ :: glyphs (.string c) (p.after c) rest
    else ⟨c, .code, p⟩ :: glyphs .code (p.after c) rest
  | .lineComment, p, c :: rest =>
    if c = '\n' then ⟨c, .code, p⟩ :: glyphs .code (p.after c) rest
    else ⟨c, .comment, p⟩ :: glyphs .lineComment (p.after c) rest
  | .blockComment, p, '*' :: '/' :: rest =>
    ⟨'*', .comment, p⟩ :: ⟨'/', .comment, p.after '*'⟩ ::
      glyphs .code ((p.after '*').after '/') rest
  | .blockComment, p, c :: rest => ⟨c, .comment, p⟩ :: glyphs .blockComment (p.after c) rest
  | .string d, p, '\x5c' :: c :: rest =>
    ⟨'\x5c', .body, p⟩ :: ⟨c, .body, p.after '\x5c'⟩ ::
      glyphs (.string d) ((p.after '\x5c').after c) rest
  | .string d, p, c :: rest =>
    if c = d then ⟨c, .delimiter, p⟩ :: glyphs .code (p.after c) rest
    else ⟨c, .body, p⟩ :: glyphs (.string d) (p.after c) rest

def lex (content : List Char) : List Glyph := glyphs .code ⟨0, 0⟩ content

theorem glyphs_nil (mode : Mode) (p : Place) : glyphs mode p [] = [] := by
  cases mode <;> rfl

theorem glyphs_code {p : Place} {c : Char} {rest : List Char}
    (line : c = '/' → rest.head? ≠ some '/') (block : c = '/' → rest.head? ≠ some '*') :
    glyphs .code p (c :: rest) =
      if isQuote c then ⟨c, .delimiter, p⟩ :: glyphs (.string c) (p.after c) rest
      else ⟨c, .code, p⟩ :: glyphs .code (p.after c) rest := by
  rw [glyphs]
  · rintro more rfl rfl
    exact line rfl rfl
  · rintro more rfl rfl
    exact block rfl rfl

theorem glyphs_blockComment {p : Place} {c : Char} {rest : List Char}
    (stays : c = '*' → rest.head? ≠ some '/') :
    glyphs .blockComment p (c :: rest) =
      ⟨c, .comment, p⟩ :: glyphs .blockComment (p.after c) rest := by
  rw [glyphs]
  rintro more rfl rfl
  exact stays rfl rfl

theorem glyphs_string {d : Char} {p : Place} {c : Char} {rest : List Char}
    (plain : c = '\x5c' → rest = []) :
    glyphs (.string d) p (c :: rest) =
      if c = d then ⟨c, .delimiter, p⟩ :: glyphs .code (p.after c) rest
      else ⟨c, .body, p⟩ :: glyphs (.string d) (p.after c) rest := by
  rw [glyphs]
  rintro e more rfl rfl
  cases plain rfl

theorem glyphs_char (mode : Mode) (p : Place) (cs : List Char) :
    (glyphs mode p cs).map Glyph.char = cs := by
  fun_induction glyphs mode p cs <;> simp_all

theorem glyphs_length (mode : Mode) (p : Place) (cs : List Char) :
    (glyphs mode p cs).length = cs.length := by
  rw [← List.length_map (f := Glyph.char), glyphs_char]

def places : Place → List Char → List Place
  | _, [] => []
  | p, c :: rest => p :: places (p.after c) rest

theorem glyphs_place (mode : Mode) (p : Place) (cs : List Char) :
    (glyphs mode p cs).map Glyph.place = places p cs := by
  fun_induction glyphs mode p cs <;> simp_all [places]

theorem places_le {p q : Place} {cs : List Char} (member : q ∈ places p cs) :
    q.line ≤ p.line + cs.length ∧ q.column ≤ p.column + cs.length := by
  induction cs generalizing p with
  | nil => cases member
  | cons c rest ih =>
    rcases List.mem_cons.mp member with rfl | later
    · exact ⟨Nat.le_add_right _ _, Nat.le_add_right _ _⟩
    · have bound := ih later
      have step : (p.after c).line ≤ p.line + 1 ∧ (p.after c).column ≤ p.column + 1 := by
        unfold Place.after
        split <;> simp
      rw [List.length_cons]
      omega

theorem newline_not_mem_lines {content l : List Char} (member : l ∈ lines content) :
    '\n' ∉ l := by
  induction content generalizing l with
  | nil => simp_all [lines_nil]
  | cons c rest ih =>
    rw [lines_cons] at member
    unfold addChar at member
    split at member
    · rcases List.mem_cons.mp member with rfl | member
      · exact List.not_mem_nil
      · exact ih member
    · rename_i other
      split at member
      · rename_i none
        exact absurd none (lines_ne_nil rest)
      · rename_i first more split
        rcases List.mem_cons.mp member with rfl | later
        · have before := ih (split ▸ List.mem_cons_self)
          simp [before, Ne.symm other]
        · exact ih (split ▸ List.mem_cons_of_mem _ later)

theorem lines_eq_cons {content l : List Char} {more : List (List Char)}
    (split : lines content = l :: more) :
    (content = l ∧ more = []) ∨ ∃ rest, content = l ++ '\n' :: rest ∧ lines rest = more := by
  induction content generalizing l with
  | nil =>
    cases split
    exact .inl ⟨rfl, rfl⟩
  | cons c rest ih =>
    rw [lines_cons] at split
    unfold addChar at split
    split at split
    · rename_i newline
      cases split
      exact .inr ⟨rest, by rw [newline]; rfl, rfl⟩
    · cases first : lines rest with
      | nil => exact absurd first (lines_ne_nil rest)
      | cons k ks =>
        rw [first] at split
        cases split
        rcases ih first with ⟨all, none⟩ | ⟨behind, all, others⟩
        · exact .inl ⟨by rw [all], none⟩
        · exact .inr ⟨behind, by rw [all]; rfl, others⟩

/- A text from the end of one of its lines on, and what is left of it for the next line. -/
inductive EndOfLine : List Char → Option (List Char) → Prop where
  | last : EndOfLine [] none
  | newline (rest : List Char) : EndOfLine ('\n' :: rest) (some rest)
  | carriage {tail : List Char} {next : Option (List Char)} :
    EndOfLine tail next → EndOfLine ('\r' :: tail) next

theorem dropReturn_append (l : List Char) {tail : List Char} {next : Option (List Char)}
    (finished : EndOfLine tail next) :
    ∃ back, l ++ tail = dropReturn l ++ back ∧ EndOfLine back next := by
  unfold dropReturn
  split
  · rename_i returns
    obtain ⟨front, rfl⟩ := List.getLast?_eq_some_iff.mp returns
    exact ⟨'\r' :: tail, by simp, .carriage finished⟩
  · exact ⟨tail, rfl, finished⟩

theorem dropReturn_subset (l : List Char) : ∀ c ∈ dropReturn l, c ∈ l := by
  unfold dropReturn
  split
  · exact List.dropLast_subset l
  · exact fun c member => member

/- What a lexer does after the end of a line. -/
def Mode.region : Mode → Region
  | .code | .lineComment => .code
  | .blockComment => .comment
  | .string d => .literal d

def Region.mode : Region → Mode
  | .code => .code
  | .comment => .blockComment
  | .literal d => .string d

/-- Only a quote begins a string. -/
def Region.Sound (region : Region) : Prop := ∀ d, region = .literal d → isQuote d = true

theorem Region.Sound.ne {d c : Char} (sound : Region.Sound (.literal d))
    (plain : isQuote c = false) : c ≠ d := by
  rintro rfl
  cases plain.symm.trans (sound c rfl)

/-- What a line break is part of: at the newline itself a line comment is over. -/
def Mode.breakLabel (mode : Mode) (c : Char) : Label :=
  match mode with
  | .code => .code
  | .lineComment => if c = '\n' then .code else .comment
  | .blockComment => .comment
  | .string _ => .body

theorem glyphs_break {c : Char} (ends : c = '\n' ∨ c = '\r') (mode : Mode)
    (sound : mode.region.Sound) (p : Place) (rest : List Char) :
    glyphs mode p (c :: rest) = ⟨c, mode.breakLabel c, p⟩ ::
      glyphs (if c = '\n' then mode.region.mode else mode) (p.after c) rest := by
  have slash : c ≠ '/' := by rcases ends with rfl | rfl <;> decide
  have star : c ≠ '*' := by rcases ends with rfl | rfl <;> decide
  have backslash : c ≠ '\x5c' := by rcases ends with rfl | rfl <;> decide
  have quote : isQuote c = false := by rcases ends with rfl | rfl <;> decide
  cases mode with
  | code =>
    rw [glyphs_code (fun same => absurd same slash) (fun same => absurd same slash), quote]
    simp [Mode.breakLabel, Mode.region, Region.mode]
  | lineComment =>
    rw [glyphs, Mode.breakLabel]
    split <;> rfl
  | blockComment =>
    rw [glyphs_blockComment (fun same => absurd same star)]
    simp [Mode.breakLabel, Mode.region, Region.mode]
  | string d =>
    rw [glyphs_string (fun same => absurd same backslash), if_neg (sound.ne quote)]
    simp [Mode.breakLabel, Mode.region, Region.mode]

theorem Place.after_of_ne {line column : Nat} {c : Char} (other : c ≠ '\n') :
    Place.after ⟨line, column⟩ c = ⟨line, column + 1⟩ := if_neg other

section steps

variable {line column : Nat} {c d : Char} {cs : List Char}

theorem glyphs_string_escaped (other : c ≠ '\n') :
    glyphs (.string d) ⟨line, column⟩ ('\x5c' :: c :: cs) = ⟨'\x5c', .body, ⟨line, column⟩⟩ ::
      ⟨c, .body, ⟨line, column + 1⟩⟩ :: glyphs (.string d) ⟨line, column + 2⟩ cs := by
  rw [glyphs, Place.after_of_ne (by decide), Place.after_of_ne other]

theorem glyphs_string_closes (plain : c ≠ '\x5c') (other : c ≠ '\n') :
    glyphs (.string c) ⟨line, column⟩ (c :: cs) =
      ⟨c, .delimiter, ⟨line, column⟩⟩ :: glyphs .code ⟨line, column + 1⟩ cs := by
  rw [glyphs_string (fun same => absurd same plain), if_pos rfl, Place.after_of_ne other]

theorem glyphs_string_stays (plain : c ≠ '\x5c') (stays : c ≠ d) (other : c ≠ '\n') :
    glyphs (.string d) ⟨line, column⟩ (c :: cs) =
      ⟨c, .body, ⟨line, column⟩⟩ :: glyphs (.string d) ⟨line, column + 1⟩ cs := by
  rw [glyphs_string (fun same => absurd same plain), if_neg stays, Place.after_of_ne other]

theorem glyphs_comment_stays (stays : c = '*' → cs.head? ≠ some '/') (other : c ≠ '\n') :
    glyphs .blockComment ⟨line, column⟩ (c :: cs) =
      ⟨c, .comment, ⟨line, column⟩⟩ :: glyphs .blockComment ⟨line, column + 1⟩ cs := by
  rw [glyphs_blockComment stays, Place.after_of_ne other]

theorem glyphs_code_quote (quote : isQuote c = true) (other : c ≠ '\n') :
    glyphs .code ⟨line, column⟩ (c :: cs) =
      ⟨c, .delimiter, ⟨line, column⟩⟩ :: glyphs (.string c) ⟨line, column + 1⟩ cs := by
  have slash : c ≠ '/' := by
    rintro rfl
    cases quote
  rw [glyphs_code (fun same => absurd same slash) (fun same => absurd same slash), if_pos quote,
    Place.after_of_ne other]

theorem glyphs_code_stays (comment : c = '/' → cs.head? ≠ some '/')
    (block : c = '/' → cs.head? ≠ some '*') (plain : ¬ isQuote c = true) (other : c ≠ '\n') :
    glyphs .code ⟨line, column⟩ (c :: cs) =
      ⟨c, .code, ⟨line, column⟩⟩ :: glyphs .code ⟨line, column + 1⟩ cs := by
  rw [glyphs_code comment block, if_neg plain, Place.after_of_ne other]

end steps

end BufferLint.Scan.Script
