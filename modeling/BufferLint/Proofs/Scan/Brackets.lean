import BufferLint.Proofs.Scan.Pairing

/-! The scanner reads line by line and keeps a region and a stack in between; what it says of
brackets is what a lexer over the whole text and a count of its brackets say. -/
namespace BufferLint.Scan.Script

open BufferLint.Text

def Glyph.bracket? (g : Glyph) : Option Bracket :=
  if h : g.label = .code ∧ (isOpening g.char || isClosing g.char) = true then
    some ⟨g.char, g.place.line, g.place.column, h.2⟩
  else none

/- The brackets that a lexer passes as code from here on. -/
def marks (mode : Mode) (p : Place) (cs : List Char) : List Bracket :=
  (glyphs mode p cs).filterMap Glyph.bracket?

/-- The brackets of a text, strings and comments apart. -/
def codeBrackets (content : List Char) : List Bracket := (lex content).filterMap Glyph.bracket?

theorem bracket?_of_char {g : Glyph} (other : (isOpening g.char || isClosing g.char) = false) :
    g.bracket? = none := by
  simp [Glyph.bracket?, other]

def nextMarks (line : Nat) (region : Region) : Option (List Char) → List Bracket
  | none => []
  | some rest => marks region.mode ⟨line + 1, 0⟩ rest

theorem marks_break {c : Char} (ends : c = '\n' ∨ c = '\r') (mode : Mode)
    (sound : mode.region.Sound) (p : Place) (rest : List Char) :
    marks mode p (c :: rest) =
      marks (if c = '\n' then mode.region.mode else mode) (p.after c) rest := by
  have plain : (isOpening c || isClosing c) = false := by rcases ends with rfl | rfl <;> decide
  simp [marks, glyphs_break ends mode sound, bracket?_of_char, plain]

theorem marks_endOfLine {tail : List Char} {next : Option (List Char)}
    (finished : EndOfLine tail next) (mode : Mode) (sound : mode.region.Sound) (p : Place) :
    marks mode p tail = nextMarks p.line mode.region next := by
  induction finished generalizing p with
  | last => simp [marks, glyphs_nil, nextMarks]
  | newline rest => exact marks_break (.inl rfl) mode sound p rest
  | carriage finished ih => exact (marks_break (.inr rfl) mode sound p _).trans (ih (p.after '\r'))

/-- A backslash at the end of a line takes along what ends the line. -/
theorem marks_escape {tail : List Char} {next : Option (List Char)} (finished : EndOfLine tail next)
    {d : Char} (sound : Region.Sound (.literal d)) (p : Place) :
    marks (.string d) p ('\x5c' :: tail) = nextMarks p.line (.literal d) next := by
  cases finished with
  | last =>
    rw [marks, glyphs_string (fun _ => rfl), if_neg (sound.ne (by decide))]
    rfl
  | newline rest => rfl
  | carriage finished =>
    exact marks_endOfLine finished (.string d) sound ((p.after '\x5c').after '\r')

theorem marks_lineComment {tail : List Char} {next : Option (List Char)}
    (finished : EndOfLine tail next) (cs : List Char) (clean : '\n' ∉ cs) (p : Place) :
    marks .lineComment p (cs ++ tail) = nextMarks p.line .code next := by
  induction cs generalizing p with
  | nil => exact marks_endOfLine finished .lineComment (by rintro d ⟨⟩) p
  | cons c rest ih =>
    have other : c ≠ '\n' := by
      rintro rfl
      exact clean List.mem_cons_self
    have here : (p.after c).line = p.line := by rw [Place.after, if_neg other]
    rw [← here, ← ih (fun member => clean (List.mem_cons_of_mem _ member)), List.cons_append, marks,
      glyphs, if_neg other]
    rfl

def extraRule : String := "extra-closing-bracket"

def unclosedRule : String := "unclosed-bracket"

def hasRule (name : String) (d : Diagnostic) : Bool := d.rule == some name

def Bracket.opening (b : Bracket) : Opening := ⟨b.char, b.line, b.column⟩

def Bracket.extra (b : Bracket) : Diagnostic := extraClosing b.line b.column b.char

/-- A pass has paired the brackets in this way. -/
structure Pairs (pass : Pass) (s : Paired) : Prop where
  openings : pass.openings = s.pending.map Bracket.opening
  extra : pass.found.filter (hasRule extraRule) = s.extra.map Bracket.extra
  unclosed : pass.found.filter (hasRule unclosedRule) = []

section

variable {pass : Pass} {s : Paired}

theorem Pairs.report (pairs : Pairs pass s) {ds : List Diagnostic}
    (others : ∀ d ∈ ds, hasRule extraRule d = false ∧ hasRule unclosedRule d = false) :
    Pairs (pass.report ds) s := by
  refine ⟨pairs.openings, ?_, ?_⟩
  · have none : ds.reverse.filter (hasRule extraRule) = [] := by
      simpa [List.filter_eq_nil_iff] using fun d member => (others d member).1
    rw [Pass.report, List.filter_append, none, List.nil_append, pairs.extra]
  · have none : ds.reverse.filter (hasRule unclosedRule) = [] := by
      simpa [List.filter_eq_nil_iff] using fun d member => (others d member).2
    rw [Pass.report, List.filter_append, none, List.nil_append, pairs.unclosed]

theorem Pairs.pairBracket (pairs : Pairs pass s) (line column : Nat) (c : Char) :
    Pairs (pass.pairBracket line column c)
      ((Glyph.bracket? ⟨c, .code, ⟨line, column⟩⟩).toList.foldl Paired.read s) := by
  by_cases bracket : (isOpening c || isClosing c) = true
  · have seen : Glyph.bracket? ⟨c, .code, ⟨line, column⟩⟩ = some ⟨c, line, column, bracket⟩ :=
      dif_pos ⟨rfl, bracket⟩
    rw [seen, Option.toList_some, List.foldl_cons, List.foldl_nil]
    unfold Pass.pairBracket Paired.read
    dsimp only
    split
    · exact ⟨congrArg _ pairs.openings, pairs.extra, pairs.unclosed⟩
    · rename_i closing
      have openings := pairs.openings
      rw [if_pos (by simpa [closing] using bracket), openings]
      cases s.pending with
      | nil =>
        refine ⟨rfl, ?_, ?_⟩
        · exact (List.filter_cons_of_pos rfl).trans (congrArg _ pairs.extra)
        · exact (List.filter_cons_of_neg (Bool.not_eq_true _ ▸ rfl)).trans pairs.unclosed
      | cons inner outer => exact ⟨rfl, pairs.extra, pairs.unclosed⟩
  · have plain : (isOpening c || isClosing c) = false := by simpa using bracket
    rw [bracket?_of_char plain]
    simp only [Bool.or_eq_false_iff] at plain
    simpa [Pass.pairBracket, plain.1, plain.2] using pairs

theorem findingsAt_others (line index : Nat) (cursor : Cursor) :
    ∀ d ∈ findingsAt line index cursor,
      hasRule extraRule d = false ∧ hasRule unclosedRule d = false := by
  have names : ∀ rule ∈ positionRules, rule.name ≠ extraRule ∧ rule.name ≠ unclosedRule := by
    simp [positionRules, looseEquality, missingSeparator, extraRule, unclosedRule]
  intro d member
  obtain ⟨rule, asked, rfl⟩ := List.mem_map.mp member
  have name := names rule (List.mem_filter.mp asked |>.1)
  simpa [hasRule, PositionRule.report, Diagnostic.place] using name

theorem findingsAtEnd_others (line : Nat) (l : LineEnd) :
    ∀ d ∈ findingsAtEnd line l, hasRule extraRule d = false ∧ hasRule unclosedRule d = false := by
  have names : ∀ rule ∈ lineRules, rule.name ≠ extraRule ∧ rule.name ≠ unclosedRule := by
    simp [lineRules, missingSemicolon, extraRule, unclosedRule]
  intro d member
  obtain ⟨rule, asked, rfl⟩ := List.mem_map.mp member
  have name := names rule (List.mem_filter.mp asked |>.1)
  simpa [hasRule, LineRule.report, Diagnostic.place] using name

/- At the end of a line a pass has paired the brackets of `bs` up to there, and what is left of
them is what the lexer passes on the next lines. -/
def Reaches (line : Nat) (next : Option (List Char)) (bs : List Bracket) (s : Paired)
    (out : Pass) : Prop :=
  out.region.Sound ∧ ∃ t, Pairs out t ∧
    bs.foldl Paired.read s = (nextMarks line out.region next).foldl Paired.read t

end

theorem head?_append_ne {tail : List Char} {next : Option (List Char)}
    (finished : EndOfLine tail next) {c : Char} {rest : List Char} (mark : c = '/' ∨ c = '*')
    (apart : ∀ more, rest = c :: more → False) : (rest ++ tail).head? ≠ some c := by
  cases rest with
  | nil => cases finished <;> rcases mark with rfl | rfl <;> simp
  | cons e more =>
    rintro ⟨⟩
    exact apart more rfl

section steps

variable {line column : Nat} {c d : Char} {cs : List Char}

theorem marks_string_escaped (other : c ≠ '\n') :
    marks (.string d) ⟨line, column⟩ ('\x5c' :: c :: cs) =
      marks (.string d) ⟨line, column + 2⟩ cs := by
  rw [marks, glyphs_string_escaped other]
  rfl

theorem marks_string_closes (plain : c ≠ '\x5c') (other : c ≠ '\n') :
    marks (.string c) ⟨line, column⟩ (c :: cs) = marks .code ⟨line, column + 1⟩ cs := by
  rw [marks, glyphs_string_closes plain other]
  rfl

theorem marks_string_stays (plain : c ≠ '\x5c') (stays : c ≠ d) (other : c ≠ '\n') :
    marks (.string d) ⟨line, column⟩ (c :: cs) = marks (.string d) ⟨line, column + 1⟩ cs := by
  rw [marks, glyphs_string_stays plain stays other]
  rfl

theorem marks_comment_stays (stays : c = '*' → cs.head? ≠ some '/') (other : c ≠ '\n') :
    marks .blockComment ⟨line, column⟩ (c :: cs) = marks .blockComment ⟨line, column + 1⟩ cs := by
  rw [marks, glyphs_comment_stays stays other]
  rfl

theorem marks_code_quote (quote : isQuote c = true) (other : c ≠ '\n') :
    marks .code ⟨line, column⟩ (c :: cs) = marks (.string c) ⟨line, column + 1⟩ cs := by
  rw [marks, glyphs_code_quote quote other]
  rfl

theorem marks_code_stays (comment : c = '/' → cs.head? ≠ some '/')
    (block : c = '/' → cs.head? ≠ some '*') (plain : ¬ isQuote c = true) (other : c ≠ '\n') :
    marks .code ⟨line, column⟩ (c :: cs) =
      (Glyph.bracket? ⟨c, .code, ⟨line, column⟩⟩).toList ++ marks .code ⟨line, column + 1⟩ cs := by
  rw [marks, glyphs_code_stays comment block plain other, List.filterMap_cons]
  cases Glyph.bracket? ⟨c, .code, ⟨line, column⟩⟩ <;> rfl

end steps

theorem readCode_region (pass : Pass) (line column : Nat) (cursor : Cursor) (c : Char) :
    (pass.readCode line column cursor c).region = pass.region := by
  unfold Pass.readCode Pass.pairBracket
  split
  · rfl
  · split
    · split <;> rfl
    · rfl

/-- A line is read as the lexer reads it within the text. -/
theorem readFrom_reaches (line : Nat) {tail : List Char} {next : Option (List Char)}
    (finished : EndOfLine tail next) (cs : List Char) (clean : '\n' ∉ cs) (column : Nat)
    (before : Option Char) (row : Row) (pass : Pass) (s : Paired) (sound : pass.region.Sound)
    (pairs : Pairs pass s) :
    Reaches line next (marks pass.region.mode ⟨line, column⟩ (cs ++ tail)) s
      (readFrom line cs column before row pass).2 := by
  have code : Region.Sound .code := by rintro d ⟨⟩
  have comment : Region.Sound .comment := by rintro d ⟨⟩
  fun_induction readFrom line cs column before row pass generalizing s with
  | case1 column before row pass =>
    refine ⟨sound, s, pairs, ?_⟩
    have same : pass.region.mode.region = pass.region := by cases pass.region <;> rfl
    rw [List.nil_append, marks_endOfLine finished _ (same.symm ▸ sound), same]
  | case2 c column before row pass d region backslash =>
    refine ⟨sound, s, pairs, ?_⟩
    rw [region] at sound
    rw [eq_of_beq backslash, region]
    exact congrArg _ (marks_escape finished sound _)
  | case3 c column before row pass d region backslash escaped rest ih =>
    simp only [List.mem_cons, not_or] at clean
    have reached := ih clean.2.2 s sound pairs
    rw [region] at reached ⊢
    rw [eq_of_beq backslash]
    exact marks_string_escaped (Ne.symm clean.2.1) ▸ reached
  | case4 c rest column before row pass d region plain closes ih =>
    simp only [List.mem_cons, not_or] at clean
    have reached := ih clean.2 s code ⟨pairs.openings, pairs.extra, pairs.unclosed⟩
    rw [region, ← eq_of_beq closes]
    exact marks_string_closes (by simpa using plain) (Ne.symm clean.1) ▸ reached
  | case5 c rest column before row pass d region plain stays ih =>
    simp only [List.mem_cons, not_or] at clean
    have reached := ih clean.2 s sound pairs
    rw [region] at reached ⊢
    have body : c ≠ d := by simpa using stays
    exact marks_string_stays (by simpa using plain) body (Ne.symm clean.1) ▸ reached
  | case6 column before row pass region rest ih =>
    simp only [List.mem_cons, not_or] at clean
    have reached := ih clean.2.2 s code ⟨pairs.openings, pairs.extra, pairs.unclosed⟩
    rw [region]
    exact reached
  | case7 c column before row pass region rest stays ih =>
    simp only [List.mem_cons, not_or] at clean
    have reached := ih clean.2 s sound pairs
    rw [region] at reached ⊢
    refine marks_comment_stays ?_ (Ne.symm clean.1) ▸ reached
    exact fun same => head?_append_ne finished (.inl rfl) (fun more => stays more same)
  | case8 column before row pass region rest =>
    simp only [List.mem_cons, not_or] at clean
    refine ⟨sound, s, pairs, ?_⟩
    rw [region]
    exact congrArg _ (marks_lineComment finished rest clean.2.2 ⟨line, column + 2⟩)
  | case9 column before row pass region rest ih =>
    simp only [List.mem_cons, not_or] at clean
    have reached := ih clean.2.2 s comment ⟨pairs.openings, pairs.extra, pairs.unclosed⟩
    rw [region]
    exact reached
  | case10 c column before row pass region rest row' quote _ _ ih =>
    simp only [List.mem_cons, not_or] at clean
    have literal : Region.Sound (.literal c) := by
      rintro d ⟨⟩
      exact quote
    have reached := ih clean.2 s literal ⟨pairs.openings, pairs.extra, pairs.unclosed⟩
    dsimp only
    rw [if_pos quote, region]
    exact marks_code_quote quote (Ne.symm clean.1) ▸ reached
  | case11 c column before row pass region rest row' plain apart block ih =>
    simp only [List.mem_cons, not_or] at clean
    have read := (pairs.pairBracket line column c).report
      (findingsAt_others line column ⟨before, c :: rest, row'.inContainer⟩)
    have stays : (pass.readCode line column ⟨before, c :: rest, row'.inContainer⟩ c).region =
        .code := (readCode_region _ _ _ _ _).trans region
    have reached := ih clean.2 _ (stays ▸ code) read
    have step : marks .code ⟨line, column⟩ (c :: (rest ++ tail)) = _ :=
      marks_code_stays
        (fun same => head?_append_ne finished (.inl rfl) (fun more => apart more same))
        (fun same => head?_append_ne finished (.inr rfl) (fun more => block more same))
        plain (Ne.symm clean.1)
    dsimp only
    rw [if_neg plain, region]
    rw [stays] at reached
    obtain ⟨sound, t, pairs, same⟩ := reached
    refine ⟨sound, t, pairs, Eq.trans ?_ same⟩
    rw [← List.foldl_append]
    exact congrArg _ step

theorem readLine_reaches (line : Nat) {tail : List Char} {next : Option (List Char)}
    (finished : EndOfLine tail next) (l : List Char) (clean : '\n' ∉ l) (pass : Pass) (s : Paired)
    (sound : pass.region.Sound) (pairs : Pairs pass s) :
    Reaches line next (marks pass.region.mode ⟨line, 0⟩ (l ++ tail)) s
      (readLine pass line (dropReturn l)) := by
  obtain ⟨back, same, finished⟩ := dropReturn_append l finished
  have shorter : '\n' ∉ dropReturn l := fun member => clean (dropReturn_subset l _ member)
  obtain ⟨sound, t, pairs, reached⟩ := readFrom_reaches line finished (dropReturn l) shorter 0
    none {} pass s sound pairs
  rw [same]
  exact ⟨sound, t, pairs.report (findingsAtEnd_others line _), reached⟩

theorem readLines_from (ls : List (List Char)) (content : List Char) (split : lines content = ls)
    (line : Nat) (pass : Pass) (s : Paired) (sound : pass.region.Sound) (pairs : Pairs pass s) :
    Pairs ((ls.zipIdx line).foldl (fun pass l => readLine pass l.2 (dropReturn l.1)) pass)
      ((marks pass.region.mode ⟨line, 0⟩ content).foldl Paired.read s) := by
  induction ls generalizing content line pass s with
  | nil => exact absurd split (lines_ne_nil content)
  | cons l more ih =>
    have clean := newline_not_mem_lines (split ▸ List.mem_cons_self : l ∈ lines content)
    rw [List.zipIdx_cons, List.foldl_cons]
    rcases lines_eq_cons split with ⟨rfl, rfl⟩ | ⟨rest, rfl, others⟩
    · obtain ⟨_, t, pairs, reached⟩ :=
        readLine_reaches line .last content clean pass s sound pairs
      rw [List.append_nil] at reached
      rw [reached]
      exact pairs
    · obtain ⟨sound, t, pairs, reached⟩ :=
        readLine_reaches line (.newline rest) l clean pass s sound pairs
      rw [reached]
      exact ih rest others (line + 1) _ t sound pairs

theorem readLines_pairs (content : List Char) :
    Pairs (readLines content) (pairing (codeBrackets content)) :=
  readLines_from _ content rfl 0 {} {} (by rintro d ⟨⟩) ⟨rfl, rfl, rfl⟩

theorem codeBrackets_lt {content : List Char} (short : content.length < UInt32.size) {b : Bracket}
    (member : b ∈ codeBrackets content) : b.line < UInt32.size ∧ b.column < UInt32.size := by
  obtain ⟨g, seen, same⟩ := List.mem_filterMap.mp member
  have place : g.place ∈ places ⟨0, 0⟩ content := by
    rw [← glyphs_place .code]
    exact List.mem_map_of_mem seen
  have bound := places_le place
  unfold Glyph.bracket? at same
  split at same
  · cases same
    dsimp only at bound ⊢
    omega
  · cases same

def shown (d : Diagnostic) : Nat × Nat × Severity × String :=
  (d.line.toNat, d.column.toNat, d.severity, d.message)

theorem shown_place {line column : Nat} (low : line < UInt32.size) (left : column < UInt32.size)
    (message : String) (severity : Severity) (source rule : String) :
    shown (.place line column message severity source rule) =
      (line, column, severity, message) := by
  simp [shown, Diagnostic.place, Nat.mod_eq_of_lt low, Nat.mod_eq_of_lt left]

def reported (rule : String) (content : List Char) : List Diagnostic :=
  (scan content).filter (hasRule rule)

theorem reported_extra (content : List Char) :
    reported extraRule content =
      (pairing (codeBrackets content)).extra.reverse.map Bracket.extra := by
  have pairs := readLines_pairs content
  have none :
      ((readLines content).openings.reverse.map unclosed).filter (hasRule extraRule) = [] := by
    refine List.filter_eq_nil_iff.mpr fun d member => ?_
    obtain ⟨o, _, rfl⟩ := List.mem_map.mp member
    simp [hasRule, unclosed, Diagnostic.place, extraRule]
  rw [reported, scan, List.filter_append, none, List.append_nil, List.filter_reverse, pairs.extra,
    List.map_reverse]

theorem reported_unclosed (content : List Char) :
    reported unclosedRule content =
      (pairing (codeBrackets content)).pending.reverse.map (fun b => unclosed b.opening) := by
  have pairs := readLines_pairs content
  have all : ((readLines content).openings.reverse.map unclosed).filter (hasRule unclosedRule) =
      (readLines content).openings.reverse.map unclosed := by
    refine List.filter_eq_self.mpr fun d member => ?_
    obtain ⟨o, _, rfl⟩ := List.mem_map.mp member
    rfl
  rw [reported, scan, List.filter_append, all, List.filter_reverse, pairs.unclosed, pairs.openings,
    List.reverse_nil, List.nil_append, ← List.map_reverse, List.map_map]
  rfl

/-- Brackets are reported by the counts of a lexer over the whole text: a closing one when every
segment up to it closes more than it opens, an opening one when every segment from it on opens more
than it closes, in the order of the text. -/
theorem bracket_law (content : List Char) (short : content.length < UInt32.size) :
    (reported "extra-closing-bracket" content).map shown =
      ((codeBrackets content).zipIdx.filter (fun x => ClosesTooMuch (codeBrackets content) x.2)).map
        (fun x => (x.1.line, x.1.column, .error, "Extra closing " ++ bracketName x.1.char)) ∧
    (reported "unclosed-bracket" content).map shown =
      ((codeBrackets content).zipIdx.filter (fun x => StaysOpen (codeBrackets content) x.2)).map
        (fun x => (x.1.line, x.1.column, .error, "Unclosed " ++ bracketName x.1.char)) ∧
    (reported "extra-closing-bracket" content = [] ∧ reported "unclosed-bracket" content = [] ↔
      Balanced (codeBrackets content)) ∧
    (opens (codeBrackets content) : Int) - closes (codeBrackets content) =
      (reported "unclosed-bracket" content).length -
        (reported "extra-closing-bracket" content).length := by
  have extra := reported_extra content
  have unclosed := reported_unclosed content
  have inside : ∀ (p : Bracket × Nat → Bool), ∀ x ∈ (codeBrackets content).zipIdx.filter p,
      x.1.line < UInt32.size ∧ x.1.column < UInt32.size := by
    intro p x member
    exact codeBrackets_lt short (List.fst_mem_of_mem_zipIdx (List.mem_filter.mp member).1)
  rw [extraRule] at extra
  rw [unclosedRule] at unclosed
  rw [extra, unclosed]
  refine ⟨?_, ?_, ?_, ?_⟩
  · rw [extra_eq, List.map_map, List.map_map]
    refine List.map_congr_left fun x member => ?_
    exact shown_place (inside _ x member).1 (inside _ x member).2 _ _ _ _
  · rw [pending_eq, List.map_map, List.map_map]
    refine List.map_congr_left fun x member => ?_
    exact shown_place (inside _ x member).1 (inside _ x member).2 _ _ _ _
  · rw [balanced_iff]
    simp
  · have counts := pairing_counts (codeBrackets content)
    simp only [List.length_map, List.length_reverse]
    omega

/-- Brackets in strings and comments do not count, and a string may go on in the next line. -/
theorem bracket_law_mixed :
    ("(']\\\n' /*)*/\n])[//)".toList).length < UInt32.size ∧
    (reported "extra-closing-bracket" "(']\\\n' /*)*/\n])[//)".toList).map shown =
      [(2, 1, .error, "Extra closing parenthesis")] ∧
    (reported "unclosed-bracket" "(']\\\n' /*)*/\n])[//)".toList).map shown =
      [(2, 2, .error, "Unclosed bracket")] := by
  have short : ("(']\\\n' /*)*/\n])[//)".toList).length < UInt32.size := by decide
  obtain ⟨extra, unclosed, _⟩ := bracket_law _ short
  exact ⟨short, extra.trans (by decide), unclosed.trans (by decide)⟩

end BufferLint.Scan.Script
