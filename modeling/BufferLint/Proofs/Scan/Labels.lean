import BufferLint.Proofs.Scan.Inert
import BufferLint.Proofs.Scan.Positions

/-! A line of a script, read by the labels of its characters: the rules are asked at every character
that is code and nowhere else, they are shown the characters on both sides and the brackets counted
up to there, and what the scanner remembers of the line can be told from the labels. -/
namespace BufferLint.Scan.Script

open BufferLint.Text

def codeCount (c : Char) (gs : List Glyph) : Nat :=
  gs.countP (fun g => g.label = .code ∧ g.char = c)

/-- More braces or more square brackets are opened than closed. -/
def Contained (gs : List Glyph) : Prop :=
  codeCount '\x7d' gs < codeCount '\x7b' gs ∨ codeCount ']' gs < codeCount '[' gs

instance (gs : List Glyph) : Decidable (Contained gs) :=
  inferInstanceAs (Decidable (_ ∨ _))

def excess (opening closing : Char) (gs : List Glyph) : Int :=
  codeCount opening gs - codeCount closing gs

/-- More braces or more square brackets are opened than closed, by counters of 32 bits. -/
def Counted (gs : List Glyph) : Prop :=
  0 < Int32.ofInt (excess '\x7b' '\x7d' gs) ∨ 0 < Int32.ofInt (excess '[' ']' gs)

instance (gs : List Glyph) : Decidable (Counted gs) := inferInstanceAs (Decidable (_ ∨ _))

/-- A counter of 32 bits can hold this. -/
def Holds (n : Int) : Prop := -0x80000000 ≤ n ∧ n < 0x80000000

structure CountersFit (gs : List Glyph) : Prop where
  braces : Holds (excess '\x7b' '\x7d' gs)
  squares : Holds (excess '[' ']' gs)

/-- Delimiters open and close strings in turn, so a string is open behind an odd number of them. -/
def InString (gs : List Glyph) : Prop := gs.countP (fun g => g.label = .delimiter) % 2 = 1

instance (gs : List Glyph) : Decidable (InString gs) := inferInstanceAs (Decidable (_ = _))

/-- A character by which a line has code: one that is not blank, or the beginning of a string. -/
def Starts (earlier : List Glyph) (g : Glyph) : Prop :=
  (g.label = .code ∧ isBlank g.char = false) ∨ (g.label = .delimiter ∧ ¬ InString earlier)

instance (earlier : List Glyph) (g : Glyph) : Decidable (Starts earlier g) :=
  inferInstanceAs (Decidable (_ ∨ _))

/-- What the rules are shown at a character of a line. -/
def cursorAt (gs : List Glyph) (i : Nat) : Cursor where
  before := (gs.take i).getLast?.map Glyph.char
  ahead := (gs.drop i).map Glyph.char
  inContainer := Counted (gs.take (i + 1))

/-- What is said at a character of a line: nothing unless it is code. -/
def said (line : Nat) (gs : List Glyph) (i : Nat) : List Diagnostic :=
  if (gs[i]?).any (fun g => g.label = .code) then findingsAt line i (cursorAt gs i) else []

def rulings (ds : List Diagnostic) : List Diagnostic :=
  ds.filter (fun d => !(hasRule extraRule d || hasRule unclosedRule d))

section

variable {gs pre : List Glyph} {g : Glyph} {row : Row}

theorem codeCount_concat (c : Char) (gs : List Glyph) (g : Glyph) : codeCount c (gs ++ [g]) =
    codeCount c gs + if g.label = .code ∧ g.char = c then 1 else 0 := by
  simp [codeCount, List.countP_cons]

theorem inString_concat (gs : List Glyph) (g : Glyph) :
    InString (gs ++ [g]) ↔ if g.label = .delimiter then ¬ InString gs else InString gs := by
  unfold InString
  rw [List.countP_append, List.countP_cons, List.countP_nil]
  split <;> simp_all
  omega

theorem excess_concat (opening closing : Char) (gs : List Glyph) (g : Glyph) :
    excess opening closing (gs ++ [g]) = excess opening closing gs +
      (if g.label = .code ∧ g.char = opening then 1 else 0) -
        (if g.label = .code ∧ g.char = closing then 1 else 0) := by
  simp only [excess, codeCount_concat, Int.natCast_add]
  split_ifs <;> omega

theorem pos_ofInt {n : Int} (holds : Holds n) : 0 < Int32.ofInt n ↔ 0 < n := by
  rw [Int32.lt_iff_toInt_lt, Int32.toInt_ofInt_of_le holds.1 holds.2]
  rfl

theorem CountersFit.counted (fits : CountersFit gs) : Counted gs ↔ Contained gs := by
  rw [Counted, pos_ofInt fits.braces, pos_ofInt fits.squares, Contained, excess, excess]
  omega

/-- A line of less than 2 ^ 31 characters has no more brackets than can be counted. -/
theorem countersFit_of_short (short : gs.length < 0x80000000) : CountersFit gs := by
  have counts (c : Char) : codeCount c gs ≤ gs.length := List.countP_le_length
  have holds (opening closing : Char) : Holds (excess opening closing gs) := by
    have opened := counts opening
    have closed := counts closing
    unfold Holds excess
    omega
  exact ⟨holds _ _, holds _ _⟩

structure Row.Counts (row : Row) (gs : List Glyph) : Prop where
  braces : row.braces = Int32.ofInt (excess '\x7b' '\x7d' gs)
  squares : row.squares = Int32.ofInt (excess '[' ']' gs)

theorem Row.Counts.inContainer (counts : row.Counts gs) :
    row.inContainer = decide (Counted gs) := by
  rw [Row.inContainer, counts.braces, counts.squares]
  exact (Bool.decide_or _ _).symm

theorem Row.see_hasCode (row : Row) (c : Char) :
    (row.see c).hasCode = (row.hasCode || !isBlank c) := by
  unfold Row.see
  split_ifs <;> rfl

theorem Row.see_braces (row : Row) (c : Char) : (row.see c).braces =
    row.braces + (if c = '\x7b' then 1 else 0) - (if c = '\x7d' then 1 else 0) := by
  unfold Row.see
  split_ifs <;> simp_all

theorem Row.see_squares (row : Row) (c : Char) : (row.see c).squares =
    row.squares + (if c = '[' then 1 else 0) - (if c = ']' then 1 else 0) := by
  unfold Row.see
  split_ifs <;> simp_all

theorem Row.Counts.see (counts : row.Counts gs) (code : g.label = .code) :
    (row.see g.char).Counts (gs ++ [g]) := by
  constructor
  · simp only [Row.see_braces, counts.braces, excess_concat, code, true_and, Int32.ofInt_sub,
      Int32.ofInt_add]
    split_ifs <;> rfl
  · simp only [Row.see_squares, counts.squares, excess_concat, code, true_and, Int32.ofInt_sub,
      Int32.ofInt_add]
    split_ifs <;> rfl

theorem Row.Counts.pass (counts : row.Counts gs) (other : g.label ≠ .code) :
    row.Counts (gs ++ [g]) := by
  constructor
  · simp [excess_concat, other, counts.braces]
  · simp [excess_concat, other, counts.squares]

theorem Row.Counts.quote (counts : row.Counts gs) {c : Char} (quote : isQuote c = true) :
    (row.see c).Counts gs := by
  have same : (row.see c).Agrees row := Row.Agrees.quote ⟨rfl, rfl⟩ quote
  exact ⟨same.braces.trans counts.braces, same.squares.trans counts.squares⟩

end

/-- What a scan makes of the characters `gs` behind the characters `pre` of a line, with `above` on
the lines before. -/
structure Reported (line : Nat) (above pre gs : List Glyph) (row : Row) (found : List Diagnostic)
    (out : Row × Pass) : Prop where
  ruled : rulings out.2.found =
    ((List.range' pre.length gs.length).flatMap (said line (pre ++ gs))).reverse ++ rulings found
  hasCode : out.1.hasCode = true ↔ row.hasCode = true ∨
    ∃ early g late, gs = early ++ g :: late ∧ Starts (above ++ pre ++ early) g
  strings : InString (above ++ pre ++ gs) ↔ ∃ d, out.2.region = .literal d

section

variable {line : Nat} {above pre gs : List Glyph} {g : Glyph} {row next : Row}
  {found more : List Diagnostic} {out : Row × Pass}

theorem said_here (line : Nat) (pre gs : List Glyph) (g : Glyph) :
    said line (pre ++ g :: gs) pre.length = if g.label = .code then
      findingsAt line pre.length ⟨pre.getLast?.map Glyph.char, (g :: gs).map Glyph.char,
        Counted (pre ++ [g])⟩ else [] := by
  have upTo : (pre ++ g :: gs).take (pre.length + 1) = pre ++ [g] := by
    rw [List.append_cons]
    exact List.take_left' (by simp)
  unfold said cursorAt
  rw [upTo, List.take_left, List.drop_left]
  simp

theorem starts_cons (earlier : List Glyph) (g : Glyph) (gs : List Glyph) :
    (∃ early h late, g :: gs = early ++ h :: late ∧ Starts (earlier ++ early) h) ↔
      Starts earlier g ∨
        ∃ early h late, gs = early ++ h :: late ∧ Starts (earlier ++ [g] ++ early) h := by
  constructor
  · rintro ⟨early, h, late, split, starts⟩
    cases early with
    | nil =>
      cases split
      rw [List.append_nil] at starts
      exact .inl starts
    | cons e early =>
      cases split
      rw [List.append_cons] at starts
      exact .inr ⟨early, h, late, rfl, starts⟩
  · rintro (starts | ⟨early, h, late, rfl, starts⟩)
    · exact ⟨[], g, gs, rfl, by rwa [List.append_nil]⟩
    · exact ⟨g :: early, h, late, rfl, by rwa [List.append_cons]⟩

theorem Reported.nil {pass : Pass}
    (strings : InString (above ++ pre) ↔ ∃ d, pass.region = .literal d) :
    Reported line above pre [] row pass.found (row, pass) where
  ruled := by simp
  hasCode := by simp
  strings := by simpa using strings

theorem Reported.cons (reported : Reported line above (pre ++ [g]) gs next more out)
    (adds : rulings more = (said line (pre ++ g :: gs) pre.length).reverse ++ rulings found)
    (begins : next.hasCode = true ↔ row.hasCode = true ∨ Starts (above ++ pre) g) :
    Reported line above pre (g :: gs) row found out where
  ruled := by
    have joined : pre ++ [g] ++ gs = pre ++ g :: gs := (List.append_cons ..).symm
    rw [reported.ruled, adds, joined, List.length_append, List.length_singleton, List.length_cons,
      List.range'_succ, List.flatMap_cons, List.reverse_append, List.append_assoc]
  hasCode := by
    rw [reported.hasCode, begins, starts_cons, ← List.append_assoc, or_assoc]
  strings := by
    have strings := reported.strings
    rwa [← List.append_assoc, ← List.append_cons] at strings

theorem hidden_label (hidden : g.isHidden = true) :
    g.label ≠ .code ∧ g.label ≠ .delimiter := by
  cases kind : g.label <;> simp [Glyph.isHidden, kind] at hidden ⊢

theorem Reported.pass (reported : Reported line above (pre ++ [g]) gs row found out)
    (hidden : g.isHidden = true) : Reported line above pre (g :: gs) row found out := by
  have label := hidden_label hidden
  refine reported.cons ?_ ?_
  · simp [said_here, label.1]
  · simp [Starts, label]

theorem Reported.closes (reported : Reported line above (pre ++ [g]) gs row found out)
    (label : g.label = .delimiter) (inside : InString (above ++ pre)) :
    Reported line above pre (g :: gs) row found out := by
  refine reported.cons ?_ ?_
  · simp [said_here, label]
  · simp [Starts, label, inside]

theorem Reported.opens (reported : Reported line above (pre ++ [g]) gs (row.see g.char) found out)
    (label : g.label = .delimiter) (outside : ¬ InString (above ++ pre))
    (quote : isQuote g.char = true) : Reported line above pre (g :: gs) row found out := by
  refine reported.cons ?_ ?_
  · simp [said_here, label]
  · simp [Starts, label, outside, Row.see_hasCode, not_blank_of_isQuote quote]

theorem inString_hidden (gs : List Glyph) (hidden : g.isHidden = true) :
    InString (gs ++ [g]) ↔ InString gs := by
  rw [inString_concat, if_neg (hidden_label hidden).2]

theorem Reported.quiet {pass : Pass} (hidden : ∀ g ∈ gs, g.isHidden = true)
    (strings : InString (above ++ pre) ↔ ∃ d, pass.region = .literal d) :
    Reported line above pre gs row pass.found (row, pass) := by
  induction gs generalizing pre with
  | nil => exact .nil strings
  | cons g rest ih =>
    refine (ih (fun h member => hidden h (List.mem_cons_of_mem g member)) ?_).pass
      (hidden g List.mem_cons_self)
    rw [← List.append_assoc, inString_hidden _ (hidden g List.mem_cons_self), strings]

theorem rulings_pairBracket (pass : Pass) (line column : Nat) (c : Char) :
    rulings (pass.pairBracket line column c).found = rulings pass.found := by
  unfold Pass.pairBracket
  split
  · rfl
  split
  · split
    · exact List.filter_cons_of_neg (Bool.not_eq_true _ ▸ rfl)
    · rfl
  · rfl

theorem rulings_reverse {ds : List Diagnostic}
    (others : ∀ d ∈ ds, hasRule extraRule d = false ∧ hasRule unclosedRule d = false) :
    rulings ds.reverse = ds.reverse :=
  List.filter_eq_self.mpr fun d member => by simp [others d (List.mem_reverse.mp member)]

theorem Reported.code {pass : Pass} (counts : row.Counts pre)
    (reported : Reported line above (pre ++ [g]) gs (row.see g.char)
      (pass.readCode line pre.length ⟨pre.getLast?.map Glyph.char, (g :: gs).map Glyph.char,
        (row.see g.char).inContainer⟩ g.char).found out)
    (label : g.label = .code) : Reported line above pre (g :: gs) row pass.found out := by
  have inside := (counts.see label).inContainer
  refine reported.cons ?_ ?_
  · rw [said_here, if_pos label, Pass.readCode, Pass.report, inside, rulings, List.filter_append,
      ← rulings, ← rulings, rulings_reverse (findingsAt_others _ _ _), rulings_pairBracket]
  · simp [Starts, label, Row.see_hasCode]

end

/-- The labels of `cs`, whatever comes behind the line, and the mode in which the lexer gets
there. -/
structure Labelled (line column : Nat) (mode : Mode) (cs : List Char) (gs : List Glyph)
    (last : Mode) : Prop where
  length : gs.length = cs.length
  lexed : ∀ {tail : List Char} {next : Option (List Char)}, EndOfLine tail next →
    glyphs mode ⟨line, column⟩ (cs ++ tail) = gs ++ glyphs last ⟨line, column + cs.length⟩ tail

section

variable {line column : Nat} {mode next last : Mode} {cs : List Char} {gs : List Glyph}

theorem Labelled.alone (labelled : Labelled line column mode cs gs last) :
    glyphs mode ⟨line, column⟩ cs = gs := by
  have lexed := labelled.lexed .last
  rwa [List.append_nil, glyphs_nil, List.append_nil] at lexed

theorem Labelled.char (labelled : Labelled line column mode cs gs last) :
    gs.map Glyph.char = cs := by
  rw [← labelled.alone, glyphs_char]

theorem Labelled.nil (line column : Nat) (mode : Mode) : Labelled line column mode [] [] mode :=
  ⟨rfl, fun _ => rfl⟩

theorem Labelled.cons {c : Char} {g : Glyph}
    (labelled : Labelled line (column + 1) next cs gs last)
    (step : ∀ {tail : List Char} {more : Option (List Char)}, EndOfLine tail more →
      glyphs mode ⟨line, column⟩ (c :: (cs ++ tail)) =
        g :: glyphs next ⟨line, column + 1⟩ (cs ++ tail)) :
    Labelled line column mode (c :: cs) (g :: gs) last where
  length := congrArg (· + 1) labelled.length
  lexed finished := by
    rw [List.cons_append, step finished, labelled.lexed finished, List.length_cons,
      Nat.add_right_comm]
    rfl

theorem Labelled.cons₂ {c d : Char} {g h : Glyph}
    (labelled : Labelled line (column + 2) next cs gs last)
    (step : ∀ tail : List Char, glyphs mode ⟨line, column⟩ (c :: d :: (cs ++ tail)) =
      g :: h :: glyphs next ⟨line, column + 2⟩ (cs ++ tail)) :
    Labelled line column mode (c :: d :: cs) (g :: h :: gs) last where
  length := congrArg (· + 2) labelled.length
  lexed finished := by
    have columns : column + (cs.length + 1 + 1) = column + 2 + cs.length := by omega
    rw [List.cons_append, List.cons_append, step, labelled.lexed finished, List.length_cons,
      List.length_cons, columns]
    rfl

theorem lineComment_labelled (line column : Nat) (cs : List Char) (clean : '\n' ∉ cs) :
    ∃ gs, Labelled line column .lineComment cs gs .lineComment ∧ ∀ g ∈ gs, g.isHidden = true := by
  induction cs generalizing column with
  | nil => exact ⟨[], .nil _ _ _, by simp⟩
  | cons c rest ih =>
    simp only [List.mem_cons, not_or] at clean
    obtain ⟨gs, labelled, hidden⟩ := ih (column + 1) clean.2
    refine ⟨⟨c, .comment, ⟨line, column⟩⟩ :: gs, labelled.cons fun _ => ?_, ?_⟩
    · rw [glyphs, if_neg (Ne.symm clean.1), Place.after_of_ne (Ne.symm clean.1)]
    · simpa [Glyph.isHidden] using hidden

/-- A backslash at the end of a line is part of the string, and what follows is as well. -/
theorem glyphs_string_last {tail : List Char} {more : Option (List Char)}
    (finished : EndOfLine tail more) {d : Char} (sound : Region.Sound (.literal d)) :
    glyphs (.string d) ⟨line, column⟩ ('\x5c' :: tail) =
      ⟨'\x5c', .body, ⟨line, column⟩⟩ :: glyphs (.string d) ⟨line, column + 1⟩ tail := by
  cases finished with
  | last =>
    rw [glyphs_string (fun _ => rfl), if_neg (sound.ne (by decide))]
    rfl
  | newline rest =>
    rw [glyphs, glyphs_string (fun same => absurd same (by decide)), if_neg (sound.ne (by decide))]
    rfl
  | carriage finished =>
    have other : '\r' ≠ d := sound.ne (by decide)
    rw [glyphs_string_escaped (by decide), glyphs_string_stays (by decide) other (by decide)]

end

/-- The scanner in the middle of a line, behind the characters `pre` of it. -/
structure Midway (above pre : List Glyph) (column : Nat) (before : Option Char) (row : Row)
    (region : Region) : Prop where
  column : column = pre.length
  before : before = pre.getLast?.map Glyph.char
  counts : row.Counts pre
  sound : region.Sound
  strings : InString (above ++ pre) ↔ ∃ d, region = .literal d

/-- From a place on, a line is read as the lexer labels it: the rules are asked at the characters
that are code, the row says whether there is code, and the region is that of the lexer. -/
structure Follows (line : Nat) (above pre gs : List Glyph) (last : Mode) (cs : List Char)
    (row : Row) (region : Region) (found : List Diagnostic) (out : Row × Pass) : Prop where
  labelled : Labelled line pre.length region.mode cs gs last
  ends : last.region = out.2.region
  sound : out.2.region.Sound
  reported : Reported line above pre gs row found out

section

variable {line column : Nat} {above pre gs : List Glyph} {before : Option Char} {row : Row}
  {region next : Region} {g h : Glyph} {last : Mode} {c d : Char} {cs : List Char}
  {found : List Diagnostic} {out : Row × Pass}

theorem sound_code : Region.Sound .code := by rintro d ⟨⟩

theorem sound_comment : Region.Sound .comment := by rintro d ⟨⟩

theorem Midway.move (midway : Midway above pre column before row region) (g : Glyph)
    {seen : Row} (counts : seen.Counts (pre ++ [g])) (sound : next.Sound)
    (strings : InString (above ++ pre ++ [g]) ↔ ∃ d, next = .literal d) :
    Midway above (pre ++ [g]) (column + 1) (some g.char) seen next where
  column := by simp [midway.column]
  before := by simp
  counts := counts
  sound := sound
  strings := by rwa [← List.append_assoc]

theorem Midway.pass (midway : Midway above pre column before row region)
    (hidden : g.isHidden = true) (sound : next.Sound)
    (same : (∃ d, next = .literal d) ↔ ∃ d, region = .literal d) :
    Midway above (pre ++ [g]) (column + 1) (some g.char) row next := by
  refine midway.move g (midway.counts.pass (hidden_label hidden).1) sound ?_
  rw [inString_hidden _ hidden, midway.strings, same]

theorem Midway.closes (midway : Midway above pre column before row (.literal d))
    (label : g.label = .delimiter) :
    Midway above (pre ++ [g]) (column + 1) (some g.char) row .code := by
  refine midway.move g (midway.counts.pass (by simp [label])) sound_code ?_
  rw [inString_concat, if_pos label]
  simp [midway.strings]

theorem Midway.opens (midway : Midway above pre column before row .code)
    (label : g.label = .delimiter) (quote : isQuote g.char = true) :
    Midway above (pre ++ [g]) (column + 1) (some g.char) (row.see g.char) (.literal g.char) := by
  have literal : Region.Sound (.literal g.char) := by
    rintro d ⟨⟩
    exact quote
  refine midway.move g ((midway.counts.quote quote).pass (by simp [label])) literal ?_
  rw [inString_concat, if_pos label]
  simp [midway.strings]

theorem Midway.code (midway : Midway above pre column before row .code) (label : g.label = .code) :
    Midway above (pre ++ [g]) (column + 1) (some g.char) (row.see g.char) .code := by
  refine midway.move g (midway.counts.see label) sound_code ?_
  rw [inString_concat, if_neg (by simp [label]), midway.strings]

theorem Follows.cons {seen : Row} {more : List Diagnostic}
    (follows : Follows line above (pre ++ [g]) gs last cs seen next more out)
    (step : ∀ {tail : List Char} {rest : Option (List Char)}, EndOfLine tail rest →
      glyphs region.mode ⟨line, pre.length⟩ (c :: (cs ++ tail)) =
        g :: glyphs next.mode ⟨line, pre.length + 1⟩ (cs ++ tail))
    (reported : Reported line above pre (g :: gs) row found out) :
    Follows line above pre (g :: gs) last (c :: cs) row region found out where
  labelled := by
    have labelled := follows.labelled
    rw [List.length_append, List.length_singleton] at labelled
    exact labelled.cons step
  ends := follows.ends
  sound := follows.sound
  reported := reported

theorem Follows.pass₂
    (follows : Follows line above (pre ++ [g] ++ [h]) gs last cs row next found out)
    (step : ∀ tail : List Char, glyphs region.mode ⟨line, pre.length⟩ (c :: d :: (cs ++ tail)) =
      g :: h :: glyphs next.mode ⟨line, pre.length + 2⟩ (cs ++ tail))
    (first : g.isHidden = true) (second : h.isHidden = true) :
    Follows line above pre (g :: h :: gs) last (c :: d :: cs) row region found out where
  labelled := by
    have labelled := follows.labelled
    rw [List.length_append, List.length_append, List.length_singleton,
      List.length_singleton] at labelled
    exact labelled.cons₂ step
  ends := follows.ends
  sound := follows.sound
  reported := (follows.reported.pass second).pass first

end

/-- From any place on, the scanner reads a line as the lexer labels it. There is one case for each
way in which it goes on, and `midway` is what they hand to each other. -/
theorem readFrom_follows (line : Nat) (above : List Glyph) (cs : List Char) (clean : '\n' ∉ cs)
    (column : Nat) (before : Option Char) (row : Row) (pass : Pass) (pre : List Glyph)
    (midway : Midway above pre column before row pass.region) :
    ∃ gs last, Follows line above pre gs last cs row pass.region pass.found
      (readFrom line cs column before row pass) := by
  fun_induction readFrom line cs column before row pass generalizing pre with
  | case1 column before row pass =>
    have same : pass.region.mode.region = pass.region := by cases pass.region <;> rfl
    exact ⟨[], pass.region.mode, .nil _ _ _, same, midway.sound, .nil midway.strings⟩
  | case2 c column before row pass d region backslash =>
    rw [region] at midway ⊢
    have labelled : Labelled line pre.length (.string d) [c]
        [⟨'\x5c', .body, ⟨line, pre.length⟩⟩] (.string d) := by
      refine .cons (.nil _ _ _) fun finished => ?_
      rw [eq_of_beq backslash]
      exact glyphs_string_last finished midway.sound
    exact ⟨_, _, labelled, region.symm, region ▸ midway.sound,
      .quiet (by simp [Glyph.isHidden]) (region ▸ midway.strings)⟩
  | case3 c column before row pass d region backslash escaped rest ih =>
    simp only [List.mem_cons, not_or] at clean
    let g : Glyph := ⟨'\x5c', .body, ⟨line, pre.length⟩⟩
    let h : Glyph := ⟨escaped, .body, ⟨line, pre.length + 1⟩⟩
    obtain ⟨gs, last, follows⟩ := ih clean.2.2 (pre ++ [g] ++ [h])
      ((midway.pass rfl midway.sound .rfl).pass rfl midway.sound .rfl)
    rw [region] at follows ⊢
    rw [eq_of_beq backslash]
    exact ⟨_, _, follows.pass₂ (fun _ => glyphs_string_escaped (Ne.symm clean.2.1)) rfl rfl⟩
  | case4 c rest column before row pass d region plain closes ih =>
    simp only [List.mem_cons, not_or] at clean
    rw [region] at midway ⊢
    let g : Glyph := ⟨c, .delimiter, ⟨line, pre.length⟩⟩
    obtain ⟨gs, last, follows⟩ := ih clean.2 (pre ++ [g]) (midway.closes rfl)
    rw [← eq_of_beq closes]
    refine ⟨_, _, follows.cons (fun _ => ?_)
      (follows.reported.closes rfl (midway.strings.mpr ⟨d, rfl⟩))⟩
    exact glyphs_string_closes (by simpa using plain) (Ne.symm clean.1)
  | case5 c rest column before row pass d region plain stays ih =>
    simp only [List.mem_cons, not_or] at clean
    let g : Glyph := ⟨c, .body, ⟨line, pre.length⟩⟩
    obtain ⟨gs, last, follows⟩ := ih clean.2 (pre ++ [g]) (midway.pass rfl midway.sound .rfl)
    have body : c ≠ d := by simpa using stays
    rw [region] at follows ⊢
    refine ⟨_, _, follows.cons (fun _ => ?_) (follows.reported.pass rfl)⟩
    exact glyphs_string_stays (by simpa using plain) body (Ne.symm clean.1)
  | case6 column before row pass region rest ih =>
    simp only [List.mem_cons, not_or] at clean
    rw [region] at midway ⊢
    let g : Glyph := ⟨'*', .comment, ⟨line, pre.length⟩⟩
    let h : Glyph := ⟨'/', .comment, ⟨line, pre.length + 1⟩⟩
    obtain ⟨gs, last, follows⟩ := ih clean.2.2 (pre ++ [g] ++ [h])
      ((midway.pass rfl midway.sound .rfl).pass rfl sound_code (by simp))
    exact ⟨_, _, follows.pass₂ (fun _ => rfl) rfl rfl⟩
  | case7 c column before row pass region rest stays ih =>
    simp only [List.mem_cons, not_or] at clean
    let g : Glyph := ⟨c, .comment, ⟨line, pre.length⟩⟩
    obtain ⟨gs, last, follows⟩ := ih clean.2 (pre ++ [g]) (midway.pass rfl midway.sound .rfl)
    rw [region] at follows ⊢
    refine ⟨_, _, follows.cons (fun finished => ?_) (follows.reported.pass rfl)⟩
    refine glyphs_comment_stays ?_ (Ne.symm clean.1)
    exact fun same => head?_append_ne finished (.inl rfl) (fun more => stays more same)
  | case8 column before row pass region rest =>
    simp only [List.mem_cons, not_or] at clean
    rw [region] at midway ⊢
    obtain ⟨gs, labelled, hidden⟩ := lineComment_labelled line (pre.length + 2) rest clean.2.2
    refine ⟨⟨'/', .comment, ⟨line, pre.length⟩⟩ :: ⟨'/', .comment, ⟨line, pre.length + 1⟩⟩ :: gs,
      .lineComment, labelled.cons₂ (fun _ => rfl), region.symm, region ▸ midway.sound,
      .quiet ?_ (region ▸ midway.strings)⟩
    simpa [Glyph.isHidden] using hidden
  | case9 column before row pass region rest ih =>
    simp only [List.mem_cons, not_or] at clean
    rw [region] at midway ⊢
    let g : Glyph := ⟨'/', .comment, ⟨line, pre.length⟩⟩
    let h : Glyph := ⟨'*', .comment, ⟨line, pre.length + 1⟩⟩
    obtain ⟨gs, last, follows⟩ := ih clean.2.2 (pre ++ [g] ++ [h])
      ((midway.pass rfl midway.sound .rfl).pass rfl sound_comment (by simp))
    exact ⟨_, _, follows.pass₂ (fun _ => rfl) rfl rfl⟩
  | case10 c column before row pass region rest row' quote apart block ih =>
    simp only [List.mem_cons, not_or] at clean
    rw [region] at midway ⊢
    let g : Glyph := ⟨c, .delimiter, ⟨line, pre.length⟩⟩
    obtain ⟨gs, last, follows⟩ := ih clean.2 (pre ++ [g]) (midway.opens rfl quote)
    have outside : ¬ InString (above ++ pre) := by simp [midway.strings]
    dsimp only
    rw [if_pos quote]
    refine ⟨_, _, follows.cons (fun _ => ?_) (follows.reported.opens rfl outside quote)⟩
    exact glyphs_code_quote quote (Ne.symm clean.1)
  | case11 c column before row pass region rest row' plain apart block ih =>
    simp only [List.mem_cons, not_or] at clean
    have stays := (readCode_region pass line column ⟨before, c :: rest, row'.inContainer⟩ c).trans
      region
    rw [region] at midway ⊢
    let g : Glyph := ⟨c, .code, ⟨line, pre.length⟩⟩
    obtain ⟨gs, last, follows⟩ := ih clean.2 (pre ++ [g]) (stays ▸ midway.code rfl)
    rw [stays] at follows
    dsimp only
    rw [if_neg plain]
    refine ⟨_, _, follows.cons (fun finished => ?_) (.code midway.counts ?_ rfl)⟩
    · exact glyphs_code_stays
        (fun same => head?_append_ne finished (.inl rfl) (fun more => apart more same))
        (fun same => head?_append_ne finished (.inr rfl) (fun more => block more same))
        plain (Ne.symm clean.1)
    · rw [List.map_cons, follows.labelled.char, ← midway.before, ← midway.column]
      exact follows.reported

end BufferLint.Scan.Script
