import BufferLint.Proofs.Scan.Labels

/-! A script, read by the labels of a lexer that goes through the whole text once. Brackets apart, a
scan finds on every line what the rules say of its labelled characters, of the strings that are open
before them and of the line break behind them. -/
namespace BufferLint.Scan.Script

open BufferLint.Text

instance (p q : Place) : Decidable (p.Before q) := inferInstanceAs (Decidable (_ ∨ _))

def lineGlyphs (content : List Char) (line : Nat) (text : List Char) : List Glyph :=
  ((lex content).filter (fun g => g.place.line = line)).take text.length

def earlier (content : List Char) (g : Glyph) : List Glyph :=
  (lex content).filter (fun h => h.place.Before g.place)

/-- Some character of a line is code and not blank, or opens a string. -/
def HasCode (content : List Char) (gs : List Glyph) : Prop := ∃ g ∈ gs, Starts (earlier content g) g

/-- At the end of a line the lexer is outside strings and block comments: the line break is code.
The last line is given one. -/
def EndsInCode (content : List Char) (line : Nat) : Prop :=
  ∃ g ∈ lex (content ++ ['\n']), g.char = '\n' ∧ g.place.line = line ∧ g.label = .code

instance (content : List Char) (gs : List Glyph) : Decidable (HasCode content gs) :=
  inferInstanceAs (Decidable (∃ g ∈ gs, Starts (earlier content g) g))

instance (content : List Char) (line : Nat) : Decidable (EndsInCode content line) :=
  inferInstanceAs (Decidable (∃ g ∈ lex (content ++ ['\n']),
    g.char = '\n' ∧ g.place.line = line ∧ g.label = .code))

/-- What the rules say of a line, from left to right. -/
def lineRulings (content : List Char) (line : Nat) (text : List Char) : List Diagnostic :=
  (List.range text.length).flatMap (said line (lineGlyphs content line text)) ++
    findingsAtEnd line
      ⟨text, HasCode content (lineGlyphs content line text), EndsInCode content line⟩

/-- The scanner at the beginning of a line, with `rest` ahead of it. -/
structure AtLine (content : List Char) (line : Nat) (above : List Glyph) (region : Region)
    (rest : List Char) : Prop where
  lexed : ∀ more, lex (content ++ more) = above ++ glyphs region.mode ⟨line, 0⟩ (rest ++ more)
  lines : ∀ g ∈ above, g.place.line < line
  sound : region.Sound
  strings : InString above ↔ ∃ d, region = .literal d

section

variable {content text rest back tail : List Char} {line : Nat} {above gs : List Glyph} {g : Glyph}
  {region : Region} {last : Mode} {next : Option (List Char)}

theorem glyphs_line_le (mode : Mode) (p : Place) (cs : List Char) :
    ∀ g ∈ glyphs mode p cs, p.line ≤ g.place.line := by
  intro g member
  have placed : g.place ∈ places p cs := glyphs_place mode p cs ▸ List.mem_map_of_mem member
  have further := le_of_mem_places placed
  omega

theorem places_line {cs : List Char} (clean : '\n' ∉ cs) (p : Place) :
    ∀ q ∈ places p cs, q.line = p.line := by
  induction cs generalizing p with
  | nil => simp [places]
  | cons c rest ih =>
    simp only [List.mem_cons, not_or] at clean
    intro q member
    rcases List.mem_cons.mp member with rfl | later
    · rfl
    · rw [ih clean.2 _ q later, Place.after_of_ne (Ne.symm clean.1)]

theorem Labelled.onLine {column : Nat} {mode : Mode} (clean : '\n' ∉ text)
    (labelled : Labelled line column mode text gs last) : ∀ g ∈ gs, g.place.line = line := by
  intro g member
  have placed : g.place ∈ places ⟨line, column⟩ text := by
    rw [← glyphs_place mode, labelled.alone]
    exact List.mem_map_of_mem member
  exact places_line clean _ _ placed

theorem earlier_eq {front back : List Glyph} (split : lex content = front ++ g :: back) :
    earlier content g = front := by
  have ordered := lex_ordered content
  rw [split] at ordered
  obtain ⟨_, behind, across⟩ := List.pairwise_append.mp ordered
  have before : front.filter (fun h => h.place.Before g.place) = front := by
    simpa using fun h member => across h member g List.mem_cons_self
  have after : (g :: back).filter (fun h => h.place.Before g.place) = [] := by
    refine List.filter_eq_nil_iff.mpr fun h member => ?_
    rcases List.mem_cons.mp member with rfl | later
    · simp [Place.Before]
    · have further := (List.pairwise_cons.mp behind).1 h later
      have not : ¬ h.place.Before g.place := by
        unfold Place.Before at further ⊢
        omega
      simpa using not
  rw [earlier, split, List.filter_append, before, after, List.append_nil]

/-- The characters of a line break with their labels. -/
structure Breaks (mode : Mode) (p : Place) (tail rest : List Char) (gs : List Glyph) : Prop where
  line : ∀ g ∈ gs, g.place.line = p.line
  plain : ∀ g ∈ gs, g.label ≠ .delimiter
  code : (∃ g ∈ gs, g.char = '\n' ∧ g.label = .code) ↔ mode.region = .code
  lexed : ∀ more, glyphs mode p (tail ++ more) =
    gs ++ glyphs mode.region.mode ⟨p.line + 1, 0⟩ (rest ++ more)

theorem Mode.breakLabel_ne (mode : Mode) (c : Char) : mode.breakLabel c ≠ .delimiter := by
  unfold Mode.breakLabel
  cases mode <;> grind

theorem Mode.breakLabel_newline (mode : Mode) :
    mode.breakLabel '\n' = .code ↔ mode.region = .code := by
  cases mode <;> simp [Mode.breakLabel, Mode.region]

theorem EndOfLine.breaks (finished : EndOfLine tail next) (goesOn : next = some rest) (mode : Mode)
    (sound : mode.region.Sound) (p : Place) : ∃ gs, Breaks mode p tail rest gs := by
  induction finished generalizing p with
  | last => cases goesOn
  | newline behind =>
    cases goesOn
    refine ⟨[⟨'\n', mode.breakLabel '\n', p⟩], by simp, ?_, ?_, fun more => ?_⟩
    · simp [mode.breakLabel_ne]
    · simp [mode.breakLabel_newline]
    · exact glyphs_break (.inl rfl) mode sound p (rest ++ more)
  | carriage finished ih =>
    obtain ⟨gs, breaks⟩ := ih goesOn (p.after '\r')
    have line : (p.after '\r').line = p.line := rfl
    refine ⟨⟨'\r', mode.breakLabel '\r', p⟩ :: gs, ?_, ?_, ?_, fun more => ?_⟩
    · simpa [line] using breaks.line
    · simpa [mode.breakLabel_ne] using breaks.plain
    · simpa using breaks.code
    · rw [List.cons_append, glyphs_break (.inr rfl) mode sound, if_neg (by decide), breaks.lexed,
        line]
      rfl

theorem EndOfLine.append (finished : EndOfLine tail next) (goesOn : next = some rest)
    (more : List Char) : EndOfLine (tail ++ more) (some (rest ++ more)) := by
  induction finished with
  | last => cases goesOn
  | newline behind =>
    cases goesOn
    exact .newline _
  | carriage _ ih => exact .carriage (ih goesOn)

theorem EndOfLine.ended (finished : EndOfLine tail next) :
    ∃ rest, EndOfLine (tail ++ ['\n']) (some rest) := by
  induction finished with
  | last => exact ⟨[], .newline []⟩
  | newline rest => exact ⟨rest ++ ['\n'], .newline _⟩
  | carriage _ ih =>
    obtain ⟨rest, finished⟩ := ih
    exact ⟨rest, .carriage finished⟩

section

variable (start : AtLine content line above region (text ++ back))
  (labelled : Labelled line 0 region.mode text gs last) (finished : EndOfLine back next)

include start labelled finished

theorem AtLine.lexed_line :
    lex content = above ++ gs ++ glyphs last ⟨line, text.length⟩ back := by
  have lexed := start.lexed []
  rw [List.append_nil, List.append_nil, labelled.lexed finished] at lexed
  simpa using lexed

theorem AtLine.lineGlyphs_eq (clean : '\n' ∉ text) : lineGlyphs content line text = gs := by
  have before : above.filter (fun g => g.place.line = line) = [] :=
    List.filter_eq_nil_iff.mpr fun g member => by simpa using Nat.ne_of_lt (start.lines g member)
  have here : gs.filter (fun g => g.place.line = line) = gs := by
    simpa using labelled.onLine clean
  rw [lineGlyphs, start.lexed_line labelled finished, List.filter_append, List.filter_append,
    before, here, ← labelled.length]
  exact List.take_left

theorem AtLine.hasCode_iff : HasCode content gs ↔
    ∃ early g late, gs = early ++ g :: late ∧ Starts (above ++ early) g := by
  have before {early late : List Glyph} {g : Glyph} (split : gs = early ++ g :: late) :
      earlier content g = above ++ early := by
    have whole : lex content =
        (above ++ early) ++ g :: (late ++ glyphs last ⟨line, text.length⟩ back) := by
      rw [start.lexed_line labelled finished, split]
      simp
    exact earlier_eq whole
  constructor
  · rintro ⟨g, member, starts⟩
    obtain ⟨early, late, split⟩ := List.append_of_mem member
    exact ⟨early, g, late, split, before split ▸ starts⟩
  · rintro ⟨early, g, late, split, starts⟩
    exact ⟨g, by simp [split], (before split).symm ▸ starts⟩

theorem AtLine.endsInCode_iff (clean : '\n' ∉ text) (sound : last.region.Sound) :
    EndsInCode content line ↔ last.region = .code := by
  obtain ⟨rest, ended⟩ := finished.ended
  obtain ⟨breaks, broken⟩ := ended.breaks rfl last sound ⟨line, text.length⟩
  have tail := broken.lexed []
  rw [List.append_nil, List.append_nil] at tail
  have lexed : lex (content ++ ['\n']) = above ++ gs ++ breaks ++
      glyphs last.region.mode ⟨line + 1, 0⟩ rest := by
    rw [start.lexed, List.append_assoc text, labelled.lexed ended, Nat.zero_add, tail]
    simp
  rw [← broken.code, EndsInCode, lexed]
  constructor
  · rintro ⟨g, member, newline, same, code⟩
    simp only [List.mem_append] at member
    rcases member with ((up | inside) | here) | down
    · exact absurd same (Nat.ne_of_lt (start.lines g up))
    · have char : g.char ∈ text := labelled.char ▸ List.mem_map_of_mem inside
      exact absurd (newline ▸ char) clean
    · exact ⟨g, here, newline, code⟩
    · have further := glyphs_line_le _ _ _ g down
      dsimp only at further
      omega
  · rintro ⟨g, here, newline, code⟩
    exact ⟨g, by simp [here], newline, broken.line g here, code⟩

end

theorem AtLine.below (start : AtLine content line above region (text ++ back))
    (labelled : Labelled line 0 region.mode text gs last) (finished : EndOfLine back (some rest))
    (clean : '\n' ∉ text) (sound : last.region.Sound)
    (strings : InString (above ++ gs) ↔ ∃ d, last.region = .literal d) :
    ∃ upTo, AtLine content (line + 1) upTo last.region rest := by
  obtain ⟨breaks, broken⟩ := finished.breaks rfl last sound ⟨line, text.length⟩
  refine ⟨above ++ gs ++ breaks, fun more => ?_, ?_, sound, ?_⟩
  · rw [start.lexed, List.append_assoc text, labelled.lexed (finished.append rfl more),
      Nat.zero_add, broken.lexed]
    simp
  · intro g member
    simp only [List.mem_append] at member
    rcases member with (up | inside) | here
    · exact Nat.lt_succ_of_lt (start.lines g up)
    · rw [labelled.onLine clean g inside]
      exact Nat.lt_succ_self line
    · rw [broken.line g here]
      exact Nat.lt_succ_self line
  · rw [← strings]
    unfold InString
    have none : breaks.countP (fun g => g.label = .delimiter) = 0 := by
      simpa using broken.plain
    rw [List.countP_append, none, Nat.add_zero]

/-- A line of a text is labelled as if the lexer had begun there, in a mode of its own. -/
def Lexed (content : List Char) (line : Nat) (text : List Char) : Prop :=
  ∃ mode, lineGlyphs content line text = glyphs mode ⟨line, 0⟩ text

/-- The scanner says of a line what the rules say, and goes on at the next one. -/
theorem readLine_rulings {pass : Pass} {l : List Char}
    (start : AtLine content line above pass.region (l ++ tail)) (finished : EndOfLine tail next)
    (clean : '\n' ∉ l) :
    Lexed content line (dropReturn l) ∧
      rulings (readLine pass line (dropReturn l)).found =
        (lineRulings content line (dropReturn l)).reverse ++ rulings pass.found ∧
      ∀ rest, next = some rest → ∃ upTo,
        AtLine content (line + 1) upTo (readLine pass line (dropReturn l)).region rest := by
  obtain ⟨back, same, finished⟩ := dropReturn_append l finished
  have clean : '\n' ∉ dropReturn l := fun member => clean (dropReturn_subset l _ member)
  rw [same] at start
  have midway : Midway above [] 0 none {} pass.region :=
    ⟨rfl, rfl, ⟨rfl, rfl⟩, start.sound, by simpa using start.strings⟩
  obtain ⟨gs, last, labelled, ends, sound, reported⟩ :=
    readFrom_follows line above (dropReturn l) clean 0 none {} pass [] midway
  have sound : last.region.Sound := ends.symm ▸ sound
  have strings := reported.strings
  rw [List.append_nil, ← ends] at strings
  have here := start.lineGlyphs_eq labelled finished clean
  refine ⟨⟨_, here.trans labelled.alone.symm⟩, ?_, ?_⟩
  · have code : (readFrom line (dropReturn l) 0 none {} pass).1.hasCode =
        decide (HasCode content gs) := by
      rw [Bool.eq_iff_iff, decide_eq_true_iff, start.hasCode_iff labelled finished,
        reported.hasCode]
      simp
    have ended : ((readFrom line (dropReturn l) 0 none {} pass).2.region == .code) =
        decide (EndsInCode content line) := by
      rw [Bool.eq_iff_iff, decide_eq_true_iff, start.endsInCode_iff labelled finished clean sound,
        ends, beq_iff_eq]
    have ruled := reported.ruled
    rw [List.nil_append, List.length_nil, ← List.range_eq_range', labelled.length] at ruled
    rw [lineRulings, here, ← code, ← ended, List.reverse_append, List.append_assoc, ← ruled,
      ← rulings_reverse (findingsAtEnd_others _ _), rulings, rulings, rulings,
      ← List.filter_append]
    rfl
  · rintro rest rfl
    obtain ⟨upTo, below⟩ := start.below labelled finished clean sound strings
    exact ⟨upTo, ends ▸ below⟩

theorem readLines_rulings (ls : List (List Char)) (split : lines rest = ls) (pass : Pass)
    (start : AtLine content line above pass.region rest) :
    (∀ l ∈ ls.zipIdx line, Lexed content l.2 (dropReturn l.1)) ∧
    rulings ((ls.zipIdx line).foldl (fun pass l => readLine pass l.2 (dropReturn l.1)) pass).found =
      ((ls.zipIdx line).flatMap (fun l => lineRulings content l.2 (dropReturn l.1))).reverse ++
        rulings pass.found := by
  induction ls generalizing rest line above pass with
  | nil => exact absurd split (lines_ne_nil rest)
  | cons l more ih =>
    have clean := newline_not_mem_lines (split ▸ List.mem_cons_self : l ∈ lines rest)
    rw [List.zipIdx_cons, List.foldl_cons, List.flatMap_cons, List.reverse_append,
      List.forall_mem_cons]
    rcases lines_eq_cons split with ⟨rfl, rfl⟩ | ⟨behind, rfl, others⟩
    · rw [← List.append_nil rest] at start
      obtain ⟨lexed, here, _⟩ := readLine_rulings start .last clean
      exact ⟨⟨lexed, by simp⟩, here⟩
    · obtain ⟨lexed, here, goesOn⟩ := readLine_rulings start (.newline behind) clean
      obtain ⟨upTo, below⟩ := goesOn behind rfl
      obtain ⟨later, found⟩ := ih others _ below
      exact ⟨⟨lexed, later⟩, by rw [found, here, List.append_assoc]⟩

theorem atLine_start (content : List Char) : AtLine content 0 [] .code content :=
  ⟨fun _ => rfl, by simp, sound_code, by simp [InString]⟩

theorem lexed_lines {l : List Char} (here : (lines content)[line]? = some l) :
    Lexed content line (dropReturn l) :=
  (readLines_rulings (lines content) rfl {} (atLine_start content)).1 (l, line)
    (List.mk_mem_zipIdx_iff_getElem?.mpr here)

theorem lineGlyphs_char {l : List Char} (here : (lines content)[line]? = some l) :
    (lineGlyphs content line (dropReturn l)).map Glyph.char = dropReturn l := by
  obtain ⟨mode, lexed⟩ := lexed_lines here
  rw [lexed, glyphs_char]

theorem lineGlyphs_length {l : List Char} (here : (lines content)[line]? = some l) :
    (lineGlyphs content line (dropReturn l)).length = (dropReturn l).length := by
  rw [← List.length_map (f := Glyph.char), lineGlyphs_char here]

theorem scan_rulings (content : List Char) : rulings (scan content) =
    (lines content).zipIdx.flatMap (fun l => lineRulings content l.2 (dropReturn l.1)) := by
  have unclosed : rulings ((readLines content).openings.reverse.map unclosed) = [] := by
    refine List.filter_eq_nil_iff.mpr fun d member => ?_
    obtain ⟨o, _, rfl⟩ := List.mem_map.mp member
    simp [hasRule, Script.unclosed, unclosedRule, Diagnostic.place]
  have found := (readLines_rulings (lines content) rfl {} (atLine_start content)).2
  rw [← readLines] at found
  rw [scan, rulings, List.filter_append, ← rulings, ← rulings, unclosed, rulings,
    List.filter_reverse, ← rulings, found]
  simp [rulings]

end

end BufferLint.Scan.Script
