import BufferLint.Proofs.Scan.Brackets
import Mathlib.Data.List.Forall2

/-! Strings and comments are inert. A line is read again by somebody who is told the label of each
character and never looks at one that is inside a string or a comment; he reports what the scanner
reports. So texts that differ only inside strings and comments are the same to the scanner, but for
semicolons. -/
namespace BufferLint.Scan.Script

open BufferLint.Text

/- The part of a line that can be seen from a place in code: it ends with the first quote, or before
a slash that begins a comment. -/
inductive Glimpse : List Char → List Char → Prop where
  | whole : Glimpse [] []
  | comment (rest : List Char) : Glimpse [] ('/' :: rest)
  | quote {c : Char} (rest : List Char) (quote : isQuote c = true) : Glimpse [c] (c :: rest)
  | next {seen rest : List Char} (c : Char) (behind : Glimpse seen rest) :
    Glimpse (c :: seen) (c :: rest)

theorem not_blank_of_isQuote {c : Char} (quote : isQuote c = true) : isBlank c = false := by
  simp only [isQuote, Bool.or_eq_true, beq_iff_eq] at quote
  rcases quote with (rfl | rfl) | rfl <;> decide

theorem Glimpse.isPrefixOf {seen ahead : List Char} (glimpse : Glimpse seen ahead)
    (pattern : List Char) (plain : ∀ p ∈ pattern, p ≠ '/' ∧ isQuote p = false) :
    pattern.isPrefixOf seen = pattern.isPrefixOf ahead := by
  induction glimpse generalizing pattern with
  | whole => rfl
  | comment rest =>
    cases pattern with
    | nil => rfl
    | cons p more =>
      have slash : (p == '/') = false := by simpa using (plain p (by simp)).1
      simp [List.isPrefixOf, slash]
  | @quote c rest quote =>
    cases pattern with
    | nil => rfl
    | cons p more =>
      have other : (p == c) = false := by
        apply beq_false_of_ne
        rintro rfl
        exact Bool.false_ne_true ((plain p (by simp)).2.symm.trans quote)
      simp [List.isPrefixOf, other]
  | next c behind ih =>
    cases pattern with
    | nil => rfl
    | cons p more =>
      have same := ih more (fun q member => plain q (List.mem_cons_of_mem _ member))
      simp only [List.isPrefixOf, same]

theorem Glimpse.startsValue {seen ahead : List Char} (glimpse : Glimpse seen ahead) :
    (seen.find? (fun c => !isBlank c)).any startsValue =
      (ahead.find? (fun c => !isBlank c)).any startsValue := by
  induction glimpse with
  | whole => rfl
  | comment rest =>
    have slash : isBlank '/' = false := by decide
    have starts : Scan.startsValue '/' = false := by decide
    simp [slash, starts]
  | @quote c rest quote => simp [not_blank_of_isQuote quote]
  | next c behind ih =>
    cases blank : isBlank c with
    | true => simpa [blank] using ih
    | false => simp [blank]

/- What is known of the character on the left: nothing, if it is the end of a comment. -/
inductive Beside : Option Char → Option Char → Prop where
  | same (c : Option Char) : Beside c c
  | comment : Beside none (some '/')

theorem Glimpse.findingsAt {seen rest : List Char} (glimpse : Glimpse seen rest)
    {known before : Option Char} (beside : Beside known before) (line index : Nat) (c : Char)
    (inside : Bool) :
    Scan.findingsAt line index ⟨known, c :: seen, inside⟩ =
      Scan.findingsAt line index ⟨before, c :: rest, inside⟩ := by
  have further := glimpse.next c
  have plain : ∀ p ∈ looseEqualityPattern, p ≠ '/' ∧ isQuote p = false := by
    simp [looseEqualityPattern, isQuote]
  have loose : looseEquality.applies ⟨known, c :: seen, inside⟩ =
      looseEquality.applies ⟨before, c :: rest, inside⟩ := further.isPrefixOf _ plain
  have gap : missingSeparator.applies ⟨known, c :: seen, inside⟩ =
      missingSeparator.applies ⟨before, c :: rest, inside⟩ := by
    have starts := further.startsValue
    cases beside with
    | same =>
      cases known with
      | none => rfl
      | some previous => simp only [missingSeparator, gapBetweenValues, starts]
    | comment =>
      have slash : endsValue '/' = false := by decide
      simp [missingSeparator, gapBetweenValues, slash]
  simp only [Scan.findingsAt, positionRules, List.filter_cons, List.filter_nil, loose, gap]

/- What can be read from here on without a look into a string or a comment. -/
def visible : List Glyph → List Char
  | [] => []
  | g :: rest =>
    match g.label with
    | .code => g.char :: visible rest
    | .delimiter => [g.char]
    | .body | .comment => []

/-- What a scan makes of a line whose characters are labelled. -/
def readGlyphs (line : Nat) : List Glyph → Nat → Option Char → Row → Pass → Pass
  | [], _, _, _, pass => pass
  | g :: rest, column, before, row, pass =>
    match g.label with
    | .code =>
      let row := row.see g.char
      readGlyphs line rest (column + 1) (some g.char) row
        (pass.readCode line column ⟨before, g.char :: visible rest, row.inContainer⟩ g.char)
    | .delimiter => readGlyphs line rest (column + 1) (some g.char) row pass
    | .body | .comment => readGlyphs line rest (column + 1) none row pass

def Glyph.isHidden (g : Glyph) : Bool := g.label == .body || g.label == .comment

def semiRule : String := "semi"

/- Two passes that have found the same, semicolons apart. -/
structure Pass.Agrees (p q : Pass) : Prop where
  openings : p.openings = q.openings
  found : p.found.filter (fun d => !hasRule semiRule d) =
    q.found.filter (fun d => !hasRule semiRule d)

structure Row.Agrees (r s : Row) : Prop where
  braces : r.braces = s.braces
  squares : r.squares = s.squares

section agreement

variable {p q : Pass} {r s : Row}

theorem Row.Agrees.see (agrees : r.Agrees s) (c : Char) : (r.see c).Agrees (s.see c) := by
  unfold Row.see
  dsimp only
  constructor
  · split_ifs <;> simp [agrees.braces]
  · split_ifs <;> simp [agrees.squares]

theorem Row.Agrees.inContainer (agrees : r.Agrees s) : r.inContainer = s.inContainer := by
  simp only [Row.inContainer, agrees.braces, agrees.squares]

theorem Row.Agrees.quote (agrees : r.Agrees s) {c : Char} (quote : isQuote c = true) :
    (r.see c).Agrees s := by
  simp only [isQuote, Bool.or_eq_true, beq_iff_eq] at quote
  rcases quote with (rfl | rfl) | rfl <;> exact ⟨agrees.braces, agrees.squares⟩

theorem Pass.Agrees.report (agrees : p.Agrees q) (ds : List Diagnostic) :
    (p.report ds).Agrees (q.report ds) := by
  constructor
  · exact agrees.openings
  · simp only [Pass.report, List.filter_append, agrees.found]

theorem Pass.Agrees.pairBracket (agrees : p.Agrees q) (line column : Nat) (c : Char) :
    (p.pairBracket line column c).Agrees (q.pairBracket line column c) := by
  have openings := agrees.openings
  unfold Pass.pairBracket
  rw [openings]
  split
  · exact ⟨rfl, agrees.found⟩
  · split
    · split
      · exact ⟨rfl, by simp only [List.filter_cons, agrees.found]⟩
      · exact ⟨rfl, agrees.found⟩
    · exact agrees

theorem Pass.Agrees.readCode (agrees : p.Agrees q) (line column : Nat) (cursor : Cursor)
    (c : Char) : (p.readCode line column cursor c).Agrees (q.readCode line column cursor c) :=
  (agrees.pairBracket line column c).report _

theorem Pass.Agrees.reportAtEnd (agrees : p.Agrees q) (line : Nat) (l : LineEnd) :
    (p.report (findingsAtEnd line l)).Agrees q := by
  have semicolons : (findingsAtEnd line l).reverse.filter (fun d => !hasRule semiRule d) = [] := by
    refine List.filter_eq_nil_iff.mpr fun d member => ?_
    obtain ⟨rule, asked, rfl⟩ := List.mem_map.mp (List.mem_reverse.mp member)
    have only : rule = missingSemicolon := by simpa [lineRules] using (List.mem_filter.mp asked).1
    simp [only, missingSemicolon, LineRule.report, Diagnostic.place, hasRule, semiRule]
  constructor
  · exact agrees.openings
  · simp only [Pass.report, List.filter_append, semicolons, agrees.found, List.nil_append]

end agreement

theorem readGlyphs_hidden (line : Nat) (gs : List Glyph) (hidden : ∀ g ∈ gs, g.isHidden = true)
    (column : Nat) (before : Option Char) (row : Row) (pass : Pass) :
    readGlyphs line gs column before row pass = pass := by
  induction gs generalizing column before with
  | nil => rfl
  | cons g rest ih =>
    have behind := ih (fun h member => hidden h (List.mem_cons_of_mem _ member))
    have here := hidden g (by simp)
    cases label : g.label <;> simp [Glyph.isHidden, label] at here
    · simpa [readGlyphs, label] using behind _ _
    · simpa [readGlyphs, label] using behind _ _

def nextGlyphs (line : Nat) (region : Region) : Option (List Char) → List Glyph
  | none => []
  | some rest => glyphs region.mode ⟨line + 1, 0⟩ rest

theorem glyphs_endOfLine {tail : List Char} {next : Option (List Char)}
    (finished : EndOfLine tail next) (mode : Mode) (sound : mode.region.Sound) (p : Place) :
    nextGlyphs p.line mode.region next <:+ glyphs mode p tail := by
  induction finished generalizing p with
  | last => exact List.nil_suffix
  | newline rest =>
    rw [glyphs_break (.inl rfl) mode sound]
    exact List.suffix_cons _ _
  | carriage finished ih =>
    rw [glyphs_break (.inr rfl) mode sound]
    exact (ih (p.after '\r')).trans (List.suffix_cons _ _)

/-- A backslash at the end of a line belongs to the string, whatever comes behind it. -/
theorem glyphs_escape {tail : List Char} {next : Option (List Char)}
    (finished : EndOfLine tail next) {d : Char} (sound : Region.Sound (.literal d)) (p : Place) :
    ∃ behind, glyphs (.string d) p ('\x5c' :: tail) = ⟨'\x5c', .body, p⟩ :: behind ∧
      nextGlyphs p.line (.literal d) next <:+ behind := by
  cases finished with
  | last =>
    rw [glyphs_string (fun _ => rfl), if_neg (sound.ne (by decide))]
    exact ⟨_, rfl, List.nil_suffix⟩
  | newline rest => exact ⟨_, rfl, List.suffix_cons _ _⟩
  | carriage finished =>
    refine ⟨_, rfl, ?_⟩
    exact (glyphs_endOfLine finished (.string d) sound ((p.after '\x5c').after '\r')).trans
      (List.suffix_cons _ _)

theorem glyphs_lineComment {tail : List Char} {next : Option (List Char)}
    (finished : EndOfLine tail next) (cs : List Char) (clean : '\n' ∉ cs) (p : Place) :
    (∀ g ∈ (glyphs .lineComment p (cs ++ tail)).take cs.length, g.isHidden = true) ∧
      nextGlyphs p.line .code next <:+ glyphs .lineComment p (cs ++ tail) := by
  induction cs generalizing p with
  | nil => exact ⟨by simp, glyphs_endOfLine finished .lineComment (by rintro d ⟨⟩) p⟩
  | cons c rest ih =>
    simp only [List.mem_cons, not_or] at clean
    obtain ⟨hidden, goesOn⟩ := ih clean.2 (p.after c)
    have here : (p.after c).line = p.line := by rw [Place.after, if_neg (Ne.symm clean.1)]
    rw [List.cons_append, glyphs, if_neg (Ne.symm clean.1)]
    constructor
    · simpa [Glyph.isHidden] using hidden
    · exact (here ▸ goesOn).trans (List.suffix_cons _ _)

/-- Code is seen up to the first quote and the first comment. -/
theorem glimpse_code (cs tail : List Char) (p : Place) :
    Glimpse (visible ((glyphs .code p (cs ++ tail)).take cs.length)) cs := by
  induction cs generalizing p with
  | nil => exact .whole
  | cons c rest ih =>
    by_cases begins : c = '/' ∧ ((rest ++ tail).head? = some '/' ∨ (rest ++ tail).head? = some '*')
    · obtain ⟨rfl, opens⟩ := begins
      have nothing : visible ((glyphs .code p ('/' :: (rest ++ tail))).take
          (rest.length + 1)) = [] := by
        rcases opens with line | block
        · obtain ⟨more, same⟩ := List.head?_eq_some_iff.mp line
          rw [same]
          rfl
        · obtain ⟨more, same⟩ := List.head?_eq_some_iff.mp block
          rw [same]
          rfl
      rw [List.cons_append, List.length_cons, nothing]
      exact .comment rest
    · have line : c = '/' → (rest ++ tail).head? ≠ some '/' :=
        fun slash head => begins ⟨slash, .inl head⟩
      have block : c = '/' → (rest ++ tail).head? ≠ some '*' :=
        fun slash head => begins ⟨slash, .inr head⟩
      rw [List.cons_append, List.length_cons, glyphs_code line block]
      split
      · rename_i quote
        exact .quote rest quote
      · exact .next c (ih (p.after c))

/- At the end of a line the scanner has found what was told by the labels, and the lexer goes on
in the scanner's region. -/
structure Ends (line : Nat) (next : Option (List Char)) (gs : List Glyph) (told out : Pass) :
    Prop where
  sound : out.region.Sound
  agrees : out.Agrees told
  goesOn : nextGlyphs line out.region next <:+ gs

theorem Ends.cons {line : Nat} {next : Option (List Char)} {gs : List Glyph} {told out : Pass}
    (ends : Ends line next gs told out) (g : Glyph) : Ends line next (g :: gs) told out :=
  ⟨ends.sound, ends.agrees, ends.goesOn.trans (List.suffix_cons _ _)⟩

/-- A line is read as by somebody who is told the labels of its characters. -/
theorem readFrom_ends (line : Nat) {tail : List Char} {next : Option (List Char)}
    (finished : EndOfLine tail next) (cs : List Char) (clean : '\n' ∉ cs) (column : Nat)
    (before : Option Char) (row : Row) (pass : Pass) (sound : pass.region.Sound)
    (known : Option Char) (beside : pass.region = .code → Beside known before) (told : Row)
    (rows : row.Agrees told) (q : Pass) (agrees : pass.Agrees q) :
    Ends line next (glyphs pass.region.mode ⟨line, column⟩ (cs ++ tail))
      (readGlyphs line ((glyphs pass.region.mode ⟨line, column⟩ (cs ++ tail)).take cs.length)
        column known told q)
      (readFrom line cs column before row pass).2 := by
  have code : Region.Sound .code := by rintro d ⟨⟩
  have comment : Region.Sound .comment := by rintro d ⟨⟩
  fun_induction readFrom line cs column before row pass generalizing known told q with
  | case1 column before row pass =>
    have same : pass.region.mode.region = pass.region := by cases pass.region <;> rfl
    have goesOn := glyphs_endOfLine finished pass.region.mode (same.symm ▸ sound) ⟨line, column⟩
    rw [same] at goesOn
    exact ⟨sound, agrees, goesOn⟩
  | case2 c column before row pass d region backslash =>
    rw [region] at sound
    obtain ⟨behind, escaped, goesOn⟩ := glyphs_escape finished sound ⟨line, column⟩
    rw [eq_of_beq backslash, region]
    refine ⟨region ▸ sound, ?_, ?_⟩
    · rw [Region.mode, List.singleton_append, escaped]
      exact agrees
    · rw [Region.mode, List.singleton_append, escaped, region]
      exact goesOn.trans (List.suffix_cons _ _)
  | case3 c column before row pass d region backslash escaped rest ih =>
    simp only [List.mem_cons, not_or] at clean
    have ends := ih clean.2.2 sound none (by simp [region]) told rows q agrees
    rw [region] at ends ⊢
    rw [eq_of_beq backslash]
    exact glyphs_string_escaped (Ne.symm clean.2.1) ▸ (ends.cons _).cons _
  | case4 c rest column before row pass d region plain closes ih =>
    simp only [List.mem_cons, not_or] at clean
    have ends := ih clean.2 code (some c) (fun _ => .same _) told rows q
      ⟨agrees.openings, agrees.found⟩
    rw [region, ← eq_of_beq closes]
    exact glyphs_string_closes (by simpa using plain) (Ne.symm clean.1) ▸ ends.cons _
  | case5 c rest column before row pass d region plain stays ih =>
    simp only [List.mem_cons, not_or] at clean
    have ends := ih clean.2 sound none (by simp [region]) told rows q agrees
    rw [region] at ends ⊢
    have body : c ≠ d := by simpa using stays
    exact glyphs_string_stays (by simpa using plain) body (Ne.symm clean.1) ▸ ends.cons _
  | case6 column before row pass region rest ih =>
    simp only [List.mem_cons, not_or] at clean
    have ends := ih clean.2.2 code none (fun _ => .comment) told rows q
      ⟨agrees.openings, agrees.found⟩
    rw [region]
    exact (ends.cons _).cons _
  | case7 c column before row pass region rest stays ih =>
    simp only [List.mem_cons, not_or] at clean
    have ends := ih clean.2 sound none (by simp [region]) told rows q agrees
    rw [region] at ends ⊢
    refine glyphs_comment_stays ?_ (Ne.symm clean.1) ▸ ends.cons _
    exact fun same => head?_append_ne finished (.inl rfl) (fun more => stays more same)
  | case8 column before row pass region rest =>
    simp only [List.mem_cons, not_or] at clean
    obtain ⟨hidden, goesOn⟩ := glyphs_lineComment finished rest clean.2.2 ⟨line, column + 2⟩
    have unread := readGlyphs_hidden line _ hidden (column + 2) none told q
    rw [region]
    have ends : Ends line next (glyphs .lineComment ⟨line, column + 2⟩ (rest ++ tail)) q pass :=
      ⟨sound, agrees, region ▸ goesOn⟩
    rw [← unread] at ends
    exact (ends.cons _).cons _
  | case9 column before row pass region rest ih =>
    simp only [List.mem_cons, not_or] at clean
    have ends := ih clean.2.2 comment none (by simp) told rows q ⟨agrees.openings, agrees.found⟩
    rw [region]
    exact (ends.cons _).cons _
  | case10 c column before row pass region rest row' quote _ _ ih =>
    simp only [List.mem_cons, not_or] at clean
    have literal : Region.Sound (.literal c) := by
      rintro d ⟨⟩
      exact quote
    have ends := ih clean.2 literal (some c) (by simp) told (rows.quote quote) q
      ⟨agrees.openings, agrees.found⟩
    dsimp only
    rw [if_pos quote, region]
    exact glyphs_code_quote quote (Ne.symm clean.1) ▸ ends.cons _
  | case11 c column before row pass region rest row' plain apart block ih =>
    simp only [List.mem_cons, not_or] at clean
    have stays : (pass.readCode line column ⟨before, c :: rest, row'.inContainer⟩ c).region =
        .code := (readCode_region _ _ _ _ _).trans region
    have seen :=
      (glimpse_code rest tail ⟨line, column + 1⟩).findingsAt (beside region) line column c
      (told.see c).inContainer
    have read : (pass.readCode line column ⟨before, c :: rest, row'.inContainer⟩ c).Agrees
        (q.readCode line column ⟨known, c :: visible ((glyphs .code ⟨line, column + 1⟩
          (rest ++ tail)).take rest.length), (told.see c).inContainer⟩ c) := by
      rw [Pass.readCode, Pass.readCode, seen, (rows.see c).inContainer]
      exact (agrees.pairBracket line column c).report _
    have ends := ih clean.2 (stays ▸ code) (some c) (fun _ => .same _) _ (rows.see c) _ read
    rw [stays] at ends
    have lexed : glyphs .code ⟨line, column⟩ (c :: (rest ++ tail)) = _ :=
      glyphs_code_stays
        (fun same => head?_append_ne finished (.inl rfl) (fun more => apart more same))
        (fun same => head?_append_ne finished (.inr rfl) (fun more => block more same))
        plain (Ne.symm clean.1)
    dsimp only
    rw [if_neg plain, region]
    exact lexed ▸ ends.cons _

theorem visible_concat_hidden (gs : List Glyph) {g : Glyph} (hidden : g.isHidden = true) :
    visible (gs ++ [g]) = visible gs := by
  induction gs with
  | nil =>
    cases label : g.label <;> simp [Glyph.isHidden, label] at hidden
    · simp [visible, label]
    · simp [visible, label]
  | cons h rest ih => cases label : h.label <;> simp [visible, label, ih]

theorem readGlyphs_concat_hidden (line : Nat) (gs : List Glyph) {g : Glyph}
    (hidden : g.isHidden = true) (column : Nat) (before : Option Char) (row : Row) (pass : Pass) :
    readGlyphs line (gs ++ [g]) column before row pass =
      readGlyphs line gs column before row pass := by
  induction gs generalizing column before row pass with
  | nil => exact readGlyphs_hidden line [g] (by simpa using hidden) column before row pass
  | cons h rest ih =>
    cases label : h.label <;> simp [readGlyphs, label, ih, visible_concat_hidden rest hidden]

def trimmed : List Glyph → List Glyph
  | [] => []
  | [g] => if g.char = '\r' ∧ g.isHidden = false then [] else [g]
  | g :: h :: rest => g :: trimmed (h :: rest)

theorem trimmed_concat (gs : List Glyph) (g : Glyph) :
    trimmed (gs ++ [g]) = if g.char = '\r' ∧ g.isHidden = false then gs else gs ++ [g] := by
  induction gs with
  | nil => rfl
  | cons h rest ih =>
    cases rest with
    | nil =>
      simp only [List.singleton_append, trimmed]
      split <;> rfl
    | cons k more =>
      simp only [List.cons_append, trimmed] at ih ⊢
      rw [ih]
      split <;> rfl

/-- A hidden carriage return may stay, since nobody looks at it. -/
theorem readGlyphs_trimmed (line : Nat) (gs : List Glyph) (column : Nat) (before : Option Char)
    (row : Row) (pass : Pass) :
    readGlyphs line (gs.take (dropReturn (gs.map Glyph.char)).length) column before row pass =
      readGlyphs line (trimmed gs) column before row pass := by
  rcases List.eq_nil_or_concat gs with rfl | ⟨front, g, rfl⟩
  · rfl
  · rw [List.concat_eq_append, trimmed_concat, List.map_append]
    by_cases returns : g.char = '\r'
    · have shorter : dropReturn (front.map Glyph.char ++ [g].map Glyph.char) =
          front.map Glyph.char := by simp [dropReturn, returns]
      rw [shorter, List.length_map, List.take_left]
      cases hidden : g.isHidden with
      | true => simp [readGlyphs_concat_hidden line front hidden]
      | false => simp [returns]
    · have whole : dropReturn (front.map Glyph.char ++ [g].map Glyph.char) =
          (front ++ [g]).map Glyph.char := by simp [dropReturn, returns]
      rw [whole, List.length_map, List.take_length, if_neg (fun both => returns both.1)]

theorem readLine_ends (line : Nat) {tail : List Char} {next : Option (List Char)}
    (finished : EndOfLine tail next) (l : List Char) (clean : '\n' ∉ l) (pass : Pass)
    (sound : pass.region.Sound) :
    Ends line next (glyphs pass.region.mode ⟨line, 0⟩ (l ++ tail))
      (readGlyphs line (trimmed ((glyphs pass.region.mode ⟨line, 0⟩ (l ++ tail)).take l.length)) 0
        none {} pass)
      (readLine pass line (dropReturn l)) := by
  obtain ⟨back, same, finished⟩ := dropReturn_append l finished
  have shorter : '\n' ∉ dropReturn l := fun member => clean (dropReturn_subset l _ member)
  have short : (dropReturn l).length ≤ l.length := by
    unfold dropReturn
    split <;> simp
  have ends := readFrom_ends line finished (dropReturn l) shorter 0 none {} pass sound none
    (fun _ => .same _) {} ⟨rfl, rfl⟩ pass ⟨rfl, rfl⟩
  rw [← same] at ends
  have chars : ((glyphs pass.region.mode ⟨line, 0⟩ (l ++ tail)).take l.length).map Glyph.char =
      l := by rw [List.map_take, glyphs_char, List.take_left]
  have trims := readGlyphs_trimmed line
    ((glyphs pass.region.mode ⟨line, 0⟩ (l ++ tail)).take l.length) 0 none {} pass
  rw [chars, List.take_take, Nat.min_eq_left short] at trims
  rw [trims] at ends
  exact ⟨ends.sound, ends.agrees.reportAtEnd line _, ends.goesOn⟩

/-- Two characters that can be told apart only by a look into a string or a comment. -/
structure Glyph.Alike (g h : Glyph) : Prop where
  label : g.label = h.label
  char : g.label = .code ∨ g.label = .delimiter → g.char = h.char

instance (g h : Glyph) : Decidable (g.Alike h) :=
  decidable_of_iff (g.label = h.label ∧ (g.label = .code ∨ g.label = .delimiter → g.char = h.char))
    ⟨fun both => ⟨both.1, both.2⟩, fun alike => ⟨alike.label, alike.char⟩⟩

theorem Glyph.Alike.isHidden {g h : Glyph} (alike : g.Alike h) : g.isHidden = h.isHidden := by
  simp only [Glyph.isHidden, alike.label]

theorem visible_alike {gs hs : List Glyph} (alike : List.Forall₂ Glyph.Alike gs hs) :
    visible gs = visible hs := by
  induction alike with
  | nil => rfl
  | @cons g h rest more here behind ih =>
    have label := here.label
    have char := here.char
    cases kind : g.label <;> simp [kind] at char <;> rw [kind] at label <;>
      simp [visible, kind, ← label, ih, char]

theorem readGlyphs_alike (line : Nat) {gs hs : List Glyph}
    (alike : List.Forall₂ Glyph.Alike gs hs) (column : Nat) (before : Option Char) (row : Row)
    {p q : Pass} (agrees : p.Agrees q) :
    (readGlyphs line gs column before row p).Agrees
      (readGlyphs line hs column before row q) := by
  induction alike generalizing column before row p q with
  | nil => exact agrees
  | @cons g h rest more here behind ih =>
    have label := here.label
    have char := here.char
    cases kind : g.label with
    | code =>
      rw [kind] at label
      simp only [readGlyphs, kind, ← label, ← char (.inl kind), ← visible_alike behind]
      exact ih _ _ _ (agrees.readCode _ _ _ _)
    | delimiter =>
      rw [kind] at label
      simp only [readGlyphs, kind, ← label, ← char (.inr kind)]
      exact ih _ _ _ agrees
    | body =>
      rw [kind] at label
      simp only [readGlyphs, kind, ← label]
      exact ih _ _ _ agrees
    | comment =>
      rw [kind] at label
      simp only [readGlyphs, kind, ← label]
      exact ih _ _ _ agrees

theorem trimmed_alike {gs hs : List Glyph} (alike : List.Forall₂ Glyph.Alike gs hs) :
    List.Forall₂ Glyph.Alike (trimmed gs) (trimmed hs) := by
  induction alike with
  | nil => exact .nil
  | @cons g h rest more here behind ih =>
    cases behind with
    | nil =>
      have char : g.isHidden = false → g.char = h.char := by
        intro seen
        apply here.char
        cases kind : g.label <;> simp [Glyph.isHidden, kind] at seen ⊢
      simp only [trimmed, ← here.isHidden]
      cases hidden : g.isHidden with
      | true => simpa using here
      | false =>
        rw [← char hidden]
        split
        · exact .nil
        · exact .cons here .nil
    | cons second third => exact .cons here ih

def Glyph.AlikeInLine (g h : Glyph) : Prop := g.char ≠ '\n' → g.Alike h

instance (g h : Glyph) : Decidable (g.AlikeInLine h) :=
  inferInstanceAs (Decidable (g.char ≠ '\n' → g.Alike h))

theorem alike_of_no_newline {gs hs : List Glyph} (alike : List.Forall₂ Glyph.AlikeInLine gs hs)
    (clean : ∀ g ∈ gs, g.char ≠ '\n') : List.Forall₂ Glyph.Alike gs hs := by
  induction alike with
  | nil => exact .nil
  | @cons g h rest more here behind ih =>
    have first := here (clean g (by simp))
    exact .cons first (ih (fun k member => clean k (List.mem_cons_of_mem _ member)))

theorem alike_suffix {gs hs xs ys : List Glyph} (alike : List.Forall₂ Glyph.AlikeInLine gs hs)
    (left : xs <:+ gs) (right : ys <:+ hs) (same : xs.length = ys.length) :
    List.Forall₂ Glyph.AlikeInLine xs ys := by
  rw [List.suffix_iff_eq_drop.mp left, List.suffix_iff_eq_drop.mp right, same, alike.length_eq]
  exact List.forall₂_drop _ alike

theorem readLine_alike (line : Nat) {tail tail' : List Char} {next next' : Option (List Char)}
    (finished : EndOfLine tail next) (finished' : EndOfLine tail' next') {l l' : List Char}
    (clean : '\n' ∉ l) (clean' : '\n' ∉ l') (length : l.length = l'.length) {pass pass' : Pass}
    (sound : pass.region.Sound) (sound' : pass'.region.Sound) (agrees : pass.Agrees pass')
    (alike : List.Forall₂ Glyph.AlikeInLine (glyphs pass.region.mode ⟨line, 0⟩ (l ++ tail))
      (glyphs pass'.region.mode ⟨line, 0⟩ (l' ++ tail'))) :
    (readLine pass line (dropReturn l)).Agrees (readLine pass' line (dropReturn l')) := by
  have ends := readLine_ends line finished l clean pass sound
  have ends' := readLine_ends line finished' l' clean' pass' sound'
  have inLine : List.Forall₂ Glyph.Alike
      ((glyphs pass.region.mode ⟨line, 0⟩ (l ++ tail)).take l.length)
      ((glyphs pass'.region.mode ⟨line, 0⟩ (l' ++ tail')).take l'.length) := by
    rw [← length]
    apply alike_of_no_newline (List.forall₂_take _ alike)
    intro g member newline
    have here : g.char ∈ ((glyphs pass.region.mode ⟨line, 0⟩ (l ++ tail)).take l.length).map
        Glyph.char := List.mem_map_of_mem member
    rw [List.map_take, glyphs_char, List.take_left, newline] at here
    exact clean here
  have told := readGlyphs_alike line (trimmed_alike inLine) 0 none {} agrees
  constructor
  · exact ends.agrees.openings.trans (told.openings.trans ends'.agrees.openings.symm)
  · exact ends.agrees.found.trans (told.found.trans ends'.agrees.found.symm)

theorem readLines_alike (ls ls' : List (List Char)) (content content' : List Char)
    (split : lines content = ls) (split' : lines content' = ls')
    (length : ls.map List.length = ls'.map List.length) (line : Nat) (pass pass' : Pass)
    (sound : pass.region.Sound) (sound' : pass'.region.Sound) (agrees : pass.Agrees pass')
    (alike : List.Forall₂ Glyph.AlikeInLine (glyphs pass.region.mode ⟨line, 0⟩ content)
      (glyphs pass'.region.mode ⟨line, 0⟩ content')) :
    ((ls.zipIdx line).foldl (fun pass l => readLine pass l.2 (dropReturn l.1)) pass).Agrees
      ((ls'.zipIdx line).foldl (fun pass l => readLine pass l.2 (dropReturn l.1)) pass') := by
  induction ls generalizing ls' content content' line pass pass' with
  | nil => exact absurd split (lines_ne_nil content)
  | cons l more ih =>
    cases ls' with
    | nil => exact absurd split' (lines_ne_nil content')
    | cons l' more' =>
      have clean := newline_not_mem_lines (split ▸ List.mem_cons_self : l ∈ lines content)
      have clean' := newline_not_mem_lines (split' ▸ List.mem_cons_self : l' ∈ lines content')
      simp only [List.map_cons, List.cons.injEq] at length
      rw [List.zipIdx_cons, List.foldl_cons, List.zipIdx_cons, List.foldl_cons]
      rcases lines_eq_cons split with ⟨rfl, rfl⟩ | ⟨rest, rfl, others⟩
      · rcases lines_eq_cons split' with ⟨rfl, rfl⟩ | ⟨rest', rfl, others'⟩
        · rw [← List.append_nil content, ← List.append_nil content'] at alike
          exact readLine_alike line .last .last clean clean' length.1 sound sound' agrees alike
        · subst others'
          cases gone : lines rest' with
          | nil => exact absurd gone (lines_ne_nil rest')
          | cons k ks => simp [gone] at length
      · rcases lines_eq_cons split' with ⟨rfl, rfl⟩ | ⟨rest', rfl, others'⟩
        · subst others
          cases gone : lines rest with
          | nil => exact absurd gone (lines_ne_nil rest)
          | cons k ks => simp [gone] at length
        · have ends := readLine_ends line (.newline rest) l clean pass sound
          have ends' := readLine_ends line (.newline rest') l' clean' pass' sound'
          have found := readLine_alike line (.newline rest) (.newline rest') clean clean' length.1
            sound sound' agrees alike
          have behind : rest.length = rest'.length := by
            have whole := alike.length_eq
            simp only [glyphs_length, List.length_append, List.length_cons] at whole
            omega
          apply ih more' rest rest' others others' length.2 (line + 1) _ _ ends.sound ends'.sound
            found
          apply alike_suffix alike ends.goesOn ends'.goesOn
          simpa [nextGlyphs, glyphs_length] using behind

/-- Texts with the same line structure that differ only inside strings and comments have the same
findings, in the same order, semicolons apart. -/
theorem scan_ignores_strings_and_comments (a b : List Char)
    (shape : (lines a).map List.length = (lines b).map List.length)
    (alike : List.Forall₂ Glyph.AlikeInLine (lex a) (lex b)) :
    (scan a).filter (fun d => !hasRule "semi" d) =
      (scan b).filter (fun d => !hasRule "semi" d) := by
  have code : Region.Sound .code := by rintro d ⟨⟩
  have agrees : (readLines a).Agrees (readLines b) :=
    readLines_alike _ _ a b rfl rfl shape 0 {} {} code code ⟨rfl, rfl⟩ alike
  have found := agrees.found
  rw [semiRule] at found
  simp only [scan, List.filter_append, List.filter_reverse, found, agrees.openings]

/-- Brackets, equal signs, quotes, comment marks and a carriage return come and go inside strings
and comments, and all four kinds of findings stay where they are. -/
theorem scan_ignores_strings_and_comments_mixed :
    let a := "f(['b)' 2 == x] /* ] */ // ) ==\n\x7d\x7d `\\` == (\n)` [3".toList
    let b := "f(['==' 2 == x] /*'\x7b'*/ //'''/*\n\x7d\x7d `xy\\\\(\"\r\n/` [3".toList
    (lines a).map List.length = (lines b).map List.length ∧
    List.Forall₂ Glyph.AlikeInLine (lex a) (lex b) ∧
    (scan a).filter (fun d => !hasRule "semi" d) = (scan b).filter (fun d => !hasRule "semi" d) ∧
    ((scan a).filter (fun d => !hasRule "semi" d)).map (fun d => (d.line, d.column, d.rule)) =
      [(0, 7, some "missing-comma"), (0, 10, some "eqeqeq"), (1, 1, some "extra-closing-bracket"),
        (2, 3, some "unclosed-bracket")] := by
  intro a b
  have shape : (lines a).map List.length = (lines b).map List.length := by decide +kernel
  have alike : List.Forall₂ Glyph.AlikeInLine (lex a) (lex b) := by decide +kernel
  exact ⟨shape, alike, scan_ignores_strings_and_comments a b shape alike,
    by decide +kernel⟩

end BufferLint.Scan.Script
