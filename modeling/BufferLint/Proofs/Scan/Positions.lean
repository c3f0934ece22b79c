import BufferLint.Proofs.Scan.Places

/-! Where findings stand, of every analysis: at a character of the buffer, in the order of the text,
and no two for one rule at one place. A line of a script is read by the character, and what is found
there lies further and further to the right. -/
namespace BufferLint.Scan

open BufferLint.Text

open Script (Place extraRule unclosedRule)

namespace Script

def looseTail : List Char := ['=', '=', ' ']

structure Stretch (line low high : Nat) (ds : List Diagnostic) : Prop where
  ordered : ds.Pairwise (fun d e => (spot d).column < (spot e).column)
  inside : ∀ d ∈ ds, (spot d).line = line ∧ low ≤ (spot d).column ∧ (spot d).column < high
  rules : ∀ d ∈ ds, Inline d ∧ d.rule ≠ some missingSemicolon.name

/-- What is said at a character: nothing, something about the character itself, or something about
the equal sign behind it. -/
inductive Told (line column : Nat) (rest : List Char) : List Diagnostic → Prop where
  | nothing : Told line column rest []
  | here {d : Diagnostic} (place : spot d = ⟨line, column⟩)
      (rules : Inline d ∧ d.rule ≠ some missingSemicolon.name) : Told line column rest [d]
  | next {d : Diagnostic} (place : spot d = ⟨line, column + 1⟩)
      (rules : Inline d ∧ d.rule ≠ some missingSemicolon.name) (ahead : looseTail <+: rest) :
      Told line column rest [d]

/-- Where the next finding can be at the earliest: nothing is said at the first of two equal signs
that were already reported. -/
def earliest (region : Region) (column : Nat) (cs : List Char) : Nat :=
  if region = .code ∧ looseTail <+: cs then column + 1 else column

section

variable {line column low mid high : Nat} {c : Char} {cs rest : List Char} {ds : List Diagnostic}

theorem Stretch.nil (line low high : Nat) : Stretch line low high [] := by
  constructor <;> simp

theorem Stretch.append {later : List Diagnostic} (first : Stretch line low mid ds)
    (second : Stretch line mid high later) (up : low ≤ mid) (down : mid ≤ high) :
    Stretch line low high (ds ++ later) where
  ordered := by
    refine List.pairwise_append.mpr ⟨first.ordered, second.ordered, ?_⟩
    intro d here e there
    exact Nat.lt_of_lt_of_le (first.inside d here).2.2 (second.inside e there).2.1
  inside d member := by
    rcases List.mem_append.mp member with here | there
    · have := first.inside d here
      omega
    · have := second.inside d there
      omega
  rules d member := (List.mem_append.mp member).elim (first.rules d) (second.rules d)

theorem Stretch.wider {low' high' : Nat} (found : Stretch line low high ds) (left : low' ≤ low)
    (right : high ≤ high') : Stretch line low' high' ds where
  ordered := found.ordered
  inside d member := by
    have := found.inside d member
    omega
  rules := found.rules

theorem Stretch.onLine (found : Stretch line 0 cs.length ds) : OnLine line cs ds where
  ordered := by
    refine found.ordered.imp_of_mem ?_
    intro d e first second further
    exact .inl (.inr ⟨(found.inside d first).1.trans (found.inside e second).1.symm, further⟩)
  inside d member := ⟨(found.inside d member).1, (found.inside d member).2.2⟩
  rules d member := (found.rules d member).1

theorem le_earliest (region : Region) (column : Nat) (cs : List Char) :
    column ≤ earliest region column cs ∧ earliest region column cs ≤ column + 1 ∧
      earliest region column cs ≤ column + cs.length := by
  unfold earliest
  split
  · rename_i loose
    have long := loose.2.length_le
    simp only [looseTail, List.length_cons, List.length_nil] at long
    omega
  · omega

/-- What is said at a character lies before anything that is said further on. -/
theorem Told.stretch (told : Told line column rest ds)
    (fresh : ¬ looseTail <+: c :: rest ∨ ds = []) :
    Stretch line (earliest .code column (c :: rest)) (earliest .code (column + 1) rest) ds := by
  cases told with
  | nothing => exact .nil _ _ _
  | @here d place rules =>
    have new : ¬ looseTail <+: c :: rest := fresh.resolve_right (by simp)
    have first : earliest .code column (c :: rest) = column := if_neg fun loose => new loose.2
    have bounds := le_earliest .code (column + 1) rest
    constructor
    · simp
    · simp only [List.mem_singleton, forall_eq, place, first]
      exact ⟨trivial, Nat.le_refl _, bounds.1⟩
    · simpa using rules
  | @next d place rules ahead =>
    have last : earliest .code (column + 1) rest = column + 1 + 1 := if_pos ⟨rfl, ahead⟩
    have bounds := le_earliest .code column (c :: rest)
    constructor
    · simp
    · simp only [List.mem_singleton, forall_eq, place, last]
      exact ⟨trivial, bounds.2.1, Nat.lt_succ_self _⟩
    · simpa using rules

variable (before : Option Char) (inContainer : Bool)

theorem findingsAt_eq (line column : Nat) (cursor : Cursor) : findingsAt line column cursor =
    (if looseEquality.applies cursor then [looseEquality.report line column] else []) ++
      (if missingSeparator.applies cursor then [missingSeparator.report line column] else []) := by
  unfold findingsAt positionRules
  cases first : looseEquality.applies cursor <;> cases second : missingSeparator.applies cursor <;>
    simp [first, second]

theorem findingsAt_dark (line column : Nat) (dark : isBlank c = false) (rest : List Char) :
    findingsAt line column ⟨before, c :: rest, inContainer⟩ = [] := by
  have other : c ≠ ' ' := by
    rintro rfl
    cases dark
  have loose : looseEquality.applies ⟨before, c :: rest, inContainer⟩ = false := by
    simp [looseEquality, looseEqualityPattern, List.isPrefixOf, other.symm]
  have gap : missingSeparator.applies ⟨before, c :: rest, inContainer⟩ = false := by
    cases before <;> simp [missingSeparator, gapBetweenValues, dark]
  rw [findingsAt_eq, loose, gap]
  rfl

theorem findingsAt_told (low : line < UInt32.size) (left : column + 1 < UInt32.size) :
    Told line column rest (findingsAt line column ⟨before, c :: rest, inContainer⟩) := by
  rw [findingsAt_eq]
  by_cases loose : looseEquality.applies ⟨before, c :: rest, inContainer⟩ = true
  · obtain ⟨blank, ahead⟩ := List.cons_prefix_cons.mp (List.isPrefixOf_iff_prefix.mp loose)
    have gap : missingSeparator.applies ⟨before, c :: rest, inContainer⟩ = false := by
      obtain ⟨more, rfl⟩ := ahead
      subst blank
      cases before <;>
        simp [missingSeparator, gapBetweenValues, (by decide : isBlank ' ' = true),
          (by decide : isBlank '=' = false), (by decide : startsValue '=' = false)]
    rw [if_pos loose, gap]
    refine .next ?_ ?_ ahead
    · exact spot_place low left _ _ _ _
    · have other : some looseEquality.name ≠ some missingSemicolon.name := by decide
      exact ⟨inline_place (by decide) (by decide) _ _ _ _, other⟩
  · rw [if_neg loose, List.nil_append]
    split
    · refine .here ?_ ?_
      · exact spot_place low (Nat.lt_of_succ_lt left) _ _ _ _
      · have other : some missingSeparator.name ≠ some missingSemicolon.name := by decide
        exact ⟨inline_place (by decide) (by decide) _ _ _ _, other⟩
    · exact .nothing

theorem not_blank_of_bracket (bracket : (isOpening c || isClosing c) = true) :
    isBlank c = false := by
  simp only [isOpening, isClosing, Bool.or_eq_true, beq_iff_eq] at bracket
  rcases bracket with ((rfl | rfl) | rfl) | ((rfl | rfl) | rfl) <;> decide

variable (c rest) in
/-- A bracket that nothing opened, or the rules for a character that is no bracket. -/
theorem readCode_told (low : line < UInt32.size) (left : column + 1 < UInt32.size) (pass : Pass) :
    ∃ new, (pass.readCode line column ⟨before, c :: rest, inContainer⟩ c).found =
        new.reverse ++ pass.found ∧
      Told line column rest new ∧ (¬ looseTail <+: c :: rest ∨ new = []) := by
  unfold Pass.readCode Pass.report
  dsimp only
  by_cases bracket : (isOpening c || isClosing c) = true
  · have dark := not_blank_of_bracket bracket
    have other : ¬ looseTail <+: c :: rest := by
      intro loose
      obtain ⟨rfl, _⟩ := List.cons_prefix_cons.mp loose
      cases bracket
    rw [findingsAt_dark before inContainer line column dark rest]
    unfold Pass.pairBracket
    split
    · exact ⟨[], rfl, .nothing, .inr rfl⟩
    split
    · split
      · refine ⟨[extraClosing line column c], rfl, .here ?_ ?_, .inl other⟩
        · exact spot_place low (Nat.lt_of_succ_lt left) _ _ _ _
        · simp [Inline, extraClosing, extraRule, unclosedRule, missingSemicolon, Diagnostic.place]
      · exact ⟨[], rfl, .nothing, .inr rfl⟩
    · exact ⟨[], rfl, .nothing, .inr rfl⟩
  · have plain : (pass.pairBracket line column c) = pass := by
      simp only [Bool.or_eq_true, not_or, Bool.not_eq_true] at bracket
      simp [Pass.pairBracket, bracket]
    rw [plain]
    refine ⟨_, rfl, findingsAt_told before inContainer low left, ?_⟩
    by_cases loose : looseTail <+: c :: rest
    · obtain ⟨rfl, _⟩ := List.cons_prefix_cons.mp loose
      exact .inr (findingsAt_dark before inContainer line column (by decide) rest)
    · exact .inl loose

theorem Stretch.later {region : Region} {start : Nat}
    (found : Stretch line (earliest region start rest) (start + rest.length) ds)
    (further : column < start) (before : Region) (same : start + rest.length = column + cs.length) :
    Stretch line (earliest before column cs) (column + cs.length) ds := by
  have first := (le_earliest before column cs).2.1
  have next := (le_earliest region start rest).1
  exact found.wider (by omega) (Nat.le_of_eq same)

/-- The induction is on the line as it is read; only a character of code adds something. -/
theorem readFrom_found (line : Nat) (low : line < UInt32.size) (cs : List Char) (column : Nat)
    (before : Option Char) (row : Row) (pass : Pass) (left : column + cs.length < UInt32.size) :
    ∃ new, (readFrom line cs column before row pass).2.found = new.reverse ++ pass.found ∧
      Stretch line (earliest pass.region column cs) (column + cs.length) new := by
  fun_induction readFrom line cs column before row pass with
  | case1 | case2 | case8 => exact ⟨[], rfl, .nil _ _ _⟩
  | case3 | case4 | case5 | case6 | case7 | case9 =>
    rename_i ih
    simp only [List.length_cons] at left
    obtain ⟨new, same, found⟩ := ih (by omega)
    exact ⟨new, same, found.later (by omega) _ (by simp only [List.length_cons]; omega)⟩
  | case10 c column before row pass region rest row' quote _ _ ih =>
    simp only [List.length_cons] at left
    obtain ⟨new, same, found⟩ := ih (by omega)
    simp only [if_pos quote]
    exact ⟨new, same, found.later (by omega) _ (by simp only [List.length_cons]; omega)⟩
  | case11 c column before row pass region rest row' plain apart block ih =>
    simp only [List.length_cons] at left ⊢
    have stays := readCode_region pass line column ⟨before, c :: rest, row'.inContainer⟩ c
    obtain ⟨said, one, told, fresh⟩ := readCode_told c rest before row'.inContainer low
      (by omega : column + 1 < UInt32.size) pass
    obtain ⟨new, more, found⟩ := ih (by omega)
    rw [stays, region] at found
    rw [one, ← List.append_assoc, ← List.reverse_append] at more
    rw [if_neg plain, region]
    have here := le_earliest .code column (c :: rest)
    have next := le_earliest .code (column + 1) rest
    have width : column + 1 + rest.length = column + (rest.length + 1) := by omega
    rw [width] at found next
    exact ⟨_, more, (told.stretch fresh).append found (by omega) next.2.2⟩

theorem lacksSemicolon_nonempty {l : LineEnd} (lacks : missingSemicolon.applies l = true) :
    l.text ≠ [] := by
  intro empty
  simp [missingSemicolon, lacksSemicolon, empty, trim, trimLeft, trimRight] at lacks

theorem findingsAtEnd_eq (line : Nat) (l : LineEnd) : findingsAtEnd line l =
    if missingSemicolon.applies l then [missingSemicolon.report line l.text] else [] := by
  unfold findingsAtEnd lineRules
  cases lacks : missingSemicolon.applies l <;> simp [lacks]

theorem Stretch.withEnd {l : LineEnd} (found : Stretch line 0 l.text.length ds)
    (low : line < UInt32.size) (left : l.text.length < UInt32.size) :
    OnLine line l.text (ds ++ findingsAtEnd line l) := by
  rw [findingsAtEnd_eq]
  have place (lacks : missingSemicolon.applies l = true) :
      spot (missingSemicolon.report line l.text) = ⟨line, lastColumn l.text⟩ :=
    spot_lastColumn low left (lacksSemicolon_nonempty lacks) _ _ _ _
  refine found.onLine.append (.guarded fun lacks => ⟨?_, ?_⟩) ?_
  · rw [place lacks]
    exact ⟨rfl, lastColumn_lt (lacksSemicolon_nonempty lacks)⟩
  · exact inline_place (by decide) (by decide) _ _ _ _
  · intro d first e second
    obtain ⟨lacks, rfl⟩ := mem_guarded.mp second
    obtain ⟨here, _, within⟩ := found.inside d first
    unfold Follows
    rw [place lacks]
    by_cases before : (spot d).column < lastColumn l.text
    · exact .inl (.inr ⟨here, before⟩)
    · have there : (spot d).column = lastColumn l.text := by
        unfold lastColumn at before ⊢
        omega
      refine .inr ⟨?_, (found.rules d first).2⟩
      rw [← here, ← there]

variable (line) in
theorem readLine_found (pass : Pass) (low : line < UInt32.size) (text : List Char)
    (left : text.length < UInt32.size) :
    ∃ new, (readLine pass line text).found = new.reverse ++ pass.found ∧ OnLine line text new := by
  obtain ⟨new, same, found⟩ := readFrom_found line low text 0 none {} pass (by omega)
  rw [Nat.zero_add] at found
  have inline := found.wider (Nat.zero_le _) (Nat.le_refl _)
  let last : LineEnd := ⟨text, (readFrom line text 0 none {} pass).1.hasCode,
    (readFrom line text 0 none {} pass).2.region == .code⟩
  refine ⟨new ++ findingsAtEnd line last, ?_, inline.withEnd (l := last) low left⟩
  change (findingsAtEnd line last).reverse ++ (readFrom line text 0 none {} pass).2.found = _
  rw [same, List.reverse_append, List.append_assoc]

theorem readLines_found (ls : List (List Char)) (line : Nat) (pass : Pass) (fits : Fits line ls) :
    ∃ new, ((ls.zipIdx line).foldl (fun pass l => readLine pass l.2 (dropReturn l.1)) pass).found =
      new.reverse ++ pass.found ∧ ByLine line ls new := by
  induction ls generalizing line pass with
  | nil => exact ⟨[], rfl, .nil line⟩
  | cons l more ih =>
    obtain ⟨lines, columns⟩ := fits
    rw [List.length_cons] at lines
    have shorter := length_dropReturn_le l
    have left := columns l List.mem_cons_self
    obtain ⟨here, first, found⟩ := readLine_found line pass (by omega) (dropReturn l)
      (by omega)
    obtain ⟨later, others, rest⟩ := ih (line + 1) (readLine pass line (dropReturn l))
      ⟨by omega, fun k member => columns k (List.mem_cons_of_mem l member)⟩
    refine ⟨here ++ later, ?_, .cons (found.wider shorter) rest⟩
    rw [List.zipIdx_cons, List.foldl_cons, others, first, List.reverse_append, List.append_assoc]

/-- The place is in a line, when a text begins at another place. -/
def CoversFrom (p : Place) (ls : List (List Char)) (q : Place) : Prop :=
  p.line ≤ q.line ∧ ∃ l, ls[q.line - p.line]? = some l ∧
    q.column < (if q.line = p.line then p.column else 0) + l.length

theorem CoversFrom.newline {p q : Place} {ls : List (List Char)}
    (covers : CoversFrom ⟨p.line + 1, 0⟩ ls q) : CoversFrom p ([] :: ls) q := by
  obtain ⟨below, l, found, inside⟩ := covers
  dsimp only at below found
  have next : q.line - p.line = q.line - (p.line + 1) + 1 := by omega
  refine ⟨by omega, l, ?_, ?_⟩
  · rw [next, List.getElem?_cons_succ]
    exact found
  · rw [if_neg (by omega)]
    simpa using inside

theorem CoversFrom.char {p q : Place} {first : List Char} {more : List (List Char)}
    (covers : CoversFrom ⟨p.line, p.column + 1⟩ (first :: more) q) (c : Char) :
    CoversFrom p ((c :: first) :: more) q := by
  obtain ⟨below, l, found, inside⟩ := covers
  dsimp only at below found inside
  refine ⟨below, ?_⟩
  by_cases top : q.line = p.line
  · simp only [top, Nat.sub_self, List.getElem?_cons_zero, Option.some.injEq] at found
    rw [if_pos top, ← found] at inside
    refine ⟨c :: first, by simp [top], ?_⟩
    rw [if_pos top, List.length_cons]
    omega
  · obtain ⟨k, deeper⟩ : ∃ k, q.line - p.line = k + 1 := ⟨q.line - p.line - 1, by omega⟩
    rw [if_neg top] at inside ⊢
    rw [deeper, List.getElem?_cons_succ] at found ⊢
    exact ⟨l, found, inside⟩

theorem covers_places {content : List Char} {p q : Place} {c : Char}
    (member : (c, q) ∈ content.zip (places p content)) (other : c ≠ '\n') :
    CoversFrom p (lines content) q := by
  induction content generalizing p with
  | nil => cases member
  | cons d rest ih =>
    rw [places, List.zip_cons_cons, Place.after] at member
    by_cases newline : d = '\n'
    · subst newline
      rcases List.mem_cons.mp member with same | later
      · exact absurd (congrArg Prod.fst same) other
      · exact (ih later).newline
    · obtain ⟨first, more, split⟩ := List.exists_cons_of_ne_nil (lines_ne_nil rest)
      have here : lines (d :: rest) = (d :: first) :: more := by
        rw [lines_cons, split]
        exact if_neg newline
      rw [here]
      rcases List.mem_cons.mp member with same | later
      · cases same
        refine ⟨Nat.le_refl _, c :: first, by simp, ?_⟩
        rw [if_pos rfl, List.length_cons]
        omega
      · rw [if_neg newline] at later
        exact (split ▸ ih later).char d

theorem codeBrackets_covered {content : List Char} {b : Bracket}
    (member : b ∈ codeBrackets content) : Covers (lines content) b.place := by
  obtain ⟨g, seen, same⟩ := List.mem_filterMap.mp member
  have placed : (g.char, g.place) ∈ content.zip (places ⟨0, 0⟩ content) := by
    have chars := glyphs_char .code ⟨0, 0⟩ content
    have both : content.zip (places ⟨0, 0⟩ content) =
        (lex content).map (fun g => (g.char, g.place)) := by
      rw [← glyphs_place .code, ← List.zip_map']
      exact congrArg (fun cs => List.zip cs _) chars.symm
    rw [both]
    exact List.mem_map_of_mem seen
  unfold Glyph.bracket? at same
  split at same
  · rename_i code
    cases same
    have other : g.char ≠ '\n' := by
      intro newline
      rw [newline] at code
      exact absurd code.2 (by decide)
    obtain ⟨_, l, found, inside⟩ := covers_places placed other
    simp only [ite_self, Nat.zero_add] at inside
    exact ⟨l, found, inside⟩
  · cases same

theorem pending_sublist (bs : List Bracket) : (pairing bs).pending.reverse.Sublist bs := by
  have kept := (List.filter_sublist (p := fun x => StaysOpen bs x.2) (l := bs.zipIdx)).map Prod.fst
  rwa [← pending_eq, List.zipIdx_map_fst] at kept

/-- The findings of a scan: those on the way, line by line, and then the brackets that stay open. -/
theorem scan_split {content : List Char} (short : content.length < UInt32.size) :
    ∃ inline left, scan content = inline ++ left ∧ ByLine 0 (lines content) inline ∧
      left.Pairwise (fun d e => (spot d).Before (spot e)) ∧
      ∀ d ∈ left, d.rule = some unclosedRule ∧ Covers (lines content) (spot d) := by
  obtain ⟨inline, found, byLine⟩ := readLines_found (lines content) 0 {} (fits_lines short)
  have openings := (readLines_pairs content).openings
  have place : ∀ b ∈ (pairing (codeBrackets content)).pending.reverse,
      spot (unclosed b.opening) = b.place := by
    intro b member
    have small := codeBrackets_lt short ((pending_sublist _).subset member)
    exact spot_place small.1 small.2 _ _ _ _
  refine ⟨inline,
    (pairing (codeBrackets content)).pending.reverse.map (fun b => unclosed b.opening),
    ?_, byLine, ?_, ?_⟩
  · have order : (readLines content).found.reverse = inline := by
      rw [readLines, found]
      simp
    rw [scan, order, openings, ← List.map_reverse, List.map_map]
    rfl
  · refine List.pairwise_map.mpr ?_
    have ordered := (codeBrackets_ordered content).sublist (pending_sublist _)
    refine ordered.imp_of_mem ?_
    intro a b first second before
    rwa [place a first, place b second]
  · intro d member
    obtain ⟨b, waits, rfl⟩ := List.mem_map.mp member
    rw [place b waits]
    exact ⟨rfl, codeBrackets_covered ((pending_sublist _).subset waits)⟩

end

end Script

theorem Script.left_placed {ls : List (List Char)} {ds : List Diagnostic}
    (ordered : ds.Pairwise (fun d e => (spot d).Before (spot e)))
    (left : ∀ d ∈ ds, d.rule = some unclosedRule ∧ Covers ls (spot d)) : Placed ls ds where
  inside d member := by
    obtain ⟨l, line, inside⟩ := (left d member).2
    exact ⟨l, line, Nat.le_of_lt inside, fun _ => inside⟩
  errors d member _ := .inr (.inl (left d member).1)
  apart := by
    refine apart_of_ordered ordered ?_
    exact fun d e before both => before.ne both.1

theorem Script.scan_placed {content : List Char} (short : content.length < UInt32.size) :
    Placed (lines content) (Script.scan content) := by
  obtain ⟨inline, left, same, byLine, ordered, rules⟩ := Script.scan_split short
  rw [same]
  refine byLine.placed.append (Script.left_placed ordered rules) ?_
  intro d here e there
  rw [(rules e there).1]
  exact (byLine.inside d here).1.2

theorem analyze_placed (content : String) (type : FileType) (short : content.length < UInt32.size) :
    Placed (lines content.toList) (analyze content type) := by
  have short : content.toList.length < UInt32.size := by rwa [String.length_toList]
  unfold analyze
  dsimp only
  split
  · exact .nil _
  split
  · exact Reduced.notice_placed short
  · cases type with
    | javascript | typescript => exact Script.scan_placed short
    | python => exact Python.scan_placed short
    | json => exact JsonSyntax.scan_placed short
    | _ => exact (Reduced.scan_byLine short).placed

theorem analyze_script {content : String} {type : FileType}
    (script : type = .javascript ∨ type = .typescript)
    (small : (lines content.toList).length ≤ detailedLines) :
    analyze content type = [] ∨ analyze content type = Script.scan content.toList := by
  unfold analyze
  dsimp only
  split
  · exact .inl rfl
  · rw [if_neg (Nat.not_lt.mpr small)]
    rcases script with rfl | rfl
    · exact .inr rfl
    · exact .inr rfl

theorem before_iff {d e : Diagnostic} : (spot d).Before (spot e) ↔
    d.line < e.line ∨ (d.line = e.line ∧ d.column < e.column) := by
  unfold spot Place.Before
  simp only [UInt32.lt_iff_toNat_lt, UInt32.toNat_inj]

/-- Every finding points into the buffer: at a character of one of its lines, but for a fault in
JSON and the notice for a large file, which may point behind the last one. Only brackets and faults
in JSON are errors, and no two findings agree in place and rule. In a script of up to a thousand
lines the findings stand in the order of the text, and so do the brackets that stay open, behind
them. -/
theorem every_finding_points_into_the_buffer (content : String) (type : FileType)
    (short : content.length < UInt32.size) :
    let ls := lines content.toList
    let ds := analyze content type
    (∀ d ∈ ds, ∃ l, ls[d.line.toNat]? = some l ∧ d.column.toNat ≤ l.length ∧
      (d.rule ≠ some "json-syntax" → d.rule ≠ some "large-file" → d.column.toNat < l.length)) ∧
    (∀ d ∈ ds, d.severity = .error → d.rule = some "extra-closing-bracket" ∨
      d.rule = some "unclosed-bracket" ∨ d.rule = some "json-syntax") ∧
    ds.Pairwise (fun d e => (d.line, d.column, d.rule) ≠ (e.line, e.column, e.rule)) ∧
    (type = .javascript ∨ type = .typescript → ls.length ≤ 1000 →
      ∃ inline left, ds = inline ++ left ∧
        (∀ d ∈ inline, d.rule ≠ some "unclosed-bracket") ∧
        (∀ d ∈ left, d.rule = some "unclosed-bracket") ∧
        inline.Pairwise (fun d e => d.line < e.line ∨ (d.line = e.line ∧ d.column ≤ e.column)) ∧
        left.Pairwise (fun d e => d.line < e.line ∨ (d.line = e.line ∧ d.column < e.column))) := by
  intro ls ds
  have placed := analyze_placed content type short
  refine ⟨?_, placed.errors, placed.apart, ?_⟩
  · intro d member
    obtain ⟨l, line, column, inside⟩ := placed.inside d member
    refine ⟨l, line, column, fun syntaxFault notice => inside ?_⟩
    rintro (same | same)
    · exact syntaxFault same
    · exact notice same
  · intro script small
    have long : content.toList.length < UInt32.size := by rwa [String.length_toList]
    obtain ⟨inline, left, same, byLine, ordered, rules⟩ := Script.scan_split long
    rcases analyze_script script small with none | scanned
    · exact ⟨[], [], none, by simp, by simp, .nil, .nil⟩
    · refine ⟨inline, left, scanned.trans same, ?_, fun d member => (rules d member).1, ?_, ?_⟩
      · exact fun d member => (byLine.inside d member).1.2
      · refine byLine.ordered.imp ?_
        rintro d e (before | ⟨there, _⟩)
        · exact (before_iff.mp before).imp_right (fun same => ⟨same.1, UInt32.le_of_lt same.2⟩)
        · simp only [spot, Place.mk.injEq, UInt32.toNat_inj] at there
          exact .inr ⟨there.1, UInt32.le_of_eq there.2⟩
      · exact ordered.imp before_iff.mp

/-- A missing semicolon and a bracket that stays open at one place, behind everything else. -/
theorem every_finding_points_into_the_buffer_mixed :
    ")x = [1 2\n) == (".length < UInt32.size ∧
    (analyze ")x = [1 2\n) == (" .javascript).map (fun d => (d.line, d.column, d.rule)) =
      [(0, 0, some "extra-closing-bracket"), (0, 7, some "missing-comma"), (0, 8, some "semi"),
        (1, 2, some "eqeqeq"), (1, 5, some "semi"), (1, 5, some "unclosed-bracket")] ∧
    ∃ inline left, analyze ")x = [1 2\n) == (" .javascript = inline ++ left ∧
      (∀ d ∈ inline, d.rule ≠ some "unclosed-bracket") ∧
      ∀ d ∈ left, d.rule = some "unclosed-bracket" := by
  have short : ")x = [1 2\n) == (".length < UInt32.size := by decide
  obtain ⟨_, _, _, ordered⟩ := every_finding_points_into_the_buffer _ .javascript short
  obtain ⟨inline, left, split, first, second, _⟩ := ordered (.inl rfl) (by decide)
  exact ⟨short, by decide, inline, left, split, first, second⟩

end BufferLint.Scan
