import BufferLint.Proofs.Scan.Joined
import BufferLint.Proofs.Scan.Rulings
import Mathlib.Data.List.Chain
import Mathlib.Data.List.Infix

/-! The rules of a script, exactly: what characters, and what labels of theirs, call for a finding,
told without the scanner, and a scan that reports those places and no others. -/
namespace BufferLint.Scan

open BufferLint.Text

theorem filter_flatMap_line {f : Nat → List Char → List Diagnostic}
    (each : ∀ line l, ∀ d ∈ f line l, d.line = UInt32.ofNat line) {content l : List Char} {k : Nat}
    (short : content.length < UInt32.size) (here : (lines content)[k]? = some l) :
    ((lines content).zipIdx.flatMap (fun x => f x.2 x.1)).filter (fun d => d.line.toNat = k) =
      f k l := by
  have fits := (fits_lines short).lines
  obtain ⟨inside, here⟩ := List.getElem?_eq_some_iff.mp here
  generalize lines content = ls at *
  have split : ls.zipIdx = (ls.take k ++ l :: ls.drop (k + 1)).zipIdx := by
    rw [← here, List.getElem_cons_drop, List.take_append_drop]
  have numbered {line : Nat} (low : line < ls.length) : (UInt32.ofNat line).toNat = line :=
    UInt32.toNat_ofNat_of_lt' (by omega)
  have others (part : List (List Char × Nat)) (low : ∀ x ∈ part, x.2 < ls.length ∧ x.2 ≠ k) :
      (part.flatMap (fun x => f x.2 x.1)).filter (fun d => d.line.toNat = k) = [] := by
    refine List.filter_eq_nil_iff.mpr fun d member => ?_
    obtain ⟨x, part, found⟩ := List.mem_flatMap.mp member
    rw [each _ _ d found, numbered (low x part).1]
    simpa using (low x part).2
  have own : (f k l).filter (fun d => d.line.toNat = k) = f k l := by
    refine List.filter_eq_self.mpr fun d found => ?_
    rw [each k l d found, numbered inside]
    simp
  have length : (ls.take k).length = k := by simp [Nat.le_of_lt inside]
  rw [split, List.zipIdx_append, List.zipIdx_cons, List.flatMap_append, List.flatMap_cons,
    List.filter_append, List.filter_append, length, Nat.zero_add, own, others, others,
    List.nil_append, List.append_nil]
  · intro x member
    have above := List.le_snd_of_mem_zipIdx member
    have below := List.snd_lt_add_of_mem_zipIdx member
    rw [List.length_drop] at below
    omega
  · intro x member
    have below := List.snd_lt_of_mem_zipIdx member
    omega

namespace Script

def EndsValue (c : Char) : Prop :=
  isAlphanumeric c = true ∨ c ∈ ['\x22', '\x27', '\x60', '_', '$', ']', '\x7d', ')']

def StartsValue (c : Char) : Prop :=
  isAlphanumeric c = true ∨ c ∈ ['\x22', '\x27', '\x60', '_', '$']

instance (c : Char) : Decidable (EndsValue c) := inferInstanceAs (Decidable (_ ∨ _))

instance (c : Char) : Decidable (StartsValue c) := inferInstanceAs (Decidable (_ ∨ _))

/-- Two equal signs from column `c` on, between blanks, and all of it code. -/
def LooseAt (gs : List Glyph) (c : Nat) : Prop :=
  0 < c ∧ ((gs.drop (c - 1)).take 4).map (fun g => (g.char, g.label)) =
    [(' ', .code), ('=', .code), ('=', .code), (' ', .code)]

/-- A blank in code behind the end of a value, with the beginning of another value as the next thing
on the line. -/
def BetweenValues (gs : List Glyph) (c : Nat) : Prop :=
  0 < c ∧ (∃ g ∈ gs[c]?, g.label = .code ∧ isBlank g.char = true) ∧
    (∃ g ∈ gs[c - 1]?, isBlank g.char = false ∧ EndsValue g.char) ∧
    ∃ g ∈ (gs.drop c).find? (fun g => !isBlank g.char), StartsValue g.char

/-- A gap between values inside a container that the line has opened. -/
def GapAt (gs : List Glyph) (c : Nat) : Prop := BetweenValues gs c ∧ Contained (gs.take c)

/-- A gap between values where the counters of the line have more opened than closed. -/
def GapCountedAt (gs : List Glyph) (c : Nat) : Prop := BetweenValues gs c ∧ Counted (gs.take c)

/-- A line with code that ends outside strings and comments, without a semicolon or a brace, that is
no comment and has none of the words that begin a block. -/
def Unfinished (content : List Char) (line : Nat) (text : List Char) : Prop :=
  trim text ≠ [] ∧ HasCode content (lineGlyphs content line text) ∧ EndsInCode content line ∧
    (trim text).getLast? ∉ [some ';', some '\x7b', some '\x7d'] ∧ ¬ ['/', '/'] <+: trim text ∧
    ∀ word ∈ ["function", "if", "for", "while", "=>"], ¬ word.toList <:+: trim text

instance (gs : List Glyph) (c : Nat) : Decidable (LooseAt gs c) :=
  inferInstanceAs (Decidable (_ ∧ _))

instance (gs : List Glyph) (c : Nat) : Decidable (BetweenValues gs c) :=
  inferInstanceAs (Decidable (_ ∧ _ ∧ _ ∧ _))

instance (gs : List Glyph) (c : Nat) : Decidable (GapAt gs c) :=
  inferInstanceAs (Decidable (_ ∧ _))

instance (gs : List Glyph) (c : Nat) : Decidable (GapCountedAt gs c) :=
  inferInstanceAs (Decidable (_ ∧ _))

instance (content : List Char) (line : Nat) (text : List Char) :
    Decidable (Unfinished content line text) :=
  inferInstanceAs (Decidable (_ ∧ _ ∧ _ ∧ _ ∧ _ ∧ _))

def reportedOn (rule : String) (line : Nat) (content : List Char) : List Diagnostic :=
  (reported rule content).filter (fun d => d.line.toNat = line)

theorem positionRule_name {rule : PositionRule} (known : rule ∈ positionRules) :
    rule.name ≠ missingSemicolon.name ∧ rule.name ≠ extraRule ∧ rule.name ≠ unclosedRule := by
  simp only [positionRules, List.mem_cons, List.not_mem_nil, or_false] at known
  rcases known with rfl | rfl <;> decide

theorem findingsAt_filter {rule : PositionRule} (known : rule ∈ positionRules) (line index : Nat)
    (cursor : Cursor) : (findingsAt line index cursor).filter (hasRule rule.name) =
      if rule.applies cursor then [rule.report line index] else [] := by
  have apart : looseEquality.name ≠ missingSeparator.name := by decide
  rw [findingsAt_eq, List.filter_append]
  simp only [positionRules, List.mem_cons, List.not_mem_nil, or_false] at known
  rcases known with rfl | rfl <;> split <;> split <;>
    simp [hasRule, PositionRule.report, Diagnostic.place, apart, apart.symm]

theorem findingsAt_semi (line index : Nat) (cursor : Cursor) :
    (findingsAt line index cursor).filter (hasRule missingSemicolon.name) = [] := by
  refine List.filter_eq_nil_iff.mpr fun d member => ?_
  obtain ⟨rule, asked, rfl⟩ := List.mem_map.mp member
  have name := (positionRule_name (List.mem_filter.mp asked).1).1
  simpa [hasRule, PositionRule.report, Diagnostic.place] using name

theorem findingsAtEnd_filter (name : String) (line : Nat) (l : LineEnd) :
    (findingsAtEnd line l).filter (hasRule name) =
      if name = missingSemicolon.name ∧ missingSemicolon.applies l = true then
        [missingSemicolon.report line l.text] else [] := by
  rw [findingsAtEnd_eq]
  have rule : hasRule name (missingSemicolon.report line l.text) =
      decide (name = missingSemicolon.name) := by
    rw [hasRule, Bool.eq_iff_iff, beq_iff_eq, decide_eq_true_iff]
    exact Option.some_inj.trans eq_comm
  cases missingSemicolon.applies l <;> simp [List.filter_cons, rule]

theorem flatMap_said {rule : PositionRule} (known : rule ∈ positionRules) (line : Nat)
    (gs : List Glyph) (is : List Nat) :
    (is.flatMap (said line gs)).filter (hasRule rule.name) =
      (is.filter (fun i => (gs[i]?).any (fun g => g.label = .code) &&
        rule.applies (cursorAt gs i))).map (rule.report line) := by
  induction is with
  | nil => rfl
  | cons i rest ih =>
    rw [List.flatMap_cons, List.filter_append, ih, List.filter_cons, said]
    cases code : (gs[i]?).any (fun g => g.label = .code) with
    | false => rfl
    | true =>
      rw [if_pos rfl, findingsAt_filter known, Bool.true_and]
      split <;> rfl

theorem lineRulings_filter {rule : PositionRule} (known : rule ∈ positionRules)
    (content : List Char) (line : Nat) (text : List Char) :
    (lineRulings content line text).filter (hasRule rule.name) =
      ((List.range text.length).filter (fun i =>
        ((lineGlyphs content line text)[i]?).any (fun g => g.label = .code) &&
          rule.applies (cursorAt (lineGlyphs content line text) i))).map (rule.report line) := by
  have other := (positionRule_name known).1
  rw [lineRulings, List.filter_append, flatMap_said known, findingsAtEnd_filter,
    if_neg (fun both => other both.1), List.append_nil]

theorem lineRulings_semi (content : List Char) (line : Nat) (text : List Char) :
    (lineRulings content line text).filter (hasRule missingSemicolon.name) =
      if missingSemicolon.applies ⟨text, HasCode content (lineGlyphs content line text),
        EndsInCode content line⟩ then [missingSemicolon.report line text] else [] := by
  have silent : ((List.range text.length).flatMap
      (said line (lineGlyphs content line text))).filter (hasRule missingSemicolon.name) = [] := by
    rw [List.filter_flatMap]
    refine List.flatMap_eq_nil_iff.mpr fun i _ => ?_
    unfold said
    split
    · exact findingsAt_semi _ _ _
    · rfl
  rw [lineRulings, List.filter_append, silent, findingsAtEnd_filter, List.nil_append]
  simp only [true_and]

def CodeGoesOn (g h : Glyph) : Prop :=
  g.label = .code → isQuote h.char = false → h.char ≠ '/' → h.label = .code

theorem glyphs_code_head (p : Place) (cs : List Char) :
    ∀ h ∈ (glyphs .code p cs).head?, isQuote h.char = false → h.char ≠ '/' → h.label = .code := by
  cases cs with
  | nil => simp [glyphs]
  | cons c rest =>
    by_cases slash : c = '/'
    · intro h first _ other
      have char := congrArg List.head? (glyphs_char .code p (c :: rest))
      rw [List.head?_map, first] at char
      exact absurd (Option.some.inj char) (slash ▸ other)
    · rw [glyphs_code (fun same => absurd same slash) (fun same => absurd same slash)]
      split <;> simp_all

theorem glyphs_chain (mode : Mode) (p : Place) (cs : List Char) :
    (glyphs mode p cs).IsChain CodeGoesOn := by
  have skip {label : Label} (other : label ≠ .code) (c : Char) (p : Place) {gs : List Glyph}
      (chain : gs.IsChain CodeGoesOn) : (⟨c, label, p⟩ :: gs).IsChain CodeGoesOn :=
    List.isChain_cons.mpr ⟨fun _ _ code => absurd code other, chain⟩
  have code (c : Char) (p q : Place) {rest : List Char}
      (chain : (glyphs .code q rest).IsChain CodeGoesOn) :
      (⟨c, .code, p⟩ :: glyphs .code q rest).IsChain CodeGoesOn :=
    List.isChain_cons.mpr ⟨fun h first _ => glyphs_code_head q rest h first, chain⟩
  fun_induction glyphs mode p cs with
  | case1 => exact .nil
  | case5 p c rest _ _ plain ih => exact code _ _ _ ih
  | case6 p rest ih => exact code _ _ _ ih
  | case2 | case3 | case8 | case10 =>
    rename_i ih
    exact skip (by decide) _ _ (skip (by decide) _ _ ih)
  | _ =>
    rename_i ih
    exact skip (by decide) _ _ ih

theorem loose_labels {gs : List Glyph} (chain : gs.IsChain CodeGoesOn) :
    (gs.head?.any (fun g => g.label = .code) &&
        looseEqualityPattern.isPrefixOf (gs.map Glyph.char)) = true ↔
      (gs.take 4).map (fun g => (g.char, g.label)) =
        [(' ', .code), ('=', .code), ('=', .code), (' ', .code)] := by
  match gs with
  | [] | [_] | [_, _] | [_, _, _] => simp [looseEqualityPattern]
  | a :: b :: c :: d :: rest =>
    simp only [List.isChain_cons_cons] at chain
    obtain ⟨ab, bc, cd, _⟩ := chain
    unfold CodeGoesOn at ab bc cd
    have equal : isQuote '=' = false ∧ '=' ≠ '/' := by decide
    have blank : isQuote ' ' = false ∧ ' ' ≠ '/' := by decide
    simp only [List.head?_cons, Option.any_some, looseEqualityPattern, List.map_cons,
      List.isPrefixOf_cons_cons, List.isPrefixOf_nil_left, Bool.and_true, Bool.and_eq_true,
      decide_eq_true_eq, beq_iff_eq, List.take_succ_cons, List.take_zero, List.map_nil,
      List.cons.injEq, Prod.mk.injEq, and_true]
    constructor
    · rintro ⟨code, first, second, third, fourth⟩
      have codeB := ab code (second ▸ equal.1) (second ▸ equal.2)
      have codeC := bc codeB (third ▸ equal.1) (third ▸ equal.2)
      have codeD := cd codeC (fourth ▸ blank.1) (fourth ▸ blank.2)
      exact ⟨⟨first.symm, code⟩, ⟨second.symm, codeB⟩, ⟨third.symm, codeC⟩, fourth.symm, codeD⟩
    · rintro ⟨⟨first, code⟩, ⟨second, _⟩, ⟨third, _⟩, fourth, _⟩
      exact ⟨code, first.symm, second.symm, third.symm, fourth.symm⟩

section

variable {content l : List Char} {line : Nat}

theorem lineRulings_line (content : List Char) (line : Nat) (text : List Char) :
    ∀ d ∈ lineRulings content line text, d.line = UInt32.ofNat line := by
  intro d member
  rcases List.mem_append.mp member with inline | last
  · obtain ⟨i, _, found⟩ := List.mem_flatMap.mp inline
    unfold said at found
    split at found
    · exact findingsAt_line _ _ _ d found
    · cases found
  · exact findingsAtEnd_line _ _ d last

theorem reportedOn_eq (short : content.length < UInt32.size)
    (here : (lines content)[line]? = some l) {name : String} (extra : name ≠ extraRule)
    (unclosed : name ≠ unclosedRule) :
    reportedOn name line content =
      (lineRulings content line (dropReturn l)).filter (hasRule name) := by
  have ruled : reported name content = (rulings (scan content)).filter (hasRule name) := by
    rw [reported, rulings, List.filter_filter]
    refine List.filter_congr fun d _ => ?_
    cases found : hasRule name d with
    | false => rfl
    | true =>
      have rule : d.rule = some name := by simpa [hasRule] using found
      simp [hasRule, rule, extra, unclosed]
  rw [reportedOn, ruled, List.filter_comm, scan_rulings,
    filter_flatMap_line (f := fun line l => lineRulings content line (dropReturn l))
      (fun _ _ => lineRulings_line _ _ _) short here]

theorem reportedOn_applies (short : content.length < UInt32.size)
    (here : (lines content)[line]? = some l) {rule : PositionRule} (known : rule ∈ positionRules) :
    reportedOn rule.name line content = ((List.range (dropReturn l).length).filter (fun i =>
      ((lineGlyphs content line (dropReturn l))[i]?).any (fun g => g.label = .code) &&
        rule.applies (cursorAt (lineGlyphs content line (dropReturn l)) i))).map
          (rule.report line) := by
  have names := (positionRule_name known).2
  rw [reportedOn_eq short here names.1 names.2, lineRulings_filter known]

theorem filter_range_succ {n : Nat} {p : Nat → Bool} (first : p 0 = false) (last : p n = false) :
    (List.range n).filter p = ((List.range n).filter (fun i => p (i + 1))).map (· + 1) := by
  have both : (List.range (n + 1)).filter p = (0 :: (List.range n).map Nat.succ).filter p := by
    rw [List.range_succ_eq_map]
  simpa [List.range_succ, List.filter_map, first, last, Function.comp_def] using both

theorem loose_iff {gs : List Glyph} (chain : gs.IsChain CodeGoesOn) (i : Nat) :
    ((gs[i]?).any (fun g => g.label = .code) && looseEquality.applies (cursorAt gs i)) =
      decide (LooseAt gs (i + 1)) := by
  rw [Bool.eq_iff_iff, decide_eq_true_iff, ← List.head?_drop, LooseAt, Nat.add_sub_cancel]
  exact (loose_labels (chain.drop i)).trans (by simp)

theorem LooseAt.inside {gs : List Glyph} {c : Nat} (loose : LooseAt gs c) : c + 2 < gs.length := by
  have length := congrArg List.length loose.2
  simp only [List.length_map, List.length_take, List.length_drop, List.length_cons,
    List.length_nil] at length
  have := loose.1
  omega

theorem reportedOn_loose (short : content.length < UInt32.size)
    (here : (lines content)[line]? = some l) : reportedOn "eqeqeq" line content =
      ((List.range (dropReturn l).length).filter
        (LooseAt (lineGlyphs content line (dropReturn l)) ·)).map
          (fun c => .place line c "Suggest using === instead of ==" .warning "Local Checker"
            "eqeqeq") := by
  obtain ⟨mode, lexed⟩ := lexed_lines here
  have chain := glyphs_chain mode ⟨line, 0⟩ (dropReturn l)
  rw [← lexed] at chain
  have length := lineGlyphs_length here
  have known : looseEquality ∈ positionRules := by simp [positionRules]
  have applies := reportedOn_applies short here known
  generalize lineGlyphs content line (dropReturn l) = gs at chain length applies ⊢
  have first : decide (LooseAt gs 0) = false := by simp [LooseAt]
  have last : decide (LooseAt gs (dropReturn l).length) = false := by
    refine decide_eq_false fun loose => ?_
    have := loose.inside
    omega
  simp only [loose_iff chain] at applies
  rw [filter_range_succ first last, List.map_map]
  exact applies

theorem startsValue_iff (c : Char) : startsValue c = true ↔ StartsValue c := by
  simp only [startsValue, StartsValue, isQuote, Bool.or_eq_true, beq_iff_eq, List.mem_cons,
    List.not_mem_nil, or_false, or_assoc]

theorem endsValue_iff (c : Char) : endsValue c = true ↔ EndsValue c := by
  simp only [endsValue, Bool.or_eq_true, beq_iff_eq, startsValue_iff, StartsValue, EndsValue,
    List.mem_cons, List.not_mem_nil, or_false, or_assoc]

theorem counted_blank (gs : List Glyph) {g : Glyph} (blank : isBlank g.char = true) :
    Counted (gs ++ [g]) ↔ Counted gs := by
  have other {c : Char} (dark : isBlank c = false) : ¬ (g.label = .code ∧ g.char = c) := by
    rintro ⟨_, rfl⟩
    exact absurd (blank.symm.trans dark) (by decide)
  have braces : isBlank '\x7b' = false ∧ isBlank '\x7d' = false := by decide
  have squares : isBlank '[' = false ∧ isBlank ']' = false := by decide
  simp only [Counted, excess_concat, if_neg (other braces.1), if_neg (other braces.2),
    if_neg (other squares.1), if_neg (other squares.2), Int.add_zero, Int.sub_zero]

theorem gap_iff (gs : List Glyph) (i : Nat) :
    ((gs[i]?).any (fun g => g.label = .code) && missingSeparator.applies (cursorAt gs i)) =
      decide (GapCountedAt gs i) := by
  cases here : gs[i]? with
  | none => simp [GapCountedAt, BetweenValues, here]
  | some g =>
    cases i with
    | zero =>
      simp [GapCountedAt, BetweenValues, missingSeparator, gapBetweenValues, cursorAt]
    | succ j =>
      obtain ⟨inside, rfl⟩ := List.getElem?_eq_some_iff.mp here
      have left : gs[j]? = some gs[j] := List.getElem?_eq_getElem (by omega)
      have before : (gs.take (j + 1)).getLast? = some gs[j] := by
        rw [List.getLast?_take, if_neg (by omega), Nat.add_sub_cancel, left]
        rfl
      have ahead : (gs.drop (j + 1)).map Glyph.char =
          gs[j + 1].char :: (gs.drop (j + 2)).map Glyph.char := by
        rw [List.drop_eq_getElem_cons inside, List.map_cons]
      have upTo : gs.take (j + 1 + 1) = gs.take (j + 1) ++ [gs[j + 1]] := by
        rw [List.take_add_one, here]
        rfl
      have next : ((gs[j + 1].char :: (gs.drop (j + 2)).map Glyph.char).find?
            (fun c => !isBlank c)).any startsValue = true ↔
          ∃ g ∈ (gs.drop (j + 1)).find? (fun g => !isBlank g.char), StartsValue g.char := by
        rw [← ahead, List.find?_map, Option.any_map, Option.any_eq_true]
        simp only [Function.comp_def, startsValue_iff, Option.mem_def]
      rw [Bool.eq_iff_iff, decide_eq_true_iff]
      simp only [GapCountedAt, BetweenValues, here, left, Nat.add_sub_cancel, missingSeparator,
        gapBetweenValues, cursorAt, before, ahead, upTo, Option.any_some, Option.map_some,
        Option.mem_def, Option.some.injEq, exists_eq_left', Bool.and_eq_true, decide_eq_true_eq,
        Bool.not_eq_true', next, endsValue_iff]
      constructor
      · rintro ⟨code, ⟨⟨⟨within, blank⟩, dark⟩, ends⟩, starts⟩
        exact ⟨⟨Nat.succ_pos j, ⟨code, blank⟩, ⟨dark, ends⟩, starts⟩,
          (counted_blank _ blank).mp within⟩
      · rintro ⟨⟨_, ⟨code, blank⟩, ⟨dark, ends⟩, starts⟩, within⟩
        exact ⟨code, ⟨⟨⟨(counted_blank _ blank).mpr within, blank⟩, dark⟩, ends⟩, starts⟩

theorem reportedOn_gap (short : content.length < UInt32.size)
    (here : (lines content)[line]? = some l) : reportedOn "missing-comma" line content =
      ((List.range (dropReturn l).length).filter
        (GapCountedAt (lineGlyphs content line (dropReturn l)) ·)).map
          (fun c => .place line c "Missing comma in array or object" .warning "Local Checker"
            "missing-comma") := by
  have known : missingSeparator ∈ positionRules := by simp [positionRules]
  have applies := reportedOn_applies short here known
  simp only [gap_iff] at applies
  exact applies

theorem occurs_iff (part cs : List Char) : occurs part cs = true ↔ part <:+: cs := by
  induction cs with
  | nil => rw [occurs, List.isEmpty_iff, List.infix_nil]
  | cons c rest ih =>
    rw [occurs, Bool.or_eq_true, ih, List.isPrefixOf_iff_prefix, List.infix_cons_iff]

theorem unfinished_iff (content : List Char) (line : Nat) (text : List Char) :
    missingSemicolon.applies ⟨text, HasCode content (lineGlyphs content line text),
      EndsInCode content line⟩ = true ↔ Unfinished content line text := by
  have last : (trim text).getLast?.any endsStatement = false ↔
      (trim text).getLast? ∉ [some ';', some '\x7b', some '\x7d'] := by
    cases (trim text).getLast? with
    | none => simp
    | some c => simp [endsStatement, and_assoc]
  have word : headerWords.any (fun w => occurs w.toList (trim text)) = false ↔
      ∀ w ∈ ["function", "if", "for", "while", "=>"], ¬ w.toList <:+: trim text := by
    simp only [List.any_eq_false, occurs_iff, headerWords]
  have comment : lineCommentMark.isPrefixOf (trim text) = false ↔ ¬ ['/', '/'] <+: trim text := by
    rw [← List.isPrefixOf_iff_prefix, Bool.not_eq_true, lineCommentMark]
  simp only [missingSemicolon, lacksSemicolon, Bool.and_eq_true, Bool.not_eq_true',
    List.isEmpty_eq_false_iff, decide_eq_true_eq, last, word, comment, Unfinished, and_assoc]

theorem reportedOn_semi (short : content.length < UInt32.size)
    (here : (lines content)[line]? = some l) : reportedOn "semi" line content =
      if Unfinished content line (dropReturn l) then
        [.place line ((dropReturn l).length - 1) "Suggest adding semicolon" .info "Local Checker"
          "semi"] else [] := by
  have names : missingSemicolon.name ≠ extraRule ∧ missingSemicolon.name ≠ unclosedRule := by
    decide
  have rule := reportedOn_eq short here names.1 names.2
  rw [lineRulings_semi] at rule
  simp only [unfinished_iff] at rule
  exact rule

theorem scan_members {d : Diagnostic} (member : d ∈ scan content) :
    d.rule = some extraRule ∨ d.rule = some unclosedRule ∨
      ∃ line l, (lines content)[line]? = some l ∧ d ∈ lineRulings content line (dropReturn l) := by
  by_cases extra : hasRule extraRule d = true
  · exact .inl (by simpa [hasRule] using extra)
  by_cases unclosed : hasRule unclosedRule d = true
  · exact .inr (.inl (by simpa [hasRule] using unclosed))
  have ruled : d ∈ rulings (scan content) := List.mem_filter.mpr ⟨member, by simp [extra, unclosed]⟩
  rw [scan_rulings] at ruled
  obtain ⟨⟨l, line⟩, indexed, found⟩ := List.mem_flatMap.mp ruled
  exact .inr (.inr ⟨line, l, List.mk_mem_zipIdx_iff_getElem?.mp indexed, found⟩)

theorem lineRulings_rule {text : List Char} {d : Diagnostic}
    (member : d ∈ lineRulings content line text) :
    d.rule = some "eqeqeq" ∨ d.rule = some "missing-comma" ∨ d.rule = some "semi" := by
  rcases List.mem_append.mp member with inline | last
  · obtain ⟨i, _, found⟩ := List.mem_flatMap.mp inline
    unfold said at found
    split at found
    · obtain ⟨rule, asked, rfl⟩ := List.mem_map.mp found
      have known := (List.mem_filter.mp asked).1
      simp only [positionRules, List.mem_cons, List.not_mem_nil, or_false] at known
      rcases known with rfl | rfl
      · exact .inl rfl
      · exact .inr (.inl rfl)
    · cases found
  · obtain ⟨rule, asked, rfl⟩ := List.mem_map.mp last
    have known := (List.mem_filter.mp asked).1
    simp only [lineRules, List.mem_cons, List.not_mem_nil, or_false] at known
    exact .inr (.inr (known ▸ rfl))

theorem shown_places (low : line < UInt32.size) {columns : List Nat}
    (left : ∀ c ∈ columns, c < UInt32.size) (message : String) (severity : Severity)
    (source rule : String) :
    (columns.map (fun c => .place line c message severity source rule)).map shown =
      columns.map (fun c => (line, c, severity, message)) := by
  rw [List.map_map]
  exact List.map_congr_left fun c member => shown_place low (left c member) _ _ _ _

end

/-- The rules report exactly the places that call for it, as far as brackets are counted. With the
labels that a lexer gives the characters of the whole text, a loose equality is reported at its
first equal sign, and a missing semicolon once, at the last character of the line. A missing comma
is reported at the blank behind a value where the counters of the line have more opened than
closed; those are the gaps inside a container if no counter leaves its 32 bits, and on a line of
less than 2 ^ 31 characters none does. All else that is reported is about brackets. -/
theorem rules_report_their_places_while_counters_fit (content : List Char)
    (short : content.length < UInt32.size) :
    (∀ line l, (lines content)[line]? = some l →
      let text := dropReturn l
      let gs := lineGlyphs content line text
      let gap := fun c : Nat => (line, c, Severity.warning, "Missing comma in array or object")
      gs.map Glyph.char = text ∧
      (reportedOn "eqeqeq" line content).map shown =
        ((List.range text.length).filter (LooseAt gs ·)).map
          (fun c => (line, c, .warning, "Suggest using === instead of ==")) ∧
      (reportedOn "missing-comma" line content).map shown =
        ((List.range text.length).filter (GapCountedAt gs ·)).map gap ∧
      ((∀ c < text.length, CountersFit (gs.take c)) →
        (reportedOn "missing-comma" line content).map shown =
          ((List.range text.length).filter (GapAt gs ·)).map gap) ∧
      (text.length < 0x80000000 → ∀ c < text.length, CountersFit (gs.take c)) ∧
      (reportedOn "semi" line content).map shown =
        if Unfinished content line text then
          [(line, text.length - 1, .info, "Suggest adding semicolon")] else []) ∧
    ∀ d ∈ scan content,
      d.rule = some "extra-closing-bracket" ∨ d.rule = some "unclosed-bracket" ∨
        (d.line.toNat < (lines content).length ∧
          (d.rule = some "eqeqeq" ∨ d.rule = some "missing-comma" ∨ d.rule = some "semi")) := by
  constructor
  · intro line l here text gs gap
    have fits := fits_lines short
    have low : line < UInt32.size := by
      have inside := (List.getElem?_eq_some_iff.mp here).1
      have := fits.lines
      omega
    have left : text.length < UInt32.size :=
      Nat.lt_of_le_of_lt (length_dropReturn_le l) (fits.columns l (List.mem_of_getElem? here))
    have inside (p : Nat → Bool) : ∀ c ∈ (List.range text.length).filter p, c < UInt32.size :=
      fun c member => Nat.lt_trans (List.mem_range.mp (List.mem_filter.mp member).1) left
    have gaps : (reportedOn "missing-comma" line content).map shown =
        ((List.range text.length).filter (GapCountedAt gs ·)).map gap := by
      rw [reportedOn_gap short here]
      exact shown_places low (inside _) _ _ _ _
    refine ⟨lineGlyphs_char here, ?_, gaps, ?_, ?_, ?_⟩
    · rw [reportedOn_loose short here]
      exact shown_places low (inside _) _ _ _ _
    · intro counters
      rw [gaps]
      congr 1
      refine List.filter_congr fun c member => decide_eq_decide.mpr ?_
      rw [GapCountedAt, GapAt, (counters c (List.mem_range.mp member)).counted]
    · intro small c _
      refine countersFit_of_short (Nat.lt_of_le_of_lt ?_ small)
      rw [← lineGlyphs_length here]
      exact List.length_take_le' c gs
    · have last : text.length - 1 < UInt32.size := Nat.lt_of_le_of_lt (Nat.sub_le _ _) left
      rw [reportedOn_semi short here]
      split
      · exact congrArg (fun x => [x]) (shown_place low last _ _ _ _)
      · rfl
  · intro d member
    rcases scan_members member with extra | unclosed | ⟨line, l, here, found⟩
    · exact .inl extra
    · exact .inr (.inl unclosed)
    · have inside := (List.getElem?_eq_some_iff.mp here).1
      have fits := (fits_lines short).lines
      have number : d.line.toNat = line := by
        rw [lineRulings_line _ _ _ d found]
        exact UInt32.toNat_ofNat_of_lt' (by omega)
      exact .inr (.inr ⟨number ▸ inside, lineRulings_rule found⟩)

/-- Equal signs and values inside strings and comments, a string that goes on in the next line, and
a comment behind the last code of a line. -/
theorem rules_report_their_places_while_counters_fit_mixed :
    let content := "[x == '== 1' /* , */ 2 3\r\nf('\n == ') == // == ".toList
    content.length < UInt32.size ∧
    (lines content)[0]? = some "[x == '== 1' /* , */ 2 3\r".toList ∧
    (lines content)[2]? = some " == ') == // == ".toList ∧
    (reportedOn "eqeqeq" 0 content).map shown =
      [(0, 3, .warning, "Suggest using === instead of ==")] ∧
    (∀ c < 24, CountersFit ((lineGlyphs content 0 "[x == '== 1' /* , */ 2 3".toList).take c)) ∧
    (reportedOn "missing-comma" 0 content).map shown =
      [(0, 22, .warning, "Missing comma in array or object")] ∧
    (reportedOn "semi" 0 content).map shown = [(0, 23, .info, "Suggest adding semicolon")] ∧
    (reportedOn "eqeqeq" 2 content).map shown =
      [(2, 7, .warning, "Suggest using === instead of ==")] ∧
    (reportedOn "semi" 2 content).map shown = [(2, 15, .info, "Suggest adding semicolon")] := by
  intro content
  have short : content.length < UInt32.size := by decide
  have first : (lines content)[0]? = some "[x == '== 1' /* , */ 2 3\r".toList := by decide
  have third : (lines content)[2]? = some " == ') == // == ".toList := by decide
  obtain ⟨each, _⟩ := rules_report_their_places_while_counters_fit content short
  obtain ⟨_, loose, _, gap, small, semi⟩ := each 0 _ first
  obtain ⟨_, loose₂, _, _, _, semi₂⟩ := each 2 _ third
  have fits := small (by decide)
  exact ⟨short, first, third, loose.trans (by decide +kernel), fits,
    (gap fits).trans (by decide +kernel), semi.trans (by decide +kernel),
    loose₂.trans (by decide +kernel), semi₂.trans (by decide +kernel)⟩

theorem glyphs_all_code (p : Place) {cs : List Char}
    (plain : ∀ c ∈ cs, isQuote c = false ∧ c ≠ '/') : ∀ g ∈ glyphs .code p cs, g.label = .code := by
  induction cs generalizing p with
  | nil => simp [glyphs]
  | cons c rest ih =>
    obtain ⟨quote, slash⟩ := plain c List.mem_cons_self
    rw [glyphs_code (fun same => absurd same slash) (fun same => absurd same slash), quote]
    have later := ih (p.after c) (fun d member => plain d (List.mem_cons_of_mem c member))
    simpa using later

theorem codeCount_of_code {gs : List Glyph} (code : ∀ g ∈ gs, g.label = .code) (c : Char) :
    codeCount c gs = (gs.map Glyph.char).count c := by
  rw [codeCount, List.count_eq_countP, List.countP_map]
  refine List.countP_congr fun g member => ?_
  simp [code g member]

def crowdedHead (pairs : Nat) : List Char :=
  (List.replicate pairs ['\x7b', ')']).flatten ++ ['\x7b', '\x7b', '\x7b', '\x7b', '1']

/-- Braces, a parenthesis closed behind each but the last four, and then two values. -/
def crowded (pairs : Nat) : List Char := crowdedHead pairs ++ [' ', '2']

section

variable (n : Nat)

theorem crowdedHead_length : (crowdedHead n).length = 2 * n + 5 := by
  simp [crowdedHead, Nat.mul_comm]

theorem crowded_length : (crowded n).length = 2 * n + 7 := by
  simp [crowded, crowdedHead_length]

theorem mem_crowdedHead {c : Char} (member : c ∈ crowdedHead n) : c ∈ ['\x7b', ')', '1'] := by
  simp only [crowdedHead, List.mem_append, List.mem_flatten, List.mem_replicate] at member
  rcases member with ⟨_, ⟨_, rfl⟩, inside⟩ | inside <;>
    simp only [List.mem_cons, List.not_mem_nil, or_false] at inside ⊢ <;> tauto

theorem mem_crowded {c : Char} (member : c ∈ crowded n) : c ∈ ['\x7b', ')', '1', ' ', '2'] := by
  rcases List.mem_append.mp member with left | right
  · exact List.mem_append_left [' ', '2'] (mem_crowdedHead n left)
  · exact List.mem_append_right ['\x7b', ')', '1'] right

theorem count_crowdedHead (c : Char) : (crowdedHead n).count c =
    n * ['\x7b', ')'].count c + ['\x7b', '\x7b', '\x7b', '\x7b', '1'].count c := by
  rw [crowdedHead, List.count_append, List.count_flatten]
  simp

theorem crowded_value : (crowded n)[2 * n + 4]? = some '1' := by
  have length : (List.replicate n ['\x7b', ')']).flatten.length = 2 * n := by
    simp [Nat.mul_comm]
  rw [crowded, crowdedHead, List.append_assoc, List.getElem?_append_right (by omega), length,
    Nat.add_sub_cancel_left]
  rfl

theorem crowded_drop : (crowded n).drop (2 * n + 5) = [' ', '2'] :=
  List.drop_left' (crowdedHead_length n)

theorem crowded_blank {c : Nat} {b : Char} (here : (crowded n)[c]? = some b)
    (blank : isBlank b = true) : c = 2 * n + 5 := by
  rcases Nat.lt_or_ge c (2 * n + 5) with left | right
  · rw [crowded, List.getElem?_append_left (by rwa [crowdedHead_length])] at here
    have dark : ['\x7b', ')', '1'].all (fun d => !isBlank d) = true := by decide
    have seen := List.all_eq_true.mp dark b (mem_crowdedHead n (List.mem_of_getElem? here))
    rw [blank] at seen
    cases seen
  · rw [crowded, List.getElem?_append_right (by rwa [crowdedHead_length]),
      crowdedHead_length] at here
    obtain ⟨k, rfl⟩ := Nat.exists_eq_add_of_le right
    rw [Nat.add_sub_cancel_left] at here
    match k with
    | 0 => rfl
    | 1 =>
      cases here
      exact absurd blank (by decide)
    | k + 2 => cases here

theorem crowded_line : (lines (crowded n))[0]? = some (crowded n) ∧
    dropReturn (crowded n) = crowded n := by
  have clean : '\n' ∉ crowded n := fun member => absurd (mem_crowded n member) (by decide)
  have plain : '\r' ∉ crowded n := fun member => absurd (mem_crowded n member) (by decide)
  constructor
  · cases split : lines (crowded n) with
    | nil => exact absurd split (lines_ne_nil _)
    | cons l more =>
      rcases lines_eq_cons split with ⟨same, _⟩ | ⟨rest, same, _⟩
      · rw [same]
        rfl
      · exact absurd (same ▸ List.mem_append_right l List.mem_cons_self) clean
  · exact if_neg fun last => plain (List.mem_of_getLast? last)

theorem crowded_code : ∀ g ∈ lineGlyphs (crowded n) 0 (crowded n), g.label = .code := by
  intro g member
  refine glyphs_all_code ⟨0, 0⟩ ?_ g (List.mem_filter.mp (List.mem_of_mem_take member)).1
  have plain : ['\x7b', ')', '1', ' ', '2'].all (fun c => !isQuote c && c != '/') = true := by
    decide
  intro c inside
  simpa using List.all_eq_true.mp plain c (mem_crowded n inside)

theorem crowded_char : (lineGlyphs (crowded n) 0 (crowded n)).map Glyph.char = crowded n := by
  obtain ⟨here, whole⟩ := crowded_line n
  have chars := lineGlyphs_char here
  rwa [whole] at chars

theorem crowded_excess :
    let gs := (lineGlyphs (crowded n) 0 (crowded n)).take (2 * n + 5)
    excess '\x7b' '\x7d' gs = n + 4 ∧ excess '[' ']' gs = 0 ∧ Contained gs := by
  intro gs
  have code : ∀ g ∈ gs, g.label = .code := fun g member =>
    crowded_code n g (List.mem_of_mem_take member)
  have chars : gs.map Glyph.char = crowdedHead n := by
    rw [List.map_take, crowded_char]
    exact List.take_left' (crowdedHead_length n)
  have counts (c : Char) : codeCount c gs =
      n * ['\x7b', ')'].count c + ['\x7b', '\x7b', '\x7b', '\x7b', '1'].count c := by
    rw [codeCount_of_code code, chars, count_crowdedHead]
  have opened : codeCount '\x7b' gs = n + 4 := by simp [counts]
  have others : ∀ c ∈ ['\x7d', '[', ']'], codeCount c gs = 0 := by simp [counts]
  have closed := others '\x7d' (by decide)
  refine ⟨?_, ?_, .inl ?_⟩
  · rw [excess, opened, closed]
    push_cast
    omega
  · rw [excess, others '[' (by decide), others ']' (by decide)]
    rfl
  · rw [opened, closed]
    omega

theorem crowded_gap : GapAt (lineGlyphs (crowded n) 0 (crowded n)) (2 * n + 5) := by
  have value := crowded_value n
  have rest := crowded_drop n
  rw [← crowded_char n, List.getElem?_map] at value
  rw [← crowded_char n, ← List.map_drop] at rest
  obtain ⟨one, left, first⟩ := Option.map_eq_some_iff.mp value
  obtain ⟨gap, more, right, middle, last⟩ := List.map_eq_cons_iff.mp rest
  obtain ⟨two, rfl, second⟩ := List.map_eq_singleton_iff.mp last
  have here : (lineGlyphs (crowded n) 0 (crowded n))[2 * n + 5]? = some gap := by
    rw [← List.head?_drop, right]
    rfl
  have code : gap.label = .code := crowded_code n gap (List.mem_of_getElem? here)
  have seen : isBlank one.char = false ∧ EndsValue one.char ∧ isBlank gap.char = true ∧
      isBlank two.char = false ∧ StartsValue two.char := by
    rw [first, middle, second]
    decide +kernel
  obtain ⟨dark, ends, empty, next, starts⟩ := seen
  refine ⟨⟨by omega, ⟨gap, here, code, empty⟩, ⟨one, left, dark, ends⟩, ⟨two, ?_, starts⟩⟩,
    (crowded_excess n).2.2⟩
  rw [right, List.find?_cons_of_neg (by simp [empty]), List.find?_cons_of_pos (by simp [next])]
  rfl

/-- With 2 ^ 31 open braces the counter is negative, and the gap behind them is lost. -/
theorem crowded_silent (full : n + 4 = 0x80000000) :
    reportedOn "missing-comma" 0 (crowded n) = [] := by
  obtain ⟨here, whole⟩ := crowded_line n
  have short : (crowded n).length < UInt32.size := by
    rw [crowded_length, UInt32.size]
    omega
  rw [reportedOn_gap short here, whole, List.map_eq_nil_iff, List.filter_eq_nil_iff]
  intro c _ reported
  obtain ⟨⟨_, ⟨g, found, _, blank⟩, _⟩, counted⟩ := of_decide_eq_true reported
  have place : c = 2 * n + 5 := by
    refine crowded_blank n ?_ blank
    rw [← crowded_char, List.getElem?_map, found]
    rfl
  obtain ⟨braces, squares, _⟩ := crowded_excess n
  have sum : (n : Int) + 4 = 0x80000000 := by omega
  rw [place, Counted, braces, squares, sum] at counted
  revert counted
  decide

end

/-- 2 ^ 31 braces are open at the blank between the values, and no comma is missed there. -/
theorem crowded_line_loses_its_gap :
    (crowded 2147483644).length < UInt32.size ∧
    (lines (crowded 2147483644))[0]? = some (crowded 2147483644) ∧
    dropReturn (crowded 2147483644) = crowded 2147483644 ∧
    GapAt (lineGlyphs (crowded 2147483644) 0 (crowded 2147483644)) 4294967293 ∧
    reportedOn "missing-comma" 0 (crowded 2147483644) = [] := by
  obtain ⟨here, whole⟩ := crowded_line 2147483644
  refine ⟨?_, here, whole, crowded_gap 2147483644, crowded_silent 2147483644 rfl⟩
  rw [crowded_length]
  decide

end Script
end BufferLint.Scan
