import BufferLint.Proofs.Scan.LineBreaks
import BufferLint.Proofs.Scan.Rules

/-! The reduced analysis against the scanner of scripts. Both ask the same rule, one at the places
that are code and the other wherever it applies first; so the first place of the one is never behind
those of the other, and where all is code it is the same place. -/
namespace BufferLint.Scan

open BufferLint.Text

open Script (reportedOn)

def loosePlaces (l : List Char) : List Nat :=
  (List.range l.length).filter (fun i => looseEqualityPattern.isPrefixOf (l.drop i))

theorem loosePlaces_cons (c : Char) (rest : List Char) : loosePlaces (c :: rest) =
    (if looseEqualityPattern.isPrefixOf (c :: rest) then [0] else []) ++
      (loosePlaces rest).map (· + 1) := by
  unfold loosePlaces
  rw [List.length_cons, List.range_succ_eq_map, List.filter_cons, List.filter_map,
    List.drop_zero]
  split <;> rfl

theorem Reduced.firstLoose_eq (l : List Char) (index : Nat) :
    firstLoose l index = (loosePlaces l).head?.map (index + ·) := by
  induction l generalizing index with
  | nil => rfl
  | cons c rest ih =>
    have here : looseEquality.applies ⟨none, c :: rest, false⟩ =
        looseEqualityPattern.isPrefixOf (c :: rest) := rfl
    rw [firstLoose, here, loosePlaces_cons]
    split
    · rfl
    · rw [ih, List.nil_append, List.head?_map, Option.map_map]
      exact congrArg (Option.map · _) (funext fun i => by simp only [Function.comp_def]; omega)

theorem Reduced.firstLoose_dropReturn (l : List Char) (index : Nat) :
    firstLoose (dropReturn l) index = firstLoose l index := by
  unfold dropReturn
  split
  · rename_i last
    obtain ⟨front, rfl⟩ := List.getLast?_eq_some_iff.mp last
    rw [List.dropLast_concat, firstLoose_concat]
  · rfl

theorem Reduced.lineFindings_eq (line : Nat) (l : List Char) : lineFindings line l =
    ((loosePlaces (dropReturn l)).head?.map (looseEquality.report line)).toList := by
  rw [lineFindings, ← firstLoose_dropReturn, firstLoose_eq]
  simp

theorem loosePlaces_ordered (l : List Char) : (loosePlaces l).Pairwise (· < ·) :=
  List.pairwise_lt_range.filter _

theorem loosePlaces_lt {l : List Char} {i : Nat} (member : i ∈ loosePlaces l) : i < l.length :=
  List.mem_range.mp (List.mem_filter.mp member).1

namespace Script

section

variable {content l : List Char} {line : Nat}

/-- Of the places that hold the pattern a script scan reports those that are code. -/
theorem reportedOn_loosePlaces (short : content.length < UInt32.size)
    (here : (lines content)[line]? = some l) : reportedOn "eqeqeq" line content =
      ((loosePlaces (dropReturn l)).filter (fun i =>
        ((lineGlyphs content line (dropReturn l))[i]?).any (fun g => g.label = .code))).map
          (looseEquality.report line) := by
  have chars := lineGlyphs_char here
  have applies (i : Nat) :
      looseEquality.applies (cursorAt (lineGlyphs content line (dropReturn l)) i) =
        looseEqualityPattern.isPrefixOf ((dropReturn l).drop i) := by
    rw [← congrArg (List.drop i) chars, ← List.map_drop]
    rfl
  have known : looseEquality ∈ positionRules := by simp [positionRules]
  have reported := reportedOn_applies short here known
  simp only [applies] at reported
  rw [loosePlaces, List.filter_filter]
  exact reported

theorem reportedOn_inside (short : content.length < UInt32.size) {rule : String} {d : Diagnostic}
    (member : d ∈ reportedOn rule line content) : ∃ l, (lines content)[line]? = some l := by
  obtain ⟨found, number⟩ := List.mem_filter.mp member
  obtain ⟨k, inside, same⟩ := scan_onFirst (List.mem_filter.mp found).1
  have fits := (fits_lines short).lines
  rw [same, UInt32.toNat_ofNat_of_lt' (by omega), decide_eq_true_iff] at number
  exact ⟨_, List.getElem?_eq_getElem (number ▸ inside)⟩

theorem reportedOn_plain (short : content.length < UInt32.size)
    (here : (lines content)[line]? = some l)
    (plain : ∀ c ∈ content, isQuote c = false ∧ c ≠ '/') : reportedOn "eqeqeq" line content =
      (loosePlaces (dropReturn l)).map (looseEquality.report line) := by
  rw [reportedOn_loosePlaces short here]
  congr 1
  refine List.filter_eq_self.mpr fun i member => ?_
  have inside : i < (lineGlyphs content line (dropReturn l)).length :=
    (lineGlyphs_length here).symm ▸ loosePlaces_lt member
  have part : (lineGlyphs content line (dropReturn l))[i] ∈ lex content :=
    (List.mem_filter.mp (List.mem_of_mem_take (List.getElem_mem inside))).1
  simpa [List.getElem?_eq_getElem inside] using glyphs_all_code _ plain _ part

end

end Script

theorem Reduced.scan_onLine {content l : List Char} {line : Nat}
    (short : content.length < UInt32.size) (here : (lines content)[line]? = some l) :
    (Reduced.scan content).filter (fun d => d.line.toNat = line) =
      ((loosePlaces (dropReturn l)).head?.map (looseEquality.report line)).toList := by
  rw [scan, filter_flatMap_line Reduced.lineFindings_line short here, lineFindings_eq]

/-- The reduced analysis of a text loses no line with a loose equality: where the scanner reports
some, it reports one, which stands no further right than any of them. In a text without quotes and
slashes it reports the first one of each line and nothing else. -/
theorem reduced_analysis_keeps_loose_equalities (content : List Char)
    (short : content.length < UInt32.size) :
    (∀ line, reportedOn "eqeqeq" line content ≠ [] →
      ∃ e, (Reduced.scan content).filter (fun d => d.line.toNat = line) = [e] ∧
        e.rule = some "eqeqeq" ∧ ∀ d ∈ reportedOn "eqeqeq" line content, e.column ≤ d.column) ∧
    ('\x22' ∉ content → '\x27' ∉ content → '\x60' ∉ content → '/' ∉ content →
      Reduced.scan content = (List.range (lines content).length).filterMap
        (fun line => (reportedOn "eqeqeq" line content).head?)) := by
  constructor
  · intro line reports
    obtain ⟨d, member⟩ := List.exists_mem_of_ne_nil _ reports
    obtain ⟨l, here⟩ := Script.reportedOn_inside short member
    have reduced := Reduced.scan_onLine short here
    have ordered := loosePlaces_ordered (dropReturn l)
    rw [Script.reportedOn_loosePlaces short here] at member ⊢
    obtain ⟨j, place, _⟩ := List.mem_map.mp member
    cases places : loosePlaces (dropReturn l) with
    | nil => simp [places] at place
    | cons first more =>
      rw [places] at reduced ordered
      refine ⟨looseEquality.report line first, reduced, rfl, fun e found => ?_⟩
      obtain ⟨k, kept, rfl⟩ := List.mem_map.mp found
      have place := (List.mem_filter.mp kept).1
      have before : first ≤ k := by
        rcases List.mem_cons.mp place with rfl | later
        · exact Nat.le_refl _
        · exact Nat.le_of_lt ((List.pairwise_cons.mp ordered).1 k later)
      have inside := loosePlaces_lt (places ▸ place)
      have shorter := length_dropReturn_le l
      have left := (fits_lines short).columns l (List.mem_of_getElem? here)
      change UInt32.ofNat (first + 1) ≤ UInt32.ofNat (k + 1)
      rw [UInt32.le_iff_toNat_le, UInt32.toNat_ofNat_of_lt' (by omega),
        UInt32.toNat_ofNat_of_lt' (by omega)]
      omega
  · intro quote apostrophe backtick slash
    have plain : ∀ c ∈ content, isQuote c = false ∧ c ≠ '/' := by
      intro c member
      have other {d : Char} (none : d ∉ content) : c ≠ d := by
        rintro rfl
        exact none member
      simp [isQuote, other quote, other apostrophe, other backtick, other slash]
    have each : ∀ x ∈ (lines content).zipIdx, Reduced.lineFindings x.2 x.1 =
        (reportedOn "eqeqeq" x.2 content).head?.toList := by
      rintro ⟨l, line⟩ indexed
      have here := List.mk_mem_zipIdx_iff_getElem?.mp indexed
      rw [Script.reportedOn_plain short here plain, Reduced.lineFindings_eq, List.head?_map]
    rw [Reduced.scan, List.flatMap_congr each, List.filterMap_eq_flatMap_toList,
      List.range_eq_range', ← List.zipIdx_map_snd, List.flatMap_map]

/-- A string and a comment hide what the reduced analysis still sees; plain code hides nothing. -/
theorem reduced_analysis_keeps_loose_equalities_mixed :
    let content := "f(' == ', a == b) // == \nx\n/* == */ c == d == e".toList
    let bare := "a == b == c\r\nx === y\n == ".toList
    content.length < UInt32.size ∧ bare.length < UInt32.size ∧
    (∃ e, (Reduced.scan content).filter (fun d => d.line.toNat = 2) = [e] ∧
      e.rule = some "eqeqeq" ∧ ∀ d ∈ reportedOn "eqeqeq" 2 content, e.column ≤ d.column) ∧
    (reportedOn "eqeqeq" 2 content).map (fun d => d.column) = [11, 16] ∧
    '\x22' ∉ bare ∧ '\x27' ∉ bare ∧ '\x60' ∉ bare ∧ '/' ∉ bare ∧
    Reduced.scan bare = (List.range (lines bare).length).filterMap
      (fun line => (reportedOn "eqeqeq" line bare).head?) ∧
    (Reduced.scan bare).map (fun d => (d.line, d.column)) = [(0, 2), (2, 1)] := by
  intro content bare
  have short : content.length < UInt32.size := by decide
  have short' : bare.length < UInt32.size := by decide
  have quote : '\x22' ∉ bare := by decide
  have apostrophe : '\x27' ∉ bare := by decide
  have backtick : '\x60' ∉ bare := by decide
  have slash : '/' ∉ bare := by decide
  have columns : (reportedOn "eqeqeq" 2 content).map (fun d => d.column) = [11, 16] := by
    decide +kernel
  have reports : reportedOn "eqeqeq" 2 content ≠ [] := by
    intro silent
    simp [silent] at columns
  have kept := (reduced_analysis_keeps_loose_equalities content short).1 2 reports
  have same := (reduced_analysis_keeps_loose_equalities bare short').2 quote apostrophe backtick
    slash
  exact ⟨short, short', kept, columns, quote, apostrophe, backtick, slash, same,
    by decide +kernel⟩

end BufferLint.Scan
