import BufferLint.Proofs.Scan.Brackets
import BufferLint.Scan.Analysis

/-! Texts put together line by line. A script that leaves no string, comment or bracket open and the
script behind it are scanned as if each were alone; the other scanners keep nothing from one line to
the next. What is found in the second text is found as many lines further down as the first one
has. -/
namespace BufferLint

/-- The same finding some lines further down. -/
def Diagnostic.lower (n : Nat) (d : Diagnostic) : Diagnostic :=
  { d with line := d.line + UInt32.ofNat n }

theorem Diagnostic.lower_place (n line column : Nat) (message : String) (severity : Severity)
    (source rule : String) : (Diagnostic.place line column message severity source rule).lower n =
      .place (line + n) column message severity source rule := by
  simp only [lower, place, UInt32.ofNat_add]

def Diagnostic.OnFirst (n : Nat) (d : Diagnostic) : Prop := ∃ line < n, d.line = UInt32.ofNat line

theorem Diagnostic.lower_line {n m : Nat} {d : Diagnostic} (inside : d.OnFirst m)
    (small : n + m < UInt32.size) : (d.lower n).line.toNat = d.line.toNat + n := by
  obtain ⟨line, below, same⟩ := inside
  rw [lower, same, ← UInt32.ofNat_add, UInt32.toNat_ofNat_of_lt' (by omega),
    UInt32.toNat_ofNat_of_lt' (by omega)]

namespace Text

theorem lines_append (a b : List Char) : lines (a ++ '\n' :: b) = lines a ++ lines b := by
  induction a with
  | nil => rfl
  | cons c rest ih =>
    rw [List.cons_append, lines_cons, lines_cons, ih]
    unfold addChar
    split
    · rfl
    · cases split : lines rest with
      | nil => exact absurd split (lines_ne_nil rest)
      | cons l more => rfl

end Text

namespace Scan

open BufferLint.Text

section

variable {f : Nat → List Char → List Diagnostic} {n : Nat}

theorem flatMap_lower (each : ∀ line l, f (line + n) l = (f line l).map (Diagnostic.lower n))
    (ls : List (List Char)) : (ls.zipIdx n).flatMap (fun x => f x.2 x.1) =
      (ls.zipIdx.flatMap (fun x => f x.2 x.1)).map (Diagnostic.lower n) := by
  rw [List.zipIdx_eq_map_add, List.flatMap_map, List.map_flatMap]
  refine congrArg (List.flatMap · _) (funext fun x => ?_)
  change f (n + x.2) x.1 = (f x.2 x.1).map (Diagnostic.lower n)
  rw [Nat.add_comm]
  exact each x.2 x.1

theorem flatMap_onFirst (each : ∀ line l, ∀ d ∈ f line l, d.line = UInt32.ofNat line)
    {ls : List (List Char)} {d : Diagnostic}
    (member : d ∈ ls.zipIdx.flatMap (fun x => f x.2 x.1)) : d.OnFirst ls.length := by
  obtain ⟨x, indexed, found⟩ := List.mem_flatMap.mp member
  exact ⟨x.2, List.snd_lt_of_mem_zipIdx indexed, each x.2 x.1 d found⟩

end

theorem Python.lineFindings_lower (n line : Nat) (l : List Char) :
    Python.lineFindings (line + n) l = (Python.lineFindings line l).map (Diagnostic.lower n) := by
  unfold Python.lineFindings
  split <;> split <;> simp [Diagnostic.lower_place]

theorem Python.lineFindings_line (line : Nat) (l : List Char) :
    ∀ d ∈ Python.lineFindings line l, d.line = UInt32.ofNat line := by
  unfold Python.lineFindings
  split <;> split <;> simp [Diagnostic.place]

theorem Reduced.lineFindings_lower (n line : Nat) (l : List Char) :
    Reduced.lineFindings (line + n) l = (Reduced.lineFindings line l).map (Diagnostic.lower n) := by
  unfold Reduced.lineFindings
  cases Reduced.firstLoose l 0 <;> simp [PositionRule.report, Diagnostic.lower_place]

theorem Reduced.lineFindings_line (line : Nat) (l : List Char) :
    ∀ d ∈ Reduced.lineFindings line l, d.line = UInt32.ofNat line := by
  unfold Reduced.lineFindings
  cases Reduced.firstLoose l 0 <;> simp [PositionRule.report, Diagnostic.place]

theorem Python.scan_append (a b : List Char) : Python.scan (a ++ '\n' :: b) =
    Python.scan a ++ (Python.scan b).map (Diagnostic.lower (lines a).length) := by
  have below := flatMap_lower (f := fun line l => Python.lineFindings line (dropReturn l))
    (n := (lines a).length) (fun _ _ => Python.lineFindings_lower _ _ _) (lines b)
  rw [Python.scan, lines_append, List.zipIdx_append, List.flatMap_append, Nat.zero_add, below]
  rfl

theorem Reduced.scan_append (a b : List Char) : Reduced.scan (a ++ '\n' :: b) =
    Reduced.scan a ++ (Reduced.scan b).map (Diagnostic.lower (lines a).length) := by
  have below := flatMap_lower (f := Reduced.lineFindings) (n := (lines a).length)
    (fun _ _ => Reduced.lineFindings_lower _ _ _) (lines b)
  rw [Reduced.scan, lines_append, List.zipIdx_append, List.flatMap_append, Nat.zero_add, below]
  rfl

theorem findingsAt_lower (n line index : Nat) (cursor : Cursor) :
    findingsAt (line + n) index cursor =
      (findingsAt line index cursor).map (Diagnostic.lower n) := by
  simp only [findingsAt, List.map_map, Function.comp_def, PositionRule.report,
    Diagnostic.lower_place]

theorem findingsAt_line (line index : Nat) (cursor : Cursor) :
    ∀ d ∈ findingsAt line index cursor, d.line = UInt32.ofNat line := by
  intro d member
  obtain ⟨rule, _, rfl⟩ := List.mem_map.mp member
  rfl

theorem findingsAtEnd_lower (n line : Nat) (l : LineEnd) :
    findingsAtEnd (line + n) l = (findingsAtEnd line l).map (Diagnostic.lower n) := by
  simp only [findingsAtEnd, List.map_map, Function.comp_def, LineRule.report,
    Diagnostic.lower_place]

theorem findingsAtEnd_line (line : Nat) (l : LineEnd) :
    ∀ d ∈ findingsAtEnd line l, d.line = UInt32.ofNat line := by
  intro d member
  obtain ⟨rule, _, rfl⟩ := List.mem_map.mp member
  rfl

namespace Script

def Opening.lower (n : Nat) (o : Opening) : Opening := { o with line := o.line + n }

theorem unclosed_lower (n : Nat) (o : Opening) : unclosed (o.lower n) = (unclosed o).lower n :=
  (Diagnostic.lower_place n o.line o.column _ _ _ _).symm

def Pass.lower (n : Nat) (earlier : List Diagnostic) (pass : Pass) : Pass where
  region := pass.region
  openings := pass.openings.map (Opening.lower n)
  found := pass.found.map (Diagnostic.lower n) ++ earlier

section

variable (n line : Nat) (earlier : List Diagnostic) (pass : Pass)

@[simp] theorem Pass.lower_region : (pass.lower n earlier).region = pass.region := rfl

@[simp] theorem Pass.lower_inRegion (region : Region) :
    { pass.lower n earlier with region } = Pass.lower n earlier { pass with region } := rfl

theorem Pass.lower_report (ds : List Diagnostic) :
    (pass.lower n earlier).report (ds.map (Diagnostic.lower n)) =
      (pass.report ds).lower n earlier := by
  simp [Pass.report, Pass.lower]

theorem Pass.lower_pairBracket (column : Nat) (c : Char) :
    (pass.lower n earlier).pairBracket (line + n) column c =
      (pass.pairBracket line column c).lower n earlier := by
  unfold pairBracket
  split
  · simp [lower, Opening.lower]
  · split
    · cases openings : pass.openings with
      | nil => simp [lower, openings, extraClosing, Diagnostic.lower_place]
      | cons inner outer => simp [lower, openings]
    · rfl

theorem Pass.lower_readCode (column : Nat) (cursor : Cursor) (c : Char) :
    (pass.lower n earlier).readCode (line + n) column cursor c =
      (pass.readCode line column cursor c).lower n earlier := by
  rw [readCode, readCode, lower_pairBracket, findingsAt_lower, lower_report]

theorem readFrom_lower (cs : List Char) (column : Nat) (before : Option Char) (row : Row) :
    readFrom (line + n) cs column before row (pass.lower n earlier) =
      ((readFrom line cs column before row pass).1,
        (readFrom line cs column before row pass).2.lower n earlier) := by
  fun_induction readFrom line cs column before row pass with
  | case1 => rfl
  | case2 c column before row pass d region backslash =>
    rw [readFrom.eq_def]
    simp [region, backslash]
  | case3 c column before row pass d region backslash escaped rest ih =>
    rw [readFrom.eq_def]
    simpa [region, backslash] using ih
  | case4 c rest column before row pass d region plain closes ih =>
    rw [readFrom.eq_def]
    simpa [region, plain, closes] using ih
  | case5 c rest column before row pass d region plain stays ih =>
    rw [readFrom.eq_def]
    simpa [region, plain, stays] using ih
  | case6 column before row pass region rest ih =>
    rw [readFrom.eq_def]
    simpa [region] using ih
  | case7 c column before row pass region rest stays ih =>
    rw [readFrom.eq_def]
    simpa [region] using ih
  | case8 column before row pass region rest =>
    rw [readFrom.eq_def]
    simp [region]
  | case9 column before row pass region rest ih =>
    rw [readFrom.eq_def]
    simpa [region] using ih
  | case10 c column before row pass region rest row' quote apart block ih =>
    rw [readFrom.eq_def]
    simpa [region, quote] using ih
  | case11 c column before row pass region rest row' plain apart block ih =>
    rw [readFrom.eq_def]
    simpa [region, plain, Pass.lower_readCode] using ih

theorem readLine_lower (text : List Char) : readLine (pass.lower n earlier) (line + n) text =
    (readLine pass line text).lower n earlier := by
  unfold readLine
  rw [readFrom_lower]
  dsimp only
  rw [findingsAtEnd_lower]
  exact Pass.lower_report _ _ _ _

theorem readLines_lower (ls : List (List Char)) :
    (ls.zipIdx (line + n)).foldl (fun pass l => readLine pass l.2 (dropReturn l.1))
        (pass.lower n earlier) =
      ((ls.zipIdx line).foldl (fun pass l => readLine pass l.2 (dropReturn l.1)) pass).lower n
        earlier := by
  induction ls generalizing line pass with
  | nil => rfl
  | cons l more ih =>
    rw [List.zipIdx_cons, List.zipIdx_cons, List.foldl_cons, List.foldl_cons, readLine_lower,
      Nat.add_right_comm, ih]

end

theorem scan_append (a b : List Char) (code : (readLines a).region = .code)
    (closed : (readLines a).openings = []) :
    scan (a ++ '\n' :: b) = scan a ++ (scan b).map (Diagnostic.lower (lines a).length) := by
  have start : readLines a = Pass.lower (lines a).length (readLines a).found {} := by
    cases rest : readLines a
    rw [rest] at code closed
    cases code
    cases closed
    rfl
  have joined : readLines (a ++ '\n' :: b) =
      (readLines b).lower (lines a).length (readLines a).found := by
    have below := readLines_lower (lines a).length 0 (readLines a).found {} (lines b)
    rw [← start] at below
    rw [readLines, lines_append, List.zipIdx_append, List.foldl_append]
    exact below
  rw [scan, scan, scan, joined, closed]
  simp [Pass.lower, Function.comp_def, unclosed_lower]

structure Pass.OnFirst (n : Nat) (pass : Pass) : Prop where
  found : ∀ d ∈ pass.found, d.OnFirst n
  openings : ∀ o ∈ pass.openings, o.line < n

section

variable {n line : Nat} {pass : Pass}

theorem Pass.OnFirst.report (first : pass.OnFirst n) (inside : line < n) {ds : List Diagnostic}
    (here : ∀ d ∈ ds, d.line = UInt32.ofNat line) : (pass.report ds).OnFirst n where
  found d member := by
    rcases List.mem_append.mp member with new | old
    · exact ⟨line, inside, here d (List.mem_reverse.mp new)⟩
    · exact first.found d old
  openings := first.openings

theorem Pass.OnFirst.pairBracket (first : pass.OnFirst n) (inside : line < n) (column : Nat)
    (c : Char) : (pass.pairBracket line column c).OnFirst n := by
  unfold Pass.pairBracket
  split
  · exact ⟨first.found, by simpa [inside] using first.openings⟩
  split
  · have openings := first.openings
    split
    · refine ⟨?_, openings⟩
      intro d member
      rcases List.mem_cons.mp member with rfl | old
      · exact ⟨line, inside, rfl⟩
      · exact first.found d old
    · rename_i outer waits
      rw [waits] at openings
      exact ⟨first.found, fun o member => openings o (List.mem_cons_of_mem _ member)⟩
  · exact first

theorem Pass.OnFirst.readCode (first : pass.OnFirst n) (inside : line < n) (column : Nat)
    (cursor : Cursor) (c : Char) : (pass.readCode line column cursor c).OnFirst n :=
  (first.pairBracket inside column c).report inside (findingsAt_line line column cursor)

theorem readFrom_onFirst (inside : line < n) (cs : List Char) (column : Nat)
    (before : Option Char) (row : Row) (first : pass.OnFirst n) :
    (readFrom line cs column before row pass).2.OnFirst n := by
  fun_induction readFrom line cs column before row pass with
  | case1 | case2 | case8 => exact first
  | case3 | case5 | case7 =>
    rename_i ih
    exact ih first
  | case4 | case6 | case9 =>
    rename_i ih
    exact ih ⟨first.found, first.openings⟩
  | case10 c column before row pass region rest row' quote _ _ ih =>
    simp only [if_pos quote]
    exact ih ⟨first.found, first.openings⟩
  | case11 c column before row pass region rest row' plain _ _ ih =>
    simp only [if_neg plain]
    exact ih (first.readCode inside column _ c)

theorem readLine_onFirst (inside : line < n) (text : List Char) (first : pass.OnFirst n) :
    (readLine pass line text).OnFirst n :=
  (readFrom_onFirst inside text 0 none {} first).report inside (findingsAtEnd_line line _)

theorem readLines_onFirst (content : List Char) :
    (readLines content).OnFirst (lines content).length := by
  have start : ({} : Pass).OnFirst (lines content).length := by constructor <;> simp
  refine List.foldlRecOn (motive := Pass.OnFirst (lines content).length) _ _ start ?_
  intro pass first l member
  exact readLine_onFirst (List.snd_lt_of_mem_zipIdx member) _ first

theorem scan_onFirst {content : List Char} {d : Diagnostic} (member : d ∈ scan content) :
    d.OnFirst (lines content).length := by
  have first := readLines_onFirst content
  rcases List.mem_append.mp member with inline | left
  · exact first.found d (List.mem_reverse.mp inline)
  · obtain ⟨o, waits, rfl⟩ := List.mem_map.mp left
    exact ⟨o.line, first.openings o (List.mem_reverse.mp waits), rfl⟩

end

end Script

/-- Two texts put together, with a line break in between, are scanned one after the other: scripts
if the first one leaves no string, block comment or bracket open, everything else in any case. As
long as the lines of both can be told in 32 bits, the findings of the second text stand exactly as
many lines further down as the first one has. -/
theorem joined_texts_are_scanned_one_by_one (a b : List Char) :
    ((Script.readLines a).region = .code → (Script.readLines a).openings = [] →
      Script.scan (a ++ '\n' :: b) =
        Script.scan a ++ (Script.scan b).map (Diagnostic.lower (lines a).length)) ∧
    Python.scan (a ++ '\n' :: b) =
      Python.scan a ++ (Python.scan b).map (Diagnostic.lower (lines a).length) ∧
    Reduced.scan (a ++ '\n' :: b) =
      Reduced.scan a ++ (Reduced.scan b).map (Diagnostic.lower (lines a).length) ∧
    ((lines a).length + (lines b).length < UInt32.size →
      ∀ d, d ∈ Script.scan b ∨ d ∈ Python.scan b ∨ d ∈ Reduced.scan b →
        (d.lower (lines a).length).line.toNat = d.line.toNat + (lines a).length) := by
  refine ⟨Script.scan_append a b, Python.scan_append a b, Reduced.scan_append a b, ?_⟩
  intro small d member
  refine Diagnostic.lower_line ?_ small
  rcases member with script | python | reduced
  · exact Script.scan_onFirst script
  · refine flatMap_onFirst (f := fun line l => Python.lineFindings line (dropReturn l)) ?_ python
    exact fun line l => Python.lineFindings_line line (dropReturn l)
  · exact flatMap_onFirst Reduced.lineFindings_line reduced

/-- A string, a comment and a pair of brackets before the line break, open ones behind it. -/
theorem joined_texts_are_scanned_one_by_one_mixed :
    let a := "f('(') // [\n/* \x7b */ x == y;".toList
    let b := ")\nz == [1 2 `".toList
    (Script.readLines a).region = .code ∧ (Script.readLines a).openings = [] ∧
    Script.scan (a ++ '\n' :: b) = Script.scan a ++ (Script.scan b).map (Diagnostic.lower 2) ∧
    ((Script.scan a).map (fun d => (d.line, d.column, d.rule)) =
      [(0, 10, some "semi"), (1, 10, some "eqeqeq")]) ∧
    (Script.scan b).map (fun d => ((d.lower 2).line, d.column, d.rule)) =
      [(2, 0, some "extra-closing-bracket"), (2, 0, some "semi"), (3, 2, some "eqeqeq"),
        (3, 7, some "missing-comma"), (3, 9, some "missing-comma"),
        (3, 5, some "unclosed-bracket")] ∧
    ∀ d ∈ Script.scan b, (d.lower 2).line.toNat = d.line.toNat + 2 := by
  intro a b
  have code : (Script.readLines a).region = .code := by decide +kernel
  have closed : (Script.readLines a).openings = [] := by decide +kernel
  have short : (lines a).length = 2 ∧ (lines b).length = 2 := by decide +kernel
  obtain ⟨joined, _, _, exactly⟩ := joined_texts_are_scanned_one_by_one a b
  rw [short.1, short.2] at exactly
  rw [short.1] at joined
  exact ⟨code, closed, joined code closed, by decide +kernel, by decide +kernel,
    fun d member => exactly (by decide) d (.inl member)⟩

end Scan
end BufferLint
