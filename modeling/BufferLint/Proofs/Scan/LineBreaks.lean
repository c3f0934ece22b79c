import BufferLint.Scan.Analysis

/-! Line breaks. A carriage return in front of every newline changes nothing in an analysis: most
scanners drop it with the line break, and the one that keeps it looks for nothing that it could be
part of. -/
namespace BufferLint

namespace Text

/-- A text with a carriage return in front of every newline. -/
def returned (cs : List Char) : List Char :=
  cs.flatMap (fun c => if c = '\n' then ['\r', '\n'] else [c])

/- Its lines: every line but the last has a carriage return at its end. -/
def returnedLines : List (List Char) → List (List Char)
  | [] => []
  | [l] => [l]
  | l :: next :: more => (l ++ ['\r']) :: returnedLines (next :: more)

theorem returnedLines_cons (l : List Char) {more : List (List Char)} (others : more ≠ []) :
    returnedLines (l :: more) = (l ++ ['\r']) :: returnedLines more := by
  obtain ⟨next, rest, rfl⟩ := List.exists_cons_of_ne_nil others
  rfl

theorem addChar_returnedLines {c : Char} (other : c ≠ '\n') (ls : List (List Char)) :
    addChar c (returnedLines ls) = returnedLines (addChar c ls) := by
  unfold addChar
  rw [if_neg other, if_neg other]
  match ls with
  | [] | [_] | _ :: _ :: _ => rfl

theorem lines_returned (cs : List Char) : lines (returned cs) = returnedLines (lines cs) := by
  induction cs with
  | nil => rfl
  | cons c rest ih =>
    rw [returned, List.flatMap_cons, ← returned]
    split
    · rename_i newline
      rw [newline, lines_newline, returnedLines_cons [] (lines_ne_nil rest), ← ih]
      rfl
    · rename_i other
      rw [List.singleton_append, lines_cons, lines_cons, ih, addChar_returnedLines other]

theorem map_returnedLines {α : Type} {read : List Char → α} {ls : List (List Char)}
    (same : ∀ l ∈ ls, read (l ++ ['\r']) = read l) :
    (returnedLines ls).map read = ls.map read := by
  fun_induction returnedLines ls with
  | case1 | case2 => rfl
  | case3 l next more ih =>
    rw [List.map_cons, List.map_cons, same l List.mem_cons_self,
      ih (fun k member => same k (List.mem_cons_of_mem l member))]

theorem mem_of_mem_lines {content l : List Char} (member : l ∈ lines content) {c : Char}
    (inside : c ∈ l) : c ∈ content := by
  induction content generalizing l with
  | nil => simp_all
  | cons d rest ih =>
    rw [lines_cons] at member
    unfold addChar at member
    split at member
    · rcases List.mem_cons.mp member with rfl | later
      · cases inside
      · exact List.mem_cons_of_mem d (ih later inside)
    · split at member
      · simp_all
      · rename_i first more split
        rcases List.mem_cons.mp member with rfl | later
        · rcases List.mem_cons.mp inside with rfl | further
          · exact List.mem_cons_self
          · exact List.mem_cons_of_mem d (ih (split ▸ List.mem_cons_self) further)
        · exact List.mem_cons_of_mem d (ih (split ▸ List.mem_cons_of_mem _ later) inside)

theorem dropReturn_concat {l : List Char} (plain : '\r' ∉ l) :
    dropReturn (l ++ ['\r']) = dropReturn l := by
  have last : l.getLast? ≠ some '\r' := fun last => plain (List.mem_of_getLast? last)
  simp [dropReturn, last]

theorem dropReturn_lines {cs : List Char} (plain : '\r' ∉ cs) :
    (lines (returned cs)).map dropReturn = (lines cs).map dropReturn := by
  rw [lines_returned]
  refine map_returnedLines fun l member => dropReturn_concat ?_
  exact fun inside => plain (mem_of_mem_lines member inside)

theorem lines_returned_length (cs : List Char) :
    (lines (returned cs)).length = (lines cs).length := by
  have same : (returnedLines (lines cs)).map (fun _ => ()) = (lines cs).map (fun _ => ()) :=
    map_returnedLines (fun _ _ => rfl)
  rw [lines_returned]
  simpa using congrArg List.length same

theorem allBlank_returned (cs : List Char) : allBlank (returned cs) = allBlank cs := by
  have each : ∀ c, (if c = '\n' then ['\r', '\n'] else [c]).all isBlank = isBlank c := by
    intro c
    split
    · rename_i newline
      rw [newline]
      decide
    · simp
  simp only [allBlank, returned, List.all_flatMap, each]

end Text

namespace Scan

open BufferLint.Text

theorem Script.readLines_eq (content : List Char) : Script.readLines content =
    ((lines content).map dropReturn).zipIdx.foldl (fun pass l => Script.readLine pass l.2 l.1)
      {} := by
  rw [List.zipIdx_map, List.foldl_map]
  rfl

theorem Python.scan_eq (content : List Char) : Python.scan content =
    ((lines content).map dropReturn).zipIdx.flatMap (fun l => Python.lineFindings l.2 l.1) := by
  rw [List.zipIdx_map, List.flatMap_map]
  rfl

theorem isPrefixOf_concat {pattern : List Char} {c : Char} (other : c ∉ pattern) (l : List Char) :
    pattern.isPrefixOf (l ++ [c]) = pattern.isPrefixOf l := by
  induction pattern generalizing l with
  | nil => cases l <;> rfl
  | cons p more ih =>
    simp only [List.mem_cons, not_or] at other
    cases l with
    | nil => simp [List.isPrefixOf, Ne.symm other.1]
    | cons d rest => simp [List.isPrefixOf, ih other.2]

theorem Reduced.firstLoose_concat (l : List Char) (index : Nat) :
    Reduced.firstLoose (l ++ ['\r']) index = Reduced.firstLoose l index := by
  have plain : '\r' ∉ looseEqualityPattern := by decide
  induction l generalizing index with
  | nil => rfl
  | cons c rest ih =>
    have here : looseEquality.applies ⟨none, c :: (rest ++ ['\r']), false⟩ =
        looseEquality.applies ⟨none, c :: rest, false⟩ := isPrefixOf_concat plain (c :: rest)
    rw [List.cons_append, Reduced.firstLoose, Reduced.firstLoose, here, ih]

theorem Reduced.scan_eq (content : List Char) : Reduced.scan content =
    ((lines content).map (Reduced.firstLoose · 0)).zipIdx.flatMap
      (fun hit => (hit.1.map (looseEquality.report hit.2)).toList) := by
  rw [List.zipIdx_map, List.flatMap_map]
  rfl

theorem Reduced.scan_returned (content : List Char) :
    Reduced.scan (returned content) = Reduced.scan content := by
  rw [Reduced.scan_eq, Reduced.scan_eq, lines_returned,
    map_returnedLines (fun l _ => Reduced.firstLoose_concat l 0)]

/-- Line endings do not matter: a text without carriage returns and the same text with one in front
of every newline have the same findings, at the same places and in the same order, whatever its
length and whatever its type is, JSON apart. -/
theorem line_endings_do_not_matter (content : String) (type : FileType)
    (plain : '\r' ∉ content.toList) (other : type ≠ .json) :
    analyze (String.ofList (returned content.toList)) type = analyze content type := by
  have dropped := dropReturn_lines plain
  have script : Script.scan (returned content.toList) = Script.scan content.toList := by
    rw [Script.scan, Script.scan, Script.readLines_eq, Script.readLines_eq, dropped]
  have python : Python.scan (returned content.toList) = Python.scan content.toList := by
    rw [Python.scan_eq, Python.scan_eq, dropped]
  have reduced := Reduced.scan_returned content.toList
  have same : scanAs type (returned content.toList) = scanAs type content.toList := by
    cases type with
    | javascript | typescript => exact script
    | python => exact python
    | json => exact absurd rfl other
    | _ => exact reduced
  unfold analyze
  simp only [String.toList_ofList, allBlank_returned, lines_returned_length, reduced, same]

/-- A string that goes on behind an escaped line break, blanks and a value at the end of a line. -/
theorem line_endings_do_not_matter_mixed :
    '\r' ∉ "let a = [1 \n'\\\n' 2 == \n".toList ∧ FileType.typescript ≠ .json ∧
    analyze (String.ofList (returned "let a = [1 \n'\\\n' 2 == \n".toList)) .typescript =
      analyze "let a = [1 \n'\\\n' 2 == \n" .typescript ∧
    (analyze "let a = [1 \n'\\\n' 2 == \n" .typescript).map (fun d => (d.line, d.column, d.rule)) =
      [(0, 10, some "semi"), (2, 4, some "eqeqeq"), (2, 6, some "semi"),
        (0, 8, some "unclosed-bracket")] := by
  have plain : '\r' ∉ "let a = [1 \n'\\\n' 2 == \n".toList := by decide
  exact ⟨plain, by decide, line_endings_do_not_matter _ .typescript plain (by decide),
    by decide +kernel⟩

end Scan
end BufferLint
