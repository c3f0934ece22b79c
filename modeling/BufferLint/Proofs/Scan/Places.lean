import BufferLint.Proofs.Scan.Stray
import BufferLint.Scan.Analysis

/-! Where findings stand, of the scanners that look at each line by itself and of the check of JSON.
Whoever goes through the lines one by one need only be asked what he finds on a line. -/
namespace BufferLint.Scan

open BufferLint.Text

open Script (Place extraRule unclosedRule)

def spot (d : Diagnostic) : Place := ⟨d.line.toNat, d.column.toNat⟩

theorem spot_place {line column : Nat} (low : line < UInt32.size) (left : column < UInt32.size)
    (message : String) (severity : Severity) (source rule : String) :
    spot (.place line column message severity source rule) = ⟨line, column⟩ := by
  simp [spot, Diagnostic.place, Nat.mod_eq_of_lt low, Nat.mod_eq_of_lt left]

def Covers (ls : List (List Char)) (p : Place) : Prop :=
  ∃ l, ls[p.line]? = some l ∧ p.column < l.length

/-- A finding further on, or one for another rule. -/
def Follows (older newer : Diagnostic) : Prop :=
  (spot older).Before (spot newer) ∨ (spot older = spot newer ∧ older.rule ≠ newer.rule)

def Inline (d : Diagnostic) : Prop :=
  (d.severity = .error → d.rule = some extraRule) ∧ d.rule ≠ some unclosedRule

theorem inline_place {severity : Severity} {rule : String} (calm : severity ≠ .error)
    (other : rule ≠ unclosedRule) (line column : Nat) (message source : String) :
    Inline (.place line column message severity source rule) :=
  ⟨fun error => absurd error calm, fun same => other (Option.some.inj same)⟩

structure OnLine (line : Nat) (text : List Char) (ds : List Diagnostic) : Prop where
  ordered : ds.Pairwise Follows
  inside : ∀ d ∈ ds, (spot d).line = line ∧ (spot d).column < text.length
  rules : ∀ d ∈ ds, Inline d

/-- What is found on the lines from a line on. -/
inductive ByLine : Nat → List (List Char) → List Diagnostic → Prop where
  | nil (line : Nat) : ByLine line [] []
  | cons {line : Nat} {l : List Char} {more : List (List Char)} {here later : List Diagnostic}
      (first : OnLine line l here) (others : ByLine (line + 1) more later) :
      ByLine line (l :: more) (here ++ later)

/-- Lines and columns that can be told in 32 bits. -/
structure Fits (line : Nat) (ls : List (List Char)) : Prop where
  lines : line + ls.length ≤ UInt32.size
  columns : ∀ l ∈ ls, l.length < UInt32.size

section

variable {line : Nat} {l : List Char} {ls : List (List Char)} {ds : List Diagnostic}

theorem OnLine.nil (line : Nat) (text : List Char) : OnLine line text [] := by
  constructor <;> simp

theorem OnLine.single {d : Diagnostic} (here : (spot d).line = line)
    (inside : (spot d).column < l.length) (inline : Inline d) : OnLine line l [d] := by
  constructor <;> simp [here, inside, inline]

theorem mem_guarded {c : Prop} [Decidable c] {d e : Diagnostic} :
    e ∈ (if c then [d] else []) ↔ c ∧ e = d := by
  split <;> simp [*]

theorem OnLine.guarded {c : Prop} [Decidable c] {d : Diagnostic}
    (found : c → ((spot d).line = line ∧ (spot d).column < l.length) ∧ Inline d) :
    OnLine line l (if c then [d] else []) := by
  split
  · rename_i holds
    exact .single (found holds).1.1 (found holds).1.2 (found holds).2
  · exact .nil line l

theorem OnLine.append {here later : List Diagnostic} (first : OnLine line l here)
    (second : OnLine line l later) (across : ∀ d ∈ here, ∀ e ∈ later, Follows d e) :
    OnLine line l (here ++ later) where
  ordered := List.pairwise_append.mpr ⟨first.ordered, second.ordered, across⟩
  inside d member := (List.mem_append.mp member).elim (first.inside d) (second.inside d)
  rules d member := (List.mem_append.mp member).elim (first.rules d) (second.rules d)

theorem OnLine.wider {text : List Char} (found : OnLine line text ds)
    (shorter : text.length ≤ l.length) : OnLine line l ds where
  ordered := found.ordered
  inside d member :=
    ⟨(found.inside d member).1, Nat.lt_of_lt_of_le (found.inside d member).2 shorter⟩
  rules := found.rules

theorem length_dropReturn_le (l : List Char) : (dropReturn l).length ≤ l.length := by
  unfold dropReturn
  split
  · simp
  · exact Nat.le_refl _

theorem ByLine.inside (found : ByLine line ls ds) : ∀ d ∈ ds, Inline d ∧ line ≤ (spot d).line ∧
    ∃ l, ls[(spot d).line - line]? = some l ∧ (spot d).column < l.length := by
  induction found with
  | nil => simp
  | @cons line l more here later first others ih =>
    intro d member
    rcases List.mem_append.mp member with now | after
    · obtain ⟨same, inside⟩ := first.inside d now
      refine ⟨first.rules d now, by omega, l, ?_, inside⟩
      simp [same]
    · obtain ⟨inline, behind, text, found, inside⟩ := ih d after
      refine ⟨inline, by omega, text, ?_, inside⟩
      have next : (spot d).line - line = (spot d).line - (line + 1) + 1 := by omega
      rw [next, List.getElem?_cons_succ]
      exact found

theorem ByLine.ordered (found : ByLine line ls ds) : ds.Pairwise Follows := by
  induction found with
  | nil => exact .nil
  | @cons line l more here later first others ih =>
    refine List.pairwise_append.mpr ⟨first.ordered, ih, ?_⟩
    intro d now e after
    have same := (first.inside d now).1
    have behind := (others.inside e after).2.1
    exact .inl (.inl (by omega))

theorem byLine_flatMap {f : Nat → List Char → List Diagnostic}
    (each : ∀ line l, line < UInt32.size → l.length < UInt32.size → OnLine line l (f line l))
    (fits : Fits line ls) : ByLine line ls ((ls.zipIdx line).flatMap (fun x => f x.2 x.1)) := by
  induction ls generalizing line with
  | nil => exact .nil line
  | cons l more ih =>
    obtain ⟨lines, columns⟩ := fits
    rw [List.length_cons] at lines
    refine .cons (each line l (by omega) (columns l List.mem_cons_self)) (ih ⟨by omega, ?_⟩)
    exact fun k member => columns k (List.mem_cons_of_mem l member)

theorem length_le_of_mem_lines {content : List Char} (member : l ∈ lines content) :
    l.length ≤ content.length := by
  induction content generalizing l with
  | nil => simp_all
  | cons c rest ih =>
    rw [lines_cons] at member
    unfold addChar at member
    split at member
    · rcases List.mem_cons.mp member with rfl | later
      · exact Nat.zero_le _
      · exact Nat.le_succ_of_le (ih later)
    · split at member
      · simp_all
      · rename_i first more split
        rcases List.mem_cons.mp member with rfl | later
        · exact Nat.succ_le_succ (ih (split ▸ List.mem_cons_self))
        · exact Nat.le_succ_of_le (ih (split ▸ List.mem_cons_of_mem _ later))

theorem fits_lines {content : List Char} (short : content.length < UInt32.size) :
    Fits 0 (lines content) := by
  constructor
  · have newlines := List.count_le_length (a := '\n') (l := content)
    rw [lines_length]
    omega
  · exact fun l member => Nat.lt_of_le_of_lt (length_le_of_mem_lines member) short

end

theorem lastColumn_lt {l : List Char} (nonempty : l ≠ []) : lastColumn l < l.length := by
  have positive := List.length_pos_iff.mpr nonempty
  unfold lastColumn
  omega

theorem spot_lastColumn {line : Nat} {l : List Char} (low : line < UInt32.size)
    (left : l.length < UInt32.size) (nonempty : l ≠ []) (message : String) (severity : Severity)
    (source rule : String) :
    spot (.place line (lastColumn l) message severity source rule) = ⟨line, lastColumn l⟩ :=
  spot_place low (Nat.lt_trans (lastColumn_lt nonempty) left) message severity source rule

theorem Python.onLine {line : Nat} {l : List Char} (low : line < UInt32.size)
    (left : l.length < UInt32.size) : OnLine line l (Python.lineFindings line l) := by
  have start (rule message : String) :
      spot (.place line 0 message .warning localSource rule) = ⟨line, 0⟩ :=
    spot_place low (by decide) _ _ _ _
  have indented : OnLine line l (if Python.mixedIndentation l then
      [.place line 0 "Mixed tabs and spaces" .warning localSource "mixed-indentation"]
      else []) := by
    refine .guarded fun mixed => ⟨?_, ?_⟩
    · have nonempty : l ≠ [] := by
        rintro rfl
        cases mixed
      simp [start, List.length_pos_iff.mpr nonempty]
    · exact inline_place (by decide) (by decide) _ _ _ _
  have nonempty (missing : Python.missingComma l = true) : l ≠ [] := by
    rintro rfl
    cases missing
  have listed : OnLine line l (if Python.missingComma l then
      [.place line (lastColumn l) "Missing comma in list or tuple" .warning localSource
        "missing-comma"] else []) := by
    refine .guarded fun missing => ⟨?_, ?_⟩
    · simp [spot_lastColumn low left (nonempty missing), lastColumn_lt (nonempty missing)]
    · exact inline_place (by decide) (by decide) _ _ _ _
  refine indented.append listed ?_
  intro d first e second
  obtain ⟨_, rfl⟩ := mem_guarded.mp first
  obtain ⟨missing, rfl⟩ := mem_guarded.mp second
  unfold Follows
  rw [start, spot_lastColumn low left (nonempty missing)]
  by_cases single : lastColumn l = 0
  · refine .inr ⟨by rw [single], ?_⟩
    simp [Diagnostic.place]
  · exact .inl (.inr ⟨rfl, Nat.pos_of_ne_zero single⟩)

theorem Reduced.firstLoose_lt {l : List Char} {start index : Nat}
    (found : Reduced.firstLoose l start = some index) :
    start ≤ index ∧ index + 3 < start + l.length := by
  induction l generalizing start with
  | nil => cases found
  | cons c rest ih =>
    unfold Reduced.firstLoose at found
    split at found
    · rename_i loose
      cases found
      have long := (List.isPrefixOf_iff_prefix.mp loose).length_le
      simp only [looseEqualityPattern, List.length_cons, List.length_nil] at long ⊢
      omega
    · have later := ih found
      rw [List.length_cons]
      omega

theorem Reduced.onLine {line : Nat} {l : List Char} (low : line < UInt32.size)
    (left : l.length < UInt32.size) : OnLine line l (Reduced.lineFindings line l) := by
  unfold Reduced.lineFindings
  cases first : Reduced.firstLoose l 0 with
  | none => exact .nil line l
  | some index =>
    have inside := (Reduced.firstLoose_lt first).2
    have here : spot (looseEquality.report line index) = ⟨line, index + 1⟩ := by
      change spot (.place line (index + 1) _ _ _ _) = _
      exact spot_place low (by omega) _ _ _ _
    refine .single ?_ ?_ ?_
    · rw [here]
    · rw [here]
      dsimp only
      omega
    · exact inline_place (by decide) (by decide) _ _ _ _

def MayEndLine (d : Diagnostic) : Prop := d.rule = some "json-syntax" ∨ d.rule = some "large-file"

/-- What every analysis of a text keeps to. -/
structure Placed (ls : List (List Char)) (ds : List Diagnostic) : Prop where
  inside : ∀ d ∈ ds, ∃ l, ls[d.line.toNat]? = some l ∧ d.column.toNat ≤ l.length ∧
    (¬ MayEndLine d → d.column.toNat < l.length)
  errors : ∀ d ∈ ds, d.severity = .error → d.rule = some "extra-closing-bracket" ∨
    d.rule = some "unclosed-bracket" ∨ d.rule = some "json-syntax"
  apart : ds.Pairwise (fun d e => (d.line, d.column, d.rule) ≠ (e.line, e.column, e.rule))

section

variable {ls : List (List Char)} {ds : List Diagnostic}

theorem Placed.nil (ls : List (List Char)) : Placed ls [] := by
  constructor <;> simp

theorem Placed.append {later : List Diagnostic} (first : Placed ls ds) (second : Placed ls later)
    (across : ∀ d ∈ ds, ∀ e ∈ later, d.rule ≠ e.rule) : Placed ls (ds ++ later) where
  inside d member := (List.mem_append.mp member).elim (first.inside d) (second.inside d)
  errors d member := (List.mem_append.mp member).elim (first.errors d) (second.errors d)
  apart := by
    refine List.pairwise_append.mpr ⟨first.apart, second.apart, ?_⟩
    intro d here e there same
    exact across d here e there (congrArg (fun key => key.2.2) same)

theorem Placed.single {d : Diagnostic} {l : List Char} (line : ls[(spot d).line]? = some l)
    (column : (spot d).column ≤ l.length) (may : MayEndLine d)
    (error : d.severity = .error → d.rule = some "json-syntax") : Placed ls [d] where
  inside e member := by
    rw [List.mem_singleton.mp member]
    exact ⟨l, line, column, fun other => absurd may other⟩
  errors e member severity := by
    rw [List.mem_singleton.mp member] at severity ⊢
    exact .inr (.inr (error severity))
  apart := List.pairwise_singleton _ _

theorem apart_of_ordered {order : Diagnostic → Diagnostic → Prop}
    (ordered : ds.Pairwise order)
    (differ : ∀ d e, order d e → ¬ (spot d = spot e ∧ d.rule = e.rule)) :
    ds.Pairwise (fun d e => (d.line, d.column, d.rule) ≠ (e.line, e.column, e.rule)) := by
  refine ordered.imp ?_
  intro d e before same
  refine differ d e before ?_
  simp only [Prod.mk.injEq] at same
  exact ⟨by rw [spot, spot, same.1, same.2.1], same.2.2⟩

theorem ByLine.placed (found : ByLine 0 ls ds) : Placed ls ds where
  inside d member := by
    obtain ⟨_, _, l, line, inside⟩ := found.inside d member
    exact ⟨l, line, Nat.le_of_lt inside, fun _ => inside⟩
  errors d member severity := .inl ((found.inside d member).1.1 severity)
  apart := by
    refine apart_of_ordered found.ordered ?_
    rintro d e (before | ⟨_, differ⟩) ⟨same, rule⟩
    · exact before.ne same
    · exact differ rule

end

theorem JsonSyntax.charactersBefore_le (offset : Nat) (l : List Char) (position : Nat) :
    JsonSyntax.charactersBefore offset l position ≤ l.length := by
  induction l generalizing position with
  | nil => exact Nat.le_refl 0
  | cons c rest ih =>
    unfold JsonSyntax.charactersBefore
    split
    · exact Nat.succ_le_succ (ih _)
    · exact Nat.zero_le _

section

variable {content : List Char}

theorem JsonSyntax.position_inside (content : List Char) (line byteColumn : Nat) :
    ∃ l, (lines content)[(JsonSyntax.position content line byteColumn).1]? = some l ∧
      (JsonSyntax.position content line byteColumn).2 ≤ l.length := by
  have positive := List.length_pos_iff.mpr (lines_ne_nil content)
  have within : min (line - 1) ((lines content).length - 1) < (lines content).length := by omega
  refine ⟨_, List.getElem?_eq_getElem within, ?_⟩
  unfold JsonSyntax.position
  dsimp only
  rw [List.getElem?_eq_getElem within, Option.getD_some]
  exact JsonSyntax.charactersBefore_le _ _ _

theorem JsonSyntax.scan_placed (short : content.length < UInt32.size) :
    Placed (lines content) (JsonSyntax.scan content) := by
  unfold JsonSyntax.scan
  cases Json.parse (String.ofList content) with
  | ok _ => exact .nil _
  | error e =>
    obtain ⟨l, line, column⟩ := JsonSyntax.position_inside content e.line e.column
    change Placed _ [.place (JsonSyntax.position content e.line e.column).1
      (JsonSyntax.position content e.line e.column).2 _ _ _ _]
    have fits := fits_lines short
    have low := (List.getElem?_eq_some_iff.mp line).1
    have left := fits.columns l (List.mem_of_getElem? line)
    have small : (JsonSyntax.position content e.line e.column).1 < UInt32.size := by
      have := fits.lines
      omega
    have place := spot_place small (Nat.lt_of_le_of_lt column left)
      ("JSON syntax error: " ++ e.message) .error "JSON Parser" "json-syntax"
    refine .single (l := l) ?_ ?_ (.inl rfl) (fun _ => rfl)
    · rw [place]
      exact line
    · rw [place]
      exact column

theorem Python.scan_placed (short : content.length < UInt32.size) :
    Placed (lines content) (Python.scan content) := by
  refine ByLine.placed (byLine_flatMap (f := fun line l => Python.lineFindings line (dropReturn l))
    ?_ (fits_lines short))
  intro line l low left
  have shorter := length_dropReturn_le l
  exact (Python.onLine low (by omega)).wider shorter

theorem Reduced.scan_byLine (short : content.length < UInt32.size) :
    ByLine 0 (lines content) (Reduced.scan content) :=
  byLine_flatMap (fun _ _ low left => Reduced.onLine low left) (fits_lines short)

theorem Reduced.scan_rule {d : Diagnostic} (member : d ∈ Reduced.scan content) :
    d.rule = some "eqeqeq" := by
  obtain ⟨x, _, found⟩ := List.mem_flatMap.mp member
  obtain ⟨index, _, rfl⟩ := Option.map_eq_some_iff.mp (Option.mem_toList.mp found)
  rfl

theorem Reduced.notice_placed (short : content.length < UInt32.size) :
    Placed (lines content) (Reduced.notice :: Reduced.scan content) := by
  obtain ⟨first, more, split⟩ := List.exists_cons_of_ne_nil (lines_ne_nil content)
  have notice : Placed (lines content) [Reduced.notice] := by
    refine .single (l := first) ?_ (Nat.zero_le _) (.inr rfl) nofun
    rw [split]
    rfl
  refine notice.append (Reduced.scan_byLine short).placed ?_
  intro d here e there
  rw [List.mem_singleton.mp here, Reduced.scan_rule there]
  decide

end

end BufferLint.Scan
