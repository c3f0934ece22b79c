import BufferLint.Proofs.Check.Counts
import BufferLint.Proofs.Command.Printing
import BufferLint.Proofs.Json.Strict
import BufferLint.Proofs.Service.Reading

/-! Which positions are shown: all but the last that can be stored, each with the number one higher.
Of what has the last one nothing can be told. -/
namespace BufferLint

open Command (line)
open Command.Report (lineRow row statistics titled)
open Json (InRange largestWord)

namespace Service

def items (s : Service) (answer : Json) : List Json :=
  ((answer.field? s.listField).bind Json.array?).getD []

/-- At this place the item has a position, counted from zero, that is the last one or one that is
too large to be stored. -/
def Overflows (s : Service) (path : List String) (item : Json) : Prop :=
  s.layout.first = 0 ∧ ∃ n, 0xffffffff ≤ n ∧ n ≤ largestWord ∧ Leads path item (.nat n)

theorem Position.last_iff {s : Service} {path : List String} {item : Json} {n : Nat}
    (position : Position s.layout.first path item n) :
    n = 0xffffffff ↔ s.Overflows path item := by
  have first : s.layout.first ≤ 1 := by cases s <;> decide
  cases position with
  | word k fits found =>
    constructor
    · intro same
      exact ⟨by omega, k, by omega, fits, found⟩
    · rintro ⟨zero, m, large, _, found'⟩
      cases found.unique found'
      omega
  | other none =>
    constructor
    · intro same
      omega
    · rintro ⟨_, m, _, fits, found⟩
      exact absurd found (none m fits)

theorem items_inRange {s : Service} {body : Text.Bytes} {answer : Json}
    (read : Json.parseBytes body = .ok answer) : ∀ item ∈ s.items answer, InRange item := by
  unfold items
  cases found : answer.field? s.listField with
  | none => simp
  | some value =>
    have inRange := (Json.parseBytes_inRange read).field? found
    cases inRange with
    | array each => exact each
    | null | bool | number | string | object => simp [Json.array?]

/-- Of an answer that is read, a finding is shown with exactly the numbers one higher than those
stored, and so is a line that is counted, unless a position is the last that can be stored: then it
cannot be shown at all. That it is only where the service counts from zero and the item has a number
there that is as large, or too large to be stored. -/
theorem positions_are_shown_exactly_unless_last (s : Service) (body : Text.Bytes)
    (ds : List Diagnostic) (accepted : s.readResponse body = .ok ds) :
    (∀ d ∈ ds, d.text =
      if d.line = Diagnostic.last ∨ d.column = Diagnostic.last then none else some d.exactText) ∧
    ((∃ before, statistics (Stats.of ds) =
        before ++ titled "Lines:" ((Stats.of ds).byLine.map lineRow)) ∧
      (∀ r ∈ (Stats.of ds).byLine, lineRow r =
        if r.1 = Diagnostic.last then none else line (row (Diagnostic.exactly r.1) r.2)) ∧
      ∀ number, number ∈ (Stats.of ds).byLine.map Prod.fst ↔ number ∈ ds.map Diagnostic.line) ∧
    ∃ answer, Json.parseBytes body = .ok answer ∧
      List.Forall₂ (fun item (d : Diagnostic) =>
        (d.line = Diagnostic.last ↔ s.Overflows s.layout.line item) ∧
        (d.column = Diagnostic.last ↔ s.Overflows s.layout.column item)) (s.items answer) ds := by
  have answered : ∃ answer, Json.parseBytes body = .ok answer ∧ s.readItems answer = ds := by
    unfold readResponse at accepted
    split at accepted
    · rename_i answer read
      exact ⟨answer, read, by simpa using accepted⟩
    · cases accepted
  obtain ⟨answer, read, rfl⟩ := answered
  refine ⟨fun d _ => d.text_eq, ⟨⟨_, rfl⟩, fun r _ => Command.Report.lineRow_eq r, ?_⟩, answer,
    read, ?_⟩
  · intro number
    rw [Stats.of_eq, Tally.keys_of]
  · change List.Forall₂ _ (s.items answer) ((s.items answer).map s.readItem)
    rw [List.forall₂_map_right_iff, List.forall₂_same]
    intro item member
    have reads := readItem_reads s (items_inRange read item member)
    constructor
    · rw [← reads.line.last_iff]
      exact UInt32.toNat_inj.symm
    · rw [← reads.column.last_iff]
      exact UInt32.toNat_inj.symm

/-- An answer with two findings, one in the last line that can be stored and one in the line
before. -/
def edge : Json :=
  .object [("diagnostics", .array [.object [("start", .object [("line", .nat 0xffffffff)])],
    .object [("start", .object [("line", .nat 0xfffffffe)])]])]

theorem readResponse_edge : typescript.readResponse (Text.utf8 (Json.pretty edge)) =
    .ok [⟨0xffffffff, 0, "", .warning, "TypeScript", none⟩,
      ⟨0xfffffffe, 0, "", .warning, "TypeScript", none⟩] := by
  have item : ∀ n : Nat, n ≤ largestWord →
      Json.Canonical 2 (.object [("start", .object [("line", .nat n)])]) := by
    intro n fits
    refine .object (List.pairwise_singleton _ _) (List.forall_mem_singleton.mpr ?_)
    exact .object (List.pairwise_singleton _ _) (List.forall_mem_singleton.mpr (.nat fits))
  have canonical : Json.Canonical 4 edge := by
    refine .object (List.pairwise_singleton _ _) (List.forall_mem_singleton.mpr (.array ?_))
    exact List.forall_mem_cons.mpr ⟨item _ (by decide),
      List.forall_mem_singleton.mpr (item _ (by decide))⟩
  have read : Json.parseBytes (Text.utf8 (Json.pretty edge)) = .ok edge :=
    Json.parse_pretty canonical (by decide)
  rw [readResponse, read]
  rfl

/-- A finding in the last line that can be stored cannot be shown, nor can its line be counted. -/
theorem last_line_is_not_shown :
    ∃ first second, typescript.readResponse (Text.utf8 (Json.pretty edge)) = .ok [first, second] ∧
      first.text = none ∧ first.exactText = "4294967296:1 warning " ∧
      (Stats.of [first, second]).byLine.map lineRow =
        [line "   4294967295           1", none] ∧
      (Stats.of [first, second]).byLine.map (fun r => line (row (Diagnostic.exactly r.1) r.2)) =
        [line "   4294967295           1", line "   4294967296           1"] :=
  ⟨_, _, readResponse_edge, by decide, by decide, by decide, by decide⟩

theorem positions_are_shown_exactly_unless_last_edge :
    ∃ first second, typescript.readResponse (Text.utf8 (Json.pretty edge)) = .ok [first, second] ∧
      first.text = none ∧ second.text = some second.exactText := by
  obtain ⟨texts, _, _⟩ := positions_are_shown_exactly_unless_last _ _ _ readResponse_edge
  obtain ⟨late, early, _⟩ := List.forall_mem_cons.mp texts |>.imp_right List.forall_mem_cons.mp
  exact ⟨_, _, readResponse_edge, late.trans (if_pos (by decide)), early.trans (if_neg (by decide))⟩

end Service
end BufferLint
