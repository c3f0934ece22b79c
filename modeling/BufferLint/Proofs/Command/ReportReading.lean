import BufferLint.Command.Report
import BufferLint.Proofs.Check.Counts
import BufferLint.Proofs.Diagnostic.Decoding
import BufferLint.Proofs.Json.Strict
import Mathlib.Data.List.Forall2

/-! The report that is printed as JSON gives back the findings it was made of. -/
namespace BufferLint

open Json (Canonical Sorted largestWord)

theorem Diagnostic.toJson_canonical (d : Diagnostic) : Canonical 1 d.toJson := by
  obtain ⟨fields, same, sorted, _, _⟩ := d.written_toJson
  have word : ∀ n : UInt32, Canonical 0 (.nat n.toNat) := by
    intro n
    have small := n.toNat_lt
    exact .nat (by simp only [largestWord]; omega)
  rw [same]
  refine .object sorted ?_
  rw [toJson, Json.object.injEq] at same
  rw [← same]
  intro field member
  simp only [List.mem_append, List.mem_cons, List.not_mem_nil, or_false, Option.mem_toList,
    Option.map_eq_some_iff] at member
  rcases member with ((rfl | rfl | rfl) | ⟨rule, _, rfl⟩) | rfl | rfl
  · exact word d.column
  · exact word d.line
  · exact .string d.message
  · exact .string rule
  · exact .string d.severity.word
  · exact .string d.source

theorem Tally.toJson_canonical {κ : Type} {t : Tally κ} (fits : t.Fits) (name : κ → String) :
    Canonical 1 (t.toJson name) := by
  obtain ⟨entries, same, sorted⟩ :=
    Json.sorted_ofFields (t.map (fun row => (name row.1, Json.nat row.2)))
  obtain ⟨others, also, members, _⟩ :=
    Json.ofFields_eq (t.map (fun row => (name row.1, Json.nat row.2)))
  rw [same, Json.object.injEq] at also
  subst also
  rw [toJson, same]
  refine .object sorted ?_
  intro field member
  obtain ⟨row, counted, rfl⟩ := List.mem_map.mp (members field member)
  exact .nat (fits row counted)

theorem Stats.toJson_canonical {s : Stats} (fits : s.Fits) : Canonical 2 s.toJson := by
  have sorted : ["by_line", "by_rule", "by_source", "errors", "infos", "total",
      "warnings"].Pairwise (· < ·) := by decide
  refine .object sorted ?_
  intro field member
  simp only [List.mem_cons, List.not_mem_nil, or_false] at member
  rcases member with rfl | rfl | rfl | rfl | rfl | rfl | rfl
  · exact Tally.toJson_canonical fits.byLine (fun line => toString line.toNat)
  · exact Tally.toJson_canonical fits.byRule _
  · exact Tally.toJson_canonical fits.bySource _
  · exact .nat fits.errors
  · exact .nat fits.infos
  · exact .nat fits.total
  · exact .nat fits.warnings

namespace Command.Report

theorem toJson_canonical (r : Report) (fits : ∀ s ∈ r.stats, s.Fits) : Canonical 3 r.toJson := by
  have sorted : Sorted ([("diagnostics", Diagnostic.listToJson r.diagnostics),
      ("path", .string r.path)] ++ (r.stats.map (fun s => ("stats", s.toJson))).toList ++
      [("status", .string r.status.text)]) := by
    have without : ["diagnostics", "path", "status"].Pairwise (· < ·) := by decide
    have counted : ["diagnostics", "path", "stats", "status"].Pairwise (· < ·) := by decide
    cases r.stats with
    | none => exact without
    | some s => exact counted
  refine .object sorted ?_
  intro field member
  simp only [List.mem_append, List.mem_cons, List.not_mem_nil, or_false, Option.mem_toList,
    Option.map_eq_some_iff] at member
  rcases member with ((rfl | rfl) | ⟨s, some, rfl⟩) | rfl
  · refine .array ?_
    intro item member
    obtain ⟨d, _, rfl⟩ := List.mem_map.mp member
    exact d.toJson_canonical
  · exact .string r.path
  · exact Stats.toJson_canonical (fits s some)
  · exact .string r.status.text

theorem parse_json (r : Report) (fits : ∀ s ∈ r.stats, s.Fits) :
    Json.parse r.json = .ok r.toJson := by
  have line : Json.Relaxed.Stops ['\n'] := by
    rintro c ⟨⟩
    exact .inr rfl
  exact Json.parse_pretty_append (r.toJson_canonical fits) (by decide) line rfl

/-- Whatever was found, the printed report is JSON again, and in it the list of findings, as it
was: each finding is an object of its own, with a key for its rule if it has one. Of an object that
is read as a finding, only the rule and the severity may be missing: then it has no rule, as with a
rule that is null, and it is a warning. -/
theorem findings_survive_the_report (r : Report) (fits : ∀ s ∈ r.stats, s.Fits) :
    (∃ answer items, Json.parse r.json = .ok answer ∧
      answer.field? "diagnostics" = some (.array items) ∧
      Json.decodeList Diagnostic.ofJson (.array items) = .ok r.diagnostics ∧
      List.Forall₂ Diagnostic.Written r.diagnostics items) ∧
    ∀ fields d, (fields.map Prod.fst).Nodup →
      (Diagnostic.ofJson (.object fields) = .ok d ↔ Diagnostic.Describes fields d) := by
  refine ⟨⟨r.toJson, r.diagnostics.map Diagnostic.toJson, r.parse_json fits, rfl, ?_, ?_⟩, ?_⟩
  · exact Json.decodeList_map (fun d => d.written_toJson.decoded) r.diagnostics
  · rw [List.forall₂_map_right_iff, List.forall₂_same]
    exact fun d _ => d.written_toJson
  · exact fun fields d once => Diagnostic.ofJson_object once

/-- A report with a finding that has a rule and one that has none, with characters that are
escaped, and with counts. -/
def mixed : Report :=
  let ruled : Diagnostic :=
    { line := 0xffffffff, column := 0, message := "tab\t, bell\x07, é and \n", severity := .error,
      source := "\u2028", rule := some "no-tabs" }
  let plain : Diagnostic := { line := 3, column := 7, message := "\\" }
  { path := "a\\b \"c\".js", status := .done 1 1 0, diagnostics := [ruled, plain],
    stats := some (Stats.of [ruled, plain]) }

theorem findings_survive_the_report_mixed :
    (∀ s ∈ mixed.stats, s.Fits) ∧
    (∃ answer items, Json.parse mixed.json = .ok answer ∧
      answer.field? "diagnostics" = some (.array items) ∧
      Json.decodeList Diagnostic.ofJson (.array items) = .ok mixed.diagnostics ∧
      List.Forall₂ Diagnostic.Written mixed.diagnostics items) ∧
    Diagnostic.ofJson (.object [("column", .nat 7), ("line", .nat 3), ("message", .string "m"),
      ("rule", .null), ("source", .string "s")]) =
        .ok { line := 3, column := 7, message := "m", severity := .warning, source := "s" } := by
  have fits : ∀ s ∈ mixed.stats, s.Fits := by
    rintro s ⟨⟩
    exact Stats.fits_of (by decide)
  obtain ⟨printed, read⟩ := findings_survive_the_report mixed fits
  refine ⟨fits, printed, (read _ _ (by decide)).mpr ?_⟩
  exact ⟨rfl, rfl, rfl, .inl ⟨rfl, rfl⟩, rfl, .inr ⟨rfl, rfl⟩⟩

end Command.Report
end BufferLint
