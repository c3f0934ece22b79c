import BufferLint.Check.Stats
import BufferLint.Json.Basic

/-! Counts as JSON; the names of all fields come in order. -/
namespace BufferLint

def Tally.toJson {κ : Type} (name : κ → String) (t : Tally κ) : Json :=
  Json.ofFields (t.map (fun row => (name row.1, Json.nat row.2)))

def Stats.toJson (s : Stats) : Json := .object [
  ("by_line", s.byLine.toJson (fun line => toString line.toNat)),
  ("by_rule", s.byRule.toJson id),
  ("by_source", s.bySource.toJson id),
  ("errors", .nat s.errors),
  ("infos", .nat s.infos),
  ("total", .nat s.total),
  ("warnings", .nat s.warnings)]

end BufferLint
