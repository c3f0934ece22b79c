import BufferLint.Check.StatsJson
import BufferLint.Check.Status
import BufferLint.Diagnostic.Json
import BufferLint.Json.Printer
import BufferLint.Text.Duration

/-! What is printed about a checked file. A report is printed in pieces, and the first of them that
cannot be told, a position too large to be shown, ends the program there. -/
namespace BufferLint.Command

open BufferLint.Text (padRight)

structure Report where
  path : String
  status : Status
  diagnostics : List Diagnostic
  stats : Option Stats

def unlines (ls : List String) : String := String.join (ls.map (· ++ "\n"))

/-- A piece that is a line of its own. -/
def line (text : String) : Option String := some (text ++ "\n")

namespace Report

def finding (d : Diagnostic) : List (Option String) :=
  [some "  ", d.text, line (" [" ++ d.source ++ "]")]

def findings (r : Report) : List (Option String) :=
  if r.diagnostics.isEmpty then []
  else [line (r.path ++ ":")] ++ r.diagnostics.flatMap finding ++ [line ""]

def share (name : String) (stats : Stats) (count : Nat) : String :=
  "   " ++ name ++ ": " ++ toString count ++ " (" ++ Decimal.oneDecimal (stats.percentage count) ++
    "%)"

def row (name : String) (count : Nat) : String := "   " ++ padRight 20 name ++ " " ++ toString count

def titled (heading : String) (rows : List (Option String)) : List (Option String) :=
  if rows.isEmpty then [] else [line "", line heading] ++ rows

def byFrequency (t : Tally String) : Tally String :=
  t.mergeSort (fun a b => if a.2 = b.2 then decide (a.1 ≤ b.1) else decide (b.2 < a.2))

def lineRow (r : UInt32 × Nat) : Option String :=
  (Diagnostic.shown r.1).bind (fun shown => line (row shown r.2))

def statistics (s : Stats) : List (Option String) :=
  [line "", line "Issue Analysis:", line ("   Total: " ++ toString s.total ++ " issues"),
    line (share "Errors" s s.errors), line (share "Warnings" s s.warnings),
    line (share "Info" s s.infos)] ++
  titled "Sources:" (s.bySource.map (fun r => line (row r.1 r.2))) ++
  titled "Rules:" ((byFrequency s.byRule).map (fun r => line (row r.1 r.2))) ++
  titled "Lines:" (s.byLine.map lineRow)

def pieces (r : Report) : List (Option String) :=
  r.findings ++ [line (r.path ++ ": " ++ r.status.text)] ++ (r.stats.map statistics).getD []

/-- Can all of it be told? -/
def isWhole (r : Report) : Bool := r.pieces.all Option.isSome

/-- What is printed: all of it, or what comes before the first piece that cannot be told. -/
def text (r : Report) : String :=
  String.join ((r.pieces.takeWhile Option.isSome).flatMap Option.toList)

def toJson (r : Report) : Json :=
  .object ([("diagnostics", Diagnostic.listToJson r.diagnostics), ("path", .string r.path)] ++
    (r.stats.map (fun s => ("stats", s.toJson))).toList ++
    [("status", .string r.status.text)])

def json (r : Report) : String := Json.pretty r.toJson ++ "\n"

end Report
end BufferLint.Command
