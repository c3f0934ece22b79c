/-! Things that will happen at known times. -/
namespace BufferLint.Timed

abbrev Agenda (α : Type) := List (Nat × α)

namespace Agenda

variable {α : Type}

def add (a : Agenda α) (time : Nat) (item : α) : Agenda α := a ++ [(time, item)]

def due (a : Agenda α) (now : Nat) : List α := (a.filter (fun row => row.1 ≤ now)).map Prod.snd

def later (a : Agenda α) (now : Nat) : Agenda α := a.filter (fun row => now < row.1)

def nextDue (a : Agenda α) : Option Nat := (a.map Prod.fst).min?

end Agenda
end BufferLint.Timed
