import BufferLint.Timed.Agenda
import BufferLint.Timed.Clock

/-! A timer with one place: scheduling replaces whatever waits there. What has been started is out
of its reach. -/
namespace BufferLint.Timed

structure Debounce (α : Type) where
  pending : Option (Nat × α) := none

namespace Debounce

variable {α : Type}

def schedule (_ : Debounce α) (now delay : Nat) (task : α) : Debounce α :=
  ⟨some (now + delay, task)⟩

def cancel (_ : Debounce α) : Debounce α := ⟨none⟩

def isPending (d : Debounce α) : Bool := d.pending.isSome

def nextDue (d : Debounce α) : Option Nat := d.pending.map Prod.fst

/-- The task that is due, if there is one, leaves its place. -/
def fire (d : Debounce α) (now : Nat) : Debounce α × Option α :=
  match d.pending with
  | some (time, task) => if time ≤ now then (⟨none⟩, some task) else (d, none)
  | none => (d, none)

end Debounce

structure Task where
  id : Nat
  length : Nat
  deriving DecidableEq, Repr

inductive TaskEvent where
  | started (id : Nat)
  | finished (id : Nat)
  deriving DecidableEq, Repr

structure TaskTimer where
  timer : Debounce Task := {}
  running : Agenda Nat := []

namespace TaskTimer

def start (t : TaskTimer) (now : Nat) : TaskTimer × List TaskEvent :=
  match t.timer.fire now with
  | (timer, some task) =>
    (⟨timer, t.running.add (now + task.length) task.id⟩, [.started task.id])
  | (timer, none) => ({ t with timer }, [])

def finish (t : TaskTimer) (now : Nat) : TaskTimer × List TaskEvent :=
  ({ t with running := t.running.later now }, (t.running.due now).map .finished)

def nextDue (t : TaskTimer) : Option Nat :=
  (t.timer.nextDue.toList ++ t.running.nextDue.toList).min?

def machine : Machine TaskTimer TaskEvent where
  settle now t :=
    let (t, started) := t.start now
    let (t, finished) := t.finish now
    (t, started ++ finished)
  nextDue := nextDue

inductive Action where
  | schedule (task : Task) (delay : Nat)
  | cancel
  deriving DecidableEq, Repr

def act (action : Action) (now : Nat) (t : TaskTimer) : TaskTimer :=
  match action with
  | .schedule task delay => { t with timer := t.timer.schedule now delay task }
  | .cancel => { t with timer := t.timer.cancel }

/-- What the caller of an action is told: does a task wait now, or did one wait until now? -/
def answer (action : Action) (now : Nat) (t : TaskTimer) : Bool :=
  match action with
  | .schedule _ _ => (act action now t).timer.isPending
  | .cancel => t.timer.isPending

abbrev Run := Timed.Run TaskTimer TaskEvent

def step (r : Run) (s : Step Action) : Run := r.step machine act s

def run (steps : List (Step Action)) (r : Run) : Run := r.play machine act steps

end TaskTimer
end BufferLint.Timed
