/-! Machines on a clock that counts milliseconds. At each instant a machine does everything that is
due; a machine that knows when the next thing is due is left alone until then. In a run an action
takes a millisecond, so that there is one action at an instant at most: runs in which two calls are
made at the same instant are left out. -/
namespace BufferLint.Timed

structure Machine (σ ε : Type) where
  /-- Everything that can happen at an instant, with what is reported, in order. -/
  settle : Nat → σ → σ × List ε
  /-- When the next thing is due; never, if nothing will become due by itself. -/
  nextDue : σ → Option Nat

/-- A machine at an instant, with what it has reported so far, newest first. -/
structure Run (σ ε : Type) where
  now : Nat := 0
  state : σ
  log : List (Nat × ε) := []

namespace Run

variable {σ ε : Type}

def report (r : Run σ ε) (events : List ε) : Run σ ε :=
  { r with log := (events.map (fun e => (r.now, e))).reverse ++ r.log }

def settle (m : Machine σ ε) (r : Run σ ε) : Run σ ε :=
  let (state, events) := m.settle r.now r.state
  { r with state }.report events

def wait (r : Run σ ε) (ms : Nat) : Run σ ε := { r with now := r.now + ms }

def waitFor (r : Run σ ε) (time : Nat) : Nat := max 1 (time - r.now)

/- Time passes, from one due time to the next. Every round but the last passes a millisecond at
least, so their number is fuel enough. -/
def elapseRounds (m : Machine σ ε) : Nat → Nat → Run σ ε → Run σ ε
  | 0, ms, r => r.wait ms
  | fuel + 1, ms, r =>
    match m.nextDue r.state with
    | none => r.wait ms
    | some time =>
      if ms < r.waitFor time then r.wait ms
      else elapseRounds m fuel (ms - r.waitFor time) ((r.wait (r.waitFor time)).settle m)

def elapse (m : Machine σ ε) (ms : Nat) (r : Run σ ε) : Run σ ε := elapseRounds m ms ms r

theorem one_le_waitFor (r : Run σ ε) (time : Nat) : 1 ≤ r.waitFor time := Nat.le_max_left ..

theorem wait_wait (r : Run σ ε) (a b : Nat) : (r.wait a).wait b = r.wait (a + b) := by
  simp [wait, Nat.add_assoc]

theorem elapseRounds_enough (m : Machine σ ε) (fuel ms : Nat) (r : Run σ ε) (enough : ms ≤ fuel) :
    elapseRounds m fuel ms r = elapse m ms r := by
  suffices more : ∀ fuel ms r, ms ≤ fuel →
      elapseRounds m (fuel + 1) ms r = elapseRounds m fuel ms r by
    induction fuel with
    | zero => rw [Nat.le_zero.1 enough]; rfl
    | succ n ih =>
      by_cases last : ms = n + 1
      · rw [last]; rfl
      · rw [more n ms r (by omega), ih (by omega)]
  intro fuel
  induction fuel with
  | zero =>
    intro ms r enough
    have positive := r.one_le_waitFor
    simp only [elapseRounds]
    split
    · rfl
    · next time _ => rw [if_pos (by have := positive time; omega)]
  | succ n ih =>
    intro ms r enough
    rw [elapseRounds, elapseRounds]
    split
    · rfl
    · next time _ =>
      have positive := r.one_le_waitFor time
      split
      · rfl
      · exact ih _ _ (by omega)

theorem elapse_quiet (m : Machine σ ε) (ms : Nat) (r : Run σ ε) (quiet : m.nextDue r.state = none) :
    elapse m ms r = r.wait ms := by
  cases ms <;> simp [elapse, elapseRounds, quiet]

theorem elapse_early (m : Machine σ ε) (ms : Nat) (r : Run σ ε) (time : Nat)
    (due : m.nextDue r.state = some time) (early : ms < r.waitFor time) :
    elapse m ms r = r.wait ms := by
  cases ms <;> simp [elapse, elapseRounds, due, early]

theorem elapse_due (m : Machine σ ε) (ms : Nat) (r : Run σ ε) (time : Nat)
    (due : m.nextDue r.state = some time) (reached : r.waitFor time ≤ ms) :
    elapse m ms r = elapse m (ms - r.waitFor time) ((r.wait (r.waitFor time)).settle m) := by
  have positive := r.one_le_waitFor time
  cases ms with
  | zero => omega
  | succ n =>
    rw [elapse, elapseRounds, due]
    simp only [if_neg (Nat.not_lt.2 reached)]
    exact elapseRounds_enough m _ _ _ (by omega)

theorem elapse_add (m : Machine σ ε) (a b : Nat) (r : Run σ ε) :
    elapse m (a + b) r = elapse m b (elapse m a r) := by
  induction a using Nat.strongRecOn generalizing r with
  | ind a ih =>
    cases due : m.nextDue r.state with
    | none =>
      have later : m.nextDue (r.wait a).state = none := due
      rw [elapse_quiet m _ r due, elapse_quiet m _ r due, elapse_quiet m b _ later, wait_wait]
    | some time =>
      have positive := r.one_le_waitFor time
      by_cases reached : r.waitFor time ≤ a
      · rw [elapse_due m _ r time due (by omega), elapse_due m a r time due reached,
          ← ih _ (by omega)]
        congr 1
        omega
      · have later : m.nextDue (r.wait a).state = some time := due
        have shorter : a = 0 ∨ r.waitFor time = (r.wait a).waitFor time + a := by
          simp only [waitFor, wait] at reached ⊢
          omega
        rw [elapse_early m a r time due (by omega)]
        rcases shorter with rfl | shorter
        · simp [wait]
        · by_cases soon : r.waitFor time ≤ a + b
          · rw [elapse_due m _ r time due soon, elapse_due m b _ time later (by omega), wait_wait]
            congr 1
            · omega
            · congr 2
              omega
          · rw [elapse_early m _ r time due (by omega), elapse_early m b _ time later (by omega),
              wait_wait]

def perform (m : Machine σ ε) (action : Nat → σ → σ) (r : Run σ ε) : Run σ ε :=
  { r with state := action r.now r.state }.settle m

end Run

/-- What a machine meets from outside: an action, or nothing for some milliseconds. -/
inductive Step (α : Type) where
  | act (action : α)
  | sleep (ms : Nat)
  deriving DecidableEq, Repr

namespace Run

variable {σ ε α : Type}

/-- An action takes effect at an instant, and a millisecond passes; or time just passes. -/
def step (m : Machine σ ε) (act : α → Nat → σ → σ) (r : Run σ ε) : Step α → Run σ ε
  | .act action => (r.perform m (act action)).elapse m 1
  | .sleep ms => r.elapse m ms

def play (m : Machine σ ε) (act : α → Nat → σ → σ) (steps : List (Step α)) (r : Run σ ε) :
    Run σ ε :=
  steps.foldl (step m act) r

end Run
end BufferLint.Timed
