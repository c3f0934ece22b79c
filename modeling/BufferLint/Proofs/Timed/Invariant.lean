import BufferLint.Timed.Agenda
import BufferLint.Timed.Clock

/-! What holds of a machine at every instant of a run: it survives a wait in which nothing is due,
and it survives the next thing that is due. -/
namespace BufferLint.Timed

theorem exists_min?_le {l : List Nat} {n : Nat} (member : n ∈ l) :
    ∃ least, l.min? = some least ∧ least ≤ n := by
  cases empty : l.min? with
  | none => simp [List.min?_eq_none_iff.mp empty] at member
  | some least => exact ⟨least, rfl, (List.min?_eq_some_iff.mp empty).2 n member⟩

theorem Agenda.exists_nextDue_le {α : Type} {a : Agenda α} {row : Nat × α} (member : row ∈ a) :
    ∃ time, a.nextDue = some time ∧ time ≤ row.1 :=
  exists_min?_le (List.mem_map_of_mem member)

namespace Run

variable {σ ε α : Type}

@[simp] theorem settle_now (m : Machine σ ε) (r : Run σ ε) : (r.settle m).now = r.now := rfl

@[simp] theorem settle_state (m : Machine σ ε) (r : Run σ ε) :
    (r.settle m).state = (m.settle r.now r.state).1 := rfl

theorem settle_log (m : Machine σ ε) (r : Run σ ε) :
    (r.settle m).log =
      ((m.settle r.now r.state).2.map (fun e => (r.now, e))).reverse ++ r.log := rfl

@[simp] theorem wait_now (r : Run σ ε) (ms : Nat) : (r.wait ms).now = r.now + ms := rfl

@[simp] theorem wait_state (r : Run σ ε) (ms : Nat) : (r.wait ms).state = r.state := rfl

@[simp] theorem wait_log (r : Run σ ε) (ms : Nat) : (r.wait ms).log = r.log := rfl

/-- What waits survive and what due times survive holds after any stretch of time. -/
theorem elapse_invariant (m : Machine σ ε) (I : Run σ ε → Prop)
    (idle : ∀ r k, I r → (∀ time, m.nextDue r.state = some time → k < r.waitFor time) →
      I (r.wait k))
    (due : ∀ r time, I r → m.nextDue r.state = some time →
      I ((r.wait (r.waitFor time)).settle m))
    (ms : Nat) (r : Run σ ε) (start : I r) : I (r.elapse m ms) := by
  induction ms using Nat.strongRecOn generalizing r with
  | ind ms ih =>
    cases next : m.nextDue r.state with
    | none =>
      rw [elapse_quiet m ms r next]
      exact idle r ms start (by simp [next])
    | some time =>
      by_cases reached : r.waitFor time ≤ ms
      · rw [elapse_due m ms r time next reached]
        have positive := r.one_le_waitFor time
        exact ih _ (by omega) _ (due r time start next)
      · have early : ms < r.waitFor time := by omega
        rw [elapse_early m ms r time next early]
        exact idle r ms start (by simpa [next] using early)

@[simp] theorem elapse_now (m : Machine σ ε) (ms : Nat) (r : Run σ ε) :
    (r.elapse m ms).now = r.now + ms := by
  induction ms using Nat.strongRecOn generalizing r with
  | ind ms ih =>
    cases next : m.nextDue r.state with
    | none => rw [elapse_quiet m ms r next, wait_now]
    | some time =>
      by_cases reached : r.waitFor time ≤ ms
      · have positive := r.one_le_waitFor time
        rw [elapse_due m ms r time next reached, ih _ (by omega), settle_now, wait_now]
        omega
      · rw [elapse_early m ms r time next (by omega), wait_now]

/-- Machines that know the same due times stay side by side. -/
theorem elapse_related {τ δ : Type} (m : Machine σ ε) (n : Machine τ δ)
    (R : Run σ ε → Run τ δ → Prop)
    (clock : ∀ r q, R r q → r.now = q.now ∧ m.nextDue r.state = n.nextDue q.state)
    (idle : ∀ r q k, R r q → R (r.wait k) (q.wait k))
    (due : ∀ r q, R r q → R (r.settle m) (q.settle n))
    (ms : Nat) (r : Run σ ε) (q : Run τ δ) (start : R r q) :
    R (r.elapse m ms) (q.elapse n ms) := by
  induction ms using Nat.strongRecOn generalizing r q with
  | ind ms ih =>
    obtain ⟨sameTime, sameDue⟩ := clock r q start
    cases next : m.nextDue r.state with
    | none =>
      rw [elapse_quiet m ms r next, elapse_quiet n ms q (sameDue.symm.trans next)]
      exact idle r q ms start
    | some time =>
      have next' := sameDue.symm.trans next
      have sameWait : q.waitFor time = r.waitFor time := by
        rw [waitFor, waitFor, sameTime]
      by_cases reached : r.waitFor time ≤ ms
      · rw [elapse_due m ms r time next reached,
          elapse_due n ms q time next' (by rw [sameWait]; exact reached), sameWait]
        have positive := r.one_le_waitFor time
        exact ih _ (by omega) _ _ (due _ _ (idle _ _ _ start))
      · rw [elapse_early m ms r time next (by omega),
          elapse_early n ms q time next' (by rw [sameWait]; omega)]
        exact idle r q ms start

theorem now_add_waitFor (r : Run σ ε) (time : Nat) (ahead : r.now < time) :
    r.now + r.waitFor time = time := by
  unfold waitFor
  omega

/- The times of the actions of a run that begins at `now`: an action takes a millisecond. -/
def timeline (now : Nat) : List (Step α) → List (Nat × α)
  | [] => []
  | .act action :: rest => (now, action) :: timeline (now + 1) rest
  | .sleep ms :: rest => timeline (now + ms) rest

def span : Step α → Nat
  | .act _ => 1
  | .sleep ms => ms

def duration : List (Step α) → Nat
  | [] => 0
  | step :: rest => span step + duration rest

@[simp] theorem step_now (m : Machine σ ε) (act : α → Nat → σ → σ) (r : Run σ ε) (step : Step α) :
    (r.step m act step).now = r.now + span step := by
  cases step with
  | act action => simp [Run.step, Run.perform, span]
  | sleep ms => simp [Run.step, span]

@[simp] theorem play_now (m : Machine σ ε) (act : α → Nat → σ → σ) (r : Run σ ε)
    (steps : List (Step α)) : (r.play m act steps).now = r.now + duration steps := by
  induction steps generalizing r with
  | nil => rfl
  | cons step rest ih =>
    rw [duration, ← Nat.add_assoc, ← step_now m act r step]
    exact ih (r.step m act step)

theorem timeline_chronological (now : Nat) (steps : List (Step α)) :
    (timeline now steps).Pairwise (fun a b => a.1 < b.1) ∧ ∀ a ∈ timeline now steps, now ≤ a.1 := by
  induction steps generalizing now with
  | nil => exact ⟨.nil, by simp [timeline]⟩
  | cons step rest ih =>
    cases step with
    | sleep ms =>
      obtain ⟨order, later⟩ := ih (now + ms)
      exact ⟨order, fun a member => Nat.le_trans (Nat.le_add_right _ _) (later a member)⟩
    | act action =>
      obtain ⟨order, later⟩ := ih (now + 1)
      refine ⟨.cons later order, ?_⟩
      intro a member
      rcases List.mem_cons.mp member with rfl | behind
      · exact Nat.le_refl _
      · exact Nat.le_of_succ_le (later a behind)

theorem timeline_cons (now : Nat) (step : Step α) (rest : List (Step α)) :
    timeline now (step :: rest) = timeline now [step] ++ timeline (now + span step) rest := by
  cases step with
  | act action => rfl
  | sleep ms => rfl

end Run

end BufferLint.Timed
