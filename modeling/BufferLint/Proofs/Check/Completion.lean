import BufferLint.Proofs.Check.Order

/-! Every request is through in the end. The check that runs has its time, so after that time one
more is over; those that wait ahead of a request are so many and no more. -/
namespace BufferLint.Checker

theorem run_sleep (net : Network) (steps : List Step) (ms : Nat) (r : Run) :
    run net (steps ++ [.sleep ms]) r = (run net steps r).elapse (machine net) ms :=
  List.foldl_concat _ _ _ _

theorem trace_sleep_add (net : Network) (steps : List Step) (a b : Nat) (s : Checker) :
    trace net (steps ++ [.sleep a] ++ [.sleep b]) s = trace net (steps ++ [.sleep (a + b)]) s := by
  have split := Timed.Run.elapse_add (observer net) a b (steps.foldl (observe net) { state := s })
  simp only [trace, List.foldl_append, List.foldl_cons, List.foldl_nil, observe, split]

theorem trace_sleep (net : Network) (steps : List Step) (ms : Nat) (s : Checker) :
    ∃ newer, trace net (steps ++ [.sleep ms]) s = newer ++ trace net steps s := by
  let q := steps.foldl (observe net) { state := s }
  have grown : ∃ new, (q.elapse (observer net) ms).log = new ++ q.log := by
    refine Timed.Run.elapse_invariant (observer net) (fun r => ∃ new, r.log = new ++ q.log)
      (fun r k grown _ => grown) ?_ ms q ⟨[], rfl⟩
    rintro r time ⟨new, grown⟩ _
    rw [Timed.Run.settle_log, Timed.Run.wait_log, grown, ← List.append_assoc]
    exact ⟨_, rfl⟩
  obtain ⟨new, grown⟩ := grown
  refine ⟨new.map Prod.snd, ?_⟩
  simp only [trace, List.foldl_append, List.foldl_cons, List.foldl_nil, observe]
  rw [grown, List.map_append]

theorem time_le_now (net : Network) (u : Setup) (steps : List Step) :
    ∀ m ∈ trace net steps u.checker, m.time ≤ (run net steps { state := u.checker }).now := by
  refine (timed_invariant net u (fun now past _ => ∀ m ∈ past, m.time ≤ now) ?_ ?_ ?_ ?_ steps).1
  · intro now past s m _ _ before x member
    rcases List.mem_cons.mp member with rfl | old
    · exact Nat.le_refl _
    · exact before x old
  · exact fun now past s before => before
  · exact fun now k past s _ before x member =>
      Nat.le_trans (before x member) (Nat.le_add_right _ _)
  · intro m member
    cases member

theorem requests_append (later earlier : List Moment) :
    requests (later ++ earlier) = requests earlier ++ requests later := by
  simp [requests]

theorem admissions_append (later earlier : List Moment) :
    admissions (later ++ earlier) = admissions earlier ++ admissions later := by
  simp [admissions]

theorem not_turn_of_admissions {past : List Moment} (nobody : admissions past = []) {m : Moment}
    (member : m ∈ past) (job : Job) : m.move ≠ .turn job := by
  intro turn
  have none : m.admitted = [] := by
    have all := List.flatMap_eq_nil_iff.mp nobody
    exact all m (List.mem_reverse.mpr member)
  simp [Moment.admitted, turn] at none

theorem holder_of_no_turn {newer older : List Moment} (nobody : admissions newer = []) :
    holder (newer ++ older) = holder older := by
  have unheld : holder newer = none := by
    refine List.findSome?_eq_none_iff.mpr ?_
    intro m member
    unfold Moment.turn?
    split
    · rename_i job turn
      exact absurd turn (not_turn_of_admissions nobody member job)
    · rfl
  exact (List.findSome?_append ..).trans (by rw [← holder, unheld]; rfl)

/-- When the time of a running check has passed, some check is over that was not before. -/
theorem endings_grow (net : Network) (u : Setup) (steps : List Step) {check : RunningCheck}
    (running : (run net steps { state := u.checker }).state.running = some check) :
    (endings net (trace net steps u.checker)).length <
      (endings net (trace net
        (steps ++ [.sleep (check.snapshot.settings.timeout + u.gate)]) u.checker)).length := by
  obtain ⟨newer, longer⟩ := trace_sleep net steps
    (check.snapshot.settings.timeout + u.gate) u.checker
  have before := (orderly_trace net u steps).1.served.admissions
  obtain ⟨standing, _⟩ := standing_trace net u steps
  have times := time_le_now net u steps
  have clock := congrArg Timed.Run.now (run_sleep net steps
    (check.snapshot.settings.timeout + u.gate) { state := u.checker })
  rw [Timed.Run.elapse_now] at clock
  generalize steps ++ [.sleep (check.snapshot.settings.timeout + u.gate)] = more at longer clock ⊢
  have after := (orderly_trace net u more).1.served.admissions
  obtain ⟨standing', _⟩ := standing_trace net u more
  rw [longer, endings_append, List.length_append]
  cases through : endings net newer with
  | cons job rest => simp
  | nil =>
    exfalso
    rw [longer, endings_append, through, List.append_nil, admissions_append, before, running,
      List.append_assoc] at after
    have hands := List.append_cancel_left after
    cases still : (run net more { state := u.checker }).state.running with
    | none => simp [still] at hands
    | some other =>
      rw [still] at hands
      have nobody : admissions newer = [] := (List.cons.inj hands).2
      have snapshot : other.snapshot = check.snapshot := by
        obtain ⟨_, ⟨s, held, reads, _⟩, _⟩ := standing.locked.held check running
        obtain ⟨_, ⟨t, held', reads', _⟩, _⟩ := standing'.locked.held other still
        rw [longer, holder_of_no_turn nobody, held] at held'
        have same : s = t := congrArg Prod.snd (Option.some.inj held')
        rw [← same, reads] at reads'
        exact (Option.some.inj reads').symm
      obtain ⟨t, member, turn, soon⟩ := soon_over net u more other still
      rw [snapshot, clock] at soon
      rw [longer] at member
      rcases List.mem_append.mp member with new | old
      · exact not_turn_of_admissions nobody new _ turn
      · have past := times t old
        omega

/-- All who have asked are through when enough time has passed, whatever else is asked then. -/
theorem requests_through (net : Network) (u : Setup) (steps : List Step) :
    ∃ ms, ∀ more, ms ≤ more → requests (trace net steps u.checker) <+:
      endings net (trace net (steps ++ [.sleep more]) u.checker) := by
  have enough : ∀ n (steps : List Step) goal,
      goal ≤ (requests (trace net steps u.checker)).length →
      goal ≤ (endings net (trace net steps u.checker)).length + n →
      ∃ ms, ∀ more, ms ≤ more →
        goal ≤ (endings net (trace net (steps ++ [.sleep more]) u.checker)).length := by
    intro n
    induction n with
    | zero =>
      intro steps goal _ reached
      refine ⟨0, fun more _ => ?_⟩
      obtain ⟨newer, longer⟩ := trace_sleep net steps more u.checker
      rw [longer, endings_append, List.length_append]
      omega
    | succ n ih =>
      intro steps goal asked near
      cases running : (run net steps { state := u.checker }).state.running with
      | none =>
        have served := (orderly_trace net u steps).1.served
        have empty := (standing_trace net u steps).2.1.queue running
        rw [served.requests, empty, List.append_nil, served.admissions, running,
          Option.map_none, Option.toList_none, List.append_nil] at asked
        refine ⟨0, fun more _ => ?_⟩
        obtain ⟨newer, longer⟩ := trace_sleep net steps more u.checker
        rw [longer, endings_append, List.length_append]
        omega
      | some check =>
        have grown := endings_grow net u steps running
        generalize check.snapshot.settings.timeout + u.gate = wait at grown
        obtain ⟨newer, longer⟩ := trace_sleep net steps wait u.checker
        have asked' : goal ≤ (requests (trace net (steps ++ [.sleep wait]) u.checker)).length := by
          rw [longer, requests_append, List.length_append]
          omega
        obtain ⟨ms, all⟩ := ih (steps ++ [Timed.Step.sleep wait]) goal asked' (by omega)
        refine ⟨wait + ms, fun more long => ?_⟩
        have through := all (more - wait) (by omega)
        rwa [trace_sleep_add, Nat.add_sub_cancel' (by omega)] at through
  obtain ⟨ms, all⟩ := enough (requests (trace net steps u.checker)).length steps
    (requests (trace net steps u.checker)).length (Nat.le_refl _) (by omega)
  refine ⟨ms, fun more long => ?_⟩
  obtain ⟨newer, longer⟩ := trace_sleep net steps more u.checker
  have served := (orderly_trace net u (steps ++ [.sleep more])).1.served
  have prefix_ : requests (trace net steps u.checker) <+:
      requests (trace net (steps ++ [.sleep more]) u.checker) := by
    rw [longer, requests_append]
    exact List.prefix_append _ _
  rw [served.requests, served.admissions, List.append_assoc] at prefix_
  exact List.prefix_of_prefix_length_le prefix_ (List.prefix_append _ _) (all more long)

end BufferLint.Checker
