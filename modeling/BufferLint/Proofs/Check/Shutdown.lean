import BufferLint.Proofs.Check.Deadlines

/-! A shutdown is final for what was asked before it, and nothing to what is asked after it. -/
namespace BufferLint.Checker

/-- What a check leaves that is discarded: its caller gets an empty list, and that is all. -/
structure Discards (s t : Checker) (job : Job) : Prop where
  status : t.status = s.status
  sink : t.sink = s.sink
  history : t.history = s.history
  effects : ∃ new, t.effects = new ++ s.effects ∧
    (∀ e ∈ new, (∃ id alive, e = Effect.probed id alive) ∨
      ∃ id, job.requester = some id ∧ e = Effect.delivered id []) ∧
    (t.running = none → ∀ id, job.requester = some id → Effect.delivered id [] ∈ new)

theorem discards_finish (s : Checker) (job : Job) : Discards s (s.finish job []) job := by
  refine ⟨finish_status _ _ _, ?_, ?_, _, finish_effects _ _ _, ?_, ?_⟩
  · unfold finish
    cases job.requester <;> rfl
  · unfold finish
    cases job.requester <;> rfl
  · intro e member
    cases requester : job.requester with
    | none => simp [requester] at member
    | some id =>
      right
      exact ⟨id, rfl, by simpa [requester] using member⟩
  · intro _ id requester
    simp [requester]

theorem Discards.around {s t : Checker} {job : Job} {p q : List Effect} (before : Probes p)
    (after : Probes q) (inner : Discards (s.tell p) t job) : Discards s (t.tell q) job := by
  obtain ⟨status, sink, history, new, added, kinds, returns⟩ := inner
  refine ⟨status, sink, history, q ++ new ++ p, ?_, ?_, ?_⟩
  · simp only [tell] at added
    simp [tell, added]
  · intro e member
    simp only [List.mem_append] at member
    rcases member with (late | here) | early
    · exact .inl (after e late)
    · exact kinds e here
    · exact .inl (before e early)
  · intro finished id requester
    simp [returns finished id requester]

section

variable {net : Network} {now : Nat} {s t : Checker} {check : RunningCheck} {out : Outcome}

theorem Progress.discards (progress : Progress now s check out t) (running : s.running = some check)
    (stale : check.job.generation ≠ s.generation) : Discards s t check.job := by
  cases progress with
  | still heard checks probes =>
    refine Discards.around (p := []) (by simp [Probes]) probes ⟨rfl, rfl, rfl, [], rfl, by simp, ?_⟩
    intro finished
    cases finished.symm.trans running
  | fallsBack asked due heard gate positive sound checks calls brings before after =>
    refine Discards.around before after ⟨rfl, rfl, rfl, [], rfl, by simp, ?_⟩
    intro finished
    cases finished
  | ends heard gate sound checks calls before after =>
    rename_i e g p q
    have discarded : ({ s.tell p with engine := e, gateway := g }).conclude check out.1 out.2 =
        ({ s.tell p with engine := e, gateway := g }).finish check.job [] := if_neg stale
    rw [discarded]
    have inner := discards_finish { s.tell p with engine := e, gateway := g } check.job
    exact Discards.around before after
      ⟨inner.status, inner.sink, inner.history, inner.effects⟩

def Delivers (s t : Checker) (job : Job) : Prop :=
  ∃ new ds, t.effects = new ++ s.effects ∧ Effect.displayed ds ∈ new ∧
    ∀ id, job.requester = some id → Effect.delivered id ds ∈ new

theorem delivers_conclude (s : Checker) (check : RunningCheck) (raw : List Diagnostic)
    (failure : Option ServiceError) (current : check.job.generation = s.generation) :
    Delivers s (s.conclude check raw failure) check.job := by
  refine ⟨_, Diagnostic.keepAtLeast check.snapshot.settings.level raw,
    conclude_effects s check raw failure, ?_, ?_⟩
  · simp [conclusion, current]
  · intro id requester
    simp [conclusion, current, requester]

theorem Progress.delivers (progress : Progress now s check out t)
    (running : s.running = some check) (current : check.job.generation = s.generation)
    (finished : t.running = none) : Delivers s t check.job := by
  cases progress with
  | still heard checks probes => cases finished.symm.trans running
  | fallsBack asked due heard gate positive sound checks calls brings before after => cases finished
  | ends heard gate sound checks calls before after =>
    rename_i e g p q
    obtain ⟨new, ds, added, displayed, delivered⟩ := delivers_conclude
      { s.tell p with engine := e, gateway := g } check out.1 out.2 current
    refine ⟨q ++ new ++ p, ds, ?_, by simp [displayed], ?_⟩
    · simp only [tell] at added
      simp [tell, added]
    · intro id requester
      simp [delivered id requester]

theorem Begins.delivers {job : Job} {r : Snapshot} (begins : Begins net now s job r t)
    (current : job.generation = s.generation) (finished : t.running = none) : Delivers s t job := by
  cases begins with
  | remote goes progress =>
    exact progress.delivers (s := s.sending net now job r) rfl current finished
  | waits => cases finished
  | ends =>
    rename_i e stays gate sound calls
    exact delivers_conclude { s with
      phase := .checking, status := .checking r.type, engine := e } ⟨job, r, .inProcess⟩ _ _ current

end

def Move.isListen : Move → Bool
  | .act .listen => true
  | _ => false

theorem listener_apply {net : Network} {now : Nat} {s : Checker} (m : Move)
    (deaf : s.listener = none) (uncalled : m.isListen = false) :
    (m.apply net now s).listener = none := by
  cases m with
  | act action =>
    cases action with
    | toggleEnabled => exact (saves_saveSettings now _ s).frame.2.2.trans deaf
    | toggleRemote => exact (saves_saveSettings now _ s).frame.2.2.trans deaf
    | listen => cases uncalled
    | shutdown => rfl
    | putSettings settings =>
      unfold Move.apply act
      dsimp only
      split <;> exact deaf
    | _ => exact deaf
  | notice => exact (congrArg listener (notice_of_deaf now deaf)).trans deaf
  | fireTimer =>
    unfold Move.apply fireTimer
    dsimp only
    split <;> exact deaf
  | pollGateway => exact (keeps_pollGateway now s).listener.trans deaf
  | pollEngine => exact (keeps_pollEngine now s).listener.trans deaf
  | turn job =>
    exact (keeps_start net now { s with queue := s.queue.tail } job).listener.trans deaf

/-- What is left of a shutdown `d` when the moments `newer` have passed. -/
structure After (net : Network) (d : Moment) (newer : List Moment) (s : Checker) : Prop where
  generation : s.generation =
    d.before.generation + 1 + newer.countP (fun m => m.move.isShutdown)
  listener : (∀ m ∈ newer, m.move.isListen = false) → s.listener = none
  served : d.before.waiting ++ newer.reverse.flatMap Moment.requested =
    newer.reverse.flatMap (Moment.ended net) ++ s.waiting
  within : ∀ check, s.running = some check → check.job.generation ≤ d.before.generation →
    ∃ old, d.before.running = some old ∧ old.snapshot = check.snapshot ∧ Within d.time s check

theorem after_shutdown {net : Network} {d : Moment} (down : d.move = .act .shutdown)
    (timely : Timely d.time d.before) : After net d [] (d.after net) := by
  have same : d.after net = d.before.shutdown := by
    rw [Moment.after, down]
    rfl
  rw [same]
  refine ⟨rfl, fun _ => rfl, List.append_nil _, ?_⟩
  intro check running _
  have within := timely.soon check running
  exact ⟨check, running, rfl, within.service, within.engine⟩

section

variable {net : Network} {now : Nat} {s : Checker} {d : Moment} {newer : List Moment}
  {owed : Job → Snapshot → Outcome → Prop}

theorem After.stale (after : After net d newer s) {job : Job}
    (old : job.generation ≤ d.before.generation) : job.generation ≠ s.generation := by
  have := after.generation
  omega

/-- A check that runs after a shutdown and was asked for before it ran already. -/
theorem After.within_apply (after : After net d newer s) (m : Move) (ready : m.Ready s)
    (locked : Locked s owed) (timely : Timely now s) (check : RunningCheck)
    (running : (m.apply net now s).running = some check)
    (old : check.job.generation ≤ d.before.generation) :
    ∃ first, d.before.running = some first ∧ first.snapshot = check.snapshot ∧
      Within d.time (m.apply net now s) check := by
  cases locked.does net now m ready with
  | outside same nobody silent =>
    obtain ⟨first, was, snapshot, within⟩ := after.within check (same.running ▸ running) old
    exact ⟨first, was, snapshot, within.congr same⟩
  | goesOn before polls due waits progress =>
    rcases progress.running before with finished | ⟨stage, still⟩
    · cases finished.symm.trans running
    · cases Option.some.inj (still.symm.trans running)
      obtain ⟨first, was, snapshot, within⟩ := after.within _ before old
      exact ⟨first, was, snapshot, (progress.within timely.ahead within).2 _ running before⟩
  | quits free first same quits =>
    rw [apply_turn first] at running
    cases (same.running.trans free).symm.trans running
  | begins free first current reads begins =>
    rw [apply_turn first] at running
    rcases begins.running with finished | ⟨stage, still⟩
    · cases finished.symm.trans running
    · cases Option.some.inj (still.symm.trans running)
      exact absurd current (after.stale old)

theorem After.apply (after : After net d newer s) (m : Move) (ready : m.Ready s)
    (locked : Locked s owed) (timely : Timely now s) :
    After net d (⟨now, m, s⟩ :: newer) (m.apply net now s) where
  generation := by
    rw [generation_apply, after.generation, List.countP_cons]
    cases m.isShutdown <;> simp [Nat.add_assoc]
  listener uncalled := by
    have before := after.listener (fun x member => uncalled x (List.mem_cons_of_mem _ member))
    exact listener_apply m before (uncalled _ List.mem_cons_self)
  served := by
    have step := served_apply net now m ready locked
    rw [List.reverse_cons, List.flatMap_append, List.flatMap_append, ← List.append_assoc,
      after.served]
    simp only [List.flatMap_cons, List.flatMap_nil, List.append_nil, List.append_assoc, step]
  within := after.within_apply m ready locked timely

theorem Quits.reading {job : Job} {t : Checker} (quits : Quits s job t)
    (current : job.generation = s.generation) : s.reading = none := by
  cases quits with
  | discarded stale => exact absurd current stale
  | disabled current off => simp [Checker.reading, off]
  | empty current nothing =>
    rcases nothing with unnamed | blank
    · simp [Checker.reading, unnamed]
    · simp [Checker.reading, blank]
  | unsupported current named unknown => simp [Checker.reading, named, unknown]

theorem Quits.discards {job : Job} {t : Checker} (quits : Quits s job t)
    (stale : job.generation ≠ s.generation) : Discards s t job := by
  cases quits with
  | discarded => exact discards_finish s job
  | disabled current => exact absurd current stale
  | empty current => exact absurd current stale
  | unsupported current => exact absurd current stale

theorem discards_apply {m : Move} {job : Job} (ready : m.Ready s) (locked : Locked s owed)
    (belongs : Moment.job? ⟨now, m, s⟩ = some job) (stale : job.generation ≠ s.generation) :
    Discards s (m.apply net now s) job := by
  cases locked.does net now m ready with
  | outside same nobody silent => cases nobody.symm.trans belongs
  | goesOn running polls due waits progress =>
    rw [job_polls now s polls, running] at belongs
    cases belongs
    exact progress.discards running stale
  | quits free first same quits =>
    cases belongs
    rw [apply_turn first]
    have discards := quits.discards stale
    exact ⟨discards.status, discards.sink, discards.history, discards.effects⟩
  | begins free first current reads begins =>
    cases belongs
    exact absurd current stale

theorem delivers_apply {m : Move} {job : Job} (ready : m.Ready s) (locked : Locked s owed)
    (belongs : Moment.job? ⟨now, m, s⟩ = some job) (current : job.generation = s.generation)
    (finished : (m.apply net now s).running = none) :
    (m = .turn job ∧ s.reading = none) ∨ Delivers s (m.apply net now s) job := by
  cases locked.does net now m ready with
  | outside same nobody silent => cases nobody.symm.trans belongs
  | goesOn running polls due waits progress =>
    rw [job_polls now s polls, running] at belongs
    cases belongs
    exact .inr (progress.delivers running current finished)
  | quits free first same quits =>
    cases belongs
    exact .inl ⟨rfl, quits.reading current⟩
  | begins free first current reads begins =>
    cases belongs
    rw [apply_turn first] at finished ⊢
    exact .inr (begins.delivers current finished)

end

/- All that is kept in a run for its shutdowns. -/
structure Standing (net : Network) (u : Setup) (now : Nat) (past : List Moment) (s : Checker) :
    Prop where
  locked : Locked s (owed net past)
  gate : s.engine.gate = u.gate
  stamped : Stamped s
  timely : Timely now s
  after : ∀ newer d older, past = newer ++ d :: older → d.move = .act .shutdown →
    After net d newer s

section

variable {net : Network} {u : Setup} {now : Nat} {past : List Moment} {s : Checker}

theorem standing_apply (m : Move) (ready : m.Ready s) (standing : Standing net u now past s) :
    Standing net u now (⟨now, m, s⟩ :: past) (m.apply net now s) where
  locked := locked_apply m ready standing.locked
  gate := (gate_apply m ready standing.locked).trans standing.gate
  stamped := stamped_apply m ready standing.locked standing.stamped
  timely := timely_apply m ready standing.locked standing.timely
  after newer d older split down := by
    cases newer with
    | nil =>
      cases split
      exact after_shutdown down standing.timely
    | cons last newer =>
      cases split
      exact (standing.after newer d older rfl down).apply m ready standing.locked standing.timely

theorem standing_wait (k : Nat) (early : ∀ time, s.nextDue = some time → now + k ≤ time)
    (standing : Standing net u now past s) : Standing net u (now + k) past s :=
  ⟨standing.locked, standing.gate, standing.stamped, standing.timely.wait k early, standing.after⟩

theorem standing_flush (standing : Standing net u now past s) :
    Standing net u now past { s with effects := [] } where
  locked := standing.locked.congr ⟨rfl, rfl, rfl⟩
  gate := standing.gate
  stamped := ⟨standing.stamped.past, standing.stamped.ordered, standing.stamped.timer⟩
  timely := standing.timely.congr ⟨rfl, rfl, rfl⟩
  after newer d older split down := by
    obtain ⟨generation, listener, served, within⟩ := standing.after newer d older split down
    refine ⟨generation, listener, served, ?_⟩
    intro check running old
    obtain ⟨first, was, snapshot, within⟩ := within check running old
    exact ⟨first, was, snapshot, within.service, within.engine⟩

theorem standing_setup (net : Network) (u : Setup) : Standing net u 0 [] u.checker where
  locked := locked_setup net u
  gate := rfl
  stamped := ⟨by simp [waiting, Setup.checker], by simp [waiting, Setup.checker],
    by simp [Setup.checker]⟩
  timely := by
    refine ⟨?_, ?_⟩
    · intro row member
      cases member
    · intro check running
      cases running
  after newer d older split := by simp at split

theorem standing_trace (net : Network) (u : Setup) (steps : List Step) :
    let r := run net steps { state := u.checker }
    Standing net u r.now (trace net steps u.checker) r.state ∧ Quiet r.now r.state ∧
      ∀ later m earlier, trace net steps u.checker = later ++ m :: earlier →
        Standing net u m.time earlier m.before ∧ m.move.Ready m.before := by
  refine trace_invariant net (Standing net u) ?_ ?_ ?_ ?_ steps u.checker rfl (quiet_setup 0 u)
    (standing_setup net u)
  · exact fun now past s m ready standing => standing_apply m ready standing
  · exact fun now past s standing => standing_flush standing
  · exact fun now past s standing => standing.locked.quiet net now
  · exact fun now k past s _ early standing => standing_wait k early standing

theorem job_mem_waiting {m : Move} {job : Job} (ready : m.Ready s)
    (belongs : Moment.job? ⟨now, m, s⟩ = some job) : job ∈ s.waiting := by
  have running : s.running.map RunningCheck.job = some job → job ∈ s.waiting := by
    intro same
    simp [waiting, same]
  cases m with
  | pollGateway => exact running belongs
  | pollEngine => exact running belongs
  | turn next =>
    cases belongs
    obtain ⟨rest, first⟩ := List.head?_eq_some_iff.mp ready.2
    simp [waiting, first]
  | _ => cases belongs

/-- After its time no check is left that was asked for before a shutdown. -/
theorem no_old_waiting {d : Moment} {newer older : List Moment}
    (standing : Standing net u now past s) (quiet : Quiet now s)
    (split : past = newer ++ d :: older) (down : d.move = .act .shutdown)
    (long : ∀ check, d.before.running = some check →
      d.time + check.snapshot.settings.timeout + u.gate ≤ now) :
    ∀ job ∈ s.waiting, d.before.generation < job.generation := by
  have after := standing.after newer d older split down
  intro job member
  apply Nat.lt_of_not_le
  intro old
  cases running : s.running with
  | none => simp [waiting, running, quiet.queue running] at member
  | some check =>
    have first : check.job.generation ≤ job.generation := by
      have ordered := standing.stamped.ordered
      simp only [waiting, running, Option.map_some, Option.toList_some, List.singleton_append,
        List.mem_cons] at member ordered
      rcases member with same | behind
      · exact Nat.le_of_eq (by rw [same])
      · exact (List.pairwise_cons.mp ordered).1 job behind
    obtain ⟨before, was, snapshot, within⟩ := after.within check running (Nat.le_trans first old)
    obtain ⟨out, _, waits⟩ := standing.locked.held check running
    have soon := within.now_lt quiet waits
    have limit := long before was
    rw [snapshot] at limit
    rw [standing.gate] at soon
    omega

theorem old_served {d : Moment} {newer older : List Moment}
    (standing : Standing net u now past s) (split : past = newer ++ d :: older)
    (down : d.move = .act .shutdown)
    (gone : ∀ job ∈ s.waiting, d.before.generation < job.generation)
    (old : ∀ job ∈ d.before.waiting, job.generation ≤ d.before.generation) :
    d.before.waiting <+: newer.reverse.flatMap (Moment.ended net) := by
  have served := (standing.after newer d older split down).served
  rcases List.append_eq_append_iff.mp served with ⟨rest, ended, _⟩ | ⟨rest, waited, left⟩
  · exact ⟨rest, ended.symm⟩
  · cases rest with
    | nil => exact ⟨[], (List.append_nil _).trans (waited.trans (List.append_nil _))⟩
    | cons job rest =>
      have before := old job (by simp [waited])
      have after := gone job (by simp [left])
      exact absurd before (Nat.not_le_of_lt after)

end

theorem Moment.running_of_ended {net : Network} {m : Moment} {job : Job}
    (finished : m.ended net = [job]) : (m.after net).running = none := by
  unfold Moment.ended at finished
  split at finished
  · rename_i none
    exact Option.isNone_iff_eq_none.mp none
  · cases finished

theorem Discards.emitted {net : Network} {m : Moment} {job : Job}
    (discards : Discards m.before (m.after net) job) :
    (∀ e ∈ m.emitted net, (∃ id alive, e = .probed id alive) ∨
      ∃ id, job.requester = some id ∧ e = .delivered id []) ∧
    (m.ended net = [job] → ∀ id, job.requester = some id → .delivered id [] ∈ m.emitted net) := by
  obtain ⟨new, added, kinds, returns⟩ := discards.effects
  have same : m.emitted net = new := emitted_eq added
  rw [same]
  exact ⟨kinds, fun finished => returns (Moment.running_of_ended finished)⟩

theorem Delivers.emitted {net : Network} {m : Moment} {job : Job}
    (delivers : Delivers m.before (m.after net) job) : ∃ ds, .displayed ds ∈ m.emitted net ∧
      ∀ id, job.requester = some id → .delivered id ds ∈ m.emitted net := by
  obtain ⟨new, ds, added, displayed, delivered⟩ := delivers
  have same : m.emitted net = new := emitted_eq added
  rw [same]
  exact ⟨ds, displayed, delivered⟩

def Action.isEdit : Action → Bool
  | .setText _ | .switchTo _ _ | .close => true
  | _ => false

theorem edit_apply {net : Network} {now : Nat} {s : Checker} {action : Action}
    (edit : action.isEdit = true) :
    ∃ buffer, act net action now s = { s with buffer } := by
  cases action with
  | setText text => exact ⟨_, rfl⟩
  | switchTo name text => exact ⟨_, rfl⟩
  | close => exact ⟨_, rfl⟩
  | _ => cases edit

/-- In every run every shutdown is final for the requests that were made before it: the timer starts
none of them, a check of them changes nothing and brings its caller an empty list, and edits go
unnoticed until somebody listens again. From those that are made after it nothing is taken. -/
theorem shutdown_is_final (net : Network) (u : Setup) (steps : List Step) :
    let last := run net steps { state := u.checker }
    last.log = told net (trace net steps u.checker) ∧
    ∀ later d earlier, trace net steps u.checker = later ++ d :: earlier →
      d.move = .act .shutdown →
      let old (job : Job) : Prop := job.generation ≤ d.before.generation
      (∀ job ∈ d.before.waiting, old job) ∧ (d.after net).timer.isPending = false ∧
      (∀ m ∈ later, ∀ job ∈ m.requested, ¬ old job) ∧
      d.before.waiting ++ later.reverse.flatMap Moment.requested =
        later.reverse.flatMap (Moment.ended net) ++ last.state.waiting ∧
      (last.state.running = none → last.state.queue = []) ∧
      ((∀ check, d.before.running = some check →
          d.time + check.snapshot.settings.timeout + u.gate ≤ last.now) →
        d.before.waiting <+: later.reverse.flatMap (Moment.ended net)) ∧
      ∀ newer m between, later = newer ++ m :: between →
        (∀ job, m.job? = some job → old job →
          (m.after net).status = m.before.status ∧ (m.after net).sink = m.before.sink ∧
          (m.after net).history = m.before.history ∧
          (∀ e ∈ m.emitted net, (∃ id alive, e = .probed id alive) ∨
            ∃ id, job.requester = some id ∧ e = .delivered id []) ∧
          (m.ended net = [job] →
            ∀ id, job.requester = some id → .delivered id [] ∈ m.emitted net)) ∧
        ((∀ x ∈ between, x.move.isListen = false) →
          (m.move = .notice → m.after net = m.before) ∧
          ∀ action, m.move = .act action → action.isEdit = true →
            ∃ buffer, m.after net = { m.before with buffer }) ∧
        ((∀ x ∈ between, x.move.isShutdown = false) →
          ∀ job, m.job? = some job → ¬ old job → job.generation = m.before.generation ∧
            (m.ended net = [job] → (m.move = .turn job ∧ m.before.reading = none) ∨
              ∃ ds, .displayed ds ∈ m.emitted net ∧
                ∀ id, job.requester = some id → .delivered id ds ∈ m.emitted net)) := by
  intro last
  refine ⟨log_eq_told net steps u.checker rfl, ?_⟩
  intro later d earlier split down old
  obtain ⟨standing, quiet, at_moment⟩ := standing_trace net u steps
  have stamped := (at_moment later d earlier split).1.stamped
  have waited : ∀ job ∈ d.before.waiting, old job := stamped.past
  have passed : ∀ newer m between, later = newer ++ m :: between →
      (Standing net u m.time (between ++ d :: earlier) m.before ∧ m.move.Ready m.before) ∧
        After net d between m.before := by
    intro newer m between rest
    have here := at_moment newer m (between ++ d :: earlier) (by rw [split, rest]; simp)
    exact ⟨here, here.1.after between d earlier rfl down⟩
  refine ⟨waited, ?_, ?_, (standing.after later d earlier split down).served, quiet.queue, ?_, ?_⟩
  · rw [Moment.after, down]
    rfl
  · intro m member job asked before
    obtain ⟨newer, between, rest⟩ := List.append_of_mem member
    obtain ⟨⟨here, _⟩, after⟩ := passed newer m between rest
    exact after.stale before (here.stamped.requested m.time m.move job asked)
  · intro long
    exact old_served standing split down (no_old_waiting standing quiet split down long) waited
  · intro newer m between rest
    obtain ⟨⟨here, ready⟩, after⟩ := passed newer m between rest
    refine ⟨?_, ?_, ?_⟩
    · intro job belongs before
      have discards : Discards m.before (m.after net) job :=
        discards_apply ready here.locked belongs (after.stale before)
      exact ⟨discards.status, discards.sink, discards.history, discards.emitted⟩
    · intro unheard
      have deaf := after.listener unheard
      refine ⟨?_, ?_⟩
      · intro notices
        rw [Moment.after, notices]
        exact notice_of_deaf m.time deaf
      · intro action acts edit
        rw [Moment.after, acts]
        exact edit_apply edit
    · intro up job belongs after_shutdown
      have present := after.generation
      rw [List.countP_eq_zero.mpr (fun x member => by simp [up x member])] at present
      have past := here.stamped.past job (job_mem_waiting ready belongs)
      have current : job.generation = m.before.generation := by
        have : ¬ job.generation ≤ d.before.generation := after_shutdown
        omega
      refine ⟨current, ?_⟩
      intro finished
      have free := Moment.running_of_ended finished
      rcases delivers_apply ready here.locked belongs current free with unread | delivers
      · exact .inl unread
      · exact .inr (Delivers.emitted delivers)

end BufferLint.Checker
