import BufferLint.Proofs.Check.Display

/-! What the master switch does to checks that are under way. A check that gets its turn while
checking is disabled clears the display and nothing else; but a check that is running when the
switch is flipped is not told of it, and shows its findings in the end. -/
namespace BufferLint.Checker

section

variable {net : Network} {now : Nat} {s t : Checker} {m : Move}
  {owed : Job → Snapshot → Outcome → Prop}

theorem enabled_of_reading {r : Snapshot} (reads : s.reading = some r) :
    s.store.get.enabled = true := by
  obtain ⟨_, _, _, _, enabled, _⟩ := reading_eq_some reads
  exact enabled

theorem Saves.status {settings : Settings} (saves : Saves now settings s t) :
    t.status = s.status ∨ t.status = .disabled := by
  cases saves with
  | refused => exact .inl rfl
  | enabled => exact .inl rfl
  | disabled => exact .inr rfl

/-- Apart from checks and shutdowns, only a switch changes the status. -/
theorem status_outside (nobody : Moment.job? ⟨now, m, s⟩ = none) (up : m.isShutdown = false)
    (locked : Locked s owed) :
    (m.apply net now s).status = s.status ∨ (m.apply net now s).status = .disabled := by
  cases host : m.interrupts with
  | false => exact .inl (unseen_apply net locked nobody host).2.1
  | true =>
    cases m with
    | act action =>
      cases action with
      | toggleEnabled => exact (saves_saveSettings now _ s).status
      | toggleRemote => exact (saves_saveSettings now _ s).status
      | shutdown => cases up
      | _ => cases host
    | _ => cases host

theorem Progress.status {check : RunningCheck} {out : Outcome}
    (progress : Progress now s check out t) :
    t.status = s.status ∨ (t.running = none ∧ check.job.generation = s.generation) := by
  cases progress with
  | still => exact .inl rfl
  | fallsBack => exact .inl rfl
  | ends =>
    rename_i e g p q heard gate sound checks calls before after
    have status := conclude_status { s.tell p with engine := e, gateway := g } check out.1 out.2
    split at status
    · rename_i current
      exact .inr ⟨conclude_running _ _ _ _, current⟩
    · exact .inl status

theorem Quits.status {job : Job} (quits : Quits s job t) (off : s.store.get.enabled = false) :
    t.status = s.status ∨ t.status = .disabled := by
  cases quits with
  | discarded => exact .inl (finish_status _ _ _)
  | disabled => exact .inr (finish_status _ _ _)
  | empty _ _ on => cases off.symm.trans on
  | unsupported _ _ _ on => cases off.symm.trans on

/-- While checking is disabled no check begins: the lock stays where it is, or it is free. -/
theorem lock_disabled (net : Network) (now : Nat) (ready : m.Ready s) (locked : Locked s owed)
    (off : s.store.get.enabled = false) :
    (Moment.ended net ⟨now, m, s⟩ = [] ∧
        (m.apply net now s).running.map RunningCheck.job = s.running.map RunningCheck.job) ∨
      (Moment.ended net ⟨now, m, s⟩ ≠ [] ∧ (m.apply net now s).running = none) := by
  have after : Moment.after net ⟨now, m, s⟩ = m.apply net now s := rfl
  cases locked.does net now m ready with
  | outside same nobody silent =>
    left
    constructor
    · simp [Moment.ended, nobody]
    · rw [same.running]
  | goesOn running polls due waits progress =>
    rcases progress.running running with finished | ⟨stage, still⟩
    · right
      constructor
      · simp [Moment.ended, after, finished, job_polls now s polls, running]
      · exact finished
    · left
      constructor
      · simp [Moment.ended, after, still]
      · rw [still, running]
        rfl
  | quits free first same quits =>
    right
    rename_i job rest
    have finished : ((Move.turn job).apply net now s).running = none := by
      rw [apply_turn first]
      exact same.running.trans free
    constructor
    · simp [Moment.ended, after, finished, Moment.job?]
    · exact finished
  | begins free first current reads begins =>
    cases off.symm.trans (enabled_of_reading reads)

theorem status_disabled (net : Network) (now : Nat) (ready : m.Ready s) (locked : Locked s owed)
    (off : s.store.get.enabled = false) (up : m.isShutdown = false) :
    ((m.apply net now s).status = s.status ∨ (m.apply net now s).status = .disabled) ∨
      ∃ check, s.running = some check ∧ check.job.generation = s.generation ∧
        Moment.ended net ⟨now, m, s⟩ = [check.job] := by
  cases locked.does net now m ready with
  | outside same nobody silent => exact .inl (status_outside nobody up locked)
  | goesOn running polls due waits progress =>
    rcases progress.status with same | ⟨finished, current⟩
    · exact .inl (.inl same)
    · refine .inr ⟨_, running, current, ?_⟩
      have idle : (Moment.after net ⟨now, m, s⟩).running = none := finished
      simp [Moment.ended, idle, job_polls now s polls, running]
  | quits free first same quits =>
    left
    rw [apply_turn first]
    exact quits.status off
  | begins free first current reads begins =>
    cases off.symm.trans (enabled_of_reading reads)

end

/- The switch was flipped, and checking is disabled. -/
def Moment.SwitchesOff (m : Moment) : Prop :=
  m.move = .act .toggleEnabled ∧ (m.before.toggleEnabled m.time).2 = .ok false

/- What the switch does to a checker, besides saving. -/
structure SwitchedOff (s t : Checker) : Prop where
  status : t.status = .disabled
  sink : t.sink = []
  timer : t.timer.isPending = false
  running : t.running = s.running
  queue : t.queue = s.queue
  generation : t.generation = s.generation

theorem Moment.SwitchesOff.after {m : Moment} (off : m.SwitchesOff) (net : Network) :
    SwitchedOff m.before (m.after net) := by
  obtain ⟨toggles, answer⟩ := off
  have same : m.after net = (m.before.toggleEnabled m.time).1 := by
    rw [Moment.after, toggles]
    rfl
  rw [same]
  unfold toggleEnabled saveSettings at answer ⊢
  dsimp only at answer ⊢
  split at answer
  · rename_i store saved
    have disabled : (!m.before.store.get.enabled) = false := by simpa [Except.map] using answer
    simp only [applySettings, disabled, Bool.false_eq_true, if_false]
    exact ⟨rfl, rfl, rfl, rfl, rfl, rfl⟩
  · cases answer

/-- What is left of a switch `d` when the moments `newer` have passed and checking is still
disabled. -/
structure Silenced (net : Network) (d : Moment) (newer : List Moment) (s : Checker) : Prop where
  generation : s.generation =
    d.before.generation + newer.countP (fun m => m.move.isShutdown)
  held : endings net newer = [] →
    s.running.map RunningCheck.job = d.before.running.map RunningCheck.job
  free : endings net newer ≠ [] → s.running = none
  status : (∀ m ∈ newer, m.move.isShutdown = false) → s.status = .disabled ∨
    ∃ check, d.before.running = some check ∧ check.job.generation = d.before.generation ∧
      check.job ∈ endings net newer

theorem shutdowns_eq_zero {newer : List Moment} :
    newer.countP (fun m => m.move.isShutdown) = 0 ↔ ∀ m ∈ newer, m.move.isShutdown = false := by
  simp [List.countP_eq_zero]

theorem silenced_switch {net : Network} {d : Moment} (off : d.SwitchesOff) :
    Silenced net d [] (d.after net) := by
  have switched := off.after net
  refine ⟨switched.generation, fun _ => by rw [switched.running], ?_, fun _ => .inl switched.status⟩
  intro ended
  cases ended rfl

section

variable {net : Network} {now : Nat} {s : Checker} {m : Move} {d : Moment} {newer : List Moment}
  {owed : Job → Snapshot → Outcome → Prop}

theorem endings_eq_nil (next : Moment) :
    endings net (next :: newer) = [] ↔ endings net newer = [] ∧ next.ended net = [] := by
  rw [endings_cons, List.append_eq_nil_iff]

theorem Silenced.first (silenced : Silenced net d newer s) {check : RunningCheck}
    (running : s.running = some check) :
    ∃ first, d.before.running = some first ∧ first.job = check.job ∧ endings net newer = [] := by
  have nobody : endings net newer = [] := by
    by_contra somebody
    cases (silenced.free somebody).symm.trans running
  have same := silenced.held nobody
  rw [running] at same
  obtain ⟨first, was, job⟩ := Option.map_eq_some_iff.mp same.symm
  exact ⟨first, was, job, nobody⟩

theorem Silenced.apply (silenced : Silenced net d newer s) (ready : m.Ready s)
    (locked : Locked s owed) (off : s.store.get.enabled = false) :
    Silenced net d (⟨now, m, s⟩ :: newer) (m.apply net now s) := by
  have lock := lock_disabled net now ready locked off
  constructor
  · rw [generation_apply, silenced.generation, List.countP_cons]
    cases m.isShutdown <;> simp [Nat.add_assoc]
  · intro nobody
    obtain ⟨before, here⟩ := (endings_eq_nil _).mp nobody
    rcases lock with ⟨_, same⟩ | ⟨ended, _⟩
    · exact same.trans (silenced.held before)
    · exact absurd here ended
  · intro somebody
    rcases lock with ⟨here, same⟩ | ⟨_, free⟩
    · have before := silenced.free (fun nobody => somebody ((endings_eq_nil _).mpr ⟨nobody, here⟩))
      rw [before] at same
      simpa using same
    · exact free
  · intro up
    have earlier : ∀ x ∈ newer, x.move.isShutdown = false :=
      fun x member => up x (List.mem_cons_of_mem _ member)
    rcases status_disabled net now ready locked off (up _ List.mem_cons_self) with
      (same | disabled) | ⟨check, running, current, ended⟩
    · rcases silenced.status earlier with disabled | ⟨first, was, current, among⟩
      · exact .inl (same.trans disabled)
      · exact .inr ⟨first, was, current, by rw [endings_cons]; exact List.mem_append_left _ among⟩
    · exact .inl disabled
    · right
      obtain ⟨first, was, job, _⟩ := silenced.first running
      have present := silenced.generation
      rw [shutdowns_eq_zero.mpr earlier] at present
      refine ⟨first, was, ?_, ?_⟩
      · rw [job]
        omega
      · rw [endings_cons, ended, job]
        simp

end

theorem silenced_trace (net : Network) (u : Setup) (steps : List Step) (newer : List Moment)
    (m : Moment) (between : List Moment) (d : Moment) (earlier : List Moment)
    (split : trace net steps u.checker = newer ++ m :: (between ++ d :: earlier))
    (switch : d.SwitchesOff) (off : ∀ x ∈ between, x.before.store.get.enabled = false) :
    Silenced net d between m.before := by
  refine (since_invariant net u Moment.SwitchesOff (fun x => x.before.store.get.enabled = false)
    (Silenced net) ?_ ?_ ?_ steps).2 newer m between d earlier split switch off
  · intro d switch
    exact silenced_switch switch
  · intro now newer d older s m ready standing off silenced
    exact silenced.apply ready standing.locked off
  · intro d newer s silenced
    exact ⟨silenced.generation, silenced.held, silenced.free, silenced.status⟩

/-- While checking is disabled, a check that shows something was running before. -/
theorem running_of_displayed {net : Network} {m : Moment} {earlier : List Moment}
    (ready : m.move.Ready m.before) (locked : Locked m.before (owed net earlier))
    (off : m.before.store.get.enabled = false) {ds : List Diagnostic}
    (displayed : .displayed ds ∈ m.emitted net) :
    ∃ check, m.before.running = some check ∧ m.ended net = [check.job] ∧
      check.job.generation = m.before.generation := by
  obtain ⟨job, began, belongs, held⟩ := Moment.job_of_displayed ready locked displayed
  have one := Moment.strokes_of_displayed ready locked belongs displayed
  rcases Moment.strokes_cases net ready locked with nothing | ⟨other, e, same, ended, current⟩
  · cases nothing.symm.trans one
  · cases one.symm.trans same
    obtain ⟨_, r, _, ⟨h, owner, reads, _⟩, _⟩ := displayed_apply m.move ready locked displayed
    have holds : m.before.running.map RunningCheck.job = some job := by
      obtain ⟨now, move, s⟩ := m
      cases move with
      | turn next =>
        cases owner
        cases off.symm.trans (enabled_of_reading reads)
      | pollGateway => exact belongs
      | pollEngine => exact belongs
      | _ => cases belongs
    obtain ⟨check, running, rfl⟩ := Option.map_eq_some_iff.mp holds
    exact ⟨check, running, ended, current⟩

/- The check that was running at the switch `d` ends, first of all, and without a shutdown. -/
def EndsFirst (net : Network) (d m : Moment) (between : List Moment) (check : RunningCheck) :
    Prop :=
  d.before.running = some check ∧ check.job.generation = d.before.generation ∧
    (∀ x ∈ between, x.move.isShutdown = false) ∧ endings net between = [] ∧
    m.ended net = [check.job]

section

variable {net : Network} {m d : Moment} {between earlier : List Moment}
  (silenced : Silenced net d between m.before) (ready : m.move.Ready m.before)
  (locked : Locked m.before (owed net earlier))

include silenced ready locked

theorem Silenced.endsFirst_of_displayed (stamped : Stamped d.before)
    (off : m.before.store.get.enabled = false) {ds : List Diagnostic}
    (displayed : .displayed ds ∈ m.emitted net) : ∃ check, EndsFirst net d m between check := by
  obtain ⟨check, running, ended, current⟩ := running_of_displayed ready locked off displayed
  obtain ⟨first, was, job, nobody⟩ := silenced.first running
  have present := silenced.generation
  have past := stamped.past first.job (by simp [waiting, was])
  rw [← job] at ended current
  have up : between.countP (fun x => x.move.isShutdown) = 0 := by omega
  exact ⟨first, was, by omega, shutdowns_eq_zero.mp up, nobody, ended⟩

theorem Silenced.displayed_of_endsFirst {check : RunningCheck}
    (ends : EndsFirst net d m between check) : ∃ ds, .displayed ds ∈ m.emitted net := by
  obtain ⟨was, current, up, nobody, ended⟩ := ends
  have same := silenced.held nobody
  rw [was] at same
  obtain ⟨now, running, _⟩ := Option.map_eq_some_iff.mp same
  have present := silenced.generation
  rw [shutdowns_eq_zero.mpr up] at present
  rcases delivers_apply ready locked (Moment.job_of_ended ended) (current.trans present.symm)
    (Moment.running_of_ended ended) with ⟨turn, _⟩ | delivers
  · rw [turn] at ready
    cases ready.1.symm.trans running
  · obtain ⟨ds, displayed, _⟩ := Delivers.emitted delivers
    exact ⟨ds, displayed⟩

end

/-- A switch that disables checking silences all checks but the one that is running. That one is
never told: when it ends it displays its findings, unless it was out of date or a shutdown has come
in between. -/
theorem disabling_silences_all_but_the_running_check (net : Network) (u : Setup)
    (steps : List Step) :
    let last := run net steps { state := u.checker }
    let past := trace net steps u.checker
    last.log = told net past ∧
    ∀ later d earlier, past = later ++ d :: earlier → d.SwitchesOff →
      SwitchedOff d.before (d.after net) ∧
      ∀ newer m between, later = newer ++ m :: between →
        (∀ x ∈ m :: between, x.before.store.get.enabled = false) →
        ((∃ ds, .displayed ds ∈ m.emitted net) ↔ ∃ check, EndsFirst net d m between check) ∧
        ((∀ x ∈ m :: between, x.move.isShutdown = false) →
          (m.after net).status = .disabled ∨ ∃ check, d.before.running = some check ∧
            check.job.generation = d.before.generation ∧
            check.job ∈ endings net (m :: between)) := by
  intro last past
  refine ⟨log_eq_told net steps u.checker rfl, ?_⟩
  intro later d earlier split switch
  refine ⟨switch.after net, ?_⟩
  intro newer m between rest off
  have whole : past = newer ++ m :: (between ++ d :: earlier) := by rw [split, rest]; simp
  obtain ⟨_, _, at_moment⟩ := standing_trace net u steps
  obtain ⟨here, ready⟩ := at_moment newer m _ whole
  have stamped := (at_moment later d earlier split).1.stamped
  have disabled := off m List.mem_cons_self
  have silenced := silenced_trace net u steps newer m between d earlier whole switch
    (fun x member => off x (List.mem_cons_of_mem _ member))
  constructor
  · constructor
    · rintro ⟨ds, displayed⟩
      exact silenced.endsFirst_of_displayed ready here.locked stamped disabled displayed
    · rintro ⟨check, ends⟩
      exact silenced.displayed_of_endsFirst ready here.locked ends
  · intro up
    have after : Silenced net d (m :: between) (m.after net) :=
      silenced.apply ready here.locked disabled
    exact after.status up

/-- A check that waits for the engine's gate when checking is disabled displays its findings behind
the switch, and the status forgets it. -/
theorem running_check_displays_when_disabled :
    let start : Setup := ⟨.opened "app.js" "if (a == b) go();", .memory {}, some [], 300, {},
      fun _ => none, fun _ => none⟩
    let busy := run Network.down [.act (.check 0)] { state := start.checker }
    let last := run Network.down [.act .toggleEnabled, .sleep 1000] busy
    let found : Diagnostic :=
      ⟨0, 6, "Suggest using === instead of ==", .warning, "Local Checker", some "eqeqeq"⟩
    (busy.state.toggleEnabled busy.now).2.toOption = some false ∧
      last.log.filter (fun e => Effect.onSink e.2) = [(300, .displayed [found]), (1, .cleared)] ∧
      last.state.store.get.enabled = false ∧ last.state.status = .done 0 1 0 := by
  decide +kernel

end BufferLint.Checker
