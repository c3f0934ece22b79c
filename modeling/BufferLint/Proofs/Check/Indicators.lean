import BufferLint.Proofs.Check.Order

/-! What a checker shows about itself while it has nothing to do. Phase and status are written in
many places, also while a check is suspended; whoever writes them leaves them right for the time
when nothing runs, or has a check under way that will put them right when it ends. -/
namespace BufferLint.Checker

def Moment.counted (m : Moment) : Int := m.requested.length - m.admitted.length

def queued : List Moment → Int
  | [] => 0
  | m :: past => queued past + m.counted

theorem queued_eq_sub (past : List Moment) :
    queued past = (requests past).length - (admissions past).length := by
  induction past with
  | nil => rfl
  | cons m rest ih =>
    rw [queued, ih, Moment.counted, requests_cons, admissions_cons, List.length_append,
      List.length_append]
    omega

theorem Served.queued {net : Network} {past : List Moment} {s : Checker}
    (served : Served net past s) : queued past = s.queue.length := by
  rw [queued_eq_sub, served.requests, List.length_append]
  omega

/-- When nothing runs and nobody waits the phase tells of the timer alone, and the status speaks of
a check only while it runs. -/
structure Indicated (s : Checker) : Prop where
  phase : s.running = none → s.queue = [] →
    s.phase = if s.timer.isPending then .debouncing else .idle
  status : ∀ type, s.status = .checking type → ∃ check, s.running = some check ∧
    check.snapshot.type = type ∧ check.job.generation = s.generation

section

variable {net : Network} {now : Nat} {s t : Checker} {check : RunningCheck} {out : Outcome}
  {job : Job} {owed : Job → Snapshot → Outcome → Prop}

theorem Indicated.status_ne (indicated : Indicated s) (free : s.running = none)
    (type : FileType) : s.status ≠ .checking type := by
  intro shown
  obtain ⟨check, running, _⟩ := indicated.status type shown
  cases free.symm.trans running

theorem indicated_schedule (indicated : Indicated s) (delay : Nat) :
    Indicated (s.schedule now delay) := ⟨fun _ _ => rfl, indicated.status⟩

theorem finish_phase (s : Checker) (job : Job) (ds : List Diagnostic) :
    (s.finish job ds).phase =
      if s.timer.isPending || !s.queue.isEmpty then .debouncing else .idle := by
  unfold finish
  cases job.requester <;> rfl

theorem indicated_finish (ds : List Diagnostic) (silent : ∀ type, s.status ≠ .checking type) :
    Indicated (s.finish job ds) := by
  have keeps := keeps_finish s job ds
  constructor
  · intro _ nobody
    rw [keeps.queue] at nobody
    rw [finish_phase, keeps.timer, nobody, List.isEmpty_nil, Bool.not_true, Bool.or_false]
  · intro type shown
    rw [finish_status] at shown
    exact absurd shown (silent type)

theorem Snapshot.status_ne (r : Snapshot) (out : Outcome) (type : FileType) :
    r.status out ≠ .checking type := by
  unfold Snapshot.status
  cases out.2 <;> exact Status.noConfusion

theorem indicated_conclude (raw : List Diagnostic) (failure : Option ServiceError)
    (mine : ∀ type, s.status = .checking type → check.job.generation = s.generation) :
    Indicated (s.conclude check raw failure) := by
  unfold conclude
  split
  · apply indicated_finish
    intro type
    cases failure <;> exact Status.noConfusion
  · rename_i stale
    apply indicated_finish
    intro type shown
    exact stale (mine type shown)

theorem indicated_of_running (running : t.running = some check)
    (shown : ∀ type, t.status = .checking type → check.snapshot.type = type ∧
      check.job.generation = t.generation) : Indicated t := by
  constructor
  · intro free
    cases free.symm.trans running
  · intro type checking
    exact ⟨check, running, shown type checking⟩

theorem Indicated.running (indicated : Indicated s) (running : s.running = some check)
    (type : FileType) (checking : s.status = .checking type) :
    check.snapshot.type = type ∧ check.job.generation = s.generation := by
  obtain ⟨other, same, rest⟩ := indicated.status type checking
  cases Option.some.inj (running.symm.trans same)
  exact rest

theorem Progress.indicated (progress : Progress now s check out t)
    (running : s.running = some check) (indicated : Indicated s) : Indicated t := by
  have mine := indicated.running running
  cases progress with
  | still heard checks probes => exact indicated_of_running running mine
  | fallsBack => exact indicated_of_running rfl mine
  | ends heard gate sound checks calls before after =>
    rename_i e g p q
    have ended := indicated_conclude (s := { s.tell p with engine := e, gateway := g }) out.1 out.2
      (fun type checking => (mine type checking).2)
    exact ⟨ended.phase, ended.status⟩

theorem Begins.indicated {r : Snapshot} (begins : Begins net now s job r t)
    (current : job.generation = s.generation) : Indicated t := by
  cases begins with
  | remote goes progress =>
    refine progress.indicated rfl (indicated_of_running rfl ?_)
    intro type checking
    exact ⟨Status.checking.inj checking, current⟩
  | waits =>
    refine indicated_of_running rfl ?_
    intro type checking
    exact ⟨Status.checking.inj checking, current⟩
  | ends => exact indicated_conclude _ _ (fun _ _ => current)

theorem Quits.indicated (quits : Quits s job t) (silent : ∀ type, s.status ≠ .checking type) :
    Indicated t := by
  cases quits with
  | discarded => exact indicated_finish _ silent
  | disabled => exact indicated_finish _ (fun _ => Status.noConfusion)
  | empty => exact indicated_finish _ (fun _ => Status.noConfusion)
  | unsupported => exact indicated_finish _ (fun _ => Status.noConfusion)

theorem Saves.indicated {settings : Settings} (saves : Saves now settings s t)
    (indicated : Indicated s) : Indicated t := by
  cases saves with
  | refused => exact ⟨indicated.phase, indicated.status⟩
  | enabled => exact ⟨fun _ _ => rfl, indicated.status⟩
  | disabled => exact ⟨fun _ _ => rfl, fun _ => Status.noConfusion⟩

theorem indicated_act (action : Action) (indicated : Indicated s) :
    Indicated (act net action now s) := by
  have same : ∀ t : Checker, t.running = s.running → t.queue = s.queue → t.phase = s.phase →
      t.timer = s.timer → t.status = s.status → t.generation = s.generation → Indicated t := by
    intro t running queue phase timer status generation
    exact ⟨by rw [running, queue, phase, timer]; exact indicated.phase,
      by rw [running, status, generation]; exact indicated.status⟩
  cases action with
  | check id => exact ⟨fun _ nobody => absurd nobody (by simp [act]), indicated.status⟩
  | trigger => exact indicated_schedule indicated _
  | shutdown => exact ⟨fun _ _ => rfl, fun _ => Status.noConfusion⟩
  | toggleEnabled => exact (saves_saveSettings now _ s).indicated indicated
  | toggleRemote => exact (saves_saveSettings now _ s).indicated indicated
  | putSettings settings =>
    unfold act
    dsimp only
    split
    · exact same _ rfl rfl rfl rfl rfl rfl
    · exact indicated
  | _ => exact same _ rfl rfl rfl rfl rfl rfl

theorem Notices.indicated (notices : Notices now s t) (indicated : Indicated s) :
    Indicated t := by
  cases notices with
  | nothing => exact indicated
  | sees => exact ⟨indicated.phase, indicated.status⟩
  | triggers => exact ⟨fun _ _ => rfl, indicated.status⟩

theorem indicated_fireTimer (now : Nat) (indicated : Indicated s) :
    Indicated (s.fireTimer now) := by
  unfold fireTimer Timed.Debounce.fire
  cases waiting : s.timer.pending with
  | none =>
    have same : s.timer = ⟨none⟩ := congrArg Timed.Debounce.mk waiting
    exact ⟨same ▸ indicated.phase, indicated.status⟩
  | some entry =>
    dsimp only
    by_cases due : entry.1 ≤ now
    · rw [if_pos due]
      exact ⟨fun _ nobody => absurd nobody (by simp), indicated.status⟩
    · rw [if_neg due]
      exact ⟨indicated.phase, indicated.status⟩

theorem indicated_polls {m : Move} (polls : m = .pollGateway ∨ m = .pollEngine)
    (locked : Locked s owed) (indicated : Indicated s) : Indicated (m.apply net now s) := by
  cases running : s.running with
  | none =>
    obtain ⟨g, p, _, _, same⟩ := locked.polls_free net now running polls
    rw [same]
    exact ⟨indicated.phase, indicated.status⟩
  | some check =>
    obtain ⟨out, _, waits⟩ := locked.held check running
    exact (progress_polls net now polls running waits locked.sound).indicated running indicated

theorem indicated_apply (m : Move) (ready : m.Ready s) (locked : Locked s owed)
    (indicated : Indicated s) : Indicated (m.apply net now s) := by
  cases m with
  | act action => exact indicated_act action indicated
  | notice => exact (notices_notice now s).indicated indicated
  | fireTimer => exact indicated_fireTimer now indicated
  | pollEngine => exact indicated_polls (.inr rfl) locked indicated
  | pollGateway => exact indicated_polls (.inl rfl) locked indicated
  | turn job =>
    obtain ⟨free, head⟩ := ready
    obtain ⟨rest, first⟩ := List.head?_eq_some_iff.mp head
    have popped : Locked { s with queue := rest } owed := locked.congr ⟨rfl, rfl, rfl⟩
    rw [apply_turn first]
    rcases popped.turn net now job free with quits | ⟨current, r, _, begins⟩
    · exact quits.indicated (indicated.status_ne free)
    · exact begins.indicated current

theorem indicated_trace (net : Network) (u : Setup) (steps : List Step) :
    Indicated (run net steps { state := u.checker }).state ∧
      ∀ later m earlier, trace net steps u.checker = later ++ m :: earlier →
        Indicated m.before := by
  refine standing_invariant net u (fun _ => Indicated) ?_ ?_ ?_ steps
  · intro now past s m ready standing indicated
    exact indicated_apply m ready standing.locked indicated
  · intro past s indicated
    exact ⟨indicated.phase, indicated.status⟩
  · exact ⟨fun _ _ => rfl, fun _ => Status.noConfusion⟩

end

/- What is shown of a checker that has no check running and none waiting. -/
def Resting (past : List Moment) (s : Checker) : Prop :=
  s.running = none → s.queue = [] →
    queued past = 0 ∧ s.phase = (if s.timer.isPending then .debouncing else .idle) ∧
      ∀ type, s.status ≠ .checking type

theorem Indicated.resting {net : Network} {past : List Moment} {s : Checker}
    (indicated : Indicated s) (served : Served net past s) : Resting past s := by
  intro free nobody
  refine ⟨?_, indicated.phase free nobody, indicated.status_ne free⟩
  rw [served.queued, nobody]
  rfl

/-- Whenever no check is running or waiting, the counter is 0, the phase tells whether the timer is
pending, and the status speaks of no check. Nobody waits for a lock that is free, and a check that
is running is over in time. -/
theorem indicators_never_get_stuck (net : Network) (u : Setup) (steps : List Step) :
    let last := run net steps { state := u.checker }
    let past := trace net steps u.checker
    Resting past last.state ∧
    (last.state.running = none → last.state.queue = []) ∧
    (∀ check, last.state.running = some check → ∃ t ∈ past, t.move = .turn check.job ∧
      last.now < t.time + check.snapshot.settings.timeout + u.gate) ∧
    ∀ later m earlier, past = later ++ m :: earlier →
      Resting earlier m.before ∧
      queued earlier = m.before.queue.length ∧
      ∀ type, m.before.status = .checking type → ∃ check, m.before.running = some check ∧
        check.snapshot.type = type ∧ check.job.generation = m.before.generation := by
  intro last past
  obtain ⟨orderly, at_order⟩ := orderly_trace net u steps
  obtain ⟨indicated, at_moment⟩ := indicated_trace net u steps
  refine ⟨indicated.resting orderly.served, (standing_trace net u steps).2.1.queue,
    soon_over net u steps, ?_⟩
  intro later m earlier split
  have here := at_moment later m earlier split
  have served := (at_order later m earlier split).served
  exact ⟨here.resting served, served.queued, here.status⟩

end BufferLint.Checker
