import BufferLint.Proofs.Check.Shutdown

/-! First come, first served, over whole runs. Requests get their turns in the order in which they
were made, each once; the next one gets it when the check before it is over; so what checks show is
in the order of requests, and never of a text that is older than one shown before. -/
namespace BufferLint.Checker

/-- What moves and the passing of time preserve, on top of what is known of every run, holds at all
its moments. -/
theorem timed_invariant (net : Network) (u : Setup) (P : Nat → List Moment → Checker → Prop)
    (move : ∀ now past s m, Move.Ready s m → Standing net u now past s → P now past s →
      P now (⟨now, m, s⟩ :: past) (m.apply net now s))
    (flush : ∀ now past s, P now past s → P now past { s with effects := [] })
    (wait : ∀ now k past s, (∀ time, s.nextDue = some time → now + k ≤ time) → P now past s →
      P (now + k) past s)
    (start : P 0 [] u.checker) (steps : List Step) :
    P (run net steps { state := u.checker }).now (trace net steps u.checker)
        (run net steps { state := u.checker }).state ∧
      ∀ later m earlier, trace net steps u.checker = later ++ m :: earlier →
        P m.time earlier m.before := by
  have kept := trace_invariant net (fun now past s => Standing net u now past s ∧ P now past s)
    ?_ ?_ ?_ ?_ steps u.checker rfl (quiet_setup 0 u) ⟨standing_setup net u, start⟩
  · obtain ⟨last, _, all⟩ := kept
    exact ⟨last.2, fun later m earlier split => (all later m earlier split).1.2⟩
  · intro now past s m ready holds
    exact ⟨standing_apply m ready holds.1, move now past s m ready holds.1 holds.2⟩
  · intro now past s holds
    exact ⟨standing_flush holds.1, flush now past s holds.2⟩
  · intro now past s holds
    exact holds.1.locked.quiet net now
  · intro now k past s _ early holds
    exact ⟨standing_wait k early holds.1, wait now k past s early holds.2⟩

theorem standing_invariant (net : Network) (u : Setup) (P : List Moment → Checker → Prop)
    (move : ∀ now past s m, Move.Ready s m → Standing net u now past s → P past s →
      P (⟨now, m, s⟩ :: past) (m.apply net now s))
    (flush : ∀ past s, P past s → P past { s with effects := [] }) (start : P [] u.checker)
    (steps : List Step) :
    P (trace net steps u.checker) (run net steps { state := u.checker }).state ∧
      ∀ later m earlier, trace net steps u.checker = later ++ m :: earlier →
        P earlier m.before :=
  timed_invariant net u (fun _ => P) move (fun _ => flush) (fun _ _ _ _ _ holds => holds) start
    steps

/-- What holds right after moments of one kind, and is preserved by moves of another kind, holds as
long as only such moves are made. -/
theorem since_invariant (net : Network) (u : Setup) (kind later : Moment → Prop)
    (P : Moment → List Moment → Checker → Prop) (start : ∀ d, kind d → P d [] (d.after net))
    (move : ∀ now newer d older s m, Move.Ready s m → Standing net u now (newer ++ d :: older) s →
      later ⟨now, m, s⟩ → P d newer s → P d (⟨now, m, s⟩ :: newer) (m.apply net now s))
    (flush : ∀ d newer s, P d newer s → P d newer { s with effects := [] }) (steps : List Step) :
    (∀ newer d older, trace net steps u.checker = newer ++ d :: older → kind d →
      (∀ m ∈ newer, later m) → P d newer (run net steps { state := u.checker }).state) ∧
    ∀ front m newer d older, trace net steps u.checker = front ++ m :: (newer ++ d :: older) →
      kind d → (∀ x ∈ newer, later x) → P d newer m.before := by
  have kept := standing_invariant net u (fun past s => ∀ newer d older,
    past = newer ++ d :: older → kind d → (∀ m ∈ newer, later m) → P d newer s) ?_ ?_ ?_ steps
  · constructor
    · exact kept.1
    · intro front m newer d older split
      exact kept.2 front m _ split newer d older rfl
  · intro now past s m ready standing before newer d older split first since
    cases newer with
    | nil =>
      cases split
      exact start _ first
    | cons last newer =>
      cases split
      have held := before newer d older rfl first
        (fun x member => since x (List.mem_cons_of_mem _ member))
      exact move now newer d older s m ready standing (since _ List.mem_cons_self) held
  · intro past s before newer d older split first since
    exact flush d newer s (before newer d older split first since)
  · intro newer d older split
    simp at split

def Moment.admitted (m : Moment) : List Job :=
  match m.move with
  | .turn job => [job]
  | _ => []

def requests (past : List Moment) : List Job := past.reverse.flatMap Moment.requested

def admissions (past : List Moment) : List Job := past.reverse.flatMap Moment.admitted

def endings (net : Network) (past : List Moment) : List Job :=
  past.reverse.flatMap (Moment.ended net)

@[simp] theorem requests_cons (m : Moment) (past : List Moment) :
    requests (m :: past) = requests past ++ m.requested := by
  simp [requests]

@[simp] theorem admissions_cons (m : Moment) (past : List Moment) :
    admissions (m :: past) = admissions past ++ m.admitted := by
  simp [admissions]

@[simp] theorem endings_cons (net : Network) (m : Moment) (past : List Moment) :
    endings net (m :: past) = endings net past ++ m.ended net := by
  simp [endings]

theorem endings_append (net : Network) (later earlier : List Moment) :
    endings net (later ++ earlier) = endings net earlier ++ endings net later := by
  simp [endings]

/-- Nobody is lost, doubled or overtaken, and of those that got their turn all are through but the
one that is running. -/
structure Served (net : Network) (past : List Moment) (s : Checker) : Prop where
  requests : requests past = admissions past ++ s.queue
  admissions : admissions past = endings net past ++ (s.running.map RunningCheck.job).toList

section

variable {net : Network} {now : Nat} {past : List Moment} {s : Checker}
  {owed : Job → Snapshot → Outcome → Prop}

theorem queue_apply (net : Network) (now : Nat) (m : Move) (ready : m.Ready s) :
    s.queue ++ Moment.requested ⟨now, m, s⟩ =
      Moment.admitted ⟨now, m, s⟩ ++ (m.apply net now s).queue := by
  cases m with
  | turn job =>
    obtain ⟨rest, first⟩ := List.head?_eq_some_iff.mp ready.2
    have queue := (keeps_start net now { s with queue := rest } job).queue
    rw [apply_turn first, queue, first]
    simp [Moment.requested, Moment.admitted]
  | act action => exact (queue_act action now s).symm
  | notice =>
    exact (List.append_nil _).trans (notices_notice now s).frame.1.symm
  | fireTimer => exact (queue_fireTimer now s).symm
  | pollGateway => exact (List.append_nil _).trans (keeps_pollGateway now s).queue.symm
  | pollEngine => exact (List.append_nil _).trans (keeps_pollEngine now s).queue.symm

theorem lock_apply (net : Network) (now : Nat) (m : Move) (ready : m.Ready s)
    (locked : Locked s owed) :
    (s.running.map RunningCheck.job).toList ++ Moment.admitted ⟨now, m, s⟩ =
      Moment.ended net ⟨now, m, s⟩ ++
        ((m.apply net now s).running.map RunningCheck.job).toList := by
  have served := served_apply net now m ready locked
  have queue := queue_apply net now m ready
  simp only [waiting, List.append_assoc, queue] at served
  simp only [← List.append_assoc] at served
  exact List.append_cancel_right served

theorem Served.apply (m : Move) (ready : m.Ready s) (locked : Locked s owed)
    (served : Served net past s) : Served net (⟨now, m, s⟩ :: past) (m.apply net now s) := by
  constructor
  · rw [requests_cons, admissions_cons, served.requests, List.append_assoc,
      queue_apply net now m ready, List.append_assoc]
  · rw [admissions_cons, endings_cons, served.admissions, List.append_assoc,
      lock_apply net now m ready locked, List.append_assoc]

end

def Effect.onSink : Effect → Bool
  | .displayed _ | .cleared => true
  | _ => false

def Effect.content : Effect → List Diagnostic
  | .displayed ds => ds
  | _ => []

/- At most one thing is done to the display, and that only under a condition. -/
def Paints (s t : Checker) (only : Prop) : Prop :=
  ∃ new, t.effects = new ++ s.effects ∧
    ((new.filter Effect.onSink = [] ∧ t.sink = s.sink) ∨
      (∃ e, new.filter Effect.onSink = [e] ∧ t.sink = Effect.content e) ∧ only)

/- A check leaves the display alone until it is over, and then too unless it is of the present
generation. -/
def Touches (s t : Checker) (job : Job) : Prop :=
  Paints s t (t.running = none ∧ job.generation = s.generation)

theorem Probes.onSink {p : List Effect} (probes : Probes p) : p.filter Effect.onSink = [] := by
  apply List.filter_eq_nil_iff.mpr
  intro e member
  obtain ⟨id, alive, rfl⟩ := probes e member
  simp [Effect.onSink]

theorem requester_onSink (job : Job) (ds : List Diagnostic) :
    (job.requester.map (fun id => Effect.delivered id ds)).toList.filter Effect.onSink = [] := by
  cases job.requester <;> rfl

theorem conclusion_onSink (s : Checker) (check : RunningCheck) (raw : List Diagnostic) :
    (s.conclusion check raw).filter Effect.onSink =
      if check.job.generation = s.generation then
        [.displayed (Diagnostic.keepAtLeast check.snapshot.settings.level raw)]
      else [] := by
  unfold conclusion
  dsimp only
  split
  · simp only [List.filter_append, requester_onSink]
    cases s.history <;> rfl
  · exact requester_onSink _ _

@[simp] theorem finish_sink (s : Checker) (job : Job) (ds : List Diagnostic) :
    (s.finish job ds).sink = s.sink := by
  unfold finish
  cases job.requester <;> rfl

theorem conclude_sink (s : Checker) (check : RunningCheck) (raw : List Diagnostic)
    (failure : Option ServiceError) :
    (s.conclude check raw failure).sink =
      if check.job.generation = s.generation then
        Diagnostic.keepAtLeast check.snapshot.settings.level raw
      else s.sink := by
  unfold conclude record
  split
  · rw [finish_sink]
    dsimp only
    split <;> rfl
  · exact finish_sink _ _ _

theorem touches_conclude (s : Checker) (check : RunningCheck) (raw : List Diagnostic)
    (failure : Option ServiceError) :
    Touches s (s.conclude check raw failure) check.job := by
  refine ⟨_, conclude_effects s check raw failure, ?_⟩
  rw [conclusion_onSink, conclude_sink]
  split
  · rename_i current
    exact .inr ⟨⟨_, rfl, rfl⟩, conclude_running _ _ _ _, current⟩
  · exact .inl ⟨rfl, rfl⟩

section

variable {net : Network} {now : Nat} {s t : Checker} {check : RunningCheck} {out : Outcome}
  {job : Job} {owed : Job → Snapshot → Outcome → Prop}

theorem Touches.around {p q : List Effect} (before : Probes p) (after : Probes q)
    (inner : Touches (s.tell p) t job) : Touches s (t.tell q) job := by
  obtain ⟨new, added, touch⟩ := inner
  refine ⟨q ++ new ++ p, ?_, ?_⟩
  · simp only [tell] at added
    simp [tell, added]
  · have same : (q ++ new ++ p).filter Effect.onSink = new.filter Effect.onSink := by
      rw [List.filter_append, List.filter_append, before.onSink, after.onSink, List.append_nil,
        List.nil_append]
    rw [same]
    exact touch

theorem Progress.touches (progress : Progress now s check out t) : Touches s t check.job := by
  cases progress with
  | still heard checks probes =>
    exact Touches.around (p := []) (by simp [Probes]) probes ⟨[], rfl, .inl ⟨rfl, rfl⟩⟩
  | fallsBack asked due heard gate positive sound checks calls brings before after =>
    exact Touches.around before after ⟨[], rfl, .inl ⟨rfl, rfl⟩⟩
  | ends heard gate sound checks calls before after =>
    rename_i e g p q
    exact Touches.around before after
      (touches_conclude { s.tell p with engine := e, gateway := g } check out.1 out.2)

theorem Begins.touches {r : Snapshot} (begins : Begins net now s job r t) : Touches s t job := by
  cases begins with
  | remote goes progress => exact progress.touches
  | waits stays gate positive sound calls => exact ⟨[], rfl, .inl ⟨rfl, rfl⟩⟩
  | ends stays gate sound calls =>
    rename_i e
    exact touches_conclude { s with
      phase := .checking, status := .checking r.type, engine := e } ⟨job, r, .inProcess⟩ _ _

theorem Quits.touches (quits : Quits s job t) : Touches s t job := by
  have cleared : ∀ status, job.generation = s.generation →
      Touches s ({ s.clearSink with status := status }.finish job []) job := by
    intro status current
    refine ⟨(job.requester.map (fun id => Effect.delivered id [])).toList ++ [.cleared], ?_, ?_⟩
    · rw [finish_effects, List.append_assoc]
      rfl
    · rw [List.filter_append, requester_onSink]
      exact .inr ⟨⟨.cleared, rfl, finish_sink _ _ _⟩, finish_running _ _ _, current⟩
  have left : ∀ status, Touches s ({ s with status := status }.finish job []) job := by
    intro status
    exact ⟨_, finish_effects _ _ _, .inl ⟨requester_onSink _ _, finish_sink _ _ _⟩⟩
  cases quits with
  | discarded stale => exact left s.status
  | disabled current off => exact cleared _ current
  | empty current nothing => exact cleared _ current
  | unsupported current named unknown => exact left _

theorem touches_apply (net : Network) {m : Move} (ready : m.Ready s) (locked : Locked s owed)
    (belongs : Moment.job? ⟨now, m, s⟩ = some job) : Touches s (m.apply net now s) job := by
  cases locked.does net now m ready with
  | outside same nobody silent => cases nobody.symm.trans belongs
  | goesOn running polls due waits progress =>
    rw [job_polls now s polls, running] at belongs
    cases belongs
    exact progress.touches
  | quits free first same quits =>
    cases belongs
    rw [apply_turn first]
    exact quits.touches
  | begins free first current reads begins =>
    cases belongs
    rw [apply_turn first]
    exact begins.touches

end

theorem Moment.job_of_ended {net : Network} {m : Moment} {job : Job}
    (finished : m.ended net = [job]) : m.job? = some job := by
  unfold Moment.ended at finished
  split at finished
  · simpa using finished
  · cases finished

/- What the check of a moment does to the display, with its request. -/
def Moment.strokes (net : Network) (m : Moment) : List (Job × Effect) :=
  m.job?.toList.flatMap (fun job => ((m.emitted net).filter Effect.onSink).map (fun e => (job, e)))

def strokes (net : Network) (past : List Moment) : List (Job × Effect) :=
  past.reverse.flatMap (Moment.strokes net)

theorem Moment.strokes_cases (net : Network) {m : Moment} {owed : Job → Snapshot → Outcome → Prop}
    (ready : m.move.Ready m.before) (locked : Locked m.before owed) :
    m.strokes net = [] ∨ ∃ job e, m.strokes net = [(job, e)] ∧ m.ended net = [job] ∧
      job.generation = m.before.generation := by
  cases belongs : m.job? with
  | none => exact .inl (by simp [Moment.strokes, belongs])
  | some job =>
    obtain ⟨new, added, touch⟩ := touches_apply net ready locked belongs
    have same : m.emitted net = new := emitted_eq added
    rcases touch with ⟨nothing, _⟩ | ⟨⟨e, one, _⟩, finished, current⟩
    · exact .inl (by simp [Moment.strokes, belongs, same, nothing])
    · have idle : (m.after net).running = none := finished
      refine .inr ⟨job, e, ?_, ?_, current⟩
      · simp [Moment.strokes, belongs, same, one]
      · simp [Moment.ended, belongs, idle]

theorem Moment.strokes_of_displayed {net : Network} {m : Moment}
    {owed : Job → Snapshot → Outcome → Prop} (ready : m.move.Ready m.before)
    (locked : Locked m.before owed) {job : Job} (belongs : m.job? = some job)
    {ds : List Diagnostic} (displayed : .displayed ds ∈ m.emitted net) :
    m.strokes net = [(job, .displayed ds)] := by
  have member : (job, Effect.displayed ds) ∈ m.strokes net := by
    simp [Moment.strokes, belongs, displayed, Effect.onSink]
  rcases Moment.strokes_cases net ready locked with nothing | ⟨other, e, one, _, _⟩
  · simp [nothing] at member
  · rw [one] at member ⊢
    rw [List.mem_singleton.mp member]

/-- Only a check displays something, and it is the last that got its turn. -/
theorem Moment.job_of_displayed {net : Network} {m : Moment} {earlier : List Moment}
    (ready : m.move.Ready m.before) (locked : Locked m.before (owed net earlier))
    {ds : List Diagnostic} (displayed : .displayed ds ∈ m.emitted net) :
    ∃ job s, m.job? = some job ∧ holder (m :: earlier) = some (job, s) := by
  obtain ⟨now, move, s⟩ := m
  cases locked.does net now move ready with
  | outside same nobody silent =>
    obtain ⟨new, added, kinds⟩ := silent
    rw [emitted_eq added] at displayed
    cases List.all_eq_true.mp kinds _ displayed
  | goesOn running polls due waits progress =>
    obtain ⟨began, held, _⟩ := due
    refine ⟨_, began, by rw [job_polls now s polls, running]; rfl, ?_⟩
    rcases polls with rfl | rfl <;> exact held
  | quits free first same quits => exact ⟨_, s, rfl, rfl⟩
  | begins free first current reads begins => exact ⟨_, s, rfl, rfl⟩

theorem strokes_sublist {net : Network} {past : List Moment}
    (all : ∀ m ∈ past, m.strokes net = [] ∨ ∃ job e, m.strokes net = [(job, e)] ∧
      m.ended net = [job] ∧ job.generation = m.before.generation) :
    ((strokes net past).map Prod.fst).Sublist (endings net past) := by
  induction past with
  | nil => exact .slnil
  | cons m rest ih =>
    have behind := ih (fun x member => all x (List.mem_cons_of_mem _ member))
    have here : ((m.strokes net).map Prod.fst).Sublist (m.ended net) := by
      rcases all m (by simp) with nothing | ⟨job, e, one, finished, _⟩
      · simp [nothing]
      · simp [one, finished]
    have split : strokes net (m :: rest) = strokes net rest ++ m.strokes net := by
      simp [strokes]
    rw [split, List.map_append, endings_cons]
    exact behind.append here

theorem buffer_apply (net : Network) (now : Nat) (s : Checker) (m : Move) :
    (m.apply net now s).buffer = s.buffer ∨
      (m.apply net now s).buffer.revision = s.buffer.revision + 1 := by
  cases m with
  | act action =>
    cases action with
    | toggleEnabled => exact .inl (aside_saveSettings now _ s).buffer
    | toggleRemote => exact .inl (aside_saveSettings now _ s).buffer
    | putSettings settings => exact .inl (aside_putSettings net settings now s).buffer
    | setText text => exact .inr rfl
    | switchTo name text => exact .inr rfl
    | close => exact .inr rfl
    | _ => exact .inl rfl
  | notice => exact .inl (aside_notice now s).buffer
  | fireTimer => exact .inl (aside_fireTimer now s).buffer
  | pollGateway => exact .inl (keeps_pollGateway now s).buffer
  | pollEngine => exact .inl (keeps_pollEngine now s).buffer
  | turn job => exact .inl (keeps_start net now { s with queue := s.queue.tail } job).buffer

/- One state's buffer is that of another, or older. -/
def NotNewer (s t : Checker) : Prop :=
  s.buffer.revision < t.buffer.revision ∨ s.buffer = t.buffer

theorem NotNewer.apply {net : Network} {now : Nat} {s t : Checker} (older : NotNewer s t)
    (m : Move) : NotNewer s (m.apply net now t) := by
  rcases buffer_apply net now t m with same | next
  · rcases older with less | equal
    · exact .inl (by rw [same]; exact less)
    · exact .inr (equal.trans same.symm)
  · rcases older with less | equal
    · exact .inl (by omega)
    · exact .inl (by rw [equal]; omega)

theorem holder_mem {past : List Moment} {job : Job} {s : Checker}
    (held : holder past = some (job, s)) :
    ∃ newer t older, past = newer ++ t :: older ∧ t.move = .turn job ∧ t.before = s := by
  obtain ⟨newer, t, older, split, turn, _⟩ := List.findSome?_eq_some_iff.mp held
  refine ⟨newer, t, older, split, ?_⟩
  unfold Moment.turn? at turn
  split at turn
  · rename_i next same
    cases turn
    exact ⟨same, rfl⟩
  · cases turn

structure Orderly (net : Network) (past : List Moment) (s : Checker) : Prop where
  served : Served net past s
  generation : s.generation = past.countP (fun m => m.move.isShutdown)
  aged : ∀ m ∈ past, NotNewer m.before s
  lasts : ∀ check, s.running = some check →
    ∃ t ∈ past, t.move = .turn check.job ∧ Within t.time s check

section

variable {net : Network} {now : Nat} {past : List Moment} {s : Checker}
  {owed : Job → Snapshot → Outcome → Prop}

theorem Orderly.lasts_apply (orderly : Orderly net past s) (m : Move) (ready : m.Ready s)
    (locked : Locked s owed) (timely : Timely now s) (check : RunningCheck)
    (running : (m.apply net now s).running = some check) :
    ∃ t ∈ (⟨now, m, s⟩ : Moment) :: past,
      t.move = .turn check.job ∧ Within t.time (m.apply net now s) check := by
  cases locked.does net now m ready with
  | outside same nobody silent =>
    obtain ⟨t, member, turn, within⟩ := orderly.lasts check (same.running ▸ running)
    exact ⟨t, List.mem_cons_of_mem _ member, turn, within.congr same⟩
  | goesOn before polls due waits progress =>
    rcases progress.running before with finished | ⟨stage, still⟩
    · cases finished.symm.trans running
    · cases Option.some.inj (still.symm.trans running)
      obtain ⟨t, member, turn, within⟩ := orderly.lasts _ before
      exact ⟨t, List.mem_cons_of_mem _ member, turn,
        (progress.within timely.ahead within).2 _ running before⟩
  | quits free first same quits =>
    rw [apply_turn first] at running
    cases (same.running.trans free).symm.trans running
  | begins free first current reads begins =>
    obtain ⟨calls, checks⟩ := locked.free free
    rw [apply_turn first] at running ⊢
    have within := (begins.timely calls checks).soon check running
    rcases begins.running with finished | ⟨stage, still⟩
    · cases finished.symm.trans running
    · cases Option.some.inj (still.symm.trans running)
      exact ⟨_, List.mem_cons_self, rfl, within⟩

theorem Orderly.apply (orderly : Orderly net past s) (m : Move) (ready : m.Ready s)
    (locked : Locked s owed) (timely : Timely now s) :
    Orderly net (⟨now, m, s⟩ :: past) (m.apply net now s) where
  served := orderly.served.apply m ready locked
  generation := by
    rw [generation_apply, orderly.generation, List.countP_cons]
    cases m.isShutdown <;> rfl
  aged x member := by
    rcases List.mem_cons.mp member with rfl | before
    · exact NotNewer.apply (.inr rfl) m
    · exact (orderly.aged x before).apply m
  lasts := orderly.lasts_apply m ready locked timely

end

theorem orderly_trace (net : Network) (u : Setup) (steps : List Step) :
    Orderly net (trace net steps u.checker) (run net steps { state := u.checker }).state ∧
      ∀ later m earlier, trace net steps u.checker = later ++ m :: earlier →
        Orderly net earlier m.before := by
  refine standing_invariant net u (Orderly net) ?_ ?_ ?_ steps
  · intro now past s m ready standing orderly
    exact orderly.apply m ready standing.locked standing.timely
  · intro past s orderly
    refine ⟨⟨orderly.served.requests, orderly.served.admissions⟩, orderly.generation,
      orderly.aged, ?_⟩
    intro check running
    obtain ⟨t, member, turn, within⟩ := orderly.lasts check running
    exact ⟨t, member, turn, within.service, within.engine⟩
  · refine ⟨⟨rfl, rfl⟩, rfl, by simp, ?_⟩
    intro check running
    cases running

theorem soon_over (net : Network) (u : Setup) (steps : List Step) (check : RunningCheck)
    (running : (run net steps { state := u.checker }).state.running = some check) :
    ∃ t ∈ trace net steps u.checker, t.move = .turn check.job ∧
      (run net steps { state := u.checker }).now <
        t.time + check.snapshot.settings.timeout + u.gate := by
  obtain ⟨standing, quiet, _⟩ := standing_trace net u steps
  obtain ⟨t, member, turn, within⟩ := (orderly_trace net u steps).1.lasts check running
  obtain ⟨out, _, waits⟩ := standing.locked.held check running
  have soon := within.now_lt quiet waits
  rw [standing.gate] at soon
  exact ⟨t, member, turn, soon⟩

/-- The check that shows something last had the lock last: it read no older text. -/
theorem notNewer_of_holders (net : Network) {newer between older : List Moment} {m x : Moment}
    {job other : Job} {s t : Checker}
    (aged : ∀ front y back, newer ++ m :: (between ++ x :: older) = front ++ y :: back →
      Orderly net back y.before)
    (last : holder (m :: (between ++ x :: older)) = some (job, s))
    (first : holder (x :: older) = some (other, t)) : NotNewer t s := by
  have parts : holder (m :: (between ++ x :: older)) =
      (holder (m :: between)).or (holder (x :: older)) := by
    rw [← List.cons_append]
    exact List.findSome?_append
  rw [parts] at last
  cases recent : holder (m :: between) with
  | none =>
    rw [recent, Option.none_or, first] at last
    cases last
    exact .inr rfl
  | some found =>
    rw [recent, Option.some_or] at last
    cases last
    obtain ⟨front, y, back, split, _, rfl⟩ := holder_mem recent
    obtain ⟨late, z, early, split', _, rfl⟩ := holder_mem first
    have orderly := aged (newer ++ front) y (back ++ x :: older) (by
      rw [← List.cons_append, split]
      simp)
    exact orderly.aged z (by simp [split'])

/-- Checks are served one at a time, in the order of their requests, and what they show comes in
that order. All that had their turn are through, but one at most, and none is dropped. What a check
shows comes of the text that it read with its turn, which is no older than what was read for an
earlier display. -/
theorem checks_run_in_request_order (net : Network) (u : Setup) (steps : List Step) :
    let last := run net steps { state := u.checker }
    let past := trace net steps u.checker
    last.log = told net past ∧
    Served net past last.state ∧
    (last.state.running = none → last.state.queue = []) ∧
    (∀ check, last.state.running = some check → ∃ t ∈ past, t.move = .turn check.job ∧
      last.now < t.time + check.snapshot.settings.timeout + u.gate) ∧
    ((strokes net past).map Prod.fst).Sublist (requests past) ∧
    ∀ later m earlier, past = later ++ m :: earlier →
      Served net earlier m.before ∧
      (∀ job, m.move = .turn job → m.before.running = none) ∧
      m.before.generation = earlier.countP (fun x => x.move.isShutdown) ∧
      (∀ job ∈ m.requested, job.generation = m.before.generation) ∧
      (∀ job, m.ended net = [job] →
        if job.generation = m.before.generation then
          (m.move = .turn job ∧ m.before.reading = none) ∨
            ∃ ds, m.strokes net = [(job, .displayed ds)]
        else m.strokes net = []) ∧
      (m.ended net = [] → m.strokes net = []) ∧
      (∀ job, m.ended net = [job] → ∃ rest, requests past = endings net earlier ++ job :: rest) ∧
      ∀ ds, .displayed ds ∈ m.emitted net → ∃ job s r, holder (m :: earlier) = some (job, s) ∧
        m.strokes net = [(job, .displayed ds)] ∧ s.reading = some r ∧
        ds = Diagnostic.keepAtLeast r.settings.level (s.produced net r).1 ∧
        ∀ between x older other t, earlier = between ++ x :: older →
          (∃ shown, .displayed shown ∈ x.emitted net) → holder (x :: older) = some (other, t) →
          t.buffer.revision < s.buffer.revision ∨ t.buffer = s.buffer := by
  intro last past
  obtain ⟨standing, quiet, at_moment⟩ := standing_trace net u steps
  obtain ⟨orderly, at_order⟩ := orderly_trace net u steps
  have cases_of : ∀ m ∈ past, m.strokes net = [] ∨ ∃ job e, m.strokes net = [(job, e)] ∧
      m.ended net = [job] ∧ job.generation = m.before.generation := by
    intro m member
    obtain ⟨later, earlier, split⟩ := List.append_of_mem member
    obtain ⟨here, ready⟩ := at_moment later m earlier split
    exact Moment.strokes_cases net ready here.locked
  refine ⟨log_eq_told net steps u.checker rfl, orderly.served, quiet.queue, ?_, ?_, ?_⟩
  · intro check running
    obtain ⟨t, member, turn, within⟩ := orderly.lasts check running
    obtain ⟨out, _, waits⟩ := standing.locked.held check running
    have soon := within.now_lt quiet waits
    rw [standing.gate] at soon
    exact ⟨t, member, turn, soon⟩
  · have served := orderly.served
    rw [served.requests, served.admissions, List.append_assoc]
    exact (strokes_sublist cases_of).trans (List.sublist_append_left _ _)
  · intro later m earlier split
    obtain ⟨here, ready⟩ := at_moment later m earlier split
    have order := at_order later m earlier split
    have touch := cases_of m (by rw [split]; simp)
    refine ⟨order.served, ?_, order.generation, here.stamped.requested m.time m.move, ?_, ?_, ?_,
      ?_⟩
    · intro job turn
      rw [turn] at ready
      exact ready.1
    · intro job finished
      have belongs := Moment.job_of_ended finished
      split
      · rename_i current
        have idle := Moment.running_of_ended finished
        rcases delivers_apply ready here.locked belongs current idle with unread | delivers
        · exact .inl unread
        · obtain ⟨ds, displayed, _⟩ := Delivers.emitted delivers
          exact .inr ⟨ds, Moment.strokes_of_displayed ready here.locked belongs displayed⟩
      · rename_i stale
        rcases touch with nothing | ⟨other, e, _, same, current⟩
        · exact nothing
        · rw [finished] at same
          cases same
          exact absurd current stale
    · intro unfinished
      rcases touch with nothing | ⟨other, e, _, same, _⟩
      · exact nothing
      · rw [unfinished] at same
        cases same
    · intro job finished
      have all : endings net past = endings net earlier ++ job :: endings net later := by
        rw [split, endings_append, endings_cons, finished, List.append_assoc]
        rfl
      have served := orderly.served
      rw [served.requests, served.admissions, all, List.append_assoc, List.append_assoc]
      exact ⟨_, rfl⟩
    · intro ds displayed
      obtain ⟨job, r, out, ⟨s, held, reads, brings⟩, _, same, _⟩ :=
        displayed_apply m.move ready here.locked displayed
      obtain ⟨asked, began, belongs, had⟩ := Moment.job_of_displayed ready here.locked displayed
      cases Option.some.inj (had.symm.trans held)
      refine ⟨job, s, r, held, Moment.strokes_of_displayed ready here.locked belongs displayed,
        reads, by rw [same, brings], ?_⟩
      intro between x older other t parts _ first
      subst parts
      exact notNewer_of_holders net
        (fun front y back whole => at_order front y back (split.trans whole)) held first

end BufferLint.Checker
