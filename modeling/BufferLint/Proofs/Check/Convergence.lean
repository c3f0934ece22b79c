import BufferLint.Proofs.Check.Display

/-! No edit is lost. While there is a listener and nobody interferes, a change of the buffer is
seen, scheduled, queued and read; so when nothing is left to do, what is on display belongs to the
buffer as it is. -/
namespace BufferLint.Checker

theorem not_act_of_mem_turns (net : Network) (now : Nat) (jobs : List Job) (s : Checker) :
    ∀ m ∈ turns net now jobs s, ∀ action, m.move ≠ .act action := by
  induction jobs generalizing s with
  | nil => simp [turns]
  | cons job rest ih =>
    intro m member action
    simp only [turns, List.mem_cons] at member
    rcases member with rfl | behind
    · intro same
      cases same
    · split at behind
      · cases behind
      · exact ih _ m behind action

theorem not_act_of_mem_moments {net : Network} {now : Nat} {s : Checker} {m : Moment}
    (member : m ∈ moments net now s) (action : Action) : m.move ≠ .act action := by
  simp only [moments, List.mem_cons] at member
  intro same
  rcases member with rfl | rfl | rfl | rfl | turn
  · cases same
  · cases same
  · cases same
  · cases same
  · split at turn
    · cases turn
    · exact not_act_of_mem_turns net now _ _ m turn action same

/-- What holds when an instant is over holds when a run is over, and whenever its host does
something. -/
theorem settled_trace (net : Network) (Q : Checker → Prop)
    (settles : ∀ now s, Q { advance net now s with effects := [] }) (steps : List Step)
    (s : Checker) (flushed : s.effects = []) (start : Q s) :
    Q (run net steps { state := s }).state ∧
      ∀ m ∈ trace net steps s, ∀ action, m.move = .act action → Q m.before := by
  let I (q : Timed.Run Checker Moment) : Prop :=
    Q q.state ∧ ∀ m ∈ q.log.map Prod.snd, ∀ action, m.move = .act action → Q m.before
  have settle : ∀ q : Timed.Run Checker Moment,
      (∀ m ∈ q.log.map Prod.snd, ∀ action, m.move = .act action → Q m.before) →
      I (q.settle (observer net)) := by
    intro q acted
    refine ⟨settles q.now q.state, ?_⟩
    rw [Timed.Run.settle_log, List.map_append, List.map_reverse, List.map_map]
    simp only [observer, Function.comp_def, List.map_id']
    intro m member action acts
    rcases List.mem_append.mp member with new | old
    · exact absurd acts (not_act_of_mem_moments (List.mem_reverse.mp new) action)
    · exact acted m old action acts
  have elapse : ∀ ms q, I q → I (q.elapse (observer net) ms) :=
    Timed.Run.elapse_invariant (observer net) I (fun q k holds _ => holds)
      (fun q time holds _ => settle _ holds.2)
  have all : ∀ q : Timed.Run Checker Moment, I q → I (steps.foldl (observe net) q) := by
    induction steps with
    | nil => exact fun q holds => holds
    | cons step rest ih =>
      intro q holds
      apply ih
      cases step with
      | sleep ms => exact elapse ms q holds
      | act action =>
        apply elapse
        apply settle
        intro m member other acts
        rcases List.mem_cons.mp member with rfl | before
        · exact holds.1
        · exact holds.2 m before other acts
  have beside : Beside net { state := s } { state := s } := ⟨rfl, rfl, by rw [flushed]; rfl⟩
  obtain ⟨_, state, _⟩ := (beside_play steps beside flushed).1
  rw [state]
  exact all { state := s } ⟨start, by simp⟩

def Attentive (s : Checker) : Prop := ∀ seen, s.listener = some seen → seen = s.buffer.revision

section

variable {net : Network} {now : Nat} {s t : Checker}

theorem Attentive.keeps (attentive : Attentive s) (keeps : Keeps s t) : Attentive t := by
  intro seen listens
  rw [keeps.buffer]
  exact attentive seen (keeps.listener ▸ listens)

theorem attentive_notice (now : Nat) (s : Checker) : Attentive (s.notice now) := by
  unfold notice
  split
  · rename_i seen listens
    split
    · rename_i same
      intro other listens'
      cases Option.some.inj (listens.symm.trans listens')
      exact same
    · dsimp only
      split
      · intro other listens'
        exact (Option.some.inj listens').symm
      · intro other listens'
        exact (Option.some.inj listens').symm
  · rename_i deaf
    intro seen listens
    cases deaf.symm.trans listens

theorem Attentive.fireTimer (now : Nat) (attentive : Attentive s) :
    Attentive (s.fireTimer now) := by
  unfold Checker.fireTimer
  split <;> exact attentive

theorem Attentive.serve (jobs : List Job) (attentive : Attentive s) :
    Attentive (Checker.serve net now jobs s) := by
  induction jobs generalizing s with
  | nil => exact attentive
  | cons job rest ih =>
    have popped : Attentive { s with queue := rest } := attentive
    have started := popped.keeps (keeps_start net now { s with queue := rest } job)
    simp only [Checker.serve]
    split
    · exact started
    · exact ih started

theorem attentive_advance (net : Network) (now : Nat) (s : Checker) :
    Attentive (advance net now s) := by
  have fired := (attentive_notice now (pollEngine now (pollGateway now s))).fireTimer now
  unfold advance
  dsimp only
  split
  · exact fired
  · exact fired.serve _

end

theorem attentive_trace (net : Network) (u : Setup) (steps : List Step) :
    Attentive (run net steps { state := u.checker }).state ∧
      ∀ m ∈ trace net steps u.checker, ∀ action, m.move = .act action → Attentive m.before := by
  refine settled_trace net Attentive ?_ steps u.checker rfl ?_
  · intro now s
    have attentive := attentive_advance net now s
    generalize advance net now s = t at attentive ⊢
    exact attentive
  · intro seen listens
    cases listens

def Move.isEdit : Move → Bool
  | .act action => action.isEdit
  | _ => false

/-- Where the last edit is, if there was one: the listener has not seen it, its check is scheduled
or queued, or the last check has read it. -/
inductive Underway (newer : List Moment) (s : Checker) : Prop where
  | unchanged (unedited : ∀ m ∈ newer, m.move.isEdit = false)
  | unseen (late : s.listener ≠ some s.buffer.revision)
  | scheduled (pending : s.timer.isPending = true)
  | queued {job : Job} (waits : job ∈ s.queue) (current : job.generation = s.generation)
  /-- Who waits behind it is of the present generation, so it will read the same. -/
  | read {job : Job} {h : Checker} (held : holder newer = some (job, h))
      (began : job.generation = h.generation) (same : h.buffer = s.buffer)
      (fresh : ∀ next ∈ s.queue, next.generation = s.generation)

/-- What holds when somebody listens and the moments `newer` have passed. -/
structure Caught (net : Network) (newer : List Moment) (s : Checker) : Prop where
  listens : s.listener ≠ none
  generation : ∀ m ∈ newer, m.before.generation = s.generation
  underway : Underway newer s
  shown : ∀ job h, holder newer = some (job, h) → job.generation = h.generation →
    s.running = none → Displays net h s.sink

/- A move that neither interferes nor comes before the listener has seen the last edit. -/
structure Polite (s : Checker) (m : Move) : Prop where
  enabled : s.store.get.enabled = true
  realtime : s.store.get.realtime = true
  goesOn : m.interrupts = false
  attentive : ∀ action, m = .act action → Attentive s

section

variable {net : Network} {now : Nat} {newer : List Moment} {s t : Checker} {m : Move}

theorem Underway.mono {new : List Job} {next : Moment} (underway : Underway newer s)
    (unedited : next.move.isEdit = false) (unturned : next.turn? = none)
    (buffer : t.buffer = s.buffer) (listener : t.listener = s.listener)
    (timer : s.timer.isPending = true → t.timer.isPending = true) (queue : t.queue = s.queue ++ new)
    (generation : t.generation = s.generation)
    (fresh : ∀ job ∈ new, job.generation = s.generation) : Underway (next :: newer) t := by
  cases underway with
  | unchanged quiet =>
    refine .unchanged ?_
    intro m member
    rcases List.mem_cons.mp member with rfl | before
    · exact unedited
    · exact quiet m before
  | unseen late => exact .unseen (by rw [listener, buffer]; exact late)
  | scheduled pending => exact .scheduled (timer pending)
  | queued waits current =>
    have stays : _ ∈ t.queue := queue ▸ List.mem_append_left _ waits
    exact .queued stays (current.trans generation.symm)
  | read held began same all =>
    refine .read ?_ began (same.trans buffer.symm) ?_
    · rw [holder, List.findSome?_cons, unturned]
      exact held
    · intro job member
      rw [queue] at member
      rw [generation]
      rcases List.mem_append.mp member with old | late
      · exact all job old
      · exact fresh job late

theorem Underway.keeps {next : Moment} (underway : Underway newer s)
    (unedited : next.move.isEdit = false) (unturned : next.turn? = none) (keeps : Keeps s t) :
    Underway (next :: newer) t := by
  have queue : t.queue = s.queue ++ [] := by rw [keeps.queue, List.append_nil]
  refine underway.mono unedited unturned keeps.buffer keeps.listener ?_ queue keeps.generation ?_
  · rw [keeps.timer]
    exact id
  · simp

theorem generation_of_polite (polite : Polite s m) :
    (m.apply net now s).generation = s.generation := by
  have up : m.isShutdown = false := by
    cases m with
    | act action =>
      cases action with
      | shutdown => cases polite.goesOn
      | _ => rfl
    | _ => rfl
  rw [generation_apply, up]
  rfl

theorem act_frame (net : Network) (now : Nat) (s : Checker) {action : Action}
    (goesOn : (Move.act action).interrupts = false) (unedited : action.isEdit = false) :
    (act net action now s).buffer = s.buffer ∧
      ((act net action now s).listener = s.listener ∨
        (act net action now s).listener = some s.buffer.revision) ∧
      (s.timer.isPending = true → (act net action now s).timer.isPending = true) := by
  cases action with
  | shutdown => cases goesOn
  | toggleEnabled => cases goesOn
  | toggleRemote => cases goesOn
  | setText text => cases unedited
  | switchTo name text => cases unedited
  | close => cases unedited
  | listen => exact ⟨rfl, .inr rfl, id⟩
  | trigger => exact ⟨rfl, .inl rfl, fun _ => rfl⟩
  | putSettings settings =>
    unfold act
    dsimp only
    split <;> exact ⟨rfl, .inl rfl, id⟩
  | _ => exact ⟨rfl, .inl rfl, id⟩

theorem revision_edit (net : Network) (now : Nat) (s : Checker) {action : Action}
    (edit : action.isEdit = true) :
    (act net action now s).buffer.revision = s.buffer.revision + 1 := by
  cases action with
  | setText text => rfl
  | switchTo name text => rfl
  | close => rfl
  | _ => cases edit

theorem Underway.act {action : Action} (underway : Underway newer s)
    (polite : Polite s (.act action)) (stamped : Stamped s) (listens : s.listener ≠ none) :
    Underway (⟨now, .act action, s⟩ :: newer) (act net action now s) := by
  obtain ⟨seen, listener⟩ := Option.ne_none_iff_exists'.mp listens
  have caughtUp := polite.attentive action rfl seen listener
  cases edit : action.isEdit with
  | true =>
    have next := revision_edit net now s edit
    obtain ⟨buffer, only⟩ : ∃ buffer, Checker.act net action now s = { s with buffer } :=
      edit_apply edit
    have same : (Checker.act net action now s).listener = some s.buffer.revision := by
      rw [only, ← caughtUp]
      exact listener
    refine .unseen ?_
    rw [same, next]
    simp
  | false =>
    obtain ⟨buffer, heard, timer⟩ := act_frame net now s polite.goesOn edit
    have same : (Checker.act net action now s).listener = s.listener := by
      rcases heard with same | again
      · exact same
      · rw [again, listener, caughtUp]
    exact underway.mono edit rfl buffer same timer (queue_act action now s)
      (generation_of_polite (m := .act action) polite) (stamped.requested now (.act action))

theorem Underway.notice (underway : Underway newer s) (polite : Polite s .notice) :
    Underway (⟨now, .notice, s⟩ :: newer) (s.notice now) := by
  by_cases late : s.listener = some s.buffer.revision
  · have same : s.notice now = s := by simp [Checker.notice, late]
    rw [same]
    exact underway.keeps rfl rfl (.refl s)
  · cases listens : s.listener with
    | none =>
      rw [notice_of_deaf now listens]
      exact underway.keeps rfl rfl (.refl s)
    | some seen =>
      have unseen : seen ≠ s.buffer.revision := by
        intro same
        exact late (listens.trans (congrArg some same))
      refine .scheduled ?_
      simp [Checker.notice, listens, unseen, polite.enabled, polite.realtime, trigger, schedule,
        Timed.Debounce.schedule, Timed.Debounce.isPending]

theorem Underway.fireTimer (underway : Underway newer s) (stamped : Stamped s) :
    Underway (⟨now, .fireTimer, s⟩ :: newer) (s.fireTimer now) := by
  cases fired : s.timer.fire now with
  | mk timer task =>
    cases task with
    | some stamp =>
      have queue : (s.fireTimer now).queue = s.queue ++ [⟨none, stamp⟩] := by
        simp [Checker.fireTimer, fired]
      have current := stamped.requested now .fireTimer ⟨none, stamp⟩
        (by simp [Moment.requested, fired])
      have generation : (s.fireTimer now).generation = s.generation := by
        simp [Checker.fireTimer, fired]
      exact .queued (by rw [queue]; simp) (current.trans generation.symm)
    | none =>
      have stays : timer = s.timer := by
        unfold Timed.Debounce.fire at fired
        split at fired
        · split at fired
          · cases fired
          · exact (congrArg Prod.fst fired).symm
        · exact (congrArg Prod.fst fired).symm
      have same : s.fireTimer now = s := by
        simp [Checker.fireTimer, fired, stays]
      rw [same]
      exact underway.keeps rfl rfl (.refl s)

theorem Stamped.behind {job : Job} {rest : List Job} (stamped : Stamped s)
    (first : s.queue = job :: rest) (current : job.generation = s.generation) :
    ∀ next ∈ rest, next.generation = s.generation := by
  intro next member
  have ordered := (List.pairwise_append.mp stamped.ordered).2.1
  have past := stamped.past next (List.mem_append_right _ (by rw [first]; simp [member]))
  rw [first] at ordered
  have later := (List.pairwise_cons.mp ordered).1 next member
  omega

/-- Whoever gets the turn reads the buffer as it is. -/
theorem Underway.turn {job : Job} {rest : List Job} (underway : Underway newer s)
    (first : s.queue = job :: rest) (stamped : Stamped s) :
    Underway (⟨now, .turn job, s⟩ :: newer) (start net now { s with queue := rest } job) := by
  have keeps := keeps_start net now { s with queue := rest } job
  have queue : (start net now { s with queue := rest } job).queue = rest := keeps.queue
  have generation : (start net now { s with queue := rest } job).generation = s.generation :=
    keeps.generation
  have buffer : s.buffer = (start net now { s with queue := rest } job).buffer := keeps.buffer.symm
  cases underway with
  | unchanged quiet =>
    refine .unchanged ?_
    intro m member
    rcases List.mem_cons.mp member with rfl | before
    · rfl
    · exact quiet m before
  | unseen late =>
    refine .unseen ?_
    rw [keeps.listener, keeps.buffer]
    exact late
  | scheduled pending => exact .scheduled (by rw [keeps.timer]; exact pending)
  | queued waits current =>
    rw [first] at waits
    rcases List.mem_cons.mp waits with same | behind
    · -- the queue is ordered by generation, so nobody behind it is out of date
      rw [same] at current
      refine .read rfl current buffer ?_
      intro next member
      rw [queue] at member
      rw [generation]
      exact stamped.behind first current next member
    · exact .queued (by rw [queue]; exact behind) (current.trans generation.symm)
  | read held began same all =>
    rw [first] at all
    refine .read rfl (all job List.mem_cons_self) buffer ?_
    intro next member
    rw [queue] at member
    rw [generation]
    exact all next (List.mem_cons_of_mem _ member)

theorem Underway.apply (underway : Underway newer s) (ready : m.Ready s) (polite : Polite s m)
    (stamped : Stamped s) (listens : s.listener ≠ none) :
    Underway (⟨now, m, s⟩ :: newer) (m.apply net now s) := by
  cases m with
  | act action => exact underway.act polite stamped listens
  | pollGateway => exact underway.keeps rfl rfl (keeps_pollGateway now s)
  | pollEngine => exact underway.keeps rfl rfl (keeps_pollEngine now s)
  | notice => exact underway.notice polite
  | fireTimer => exact underway.fireTimer stamped
  | turn job =>
    obtain ⟨rest, first⟩ := List.head?_eq_some_iff.mp ready.2
    rw [apply_turn first]
    exact underway.turn first stamped

theorem listens_apply (listens : s.listener ≠ none) (goesOn : m.interrupts = false) :
    (m.apply net now s).listener ≠ none := by
  cases m with
  | act action =>
    cases edit : action.isEdit with
    | true =>
      obtain ⟨buffer, only⟩ : ∃ buffer, act net action now s = { s with buffer } := edit_apply edit
      change (act net action now s).listener ≠ none
      rw [only]
      exact listens
    | false =>
      rcases (act_frame net now s goesOn edit).2.1 with same | again
      · exact fun deaf => listens (same.symm.trans deaf)
      · exact fun deaf => by cases again.symm.trans deaf
  | notice =>
    have notices := notices_notice now s
    change (s.notice now).listener ≠ none
    generalize s.notice now = t at notices ⊢
    cases notices with
    | nothing => exact listens
    | sees => simp
    | triggers => simp [trigger, schedule]
  | fireTimer =>
    unfold Move.apply fireTimer
    dsimp only
    split <;> exact listens
  | pollGateway => exact (keeps_pollGateway now s).listener ▸ listens
  | pollEngine => exact (keeps_pollEngine now s).listener ▸ listens
  | turn job => exact (keeps_start net now { s with queue := s.queue.tail } job).listener ▸ listens

theorem Caught.shown_apply {past : List Moment} (caught : Caught net newer s) (ready : m.Ready s)
    (polite : Polite s m) (locked : Locked s (owed net past))
    (same : ∀ found, holder newer = some found → holder past = some found) (job : Job) (h : Checker)
    (held : holder (⟨now, m, s⟩ :: newer) = some (job, h))
    (began : job.generation = h.generation) (free : (m.apply net now s).running = none) :
    Displays net h (m.apply net now s).sink := by
  cases locked.does net now m ready with
  | outside inside nobody silent =>
    have before : holder newer = some (job, h) := by
      cases m with
      | turn job => cases nobody
      | _ => exact held
    rw [(unseen_apply net locked nobody polite.goesOn).1]
    exact caught.shown job h before began (inside.running ▸ free)
  | goesOn running polls due waits progress =>
    rename_i check out
    have before : holder newer = some (job, h) := by rcases polls with rfl | rfl <;> exact held
    obtain ⟨_, owner, _, _⟩ := due
    cases Option.some.inj ((same _ before).symm.trans owner)
    obtain ⟨_, m', _, split, _, rfl⟩ := holder_mem before
    have current := began.trans (caught.generation m' (by rw [split]; simp))
    have still : holder (⟨now, m, s⟩ :: past) = some (check.job, m'.before) := by
      rcases polls with rfl | rfl <;> exact owner
    exact displays_of_delivers ready locked (progress.delivers running current free) still
  | quits idle first inside quits =>
    cases held
    rw [apply_turn first]
    exact quits.displays net began polite.enabled
  | begins idle first current reads begins =>
    cases held
    refine displays_of_delivers ready locked ?_ rfl
    rw [apply_turn first] at free ⊢
    exact begins.delivers current free

theorem Caught.apply {past : List Moment} (caught : Caught net newer s) (ready : m.Ready s)
    (polite : Polite s m) (locked : Locked s (owed net past)) (stamped : Stamped s)
    (same : ∀ found, holder newer = some found → holder past = some found) :
    Caught net (⟨now, m, s⟩ :: newer) (m.apply net now s) where
  listens := listens_apply caught.listens polite.goesOn
  generation x member := by
    rw [generation_of_polite polite]
    rcases List.mem_cons.mp member with rfl | before
    · rfl
    · exact caught.generation x before
  underway := caught.underway.apply ready polite stamped caught.listens
  shown := caught.shown_apply ready polite locked same

end

theorem holder_append {newer : List Moment} {found : Job × Checker}
    (held : holder newer = some found) (older : List Moment) :
    holder (newer ++ older) = some found := by
  unfold holder at held ⊢
  rw [List.findSome?_append, held]
  rfl

theorem caught_trace (net : Network) (u : Setup) (steps : List Step) (newer : List Moment)
    (d : Moment) (older : List Moment)
    (split : trace net steps u.checker = newer ++ d :: older) (listen : d.move = .act .listen)
    (polite : ∀ m ∈ newer, Polite m.before m.move) :
    Caught net newer (run net steps { state := u.checker }).state := by
  refine (since_invariant net u (fun d => d.move = .act .listen) (fun m => Polite m.before m.move)
    (fun _ => Caught net) ?_ ?_ ?_ steps).1 newer d older split listen polite
  · intro d listen
    have listens : (d.after net).listener = some d.before.buffer.revision := by
      rw [Moment.after, listen]
      rfl
    exact ⟨by simp [listens], by simp, .unchanged (by simp), by simp [holder]⟩
  · intro now newer d older s m ready standing polite caught
    exact caught.apply ready polite standing.locked standing.stamped
      (fun found held => holder_append held _)
  · intro _ newer s caught
    refine ⟨caught.listens, caught.generation, ?_, caught.shown⟩
    cases caught.underway with
    | unchanged quiet => exact .unchanged quiet
    | unseen late => exact .unseen late
    | scheduled pending => exact .scheduled pending
    | queued waits current => exact .queued waits current
    | read held began same fresh => exact .read held began same fresh

/-- With a listener no edit is lost: when nothing is left to do, the last check has read the buffer
as it is, and what is on display is what there is to find in it. (A state that a run passes through
between instants is the last state of a shorter run.) -/
theorem no_edit_is_lost (net : Network) (u : Setup) (steps : List Step) :
    let last := run net steps { state := u.checker }
    let past := trace net steps u.checker
    last.log = told net past ∧ last.state.sink = onDisplay (last.log.map Prod.snd) ∧
    ∀ later d earlier, past = later ++ d :: earlier → d.move = .act .listen →
      let settings := d.before.store.get
      settings.enabled = true → settings.realtime = true →
      (∀ m ∈ later, m.before.store.get = settings) → (∀ m ∈ later, m.move.interrupts = false) →
      (∃ m ∈ later, m.move.isEdit = true) →
      last.state.timer.isPending = false → last.state.queue = [] → last.state.running = none →
      let buffer := last.state.buffer
      (∃ job s, holder past = some (job, s) ∧ job.generation = s.generation ∧
        s.store.get = settings ∧ s.buffer = buffer) ∧
      (settings.useRemote = false →
        (buffer.name = none ∨ Text.allBlank buffer.text.toList = true → last.state.sink = []) ∧
        ∀ name, buffer.name = some name → Text.allBlank buffer.text.toList = false →
          FileType.ofFileName name ≠ .unknown → last.state.sink =
            Diagnostic.keepAtLeast settings.level
              (analyze buffer.text (FileType.ofFileName name))) := by
  intro last past
  refine ⟨log_eq_told net steps u.checker rfl, sink_eq_onDisplay net u steps, ?_⟩
  intro later d earlier split listen settings enabled realtime same calm edited idle empty free
    buffer
  obtain ⟨attentive, acted⟩ := attentive_trace net u steps
  have acted : ∀ m ∈ past, ∀ action, m.move = .act action → Attentive m.before := acted
  rw [split] at acted
  have polite : ∀ m ∈ later, Polite m.before m.move := by
    intro m member
    have kept := same m member
    exact ⟨by rw [kept]; exact enabled, by rw [kept]; exact realtime, calm m member,
      acted m (List.mem_append_left _ member)⟩
  have caught := caught_trace net u steps later d earlier split listen polite
  cases caught.underway with
  | unchanged unedited =>
    obtain ⟨m, member, edit⟩ := edited
    cases (unedited m member).symm.trans edit
  | unseen late =>
    obtain ⟨seen, listener⟩ := Option.ne_none_iff_exists'.mp caught.listens
    exact absurd (listener.trans (congrArg some (attentive seen listener))) late
  | scheduled pending => cases pending.symm.trans idle
  | queued waits current => exact absurd waits (by rw [empty]; exact List.not_mem_nil)
  | read held began unedited fresh =>
    rename_i job h
    have shown := caught.shown job h held began free
    obtain ⟨_, turn, _, whole, _, rfl⟩ := holder_mem held
    have kept : turn.before.store.get = settings := same turn (by rw [whole]; simp)
    refine ⟨⟨job, _, split ▸ holder_append held _, began, kept, unedited⟩, ?_⟩
    intro stays
    have found := shown.inProcess (by rw [kept]; exact enabled) (by rw [kept]; exact stays)
    have cleared := shown.1
    rw [kept, unedited] at found
    rw [unedited] at cleared
    exact ⟨cleared, found⟩

example :
    let start : Setup :=
      ⟨.opened "app.js" "go();", .memory {}, some [], 300, {}, fun _ => none, fun _ => none⟩
    let steps : List Step :=
      [.act .listen, .act (.setText "if (a == b)"), .sleep 100, .act (.setText "if (a == b) go();"),
        .sleep 2000]
    let last := run Network.down steps { state := start.checker }
    last.state.timer.isPending = false ∧ last.state.queue = [] ∧
      last.state.running.isNone = true ∧
      last.state.sink.map (fun d => (d.line, d.column, d.rule)) = [(0, 6, some "eqeqeq")] := by
  decide +kernel

end BufferLint.Checker
