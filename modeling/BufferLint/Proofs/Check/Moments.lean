import BufferLint.Check.Checker
import BufferLint.Proofs.Timed.Invariant

/-! A run of a checker, told move by move. At an instant the exchanges that are over take effect,
then the engine, the listener and the timer, and then requests get their turns. The moments of a run
are these moves with the states in which they are made; what they emit is the log of the run. -/
namespace BufferLint.Checker

inductive Move where
  | act (action : Action)
  | pollGateway
  | pollEngine
  | notice
  | fireTimer
  /-- The first request of the queue gets its turn: it has the lock. -/
  | turn (job : Job)

def Move.apply (net : Network) (now : Nat) (s : Checker) : Move → Checker
  | .act action => Checker.act net action now s
  | .pollGateway => s.pollGateway now
  | .pollEngine => s.pollEngine now
  | .notice => s.notice now
  | .fireTimer => s.fireTimer now
  | .turn job => start net now { s with queue := s.queue.tail } job

/- A turn is given only to the first request of the queue, and only when no check is running. -/
def Move.Ready (s : Checker) : Move → Prop
  | .turn job => s.running = none ∧ s.queue.head? = some job
  | _ => True

structure Moment where
  time : Nat
  move : Move
  before : Checker

namespace Moment

def after (net : Network) (m : Moment) : Checker := m.move.apply net m.time m.before

/- The check that a moment belongs to. -/
def job? (m : Moment) : Option Job :=
  match m.move with
  | .turn job => some job
  | .pollGateway | .pollEngine => m.before.running.map RunningCheck.job
  | _ => none

/- What a move adds to the effects, newest first. -/
def emitted (net : Network) (m : Moment) : List Effect :=
  (m.after net).effects.take ((m.after net).effects.length - m.before.effects.length)

end Moment

def turns (net : Network) (now : Nat) : List Job → Checker → List Moment
  | [], _ => []
  | job :: rest, s =>
    let m : Moment := ⟨now, .turn job, s⟩
    m :: if (m.after net).running.isSome then [] else turns net now rest (m.after net)

def moments (net : Network) (now : Nat) (s : Checker) : List Moment :=
  let heard := s.pollGateway now
  let found := heard.pollEngine now
  let seen := found.notice now
  let fired := seen.fireTimer now
  ⟨now, .pollGateway, s⟩ :: ⟨now, .pollEngine, heard⟩ :: ⟨now, .notice, found⟩ ::
    ⟨now, .fireTimer, seen⟩ :: if fired.running.isSome then [] else turns net now fired.queue fired

structure Keeps (s t : Checker) : Prop where
  buffer : t.buffer = s.buffer
  store : t.store = s.store
  timer : t.timer = s.timer
  queue : t.queue = s.queue
  generation : t.generation = s.generation
  listener : t.listener = s.listener
  effects : s.effects <:+ t.effects

theorem Keeps.refl (s : Checker) : Keeps s s := ⟨rfl, rfl, rfl, rfl, rfl, rfl, List.suffix_refl _⟩

theorem Keeps.trans {s t u : Checker} (first : Keeps s t) (second : Keeps t u) : Keeps s u where
  buffer := second.buffer.trans first.buffer
  store := second.store.trans first.store
  timer := second.timer.trans first.timer
  queue := second.queue.trans first.queue
  generation := second.generation.trans first.generation
  listener := second.listener.trans first.listener
  effects := first.effects.trans second.effects

theorem Keeps.inside {s t u : Checker} (keeps : Keeps t u) (same : Keeps s t) : Keeps s u :=
  same.trans keeps

theorem keeps_foldl {α : Type} (f : Checker → α → Checker) (one : ∀ s a, Keeps s (f s a))
    (l : List α) (s : Checker) : Keeps s (l.foldl f s) := by
  induction l generalizing s with
  | nil => exact .refl s
  | cons a rest ih => exact (one s a).trans (ih (f s a))

theorem keeps_emit (s : Checker) (e : Effect) : Keeps s (s.emit e) :=
  ⟨rfl, rfl, rfl, rfl, rfl, rfl, List.suffix_cons e s.effects⟩

theorem keeps_record (s : Checker) (ds : List Diagnostic) (file : FileMeta) :
    Keeps s (s.record ds file) := by
  unfold record
  split
  · exact ⟨rfl, rfl, rfl, rfl, rfl, rfl, List.suffix_cons _ s.effects⟩
  · exact .refl s

theorem keeps_finish (s : Checker) (job : Job) (delivered : List Diagnostic) :
    Keeps s (s.finish job delivered) := by
  unfold finish
  dsimp only
  split
  · exact ⟨rfl, rfl, rfl, rfl, rfl, rfl, List.suffix_cons _ s.effects⟩
  · exact ⟨rfl, rfl, rfl, rfl, rfl, rfl, List.suffix_refl _⟩

theorem keeps_conclude (s : Checker) (check : RunningCheck) (raw : List Diagnostic)
    (failure : Option ServiceError) : Keeps s (s.conclude check raw failure) := by
  unfold conclude
  split
  · dsimp only
    refine (keeps_finish _ _ _).inside ?_
    generalize Diagnostic.keepAtLeast check.snapshot.settings.level raw = ds
    have shown : Keeps s (s.display ds) :=
      ⟨rfl, rfl, rfl, rfl, rfl, rfl, List.suffix_cons _ s.effects⟩
    have recorded := shown.trans (keeps_record (s.display ds) ds
      (.of check.snapshot.name check.snapshot.type check.snapshot.text))
    exact ⟨recorded.buffer, recorded.store, recorded.timer, recorded.queue, recorded.generation,
      recorded.listener, recorded.effects⟩
  · exact keeps_finish s _ _

theorem keeps_pollEngine (now : Nat) (s : Checker) : Keeps s (s.pollEngine now) := by
  refine (keeps_foldl _ ?_ _ _).inside ⟨rfl, rfl, rfl, rfl, rfl, rfl, List.suffix_refl _⟩
  intro s r
  split
  · split
    · exact keeps_conclude s _ _ _
    · exact .refl s
  · exact .refl s

theorem keeps_checkInProcess (now : Nat) (s : Checker) (check : RunningCheck) :
    Keeps s (s.checkInProcess now check) :=
  (keeps_pollEngine now _).inside ⟨rfl, rfl, rfl, rfl, rfl, rfl, List.suffix_refl _⟩

theorem keeps_onAnswer (now : Nat) (s : Checker)
    (result : Except ServiceError (List Diagnostic)) : Keeps s (s.onAnswer now result) := by
  unfold onAnswer
  split
  · split
    · split
      · exact keeps_conclude s _ _ _
      · split
        · exact (keeps_checkInProcess now _ _).inside
            ⟨rfl, rfl, rfl, rfl, rfl, rfl, List.suffix_refl _⟩
        · exact keeps_conclude s _ _ _
    · exact .refl s
  · exact .refl s

theorem keeps_onGatewayEvent (now : Nat) (s : Checker) (event : GatewayEvent) :
    Keeps s (s.onGatewayEvent now event) := by
  cases event with
  | checked id result => exact keeps_onAnswer now s result
  | probedAll id alive => exact keeps_emit s _
  | probed id alive => exact .refl s

theorem keeps_pollGateway (now : Nat) (s : Checker) : Keeps s (s.pollGateway now) :=
  (keeps_foldl _ (keeps_onGatewayEvent now) _ _).inside
    ⟨rfl, rfl, rfl, rfl, rfl, rfl, List.suffix_refl _⟩

theorem keeps_beginCheck (net : Network) (now : Nat) (s : Checker) (job : Job)
    (snapshot : Snapshot) : Keeps s (s.beginCheck net now job snapshot) := by
  unfold beginCheck
  dsimp only
  split
  · exact (keeps_pollGateway now _).inside ⟨rfl, rfl, rfl, rfl, rfl, rfl, List.suffix_refl _⟩
  · exact (keeps_checkInProcess now _ _).inside
      ⟨rfl, rfl, rfl, rfl, rfl, rfl, List.suffix_refl _⟩

theorem keeps_start (net : Network) (now : Nat) (s : Checker) (job : Job) :
    Keeps s (start net now s job) := by
  have quit : ∀ status, Keeps s ({ s.clearSink with status := status }.finish job []) :=
    fun status => (keeps_finish _ job []).inside
      ⟨rfl, rfl, rfl, rfl, rfl, rfl, List.suffix_cons Effect.cleared s.effects⟩
  unfold start
  dsimp only
  split
  · exact keeps_finish s job []
  · split
    · exact quit _
    · split
      · exact quit _
      · split
        · exact quit _
        · split
          · exact (keeps_finish _ job []).inside
              ⟨rfl, rfl, rfl, rfl, rfl, rfl, List.suffix_refl _⟩
          · exact keeps_beginCheck net now s job _

/- Moments that lead from one state to another, each beginning where the one before it ends. -/
inductive Path (net : Network) (now : Nat) : Checker → List Moment → Checker → Prop where
  | done (s : Checker) : Path net now s [] s
  | move {s t : Checker} {rest : List Moment} (m : Move) (ready : m.Ready s)
      (behind : Path net now (m.apply net now s) rest t) : Path net now s (⟨now, m, s⟩ :: rest) t

section

variable (net : Network) (now : Nat)

theorem path_serve (jobs : List Job) (s : Checker) (waiting : s.queue = jobs)
    (free : s.running = none) :
    Path net now s (turns net now jobs s) (serve net now jobs s) := by
  induction jobs generalizing s with
  | nil =>
    have same : serve net now [] s = s := by
      obtain ⟨⟩ := s
      cases waiting
      rfl
    rw [same]
    exact .done s
  | cons job rest ih =>
    have head : s.queue.head? = some job := by rw [waiting]; rfl
    have tail : s.queue.tail = rest := by rw [waiting]; rfl
    have after : Moment.after net ⟨now, .turn job, s⟩ =
        start net now { s with queue := rest } job := by
      rw [← tail]
      rfl
    have behind : (start net now { s with queue := rest } job).queue = rest :=
      (keeps_start net now { s with queue := rest } job).queue
    simp only [turns, serve, after]
    refine .move (.turn job) ⟨free, head⟩ ?_
    change Path net now (Moment.after net ⟨now, .turn job, s⟩) _ _
    rw [after]
    cases busy : (start net now { s with queue := rest } job).running with
    | some check => exact .done _
    | none => exact ih _ behind busy

theorem path_advance (s : Checker) : Path net now s (moments net now s) (advance net now s) := by
  refine .move .pollGateway trivial (.move .pollEngine trivial (.move .notice trivial
    (.move .fireTimer trivial ?_)))
  simp only [Move.apply, advance]
  cases busy : (fireTimer now (notice now (pollEngine now (pollGateway now s)))).running with
  | some check => exact .done _
  | none => exact path_serve net now _ _ rfl busy

variable {net now}

theorem Path.invariant {s t : Checker} {ms : List Moment} (path : Path net now s ms t)
    (P : List Moment → Checker → Prop)
    (move : ∀ trace s m, Move.Ready s m → P trace s →
      P (⟨now, m, s⟩ :: trace) (m.apply net now s))
    (trace : List Moment) (start : P trace s) : P (ms.reverse ++ trace) t := by
  induction path generalizing trace with
  | done s => exact start
  | move m ready behind ih =>
    rw [List.reverse_cons, List.append_assoc]
    exact ih _ (move trace _ m ready start)

end

structure Setup where
  buffer : Buffer
  store : SettingsStore
  history : Option History
  gate : Nat
  client : Client
  endpoints : FileType → Option Endpoint
  availability : FileType → Option Bool

def Setup.checker (u : Setup) : Checker where
  buffer := u.buffer
  store := u.store
  history := u.history
  engine := { gate := u.gate }
  gateway := { client := u.client, endpoints := u.endpoints, availability := u.availability }

def observer (net : Network) : Timed.Machine Checker Moment where
  settle now s := ((advance net now s).flush.1, moments net now s)
  nextDue := nextDue

def observe (net : Network) (r : Timed.Run Checker Moment) : Step → Timed.Run Checker Moment
  | .act action =>
    ((r.report [⟨r.now, .act action, r.state⟩]).perform (observer net)
      (Checker.act net action)).elapse (observer net) 1
  | .sleep ms => r.elapse (observer net) ms

/-- The moments of a run that begins in a state, newest first. -/
def trace (net : Network) (steps : List Step) (s : Checker) : List Moment :=
  (steps.foldl (observe net) { state := s }).log.map Prod.snd

/- Settings that are saved are acted upon; those that are refused are only spoken of. -/
inductive Saves (now : Nat) (settings : Settings) (s : Checker) : Checker → Prop where
  | refused : Saves now settings s (s.emit (.saved settings.enabled settings.useRemote false))
  | enabled {store : SettingsStore} (saved : s.store.save settings = .ok store)
      (on : settings.enabled = true) :
    Saves now settings s (({ s with store }.emit (.saved true settings.useRemote true)).schedule now
      settingsDelay)
  | disabled {store : SettingsStore} (saved : s.store.save settings = .ok store)
      (off : settings.enabled = false) :
    Saves now settings s { ({ { s with store }.emit (.saved false settings.useRemote true) with
      timer := s.timer.cancel }).clearSink with status := .disabled, phase := .idle }

theorem saves_saveSettings (now : Nat) (settings : Settings) (s : Checker) :
    Saves now settings s (s.saveSettings now settings).1 := by
  unfold saveSettings
  split
  · rename_i store saved
    dsimp only
    unfold applySettings
    split
    · rename_i on
      rw [on]
      exact .enabled saved on
    · rename_i off
      rw [Bool.not_eq_true] at off
      rw [off]
      exact .disabled saved off
  · exact .refused

theorem Saves.frame {now : Nat} {settings : Settings} {s t : Checker}
    (saves : Saves now settings s t) :
    t.queue = s.queue ∧ t.generation = s.generation ∧ t.listener = s.listener := by
  cases saves <;> exact ⟨rfl, rfl, rfl⟩

inductive Notices (now : Nat) (s : Checker) : Checker → Prop where
  | nothing : Notices now s s
  | sees {seen : Nat} (listens : s.listener = some seen) :
    Notices now s { s with listener := some s.buffer.revision }
  | triggers {seen : Nat} (listens : s.listener = some seen) :
    Notices now s ({ s with listener := some s.buffer.revision }.trigger now)

theorem notices_notice (now : Nat) (s : Checker) : Notices now s (s.notice now) := by
  unfold notice
  split
  · rename_i seen listens
    split
    · exact .nothing
    · dsimp only
      split
      · exact .triggers listens
      · exact .sees listens
  · exact .nothing

theorem notice_of_deaf (now : Nat) {s : Checker} (deaf : s.listener = none) : s.notice now = s := by
  unfold notice
  simp only [deaf]

theorem Notices.frame {now : Nat} {s t : Checker} (notices : Notices now s t) :
    t.queue = s.queue ∧ t.generation = s.generation ∧ t.gateway = s.gateway ∧
      t.effects = s.effects := by
  cases notices <;> exact ⟨rfl, rfl, rfl, rfl⟩

/- Settings, listener and timer are a matter of their own: the rest of a checker stays the same. -/
structure Aside (s t : Checker) : Prop where
  buffer : t.buffer = s.buffer
  history : t.history = s.history
  engine : t.engine = s.engine
  gateway : t.gateway = s.gateway
  running : t.running = s.running

theorem aside_saveSettings (now : Nat) (settings : Settings) (s : Checker) :
    Aside s (s.saveSettings now settings).1 := by
  have saves := saves_saveSettings now settings s
  generalize (s.saveSettings now settings).1 = t at saves ⊢
  cases saves <;> exact ⟨rfl, rfl, rfl, rfl, rfl⟩

theorem aside_putSettings (net : Network) (settings : Settings) (now : Nat) (s : Checker) :
    Aside s (act net (.putSettings settings) now s) := by
  unfold act
  dsimp only
  split <;> exact ⟨rfl, rfl, rfl, rfl, rfl⟩

theorem aside_notice (now : Nat) (s : Checker) : Aside s (s.notice now) := by
  have notices := notices_notice now s
  generalize s.notice now = t at notices ⊢
  cases notices <;> exact ⟨rfl, rfl, rfl, rfl, rfl⟩

theorem aside_fireTimer (now : Nat) (s : Checker) : Aside s (s.fireTimer now) := by
  unfold fireTimer
  split <;> exact ⟨rfl, rfl, rfl, rfl, rfl⟩

/- Effects in which nothing of a check is seen. -/
def apart : Effect → Bool
  | .cleared | .saved _ _ _ | .probed _ _ => true
  | _ => false

theorem Saves.effects {now : Nat} {settings : Settings} {s t : Checker}
    (saves : Saves now settings s t) :
    ∃ new, t.effects = new ++ s.effects ∧ new.all apart = true := by
  cases saves with
  | refused => exact ⟨[.saved _ _ false], rfl, rfl⟩
  | enabled => exact ⟨[.saved _ _ true], rfl, rfl⟩
  | disabled => exact ⟨[.cleared, .saved _ _ true], rfl, rfl⟩

theorem act_effects (net : Network) (action : Action) (now : Nat) (s : Checker) :
    ∃ new, (act net action now s).effects = new ++ s.effects ∧ new.all apart = true := by
  have nothing : ∀ t : Checker, t.effects = s.effects →
      ∃ new, t.effects = new ++ s.effects ∧ new.all apart = true :=
    fun t same => ⟨[], same, rfl⟩
  cases action with
  | toggleEnabled => exact (saves_saveSettings now _ s).effects
  | toggleRemote => exact (saves_saveSettings now _ s).effects
  | shutdown => exact ⟨[.cleared], rfl, rfl⟩
  | putSettings settings =>
    unfold act
    dsimp only
    split <;> exact nothing _ rfl
  | _ => exact nothing _ rfl

theorem notice_effects (now : Nat) (s : Checker) : (s.notice now).effects = s.effects :=
  (notices_notice now s).frame.2.2.2

theorem fireTimer_effects (now : Nat) (s : Checker) : (s.fireTimer now).effects = s.effects := by
  unfold fireTimer
  split <;> rfl

theorem suffix_apply (net : Network) (now : Nat) (s : Checker) (m : Move) :
    s.effects <:+ (m.apply net now s).effects := by
  cases m with
  | act action =>
    obtain ⟨new, added, _⟩ := act_effects net action now s
    exact ⟨new, added.symm⟩
  | pollGateway => exact (keeps_pollGateway now s).effects
  | pollEngine => exact (keeps_pollEngine now s).effects
  | notice => exact (notice_effects now s).symm ▸ List.suffix_refl _
  | fireTimer => exact (fireTimer_effects now s).symm ▸ List.suffix_refl _
  | turn job => exact (keeps_start net now { s with queue := s.queue.tail } job).effects

theorem Moment.after_effects (net : Network) (m : Moment) :
    (m.after net).effects = m.emitted net ++ m.before.effects := by
  obtain ⟨new, added⟩ := suffix_apply net m.time m.before m.move
  change new ++ m.before.effects = (m.after net).effects at added
  have length : (m.after net).effects.length - m.before.effects.length = new.length := by
    rw [← added, List.length_append, Nat.add_sub_cancel]
  rw [Moment.emitted, length, ← added, List.take_left]

def told (net : Network) (trace : List Moment) : List (Nat × Effect) :=
  trace.flatMap (fun m => (m.emitted net).map (fun e => (m.time, e)))

/- A run beside its observer, with effects that are not handed over yet. -/
structure Beside (net : Network) (r : Run) (q : Timed.Run Checker Moment) : Prop where
  now : r.now = q.now
  state : r.state = q.state
  log : told net (q.log.map Prod.snd) = r.state.effects.map (fun e => (r.now, e)) ++ r.log

theorem Path.told {net : Network} {now : Nat} {s t : Checker} {ms : List Moment}
    (path : Path net now s ms t) (trace : List Moment) (log : List (Nat × Effect))
    (before : told net trace = s.effects.map (fun e => (now, e)) ++ log) :
    Checker.told net (ms.reverse ++ trace) = t.effects.map (fun e => (now, e)) ++ log := by
  refine path.invariant
    (fun trace s => Checker.told net trace = s.effects.map (fun e => (now, e)) ++ log)
    ?_ trace before
  intro trace s m _ before
  have after := Moment.after_effects net ⟨now, m, s⟩
  change (m.apply net now s).effects = _ at after
  change (Moment.emitted net ⟨now, m, s⟩).map _ ++ Checker.told net trace = _
  rw [after, before, List.map_append, List.append_assoc]

theorem Beside.settle {net : Network} {r : Run} {q : Timed.Run Checker Moment}
    (beside : Beside net r q) :
    Beside net (r.settle (machine net)) (q.settle (observer net)) ∧
      (r.settle (machine net)).state.effects = [] := by
  obtain ⟨now, state, log⟩ := r
  obtain ⟨now', state', moments'⟩ := q
  obtain ⟨rfl, rfl, told⟩ := beside
  have path := path_advance net now state
  have logged := path.told _ log told
  have settled : Timed.Run.settle (machine net) ⟨now, state, log⟩ =
      ⟨now, (advance net now state).flush.1,
        ((advance net now state).effects.reverse.map (fun e => (now, e))).reverse ++ log⟩ := rfl
  have observed : Timed.Run.settle (observer net) ⟨now, state, moments'⟩ =
      ⟨now, (advance net now state).flush.1,
        ((moments net now state).map (fun m => (now, m))).reverse ++ moments'⟩ := rfl
  rw [settled, observed]
  generalize advance net now state = t at logged ⊢
  refine ⟨⟨rfl, rfl, ?_⟩, rfl⟩
  simp only [flush, List.map_append, List.map_reverse, List.map_map, Function.comp_def,
    List.map_id', List.map_nil, List.nil_append, List.reverse_reverse]
  exact logged

theorem beside_elapse {net : Network} {r : Run} {q : Timed.Run Checker Moment} (ms : Nat)
    (beside : Beside net r q) (flushed : r.state.effects = []) :
    Beside net (r.elapse (machine net) ms) (q.elapse (observer net) ms) ∧
      (r.elapse (machine net) ms).state.effects = [] := by
  refine Timed.Run.elapse_related (machine net) (observer net)
    (fun r q => Beside net r q ∧ r.state.effects = []) ?_ ?_ ?_ ms r q ⟨beside, flushed⟩
  · rintro r q ⟨beside, _⟩
    exact ⟨beside.now, congrArg nextDue beside.state⟩
  · rintro r q k ⟨beside, flushed⟩
    refine ⟨⟨congrArg (· + k) beside.now, beside.state, ?_⟩, flushed⟩
    have log := beside.log
    rw [flushed] at log
    simp only [Timed.Run.wait_log, Timed.Run.wait_state, flushed]
    exact log
  · rintro r q ⟨beside, _⟩
    exact beside.settle

theorem beside_step {net : Network} {r : Run} {q : Timed.Run Checker Moment} (step : Step)
    (beside : Beside net r q) (flushed : r.state.effects = []) :
    Beside net (Checker.step net r step) (observe net q step) ∧
      (Checker.step net r step).state.effects = [] := by
  cases step with
  | sleep ms => exact beside_elapse ms beside flushed
  | act action =>
    obtain ⟨now, state, log⟩ := r
    obtain ⟨now', state', moments'⟩ := q
    obtain ⟨rfl, rfl, told⟩ := beside
    have acted : Beside net ⟨now, act net action now state, log⟩
        ⟨now, act net action now state, (now, ⟨now, .act action, state⟩) :: moments'⟩ := by
      refine ⟨rfl, rfl, ?_⟩
      have path : Path net now state [⟨now, .act action, state⟩] (act net action now state) :=
        .move (.act action) trivial (.done _)
      exact path.told _ _ told
    have settled := beside_elapse 1 acted.settle.1 acted.settle.2
    simp only [Checker.step, observe, Timed.Run.step, Timed.Run.perform]
    exact settled

theorem beside_play {net : Network} {r : Run} {q : Timed.Run Checker Moment} (steps : List Step)
    (beside : Beside net r q) (flushed : r.state.effects = []) :
    Beside net (run net steps r) (steps.foldl (observe net) q) ∧
      (run net steps r).state.effects = [] := by
  induction steps generalizing r q with
  | nil => exact ⟨beside, flushed⟩
  | cons step rest ih =>
    obtain ⟨next, flushed⟩ := beside_step step beside flushed
    exact ih next flushed

theorem log_eq_told (net : Network) (steps : List Step) (s : Checker) (flushed : s.effects = []) :
    (run net steps { state := s }).log = told net (trace net steps s) := by
  have start : Beside net { state := s } { state := s } := by
    refine ⟨rfl, rfl, ?_⟩
    rw [flushed]
    rfl
  obtain ⟨beside, clean⟩ := beside_play steps start flushed
  have log := beside.log
  rw [clean] at log
  exact log.symm

def Quiet (now : Nat) (s : Checker) : Prop := ∀ time, s.nextDue = some time → now < time

section invariant

variable (net : Network) (P : Nat → List Moment → Checker → Prop)
  (move : ∀ now past s m, Move.Ready s m → P now past s →
    P now (⟨now, m, s⟩ :: past) (m.apply net now s))
  (flush : ∀ now past s, P now past s → P now past { s with effects := [] })
  (settles : ∀ now past s, P now past s → Quiet now (advance net now s))
  (wait : ∀ now k past s, Quiet now s → (∀ time, s.nextDue = some time → now + k ≤ time) →
    P now past s → P (now + k) past s)

include move flush settles

theorem holds_settle (q : Timed.Run Checker Moment)
    (holds : P q.now (q.log.map Prod.snd) q.state) :
    P (q.settle (observer net)).now ((q.settle (observer net)).log.map Prod.snd)
        (q.settle (observer net)).state ∧
      Quiet (q.settle (observer net)).now (q.settle (observer net)).state := by
  have path := path_advance net q.now q.state
  have after := path.invariant (P q.now) (move q.now) _ holds
  have quiet := settles _ _ _ holds
  rw [Timed.Run.settle_log, List.map_append, List.map_reverse, List.map_map]
  simp only [observer, Function.comp_def, List.map_id', Timed.Run.settle_now,
    Timed.Run.settle_state]
  generalize advance net q.now q.state = t at after quiet ⊢
  exact ⟨flush _ _ _ after, quiet⟩

include wait

theorem holds_elapse (ms : Nat) (q : Timed.Run Checker Moment)
    (holds : P q.now (q.log.map Prod.snd) q.state ∧ Quiet q.now q.state) :
    P (q.elapse (observer net) ms).now ((q.elapse (observer net) ms).log.map Prod.snd)
        (q.elapse (observer net) ms).state ∧
      Quiet (q.elapse (observer net) ms).now (q.elapse (observer net) ms).state := by
  refine Timed.Run.elapse_invariant (observer net)
    (fun q => P q.now (q.log.map Prod.snd) q.state ∧ Quiet q.now q.state) ?_ ?_ ms q holds
  · rintro q k ⟨holds, quiet⟩ early
    have ahead : ∀ time, q.state.nextDue = some time → q.now + k < time := by
      intro time next
      have short := early time next
      have later := quiet time next
      simp only [Timed.Run.waitFor] at short
      omega
    exact ⟨wait q.now k _ _ quiet (fun time next => Nat.le_of_lt (ahead time next)) holds, ahead⟩
  · rintro q time ⟨holds, quiet⟩ next
    have reach := q.now_add_waitFor time (quiet time next)
    apply holds_settle net P move flush settles
    refine wait q.now _ _ _ quiet ?_ holds
    intro other same
    cases Option.some.inj (next.symm.trans same)
    exact Nat.le_of_eq reach

theorem holds_play (steps : List Step) (q : Timed.Run Checker Moment)
    (holds : P q.now (q.log.map Prod.snd) q.state ∧ Quiet q.now q.state) :
    P (steps.foldl (observe net) q).now ((steps.foldl (observe net) q).log.map Prod.snd)
        (steps.foldl (observe net) q).state ∧
      Quiet (steps.foldl (observe net) q).now (steps.foldl (observe net) q).state := by
  induction steps generalizing q with
  | nil => exact holds
  | cons step rest ih =>
    apply ih
    cases step with
    | sleep ms => exact holds_elapse net P move flush settles wait ms q holds
    | act action =>
      apply holds_elapse net P move flush settles wait
      apply holds_settle net P move flush settles
      exact move q.now _ q.state (.act action) trivial holds.1

/-- What moves preserve, the handing over of effects and the passing of time holds at the end of
every run, and at each of its moments. -/
theorem trace_invariant (steps : List Step) (s : Checker) (flushed : s.effects = [])
    (idle : Quiet 0 s) (start : P 0 [] s) :
    P (run net steps { state := s }).now (trace net steps s) (run net steps { state := s }).state ∧
      Quiet (run net steps { state := s }).now (run net steps { state := s }).state ∧
      ∀ later m earlier, trace net steps s = later ++ m :: earlier →
        P m.time earlier m.before ∧ m.move.Ready m.before := by
  have both := holds_play net (fun now past s => P now past s ∧
    ∀ later m earlier, past = later ++ m :: earlier →
      P m.time earlier m.before ∧ m.move.Ready m.before) ?_ ?_ ?_ ?_ steps { state := s }
      ⟨⟨start, by simp⟩, idle⟩
  · have beside : Beside net { state := s } { state := s } := ⟨rfl, rfl, by rw [flushed]; rfl⟩
    obtain ⟨now, state, _⟩ := (beside_play steps beside flushed).1
    rw [now, state]
    exact ⟨both.1.1, both.2, both.1.2⟩
  · intro now past s m ready holds
    refine ⟨move now past s m ready holds.1, ?_⟩
    intro later first earlier split
    cases later with
    | nil =>
      cases split
      exact ⟨holds.1, ready⟩
    | cons last later =>
      cases split
      exact holds.2 later first earlier rfl
  · intro now past s holds
    exact ⟨flush now past s holds.1, holds.2⟩
  · intro now past s holds
    exact settles now past s holds.1
  · intro now k past s quiet early holds
    exact ⟨wait now k past s quiet early holds.1, holds.2⟩

end invariant

end BufferLint.Checker
