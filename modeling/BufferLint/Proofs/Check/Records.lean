import BufferLint.Proofs.Check.Completion
import BufferLint.Proofs.Check.Display
import Mathlib.Data.List.DropRight

/-! What becomes of a check is seen in four places: on the display, in the history, in what the
caller is given and in the status. Each is a view of one list, that of the checks that are over. -/
namespace BufferLint

def History.add (h : History) : Option CheckRecord → History
  | some record => h.push record
  | none => h

theorem History.push_rtake (l : List CheckRecord) (record : CheckRecord) :
    History.push (l.rtake History.limit) record = (l ++ [record]).rtake History.limit := by
  have newest : (l ++ [record]).rtake History.limit = l.rtake 49 ++ [record] :=
    List.rtake_concat_succ l 49 record
  rw [newest]
  unfold push
  congr 1
  split
  · rename_i full
    simp only [List.rtake, List.length_drop, History.limit] at full ⊢
    rw [List.drop_drop]
    congr 1
    omega
  · rename_i spare
    simp only [List.rtake, List.length_drop, History.limit] at spare ⊢
    congr 1
    omega

namespace Checker

def Effect.ofCheck : Effect → Bool
  | .displayed _ | .delivered _ _ => true
  | _ => false

def Effect.shown? : Effect → Option (List Diagnostic)
  | .displayed ds => some ds
  | _ => none

/-- A check that is over. -/
structure Finished where
  job : Job
  /-- The state in which it got its turn. -/
  began : Checker
  /-- What it displayed, unless it displayed nothing. -/
  shown : Option (List Diagnostic)

def file (s : Checker) : FileMeta :=
  let name := s.buffer.name.getD ""
  ⟨name, .ofFileName name, s.buffer.text.toList.length, s.buffer.text.toList.count '\n' + 1⟩

/- A check displays its findings and gives them to its caller, who gets an empty list if nothing is
displayed. -/
def tells (job : Job) (shown : Option (List Diagnostic)) : List Effect :=
  (shown.map .displayed).toList ++
    (job.requester.map (fun id => .delivered id (shown.getD []))).toList

def Finished.told (f : Finished) : List Effect := tells f.job f.shown

def Finished.record (f : Finished) : Option CheckRecord :=
  f.shown.map (fun ds => ⟨ds, f.began.file, Stats.of ds⟩)

def Moment.shown (net : Network) (m : Moment) : Option (List Diagnostic) :=
  ((m.emitted net).filterMap Effect.shown?).head?

/- The checks that are over, in the order in which they ended. -/
def finished (net : Network) : List Moment → List Finished
  | [] => []
  | m :: earlier => finished net earlier ++ (m.ended net).filterMap (fun job =>
      (holder (m :: earlier)).map (fun h => ⟨job, h.2, m.shown net⟩))

/-- What a move reports of a check: nothing while it goes on, and all of it at its end. -/
inductive Reports (s : Checker) (job : Job) (file : FileMeta) (t : Checker) : Prop where
  | nothing {new : List Effect} (added : t.effects = new ++ s.effects)
      (silent : new.filter Effect.ofCheck = []) (busy : t.running ≠ none)
      (history : t.history = s.history) : Reports s job file t
  | ends {new : List Effect} {shown : Option (List Diagnostic)}
      (added : t.effects = new ++ s.effects)
      (told : new.filter Effect.ofCheck = (tells job shown).reverse) (free : t.running = none)
      (history : t.history =
        s.history.map (fun h => h.add (shown.map (fun ds => CheckRecord.of ds file)))) :
      Reports s job file t

section

variable {net : Network} {now : Nat} {past : List Moment} {s t : Checker} {check : RunningCheck}
  {out : Outcome} {job : Job} {file : FileMeta}

theorem Probes.ofCheck {p : List Effect} (probes : Probes p) : p.filter Effect.ofCheck = [] := by
  apply List.filter_eq_nil_iff.mpr
  intro e member
  obtain ⟨id, alive, rfl⟩ := probes e member
  simp [Effect.ofCheck]

theorem filter_ofCheck_of_apart {new : List Effect} (kinds : new.all apart = true) :
    new.filter Effect.ofCheck = [] := by
  apply List.filter_eq_nil_iff.mpr
  intro e member
  have kind := List.all_eq_true.mp kinds e member
  cases e <;> first | exact Bool.false_ne_true | cases kind

theorem Reports.around {p q : List Effect} (before : Probes p) (after : Probes q)
    (inner : Reports (s.tell p) job file t) : Reports s job file (t.tell q) := by
  have same : ∀ new : List Effect, (q ++ new ++ p).filter Effect.ofCheck =
      new.filter Effect.ofCheck := by
    intro new
    rw [List.filter_append, List.filter_append, before.ofCheck, after.ofCheck, List.append_nil,
      List.nil_append]
  have effects : ∀ new, t.effects = new ++ (s.tell p).effects →
      (t.tell q).effects = (q ++ new ++ p) ++ s.effects := by
    intro new added
    simp only [tell] at added
    simp [tell, added]
  cases inner with
  | nothing added silent busy history =>
    exact .nothing (effects _ added) ((same _).trans silent) busy history
  | ends added told free history =>
    exact .ends (effects _ added) ((same _).trans told) free history

theorem Reports.congr {u : Checker} (inner : Reports u job file t) (effects : u.effects = s.effects)
    (history : u.history = s.history) : Reports s job file t := by
  cases inner with
  | nothing added silent busy same =>
    exact .nothing (effects ▸ added) silent busy (history ▸ same)
  | ends added told free same => exact .ends (effects ▸ added) told free (history ▸ same)

theorem requester_ofCheck (job : Job) (ds : List Diagnostic) :
    (job.requester.map (fun id => Effect.delivered id ds)).toList.filter Effect.ofCheck =
      (job.requester.map (fun id => Effect.delivered id ds)).toList := by
  cases job.requester <;> rfl

theorem tells_reverse (job : Job) (shown : Option (List Diagnostic)) :
    (tells job shown).reverse =
      (job.requester.map (fun id => Effect.delivered id (shown.getD []))).toList ++
        (shown.map Effect.displayed).toList := by
  unfold tells
  cases job.requester <;> cases shown <;> rfl

@[simp] theorem finish_history (s : Checker) (job : Job) (ds : List Diagnostic) :
    (s.finish job ds).history = s.history := by
  unfold finish
  cases job.requester <;> rfl

theorem conclude_history (s : Checker) (check : RunningCheck) (raw : List Diagnostic)
    (failure : Option ServiceError) :
    (s.conclude check raw failure).history =
      if check.job.generation = s.generation then
        s.history.map (fun h => h.push (.of
          (Diagnostic.keepAtLeast check.snapshot.settings.level raw)
          (.of check.snapshot.name check.snapshot.type check.snapshot.text)))
      else s.history := by
  unfold conclude record
  split
  · rw [finish_history]
    dsimp only
    cases held : s.history <;> simp [display, emit, held]
  · exact finish_history _ _ _

theorem conclusion_ofCheck (s : Checker) (check : RunningCheck) (raw : List Diagnostic) :
    (s.conclusion check raw).filter Effect.ofCheck = (tells check.job
      (if check.job.generation = s.generation then
        some (Diagnostic.keepAtLeast check.snapshot.settings.level raw)
      else none)).reverse := by
  unfold conclusion
  dsimp only
  split
  · rw [tells_reverse, List.filter_append, List.filter_append, requester_ofCheck]
    cases check.job.requester <;> cases s.history <;> rfl
  · rw [requester_ofCheck, tells_reverse]
    exact (List.append_nil _).symm

theorem reports_conclude (s : Checker) (check : RunningCheck) (raw : List Diagnostic)
    (failure : Option ServiceError) :
    Reports s check.job (.of check.snapshot.name check.snapshot.type check.snapshot.text)
      (s.conclude check raw failure) := by
  have added := conclude_effects s check raw failure
  have told := conclusion_ofCheck s check raw
  have history := conclude_history s check raw failure
  have free := conclude_running s check raw failure
  by_cases current : check.job.generation = s.generation
  · rw [if_pos current] at told history
    exact .ends added told free history
  · rw [if_neg current] at told history
    exact .ends added told free (history.trans Option.map_id'.symm)

theorem Progress.reports (progress : Progress now s check out t)
    (running : s.running = some check) :
    Reports s check.job (.of check.snapshot.name check.snapshot.type check.snapshot.text) t := by
  have none_ : Probes [] := by simp [Probes]
  cases progress with
  | still heard checks probes =>
    refine Reports.around none_ probes (.nothing (List.nil_append _).symm rfl ?_ rfl)
    simp [running]
  | fallsBack asked due heard gate positive sound checks calls brings before after =>
    exact Reports.around before after (.nothing (List.nil_append _).symm rfl (by simp) rfl)
  | ends heard gate sound checks calls before after =>
    rename_i e g p q
    have ended := reports_conclude { s.tell p with engine := e, gateway := g } check out.1 out.2
    exact Reports.around before after (ended.congr rfl rfl)

theorem Begins.reports {r : Snapshot} (begins : Begins net now s job r t) :
    Reports s job (.of r.name r.type r.text) t := by
  cases begins with
  | remote goes progress => exact (progress.reports rfl).congr rfl rfl
  | waits => exact .nothing (List.nil_append _).symm rfl (by simp) rfl
  | ends stays gate sound calls =>
    rename_i e
    have ended := reports_conclude { s with
      phase := .checking, status := .checking r.type, engine := e } ⟨job, r, .inProcess⟩
      (s.produced net r).1 (s.produced net r).2
    exact ended.congr rfl rfl

theorem Quits.reports (quits : Quits s job t) (file : FileMeta) : Reports s job file t := by
  obtain ⟨cleared, kinds, added⟩ := quits.effects
  have quiet : cleared.filter Effect.ofCheck = [] := by rcases kinds with rfl | rfl <;> rfl
  rw [← List.append_assoc] at added
  have told : ((job.requester.map (fun id => Effect.delivered id [])).toList ++ cleared).filter
      Effect.ofCheck = (tells job none).reverse := by
    rw [List.filter_append, quiet, requester_ofCheck, List.append_nil, tells_reverse]
    exact (List.append_nil _).symm
  have free : t.running = none := by cases quits <;> exact finish_running _ _ _
  have same : t.history = s.history := by cases quits <;> exact finish_history _ _ _
  exact .ends added told free (same.trans Option.map_id'.symm)

theorem file_of_reading {r : Snapshot} (reads : s.reading = some r) :
    FileMeta.of r.name r.type r.text = s.file := by
  obtain ⟨_, named, text, type, _⟩ := reading_eq_some reads
  simp only [FileMeta.of, Checker.file, named, text, type, Option.getD_some, Text.lines_length]

theorem history_outside {owed : Job → Snapshot → Outcome → Prop} (m : Move)
    (locked : Locked s owed) (nobody : Moment.job? ⟨now, m, s⟩ = none) :
    (m.apply net now s).history = s.history := by
  have polled : (m = .pollGateway ∨ m = .pollEngine) →
      (m.apply net now s).history = s.history := by
    intro polls
    have free := free_of_nobody polls nobody
    obtain ⟨g, p, _, _, same⟩ := locked.polls_free net now free polls
    rw [same]
    rfl
  cases m with
  | turn job => cases nobody
  | act action =>
    cases action with
    | toggleEnabled => exact (aside_saveSettings now _ s).history
    | toggleRemote => exact (aside_saveSettings now _ s).history
    | putSettings settings => exact (aside_putSettings net settings now s).history
    | _ => rfl
  | notice => exact (aside_notice now s).history
  | fireTimer => exact (aside_fireTimer now s).history
  | pollEngine => exact polled (.inr rfl)
  | pollGateway => exact polled (.inl rfl)

/-- A move that belongs to a check reports of it, and the file is the one that was open when the
check got its turn; other moves report nothing. -/
theorem reports_apply (now : Nat) (m : Move) (ready : m.Ready s)
    (locked : Locked s (owed net past)) :
    (Moment.job? ⟨now, m, s⟩ = none ∧
      (Moment.emitted net ⟨now, m, s⟩).filter Effect.ofCheck = [] ∧
      (m.apply net now s).history = s.history) ∨
    ∃ job began, Moment.job? ⟨now, m, s⟩ = some job ∧
      holder (⟨now, m, s⟩ :: past) = some (job, began) ∧
      Reports s job began.file (m.apply net now s) := by
  cases locked.does net now m ready with
  | outside same nobody silent =>
    obtain ⟨new, added, kinds⟩ := silent
    left
    rw [emitted_eq added]
    exact ⟨nobody, filter_ofCheck_of_apart kinds, history_outside m locked nobody⟩
  | goesOn running polls due waits progress =>
    obtain ⟨began, held, reads, _⟩ := due
    right
    refine ⟨_, began, ?_, ?_, file_of_reading reads ▸ progress.reports running⟩
    · rw [job_polls now s polls, running]
      rfl
    · rcases polls with rfl | rfl <;> exact held
  | quits free first same quits =>
    right
    rw [apply_turn first]
    exact ⟨_, s, rfl, rfl, (quits.reports _).congr rfl rfl⟩
  | begins free first current reads begins =>
    right
    rw [apply_turn first]
    exact ⟨_, s, rfl, rfl, file_of_reading reads ▸ begins.reports.congr rfl rfl⟩

end

theorem filterMap_shown (effects : List Effect) :
    effects.filterMap Effect.shown? = (effects.filter Effect.ofCheck).filterMap Effect.shown? := by
  rw [List.filterMap_filter]
  congr 1
  funext e
  cases e <;> rfl

/-- A moment adds nothing to the list, or the check that it ends. -/
inductive Adds (net : Network) (past : List Moment) (m : Moment) : Prop where
  | nothing (unfinished : m.ended net = []) (same : finished net (m :: past) = finished net past)
      (silent : (m.emitted net).filter Effect.ofCheck = [])
      (history : (m.after net).history = m.before.history) : Adds net past m
  | one {f : Finished} (ended : m.ended net = [f.job])
      (more : finished net (m :: past) = finished net past ++ [f])
      (told : (m.emitted net).filter Effect.ofCheck = f.told.reverse)
      (history : (m.after net).history = m.before.history.map (fun h => h.add f.record))
      (held : holder (m :: past) = some (f.job, f.began)) (shown : m.shown net = f.shown) :
      Adds net past m

section

variable {net : Network} {past : List Moment} {m : Moment}

theorem finished_of_unfinished (unfinished : m.ended net = []) :
    finished net (m :: past) = finished net past := by
  rw [finished, unfinished, List.filterMap_nil, List.append_nil]

theorem adds (ready : m.move.Ready m.before) (locked : Locked m.before (owed net past)) :
    Adds net past m := by
  rcases reports_apply m.time m.move ready locked with
    ⟨nobody, silent, history⟩ | ⟨job, began, belongs, held, reports⟩
  · have unfinished : m.ended net = [] := by
      have mine : m.job? = none := nobody
      simp [Moment.ended, mine]
    exact .nothing unfinished (finished_of_unfinished unfinished) silent history
  · have belongs : m.job? = some job := belongs
    cases reports with
    | nothing added silent busy history =>
      have unfinished : m.ended net = [] := by
        have still : (m.after net).running ≠ none := busy
        simp [Moment.ended, Option.isNone_iff_eq_none, still]
      have same : m.emitted net = _ := emitted_eq added
      exact .nothing unfinished (finished_of_unfinished unfinished) (same ▸ silent) history
    | ends added told free history =>
      rename_i new shown
      have ended : m.ended net = [job] := by
        have idle : (m.after net).running = none := free
        simp [Moment.ended, idle, belongs]
      have same : m.emitted net = new := emitted_eq added
      have seen : m.shown net = shown := by
        unfold Moment.shown
        rw [filterMap_shown, same, told, tells_reverse]
        cases job.requester <;> cases shown <;> rfl
      let f : Finished := ⟨job, began, shown⟩
      have more : finished net (m :: past) = finished net past ++ [f] := by
        have held : holder (m :: past) = some (job, began) := held
        rw [finished, ended, List.filterMap_cons, held, seen]
        rfl
      exact .one ended more (same ▸ told) history held seen

end

/- What a check that is over displayed is what the text that it read brings. -/
def Finished.Sound (net : Network) (f : Finished) : Prop :=
  ∀ ds, f.shown = some ds → ∃ r, f.began.reading = some r ∧
    ds = Diagnostic.keepAtLeast r.settings.level (f.began.produced net r).1

/-- All that is seen of checks is what is told of those that are over. -/
structure Recorded (net : Network) (past : List Moment) (s : Checker) : Prop where
  history : s.history = some (((finished net past).filterMap Finished.record).rtake History.limit)
  told : ((told net past).reverse.map Prod.snd).filter Effect.ofCheck =
    (finished net past).flatMap Finished.told
  jobs : (finished net past).map Finished.job = endings net past
  began : ∀ f ∈ finished net past, (∃ m ∈ past, m.move = .turn f.job ∧ m.before = f.began) ∧
    f.Sound net

section

variable {net : Network} {past : List Moment} {m : Moment}

theorem told_filter_cons (net : Network) (m : Moment) (past : List Moment) :
    ((told net (m :: past)).reverse.map Prod.snd).filter Effect.ofCheck =
      ((told net past).reverse.map Prod.snd).filter Effect.ofCheck ++
        ((m.emitted net).filter Effect.ofCheck).reverse := by
  have split : told net (m :: past) = (m.emitted net).map (fun e => (m.time, e)) ++ told net past :=
    rfl
  rw [split, List.reverse_append, List.map_append, List.filter_append, ← List.map_reverse,
    List.map_map, ← List.filter_reverse]
  simp [Function.comp_def]

theorem add_rtake (records : List CheckRecord) (record : Option CheckRecord) :
    History.add (records.rtake History.limit) record =
      (records ++ record.toList).rtake History.limit := by
  cases record with
  | none => rw [Option.toList_none, List.append_nil, History.add]
  | some record => exact History.push_rtake records record

theorem displayed_of_shown {ds : List Diagnostic} (shown : m.shown net = some ds) :
    .displayed ds ∈ m.emitted net := by
  have member := List.mem_of_head? shown
  obtain ⟨e, emitted, same⟩ := List.mem_filterMap.mp member
  cases e <;> cases same
  exact emitted

theorem Recorded.apply (ready : m.move.Ready m.before) (locked : Locked m.before (owed net past))
    (recorded : Recorded net past m.before) : Recorded net (m :: past) (m.after net) := by
  have kept : ∀ f : Finished, (∃ x ∈ past, x.move = .turn f.job ∧ x.before = f.began) →
      ∃ x ∈ m :: past, x.move = .turn f.job ∧ x.before = f.began := by
    rintro f ⟨x, member, began⟩
    exact ⟨x, List.mem_cons_of_mem _ member, began⟩
  cases adds ready locked with
  | nothing unfinished same silent history =>
    constructor
    · rw [history, same, recorded.history]
    · rw [told_filter_cons, silent, same, recorded.told, List.reverse_nil, List.append_nil]
    · rw [same, endings_cons, unfinished, recorded.jobs, List.append_nil]
    · intro f member
      obtain ⟨began, sound⟩ := recorded.began f (same ▸ member)
      exact ⟨kept f began, sound⟩
  | one ended more told history held shown =>
    rename_i f
    constructor
    · rw [history, recorded.history, more, Option.map_some, add_rtake, List.filterMap_append]
      cases found : f.record <;> simp [found]
    · rw [told_filter_cons, told, more, recorded.told, List.reverse_reverse, List.flatMap_append,
        List.flatMap_singleton]
    · rw [more, endings_cons, ended, List.map_append, recorded.jobs]
      rfl
    · intro g member
      rw [more] at member
      rcases List.mem_append.mp member with old | new
      · obtain ⟨began, sound⟩ := recorded.began g old
        exact ⟨kept g began, sound⟩
      · cases List.mem_singleton.mp new
        refine ⟨?_, ?_⟩
        · obtain ⟨newer, t, older, split, turn, before⟩ := holder_mem held
          exact ⟨t, by rw [split]; simp, turn, before⟩
        · intro ds mine
          have displayed := displayed_of_shown (shown.trans mine)
          obtain ⟨job, r, out, ⟨s, held', reads, brings⟩, _, same, _⟩ :=
            displayed_apply m.move ready locked displayed
          have began : f.began = s :=
            congrArg Prod.snd (Option.some.inj (held.symm.trans held'))
          exact ⟨r, began ▸ reads, by rw [same, brings, began]⟩

end

theorem recorded_trace (net : Network) (u : Setup) (fresh : u.history = some [])
    (steps : List Step) :
    Recorded net (trace net steps u.checker) (run net steps { state := u.checker }).state ∧
      ∀ later m earlier, trace net steps u.checker = later ++ m :: earlier →
        Recorded net earlier m.before := by
  refine standing_invariant net u (Recorded net) ?_ ?_ ?_ steps
  · intro now past s m ready standing recorded
    exact Recorded.apply (m := ⟨now, m, s⟩) ready standing.locked recorded
  · intro past s recorded
    exact ⟨recorded.history, recorded.told, recorded.jobs, recorded.began⟩
  · refine ⟨fresh, rfl, rfl, ?_⟩
    intro f member
    cases member

theorem produced_failed {net : Network} {s : Checker} {r : Snapshot} {e : ServiceError}
    (failed : (s.produced net r).2 = some e) : (s.produced net r).1 = [] := by
  unfold produced at failed ⊢
  split at failed
  · rename_i goes
    rw [if_pos goes]
    unfold Snapshot.answered at failed ⊢
    split at failed
    · cases failed
    · split at failed
      · cases failed
      · rename_i stops
        rw [if_neg stops]
  · cases failed

/-- The display, the history, the callers and the status agree. What is displayed and given to
callers is told by one list, that of the checks that are over; the history has its last records,
and right after a display the status counts what is displayed. -/
theorem display_history_return_and_status_agree (net : Network) (u : Setup) (steps : List Step) :
    let u : Setup := { u with history := some [] }
    let last := run net steps { state := u.checker }
    let past := trace net steps u.checker
    let through := finished net past
    last.log = told net past ∧
    requests past = through.map Finished.job ++ waiting last.state ∧
    (∃ ms, ∀ more, ms ≤ more → requests past <+:
      (finished net (trace net (steps ++ [.sleep more]) u.checker)).map Finished.job) ∧
    (last.log.reverse.map Prod.snd).filter Effect.ofCheck = through.flatMap (fun f =>
      (f.shown.map Effect.displayed).toList ++
        (f.job.requester.map (fun id => Effect.delivered id (f.shown.getD []))).toList) ∧
    (∀ f ∈ through, (∃ m ∈ past, m.move = .turn f.job ∧ m.before = f.began) ∧
      ∀ ds, f.shown = some ds → ∃ name r, f.began.buffer.name = some name ∧
        f.began.reading = some r ∧
        ds = Diagnostic.keepAtLeast r.settings.level (f.began.produced net r).1 ∧
        f.record = some ⟨ds, ⟨name, .ofFileName name, f.began.buffer.text.toList.length,
          f.began.buffer.text.toList.count '\n' + 1⟩, Stats.of ds⟩) ∧
    last.state.history = some ((through.filterMap Finished.record).rtake 50) ∧
    ∀ later m earlier, past = later ++ m :: earlier →
      m.before.history = some (((finished net earlier).filterMap Finished.record).rtake 50) ∧
      ∀ ds, .displayed ds ∈ m.emitted net → (m.after net).sink = ds ∧
        ((m.after net).status = .done (Diagnostic.count .error ds) (Diagnostic.count .warning ds)
            (Diagnostic.count .info ds) ∨
          ds = [] ∧ ∃ message, (m.after net).status = .failed message) := by
  intro u last past through
  obtain ⟨recorded, at_moment⟩ := recorded_trace net u rfl steps
  obtain ⟨_, _, at_standing⟩ := standing_trace net u steps
  have logged : last.log = told net past := log_eq_told net steps u.checker rfl
  refine ⟨logged, ?_, ?_, ?_, ?_, recorded.history, ?_⟩
  · have served := (orderly_trace net u steps).1.served
    rw [recorded.jobs, served.requests, served.admissions, List.append_assoc]
    rfl
  · obtain ⟨ms, all⟩ := requests_through net u steps
    refine ⟨ms, fun more long => ?_⟩
    have jobs := (recorded_trace net u rfl (steps ++ [.sleep more])).1.jobs
    rw [jobs]
    exact all more long
  · rw [logged]
    exact recorded.told
  · intro f member
    obtain ⟨began, sound⟩ := recorded.began f member
    refine ⟨began, ?_⟩
    intro ds shown
    obtain ⟨r, reads, same⟩ := sound ds shown
    obtain ⟨_, named, _⟩ := reading_eq_some reads
    refine ⟨r.name, r, named, reads, same, ?_⟩
    simp only [Finished.record, shown, file, named, Option.map_some, Option.getD_some]
  · intro later m earlier split
    refine ⟨(at_moment later m earlier split).history, ?_⟩
    intro ds displayed
    obtain ⟨standing, ready⟩ := at_standing later m earlier split
    refine ⟨Moment.sink_of_displayed ready standing.locked displayed, ?_⟩
    obtain ⟨job, r, out, ⟨s, _, _, brings⟩, _, same, status⟩ :=
      displayed_apply m.move ready standing.locked displayed
    have status : (m.after net).status = r.status out := status
    rw [status, Snapshot.status]
    cases failure : out.2 with
    | none => exact .inl (by rw [same]; rfl)
    | some e =>
      have nothing : out.1 = [] := by
        rw [brings] at failure ⊢
        exact produced_failed failure
      exact .inr ⟨by rw [same, nothing]; rfl, e.message, rfl⟩

end Checker
end BufferLint
