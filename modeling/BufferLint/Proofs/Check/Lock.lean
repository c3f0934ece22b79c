import BufferLint.Proofs.Check.Moments
import BufferLint.Proofs.Engine.Alone
import BufferLint.Proofs.Service.Exchanges

/-! One check at a time. While no check is running nothing is under way at the engine, and no check
at the gateway; a running check waits for one answer, which is known when it begins. -/
namespace BufferLint

abbrev Outcome := List Diagnostic × Option ServiceError

namespace Snapshot

def inProcess (r : Snapshot) : Outcome := (analyze r.text r.type, none)

/-- What becomes of a service's answer. -/
def answered (r : Snapshot) : Except ServiceError (List Diagnostic) → Outcome
  | .ok ds => (ds, none)
  | .error e => if r.settings.fallbackToLocal then r.inProcess else ([], some e)

def status (r : Snapshot) (out : Outcome) : Status :=
  match out.2 with
  | some e => .failed e.message
  | none => .ofFindings (Diagnostic.keepAtLeast r.settings.level out.1)

end Snapshot

namespace Checker

/- What a check reads that gets its turn in this state, unless it has nothing to do. -/
def reading (s : Checker) : Option Snapshot :=
  let settings := s.store.get
  if settings.enabled && !Text.allBlank s.buffer.text.toList then
    match s.buffer.name with
    | none => none
    | some name =>
      let type := FileType.ofFileName name
      if type = .unknown then none else some ⟨settings, name, s.buffer.text, type⟩
  else none

/- What a check brings that begins in this state. -/
def produced (net : Network) (s : Checker) (r : Snapshot) : Outcome :=
  if s.goesRemote r then
    r.answered (s.gateway.exchange net r.type r.text (.ofSettings r.settings r.type)).2
  else r.inProcess

/-- The answer that a check waits for. -/
inductive Waits (e : Engine) (g : Gateway) (check : RunningCheck) (out : Outcome) : Prop where
  | remote {time : Nat} {result : Except ServiceError (List Diagnostic)}
      (stage : check.stage = .remote) (calls : e.calls = []) (checks : g.checks = [(time, result)])
      (brings : check.snapshot.answered result = out)
  | inProcess {opens : Nat} (stage : check.stage = .inProcess)
      (calls : e.calls =
        [⟨0, e.latest, check.snapshot.text, check.snapshot.type, .gated opens⟩])
      (checks : g.checks = []) (brings : check.snapshot.inProcess = out)

def tell (s : Checker) (p : List Effect) : Checker := { s with effects := p ++ s.effects }

/- What a check that ends in this state shows, newest first. -/
def conclusion (s : Checker) (check : RunningCheck) (raw : List Diagnostic) : List Effect :=
  let delivery := fun ds : List Diagnostic =>
    (check.job.requester.map (fun id => Effect.delivered id ds)).toList
  if check.job.generation = s.generation then
    let r := check.snapshot
    let ds := Diagnostic.keepAtLeast r.settings.level raw
    delivery ds ++ (s.history.map (fun _ => Effect.recorded (.of r.name r.type r.text)
      ds.length)).toList ++ [.displayed ds]
  else delivery []

theorem finish_effects (s : Checker) (job : Job) (ds : List Diagnostic) :
    (s.finish job ds).effects =
      (job.requester.map (fun id => Effect.delivered id ds)).toList ++ s.effects := by
  unfold finish
  cases job.requester <;> rfl

theorem record_effects (s : Checker) (ds : List Diagnostic) (file : FileMeta) :
    (s.record ds file).effects =
      (s.history.map (fun _ => Effect.recorded file ds.length)).toList ++ s.effects := by
  unfold record
  cases s.history <;> rfl

theorem conclude_effects (s : Checker) (check : RunningCheck) (raw : List Diagnostic)
    (failure : Option ServiceError) :
    (s.conclude check raw failure).effects = s.conclusion check raw ++ s.effects := by
  unfold conclude conclusion
  split
  · simp only [finish_effects, record_effects, List.append_assoc]
    rfl
  · exact finish_effects s _ _

theorem conclude_running_phase (s : Checker) (running : Option RunningCheck) (phase : Phase)
    (check : RunningCheck) (raw : List Diagnostic) (failure : Option ServiceError) :
    ({ s with running, phase }).conclude check raw failure = s.conclude check raw failure := by
  unfold conclude display record finish emit
  cases s.history <;> cases check.job.requester <;> rfl

section fields

variable (s : Checker) (job : Job) (check : RunningCheck) (raw : List Diagnostic)
  (failure : Option ServiceError)

@[simp] theorem finish_running : (s.finish job raw).running = none := by
  unfold finish
  cases job.requester <;> rfl

@[simp] theorem finish_engine : (s.finish job raw).engine = s.engine := by
  unfold finish
  cases job.requester <;> rfl

@[simp] theorem finish_gateway : (s.finish job raw).gateway = s.gateway := by
  unfold finish
  cases job.requester <;> rfl

@[simp] theorem finish_status : (s.finish job raw).status = s.status := by
  unfold finish
  cases job.requester <;> rfl

@[simp] theorem conclude_running : (s.conclude check raw failure).running = none := by
  unfold conclude
  split <;> exact finish_running _ _ _

@[simp] theorem conclude_engine : (s.conclude check raw failure).engine = s.engine := by
  unfold conclude record
  split
  · rw [finish_engine]
    dsimp only
    split <;> rfl
  · exact finish_engine _ _ _

@[simp] theorem conclude_gateway : (s.conclude check raw failure).gateway = s.gateway := by
  unfold conclude record
  split
  · rw [finish_gateway]
    dsimp only
    split <;> rfl
  · exact finish_gateway _ _ _

theorem conclude_status : (s.conclude check raw failure).status =
    if check.job.generation = s.generation then check.snapshot.status (raw, failure)
    else s.status := by
  unfold conclude
  split
  · rw [finish_status]
    cases failure <;> rfl
  · exact finish_status _ _ _

end fields

def Probes (p : List Effect) : Prop := ∀ e ∈ p, ∃ id alive, e = Effect.probed id alive

theorem foldl_probes (now : Nat) (events : List GatewayEvent) (s : Checker)
    (unanswered : events.filterMap GatewayEvent.result = []) :
    ∃ p, Probes p ∧ events.foldl (onGatewayEvent now) s = s.tell p := by
  induction events generalizing s with
  | nil => exact ⟨[], by simp [Probes], rfl⟩
  | cons event rest ih =>
    cases event with
    | checked id result => cases unanswered
    | probed id alive => exact ih s unanswered
    | probedAll id alive =>
      obtain ⟨p, probes, told⟩ := ih (s.emit (.probed id alive)) unanswered
      refine ⟨p ++ [.probed id alive], ?_, ?_⟩
      · intro e member
        rcases List.mem_append.mp member with old | new
        · exact probes e old
        · exact ⟨id, alive, List.mem_singleton.mp new⟩
      · rw [List.foldl_cons, onGatewayEvent, told]
        simp [tell, emit]

/-- Among the events of an instant is one answer: what comes before and after it are probes. -/
theorem foldl_answer (now : Nat) (events : List GatewayEvent) (s : Checker)
    {result : Except ServiceError (List Diagnostic)}
    (one : events.filterMap GatewayEvent.result = [result]) :
    ∃ p q, Probes p ∧ Probes q ∧
      events.foldl (onGatewayEvent now) s = ((s.tell p).onAnswer now result).tell q := by
  induction events generalizing s with
  | nil => cases one
  | cons event rest ih =>
    cases event with
    | checked id other =>
      have same : other = result ∧ rest.filterMap GatewayEvent.result = [] := by
        simpa [GatewayEvent.result] using one
      obtain ⟨rfl, unanswered⟩ := same
      obtain ⟨q, probes, told⟩ := foldl_probes now rest (s.onAnswer now other) unanswered
      exact ⟨[], q, by simp [Probes], probes, told⟩
    | probed id alive => exact ih s one
    | probedAll id alive =>
      obtain ⟨p, q, before, after, told⟩ := ih (s.emit (.probed id alive)) one
      refine ⟨p ++ [.probed id alive], q, ?_, after, ?_⟩
      · intro e member
        rcases List.mem_append.mp member with old | new
        · exact before e old
        · exact ⟨id, alive, List.mem_singleton.mp new⟩
      · rw [List.foldl_cons, onGatewayEvent, told]
        simp [tell, emit]

/- A gateway at which only probes and answers have come in. -/
structure Heard (g h : Gateway) : Prop where
  endpoints : h.endpoints = g.endpoints
  sent : h.sent = g.sent

theorem heard_settle (now : Nat) (g : Gateway) : Heard g (g.settle now).1 := by
  obtain ⟨availability, same⟩ := g.settle_eq now
  rw [same]
  exact ⟨rfl, rfl⟩

/-- How far a running check gets in a move. -/
inductive Progress (now : Nat) (s : Checker) (check : RunningCheck) (out : Outcome) :
    Checker → Prop where
  | still {g : Gateway} {p : List Effect} (heard : Heard s.gateway g)
      (checks : g.checks = s.gateway.checks) (probes : Probes p) :
      Progress now s check out ({ s with gateway := g }.tell p)
  | fallsBack {e : Engine} {g : Gateway} {p q : List Effect} {time : Nat}
      {result : Except ServiceError (List Diagnostic)}
      (asked : s.gateway.checks = [(time, result)]) (due : time ≤ now) (heard : Heard s.gateway g)
      (gate : e.gate = s.engine.gate) (positive : 0 < e.gate) (sound : e.Sound)
      (checks : g.checks = [])
      (calls : e.calls =
        [⟨0, e.latest, check.snapshot.text, check.snapshot.type, .gated (now + e.gate)⟩])
      (brings : check.snapshot.inProcess = out) (before : Probes p) (after : Probes q) :
      Progress now s check out ({ s.tell p with
        engine := e, gateway := g, running := some { check with stage := .inProcess }
        phase := .fallback }.tell q)
  | ends {e : Engine} {g : Gateway} {p q : List Effect} (heard : Heard s.gateway g)
      (gate : e.gate = s.engine.gate) (sound : e.Sound) (checks : g.checks = [])
      (calls : e.calls = []) (before : Probes p) (after : Probes q) :
      Progress now s check out
        (({ s.tell p with engine := e, gateway := g }.conclude check out.1 out.2).tell q)

/-- The engine has the findings at once, or the check waits for them. -/
theorem checkInProcess_cases (now : Nat) (s : Checker) (check : RunningCheck)
    (sound : s.engine.Sound) (none : s.engine.calls = []) :
    ∃ e : Engine, e.gate = s.engine.gate ∧ e.Sound ∧
      ((e.calls = [] ∧ s.checkInProcess now check = { s with engine := e }.conclude check
          check.snapshot.inProcess.1 check.snapshot.inProcess.2) ∨
        (0 < e.gate ∧ e.calls =
            [⟨0, e.latest, check.snapshot.text, check.snapshot.type, .gated (now + e.gate)⟩] ∧
          s.checkInProcess now check =
            { s with engine := e, running := some { check with stage := .inProcess } })) := by
  obtain ⟨e, gate, sound, ⟨calls, settled⟩ | ⟨positive, calls, settled⟩⟩ :=
    Engine.settle_lint none sound now 0 check.snapshot.text check.snapshot.type
  · refine ⟨e, gate, sound, .inl ⟨calls, ?_⟩⟩
    simp only [checkInProcess, pollEngine, settled, List.foldl_cons, List.foldl_nil, if_true]
    exact conclude_running_phase { s with engine := e } (some { check with stage := .inProcess })
      s.phase { check with stage := .inProcess } _ _
  · refine ⟨e, gate, sound, .inr ⟨gate ▸ positive, gate ▸ calls, ?_⟩⟩
    simp only [checkInProcess, pollEngine, settled, List.foldl_nil]

theorem pollEngine_free (now : Nat) (s : Checker) (none : s.engine.calls = []) :
    s.pollEngine now = s := by
  simp only [pollEngine, Engine.settle_of_no_calls none, List.foldl_nil]

theorem pollGateway_quiet (now : Nat) (s : Checker)
    (later : s.gateway.checks.filter (fun row => row.1 ≤ now) = []) :
    ∃ p, Probes p ∧
      s.pollGateway now = { s with gateway := (s.gateway.settle now).1 }.tell p ∧
      (s.gateway.settle now).1.checks = s.gateway.checks := by
  have unanswered := s.gateway.results_settle now
  rw [later] at unanswered
  obtain ⟨p, probes, told⟩ := foldl_probes now (s.gateway.settle now).2
    { s with gateway := (s.gateway.settle now).1 } unanswered
  refine ⟨p, probes, told, ?_⟩
  rw [s.gateway.checks_settle now, List.filter_eq_self]
  intro row member
  have waits := List.filter_eq_nil_iff.mp later row member
  simpa using waits

theorem pollEngine_due {now opens : Nat} {s : Checker} {check : RunningCheck}
    (running : s.running = some check) (stage : check.stage = .inProcess)
    (calls : s.engine.calls =
      [⟨0, s.engine.latest, check.snapshot.text, check.snapshot.type, .gated opens⟩])
    (due : opens ≤ now) :
    s.pollEngine now = { s with
      engine := { (s.engine.scan now ⟨0, s.engine.latest, check.snapshot.text,
        check.snapshot.type, .gated opens⟩).1 with calls := [] } }.conclude check
      check.snapshot.inProcess.1 check.snapshot.inProcess.2 := by
  have settled := Engine.settle_alone calls rfl rfl now
  rw [if_pos due] at settled
  simp only [pollEngine, settled, List.foldl_cons, List.foldl_nil, running, stage, if_true]
  rfl

theorem progress_pollEngine (now : Nat) {s : Checker} {check : RunningCheck} {out : Outcome}
    (running : s.running = some check) (waits : Waits s.engine s.gateway check out) :
    Progress now s check out (s.pollEngine now) := by
  have still : s.pollEngine now = s → Progress now s check out (s.pollEngine now) := by
    intro same
    rw [same]
    exact .still (p := []) ⟨rfl, rfl⟩ rfl (by simp [Probes])
  cases waits with
  | remote stage calls checks brings => exact still (pollEngine_free now s calls)
  | inProcess stage calls checks brings =>
    rename_i opens
    by_cases due : opens ≤ now
    · rw [pollEngine_due running stage calls due, brings]
      exact .ends (p := []) (q := []) ⟨rfl, rfl⟩ rfl (Engine.Sound.scan now _) checks rfl
        (by simp [Probes]) (by simp [Probes])
    · have settled := Engine.settle_alone calls rfl rfl now
      rw [if_neg due] at settled
      apply still
      simp only [pollEngine, settled, List.foldl_nil]

section answer

variable (now : Nat) {s : Checker} {check : RunningCheck} (running : s.running = some check)
  (stage : check.stage = .remote)

include running stage

theorem onAnswer_ok (ds : List Diagnostic) :
    s.onAnswer now (.ok ds) = s.conclude check ds none := by
  unfold onAnswer
  split
  · rename_i other same
    cases Option.some.inj (same.symm.trans running)
    rw [if_pos stage]
  · rename_i absent
    cases absent.symm.trans running

theorem onAnswer_error (e : ServiceError) :
    s.onAnswer now (.error e) =
      if check.snapshot.settings.fallbackToLocal then
        checkInProcess now { s with phase := .fallback } check
      else s.conclude check [] (some e) := by
  unfold onAnswer
  split
  · rename_i other same
    cases Option.some.inj (same.symm.trans running)
    rw [if_pos stage]
  · rename_i absent
    cases absent.symm.trans running

theorem onAnswer_cases (result : Except ServiceError (List Diagnostic)) (sound : s.engine.Sound)
    (none : s.engine.calls = []) :
    ∃ e : Engine, e.gate = s.engine.gate ∧ e.Sound ∧
      ((e.calls = [] ∧ s.onAnswer now result = { s with engine := e }.conclude check
          (check.snapshot.answered result).1 (check.snapshot.answered result).2) ∨
        (0 < e.gate ∧ e.calls =
            [⟨0, e.latest, check.snapshot.text, check.snapshot.type, .gated (now + e.gate)⟩] ∧
          check.snapshot.inProcess = check.snapshot.answered result ∧
          s.onAnswer now result = { s with
            engine := e, running := some { check with stage := .inProcess }
            phase := .fallback })) := by
  cases result with
  | ok ds => exact ⟨s.engine, rfl, sound, .inl ⟨none, onAnswer_ok now running stage ds⟩⟩
  | error e =>
    have answer := onAnswer_error now running stage e
    by_cases fallback : check.snapshot.settings.fallbackToLocal = true
    · rw [if_pos fallback] at answer
      simp only [Snapshot.answered, fallback, if_true]
      obtain ⟨e, gate, sound, ⟨calls, finished⟩ | ⟨positive, calls, finished⟩⟩ :=
        checkInProcess_cases now { s with phase := .fallback } check sound none
      · refine ⟨e, gate, sound, .inl ⟨calls, answer.trans (finished.trans ?_)⟩⟩
        exact conclude_running_phase { s with engine := e } s.running .fallback _ _ _
      · exact ⟨e, gate, sound, .inr ⟨positive, calls, trivial, answer.trans finished⟩⟩
    · rw [if_neg fallback] at answer
      simp only [Snapshot.answered, fallback, Bool.false_eq_true, if_false]
      exact ⟨s.engine, rfl, sound, .inl ⟨none, answer⟩⟩

end answer

theorem progress_pollGateway (now : Nat) {s : Checker} {check : RunningCheck} {out : Outcome}
    (running : s.running = some check) (waits : Waits s.engine s.gateway check out)
    (sound : s.engine.Sound) : Progress now s check out (s.pollGateway now) := by
  have still : s.gateway.checks.filter (fun row => row.1 ≤ now) = [] →
      Progress now s check out (s.pollGateway now) := by
    intro later
    obtain ⟨p, probes, told, checks⟩ := pollGateway_quiet now s later
    rw [told]
    exact .still (heard_settle now _) checks probes
  cases waits with
  | inProcess stage calls checks brings =>
    apply still
    rw [checks]
    rfl
  | remote stage calls checks brings =>
    rename_i time result
    by_cases due : time ≤ now
    · have one := s.gateway.results_settle now
      have rest := s.gateway.checks_settle now
      simp only [checks, List.filter_cons, due, decide_true, if_true, List.filter_nil,
        List.map_cons, List.map_nil, Nat.not_lt.mpr due, decide_false, Bool.false_eq_true,
        if_false] at one rest
      obtain ⟨p, q, before, after, told⟩ := foldl_answer now (s.gateway.settle now).2
        { s with gateway := (s.gateway.settle now).1 } one
      have answered : s.pollGateway now = _ := told
      rw [answered]
      have heard := heard_settle now s.gateway
      generalize (s.gateway.settle now).1 = g at rest heard ⊢
      obtain ⟨e, gate, sound, ⟨calls, finished⟩ | ⟨positive, calls, same, finished⟩⟩ :=
        onAnswer_cases now (s := { s with gateway := g }.tell p) running stage result sound calls
      · rw [finished, brings]
        exact .ends heard gate sound rest calls before after
      · rw [finished]
        exact .fallsBack checks due heard gate positive sound rest calls (same.trans brings) before
          after
    · apply still
      simp [checks, due]

def Shows (s t : Checker) (check : RunningCheck) (out : Outcome) : Prop :=
  ∃ new, t.effects = new ++ s.effects ∧ ∀ ds, Effect.displayed ds ∈ new →
    check.job.generation = s.generation ∧
      ds = Diagnostic.keepAtLeast check.snapshot.settings.level out.1 ∧
      t.status = check.snapshot.status out

theorem Probes.not_displayed {p : List Effect} (probes : Probes p) (ds : List Diagnostic) :
    Effect.displayed ds ∉ p := by
  intro member
  obtain ⟨id, alive, same⟩ := probes _ member
  cases same

theorem displayed_of_conclusion {s : Checker} {check : RunningCheck} {raw ds : List Diagnostic}
    (shown : Effect.displayed ds ∈ s.conclusion check raw) :
    check.job.generation = s.generation ∧
      ds = Diagnostic.keepAtLeast check.snapshot.settings.level raw := by
  have nobody : ∀ found : List Diagnostic, Effect.displayed ds ∉
      (check.job.requester.map (fun id => Effect.delivered id found)).toList := by
    intro found
    cases check.job.requester <;> simp
  unfold conclusion at shown
  split at shown
  · rename_i current
    refine ⟨current, ?_⟩
    rcases List.mem_append.mp shown with before | last
    · rcases List.mem_append.mp before with delivered | recorded
      · exact absurd delivered (nobody _)
      · cases history : s.history <;> simp [history] at recorded
    · simpa using last
  · exact absurd shown (nobody _)

theorem shows_conclude (s : Checker) (check : RunningCheck) (out : Outcome) :
    Shows s (s.conclude check out.1 out.2) check out := by
  refine ⟨_, conclude_effects s check out.1 out.2, ?_⟩
  intro ds shown
  obtain ⟨current, same⟩ := displayed_of_conclusion shown
  refine ⟨current, same, ?_⟩
  rw [conclude_status, if_pos current]

theorem Shows.around {s t : Checker} {check : RunningCheck} {out : Outcome} {p q : List Effect}
    (before : Probes p) (after : Probes q) (inner : Shows (s.tell p) t check out) :
    Shows s (t.tell q) check out := by
  obtain ⟨new, added, shown⟩ := inner
  refine ⟨q ++ new ++ p, ?_, ?_⟩
  · simp [tell] at added
    simp [tell, added]
  · intro ds member
    simp only [List.mem_append] at member
    rcases member with (late | here) | early
    · exact absurd late (after.not_displayed ds)
    · exact shown ds here
    · exact absurd early (before.not_displayed ds)

theorem Progress.shown {now : Nat} {s t : Checker} {check : RunningCheck} {out : Outcome}
    (progress : Progress now s check out t) : Shows s t check out := by
  have nothing : ∀ t : Checker, t.effects = s.effects → Shows s t check out :=
    fun t same => ⟨[], same, by simp⟩
  cases progress with
  | still heard checks probes =>
    exact Shows.around (p := []) (by simp [Probes]) probes (nothing _ rfl)
  | fallsBack asked due heard gate positive sound checks calls brings before after =>
    exact Shows.around before after ⟨[], rfl, by simp⟩
  | ends heard gate sound checks calls before after =>
    rename_i e g p q
    exact Shows.around before after (shows_conclude { s.tell p with engine := e, gateway := g } _ _)

theorem Progress.waits {now : Nat} {s t : Checker} {check : RunningCheck} {out : Outcome}
    (progress : Progress now s check out t) (running : s.running = some check)
    (waits : Waits s.engine s.gateway check out) (sound : s.engine.Sound) :
    t.engine.Sound ∧ ((t.running = none ∧ t.engine.calls = [] ∧ t.gateway.checks = []) ∨
      ∃ stage, t.running = some { check with stage } ∧
        Waits t.engine t.gateway { check with stage } out) := by
  cases progress with
  | still heard checks probes =>
    refine ⟨sound, .inr ⟨check.stage, running, ?_⟩⟩
    cases waits with
    | remote stage calls pending brings =>
      exact .remote stage calls (checks.trans pending) brings
    | inProcess stage calls pending brings =>
      exact .inProcess stage calls (checks.trans pending) brings
  | fallsBack asked due heard gate positive sound checks calls brings before after =>
    exact ⟨sound, .inr ⟨.inProcess, rfl, .inProcess rfl calls checks brings⟩⟩
  | ends heard gate sound checks calls before after =>
    refine ⟨?_, .inl ⟨conclude_running _ _ _ _, ?_, ?_⟩⟩
    · simpa [tell] using sound
    · simpa [tell] using calls
    · simpa [tell] using checks

/-- A check without anything to do ends with its turn. -/
inductive Quits (s : Checker) (job : Job) : Checker → Prop where
  | discarded (stale : job.generation ≠ s.generation) : Quits s job (s.finish job [])
  | disabled (current : job.generation = s.generation) (off : s.store.get.enabled = false) :
      Quits s job ({ s.clearSink with status := .disabled }.finish job [])
  | empty (current : job.generation = s.generation)
      (nothing : s.buffer.name = none ∨ Text.allBlank s.buffer.text.toList = true)
      (on : s.store.get.enabled = true) :
      Quits s job ({ s.clearSink with status := .idle }.finish job [])
  | unsupported (current : job.generation = s.generation) {name : String}
      (named : s.buffer.name = some name) (unknown : FileType.ofFileName name = .unknown)
      (on : s.store.get.enabled = true) (text : Text.allBlank s.buffer.text.toList = false) :
      Quits s job ({ s with status := .unsupported }.finish job [])

theorem reading_eq_some {s : Checker} {r : Snapshot} (reads : s.reading = some r) :
    r.settings = s.store.get ∧ s.buffer.name = some r.name ∧ r.text = s.buffer.text ∧
      r.type = FileType.ofFileName r.name ∧ s.store.get.enabled = true ∧
      Text.allBlank s.buffer.text.toList = false ∧ r.type ≠ .unknown := by
  unfold reading at reads
  dsimp only at reads
  split at reads
  · rename_i open_
    simp only [Bool.and_eq_true, Bool.not_eq_true'] at open_
    split at reads
    · cases reads
    · rename_i name named
      split at reads
      · cases reads
      · rename_i known
        have same := Option.some.inj reads
        subst same
        dsimp only
        exact ⟨rfl, named, rfl, rfl, open_.1, open_.2, known⟩
  · cases reads

/-- A turn: there is nothing to do, or the check begins with what it reads. -/
theorem start_cases (net : Network) (now : Nat) (s : Checker) (job : Job) :
    (Quits s job (start net now s job)) ∨
      (job.generation = s.generation ∧ ∃ r, s.reading = some r ∧
        start net now s job = s.beginCheck net now job r) := by
  unfold start
  dsimp only
  split
  · rename_i stale
    exact .inl (.discarded stale)
  · rename_i current
    have current := Decidable.not_not.mp current
    split
    · rename_i off
      exact .inl (.disabled current (by simpa using off))
    · rename_i on
      have on : s.store.get.enabled = true := by simpa using on
      split
      · rename_i unnamed
        exact .inl (.empty current (.inl unnamed) on)
      · rename_i name named
        split
        · rename_i blank
          exact .inl (.empty current (.inr blank) on)
        · rename_i text
          split
          · rename_i unknown
            exact .inl (.unsupported current named unknown on (by simpa using text))
          · rename_i known
            refine .inr ⟨current, _, ?_, rfl⟩
            simp only [reading, named]
            rw [if_pos (by simpa using And.intro on text), if_neg known]

def sending (net : Network) (now : Nat) (s : Checker) (job : Job) (r : Snapshot) : Checker :=
  { s with
    phase := .checking, status := .checking r.type
    gateway := s.gateway.check net 0 r.type r.text (.ofSettings r.settings r.type) now
    running := some ⟨job, r, .remote⟩ }

/-- A check as it begins: sent to a service, or with the engine, which may have what it wants. -/
inductive Begins (net : Network) (now : Nat) (s : Checker) (job : Job) (r : Snapshot) :
    Checker → Prop where
  | remote {t : Checker} (goes : s.goesRemote r = true)
      (progress : Progress now (s.sending net now job r) ⟨job, r, .remote⟩ (s.produced net r) t) :
      Begins net now s job r t
  | waits {e : Engine} (stays : s.goesRemote r = false) (gate : e.gate = s.engine.gate)
      (positive : 0 < e.gate) (sound : e.Sound)
      (calls : e.calls = [⟨0, e.latest, r.text, r.type, .gated (now + e.gate)⟩]) :
      Begins net now s job r { s with
        phase := .checking, status := .checking r.type, engine := e
        running := some ⟨job, r, .inProcess⟩ }
  | ends {e : Engine} (stays : s.goesRemote r = false) (gate : e.gate = s.engine.gate)
      (sound : e.Sound) (calls : e.calls = []) :
      Begins net now s job r ({ s with
        phase := .checking, status := .checking r.type, engine := e }.conclude
          ⟨job, r, .inProcess⟩ (s.produced net r).1 (s.produced net r).2)

theorem checks_sending (net : Network) (now : Nat) {s : Checker} (job : Job) (r : Snapshot)
    (checks : s.gateway.checks = []) :
    (s.sending net now job r).gateway.checks =
      [(now + (s.gateway.exchange net r.type r.text (.ofSettings r.settings r.type)).1,
        (s.gateway.exchange net r.type r.text (.ofSettings r.settings r.type)).2)] := by
  simp [sending, Gateway.checks_check, checks]

theorem waits_sending (net : Network) (now : Nat) {s : Checker} (job : Job) {r : Snapshot}
    (calls : s.engine.calls = []) (checks : s.gateway.checks = [])
    (goes : s.goesRemote r = true) :
    Waits (s.sending net now job r).engine (s.sending net now job r).gateway ⟨job, r, .remote⟩
      (s.produced net r) := by
  refine .remote rfl calls (checks_sending net now job r checks) ?_
  rw [produced, if_pos goes]

theorem begins_beginCheck (net : Network) (now : Nat) {s : Checker} (job : Job) (r : Snapshot)
    (calls : s.engine.calls = []) (checks : s.gateway.checks = []) (sound : s.engine.Sound) :
    Begins net now s job r (s.beginCheck net now job r) := by
  have same : ({ s with phase := .checking, status := .checking r.type } : Checker).goesRemote r =
      s.goesRemote r := rfl
  unfold beginCheck
  dsimp only
  rw [same]
  cases goes : s.goesRemote r with
  | true =>
    have waits := waits_sending net now job calls checks goes
    exact .remote goes (progress_pollGateway now rfl waits sound)
  | false =>
    have local_ : s.produced net r = r.inProcess := by simp [produced, goes]
    obtain ⟨e, gate, sound, ⟨calls, finished⟩ | ⟨positive, calls, finished⟩⟩ :=
      checkInProcess_cases now { s with phase := .checking, status := .checking r.type }
        ⟨job, r, .inProcess⟩ sound calls
    · rw [if_neg Bool.false_ne_true, finished]
      have ends : Begins net now s job r _ := .ends goes gate sound calls
      rwa [local_] at ends
    · rw [if_neg Bool.false_ne_true, finished]
      exact .waits goes gate positive sound calls

theorem Begins.shown {net : Network} {now : Nat} {s t : Checker} {job : Job} {r : Snapshot}
    (begins : Begins net now s job r t) :
    ∃ stage, Shows s t ⟨job, r, stage⟩ (s.produced net r) := by
  cases begins with
  | remote goes progress => exact ⟨_, progress.shown⟩
  | waits stays gate positive sound calls => exact ⟨.inProcess, [], rfl, by simp⟩
  | ends stays gate sound calls =>
    rename_i e
    exact ⟨_, shows_conclude { s with
      phase := .checking, status := .checking r.type, engine := e } ⟨job, r, .inProcess⟩ _⟩

theorem Quits.effects {s t : Checker} {job : Job} (quits : Quits s job t) :
    ∃ cleared : List Effect, (cleared = [] ∨ cleared = [.cleared]) ∧
      t.effects = (job.requester.map (fun id => Effect.delivered id [])).toList ++
        (cleared ++ s.effects) := by
  cases quits with
  | discarded => exact ⟨[], .inl rfl, finish_effects _ _ _⟩
  | disabled => exact ⟨[.cleared], .inr rfl, finish_effects _ _ _⟩
  | empty => exact ⟨[.cleared], .inr rfl, finish_effects _ _ _⟩
  | unsupported => exact ⟨[], .inl rfl, finish_effects _ _ _⟩

/-- Nothing is under way but what the running check waits for, and that is what it is owed. -/
structure Locked (s : Checker) (owed : Job → Snapshot → Outcome → Prop) : Prop where
  sound : s.engine.Sound
  free : s.running = none → s.engine.calls = [] ∧ s.gateway.checks = []
  held : ∀ check, s.running = some check →
    ∃ out, owed check.job check.snapshot out ∧ Waits s.engine s.gateway check out

structure SameInside (s t : Checker) : Prop where
  engine : t.engine = s.engine
  running : t.running = s.running
  checks : t.gateway.checks = s.gateway.checks

variable {s t : Checker} {owed : Job → Snapshot → Outcome → Prop}

theorem Locked.congr (locked : Locked s owed) (same : SameInside s t) : Locked t owed where
  sound := same.engine ▸ locked.sound
  free free := by
    rw [same.engine, same.checks]
    exact locked.free (same.running ▸ free)
  held check running := by
    obtain ⟨out, due, waits⟩ := locked.held check (same.running ▸ running)
    refine ⟨out, due, ?_⟩
    rw [same.engine]
    cases waits with
    | remote stage calls pending brings =>
      exact .remote stage calls (same.checks.trans pending) brings
    | inProcess stage calls pending brings =>
      exact .inProcess stage calls (same.checks.trans pending) brings

theorem Aside.sameInside (aside : Aside s t) : SameInside s t :=
  ⟨aside.engine, aside.running, congrArg Gateway.checks aside.gateway⟩

theorem sameInside_act (net : Network) (action : Action) (now : Nat) (s : Checker) :
    SameInside s (act net action now s) := by
  cases action with
  | toggleEnabled => exact (aside_saveSettings now _ s).sameInside
  | toggleRemote => exact (aside_saveSettings now _ s).sameInside
  | putSettings settings => exact (aside_putSettings net settings now s).sameInside
  | probeAll id => exact ⟨rfl, rfl, Gateway.checks_probeAll net id now s.gateway⟩
  | probe type => exact ⟨rfl, rfl, Gateway.checks_probe net 0 type now s.gateway⟩
  | _ => exact ⟨rfl, rfl, rfl⟩

theorem sameInside_notice (now : Nat) (s : Checker) : SameInside s (s.notice now) :=
  (aside_notice now s).sameInside

theorem sameInside_fireTimer (now : Nat) (s : Checker) : SameInside s (s.fireTimer now) :=
  (aside_fireTimer now s).sameInside

theorem Locked.progress {now : Nat} {check : RunningCheck} {out : Outcome}
    (locked : Locked s owed) (running : s.running = some check)
    (due : owed check.job check.snapshot out) (waits : Waits s.engine s.gateway check out)
    (progress : Progress now s check out t) : Locked t owed := by
  obtain ⟨sound, ⟨free, calls, checks⟩ | ⟨stage, still, waits⟩⟩ :=
    progress.waits running waits locked.sound
  · refine ⟨sound, fun _ => ⟨calls, checks⟩, ?_⟩
    intro check busy
    cases free.symm.trans busy
  · refine ⟨sound, ?_, ?_⟩
    · intro free
      cases free.symm.trans still
    · intro other busy
      cases Option.some.inj (still.symm.trans busy)
      exact ⟨out, due, waits⟩

theorem Locked.pollGateway (now : Nat) (locked : Locked s owed) :
    Locked (s.pollGateway now) owed := by
  cases running : s.running with
  | none =>
    obtain ⟨calls, checks⟩ := locked.free running
    obtain ⟨p, _, told, same⟩ := pollGateway_quiet now s (by rw [checks]; rfl)
    rw [told]
    exact locked.congr ⟨rfl, rfl, same⟩
  | some check =>
    obtain ⟨out, due, waits⟩ := locked.held check running
    exact locked.progress running due waits (progress_pollGateway now running waits locked.sound)

theorem Locked.pollEngine (now : Nat) (locked : Locked s owed) :
    Locked (s.pollEngine now) owed := by
  cases running : s.running with
  | none =>
    rw [pollEngine_free now s (locked.free running).1]
    exact locked
  | some check =>
    obtain ⟨out, due, waits⟩ := locked.held check running
    exact locked.progress running due waits (progress_pollEngine now running waits)

theorem Quits.gateway {job : Job} (quits : Quits s job t) : t.gateway = s.gateway := by
  cases quits with
  | discarded => exact finish_gateway _ _ _
  | disabled => exact finish_gateway _ _ _
  | empty => exact finish_gateway _ _ _
  | unsupported => exact finish_gateway _ _ _

theorem Quits.sameInside {job : Job} (quits : Quits s job t) (free : s.running = none) :
    SameInside s t := by
  have gateway := quits.gateway
  refine ⟨?_, ?_, congrArg Gateway.checks gateway⟩
  · cases quits with
    | discarded => exact finish_engine _ _ _
    | disabled => exact finish_engine _ _ _
    | empty => exact finish_engine _ _ _
    | unsupported => exact finish_engine _ _ _
  · cases quits with
    | discarded => rw [finish_running, free]
    | disabled => rw [finish_running, free]
    | empty => rw [finish_running, free]
    | unsupported => rw [finish_running, free]

theorem Begins.locked {net : Network} {now : Nat} {job : Job} {r : Snapshot}
    (begins : Begins net now s job r t) (calls : s.engine.calls = [])
    (checks : s.gateway.checks = []) (sound : s.engine.Sound)
    (due : owed job r (s.produced net r)) : Locked t owed := by
  cases begins with
  | remote goes progress =>
    have waits := waits_sending net now job calls checks goes
    have sent : Locked (s.sending net now job r) owed := by
      refine ⟨sound, ?_, ?_⟩
      · intro none
        cases none
      · intro check running
        cases running
        exact ⟨_, due, waits⟩
    exact sent.progress rfl due waits progress
  | waits stays gate positive sound calls =>
    refine ⟨sound, ?_, ?_⟩
    · intro none
      cases none
    · intro check running
      cases running
      refine ⟨_, due, .inProcess rfl calls checks ?_⟩
      simp [produced, stays]
  | ends stays gate sound calls =>
    refine ⟨?_, ?_, ?_⟩
    · simpa using sound
    · intro _
      simpa using ⟨calls, checks⟩
    · intro check running
      cases (conclude_running _ _ _ _).symm.trans running

theorem Locked.turn (net : Network) (now : Nat) (job : Job) (locked : Locked s owed)
    (free : s.running = none) :
    Quits s job (start net now s job) ∨ (job.generation = s.generation ∧
      ∃ r, s.reading = some r ∧ Begins net now s job r (start net now s job)) := by
  obtain ⟨calls, checks⟩ := locked.free free
  rcases start_cases net now s job with quits | ⟨current, r, reads, begins⟩
  · exact .inl quits
  · rw [begins]
    exact .inr ⟨current, r, reads, begins_beginCheck net now job r calls checks locked.sound⟩

theorem Locked.start (net : Network) (now : Nat) (job : Job) (locked : Locked s owed)
    (free : s.running = none) :
    Locked (Checker.start net now s job) (fun holder r out =>
      holder = job ∧ s.reading = some r ∧ out = s.produced net r) := by
  obtain ⟨calls, checks⟩ := locked.free free
  rcases locked.turn net now job free with quits | ⟨_, r, reads, begins⟩
  · refine Locked.congr ⟨locked.sound, locked.free, ?_⟩ (quits.sameInside free)
    intro check running
    cases free.symm.trans running
  · exact begins.locked calls checks locked.sound ⟨rfl, reads, rfl⟩

/-- What a move is to the check that has the lock. -/
inductive Does (net : Network) (now : Nat) (s : Checker)
    (owed : Job → Snapshot → Outcome → Prop) : Move → Prop where
  | outside {m : Move} (same : SameInside s (m.apply net now s))
      (nobody : Moment.job? ⟨now, m, s⟩ = none)
      (silent : ∃ new, (m.apply net now s).effects = new ++ s.effects ∧ new.all apart = true) :
      Does net now s owed m
  | goesOn {m : Move} {check : RunningCheck} {out : Outcome} (running : s.running = some check)
      (polls : m = .pollGateway ∨ m = .pollEngine) (due : owed check.job check.snapshot out)
      (waits : Waits s.engine s.gateway check out)
      (progress : Progress now s check out (m.apply net now s)) : Does net now s owed m
  | quits {job : Job} {rest : List Job} (free : s.running = none) (first : s.queue = job :: rest)
      (same : SameInside s (start net now { s with queue := rest } job))
      (quits : Quits { s with queue := rest } job (start net now { s with queue := rest } job)) :
      Does net now s owed (.turn job)
  | begins {job : Job} {rest : List Job} {r : Snapshot} (free : s.running = none)
      (first : s.queue = job :: rest) (current : job.generation = s.generation)
      (reads : s.reading = some r)
      (begins : Begins net now { s with queue := rest } job r
        (start net now { s with queue := rest } job)) : Does net now s owed (.turn job)

theorem keeps_polls (net : Network) (now : Nat) (s : Checker) {m : Move}
    (polls : m = .pollGateway ∨ m = .pollEngine) : Keeps s (m.apply net now s) := by
  rcases polls with rfl | rfl
  · exact keeps_pollGateway now s
  · exact keeps_pollEngine now s

theorem job_polls (now : Nat) (s : Checker) {m : Move}
    (polls : m = .pollGateway ∨ m = .pollEngine) :
    Moment.job? ⟨now, m, s⟩ = s.running.map RunningCheck.job := by
  rcases polls with rfl | rfl <;> rfl

theorem free_of_nobody {now : Nat} {m : Move} (polls : m = .pollGateway ∨ m = .pollEngine)
    (nobody : Moment.job? ⟨now, m, s⟩ = none) : s.running = none := by
  rw [job_polls now s polls] at nobody
  simpa using nobody

theorem apply_turn {net : Network} {now : Nat} {job : Job} {rest : List Job}
    (first : s.queue = job :: rest) :
    (Move.turn job).apply net now s = Checker.start net now { s with queue := rest } job := by
  unfold Move.apply
  rw [first]
  rfl

theorem progress_polls (net : Network) (now : Nat) {m : Move} {check : RunningCheck} {out : Outcome}
    (polls : m = .pollGateway ∨ m = .pollEngine) (running : s.running = some check)
    (waits : Waits s.engine s.gateway check out) (sound : s.engine.Sound) :
    Progress now s check out (m.apply net now s) := by
  rcases polls with rfl | rfl
  · exact progress_pollGateway now running waits sound
  · exact progress_pollEngine now running waits

theorem Locked.polls_free (net : Network) (now : Nat) {m : Move} (locked : Locked s owed)
    (free : s.running = none) (polls : m = .pollGateway ∨ m = .pollEngine) :
    ∃ g p, Probes p ∧ g.checks = s.gateway.checks ∧
      m.apply net now s = { s with gateway := g }.tell p := by
  obtain ⟨calls, checks⟩ := locked.free free
  rcases polls with rfl | rfl
  · obtain ⟨p, probes, told, same⟩ := pollGateway_quiet now s (by rw [checks]; rfl)
    exact ⟨_, p, probes, same, told⟩
  · exact ⟨s.gateway, [], by simp [Probes], rfl, pollEngine_free now s calls⟩

theorem Probes.apart {p : List Effect} (probes : Probes p) : p.all apart = true := by
  refine List.all_eq_true.mpr ?_
  intro e member
  obtain ⟨id, alive, rfl⟩ := probes e member
  rfl

theorem Locked.does_polls (net : Network) (now : Nat) {m : Move} (locked : Locked s owed)
    (polls : m = .pollGateway ∨ m = .pollEngine) : Does net now s owed m := by
  cases running : s.running with
  | none =>
    obtain ⟨g, p, probes, checks, same⟩ := locked.polls_free net now running polls
    refine .outside ?_ ?_ ?_
    · rw [same]
      exact ⟨rfl, rfl, checks⟩
    · rw [job_polls now s polls, running]
      rfl
    · rw [same]
      exact ⟨p, rfl, probes.apart⟩
  | some check =>
    obtain ⟨out, due, waits⟩ := locked.held check running
    exact .goesOn running polls due waits (progress_polls net now polls running waits locked.sound)

theorem Locked.does (net : Network) (now : Nat) (m : Move) (ready : m.Ready s)
    (locked : Locked s owed) : Does net now s owed m := by
  cases m with
  | act action =>
    exact .outside (sameInside_act net action now s) rfl (act_effects net action now s)
  | notice => exact .outside (sameInside_notice now s) rfl ⟨[], notice_effects now s, rfl⟩
  | fireTimer => exact .outside (sameInside_fireTimer now s) rfl ⟨[], fireTimer_effects now s, rfl⟩
  | pollEngine => exact locked.does_polls net now (.inr rfl)
  | pollGateway => exact locked.does_polls net now (.inl rfl)
  | turn job =>
    obtain ⟨free, head⟩ := ready
    obtain ⟨rest, first⟩ := List.head?_eq_some_iff.mp head
    have popped : Locked { s with queue := rest } owed := locked.congr ⟨rfl, rfl, rfl⟩
    rcases popped.turn net now job free with quits | ⟨current, r, reads, begins⟩
    · have same := quits.sameInside free
      exact .quits free first ⟨same.engine, same.running, same.checks⟩ quits
    · exact .begins free first current reads begins

end Checker
end BufferLint
