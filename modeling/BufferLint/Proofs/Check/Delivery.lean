import BufferLint.Proofs.Check.Quiet

/-! What checks deliver. The check that shows something is the last that got its turn, and it shows
what the settings, the file and the services at that moment make of the text. -/
namespace BufferLint.Checker

def Moment.turn? (m : Moment) : Option (Job × Checker) :=
  match m.move with
  | .turn job => some (job, m.before)
  | _ => none

/- The last request that got its turn, and the state in which it did. -/
def holder (trace : List Moment) : Option (Job × Checker) := trace.findSome? Moment.turn?

/- What the last request to get its turn brings. -/
def owed (net : Network) (trace : List Moment) (job : Job) (r : Snapshot) (out : Outcome) : Prop :=
  ∃ s, holder trace = some (job, s) ∧ s.reading = some r ∧ out = s.produced net r

section moves

variable {net : Network} {now : Nat} {past : List Moment} {s : Checker}

/-- Who has the lock is owed what was known when he got it, whatever happens then. -/
theorem locked_apply (m : Move) (ready : m.Ready s) (locked : Locked s (owed net past)) :
    Locked (m.apply net now s) (owed net (⟨now, m, s⟩ :: past)) := by
  cases locked.does net now m ready with
  | outside same nobody silent =>
    have goes := locked.congr same
    cases m with
    | turn job => cases nobody
    | _ => exact goes
  | goesOn running polls due waits progress =>
    have goes := locked.progress running due waits progress
    rcases polls with rfl | rfl <;> exact goes
  | quits free first same quits =>
    rw [apply_turn first]
    refine Locked.congr ⟨locked.sound, locked.free, ?_⟩ same
    intro check running
    cases free.symm.trans running
  | begins free first current reads begins =>
    obtain ⟨calls, checks⟩ := locked.free free
    rw [apply_turn first]
    exact begins.locked calls checks locked.sound ⟨s, rfl, reads, rfl⟩

theorem emitted_eq {m : Move} {new : List Effect}
    (added : (m.apply net now s).effects = new ++ s.effects) :
    Moment.emitted net ⟨now, m, s⟩ = new :=
  List.append_cancel_right ((Moment.after_effects net ⟨now, m, s⟩).symm.trans added)

theorem displayed_of_shows {m : Move} {check : RunningCheck} {out : Outcome}
    (shown : Shows s (m.apply net now s) check out) {ds : List Diagnostic}
    (displayed : .displayed ds ∈ Moment.emitted net ⟨now, m, s⟩) :
    check.job.generation = s.generation ∧
      ds = Diagnostic.keepAtLeast check.snapshot.settings.level out.1 ∧
      (m.apply net now s).status = check.snapshot.status out := by
  obtain ⟨new, added, only⟩ := shown
  rw [emitted_eq added] at displayed
  exact only ds displayed

theorem displayed_apply (m : Move) (ready : m.Ready s) (locked : Locked s (owed net past))
    {ds : List Diagnostic} (displayed : .displayed ds ∈ Moment.emitted net ⟨now, m, s⟩) :
    ∃ job r out, owed net (⟨now, m, s⟩ :: past) job r out ∧ job.generation = s.generation ∧
      ds = Diagnostic.keepAtLeast r.settings.level out.1 ∧
      (m.apply net now s).status = r.status out := by
  cases locked.does net now m ready with
  | outside same nobody silent =>
    obtain ⟨new, added, kinds⟩ := silent
    rw [emitted_eq added] at displayed
    cases List.all_eq_true.mp kinds _ displayed
  | goesOn running polls due waits progress =>
    have shown := displayed_of_shows progress.shown displayed
    refine ⟨_, _, _, ?_, shown⟩
    rcases polls with rfl | rfl <;> exact due
  | quits free first same quits =>
    rename_i job rest
    obtain ⟨cleared, kinds, added⟩ := quits.effects
    rw [← apply_turn first, ← List.append_assoc] at added
    rw [emitted_eq added] at displayed
    rcases kinds with rfl | rfl <;> cases job.requester <;> simp at displayed
  | begins free first current reads begins =>
    rename_i job rest r
    obtain ⟨stage, shown⟩ := begins.shown
    rw [← apply_turn first] at shown
    exact ⟨job, r, _, ⟨s, rfl, reads, rfl⟩, displayed_of_shows (s := s) shown displayed⟩

end moves

theorem locked_setup (net : Network) (u : Setup) : Locked u.checker (owed net []) := by
  refine ⟨?_, fun _ => ⟨rfl, rfl⟩, ?_⟩
  · intro scan cached
    cases cached
  · intro check running
    cases running

theorem quiet_setup (now : Nat) (u : Setup) : Quiet now u.checker := by
  intro time next
  cases next

theorem locked_trace (net : Network) (u : Setup) (steps : List Step) (later : List Moment)
    (m : Moment) (earlier : List Moment)
    (split : trace net steps u.checker = later ++ m :: earlier) :
    Locked m.before (owed net earlier) ∧ m.move.Ready m.before := by
  have kept := trace_invariant net (fun _ past s => Locked s (owed net past)) ?_ ?_ ?_ ?_ steps
    u.checker rfl (quiet_setup 0 u) (locked_setup net u)
  · exact kept.2.2 later m earlier split
  · intro now past s m ready locked
    exact locked_apply m ready locked
  · intro now past s locked
    exact locked.congr ⟨rfl, rfl, rfl⟩
  · intro now past s locked
    exact locked.quiet net now
  · intro now k past s _ _ locked
    exact locked

/-- A call under the lock is the only one, and the newest; so it is never superseded. -/
theorem Locked.calls {s : Checker} {owed : Job → Snapshot → Outcome → Prop}
    (locked : Locked s owed) : s.engine.calls.length ≤ 1 ∧
      ∀ call ∈ s.engine.calls, call.ticket = s.engine.latest ∧
        ∃ opens, call.stage = .gated opens := by
  have nobody : s.engine.calls = [] → s.engine.calls.length ≤ 1 ∧
      ∀ call ∈ s.engine.calls, call.ticket = s.engine.latest ∧
        ∃ opens, call.stage = .gated opens := by
    intro none
    simp [none]
  cases running : s.running with
  | none => exact nobody (locked.free running).1
  | some check =>
    obtain ⟨out, _, waits⟩ := locked.held check running
    cases waits with
    | remote stage calls checks brings => exact nobody calls
    | inProcess stage calls checks brings =>
      rw [calls]
      refine ⟨Nat.le_refl _, ?_⟩
      intro call member
      rw [List.mem_singleton.mp member]
      exact ⟨rfl, _, rfl⟩

theorem goesRemote_iff (s : Checker) (r : Snapshot) : s.goesRemote r = true ↔
    r.settings.useRemote = true ∧ (s.gateway.endpoints r.type).isSome = true ∧
      s.gateway.availability r.type ≠ some false := by
  simp only [goesRemote, Bool.and_eq_true, and_assoc, Gateway.supports, Gateway.isAvailable]
  cases s.gateway.availability r.type with
  | none => simp
  | some alive => cases alive <;> simp

/-- Every list that is displayed in a run is the right one: it is what the holder of the lock is
owed, and that is known from the state in which it got the lock. -/
theorem every_display_is_right (net : Network) (u : Setup) (steps : List Step) :
    (run net steps { state := u.checker }).log = told net (trace net steps u.checker) ∧
    ∀ later m earlier, trace net steps u.checker = later ++ m :: earlier →
      (∀ scan, m.before.engine.cache.slot = some scan →
        scan.diagnostics = analyze scan.content scan.type) ∧
      (m.before.engine.calls.length ≤ 1 ∧ ∀ call ∈ m.before.engine.calls,
        call.ticket = m.before.engine.latest ∧ ∃ opens, call.stage = .gated opens) ∧
      ∀ ds, .displayed ds ∈ m.emitted net → ∃ job s name raw failure,
        holder (m :: earlier) = some (job, s) ∧ s.buffer.name = some name ∧
        let settings := s.store.get
        let text := s.buffer.text
        let type := FileType.ofFileName name
        (raw, failure) = (
          if settings.useRemote = true ∧ (s.gateway.endpoints type).isSome = true ∧
              s.gateway.availability type ≠ some false then
            match (s.gateway.exchange net type text (.ofSettings settings type)).2 with
            | .ok found => (found, none)
            | .error e =>
              if settings.fallbackToLocal then (analyze text type, none) else ([], some e)
          else (analyze text type, none)) ∧
        ds = Diagnostic.keepAtLeast settings.level raw ∧
        (m.after net).status = match failure with
          | some e => .failed e.message
          | none => .ofFindings ds := by
  refine ⟨log_eq_told net steps u.checker rfl, ?_⟩
  intro later m earlier split
  obtain ⟨locked, ready⟩ := locked_trace net u steps later m earlier split
  refine ⟨locked.sound, locked.calls, ?_⟩
  intro ds displayed
  obtain ⟨job, r, out, ⟨s, held, reads, brings⟩, _, same, status⟩ :=
    displayed_apply m.move ready locked displayed
  obtain ⟨settings, named, text, type, _⟩ := reading_eq_some reads
  refine ⟨job, s, r.name, out.1, out.2, held, named, ?_, ?_, ?_⟩
  · rw [brings, ← settings, ← text, ← type]
    by_cases goes : s.goesRemote r = true
    · rw [if_pos ((goesRemote_iff s r).mp goes), produced, if_pos goes]
      cases (s.gateway.exchange net r.type r.text (.ofSettings r.settings r.type)).2 <;> rfl
    · rw [if_neg (mt (goesRemote_iff s r).mpr goes), produced, if_neg goes]
      rfl
  · rw [← settings]
    exact same
  · rw [same]
    exact status

end BufferLint.Checker
