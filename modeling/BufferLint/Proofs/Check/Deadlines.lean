import BufferLint.Proofs.Check.Requests

/-! When a check is over at the latest: a service has its time, and the local engine its gate. -/
namespace BufferLint

theorem Gateway.exchange_le (net : Network) (t : FileType) (code : String)
    (policy : RequestPolicy) (g : Gateway) : (g.exchange net t code policy).1 ≤ policy.timeout := by
  unfold exchange
  split
  · exact Nat.zero_le _
  · exact Reply.within_le _ _

theorem Gateway.mem_checks {g : Gateway} {row : Nat × Except ServiceError (List Diagnostic)}
    (member : row ∈ g.checks) : ∃ entry ∈ g.pending, entry.1 = row.1 := by
  obtain ⟨entry, pending, found⟩ := List.mem_filterMap.mp member
  refine ⟨entry, pending, ?_⟩
  cases result : entry.2.result with
  | none => simp [result] at found
  | some value =>
    simp only [result, Option.map_some, Option.some.injEq] at found
    rw [← found]

namespace Checker

theorem nextDue_le_part {s : Checker} (part : Option Nat) {time : Nat}
    (one : part ∈ [s.engine.nextDue, s.gateway.nextDue, s.timer.nextDue, s.nextTurn])
    (due : part = some time) : ∃ next, s.nextDue = some next ∧ next ≤ time :=
  Timed.exists_min?_le (List.mem_flatMap.mpr ⟨part, one, by simp [due]⟩)

theorem nextDue_le_pending {s : Checker} {entry : Nat × Completion}
    (member : entry ∈ s.gateway.pending) : ∃ next, s.nextDue = some next ∧ next ≤ entry.1 := by
  obtain ⟨m, found, le⟩ := Timed.Agenda.exists_nextDue_le member
  obtain ⟨next, same, before⟩ := nextDue_le_part (s := s) s.gateway.nextDue (by simp) found
  exact ⟨next, same, Nat.le_trans before le⟩

theorem nextDue_le_call {s : Checker} {call : EngineCall} (member : call ∈ s.engine.calls) :
    ∃ next, s.nextDue = some next ∧ next ≤ call.stage.ends := by
  obtain ⟨m, found, le⟩ := Timed.exists_min?_le
    (List.mem_map_of_mem (f := fun call : EngineCall => call.stage.ends) member)
  obtain ⟨next, same, before⟩ := nextDue_le_part (s := s) s.engine.nextDue (by simp) found
  exact ⟨next, same, Nat.le_trans before le⟩

theorem nextDue_le_check {s : Checker} {row : Nat × Except ServiceError (List Diagnostic)}
    (member : row ∈ s.gateway.checks) : ∃ next, s.nextDue = some next ∧ next ≤ row.1 := by
  obtain ⟨entry, pending, same⟩ := Gateway.mem_checks member
  exact same ▸ nextDue_le_pending pending

theorem Quiet.queue {now : Nat} {s : Checker} (quiet : Quiet now s) (free : s.running = none) :
    s.queue = [] := by
  cases waiting : s.queue with
  | nil => rfl
  | cons job rest =>
    have turn : s.nextTurn = some 0 := by simp [nextTurn, free, waiting]
    obtain ⟨next, due, le⟩ := nextDue_le_part (s := s) s.nextTurn (by simp) turn
    have := quiet next due
    omega

/-- A check that began at a time, or before, is over in time. -/
structure Within (began : Nat) (s : Checker) (check : RunningCheck) : Prop where
  service : ∀ row ∈ s.gateway.checks, row.1 ≤ began + check.snapshot.settings.timeout
  engine : ∀ call ∈ s.engine.calls,
    call.stage.ends ≤ began + check.snapshot.settings.timeout + s.engine.gate

structure Timely (now : Nat) (s : Checker) : Prop where
  /-- No answer is overdue. -/
  ahead : ∀ row ∈ s.gateway.checks, now ≤ row.1
  soon : ∀ check, s.running = some check → Within now s check

section

variable {net : Network} {now began : Nat} {s t : Checker} {check : RunningCheck} {out : Outcome}
  {owed : Job → Snapshot → Outcome → Prop}

theorem Within.congr (within : Within began s check) (same : SameInside s t) :
    Within began t check := by
  refine ⟨?_, ?_⟩
  · rw [same.checks]
    exact within.service
  · rw [same.engine]
    exact within.engine

theorem Timely.congr (timely : Timely now s) (same : SameInside s t) : Timely now t := by
  refine ⟨?_, ?_⟩
  · rw [same.checks]
    exact timely.ahead
  · intro check running
    exact (timely.soon check (same.running ▸ running)).congr same

theorem Progress.within (progress : Progress now s check out t)
    (ahead : ∀ row ∈ s.gateway.checks, now ≤ row.1) (within : Within began s check) :
    (∀ row ∈ t.gateway.checks, now ≤ row.1) ∧
      ∀ later, t.running = some later → s.running = some check → Within began t later := by
  cases progress with
  | still heard checks probes =>
    refine ⟨?_, ?_⟩
    · intro row member
      exact ahead row (checks ▸ member)
    · intro later running before
      cases Option.some.inj (before.symm.trans running)
      exact ⟨fun row member => within.service row (checks ▸ member), within.engine⟩
  | fallsBack asked due heard gate positive sound checks calls brings before after =>
    rename_i e g p q time result
    refine ⟨?_, ?_⟩
    · simp [tell, checks]
    · intro later running _
      cases running
      have early := ahead (time, result) (by simp [asked])
      have limit := within.service (time, result) (by simp [asked])
      refine ⟨by simp [tell, checks], ?_⟩
      simp only [tell, calls, List.mem_singleton, forall_eq, CallStage.ends]
      simp only at early limit
      omega
  | ends heard gate sound checks calls before after =>
    refine ⟨by simp [tell, checks], ?_⟩
    intro later running
    cases (conclude_running _ _ _ _).symm.trans running

theorem Progress.gate (progress : Progress now s check out t) :
    t.engine.gate = s.engine.gate := by
  cases progress with
  | still heard checks probes => rfl
  | fallsBack asked due heard gate positive sound checks calls brings before after => exact gate
  | ends heard gate sound checks calls before after =>
    exact (congrArg Engine.gate (conclude_engine _ _ _ _)).trans gate

theorem Timely.progress (timely : Timely now s) (running : s.running = some check)
    (progress : Progress now s check out t) : Timely now t := by
  obtain ⟨ahead, soon⟩ := progress.within timely.ahead (timely.soon check running)
  exact ⟨ahead, fun later after => soon later after running⟩

theorem Begins.timely {job : Job} {r : Snapshot} (begins : Begins net now s job r t)
    (calls : s.engine.calls = []) (checks : s.gateway.checks = []) : Timely now t := by
  cases begins with
  | remote goes progress =>
    have limit : (s.gateway.exchange net r.type r.text (.ofSettings r.settings r.type)).1 ≤
        r.settings.timeout := s.gateway.exchange_le net r.type r.text _
    have pending := checks_sending net now job r checks
    have sent : Timely now (s.sending net now job r) := by
      refine ⟨by simp [pending], ?_⟩
      intro check running
      cases running
      refine ⟨by simpa [pending] using limit, ?_⟩
      simp [sending, calls]
    exact sent.progress rfl progress
  | waits stays gate positive sound calls =>
    refine ⟨by simp [checks], ?_⟩
    intro check running
    cases running
    refine ⟨by simp [checks], ?_⟩
    simp only [calls, List.mem_singleton, forall_eq, CallStage.ends]
    omega
  | ends stays gate sound calls =>
    refine ⟨by simp [checks], ?_⟩
    intro check running
    cases (conclude_running _ _ _ _).symm.trans running

theorem timely_apply (m : Move) (ready : m.Ready s) (locked : Locked s owed)
    (timely : Timely now s) : Timely now (m.apply net now s) := by
  cases locked.does net now m ready with
  | outside same nobody silent => exact timely.congr same
  | goesOn running polls due waits progress => exact timely.progress running progress
  | quits free first same quits =>
    rw [apply_turn first]
    exact timely.congr same
  | begins free first current reads begins =>
    obtain ⟨calls, checks⟩ := locked.free free
    rw [apply_turn first]
    exact begins.timely calls checks

theorem Begins.gate {job : Job} {r : Snapshot} (begins : Begins net now s job r t) :
    t.engine.gate = s.engine.gate := by
  cases begins with
  | remote goes progress => exact progress.gate
  | waits stays gate positive sound calls => exact gate
  | ends stays gate sound calls => exact (congrArg Engine.gate (conclude_engine _ _ _ _)).trans gate

theorem gate_apply (m : Move) (ready : m.Ready s) (locked : Locked s owed) :
    (m.apply net now s).engine.gate = s.engine.gate := by
  cases locked.does net now m ready with
  | outside same nobody silent => exact congrArg Engine.gate same.engine
  | goesOn running polls due waits progress => exact progress.gate
  | quits free first same quits =>
    rw [apply_turn first]
    exact congrArg Engine.gate same.engine
  | begins free first current reads begins =>
    rw [apply_turn first]
    exact begins.gate

theorem Timely.wait (timely : Timely now s) (k : Nat)
    (early : ∀ time, s.nextDue = some time → now + k ≤ time) : Timely (now + k) s := by
  refine ⟨?_, ?_⟩
  · intro row member
    obtain ⟨next, due, le⟩ := nextDue_le_check member
    exact Nat.le_trans (early next due) le
  · intro check running
    have within := timely.soon check running
    refine ⟨?_, ?_⟩
    · intro row member
      have := within.service row member
      omega
    · intro call member
      have := within.engine call member
      omega

theorem Within.now_lt (within : Within began s check) (quiet : Quiet now s)
    (waits : Waits s.engine s.gateway check out) :
    now < began + check.snapshot.settings.timeout + s.engine.gate := by
  cases waits with
  | remote stage calls checks brings =>
    rename_i time result
    have member : (time, result) ∈ s.gateway.checks := by simp [checks]
    have limit : time ≤ began + check.snapshot.settings.timeout := within.service _ member
    obtain ⟨next, due, le⟩ := nextDue_le_check member
    have later := quiet next due
    simp only at le
    omega
  | inProcess stage calls checks brings =>
    rename_i opens
    have member : (⟨0, s.engine.latest, check.snapshot.text, check.snapshot.type,
      .gated opens⟩ : EngineCall) ∈ s.engine.calls := by simp [calls]
    have limit : opens ≤ began + check.snapshot.settings.timeout + s.engine.gate :=
      within.engine _ member
    obtain ⟨next, due, le⟩ := nextDue_le_call member
    have later := quiet next due
    simp only [CallStage.ends] at le
    omega

end

end Checker
end BufferLint
