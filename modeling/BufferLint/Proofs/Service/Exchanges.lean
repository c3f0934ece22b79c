import BufferLint.Service.Gateway

/-! The checks that a gateway has under way: when each is over, and what it brings. Sending a check
adds one, time takes away those that are over, and probes do not count. -/
namespace BufferLint

def Completion.event : Completion → Option GatewayEvent
  | .record _ _ => none
  | .probed id alive => some (.probed id alive)
  | .probedAll id alive => some (.probedAll id alive)
  | .checked id result => some (.checked id result)

def Completion.result : Completion → Option (Except ServiceError (List Diagnostic))
  | .checked _ result => some result
  | _ => none

def GatewayEvent.result : GatewayEvent → Option (Except ServiceError (List Diagnostic))
  | .checked _ result => some result
  | _ => none

theorem Reply.within_le (limit : Nat) (reply : Reply) : (reply.within limit).1 ≤ limit := by
  cases reply with
  | refused => exact Nat.zero_le _
  | silent => exact Nat.le_refl _
  | closed after =>
    simp only [Reply.within]
    split
    · exact Nat.le_of_lt ‹_›
    · exact Nat.le_refl _
  | answer after code body =>
    simp only [Reply.within]
    split
    · exact Nat.le_of_lt ‹_›
    · exact Nat.le_refl _

namespace Gateway

def checks (g : Gateway) : List (Nat × Except ServiceError (List Diagnostic)) :=
  g.pending.filterMap (fun row => row.2.result.map (fun result => (row.1, result)))

def checkRequest (t : FileType) (code : String) (e : Endpoint) : Request :=
  ⟨t, .post, e.checkUrl, some (e.service.requestBody code)⟩

/- How long a check takes that is sent now, and what it brings. -/
def exchange (net : Network) (t : FileType) (code : String) (policy : RequestPolicy)
    (g : Gateway) : Nat × Except ServiceError (List Diagnostic) :=
  match g.endpoints t with
  | none => (0, .error (.unsupported t))
  | some e =>
    let request := checkRequest t code e
    let reply := (net request (g.sentBefore request)).within policy.timeout
    (reply.1, lenient policy (findings e.service reply.2))

theorem checks_schedule (g : Gateway) (time : Nat) (c : Completion) :
    (g.schedule time c).checks = g.checks ++ (c.result.map (fun r => (time, r))).toList := by
  simp only [checks, schedule, Timed.Agenda.add, List.filterMap_append, List.filterMap_cons,
    List.filterMap_nil]
  cases found : c.result <;> rfl

section check

variable (net : Network) (id : Nat) (t : FileType) (code : String) (policy : RequestPolicy)
  (now : Nat) (g : Gateway)

theorem check_eq : g.check net id t code policy now =
    ({ g with sent := ((g.endpoints t).map (checkRequest t code)).toList ++ g.sent }).schedule
      (now + (g.exchange net t code policy).1)
      (.checked id (g.exchange net t code policy).2) := by
  cases found : g.endpoints t with
  | none => simp [check, exchange, found]
  | some e =>
    simp only [check, exchange, found]
    rfl

theorem checks_check : (g.check net id t code policy now).checks =
    g.checks ++ [(now + (g.exchange net t code policy).1, (g.exchange net t code policy).2)] := by
  rw [check_eq, checks_schedule]
  rfl

end check

theorem foldl_complete (l : List Completion) (g : Gateway) (events : List GatewayEvent) :
    ∃ availability, l.foldl complete (g, events) =
      ({ g with availability }, events ++ l.filterMap Completion.event) := by
  induction l generalizing g events with
  | nil => exact ⟨g.availability, by simp⟩
  | cons c rest ih =>
    cases c with
    | record t alive =>
      obtain ⟨availability, same⟩ := ih
        { g with availability := fun u => if u = t then some alive else g.availability u } events
      exact ⟨availability, same⟩
    | probed id alive =>
      obtain ⟨availability, same⟩ := ih g (events ++ [.probed id alive])
      exact ⟨availability, by simpa [complete, Completion.event] using same⟩
    | probedAll id alive =>
      obtain ⟨availability, same⟩ := ih g (events ++ [.probedAll id alive])
      exact ⟨availability, by simpa [complete, Completion.event] using same⟩
    | checked id result =>
      obtain ⟨availability, same⟩ := ih g (events ++ [.checked id result])
      exact ⟨availability, by simpa [complete, Completion.event] using same⟩

theorem settle_eq (now : Nat) (g : Gateway) : ∃ availability, g.settle now =
    ({ g with pending := g.pending.later now, availability },
      (g.pending.due now).filterMap Completion.event) := by
  obtain ⟨availability, same⟩ := foldl_complete (g.pending.due now)
    { g with pending := g.pending.later now } []
  exact ⟨availability, same⟩

theorem result_event (c : Completion) : c.event.bind GatewayEvent.result = c.result := by
  cases c <;> rfl

theorem results_settle (now : Nat) (g : Gateway) :
    (g.settle now).2.filterMap GatewayEvent.result =
      (g.checks.filter (fun row => row.1 ≤ now)).map Prod.snd := by
  obtain ⟨availability, same⟩ := g.settle_eq now
  rw [same, List.filterMap_filterMap]
  simp only [result_event, Timed.Agenda.due, checks]
  induction g.pending with
  | nil => rfl
  | cons row rest ih =>
    obtain ⟨time, c⟩ := row
    cases found : c.result with
    | none =>
      by_cases due : time ≤ now <;> simp [due, found, ih]
    | some result =>
      by_cases due : time ≤ now <;> simp [due, found, ih]

theorem checks_settle (now : Nat) (g : Gateway) :
    (g.settle now).1.checks = g.checks.filter (fun row => now < row.1) := by
  obtain ⟨availability, same⟩ := g.settle_eq now
  rw [same]
  simp only [checks, Timed.Agenda.later]
  induction g.pending with
  | nil => rfl
  | cons row rest ih =>
    obtain ⟨time, c⟩ := row
    cases found : c.result with
    | none =>
      by_cases later : now < time <;> simp [later, found, ih]
    | some result =>
      by_cases later : now < time <;> simp [later, found, ih]

theorem ask_fst (net : Network) (t : FileType) (g : Gateway) :
    ∃ sent, (g.ask net t).1 = { g with sent } := by
  unfold ask
  split
  · exact ⟨g.sent, rfl⟩
  · dsimp only [send]
    split <;> exact ⟨_, rfl⟩

theorem checks_probe (net : Network) (id : Nat) (t : FileType) (now : Nat) (g : Gateway) :
    (g.probe net id t now).checks = g.checks := by
  obtain ⟨sent, asked⟩ := ask_fst net t g
  change (((g.ask net t).1.schedule _ _).schedule _ _).checks = _
  rw [checks_schedule, checks_schedule, asked, List.append_assoc]
  exact List.append_nil _

theorem checks_foldl {α β : Type} (f : Gateway × α → β → Gateway × α)
    (one : ∀ acc b, (f acc b).1.checks = acc.1.checks) (bs : List β) (acc : Gateway × α) :
    (bs.foldl f acc).1.checks = acc.1.checks := by
  induction bs generalizing acc with
  | nil => rfl
  | cons b rest ih => rw [List.foldl_cons, ih, one]

theorem checks_probeAll (net : Network) (id now : Nat) (g : Gateway) :
    (g.probeAll net id now).checks = g.checks := by
  change (schedule _ _ _).checks = _
  rw [checks_schedule, checks_foldl]
  · exact List.append_nil _
  · intro acc t
    obtain ⟨sent, asked⟩ := ask_fst net t acc.1
    change ((acc.1.ask net t).1.schedule _ _).checks = _
    rw [checks_schedule, asked]
    exact List.append_nil _

end Gateway
end BufferLint
