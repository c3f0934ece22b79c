import BufferLint.Proofs.Service.Probes
import BufferLint.Proofs.Timed.Invariant

/-! What a gateway owes, said from what it was asked alone. Whatever else is under way, everything
it is asked is answered once, and what the network does with the requests for it tells when and how;
the network looks only at how many requests of a kind went before. No state of a gateway is used
in these definitions. -/
namespace BufferLint.Gateway

/-- What a gateway has to do with: the network, and the services that are registered with it. -/
structure Site where
  net : Network
  client : Client
  endpoints : FileType → Option Endpoint

abbrev Asked := List (Nat × Action)

/-- Something that was asked, with what comes of it. -/
structure Entry where
  begins : Nat
  action : Action
  /-- The probes that it begins, in order. -/
  probes : List Probe
  /-- When it is answered. -/
  ends : Nat
  answer : GatewayEvent

def askedBy (steps : List (Timed.Step Action)) : Asked := (Timed.Run.timeline 0 steps).reverse

namespace Site

variable (s : Site)

def gateway : Gateway := { client := s.client, endpoints := s.endpoints }

def registered : List FileType := FileType.all.filter (fun t => (s.endpoints t).isSome)

def requests : Action → List Request
  | .probe _ t => ((s.endpoints t).map (headRequest t)).toList
  | .probeAll _ => FileType.all.filterMap (fun t => (s.endpoints t).map (headRequest t))
  | .check _ t code _ => ((s.endpoints t).map (checkRequest t code)).toList

def sent (past : Asked) : List Request := past.flatMap (fun a => (s.requests a.2).reverse)

/-- What the network does with a request that is sent after these. -/
def reply (past : Asked) (q : Request) : Reply :=
  s.net q ((s.sent past).countP (fun r => r.type = q.type && r.method = q.method))

def probe (past : Asked) (time : Nat) (t : FileType) : Probe :=
  match s.endpoints t with
  | none => ⟨t, time, false⟩
  | some e =>
    let outcome := (s.reply past (headRequest t e)).within s.client.probeTimeout
    ⟨t, time + outcome.1, outcome.2.toOption.any (fun answer => Service.isSuccess answer.1)⟩

/-- How long a check takes, and what it brings. -/
def check (past : Asked) (t : FileType) (code : String) (policy : RequestPolicy) :
    Nat × Except ServiceError (List Diagnostic) :=
  match s.endpoints t with
  | none => (0, .error (.unsupported t))
  | some e =>
    let outcome := (s.reply past (checkRequest t code e)).within policy.timeout
    (outcome.1, lenient policy (findings e.service outcome.2))

def entry (past : Asked) (time : Nat) : Action → Entry
  | .probe id t =>
    let p := s.probe past time t
    ⟨time, .probe id t, [p], p.ends, .probed id p.alive⟩
  | .probeAll id =>
    let ps := s.registered.map (s.probe past time)
    ⟨time, .probeAll id, ps, lastEnd time ps,
      .probedAll id (ps.map (fun p : Probe => (p.type, p.alive)))⟩
  | .check id t code policy =>
    let outcome := s.check past t code policy
    ⟨time, .check id t code policy, [], time + outcome.1, .checked id outcome.2⟩

def ledger : Asked → List Entry
  | [] => []
  | a :: past => s.entry past a.1 a.2 :: ledger past

def probes (past : Asked) : List Probe := (s.ledger past).flatMap (fun x => x.probes.reverse)

theorem sent_cons (a : Nat × Action) (past : Asked) :
    s.sent (a :: past) = (s.requests a.2).reverse ++ s.sent past := rfl

theorem probes_cons (a : Nat × Action) (past : Asked) :
    s.probes (a :: past) = (s.entry past a.1 a.2).probes.reverse ++ s.probes past := rfl

def answers (past : Asked) : List (Nat × GatewayEvent) :=
  (s.ledger past).map (fun x => (x.ends, x.answer))

end Site

theorem Site.begins_ledger (s : Site) (past : Asked) :
    (s.ledger past).map (fun x => (x.begins, x.action)) = past := by
  induction past with
  | nil => rfl
  | cons a past ih =>
    obtain ⟨time, action⟩ := a
    rw [ledger, List.map_cons, ih]
    cases action <;> rfl

theorem Site.mem_ledger {s : Site} {past : Asked} {x : Entry} (member : x ∈ s.ledger past) :
    ∃ earlier, x = s.entry earlier x.begins x.action := by
  induction past with
  | nil => cases member
  | cons a past ih =>
    obtain ⟨time, action⟩ := a
    rcases List.mem_cons.mp member with rfl | older
    · refine ⟨past, ?_⟩
      cases action <;> rfl
    · exact ih older

theorem begins_apart (s : Site) (steps : List (Timed.Step Action)) :
    (s.ledger (askedBy steps)).Pairwise (fun x y => y.begins < x.begins) := by
  have order : (askedBy steps).Pairwise (fun a b => b.1 < a.1) :=
    List.pairwise_reverse.mpr (Timed.Run.timeline_chronological 0 steps).1
  rw [← s.begins_ledger (askedBy steps)] at order
  exact List.pairwise_map.mp order

theorem Site.entry_mem (s : Site) (newer past : Asked) (time : Nat) (action : Action) :
    s.entry past time action ∈ s.ledger (newer ++ (time, action) :: past) := by
  induction newer with
  | nil => exact List.mem_cons_self
  | cons a newer ih => exact List.mem_cons_of_mem _ ih

def told (row : Nat × Completion) : Option (Nat × GatewayEvent) :=
  row.2.event.map (fun e => (row.1, e))

/-- A run that has kept its books: what it was asked is answered or still under way. -/
structure Accounts (s : Site) (past : Asked) (r : Run) : Prop where
  client : r.state.client = s.client
  endpoints : r.state.endpoints = s.endpoints
  sent : r.state.sent = s.sent past
  knows : Knows r.now r.state (fun _ => none) (s.probes past)
  answers : (r.log ++ r.state.pending.filterMap told).Perm (s.answers past)
  past : ∀ e ∈ r.log, e.1 ≤ r.now

def Idle (r : Run) : Prop := ∀ row ∈ r.state.pending, r.now < row.1

section

variable {s : Site} {past : Asked} {r : Run}

theorem Accounts.reply (accounts : Accounts s past r) (q : Request) :
    s.net q (r.state.sentBefore q) = s.reply past q := by
  rw [Site.reply, sentBefore, accounts.sent]

theorem Accounts.probeNow (accounts : Accounts s past r) (t : FileType) :
    r.state.probeNow s.net r.now t = s.probe past r.now t := by
  unfold Gateway.probeNow ask Site.probe
  rw [accounts.endpoints]
  cases s.endpoints t with
  | none => rfl
  | some e =>
    have reply : s.net ⟨t, .head, e.statusUrl, none⟩
        (r.state.sentBefore ⟨t, .head, e.statusUrl, none⟩) = s.reply past (headRequest t e) :=
      accounts.reply (headRequest t e)
    simp only [send, reply, accounts.client]
    rcases (s.reply past (headRequest t e)).within s.client.probeTimeout with ⟨after, _ | answer⟩
    · rfl
    · rfl

theorem Accounts.exchange (accounts : Accounts s past r) (t : FileType) (code : String)
    (policy : RequestPolicy) :
    r.state.exchange s.net t code policy = s.check past t code policy := by
  unfold Gateway.exchange Site.check
  rw [accounts.endpoints]
  cases s.endpoints t with
  | none => rfl
  | some e => simp only [accounts.reply (checkRequest t code e)]

theorem Accounts.head? (accounts : Accounts s past r) :
    r.state.head? = fun t => (s.endpoints t).map (headRequest t) := by
  funext t
  rw [Gateway.head?, accounts.endpoints]

theorem Accounts.round (accounts : Accounts s past r) :
    r.state.round s.net r.now = s.registered.map (s.probe past r.now) := by
  have same : r.state.registered = s.registered := by
    unfold registered Site.registered
    exact congrArg (fun f => FileType.all.filter f)
      (funext fun t => by rw [supports, accounts.endpoints])
  rw [Gateway.round, same]
  exact List.map_congr_left fun t _ => accounts.probeNow t

theorem filterMap_told_recording (ps : List Probe) :
    (ps.map Probe.recording).filterMap told = [] := by
  induction ps with
  | nil => rfl
  | cons p rest ih => exact ih

/- Something is asked: the books are right if the answer is scheduled and the probes are. -/
theorem Accounts.ask (accounts : Accounts s past r) (action : Action) {g : Gateway}
    (client : g.client = r.state.client) (endpoints : g.endpoints = r.state.endpoints)
    (sent : g.sent = (s.requests action).reverse ++ r.state.sent)
    (knows : Knows r.now g (fun _ => none)
      ((s.entry past r.now action).probes.reverse ++ s.probes past))
    (answer : g.pending.filterMap told = r.state.pending.filterMap told ++
      [((s.entry past r.now action).ends, (s.entry past r.now action).answer)]) :
    Accounts s ((r.now, action) :: past) { r with state := g } := by
  refine ⟨client.trans accounts.client, endpoints.trans accounts.endpoints, ?_, ?_, ?_,
    accounts.past⟩
  · rw [Site.sent_cons, ← accounts.sent]
    exact sent
  · rw [Site.probes_cons]
    exact knows
  · rw [Site.answers, Site.ledger, List.map_cons]
    change (r.log ++ g.pending.filterMap told).Perm _
    rw [answer, ← List.append_assoc]
    exact (List.perm_append_singleton _ _).trans (accounts.answers.cons _)

theorem filterMap_told_schedule (g : Gateway) (time : Nat) (c : Completion) :
    (g.schedule time c).pending.filterMap told =
      g.pending.filterMap told ++ (told (time, c)).toList := by
  simp only [schedule, Timed.Agenda.add, List.filterMap_append, List.filterMap_cons,
    List.filterMap_nil]
  cases told (time, c) <;> rfl

theorem Accounts.act (accounts : Accounts s past r) (action : Action) :
    Accounts s ((r.now, action) :: past) { r with state := act s.net action r.now r.state } := by
  have knows := accounts.knows
  cases action with
  | probe id t =>
    obtain ⟨endpoints, sent, known⟩ := probe_spec s.net id r.now t knows
    refine accounts.ask (.probe id t) (g := r.state.probe s.net id t r.now) ?_ endpoints ?_ ?_ ?_
    · rw [probe_eq]
      rfl
    · rw [sent, accounts.head?, Site.requests]
      dsimp only
      cases s.endpoints t <;> rfl
    · rw [accounts.probeNow] at known
      exact known
    · rw [probe_eq, filterMap_told_schedule, filterMap_told_schedule, accounts.probeNow]
      exact congrArg (· ++ _) (List.append_nil _)
  | probeAll id =>
    obtain ⟨endpoints, sent, known⟩ := probeAll_spec s.net id r.now knows
    refine accounts.ask (.probeAll id) (g := r.state.probeAll s.net id r.now) ?_ endpoints ?_ ?_ ?_
    · rw [probeAll_eq]
      rfl
    · rw [sent, accounts.head?]
      rfl
    · rw [accounts.round] at known
      exact known
    · rw [probeAll_eq, filterMap_told_schedule, List.filterMap_append, filterMap_told_recording,
        List.append_nil, accounts.round]
      rfl
  | check id t code policy =>
    obtain ⟨endpoints, sent, known⟩ := check_spec s.net id t code policy knows
    refine accounts.ask (.check id t code policy)
      (g := r.state.check s.net id t code policy r.now) ?_ endpoints ?_ known ?_
    · rw [check_eq]
      rfl
    · rw [sent, accounts.endpoints, Site.requests]
      cases s.endpoints t <;> rfl
    · rw [check_eq, filterMap_told_schedule, accounts.exchange]
      rfl

/-- Of rows that are not overdue, those that are due are told now, and the rest later. -/
theorem told_due_later {now : Nat} {rows : Timed.Agenda Completion}
    (ahead : ∀ row ∈ rows, now ≤ row.1) :
    (((rows.due now).filterMap Completion.event).map (fun e => (now, e)) ++
      (rows.later now).filterMap told).Perm (rows.filterMap told) := by
  induction rows with
  | nil => exact .refl _
  | cons row rest ih =>
    obtain ⟨time, c⟩ := row
    have behind := ih (fun x member => ahead x (List.mem_cons_of_mem _ member))
    have notLate : now ≤ time := ahead _ List.mem_cons_self
    by_cases due : time ≤ now
    · obtain rfl : time = now := Nat.le_antisymm due notLate
      cases event : c.event with
      | none => simpa [Timed.Agenda.due, Timed.Agenda.later, told, event] using behind
      | some e => simpa [Timed.Agenda.due, Timed.Agenda.later, told, event] using behind
    · have later : now < time := Nat.lt_of_not_le due
      cases event : c.event with
      | none => simpa [Timed.Agenda.due, Timed.Agenda.later, told, event, due, later] using behind
      | some e =>
        have moved := List.perm_middle.trans (behind.cons (time, e))
        simpa [Timed.Agenda.due, Timed.Agenda.later, told, event, due, later] using moved

theorem Accounts.settle (accounts : Accounts s past r) :
    Accounts s past (r.settle machine) ∧ Idle (r.settle machine) := by
  obtain ⟨availability, same⟩ := r.state.settle_eq r.now
  have state : (r.settle machine).state =
      { r.state with pending := r.state.pending.later r.now, availability } :=
    congrArg Prod.fst same
  have log : (r.settle machine).log =
      (((r.state.pending.due r.now).filterMap Completion.event).map
        (fun e => (r.now, e))).reverse ++ r.log := by
    rw [Timed.Run.settle_log]
    exact congrArg (fun out => (out.2.map (fun e => (r.now, e))).reverse ++ r.log) same
  refine ⟨⟨?_, ?_, ?_, ?_, ?_, ?_⟩, ?_⟩
  · rw [state]
    exact accounts.client
  · rw [state]
    exact accounts.endpoints
  · rw [state]
    exact accounts.sent
  · exact accounts.knows.settle
  · rw [log, state]
    have split := told_due_later accounts.knows.ahead
    have turned := (List.reverse_perm (((r.state.pending.due r.now).filterMap
      Completion.event).map (fun e => (r.now, e)))).append_right r.log
    refine (turned.append_right _).trans (List.Perm.trans ?_ accounts.answers)
    refine (List.perm_append_comm.append_right _).trans ?_
    rw [List.append_assoc]
    exact split.append_left _
  · rw [log]
    intro e member
    rcases List.mem_append.mp member with new | old
    · obtain ⟨event, _, rfl⟩ := List.mem_map.mp (List.mem_reverse.mp new)
      exact Nat.le_refl _
    · exact accounts.past e old
  · intro row member
    rw [state] at member
    exact of_decide_eq_true (List.mem_filter.mp member).2

theorem Accounts.wait (accounts : Accounts s past r) {k : Nat}
    (early : ∀ row ∈ r.state.pending, r.now + k ≤ row.1) : Accounts s past (r.wait k) where
  client := accounts.client
  endpoints := accounts.endpoints
  sent := accounts.sent
  knows := accounts.knows.wait k early
  answers := accounts.answers
  past e member := Nat.le_trans (accounts.past e member) (Nat.le_add_right _ _)

theorem accounts_elapse (ms : Nat) (r : Run) (start : Accounts s past r ∧ Idle r) :
    Accounts s past (r.elapse machine ms) ∧ Idle (r.elapse machine ms) := by
  refine Timed.Run.elapse_invariant machine (fun r => Accounts s past r ∧ Idle r) ?_ ?_ ms r start
  · rintro r k ⟨accounts, idle⟩ early
    have ahead : ∀ row ∈ r.state.pending, r.now + k < row.1 := by
      intro row member
      obtain ⟨time, next, before⟩ := Timed.Agenda.exists_nextDue_le member
      have short := early time next
      have later := idle row member
      unfold Timed.Run.waitFor at short
      omega
    exact ⟨accounts.wait (fun row member => Nat.le_of_lt (ahead row member)), ahead⟩
  · rintro r time ⟨accounts, idle⟩ next
    refine (accounts.wait ?_).settle
    intro row member
    obtain ⟨first, next', before⟩ := Timed.Agenda.exists_nextDue_le member
    obtain rfl : time = first := Option.some.inj (next.symm.trans next')
    have later := idle row member
    unfold Timed.Run.waitFor
    omega

theorem accounts_step (step : Timed.Step Action) (r : Run) (start : Accounts s past r ∧ Idle r) :
    let asked := (Timed.Run.timeline r.now [step]).reverse ++ past
    Accounts s asked (Gateway.step s.net r step) ∧ Idle (Gateway.step s.net r step) := by
  cases step with
  | sleep ms => exact accounts_elapse ms r start
  | act action => exact accounts_elapse 1 _ (start.1.act action).settle

theorem accounts_play (steps : List (Timed.Step Action)) (r : Run)
    (start : Accounts s past r ∧ Idle r) :
    let asked := (Timed.Run.timeline r.now steps).reverse ++ past
    Accounts s asked (run s.net steps r) ∧ Idle (run s.net steps r) := by
  induction steps generalizing past r with
  | nil => exact start
  | cons step rest ih =>
    have stepped := ih (Gateway.step s.net r step) (accounts_step step r start)
    rw [← List.append_assoc, ← List.reverse_append, Gateway.step, Timed.Run.step_now,
      ← Timed.Run.timeline_cons] at stepped
    exact stepped

theorem accounts_run (s : Site) (steps : List (Timed.Step Action)) :
    Accounts s (askedBy steps) (run s.net steps { state := s.gateway }) ∧
      Idle (run s.net steps { state := s.gateway }) := by
  have knows : Knows 0 s.gateway (fun _ => none) [] :=
    ⟨by simp [Site.gateway], fun t => ⟨none, by simp, rfl, fun n _ => rfl⟩⟩
  have start : Accounts s [] { state := s.gateway } ∧ Idle { state := s.gateway } :=
    ⟨⟨rfl, rfl, rfl, knows, .refl _, by simp⟩, by simp [Idle, Site.gateway]⟩
  have played := accounts_play steps { state := s.gateway } start
  rwa [List.append_nil] at played

/-- Whatever was asked has been answered when it is over, and nothing is answered besides. -/
theorem Accounts.log (accounts : Accounts s past r) (idle : Idle r) :
    r.log.Perm (((s.ledger past).filter (fun x => x.ends ≤ r.now)).map
      (fun x => (x.ends, x.answer))) := by
  have finished := accounts.answers.filter (fun e => decide (e.1 ≤ r.now))
  have ahead : (r.state.pending.filterMap told).filter (fun e => decide (e.1 ≤ r.now)) = [] := by
    refine List.filter_eq_nil_iff.mpr ?_
    intro e member
    obtain ⟨row, pending, same⟩ := List.mem_filterMap.mp member
    obtain ⟨event, _, rfl⟩ := Option.map_eq_some_iff.mp same
    simpa using idle row pending
  rw [List.filter_append, ahead, List.append_nil, List.filter_eq_self.mpr
    (fun e member => decide_eq_true (accounts.past e member)), Site.answers, List.filter_map]
    at finished
  exact finished

end

end BufferLint.Gateway
