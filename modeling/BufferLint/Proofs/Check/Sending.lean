import BufferLint.Proofs.Check.Order
import BufferLint.Proofs.Service.Probes

/-! What leaves the machine. A text is sent when its check gets its turn, and only then; whether it
is sent is decided by what is true at that moment, however long the check has waited. -/
namespace BufferLint.Checker

def sends (s : Checker) (job : Job) : Option Snapshot :=
  if job.generation = s.generation then s.reading.filter s.goesRemote else none

def Move.gateway (net : Network) (now : Nat) (s : Checker) : Move → Gateway
  | .act (.probeAll id) => s.gateway.probeAll net id now
  | .act (.probe type) => s.gateway.probe net 0 type now
  | .pollGateway => (s.gateway.settle now).1
  | .turn job =>
    match s.sends job with
    | some r =>
      ((s.gateway.check net 0 r.type r.text (.ofSettings r.settings r.type) now).settle now).1
    | none => s.gateway
  | _ => s.gateway

theorem start_gateway (net : Network) (now : Nat) (s : Checker) (job : Job) :
    (start net now s job).gateway = Move.gateway net now s (.turn job) := by
  unfold Move.gateway sends
  rcases start_cases net now s job with quits | ⟨current, r, reads, begins⟩
  · rw [quits.gateway]
    by_cases current : job.generation = s.generation
    · simp [current, quits.reading current]
    · simp [current]
  · rw [begins]
    simp only [current, if_true, reads, Option.filter_some]
    unfold beginCheck
    dsimp only
    have same : ({ s with phase := .checking, status := .checking r.type } : Checker).goesRemote r =
        s.goesRemote r := rfl
    rw [same]
    cases s.goesRemote r with
    | true => exact gateway_pollGateway now (s.sending net now job r)
    | false => exact gateway_pollEngine now _

theorem gateway_apply (net : Network) (now : Nat) (s : Checker) (m : Move) :
    (m.apply net now s).gateway = m.gateway net now s := by
  cases m with
  | act action =>
    cases action with
    | toggleEnabled => exact (aside_saveSettings now _ s).gateway
    | toggleRemote => exact (aside_saveSettings now _ s).gateway
    | putSettings settings => exact (aside_putSettings net settings now s).gateway
    | _ => rfl
  | notice => exact notice_gateway now s
  | fireTimer => exact fireTimer_gateway now s
  | pollEngine => exact gateway_pollEngine now s
  | pollGateway => exact gateway_pollGateway now s
  | turn job => exact start_gateway net now { s with queue := s.queue.tail } job

/-- When a check gets its turn nothing at the gateway is due: who is over has been heard. -/
theorem pending_turns (net : Network) (now : Nat) (jobs : List Job) (s : Checker)
    (heard : ∀ row ∈ s.gateway.pending, now < row.1) :
    ∀ m ∈ turns net now jobs s, m.time = now ∧ ∀ row ∈ m.before.gateway.pending, now < row.1 := by
  induction jobs generalizing s with
  | nil =>
    intro m member
    cases member
  | cons job rest ih =>
    have next : ∀ row ∈ (Moment.after net ⟨now, .turn job, s⟩).gateway.pending, now < row.1 := by
      have same : (Moment.after net ⟨now, .turn job, s⟩).gateway = _ :=
        gateway_apply net now s (.turn job)
      rw [same]
      unfold Move.gateway
      dsimp only
      split
      · rename_i r _
        intro row member
        exact pending_pollGateway now (s.sending net now job r) row
          (by rw [gateway_pollGateway]; exact member)
      · exact heard
    intro m member
    simp only [turns, List.mem_cons] at member
    rcases member with rfl | later
    · exact ⟨rfl, heard⟩
    · split at later
      · cases later
      · exact ih _ next m later

theorem pending_moments (net : Network) (now : Nat) (s : Checker) {m : Moment}
    (member : m ∈ moments net now s) {job : Job} (turn : m.move = .turn job) :
    ∀ row ∈ m.before.gateway.pending, m.time < row.1 := by
  have heard : ∀ row ∈ (((((s.pollGateway now).pollEngine now).notice now)).fireTimer
      now).gateway.pending, now < row.1 := by
    rw [fireTimer_gateway, notice_gateway, gateway_pollEngine]
    exact pending_pollGateway now s
  simp only [moments, List.mem_cons] at member
  rcases member with rfl | rfl | rfl | rfl | later
  · cases turn
  · cases turn
  · cases turn
  · cases turn
  · split at later
    · cases later
    · obtain ⟨time, pending⟩ := pending_turns net now _ _ heard m later
      rw [time]
      exact pending

theorem pending_trace (net : Network) (steps : List Step) (s : Checker) :
    ∀ m ∈ trace net steps s, ∀ job, m.move = .turn job →
      ∀ row ∈ m.before.gateway.pending, m.time < row.1 := by
  let I (q : Timed.Run Checker Moment) : Prop := ∀ m ∈ q.log.map Prod.snd, ∀ job,
    m.move = .turn job → ∀ row ∈ m.before.gateway.pending, m.time < row.1
  have settle : ∀ q, I q → I (q.settle (observer net)) := by
    intro q before m member job turn
    rw [Timed.Run.settle_log, List.map_append, List.map_reverse, List.map_map] at member
    simp only [observer, Function.comp_def, List.map_id'] at member
    rcases List.mem_append.mp member with new | old
    · exact pending_moments net q.now q.state (List.mem_reverse.mp new) turn
    · exact before m old job turn
  have elapse : ∀ ms q, I q → I (q.elapse (observer net) ms) :=
    Timed.Run.elapse_invariant (observer net) I (fun q k before => fun _ => before)
      (fun q time before _ => settle _ before)
  have all : ∀ q : Timed.Run Checker Moment, I q → I (steps.foldl (observe net) q) := by
    induction steps with
    | nil => exact fun q before => before
    | cons step rest ih =>
      intro q before
      apply ih
      cases step with
      | sleep ms => exact elapse ms q before
      | act action =>
        apply elapse
        apply settle
        intro m member job turn
        rcases List.mem_cons.mp member with rfl | old
        · cases turn
        · exact before m old job turn
  exact all { state := s } (by intro m member; cases member)

def Moment.sent (net : Network) (m : Moment) : List Request :=
  (m.after net).gateway.sent.take
    ((m.after net).gateway.sent.length - m.before.gateway.sent.length)

def Moment.probes (net : Network) (m : Moment) : List Probe :=
  match m.move with
  | .act (.probeAll _) => m.before.gateway.round net m.time
  | .act (.probe type) => [m.before.gateway.probeNow net m.time type]
  | _ => []

def probes (net : Network) (past : List Moment) : List Probe :=
  past.flatMap (fun m => (m.probes net).reverse)

/-- The gateway in a run: the services stay the same, what it knows of them is what probes have
told, and what it has sent is what the moments have sent. -/
structure Connected (net : Network) (u : Setup) (now : Nat) (past : List Moment) (s : Checker) :
    Prop where
  endpoints : s.gateway.endpoints = u.endpoints
  knows : s.gateway.Knows now u.availability (probes net past)
  sent : s.gateway.sent = past.flatMap (Moment.sent net)

def posts (s : Checker) (job : Job) : List Request :=
  match s.sends job with
  | some r => ((s.gateway.endpoints r.type).map (Gateway.checkRequest r.type r.text)).toList
  | none => []

/- What a move sends, newest first: a probe asks after its language and a round of probing after
each, if it is registered, a turn sends the text of its check, and nothing else sends anything. -/
def Move.requests (s : Checker) : Move → List Request
  | .act (.probeAll _) => (FileType.all.filterMap s.gateway.head?).reverse
  | .act (.probe type) => (s.gateway.head? type).toList
  | .turn job => s.posts job
  | _ => []

section

variable {net : Network} {u : Setup} {now : Nat} {past : List Moment} {s : Checker}

/-- What becomes of the gateway in a move: what it sends, and what it comes to know. -/
theorem gateway_spec (net : Network) (m : Move) {first : FileType → Option Bool} {ps : List Probe}
    (knows : s.gateway.Knows now first ps) :
    (m.gateway net now s).sent = m.requests s ++ s.gateway.sent ∧
      (m.gateway net now s).endpoints = s.gateway.endpoints ∧
      (m.gateway net now s).Knows now first ((Moment.probes net ⟨now, m, s⟩).reverse ++ ps) := by
  cases m with
  | act action =>
    cases action with
    | probeAll id =>
      obtain ⟨endpoints, sent, known⟩ := Gateway.probeAll_spec net id now knows
      exact ⟨sent, endpoints, known⟩
    | probe type =>
      obtain ⟨endpoints, sent, known⟩ := Gateway.probe_spec net 0 now type knows
      exact ⟨sent, endpoints, known⟩
    | _ => exact ⟨rfl, rfl, knows⟩
  | pollGateway =>
    exact ⟨Gateway.sent_settle now s.gateway, Gateway.endpoints_settle now s.gateway,
      knows.settle⟩
  | turn job =>
    cases found : s.sends job with
    | none => simpa [Move.gateway, Move.requests, posts, found, Moment.probes] using knows
    | some r =>
      obtain ⟨endpoints, sent, known⟩ :=
        Gateway.check_spec net 0 r.type r.text (.ofSettings r.settings r.type) knows
      simp only [Move.gateway, Move.requests, posts, found]
      exact ⟨by rw [Gateway.sent_settle, sent], by rw [Gateway.endpoints_settle, endpoints],
        known.settle⟩
  | _ => exact ⟨rfl, rfl, knows⟩

theorem Moment.sent_eq (net : Network) {m : Moment} {first : FileType → Option Bool}
    {ps : List Probe}
    (knows : m.before.gateway.Knows m.time first ps) :
    m.sent net = m.move.requests m.before ∧
      (m.after net).gateway.sent = m.move.requests m.before ++ m.before.gateway.sent := by
  have after : (m.after net).gateway.sent = m.move.requests m.before ++ m.before.gateway.sent :=
    (congrArg Gateway.sent (gateway_apply net m.time m.before m.move)).trans
      (gateway_spec net m.move knows).1
  refine ⟨?_, after⟩
  rw [Moment.sent, after, List.length_append, Nat.add_sub_cancel, List.take_left]

theorem Connected.apply (connected : Connected net u now past s) (m : Move) :
    Connected net u now (⟨now, m, s⟩ :: past) (m.apply net now s) := by
  obtain ⟨_, endpoints, knows⟩ := gateway_spec net m connected.knows
  obtain ⟨sent, added⟩ := Moment.sent_eq net (m := ⟨now, m, s⟩) connected.knows
  constructor
  · rw [gateway_apply, endpoints, connected.endpoints]
  · rw [gateway_apply]
    exact knows
  · refine added.trans ?_
    rw [List.flatMap_cons, sent, ← connected.sent]

end

theorem connected_trace (net : Network) (u : Setup) (steps : List Step) :
    Connected net u (run net steps { state := u.checker }).now (trace net steps u.checker)
        (run net steps { state := u.checker }).state ∧
      ∀ later m earlier, trace net steps u.checker = later ++ m :: earlier →
        Connected net u m.time earlier m.before := by
  refine timed_invariant net u (Connected net u) ?_ ?_ ?_ ?_ steps
  · exact fun now past s m _ _ connected => connected.apply m
  · exact fun now past s connected => ⟨connected.endpoints, connected.knows, connected.sent⟩
  · intro now k past s early connected
    refine ⟨connected.endpoints, connected.knows.wait k ?_, connected.sent⟩
    intro row member
    obtain ⟨next, due, le⟩ := nextDue_le_pending member
    exact Nat.le_trans (early next due) le
  · refine ⟨rfl, ⟨by simp [Setup.checker], ?_⟩, rfl⟩
    intro t
    exact ⟨none, by simp, rfl, fun n _ => rfl⟩

theorem requested_cases (m : Moment) : m.requested = [] ∨ ∃ job, m.requested = [job] := by
  unfold Moment.requested
  split
  · exact .inr ⟨_, rfl⟩
  · cases (m.before.timer.fire m.time).2 with
    | none => exact .inl rfl
    | some stamp => exact .inr ⟨_, rfl⟩
  · exact .inl rfl

/-- A request was made at some moment, behind those that were made before. -/
theorem exists_requested {past : List Moment} {ahead rest : List Job} {job : Job}
    (all : requests past = ahead ++ job :: rest) :
    ∃ between d older, past = between ++ d :: older ∧ d.requested = [job] ∧
      requests older = ahead := by
  induction past generalizing rest with
  | nil => simp [requests] at all
  | cons m older ih =>
    rw [requests_cons] at all
    have earlier : ∀ rest, requests older = ahead ++ job :: rest →
        ∃ between d before, m :: older = between ++ d :: before ∧ d.requested = [job] ∧
          requests before = ahead := by
      intro rest asked
      obtain ⟨between, d, before, split, mine, first⟩ := ih asked
      exact ⟨m :: between, d, before, by rw [split]; rfl, mine, first⟩
    rcases requested_cases m with nothing | ⟨other, one⟩
    · rw [nothing, List.append_nil] at all
      exact earlier rest all
    · rw [one] at all
      cases rest using List.reverseRecOn with
      | nil =>
        obtain ⟨first, same⟩ := List.append_inj' all rfl
        cases same
        exact ⟨[], m, older, rfl, one, first⟩
      | append_singleton rest last =>
        rw [← List.cons_append, ← List.append_assoc] at all
        exact earlier rest (List.append_inj' all rfl).1

/-- The check that has its turn, whose request came before the moments `between`, is to go to a
service: checking and sending are switched on, there has been no shutdown since the request, a file
with a text is open, there is a service for its type, and that was there when it was last asked. -/
structure GoesOut (net : Network) (u : Setup) (earlier between : List Moment) (m : Moment)
    (name : String) (e : Endpoint) : Prop where
  enabled : m.before.store.get.enabled = true
  useRemote : m.before.store.get.useRemote = true
  up : ∀ x ∈ between, x.move ≠ .act .shutdown
  named : m.before.buffer.name = some name
  text : Text.allBlank m.before.buffer.text.toList = false
  registered : u.endpoints (.ofFileName name) = some e
  alive : FoundAlive m.time (.ofFileName name) (probes net earlier)
    (u.availability (.ofFileName name))

section

variable {net : Network} {u : Setup} {later earlier between older : List Moment} {m d : Moment}
  {job : Job} {steps : List Step}

theorem isShutdown_eq_false (m : Move) : m.isShutdown = false ↔ m ≠ .act .shutdown := by
  unfold Move.isShutdown
  split
  · simp
  · rename_i other
    simpa using other

/-- A request is of the present generation when there has been no shutdown since it was made. -/
theorem current_iff (split : trace net steps u.checker = later ++ m :: (between ++ d :: older))
    (mine : d.requested = [job]) :
    job.generation = m.before.generation ↔ ∀ x ∈ between, x.move ≠ .act .shutdown := by
  obtain ⟨_, at_order⟩ := orderly_trace net u steps
  obtain ⟨_, _, at_standing⟩ := standing_trace net u steps
  have now := (at_order later m _ split).generation
  have split' : trace net steps u.checker = (later ++ m :: between) ++ d :: older := by
    rw [split, List.append_assoc]
    rfl
  have then_ := (at_order _ d older split').generation
  have stamp := (at_standing _ d older split').1.stamped.requested d.time d.move job
    (by rw [mine]; exact List.mem_singleton_self job)
  have asks : d.move.isShutdown = false := by
    refine (isShutdown_eq_false d.move).mpr ?_
    intro down
    simp [Moment.requested, down] at mine
  rw [List.countP_append, List.countP_cons, asks] at now
  have none_iff : between.countP (fun x => x.move.isShutdown) = 0 ↔
      ∀ x ∈ between, x.move ≠ .act .shutdown := by
    rw [List.countP_eq_zero]
    refine forall₂_congr fun x _ => ?_
    rw [← isShutdown_eq_false, Bool.not_eq_true]
  rw [← none_iff]
  simp only [Bool.false_eq_true, if_false] at now
  omega

theorem GoesOut.sends {name : String} {e : Endpoint}
    (goes : GoesOut net u earlier between m name e)
    (connected : Connected net u m.time earlier m.before)
    (heard : ∀ row ∈ m.before.gateway.pending, m.time < row.1)
    (current : job.generation = m.before.generation) (known : FileType.ofFileName name ≠ .unknown) :
    m.before.sends job =
      some ⟨m.before.store.get, name, m.before.buffer.text, .ofFileName name⟩ := by
  have reads : m.before.reading =
      some ⟨m.before.store.get, name, m.before.buffer.text, .ofFileName name⟩ := by
    simp [reading, goes.enabled, goes.text, goes.named, known]
  have registered : (m.before.gateway.endpoints (.ofFileName name)).isSome = true := by
    rw [connected.endpoints, goes.registered]
    rfl
  have available := (connected.knows.foundAlive_iff heard (.ofFileName name)).mpr goes.alive
  have remote : m.before.goesRemote
      ⟨m.before.store.get, name, m.before.buffer.text, .ofFileName name⟩ = true := by
    rw [goesRemote_iff]
    dsimp only
    exact ⟨goes.useRemote, registered, available⟩
  rw [Checker.sends, if_pos current, reads, Option.filter_some, if_pos remote]

theorem goesOut_of_sends {r : Snapshot} (sent : m.before.sends job = some r)
    (connected : Connected net u m.time earlier m.before)
    (heard : ∀ row ∈ m.before.gateway.pending, m.time < row.1)
    (up : job.generation = m.before.generation → ∀ x ∈ between, x.move ≠ .act .shutdown) :
    ∃ e, GoesOut net u earlier between m r.name e := by
  unfold Checker.sends at sent
  split at sent
  · rename_i current
    obtain ⟨reads, remote⟩ := Option.filter_eq_some_iff.mp sent
    obtain ⟨settings, named, _, type, enabled, text, _⟩ := reading_eq_some reads
    obtain ⟨useRemote, registered, available⟩ := (goesRemote_iff _ _).mp remote
    rw [connected.endpoints, type] at registered
    rw [type] at available
    obtain ⟨e, found⟩ := Option.isSome_iff_exists.mp registered
    exact ⟨e, enabled, settings ▸ useRemote, up current, named, text, found,
      (connected.knows.foundAlive_iff heard _).mp available⟩
  · cases sent

end

/-- A text leaves the machine with the turn of its check, if it is to go to a service then, and in
one request; a probe asks after its service once, and a round of probing after every service once;
and nothing else is sent. -/
theorem text_leaves_only_when_asked_to (net : Network) (u : Setup) (services : List Endpoint)
    (steps : List Step) :
    let u : Setup := { u with endpoints := (services.foldl Gateway.register {}).endpoints }
    let last := run net steps { state := u.checker }
    let past := trace net steps u.checker
    last.state.gateway.sent = past.flatMap (Moment.sent net) ∧
    (∀ later m earlier, past = later ++ m :: earlier →
      ((∀ job, m.move ≠ .turn job) → (∀ id, m.move ≠ .act (.probeAll id)) →
        (∀ t, m.move ≠ .act (.probe t)) → m.sent net = []) ∧
      (∀ id, m.move = .act (.probeAll id) → (m.sent net).reverse = FileType.all.filterMap
        (fun t => (u.endpoints t).map (fun e => ⟨t, .head, e.statusUrl, none⟩))) ∧
      (∀ t, m.move = .act (.probe t) → m.sent net =
        ((u.endpoints t).map (fun e => ⟨t, .head, e.statusUrl, none⟩)).toList) ∧
      ∀ job, m.move = .turn job → ∃ between d older, earlier = between ++ d :: older ∧
        d.requested = [job] ∧ requests older = admissions earlier ∧
        (∀ name e, GoesOut net u earlier between m name e → ∃ body,
          m.sent net = [⟨.ofFileName name, .post, e.checkUrl, some body⟩] ∧
          body.field? "code" = some (.string m.before.buffer.text)) ∧
        ((¬ ∃ name e, GoesOut net u earlier between m name e) → m.sent net = [])) ∧
    ∀ (g : Gateway) id t now, (g.probe net id t now).sent =
      ((g.endpoints t).map (fun e => ⟨t, .head, e.statusUrl, none⟩)).toList ++ g.sent := by
  intro u last past
  obtain ⟨connected, at_gateway⟩ := connected_trace net u steps
  refine ⟨connected.sent, ?_, fun g id t now => Gateway.sent_probe net id t now g⟩
  intro later m earlier split
  have here := at_gateway later m earlier split
  have sent := (Moment.sent_eq net here.knows).1
  have head : m.before.gateway.head? = fun t => (u.endpoints t).map (Gateway.headRequest t) := by
    funext t
    rw [Gateway.head?, here.endpoints]
  refine ⟨?_, ?_, ?_, ?_⟩
  · intro noTurn noRound noProbe
    rw [sent]
    unfold Move.requests
    split
    · exact absurd ‹_› (noRound _)
    · exact absurd ‹_› (noProbe _)
    · exact absurd ‹_› (noTurn _)
    · rfl
  · intro id round
    rw [sent, round, Move.requests, List.reverse_reverse, head]
    rfl
  · intro t probe
    rw [sent, probe, Move.requests, head]
    rfl
  · intro job turn
    obtain ⟨_, at_order⟩ := orderly_trace net u steps
    obtain ⟨_, _, at_standing⟩ := standing_trace net u steps
    have ready := (at_standing later m earlier split).2
    rw [turn] at ready
    obtain ⟨rest, first⟩ := List.head?_eq_some_iff.mp ready.2
    have served := (at_order later m earlier split).served.requests
    rw [first] at served
    obtain ⟨between, d, older, parts, mine, before⟩ := exists_requested served
    have member : m ∈ past := by rw [split]; simp
    have heard := pending_trace net steps u.checker m member job turn
    have up := current_iff (parts ▸ split) mine
    have goes : m.sent net = m.before.posts job := by rw [sent, turn, Move.requests]
    refine ⟨between, d, older, parts, mine, before, ?_, ?_⟩
    · intro name e out
      have known := Gateway.ne_unknown_of_registered services out.registered
      have sends := out.sends here heard (up.mpr out.up) known
      refine ⟨e.service.requestBody m.before.buffer.text, ?_, rfl⟩
      rw [goes, posts, sends]
      simp only [here.endpoints, out.registered]
      rfl
    · intro stays
      rw [goes, posts]
      cases sends : m.before.sends job with
      | none => rfl
      | some r =>
        obtain ⟨e, out⟩ := goesOut_of_sends sends here heard up.mp
        exact absurd ⟨r.name, e, out⟩ stays

end BufferLint.Checker
