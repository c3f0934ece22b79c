import BufferLint.Proofs.Check.Convergence
import BufferLint.Proofs.Timed.OneSlot

/-! One check for each burst. The host's actions are orders to a timer with one place: triggers,
edits that are listened to and settings that are saved schedule a check, a shutdown and a switch to
disabled cancel it. The timer requests a check for those orders that no later one comes before. -/
namespace BufferLint.Checker

def orderOfSaving (s : Checker) (settings : Settings) : Option (Timed.Order Nat) :=
  match s.store.save settings with
  | .ok _ => some (if settings.enabled then .schedule settingsDelay s.generation else .cancel)
  | .error _ => none

/-- What an action means for the timer. -/
def orderOf (s : Checker) : Action → Option (Timed.Order Nat)
  | .trigger => some (.schedule s.store.get.delay s.generation)
  | .setText _ | .switchTo _ _ | .close =>
    if s.listener.isSome && (s.store.get.enabled && s.store.get.realtime) then
      some (.schedule s.store.get.delay s.generation)
    else none
  | .toggleEnabled => s.orderOfSaving { s.store.get with enabled := !s.store.get.enabled }
  | .toggleRemote => s.orderOfSaving { s.store.get with useRemote := !s.store.get.useRemote }
  | .shutdown => some .cancel
  | _ => none

def Moment.order? (m : Moment) : Option (Nat × Timed.Order Nat) :=
  match m.move with
  | .act action => (m.before.orderOf action).map (fun order => (m.time, order))
  | _ => none

def ordersIn (trace : List Moment) : Timed.Orders Nat := trace.reverse.filterMap Moment.order?

/-- The checks that are requested at a moment although nobody waits for them. -/
def Moment.unasked (m : Moment) : List (Nat × Nat) :=
  (m.requested.filter (fun job => job.requester.isNone)).map (fun job => (m.time, job.generation))

/-- The checks that the timer requests, with the generations in which they were scheduled. -/
def requestsIn (trace : List Moment) : List (Nat × Nat) := trace.reverse.flatMap Moment.unasked

section moves

variable {net : Network} {now : Nat} {s t : Checker}

theorem notice_of_attentive (now : Nat) (attentive : Attentive s) : s.notice now = s := by
  unfold notice
  split
  · rename_i seen listens
    rw [if_pos (attentive seen listens)]
  · rfl

theorem timer_saveSettings (now : Nat) (settings : Settings) (s : Checker) :
    (s.saveSettings now settings).1.timer =
      ((s.orderOfSaving settings).map (s.timer.obey now)).getD s.timer := by
  unfold saveSettings orderOfSaving applySettings
  cases s.store.save settings with
  | error e => rfl
  | ok store => cases settings.enabled <;> rfl

theorem Saves.attentive {settings : Settings} (saves : Saves now settings s t)
    (attentive : Attentive s) : Attentive t := by
  cases saves <;> exact attentive

theorem timer_notice_edit {buffer : Buffer} (attentive : Attentive s)
    (changed : buffer.revision = s.buffer.revision + 1) :
    (({ s with buffer }).notice now).timer =
      if s.listener.isSome && (s.store.get.enabled && s.store.get.realtime) then
        s.timer.schedule now s.store.get.delay s.generation
      else s.timer := by
  unfold notice
  cases listens : s.listener with
  | none => simp
  | some seen =>
    have unseen : seen ≠ buffer.revision := by
      rw [attentive seen listens, changed]
      omega
    simp only [if_neg unseen, Option.isSome_some, Bool.true_and]
    split <;> rfl

/-- The timer does what an action means for it, as soon as the listener has seen it. -/
theorem timer_act (net : Network) (action : Action) (now : Nat) (attentive : Attentive s) :
    ((act net action now s).notice now).timer =
      ((s.orderOf action).map (s.timer.obey now)).getD s.timer := by
  have calm : ∀ t : Checker, Attentive t → t.timer =
      ((s.orderOf action).map (s.timer.obey now)).getD s.timer →
      (t.notice now).timer = ((s.orderOf action).map (s.timer.obey now)).getD s.timer := by
    intro t attentive same
    rw [notice_of_attentive now attentive, same]
  have edited : ∀ buffer : Buffer, buffer.revision = s.buffer.revision + 1 →
      (({ s with buffer }).notice now).timer =
        ((if s.listener.isSome && (s.store.get.enabled && s.store.get.realtime) then
          some (Timed.Order.schedule s.store.get.delay s.generation)
        else none).map (s.timer.obey now)).getD s.timer := by
    intro buffer changed
    rw [timer_notice_edit attentive changed]
    split <;> rfl
  cases action with
  | setText text => exact edited _ rfl
  | switchTo name text => exact edited _ rfl
  | close => exact edited _ rfl
  | toggleEnabled =>
    exact calm _ ((saves_saveSettings now _ s).attentive attentive) (timer_saveSettings now _ s)
  | toggleRemote =>
    exact calm _ ((saves_saveSettings now _ s).attentive attentive) (timer_saveSettings now _ s)
  | putSettings settings =>
    have aside : Attentive (act net (.putSettings settings) now s) ∧
        (act net (.putSettings settings) now s).timer = s.timer := by
      unfold act
      dsimp only
      split
      · exact ⟨attentive, rfl⟩
      · exact ⟨attentive, rfl⟩
    exact calm _ aside.1 aside.2
  | listen => exact calm _ (fun seen listens => (Option.some.inj listens).symm) rfl
  | shutdown => exact calm _ (fun seen listens => nomatch listens) rfl
  | _ => exact calm _ attentive rfl

theorem timer_fireTimer (now : Nat) (s : Checker) :
    (s.fireTimer now).timer = (s.timer.fire now).1 := by
  unfold fireTimer
  split
  · rename_i fired
    rw [fired]
  · rename_i fired
    rw [fired]

theorem timer_serve (net : Network) (now : Nat) (jobs : List Job) (s : Checker) :
    (serve net now jobs s).timer = s.timer := by
  induction jobs generalizing s with
  | nil => rfl
  | cons job rest ih =>
    have keeps := keeps_start net now { s with queue := rest } job
    simp only [serve]
    split
    · exact keeps.timer
    · exact (ih _).trans keeps.timer

theorem timer_notice_congr (now : Nat) (keeps : Keeps s t) :
    (t.notice now).timer = (s.notice now).timer := by
  unfold notice
  rw [keeps.listener, keeps.buffer]
  split
  · split
    · exact keeps.timer
    · simp only [trigger, schedule, keeps.store, keeps.timer, keeps.generation]
      split <;> rfl
  · exact keeps.timer

theorem timer_advance (net : Network) (now : Nat) (s : Checker) :
    (advance net now s).timer = ((s.notice now).timer.fire now).1 := by
  have found := (keeps_pollGateway now s).trans (keeps_pollEngine now (s.pollGateway now))
  have fired := timer_fireTimer now (((s.pollGateway now).pollEngine now).notice now)
  rw [timer_notice_congr now found] at fired
  unfold advance
  dsimp only
  split
  · exact fired
  · exact (timer_serve net now _ _).trans fired

theorem unasked_turns (net : Network) (now : Nat) (jobs : List Job) (s : Checker) :
    (turns net now jobs s).flatMap Moment.unasked = [] := by
  induction jobs generalizing s with
  | nil => rfl
  | cons job rest ih =>
    simp only [turns, List.flatMap_cons]
    have none : Moment.unasked ⟨now, .turn job, s⟩ = [] := rfl
    rw [none, List.nil_append]
    split
    · rfl
    · exact ih _

theorem unasked_moments (net : Network) (now : Nat) (s : Checker) :
    (moments net now s).flatMap Moment.unasked =
      (((s.notice now).timer.fire now).2.map (fun stamp => (now, stamp))).toList := by
  have found := (keeps_pollGateway now s).trans (keeps_pollEngine now (s.pollGateway now))
  have same := timer_notice_congr now found
  have turned : ∀ t : Checker, (if t.running.isSome then [] else turns net now t.queue t).flatMap
      Moment.unasked = [] := by
    intro t
    split
    · rfl
    · exact unasked_turns net now _ _
  have fires : Moment.unasked ⟨now, .fireTimer, ((s.pollGateway now).pollEngine now).notice now⟩ =
      (((s.notice now).timer.fire now).2.map (fun stamp => (now, stamp))).toList := by
    simp only [Moment.unasked, Moment.requested, same]
    cases ((s.notice now).timer.fire now).2 <;> rfl
  simp only [moments, List.flatMap_cons, turned, fires, List.append_nil]
  rfl

theorem order?_moments (net : Network) (now : Nat) (s : Checker) :
    (moments net now s).filterMap Moment.order? = [] := by
  refine List.filterMap_eq_nil_iff.mpr ?_
  intro m member
  unfold Moment.order?
  split
  · rename_i action acts
    exact absurd acts (not_act_of_mem_moments member action)
  · rfl

end moves

/-- The timer of an observed run does what it is told. -/
structure Obeys (q : Timed.Run Checker Moment) : Prop where
  follows : q.state.timer.Follows q.now (ordersIn (q.log.map Prod.snd))
    (requestsIn (q.log.map Prod.snd))
  waits : q.state.timer.Waits q.now
  attentive : Attentive q.state

theorem nextDue_le_timer {s : Checker} {e : Nat × Nat} (pending : e ∈ s.timer.pending) :
    ∃ time, s.nextDue = some time ∧ time ≤ e.1 := by
  refine Timed.exists_min?_le ?_
  simp [Timed.Debounce.nextDue, Option.mem_def.mp pending]

section runs

variable {net : Network} {q : Timed.Run Checker Moment}

theorem obeys_settle
    (follows : (q.state.notice q.now).timer.Follows q.now (ordersIn (q.log.map Prod.snd))
      (requestsIn (q.log.map Prod.snd))) : Obeys (q.settle (observer net)) := by
  obtain ⟨fired, waits⟩ := follows.fire
  have told : (q.settle (observer net)).log.map Prod.snd =
      (moments net q.now q.state).reverse ++ q.log.map Prod.snd := by
    simp [Timed.Run.settle_log, observer, Function.comp_def]
  have settled : (q.settle (observer net)).state =
      { advance net q.now q.state with effects := [] } := rfl
  have timer := timer_advance net q.now q.state
  have attentive := attentive_advance net q.now q.state
  generalize advance net q.now q.state = t at settled timer attentive
  refine ⟨?_, ?_, ?_⟩
  · rw [told, settled, timer]
    simp only [ordersIn, requestsIn, List.reverse_append, List.reverse_reverse,
      List.filterMap_append, List.flatMap_append, order?_moments, unasked_moments, List.append_nil]
    exact fired
  · rw [settled, timer]
    exact waits
  · rw [settled]
    exact attentive

theorem Obeys.wait (obeys : Obeys q) {ms : Nat}
    (early : ∀ e ∈ q.state.timer.pending, q.now + ms ≤ e.1) :
    (q.wait ms).state.timer.Follows (q.wait ms).now (ordersIn ((q.wait ms).log.map Prod.snd))
      (requestsIn ((q.wait ms).log.map Prod.snd)) :=
  obeys.follows.wait (Nat.le_add_right _ _) early

theorem obeys_elapse (ms : Nat) (obeys : Obeys q) : Obeys (q.elapse (observer net) ms) := by
  refine Timed.Run.elapse_invariant (observer net) Obeys ?_ ?_ ms q obeys
  · intro q k obeys early
    have ahead : ∀ e ∈ q.state.timer.pending, q.now + k < e.1 := by
      intro e pending
      obtain ⟨time, next, before⟩ := nextDue_le_timer pending
      have short := early time next
      have later := obeys.waits e pending
      simp only [Timed.Run.waitFor] at short
      omega
    exact ⟨obeys.wait (fun e pending => Nat.le_of_lt (ahead e pending)), ahead, obeys.attentive⟩
  · intro q time obeys next
    apply obeys_settle
    rw [Timed.Run.wait_state, notice_of_attentive _ obeys.attentive]
    refine obeys.wait ?_
    intro e pending
    obtain ⟨first, next', before⟩ := nextDue_le_timer pending
    cases Option.some.inj (next.symm.trans next')
    have later := obeys.waits e pending
    simp only [Timed.Run.waitFor]
    omega

theorem obeys_observe (step : Step) (obeys : Obeys q) : Obeys (observe net q step) := by
  cases step with
  | sleep ms => exact obeys_elapse ms obeys
  | act action =>
    refine obeys_elapse 1 (obeys_settle ?_)
    have told := timer_act net action q.now obeys.attentive
    have orders : ordersIn (⟨q.now, .act action, q.state⟩ :: q.log.map Prod.snd) =
        ordersIn (q.log.map Prod.snd) ++
          ((q.state.orderOf action).map (fun order => (q.now, order))).toList := by
      have means : Moment.order? ⟨q.now, .act action, q.state⟩ =
          (q.state.orderOf action).map (fun order => (q.now, order)) := rfl
      rw [ordersIn, List.reverse_cons, List.filterMap_append, List.filterMap_cons, means]
      cases q.state.orderOf action <;> rfl
    have asked : requestsIn (⟨q.now, .act action, q.state⟩ :: q.log.map Prod.snd) =
        requestsIn (q.log.map Prod.snd) := by
      have nobody : Moment.unasked ⟨q.now, .act action, q.state⟩ = [] := by
        cases action <;> rfl
      simp [requestsIn, nobody]
    change ((act net action q.now q.state).notice q.now).timer.Follows q.now
      (ordersIn (⟨q.now, .act action, q.state⟩ :: q.log.map Prod.snd))
      (requestsIn (⟨q.now, .act action, q.state⟩ :: q.log.map Prod.snd))
    rw [orders, asked, told]
    cases q.state.orderOf action with
    | none => simpa using obeys.follows
    | some order => exact obeys.follows.obey obeys.waits order

theorem obeys_play (net : Network) (steps : List Step) (obeys : Obeys q) :
    Obeys (steps.foldl (observe net) q) := by
  induction steps generalizing q with
  | nil => exact obeys
  | cons step rest ih => exact ih (obeys_observe step obeys)

/-- The timer requests what it was told to, no more and no less. -/
theorem requests_follow_orders (net : Network) (u : Setup) (steps : List Step) :
    (ordersIn (trace net steps u.checker)).Pairwise (fun a b => a.1 ≤ b.1) ∧
    (∀ o ∈ ordersIn (trace net steps u.checker),
      o.1 ≤ (run net steps { state := u.checker }).now) ∧
    requestsIn (trace net steps u.checker) =
      (ordersIn (trace net steps u.checker)).standing.filter
        (fun e => e.1 ≤ (run net steps { state := u.checker }).now) := by
  have start : Obeys { state := u.checker } :=
    ⟨Timed.Debounce.follows_new, by simp [Timed.Debounce.Waits, Setup.checker],
      fun seen listens => nomatch listens⟩
  have beside : Beside net { state := u.checker } { state := u.checker } := ⟨rfl, rfl, rfl⟩
  have obeys := obeys_play net steps start
  have now := (beside_play steps beside rfl).1.now
  rw [now]
  exact ⟨obeys.follows.chronological, obeys.follows.told, obeys.follows.fired_eq obeys.waits⟩

end runs

/-- A timer starts each task that no later order comes before, once and when it is due, and nothing
stops a task that has been started; only the last order's task can wait. So a burst of schedules, of
which each comes before the one before it is due, leads to one check, when the last one is due. -/
theorem bursts_request_one_check :
    (∀ steps : List (Timed.Step Timed.TaskTimer.Action),
      let r := Timed.TaskTimer.run steps { state := {} }
      let orders := Timed.TaskTimer.ordersOf steps
      let started := orders.standing.filter (fun e => e.1 ≤ r.now)
      r.log.reverse.filterMap Timed.TaskTimer.startedTask? =
          started.map (fun e => (e.1, e.2.id)) ∧
        (r.log.filterMap Timed.TaskTimer.finishedTask?).Perm
          ((started.map Timed.TaskTimer.ending).filter (fun e => e.1 ≤ r.now)) ∧
        r.state.timer.pending = orders.pendingAt r.now ∧
        (r.state.timer.isPending = true ↔
          ∃ earlier time delay task, orders = earlier ++ [(time, .schedule delay task)] ∧
            r.now < time + delay) ∧
        Timed.TaskTimer.answer .cancel r.now r.state = r.state.timer.isPending) ∧
    ∀ (net : Network) (u : Setup) (steps : List Step),
      let seen := trace net steps u.checker
      let now := (run net steps { state := u.checker }).now
      requestsIn seen = (ordersIn seen).standing.filter (fun e => e.1 ≤ now) ∧
      ∀ (earlier rest later : Timed.Orders Nat) (first : Nat × Timed.Order Nat)
        (goal : Nat × Nat), ordersIn seen = earlier ++ first :: rest ++ later →
        Timed.Orders.Burst (first :: rest) goal → (∀ o ∈ later, goal.1 ≤ o.1) → goal.1 ≤ now →
        requestsIn seen =
          (Timed.Orders.standing earlier).filter (fun e => e.1 ≤ first.1) ++
            goal :: (Timed.Orders.standing later).filter (fun e => e.1 ≤ now) := by
  refine ⟨?_, ?_⟩
  · intro steps r orders started
    obtain ⟨starts, finishes, pending⟩ := Timed.TaskTimer.run_accounts steps
    refine ⟨starts, finishes, pending, ?_, rfl⟩
    rw [Timed.Debounce.isPending, pending]
    exact Timed.Orders.pendingAt_isSome _ _
  · intro net u steps seen now
    obtain ⟨chronological, told, requests⟩ := requests_follow_orders net u steps
    refine ⟨requests, ?_⟩
    intro earlier rest later first goal split burst undisturbed reached
    have begun : first.1 ≤ now := told first (by rw [split]; simp)
    rw [split] at chronological
    rw [requests, split, burst.standing_within chronological undisturbed, List.filter_append,
      List.filter_cons_of_pos (by simpa using reached), List.filter_filter]
    congr 1
    refine List.filter_congr ?_
    intro e _
    simp only [Bool.and_eq_right_iff_imp, decide_eq_true_eq]
    intro before
    exact Nat.le_trans before begun

end BufferLint.Checker
