import BufferLint.Proofs.Timed.Invariant
import BufferLint.Timed.Debounce

/-! A timer with one place, against what it has been told. Of the tasks that were scheduled those
are started that no later order comes before, each when it is due; the last order alone tells what
waits. -/
namespace BufferLint.Timed

/-- What a timer with one place can be told. -/
inductive Order (α : Type) where
  | schedule (delay : Nat) (task : α)
  | cancel

abbrev Orders (α : Type) := List (Nat × Order α)

section orders

variable {α : Type}

theorem filter_due_of_ahead {now : Nat} {l : List (Nat × α)} (ahead : ∀ e ∈ l, now < e.1) :
    l.filter (fun e => e.1 ≤ now) = [] := by
  refine List.filter_eq_nil_iff.mpr ?_
  intro e member
  simpa using ahead e member

theorem filter_ahead_of_past {now : Nat} {l : List (Nat × α)} (past : ∀ e ∈ l, e.1 ≤ now) :
    l.filter (fun e => now < e.1) = [] := by
  refine List.filter_eq_nil_iff.mpr ?_
  intro e member
  simpa using past e member

def Order.entry (time : Nat) : Order α → Option (Nat × α)
  | .schedule delay task => some (time + delay, task)
  | .cancel => none

namespace Orders

/-- The tasks that no later order comes before, with the times at which they are due. -/
def standing : Orders α → List (Nat × α)
  | [] => []
  | (time, .schedule delay task) :: later =>
    if ∀ o ∈ later, time + delay ≤ o.1 then (time + delay, task) :: standing later
    else standing later
  | (_, .cancel) :: later => standing later

/-- The task that waits: that of the last order, up to the time at which it is due. -/
def pendingAt (now : Nat) (orders : Orders α) : Option (Nat × α) :=
  (orders.getLast?.bind (fun o => o.2.entry o.1)).filter (fun e => now < e.1)

theorem standing_append (earlier later : Orders α) :
    (earlier ++ later).standing =
      earlier.standing.filter (fun e => ∀ o ∈ later, e.1 ≤ o.1) ++ later.standing := by
  induction earlier with
  | nil => rfl
  | cons first rest ih =>
    obtain ⟨time, order⟩ := first
    cases order with
    | cancel => simpa [standing] using ih
    | schedule delay task =>
      by_cases undisturbed : ∀ o ∈ rest, time + delay ≤ o.1
      · by_cases still : ∀ o ∈ later, time + delay ≤ o.1
        · have both : ∀ o ∈ rest ++ later, time + delay ≤ o.1 :=
            List.forall_mem_append.mpr ⟨undisturbed, still⟩
          simp only [List.cons_append, standing, if_pos undisturbed, if_pos both, ih]
          rw [List.filter_cons_of_pos (by simpa using still), List.cons_append]
        · have neither : ¬ ∀ o ∈ rest ++ later, time + delay ≤ o.1 :=
            fun both => still (List.forall_mem_append.mp both).2
          simp only [List.cons_append, standing, if_pos undisturbed, if_neg neither, ih]
          rw [List.filter_cons_of_neg (by simpa using still)]
      · have neither : ¬ ∀ o ∈ rest ++ later, time + delay ≤ o.1 :=
          fun both => undisturbed (List.forall_mem_append.mp both).1
        simp only [List.cons_append, standing, if_neg undisturbed, if_neg neither, ih]

theorem standing_single (time : Nat) (order : Order α) :
    standing [(time, order)] = (order.entry time).toList := by
  cases order with
  | cancel => rfl
  | schedule delay task => exact if_pos (by simp)

theorem standing_snoc (orders : Orders α) (time : Nat) (order : Order α) :
    (orders ++ [(time, order)]).standing =
      orders.standing.filter (fun e => e.1 ≤ time) ++ (order.entry time).toList := by
  rw [standing_append, standing_single]
  simp

/-- Of the tasks that stand only the last order's can be ahead. -/
theorem ahead_standing (now : Nat) (orders : Orders α) (told : ∀ o ∈ orders, o.1 ≤ now) :
    orders.standing.filter (fun e => now < e.1) = (orders.pendingAt now).toList := by
  rcases List.eq_nil_or_concat orders with rfl | ⟨earlier, ⟨time, order⟩, rfl⟩
  · rfl
  · have past : time ≤ now := told (time, order) (by simp)
    rw [List.concat_eq_append]
    have none : ((standing earlier).filter (fun e => e.1 ≤ time)).filter (fun e => now < e.1) =
        [] := by
      refine filter_ahead_of_past ?_
      intro e member
      exact Nat.le_trans (of_decide_eq_true (List.mem_filter.mp member).2) past
    rw [standing_snoc, List.filter_append, none, List.nil_append, pendingAt,
      List.getLast?_concat, Option.bind_some]
    cases order.entry time with
    | none => rfl
    | some e =>
      by_cases ahead : now < e.1
      · simp [ahead, Option.filter]
      · simp [ahead, Option.filter]

theorem pendingAt_isSome (now : Nat) (orders : Orders α) :
    (orders.pendingAt now).isSome ↔
      ∃ earlier time delay task, orders = earlier ++ [(time, .schedule delay task)] ∧
        now < time + delay := by
  rcases List.eq_nil_or_concat orders with rfl | ⟨earlier, ⟨time, order⟩, rfl⟩
  · simp [pendingAt]
  · rw [List.concat_eq_append, pendingAt, List.getLast?_concat, Option.bind_some]
    constructor
    · intro waits
      cases order with
      | cancel => cases waits
      | schedule delay task =>
        refine ⟨earlier, time, delay, task, rfl, ?_⟩
        simpa [Order.entry, Option.filter] using waits
    · rintro ⟨others, time', delay, task, same, ahead⟩
      obtain ⟨rfl, last⟩ := List.append_inj' same rfl
      cases last
      simpa [Order.entry, Option.filter] using ahead

/-- Schedules each of which comes before the one before it is due, with what the last one is for. -/
inductive Burst : Orders α → Nat × α → Prop where
  | last (time delay : Nat) (task : α) :
    Burst [(time, .schedule delay task)] (time + delay, task)
  | more {time delay : Nat} {task : α} {next : Nat × Order α} {rest : Orders α} {goal : Nat × α}
      (soon : next.1 < time + delay) (burst : Burst (next :: rest) goal) :
    Burst ((time, .schedule delay task) :: next :: rest) goal

theorem Burst.standing {burst : Orders α} {goal : Nat × α} (chain : Burst burst goal)
    {later : Orders α} (undisturbed : ∀ o ∈ later, goal.1 ≤ o.1) :
    (burst ++ later).standing = goal :: later.standing := by
  induction chain with
  | last time delay task => exact if_pos undisturbed
  | more soon burst ih =>
    rename_i time delay task next rest goal
    have disturbed : ¬ ∀ o ∈ next :: (rest ++ later), time + delay ≤ o.1 := by
      intro all
      have := all next List.mem_cons_self
      omega
    exact (if_neg disturbed).trans (ih undisturbed)

theorem Burst.standing_within {earlier rest later : Orders α} {first : Nat × Order α}
    {goal : Nat × α} (chain : Burst (first :: rest) goal)
    (chronological : (earlier ++ first :: rest ++ later).Pairwise (fun a b => a.1 ≤ b.1))
    (undisturbed : ∀ o ∈ later, goal.1 ≤ o.1) :
    Orders.standing (earlier ++ first :: rest ++ later) =
      (Orders.standing earlier).filter (fun e => e.1 ≤ first.1) ++
        goal :: Orders.standing later := by
  rw [List.append_assoc] at chronological ⊢
  have behind : ∀ o ∈ rest ++ later, first.1 ≤ o.1 :=
    (List.pairwise_cons.mp (List.pairwise_append.mp chronological).2.1).1
  have same : ∀ e : Nat × α,
      (∀ o ∈ first :: rest ++ later, e.1 ≤ o.1) ↔ e.1 ≤ first.1 := by
    intro e
    constructor
    · exact fun all => all first List.mem_cons_self
    · intro before o member
      rcases List.mem_cons.mp member with rfl | after
      · exact before
      · exact Nat.le_trans before (behind o after)
  simp only [standing_append earlier, chain.standing undisturbed, same]

end Orders

namespace Debounce

def obey (d : Debounce α) (now : Nat) : Order α → Debounce α
  | .schedule delay task => d.schedule now delay task
  | .cancel => d.cancel

theorem pending_obey (d : Debounce α) (now : Nat) (order : Order α) :
    (d.obey now order).pending = order.entry now := by
  cases order <;> rfl

def Waits (d : Debounce α) (now : Nat) : Prop := ∀ e ∈ d.pending, now < e.1

/-- A timer that has started what it was told to start, and is told when to start the rest. -/
structure Follows (d : Debounce α) (now : Nat) (orders : Orders α) (fired : List (Nat × α)) :
    Prop where
  tasks : fired ++ d.pending.toList = orders.standing
  past : ∀ e ∈ fired, e.1 ≤ now
  ahead : ∀ e ∈ d.pending, now ≤ e.1
  told : ∀ o ∈ orders, o.1 ≤ now
  chronological : orders.Pairwise (fun a b => a.1 ≤ b.1)

variable {now : Nat} {orders : Orders α} {fired : List (Nat × α)} {d : Debounce α}

theorem follows_new : ({} : Debounce α).Follows 0 [] [] :=
  ⟨rfl, by simp, by simp, by simp, .nil⟩

theorem Follows.obey (follows : d.Follows now orders fired) (waits : d.Waits now)
    (order : Order α) : (d.obey now order).Follows now (orders ++ [(now, order)]) fired := by
  refine ⟨?_, follows.past, ?_, ?_, ?_⟩
  · have kept : (fired ++ d.pending.toList).filter (fun e => e.1 ≤ now) = fired := by
      have replaced := filter_due_of_ahead (l := d.pending.toList)
        (fun e member => waits e (Option.mem_toList.mp member))
      rw [List.filter_append, replaced, List.append_nil, List.filter_eq_self]
      intro e member
      exact decide_eq_true (follows.past e member)
    rw [Orders.standing_snoc, ← follows.tasks, kept, pending_obey]
  · rw [pending_obey]
    cases order with
    | cancel => simp [Order.entry]
    | schedule delay task => simp [Order.entry]
  · intro o member
    rcases List.mem_append.mp member with old | new
    · exact follows.told o old
    · exact Nat.le_of_eq (congrArg Prod.fst (List.mem_singleton.mp new))
  · refine List.pairwise_append.mpr ⟨follows.chronological, List.pairwise_singleton _ _, ?_⟩
    intro a old b new
    rw [List.mem_singleton.mp new]
    exact follows.told a old

theorem Follows.fire (follows : d.Follows now orders fired) :
    (d.fire now).1.Follows now orders
        (fired ++ ((d.fire now).2.map (fun task => (now, task))).toList) ∧
      (d.fire now).1.Waits now := by
  cases pending : d.pending with
  | none =>
    have idle : d.fire now = (d, none) := by simp [Debounce.fire, pending]
    rw [idle]
    exact ⟨by simpa using follows, by simp [Waits, pending]⟩
  | some e =>
    obtain ⟨time, task⟩ := e
    have notLate := follows.ahead (time, task) (by simp [pending])
    by_cases due : time ≤ now
    · have started : d.fire now = (⟨none⟩, some task) := by simp [Debounce.fire, pending, due]
      have punctual : time = now := Nat.le_antisymm due notLate
      have tasks := follows.tasks
      rw [pending, punctual] at tasks
      rw [started]
      refine ⟨⟨?_, ?_, by simp, follows.told, follows.chronological⟩, by simp [Waits]⟩
      · simpa using tasks
      · intro e member
        rcases List.mem_append.mp member with old | new
        · exact follows.past e old
        · exact Nat.le_of_eq (congrArg Prod.fst (List.mem_singleton.mp new))
    · have idle : d.fire now = (d, none) := by simp [Debounce.fire, pending, due]
      rw [idle]
      refine ⟨by simpa using follows, ?_⟩
      intro e member
      rw [pending] at member
      cases member
      omega

theorem Follows.wait (follows : d.Follows now orders fired) {later : Nat} (time : now ≤ later)
    (early : ∀ e ∈ d.pending, later ≤ e.1) : d.Follows later orders fired where
  tasks := follows.tasks
  past e member := Nat.le_trans (follows.past e member) time
  ahead := early
  told o member := Nat.le_trans (follows.told o member) time
  chronological := follows.chronological

theorem Follows.fired_eq (follows : d.Follows now orders fired) (waits : d.Waits now) :
    fired = orders.standing.filter (fun e => e.1 ≤ now) := by
  have ahead := filter_due_of_ahead (l := d.pending.toList)
    (fun e member => waits e (Option.mem_toList.mp member))
  rw [← follows.tasks, List.filter_append, ahead, List.append_nil, eq_comm, List.filter_eq_self]
  intro e member
  exact decide_eq_true (follows.past e member)

theorem Follows.pending_eq (follows : d.Follows now orders fired) (waits : d.Waits now) :
    d.pending = orders.pendingAt now := by
  have past := filter_ahead_of_past follows.past
  have ahead : d.pending.toList.filter (fun e => now < e.1) = d.pending.toList :=
    List.filter_eq_self.mpr (fun e member => decide_eq_true (waits e (Option.mem_toList.mp member)))
  have same := Orders.ahead_standing now orders follows.told
  rw [← follows.tasks, List.filter_append, past, ahead, List.nil_append] at same
  simpa using congrArg List.head? same

end Debounce

end orders

namespace TaskTimer

def Action.order : Action → Order Task
  | .schedule task delay => .schedule delay task
  | .cancel => .cancel

def ordersOf (steps : List (Step Action)) : Orders Task :=
  (Run.timeline 0 steps).map (fun a => (a.1, a.2.order))

def startedTask? : Nat × TaskEvent → Option (Nat × Nat)
  | (time, .started id) => some (time, id)
  | _ => none

def finishedTask? : Nat × TaskEvent → Option (Nat × Nat)
  | (time, .finished id) => some (time, id)
  | _ => none

def ending (e : Nat × Task) : Nat × Nat := (e.1 + e.2.length, e.2.id)

theorem timer_act (action : Action) (now : Nat) (t : TaskTimer) :
    act action now t = { t with timer := t.timer.obey now action.order } := by
  cases action <;> rfl

def Due (t : TaskTimer) (due : Nat) : Prop :=
  (∃ e ∈ t.timer.pending, e.1 = due) ∨ ∃ e ∈ t.running, e.1 = due

theorem nextDue_le {t : TaskTimer} {due : Nat} (ahead : t.Due due) :
    ∃ time, t.nextDue = some time ∧ time ≤ due := by
  rcases ahead with ⟨e, pending, rfl⟩ | ⟨e, member, rfl⟩
  · refine exists_min?_le ?_
    simp [Debounce.nextDue, Option.mem_def.mp pending]
  · obtain ⟨first, least, before⟩ := Agenda.exists_nextDue_le member
    have among : first ∈ t.timer.nextDue.toList ++ t.running.nextDue.toList := by
      simp [least]
    obtain ⟨time, next, earlier⟩ := exists_min?_le among
    exact ⟨time, next, Nat.le_trans earlier before⟩

/-- A run that has started the tasks `fired`: each of them is over or still running. -/
structure Accounts (orders : Orders Task) (fired : List (Nat × Task)) (r : Run) : Prop where
  slot : r.state.timer.Follows r.now orders fired
  started : r.log.reverse.filterMap startedTask? = fired.map (fun e => (e.1, e.2.id))
  tasks : (r.log.filterMap finishedTask? ++ r.state.running).Perm (fired.map ending)
  ended : ∀ e ∈ r.log.filterMap finishedTask?, e.1 ≤ r.now
  running : ∀ e ∈ r.state.running, r.now ≤ e.1

def Idle (r : Run) : Prop := ∀ due, r.state.Due due → r.now < due

variable {orders : Orders Task} {fired : List (Nat × Task)} {r : Run}

theorem Idle.waits (idle : Idle r) : r.state.timer.Waits r.now :=
  fun e pending => idle e.1 (.inl ⟨e, pending, rfl⟩)

theorem Idle.runs (idle : Idle r) : ∀ e ∈ r.state.running, r.now < e.1 :=
  fun e member => idle e.1 (.inr ⟨e, member, rfl⟩)

theorem settle_eq (t : TaskTimer) (now : Nat) :
    let more := ((t.timer.fire now).2.map (fun task => (now, task))).toList
    let running := t.running ++ more.map ending
    machine.settle now t =
      (⟨(t.timer.fire now).1, running.filter (fun e => now < e.1)⟩,
        more.map (fun e => .started e.2.id) ++
          (running.filter (fun e => e.1 ≤ now)).map (fun e => .finished e.2)) := by
  have started : t.start now =
      (⟨(t.timer.fire now).1,
        t.running ++ ((t.timer.fire now).2.map (fun task => (now, task))).toList.map ending⟩,
        ((t.timer.fire now).2.map (fun task => (now, task))).toList.map
          (fun e => TaskEvent.started e.2.id)) := by
    unfold start
    rcases t.timer.fire now with ⟨timer, _ | task⟩
    · simp
    · simp [Agenda.add, ending]
  simp [machine, started, finish, Agenda.later, Agenda.due, Function.comp_def]

theorem filterMap_told (now : Nat) (more : List (Nat × Task)) (ended : List (Nat × Nat)) :
    let told := (more.map (fun e => TaskEvent.started e.2.id) ++
      ended.map (fun e : Nat × Nat => TaskEvent.finished e.2)).map (fun event => (now, event))
    told.filterMap startedTask? = more.map (fun e => (now, e.2.id)) ∧
      told.filterMap finishedTask? = ended.map (fun e => (now, e.2)) := by
  constructor
  · simp [List.filterMap_map, Function.comp_def, startedTask?]
  · simp [List.filterMap_map, Function.comp_def, finishedTask?]

theorem Accounts.settle (accounts : Accounts orders fired r) :
    ∃ more, Accounts orders (fired ++ more) (r.settle machine) ∧ Idle (r.settle machine) := by
  obtain ⟨slot, waits⟩ := accounts.slot.fire
  have settled := settle_eq r.state r.now
  dsimp only at settled
  generalize newly : ((r.state.timer.fire r.now).2.map (fun task => (r.now, task))).toList = more
    at slot settled
  have now : ∀ e ∈ more, e = (r.now, e.2) := by
    intro e member
    rw [← newly] at member
    obtain ⟨task, _, rfl⟩ := Option.map_eq_some_iff.mp (Option.mem_toList.mp member)
    rfl
  generalize list : r.state.running ++ more.map ending = running at settled
  have ahead : ∀ e ∈ running, r.now ≤ e.1 := by
    intro e member
    rw [← list] at member
    rcases List.mem_append.mp member with old | new
    · exact accounts.running e old
    · obtain ⟨task, starts, rfl⟩ := List.mem_map.mp new
      rw [now task starts]
      exact Nat.le_add_right _ _
  have punctual : (running.filter (fun e => e.1 ≤ r.now)).map (fun e => (r.now, e.2)) =
      running.filter (fun e => e.1 ≤ r.now) := by
    refine (List.map_congr_left ?_).trans (List.map_id _)
    intro e member
    obtain ⟨among, due⟩ := List.mem_filter.mp member
    exact Prod.ext (Nat.le_antisymm (ahead e among) (of_decide_eq_true due)) rfl
  have starts : more.map (fun e => (r.now, e.2.id)) = more.map (fun e => (e.1, e.2.id)) :=
    List.map_congr_left (fun e member => by rw [now e member])
  obtain ⟨started, ended⟩ := filterMap_told r.now more (running.filter (fun e => e.1 ≤ r.now))
  have finished : (r.settle machine).log.filterMap finishedTask? =
      (running.filter (fun e => e.1 ≤ r.now)).reverse ++ r.log.filterMap finishedTask? := by
    rw [Run.settle_log, settled, List.filterMap_append, List.filterMap_reverse, ended, punctual]
  refine ⟨more, ⟨?_, ?_, ?_, ?_, ?_⟩, ?_⟩
  · simpa [settled] using slot
  · rw [Run.settle_log, settled, List.reverse_append, List.reverse_reverse, List.filterMap_append,
      accounts.started, started, starts, List.map_append]
  · rw [finished, Run.settle_state, settled]
    have split : (running.filter (fun e => e.1 ≤ r.now) ++
        running.filter (fun e => r.now < e.1)).Perm running := by
      simp only [← Nat.not_le, decide_not]
      exact List.filter_append_perm _ running
    have moved := ((List.reverse_perm (running.filter (fun e => e.1 ≤ r.now))).append_right
      (r.log.filterMap finishedTask?)).trans List.perm_append_comm
    refine (moved.append_right _).trans ?_
    rw [List.append_assoc]
    refine (split.append_left _).trans ?_
    rw [← list, ← List.append_assoc, List.map_append]
    exact accounts.tasks.append_right _
  · rw [finished]
    intro e member
    rcases List.mem_append.mp member with new | old
    · exact of_decide_eq_true (List.mem_filter.mp (List.mem_reverse.mp new)).2
    · exact accounts.ended e old
  · rw [Run.settle_state, settled]
    intro e member
    exact ahead e (List.mem_filter.mp member).1
  · rintro due (⟨e, pending, rfl⟩ | ⟨e, member, rfl⟩)
    · rw [Run.settle_state, settled] at pending
      exact waits e pending
    · rw [Run.settle_state, settled] at member
      exact of_decide_eq_true (List.mem_filter.mp member).2

theorem Accounts.wait (accounts : Accounts orders fired r) {ms : Nat}
    (early : ∀ due, r.state.Due due → r.now + ms ≤ due) :
    Accounts orders fired (r.wait ms) where
  slot := accounts.slot.wait (Nat.le_add_right _ _)
    (fun e pending => early e.1 (.inl ⟨e, pending, rfl⟩))
  started := accounts.started
  tasks := accounts.tasks
  ended e member := Nat.le_trans (accounts.ended e member) (Nat.le_add_right _ _)
  running e member := early e.1 (.inr ⟨e, member, rfl⟩)

theorem accounted_elapse (ms : Nat) (r : Run)
    (start : ∃ fired, Accounts orders fired r ∧ Idle r) :
    ∃ fired, Accounts orders fired (r.elapse machine ms) ∧ Idle (r.elapse machine ms) := by
  refine Run.elapse_invariant machine (fun r => ∃ fired, Accounts orders fired r ∧ Idle r)
    ?_ ?_ ms r start
  · rintro r k ⟨fired, accounts, idle⟩ early
    have ahead : ∀ due, r.state.Due due → r.now + k < due := by
      intro due waiting
      obtain ⟨time, next, before⟩ := nextDue_le waiting
      have short := early time next
      have later := idle due waiting
      simp only [Run.waitFor] at short
      omega
    exact ⟨fired, accounts.wait (fun due waiting => Nat.le_of_lt (ahead due waiting)), ahead⟩
  · rintro r time ⟨fired, accounts, idle⟩ next
    have reached : Accounts orders fired (r.wait (r.waitFor time)) := by
      refine accounts.wait ?_
      intro due waiting
      obtain ⟨first, next', before⟩ := nextDue_le waiting
      cases Option.some.inj (next.symm.trans next')
      have later := idle due waiting
      simp only [Run.waitFor]
      omega
    obtain ⟨more, settled⟩ := reached.settle
    exact ⟨fired ++ more, settled⟩

theorem accounted_step (step : Step Action) (r : Run)
    (start : ∃ fired, Accounts orders fired r ∧ Idle r) :
    ∃ fired, Accounts (orders ++ (Run.timeline r.now [step]).map (fun a => (a.1, a.2.order))) fired
      (TaskTimer.step r step) ∧ Idle (TaskTimer.step r step) := by
  cases step with
  | sleep ms =>
    have same : (Run.timeline r.now [(.sleep ms : Step Action)]).map (fun a => (a.1, a.2.order)) =
      [] := rfl
    rw [same, List.append_nil]
    exact accounted_elapse ms r start
  | act action =>
    obtain ⟨fired, accounts, idle⟩ := start
    refine accounted_elapse 1 _ ?_
    have told : Accounts (orders ++ [(r.now, action.order)]) fired
        { r with state := act action r.now r.state } := by
      rw [timer_act]
      exact ⟨accounts.slot.obey idle.waits _, accounts.started, accounts.tasks, accounts.ended,
        accounts.running⟩
    obtain ⟨more, settled⟩ := told.settle
    exact ⟨fired ++ more, settled⟩

theorem accounted_play (steps : List (Step Action)) (r : Run)
    (start : ∃ fired, Accounts orders fired r ∧ Idle r) :
    ∃ fired, Accounts (orders ++ (Run.timeline r.now steps).map (fun a => (a.1, a.2.order))) fired
      (run steps r) ∧ Idle (run steps r) := by
  induction steps generalizing orders r with
  | nil =>
    have same : orders ++ (Run.timeline r.now ([] : List (Step Action))).map
        (fun a => (a.1, a.2.order)) = orders := List.append_nil orders
    rw [same]
    exact start
  | cons step rest ih =>
    have stepped := ih (TaskTimer.step r step) (accounted_step step r start)
    rw [List.append_assoc, ← List.map_append, TaskTimer.step, Run.step_now,
      ← Run.timeline_cons] at stepped
    exact stepped

/-- What a run has started, ended and kept, from what it was told. -/
theorem run_accounts (steps : List (Step Action)) :
    let r := run steps { state := {} }
    let fired := (ordersOf steps).standing.filter (fun e => e.1 ≤ r.now)
    r.log.reverse.filterMap startedTask? = fired.map (fun e => (e.1, e.2.id)) ∧
      (r.log.filterMap finishedTask?).Perm
        ((fired.map ending).filter (fun e => e.1 ≤ r.now)) ∧
      r.state.timer.pending = (ordersOf steps).pendingAt r.now := by
  have start : ∃ fired, Accounts [] fired ({ state := {} } : Run) ∧ Idle { state := {} } :=
    ⟨[], ⟨Debounce.follows_new, rfl, .nil, by simp, by simp⟩, by simp [Idle, Due]⟩
  obtain ⟨fired, accounts, idle⟩ := accounted_play steps _ start
  have same : fired = (ordersOf steps).standing.filter
      (fun e => e.1 ≤ (run steps { state := {} }).now) := accounts.slot.fired_eq idle.waits
  subst same
  refine ⟨accounts.started, ?_, accounts.slot.pending_eq idle.waits⟩
  have ended := accounts.tasks.filter (fun e => decide (e.1 ≤ (run steps { state := {} }).now))
  rw [List.filter_append, filter_due_of_ahead idle.runs, List.append_nil,
    List.filter_eq_self.mpr (fun e member => decide_eq_true (accounts.ended e member))] at ended
  exact ended

end TaskTimer

end BufferLint.Timed
