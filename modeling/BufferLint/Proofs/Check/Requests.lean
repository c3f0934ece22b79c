import BufferLint.Proofs.Check.Delivery

/-! First come, first served. A request waits behind those that came before it, has its turn, and
leaves when its check is over; nobody is lost and nobody is overtaken. Requests carry the
generation in which they were made, so the queue is ordered by it. -/
namespace BufferLint.Checker

def waiting (s : Checker) : List Job := (s.running.map RunningCheck.job).toList ++ s.queue

def Move.isShutdown : Move → Bool
  | .act .shutdown => true
  | _ => false

namespace Moment

def requested (m : Moment) : List Job :=
  match m.move with
  | .act (.check id) => [⟨some id, m.before.generation⟩]
  | .fireTimer => ((m.before.timer.fire m.time).2.map (fun stamp => ⟨none, stamp⟩)).toList
  | _ => []

def ended (net : Network) (m : Moment) : List Job :=
  if (m.after net).running.isNone then m.job?.toList else []

end Moment

section moves

variable {net : Network} {now : Nat} {s t : Checker} {owed : Job → Snapshot → Outcome → Prop}

theorem Progress.running {check : RunningCheck} {out : Outcome}
    (progress : Progress now s check out t) (running : s.running = some check) :
    t.running = none ∨ ∃ stage, t.running = some { check with stage } := by
  cases progress with
  | still => exact .inr ⟨check.stage, running⟩
  | fallsBack => exact .inr ⟨.inProcess, rfl⟩
  | ends => exact .inl (conclude_running _ _ _ _)

theorem Begins.running {job : Job} {r : Snapshot} (begins : Begins net now s job r t) :
    t.running = none ∨ ∃ stage, t.running = some ⟨job, r, stage⟩ := by
  cases begins with
  | remote goes progress => exact progress.running rfl
  | waits => exact .inr ⟨_, rfl⟩
  | ends => exact .inl (conclude_running _ _ _ _)

theorem queue_act (action : Action) (now : Nat) (s : Checker) :
    (act net action now s).queue = s.queue ++ Moment.requested ⟨now, .act action, s⟩ := by
  cases action with
  | toggleEnabled =>
    exact (saves_saveSettings now _ s).frame.1.trans (List.append_nil _).symm
  | toggleRemote =>
    exact (saves_saveSettings now _ s).frame.1.trans (List.append_nil _).symm
  | putSettings settings =>
    refine Eq.trans ?_ (List.append_nil _).symm
    unfold act
    dsimp only
    split <;> rfl
  | check id => rfl
  | _ => exact (List.append_nil _).symm

theorem queue_fireTimer (now : Nat) (s : Checker) :
    (s.fireTimer now).queue = s.queue ++ Moment.requested ⟨now, .fireTimer, s⟩ := by
  unfold fireTimer Moment.requested
  split
  · rename_i timer stamp fired
    simp [fired]
  · rename_i timer fired
    simp [fired]

theorem queue_outside (m : Move) (nobody : Moment.job? ⟨now, m, s⟩ = none) :
    (m.apply net now s).queue = s.queue ++ Moment.requested ⟨now, m, s⟩ := by
  cases m with
  | act action => exact queue_act action now s
  | notice => exact (notices_notice now s).frame.1.trans (List.append_nil _).symm
  | fireTimer => exact queue_fireTimer now s
  | pollGateway => exact (keeps_pollGateway now s).queue.trans (List.append_nil _).symm
  | pollEngine => exact (keeps_pollEngine now s).queue.trans (List.append_nil _).symm
  | turn job => cases nobody

/-- Who leaves is the first, who comes is the last, and everybody else stays. -/
theorem served_apply (net : Network) (now : Nat) (m : Move) (ready : m.Ready s)
    (locked : Locked s owed) :
    s.waiting ++ Moment.requested ⟨now, m, s⟩ =
      Moment.ended net ⟨now, m, s⟩ ++ (m.apply net now s).waiting := by
  have after : Moment.after net ⟨now, m, s⟩ = m.apply net now s := rfl
  cases locked.does net now m ready with
  | outside same nobody silent =>
    simp only [Moment.ended, nobody, Option.toList_none, ite_self, List.nil_append, waiting,
      same.running, queue_outside m nobody, List.append_assoc]
  | goesOn running polls due waits progress =>
    have queue := (keeps_polls net now s polls).queue
    have belongs := job_polls now s polls
    have unasked : Moment.requested ⟨now, m, s⟩ = [] := by rcases polls with rfl | rfl <;> rfl
    rcases progress.running running with finished | ⟨stage, still⟩
    · simp [Moment.ended, after, finished, belongs, waiting, running, queue, unasked]
    · simp [Moment.ended, after, still, waiting, running, queue, unasked]
  | quits free first same quits =>
    rename_i job rest
    have queue := (keeps_start net now { s with queue := rest } job).queue
    have finished := same.running.trans free
    rw [apply_turn first] at after ⊢
    simp only [Moment.ended, after]
    generalize start net now { s with queue := rest } job = t at queue finished ⊢
    simp [Moment.job?, Moment.requested, finished, waiting, free, first, queue]
  | begins free first current reads begins =>
    rename_i job rest r
    have queue := (keeps_start net now { s with queue := rest } job).queue
    have running := begins.running
    rw [apply_turn first] at after ⊢
    simp only [Moment.ended, after]
    generalize start net now { s with queue := rest } job = t at queue running ⊢
    rcases running with finished | ⟨stage, still⟩
    · simp [Moment.job?, Moment.requested, finished, waiting, free, first, queue]
    · simp [Moment.requested, still, waiting, free, first, queue]

/-- Requests are stamped with the generation in which they were made. -/
structure Stamped (s : Checker) : Prop where
  past : ∀ job ∈ s.waiting, job.generation ≤ s.generation
  ordered : s.waiting.Pairwise (fun a b => a.generation ≤ b.generation)
  timer : ∀ time stamp, s.timer.pending = some (time, stamp) → stamp = s.generation

theorem generation_apply (m : Move) :
    (m.apply net now s).generation = s.generation + m.isShutdown.toNat := by
  cases m with
  | act action =>
    cases action with
    | toggleEnabled => exact (saves_saveSettings now _ s).frame.2.1
    | toggleRemote => exact (saves_saveSettings now _ s).frame.2.1
    | putSettings settings =>
      unfold Move.apply act
      dsimp only
      split <;> rfl
    | _ => rfl
  | notice => exact (notices_notice now s).frame.2.1
  | fireTimer =>
    unfold Move.apply fireTimer
    dsimp only
    split <;> rfl
  | pollGateway => exact (keeps_pollGateway now s).generation
  | pollEngine => exact (keeps_pollEngine now s).generation
  | turn job => exact (keeps_start net now { s with queue := s.queue.tail } job).generation

/-- The timer keeps its stamp, gets that of the present generation, or is empty. -/
theorem timer_apply (m : Move) (time stamp : Nat)
    (pending : (m.apply net now s).timer.pending = some (time, stamp)) :
    m.isShutdown = false ∧ (s.timer.pending = some (time, stamp) ∨ stamp = s.generation) := by
  have kept : ∀ t : Checker, t.timer = s.timer → t.timer.pending = some (time, stamp) →
      s.timer.pending = some (time, stamp) ∨ stamp = s.generation :=
    fun t same pending => .inl (same ▸ pending)
  have scheduled : ∀ delay, (s.timer.schedule now delay s.generation).pending =
      some (time, stamp) → s.timer.pending = some (time, stamp) ∨ stamp = s.generation := by
    intro delay pending
    cases Option.some.inj pending
    exact .inr rfl
  have saved : ∀ {settings} {t : Checker}, Saves now settings s t →
      t.timer.pending = some (time, stamp) →
      s.timer.pending = some (time, stamp) ∨ stamp = s.generation := by
    intro settings t saves pending
    cases saves with
    | refused => exact .inl pending
    | enabled => exact scheduled _ pending
    | disabled => cases pending
  have noticed : ∀ {t : Checker}, Notices now s t → t.timer.pending = some (time, stamp) →
      s.timer.pending = some (time, stamp) ∨ stamp = s.generation := by
    intro t notices pending
    cases notices with
    | triggers => exact scheduled _ pending
    | _ => exact .inl pending
  cases m with
  | act action =>
    cases action with
    | toggleEnabled => exact ⟨rfl, saved (saves_saveSettings now _ s) pending⟩
    | toggleRemote => exact ⟨rfl, saved (saves_saveSettings now _ s) pending⟩
    | trigger => exact ⟨rfl, scheduled _ pending⟩
    | shutdown => cases pending
    | putSettings settings =>
      refine ⟨rfl, ?_⟩
      unfold Move.apply act at pending
      dsimp only at pending
      split at pending <;> exact .inl pending
    | _ => exact ⟨rfl, .inl pending⟩
  | notice => exact ⟨rfl, noticed (notices_notice now s) pending⟩
  | fireTimer =>
    refine ⟨rfl, .inl ?_⟩
    unfold Move.apply fireTimer Timed.Debounce.fire at pending
    dsimp only at pending
    cases waiting : s.timer.pending with
    | none => simp [waiting] at pending
    | some entry =>
      by_cases finished : entry.1 ≤ now <;> simp [waiting, finished] at pending
      rw [pending]
  | pollGateway => exact ⟨rfl, kept _ (keeps_pollGateway now s).timer pending⟩
  | pollEngine => exact ⟨rfl, kept _ (keeps_pollEngine now s).timer pending⟩
  | turn job =>
    have keeps := keeps_start net now { s with queue := s.queue.tail } job
    exact ⟨rfl, kept _ keeps.timer pending⟩

theorem Stamped.requested (now : Nat) (m : Move) (stamped : Stamped s) :
    ∀ job ∈ Moment.requested ⟨now, m, s⟩, job.generation = s.generation := by
  intro job member
  cases m with
  | act action =>
    cases action with
    | check id =>
      cases List.mem_singleton.mp member
      rfl
    | _ => cases member
  | fireTimer =>
    cases waiting : s.timer.pending with
    | none => simp [Moment.requested, Timed.Debounce.fire, waiting] at member
    | some entry =>
      have stamp := stamped.timer entry.1 entry.2 waiting
      by_cases finished : entry.1 ≤ now
      · simp [Moment.requested, Timed.Debounce.fire, waiting, finished] at member
        rw [member, ← stamp]
      · simp [Moment.requested, Timed.Debounce.fire, waiting, finished] at member
  | _ => cases member

theorem stamped_apply (m : Move) (ready : m.Ready s) (locked : Locked s owed)
    (stamped : Stamped s) : Stamped (m.apply net now s) := by
  have served := served_apply net now m ready locked
  have fresh := stamped.requested now m
  have grows : s.generation ≤ (m.apply net now s).generation := by
    rw [generation_apply]
    exact Nat.le_add_right _ _
  have all : ∀ job ∈ s.waiting ++ Moment.requested ⟨now, m, s⟩, job.generation ≤ s.generation := by
    intro job member
    rcases List.mem_append.mp member with old | new
    · exact stamped.past job old
    · exact Nat.le_of_eq (fresh job new)
  have sorted : (s.waiting ++ Moment.requested ⟨now, m, s⟩).Pairwise
      (fun a b => a.generation ≤ b.generation) := by
    refine List.pairwise_append.mpr ⟨stamped.ordered, ?_, ?_⟩
    · exact List.pairwise_of_forall_mem_list (fun a ha b hb =>
        Nat.le_of_eq ((fresh a ha).trans (fresh b hb).symm))
    · intro a ha b hb
      rw [fresh b hb]
      exact stamped.past a ha
  rw [served] at all sorted
  refine ⟨?_, (List.pairwise_append.mp sorted).2.1, ?_⟩
  · intro job member
    exact Nat.le_trans (all job (List.mem_append_right _ member)) grows
  · intro time stamp pending
    obtain ⟨up, same⟩ := timer_apply m time stamp pending
    rw [generation_apply, up]
    rcases same with old | new
    · exact stamped.timer time stamp old
    · exact new

end moves

end BufferLint.Checker
