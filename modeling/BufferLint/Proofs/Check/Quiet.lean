import BufferLint.Proofs.Check.Lock

/-! After an instant nothing is left to do at it: what the services, the engine and the timer have
is for later, and who waits for a turn waits because a check is running. -/
namespace BufferLint.Checker

theorem gateway_foldl {α : Type} (f : Checker → α → Checker)
    (same : ∀ s a, (f s a).gateway = s.gateway) (l : List α) (s : Checker) :
    (l.foldl f s).gateway = s.gateway := by
  induction l generalizing s with
  | nil => rfl
  | cons a rest ih => exact (ih (f s a)).trans (same s a)

theorem gateway_pollEngine (now : Nat) (s : Checker) : (s.pollEngine now).gateway = s.gateway := by
  refine (gateway_foldl _ ?_ _ _).trans rfl
  intro s r
  split
  · split
    · exact conclude_gateway _ _ _ _
    · rfl
  · rfl

theorem gateway_onAnswer (now : Nat) (s : Checker)
    (result : Except ServiceError (List Diagnostic)) :
    (s.onAnswer now result).gateway = s.gateway := by
  unfold onAnswer
  split
  · split
    · split
      · exact conclude_gateway _ _ _ _
      · split
        · exact gateway_pollEngine now _
        · exact conclude_gateway _ _ _ _
    · rfl
  · rfl

theorem gateway_pollGateway (now : Nat) (s : Checker) :
    (s.pollGateway now).gateway = (s.gateway.settle now).1 := by
  refine (gateway_foldl (onGatewayEvent now) ?_ _ _).trans rfl
  intro s event
  cases event with
  | checked id result => exact gateway_onAnswer now s result
  | probed id alive => rfl
  | probedAll id alive => rfl

structure Still (now : Nat) (s : Checker) : Prop where
  gateway : ∀ row ∈ s.gateway.pending, now < row.1
  engine : ∀ call ∈ s.engine.calls, now < call.stage.ends

theorem pending_pollGateway (now : Nat) (s : Checker) :
    ∀ row ∈ (s.pollGateway now).gateway.pending, now < row.1 := by
  obtain ⟨availability, same⟩ := s.gateway.settle_eq now
  intro row member
  rw [gateway_pollGateway, same] at member
  exact of_decide_eq_true (List.mem_filter.mp member).2

theorem Locked.still_pollEngine {now : Nat} {s : Checker}
    {owed : Job → Snapshot → Outcome → Prop} (locked : Locked s owed)
    (gateway : ∀ row ∈ s.gateway.pending, now < row.1) : Still now (s.pollEngine now) := by
  refine ⟨by rwa [gateway_pollEngine], ?_⟩
  cases running : s.running with
  | none =>
    have nobody := (locked.free running).1
    rw [pollEngine_free now s nobody, nobody]
    simp
  | some check =>
    obtain ⟨out, _, waits⟩ := locked.held check running
    cases waits with
    | remote stage calls checks brings =>
      rw [pollEngine_free now s calls, calls]
      simp
    | inProcess stage calls checks brings =>
      rename_i opens
      have settled := Engine.settle_alone calls rfl rfl now
      by_cases due : opens ≤ now
      · rw [if_pos due] at settled
        have left : (s.pollEngine now).engine.calls = [] := by
          simp only [Checker.pollEngine, settled, List.foldl_cons, List.foldl_nil, running, stage,
            if_true, conclude_engine]
        rw [left]
        simp
      · rw [if_neg due] at settled
        have left : (s.pollEngine now).engine.calls = s.engine.calls := by
          simp only [Checker.pollEngine, settled, List.foldl_nil]
        rw [left, calls]
        simpa [CallStage.ends] using due

theorem still_progress {now : Nat} {s t : Checker} {check : RunningCheck} {out : Outcome}
    (progress : Progress now s check out t) (nobody : s.engine.calls = [])
    (gateway : ∀ row ∈ t.gateway.pending, now < row.1) : Still now t := by
  refine ⟨gateway, ?_⟩
  cases progress with
  | still heard checks probes => simp [tell, nobody]
  | fallsBack asked due heard gate positive sound checks calls brings before after =>
    simp [tell, calls, CallStage.ends, positive]
  | ends heard gate sound checks calls before after => simp [tell, calls]

theorem Begins.still {net : Network} {now : Nat} {s t : Checker} {job : Job} {r : Snapshot}
    (begins : Begins net now s job r t) (nobody : s.engine.calls = []) (still : Still now s)
    (pending : s.goesRemote r = true → ∀ row ∈ t.gateway.pending, now < row.1) : Still now t := by
  cases begins with
  | remote goes progress => exact still_progress progress nobody (pending goes)
  | waits stays gate positive sound calls =>
    exact ⟨still.gateway, by simp [calls, CallStage.ends, positive]⟩
  | ends stays gate sound calls =>
    exact ⟨by simpa using still.gateway, by simp [calls]⟩

theorem Locked.still_start {now : Nat} {s : Checker} {owed : Job → Snapshot → Outcome → Prop}
    (net : Network) (job : Job) (locked : Locked s owed) (free : s.running = none)
    (still : Still now s) : Still now (Checker.start net now s job) := by
  obtain ⟨calls, checks⟩ := locked.free free
  rcases start_cases net now s job with quits | ⟨_, r, reads, begins⟩
  · have same := quits.sameInside free
    have gateway := quits.gateway
    exact ⟨by rw [gateway]; exact still.gateway, by rw [same.engine]; exact still.engine⟩
  · rw [begins]
    refine (begins_beginCheck net now job r calls checks locked.sound).still calls still ?_
    intro goes
    have sent : s.beginCheck net now job r = (s.sending net now job r).pollGateway now :=
      if_pos goes
    rw [sent]
    exact pending_pollGateway now _

theorem still_serve (net : Network) (now : Nat) (jobs : List Job) (s : Checker)
    (locked : ∃ owed, Locked s owed) (free : s.running = none) (still : Still now s) :
    Still now (serve net now jobs s) ∧ (serve net now jobs s).timer = s.timer ∧
      ((serve net now jobs s).running = none → (serve net now jobs s).queue = []) := by
  induction jobs generalizing s with
  | nil => exact ⟨⟨still.gateway, still.engine⟩, rfl, fun _ => rfl⟩
  | cons job rest ih =>
    obtain ⟨owed, locked⟩ := locked
    have popped : Locked { s with queue := rest } owed := locked.congr ⟨rfl, rfl, rfl⟩
    have after := popped.still_start net job free ⟨still.gateway, still.engine⟩
    have keeps := keeps_start net now { s with queue := rest } job
    have begun := popped.start net now job free
    simp only [serve]
    generalize start net now { s with queue := rest } job = t at after keeps begun ⊢
    cases busy : t.running with
    | some check =>
      refine ⟨after, keeps.timer, ?_⟩
      intro free
      cases busy.symm.trans free
    | none =>
      obtain ⟨still, timer, empty⟩ := ih t ⟨_, begun⟩ busy after
      exact ⟨still, timer.trans keeps.timer, empty⟩

theorem notice_gateway (now : Nat) (s : Checker) : (s.notice now).gateway = s.gateway :=
  (aside_notice now s).gateway

theorem fireTimer_gateway (now : Nat) (s : Checker) :
    (s.fireTimer now).gateway = s.gateway := (aside_fireTimer now s).gateway

theorem fireTimer_timer (now : Nat) (s : Checker) (time : Nat)
    (pending : (s.fireTimer now).timer.nextDue = some time) : now < time := by
  unfold fireTimer Timed.Debounce.fire at pending
  cases waiting : s.timer.pending with
  | none => simp [waiting, Timed.Debounce.nextDue] at pending
  | some entry =>
    obtain ⟨due, stamp⟩ := entry
    by_cases finished : due ≤ now
    · simp [waiting, finished, Timed.Debounce.nextDue] at pending
    · simp [waiting, finished, Timed.Debounce.nextDue] at pending
      omega

/-- What is due is due at the engine, at the gateway, at the timer or in the queue. -/
theorem nextDue_mem {s : Checker} {time : Nat} (next : s.nextDue = some time) :
    (∃ call ∈ s.engine.calls, call.stage.ends = time) ∨ (∃ row ∈ s.gateway.pending, row.1 = time) ∨
      s.timer.nextDue = some time ∨ (s.running = none ∧ s.queue ≠ []) := by
  have member := (List.min?_eq_some_iff.mp next).1
  simp only [List.flatMap_cons, List.flatMap_nil, List.append_nil, List.mem_append,
    Option.mem_toList] at member
  rcases member with engine | gateway | timer | turn
  · left
    simpa using (List.min?_eq_some_iff.mp engine).1
  · right; left
    simpa using (List.min?_eq_some_iff.mp gateway).1
  · exact .inr (.inr (.inl timer))
  · right; right; right
    unfold nextTurn at turn
    split at turn
    · rename_i waiting
      simpa using waiting
    · cases turn

theorem Locked.quiet {s : Checker} {owed : Job → Snapshot → Outcome → Prop} (net : Network)
    (now : Nat) (locked : Locked s owed) : Quiet now (advance net now s) := by
  have heard := locked.pollGateway now
  have found := heard.pollEngine now
  have seen := found.congr (sameInside_notice now _)
  have fired := seen.congr (sameInside_fireTimer now _)
  have still := heard.still_pollEngine (pending_pollGateway now s)
  have timer :=
    fireTimer_timer now (notice now (Checker.pollEngine now (Checker.pollGateway now s)))
  have still' : Still now (fireTimer now (notice now
      (Checker.pollEngine now (Checker.pollGateway now s)))) := by
    refine ⟨?_, ?_⟩
    · rw [fireTimer_gateway, notice_gateway]
      exact still.gateway
    · rw [(sameInside_fireTimer now _).engine, (sameInside_notice now _).engine]
      exact still.engine
  simp only [advance]
  generalize fireTimer now (notice now (Checker.pollEngine now (Checker.pollGateway now s))) = t
    at fired timer still' ⊢
  have settled : ∀ v : Checker, Still now v → v.timer = t.timer →
      (v.running = none → v.queue = []) → Quiet now v := by
    intro v still same empty time next
    rcases nextDue_mem next with ⟨call, member, ends⟩ | ⟨row, member, due⟩ | waiting | ⟨free, queue⟩
    · exact ends ▸ still.engine call member
    · exact due ▸ still.gateway row member
    · rw [same] at waiting
      exact timer time waiting
    · exact absurd (empty free) queue
  cases busy : t.running with
  | some check =>
    refine settled t still' rfl ?_
    intro free
    cases busy.symm.trans free
  | none =>
    obtain ⟨still, same, empty⟩ := still_serve net now t.queue t ⟨owed, fired⟩ busy still'
    exact settled _ still same empty

end BufferLint.Checker
