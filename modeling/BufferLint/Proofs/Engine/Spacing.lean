import BufferLint.Proofs.Engine.Answers

/-! How often an engine scans. A scan is made only when a gate elapses that no newer call has
disturbed, so a gate lies between two scans; and while the last scan is fresh in the cache, no call
for the same thing comes to a gate at all. -/
namespace BufferLint.Engine

def scanObserver : Timed.Machine Engine (String × FileType) where
  settle now e := ((settle now e).1, (scanning now e).map (fun call => (call.content, call.type)))
  nextDue := nextDue

/-- The scans of a run with their times, newest first. -/
def scansOf (gate : Nat) (steps : List (Timed.Step Action)) : List (Nat × String × FileType) :=
  (Timed.Run.play scanObserver act steps { state := { gate } }).log

/-- The calls that the cache cannot answer when they are made, in order. -/
def missesOf (r : Run) : List (Timed.Step Action) → List Call
  | [] => []
  | .act (.lint id content type) :: rest =>
    let behind := missesOf (step r (.act (.lint id content type))) rest
    if (r.state.cache.get? content type r.now).isNone then ⟨id, r.now, content, type⟩ :: behind
    else behind
  | .act .clearCache :: rest => missesOf (step r (.act .clearCache)) rest
  | .sleep ms :: rest => missesOf (step r (.sleep ms)) rest

namespace History

variable {h : History} {now : Nat}

def performed (h : History) (s : Call) : Nat × String × FileType := (h.opens s, s.content, s.type)

def scansBefore (h : History) (n : Nat) : List (Nat × String × FileType) :=
  (h.scans.filter (fun s => h.opens s < n)).map h.performed

theorem scansBefore_congr {n m : Nat}
    (same : ∀ c ∈ h.misses, h.opens c < n ↔ h.opens c < m) :
    h.scansBefore n = h.scansBefore m := by
  unfold scansBefore
  rw [List.filter_congr]
  intro s scan
  simp only [decide_eq_decide]
  exact same s (mem_scans.mp scan).1

theorem opens_le_of_newer {s c : Call} (scan : s ∈ h.scans) (missed : c ∈ h.misses)
    (newer : s.time < c.time) : h.opens s ≤ c.time := by
  have alone := undisturbed_iff.mp (mem_scans.mp scan).2 c missed
  omega

theorem Ordered.sorted_scans (o : h.Ordered now) :
    h.scans.Pairwise (fun c d => d.time < c.time) := o.misses.filter _

/-- Newest first, the scans of an instant come before all earlier ones. -/
theorem Ordered.scansBefore_succ (o : h.Ordered now) (n : Nat) :
    h.scansBefore (n + 1) =
      (h.scans.filter (fun s => h.opens s = n)).map h.performed ++ h.scansBefore n := by
  have sorted := o.sorted_scans
  unfold scansBefore
  rw [← List.map_append]
  congr 1
  generalize h.scans = scans at sorted
  induction scans with
  | nil => rfl
  | cons s rest ih =>
    obtain ⟨older, sorted⟩ := List.pairwise_cons.mp sorted
    rcases Nat.lt_trichotomy (h.opens s) n with before | now | after
    · -- whatever comes behind is older still
      have none : rest.filter (fun d => decide (h.opens d = n)) = [] := by
        apply List.filter_eq_nil_iff.mpr
        intro d member
        have earlier := older d member
        rw [decide_eq_true_eq]
        simp only [opens] at before ⊢
        omega
      rw [List.filter_cons_of_pos (by simpa using Nat.lt_succ_of_lt before),
        List.filter_cons_of_neg (by simpa using Nat.ne_of_lt before),
        List.filter_cons_of_pos (by simpa using before), ih sorted, none]
      rfl
    · rw [List.filter_cons_of_pos (by simp [now]), List.filter_cons_of_pos (by simpa using now),
        List.filter_cons_of_neg (by simp [now]), ih sorted]
      rfl
    · rw [List.filter_cons_of_neg (by simp; omega),
        List.filter_cons_of_neg (by simpa using Nat.ne_of_gt after),
        List.filter_cons_of_neg (by simp; omega), ih sorted]

theorem scansBefore_of_miss {c : Call} {n : Nat} (o : h.Ordered now) (future : now ≤ c.time)
    (soon : n ≤ c.time + 1) (closed : n ≤ h.opens c) :
    ({ h with calls := c :: h.calls, misses := c :: h.misses } : History).scansBefore n =
      h.scansBefore n := by
  change ((((c :: h.misses).filter ({ h with misses := c :: h.misses } : History).undisturbed).filter
    (fun s => decide (h.opens s < n))).map h.performed) = _
  unfold scansBefore
  rw [History.scans, List.filter_filter, List.filter_filter,
    List.filter_cons_of_neg (by simp [Nat.not_lt.mpr closed])]
  congr 1
  apply List.filter_congr
  intro d missed
  have earlier := Nat.lt_of_lt_of_le (o.past d (o.mem_calls missed)) future
  rw [undisturbed_of_miss c d earlier]
  by_cases made : h.opens d < n
  · have open_ : h.opens d ≤ c.time := by omega
    simp [open_]
  · simp [made]

/-- All scans that are due up to now are made and seen. -/
structure Watched (h : History) (q : Timed.Run Engine (String × FileType)) : Prop where
  tracks : h.Tracks (q.now + 1) q.state
  log : q.log = h.scansBefore (q.now + 1)

variable {q : Timed.Run Engine (String × FileType)}

theorem Tracks.watched (o : h.Ordered now) (t : h.Tracks q.now q.state) (b : h.Before q.now)
    (log : q.log = h.scansBefore q.now) : h.Watched (q.settle scanObserver) := by
  refine ⟨(t.settle o b).1, ?_⟩
  rw [Timed.Run.settle_log, Timed.Run.settle_now, o.scansBefore_succ, log]
  congr 1
  simp only [scanObserver, scanning_eq t b, List.map_reverse, List.reverse_reverse, List.map_map]
  apply List.map_congr_left
  intro s member
  have opening := of_decide_eq_true (List.mem_filter.mp member).2
  simp only [Function.comp_apply, performed, waitingAs, opening]

theorem Watched.elapse {past : Nat} (o : h.Ordered past) (done : past ≤ q.now + 1)
    (w : h.Watched q) (ms : Nat) : h.Watched (q.elapse scanObserver ms) := by
  have both := Timed.Run.elapse_invariant scanObserver
    (fun q => past ≤ q.now + 1 ∧ h.Watched q) ?idle ?due ms q ⟨done, w⟩
  · exact both.2
  case idle =>
    rintro q k ⟨done, w⟩ early
    have quiet := w.tracks.quiet (m := q.now + k + 1) o (by omega) (w.tracks.ahead o k early)
    refine ⟨by rw [Timed.Run.wait_now]; omega, w.tracks.congr quiet, ?_⟩
    rw [Timed.Run.wait_log, w.log]
    exact scansBefore_congr (fun c missed => (quiet c missed).1)
  case due =>
    rintro q time ⟨done, w⟩ next
    obtain ⟨⟨call, member, ends⟩, least⟩ := nextDue_spec next
    have later : q.now < time := ends ▸ (w.tracks.idle o call member).1
    have quiet := w.tracks.quiet o later least
    have soon : (q.wait (q.waitFor time)).now = time := q.now_add_waitFor time later
    refine ⟨by rw [Timed.Run.settle_now, soon]; omega, Tracks.watched o ?_ ⟨?_, ?_⟩ ?_⟩
    · rw [soon]
      exact w.tracks.congr quiet
    · intro c missed
      have := o.past c (o.mem_calls missed)
      omega
    · intro cleared member
      have := o.cleared cleared member
      omega
    · rw [soon, Timed.Run.wait_log, w.log]
      exact scansBefore_congr (fun c missed => (quiet c missed).1)

theorem watched_idle {action : Nat → Engine → Engine}
    (tracks : h.Tracks (q.now + 1) (q.perform scanObserver action).state)
    (idle : scanning q.now (action q.now q.state) = []) (log : q.log = h.scansBefore (q.now + 1)) :
    h.Watched (q.perform scanObserver action) := by
  refine ⟨tracks, ?_⟩
  rw [Timed.Run.perform, Timed.Run.settle_log]
  simp only [scanObserver, idle, List.map_nil, List.reverse_nil, List.nil_append]
  exact log

theorem Watched.settled (w : h.Watched q) :
    h.Settled ⟨q.now, q.state, h.reports (q.now + 1)⟩ := ⟨w.tracks, .refl _⟩

theorem Watched.clear (o : h.Ordered q.now) (w : h.Watched q) :
    Watched { h with clears := q.now :: h.clears } (q.perform scanObserver (act .clearCache)) := by
  have cleared := w.tracks.clear o (Nat.le_refl _)
  have idle := cleared.idle (o.extend_clear q.now (Nat.le_refl _))
  exact watched_idle (w.settled.clear o).tracks
    (scanning_eq_nil _ _ (fun call member => (idle call member).2)) w.log

theorem Watched.hit {c : Call} (o : h.Ordered q.now) (w : h.Watched q) (now : c.time = q.now)
    (hit : h.isHit c = true) :
    Watched { h with calls := c :: h.calls }
      (q.perform scanObserver (act (.lint c.id c.content c.type))) := by
  refine watched_idle (w.settled.hit o now hit).tracks ?_ w.log
  have idle := w.tracks.idle o
  have tracks := w.tracks
  rw [← now] at tracks o
  have found := tracks.get o (Nat.le_refl _)
  rw [if_pos hit, now] at found
  have waiting := scanning_eq_nil q.now q.state (fun call member => (idle call member).2)
  simp only [act, Engine.lint, found]
  simp only [scanning, List.filter_append] at waiting ⊢
  rw [List.append_eq_nil_iff]
  exact ⟨waiting, rfl⟩

theorem Watched.miss {c : Call} (o : h.Ordered q.now) (w : h.Watched q) (now : c.time = q.now)
    (miss : h.isHit c = false) :
    Watched { h with calls := c :: h.calls, misses := c :: h.misses }
      (q.perform scanObserver (act (.lint c.id c.content c.type))) := by
  have settled := w.settled.miss o now miss
  obtain ⟨now', state, log⟩ := q
  change c.time = now' at now
  subst now
  have o' := o.extend_miss c (Nat.le_refl _) miss
  have unknown : state.cache.get? c.content c.type c.time = none := by
    rw [w.tracks.get o (Nat.le_refl _), miss]
    rfl
  by_cases gated : 0 < h.gate
  · have closed : c.time + 1 ≤ h.opens c := by
      simp only [opens]
      omega
    have idle := (w.tracks.miss o (Nat.le_refl _) (Nat.le_refl _) closed unknown).idle o'
    refine watched_idle settled.tracks
      (scanning_eq_nil _ _ (fun call member => (idle call member).2)) ?_
    rw [scansBefore_of_miss o (Nat.le_refl _) (Nat.le_refl _) closed]
    exact w.log
  · have ungated : h.gate = 0 := by omega
    have closed : c.time ≤ h.opens c := Nat.le_add_right _ _
    have before := (w.tracks.ungated o ungated).1
    refine Tracks.watched (q := ⟨c.time, state.lint c.time c.id c.content c.type, log⟩) o'
      (before.miss o (Nat.le_refl _) (Nat.le_succ _) closed unknown) ⟨?_, o.cleared⟩ ?_
    · intro d missed
      exact ⟨Nat.le_of_lt_succ (o'.past d (o'.mem_calls missed)), fun _ => ungated⟩
    · rw [scansBefore_of_miss o (Nat.le_refl _) (Nat.le_succ _) closed,
        scansBefore_congr (m := c.time + 1)]
      · exact w.log
      · intro d missed
        have earlier := o.past d (o.mem_calls missed)
        change c.time > d.time at earlier
        simp only [opens, ungated]
        omega

theorem Watched.step (o : h.Ordered q.now) (w : h.Watched q) (step : Timed.Step Action) :
    ((Timed.Run.timeline q.now [step]).foldl extend h).Watched (q.step scanObserver act step) := by
  cases step with
  | sleep ms => exact w.elapse o (Nat.le_succ _) ms
  | act action =>
    have acted : ∃ h', h' = (Timed.Run.timeline q.now [.act action]).foldl extend h ∧
        h'.Ordered (q.now + 1) ∧ h'.Watched (q.perform scanObserver (act action)) := by
      refine ⟨_, rfl, ?_⟩
      cases action with
      | clearCache => exact ⟨o.extend_clear q.now (Nat.le_refl _), w.clear o⟩
      | lint id content type =>
        simp only [Timed.Run.timeline, List.foldl_cons, List.foldl_nil, extend]
        cases hit : h.isHit ⟨id, q.now, content, type⟩ with
        | true => exact ⟨o.extend_hit _ (Nat.le_refl _) hit, w.hit o rfl hit⟩
        | false => exact ⟨o.extend_miss _ (Nat.le_refl _) hit, w.miss o rfl hit⟩
    obtain ⟨h', same, o', w'⟩ := acted
    rw [← same]
    exact w'.elapse (q := q.perform scanObserver (act action)) o' (Nat.le_refl _) 1

theorem Watched.run (o : h.Ordered q.now) (w : h.Watched q) (steps : List (Timed.Step Action)) :
    ((Timed.Run.timeline q.now steps).foldl extend h).Watched (q.play scanObserver act steps) := by
  induction steps generalizing q h with
  | nil => exact w
  | cons step rest ih =>
    have ordered := (w.settled.step o step).1
    rw [Engine.step, Timed.Run.step_now] at ordered
    rw [Timed.Run.timeline_cons, List.foldl_append]
    have more := ih (q := q.step scanObserver act step) (by rwa [Timed.Run.step_now])
      (w.step o step)
    rwa [Timed.Run.step_now] at more

theorem scansOf_eq (gate : Nat) (steps : List (Timed.Step Action)) :
    scansOf gate steps = (ofSteps gate steps).scansBefore
      ((run steps { state := { gate } }).now + 1) := by
  have ordered : Ordered { gate } 0 := ⟨.nil, by simp, by simp, rfl⟩
  have watched : Watched { gate } { state := { gate } } :=
    ⟨⟨rfl, rfl, rfl, rfl, rfl, rfl, rfl⟩, rfl⟩
  have log := (watched.run ordered steps).log
  rw [Timed.Run.play_now] at log
  rw [Engine.run, Timed.Run.play_now]
  exact log

theorem Settled.missesOf {r : Run} (o : h.Ordered r.now) (s : h.Settled r)
    (steps : List (Timed.Step Action)) :
    ((Timed.Run.timeline r.now steps).foldl extend h).misses =
      (Engine.missesOf r steps).reverse ++ h.misses := by
  induction steps generalizing r h with
  | nil => rfl
  | cons step rest ih =>
    obtain ⟨ordered, settled⟩ := s.step o step
    have more := ih ordered settled
    rw [Engine.step, Timed.Run.step_now] at more
    rw [Timed.Run.timeline_cons, List.foldl_append, more]
    cases step with
    | sleep ms => rfl
    | act action =>
      cases action with
      | clearCache => rfl
      | lint id content type =>
        have found := s.tracks.get (c := ⟨id, r.now, content, type⟩) o (Nat.le_refl _)
        simp only [Timed.Run.timeline, List.foldl_cons, List.foldl_nil, extend, Engine.missesOf]
        dsimp only at found
        rw [found]
        cases hit : h.isHit ⟨id, r.now, content, type⟩ with
        | true => rfl
        | false => simp [Engine.step]

theorem Ordered.scans_apart (o : h.Ordered now) :
    h.scans.Pairwise (fun later earlier => h.opens earlier + h.gate ≤ h.opens later) := by
  apply o.sorted_scans.imp_of_mem
  intro later earlier scan before newer
  exact Nat.add_le_add_right (opens_le_of_newer before (mem_scans.mp scan).1 newer) h.gate

/-- The last scan before a call is found for it while it is fresh, if it was for the same thing. -/
theorem Ordered.stale_of_miss {s c : Call} (o : h.Ordered now) (scan : s ∈ h.scans)
    (missed : c ∈ h.misses) (newer : s.time < c.time)
    (last : ∀ d ∈ h.scans, d.time < c.time → d = s ∨ d.time < s.time) (same : s.asksSame c = true)
    (kept : ∀ time ∈ h.clears, time < h.opens s ∨ c.time ≤ time) :
    h.opens s + 1000 ≤ c.time := by
  have made := opens_le_of_newer scan missed newer
  have found : h.lastScan c.time = some s := by
    refine (find_scans o.misses _ s).mpr ⟨scan, by simp [newer, made], ?_⟩
    intro d other before
    simp only [Bool.and_eq_true, decide_eq_true_eq] at before
    exact last d other before.1
  have miss := o.not_hit missed
  have clears : h.clears.all (fun time => decide (time < h.opens s) || decide (c.time ≤ time)) =
      true := by simpa [List.all_eq_true] using kept
  simpa [isHit, found, same, clears] using miss

theorem Ordered.same_scans_apart {n : Nat} {newer older : List (Nat × String × FileType)}
    {later earlier : Nat × String × FileType} (o : h.Ordered now)
    (split : h.scansBefore n = newer ++ later :: earlier :: older) (same : later.2 = earlier.2)
    (kept : ∀ time ∈ h.clears, time < earlier.1 ∨ later.1 ≤ time) :
    earlier.1 + h.gate + 1000 ≤ later.1 := by
  obtain ⟨front, _, parts, _, fromLater⟩ := List.map_eq_append_iff.mp split
  obtain ⟨c, _, rfl, rfl, fromEarlier⟩ := List.map_eq_cons_iff.mp fromLater
  obtain ⟨s, tail, rfl, rfl, _⟩ := List.map_eq_cons_iff.mp fromEarlier
  have sorted := o.sorted_scans.filter (fun s => h.opens s < n)
  rw [parts] at sorted
  obtain ⟨_, inner, across⟩ := List.pairwise_append.mp sorted
  obtain ⟨behind, tailSorted⟩ := List.pairwise_cons.mp inner
  have made : ∀ d ∈ front ++ c :: s :: tail, d ∈ h.scans ∧ h.opens d < n := by
    intro d member
    rw [← parts] at member
    simpa using List.mem_filter.mp member
  have scan := made c (by simp)
  have before := made s (by simp)
  have opening : h.opens c = c.time + h.gate := rfl
  have fresh : h.opens s + 1000 ≤ c.time := by
    apply o.stale_of_miss before.1 (mem_scans.mp scan.1).1 (behind s (by simp))
    · -- the scans before `c` come behind it in the list, and `s` is the first of them
      intro d other earlier
      have soon : h.opens d < n := Nat.lt_trans (Nat.add_lt_add_right earlier h.gate) scan.2
      have member : d ∈ front ++ c :: s :: tail := by
        rw [← parts]
        exact List.mem_filter.mpr ⟨other, decide_eq_true soon⟩
      simp only [List.mem_append, List.mem_cons] at member
      rcases member with first | rfl | rfl | last
      · have := across d first c (by simp)
        omega
      · omega
      · exact .inl rfl
      · exact .inr ((List.pairwise_cons.mp tailSorted).1 d last)
    · simp only [performed, Prod.mk.injEq] at same
      simp [Call.asksSame, same]
    · intro time cleared
      have := kept time cleared
      simp only [performed] at this
      omega
  simp only [performed]
  omega

theorem cleared_in_timeline {time : Nat} (events : List (Nat × Action))
    (cleared : time ∈ (events.foldl extend h).clears) :
    (time, .clearCache) ∈ events ∨ time ∈ h.clears := by
  induction events generalizing h with
  | nil => exact .inr cleared
  | cons event rest ih =>
    rcases ih cleared with later | known
    · exact .inl (List.mem_cons_of_mem _ later)
    · obtain ⟨t, _ | _⟩ := event
      · exact .inr known
      · rcases List.mem_cons.mp known with rfl | before
        · exact .inl List.mem_cons_self
        · exact .inr before

end History

/-- Scans keep their distance, and each of them stands for a call that the cache could not answer
and that no newer one disturbed at its gate. -/
theorem scans_keep_their_distance (gate : Nat) (steps : List (Timed.Step Action)) :
    let r := run steps { state := { gate } }
    let scans := scansOf gate steps
    let misses := missesOf { state := { gate } } steps
    r.state.scans = scans.length ∧
    r.state.completed.map (fun s => (s.content, s.type)) = scans.head?.map Prod.snd ∧
    scans.Pairwise (fun later earlier => earlier.1 + gate ≤ later.1) ∧
    (∀ newer later earlier older, scans = newer ++ later :: earlier :: older →
      later.2 = earlier.2 →
      (∀ time, (time, .clearCache) ∈ Timed.Run.timeline 0 steps →
        time < earlier.1 ∨ later.1 ≤ time) →
      earlier.1 + gate + 1000 ≤ later.1) ∧
    r.state.scans = misses.countP (fun c => c.time + gate ≤ r.now &&
      misses.all (fun d => d.time ≤ c.time || c.time + gate ≤ d.time)) := by
  intro r scans misses
  obtain ⟨o, s⟩ := History.settled_ofSteps gate steps
  have sameGate : (History.ofSteps gate steps).gate = gate :=
    (History.calls_foldl_extend (h := { gate }) (Timed.Run.timeline 0 steps)).1
  have seen : scans = (History.ofSteps gate steps).scansBefore (r.now + 1) :=
    History.scansOf_eq gate steps
  have missed : (History.ofSteps gate steps).misses = misses.reverse := by
    have settled : History.Settled { gate } { state := { gate } } :=
      ⟨⟨rfl, rfl, rfl, rfl, rfl, rfl, rfl⟩, .refl _⟩
    exact (settled.missesOf ⟨.nil, by simp, by simp, rfl⟩ steps).trans (List.append_nil _)
  have counted : r.state.scans = (History.ofSteps gate steps).scans.countP
      (fun s => (History.ofSteps gate steps).opens s < r.now + 1) := s.tracks.scans
  refine ⟨?_, ?_, ?_, ?_, ?_⟩
  · rw [seen, History.scansBefore, List.length_map, ← List.countP_eq_length_filter]
    exact counted
  · rw [seen, History.scansBefore, List.head?_map, List.head?_filter, s.tracks.completed,
      Option.map_map, Option.map_map]
    rfl
  · rw [seen, History.scansBefore, List.pairwise_map]
    have apart := o.scans_apart
    rw [sameGate] at apart
    exact apart.filter _
  · intro newer later earlier older split same kept
    rw [seen] at split
    rw [← sameGate]
    apply o.same_scans_apart split same
    intro time cleared
    rcases History.cleared_in_timeline _ cleared with clear | before
    · exact kept time clear
    · cases before
  · rw [counted, History.scans, missed, List.countP_filter, List.countP_reverse]
    apply List.countP_congr
    intro c _
    simp only [Nat.lt_succ_iff]
    simp [History.undisturbed, History.opens, sameGate, missed]

end BufferLint.Engine
