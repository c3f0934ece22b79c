import BufferLint.Proofs.Engine.Tracking
import Mathlib.Data.List.Nodup

/-! The answers of a run are the answers of its history: each call gets exactly one, at the time and
with the findings that the history says. -/
namespace BufferLint.Engine

namespace History

variable {h : History} {now : Nat} {e : Engine}

theorem Ordered.mono {later : Nat} (o : h.Ordered now) (le : now ≤ later) : h.Ordered later :=
  ⟨o.calls, fun c called => Nat.lt_of_lt_of_le (o.past c called) le,
    fun time cleared => Nat.lt_of_lt_of_le (o.cleared time cleared) le, o.missed⟩

theorem Tracks.get {c : Call} (o : h.Ordered now) (future : now ≤ c.time)
    (t : h.Tracks (c.time + 1) e) :
    e.cache.get? c.content c.type c.time = if h.isHit c then some c.findings else none := by
  have last : h.lastScan c.time = h.scanBefore (c.time + 1) := by
    apply List.find?_congr
    intro s scan
    have earlier := Nat.lt_of_lt_of_le (o.past s (o.mem_calls (mem_scans.mp scan).1)) future
    rw [Bool.eq_iff_iff]
    simp only [Bool.and_eq_true, decide_eq_true_eq]
    omega
  have cleared : ∀ s : Call, h.clears.all (fun time => time < h.opens s || c.time ≤ time) =
      h.clears.all (fun time => time < h.opens s) := by
    intro s
    rw [Bool.eq_iff_iff]
    simp only [List.all_eq_true, Bool.or_eq_true, decide_eq_true_eq]
    constructor
    · intro all time member
      have past := o.cleared time member
      have := all time member
      omega
    · exact fun all time member => .inl (all time member)
  simp only [Cache.get?, t.slot, cached, isHit, last, cleared]
  cases found : h.scanBefore (c.time + 1) with
  | none => rfl
  | some s =>
    have made : h.opens s < c.time + 1 :=
      of_decide_eq_true ((find_scans o.misses _ s).mp found).2.1
    have fresh : c.time - h.opens s < 1000 ↔ c.time < h.opens s + 1000 := by omega
    by_cases kept : h.clears.all (fun time => time < h.opens s) = true
    · by_cases same : s.type = c.type ∧ s.content = c.content
      · simp [Option.filter, kept, cachedAs, Cache.isFresh, t.life, fresh, Call.asksSame,
          Call.findings, same]
      · have other : s.asksSame c = false := by simpa [Call.asksSame] using same
        have apart : ¬ ((e.cache.isFresh (h.cachedAs s) c.time = true ∧ s.type = c.type) ∧
            s.content = c.content) := fun all => same ⟨all.1.2, all.2⟩
        simpa [Option.filter, kept, other, cachedAs] using apart
    · simp [Option.filter, kept]

theorem Tracks.hit {c : Call} (o : h.Ordered now) (future : now ≤ c.time)
    (t : h.Tracks (c.time + 1) e) (hit : h.isHit c = true) :
    Engine.settle c.time (e.lint c.time c.id c.content c.type) = (e, [⟨c.id, c.findings⟩]) := by
  have answered := t.get o future
  rw [if_pos hit] at answered
  have idle := t.idle o
  simp only [Engine.lint, answered]
  exact settle_answered c.time e (fun call member => (idle call member).2) _ c.findings rfl

theorem answer_of_clear {time : Nat} {c : Call} (seen : c.time ≤ time) :
    ({ h with clears := time :: h.clears } : History).answer c = h.answer c := by
  simp only [answer, isHit_of_clear time c seen]
  rfl

theorem Tracks.clear {time : Nat} (o : h.Ordered now) (future : now ≤ time)
    (t : h.Tracks (time + 1) e) :
    Tracks { h with clears := time :: h.clears } (time + 1) e.clearCache := by
  refine ⟨t.gate, t.life, t.latest, ?_, t.completed, ?_, t.scans⟩
  · refine t.calls.trans ?_
    apply List.filterMap_congr
    intro c hc
    have missed := List.mem_reverse.mp hc
    have earlier := Nat.lt_of_lt_of_le (o.past c (o.mem_calls missed)) future
    simp only [stage, answer_of_clear (Nat.le_of_lt earlier)]
    rfl
  · change none = _
    simp only [cached]
    cases found : ({ h with clears := time :: h.clears } : History).scanBefore (time + 1) with
    | none => rfl
    | some s =>
      have made : h.opens s < time + 1 :=
        of_decide_eq_true ((find_scans o.misses _ s).mp found).2.1
      have cleared : (time :: h.clears).all (fun u => u < h.opens s) = false := by
        simp [Nat.not_lt.mpr (Nat.le_of_lt_succ made)]
      change none = Option.map _
        (Option.filter (fun s => (time :: h.clears).all (fun u => u < h.opens s)) (some s))
      simp [Option.filter, cleared]

theorem waiting_of_miss {c d : Call} {n : Nat} (o : h.Ordered now) (future : now ≤ c.time)
    (soon : n ≤ c.time + 1) (missed : d ∈ h.misses) :
    ({ h with misses := c :: h.misses } : History).stage n d = h.stage n d ∧
      ({ h with misses := c :: h.misses } : History).ticket d = h.ticket d := by
  have earlier := Nat.lt_of_lt_of_le (o.past d (o.mem_calls missed)) future
  have sameOpens : ({ h with misses := c :: h.misses } : History).opens d = h.opens d := rfl
  constructor
  · have answered : (({ h with misses := c :: h.misses } : History).answer d).1 < n ↔
        (h.answer d).1 < n := by
      rcases answer_of_miss o c future d (o.mem_calls missed) with same | later
      · rw [same]
      · omega
    simp only [stage, answered, sameOpens]
  · simp [ticket, Nat.not_le.mpr earlier]

theorem Tracks.miss {c : Call} {n : Nat} (o : h.Ordered now) (future : now ≤ c.time)
    (soon : n ≤ c.time + 1) (closed : n ≤ h.opens c) (t : h.Tracks n e)
    (unknown : e.cache.get? c.content c.type c.time = none) :
    Tracks { h with calls := c :: h.calls, misses := c :: h.misses } n
      (e.lint c.time c.id c.content c.type) := by
  have behind : ∀ d ∈ h.misses, d.time < c.time :=
    fun d missed => Nat.lt_of_lt_of_le (o.past d (o.mem_calls missed)) future
  have kept := fun d missed => waiting_of_miss (d := d) o future soon missed
  have scansBefore : ∀ d ∈ h.misses,
      (({ h with misses := c :: h.misses } : History).undisturbed d && decide (h.opens d < n)) =
        (h.undisturbed d && decide (h.opens d < n)) := by
    intro d missed
    rw [undisturbed_of_miss c d (behind d missed)]
    by_cases made : h.opens d < n
    · have open_ : h.opens d ≤ c.time := by omega
      simp [open_]
    · simp [made]
  have last : ({ h with misses := c :: h.misses } : History).scanBefore n = h.scanBefore n := by
    simp only [scanBefore, History.scans, List.find?_filter]
    rw [List.find?_cons_of_neg]
    · apply List.find?_congr
      intro d missed
      have same := scansBefore d missed
      simp only [Bool.decide_and, Bool.decide_eq_true]
      exact same
    · have shut : ¬ ({ h with misses := c :: h.misses } : History).opens c < n :=
        Nat.not_lt.mpr closed
      simp [shut]
  simp only [Engine.lint, unknown]
  refine ⟨t.gate, t.life, congrArg (· + 1) t.latest, ?_, ?_, ?_, ?_⟩
  · have newest : ({ h with misses := c :: h.misses } : History).ticket c = e.latest + 1 := by
      have all : h.misses.countP (fun d => decide (d.time ≤ c.time)) = h.misses.length :=
        List.countP_eq_length.mpr
          (fun d missed => decide_eq_true (Nat.le_of_lt (behind d missed)))
      simp [ticket, all, t.latest]
    have gated : ({ h with misses := c :: h.misses } : History).stage n c =
        some (.gated (c.time + e.gate)) := by
      rw [stage_closed (h := { h with misses := c :: h.misses }) closed, t.gate]
      rfl
    change e.calls ++ _ = (c :: h.misses).reverse.filterMap (fun d =>
      (({ h with misses := c :: h.misses } : History).stage n d).map
        (({ h with misses := c :: h.misses } : History).waitingAs d))
    rw [List.reverse_cons, List.filterMap_append, t.calls, waiting]
    congr 1
    · apply List.filterMap_congr
      intro d member
      have same := kept d (List.mem_reverse.mp member)
      have named : ({ h with misses := c :: h.misses } : History).waitingAs d = h.waitingAs d := by
        funext stage
        simp only [waitingAs, same.2]
      rw [same.1, named]
    · simp [gated, waitingAs, newest]
  · change e.completed = (({ h with misses := c :: h.misses } : History).scanBefore n).map _
    rw [last, t.completed]
    cases found : h.scanBefore n with
    | none => rfl
    | some s =>
      have missed := (mem_scans.mp ((find_scans o.misses _ s).mp found).1).1
      have same := (kept s missed).2
      change some (h.completedAs s) =
        some (({ h with misses := c :: h.misses } : History).completedAs s)
      simp only [completedAs, same]
  · rw [t.slot]
    change _ = Option.map _ (Option.filter _
      (({ h with misses := c :: h.misses } : History).scanBefore n))
    rw [last]
    rfl
  · change e.scans = ((c :: h.misses).filter
      ({ h with misses := c :: h.misses } : History).undisturbed).countP
        (fun s => decide (h.opens s < n))
    rw [t.scans, List.countP_filter, List.countP_cons_of_neg (by simp [Nat.not_lt.mpr closed]),
      History.scans, List.countP_filter]
    apply List.countP_congr
    intro d missed
    rw [Bool.and_comm, Bool.and_comm (decide _), scansBefore d missed]

def reported (h : History) (c : Call) : Nat × Resolution :=
  ((h.answer c).1, ⟨c.id, (h.answer c).2⟩)

def reports (h : History) (n : Nat) : List (Nat × Resolution) :=
  (h.calls.filter (fun c => (h.answer c).1 < n)).map h.reported

theorem reports_congr {n m : Nat}
    (same : ∀ c ∈ h.calls, (h.answer c).1 < n ↔ (h.answer c).1 < m) :
    h.reports n = h.reports m := by
  unfold reports
  rw [List.filter_congr]
  intro c called
  simp only [decide_eq_decide]
  exact same c called

theorem answered_congr {n m : Nat} (o : h.Ordered now) (after : now ≤ n) (later : n ≤ m)
    (quiet : ∀ c ∈ h.misses, (h.opens c < n ↔ h.opens c < m) ∧
      ((h.answer c).1 < n ↔ (h.answer c).1 < m)) :
    ∀ c ∈ h.calls, (h.answer c).1 < n ↔ (h.answer c).1 < m := by
  intro c called
  cases hit : h.isHit c with
  | true =>
    have earlier := o.past c called
    rw [answer_of_hit hit]
    dsimp only
    omega
  | false =>
    have missed : c ∈ h.misses := by
      rw [o.missed]
      exact List.mem_filter.mpr ⟨called, by simp [hit]⟩
    exact (quiet c missed).2

theorem reports_succ {n : Nat} (o : h.Ordered now)
    (hits : ∀ c ∈ h.calls, h.isHit c = true → c.time < n) :
    (h.reports (n + 1)).Perm (((h.misses.filter (fun c => (h.answer c).1 = n)).map h.reported) ++
      h.reports n) := by
  have due : h.misses.filter (fun c => (h.answer c).1 = n) =
      h.calls.filter (fun c => (h.answer c).1 = n) := by
    rw [o.missed, List.filter_filter]
    apply List.filter_congr
    intro c called
    cases hit : h.isHit c with
    | false => simp
    | true =>
      have past := hits c called hit
      simp [answer_of_hit hit, Nat.ne_of_lt past]
  rw [due, reports, reports, ← List.map_append]
  apply List.Perm.map
  generalize h.calls = calls
  induction calls with
  | nil => exact .refl _
  | cons c rest ih =>
    rcases Nat.lt_trichotomy (h.answer c).1 n with before | at_ | after
    · simp only [List.filter_cons, decide_eq_true_eq, before, Nat.ne_of_lt before, if_true,
        if_false, Nat.lt_succ_of_lt before]
      exact (ih.cons c).trans List.perm_middle.symm
    · simp only [List.filter_cons, decide_eq_true_eq, at_, Nat.lt_irrefl, if_true, if_false,
        Nat.lt_succ_self]
      exact ih.cons c
    · have later : ¬ (h.answer c).1 < n + 1 := by omega
      have notYet : ¬ (h.answer c).1 < n := by omega
      simp only [List.filter_cons, decide_eq_true_eq, later, notYet, Nat.ne_of_gt after, if_false]
      exact ih

theorem reports_of_hit {c : Call} (hit : h.isHit c = true) :
    ({ h with calls := c :: h.calls } : History).reports (c.time + 1) =
      (c.time, ⟨c.id, c.findings⟩) :: h.reports (c.time + 1) := by
  change ((c :: h.calls).filter (fun d => decide ((h.answer d).1 < c.time + 1))).map h.reported = _
  rw [List.filter_cons_of_pos (by simp [answer_of_hit hit])]
  simp only [List.map_cons, reports, reported, answer_of_hit hit]

theorem reports_of_miss {c : Call} {n : Nat} (o : h.Ordered now) (future : now ≤ c.time)
    (miss : h.isHit c = false) (soon : n ≤ c.time + 1) (closed : n ≤ h.opens c) :
    ({ h with calls := c :: h.calls, misses := c :: h.misses } : History).reports n =
      h.reports n := by
  have stillMiss : ({ h with misses := c :: h.misses } : History).isHit c = false :=
    (isHit_of_miss o c future c (Nat.le_refl _)).trans miss
  have late : h.opens c ≤ (({ h with misses := c :: h.misses } : History).answer c).1 :=
    opens_le_answer (h := { h with misses := c :: h.misses }) stillMiss
  have old : ∀ d ∈ h.calls, ({ h with misses := c :: h.misses } : History).answer d = h.answer d ∨
      n ≤ (h.answer d).1 ∧ n ≤ (({ h with misses := c :: h.misses } : History).answer d).1 := by
    intro d called
    rcases answer_of_miss o c future d called with same | later
    · exact .inl same
    · exact .inr (by omega)
  change ((c :: h.calls).filter (fun d =>
      decide ((({ h with misses := c :: h.misses } : History).answer d).1 < n))).map
    ({ h with misses := c :: h.misses } : History).reported = _
  rw [List.filter_cons_of_neg (by simpa using Nat.le_trans closed late), reports]
  have kept : h.calls.filter (fun d =>
      decide ((({ h with misses := c :: h.misses } : History).answer d).1 < n)) =
        h.calls.filter (fun d => decide ((h.answer d).1 < n)) := by
    apply List.filter_congr
    intro d called
    rcases old d called with same | later
    · rw [same]
    · simp [Nat.not_lt.mpr later.1, Nat.not_lt.mpr later.2]
  rw [kept]
  apply List.map_congr_left
  intro d member
  obtain ⟨called, done⟩ := List.mem_filter.mp member
  rcases old d called with same | later
  · simp only [reported, same]
  · exact absurd (of_decide_eq_true done) (Nat.not_lt.mpr later.1)

theorem reports_of_clear {time n : Nat} (o : h.Ordered now) (future : now ≤ time) :
    ({ h with clears := time :: h.clears } : History).reports n = h.reports n := by
  have same : ∀ c ∈ h.calls,
      ({ h with clears := time :: h.clears } : History).answer c = h.answer c := by
    intro c called
    have earlier := Nat.lt_of_lt_of_le (o.past c called) future
    exact answer_of_clear (Nat.le_of_lt earlier)
  unfold reports
  rw [List.filter_congr (fun c called => by rw [same c called])]
  apply List.map_congr_left
  intro c member
  simp only [reported, same c (List.mem_filter.mp member).1]

/-- All that is due up to now is done and reported. -/
structure Settled (h : History) (r : Run) : Prop where
  tracks : h.Tracks (r.now + 1) r.state
  log : r.log.Perm (h.reports (r.now + 1))

theorem nextDue_spec {e : Engine} {time : Nat} (next : e.nextDue = some time) :
    (∃ call ∈ e.calls, call.stage.ends = time) ∧ ∀ call ∈ e.calls, time ≤ call.stage.ends := by
  obtain ⟨member, least⟩ := List.min?_eq_some_iff.mp next
  constructor
  · simpa using member
  · intro call hc
    exact least _ (List.mem_map_of_mem hc)

theorem nextDue_eq_none {e : Engine} (never : e.nextDue = none) : e.calls = [] := by
  simpa [nextDue] using never

theorem Tracks.ahead {ε : Type} {r : Timed.Run Engine ε} (o : h.Ordered now)
    (t : h.Tracks (r.now + 1) r.state) (k : Nat)
    (early : ∀ time, r.state.nextDue = some time → k < r.waitFor time) :
    ∀ call ∈ r.state.calls, r.now + k < call.stage.ends := by
  intro call member
  cases next : r.state.nextDue with
  | none =>
    rw [nextDue_eq_none next] at member
    cases member
  | some time =>
    obtain ⟨⟨first, hf, ends⟩, least⟩ := nextDue_spec next
    have later := (t.idle o first hf).1
    have patient := early time next
    have reach := r.now_add_waitFor time (ends ▸ later)
    have := least call member
    omega

theorem Tracks.settled {r : Run} (o : h.Ordered now) (t : h.Tracks r.now r.state)
    (b : h.Before r.now) (hits : ∀ c ∈ h.calls, h.isHit c = true → c.time < r.now)
    (log : r.log.Perm (h.reports r.now)) : h.Settled (r.settle machine) := by
  obtain ⟨tracks, events⟩ := t.settle o b
  refine ⟨tracks, ?_⟩
  rw [Timed.Run.settle_log, Timed.Run.settle_now]
  refine List.Perm.trans ?_ (reports_succ o hits).symm
  refine List.Perm.append ?_ log
  refine (List.reverse_perm _).trans ((events.map _).trans ?_)
  rw [List.map_map]
  apply List.Perm.of_eq
  apply List.map_congr_left
  intro c member
  have answered := of_decide_eq_true (List.mem_filter.mp member).2
  simp only [Function.comp_apply, reported, answered]

section elapse

variable {past : Nat} {r : Run} (o : h.Ordered past) (done : past ≤ r.now + 1)

include o done

theorem Settled.wait (s : h.Settled r) (k : Nat)
    (ahead : ∀ call ∈ r.state.calls, r.now + k < call.stage.ends) : h.Settled (r.wait k) := by
  have quiet := s.tracks.quiet (m := r.now + k + 1) o (by omega) ahead
  refine ⟨s.tracks.congr quiet, ?_⟩
  rw [Timed.Run.wait_log, Timed.Run.wait_now, ← reports_congr (n := r.now + 1)]
  · exact s.log
  · exact answered_congr o (by omega) (by omega) quiet

theorem Settled.due (s : h.Settled r) (time : Nat) (next : r.state.nextDue = some time) :
    h.Settled ((r.wait (r.waitFor time)).settle machine) := by
  obtain ⟨⟨call, member, ends⟩, least⟩ := nextDue_spec next
  have later : r.now < time := ends ▸ (s.tracks.idle o call member).1
  have quiet := s.tracks.quiet o later least
  have soon : (r.wait (r.waitFor time)).now = time := r.now_add_waitFor time later
  apply Tracks.settled o
  · rw [soon]
    exact s.tracks.congr quiet
  · constructor
    · intro c missed
      have := o.past c (o.mem_calls missed)
      omega
    · intro cleared member
      have := o.cleared cleared member
      omega
  · intro c called _
    have := o.past c called
    omega
  · rw [soon, ← reports_congr (answered_congr o (by omega) (by omega) quiet)]
    exact s.log

end elapse

theorem Settled.elapse {past : Nat} {r : Run} (o : h.Ordered past) (done : past ≤ r.now + 1)
    (s : h.Settled r) (ms : Nat) : h.Settled (r.elapse machine ms) := by
  have both := Timed.Run.elapse_invariant machine
    (fun r => past ≤ r.now + 1 ∧ h.Settled r) ?idle ?due ms r ⟨done, s⟩
  · exact both.2
  case idle =>
    rintro r k ⟨done, s⟩ early
    exact ⟨by rw [Timed.Run.wait_now]; omega, s.wait o done k (s.tracks.ahead o k early)⟩
  case due =>
    rintro r time ⟨done, s⟩ next
    exact ⟨by simp only [Timed.Run.settle_now, Timed.Run.wait_now]; omega, s.due o done time next⟩

theorem settled_perform {r : Run} {e : Engine} {events : List Resolution}
    {action : Nat → Engine → Engine}
    (settles : Engine.settle r.now (action r.now r.state) = (e, events)) :
    r.perform machine action =
      { r with state := e, log := (events.map (fun d => (r.now, d))).reverse ++ r.log } := by
  change Timed.Run.settle machine { r with state := action r.now r.state } = _
  simp only [Timed.Run.settle, machine, settles, Timed.Run.report]

theorem Settled.hit {r : Run} {c : Call} (o : h.Ordered r.now) (s : h.Settled r)
    (now : c.time = r.now) (hit : h.isHit c = true) :
    Settled { h with calls := c :: h.calls }
      (r.perform machine (act (.lint c.id c.content c.type))) := by
  have answered := s.tracks
  rw [← now] at answered o
  have settles := answered.hit o (Nat.le_refl _) hit
  rw [now] at settles
  rw [settled_perform settles]
  obtain ⟨tracks, log⟩ := s
  refine ⟨⟨tracks.gate, tracks.life, tracks.latest, tracks.calls, tracks.completed, tracks.slot,
    tracks.scans⟩, ?_⟩
  change ((r.now, _) :: r.log).Perm (reports { h with calls := c :: h.calls } (r.now + 1))
  rw [← now, reports_of_hit hit, now]
  exact log.cons _

theorem Settled.clear {r : Run} (o : h.Ordered r.now) (s : h.Settled r) :
    Settled { h with clears := r.now :: h.clears } (r.perform machine (act .clearCache)) := by
  have tracks := s.tracks.clear o (Nat.le_refl _)
  have o' := o.extend_clear r.now (Nat.le_refl _)
  have idle := tracks.idle o'
  have settles : Engine.settle r.now (act .clearCache r.now r.state) = (r.state.clearCache, []) :=
    settle_idle r.now _ (fun call member => (idle call member).2)
  rw [settled_perform settles]
  refine ⟨tracks, ?_⟩
  rw [reports_of_clear o (Nat.le_refl _)]
  exact s.log

/-- Without a gate nobody waits: what was asked before now was answered before now. -/
theorem Tracks.ungated {n : Nat} (o : h.Ordered n) (t : h.Tracks (n + 1) e)
    (ungated : h.gate = 0) :
    h.Tracks n e ∧ ∀ c ∈ h.calls, (h.answer c).1 < n := by
  have opening : ∀ c, h.opens c = c.time := by
    intro c
    simp [opens, ungated]
  have early : ∀ c ∈ h.calls, (h.answer c).1 < n := by
    intro c called
    have past := o.past c called
    cases hit : h.isHit c with
    | true => simpa [answer_of_hit hit] using past
    | false =>
      cases alone : h.undisturbed c with
      | true => simpa [answer_of_undisturbed hit alone, opening] using past
      | false =>
        have gated := gate_pos_of_disturbed alone
        omega
  refine ⟨t.congr ?_, early⟩
  intro c missed
  have called := o.mem_calls missed
  have past := o.past c called
  have answered := early c called
  rw [opening]
  omega

theorem Settled.miss {r : Run} {c : Call} (o : h.Ordered r.now) (s : h.Settled r)
    (now : c.time = r.now) (miss : h.isHit c = false) :
    Settled { h with calls := c :: h.calls, misses := c :: h.misses }
      (r.perform machine (act (.lint c.id c.content c.type))) := by
  obtain ⟨now', state, log⟩ := r
  change c.time = now' at now
  subst now
  have o' := o.extend_miss c (Nat.le_refl _) miss
  have unknown : state.cache.get? c.content c.type c.time = none := by
    rw [s.tracks.get o (Nat.le_refl _), miss]
    rfl
  by_cases gated : 0 < h.gate
  · have closed : c.time + 1 ≤ h.opens c := by
      simp only [opens]
      omega
    have tracks := s.tracks.miss o (Nat.le_refl _) (Nat.le_refl _) closed unknown
    have idle := tracks.idle o'
    have settles : Engine.settle c.time (act (.lint c.id c.content c.type) c.time state) =
        (state.lint c.time c.id c.content c.type, []) :=
      settle_idle c.time _ (fun call member => (idle call member).2)
    rw [settled_perform (r := ⟨c.time, state, log⟩) settles]
    refine ⟨tracks, ?_⟩
    rw [reports_of_miss o (Nat.le_refl _) miss (Nat.le_refl _) closed]
    exact s.log
  · have ungated : h.gate = 0 := by omega
    have closed : c.time ≤ h.opens c := by
      simp only [opens]
      omega
    obtain ⟨before, early⟩ := s.tracks.ungated o ungated
    apply Tracks.settled o'
    · exact before.miss o (Nat.le_refl _) (Nat.le_succ _) closed unknown
    · constructor
      · intro d missed
        exact ⟨Nat.le_of_lt_succ (o'.past d (o'.mem_calls missed)), fun _ => ungated⟩
      · exact o.cleared
    · intro d called hit
      rcases List.mem_cons.mp called with rfl | called
      · have same : isHit { h with misses := d :: h.misses } d = h.isHit d :=
          isHit_of_miss o d (Nat.le_refl _) d (Nat.le_refl _)
        have hit' : isHit { h with misses := d :: h.misses } d = true := hit
        rw [same, miss] at hit'
        cases hit'
      · exact o.past d called
    · rw [reports_of_miss o (Nat.le_refl _) miss (Nat.le_succ _) closed,
        reports_congr (m := c.time + 1)]
      · exact s.log
      · intro d called
        have done : (h.answer d).1 < c.time := early d called
        exact ⟨fun _ => Nat.lt_succ_of_lt done, fun _ => done⟩

theorem Settled.step {r : Run} (o : h.Ordered r.now) (s : h.Settled r)
    (step : Timed.Step Action) :
    let h' := (Timed.Run.timeline r.now [step]).foldl extend h
    h'.Ordered (Engine.step r step).now ∧ h'.Settled (Engine.step r step) := by
  cases step with
  | sleep ms =>
    refine ⟨o.mono ?_, s.elapse o (Nat.le_succ _) ms⟩
    simp [Engine.step, Timed.Run.step]
  | act action =>
    have acted : ∃ h', h' = (Timed.Run.timeline r.now [.act action]).foldl extend h ∧
        h'.Ordered (r.now + 1) ∧ h'.Settled (r.perform machine (Engine.act action)) := by
      refine ⟨_, rfl, ?_⟩
      cases action with
      | clearCache => exact ⟨o.extend_clear r.now (Nat.le_refl _), s.clear o⟩
      | lint id content type =>
        simp only [Timed.Run.timeline, List.foldl_cons, List.foldl_nil, extend]
        cases hit : h.isHit ⟨id, r.now, content, type⟩ with
        | true => exact ⟨o.extend_hit _ (Nat.le_refl _) hit, s.hit o rfl hit⟩
        | false => exact ⟨o.extend_miss _ (Nat.le_refl _) hit, s.miss o rfl hit⟩
    obtain ⟨h', same, o', s'⟩ := acted
    have later : (Engine.step r (.act action)).now = r.now + 1 := by
      simp [Engine.step, Timed.Run.step, Timed.Run.perform]
    dsimp only
    rw [← same, later]
    exact ⟨o', s'.elapse (r := r.perform machine (Engine.act action)) o' (Nat.le_refl _) 1⟩

theorem Settled.run {r : Run} (o : h.Ordered r.now) (s : h.Settled r)
    (steps : List (Timed.Step Action)) :
    let h' := (Timed.Run.timeline r.now steps).foldl extend h
    h'.Ordered (Engine.run steps r).now ∧ h'.Settled (Engine.run steps r) := by
  induction steps generalizing r h with
  | nil => exact ⟨o, s⟩
  | cons step rest ih =>
    have one := s.step o step
    have more := ih one.1 one.2
    rw [Engine.step, Timed.Run.step_now] at more
    dsimp only
    rw [Timed.Run.timeline_cons, List.foldl_append]
    exact more

theorem settled_ofSteps (gate : Nat) (steps : List (Timed.Step Action)) :
    (ofSteps gate steps).Ordered (Engine.run steps { state := { gate } }).now ∧
      (ofSteps gate steps).Settled (Engine.run steps { state := { gate } }) := by
  have ordered : Ordered { gate } 0 := ⟨.nil, by simp, by simp, rfl⟩
  have settled : Settled { gate } { state := { gate } } :=
    ⟨⟨rfl, rfl, rfl, rfl, rfl, rfl, rfl⟩, .refl _⟩
  exact settled.run ordered steps

theorem calls_foldl_extend (events : List (Nat × Action)) :
    (events.foldl extend h).gate = h.gate ∧
      (events.foldl extend h).calls = (events.filterMap callAt).reverse ++ h.calls := by
  induction events generalizing h with
  | nil => exact ⟨rfl, rfl⟩
  | cons event rest ih =>
    obtain ⟨gate, calls⟩ := ih (h := h.extend event)
    rw [List.foldl_cons, gate, calls]
    obtain ⟨time, _ | _⟩ := event
    · simp [extend, callAt]
    · simp only [extend, List.filterMap_cons, callAt, true_and]

theorem Ordered.mem_misses {c : Call} (o : h.Ordered now) (called : c ∈ h.calls)
    (miss : h.isHit c = false) : c ∈ h.misses := by
  rw [o.missed]
  exact List.mem_filter.mpr ⟨called, by simp [miss]⟩

theorem Ordered.count_scans {c : Call} (o : h.Ordered now) (called : c ∈ h.calls) :
    h.scans.count c = if h.isHit c = false ∧ h.undisturbed c = true then 1 else 0 := by
  split
  · rename_i scans
    have distinct : h.misses.Nodup := o.misses.imp (fun below same => by
      rw [same] at below
      exact Nat.lt_irrefl _ below)
    exact List.count_eq_one_of_mem (distinct.filter _)
      (mem_scans.mpr ⟨o.mem_misses called scans.1, scans.2⟩)
  · rename_i quiet
    apply List.count_eq_zero_of_not_mem
    intro scan
    obtain ⟨missed, alone⟩ := mem_scans.mp scan
    exact quiet ⟨o.not_hit missed, alone⟩

/-- A disturbed call shares the first scan after its gate, unless that comes too late. -/
theorem Ordered.answer_of_first_scan {c s : Call} (o : h.Ordered now) (miss : h.isHit c = false)
    (disturbed : h.undisturbed c = false) (scan : s ∈ h.scans) (after : h.opens c < h.opens s)
    (first : ∀ d ∈ h.scans, h.opens c < h.opens d → h.opens s ≤ h.opens d)
    (soon : h.opens s < h.opens c + 3000) :
    h.answer c = (h.opens s, if s.asksSame c then c.findings else []) := by
  apply answer_of_nextScan miss disturbed _ soon
  refine (nextScan_eq_some o.misses _ s).mpr ⟨scan, after, ?_⟩
  intro d other later
  rcases Nat.eq_or_lt_of_le (first d other later) with same | behind
  · left
    apply o.eq_of_time (mem_scans.mp other).1 (mem_scans.mp scan).1
    simp only [opens] at same
    omega
  · right
    simp only [opens] at behind
    omega

theorem answer_of_late {c : Call} (miss : h.isHit c = false) (disturbed : h.undisturbed c = false)
    (late : ∀ s ∈ h.scans, h.opens c < h.opens s → h.opens c + 3000 ≤ h.opens s) :
    h.answer c = (h.opens c + 3000, []) := by
  apply answer_of_no_scan miss disturbed
  intro s next
  have found := nextScan_spec next
  exact late s found.1 found.2

end History

/-- What is reported in a run, by whom, when and what: every call whose time has come is answered
once, and nobody else is. The scans are made when their gates elapse, and the last is remembered. -/
theorem every_call_is_answered (gate : Nat) (steps : List (Timed.Step Action)) :
    let h := History.ofSteps gate steps
    let r := run steps { state := { gate } }
    h.calls = ((Timed.Run.timeline 0 steps).filterMap callAt).reverse ∧
    h.misses = h.calls.filter (fun c => !h.isHit c) ∧
    r.log.Perm ((h.calls.filter (fun c => (h.answer c).1 ≤ r.now)).map
      (fun c => ((h.answer c).1, ⟨c.id, (h.answer c).2⟩))) ∧
    r.state.scans = h.scans.countP (fun s => h.opens s ≤ r.now) ∧
    r.state.completed.map (fun s => (s.content, s.type, s.diagnostics)) =
      (h.scans.find? (fun s => h.opens s ≤ r.now)).map
        (fun s => (s.content, s.type, analyze s.content s.type)) ∧
    ∀ c ∈ h.calls,
      (c.time ≤ (h.answer c).1 ∧ (h.answer c).1 ≤ c.time + gate + 3000) ∧
      ((h.answer c).2 = analyze c.content c.type ∨ (h.answer c).2 = []) ∧
      (h.isHit c = true →
        h.answer c = (c.time, analyze c.content c.type) ∧ h.scans.count c = 0) ∧
      (h.isHit c = false → h.undisturbed c = true →
        h.answer c = (c.time + gate, analyze c.content c.type) ∧ h.scans.count c = 1) ∧
      (h.isHit c = false → h.undisturbed c = false →
        h.scans.count c = 0 ∧
        (∀ s ∈ h.scans, h.opens c < h.opens s →
          (∀ d ∈ h.scans, h.opens c < h.opens d → h.opens s ≤ h.opens d) →
          h.opens s < h.opens c + 3000 →
          h.answer c = (h.opens s,
            if s.type = c.type ∧ s.content = c.content then analyze c.content c.type else [])) ∧
        ((∀ s ∈ h.scans, h.opens c < h.opens s → h.opens c + 3000 ≤ h.opens s) →
          h.answer c = (h.opens c + 3000, []))) := by
  intro h r
  obtain ⟨o, s⟩ := History.settled_ofSteps gate steps
  have made := History.calls_foldl_extend (h := { gate }) (Timed.Run.timeline 0 steps)
  have sameGate : h.gate = gate := made.1
  refine ⟨made.2.trans (List.append_nil _), o.missed, ?_, ?_, ?_, ?_⟩
  · have log := s.log
    simp only [History.reports, Nat.lt_succ_iff] at log
    exact log
  · simpa only [Nat.lt_succ_iff] using s.tracks.scans
  · rw [s.tracks.completed]
    simp only [History.scanBefore, Nat.lt_succ_iff, Option.map_map]
    rfl
  · intro c called
    have count := o.count_scans called
    have bounds := History.answer_bounds h c
    rw [sameGate] at bounds
    refine ⟨⟨bounds.1, bounds.2.1⟩, bounds.2.2, ?_, ?_, ?_⟩
    · intro hit
      exact ⟨History.answer_of_hit hit, count.trans (if_neg (by simp [h, hit]))⟩
    · intro miss alone
      rw [History.answer_of_undisturbed miss alone, ← sameGate]
      exact ⟨rfl, count.trans (if_pos ⟨miss, alone⟩)⟩
    · intro miss disturbed
      refine ⟨count.trans (if_neg (by simp [h, disturbed])), ?_,
        History.answer_of_late miss disturbed⟩
      intro t scan after first soon
      have shared := o.answer_of_first_scan miss disturbed scan after first soon
      simpa [Call.asksSame, Call.findings] using shared

end BufferLint.Engine
