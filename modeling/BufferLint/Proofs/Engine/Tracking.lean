import BufferLint.Proofs.Engine.History
import BufferLint.Proofs.Engine.Settling

/-! An engine is at every instant what the history of its calls says: who waits and for what, the
last scan, the cache, the number of scans. -/
namespace BufferLint.Engine

namespace History

def ticket (h : History) (c : Call) : Nat := h.misses.countP (fun d => d.time ≤ c.time)

/-- What a call that missed the cache waits for when all that was due before `n` is done. -/
def stage (h : History) (n : Nat) (c : Call) : Option CallStage :=
  if n ≤ h.opens c then some (.gated (h.opens c))
  else if (h.answer c).1 < n then none
  else some (.superseded (h.opens c + 3000))

def waitingAs (h : History) (c : Call) (stage : CallStage) : EngineCall :=
  ⟨c.id, h.ticket c, c.content, c.type, stage⟩

def waiting (h : History) (n : Nat) : List EngineCall :=
  h.misses.reverse.filterMap (fun c => (h.stage n c).map (h.waitingAs c))

def scanBefore (h : History) (n : Nat) : Option Call := h.scans.find? (fun s => h.opens s < n)

def completedAs (h : History) (c : Call) : CompletedScan :=
  ⟨h.ticket c, c.content, c.type, c.findings⟩

def cachedAs (h : History) (c : Call) : CachedScan := ⟨c.content, c.type, c.findings, h.opens c⟩

def cached (h : History) (n : Nat) : Option CachedScan :=
  ((h.scanBefore n).filter (fun s => h.clears.all (fun time => time < h.opens s))).map h.cachedAs

/-- What becomes of a call at the instant `n`. -/
inductive Passage (h : History) (n : Nat) (c : Call) : Prop where
  | closed (early : n < h.opens c)
  | scans (now : h.opens c = n) (alone : h.undisturbed c = true)
  | overtaken (now : h.opens c = n) (disturbed : h.undisturbed c = false)
  | finished (answered : (h.answer c).1 < n)
  | givesUp (disturbed : h.undisturbed c = false) (limit : h.opens c + 3000 = n)
      (answer : h.answer c = (n, []))
  | shares (disturbed : h.undisturbed c = false) (passed : h.opens c < n)
      (soon : n < h.opens c + 3000) (s : Call) (scan : s ∈ h.scans) (now : h.opens s = n)
      (answer : h.answer c = (n, if s.asksSame c then c.findings else []))
  | waits (disturbed : h.undisturbed c = false) (passed : h.opens c < n)
      (soon : n < h.opens c + 3000) (quiet : ∀ s ∈ h.scans, h.opens s ≠ n)
      (later : n < (h.answer c).1)

theorem passage {h : History} {now : Nat} (o : h.Ordered now) (n : Nat) {c : Call}
    (missed : c ∈ h.misses) : h.Passage n c := by
  have miss := o.not_hit missed
  rcases Nat.lt_trichotomy n (h.opens c) with early | opening | passed
  · exact .closed early
  · cases alone : h.undisturbed c with
    | true => exact .scans opening.symm alone
    | false => exact .overtaken opening.symm alone
  · by_cases before : (h.answer c).1 < n
    · exact .finished before
    · cases alone : h.undisturbed c with
      | true =>
        rw [answer_of_undisturbed miss alone] at before
        exact absurd passed before
      | false =>
        have within := (answer_time_of_disturbed miss alone).2
        have reached : ∀ s ∈ h.scans, h.opens c < h.opens s → n ≤ h.opens s := by
          intro s scan after
          have earliest := o.answer_le_scan miss alone scan after
          omega
        by_cases limit : h.opens c + 3000 = n
        · refine .givesUp alone limit ?_
          rw [answer_of_no_scan miss alone, limit]
          intro s next
          have found := nextScan_spec next
          have after := reached s found.1 found.2
          omega
        · have soon : n < h.opens c + 3000 := by omega
          by_cases scan : ∃ s ∈ h.scans, h.opens s = n
          · obtain ⟨s, scan, now⟩ := scan
            refine .shares alone passed soon s scan now ?_
            have next : h.nextScan (h.opens c) = some s := by
              refine (nextScan_eq_some o.misses _ s).mpr ⟨scan, by omega, ?_⟩
              intro d hd after
              have later := reached d hd after
              rcases Nat.lt_or_eq_of_le later with later | same
              · right
                simp only [opens] at now later
                omega
              · left
                apply o.eq_of_time (mem_scans.mp hd).1 (mem_scans.mp scan).1
                simp only [opens] at now same
                omega
            rw [answer_of_nextScan miss alone next (by omega), now]
          · have quiet : ∀ s ∈ h.scans, h.opens s ≠ n := fun s hs now => scan ⟨s, hs, now⟩
            refine .waits alone passed soon quiet ?_
            have late : ∀ s ∈ h.scans, h.opens c < h.opens s → n < h.opens s := by
              intro s hs after
              have later := reached s hs after
              have other := quiet s hs
              omega
            rcases answer_of_late_scans n miss alone late with ⟨finished, _⟩ | ⟨_, later⟩
            · omega
            · exact later

theorem ticket_mono {h : History} {c d : Call} (le : c.time ≤ d.time) :
    h.ticket c ≤ h.ticket d := by
  apply List.countP_mono_left
  intro x _
  simp only [decide_eq_true_eq]
  omega

theorem ticket_lt {h : History} {c d : Call} (missed : c ∈ h.misses) (later : d.time < c.time) :
    h.ticket d < h.ticket c := by
  obtain ⟨newer, older, split⟩ := List.append_of_mem missed
  have mono : ∀ l : List Call,
      l.countP (fun x => decide (x.time ≤ d.time)) ≤
        l.countP (fun x => decide (x.time ≤ c.time)) := by
    intro l
    apply List.countP_mono_left
    intro x _
    simp only [decide_eq_true_eq]
    omega
  have front := mono newer
  have back := mono older
  simp only [ticket, split, List.countP_append, List.countP_cons, Nat.le_refl, decide_true, if_true,
    Nat.not_le.mpr later, decide_false, Bool.false_eq_true, if_false]
  omega

theorem ticket_eq_length {h : History} {c : Call} :
    h.ticket c = h.misses.length ↔ ∀ d ∈ h.misses, d.time ≤ c.time := by
  simp [ticket, List.countP_eq_length]

theorem newest_iff_undisturbed {h : History} {c : Call}
    (past : ∀ d ∈ h.misses, d.time ≤ h.opens c ∧ (d.time = h.opens c → h.gate = 0)) :
    h.ticket c = h.misses.length ↔ h.undisturbed c = true := by
  rw [ticket_eq_length, undisturbed_iff]
  constructor
  · exact fun newest d hd => .inl (newest d hd)
  · intro alone d hd
    rcases alone d hd with earlier | later
    · exact earlier
    · have zero := (past d hd).2 (by have := (past d hd).1; omega)
      simp only [opens, zero] at later past
      have := (past d hd).1
      omega

def Completed (h : History) (e : Engine) (last : Option Call) : Prop :=
  e.completed = last.map h.completedAs

theorem resolve_gated (e : Engine) (n : Nat) (h : History) (c : Call) (opens : Nat) :
    e.resolve? n (h.waitingAs c (.gated opens)) = none := rfl

theorem resolve_of_older {h : History} {e : Engine} {last : Option Call}
    (completed : h.Completed e last) {c : Call} (missed : c ∈ h.misses)
    (older : ∀ s, last = some s → s.time < c.time) (n limit : Nat) :
    e.resolve? n (h.waitingAs c (.superseded limit)) = if limit ≤ n then some [] else none := by
  have nothing : e.completed.filter (fun scan => (h.ticket c) ≤ scan.ticket) = none := by
    rw [completed]
    cases found : last with
    | none => rfl
    | some s =>
      have below := ticket_lt missed (older s found)
      simp [Option.filter, completedAs, Nat.not_le.mpr below]
  rw [waitingAs, resolve_superseded, nothing]

theorem resolve_of_newer {h : History} {e : Engine} {s : Call}
    (completed : h.Completed e (some s)) {c : Call} (newer : c.time ≤ s.time) (n limit : Nat) :
    e.resolve? n (h.waitingAs c (.superseded limit)) =
      some (if s.asksSame c then c.findings else []) := by
  have found : e.completed.filter (fun scan => (h.ticket c) ≤ scan.ticket) =
      some (h.completedAs s) := by
    rw [completed]
    simp [Option.filter, completedAs, ticket_mono newer]
  rw [waitingAs, resolve_superseded, found]
  by_cases same : s.type = c.type ∧ s.content = c.content
  · simp [same, completedAs, Call.asksSame, Call.findings]
  · simp [same, completedAs, Call.asksSame]

theorem Ordered.older_scan {h : History} {now : Nat} (o : h.Ordered now) {c s : Call}
    (missed : c ∈ h.misses) (disturbed : h.undisturbed c = false) (scan : s ∈ h.scans)
    (before : h.opens s < (h.answer c).1) : s.time < c.time := by
  apply Nat.lt_of_not_le
  intro newer
  rcases Nat.lt_or_eq_of_le newer with newer | same
  · have earliest :=
      o.answer_le_scan (o.not_hit missed) disturbed scan (by simp only [opens]; omega)
    omega
  · have equal := o.eq_of_time missed (mem_scans.mp scan).1 same
    rw [equal, (mem_scans.mp scan).2] at disturbed
    cases disturbed

/-- The engine is where the history says, all that was due before `n` being done. -/
structure Tracks (h : History) (n : Nat) (e : Engine) : Prop where
  gate : e.gate = h.gate
  life : e.cache.life = 1000
  latest : e.latest = h.misses.length
  calls : e.calls = h.waiting n
  completed : h.Completed e (h.scanBefore n)
  slot : e.cache.slot = h.cached n
  scans : e.scans = h.scans.countP (fun s => h.opens s < n)

/- Calls and clears that come before what is due at `n`; only without a gate a call is due when
it is made. -/
structure Before (h : History) (n : Nat) : Prop where
  misses : ∀ c ∈ h.misses, c.time ≤ n ∧ (c.time = n → h.gate = 0)
  clears : ∀ time ∈ h.clears, time < n

theorem scan_at {h : History} {now : Nat} (o : h.Ordered now) (n : Nat) :
    (∃ s ∈ h.scans, h.opens s = n ∧ h.scans.filter (fun s => h.opens s = n) = [s] ∧
      h.scanBefore (n + 1) = some s) ∨
    ((∀ s ∈ h.scans, h.opens s ≠ n) ∧ h.scans.filter (fun s => h.opens s = n) = [] ∧
      h.scanBefore (n + 1) = h.scanBefore n) := by
  cases found : h.scans.filter (fun s => h.opens s = n) with
  | nil =>
    have quiet : ∀ s ∈ h.scans, h.opens s ≠ n := by simpa using List.filter_eq_nil_iff.mp found
    refine .inr ⟨quiet, rfl, ?_⟩
    apply List.find?_congr
    intro s scan
    have other := quiet s scan
    simp only [decide_eq_decide]
    omega
  | cons s rest =>
    have members : ∀ d ∈ s :: rest, d ∈ h.scans ∧ h.opens d = n := by
      intro d hd
      rw [← found] at hd
      simpa using hd
    have member := members s List.mem_cons_self
    have sorted : (s :: rest).Pairwise (fun c d => d.time < c.time) :=
      found ▸ (o.misses.filter _).filter _
    have alone : rest = [] := by
      apply List.eq_nil_iff_forall_not_mem.mpr
      intro d hd
      have apart := (List.pairwise_cons.mp sorted).1 d hd
      have same := (members d (List.mem_cons_of_mem s hd)).2.trans member.2.symm
      simp only [opens] at same
      omega
    refine .inl ⟨s, member.1, member.2, by rw [alone], ?_⟩
    refine (find_scans o.misses _ s).mpr ⟨member.1, by simp [member.2], ?_⟩
    intro d hd made
    simp only [decide_eq_true_eq] at made
    rcases Nat.lt_or_ge d.time s.time with earlier | later
    · exact .inr earlier
    · left
      apply o.eq_of_time (mem_scans.mp hd).1 (mem_scans.mp member.1).1
      have now := member.2
      simp only [opens] at made now
      omega

theorem stage_closed {h : History} {n : Nat} {c : Call} (early : n ≤ h.opens c) :
    h.stage n c = some (.gated (h.opens c)) := by
  simp [stage, early]

theorem stage_over {h : History} {n : Nat} {c : Call} (passed : h.opens c < n)
    (answered : (h.answer c).1 < n) : h.stage n c = none := by
  simp [stage, Nat.not_le.mpr passed, answered]

theorem stage_superseded {h : History} {n : Nat} {c : Call} (passed : h.opens c < n)
    (waiting : n ≤ (h.answer c).1) : h.stage n c = some (.superseded (h.opens c + 3000)) := by
  simp [stage, Nat.not_le.mpr passed, Nat.not_lt.mpr waiting]

theorem superseded_idle (h : History) (c : Call) (latest n limit : Nat) :
    scansAt latest n (h.waitingAs c (.superseded limit)) = false := rfl

theorem superseded_through (h : History) (c : Call) (latest n limit : Nat) :
    throughGate latest n (h.waitingAs c (.superseded limit)) =
      some (h.waitingAs c (.superseded limit)) := rfl

theorem Ordered.older_scanBefore {h : History} {now m : Nat} {c s : Call} (o : h.Ordered now)
    (missed : c ∈ h.misses) (unanswered : m ≤ (h.answer c).1) (disturbed : h.undisturbed c = false)
    (found : h.scanBefore m = some s) : s.time < c.time := by
  have spec := (find_scans o.misses _ s).mp found
  have made : h.opens s < m := of_decide_eq_true spec.2.1
  exact o.older_scan missed disturbed spec.1 (by omega)

theorem scanBefore_succ {h : History} {now n : Nat} {s : Call} (o : h.Ordered now)
    (scan : s ∈ h.scans) (opening : h.opens s = n) : h.scanBefore (n + 1) = some s := by
  rcases scan_at o n with ⟨d, hd, same, _, found⟩ | ⟨quiet, _⟩
  · have equal : d = s := by
      apply o.eq_of_time (mem_scans.mp hd).1 (mem_scans.mp scan).1
      simp only [opens] at same opening
      omega
    rw [found, equal]
  · exact absurd opening (quiet s scan)

/-- An instant, followed for one call: what is left of it, and what it is answered. -/
theorem instant {h : History} {now n : Nat} {e after : Engine} (o : h.Ordered now)
    (t : h.Tracks n e) (b : h.Before n) (completed : h.Completed after (h.scanBefore (n + 1)))
    {c : Call} (missed : c ∈ h.misses) :
    ((h.stage n c).map (h.waitingAs c)).bind (stays e after n) =
        (h.stage (n + 1) c).map (h.waitingAs c) ∧
      ((h.stage n c).map (h.waitingAs c)).bind (answers e after n) =
        if (h.answer c).1 = n then some (h.answer c).2 else none := by
  have miss := o.not_hit missed
  have old := fun m s => o.older_scanBefore missed (m := m) (s := s)
  cases passage o n missed with
  | closed early =>
    have later := opens_le_answer miss
    rw [stage_closed (Nat.le_of_lt early), stage_closed early, if_neg (by omega)]
    have open_ : throughGate e.latest n (h.waitingAs c (.gated (h.opens c))) =
        some (h.waitingAs c (.gated (h.opens c))) := by
      simp [throughGate, waitingAs, Nat.not_le.mpr early]
    have idle : scansAt e.latest n (h.waitingAs c (.gated (h.opens c))) = false := by
      simp [scansAt, waitingAs, Nat.not_le.mpr early]
    simp only [Option.map_some, Option.bind_some, stays_of_passed (resolve_gated e n h c _),
      answers_of_passed (resolve_gated e n h c _) idle, open_]
    simp [resolve_gated]
  | scans opening alone =>
    have newest : h.ticket c = e.latest := by
      rw [t.latest, newest_iff_undisturbed (by rw [opening]; exact b.misses)]
      exact alone
    have scans : scansAt e.latest n (h.waitingAs c (.gated (h.opens c))) = true := by
      simp [scansAt, waitingAs, opening, newest]
    have answer := answer_of_undisturbed miss alone
    rw [stage_closed (Nat.le_of_eq opening.symm),
      stage_over (by omega) (by rw [answer]; dsimp only; omega),
      answer, if_pos opening]
    simp only [Option.map_some, Option.bind_some, stays_of_passed (resolve_gated e n h c _),
      answers_of_scansAt (resolve_gated e n h c _) scans, throughGate_of_scansAt scans]
    exact ⟨rfl, rfl⟩
  | overtaken opening disturbed =>
    have later := (answer_time_of_disturbed miss disturbed).1
    have outdated : h.ticket c ≠ e.latest := by
      rw [t.latest, Ne, newest_iff_undisturbed (by rw [opening]; exact b.misses), disturbed]
      exact Bool.false_ne_true
    have idle : scansAt e.latest n (h.waitingAs c (.gated (h.opens c))) = false := by
      simp [scansAt, waitingAs, outdated]
    have through : throughGate e.latest n (h.waitingAs c (.gated (h.opens c))) =
        some (h.waitingAs c (.superseded (h.opens c + 3000))) := by
      simp [throughGate, waitingAs, opening, outdated, patience]
    have waits : after.resolve? n (h.waitingAs c (.superseded (h.opens c + 3000))) = none := by
      rw [resolve_of_older completed missed (fun s => old _ s (by omega) disturbed),
        if_neg (by omega)]
    rw [stage_closed (Nat.le_of_eq opening.symm), stage_superseded (by omega) (by omega),
      if_neg (by omega)]
    simp only [Option.map_some, Option.bind_some, stays_of_passed (resolve_gated e n h c _),
      answers_of_passed (resolve_gated e n h c _) idle, through]
    simp [waits]
  | finished answered =>
    have passed := Nat.lt_of_le_of_lt (opens_le_answer miss) answered
    rw [stage_over passed answered, stage_over (by omega) (by omega), if_neg (by omega)]
    exact ⟨rfl, rfl⟩
  | givesUp disturbed limit answer =>
    have gives : e.resolve? n (h.waitingAs c (.superseded (h.opens c + 3000))) = some [] := by
      rw [resolve_of_older t.completed missed
        (fun s => old _ s (by rw [answer]) disturbed), if_pos (by omega)]
    rw [stage_superseded (by omega) (by rw [answer]),
      stage_over (by omega) (by rw [answer]; dsimp only; omega),
      answer, if_pos rfl]
    simp [stays_of_resolved gives, answers_of_resolved gives]
  | shares disturbed passed soon s scan now answer =>
    have patient : e.resolve? n (h.waitingAs c (.superseded (h.opens c + 3000))) = none := by
      rw [resolve_of_older t.completed missed
        (fun s => old _ s (by rw [answer]) disturbed), if_neg (by omega)]
    have last := scanBefore_succ o scan now
    have shared : after.resolve? n (h.waitingAs c (.superseded (h.opens c + 3000))) =
        some (if s.asksSame c then c.findings else []) := by
      refine resolve_of_newer (last ▸ completed) ?_ n _
      simp only [opens] at now passed
      omega
    rw [stage_superseded passed (by rw [answer]),
      stage_over (by omega) (by rw [answer]; dsimp only; omega),
      answer, if_pos rfl]
    simp only [Option.map_some, Option.bind_some, stays_of_passed patient,
      answers_of_passed patient (superseded_idle ..), superseded_through, shared]
    simp [shared]
  | waits disturbed passed soon quiet later =>
    have patient : e.resolve? n (h.waitingAs c (.superseded (h.opens c + 3000))) = none := by
      rw [resolve_of_older t.completed missed (fun s => old _ s (by omega) disturbed),
        if_neg (by omega)]
    have still : after.resolve? n (h.waitingAs c (.superseded (h.opens c + 3000))) = none := by
      rw [resolve_of_older completed missed (fun s => old _ s (by omega) disturbed),
        if_neg (by omega)]
    rw [stage_superseded passed (by omega), stage_superseded (by omega) (by omega),
      if_neg (by omega)]
    simp only [Option.map_some, Option.bind_some, stays_of_passed patient,
      answers_of_passed patient (superseded_idle ..), superseded_through]
    simp [still]

theorem scansAt_of_stage {h : History} {n : Nat} {e : Engine} (t : h.Tracks n e)
    (b : h.Before n) {c : Call} {stage : CallStage} (found : h.stage n c = some stage) :
    scansAt e.latest n (h.waitingAs c stage) = (decide (h.opens c = n) && h.undisturbed c) := by
  unfold History.stage at found
  split at found
  · rename_i closed
    cases found
    rcases Nat.lt_or_eq_of_le closed with early | opening
    · simp [scansAt, waitingAs, Nat.not_le.mpr early, Nat.ne_of_gt early]
    · have newest := newest_iff_undisturbed (h := h) (c := c) (by rw [← opening]; exact b.misses)
      rw [← t.latest] at newest
      simp only [scansAt, waitingAs, ← opening, Nat.le_refl, decide_true, Bool.true_and]
      rw [Bool.eq_iff_iff, decide_eq_true_eq]
      exact newest
  · rename_i passed
    split at found
    · cases found
    · cases found
      simp [scansAt, waitingAs, Nat.ne_of_lt (Nat.lt_of_not_le passed)]

theorem scanning_eq {h : History} {n : Nat} {e : Engine} (t : h.Tracks n e) (b : h.Before n) :
    scanning n e = ((h.scans.filter (fun s => h.opens s = n)).map
      (fun s => h.waitingAs s (.gated n))).reverse := by
  rw [scanning, t.calls, waiting, List.filter_filterMap, List.filter_filterMap, scans,
    List.filter_filter, ← List.filterMap_eq_filter, List.map_filterMap, ← List.filterMap_reverse]
  apply List.filterMap_congr
  intro c _
  cases scans : (decide (h.opens c = n) && h.undisturbed c) with
  | true =>
    have opening : h.opens c = n := by
      simp only [Bool.and_eq_true, decide_eq_true_eq] at scans
      exact scans.1
    have found := stage_closed (Nat.le_of_eq opening.symm)
    rw [opening] at found
    have agrees := scansAt_of_stage t b found
    simp only [found, Option.map_some, Option.filter, Option.guard, resolve_gated,
      Option.isNone_none, agrees, scans, if_true]
  | false =>
    cases found : h.stage n c with
    | none => simp [Option.guard, scans]
    | some stage =>
      have agrees := scansAt_of_stage t b found
      by_cases kept : (e.resolve? n (h.waitingAs c stage)).isNone = true
      · simp [Option.filter, Option.guard, kept, agrees, scans]
      · simp [Option.filter, Option.guard, kept, scans]

theorem Tracks.scanned {h : History} {now n : Nat} {e : Engine} (o : h.Ordered now)
    (t : h.Tracks n e) (b : h.Before n) :
    let after := Engine.scanned n e (scanning n e)
    after.gate = h.gate ∧ after.cache.life = 1000 ∧ h.Completed after (h.scanBefore (n + 1)) ∧
      after.cache.slot = h.cached (n + 1) ∧
      after.scans = h.scans.countP (fun s => h.opens s < n + 1) := by
  have count : h.scans.countP (fun s => h.opens s < n + 1) =
      h.scans.countP (fun s => h.opens s < n) +
        (h.scans.filter (fun s => h.opens s = n)).length := by
    rw [← List.countP_eq_length_filter]
    induction h.scans with
    | nil => rfl
    | cons s rest ih =>
      simp only [List.countP_cons, decide_eq_true_eq, ih]
      split <;> split <;> split <;> omega
  rw [scanning_eq t b]
  rcases scan_at o n with ⟨s, _, opening, only, last⟩ | ⟨_, nobody, last⟩
  · rw [only] at count ⊢
    have fresh : h.clears.all (fun time => decide (time < n)) = true := by
      simpa using b.clears
    refine ⟨t.gate, t.life, ?_, ?_, ?_⟩
    · rw [last]
      rfl
    · simp [cached, last, Option.filter, opening, fresh, cachedAs, Engine.scan, Cache.store,
        waitingAs, Call.findings]
    · rw [count, ← t.scans]
      rfl
  · rw [nobody] at count ⊢
    refine ⟨t.gate, t.life, ?_, ?_, ?_⟩
    · rw [last]
      exact t.completed
    · rw [cached, last]
      exact t.slot
    · rw [count, ← t.scans]
      rfl

/-- All that an instant changes is what the history says of the next one. -/
theorem Tracks.settle {h : History} {now n : Nat} {e : Engine} (o : h.Ordered now)
    (t : h.Tracks n e) (b : h.Before n) :
    h.Tracks (n + 1) (Engine.settle n e).1 ∧
      (Engine.settle n e).2.Perm ((h.misses.filter (fun c => (h.answer c).1 = n)).map
        (fun c => ⟨c.id, (h.answer c).2⟩)) := by
  obtain ⟨gate, life, completed, slot, scans⟩ := t.scanned o b
  have once := fun c missed => instant o t b completed (c := c) missed
  constructor
  · rw [settle_state_eq]
    refine ⟨gate, life, ?_, ?_, completed, slot, scans⟩
    · exact (scanned_latest _ _ _).trans t.latest
    · change e.calls.filterMap _ = _
      rw [t.calls, waiting, waiting, List.filterMap_filterMap]
      apply List.filterMap_congr
      intro c hc
      exact (once c (List.mem_reverse.mp hc)).1
  · refine (settle_events_perm n e).trans ?_
    rw [t.calls, waiting, List.filterMap_filterMap, ← List.filterMap_eq_filter,
      List.map_filterMap]
    refine (List.Perm.filterMap _ (List.reverse_perm _)).trans ?_
    rw [List.filterMap_congr]
    intro c missed
    have answered := (once c missed).2
    have named : ∀ stage : Option CallStage,
        (stage.map (h.waitingAs c)).bind (fun call =>
          (answers e (Engine.scanned n e (scanning n e)) n call).map
            (fun ds => (⟨call.id, ds⟩ : Resolution))) =
        ((stage.map (h.waitingAs c)).bind
          (answers e (Engine.scanned n e (scanning n e)) n)).map (fun ds => ⟨c.id, ds⟩) := by
      intro stage
      cases stage with
      | none => rfl
      | some stage => rfl
    rw [named, answered]
    by_cases due : (h.answer c).1 = n
    · simp [Option.guard, due]
    · simp [Option.guard, due]

theorem stage_congr {h : History} {n m : Nat} {c : Call}
    (opening : h.opens c < n ↔ h.opens c < m) (answer : (h.answer c).1 < n ↔ (h.answer c).1 < m) :
    h.stage n c = h.stage m c := by
  have closed : n ≤ h.opens c ↔ m ≤ h.opens c := by omega
  simp only [stage, closed, answer]

theorem scanBefore_congr {h : History} {n m : Nat}
    (same : ∀ c ∈ h.misses, h.opens c < n ↔ h.opens c < m) : h.scanBefore n = h.scanBefore m := by
  apply List.find?_congr
  intro s scan
  simp only [decide_eq_decide]
  exact same s (mem_scans.mp scan).1

/-- Times between which no gate elapses and nobody is answered are the same to an engine. -/
theorem Tracks.congr {h : History} {n m : Nat} {e : Engine} (t : h.Tracks n e)
    (same : ∀ c ∈ h.misses, (h.opens c < n ↔ h.opens c < m) ∧
      ((h.answer c).1 < n ↔ (h.answer c).1 < m)) : h.Tracks m e := by
  have last := scanBefore_congr (fun c missed => (same c missed).1)
  refine ⟨t.gate, t.life, t.latest, ?_, last ▸ t.completed, ?_, ?_⟩
  · rw [t.calls]
    apply List.filterMap_congr
    intro c hc
    have both := same c (List.mem_reverse.mp hc)
    rw [stage_congr both.1 both.2]
  · rw [t.slot, cached, last, cached]
  · rw [t.scans]
    apply List.countP_congr
    intro s scan
    simp only [decide_eq_true_eq]
    exact (same s (mem_scans.mp scan).1).1

theorem Tracks.mem_calls {h : History} {n : Nat} {e : Engine} (t : h.Tracks n e)
    {call : EngineCall} : call ∈ e.calls ↔
      ∃ c ∈ h.misses, ∃ stage, h.stage n c = some stage ∧ h.waitingAs c stage = call := by
  simp [t.calls, waiting, List.mem_filterMap]

theorem Tracks.quiet {h : History} {now n m : Nat} {e : Engine} (o : h.Ordered now)
    (t : h.Tracks n e) (le : n ≤ m) (ahead : ∀ call ∈ e.calls, m ≤ call.stage.ends) :
    ∀ c ∈ h.misses, (h.opens c < n ↔ h.opens c < m) ∧
      ((h.answer c).1 < n ↔ (h.answer c).1 < m) := by
  have closed : ∀ c ∈ h.misses, n ≤ h.opens c → m ≤ h.opens c := by
    intro c missed early
    exact ahead _ (t.mem_calls.mpr ⟨c, missed, _, stage_closed early, rfl⟩)
  intro c missed
  have miss := o.not_hit missed
  have after := opens_le_answer miss
  have early := closed c missed
  refine ⟨by omega, by omega, ?_⟩
  intro answered
  apply Nat.lt_of_not_le
  intro waiting
  rcases Nat.lt_or_ge (h.opens c) n with passed | early
  · have limit := ahead _ (t.mem_calls.mpr ⟨c, missed, _, stage_superseded passed waiting, rfl⟩)
    change m ≤ h.opens c + 3000 at limit
    cases alone : h.undisturbed c with
    | true =>
      rw [answer_of_undisturbed miss alone] at waiting
      exact absurd passed (Nat.not_lt.mpr waiting)
    | false =>
      have late : ∀ s ∈ h.scans, h.opens c < h.opens s → m ≤ h.opens s := by
        intro s scan behind
        apply closed s (mem_scans.mp scan).1
        have earliest := o.answer_le_scan miss alone scan behind
        omega
      rcases answer_of_late_scans (m - 1) miss alone (by
        intro s scan behind
        have := late s scan behind
        omega) with ⟨finished, _⟩ | ⟨_, later⟩ <;> omega
  · have := closed c missed early
    omega

theorem Tracks.idle {h : History} {now n : Nat} {e : Engine} (o : h.Ordered now)
    (t : h.Tracks (n + 1) e) :
    ∀ call ∈ e.calls, n < call.stage.ends ∧ e.resolve? n call = none ∧
      throughGate e.latest n call = some call := by
  intro call member
  obtain ⟨c, missed, stage, found, rfl⟩ := t.mem_calls.mp member
  have miss := o.not_hit missed
  unfold History.stage at found
  split at found
  · rename_i closed
    cases found
    refine ⟨closed, rfl, ?_⟩
    simp [throughGate, waitingAs, Nat.not_le.mpr closed]
  · rename_i passed
    split at found
    · cases found
    · rename_i waiting
      cases found
      cases alone : h.undisturbed c with
      | true =>
        rw [answer_of_undisturbed miss alone] at waiting
        dsimp only at waiting
        omega
      | false =>
        have limit := (answer_time_of_disturbed miss alone).2
        refine ⟨by change n < h.opens c + 3000; omega, ?_, rfl⟩
        rw [resolve_of_older t.completed missed, if_neg (by omega)]
        intro s found
        have spec := (find_scans o.misses _ s).mp found
        have made : h.opens s < n + 1 := of_decide_eq_true spec.2.1
        exact o.older_scan missed alone spec.1 (by omega)

end History
end BufferLint.Engine
