import BufferLint.Engine.Basic
import BufferLint.Proofs.Timed.Invariant
import Mathlib.Data.List.Find
import Mathlib.Data.List.Pairwise

/-! What an engine owes its callers, said from the calls alone. A history knows when which call was
made and when the cache was cleared; which calls the cache could answer, which of the others
scan, and what each of them is answered and when follow from that. No state of an engine is
used in these definitions. -/
namespace BufferLint.Engine

structure Call where
  id : Nat
  time : Nat
  content : String
  type : FileType
  deriving DecidableEq, Repr

namespace Call

def asksSame (c d : Call) : Bool := c.type = d.type && c.content = d.content

def findings (c : Call) : List Diagnostic := analyze c.content c.type

end Call

def callAt : Nat × Action → Option Call
  | (time, .lint id content type) => some ⟨id, time, content, type⟩
  | (_, .clearCache) => none

/- Newest first; `misses` are the calls that the cache could not answer. -/
structure History where
  gate : Nat
  calls : List Call := []
  clears : List Nat := []
  misses : List Call := []

namespace History

def opens (h : History) (c : Call) : Nat := c.time + h.gate

/- No other call that misses the cache comes before the gate of `c` elapses. -/
def undisturbed (h : History) (c : Call) : Bool :=
  h.misses.all (fun d => d.time ≤ c.time || h.opens c ≤ d.time)

def scans (h : History) : List Call := h.misses.filter h.undisturbed

/-- The most recent scan that was made when a call comes in at a time. -/
def lastScan (h : History) (time : Nat) : Option Call :=
  h.scans.find? (fun s => s.time < time && h.opens s ≤ time)

/-- The first scan that is made after a time. -/
def nextScan (h : History) (time : Nat) : Option Call :=
  h.scans.reverse.find? (fun s => time < h.opens s)

/-- The most recent scan was for the same thing, less than a second ago, and the cache was not
cleared since. -/
def isHit (h : History) (c : Call) : Bool :=
  (h.lastScan c.time).any (fun s =>
    s.asksSame c && c.time < h.opens s + 1000 &&
      h.clears.all (fun time => time < h.opens s || c.time ≤ time))

/-- When a call is answered, and what. -/
def answer (h : History) (c : Call) : Nat × List Diagnostic :=
  if h.isHit c then (c.time, c.findings)
  else if h.undisturbed c then (h.opens c, c.findings)
  else
    match h.nextScan (h.opens c) with
    | some s =>
      if h.opens s < h.opens c + 3000 then (h.opens s, if s.asksSame c then c.findings else [])
      else (h.opens c + 3000, [])
    | none => (h.opens c + 3000, [])

def extend (h : History) (event : Nat × Action) : History :=
  match event with
  | (time, .lint id content type) =>
    let c : Call := ⟨id, time, content, type⟩
    { h with calls := c :: h.calls, misses := if h.isHit c then h.misses else c :: h.misses }
  | (time, .clearCache) => { h with clears := time :: h.clears }

def ofSteps (gate : Nat) (steps : List (Timed.Step Action)) : History :=
  (Timed.Run.timeline 0 steps).foldl extend { gate }

/-- Calls come one after another, and what is not answered from the cache is a miss. -/
structure Ordered (h : History) (now : Nat) : Prop where
  calls : h.calls.Pairwise (fun c d => d.time < c.time)
  past : ∀ c ∈ h.calls, c.time < now
  cleared : ∀ time ∈ h.clears, time < now
  missed : h.misses = h.calls.filter (fun c => !h.isHit c)

theorem Ordered.misses {h : History} {now : Nat} (o : h.Ordered now) :
    h.misses.Pairwise (fun c d => d.time < c.time) := by
  rw [o.missed]
  exact o.calls.filter _

theorem Ordered.mem_calls {h : History} {now : Nat} (o : h.Ordered now) {c : Call}
    (missed : c ∈ h.misses) : c ∈ h.calls := by
  rw [o.missed] at missed
  exact (List.mem_filter.mp missed).1

theorem Ordered.not_hit {h : History} {now : Nat} (o : h.Ordered now) {c : Call}
    (missed : c ∈ h.misses) : h.isHit c = false := by
  rw [o.missed] at missed
  simpa using (List.mem_filter.mp missed).2

theorem Ordered.eq_of_time {h : History} {now : Nat} (o : h.Ordered now) {c d : Call}
    (hc : c ∈ h.misses) (hd : d ∈ h.misses) (same : c.time = d.time) : c = d := by
  apply Decidable.byContradiction
  intro different
  have apart : h.misses.Pairwise (fun c d => c.time ≠ d.time) :=
    o.misses.imp (fun below => Nat.ne_of_gt below)
  have symmetric : Std.Symm (fun c d : Call => c.time ≠ d.time) := ⟨fun _ _ ne => Ne.symm ne⟩
  exact apart.forall hc hd different same

theorem mem_scans {h : History} {c : Call} :
    c ∈ h.scans ↔ c ∈ h.misses ∧ h.undisturbed c = true := List.mem_filter

theorem undisturbed_iff {h : History} {c : Call} :
    h.undisturbed c = true ↔ ∀ d ∈ h.misses, d.time ≤ c.time ∨ h.opens c ≤ d.time := by
  simp [undisturbed, List.all_eq_true]

/-- The first element with a property is the one that all others with it come behind. -/
theorem find_eq_some_iff_first {α : Type} {R : α → α → Prop} (asymm : ∀ a b, R a b → ¬ R b a)
    {l : List α} (sorted : l.Pairwise R) (p : α → Bool) (a : α) :
    l.find? p = some a ↔ a ∈ l ∧ p a = true ∧ ∀ b ∈ l, p b = true → b = a ∨ R a b := by
  induction l with
  | nil => simp
  | cons x rest ih =>
    obtain ⟨front, tail⟩ := List.pairwise_cons.mp sorted
    by_cases found : p x = true
    · rw [List.find?_cons_of_pos found]
      constructor
      · intro h
        cases Option.some.inj h
        refine ⟨by simp, found, ?_⟩
        intro b hb _
        rcases List.mem_cons.mp hb with rfl | hb
        · exact .inl rfl
        · exact .inr (front b hb)
      · rintro ⟨ha, _, first⟩
        rcases List.mem_cons.mp ha with rfl | ha
        · rfl
        · rcases first x (by simp) found with same | behind
          · rw [same]
          · exact absurd behind (asymm _ _ (front a ha))
    · rw [List.find?_cons_of_neg found, ih tail]
      constructor
      · rintro ⟨ha, hp, first⟩
        refine ⟨List.mem_cons_of_mem _ ha, hp, ?_⟩
        intro b hb pb
        rcases List.mem_cons.mp hb with rfl | hb
        · exact absurd pb found
        · exact first b hb pb
      · rintro ⟨ha, hp, first⟩
        have inside : a ∈ rest := by
          rcases List.mem_cons.mp ha with rfl | ha
          · exact absurd hp found
          · exact ha
        exact ⟨inside, hp, fun b hb => first b (List.mem_cons_of_mem _ hb)⟩

theorem find_scans {h : History} (sorted : h.misses.Pairwise (fun c d => d.time < c.time))
    (p : Call → Bool) (s : Call) : h.scans.find? p = some s ↔
      s ∈ h.scans ∧ p s = true ∧ ∀ d ∈ h.scans, p d = true → d = s ∨ d.time < s.time :=
  find_eq_some_iff_first (fun _ _ below => by omega) (sorted.filter _) p s

theorem nextScan_eq_some {h : History} (sorted : h.misses.Pairwise (fun c d => d.time < c.time))
    (time : Nat) (s : Call) : h.nextScan time = some s ↔
      s ∈ h.scans ∧ time < h.opens s ∧
        ∀ d ∈ h.scans, time < h.opens d → d = s ∨ s.time < d.time := by
  have chronological : h.scans.reverse.Pairwise (fun c d => c.time < d.time) :=
    List.pairwise_reverse.mpr (sorted.filter _)
  have first := find_eq_some_iff_first (fun _ _ below => by omega) chronological
    (fun s => decide (time < h.opens s)) s
  simpa only [nextScan, List.mem_reverse, decide_eq_true_eq] using first

theorem nextScan_eq_none {h : History} {time : Nat} :
    h.nextScan time = none ↔ ∀ s ∈ h.scans, h.opens s ≤ time := by
  simp [nextScan]

theorem answer_of_hit {h : History} {c : Call} (hit : h.isHit c = true) :
    h.answer c = (c.time, c.findings) := by
  simp [answer, hit]

theorem answer_of_undisturbed {h : History} {c : Call} (miss : h.isHit c = false)
    (alone : h.undisturbed c = true) : h.answer c = (h.opens c, c.findings) := by
  simp [answer, miss, alone]

theorem answer_of_nextScan {h : History} {c s : Call} (miss : h.isHit c = false)
    (disturbed : h.undisturbed c = false) (next : h.nextScan (h.opens c) = some s)
    (soon : h.opens s < h.opens c + 3000) :
    h.answer c = (h.opens s, if s.asksSame c then c.findings else []) := by
  simp [answer, miss, disturbed, next, soon]

theorem answer_of_no_scan {h : History} {c : Call} (miss : h.isHit c = false)
    (disturbed : h.undisturbed c = false)
    (late : ∀ s, h.nextScan (h.opens c) = some s → h.opens c + 3000 ≤ h.opens s) :
    h.answer c = (h.opens c + 3000, []) := by
  simp only [answer, miss, disturbed, Bool.false_eq_true, if_false]
  split
  · rename_i s next
    rw [if_neg (Nat.not_lt.mpr (late s next))]
  · rfl

theorem nextScan_spec {h : History} {time : Nat} {s : Call} (next : h.nextScan time = some s) :
    s ∈ h.scans ∧ time < h.opens s := by
  have found := List.find?_some next
  exact ⟨List.mem_reverse.mp (List.mem_of_find?_eq_some next), of_decide_eq_true found⟩

theorem answer_time_of_disturbed {h : History} {c : Call} (miss : h.isHit c = false)
    (disturbed : h.undisturbed c = false) :
    h.opens c < (h.answer c).1 ∧ (h.answer c).1 ≤ h.opens c + 3000 := by
  by_cases soon : ∃ s, h.nextScan (h.opens c) = some s ∧ h.opens s < h.opens c + 3000
  · obtain ⟨s, next, soon⟩ := soon
    rw [answer_of_nextScan miss disturbed next soon]
    have after := (nextScan_spec next).2
    dsimp only
    omega
  · have late : ∀ s, h.nextScan (h.opens c) = some s → h.opens c + 3000 ≤ h.opens s := by
      intro s next
      exact Nat.le_of_not_lt (fun early => soon ⟨s, next, early⟩)
    rw [answer_of_no_scan miss disturbed late]
    dsimp only
    omega

theorem opens_le_answer {h : History} {c : Call} (miss : h.isHit c = false) :
    h.opens c ≤ (h.answer c).1 := by
  cases alone : h.undisturbed c with
  | true => simp [answer_of_undisturbed miss alone]
  | false => exact Nat.le_of_lt (answer_time_of_disturbed miss alone).1

/-- Every call is answered in time, and with its own findings or with nothing. -/
theorem answer_bounds (h : History) (c : Call) :
    c.time ≤ (h.answer c).1 ∧ (h.answer c).1 ≤ c.time + h.gate + 3000 ∧
      ((h.answer c).2 = c.findings ∨ (h.answer c).2 = []) := by
  have opening : h.opens c = c.time + h.gate := rfl
  cases hit : h.isHit c with
  | true =>
    rw [answer_of_hit hit]
    exact ⟨Nat.le_refl _, by dsimp only; omega, .inl rfl⟩
  | false =>
    have after := opens_le_answer hit
    cases alone : h.undisturbed c with
    | true =>
      rw [answer_of_undisturbed hit alone]
      exact ⟨by dsimp only; omega, by dsimp only; omega, .inl rfl⟩
    | false =>
      have within := (answer_time_of_disturbed hit alone).2
      refine ⟨by omega, by omega, ?_⟩
      by_cases soon : ∃ s, h.nextScan (h.opens c) = some s ∧ h.opens s < h.opens c + 3000
      · obtain ⟨s, next, soon⟩ := soon
        rw [answer_of_nextScan hit alone next soon]
        dsimp only
        split
        · exact .inl rfl
        · exact .inr rfl
      · right
        rw [answer_of_no_scan hit alone]
        intro s next
        exact Nat.le_of_not_lt (fun early => soon ⟨s, next, early⟩)

theorem Ordered.answer_le_scan {h : History} {now : Nat} (o : h.Ordered now) {c s : Call}
    (miss : h.isHit c = false) (disturbed : h.undisturbed c = false) (scan : s ∈ h.scans)
    (after : h.opens c < h.opens s) : (h.answer c).1 ≤ h.opens s := by
  cases next : h.nextScan (h.opens c) with
  | none => exact absurd (nextScan_eq_none.mp next s scan) (Nat.not_le.mpr after)
  | some first =>
    have earliest := ((nextScan_eq_some o.misses _ first).mp next).2.2 s scan after
    have before : h.opens first ≤ h.opens s := by
      rcases earliest with rfl | earlier
      · exact Nat.le_refl _
      · simp only [opens]
        omega
    by_cases soon : h.opens first < h.opens c + 3000
    · rw [answer_of_nextScan miss disturbed next soon]
      exact before
    · have patient := (answer_time_of_disturbed miss disturbed).2
      omega

section later

variable {h : History} {now : Nat}

theorem undisturbed_of_miss (x b : Call) (earlier : b.time < x.time) :
    ({ h with misses := x :: h.misses } : History).undisturbed b =
      (h.undisturbed b && decide (h.opens b ≤ x.time)) := by
  have behind : ¬ x.time ≤ b.time := Nat.not_le.mpr earlier
  simp only [undisturbed, opens, List.all_cons, behind, decide_false, Bool.false_or]
  exact Bool.and_comm _ _

theorem lastScan_of_miss (o : h.Ordered now) (x : Call) (newest : now ≤ x.time) (time : Nat)
    (seen : time ≤ x.time) :
    ({ h with misses := x :: h.misses } : History).lastScan time = h.lastScan time := by
  have ahead : ¬ x.time < time := Nat.not_lt.mpr seen
  simp only [lastScan, scans, List.find?_filter]
  rw [List.find?_cons_of_neg (by simp [ahead])]
  apply List.find?_congr
  intro d hd
  have earlier : d.time < x.time := Nat.lt_of_lt_of_le (o.past d (o.mem_calls hd)) newest
  have sameOpens : ({ h with misses := x :: h.misses } : History).opens d = h.opens d := rfl
  rw [undisturbed_of_miss x d earlier, sameOpens]
  by_cases made : h.opens d ≤ time
  · simp [Nat.le_trans made seen]
  · simp [made]

theorem isHit_of_miss (o : h.Ordered now) (x : Call) (newest : now ≤ x.time) (b : Call)
    (seen : b.time ≤ x.time) :
    ({ h with misses := x :: h.misses } : History).isHit b = h.isHit b := by
  unfold isHit
  rw [lastScan_of_miss o x newest b.time seen]
  rfl

theorem isHit_of_clear (time : Nat) (b : Call) (seen : b.time ≤ time) :
    ({ h with clears := time :: h.clears } : History).isHit b = h.isHit b := by
  have same : ({ h with clears := time :: h.clears } : History).lastScan b.time =
      h.lastScan b.time := rfl
  simp only [isHit, same, List.all_cons, seen, decide_true, Bool.or_true, Bool.true_and]
  rfl

/-- A disturbed call that no scan has reached by a time gives up by then, or is still waiting. -/
theorem answer_of_late_scans {c : Call} (time : Nat) (miss : h.isHit c = false)
    (disturbed : h.undisturbed c = false)
    (late : ∀ s ∈ h.scans, h.opens c < h.opens s → time < h.opens s) :
    (h.opens c + 3000 ≤ time ∧ h.answer c = (h.opens c + 3000, [])) ∨
      (time < h.opens c + 3000 ∧ time < (h.answer c).1) := by
  by_cases soon : ∃ s, h.nextScan (h.opens c) = some s ∧ h.opens s < h.opens c + 3000
  · obtain ⟨s, next, soon⟩ := soon
    have found := nextScan_spec next
    have after := late s found.1 found.2
    right
    rw [answer_of_nextScan miss disturbed next soon]
    exact ⟨by omega, after⟩
  · have answered := answer_of_no_scan miss disturbed (c := c) (h := h) (by
      intro s next
      exact Nat.le_of_not_lt (fun early => soon ⟨s, next, early⟩))
    rw [answered]
    by_cases finished : h.opens c + 3000 ≤ time
    · exact .inl ⟨finished, rfl⟩
    · exact .inr ⟨by omega, by dsimp only; omega⟩

theorem mem_scans_of_miss (o : h.Ordered now) (x : Call) (newest : now ≤ x.time) (s : Call) :
    s ∈ ({ h with misses := x :: h.misses } : History).scans ↔
      s = x ∨ (s ∈ h.scans ∧ h.opens s ≤ x.time) := by
  have behind : ∀ d ∈ h.misses, d.time < x.time :=
    fun d hd => Nat.lt_of_lt_of_le (o.past d (o.mem_calls hd)) newest
  rw [mem_scans, List.mem_cons]
  constructor
  · rintro ⟨rfl | old, alone⟩
    · exact .inl rfl
    · rw [undisturbed_of_miss x s (behind s old)] at alone
      simp only [Bool.and_eq_true, decide_eq_true_eq] at alone
      exact .inr ⟨mem_scans.mpr ⟨old, alone.1⟩, alone.2⟩
  · rintro (rfl | ⟨old, made⟩)
    · refine ⟨.inl rfl, undisturbed_iff.mpr ?_⟩
      intro d hd
      rcases List.mem_cons.mp hd with rfl | hd
      · exact .inl (Nat.le_refl _)
      · exact .inl (Nat.le_of_lt (behind d hd))
    · obtain ⟨missed, alone⟩ := mem_scans.mp old
      refine ⟨.inr missed, ?_⟩
      rw [undisturbed_of_miss x s (behind s missed)]
      simp [alone, made]

theorem gate_pos_of_disturbed {c : Call} (disturbed : h.undisturbed c = false) : 0 < h.gate := by
  apply Nat.pos_of_ne_zero
  intro zero
  have alone : h.undisturbed c = true := undisturbed_iff.mpr (by
    intro d _
    simp only [opens]
    omega)
  simp [alone] at disturbed

theorem late_of_nextScan (o : h.Ordered now) {n time : Nat}
    (late : ∀ first, h.nextScan time = some first → n < h.opens first) :
    ∀ s ∈ h.scans, time < h.opens s → n < h.opens s := by
  intro s scan after
  cases next : h.nextScan time with
  | none => exact absurd (nextScan_eq_none.mp next s scan) (Nat.not_le.mpr after)
  | some first =>
    have behind := late first next
    rcases ((nextScan_eq_some o.misses _ first).mp next).2.2 s scan after with rfl | before
    · exact behind
    · simp only [opens] at behind ⊢
      omega

theorem nextScan_of_miss (o : h.Ordered now) (x : Call) (newest : now ≤ x.time) {time : Nat}
    {first : Call} (next : h.nextScan time = some first) :
    ({ h with misses := x :: h.misses } : History).nextScan time = some first ∨
      x.time < h.opens first := by
  have behind : ∀ d ∈ h.misses, d.time < x.time :=
    fun d hd => Nat.lt_of_lt_of_le (o.past d (o.mem_calls hd)) newest
  have sorted : (x :: h.misses).Pairwise (fun c d => d.time < c.time) :=
    List.pairwise_cons.mpr ⟨behind, o.misses⟩
  have spec := (nextScan_eq_some o.misses _ first).mp next
  have scans := mem_scans_of_miss o x newest
  by_cases made : h.opens first ≤ x.time
  · left
    refine (nextScan_eq_some (h := { h with misses := x :: h.misses }) sorted time first).mpr
      ⟨(scans first).mpr (.inr ⟨spec.1, made⟩), spec.2.1, ?_⟩
    intro d hd later
    rcases (scans d).mp hd with rfl | ⟨old, _⟩
    · exact .inr (behind _ (mem_scans.mp spec.1).1)
    · exact spec.2.2 d old later
  · exact .inr (Nat.lt_of_not_le made)

theorem answer_of_same_scan {h' : History} {c first : Call}
    (opens : ∀ d, h'.opens d = h.opens d) (miss : h.isHit c = false) (miss' : h'.isHit c = false)
    (disturbed : h.undisturbed c = false) (disturbed' : h'.undisturbed c = false)
    (next : h.nextScan (h.opens c) = some first) (next' : h'.nextScan (h.opens c) = some first) :
    h'.answer c = h.answer c := by
  by_cases soon : h.opens first < h.opens c + 3000
  · rw [answer_of_nextScan miss disturbed next soon,
      answer_of_nextScan miss' disturbed' (by rwa [opens]) (by rwa [opens, opens]), opens]
  · rw [answer_of_no_scan miss disturbed, answer_of_no_scan miss' disturbed', opens]
    · rw [opens, next']
      intro s same
      cases same
      rw [opens]
      omega
    · rw [next]
      intro s same
      cases same
      omega

/-- One more call that misses the cache: whoever is answered by then keeps the answer, and whoever
is not is answered later still. -/
theorem answer_of_miss (o : h.Ordered now) (x : Call) (newest : now ≤ x.time) (b : Call)
    (called : b ∈ h.calls) :
    ({ h with misses := x :: h.misses } : History).answer b = h.answer b ∨
      (x.time < (h.answer b).1 ∧
        x.time < (({ h with misses := x :: h.misses } : History).answer b).1) := by
  have earlier : b.time < x.time := Nat.lt_of_lt_of_le (o.past b called) newest
  have sameHit := isHit_of_miss o x newest b (Nat.le_of_lt earlier)
  have sameAlone := undisturbed_of_miss (h := h) x b earlier
  have scans' := mem_scans_of_miss o x newest
  have sameOpens : ∀ c, ({ h with misses := x :: h.misses } : History).opens c = h.opens c :=
    fun _ => rfl
  have kept : ∀ first, h.nextScan (h.opens b) = some first → _ :=
    fun first => nextScan_of_miss o x newest
  generalize ({ h with misses := x :: h.misses } : History) = h' at *
  cases hit : h.isHit b with
  | true =>
    left
    rw [answer_of_hit hit, answer_of_hit (sameHit.trans hit)]
  | false =>
    have miss' : h'.isHit b = false := sameHit.trans hit
    by_cases open_ : h.opens b ≤ x.time
    · simp only [open_, decide_true, Bool.and_true] at sameAlone
      cases alone : h.undisturbed b with
      | true =>
        left
        rw [answer_of_undisturbed hit alone, answer_of_undisturbed miss' (sameAlone.trans alone),
          sameOpens]
      | false =>
        have alone' := sameAlone.trans alone
        by_cases reached : ∃ first, h.nextScan (h.opens b) = some first ∧ h.opens first ≤ x.time
        · obtain ⟨first, next, made⟩ := reached
          have next' := (kept first next).resolve_right (Nat.not_lt.mpr made)
          exact .inl (answer_of_same_scan sameOpens hit miss' alone alone' next next')
        · have late := late_of_nextScan o
            (fun first next => Nat.lt_of_not_le (fun made => reached ⟨first, next, made⟩))
          have late' : ∀ s ∈ h'.scans, h'.opens b < h'.opens s → x.time < h'.opens s := by
            intro s scan after
            rw [sameOpens, sameOpens] at after
            rw [sameOpens]
            rcases (scans' s).mp scan with rfl | ⟨old, made⟩
            · have positive := gate_pos_of_disturbed alone
              simp only [opens]
              omega
            · exact late s old after
          rcases answer_of_late_scans x.time hit alone late with ⟨gone, old⟩ | ⟨_, old⟩ <;>
            rcases answer_of_late_scans x.time miss' alone' late' with ⟨gone', new⟩ | ⟨waiting, new⟩
          · left
            rw [old, new, sameOpens]
          · rw [sameOpens] at waiting
            omega
          · rw [sameOpens] at gone'
            omega
          · exact .inr ⟨old, new⟩
    · right
      have after := opens_le_answer hit
      have after' := opens_le_answer miss'
      rw [sameOpens] at after'
      omega

theorem Ordered.call (o : h.Ordered now) (c : Call) (future : now ≤ c.time) :
    (c :: h.calls).Pairwise (fun c d => d.time < c.time) ∧
      ∀ d ∈ c :: h.calls, d.time < c.time + 1 := by
  have behind : ∀ d ∈ h.calls, d.time < c.time :=
    fun d hd => Nat.lt_of_lt_of_le (o.past d hd) future
  refine ⟨List.pairwise_cons.mpr ⟨behind, o.calls⟩, ?_⟩
  intro d hd
  rcases List.mem_cons.mp hd with rfl | hd
  · exact Nat.lt_succ_self _
  · exact Nat.lt_succ_of_lt (behind d hd)

theorem Ordered.extend_hit (o : h.Ordered now) (c : Call) (future : now ≤ c.time)
    (hit : h.isHit c = true) : Ordered { h with calls := c :: h.calls } (c.time + 1) where
  calls := (o.call c future).1
  past := (o.call c future).2
  cleared time cleared := Nat.lt_of_lt_of_le (o.cleared time cleared) (by omega)
  missed := by
    change h.misses = (c :: h.calls).filter (fun d => !h.isHit d)
    rw [List.filter_cons_of_neg (by simp [hit]), ← o.missed]

theorem Ordered.extend_miss (o : h.Ordered now) (c : Call) (future : now ≤ c.time)
    (miss : h.isHit c = false) :
    Ordered { h with calls := c :: h.calls, misses := c :: h.misses } (c.time + 1) where
  calls := (o.call c future).1
  past := (o.call c future).2
  cleared time cleared := Nat.lt_of_lt_of_le (o.cleared time cleared) (by omega)
  missed := by
    change c :: h.misses = (c :: h.calls).filter
      (fun d => !({ h with misses := c :: h.misses } : History).isHit d)
    rw [List.filter_cons_of_pos (by simp [isHit_of_miss o c future c (Nat.le_refl _), miss])]
    congr 1
    rw [o.missed]
    apply List.filter_congr
    intro d hd
    have earlier := Nat.lt_of_lt_of_le (o.past d hd) future
    rw [← o.missed, isHit_of_miss o c future d (Nat.le_of_lt earlier)]

theorem Ordered.extend_clear (o : h.Ordered now) (time : Nat) (future : now ≤ time) :
    Ordered { h with clears := time :: h.clears } (time + 1) where
  calls := o.calls
  past c hc := Nat.lt_succ_of_lt (Nat.lt_of_lt_of_le (o.past c hc) future)
  cleared other cleared := by
    rcases List.mem_cons.mp cleared with rfl | cleared
    · exact Nat.lt_succ_self _
    · exact Nat.lt_succ_of_lt (Nat.lt_of_lt_of_le (o.cleared other cleared) future)
  missed := by
    change h.misses = h.calls.filter
      (fun d => !({ h with clears := time :: h.clears } : History).isHit d)
    rw [o.missed]
    apply List.filter_congr
    intro d hd
    have earlier := Nat.lt_of_lt_of_le (o.past d hd) future
    rw [← o.missed, isHit_of_clear time d (Nat.le_of_lt earlier)]

end later

end History
end BufferLint.Engine
