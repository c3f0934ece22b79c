import BufferLint.Proofs.Service.Exchanges
import Mathlib.Data.List.Induction

/-! Probes and what is known of the services from them. A probe counts from the time at which its
exchange is over, so of two probes the one that ended later counts, and of two that ended together
the one that was begun later. -/
namespace BufferLint

structure Probe where
  type : FileType
  ends : Nat
  alive : Bool

def Probe.recording (p : Probe) : Nat × Completion := (p.ends, .record p.type p.alive)

/- The one that ended later; the first was begun later. -/
def Probe.later (p : Probe) : Option Probe → Probe
  | some q => if q.ends ≤ p.ends then p else q
  | none => p

/-- Of probes, the newest first, the one of a language that was over last at a time. -/
def lastCompleted (now : Nat) (t : FileType) : List Probe → Option Probe
  | [] => none
  | p :: older =>
    if p.type = t ∧ p.ends ≤ now then some (p.later (lastCompleted now t older))
    else lastCompleted now t older

/-- The service was there when the last probe of it was over. What was never probed counts as it was
known in the beginning: as being there, unless it was known not to be. -/
def FoundAlive (now : Nat) (t : FileType) (ps : List Probe) (first : Option Bool) : Prop :=
  match lastCompleted now t ps with
  | some p => p.alive = true
  | none => first ≠ some false

theorem Probe.later_of_le {p : Probe} {q : Option Probe} (before : ∀ x ∈ q, x.ends ≤ p.ends) :
    p.later q = p := by
  cases q with
  | none => rfl
  | some x => exact if_pos (before x rfl)

theorem Probe.later_of_lt {p q : Probe} (behind : p.ends < q.ends) : p.later (some q) = q :=
  if_neg (Nat.not_le.mpr behind)

theorem lastCompleted_mem {now : Nat} {t : FileType} {ps : List Probe} {p : Probe}
    (last : lastCompleted now t ps = some p) : p ∈ ps ∧ p.ends ≤ now := by
  induction ps with
  | nil => cases last
  | cons q older ih =>
    unfold lastCompleted at last
    split at last
    · rename_i ended
      cases found : lastCompleted now t older with
      | none =>
        rw [found] at last
        cases last
        exact ⟨List.mem_cons_self, ended.2⟩
      | some x =>
        rw [found] at last
        unfold Probe.later at last
        simp only at last
        split at last
        · cases last
          exact ⟨List.mem_cons_self, ended.2⟩
        · cases last
          obtain ⟨member, soon⟩ := ih found
          exact ⟨List.mem_cons_of_mem _ member, soon⟩
    · obtain ⟨member, soon⟩ := ih last
      exact ⟨List.mem_cons_of_mem _ member, soon⟩

/-- Those that end after an earlier time count before those that were over by then. -/
theorem lastCompleted_split {now n : Nat} (t : FileType) (ps : List Probe) (le : now ≤ n) :
    lastCompleted n t ps = (lastCompleted n t (ps.filter (fun p => now < p.ends))).or
      (lastCompleted now t ps) := by
  induction ps with
  | nil => rfl
  | cons p older ih =>
    by_cases mine : p.type = t
    · by_cases early : p.ends ≤ now
      · have soon : p.ends ≤ n := Nat.le_trans early le
        rw [List.filter_cons_of_neg (by simpa using early)]
        simp only [lastCompleted, mine, early, soon, and_self, if_true, ih]
        cases late : lastCompleted n t (older.filter (fun p => now < p.ends)) with
        | none => rfl
        | some q =>
          have behind := of_decide_eq_true (List.mem_filter.mp (lastCompleted_mem late).1).2
          rw [Option.some_or, Option.some_or, Probe.later_of_lt (by omega)]
      · rw [List.filter_cons_of_pos (by simpa using early)]
        simp only [lastCompleted, mine, early, and_false, if_false, true_and, ih]
        split
        · cases lastCompleted n t (older.filter (fun p => now < p.ends)) with
          | some q => rfl
          | none =>
            rw [Option.none_or, Option.some_or]
            congr 1
            have before : ∀ x ∈ lastCompleted now t older, x.ends ≤ p.ends := by
              intro x last
              have := (lastCompleted_mem last).2
              omega
            rw [Probe.later_of_le before]
            rfl
        · rfl
    · by_cases early : p.ends ≤ now
      · rw [List.filter_cons_of_neg (by simpa using early)]
        simp only [lastCompleted, mine, false_and, if_false, ih]
      · rw [List.filter_cons_of_pos (by simpa using early)]
        simp only [lastCompleted, mine, false_and, if_false, ih]

namespace Gateway

def probeOf (row : Nat × Completion) : Option Probe :=
  match row.2 with
  | .record t alive => some ⟨t, row.1, alive⟩
  | _ => none

def probing (rows : Timed.Agenda Completion) : List Probe := (rows.filterMap probeOf).reverse

def headRequest (t : FileType) (e : Endpoint) : Request := ⟨t, .head, e.statusUrl, none⟩

/- What probing a language now will bring, if it is the next request of its kind. -/
def probeNow (net : Network) (now : Nat) (g : Gateway) (t : FileType) : Probe :=
  ⟨t, now + (g.ask net t).2.1, (g.ask net t).2.2⟩

theorem probing_append (rows more : Timed.Agenda Completion) :
    probing (rows ++ more) = probing more ++ probing rows := by
  simp [probing]

theorem probing_later (rows : Timed.Agenda Completion) (now : Nat) :
    probing (rows.later now) = (probing rows).filter (fun p => now < p.ends) := by
  unfold probing Timed.Agenda.later
  rw [List.filter_reverse]
  congr 1
  induction rows with
  | nil => rfl
  | cons row rest ih =>
    obtain ⟨time, c⟩ := row
    by_cases later : now < time <;> cases c <;>
      simp [List.filterMap_cons, probeOf, later, ih]

/-- What is known of a language when everything that is due has been recorded, if nothing was
overdue: then all that is due is due at this very time, and the newest of it counts. -/
theorem availability_complete {now : Nat} (g : Gateway) (rows : Timed.Agenda Completion)
    (ahead : ∀ row ∈ rows, now ≤ row.1) (t : FileType) :
    ((rows.due now).foldl complete (g, [])).1.availability t =
      ((lastCompleted now t (probing rows)).map (fun p => some p.alive)).getD
        (g.availability t) := by
  induction rows using List.reverseRecOn with
  | nil => rfl
  | append_singleton rows row ih =>
    have before := ih (fun x member => ahead x (List.mem_append_left _ member))
    have time := ahead row (by simp)
    obtain ⟨ends, c⟩ := row
    have due : Timed.Agenda.due (rows ++ [(ends, c)]) now =
        Timed.Agenda.due rows now ++ if ends ≤ now then [c] else [] := by
      by_cases ended : ends ≤ now <;> simp [Timed.Agenda.due, ended]
    rw [due, List.foldl_append, probing_append]
    by_cases ended : ends ≤ now
    · rw [if_pos ended]
      cases c with
      | record u alive =>
        have newest : ∀ x ∈ lastCompleted now t (probing rows), x.ends ≤ ends := by
          intro x last
          exact Nat.le_trans (lastCompleted_mem last).2 time
        by_cases mine : u = t
        · have last : lastCompleted now t (probing [(ends, .record u alive)] ++ probing rows) =
              some ⟨u, ends, alive⟩ := by
            rw [← Probe.later_of_le (p := ⟨u, ends, alive⟩) newest]
            exact if_pos ⟨mine, ended⟩
          rw [last]
          exact if_pos mine.symm
        · have last : lastCompleted now t (probing [(ends, .record u alive)] ++ probing rows) =
              lastCompleted now t (probing rows) := if_neg (fun both => mine both.1)
          rw [last, ← before]
          exact if_neg (fun same : t = u => mine same.symm)
      | probed id alive => exact before
      | probedAll id alive => exact before
      | checked id result => exact before
    · rw [if_neg ended, List.foldl_nil, before]
      cases c with
      | record u alive =>
        have last : lastCompleted now t (probing [(ends, .record u alive)] ++ probing rows) =
            lastCompleted now t (probing rows) := if_neg (fun both => ended both.2)
        rw [last]
      | probed id alive => rfl
      | probedAll id alive => rfl
      | checked id result => rfl

/-- What a gateway knows of the services is what the probes that are over have told, and what it
knew in the beginning of those that were never probed. -/
structure Knows (now : Nat) (g : Gateway) (first : FileType → Option Bool) (ps : List Probe) :
    Prop where
  ahead : ∀ row ∈ g.pending, now ≤ row.1
  /- `last` is the probe that was recorded last. -/
  known : ∀ t, ∃ last : Option Probe, (∀ p ∈ last, p.ends ≤ now) ∧
    g.availability t = (last.map (fun p => some p.alive)).getD (first t) ∧
    ∀ n, now ≤ n → lastCompleted n t ps = (lastCompleted n t (probing g.pending)).or last

section

variable {net : Network} {now : Nat} {g : Gateway} {first : FileType → Option Bool}
  {ps : List Probe}

theorem Knows.availability (knows : Knows now g first ps)
    (settled : ∀ row ∈ g.pending, now < row.1) (t : FileType) :
    g.availability t = ((lastCompleted now t ps).map (fun p => some p.alive)).getD (first t) := by
  obtain ⟨last, _, known, counts⟩ := knows.known t
  have nothing : lastCompleted now t (probing g.pending) = none := by
    refine Option.eq_none_iff_forall_not_mem.mpr ?_
    intro p ended
    obtain ⟨member, soon⟩ := lastCompleted_mem ended
    obtain ⟨row, pending, same⟩ := List.mem_filterMap.mp (List.mem_reverse.mp member)
    have late := settled row pending
    unfold probeOf at same
    split at same
    · cases same
      exact absurd soon (Nat.not_le.mpr late)
    · cases same
  rw [known, counts now (Nat.le_refl now), nothing, Option.none_or]

theorem Knows.foundAlive_iff (knows : Knows now g first ps)
    (settled : ∀ row ∈ g.pending, now < row.1) (t : FileType) :
    g.availability t ≠ some false ↔ FoundAlive now t ps (first t) := by
  rw [knows.availability settled t, FoundAlive]
  cases lastCompleted now t ps with
  | none => rfl
  | some p => simp

theorem Knows.wait (knows : Knows now g first ps) (k : Nat)
    (early : ∀ row ∈ g.pending, now + k ≤ row.1) : Knows (now + k) g first ps := by
  refine ⟨early, ?_⟩
  intro t
  obtain ⟨last, ended, known, counts⟩ := knows.known t
  exact ⟨last, fun p member => Nat.le_trans (ended p member) (Nat.le_add_right _ _), known,
    fun n le => counts n (Nat.le_trans (Nat.le_add_right _ _) le)⟩

theorem Knows.settle (knows : Knows now g first ps) :
    Knows now (g.settle now).1 first ps := by
  obtain ⟨availability, same⟩ := g.settle_eq now
  have pending : (g.settle now).1.pending = g.pending.later now := by rw [same]
  constructor
  · intro row member
    rw [pending] at member
    exact knows.ahead row (List.mem_filter.mp member).1
  · intro t
    obtain ⟨last, ended, known, counts⟩ := knows.known t
    refine ⟨(lastCompleted now t (probing g.pending)).or last, ?_, ?_, ?_⟩
    · intro p recorded
      rcases Option.or_eq_some_iff.mp recorded with new | ⟨_, old⟩
      · exact (lastCompleted_mem new).2
      · exact ended p old
    · refine (availability_complete { g with pending := g.pending.later now } g.pending knows.ahead
        t).trans ?_
      change Option.getD _ (g.availability t) = _
      rw [known]
      cases lastCompleted now t (probing g.pending) <;> rfl
    · intro n le
      rw [counts n le, pending, probing_later, lastCompleted_split t _ le, Option.or_assoc]

theorem Knows.launch (knows : Knows now g first ps) {sent : List Request} {p : Probe}
    (ahead : now ≤ p.ends) :
    Knows now (({ g with sent }).schedule p.ends (.record p.type p.alive)) first (p :: ps) := by
  constructor
  · intro row member
    rcases List.mem_append.mp member with old | new
    · exact knows.ahead row old
    · rw [List.mem_singleton.mp new]
      exact ahead
  · intro t
    obtain ⟨last, ended, known, counts⟩ := knows.known t
    refine ⟨last, ended, known, ?_⟩
    intro n le
    have pending : probing (({ g with sent }).schedule p.ends (.record p.type p.alive)).pending =
        p :: probing g.pending := by
      exact probing_append g.pending [(p.ends, .record p.type p.alive)]
    rw [pending]
    by_cases mine : p.type = t ∧ p.ends ≤ n
    · simp only [lastCompleted, if_pos mine, counts n le, Option.some_or]
      cases lastCompleted n t (probing g.pending) with
      | some q => rfl
      | none =>
        have before : ∀ x ∈ last, x.ends ≤ p.ends :=
          fun x recorded => Nat.le_trans (ended x recorded) ahead
        rw [Option.none_or, Probe.later_of_le before]
        rfl
    · simp only [lastCompleted, if_neg mine, counts n le]

theorem Knows.schedule (knows : Knows now g first ps) {sent : List Request} {time : Nat}
    {c : Completion} (ahead : now ≤ time) (other : probeOf (time, c) = none) :
    Knows now (({ g with sent }).schedule time c) first ps := by
  constructor
  · intro row member
    rcases List.mem_append.mp member with old | new
    · exact knows.ahead row old
    · rw [List.mem_singleton.mp new]
      exact ahead
  · intro t
    obtain ⟨last, ended, known, counts⟩ := knows.known t
    refine ⟨last, ended, known, ?_⟩
    intro n le
    have pending : probing (({ g with sent }).schedule time c).pending = probing g.pending := by
      refine (probing_append g.pending [(time, c)]).trans ?_
      simp [probing, other]
    rw [pending]
    exact counts n le

end

def head? (g : Gateway) (t : FileType) : Option Request := (g.endpoints t).map (headRequest t)

theorem ask_fst_eq (net : Network) (t : FileType) (g : Gateway) :
    (g.ask net t).1 = { g with sent := (g.head? t).toList ++ g.sent } := by
  unfold ask head?
  split
  · rename_i nobody
    simp [nobody]
  · rename_i e found
    dsimp only [send]
    split <;> simp [found, headRequest]

theorem sent_settle (now : Nat) (g : Gateway) : (g.settle now).1.sent = g.sent := by
  obtain ⟨availability, same⟩ := g.settle_eq now
  rw [same]

theorem endpoints_settle (now : Nat) (g : Gateway) :
    (g.settle now).1.endpoints = g.endpoints := by
  obtain ⟨availability, same⟩ := g.settle_eq now
  rw [same]

theorem sent_probe (net : Network) (id : Nat) (t : FileType) (now : Nat) (g : Gateway) :
    (g.probe net id t now).sent = (g.head? t).toList ++ g.sent :=
  congrArg Gateway.sent (ask_fst_eq net t g)

theorem probe_eq (net : Network) (id : Nat) (t : FileType) (now : Nat) (g : Gateway) :
    g.probe net id t now =
      (({ g with sent := (g.head? t).toList ++ g.sent }).schedule (g.probeNow net now t).ends
        (.record t (g.probeNow net now t).alive)).schedule (g.probeNow net now t).ends
        (.probed id (g.probeNow net now t).alive) := by
  unfold probe probeNow
  dsimp only
  rw [ask_fst_eq]

/- A gateway that would learn the same from asking one of these languages. -/
structure AsksLike (g h : Gateway) (ts : List FileType) : Prop where
  client : h.client = g.client
  endpoints : h.endpoints = g.endpoints
  before : ∀ request : Request, request.type ∈ ts → h.sentBefore request = g.sentBefore request

section

variable {net : Network} {now : Nat} {g h : Gateway} {first : FileType → Option Bool}
  {ps : List Probe} {t : FileType} {ts : List FileType}

theorem AsksLike.ask (like : AsksLike g h ts) (member : t ∈ ts) :
    (h.ask net t).2 = (g.ask net t).2 := by
  unfold Gateway.ask
  rw [like.endpoints]
  split
  · rfl
  · rename_i e _
    dsimp only [send]
    rw [like.client, like.before ⟨t, .head, e.statusUrl, none⟩ member]
    split <;> rfl

theorem AsksLike.next (like : AsksLike g h (t :: ts)) (other : t ∉ ts) (time : Nat)
    (c : Completion) : AsksLike g ((h.ask net t).1.schedule time c) ts := by
  rw [ask_fst_eq]
  refine ⟨like.client, like.endpoints, ?_⟩
  intro request member
  rw [← like.before request (List.mem_cons_of_mem _ member)]
  have apart : ¬ t = request.type := by
    rintro rfl
    exact other member
  unfold sentBefore head? schedule
  cases h.endpoints t with
  | none => rfl
  | some e => simp [headRequest, apart]

variable (net now) in
/-- Asking one language after another brings what asking each of them at once would. -/
theorem foldl_ask (different : ts.Nodup) (like : AsksLike g h ts) (slowest : Nat)
    (told : List (FileType × Bool)) :
    ts.foldl (fun (acc : Gateway × Nat × List (FileType × Bool)) t =>
        ((acc.1.ask net t).1.schedule (now + (acc.1.ask net t).2.1)
            (.record t (acc.1.ask net t).2.2),
          max acc.2.1 (acc.1.ask net t).2.1, acc.2.2 ++ [(t, (acc.1.ask net t).2.2)]))
        (h, slowest, told) =
      ({ h with
          sent := (ts.filterMap g.head?).reverse ++ h.sent
          pending := h.pending ++ (ts.map (g.probeNow net now)).map Probe.recording },
        ts.foldl (fun latest t => max latest (g.ask net t).2.1) slowest,
        told ++ ts.map (fun t => (t, (g.ask net t).2.2))) := by
  induction ts generalizing h slowest told with
  | nil => simp
  | cons t rest ih =>
    obtain ⟨other, different⟩ := List.nodup_cons.mp different
    have asked : (h.ask net t).2 = (g.ask net t).2 := like.ask List.mem_cons_self
    have head : h.head? t = g.head? t := by rw [head?, like.endpoints, head?]
    rw [List.foldl_cons, ih different (like.next other _ _)]
    simp only [asked, ask_fst_eq, head, schedule, Timed.Agenda.add]
    cases found : g.head? t with
    | none => simp [found, probeNow, Probe.recording]
    | some request => simp [found, probeNow, Probe.recording]

end

def round (net : Network) (now : Nat) (g : Gateway) : List Probe :=
  g.registered.map (g.probeNow net now)

theorem filterMap_registered (g : Gateway) :
    g.registered.filterMap g.head? = FileType.all.filterMap g.head? := by
  unfold registered
  rw [List.filterMap_filter]
  congr 1
  funext t
  unfold supports head?
  cases g.endpoints t <;> rfl

def lastEnd (begins : Nat) (ps : List Probe) : Nat :=
  ps.foldl (fun latest p => max latest p.ends) begins

theorem le_lastEnd (begins : Nat) (ps : List Probe) :
    begins ≤ lastEnd begins ps ∧ ∀ p ∈ ps, p.ends ≤ lastEnd begins ps := by
  induction ps generalizing begins with
  | nil => exact ⟨Nat.le_refl _, by simp⟩
  | cons q rest ih =>
    obtain ⟨first, others⟩ := ih (max begins q.ends)
    refine ⟨Nat.le_trans (Nat.le_max_left _ _) first, ?_⟩
    intro p member
    rcases List.mem_cons.mp member with rfl | later
    · exact Nat.le_trans (Nat.le_max_right _ _) first
    · exact others p later

theorem lastEnd_probeNow (net : Network) (now : Nat) (g : Gateway) (ts : List FileType)
    (slowest : Nat) :
    lastEnd (now + slowest) (ts.map (g.probeNow net now)) =
      now + ts.foldl (fun latest t => max latest (g.ask net t).2.1) slowest := by
  induction ts generalizing slowest with
  | nil => rfl
  | cons t rest ih =>
    rw [List.foldl_cons, ← ih, List.map_cons, lastEnd, List.foldl_cons, probeNow,
      Nat.add_max_add_left]
    rfl

/-- A round of probing sends one request for each language that is registered, and is over with the
slowest of them. -/
theorem probeAll_eq (net : Network) (id now : Nat) (g : Gateway) :
    g.probeAll net id now =
      ({ g with
          sent := (FileType.all.filterMap g.head?).reverse ++ g.sent
          pending := g.pending ++ (g.round net now).map Probe.recording }).schedule
        (lastEnd now (g.round net now))
        (.probedAll id ((g.round net now).map (fun p : Probe => (p.type, p.alive)))) := by
  have all : FileType.all.Nodup := by decide
  have different : g.registered.Nodup := List.Pairwise.filter _ all
  have like : AsksLike g g g.registered := ⟨rfl, rfl, fun _ _ => rfl⟩
  have asked := foldl_ask net now different like 0 []
  rw [filterMap_registered] at asked
  have told : (g.round net now).map (fun p : Probe => (p.type, p.alive)) =
      g.registered.map (fun t => (t, (g.ask net t).2.2)) := by
    rw [round, List.map_map]
    rfl
  unfold probeAll
  dsimp only
  rw [asked, ← lastEnd_probeNow, List.nil_append, told]
  rfl

section

variable {net : Network} {now : Nat} {g : Gateway} {first : FileType → Option Bool}
  {ps : List Probe}

theorem Knows.launchAll (knows : Knows now g first ps) (sent : List Request) (new : List Probe)
    (ahead : ∀ p ∈ new, now ≤ p.ends) :
    Knows now { g with sent, pending := g.pending ++ new.map Probe.recording } first
      (new.reverse ++ ps) := by
  induction new generalizing g ps with
  | nil =>
    rw [List.map_nil, List.append_nil]
    exact ⟨knows.ahead, knows.known⟩
  | cons p rest ih =>
    have one : Knows now (({ g with sent }).schedule p.ends (.record p.type p.alive)) first
        (p :: ps) := knows.launch (ahead p List.mem_cons_self)
    have more := ih one (fun q member => ahead q (List.mem_cons_of_mem _ member))
    have pending : g.pending ++ (p :: rest).map Probe.recording =
        (g.pending.add p.ends (.record p.type p.alive)) ++ rest.map Probe.recording := by
      simp [Timed.Agenda.add, Probe.recording]
    rw [List.reverse_cons, List.append_assoc, pending]
    exact more

theorem probe_spec (net : Network) (id now : Nat) (t : FileType) (knows : Knows now g first ps) :
    (g.probe net id t now).endpoints = g.endpoints ∧
      (g.probe net id t now).sent = (g.head? t).toList ++ g.sent ∧
      Knows now (g.probe net id t now) first (g.probeNow net now t :: ps) := by
  have ahead : now ≤ (g.probeNow net now t).ends := Nat.le_add_right _ _
  rw [probe_eq]
  exact ⟨rfl, rfl, (knows.launch ahead).schedule ahead rfl⟩

theorem probeAll_spec (net : Network) (id now : Nat) (knows : Knows now g first ps) :
    (g.probeAll net id now).endpoints = g.endpoints ∧
      (g.probeAll net id now).sent = (FileType.all.filterMap g.head?).reverse ++ g.sent ∧
      Knows now (g.probeAll net id now) first ((g.round net now).reverse ++ ps) := by
  have ahead : ∀ p ∈ g.round net now, now ≤ p.ends := by
    intro p member
    obtain ⟨t, _, rfl⟩ := List.mem_map.mp member
    exact Nat.le_add_right _ _
  have known := knows.launchAll ((FileType.all.filterMap g.head?).reverse ++ g.sent) _ ahead
  rw [probeAll_eq]
  exact ⟨rfl, rfl, known.schedule (le_lastEnd _ _).1 rfl⟩

theorem check_spec (net : Network) (id : Nat) (t : FileType) (code : String)
    (policy : RequestPolicy) (knows : Knows now g first ps) :
    (g.check net id t code policy now).endpoints = g.endpoints ∧
      (g.check net id t code policy now).sent =
        ((g.endpoints t).map (checkRequest t code)).toList ++ g.sent ∧
      Knows now (g.check net id t code policy now) first ps := by
  rw [check_eq]
  exact ⟨rfl, rfl, knows.schedule (Nat.le_add_right _ _) rfl⟩

end

theorem type_of_registered (services : List Endpoint) {t : FileType} {e : Endpoint}
    (found : (services.foldl register {}).endpoints t = some e) : e.service.type = t := by
  have kept : ∀ (rest : List Endpoint) (g : Gateway),
      (∀ t e, g.endpoints t = some e → e.service.type = t) →
      ∀ t e, (rest.foldl register g).endpoints t = some e → e.service.type = t := by
    intro rest
    induction rest with
    | nil => exact fun g before => before
    | cons new rest ih =>
      intro g before
      refine ih (g.register new) ?_
      intro t e found
      unfold register at found
      dsimp only at found
      split at found
      · rename_i same
        cases found
        exact same.symm
      · exact before t e found
  exact kept services {} (fun t e nobody => by cases nobody) t e found

theorem ne_unknown_of_registered (services : List Endpoint) {t : FileType} {e : Endpoint}
    (found : (services.foldl register {}).endpoints t = some e) : t ≠ .unknown := by
  rw [← type_of_registered services found]
  cases e.service <;> decide

end Gateway
end BufferLint
