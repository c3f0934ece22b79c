import BufferLint.Proofs.Service.Ledger

/-! What a gateway knows of its services. The last probe of a language that was completed tells,
however the probes overlap; checks tell nothing, whatever becomes of them. -/
namespace BufferLint

/- Of probes, the newest first, the one of a language that was completed last: of two that were over
at one time it is the newer. -/
def IsLastCompleted (now : Nat) (t : FileType) (ps : List Probe) (p : Probe) : Prop :=
  ∃ newer older, ps = newer ++ p :: older ∧ p.type = t ∧ p.ends ≤ now ∧
    (∀ q ∈ newer, q.type = t → q.ends ≤ now → q.ends < p.ends) ∧
    ∀ q ∈ older, q.type = t → q.ends ≤ now → q.ends ≤ p.ends

theorem lastCompleted_eq_none {now : Nat} {t : FileType} {ps : List Probe} :
    lastCompleted now t ps = none ↔ ∀ p ∈ ps, p.type = t → now < p.ends := by
  induction ps with
  | nil => simp [lastCompleted]
  | cons p older ih =>
    by_cases ended : p.type = t ∧ p.ends ≤ now
    · simp only [lastCompleted, if_pos ended, reduceCtorEq, false_iff]
      intro all
      have late := all p List.mem_cons_self ended.1
      omega
    · rw [lastCompleted, if_neg ended, ih, List.forall_mem_cons]
      refine ⟨fun all => ⟨fun mine => ?_, all⟩, And.right⟩
      exact Nat.lt_of_not_le fun early => ended ⟨mine, early⟩

theorem isLastCompleted_of_eq_some {now : Nat} {t : FileType} {ps : List Probe} {p : Probe}
    (last : lastCompleted now t ps = some p) : IsLastCompleted now t ps p := by
  induction ps generalizing p with
  | nil => cases last
  | cons q older ih =>
    by_cases ended : q.type = t ∧ q.ends ≤ now
    · rw [lastCompleted, if_pos ended] at last
      cases found : lastCompleted now t older with
      | none =>
        rw [found] at last
        cases last
        have none := lastCompleted_eq_none.mp found
        refine ⟨[], older, rfl, ended.1, ended.2, by simp, ?_⟩
        intro x member mine early
        have := none x member mine
        omega
      | some x =>
        obtain ⟨newer, rest, rfl, mine, early, before, behind⟩ := ih found
        rw [found] at last
        by_cases newest : x.ends ≤ q.ends
        · rw [Probe.later_of_le (by simpa using newest)] at last
          cases last
          refine ⟨[], _, rfl, ended.1, ended.2, by simp, ?_⟩
          intro y member mine early
          rcases List.mem_append.mp member with first | second
          · have := before y first mine early
            omega
          · rcases List.mem_cons.mp second with rfl | third
            · exact newest
            · have := behind y third mine early
              omega
        · rw [Probe.later_of_lt (Nat.lt_of_not_le newest)] at last
          cases last
          refine ⟨q :: newer, rest, rfl, mine, early, ?_, behind⟩
          intro y member
          rcases List.mem_cons.mp member with rfl | first
          · exact fun _ _ => Nat.lt_of_not_le newest
          · exact before y first
    · rw [lastCompleted, if_neg ended] at last
      obtain ⟨newer, rest, rfl, mine, early, before, behind⟩ := ih last
      refine ⟨q :: newer, rest, rfl, mine, early, ?_, behind⟩
      intro y member mine' early'
      rcases List.mem_cons.mp member with rfl | first
      · exact absurd ⟨mine', early'⟩ ended
      · exact before y first mine' early'

theorem IsLastCompleted.unique {now : Nat} {t : FileType} {ps : List Probe} {p q : Probe}
    (first : IsLastCompleted now t ps p) (second : IsLastCompleted now t ps q) : p = q := by
  obtain ⟨newer, older, rfl, mine, early, before, behind⟩ := first
  obtain ⟨newer', older', split, mine', early', before', behind'⟩ := second
  rcases List.append_eq_append_iff.mp split with ⟨gap, rfl, rest⟩ | ⟨gap, rfl, rest⟩
  · cases gap with
    | nil => exact (List.cons.inj rest).1
    | cons x more =>
      obtain ⟨rfl, rfl⟩ := List.cons.inj rest
      have := before' p (by simp) mine early
      have := behind q (by simp) mine' early'
      omega
  · cases gap with
    | nil => exact (List.cons.inj rest).1.symm
    | cons x more =>
      obtain ⟨rfl, rfl⟩ := List.cons.inj rest
      have := before q (by simp) mine' early'
      have := behind' p (by simp) mine early
      omega

theorem lastCompleted_eq_some {now : Nat} {t : FileType} {ps : List Probe} {p : Probe} :
    lastCompleted now t ps = some p ↔ IsLastCompleted now t ps p := by
  refine ⟨isLastCompleted_of_eq_some, ?_⟩
  intro last
  cases found : lastCompleted now t ps with
  | none =>
    obtain ⟨newer, older, rfl, mine, early, _⟩ := last
    have := lastCompleted_eq_none.mp found p (by simp) mine
    omega
  | some q => rw [(isLastCompleted_of_eq_some found).unique last]

example : (lastCompleted 9 .python [⟨.python, 5, true⟩, ⟨.python, 8, false⟩]).map Probe.ends =
    some 8 := by decide

namespace Gateway

namespace Site

variable (s : Site)

theorem probe_type (past : Asked) (time : Nat) (t : FileType) : (s.probe past time t).type = t := by
  unfold probe
  split <;> rfl

theorem probe_ends (past : Asked) (time : Nat) (t : FileType) :
    time ≤ (s.probe past time t).ends ∧
      (s.probe past time t).ends ≤ time + s.client.probeTimeout := by
  unfold probe
  split
  · exact ⟨Nat.le_refl _, Nat.le_add_right _ _⟩
  · exact ⟨Nat.le_add_right _ _, Nat.add_le_add_left (Reply.within_le _ _) _⟩

/-- A service is found when it answers in time that all is well. -/
theorem alive_probe_iff (past : Asked) (time : Nat) (t : FileType) :
    (s.probe past time t).alive = true ↔
      ∃ e after code body, s.endpoints t = some e ∧
        s.reply past (headRequest t e) = .answer after code body ∧
        after < s.client.probeTimeout ∧ 200 ≤ code ∧ code < 300 := by
  unfold probe
  cases s.endpoints t with
  | none => simp
  | some e =>
    cases reply : s.reply past (headRequest t e) with
    | refused => simp [Reply.within, reply, Except.toOption]
    | silent => simp [Reply.within, reply, Except.toOption]
    | closed after =>
      by_cases early : after < s.client.probeTimeout <;>
        simp [Reply.within, early, reply, Except.toOption]
    | answer after code body =>
      by_cases early : after < s.client.probeTimeout
      · simp [Reply.within, early, reply, Except.toOption, Service.isSuccess]
      · simp [Reply.within, early, reply, Except.toOption]

end Site

theorem availability_run (s : Site) (steps : List (Timed.Step Action)) (t : FileType) :
    (run s.net steps { state := s.gateway }).state.availability t =
      (lastCompleted (run s.net steps { state := s.gateway }).now t
        (s.probes (askedBy steps))).map Probe.alive := by
  obtain ⟨accounts, idle⟩ := accounts_run s steps
  rw [accounts.knows.availability idle t]
  cases lastCompleted _ t (s.probes (askedBy steps)) <;> rfl

def Action.isCheck : Action → Bool
  | .check .. => true
  | _ => false

/-- Instead of a check a millisecond passes. -/
def unchecked : Timed.Step Action → Timed.Step Action
  | .act (.check ..) => .sleep 1
  | step => step

theorem askedBy_unchecked (steps : List (Timed.Step Action)) :
    askedBy (steps.map unchecked) = (askedBy steps).filter (fun a => !a.2.isCheck) := by
  suffices shorter : ∀ now, Timed.Run.timeline now (steps.map unchecked) =
      (Timed.Run.timeline now steps).filter (fun a => !a.2.isCheck) by
    rw [askedBy, shorter, ← List.filter_reverse, askedBy]
  induction steps with
  | nil => exact fun now => rfl
  | cons step rest ih =>
    intro now
    cases step with
    | sleep ms => exact ih (now + ms)
    | act action =>
      cases action with
      | check id t code policy => exact ih (now + 1)
      | probe id t => exact congrArg _ (ih (now + 1))
      | probeAll id => exact congrArg _ (ih (now + 1))

theorem duration_unchecked (steps : List (Timed.Step Action)) :
    Timed.Run.duration (steps.map unchecked) = Timed.Run.duration steps := by
  induction steps with
  | nil => rfl
  | cons step rest ih =>
    rw [List.map_cons, Timed.Run.duration, Timed.Run.duration, ih]
    cases step with
    | sleep ms => rfl
    | act action => cases action <;> rfl

section

variable (s : Site) (net : Network)

/-- A check sends nothing that a probe is counted with. -/
theorem countP_sent_unchecked (past : Asked) (q : Request) (head : q.method = .head) :
    (Site.sent { s with net } (past.filter (fun a => !a.2.isCheck))).countP
        (fun r => r.type = q.type && r.method = q.method) =
      (s.sent past).countP (fun r => r.type = q.type && r.method = q.method) := by
  induction past with
  | nil => rfl
  | cons a past ih =>
    obtain ⟨time, action⟩ := a
    rw [s.sent_cons, List.countP_append, ← ih]
    cases action with
    | check id t code policy =>
      cases found : s.endpoints t <;>
        simp [Action.isCheck, Site.requests, found, checkRequest, head]
    | probe id t => exact List.countP_append
    | probeAll id => exact List.countP_append

theorem probes_unchecked (same : ∀ q n, q.method = .head → net q n = s.net q n) (past : Asked) :
    Site.probes { s with net } (past.filter (fun a => !a.2.isCheck)) = s.probes past := by
  have probe : ∀ past time t,
      Site.probe { s with net } (past.filter (fun a => !a.2.isCheck)) time t =
        s.probe past time t := by
    intro past time t
    have reply : ∀ e : Endpoint,
        Site.reply { s with net } (past.filter (fun a => !a.2.isCheck)) (headRequest t e) =
          s.reply past (headRequest t e) := by
      intro e
      rw [Site.reply, countP_sent_unchecked s net past _ rfl]
      exact same _ _ rfl
    unfold Site.probe
    simp only [reply]
  induction past with
  | nil => rfl
  | cons a past ih =>
    obtain ⟨time, action⟩ := a
    rw [s.probes_cons, ← ih]
    cases action with
    | check id t code policy => rfl
    | probe id t =>
      rw [Site.entry, ← probe]
      rfl
    | probeAll id =>
      rw [Site.entry, ← funext (probe past time)]
      rfl

end

theorem Site.mem_entry {s : Site} {past : Asked} {time : Nat} {action : Action} {p : Probe}
    (probe : p ∈ (s.entry past time action).probes) : p = s.probe past time p.type := by
  cases action with
  | probe id t => rw [List.mem_singleton.mp probe, s.probe_type]
  | probeAll id =>
    obtain ⟨t, _, rfl⟩ := List.mem_map.mp probe
    rw [s.probe_type]
  | check id t code policy => cases probe

theorem Site.le_ends {s : Site} {past : Asked} {x : Entry} (member : x ∈ s.ledger past) :
    ∀ p ∈ x.probes, x.begins ≤ p.ends := by
  obtain ⟨earlier, same⟩ := mem_ledger member
  intro p probe
  rw [same] at probe
  rw [mem_entry probe]
  exact (s.probe_ends earlier x.begins p.type).1

theorem Site.round_of_mem {s : Site} {past : Asked} {x : Entry} {id : Nat}
    (member : x ∈ s.ledger past) (round : x.action = .probeAll id) :
    x.probes.map Probe.type = s.registered ∧ x.ends = lastEnd x.begins x.probes ∧
      x.answer = .probedAll id (x.probes.map (fun p : Probe => (p.type, p.alive))) := by
  obtain ⟨earlier, same⟩ := mem_ledger member
  rw [same, round]
  refine ⟨?_, rfl, rfl⟩
  rw [Site.entry, List.map_map]
  exact (List.map_congr_left fun t _ => s.probe_type earlier x.begins t).trans (List.map_id _)

theorem Site.registered_nodup (s : Site) : s.registered.Nodup := by
  have all : FileType.all.Nodup := by decide
  exact all.filter _

/-- A round's probe of a language is the last that was completed, if no other of that language was
completed since the round began. -/
theorem isLastCompleted_of_round {s : Site} {steps : List (Timed.Step Action)} {x : Entry}
    {id now : Nat} (member : x ∈ s.ledger (askedBy steps)) (round : x.action = .probeAll id)
    (finished : x.ends ≤ now) {p : Probe} (probe : p ∈ x.probes)
    (alone : ∀ y ∈ s.ledger (askedBy steps), y.begins ≠ x.begins → ∀ q ∈ y.probes,
      q.type = p.type → q.ends ≤ now → q.ends ≤ x.begins) :
    IsLastCompleted now p.type (s.probes (askedBy steps)) p := by
  obtain ⟨types, last, _⟩ := Site.round_of_mem member round
  have begun := Site.le_ends member p probe
  have ended := Nat.le_trans (last ▸ (le_lastEnd _ _).2 p probe) finished
  have apart := begins_apart s steps
  obtain ⟨newer, older, ledger⟩ := List.append_of_mem member
  obtain ⟨before, after, probes⟩ := List.append_of_mem probe
  rw [ledger] at apart
  obtain ⟨_, others, ahead⟩ := List.pairwise_append.mp apart
  have behind := (List.pairwise_cons.mp others).1
  have single : (x.probes.map Probe.type).Nodup := types ▸ s.registered_nodup
  rw [probes, List.map_append, List.map_cons, List.nodup_append, List.nodup_cons] at single
  obtain ⟨_, ⟨unlikeAfter, _⟩, unlikeBefore⟩ := single
  refine ⟨newer.flatMap (fun y => y.probes.reverse) ++ after.reverse,
    before.reverse ++ older.flatMap (fun y => y.probes.reverse), ?_, rfl, ended, ?_, ?_⟩
  · rw [Site.probes, ledger, List.flatMap_append, List.flatMap_cons, probes]
    simp
  · intro q candidate mine early
    rcases List.mem_append.mp candidate with newerProbe | sameRound
    · -- a newer entry's probe cannot have been over before this round began
      obtain ⟨y, entry, listed⟩ := List.mem_flatMap.mp newerProbe
      have known : y ∈ s.ledger (askedBy steps) := ledger ▸ List.mem_append_left _ entry
      have later : x.begins < y.begins := ahead y entry x List.mem_cons_self
      have within := alone y known (Nat.ne_of_gt later) q (List.mem_reverse.mp listed) mine early
      have := Site.le_ends known q (List.mem_reverse.mp listed)
      omega
    · exact absurd (mine ▸ List.mem_map_of_mem (List.mem_reverse.mp sameRound)) unlikeAfter
  · intro q candidate mine early
    rcases List.mem_append.mp candidate with sameRound | olderProbe
    · exact absurd mine (unlikeBefore _ (List.mem_map_of_mem (List.mem_reverse.mp sameRound)) _
        List.mem_cons_self)
    · obtain ⟨y, entry, listed⟩ := List.mem_flatMap.mp olderProbe
      have known : y ∈ s.ledger (askedBy steps) :=
        ledger ▸ List.mem_append_right _ (List.mem_cons_of_mem _ entry)
      have earlier := behind y entry
      have within := alone y known (Nat.ne_of_lt earlier) q (List.mem_reverse.mp listed) mine early
      omega

/-- Of every language the gateway knows what the probe told that was completed last, and nothing
before one was completed. Checks leave this as it is, whatever becomes of them. A round of probes
tells of every registered language, and what it tells is what the gateway knows when the round is
over, and from then on, as long as no other probe of that language was completed since the round
began. -/
theorem last_completed_probe_tells (s : Site) (steps : List (Timed.Step Action)) :
    let r := run s.net steps { state := s.gateway }
    let ledger := s.ledger (askedBy steps)
    let probes := s.probes (askedBy steps)
    (∀ t,
      (∀ alive, r.state.availability t = some alive ↔
        ∃ p, IsLastCompleted r.now t probes p ∧ p.alive = alive) ∧
      (r.state.availability t = none ↔ ∀ p ∈ probes, p.type = t → r.now < p.ends) ∧
      (r.state.isAvailable t = false ↔
        ∃ p, IsLastCompleted r.now t probes p ∧ p.alive = false)) ∧
    r.log.Perm ((ledger.filter (fun x => x.ends ≤ r.now)).map (fun x => (x.ends, x.answer))) ∧
    (∀ newer time action past, askedBy steps = newer ++ (time, action) :: past →
      s.entry past time action ∈ ledger ∧
      ∀ p ∈ (s.entry past time action).probes,
        time ≤ p.ends ∧ p.ends ≤ time + s.client.probeTimeout ∧
        (p.alive = true ↔ ∃ e after code body, s.endpoints p.type = some e ∧
          s.reply past ⟨p.type, .head, e.statusUrl, none⟩ = .answer after code body ∧
          after < s.client.probeTimeout ∧ 200 ≤ code ∧ code < 300)) ∧
    (∀ x ∈ ledger, ∀ id t, x.action = .probe id t →
      ∃ p, x.probes = [p] ∧ p.type = t ∧ x.ends = p.ends ∧ x.answer = .probed id p.alive) ∧
    (∀ x ∈ ledger, ∀ id, x.action = .probeAll id →
      ∃ answers, x.answer = .probedAll id answers ∧
        answers.map Prod.fst = FileType.all.filter (fun t => (s.endpoints t).isSome) ∧
        ∀ t alive, (t, alive) ∈ answers → x.ends ≤ r.now →
          (∀ y ∈ ledger, y.begins ≠ x.begins → ∀ p ∈ y.probes, p.type = t →
            p.ends ≤ r.now → p.ends ≤ x.begins) →
          r.state.availability t = some alive) ∧
    (∀ net : Network, (∀ q n, q.method = .head → net q n = s.net q n) →
      (run net (steps.map unchecked) { state := s.gateway }).state.availability =
        r.state.availability) := by
  intro r ledger probes
  obtain ⟨accounts, idle⟩ := accounts_run s steps
  have known : ∀ t, r.state.availability t = (lastCompleted r.now t probes).map Probe.alive :=
    availability_run s steps
  have entry : ∀ t alive, r.state.availability t = some alive ↔
      ∃ p, IsLastCompleted r.now t probes p ∧ p.alive = alive := by
    intro t alive
    rw [known, Option.map_eq_some_iff]
    simp only [lastCompleted_eq_some]
  refine ⟨?_, accounts.log idle, ?_, ?_, ?_, ?_⟩
  · intro t
    refine ⟨entry t, ?_, ?_⟩
    · rw [known, Option.map_eq_none_iff, lastCompleted_eq_none]
    · rw [← entry t false, isAvailable]
      cases r.state.availability t <;> simp
  · intro newer time action past split
    refine ⟨?_, ?_⟩
    · rw [show ledger = s.ledger (newer ++ (time, action) :: past) from congrArg s.ledger split]
      exact s.entry_mem newer past time action
    · intro p probe
      rw [Site.mem_entry probe, s.probe_type]
      obtain ⟨begun, ended⟩ := s.probe_ends past time p.type
      exact ⟨begun, ended, s.alive_probe_iff past time p.type⟩
  · intro x member id t single
    obtain ⟨past, same⟩ := Site.mem_ledger member
    rw [same, single]
    exact ⟨_, rfl, s.probe_type past x.begins t, rfl, rfl⟩
  · intro x member id round
    obtain ⟨types, _, answer⟩ := Site.round_of_mem member round
    refine ⟨_, answer, ?_, ?_⟩
    · rw [List.map_map]
      exact types
    · intro t alive listed finished alone
      obtain ⟨p, probe, same⟩ := List.mem_map.mp listed
      cases same
      exact (entry _ _).mpr ⟨p, isLastCompleted_of_round member round finished probe alone, rfl⟩
  · intro net same
    have clock : (run net (steps.map unchecked) { state := s.gateway }).now = r.now := by
      rw [run, Timed.Run.play_now, duration_unchecked, ← Timed.Run.play_now machine (act s.net)]
      rfl
    funext t
    have told := availability_run { s with net } (steps.map unchecked) t
    rw [askedBy_unchecked, probes_unchecked s net same] at told
    refine told.trans ?_
    rw [known t]
    exact congrArg (fun now => (lastCompleted now t probes).map Probe.alive) clock

end Gateway

end BufferLint
