import BufferLint.Proofs.Check.Order

/-! What is on display. Checks show their findings or clear the display, and so can a host; what is
seen is what was done last. -/
namespace BufferLint.Checker

/- Moves of a host that may clear the display. -/
def Move.interrupts : Move → Bool
  | .act .shutdown | .act .toggleEnabled | .act .toggleRemote => true
  | _ => false

/- What is on display after some effects, newest first. -/
def onDisplay (effects : List Effect) : List Diagnostic :=
  ((effects.find? Effect.onSink).map Effect.content).getD []

section

variable {now : Nat} {s t : Checker} {m : Move} {owed : Job → Snapshot → Outcome → Prop}

/-- A move that belongs to no check and does not interfere changes nothing that can be seen. -/
theorem unseen_apply (net : Network) (locked : Locked s owed)
    (nobody : Moment.job? ⟨now, m, s⟩ = none) (goesOn : m.interrupts = false) :
    (m.apply net now s).sink = s.sink ∧ (m.apply net now s).status = s.status ∧
      ∃ p, Probes p ∧ (m.apply net now s).effects = p ++ s.effects := by
  have silent : Probes [] := by simp [Probes]
  have polled : (m = .pollGateway ∨ m = .pollEngine) →
      (m.apply net now s).sink = s.sink ∧ (m.apply net now s).status = s.status ∧
        ∃ p, Probes p ∧ (m.apply net now s).effects = p ++ s.effects := by
    intro polls
    have free := free_of_nobody polls nobody
    obtain ⟨g, p, probes, _, same⟩ := locked.polls_free net now free polls
    rw [same]
    exact ⟨rfl, rfl, p, probes, rfl⟩
  cases m with
  | turn job => cases nobody
  | act action =>
    cases action with
    | shutdown => cases goesOn
    | toggleEnabled => cases goesOn
    | toggleRemote => cases goesOn
    | putSettings settings =>
      unfold Move.apply act
      dsimp only
      split <;> exact ⟨rfl, rfl, [], silent, rfl⟩
    | _ => exact ⟨rfl, rfl, [], silent, rfl⟩
  | notice =>
    have notices := notices_notice now s
    unfold Move.apply
    generalize s.notice now = t at notices ⊢
    cases notices <;> exact ⟨rfl, rfl, [], silent, rfl⟩
  | fireTimer =>
    unfold Move.apply fireTimer
    dsimp only
    split <;> exact ⟨rfl, rfl, [], silent, rfl⟩
  | pollEngine => exact polled (.inr rfl)
  | pollGateway => exact polled (.inl rfl)

theorem Saves.paints {settings : Settings} (saves : Saves now settings s t) :
    Paints s t True := by
  cases saves with
  | refused => exact ⟨[.saved _ _ false], rfl, .inl ⟨rfl, rfl⟩⟩
  | enabled => exact ⟨[.saved _ _ true], rfl, .inl ⟨rfl, rfl⟩⟩
  | disabled => exact ⟨[.cleared, .saved _ _ true], rfl, .inr ⟨⟨.cleared, rfl, rfl⟩, trivial⟩⟩

theorem paints_interrupts (net : Network) (host : m.interrupts = true) :
    Paints s (m.apply net now s) True := by
  cases m with
  | act action =>
    cases action with
    | toggleEnabled => exact (saves_saveSettings now _ s).paints
    | toggleRemote => exact (saves_saveSettings now _ s).paints
    | shutdown => exact ⟨[.cleared], rfl, .inr ⟨⟨.cleared, rfl, rfl⟩, trivial⟩⟩
    | _ => cases host
  | _ => cases host

theorem Paints.mono {only weaker : Prop} (paints : Paints s t only) (holds : only → weaker) :
    Paints s t weaker := by
  obtain ⟨new, added, nothing | ⟨painted, under⟩⟩ := paints
  · exact ⟨new, added, .inl nothing⟩
  · exact ⟨new, added, .inr ⟨painted, holds under⟩⟩

theorem Paints.emitted {net : Network} {m : Moment} {only : Prop}
    (paints : Paints m.before (m.after net) only) :
    ((m.emitted net).filter Effect.onSink = [] ∧ (m.after net).sink = m.before.sink) ∨
      (∃ e, (m.emitted net).filter Effect.onSink = [e] ∧
        (m.after net).sink = Effect.content e) ∧ only := by
  obtain ⟨new, added, painted⟩ := paints
  have same : m.emitted net = new := emitted_eq added
  rw [same]
  exact painted

theorem paints_apply (net : Network) (now : Nat) (ready : m.Ready s) (locked : Locked s owed) :
    Paints s (m.apply net now s) True := by
  cases belongs : Moment.job? ⟨now, m, s⟩ with
  | some job => exact (touches_apply net ready locked belongs).mono (fun _ => trivial)
  | none =>
    cases host : m.interrupts with
    | true => exact paints_interrupts net host
    | false =>
      obtain ⟨sink, _, p, probes, added⟩ := unseen_apply net locked belongs host
      exact ⟨p, added, .inl ⟨probes.onSink, sink⟩⟩

end

theorem onDisplay_append (new old : List Effect) :
    onDisplay (new ++ old) = match (new.filter Effect.onSink).head? with
      | some e => Effect.content e
      | none => onDisplay old := by
  rw [List.head?_filter]
  unfold onDisplay
  rw [List.find?_append]
  cases new.find? Effect.onSink <;> rfl

theorem sink_eq_onDisplay (net : Network) (u : Setup) (steps : List Step) :
    let last := run net steps { state := u.checker }
    last.state.sink = onDisplay (last.log.map Prod.snd) := by
  intro last
  rw [log_eq_told net steps u.checker rfl]
  refine (standing_invariant net u (fun past s => s.sink = onDisplay ((told net past).map Prod.snd))
    ?_ (fun past s shown => shown) rfl steps).1
  intro now past s m ready standing shown
  have emitted : (told net (⟨now, m, s⟩ :: past)).map Prod.snd =
      Moment.emitted net ⟨now, m, s⟩ ++ (told net past).map Prod.snd := by
    simp [told, List.map_append, Function.comp_def]
  have painted : Paints s (Moment.after net ⟨now, m, s⟩) _ :=
    paints_apply net now ready standing.locked
  rw [emitted, onDisplay_append]
  rcases painted.emitted with ⟨nothing, same⟩ | ⟨⟨e, one, same⟩, _⟩
  · rw [nothing]
    exact same.trans shown
  · rw [one]
    exact same

/- What a check leaves on display, by the state in which it got its turn: nothing if there is
nothing to check, or what it brings. -/
def Displays (net : Network) (h : Checker) (shown : List Diagnostic) : Prop :=
  (h.buffer.name = none ∨ Text.allBlank h.buffer.text.toList = true → shown = []) ∧
    ∀ r, h.reading = some r →
      shown = Diagnostic.keepAtLeast r.settings.level (h.produced net r).1

section

variable {net : Network} {now : Nat} {s t : Checker} {m : Move}

theorem Moment.sink_of_displayed {m : Moment} {past : List Moment}
    (ready : m.move.Ready m.before) (locked : Locked m.before (owed net past))
    {ds : List Diagnostic} (displayed : .displayed ds ∈ m.emitted net) :
    (m.after net).sink = ds := by
  have seen : Effect.displayed ds ∈ (m.emitted net).filter Effect.onSink :=
    List.mem_filter.mpr ⟨displayed, rfl⟩
  have painted : Paints m.before (m.after net) _ := paints_apply net m.time ready locked
  rcases painted.emitted with ⟨nothing, _⟩ | ⟨⟨e, one, same⟩, _⟩
  · rw [nothing] at seen
    cases seen
  · rw [one] at seen
    rw [same, ← List.mem_singleton.mp seen]
    rfl

theorem displays_of_delivers {past : List Moment} {job : Job} {h : Checker}
    (ready : m.Ready s) (locked : Locked s (owed net past))
    (delivers : Delivers s (m.apply net now s) job)
    (held : holder (⟨now, m, s⟩ :: past) = some (job, h)) :
    Displays net h (m.apply net now s).sink := by
  obtain ⟨ds, displayed, _⟩ := Delivers.emitted (m := ⟨now, m, s⟩) delivers
  obtain ⟨_, r, out, ⟨began, held', reads, brings⟩, _, same, _⟩ :=
    displayed_apply m ready locked displayed
  cases Option.some.inj (held.symm.trans held')
  have sink : (m.apply net now s).sink = ds := Moment.sink_of_displayed ready locked displayed
  obtain ⟨_, named, _, _, _, text, _⟩ := reading_eq_some reads
  refine ⟨?_, ?_⟩
  · rintro (unnamed | blank)
    · cases unnamed.symm.trans named
    · cases blank.symm.trans text
  · intro other again
    cases Option.some.inj (reads.symm.trans again)
    rw [sink, same, brings]

theorem Quits.displays {job : Job} (quits : Quits s job t) (net : Network)
    (current : job.generation = s.generation) (on : s.store.get.enabled = true) :
    Displays net s t.sink := by
  have unread := quits.reading current
  refine ⟨?_, ?_⟩
  · intro nothing
    cases quits with
    | discarded stale => exact absurd current stale
    | disabled _ off => cases off.symm.trans on
    | empty => exact finish_sink _ _ _
    | unsupported _ named unknown _ text =>
      rcases nothing with unnamed | blank
      · cases unnamed.symm.trans named
      · cases blank.symm.trans text
  · intro r reads
    cases unread.symm.trans reads

theorem Displays.inProcess {h : Checker} {shown : List Diagnostic}
    (displays : Displays net h shown) (enabled : h.store.get.enabled = true)
    (stays : h.store.get.useRemote = false) (name : String) (named : h.buffer.name = some name)
    (text : Text.allBlank h.buffer.text.toList = false)
    (known : FileType.ofFileName name ≠ .unknown) :
    shown = Diagnostic.keepAtLeast h.store.get.level
      (analyze h.buffer.text (FileType.ofFileName name)) := by
  let r : Snapshot := ⟨h.store.get, name, h.buffer.text, FileType.ofFileName name⟩
  have reads : h.reading = some r := by simp [reading, enabled, text, named, known, r]
  have here : h.goesRemote r = false := by simp [goesRemote, stays, r]
  have found : h.produced net r = (analyze r.text r.type, none) := by
    simp [produced, here, Snapshot.inProcess]
  rw [displays.2 r reads, found]

end

end BufferLint.Checker
