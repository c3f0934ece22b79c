import BufferLint.Command.Run
import BufferLint.Proofs.Check.Counts
import BufferLint.Proofs.Check.Records
import BufferLint.Proofs.Command.Printing
import BufferLint.Proofs.Scan.Positions

/-! A file that is checked without the services. What is printed about it, its exit code and its
counts are all of the same findings: those of the analysis that the settings let through. -/
namespace BufferLint

/-- What a check brings that does not go to a service, as far as the settings let it through. -/
def Snapshot.kept (r : Snapshot) : List Diagnostic :=
  Diagnostic.keepAtLeast r.settings.level (analyze r.text r.type)

theorem Gateway.settle_of_nothing {g : Gateway} (nothing : g.pending = []) (now : Nat) :
    g.settle now = (g, []) := by
  obtain ⟨_, _, _, _, pending⟩ := g
  cases nothing
  rfl

namespace Checker

variable {net : Network} {now : Nat} {s : Checker}

structure Undisturbed (s : Checker) : Prop where
  services : s.gateway.pending = []
  timer : s.timer.pending = none
  listener : s.listener = none

theorem Undisturbed.advance (calm : Undisturbed s) :
    advance net now s =
      if (s.pollEngine now).running.isSome then s.pollEngine now
      else serve net now (s.pollEngine now).queue (s.pollEngine now) := by
  have silent : s.pollGateway now = s := by
    simp only [pollGateway, Gateway.settle_of_nothing calm.services, List.foldl_nil]
  have keeps := keeps_pollEngine now s
  have unheard := notice_of_deaf now (s := s.pollEngine now) (keeps.listener.trans calm.listener)
  have unfired : (s.pollEngine now).fireTimer now = s.pollEngine now := by
    have empty : (s.pollEngine now).timer.pending = none := by rw [keeps.timer, calm.timer]
    simp only [fireTimer, Timed.Debounce.fire, empty]
  simp only [Checker.advance, silent, unheard, unfired]

theorem serve_nothing (net : Network) (now : Nat) (waits : s.queue = []) :
    serve net now s.queue s = s := by
  rw [waits]
  obtain ⟨⟩ := s
  cases waits
  rfl

theorem serve_single (job : Job) (waits : s.queue = [job]) :
    serve net now s.queue s = start net now { s with queue := [] } job := by
  have served := (keeps_start net now { s with queue := [] } job).queue
  rw [waits]
  simp only [serve]
  generalize start net now { s with queue := [] } job = t at served
  split
  · rfl
  · obtain ⟨⟩ := t
    cases served
    rfl

theorem Undisturbed.nextDue (calm : Undisturbed s) (queue : s.queue = []) :
    s.nextDue = s.engine.nextDue := by
  have services : s.gateway.nextDue = none := by
    simp [Gateway.nextDue, Timed.Agenda.nextDue, calm.services]
  have timer : s.timer.nextDue = none := by
    simp [Timed.Debounce.nextDue, calm.timer]
  have turns : s.nextTurn = none := by simp [nextTurn, queue]
  simp only [Checker.nextDue, services, timer, turns]
  cases s.engine.nextDue <;> rfl

/-- A run is at rest, and the one check that was asked for in it is over. -/
structure Over (id : Nat) (shown : List Diagnostic) (status : Status) (records : History)
    (r : Run) : Prop where
  rest : r.state.nextDue = none
  delivered : Command.deliveredTo id r = shown
  sink : r.state.sink = shown
  status : r.state.status = status
  history : r.state.history = some records

theorem Over.elapse {id : Nat} {shown : List Diagnostic} {status : Status} {records : History}
    {r : Run} (ended : Over id shown status records r) (ms : Nat) :
    Over id shown status records (r.elapse (machine net) ms) := by
  rw [Timed.Run.elapse_quiet (machine net) ms r ended.rest]
  exact ⟨ended.rest, ended.delivered, ended.sink, ended.status, ended.history⟩

structure Fresh (s : Checker) : Prop extends Undisturbed s where
  calls : s.engine.calls = []
  sound : s.engine.Sound
  queue : s.queue = []
  free : s.running = none
  shown : s.sink = []
  history : s.history = some []
  effects : s.effects = []

theorem Fresh.perform (fresh : Fresh s) (id : Nat) :
    Timed.Run.perform (machine net) (act net (.check id)) { state := s } =
      { state := { start net 0 s ⟨some id, s.generation⟩ with effects := [] }
        log := (start net 0 s ⟨some id, s.generation⟩).effects.map (fun e => (0, e)) } := by
  let job : Job := ⟨some id, s.generation⟩
  have asked : act net (.check id) 0 s = { s with queue := [job] } := by
    simp only [act, fresh.queue, List.nil_append]
    rfl
  have calm : Undisturbed { s with queue := [job] } :=
    ⟨fresh.services, fresh.timer, fresh.listener⟩
  have cleaned : ({ s with queue := [] } : Checker) = s := by
    have served := serve_nothing net 0 fresh.queue
    rwa [fresh.queue] at served
  have polled : ({ s with queue := [job] } : Checker).pollEngine 0 = { s with queue := [job] } :=
    pollEngine_free 0 _ fresh.calls
  have done : advance net 0 { s with queue := [job] } = start net 0 s job := by
    rw [calm.advance, polled, if_neg (by simp [fresh.free])]
    exact (serve_single job rfl).trans (by rw [cleaned])
  simp only [Timed.Run.perform, asked, Timed.Run.settle, machine, done, flush, Timed.Run.report,
    List.append_nil, List.map_reverse, List.reverse_reverse]
  rfl

end Checker

namespace Command

end Command
end BufferLint
