import BufferLint.Check.Buffer
import BufferLint.Check.History
import BufferLint.Check.Status
import BufferLint.Engine.Basic
import BufferLint.Service.Gateway
import BufferLint.Settings.Store
import BufferLint.Timed.Debounce

/-! Checking one buffer. Requests wait in a queue and are served one at a time, each by a service or
by the local engine; what they bring is filtered, displayed and recorded. A shutdown starts a
new generation, and a check of an older one delivers nothing. -/
namespace BufferLint

/-- A request for a check: who asked, if somebody waits for the result, and in which generation. -/
structure Job where
  requester : Option Nat
  generation : Nat
  deriving DecidableEq, Repr

/-- What a check reads when its turn comes. -/
structure Snapshot where
  settings : Settings
  name : String
  text : String
  type : FileType

inductive Stage where
  | remote
  | inProcess
  deriving DecidableEq, Repr

structure RunningCheck where
  job : Job
  snapshot : Snapshot
  stage : Stage

/-- What others see of a checker's work. -/
inductive Effect where
  | displayed (diagnostics : List Diagnostic)
  | cleared
  | recorded (file : FileMeta) (count : Nat)
  | saved (enabled useRemote : Bool) (ok : Bool)
  | delivered (requester : Nat) (diagnostics : List Diagnostic)
  | probed (requester : Nat) (alive : List (FileType × Bool))
  deriving DecidableEq, Repr

structure Checker where
  buffer : Buffer := {}
  store : SettingsStore := .memory {}
  history : Option History := some []
  engine : Engine := {}
  gateway : Gateway := {}
  /-- The generation in which the pending check was asked for. -/
  timer : Timed.Debounce Nat := {}
  /-- Checks that wait for their turn. -/
  queue : List Job := []
  running : Option RunningCheck := none
  generation : Nat := 0
  /-- The last revision of the buffer that the listener has seen, while there is one. -/
  listener : Option Nat := none
  status : Status := .idle
  phase : Phase := .idle
  /-- What is on display. -/
  sink : List Diagnostic := []
  /-- Effects that have not been handed over, newest first. -/
  effects : List Effect := []

namespace Checker

def settingsDelay : Nat := 500

def emit (s : Checker) (e : Effect) : Checker := { s with effects := e :: s.effects }

def clearSink (s : Checker) : Checker := { s with sink := [] }.emit .cleared

def display (s : Checker) (ds : List Diagnostic) : Checker :=
  { s with sink := ds }.emit (.displayed ds)

def record (s : Checker) (ds : List Diagnostic) (file : FileMeta) : Checker :=
  match s.history with
  | some h => { s with history := some (h.push (.of ds file)) }.emit (.recorded file ds.length)
  | none => s

def finish (s : Checker) (job : Job) (delivered : List Diagnostic) : Checker :=
  let waiting := s.timer.isPending || !s.queue.isEmpty
  let s := { s with running := none, phase := if waiting then .debouncing else .idle }
  match job.requester with
  | some id => s.emit (.delivered id delivered)
  | none => s

/-- The findings are there, or the error that nothing made up for. -/
def conclude (s : Checker) (check : RunningCheck) (raw : List Diagnostic)
    (failure : Option ServiceError) : Checker :=
  if check.job.generation = s.generation then
    let snapshot := check.snapshot
    let ds := Diagnostic.keepAtLeast snapshot.settings.level raw
    let s := (s.display ds).record ds (.of snapshot.name snapshot.type snapshot.text)
    let status := match failure with
      | some e => Status.failed e.message
      | none => Status.ofFindings ds
    { s with status }.finish check.job ds
  else s.finish check.job []

def pollEngine (now : Nat) (s : Checker) : Checker :=
  let (engine, resolutions) := s.engine.settle now
  resolutions.foldl (fun s r =>
    match s.running with
    | some check =>
      if check.stage = .inProcess then s.conclude check r.diagnostics none else s
    | none => s) { s with engine }

def checkInProcess (now : Nat) (s : Checker) (check : RunningCheck) : Checker :=
  pollEngine now { s with
    engine := s.engine.lint now 0 check.snapshot.text check.snapshot.type
    running := some { check with stage := .inProcess } }

/-- A service has answered, or failed. -/
def onAnswer (now : Nat) (s : Checker) (result : Except ServiceError (List Diagnostic)) :
    Checker :=
  match s.running with
  | some check =>
    if check.stage = .remote then
      match result with
      | .ok ds => s.conclude check ds none
      | .error e =>
        if check.snapshot.settings.fallbackToLocal then
          checkInProcess now { s with phase := .fallback } check
        else s.conclude check [] (some e)
    else s
  | none => s

def onGatewayEvent (now : Nat) (s : Checker) : GatewayEvent → Checker
  | .checked _ result => s.onAnswer now result
  | .probedAll id alive => s.emit (.probed id alive)
  | .probed _ _ => s

def pollGateway (now : Nat) (s : Checker) : Checker :=
  let (gateway, events) := s.gateway.settle now
  events.foldl (onGatewayEvent now) { s with gateway }

def checkRemotely (net : Network) (now : Nat) (s : Checker) (check : RunningCheck) : Checker :=
  let snapshot := check.snapshot
  let policy := RequestPolicy.ofSettings snapshot.settings snapshot.type
  pollGateway now { s with
    gateway := s.gateway.check net 0 snapshot.type snapshot.text policy now
    running := some { check with stage := .remote } }

def goesRemote (s : Checker) (snapshot : Snapshot) : Bool :=
  snapshot.settings.useRemote && s.gateway.supports snapshot.type &&
    s.gateway.isAvailable snapshot.type

def beginCheck (net : Network) (now : Nat) (s : Checker) (job : Job) (snapshot : Snapshot) :
    Checker :=
  let s := { s with phase := .checking, status := .checking snapshot.type }
  if s.goesRemote snapshot then s.checkRemotely net now ⟨job, snapshot, .remote⟩
  else s.checkInProcess now ⟨job, snapshot, .inProcess⟩

def start (net : Network) (now : Nat) (s : Checker) (job : Job) : Checker :=
  let settings := s.store.get
  if job.generation ≠ s.generation then s.finish job []
  else if !settings.enabled then { s.clearSink with status := .disabled }.finish job []
  else
    match s.buffer.name with
    | none => { s.clearSink with status := .idle }.finish job []
    | some name =>
      let text := s.buffer.text
      if Text.allBlank text.toList then { s.clearSink with status := .idle }.finish job []
      else
        let type := FileType.ofFileName name
        if type = .unknown then { s with status := .unsupported }.finish job []
        else s.beginCheck net now job ⟨settings, name, text, type⟩

/-- Requests get their turn until one has to wait for an answer. -/
def serve (net : Network) (now : Nat) : List Job → Checker → Checker
  | [], s => { s with queue := [] }
  | job :: rest, s =>
    let s := start net now { s with queue := rest } job
    if s.running.isSome then s else serve net now rest s

def schedule (now delay : Nat) (s : Checker) : Checker :=
  { s with phase := .debouncing, timer := s.timer.schedule now delay s.generation }

def trigger (now : Nat) (s : Checker) : Checker := s.schedule now s.store.get.delay

/-- The listener sees that the buffer has changed. -/
def notice (now : Nat) (s : Checker) : Checker :=
  match s.listener with
  | some seen =>
    if seen = s.buffer.revision then s
    else
      let s := { s with listener := some s.buffer.revision }
      let settings := s.store.get
      if settings.enabled && settings.realtime then s.trigger now else s
  | none => s

def fireTimer (now : Nat) (s : Checker) : Checker :=
  match s.timer.fire now with
  | (timer, some generation) => { s with timer, queue := s.queue ++ [⟨none, generation⟩] }
  | (timer, none) => { s with timer }

/-- Everything that can happen at an instant. -/
def advance (net : Network) (now : Nat) (s : Checker) : Checker :=
  let s := fireTimer now (notice now (pollEngine now (pollGateway now s)))
  if s.running.isSome then s else serve net now s.queue s

def flush (s : Checker) : Checker × List Effect := ({ s with effects := [] }, s.effects.reverse)

def nextTurn (s : Checker) : Option Nat :=
  if s.running.isNone && !s.queue.isEmpty then some 0 else none

def nextDue (s : Checker) : Option Nat :=
  ([s.engine.nextDue, s.gateway.nextDue, s.timer.nextDue, s.nextTurn].flatMap Option.toList).min?

def machine (net : Network) : Timed.Machine Checker Effect where
  settle now s := (advance net now s).flush
  nextDue := nextDue

inductive Action where
  | check (requester : Nat)
  | trigger
  | listen
  | shutdown
  | toggleEnabled
  | toggleRemote
  | probeAll (requester : Nat)
  /-- Somebody asks the gateway itself after one language, and hears from it. -/
  | probe (type : FileType)
  | setText (text : String)
  | switchTo (name text : String)
  | close
  /-- Settings arrive in the store from elsewhere. -/
  | putSettings (settings : Settings)
  /-- Somebody else changes the settings file. -/
  | writeFile (bytes : Text.Bytes)
  | removeDirectory

def applySettings (now : Nat) (settings : Settings) (s : Checker) : Checker :=
  if settings.enabled then s.schedule now settingsDelay
  else { { s with timer := s.timer.cancel }.clearSink with status := .disabled, phase := .idle }

/-- Saves settings; only when that succeeds they are acted upon. -/
def saveSettings (now : Nat) (settings : Settings) (s : Checker) :
    Checker × Except SettingsError Unit :=
  match s.store.save settings with
  | .ok store =>
    let s := { s with store }.emit (.saved settings.enabled settings.useRemote true)
    (s.applySettings now settings, .ok ())
  | .error e => (s.emit (.saved settings.enabled settings.useRemote false), .error e)

def toggleEnabled (now : Nat) (s : Checker) : Checker × Except SettingsError Bool :=
  let settings := s.store.get
  let settings := { settings with enabled := !settings.enabled }
  let (s, result) := s.saveSettings now settings
  (s, result.map (fun _ => settings.enabled))

def toggleRemote (now : Nat) (s : Checker) : Checker × Except SettingsError Bool :=
  let settings := s.store.get
  let settings := { settings with useRemote := !settings.useRemote }
  let (s, result) := s.saveSettings now settings
  (s, result.map (fun _ => settings.useRemote))

def shutdown (s : Checker) : Checker :=
  let s := { s with generation := s.generation + 1, listener := none, timer := s.timer.cancel }
  { s.clearSink with status := .idle, phase := .idle }

def act (net : Network) (action : Action) (now : Nat) (s : Checker) : Checker :=
  match action with
  | .check id => { s with queue := s.queue ++ [⟨some id, s.generation⟩] }
  | .trigger => s.trigger now
  | .listen => { s with listener := some s.buffer.revision }
  | .shutdown => s.shutdown
  | .toggleEnabled => (s.toggleEnabled now).1
  | .toggleRemote => (s.toggleRemote now).1
  | .probeAll id => { s with gateway := s.gateway.probeAll net id now }
  | .probe type => { s with gateway := s.gateway.probe net 0 type now }
  | .setText text => { s with buffer := s.buffer.setText text }
  | .switchTo name text => { s with buffer := s.buffer.switchTo name text }
  | .close => { s with buffer := s.buffer.close }
  | .putSettings settings =>
    match s.store.save settings with
    | .ok store => { s with store }
    | .error _ => s
  | .writeFile bytes =>
    { s with store := s.store.changeFile (fun f => (f.write bytes).toOption.getD f) }
  | .removeDirectory => { s with store := s.store.changeFile SettingsFile.removeDirectory }

/-- What the caller of an action is told: the new value of a switch, or why it was not saved. -/
def answer (action : Action) (now : Nat) (s : Checker) : Option (Except SettingsError Bool) :=
  match action with
  | .toggleEnabled => some (s.toggleEnabled now).2
  | .toggleRemote => some (s.toggleRemote now).2
  | _ => none

abbrev Step := Timed.Step Action

abbrev Run := Timed.Run Checker Effect

def step (net : Network) (r : Run) (s : Step) : Run := r.step (machine net) (act net) s

def run (net : Network) (steps : List Step) (r : Run) : Run :=
  r.play (machine net) (act net) steps

end Checker
end BufferLint
