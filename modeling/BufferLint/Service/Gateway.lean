import BufferLint.Service.Response
import BufferLint.Settings.Basic
import BufferLint.Timed.Agenda
import BufferLint.Timed.Clock

/-! Exchanges with the services. What the network will do with a request is known to it when the
request is sent; the gateway learns it when the answer comes or the time is up. -/
namespace BufferLint

inductive Method where
  | head
  | post
  deriving DecidableEq, Repr

structure Request where
  type : FileType
  method : Method
  url : String
  body : Option Json := none

/-- What the network does with a request. Times are counted from the sending. -/
inductive Reply where
  /-- No connection: the request fails at once. -/
  | refused
  /-- The connection ends without an answer. -/
  | closed (after : Nat)
  | silent
  | answer (after code : Nat) (body : Text.Bytes)
  deriving DecidableEq, Repr

/-- The network's reply to a request, when so many of its kind went to the same service before. -/
abbrev Network := Request → Nat → Reply

def Network.down : Network := fun _ _ => .refused

/-- After what time an exchange is over, and what it brought: the status code and the body. -/
def Reply.within (limit : Nat) : Reply → Nat × Except ServiceError (Nat × Text.Bytes)
  | .refused => (0, .error (.network .refused))
  | .closed after =>
    if after < limit then (after, .error (.network .closed)) else (limit, .error (.timeout limit))
  | .silent => (limit, .error (.timeout limit))
  | .answer after code body =>
    if after < limit then (after, .ok (code, body)) else (limit, .error (.timeout limit))

structure Client where
  probeTimeout : Nat := 3000
  agent : String := "hybridcheck/0.1.0"
  deriving DecidableEq, Repr

namespace Client

def isHeaderChar (c : Char) : Bool := (0x20 ≤ c.toNat && c.toNat ≠ 0x7f) || c = '\t'

def build (client : Client) : Except ServiceError Client :=
  if client.agent.toList.all isHeaderChar then .ok client else .error (.client "builder error")

end Client

structure RequestPolicy where
  timeout : Nat := 5000
  /-- A failure is passed on instead of being taken for an empty answer. -/
  strict : Bool := false
  deriving DecidableEq, Repr

def RequestPolicy.ofSettings (s : Settings) (t : FileType) : RequestPolicy :=
  ⟨s.timeout, s.isStrict t⟩

/-- What will happen when an exchange is over. -/
inductive Completion where
  | record (type : FileType) (alive : Bool)
  | probed (id : Nat) (alive : Bool)
  | probedAll (id : Nat) (alive : List (FileType × Bool))
  | checked (id : Nat) (result : Except ServiceError (List Diagnostic))

inductive GatewayEvent where
  | probed (id : Nat) (alive : Bool)
  | probedAll (id : Nat) (alive : List (FileType × Bool))
  | checked (id : Nat) (result : Except ServiceError (List Diagnostic))

structure Gateway where
  client : Client := {}
  endpoints : FileType → Option Endpoint := fun _ => none
  /-- The outcome of the last probe of each language, if there was one. -/
  availability : FileType → Option Bool := fun _ => none
  /-- Every request so far, newest first. -/
  sent : List Request := []
  pending : Timed.Agenda Completion := []

namespace Gateway

def register (g : Gateway) (e : Endpoint) : Gateway :=
  { g with endpoints := fun t => if t = e.service.type then some e else g.endpoints t }

def ofSettings (s : Settings) : Gateway :=
  Service.all.foldl (fun g service =>
    match s.endpoint service.type with
    | some url => g.register ⟨service, url⟩
    | none => g) {}

def supports (g : Gateway) (t : FileType) : Bool := (g.endpoints t).isSome

/-- A language that was never probed counts as available. -/
def isAvailable (g : Gateway) (t : FileType) : Bool := (g.availability t).getD true

def sentBefore (g : Gateway) (request : Request) : Nat :=
  g.sent.countP (fun r => r.type = request.type && r.method = request.method)

def send (g : Gateway) (net : Network) (request : Request) : Gateway × Reply :=
  ({ g with sent := request :: g.sent }, net request (g.sentBefore request))

def schedule (g : Gateway) (time : Nat) (c : Completion) : Gateway :=
  { g with pending := g.pending.add time c }

/-- Asks whether a service is there: when the answer will be known, and what it will be. -/
def ask (g : Gateway) (net : Network) (t : FileType) : Gateway × Nat × Bool :=
  match g.endpoints t with
  | none => (g, 0, false)
  | some e =>
    let (g, reply) := g.send net ⟨t, .head, e.statusUrl, none⟩
    match reply.within g.client.probeTimeout with
    | (after, .ok (code, _)) => (g, after, Service.isSuccess code)
    | (after, .error _) => (g, after, false)

def probe (net : Network) (id : Nat) (t : FileType) (now : Nat) (g : Gateway) : Gateway :=
  let (g, after, alive) := g.ask net t
  (g.schedule (now + after) (.record t alive)).schedule (now + after) (.probed id alive)

def registered (g : Gateway) : List FileType := FileType.all.filter g.supports

/-- Probes every registered language; the whole is over with the slowest of them. -/
def probeAll (net : Network) (id : Nat) (now : Nat) (g : Gateway) : Gateway :=
  let step := fun (acc : Gateway × Nat × List (FileType × Bool)) (t : FileType) =>
    let (g, slowest, alive) := acc
    let (g, after, ok) := g.ask net t
    (g.schedule (now + after) (.record t ok), max slowest after, alive ++ [(t, ok)])
  let (g, slowest, alive) := g.registered.foldl step (g, 0, [])
  g.schedule (now + slowest) (.probedAll id alive)

/-- What an exchange that came to an end says about the text. -/
def findings (service : Service) :
    Except ServiceError (Nat × Text.Bytes) → Except ServiceError (List Diagnostic)
  | .error e => .error e
  | .ok (code, body) =>
    if Service.isSuccess code then service.readResponse body else .error (.status code)

/- Unless the policy is strict a failure counts as nothing found. -/
def lenient (policy : RequestPolicy) (result : Except ServiceError (List Diagnostic)) :
    Except ServiceError (List Diagnostic) :=
  match result with
  | .ok ds => .ok ds
  | .error e => if policy.strict then .error e else .ok []

def check (net : Network) (id : Nat) (t : FileType) (code : String) (policy : RequestPolicy)
    (now : Nat) (g : Gateway) : Gateway :=
  match g.endpoints t with
  | none => g.schedule now (.checked id (.error (.unsupported t)))
  | some e =>
    let (g, reply) := g.send net ⟨t, .post, e.checkUrl, some (e.service.requestBody code)⟩
    let (after, outcome) := reply.within policy.timeout
    g.schedule (now + after) (.checked id (lenient policy (findings e.service outcome)))

def complete (step : Gateway × List GatewayEvent) (c : Completion) :
    Gateway × List GatewayEvent :=
  let (g, events) := step
  match c with
  | .record t alive =>
    ({ g with availability := fun u => if u = t then some alive else g.availability u }, events)
  | .probed id alive => (g, events ++ [.probed id alive])
  | .probedAll id alive => (g, events ++ [.probedAll id alive])
  | .checked id result => (g, events ++ [.checked id result])

def settle (now : Nat) (g : Gateway) : Gateway × List GatewayEvent :=
  (g.pending.due now).foldl complete ({ g with pending := g.pending.later now }, [])

def nextDue (g : Gateway) : Option Nat := g.pending.nextDue

def machine : Timed.Machine Gateway GatewayEvent := ⟨settle, nextDue⟩

inductive Action where
  | probe (id : Nat) (type : FileType)
  | probeAll (id : Nat)
  | check (id : Nat) (type : FileType) (code : String) (policy : RequestPolicy)
  deriving DecidableEq, Repr

def act (net : Network) (action : Action) (now : Nat) (g : Gateway) : Gateway :=
  match action with
  | .probe id type => g.probe net id type now
  | .probeAll id => g.probeAll net id now
  | .check id type code policy => g.check net id type code policy now

abbrev Run := Timed.Run Gateway GatewayEvent

def step (net : Network) (r : Run) (s : Timed.Step Action) : Run := r.step machine (act net) s

def run (net : Network) (steps : List (Timed.Step Action)) (r : Run) : Run :=
  r.play machine (act net) steps

end Gateway
end BufferLint
