import BufferLint.Engine.Cache
import BufferLint.Scan.Analysis
import BufferLint.Timed.Clock

/-! The in-process checker. A call that the cache cannot answer waits at a gate; when the gate opens
the newest call scans, and an older one waits for a newer result, which it shares when it was
asked for the same thing. -/
namespace BufferLint

/-- What a call waits for. -/
inductive CallStage where
  /-- Nothing: the cache had it. -/
  | answered (diagnostics : List Diagnostic)
  /-- The time at which the gate opens. -/
  | gated (opens : Nat)
  /-- A newer result, up to a time. -/
  | superseded (limit : Nat)
  deriving DecidableEq, Repr

def CallStage.ends : CallStage → Nat
  | .answered _ => 0
  | .gated opens => opens
  | .superseded limit => limit

structure EngineCall where
  id : Nat
  /-- Calls that the cache could not answer are numbered from one. -/
  ticket : Nat
  content : String
  type : FileType
  stage : CallStage
  deriving DecidableEq, Repr

/-- A call has its result. -/
structure Resolution where
  id : Nat
  diagnostics : List Diagnostic
  deriving DecidableEq, Repr

structure CompletedScan where
  ticket : Nat
  content : String
  type : FileType
  diagnostics : List Diagnostic
  deriving DecidableEq, Repr

structure Engine where
  /-- How long a call waits at the gate. -/
  gate : Nat := 300
  cache : Cache := {}
  /-- The ticket of the newest call. -/
  latest : Nat := 0
  completed : Option CompletedScan := none
  scans : Nat := 0
  calls : List EngineCall := []

namespace Engine

/-- How long a superseded call waits for a newer result. -/
def patience : Nat := 3000

def clearCache (e : Engine) : Engine := { e with cache := e.cache.clear }

def lint (e : Engine) (now id : Nat) (content : String) (type : FileType) : Engine :=
  match e.cache.get? content type now with
  | some ds => { e with calls := e.calls ++ [⟨id, 0, content, type, .answered ds⟩] }
  | none =>
    let ticket := e.latest + 1
    { e with
      latest := ticket
      calls := e.calls ++ [⟨id, ticket, content, type, .gated (now + e.gate)⟩] }

def scan (e : Engine) (now : Nat) (call : EngineCall) : Engine × List Diagnostic :=
  let ds := analyze call.content call.type
  ({ e with
    scans := e.scans + 1
    cache := e.cache.store call.content call.type ds now
    completed := some ⟨call.ticket, call.content, call.type, ds⟩ }, ds)

/-- What becomes of a call at its gate, when it is due. -/
def passGate (now : Nat) (step : Engine × List Resolution) (call : EngineCall) :
    Engine × List Resolution :=
  let (e, done) := step
  match call.stage with
  | .gated opens =>
    if opens ≤ now then
      if call.ticket = e.latest then
        let (e, ds) := e.scan now call
        (e, done ++ [⟨call.id, ds⟩])
      else
        ({ e with calls := e.calls ++ [{ call with stage := .superseded (now + patience) }] }, done)
    else ({ e with calls := e.calls ++ [call] }, done)
  | _ => ({ e with calls := e.calls ++ [call] }, done)

/-- What a call resolves to, if it does not have to wait any longer. -/
def resolve? (e : Engine) (now : Nat) (call : EngineCall) : Option (List Diagnostic) :=
  match call.stage with
  | .answered ds => some ds
  | .gated _ => none
  | .superseded limit =>
    match e.completed.filter (fun scan => call.ticket ≤ scan.ticket) with
    | some scan =>
      if scan.type = call.type && scan.content = call.content then some scan.diagnostics
      else some []
    | none => if limit ≤ now then some [] else none

/-- Calls that do not have to wait any longer leave with their results. -/
def release (e : Engine) (now : Nat) : Engine × List Resolution :=
  ({ e with calls := e.calls.filter (fun call => (e.resolve? now call).isNone) },
    e.calls.filterMap (fun call => (e.resolve? now call).map (fun ds => ⟨call.id, ds⟩)))

/- All that happens at an instant. A call whose patience ends leaves before the gates open, so it
does not see what is scanned at the same instant. -/
def settle (now : Nat) (e : Engine) : Engine × List Resolution :=
  let (e, leaving) := e.release now
  let (e, scanned) := e.calls.foldl (passGate now) ({ e with calls := [] }, [])
  let (e, released) := e.release now
  (e, leaving ++ scanned ++ released)

def nextDue (e : Engine) : Option Nat := (e.calls.map (fun call => call.stage.ends)).min?

def machine : Timed.Machine Engine Resolution := ⟨settle, nextDue⟩

inductive Action where
  | lint (id : Nat) (content : String) (type : FileType)
  | clearCache
  deriving DecidableEq, Repr

def act (action : Action) (now : Nat) (e : Engine) : Engine :=
  match action with
  | .lint id content type => e.lint now id content type
  | .clearCache => e.clearCache

abbrev Run := Timed.Run Engine Resolution

def step (r : Run) (s : Timed.Step Action) : Run := r.step machine act s

def run (steps : List (Timed.Step Action)) (r : Run) : Run := r.play machine act steps

end Engine
end BufferLint
