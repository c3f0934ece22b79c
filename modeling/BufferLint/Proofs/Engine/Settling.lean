import BufferLint.Engine.Basic
import Mathlib.Data.List.Basic

/-! What an instant does to the calls of an engine. At the gates every call is treated by itself,
since the newest ticket does not change there; so an instant leaves a sublist of the calls, and
reports on the others. -/
namespace BufferLint.Engine

/- Does the call scan when the gates open at `now`? -/
def scansAt (latest now : Nat) (call : EngineCall) : Bool :=
  match call.stage with
  | .gated opens => opens ≤ now && call.ticket = latest
  | _ => false

/- What is left of a call when the gates open at `now`. -/
def throughGate (latest now : Nat) (call : EngineCall) : Option EngineCall :=
  match call.stage with
  | .gated opens =>
    if opens ≤ now then
      if call.ticket = latest then none
      else some { call with stage := .superseded (now + patience) }
    else some call
  | _ => some call

def scanned (now : Nat) (e : Engine) (calls : List EngineCall) : Engine :=
  calls.foldl (fun e call => (e.scan now call).1) e

@[simp] theorem scanned_nil (now : Nat) (e : Engine) : scanned now e [] = e := rfl

@[simp] theorem scanned_singleton (now : Nat) (e : Engine) (call : EngineCall) :
    scanned now e [call] = (e.scan now call).1 := rfl

@[simp] theorem scanned_latest (now : Nat) (e : Engine) (calls : List EngineCall) :
    (scanned now e calls).latest = e.latest := by
  induction calls generalizing e with
  | nil => rfl
  | cons call rest ih => exact ih (e.scan now call).1

theorem scanned_calls (now : Nat) (e : Engine) (calls waiting : List EngineCall) :
    scanned now { e with calls := waiting } calls =
      { scanned now e calls with calls := waiting } := by
  induction calls generalizing e with
  | nil => rfl
  | cons call rest ih => exact ih (e.scan now call).1

theorem passGate_eq (now : Nat) (e : Engine) (done : List Resolution) (call : EngineCall) :
    passGate now (e, done) call =
      ({ scanned now e ([call].filter (scansAt e.latest now)) with
          calls := e.calls ++ (throughGate e.latest now call).toList },
        done ++ ([call].filter (scansAt e.latest now)).map
          (fun c => ⟨c.id, analyze c.content c.type⟩)) := by
  cases stage : call.stage with
  | answered ds => simp [passGate, scansAt, throughGate, stage]
  | superseded limit => simp [passGate, scansAt, throughGate, stage]
  | gated opens =>
    by_cases due : opens ≤ now
    · by_cases newest : call.ticket = e.latest
      · simp [passGate, scansAt, throughGate, stage, due, newest, scan]
      · simp [passGate, scansAt, throughGate, stage, due, newest]
    · simp [passGate, scansAt, throughGate, stage, due]

theorem foldl_passGate (now : Nat) (calls : List EngineCall) (e : Engine)
    (done : List Resolution) :
    calls.foldl (passGate now) (e, done) =
      ({ scanned now e (calls.filter (scansAt e.latest now)) with
          calls := e.calls ++ calls.filterMap (throughGate e.latest now) },
        done ++ (calls.filter (scansAt e.latest now)).map
          (fun c => ⟨c.id, analyze c.content c.type⟩)) := by
  induction calls generalizing e done with
  | nil => simp
  | cons call rest ih =>
    rw [List.foldl_cons, passGate_eq, ih, scanned_latest, scanned_calls]
    by_cases scans : scansAt e.latest now call = true
    · have gone : throughGate e.latest now call = none := by
        revert scans
        unfold scansAt throughGate
        split <;> simp_all
      simp [scans, gone, scanned]
    · simp only [List.filter_cons_of_neg scans, List.filter_nil, scanned_nil]
      cases kept : throughGate e.latest now call <;> simp [kept]

theorem resolve_congr {e f : Engine} (same : e.completed = f.completed) (now : Nat)
    (call : EngineCall) : e.resolve? now call = f.resolve? now call := by
  simp only [resolve?, same]

theorem resolve_superseded (e : Engine) (now id ticket : Nat) (content : String) (type : FileType)
    (limit : Nat) : e.resolve? now ⟨id, ticket, content, type, .superseded limit⟩ =
      match e.completed.filter (fun scan => ticket ≤ scan.ticket) with
      | some scan =>
        if scan.type = type ∧ scan.content = content then some scan.diagnostics else some []
      | none => if limit ≤ now then some [] else none := by
  unfold resolve?
  cases e.completed.filter (fun scan => ticket ≤ scan.ticket) with
  | none => rfl
  | some scan => simp

/-- An instant in three strokes: who need not wait leaves, the gates open, who need not wait any
longer leaves. -/
theorem settle_eq (now : Nat) (e : Engine) :
    settle now e =
      let kept := e.calls.filter (fun call => (e.resolve? now call).isNone)
      let scanning := kept.filter (scansAt e.latest now)
      let after := scanned now e scanning
      let passed := kept.filterMap (throughGate e.latest now)
      ({ after with calls := passed.filter (fun call => (after.resolve? now call).isNone) },
        e.calls.filterMap (fun call => (e.resolve? now call).map (fun ds => ⟨call.id, ds⟩)) ++
          scanning.map (fun call => ⟨call.id, analyze call.content call.type⟩) ++
          passed.filterMap (fun call =>
            (after.resolve? now call).map (fun ds => ⟨call.id, ds⟩))) := by
  have resolved : ∀ (f : Engine) (calls : List EngineCall) (call : EngineCall),
      ({ f with calls } : Engine).resolve? now call = f.resolve? now call :=
    fun f calls call => resolve_congr rfl now call
  simp only [settle, release, foldl_passGate, List.nil_append, resolved, scanned_calls]

def stays (e after : Engine) (now : Nat) (call : EngineCall) : Option EngineCall :=
  match e.resolve? now call with
  | some _ => none
  | none => (throughGate e.latest now call).filter (fun c => (after.resolve? now c).isNone)

def answers (e after : Engine) (now : Nat) (call : EngineCall) : Option (List Diagnostic) :=
  match e.resolve? now call with
  | some ds => some ds
  | none =>
    if scansAt e.latest now call then some (analyze call.content call.type)
    else (throughGate e.latest now call).bind (after.resolve? now)

section

variable {e after : Engine} {now : Nat} {call : EngineCall}

theorem answers_of_resolved {ds : List Diagnostic} (found : e.resolve? now call = some ds) :
    answers e after now call = some ds := by
  simp [answers, found]

theorem answers_of_scansAt (waiting : e.resolve? now call = none)
    (scans : scansAt e.latest now call = true) :
    answers e after now call = some (analyze call.content call.type) := by
  simp [answers, waiting, scans]

theorem answers_of_passed (waiting : e.resolve? now call = none)
    (scans : scansAt e.latest now call = false) :
    answers e after now call = (throughGate e.latest now call).bind (after.resolve? now) := by
  simp [answers, waiting, scans]

theorem stays_of_resolved {ds : List Diagnostic} (found : e.resolve? now call = some ds) :
    stays e after now call = none := by
  simp [stays, found]

theorem stays_of_passed (waiting : e.resolve? now call = none) :
    stays e after now call =
      (throughGate e.latest now call).filter (fun c => (after.resolve? now c).isNone) := by
  simp [stays, waiting]

end

def scanning (now : Nat) (e : Engine) : List EngineCall :=
  (e.calls.filter (fun call => (e.resolve? now call).isNone)).filter (scansAt e.latest now)

theorem throughGate_of_scansAt {latest now : Nat} {call : EngineCall}
    (scans : scansAt latest now call = true) : throughGate latest now call = none := by
  revert scans
  unfold scansAt throughGate
  split <;> simp_all

theorem id_throughGate {latest now : Nat} {call kept : EngineCall}
    (through : throughGate latest now call = some kept) : kept.id = call.id := by
  revert through
  unfold throughGate
  split
  · split
    · split
      · simp
      · rintro ⟨⟩
        rfl
    · rintro ⟨⟩
      rfl
  · rintro ⟨⟩
    rfl

/-- An instant treats every call by itself, the scan that is made in it apart. -/
theorem settle_state_eq (now : Nat) (e : Engine) :
    (settle now e).1 =
      { scanned now e (scanning now e) with
        calls := e.calls.filterMap (stays e (scanned now e (scanning now e)) now) } := by
  simp only [settle_eq, scanning, List.filterMap_filter, List.filter_filterMap]
  congr 2
  funext call
  cases found : e.resolve? now call with
  | none => simp [stays, found]
  | some ds => simp [stays, found]

theorem settle_events_perm (now : Nat) (e : Engine) :
    (settle now e).2.Perm (e.calls.filterMap (fun call =>
      (answers e (scanned now e (scanning now e)) now call).map (fun ds => ⟨call.id, ds⟩))) := by
  simp only [settle_eq, scanning]
  generalize scanned now e _ = after
  generalize e.calls = calls
  induction calls with
  | nil => exact .refl _
  | cons call rest ih =>
    cases found : e.resolve? now call with
    | some ds =>
      simp only [List.filterMap_cons, found, Option.map_some, answers_of_resolved found,
        List.cons_append, List.filter_cons, Option.isNone_some, Bool.false_eq_true, if_false]
      exact ih.cons _
    | none =>
      simp only [List.filterMap_cons, found, Option.map_none, List.filter_cons,
        Option.isNone_none, if_true]
      cases scans : scansAt e.latest now call with
      | true =>
        simp only [if_true, List.map_cons, throughGate_of_scansAt scans,
          answers_of_scansAt found scans, Option.map_some]
        exact (List.perm_middle.append_right _).trans (ih.cons _)
      | false =>
        simp only [Bool.false_eq_true, if_false, answers_of_passed found scans]
        cases through : throughGate e.latest now call with
        | none => exact ih
        | some kept =>
          cases answer : after.resolve? now kept with
          | none =>
            simpa only [Option.bind_some, answer, List.filterMap_cons, Option.map_none] using ih
          | some ds =>
            simp only [Option.bind_some, answer, Option.map_some, List.filterMap_cons,
              id_throughGate through]
            exact List.perm_middle.trans (ih.cons _)

section

variable (now : Nat) (e : Engine)
  (idle : ∀ call ∈ e.calls, e.resolve? now call = none ∧ throughGate e.latest now call = some call)

include idle

theorem scanning_eq_nil : scanning now e = [] := by
  apply List.filter_eq_nil_iff.mpr
  intro call member scans
  have still := (idle call (List.mem_filter.mp member).1).2
  rw [throughGate_of_scansAt scans] at still
  cases still

theorem filterMap_stays : e.calls.filterMap (stays e e now) = e.calls := by
  rw [List.filterMap_congr (g := some), List.filterMap_some]
  intro call member
  obtain ⟨waiting, still⟩ := idle call member
  simp [stays_of_passed waiting, still, Option.filter, waiting]

theorem filterMap_answers (f : EngineCall → List Diagnostic → Resolution) :
    e.calls.filterMap (fun call => (answers e e now call).map (f call)) = [] := by
  apply List.filterMap_eq_nil_iff.mpr
  intro call member
  obtain ⟨waiting, still⟩ := idle call member
  have quiet : scansAt e.latest now call = false := by
    apply Bool.eq_false_iff.mpr
    intro scans
    rw [throughGate_of_scansAt scans] at still
    cases still
  simp [answers_of_passed waiting quiet, still, waiting]

theorem settle_idle : settle now e = (e, []) := by
  have state := settle_state_eq now e
  have events := settle_events_perm now e
  rw [scanning_eq_nil now e idle, scanned_nil] at state events
  rw [filterMap_stays now e idle] at state
  rw [filterMap_answers now e idle] at events
  exact Prod.ext state events.eq_nil

theorem settle_answered (call : EngineCall) (ds : List Diagnostic)
    (answered : call.stage = .answered ds) :
    settle now { e with calls := e.calls ++ [call] } = (e, [⟨call.id, ds⟩]) := by
  have kept : e.calls.filter (fun call => (e.resolve? now call).isNone) = e.calls := by
    apply List.filter_eq_self.mpr
    intro call member
    rw [(idle call member).1]
    rfl
  have silent : e.calls.filterMap (fun call =>
      (e.resolve? now call).map (fun ds => (⟨call.id, ds⟩ : Resolution))) = [] := by
    apply List.filterMap_eq_nil_iff.mpr
    intro call member
    rw [(idle call member).1]
    rfl
  have found : e.resolve? now call = some ds := by
    simp [resolve?, answered]
  have before : e.release now = (e, []) := by
    simp only [release, kept, silent]
  have left : ({ e with calls := e.calls ++ [call] } : Engine).release now =
      (e, [⟨call.id, ds⟩]) := by
    have same : ∀ c, ({ e with calls := e.calls ++ [call] } : Engine).resolve? now c =
        e.resolve? now c := fun c => resolve_congr rfl now c
    simp only [release, same, List.filter_append, List.filterMap_append, kept, silent]
    simp [found]
  have rest := settle_idle now e idle
  simp only [settle, before, List.nil_append, Prod.mk.injEq, List.append_eq_nil_iff] at rest
  simp only [settle, left, rest.1, rest.2, List.append_nil]

end

end BufferLint.Engine
