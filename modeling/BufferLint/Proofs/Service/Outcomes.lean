import BufferLint.Proofs.Service.Ledger

/-! What a check brings, for every reply of the network. There are four ways to fail, and the first
of them to come decides: the time, the connection, the status, the body. Whether the policy is
strict changes nothing but what the caller is told of a failure. -/
namespace BufferLint

def Reply.after? : Reply → Option Nat
  | .refused => some 0
  | .silent => none
  | .closed after | .answer after _ _ => some after

/-- How an exchange ends that may take `limit` milliseconds: what the network does with the request,
how long that takes, and what it brings. A reply that comes just when the time is up is left out. -/
inductive Ends (service : Service) (limit : Nat) :
    Reply → Nat → Except ServiceError (List Diagnostic) → Prop where
  | silent : Ends service limit .silent limit (.error (.timeout limit))
  | closedLate {after} (late : limit < after) :
      Ends service limit (.closed after) limit (.error (.timeout limit))
  | answeredLate {after code body} (late : limit < after) :
      Ends service limit (.answer after code body) limit (.error (.timeout limit))
  | refused (early : 0 < limit) : Ends service limit .refused 0 (.error (.network .refused))
  | closed {after} (early : after < limit) :
      Ends service limit (.closed after) after (.error (.network .closed))
  | status {after code body} (early : after < limit) (bad : ¬ (200 ≤ code ∧ code < 300)) :
      Ends service limit (.answer after code body) after (.error (.status code))
  | payload {after code body e} (early : after < limit) (good : 200 ≤ code ∧ code < 300)
      (broken : Json.parseBytes body = .error e) :
      Ends service limit (.answer after code body) after (.error (.payload e.message))
  | answered {after code body answer} (early : after < limit) (good : 200 ≤ code ∧ code < 300)
      (read : Json.parseBytes body = .ok answer) :
      Ends service limit (.answer after code body) after (.ok (service.readItems answer))

namespace Ends

variable {service : Service} {limit took took' : Nat} {reply : Reply}
  {result result' : Except ServiceError (List Diagnostic)}

theorem unique (first : Ends service limit reply took result)
    (second : Ends service limit reply took' result') : took = took' ∧ result = result' := by
  cases first with
  | silent =>
    cases second
    exact ⟨rfl, rfl⟩
  | refused early =>
    cases second
    exact ⟨rfl, rfl⟩
  | closedLate late =>
    cases second with
    | closedLate _ => exact ⟨rfl, rfl⟩
    | closed early => omega
  | closed early =>
    cases second with
    | closedLate late => omega
    | closed _ => exact ⟨rfl, rfl⟩
  | answeredLate late =>
    cases second with
    | answeredLate _ => exact ⟨rfl, rfl⟩
    | status early _ | payload early _ _ | answered early _ _ => omega
  | status early bad =>
    cases second with
    | answeredLate late => omega
    | status _ _ => exact ⟨rfl, rfl⟩
    | payload _ good _ | answered _ good _ => exact absurd good bad
  | payload early good broken =>
    cases second with
    | answeredLate late => omega
    | status _ bad => exact absurd good bad
    | payload _ _ broken' =>
      rw [broken] at broken'
      cases broken'
      exact ⟨rfl, rfl⟩
    | answered _ _ read =>
      rw [broken] at read
      cases read
  | answered early good read =>
    cases second with
    | answeredLate late => omega
    | status _ bad => exact absurd good bad
    | payload _ _ broken =>
      rw [read] at broken
      cases broken
    | answered _ _ read' =>
      rw [read] at read'
      cases read'
      exact ⟨rfl, rfl⟩

theorem took_eq (ends : Ends service limit reply took result) :
    took = min (reply.after?.getD limit) limit := by
  cases ends <;> simp only [Reply.after?, Option.getD_none, Option.getD_some] <;> omega

end Ends

/-- Every reply ends in some way, and an exchange that is given its time ends just so. -/
theorem Reply.ends_within (service : Service) (limit : Nat) (reply : Reply)
    (apart : reply.after? ≠ some limit) :
    Ends service limit reply (reply.within limit).1
      (Gateway.findings service (reply.within limit).2) := by
  cases reply with
  | refused =>
    have early : 0 < limit := Nat.pos_of_ne_zero fun zero => apart (congrArg some zero.symm)
    exact .refused early
  | silent => exact .silent
  | closed after =>
    have differs : after ≠ limit := fun same => apart (congrArg some same)
    by_cases early : after < limit
    · rw [within, if_pos early]
      exact .closed early
    · rw [within, if_neg early]
      exact .closedLate (by omega)
  | answer after code body =>
    have differs : after ≠ limit := fun same => apart (congrArg some same)
    by_cases early : after < limit
    · rw [within, if_pos early]
      by_cases good : 200 ≤ code ∧ code < 300
      · rw [Gateway.findings, if_pos (by simpa [Service.isSuccess] using good),
          Service.readResponse]
        cases read : Json.parseBytes body with
        | ok answer => exact .answered early good read
        | error e => exact .payload early good read
      · rw [Gateway.findings, if_neg (by simpa [Service.isSuccess] using good)]
        exact .status early good
    · rw [within, if_neg early]
      exact .answeredLate (by omega)

theorem Reply.isTransport_within {limit : Nat} {reply : Reply} {e : ServiceError}
    (failed : (reply.within limit).2 = .error e) : e.isTransport = true := by
  cases reply with
  | refused =>
    cases failed
    rfl
  | silent =>
    cases failed
    rfl
  | closed after =>
    simp only [within] at failed
    split at failed
    · cases failed
      rfl
    · cases failed
      rfl
  | answer after code body =>
    simp only [within] at failed
    split at failed
    · cases failed
    · cases failed
      rfl

namespace Gateway

theorem isTransport_findings {service : Service} {limit : Nat} {reply : Reply} {e : ServiceError}
    (failed : findings service (reply.within limit).2 = .error e) : e.isTransport = true := by
  cases outcome : (reply.within limit).2 with
  | error fault =>
    rw [outcome] at failed
    cases failed
    exact Reply.isTransport_within outcome
  | ok answer =>
    obtain ⟨code, body⟩ := answer
    rw [outcome] at failed
    simp only [findings] at failed
    split at failed
    · unfold Service.readResponse at failed
      split at failed
      · cases failed
      · cases failed
        rfl
    · cases failed
      rfl

theorem lenient_eq (policy : RequestPolicy) (result : Except ServiceError (List Diagnostic)) :
    lenient policy result =
      if policy.strict then result else .ok (result.toOption.getD []) := by
  unfold lenient
  cases result with
  | ok ds => cases policy.strict <;> rfl
  | error e => cases policy.strict <;> rfl

def Action.checkId? : Action → Option Nat
  | .check id .. => some id
  | _ => none

end Gateway

def GatewayEvent.checkId? : GatewayEvent → Option Nat
  | .checked id _ => some id
  | _ => none

namespace Gateway

theorem Site.checkId?_entry (s : Site) (past : Asked) (time : Nat) (action : Action) :
    (s.entry past time action).answer.checkId? = action.checkId? := by
  cases action <;> rfl

theorem Site.checkId?_of_mem {s : Site} {past : Asked} {x : Entry} (member : x ∈ s.ledger past) :
    x.answer.checkId? = x.action.checkId? := by
  obtain ⟨earlier, same⟩ := mem_ledger member
  rw [same, s.checkId?_entry]
  cases x.action <;> rfl

theorem Accounts.checks_answered {s : Site} {past : Asked} {r : Run} (accounts : Accounts s past r)
    (idle : Idle r) (id : Nat) :
    (r.log.filter (fun e => e.2.checkId? = some id)).Perm
      (((s.ledger past).filter (fun x => x.action.checkId? = some id ∧ x.ends ≤ r.now)).map
        (fun x => (x.ends, x.answer))) := by
  have named := (accounts.log idle).filter (fun e => decide (e.2.checkId? = some id))
  rw [List.filter_map, List.filter_filter] at named
  refine named.trans (List.Perm.of_eq (congrArg _ (List.filter_congr ?_)))
  intro x member
  rw [Function.comp_apply, Site.checkId?_of_mem member, Bool.decide_and]

theorem Site.filter_ledger_eq_nil (s : Site) {id : Nat} {past : Asked}
    (other : ∀ a ∈ past, a.2.checkId? ≠ some id) (now : Nat) :
    (s.ledger past).filter (fun x => x.action.checkId? = some id ∧ x.ends ≤ now) = [] := by
  refine List.filter_eq_nil_iff.mpr ?_
  intro x member finished
  have asked := List.mem_map_of_mem (f := fun x : Entry => (x.begins, x.action)) member
  rw [s.begins_ledger] at asked
  exact other _ asked (of_decide_eq_true finished).1

theorem Site.filter_ledger_single (s : Site) {id : Nat} {newer past : Asked} {time : Nat}
    {action : Action} (mine : action.checkId? = some id)
    (other : ∀ a ∈ newer ++ past, a.2.checkId? ≠ some id) (now : Nat) :
    (s.ledger (newer ++ (time, action) :: past)).filter
        (fun x => x.action.checkId? = some id ∧ x.ends ≤ now) =
      if (s.entry past time action).ends ≤ now then [s.entry past time action] else [] := by
  induction newer with
  | nil =>
    have named : (s.entry past time action).action.checkId? = some id := by
      cases action <;> exact mine
    have others : ∀ a ∈ past, a.2.checkId? ≠ some id := other
    rw [List.nil_append, ledger, List.filter_cons, s.filter_ledger_eq_nil others]
    simp [named]
  | cons a newer ih =>
    have different :
        (s.entry (newer ++ (time, action) :: past) a.1 a.2).action.checkId? ≠ some id := by
      have head := other a List.mem_cons_self
      obtain ⟨_, action⟩ := a
      cases action <;> exact head
    rw [List.cons_append, ledger, List.filter_cons, if_neg (by simp [different])]
    exact ih fun b member => other b (List.mem_cons_of_mem _ member)

section

variable {s : Site} {past : Asked} {time id : Nat} {t : FileType} {code : String}

theorem Site.entry_unsupported (policy : RequestPolicy) (missing : s.endpoints t = none) :
    s.requests (.check id t code policy) = [] ∧
      (s.entry past time (.check id t code policy)).ends = time ∧
      (s.entry past time (.check id t code policy)).answer =
        .checked id (.error (.unsupported t)) := by
  simp [requests, entry, check, missing]

/-- The reply decides what a check brings; the policy, who is told. -/
theorem Site.entry_registered {e : Endpoint} (found : s.endpoints t = some e) (limit : Nat)
    (apart : (s.reply past (checkRequest t code e)).after? ≠ some limit) :
    (∃ took result, Ends e.service limit (s.reply past (checkRequest t code e)) took result) ∧
      ∀ took result, Ends e.service limit (s.reply past (checkRequest t code e)) took result →
        ∀ strict,
          (s.entry past time (.check id t code ⟨limit, strict⟩)).ends = time + took ∧
          (s.entry past time (.check id t code ⟨limit, strict⟩)).answer =
            .checked id (if strict then result else .ok (result.toOption.getD [])) := by
  have ends := (s.reply past (checkRequest t code e)).ends_within e.service limit apart
  refine ⟨⟨_, _, ends⟩, ?_⟩
  intro took result other strict
  obtain ⟨rfl, rfl⟩ := ends.unique other
  simp only [entry, check, found, lenient_eq]
  exact ⟨trivial, trivial⟩

theorem Site.isTransport_answer {policy : RequestPolicy} {e : ServiceError}
    (failed : (s.entry past time (.check id t code policy)).answer = .checked id (.error e)) :
    (e.isTransport = false ↔ e = .unsupported t) ∧
      (policy.strict = false → s.endpoints t = none) := by
  cases found : s.endpoints t with
  | none =>
    rw [(entry_unsupported policy found).2.2] at failed
    cases failed
    simp [ServiceError.isTransport]
  | some endpoint =>
    simp only [entry, check, found, lenient_eq, GatewayEvent.checked.injEq, true_and] at failed
    cases strict : policy.strict with
    | false =>
      rw [strict] at failed
      cases failed
    | true =>
      rw [strict, if_pos rfl] at failed
      have transport := isTransport_findings failed
      refine ⟨⟨fun not => ?_, fun unsupported => ?_⟩, fun lax => ?_⟩
      · rw [transport] at not
        cases not
      · rw [unsupported] at transport
        cases transport
      · cases lax

end

/-- Every check is answered once, however many others are under way, and what the network does with
its one request decides when and how. A strict check and a lenient one are over at the same time;
the lenient one takes a failure for an empty answer, and fails only when there is nobody to ask. -/
theorem every_check_is_answered (s : Site) (steps : List (Timed.Step Action)) :
    let r := run s.net steps { state := s.gateway }
    (∀ id, (r.log.filter (fun e => e.2.checkId? = some id)).Perm
      (((s.ledger (askedBy steps)).filter
        (fun x => x.action.checkId? = some id ∧ x.ends ≤ r.now)).map
          (fun x => (x.ends, x.answer)))) ∧
    r.state.sent = s.sent (askedBy steps) ∧
    ∀ newer time id t code limit policy past,
      askedBy steps = newer ++ (time, .check id t code ⟨limit, policy⟩) :: past →
      let x := s.entry past time (.check id t code ⟨limit, policy⟩)
      x ∈ s.ledger (askedBy steps) ∧
      ((∀ a ∈ newer ++ past, a.2.checkId? ≠ some id) →
        r.log.filter (fun e => e.2.checkId? = some id) =
          if x.ends ≤ r.now then [(x.ends, x.answer)] else []) ∧
      (s.endpoints t = none →
        s.requests (.check id t code ⟨limit, policy⟩) = [] ∧ x.ends = time ∧
          x.answer = .checked id (.error (.unsupported t))) ∧
      (∀ e, s.endpoints t = some e →
        let request : Request := ⟨t, .post, e.checkUrl, some (e.service.requestBody code)⟩
        s.requests (.check id t code ⟨limit, policy⟩) = [request] ∧
        ((s.reply past request).after? ≠ some limit →
          (∃ took result, Ends e.service limit (s.reply past request) took result) ∧
          ∀ took result, Ends e.service limit (s.reply past request) took result →
            took = min ((s.reply past request).after?.getD limit) limit ∧
            ∀ strict,
              let y := s.entry past time (.check id t code ⟨limit, strict⟩)
              y.ends = time + took ∧
              y.answer = .checked id (if strict then result else .ok (result.toOption.getD [])))) ∧
      (∀ e, x.answer = .checked id (.error e) → (e.isTransport = false ↔ e = .unsupported t)) ∧
      (policy = false → ((∃ e, x.answer = .checked id (.error e)) ↔ s.endpoints t = none)) := by
  intro r
  obtain ⟨accounts, idle⟩ := accounts_run s steps
  refine ⟨fun id => accounts.checks_answered idle id, accounts.sent, ?_⟩
  intro newer time id t code limit policy past split x
  refine ⟨?_, ?_, fun missing => Site.entry_unsupported _ missing, ?_, ?_, ?_⟩
  · rw [split]
    exact s.entry_mem newer past time _
  · intro other
    have answered := accounts.checks_answered idle id
    rw [split, s.filter_ledger_single rfl other] at answered
    by_cases finished : x.ends ≤ r.now
    · rw [if_pos finished] at answered ⊢
      exact List.perm_singleton.mp answered
    · rw [if_neg finished] at answered ⊢
      exact List.perm_nil.mp answered
  · intro e found
    refine ⟨by simp [Site.requests, found, checkRequest], ?_⟩
    intro apart
    obtain ⟨some, every⟩ := Site.entry_registered found limit apart
    exact ⟨some, fun took result ends => ⟨ends.took_eq, every took result ends⟩⟩
  · intro e failed
    exact (Site.isTransport_answer failed).1
  · intro forgiving
    constructor
    · rintro ⟨e, failed⟩
      exact (Site.isTransport_answer failed).2 forgiving
    · intro missing
      exact ⟨_, (Site.entry_unsupported _ missing).2.2⟩

end Gateway
end BufferLint
