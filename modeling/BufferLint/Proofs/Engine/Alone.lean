import BufferLint.Proofs.Engine.Settling

/-! An engine with one caller at a time. Its call is always the newest, so it is never superseded:
the caller gets the findings for its own text, from the cache or from a scan of its own. -/
namespace BufferLint.Engine

/-- What the cache has is what a scan would find. -/
def Sound (e : Engine) : Prop :=
  ∀ scan, e.cache.slot = some scan → scan.diagnostics = analyze scan.content scan.type

theorem Sound.get {e : Engine} (sound : e.Sound) {content : String} {type : FileType} {now : Nat}
    {ds : List Diagnostic} (found : e.cache.get? content type now = some ds) :
    ds = analyze content type := by
  unfold Cache.get? at found
  split at found
  · rename_i scan slot
    split at found
    · rename_i fits
      simp only [Bool.and_eq_true, decide_eq_true_eq] at fits
      cases Option.some.inj found
      rw [sound scan slot, fits.1.2, fits.2]
    · cases found
  · cases found

theorem Sound.scan {e : Engine} (now : Nat) (call : EngineCall) : (e.scan now call).1.Sound := by
  intro scan stored
  cases Option.some.inj stored
  rfl

theorem settle_of_no_calls {e : Engine} (none : e.calls = []) (now : Nat) :
    e.settle now = (e, []) := by
  apply settle_idle
  rw [none]
  simp

theorem settle_alone {e : Engine} {call : EngineCall} {opens : Nat} (only : e.calls = [call])
    (newest : call.ticket = e.latest) (gated : call.stage = .gated opens) (now : Nat) :
    e.settle now =
      if opens ≤ now then
        ({ (e.scan now call).1 with calls := [] }, [⟨call.id, analyze call.content call.type⟩])
      else (e, []) := by
  have waits : ∀ f : Engine, f.resolve? now call = none := by
    intro f
    simp [resolve?, gated]
  split
  · rename_i due
    have scans : scansAt e.latest now call = true := by simp [scansAt, gated, due, newest]
    simp [settle_eq, only, waits, scans, throughGate_of_scansAt scans]
  · rename_i early
    apply settle_idle
    intro c member
    rw [only, List.mem_singleton] at member
    rw [member]
    exact ⟨waits e, by simp [throughGate, gated, early]⟩

/-- A lone caller has its findings at once, or waits at its gate. -/
theorem settle_lint {e : Engine} (none : e.calls = []) (sound : e.Sound) (now id : Nat)
    (content : String) (type : FileType) :
    ∃ f : Engine, f.gate = e.gate ∧ f.Sound ∧
      ((f.calls = [] ∧
          (e.lint now id content type).settle now = (f, [⟨id, analyze content type⟩])) ∨
        (0 < e.gate ∧ f.calls = [⟨id, f.latest, content, type, .gated (now + e.gate)⟩] ∧
          (e.lint now id content type).settle now = (f, []))) := by
  cases cached : e.cache.get? content type now with
  | some ds =>
    have answered := settle_answered now e (by rw [none]; simp)
      ⟨id, 0, content, type, .answered ds⟩ ds rfl
    refine ⟨e, rfl, sound, .inl ⟨none, ?_⟩⟩
    simp only [lint, cached]
    rw [answered, sound.get cached]
  | none =>
    have called : (e.lint now id content type).calls =
        [⟨id, e.latest + 1, content, type, .gated (now + e.gate)⟩] := by
      simp [lint, cached, none]
    have newest : (e.lint now id content type).latest = e.latest + 1 := by
      simp [lint, cached]
    have settled := settle_alone called newest.symm rfl now
    by_cases open_ : now + e.gate ≤ now
    · rw [if_pos open_] at settled
      refine ⟨_, ?_, ?_, .inl ⟨rfl, settled⟩⟩
      · simp [scan, lint, cached]
      · exact Sound.scan now _
    · rw [if_neg open_] at settled
      refine ⟨_, ?_, ?_, .inr ⟨by omega, ?_, settled⟩⟩
      · simp [lint, cached]
      · simp only [lint, cached]
        exact sound
      · rw [called, newest]

end BufferLint.Engine
