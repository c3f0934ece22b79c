import BufferLint.Proofs.Settings.RoundTrip

/-! A settings file in use. Its store saves, loads and gets settings, and others write to the file
or delete it, in any order. -/
namespace BufferLint.FileUse

abbrev Doing := ExceptT SettingsError (StateM SettingsFile)

def decided {α : Type} (result : Except SettingsError α) : Doing α := ExceptT.mk (pure result)

def create : Doing Unit := do
  set (← decided ((← get).write []))

def append (bytes : Text.Bytes) : Doing Unit :=
  modify (fun f => { f with contents := f.contents.map (· ++ bytes) })

def overwrite (bytes : Text.Bytes) : Doing Unit := do
  create
  append bytes

def save (s : Settings) : Doing Unit := do
  decided s.validate
  overwrite (Text.utf8 s.toText)

/-- What is done with the file, by its store or by somebody else. -/
inductive Access where
  | save (s : Settings)
  | load
  | get
  | write (bytes : Text.Bytes)
  | remove
  | removeDirectory

abbrev Answer := Except SettingsError (Option Settings)

def Access.perform : Access → Doing (Option Settings)
  | .save s => do
    FileUse.save s
    return none
  | .load => do decided ((← MonadState.get).load.map some)
  | .get => return some (← MonadState.get).get
  | .write bytes => do
    overwrite bytes
    return none
  | .remove => do
    modify SettingsFile.remove
    return none
  | .removeDirectory => do
    modify SettingsFile.removeDirectory
    return none

def Access.run (a : Access) (f : SettingsFile) : Answer × SettingsFile := a.perform.run.run f

def attempted (f : SettingsFile) : Except SettingsError SettingsFile → Answer × SettingsFile
  | .ok g => (.ok none, g)
  | .error e => (.error e, f)

section

variable (f : SettingsFile)

theorem run_write (bytes : Text.Bytes) :
    (Access.write bytes).run f = attempted f (f.write bytes) := by
  obtain ⟨directory, contents⟩ := f
  cases directory <;> rfl

theorem run_save (s : Settings) : (Access.save s).run f = attempted f (f.save s) := by
  cases valid : s.validate with
  | error e =>
    have refused : f.save s = .error e := by
      rw [SettingsFile.save, valid]
      rfl
    rw [refused, Access.run, Access.perform, save, valid]
    rfl
  | ok =>
    have written : f.save s = f.write (Text.utf8 s.toText) := by
      rw [SettingsFile.save, valid]
      rfl
    rw [written, ← run_write, Access.run, Access.perform, save, valid]
    rfl

theorem run_load : Access.load.run f = (f.load.map some, f) := rfl

theorem attempted_error {result : Except SettingsError SettingsFile} {e : SettingsError}
    (failed : (attempted f result).1 = .error e) : (attempted f result).2 = f := by
  cases result with
  | ok g => cases failed
  | error e => rfl

/-- What fails has changed nothing. -/
theorem unchanged_of_error {a : Access} {e : SettingsError} (failed : (a.run f).1 = .error e) :
    (a.run f).2 = f := by
  cases a with
  | save s =>
    rw [run_save] at failed ⊢
    exact attempted_error f failed
  | write bytes =>
    rw [run_write] at failed ⊢
    exact attempted_error f failed
  | load | get => rfl
  | remove | removeDirectory => cases failed

theorem save_accepted (s : Settings) :
    ((Access.save s).run f).1 = .ok none ↔ s.timeoutMs ≠ 0 ∧ f.hasDirectory = true := by
  rw [run_save, SettingsFile.save, Settings.validate]
  by_cases zero : s.timeoutMs = 0
  · simp [zero, attempted, bind, Except.bind]
  · cases directory : f.hasDirectory <;>
      simp [zero, directory, attempted, SettingsFile.write, bind, Except.bind]

/-- A file that was saved is loaded as what was saved. -/
theorem load_saved {s : Settings} (accepted : ((Access.save s).run f).1 = .ok none) :
    ((Access.save s).run f).2.load = .ok s := by
  obtain ⟨positive, directory⟩ := (save_accepted f s).mp accepted
  have loaded := Settings.load_save s f
  rw [if_neg positive, if_pos directory] at loaded
  rw [run_save] at accepted ⊢
  cases saved : f.save s with
  | ok g =>
    rw [saved] at loaded
    exact loaded
  | error e =>
    rw [saved] at accepted
    cases accepted

/-- What is loaded is in range. -/
theorem validate_load {s : Settings} (loaded : f.load = .ok s) : s.validate = .ok () := by
  unfold SettingsFile.load at loaded
  split at loaded
  · cases loaded
    rfl
  split at loaded
  · cases loaded
  · rename_i text _
    rw [Settings.ofText] at loaded
    obtain ⟨t, _, checked⟩ := Json.bind_eq_ok.mp loaded
    obtain ⟨_, valid, same⟩ := Json.bind_eq_ok.mp checked
    cases same
    exact valid

theorem get_answers : ∃ s, (Access.get.run f).1 = .ok (some s) ∧ s.validate = .ok () ∧
    (∀ t, (Access.load.run f).1 = .ok (some t) → s = t) ∧
    ∀ reason, (Access.load.run f).1 = .error reason → s = {} := by
  refine ⟨f.get, rfl, ?_⟩
  rw [run_load, SettingsFile.get]
  cases loaded : f.load with
  | ok t => simp [Except.map, validate_load f loaded]
  | error e => simp [Except.map, Settings.validate]

end

structure Entry where
  before : SettingsFile
  access : Access
  answer : Answer
  after : SettingsFile

def trace : SettingsFile → List Access → List Entry
  | _, [] => []
  | f, a :: rest => ⟨f, a, (a.run f).1, (a.run f).2⟩ :: trace (a.run f).2 rest

theorem run_of_mem_trace {f : SettingsFile} {accesses : List Access} {e : Entry}
    (member : e ∈ trace f accesses) : e.access.run e.before = (e.answer, e.after) := by
  induction accesses generalizing f with
  | nil => cases member
  | cons a rest ih =>
    rcases List.mem_cons.mp member with rfl | later
    · rfl
    · exact ih later

theorem before_of_unchanged {f : SettingsFile} {accesses : List Access} {between late : List Entry}
    {e : Entry} (split : trace f accesses = between ++ e :: late)
    (unchanged : ∀ d ∈ between, d.after = d.before) : e.before = f := by
  induction accesses generalizing f between with
  | nil => simp [trace] at split
  | cons a rest ih =>
    rw [trace] at split
    cases between with
    | nil =>
      cases split
      rfl
    | cons d between =>
      rw [List.cons_append, List.cons.injEq] at split
      obtain ⟨rfl, split⟩ := split
      obtain ⟨same, later⟩ := List.forall_mem_cons.mp unchanged
      exact (ih split later).trans same

theorem trace_behind {f : SettingsFile} {accesses : List Access} {early late : List Entry}
    {e : Entry} (split : trace f accesses = early ++ e :: late) :
    ∃ rest, late = trace e.after rest := by
  induction accesses generalizing f early with
  | nil => simp [trace] at split
  | cons a rest ih =>
    rw [trace] at split
    cases early with
    | nil =>
      cases split
      exact ⟨rest, rfl⟩
    | cons d early =>
      rw [List.cons_append, List.cons.injEq] at split
      exact ih split.2

/-- Whatever is done with the file: getting settings always answers with some that are in range,
which are those that loading answers, or the defaults if that fails; what fails, a refused save as
well, leaves the file as it was, as does asking; and what was saved is loaded until the file is
changed. -/
theorem settings_are_kept_over_any_run (f : SettingsFile) (accesses : List Access) :
    (∀ e ∈ trace f accesses,
      (e.access = .get → ∃ s, e.answer = .ok (some s) ∧ s.validate = .ok () ∧
        (∀ t, (Access.load.run e.before).1 = .ok (some t) → s = t) ∧
        (∀ reason, (Access.load.run e.before).1 = .error reason → s = {})) ∧
      (∀ reason, e.answer = .error reason → e.after = e.before) ∧
      (e.access = .load ∨ e.access = .get → e.after = e.before) ∧
      ∀ s, e.access = .save s →
        (e.answer = .ok none ↔ s.timeoutMs ≠ 0 ∧ e.before.hasDirectory = true)) ∧
    ∀ early saved between loaded late s,
      trace f accesses = early ++ saved :: (between ++ loaded :: late) →
      saved.access = .save s → saved.answer = .ok none →
      (∀ e ∈ between, e.after = e.before) → loaded.access = .load →
      loaded.answer = .ok (some s) := by
  constructor
  · rintro ⟨before, access, answer, after⟩ member
    have ran := run_of_mem_trace member
    dsimp only at ran ⊢
    refine ⟨?_, ?_, ?_, ?_⟩
    · rintro rfl
      have got := get_answers before
      rwa [ran] at got
    · rintro reason rfl
      have kept := unchanged_of_error before (congrArg Prod.fst ran)
      rwa [ran] at kept
    · rintro (rfl | rfl)
      · exact (congrArg Prod.snd ran).symm
      · exact (congrArg Prod.snd ran).symm
    · rintro s rfl
      have accepted := save_accepted before s
      rwa [ran] at accepted
  · intro early saved between loaded late s split saves accepted unchanged loads
    obtain ⟨rest, behind⟩ := trace_behind split
    have file : loaded.before = saved.after := before_of_unchanged behind.symm unchanged
    have saving := run_of_mem_trace (split ▸ List.mem_append_right early List.mem_cons_self)
    have loading := run_of_mem_trace (split ▸ List.mem_append_right early
      (List.mem_cons_of_mem saved (List.mem_append_right between List.mem_cons_self)))
    rw [saves] at saving
    rw [loads, file, run_load] at loading
    have same := load_saved saved.before (by rw [saving]; exact accepted)
    rw [saving] at same
    rw [same] at loading
    exact (congrArg Prod.fst loading).symm

example : (trace {} [.write [0xff], .save { timeoutMs := 0 }, .load, .get]).map Entry.answer =
    [.ok none, .error (.invalid "timeoutMs must be greater than 0"),
      .error (.inaccessible "stream did not contain valid UTF-8"), .ok (some {})] := by rfl

end BufferLint.FileUse
