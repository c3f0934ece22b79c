import BufferLint.Diagnostic.Json
import BufferLint.Proofs.Json.Fields
import Mathlib.Tactic.MkIffOfInductiveProp

/-! Which objects are read as a diagnostic, and as which one. -/
namespace BufferLint.Diagnostic

open BufferLint.Json (DecodeError lookup lookup_cons)

/-- What a field leaves in its place: nothing leaves what was there. -/
def Taken {α : Type} (decode : Json → Except DecodeError α) (before : α) : Option Json → α → Prop
  | none, after => after = before
  | some j, after => decode j = .ok after

theorem taken_cons {α : Type} {decode : Json → Except DecodeError α} {before after : α}
    {name : String} {field : String × Json} {rest : List (String × Json)}
    (once : field.1 ∉ rest.map Prod.fst) :
    Taken decode before (lookup name (field :: rest)) after ↔
      ∃ between, Taken decode before (lookup name [field]) between ∧
        Taken decode between (lookup name rest) after := by
  by_cases same : field.1 = name
  · have nothing : lookup name rest = none := Json.lookup_eq_none.mpr (same ▸ once)
    simp [lookup_cons, same, nothing, Taken]
  · have none : lookup name [] = none := rfl
    simp [lookup_cons, same, none, Taken]

namespace Draft

/-- A draft after the fields, each of which is taken at most once. -/
@[mk_iff]
structure Reads (fields : List (String × Json)) (before after : Draft) : Prop where
  line : Taken (fun j => (Json.decodeWord32 j).map some) before.line (lookup "line" fields)
    after.line
  column : Taken (fun j => (Json.decodeWord32 j).map some) before.column (lookup "column" fields)
    after.column
  message : Taken (fun j => (Json.decodeString j).map some) before.message
    (lookup "message" fields) after.message
  severity : Taken (Json.decodeVariant Severity.word Severity.all) before.severity
    (lookup "severity" fields) after.severity
  source : Taken (fun j => (Json.decodeString j).map some) before.source (lookup "source" fields)
    after.source
  rule : Taken (Json.decodeOptional Json.decodeString) before.rule (lookup "rule" fields) after.rule

theorem reads_nil {before after : Draft} : Reads [] before after ↔ before = after := by
  have nothing : ∀ n, lookup n [] = none := fun _ => rfl
  cases before
  cases after
  simp only [reads_iff, nothing, Taken, mk.injEq]
  constructor
  · rintro ⟨rfl, rfl, rfl, rfl, rfl, rfl⟩
    exact ⟨rfl, rfl, rfl, rfl, rfl, rfl⟩
  · rintro ⟨rfl, rfl, rfl, rfl, rfl, rfl⟩
    exact ⟨rfl, rfl, rfl, rfl, rfl, rfl⟩

theorem reads_cons {field : String × Json} {rest : List (String × Json)}
    (once : field.1 ∉ rest.map Prod.fst) {before after : Draft} :
    Reads (field :: rest) before after ↔
      ∃ between, Reads [field] before between ∧ Reads rest between after := by
  constructor
  · rintro ⟨line, column, message, severity, source, rule⟩
    obtain ⟨l, line, line'⟩ := (taken_cons once).mp line
    obtain ⟨c, column, column'⟩ := (taken_cons once).mp column
    obtain ⟨m, message, message'⟩ := (taken_cons once).mp message
    obtain ⟨v, severity, severity'⟩ := (taken_cons once).mp severity
    obtain ⟨s, source, source'⟩ := (taken_cons once).mp source
    obtain ⟨r, rule, rule'⟩ := (taken_cons once).mp rule
    exact ⟨⟨l, c, m, v, s, r⟩, ⟨line, column, message, severity, source, rule⟩,
      ⟨line', column', message', severity', source', rule'⟩⟩
  · rintro ⟨between, first, later⟩
    exact ⟨(taken_cons once).mpr ⟨_, first.line, later.line⟩,
      (taken_cons once).mpr ⟨_, first.column, later.column⟩,
      (taken_cons once).mpr ⟨_, first.message, later.message⟩,
      (taken_cons once).mpr ⟨_, first.severity, later.severity⟩,
      (taken_cons once).mpr ⟨_, first.source, later.source⟩,
      (taken_cons once).mpr ⟨_, first.rule, later.rule⟩⟩

theorem read_iff {before after : Draft} {field : String × Json} :
    before.read field = .ok after ↔ Reads [field] before after := by
  obtain ⟨name, j⟩ := field
  have nothing : ∀ n, lookup n [] = none := fun _ => rfl
  cases before
  cases after
  unfold read
  dsimp only
  split
  all_goals
    simp_all [reads_iff, lookup_cons, Taken, Json.map_eq_ok, Json.bind_eq_ok, pure,
      Except.pure]
    grind

theorem foldlM_read {fields : List (String × Json)} (once : (fields.map Prod.fst).Nodup)
    {before after : Draft} :
    fields.foldlM read before = .ok after ↔ Reads fields before after := by
  induction fields generalizing before with
  | nil => simp [reads_nil, pure, Except.pure]
  | cons field rest ih =>
    obtain ⟨first, later⟩ := List.nodup_cons.mp once
    rw [List.foldlM_cons, reads_cons first]
    simp only [← ih later, ← read_iff]
    cases before.read field <;> simp [bind, Except.bind]

end Draft

/-- The fields tell every part of a diagnostic. Without a severity it is a warning, and without a
rule or with null for it, it has none; other fields do not matter. -/
structure Describes (fields : List (String × Json)) (d : Diagnostic) : Prop where
  line : lookup "line" fields = some (.nat d.line.toNat)
  column : lookup "column" fields = some (.nat d.column.toNat)
  message : lookup "message" fields = some (.string d.message)
  severity : lookup "severity" fields = none ∧ d.severity = .warning ∨
    lookup "severity" fields = some (.string d.severity.word) ∨
    lookup "severity" fields = some (.object [(d.severity.word, .null)])
  source : lookup "source" fields = some (.string d.source)
  rule : lookup "rule" fields = d.rule.map Json.string ∨
    d.rule = none ∧ lookup "rule" fields = some .null

theorem taken_required {α : Type} {decode : Json → Except DecodeError α} {encode : α → Json}
    (undone : ∀ j a, decode j = .ok a ↔ j = encode a) {field : Option Json} {a : α} :
    Taken (fun j => (decode j).map some) none field (some a) ↔ field = some (encode a) := by
  cases field with
  | none => simp [Taken]
  | some j => simp [Taken, Json.map_eq_ok, undone]

theorem reads_complete {fields : List (String × Json)} {d : Diagnostic} :
    Draft.Reads fields {} ⟨some d.line, some d.column, some d.message, d.severity, some d.source,
      d.rule⟩ ↔ Describes fields d := by
  have number : ∀ j n, Json.decodeWord32 j = .ok n ↔ j = .nat n.toNat :=
    fun _ _ => Json.decodeWord32_iff
  have text : ∀ j s, Json.decodeString j = .ok s ↔ j = .string s :=
    fun _ _ => Json.decodeString_iff
  have level : Taken (Json.decodeVariant Severity.word Severity.all) .warning
      (lookup "severity" fields) d.severity ↔
      lookup "severity" fields = none ∧ d.severity = .warning ∨
        lookup "severity" fields = some (.string d.severity.word) ∨
        lookup "severity" fields = some (.object [(d.severity.word, .null)]) := by
    cases lookup "severity" fields with
    | none => simp [Taken]
    | some j => simp [Taken, Json.decodeVariant_iff Severity.ofWord_word]
  have code : Taken (Json.decodeOptional Json.decodeString) none (lookup "rule" fields) d.rule ↔
      lookup "rule" fields = d.rule.map Json.string ∨
        d.rule = none ∧ lookup "rule" fields = some .null := by
    cases lookup "rule" fields with
    | none => cases d.rule <;> simp [Taken]
    | some j =>
      cases d.rule <;> simp [Taken, Json.decodeOptional_iff text (fun _ => Json.noConfusion)]
  rw [Draft.reads_iff, taken_required number, taken_required number, taken_required text,
    taken_required text, level, code]
  constructor
  · rintro ⟨line, column, message, severity, source, rule⟩
    exact ⟨line, column, message, severity, source, rule⟩
  · rintro ⟨line, column, message, severity, source, rule⟩
    exact ⟨line, column, message, severity, source, rule⟩

theorem required_eq_ok {α : Type} {j : Json} {index : Nat} {name : String} {value : Option α}
    {a : α} : required j index name value = .ok a ↔ value = some a := by
  cases value <;> simp [required]

theorem ofJson_object {fields : List (String × Json)} (once : (fields.map Prod.fst).Nodup)
    {d : Diagnostic} : ofJson (.object fields) = .ok d ↔ Describes fields d := by
  rw [← reads_complete, ← Draft.foldlM_read once]
  simp only [ofJson, Json.recordFields, Json.checkLength, Json.bind_eq_ok, required_eq_ok, pure,
    Except.pure, Except.ok.injEq]
  constructor
  · rintro ⟨_, rfl, draft, read, line, hasLine, column, hasColumn, message, hasMessage, source,
      hasSource, _, _, rfl⟩
    rw [← hasLine, ← hasColumn, ← hasMessage, ← hasSource]
    exact read
  · intro read
    exact ⟨_, rfl, _, read, _, rfl, _, rfl, _, rfl, _, rfl, (), trivial, rfl⟩

/-- An item is an object that describes the diagnostic. It has a key for the rule if, and only if,
there is a rule. -/
def Written (d : Diagnostic) (item : Json) : Prop :=
  ∃ fields, item = .object fields ∧ Json.Sorted fields ∧ Describes fields d ∧
    ("rule" ∈ fields.map Prod.fst ↔ d.rule.isSome)

theorem Written.decoded {d : Diagnostic} {item : Json} (written : Written d item) :
    ofJson item = .ok d := by
  obtain ⟨fields, rfl, sorted, describes, _⟩ := written
  exact (ofJson_object sorted.nodup).mpr describes

theorem written_toJson (d : Diagnostic) : Written d d.toJson := by
  refine ⟨_, rfl, ?_, ?_, ?_⟩
  · have without : ["column", "line", "message", "severity", "source"].Pairwise (· < ·) := by decide
    have ruled : ["column", "line", "message", "rule", "severity", "source"].Pairwise (· < ·) := by
      decide
    cases d.rule with
    | none => exact without
    | some rule => exact ruled
  · obtain ⟨line, column, message, severity, source, rule⟩ := d
    cases rule with
    | none => exact ⟨rfl, rfl, rfl, .inr (.inl rfl), rfl, .inl rfl⟩
    | some rule => exact ⟨rfl, rfl, rfl, .inr (.inl rfl), rfl, .inl rfl⟩
  · cases d.rule <;> simp

end BufferLint.Diagnostic
