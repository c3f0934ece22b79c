import BufferLint.Proofs.Json.Range
import BufferLint.Service.Response
import Mathlib.Data.List.Forall2

/-! What is made of a service's answer. One table says where each service writes what; the rest is
the same for all of them. Any JSON may stand anywhere: what is not as the table has it counts as
missing, and no item is lost for it. -/
namespace BufferLint.Service

open BufferLint.Json (InRange largestWord lookup)

/-- Where a service writes what of a finding, and how. -/
structure Layout where
  line : List String
  column : List String
  message : List String
  severity : List String
  rule : List String
  /-- What the first line and the first column are called. -/
  first : Nat
  error : Json
  warning : Json
  /-- The value for a mere remark, if there is one. -/
  info : Option Json
  /-- May a rule be a number? -/
  numbered : Bool

def layout : Service → Layout
  | .eslint => ⟨["line"], ["column"], ["message"], ["severity"], ["ruleId"],
      1, .nat 2, .nat 1, none, false⟩
  | .typescript => ⟨["start", "line"], ["start", "character"], ["messageText"], ["category"],
      ["code"], 0, .string "error", .string "warning", some (.string "suggestion"), true⟩
  | .pyright => ⟨["range", "start", "line"], ["range", "start", "character"], ["message"],
      ["severity"], ["rule"], 0, .string "error", .string "warning", some (.string "information"),
      true⟩

def Layout.value (l : Layout) : Severity → Option Json
  | .error => some l.error
  | .warning => some l.warning
  | .info => l.info

/-- The names lead through objects inside objects to the value. -/
inductive Leads : List String → Json → Json → Prop where
  | here {value : Json} : Leads [] value value
  | field {name : String} {rest : List String} {fields : List (String × Json)} {part value : Json}
      (found : lookup name fields = some part) (onward : Leads rest part value) :
      Leads (name :: rest) (.object fields) value

/-- The position at a place in an item: a word of 64 bits is cut down to 32, and nothing lies before
the first position. -/
inductive Position (first : Nat) (path : List String) (item : Json) : Nat → Prop where
  | word (n : Nat) (fits : n ≤ largestWord) (found : Leads path item (.nat n)) :
      Position first path item (max (min n 0xffffffff) first - first)
  | other (none : ∀ n ≤ largestWord, ¬ Leads path item (.nat n)) : Position first path item 0

def Layout.Names (l : Layout) (item : Json) (rule : String) : Prop :=
  Leads l.rule item (.string rule) ∨
    l.numbered = true ∧ ∃ n, Leads l.rule item (.number n) ∧ rule = String.ofList n.text

/-- What an item of any shape says. -/
structure Reads (s : Service) (item : Json) (d : Diagnostic) : Prop where
  line : Position s.layout.first s.layout.line item d.line.toNat
  column : Position s.layout.first s.layout.column item d.column.toNat
  message : ∀ m, Leads s.layout.message item (.string m) → d.message = m
  silent : (∀ m, ¬ Leads s.layout.message item (.string m)) → d.message = ""
  error : d.severity = .error ↔ Leads s.layout.severity item s.layout.error
  info : d.severity = .info ↔
    ∃ value, s.layout.info = some value ∧ Leads s.layout.severity item value
  source : d.source = s.source
  rule : ∀ rule, d.rule = some rule ↔ s.layout.Names item rule

/-- The item is as the service writes this finding. -/
structure Encodes (s : Service) (d : Diagnostic) (item : Json) : Prop where
  line : Leads s.layout.line item (.nat (d.line.toNat + s.layout.first))
  column : Leads s.layout.column item (.nat (d.column.toNat + s.layout.first))
  message : Leads s.layout.message item (.string d.message)
  severity : ∃ value, s.layout.value d.severity = some value ∧ Leads s.layout.severity item value
  source : d.source = s.source
  rule : ∀ rule, d.rule = some rule → s.layout.Names item rule
  ruleless : d.rule = none → ∀ value, Leads s.layout.rule item value → value = .null

theorem leads_iff {path : List String} {item value : Json} :
    Leads path item value ↔ follow path item = some value := by
  constructor
  · intro leads
    induction leads with
    | here => rfl
    | field found _ ih => exact Option.bind_eq_some_iff.mpr ⟨_, found, ih⟩
  · intro followed
    induction path generalizing item with
    | nil =>
      cases followed
      exact .here
    | cons name rest ih =>
      obtain ⟨part, found, onward⟩ := Option.bind_eq_some_iff.mp followed
      cases item with
      | object fields => exact .field found (ih onward)
      | null | bool | number | string | array => cases found

theorem Leads.unique {path : List String} {item value value' : Json} (one : Leads path item value)
    (other : Leads path item value') : value = value' := by
  rw [leads_iff] at one other
  exact Option.some.inj (one.symm.trans other)

theorem Leads.iff_eq {path : List String} {item value value' : Json}
    (leads : Leads path item value) : Leads path item value' ↔ value = value' :=
  ⟨leads.unique, fun same => same ▸ leads⟩

theorem Position.unique {first : Nat} {path : List String} {item : Json} {m n : Nat}
    (one : Position first path item m) (other : Position first path item n) : m = n := by
  cases one with
  | word k fits found =>
    cases other with
    | word k' _ found' =>
      cases found.unique found'
      rfl
    | other none => exact absurd found (none k fits)
  | other none =>
    cases other with
    | word k fits found => exact absurd found (none k fits)
    | other _ => rfl

theorem Position.written (s : Service) {n : Nat} {path : List String} {item : Json}
    (small : n < 0xffffffff) (found : Leads path item (.nat (n + s.layout.first))) :
    Position s.layout.first path item n := by
  have first : s.layout.first ≤ 1 := by cases s <;> decide
  have fits : n + s.layout.first ≤ largestWord := by
    unfold largestWord
    omega
  have same : max (min (n + s.layout.first) 0xffffffff) s.layout.first - s.layout.first = n := by
    omega
  have word : Position s.layout.first path item
      (max (min (n + s.layout.first) 0xffffffff) s.layout.first - s.layout.first) :=
    .word _ fits found
  rwa [same] at word

theorem Layout.Names.unique {l : Layout} {item : Json} {a b : String} (one : l.Names item a)
    (other : l.Names item b) : a = b := by
  rcases one with text | ⟨_, m, number, rfl⟩
  · rcases other with text' | ⟨_, n, number', _⟩
    · cases text.unique text'
      rfl
    · cases text.unique number'
  · rcases other with text' | ⟨_, n, number', rfl⟩
    · cases number.unique text'
    · cases number.unique number'
      rfl

theorem Reads.unique {s : Service} {item : Json} {d d' : Diagnostic} (one : Reads s item d)
    (other : Reads s item d') : d = d' := by
  have line : d.line = d'.line := UInt32.toNat_inj.mp (one.line.unique other.line)
  have column : d.column = d'.column := UInt32.toNat_inj.mp (one.column.unique other.column)
  have message : d.message = d'.message := by
    by_cases text : ∃ m, Leads s.layout.message item (.string m)
    · obtain ⟨m, found⟩ := text
      exact (one.message m found).trans (other.message m found).symm
    · have none : ∀ m, ¬ Leads s.layout.message item (.string m) := not_exists.mp text
      exact (one.silent none).trans (other.silent none).symm
  have severity : d.severity = d'.severity := by
    have error := one.error.trans other.error.symm
    have info := one.info.trans other.info.symm
    cases same : d.severity <;> cases same' : d'.severity <;> simp_all
  have source : d.source = d'.source := one.source.trans other.source.symm
  have rule : d.rule = d'.rule := by
    apply Option.ext
    intro rule
    exact (one.rule rule).trans (other.rule rule).symm
  cases d
  cases d'
  simp_all

theorem value_eq_iff (s : Service) {severity other : Severity} {value : Json}
    (stands : s.layout.value severity = some value) :
    severity = other ↔ s.layout.value other = some value := by
  constructor
  · rintro rfl
    exact stands
  · intro same
    have both := stands.trans same.symm
    clear stands same
    cases s <;> cases severity <;> cases other <;> simp_all [layout, Layout.value, Json.nat]

/-- What a service writes of a finding says just that. -/
theorem Encodes.reads {s : Service} {d : Diagnostic} {item : Json} (encodes : Encodes s d item)
    (line : d.line.toNat < 0xffffffff) (column : d.column.toNat < 0xffffffff) : Reads s item d where
  line := Position.written s line encodes.line
  column := Position.written s column encodes.column
  message m found := by
    cases encodes.message.unique found
    rfl
  silent none := absurd encodes.message (none d.message)
  error := by
    obtain ⟨value, stands, found⟩ := encodes.severity
    rw [found.iff_eq, value_eq_iff s stands, Layout.value, Option.some.injEq]
    exact eq_comm
  info := by
    obtain ⟨value, stands, found⟩ := encodes.severity
    rw [value_eq_iff s stands, Layout.value]
    simp [found.iff_eq]
  source := encodes.source
  rule rule := by
    constructor
    · exact encodes.rule rule
    · intro names
      cases own : d.rule with
      | some rule' => rw [(encodes.rule rule' own).unique names]
      | none =>
        exfalso
        rcases names with text | ⟨_, n, number, _⟩
        · cases encodes.ruleless own _ text
        · cases encodes.ruleless own _ number

section

variable {item : Json} {path : List String}

theorem natural?_eq_some {j : Json} {n : Nat} : j.natural? = some n ↔ j = .nat n := by
  constructor
  · intro found
    unfold Json.natural? at found
    split at found
    · cases found
      rfl
    · cases found
  · rintro rfl
    rfl

theorem Leads.inRange {value : Json} (leads : Leads path item value) (inRange : InRange item) :
    InRange value := by
  induction leads with
  | here => exact inRange
  | field found _ ih => exact ih (inRange.field? found)

theorem textAt_eq_some {m : String} :
    textAt path item = some m ↔ Leads path item (.string m) := by
  rw [leads_iff]
  unfold textAt
  cases follow path item with
  | none => simp
  | some value => cases value <;> simp [Json.string?]

theorem codeAt_eq_some {rule : String} : codeAt path item = some rule ↔
    Leads path item (.string rule) ∨
      ∃ n, Leads path item (.number n) ∧ rule = String.ofList n.text := by
  simp only [leads_iff]
  unfold codeAt
  cases follow path item with
  | none => simp
  | some value => cases value <;> simp [eq_comm]

theorem position_positionAt (inRange : InRange item) (first : Nat) (read : Option UInt32 → UInt32)
    (some : ∀ n, (read (some (UInt32.ofNat (min n 0xffffffff)))).toNat =
      max (min n 0xffffffff) first - first)
    (none : (read none).toNat = 0) :
    Position first path item (read (positionAt path item)).toNat := by
  unfold positionAt
  cases natural : (follow path item).bind Json.natural? with
  | some n =>
    obtain ⟨value, found, whole⟩ := Option.bind_eq_some_iff.mp natural
    have leads : Leads path item value := leads_iff.mpr found
    have fits := (leads.inRange inRange).natural? whole
    rw [natural?_eq_some.mp whole] at leads
    rw [Option.map_some, some]
    exact .word n fits leads
  | none =>
    rw [Option.map_none, none]
    refine .other fun n _ leads => ?_
    rw [leads_iff.mp leads] at natural
    cases natural

theorem toNat_cut (n : Nat) : (UInt32.ofNat (min n 0xffffffff)).toNat = min n 0xffffffff := by
  rw [UInt32.toNat_ofNat']
  omega

theorem position_fromOne (inRange : InRange item) :
    Position 1 path item (fromOne (positionAt path item)).toNat := by
  refine position_positionAt inRange 1 fromOne ?_ rfl
  intro n
  have cut := toNat_cut n
  unfold fromOne
  generalize UInt32.ofNat (min n 0xffffffff) = word at cut ⊢
  dsimp only [Option.getD_some]
  split
  · rename_i zero
    subst zero
    change 0 = min n 0xffffffff at cut
    change 0 = _
    omega
  · rename_i nonzero
    have positive : 1 ≤ word := UInt32.le_iff_toNat_le.mpr <|
      Nat.one_le_iff_ne_zero.mpr fun zero => nonzero (UInt32.toNat_inj.mp zero)
    rw [UInt32.toNat_sub_of_le _ _ positive, cut]
    change min n 0xffffffff - 1 = _
    omega

theorem position_fromZero (inRange : InRange item) :
    Position 0 path item ((positionAt path item).getD 0).toNat :=
  position_positionAt inRange 0 (fun position => position.getD 0)
    (fun n => by rw [Option.getD_some, toNat_cut]; omega) rfl

theorem severityOfNumber_eq {value : Option Json} :
    (severityOfNumber value = .error ↔ value = some (.nat 2)) ∧ severityOfNumber value ≠ .info := by
  unfold severityOfNumber
  split
  · exact ⟨iff_of_true rfl rfl, nofun⟩
  · rename_i other
    exact ⟨iff_of_false nofun other, nofun⟩

theorem severityOfWord_eq {error info : String} (different : error ≠ info) {value : Option Json} :
    (severityOfWord error info value = .error ↔ value = some (.string error)) ∧
      (severityOfWord error info value = .info ↔ value = some (.string info)) := by
  unfold severityOfWord
  split
  · rename_i word
    by_cases isError : word = error
    · simp [isError, different]
    · by_cases isInfo : word = info <;> simp [isError, isInfo, different.symm]
  · rename_i other
    exact ⟨iff_of_false nofun (other error), iff_of_false nofun (other info)⟩

theorem textAt_getD {m : String} (found : Leads path item (.string m)) :
    (textAt path item).getD "" = m := by
  rw [textAt_eq_some.mpr found]
  rfl

theorem textAt_getD_of_none (none : ∀ m, ¬ Leads path item (.string m)) :
    (textAt path item).getD "" = "" := by
  cases text : textAt path item with
  | none => rfl
  | some m => exact absurd (textAt_eq_some.mp text) (none m)

theorem readItem_reads (s : Service) (inRange : InRange item) : Reads s item (s.readItem item) := by
  cases s with
  | eslint =>
    exact {
      line := position_fromOne inRange
      column := position_fromOne inRange
      message := fun m found => textAt_getD found
      silent := fun none => textAt_getD_of_none none
      error := severityOfNumber_eq.1.trans leads_iff.symm
      info := iff_of_false severityOfNumber_eq.2 (by simp [layout])
      source := rfl
      rule := fun rule => textAt_eq_some.trans (by simp [layout, Layout.Names]) }
  | typescript | pyright =>
    exact {
      line := position_fromZero inRange
      column := position_fromZero inRange
      message := fun m found => textAt_getD found
      silent := fun none => textAt_getD_of_none none
      error := (severityOfWord_eq (by decide)).1.trans leads_iff.symm
      info := (severityOfWord_eq (by decide)).2.trans (by simp [layout, leads_iff])
      source := rfl
      rule := fun rule => codeAt_eq_some.trans (by simp [layout, Layout.Names]) }

end

/-- A rule as it is written; without a rule nothing stands there. -/
def written : Option String → Json
  | some rule => .string rule
  | none => .null

/-- A finding as a service writes it. The fields are in the order of their names. -/
def record (s : Service) (d : Diagnostic) (severity : Json) : Json :=
  let column : Json := .nat (d.column.toNat + s.layout.first)
  let line : Json := .nat (d.line.toNat + s.layout.first)
  let start : Json := .object [("character", column), ("line", line)]
  match s with
  | .eslint => .object [("column", column), ("line", line), ("message", .string d.message),
      ("ruleId", written d.rule), ("severity", severity)]
  | .typescript => .object [("category", severity), ("code", written d.rule),
      ("messageText", .string d.message), ("start", start)]
  | .pyright => .object [("message", .string d.message), ("range", .object [("start", start)]),
      ("rule", written d.rule), ("severity", severity)]

theorem record_encodes (s : Service) (d : Diagnostic) {severity : Json}
    (source : d.source = s.source) (stands : s.layout.value d.severity = some severity) :
    Encodes s d (record s d severity) := by
  have rule : Leads s.layout.rule (record s d severity) (written d.rule) := by
    cases s <;> exact leads_iff.mpr rfl
  constructor
  · cases s <;> exact leads_iff.mpr rfl
  · cases s <;> exact leads_iff.mpr rfl
  · cases s <;> exact leads_iff.mpr rfl
  · exact ⟨severity, stands, by cases s <;> exact leads_iff.mpr rfl⟩
  · exact source
  · intro name own
    rw [own] at rule
    exact .inl rule
  · intro none value found
    rw [none] at rule
    exact found.unique rule

/-- An answer that is JSON is never an error: of every element of the service's list one finding is
made, in the order of the list, and this element alone tells what it says. What the service writes
of a finding is read as this finding. -/
theorem answer_is_read_item_by_item (s : Service) (body : Text.Bytes) :
    ((∃ reason, s.readResponse body = .error (.payload reason)) ↔
      ∃ fault, Json.parseBytes body = .error fault) ∧
    (∀ e, s.readResponse body = .error e → ∃ reason, e = .payload reason) ∧
    (∀ answer, Json.parseBytes body = .ok answer → ∃ ds, s.readResponse body = .ok ds ∧
      (∀ fields items, answer = .object fields → lookup s.listField fields = some (.array items) →
        List.Forall₂ (Reads s) items ds) ∧
      ((∀ fields items, answer = .object fields → lookup s.listField fields ≠ some (.array items)) →
        ds = [])) ∧
    (∀ item d d', Reads s item d → Reads s item d' → d = d') ∧
    (∀ d item, Encodes s d item → d.line.toNat < 0xffffffff → d.column.toNat < 0xffffffff →
      ∀ d', Reads s item d' ↔ d' = d) ∧
    ∀ d, d.source = s.source → (s.layout.value d.severity).isSome → ∃ item, Encodes s d item := by
  refine ⟨?_, ?_, ?_, fun item d d' => Reads.unique, ?_, ?_⟩
  · unfold readResponse
    cases Json.parseBytes body <;> simp
  · intro e failed
    unfold readResponse at failed
    split at failed
    · cases failed
    · cases failed
      exact ⟨_, rfl⟩
  · intro answer read
    refine ⟨s.readItems answer, by rw [readResponse, read], ?_, ?_⟩
    · rintro fields items rfl list
      have found : (Json.object fields).field? s.listField = some (.array items) := list
      cases (Json.parseBytes_inRange read).field? found with
      | array each =>
        rw [readItems, found]
        change List.Forall₂ (Reads s) items (items.map s.readItem)
        rw [List.forall₂_map_right_iff, List.forall₂_same]
        exact fun item member => readItem_reads s (each item member)
    · intro none
      unfold readItems
      cases list : (answer.field? s.listField).bind Json.array? with
      | none => rfl
      | some items =>
        obtain ⟨value, found, array⟩ := Option.bind_eq_some_iff.mp list
        cases value with
        | array items =>
          cases answer with
          | object fields => exact absurd found (none fields items rfl)
          | null | bool | number | string | array => cases found
        | null | bool | number | string | object => cases array
  · intro d item encodes line column d'
    have reads := encodes.reads line column
    exact ⟨fun other => other.unique reads, fun same => same ▸ reads⟩
  · intro d source stands
    obtain ⟨severity, stands⟩ := Option.isSome_iff_exists.mp stands
    exact ⟨_, record_encodes s d source stands⟩

example : eslint.readItem (.object [("line", .nat 0), ("severity", .string "2")]) =
    ⟨0, 0, "", .warning, "ESLint", none⟩ := by decide

end BufferLint.Service
