import BufferLint.Proofs.Json.Fields
import BufferLint.Proofs.Json.Rereading
import BufferLint.Settings.Store

/-! Settings come back from their text, and of some of their fields those fields come back. -/
namespace BufferLint.Settings

open BufferLint.Json (foldlM_overlay ofFields_eq reread)

def overlayEndpoints (s : Settings) (base : FileType → Option String) (names : List String) :
    FileType → Option String :=
  fun t => if t.word ∈ names then s.endpoints t else base t

theorem mem_endpointFields {s : Settings} {field : String × Json} :
    field ∈ s.endpointFields ↔
      ∃ t url, s.endpoints t = some url ∧ field = (t.word, .string url) := by
  simp only [endpointFields, List.mem_filterMap, Option.map_eq_some_iff]
  constructor
  · rintro ⟨t, _, url, address, rfl⟩
    exact ⟨t, url, address, rfl⟩
  · rintro ⟨t, url, address, rfl⟩
    exact ⟨t, by cases t <;> decide, url, address, rfl⟩

theorem setEndpoint_field {s : Settings} {field : String × Json}
    (member : field ∈ s.endpointFields) (base : FileType → Option String) :
    setEndpoint base field = .ok (s.overlayEndpoints base [field.1]) := by
  obtain ⟨t, url, address, rfl⟩ := mem_endpointFields.mp member
  have name : Json.decodeName FileType.word FileType.all t.word = .ok t :=
    Json.decodeName_word (FileType.ofWord_word t)
  simp only [setEndpoint, name, Json.decodeString, bind, Except.bind, pure, Except.pure]
  congr 1
  funext u
  by_cases this : u = t
  · simp [overlayEndpoints, this, address]
  · have other : u.word ≠ t.word := fun same => this (FileType.word_injective same)
    simp [overlayEndpoints, this, other]

theorem decodeEndpoints_fields (s : Settings) :
    decodeEndpoints (reread (.object s.endpointFields)) = .ok s.endpoints := by
  have strings : Json.rereadFields s.endpointFields = s.endpointFields := by
    rw [Json.rereadFields_eq_map]
    refine (List.map_congr_left ?_).trans (List.map_id s.endpointFields)
    intro field member
    obtain ⟨t, url, _, rfl⟩ := mem_endpointFields.mp member
    rfl
  obtain ⟨entries, same, members, names⟩ := ofFields_eq s.endpointFields
  rw [reread, strings, same, decodeEndpoints]
  have nothing : ∀ base, s.overlayEndpoints base [] = base := by
    intro base
    funext t
    simp [overlayEndpoints]
  have joined : ∀ base before behind, s.overlayEndpoints (s.overlayEndpoints base before) behind =
      s.overlayEndpoints base (before ++ behind) := by
    intro base before behind
    funext t
    by_cases late : t.word ∈ behind <;> simp [overlayEndpoints, late]
  rw [foldlM_overlay nothing joined
    (fun field member base => setEndpoint_field (members field member) base)]
  congr 1
  funext t
  have known : t.word ∈ entries.map Prod.fst ↔ s.endpoints t ≠ none := by
    rw [names, List.mem_map, Option.ne_none_iff_exists']
    constructor
    · rintro ⟨field, member, name⟩
      obtain ⟨u, url, address, rfl⟩ := mem_endpointFields.mp member
      exact ⟨url, FileType.word_injective name ▸ address⟩
    · rintro ⟨url, address⟩
      exact ⟨_, mem_endpointFields.mpr ⟨t, url, address, rfl⟩, rfl⟩
  by_cases missing : s.endpoints t = none
  · simp [overlayEndpoints, missing]
  · simp [overlayEndpoints, known.mpr missing]

/-- The settings `base` with those fields of `s` that are named. -/
def overlay (base s : Settings) (names : List String) : Settings where
  enabled := if "enabled" ∈ names then s.enabled else base.enabled
  realtime := if "realtimeChecking" ∈ names then s.realtime else base.realtime
  useRemote := if "useRemote" ∈ names then s.useRemote else base.useRemote
  fallbackToLocal :=
    if "fallbackToLocal" ∈ names then s.fallbackToLocal else base.fallbackToLocal
  level := if "severityLevel" ∈ names then s.level else base.level
  timeoutMs := if "timeoutMs" ∈ names then s.timeoutMs else base.timeoutMs
  delayMs := if "checkDelayMs" ∈ names then s.delayMs else base.delayMs
  endpoints := if "endpoints" ∈ names then s.endpoints else base.endpoints
  strict := if "strictRemote" ∈ names then s.strict else base.strict

theorem overlay_nil (base s : Settings) : overlay base s [] = base := by
  simp [overlay]

theorem overlay_overlay (base s : Settings) (before behind : List String) :
    overlay (overlay base s before) s behind = overlay base s (before ++ behind) := by
  have once : ∀ {α : Type} (name : String) (mine theirs : α),
      (if name ∈ behind then mine else if name ∈ before then mine else theirs) =
        if name ∈ before ++ behind then mine else theirs := by
    intro α name mine theirs
    by_cases late : name ∈ behind <;> simp [late]
  simp only [overlay, once]

theorem overlay_congr (base s : Settings) {names others : List String}
    (same : ∀ name ∈ fieldNames, (name ∈ names ↔ name ∈ others)) :
    overlay base s names = overlay base s others := by
  simp only [fieldNames, List.forall_mem_cons] at same
  simp [overlay, same]

theorem overlay_all (base s : Settings) : overlay base s fieldNames = s := by
  simp [overlay, fieldNames]

theorem decodeWord64_reread (n : UInt64) :
    Json.decodeWord64 (reread (.nat n.toNat)) = .ok n := by
  have fits : n.toNat ≤ Json.largestWord := Nat.le_of_lt_succ n.toNat_lt
  rw [Json.reread_nat fits, Json.decodeWord64_nat]

theorem decodeStrict_reread (ts : List FileType) :
    Json.decodeList (Json.decodeVariant FileType.word FileType.all)
      (reread (.array (ts.map (fun t => Json.string t.word)))) = .ok ts := by
  have strings : Json.rereadItems (ts.map (fun t => Json.string t.word)) =
      ts.map (fun t => Json.string t.word) := by
    rw [Json.rereadItems_eq_map, List.map_map]
    rfl
  rw [reread, strings]
  exact Json.decodeList_map (fun t => Json.decodeName_word (FileType.ofWord_word t)) ts

theorem setField_field {s : Settings} {field : String × Json} (member : field ∈ s.fields)
    (base : Settings) :
    setField base (field.1, reread field.2) = .ok (overlay base s [field.1]) := by
  simp only [fields, List.mem_cons, List.not_mem_nil, or_false] at member
  rcases member with rfl | rfl | rfl | rfl | rfl | rfl | rfl | rfl | rfl
  · rfl
  · rfl
  · rfl
  · rfl
  · have level : Json.decodeVariant Severity.word Severity.all (reread (.string s.level.word)) =
        .ok s.level := Json.decodeName_word (Severity.ofWord_word s.level)
    simp only [setField, level]
    rfl
  · simp only [setField, decodeWord64_reread]
    rfl
  · simp only [setField, decodeWord64_reread]
    rfl
  · simp only [setField, decodeEndpoints_fields]
    rfl
  · simp only [setField, decodeStrict_reread]
    rfl

theorem setField_unknown (base s : Settings) {field : String × Json}
    (unknown : field.1 ∉ fieldNames) : setField base field = .ok (overlay base s [field.1]) := by
  have kept : overlay base s [field.1] = base := by
    refine (overlay_congr base s ?_).trans (overlay_nil base s)
    intro name known
    have other : name ≠ field.1 := fun same => unknown (same ▸ known)
    simp [other]
  simp only [fieldNames, List.mem_cons, List.not_mem_nil, or_false, not_or] at unknown
  simp [setField, unknown, kept, pure, Except.pure]

theorem ofJson_fields {s : Settings} {fields : List (String × Json)}
    (each : ∀ field ∈ fields, field ∈ s.fields ∨ field.1 ∉ fieldNames) :
    ofJson (reread (.object fields)) = .ok (overlay {} s (fields.map Prod.fst)) := by
  obtain ⟨entries, same, members, names⟩ := ofFields_eq (Json.rereadFields fields)
  have step : ∀ entry ∈ entries, ∀ base,
      setField base entry = .ok (overlay base s [entry.1]) := by
    intro entry member base
    have written := members entry member
    rw [Json.rereadFields_eq_map] at written
    obtain ⟨field, before, rfl⟩ := List.mem_map.mp written
    rcases each field before with known | unknown
    · exact setField_field known base
    · exact setField_unknown base s unknown
  have folded := foldlM_overlay (fun base => overlay_nil base s)
    (fun base before behind => overlay_overlay base s before behind) step {}
  have named : overlay {} s (entries.map Prod.fst) = overlay {} s (fields.map Prod.fst) := by
    apply overlay_congr
    intro name _
    rw [names, Json.rereadFields_eq_map, List.map_map]
    rfl
  simp only [ofJson, reread, same, Json.recordFields, folded, Json.checkLength, named, bind,
    Except.bind, pure, Except.pure]

theorem ofText_decoded {text : String} {s : Settings} (decoded : decodeText text = .ok s) :
    ofText text = if s.timeoutMs = 0 then .error (.invalid "timeoutMs must be greater than 0")
      else .ok s := by
  rw [ofText, decoded]
  by_cases zero : s.timeoutMs = 0 <;> simp [validate, zero, bind, Except.bind, pure, Except.pure]

/-- The timeout that is there without a text is not refused. -/
theorem overlay_timeout (s : Settings) (names : List String) :
    (overlay {} s names).timeoutMs = 0 ↔ "timeoutMs" ∈ names ∧ s.timeoutMs = 0 := by
  by_cases timed : "timeoutMs" ∈ names <;> simp [overlay, timed]

theorem ofText_fields {s : Settings} {fields : List (String × Json)}
    (each : ∀ field ∈ fields, field ∈ s.fields ∨ field.1 ∉ fieldNames) :
    ofText (Json.pretty (.object fields)) =
      if "timeoutMs" ∈ fields.map Prod.fst ∧ s.timeoutMs = 0 then
        .error (.invalid "timeoutMs must be greater than 0")
      else .ok (overlay {} s (fields.map Prod.fst)) := by
  have decoded : decodeText (Json.pretty (.object fields)) =
      .ok (overlay {} s (fields.map Prod.fst)) := by
    rw [decodeText, Json.Relaxed.parse_pretty]
    simp only [ofJson_fields each]
  rw [ofText_decoded decoded]
  simp only [overlay_timeout]

theorem ofText_toText (s : Settings) : ofText s.toText =
    if s.timeoutMs = 0 then .error (.invalid "timeoutMs must be greater than 0") else .ok s := by
  have mine : ∀ field ∈ s.fields, field ∈ s.fields ∨ field.1 ∉ fieldNames :=
    fun _ member => .inl member
  have all := ofText_fields mine
  have names : s.fields.map Prod.fst = fieldNames := rfl
  have timed : "timeoutMs" ∈ fieldNames := by decide
  simp only [names, overlay_all, timed, true_and] at all
  exact all

theorem load_save (s : Settings) (f : SettingsFile) : (do (← f.save s).load) =
    if s.timeoutMs = 0 then .error (.invalid "timeoutMs must be greater than 0")
    else if f.hasDirectory then .ok s
    else .error (.inaccessible "No such file or directory (os error 2)") := by
  by_cases zero : s.timeoutMs = 0
  · rw [SettingsFile.save, validate, if_pos zero, if_pos zero]
    rfl
  · rw [SettingsFile.save, validate, if_neg zero, if_neg zero]
    cases directory : f.hasDirectory with
    | false => simp [SettingsFile.write, directory, bind, Except.bind]
    | true =>
      have read := ofText_toText s
      rw [if_neg zero] at read
      simp [SettingsFile.write, SettingsFile.load, directory, read, bind, Except.bind]

section selection

variable {s : Settings} {known : List String} {extra fields : List (String × Json)}
  (unknown : ∀ field ∈ extra, field.1 ∉ fieldNames)
  (anyOrder : fields.Perm (s.fields.filter (·.1 ∈ known) ++ extra))
include unknown anyOrder

theorem selected_or_unknown : ∀ field ∈ fields, field ∈ s.fields ∨ field.1 ∉ fieldNames := by
  intro field member
  rcases List.mem_append.mp (anyOrder.subset member) with mine | other
  · exact .inl (List.mem_filter.mp mine).1
  · exact .inr (unknown field other)

theorem mem_selected {name : String} (mine : name ∈ fieldNames) :
    name ∈ fields.map Prod.fst ↔ name ∈ known := by
  rw [(anyOrder.map Prod.fst).mem_iff, List.map_append, List.mem_append]
  constructor
  · rintro (taken | other)
    · obtain ⟨field, member, rfl⟩ := List.mem_map.mp taken
      exact of_decide_eq_true (List.mem_filter.mp member).2
    · obtain ⟨field, member, rfl⟩ := List.mem_map.mp other
      exact absurd mine (unknown field member)
  · intro wanted
    obtain ⟨field, member, rfl⟩ : ∃ field ∈ s.fields, field.1 = name := List.mem_map.mp mine
    exact .inl (List.mem_map_of_mem (List.mem_filter.mpr ⟨member, decide_eq_true wanted⟩))

end selection

/-- What is written of settings is read back: of the fields `known`, in any order and among
others, those, where the rest keep their defaults; and of a saved file everything. -/
theorem decode_undoes_encode (s : Settings) (known : List String)
    {extra fields : List (String × Json)} (unknown : ∀ field ∈ extra, field.1 ∉ fieldNames)
    (anyOrder : fields.Perm (s.fields.filter (·.1 ∈ known) ++ extra)) :
    ofText (Json.pretty (.object fields)) =
        (if "timeoutMs" ∈ known ∧ s.timeoutMs = 0 then
          .error (.invalid "timeoutMs must be greater than 0")
        else .ok (overlay {} s known)) ∧
      ∀ f : SettingsFile, (do (← f.save s).load) =
        if s.timeoutMs = 0 then .error (.invalid "timeoutMs must be greater than 0")
        else if f.hasDirectory then .ok s
        else .error (.inaccessible "No such file or directory (os error 2)") := by
  have named : ∀ name ∈ fieldNames, (name ∈ fields.map Prod.fst ↔ name ∈ known) :=
    fun _ mine => mem_selected unknown anyOrder mine
  have timed := named "timeoutMs" (by decide)
  constructor
  · rw [ofText_fields (selected_or_unknown unknown anyOrder), overlay_congr {} s named]
    simp only [timed]
  · exact load_save s

/-- An address and a timeout, written behind a field that nobody knows. -/
theorem decode_undoes_encode_address :
    let s : Settings :=
      { useRemote := true, timeoutMs := 7,
        endpoints := fun t => if t = .lua then some "http://\"é\"" else none }
    let extra : List (String × Json) := [("theme", .string "dark")]
    let known := ["timeoutMs", "endpoints"]
    (∀ field ∈ extra, field.1 ∉ fieldNames) ∧
      (extra ++ s.fields.filter (·.1 ∈ known)).Perm (s.fields.filter (·.1 ∈ known) ++ extra) ∧
      ofText (Json.pretty (.object (extra ++ s.fields.filter (·.1 ∈ known)))) =
        .ok { timeoutMs := 7, endpoints := s.endpoints } ∧
      (do (← ({} : SettingsFile).save s).load) = .ok s := by
  intro s extra known
  have unknown : ∀ field ∈ extra, field.1 ∉ fieldNames := by decide
  have anyOrder : (extra ++ s.fields.filter (·.1 ∈ known)).Perm
      (s.fields.filter (·.1 ∈ known) ++ extra) := List.perm_append_comm
  obtain ⟨part, whole⟩ := decode_undoes_encode s known unknown anyOrder
  refine ⟨unknown, anyOrder, part.trans ?_, (whole {}).trans ?_⟩
  · rfl
  · rfl

end BufferLint.Settings
