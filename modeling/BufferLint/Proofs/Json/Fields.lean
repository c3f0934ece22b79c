import BufferLint.Json.Decode
import Mathlib.Tactic.Tauto

/-! Objects keep what is written last under each name, and decoding takes back what was encoded. -/
namespace BufferLint.Json

theorem mem_put {name : String} {value : Json} {fields : List (String × Json)}
    {field : String × Json} (member : field ∈ put name value fields) :
    field = (name, value) ∨ field ∈ fields := by
  induction fields with
  | nil => exact .inl (List.mem_singleton.mp member)
  | cons head rest ih =>
    rw [put] at member
    split at member
    · exact List.mem_cons.mp member
    split at member
    · exact (List.mem_cons.mp member).imp_right (List.mem_cons_of_mem head)
    · rcases List.mem_cons.mp member with rfl | later
      · exact .inr List.mem_cons_self
      · exact (ih later).imp_right (List.mem_cons_of_mem head)

theorem names_put (name : String) (value : Json) (fields : List (String × Json)) (n : String) :
    n ∈ (put name value fields).map Prod.fst ↔ n = name ∨ n ∈ fields.map Prod.fst := by
  induction fields with
  | nil => simp [put]
  | cons head rest ih =>
    rw [put]
    split
    · simp
    split
    · rename_i same
      simp [same]
    · rw [List.map_cons, List.mem_cons, ih, List.map_cons, List.mem_cons]
      tauto

theorem foldl_put (fields done : List (String × Json)) :
    (∀ field ∈ fields.foldl (fun done field => put field.1 field.2 done) done,
        field ∈ fields ∨ field ∈ done) ∧
      ∀ n, n ∈ (fields.foldl (fun done field => put field.1 field.2 done) done).map Prod.fst ↔
        n ∈ fields.map Prod.fst ∨ n ∈ done.map Prod.fst := by
  induction fields generalizing done with
  | nil => simp
  | cons head rest ih =>
    obtain ⟨members, names⟩ := ih (put head.1 head.2 done)
    constructor
    · intro field member
      rcases members field member with later | before
      · exact .inl (List.mem_cons_of_mem head later)
      · exact (mem_put before).imp_left (fun same => List.mem_cons.mpr (.inl same))
    · intro n
      rw [List.foldl_cons, names, names_put, List.map_cons, List.mem_cons]
      tauto

theorem ofFields_eq (fields : List (String × Json)) :
    ∃ entries, ofFields fields = .object entries ∧ (∀ field ∈ entries, field ∈ fields) ∧
      ∀ n, n ∈ entries.map Prod.fst ↔ n ∈ fields.map Prod.fst := by
  obtain ⟨members, names⟩ := foldl_put fields []
  refine ⟨_, rfl, ?_, ?_⟩
  · intro field member
    simpa using members field member
  · intro n
    simpa using names n

theorem lookup_cons (name : String) (field : String × Json) (rest : List (String × Json)) :
    lookup name (field :: rest) = if field.1 = name then some field.2 else lookup name rest := by
  by_cases same : field.1 = name <;> simp [lookup, same]

theorem lookup_eq_none {name : String} {fields : List (String × Json)} :
    lookup name fields = none ↔ name ∉ fields.map Prod.fst := by
  induction fields with
  | nil => simp [lookup]
  | cons field rest ih =>
    rw [lookup_cons, List.map_cons, List.mem_cons, not_or, ← ih]
    by_cases same : field.1 = name
    · simp [same]
    · simp [same, Ne.symm same]

def Sorted (fields : List (String × Json)) : Prop := (fields.map Prod.fst).Pairwise (· < ·)

theorem Sorted.nodup {fields : List (String × Json)} (sorted : Sorted fields) :
    (fields.map Prod.fst).Nodup :=
  List.Pairwise.imp (fun less => Std.ne_of_lt less) sorted

theorem put_behind {name : String} {done : List (String × Json)}
    (behind : ∀ n ∈ done.map Prod.fst, n < name) (value : Json) :
    put name value done = done ++ [(name, value)] := by
  induction done with
  | nil => rfl
  | cons field rest ih =>
    rw [List.map_cons, List.forall_mem_cons] at behind
    have notBefore : ¬ name < field.1 := Std.not_gt_of_lt behind.1
    have other : ¬ name = field.1 := fun same => Std.lt_irrefl (same ▸ behind.1)
    rw [put, if_neg notBefore, if_neg other, ih behind.2, List.cons_append]

theorem sorted_put (name : String) (value : Json) {fields : List (String × Json)}
    (sorted : Sorted fields) : Sorted (put name value fields) := by
  induction fields with
  | nil => exact List.pairwise_singleton _ _
  | cons field rest ih =>
    have ordered : Sorted rest := (List.pairwise_cons.mp sorted).2
    have first : ∀ n ∈ rest.map Prod.fst, field.1 < n := (List.pairwise_cons.mp sorted).1
    rw [put]
    by_cases before : name < field.1
    · rw [if_pos before]
      refine List.pairwise_cons.mpr ⟨?_, sorted⟩
      intro n member
      rcases List.mem_cons.mp member with rfl | later
      · exact before
      · exact Std.lt_trans before (first n later)
    · rw [if_neg before]
      by_cases same : name = field.1
      · rw [if_pos same]
        exact List.pairwise_cons.mpr ⟨same ▸ first, ordered⟩
      · rw [if_neg same]
        refine List.pairwise_cons.mpr ⟨?_, ih ordered⟩
        intro n member
        rcases (names_put name value rest n).mp member with rfl | later
        · grind
        · exact first n later

theorem sorted_ofFields (fields : List (String × Json)) :
    ∃ entries, ofFields fields = .object entries ∧ Sorted entries := by
  suffices kept : ∀ done, Sorted done →
      Sorted (fields.foldl (fun done field => put field.1 field.2 done) done) from
    ⟨_, rfl, kept [] .nil⟩
  induction fields with
  | nil => exact fun done sorted => sorted
  | cons field rest ih => exact fun done sorted => ih _ (sorted_put field.1 field.2 sorted)

/-- Fields that are in order are an object as they stand. -/
theorem ofFields_of_sorted {fields : List (String × Json)} (sorted : Sorted fields) :
    ofFields fields = .object fields := by
  suffices appended : ∀ done, Sorted (done ++ fields) →
      fields.foldl (fun done field => put field.1 field.2 done) done = done ++ fields from
    congrArg Json.object (appended [] sorted)
  intro done ordered
  clear sorted
  induction fields generalizing done with
  | nil => simp
  | cons field rest ih =>
    have behind : ∀ n ∈ done.map Prod.fst, n < field.1 := by
      intro n member
      rw [Sorted, List.map_append] at ordered
      exact (List.pairwise_append.mp ordered).2.2 n member field.1 List.mem_cons_self
    rw [List.foldl_cons, put_behind behind, ih _ (by simpa using ordered), List.append_assoc,
      List.singleton_append]

theorem decodeName_word {α : Type} {word : α → String} {known : List α} {a : α}
    (found : known.find? (fun b => word b == word a) = some a) :
    decodeName word known (word a) = .ok a := by
  rw [decodeName, found]

theorem decodeName_iff {α : Type} {word : α → String} {known : List α}
    (found : ∀ a, known.find? (fun b => word b == word a) = some a) {name : String} {a : α} :
    decodeName word known name = .ok a ↔ name = word a := by
  constructor
  · intro decoded
    unfold decodeName at decoded
    split at decoded
    · rename_i b first
      cases decoded
      have named := List.find?_some first
      exact (beq_iff_eq.mp named).symm
    · cases decoded
  · rintro rfl
    exact decodeName_word (found a)

theorem decodeVariant_iff {α : Type} {word : α → String} {known : List α}
    (found : ∀ a, known.find? (fun b => word b == word a) = some a) {j : Json} {a : α} :
    decodeVariant word known j = .ok a ↔ j = .string (word a) ∨ j = .object [(word a, .null)] := by
  constructor
  · intro decoded
    unfold decodeVariant at decoded
    split at decoded
    · exact .inl (congrArg Json.string ((decodeName_iff found).mp decoded))
    · rename_i name value
      cases named : decodeName word known name with
      | error e =>
        rw [named] at decoded
        cases decoded
      | ok b =>
        rw [named] at decoded
        cases value <;> cases decoded
        rw [(decodeName_iff found).mp named]
        exact .inr rfl
    · cases decoded
    · cases decoded
  · rintro (rfl | rfl)
    · exact decodeName_word (found a)
    · simp only [decodeVariant, decodeName_word (found a)]
      rfl

theorem decodeString_iff {j : Json} {s : String} : decodeString j = .ok s ↔ j = .string s := by
  cases j <;> simp [decodeString, mismatch]

theorem map_eq_ok {α β ε : Type} {read : Except ε α} {f : α → β} {b : β} :
    read.map f = .ok b ↔ ∃ a, read = .ok a ∧ f a = b := by
  cases read <;> simp [Except.map]

theorem bind_eq_ok {α β ε : Type} {read : Except ε α} {next : α → Except ε β} {b : β} :
    (read >>= next) = .ok b ↔ ∃ a, read = .ok a ∧ next a = .ok b := by
  cases read <;> simp [bind, Except.bind]

theorem decodeOptional_iff {α : Type} {decode : Json → Except DecodeError α} {encode : α → Json}
    (undone : ∀ j a, decode j = .ok a ↔ j = encode a) (solid : ∀ a, encode a ≠ .null) {j : Json}
    {o : Option α} : decodeOptional decode j = .ok o ↔ j = (o.map encode).getD .null := by
  by_cases null : j = .null
  · subst null
    cases o with
    | none => simp [decodeOptional]
    | some a => simpa [decodeOptional] using (solid a).symm
  · have given : decodeOptional decode j = (decode j).map some := by
      cases j <;> first | exact absurd rfl null | rfl
    rw [given, map_eq_ok]
    cases o with
    | none => simp [null]
    | some a => simp [undone]

theorem decodeWord_iff {j : Json} {n bound : Nat} {expected : String} :
    decodeWord expected bound j = .ok n ↔ n < bound ∧ j = .nat n := by
  constructor
  · intro decoded
    unfold decodeWord at decoded
    split at decoded
    · rename_i i
      split at decoded
      · rename_i range
        cases decoded
        refine ⟨by omega, ?_⟩
        rw [nat, Int.toNat_of_nonneg range.1]
      · cases decoded
    · cases decoded
  · rintro ⟨small, rfl⟩
    simp [decodeWord, nat, small]

theorem decodeWord32_iff {j : Json} {n : UInt32} :
    decodeWord32 j = .ok n ↔ j = .nat n.toNat := by
  rw [decodeWord32, map_eq_ok]
  constructor
  · rintro ⟨m, decoded, rfl⟩
    obtain ⟨small, rfl⟩ := decodeWord_iff.mp decoded
    rw [UInt32.toNat_ofNat_of_lt' small]
  · rintro rfl
    exact ⟨n.toNat, decodeWord_iff.mpr ⟨n.toNat_lt, rfl⟩, UInt32.ofNat_toNat⟩

theorem decodeWord64_nat (n : UInt64) : decodeWord64 (.nat n.toNat) = .ok n := by
  rw [decodeWord64, decodeWord_iff.mpr ⟨n.toNat_lt, rfl⟩, Except.map, UInt64.ofNat_toNat]

theorem decodeList_map {α : Type} {decode : Json → Except DecodeError α} {encode : α → Json}
    (undone : ∀ a, decode (encode a) = .ok a) (as : List α) :
    decodeList decode (.array (as.map encode)) = .ok as := by
  rw [decodeList]
  induction as with
  | nil => rfl
  | cons a rest ih => simp [undone, ih, bind, Except.bind, pure, Except.pure]

/-- Where each field puts something in place, and doing so twice is doing so once, fields in any
order put in place what they name. -/
theorem foldlM_overlay {σ ε : Type} {step : σ → String × Json → Except ε σ}
    {overlay : σ → List String → σ} (nothing : ∀ t, overlay t [] = t)
    (joined : ∀ t before behind, overlay (overlay t before) behind = overlay t (before ++ behind))
    {fields : List (String × Json)}
    (each : ∀ field ∈ fields, ∀ t, step t field = .ok (overlay t [field.1])) (t : σ) :
    fields.foldlM step t = .ok (overlay t (fields.map Prod.fst)) := by
  induction fields generalizing t with
  | nil => rw [List.map_nil, nothing]; rfl
  | cons field rest ih =>
    have later := ih (fun next member => each next (List.mem_cons_of_mem field member))
      (overlay t [field.1])
    rw [joined] at later
    rw [List.foldlM_cons, each field List.mem_cons_self]
    exact later

end BufferLint.Json
