import BufferLint.Json.Reader
import BufferLint.Proofs.Json.Fields

/-! Whole numbers that were read are words of 64 bits, with or without a sign. Whatever is written
with more digits is a double. -/
namespace BufferLint.Json

open BufferLint.Text (Bytes)

def Number.InRange : Number → Prop
  | .integer i => -0x8000000000000000 ≤ i ∧ i ≤ largestWord
  | .double _ => True

inductive InRange : Json → Prop where
  | null : InRange .null
  | bool (b : Bool) : InRange (.bool b)
  | number {n : Number} (inRange : n.InRange) : InRange (.number n)
  | string (s : String) : InRange (.string s)
  | array {items : List Json} (each : ∀ item ∈ items, InRange item) : InRange (.array items)
  | object {fields : List (String × Json)} (each : ∀ field ∈ fields, InRange field.2) :
      InRange (.object fields)

/-- What a reader read, if it read anything, is as it should be. -/
def Yields {α : Type} (Good : α → Prop) (read : Except Stop (α × Bytes)) : Prop :=
  ∀ a rest, read = .ok (a, rest) → Good a

section

variable {α β : Type} {Good : α → Prop}

theorem yields_error (stop : Stop) : Yields Good (.error stop) := nofun

theorem yields_ok {a : α} (good : Good a) (rest : Bytes) : Yields Good (.ok (a, rest)) := by
  rintro _ _ ⟨⟩
  exact good

theorem yields_map {read : Except Stop (β × Bytes)} {f : β → α}
    (each : Yields (fun b => Good (f b)) read) :
    Yields Good (read.map (fun r => (f r.1, r.2))) := by
  cases read with
  | error stop => exact yields_error stop
  | ok r => exact yields_ok (each r.1 r.2 rfl) r.2

theorem yields_bind {read : Except Stop β} {next : β → Except Stop (α × Bytes)}
    (each : ∀ b, read = .ok b → Yields Good (next b)) : Yields Good (read >>= next) := by
  cases read with
  | error stop => exact yields_error stop
  | ok b => exact each b rfl

end

section

variable (negative : Bool) (significand : Nat)

theorem finishDouble_inRange (exponent : Int) (bs : Bytes) :
    Yields Number.InRange (finishDouble negative significand exponent bs) := by
  unfold finishDouble
  split
  · exact yields_ok trivial _
  · exact yields_error _

theorem readExponentDigits_inRange (before : Int) (down : Bool) (exponent : Nat) (bs : Bytes) :
    Yields Number.InRange (readExponentDigits negative significand before down exponent bs) := by
  induction bs generalizing exponent with
  | nil => exact finishDouble_inRange _ _ _ _
  | cons b rest ih =>
    unfold readExponentDigits
    dsimp only
    split
    · split
      · split
        · exact yields_error _
        · exact yields_ok trivial _
      · exact ih _
    · exact finishDouble_inRange _ _ _ _

theorem readExponent_inRange (before : Int) (bs : Bytes) :
    Yields Number.InRange (readExponent negative significand before bs) := by
  unfold readExponent
  dsimp only
  split
  · exact yields_error _
  · split
    · exact readExponentDigits_inRange _ _ _ _ _ _
    · exact yields_error _

theorem finishDigits_inRange (exponent : Int) (bs : Bytes) :
    Yields Number.InRange (finishDigits negative significand exponent bs) := by
  unfold finishDigits
  split
  · split
    · exact readExponent_inRange _ _ _ _
    · exact finishDouble_inRange _ _ _ _
  · exact finishDouble_inRange _ _ _ _

theorem readFraction_inRange (before : Int) (places : Nat) (bs : Bytes) :
    Yields Number.InRange (readFraction negative before significand places bs) := by
  induction bs generalizing significand places with
  | nil =>
    unfold readFraction
    split
    · exact yields_error _
    · exact finishDigits_inRange _ _ _ _
  | cons b rest ih =>
    unfold readFraction
    dsimp only
    split
    · split
      · exact finishDigits_inRange _ _ _ _
      · exact ih _ _
    · split
      · exact yields_error _
      · exact finishDigits_inRange _ _ _ _

theorem readLongWhole_inRange (exponent : Nat) (bs : Bytes) :
    Yields Number.InRange (readLongWhole negative significand exponent bs) := by
  induction bs generalizing exponent with
  | nil => exact finishDouble_inRange _ _ _ _
  | cons b rest ih =>
    unfold readLongWhole
    split
    · exact ih _
    · split
      · exact readFraction_inRange _ _ _ _ _
      · exact finishDigits_inRange _ _ _ _

variable {significand}

theorem wholeNumber_inRange (fits : significand ≤ largestWord) :
    (wholeNumber negative significand).InRange := by
  unfold wholeNumber
  split
  · constructor <;> omega
  · split
    · trivial
    · rename_i small
      simp only [Bool.or_eq_true, decide_eq_true_eq, not_or, Nat.not_lt] at small
      constructor <;> omega

theorem finishWhole_inRange (fits : significand ≤ largestWord) (bs : Bytes) :
    Yields Number.InRange (finishWhole negative significand bs) := by
  have whole : ∀ rest, Yields Number.InRange (.ok (wholeNumber negative significand, rest)) :=
    yields_ok (wholeNumber_inRange negative fits)
  unfold finishWhole
  split
  · exact whole _
  · split
    · exact readFraction_inRange _ _ _ _ _
    · split
      · exact readExponent_inRange _ _ _ _
      · exact whole _

theorem readWhole_inRange (fits : significand ≤ largestWord) (bs : Bytes) :
    Yields Number.InRange (readWhole negative significand bs) := by
  induction bs generalizing significand with
  | nil => exact finishWhole_inRange negative fits _
  | cons b rest ih =>
    unfold readWhole
    dsimp only
    split
    · split
      · exact readLongWhole_inRange _ _ _ _
      · exact ih (Nat.le_of_not_lt ‹_›)
    · exact finishWhole_inRange negative fits _

theorem readNumber_inRange (bs : Bytes) : Yields Number.InRange (readNumber negative bs) := by
  unfold readNumber
  split
  · exact yields_error _
  · rename_i b rest
    split
    · split
      · split
        · exact yields_error _
        · exact finishWhole_inRange negative (Nat.zero_le _) _
      · exact finishWhole_inRange negative (Nat.zero_le _) _
    · split
      · have digit : digitValue b ≤ largestWord := by
          have := b.toNat_lt
          unfold digitValue largestWord
          omega
        exact readWhole_inRange negative digit _
      · exact yields_error _

end

theorem ofFields_inRange {fields : List (String × Json)}
    (each : ∀ field ∈ fields, InRange field.2) : InRange (ofFields fields) := by
  obtain ⟨entries, same, written, _⟩ := ofFields_eq fields
  rw [same]
  exact .object fun field member => each field (written field member)

theorem readWord_inRange {value : Json} (inRange : InRange value) (word bs : Bytes) :
    Yields InRange (readWord value word bs) := by
  induction word generalizing bs with
  | nil => exact yields_ok inRange bs
  | cons expected more ih =>
    cases bs with
    | nil => exact yields_error _
    | cons b bs =>
      unfold readWord
      split
      · exact ih bs
      · exact yields_error _

/-- The induction is on the fuel, for the three readers at once. -/
theorem read_inRange (fuel : Nat) :
    (∀ depth bs, Yields InRange (readValue fuel depth bs)) ∧
    (∀ depth done bs, (∀ item ∈ done, InRange item) →
      Yields InRange (readItems fuel depth done bs)) ∧
    ∀ depth done bs, (∀ field ∈ done, InRange field.2) →
      Yields InRange (readFields fuel depth done bs) := by
  induction fuel with
  | zero => exact ⟨nofun, nofun, nofun⟩
  | succ fuel ih =>
    obtain ⟨value, items, fields⟩ := ih
    have number : ∀ negative bs, Yields InRange
        ((readNumber negative bs).map (fun r => (.number r.1, r.2))) :=
      fun negative bs => yields_map fun n rest read =>
        .number (readNumber_inRange negative bs n rest read)
    refine ⟨?_, ?_, ?_⟩
    · intro depth bs
      unfold readValue
      cases skipBlank bs with
      | nil => exact yields_error _
      | cons b rest =>
        refine iteInduction (fun _ => readWord_inRange .null _ _) fun _ => ?_
        refine iteInduction (fun _ => readWord_inRange (.bool true) _ _) fun _ => ?_
        refine iteInduction (fun _ => readWord_inRange (.bool false) _ _) fun _ => ?_
        refine iteInduction (fun _ => number true rest) fun _ => ?_
        refine iteInduction (fun _ => number false (b :: rest)) fun _ => ?_
        refine iteInduction (fun _ => yields_map fun s _ _ => .string s) fun _ => ?_
        refine iteInduction (fun _ => ?_) fun _ =>
          iteInduction (fun _ => ?_) fun _ => yields_error _
        · exact iteInduction (fun _ => yields_error _) fun _ => items _ [] _ (by simp)
        · exact iteInduction (fun _ => yields_error _) fun _ => fields _ [] _ (by simp)
    · intro depth done bs each
      unfold readItems
      refine yields_bind fun ⟨more, bs⟩ _ => ?_
      refine iteInduction (fun _ => ?_) fun _ => ?_
      · refine yields_bind fun ⟨item, bs⟩ read => ?_
        exact items _ _ _ (List.forall_mem_cons.mpr ⟨value _ _ _ _ read, each⟩)
      · exact yields_ok (.array fun item member => each item (List.mem_reverse.mp member)) _
    · intro depth done bs each
      unfold readFields
      refine yields_bind fun ⟨more, bs⟩ _ => ?_
      refine iteInduction (fun _ => ?_) fun _ => ?_
      · refine yields_bind fun ⟨name, bs⟩ _ => yields_bind fun bs _ => ?_
        refine yields_bind fun ⟨content, bs⟩ read => ?_
        exact fields _ _ _ (List.forall_mem_cons.mpr ⟨value _ _ _ _ read, each⟩)
      · exact yields_ok
          (ofFields_inRange fun field member => each field (List.mem_reverse.mp member)) _

theorem parseBytes_inRange {bs : Bytes} {j : Json} (read : parseBytes bs = .ok j) : InRange j := by
  unfold parseBytes readDocument at read
  cases value : readValue (2 * bs.length + 2) depthLimit bs with
  | error stop =>
    rw [value] at read
    cases read
  | ok r =>
    have inRange := (read_inRange _).1 _ _ r.1 r.2 value
    rw [value] at read
    by_cases ended : (skipBlank r.2).isEmpty = true
    · simp [bind, Except.bind, ended, pure, Except.pure, Except.mapError] at read
      exact read ▸ inRange
    · simp [bind, Except.bind, ended, stopAtNext, Except.mapError] at read

theorem InRange.field? {j value : Json} {name : String} (inRange : InRange j)
    (found : j.field? name = some value) : InRange value := by
  cases inRange with
  | object each =>
    obtain ⟨field, first, same⟩ := Option.map_eq_some_iff.mp found
    rw [← same]
    exact each field (List.mem_of_find?_eq_some first)
  | null | bool | number | string | array => cases found

theorem InRange.natural? {j : Json} {n : Nat} (inRange : InRange j) (found : j.natural? = some n) :
    n ≤ largestWord := by
  unfold Json.natural? at found
  split at found
  · cases found
    cases inRange with
    | number word => exact Int.ofNat_le.mp word.2
  · cases found

end BufferLint.Json
