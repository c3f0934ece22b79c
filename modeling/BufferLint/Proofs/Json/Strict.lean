import BufferLint.Proofs.Json.Fields
import BufferLint.Proofs.Json.Rereading
import BufferLint.Proofs.Text.Encoding

/-! A printed value is read back byte by byte, as the same value, as long as its numbers are words
and its containers are not nested too deep. -/
namespace BufferLint.Json

open BufferLint.Text
open Relaxed (Stops behindMember block_cons behindMember_cons stops_behindMember)

/-- A value that has one text: its numbers are words, its fields are in order, and `depth` says how
deep its containers are nested at most. -/
inductive Canonical : Nat → Json → Prop where
  | null {depth : Nat} : Canonical depth .null
  | bool {depth : Nat} (b : Bool) : Canonical depth (.bool b)
  | integer {depth : Nat} {i : Int} (low : -0x8000000000000000 ≤ i) (high : i ≤ largestWord) :
      Canonical depth (.number (.integer i))
  | string {depth : Nat} (s : String) : Canonical depth (.string s)
  | array {depth : Nat} {items : List Json} (each : ∀ item ∈ items, Canonical depth item) :
      Canonical (depth + 1) (.array items)
  | object {depth : Nat} {fields : List (String × Json)} (sorted : Sorted fields)
      (each : ∀ field ∈ fields, Canonical depth field.2) :
      Canonical (depth + 1) (.object fields)

theorem Canonical.nat {depth n : Nat} (fits : n ≤ largestWord) : Canonical depth (.nat n) :=
  .integer (by omega) (by exact_mod_cast fits)

theorem byte_ne {c d : Char} (ascii : c.toNat < 0x80) (other : d.toNat < 0x80) (ne : c ≠ d) :
    (byte c == byte d) = false := by
  rw [beq_eq_false_iff_ne]
  intro same
  have numbers := congrArg UInt8.toNat same
  rw [toNat_byte ascii, toNat_byte other] at numbers
  exact ne (Char.toNat_inj.mp numbers)

theorem ended_of_stops {rest : List Char} (stops : Stops rest) : Ended (encoded rest) := by
  cases rest with
  | nil => exact ended_nil
  | cons c rest =>
    rcases stops c rfl with rfl | rfl
    · rintro b ⟨⟩
      decide
    · rintro b ⟨⟩
      decide

theorem skipBlank_newline (depth : Nat) (cs : List Char) :
    skipBlank (encoded (newline depth ++ cs)) = skipBlank (encoded cs) := by
  have spaces : ∀ n, skipBlank (encoded (List.replicate n ' ' ++ cs)) = skipBlank (encoded cs) := by
    intro n
    induction n with
    | zero => rfl
    | succ n ih => exact ih
  exact spaces (2 * depth)

theorem skipBlank_solid {b : UInt8} (solid : isBlankByte b = false) (bs : Bytes) :
    skipBlank (b :: bs) = b :: bs := by
  rw [skipBlank, List.dropWhile_cons_of_neg (by simp [solid])]

def Plain (b : UInt8) : Prop := (b == byte '\x22') = false ∧ (b == byte '\x5c') = false ∧ ¬ b < 0x20

theorem readChars_plain {bs : Bytes} (plain : ∀ b ∈ bs, Plain b) (fuel : Nat) (done rest : Bytes) :
    readChars (fuel + bs.length) done (bs ++ rest) = readChars fuel (bs.reverse ++ done) rest := by
  induction bs generalizing done with
  | nil => rfl
  | cons b bs ih =>
    obtain ⟨quote, backslash, control⟩ := plain b List.mem_cons_self
    have later := ih (fun b member => plain b (List.mem_cons_of_mem _ member)) (b :: done)
    simp only [List.length_cons, ← Nat.add_assoc, List.cons_append, readChars, quote, backslash,
      control, Bool.false_eq_true, if_false]
    simpa using later

theorem plain_char {c : Char} (quote : c ≠ '\x22') (backslash : c ≠ '\x5c')
    (control : ¬ c.toNat < 0x20) : ∀ b ∈ String.utf8EncodeChar c, Plain b := by
  intro b member
  rcases encodeChar_cases c with ⟨ascii, one⟩ | ⟨_, high⟩
  · rw [one, List.mem_singleton] at member
    subst member
    refine ⟨byte_ne ascii (by decide) quote, byte_ne ascii (by decide) backslash, ?_⟩
    rw [UInt8.lt_iff_toNat_lt]
    exact toNat_byte ascii ▸ control
  · have large := UInt8.le_iff_toNat_le.mp (high b member)
    change 0x80 ≤ b.toNat at large
    have other : ∀ d : UInt8, d.toNat < 0x80 → (b == d) = false := by
      intro d small
      rw [beq_eq_false_iff_ne]
      rintro rfl
      omega
    refine ⟨other _ (by decide), other _ (by decide), ?_⟩
    rw [UInt8.lt_iff_toNat_lt]
    change ¬ b.toNat < 0x20
    omega

theorem hexValue_hexDigit (n : Nat) : hexValue (byte (hexDigit n)) = some (n % 16) := by
  have each : ∀ k < 16, hexValue (byte (Nat.digitChar k)) = some k := by decide
  exact each (n % 16) (Nat.mod_lt n (by omega))

theorem ascii_hexDigit (n : Nat) : (hexDigit n).toNat < 0x80 := by
  have each : ∀ k < 16, (Nat.digitChar k).toNat < 0x80 := by decide
  exact each (n % 16) (Nat.mod_lt n (by omega))

theorem readUnicodeEscape_control {c : Char} (control : c.toNat < 0x20) (rest : Bytes) :
    readUnicodeEscape (byte '0' :: byte '0' :: byte (hexDigit (c.toNat / 16)) ::
      byte (hexDigit c.toNat) :: rest) = .ok (c.toNat, rest) := by
  have value : ((0 * 16 + 0) * 16 + c.toNat / 16 % 16) * 16 + c.toNat % 16 = c.toNat := by omega
  have zero : hexValue (byte '0') = some 0 := by decide
  have quad : hexQuad (byte '0') (byte '0') (byte (hexDigit (c.toNat / 16)))
      (byte (hexDigit c.toNat)) = some c.toNat := by
    simp only [hexQuad, zero, hexValue_hexDigit, Option.bind_eq_bind, Option.bind_some,
      Option.pure_def, value]
  simp [readUnicodeEscape, readHex, quad, Relaxed.surrogate_control control, bind, Except.bind,
    pure, Except.pure]

/-- A character is read back in as many rounds as its text has bytes, or fewer. -/
theorem readChars_escapeChar (c : Char) (done rest : Bytes) :
    ∃ rounds ≤ (encoded (escapeChar c)).length, ∀ fuel,
      readChars (fuel + rounds) done (encoded (escapeChar c) ++ rest) =
        readChars fuel ((String.utf8EncodeChar c).reverse ++ done) rest := by
  generalize written : escapeChar c = text
  unfold escapeChar at written
  iterate 7
    split at written
    · rename_i same; subst same written; exact ⟨1, by decide, fun _ => rfl⟩
  split at written
  · rename_i control
    have escape := readUnicodeEscape_control control rest
    have bytes : encoded ['\x5c', 'u', '0', '0', hexDigit (c.toNat / 16), hexDigit c.toNat] =
        [byte '\x5c', byte 'u', byte '0', byte '0', byte (hexDigit (c.toNat / 16)),
          byte (hexDigit c.toNat)] := by
      simp only [encoded_cons, encodeChar_ascii (ascii_hexDigit _), encoded_nil]
      rfl
    have quote : (byte '\x5c' == byte '\x22') = false := by decide
    have letter : simpleEscape (byte 'u') = none := by decide
    rw [← written, bytes]
    refine ⟨1, by simp, fun fuel => ?_⟩
    simp [readChars, readEscape, quote, letter, escape, Except.map, bind, Except.bind,
      -beq_eq_false_iff_ne]
  · rename_i quote backslash _ _ _ _ _ control
    refine ⟨(String.utf8EncodeChar c).length, by simp [← written], fun fuel => ?_⟩
    rw [← written, encoded_cons, encoded_nil, List.append_nil]
    exact readChars_plain (plain_char quote backslash control) fuel done rest

theorem readChars_text (cs before rest : List Char) (fuel : Nat)
    (enough : (encoded (cs.flatMap escapeChar ++ '\x22' :: rest)).length ≤ fuel) :
    readChars fuel (encoded before).reverse (encoded (cs.flatMap escapeChar ++ '\x22' :: rest)) =
      .ok (String.ofList (before ++ cs), encoded rest) := by
  induction cs generalizing before fuel with
  | nil =>
    have closed : encoded ('\x22' :: rest) = byte '\x22' :: encoded rest := rfl
    rw [List.flatMap_nil, List.nil_append, closed] at enough ⊢
    rw [List.length_cons] at enough
    obtain ⟨fuel, rfl⟩ : ∃ more, fuel = more + 1 := ⟨fuel - 1, by omega⟩
    rw [readChars, if_pos (by decide), List.reverse_reverse, decode_encoded, List.append_nil]
  | cons c cs ih =>
    obtain ⟨rounds, bound, read⟩ := readChars_escapeChar c (encoded before).reverse
      (encoded (cs.flatMap escapeChar ++ '\x22' :: rest))
    rw [List.flatMap_cons, List.append_assoc, encoded_append, List.length_append] at enough
    obtain ⟨fuel, rfl⟩ : ∃ more, fuel = more + rounds := ⟨fuel - rounds, by omega⟩
    have later := ih (before ++ [c]) fuel (by omega)
    rw [encoded_append, List.reverse_append] at later
    rw [List.flatMap_cons, List.append_assoc, encoded_append, read]
    simpa using later

theorem readString_text (s : String) (rest : List Char) {fuel : Nat}
    (enough : (encoded (s.toList.flatMap escapeChar ++ '\x22' :: rest)).length ≤ fuel) :
    readString fuel (encoded (s.toList.flatMap escapeChar ++ '\x22' :: rest)) =
      .ok (s, encoded rest) := by
  have read := readChars_text s.toList [] rest fuel enough
  rwa [List.nil_append, String.ofList_toList] at read

theorem readNumber_text {i : Int} (low : -0x8000000000000000 ≤ i) (high : i ≤ largestWord)
    {rest : List Char} (stops : Stops rest) :
    (∃ c more, (Number.integer i).text = c :: more ∧ c.isDigit = true ∧
      readNumber false (encoded ((Number.integer i).text ++ rest)) =
        .ok (.integer i, encoded rest)) ∨
    ∃ digits, (Number.integer i).text = '-' :: digits ∧
      readNumber true (encoded (digits ++ rest)) = .ok (.integer i, encoded rest) := by
  have ended := ended_of_stops stops
  cases i with
  | ofNat n =>
    left
    have fits : n ≤ largestWord := Int.ofNat_le.mp high
    have read := readNumber_toDigits false fits ended
    obtain ⟨c, more, digits, digit⟩ := (whole_toDigits n).isUnsigned.first
    rw [Number.text, text_ofNat]
    refine ⟨c, more, digits, digit, ?_⟩
    rw [encoded_append, ← utf8_ofList, read]
    rfl
  | negSucc n =>
    right
    have small : n + 1 ≤ 0x8000000000000000 := by omega
    have fits : n + 1 ≤ largestWord := by
      simp [largestWord]
      omega
    have read := readNumber_toDigits true fits ended
    have large : ¬ 0x8000000000000000 < n + 1 := by omega
    rw [Number.text, text_negSucc]
    refine ⟨_, rfl, ?_⟩
    rw [encoded_append, ← utf8_ofList, read]
    simp [wholeNumber, large, Int.negSucc_eq]

theorem digit_solid {c : Char} (digit : c.isDigit = true) : isBlankByte (byte c) = false ∧
    ∀ d : Char, d.toNat < 0x80 → d.isDigit = false → (byte c == byte d) = false := by
  have other : ∀ d : Char, d.toNat < 0x80 → d.isDigit = false → (byte c == byte d) = false := by
    intro d ascii noDigit
    refine byte_ne (ascii_digit digit) ascii ?_
    rintro rfl
    rw [digit] at noDigit
    cases noDigit
  refine ⟨?_, other⟩
  rw [isBlankByte, other ' ' (by decide) (by decide), other '\t' (by decide) (by decide),
    other '\n' (by decide) (by decide), other '\r' (by decide) (by decide)]
  rfl

theorem pretty_opens (j : Json) (indent : Nat) (rest : List Char) :
    ∃ b more, encoded (prettyAt indent j ++ rest) = b :: more ∧ isBlankByte b = false ∧
      (b == byte ']') = false := by
  cases j with
  | null => exact ⟨_, _, rfl, by decide, by decide⟩
  | bool b => cases b <;> exact ⟨_, _, rfl, by decide, by decide⟩
  | string s => exact ⟨_, _, rfl, by decide, by decide⟩
  | array items => cases items <;> exact ⟨_, _, rfl, by decide, by decide⟩
  | object fields => cases fields <;> exact ⟨_, _, rfl, by decide, by decide⟩
  | number n =>
    obtain ⟨c, more, text, sign | digit⟩ := n.numeral.first
    · subst sign
      exact ⟨_, _, by rw [prettyAt, text]; rfl, by decide, by decide⟩
    · obtain ⟨solid, other⟩ := digit_solid digit
      refine ⟨byte c, encoded (more ++ rest), ?_, solid, other ']' (by decide) (by decide)⟩
      rw [prettyAt, text, List.cons_append, encoded_cons, encodeChar_ascii (ascii_digit digit)]
      rfl

/-- However it is indented, the value is read back with `limit` containers to open at most, and
fuel for every byte. -/
def ReadsBack (limit : Nat) (j : Json) : Prop :=
  ∀ (indent : Nat) (rest : List Char), Stops rest → ∀ fuel,
    (encoded (prettyAt indent j ++ rest)).length ≤ fuel →
      readValue fuel limit (encoded (prettyAt indent j ++ rest)) = .ok (j, encoded rest)

theorem readsBack_integer (limit : Nat) {i : Int} (low : -0x8000000000000000 ≤ i)
    (high : i ≤ largestWord) : ReadsBack limit (.number (.integer i)) := by
  intro indent rest stops fuel enough
  rw [prettyAt] at enough ⊢
  rcases readNumber_text low high stops with ⟨c, more, text, digit, read⟩ | ⟨digits, text, read⟩
  · rw [text] at enough read ⊢
    obtain ⟨solid, other⟩ := digit_solid digit
    have first : encoded (c :: more ++ rest) = byte c :: encoded (more ++ rest) := by
      rw [List.cons_append, encoded_cons, encodeChar_ascii (ascii_digit digit)]
      rfl
    rw [first] at enough read ⊢
    rw [List.length_cons] at enough
    obtain ⟨fuel, rfl⟩ : ∃ more, fuel = more + 1 := ⟨fuel - 1, by omega⟩
    rw [readValue, skipBlank_solid solid]
    simp [other, (byte_digit digit).1, read, Except.map, -beq_eq_false_iff_ne, -encoded_append]
  · rw [text] at enough ⊢
    have first : encoded ('-' :: digits ++ rest) = byte '-' :: encoded (digits ++ rest) := rfl
    rw [first] at enough ⊢
    rw [List.length_cons] at enough
    obtain ⟨fuel, rfl⟩ : ∃ more, fuel = more + 1 := ⟨fuel - 1, by omega⟩
    rw [readValue, skipBlank_solid (by decide)]
    simp only [read]
    rfl

section items

variable (depth indent : Nat) (item : Json) (rest : List Char)

theorem nextItem_end (first : Bool) :
    nextItem first (encoded (newline depth ++ ']' :: rest)) = .ok (false, encoded rest) := by
  rw [nextItem, skipBlank_newline]
  rfl

theorem nextItem_first :
    nextItem true (encoded (newline depth ++ (prettyAt indent item ++ rest))) =
      .ok (true, encoded (prettyAt indent item ++ rest)) := by
  obtain ⟨b, more, opens, solid, other⟩ := pretty_opens item indent rest
  rw [nextItem, skipBlank_newline, opens, skipBlank_solid solid]
  simp [other, -beq_eq_false_iff_ne]

theorem nextItem_comma :
    nextItem false (encoded (',' :: (newline depth ++ (prettyAt indent item ++ rest)))) =
      .ok (true, encoded (prettyAt indent item ++ rest)) := by
  obtain ⟨b, more, opens, solid, other⟩ := pretty_opens item indent rest
  have comma : ∀ cs, encoded (',' :: cs) = byte ',' :: encoded cs := fun _ => rfl
  have notEnd : (byte ',' == byte ']') = false := by decide
  rw [nextItem, comma, skipBlank_solid (by decide)]
  simp only [notEnd, beq_self_eq_true, Bool.false_eq_true, if_false, if_true]
  rw [skipBlank_newline, opens, skipBlank_solid solid]
  simp [other, -beq_eq_false_iff_ne]

end items

/-- Fuel for every byte is fuel for a character and for every byte behind it. -/
theorem fuel_behind {c : Char} {cs : List Char} {fuel : Nat}
    (enough : (encoded (c :: cs)).length ≤ fuel) :
    ∃ more, fuel = more + 1 ∧ (encoded cs).length ≤ more := by
  have positive := c.utf8Size_pos
  rw [encoded_cons, List.length_append, String.length_utf8EncodeChar] at enough
  exact ⟨fuel - 1, by omega, by omega⟩

theorem length_behind (before cs : List Char) :
    (encoded cs).length ≤ (encoded (before ++ cs)).length := by
  rw [encoded_append, List.length_append]
  omega

section items

variable {limit : Nat} {items : List Json} {indent : Nat} {rest : List Char}

theorem readItems_item (done : List Json) {item : Json} (reads : ReadsBack limit item)
    (stops : Stops rest) {bs : Bytes} (another : nextItem done.isEmpty bs =
      .ok (true, encoded (prettyAt indent item ++ rest))) {fuel : Nat}
    (enough : (encoded (prettyAt indent item ++ rest)).length ≤ fuel) :
    readItems (fuel + 1) limit done bs = readItems fuel limit (item :: done) (encoded rest) := by
  rw [readItems, another]
  simp [bind, Except.bind, reads indent rest stops fuel enough, -encoded_append]

theorem readItems_behind (each : ∀ item ∈ items, ReadsBack limit item) (indent : Nat)
    (rest : List Char) {done : List Json} (some : done.isEmpty = false) {fuel : Nat}
    (enough : (encoded (behindMember ']' indent (prettyItems (indent + 1) items) rest)).length ≤
      fuel) :
    readItems fuel limit done
        (encoded (behindMember ']' indent (prettyItems (indent + 1) items) rest)) =
      .ok (.array (done.reverse ++ items), encoded rest) := by
  induction items generalizing done fuel with
  | nil =>
    obtain ⟨fuel, rfl, _⟩ := fuel_behind enough
    have last : behindMember ']' indent (prettyItems (indent + 1) []) rest =
      newline indent ++ ']' :: rest := rfl
    rw [last, readItems, some, nextItem_end]
    simp [bind, Except.bind, pure, Except.pure]
  | cons item items ih =>
    have stops := stops_behindMember ']' indent (prettyItems (indent + 1) items) rest
    rw [prettyItems, behindMember_cons] at enough ⊢
    obtain ⟨fuel, rfl, left⟩ := fuel_behind enough
    have here := Nat.le_trans (length_behind _ _) left
    have behind := Nat.le_trans (length_behind _ _) here
    rw [readItems_item _ (each item List.mem_cons_self) stops (some ▸ nextItem_comma _ _ _ _) here,
      ih (fun item member => each item (List.mem_cons_of_mem _ member)) rfl behind]
    simp

theorem readValue_bracket (fuel limit : Nat) (cs : List Char) :
    readValue (fuel + 1) (limit + 2) (encoded ('[' :: cs)) =
      readItems fuel (limit + 1) [] (encoded cs) := by
  rw [readValue]
  rfl

theorem readsBack_array (each : ∀ item ∈ items, ReadsBack (limit + 1) item) :
    ReadsBack (limit + 2) (.array items) := by
  intro indent rest stops fuel enough
  cases items with
  | nil =>
    have text : prettyAt indent (.array []) ++ rest = '[' :: ']' :: rest := rfl
    rw [text] at enough ⊢
    obtain ⟨fuel, rfl, left⟩ := fuel_behind enough
    obtain ⟨fuel, rfl, _⟩ := fuel_behind left
    rw [readValue_bracket]
    rfl
  | cons item items =>
    have stops := stops_behindMember ']' indent (prettyItems (indent + 1) items) rest
    rw [prettyAt, prettyItems, block_cons] at enough ⊢
    obtain ⟨fuel, rfl, line⟩ := fuel_behind enough
    rw [newline, List.cons_append] at line
    obtain ⟨fuel, rfl, blanks⟩ := fuel_behind line
    have here := Nat.le_trans (length_behind _ _) blanks
    have behind := Nat.le_trans (length_behind _ _) here
    rw [readValue_bracket,
      readItems_item [] (each item List.mem_cons_self) stops (nextItem_first _ _ _ _) here,
      readItems_behind (fun item member => each item (List.mem_cons_of_mem _ member)) indent rest
        rfl behind]
    rfl

end items

section fields

variable (depth : Nat) (name : String) (cs : List Char)

theorem nextField_end (first : Bool) :
    nextField first (encoded (newline depth ++ '\x7d' :: cs)) = .ok (false, encoded cs) := by
  rw [nextField, skipBlank_newline]
  rfl

theorem nextField_first :
    nextField true (encoded (newline depth ++ (stringText name ++ cs))) =
      .ok (true, encoded (name.toList.flatMap escapeChar ++ '\x22' :: cs)) := by
  rw [nextField, skipBlank_newline, stringText, List.append_assoc]
  rfl

theorem nextField_comma :
    nextField false (encoded (',' :: (newline depth ++ (stringText name ++ cs)))) =
      .ok (true, encoded (name.toList.flatMap escapeChar ++ '\x22' :: cs)) := by
  have comma : ∀ cs, encoded (',' :: cs) = byte ',' :: encoded cs := fun _ => rfl
  have notEnd : (byte ',' == byte '\x7d') = false := by decide
  rw [nextField, comma, skipBlank_solid (by decide)]
  simp only [notEnd, beq_self_eq_true, Bool.false_eq_true, if_false, if_true]
  rw [skipBlank_newline, stringText, List.append_assoc]
  rfl

end fields

section fields

variable {limit : Nat} {fields : List (String × Json)} {indent : Nat} {rest : List Char}

theorem ReadsBack.field {value : Json} (reads : ReadsBack limit value) (stops : Stops rest)
    (name : String) (done : List (String × Json)) {bs : Bytes}
    (another : nextField done.isEmpty bs = .ok (true,
      encoded (name.toList.flatMap escapeChar ++
        '\x22' :: ':' :: ' ' :: (prettyAt indent value ++ rest)))) {fuel : Nat}
    (enough : (encoded (name.toList.flatMap escapeChar ++
        '\x22' :: ':' :: ' ' :: (prettyAt indent value ++ rest))).length ≤ fuel) :
    readFields (fuel + 1) limit done bs =
      readFields fuel limit ((name, value) :: done) (encoded rest) := by
  have key := readString_text name _ enough
  have quoted := Nat.le_trans (length_behind _ _) enough
  obtain ⟨fuel, rfl, left⟩ := fuel_behind quoted
  have here : (encoded (prettyAt indent value ++ rest)).length ≤ fuel :=
    Nat.le_trans (length_behind [':', ' '] _) left
  have colon : readColon (encoded (':' :: ' ' :: (prettyAt indent value ++ rest))) =
      .ok (encoded (' ' :: (prettyAt indent value ++ rest))) := rfl
  have first : readValue (fuel + 1) limit (encoded (' ' :: (prettyAt indent value ++ rest))) =
      readValue (fuel + 1) limit (encoded (prettyAt indent value ++ rest)) := by
    rw [readValue, readValue]
    rfl
  rw [readFields, another]
  simp only [bind, Except.bind, if_true, key, colon, first,
    reads indent rest stops (fuel + 1) (by omega)]

theorem readFields_behind (each : ∀ field ∈ fields, ReadsBack limit field.2) (indent : Nat)
    (rest : List Char) {done : List (String × Json)} (some : done.isEmpty = false) {fuel : Nat}
    (enough : (encoded
      (behindMember '\x7d' indent (prettyFields (indent + 1) fields) rest)).length ≤ fuel) :
    readFields fuel limit done
        (encoded (behindMember '\x7d' indent (prettyFields (indent + 1) fields) rest)) =
      .ok (ofFields (done.reverse ++ fields), encoded rest) := by
  induction fields generalizing done fuel with
  | nil =>
    obtain ⟨fuel, rfl, _⟩ := fuel_behind enough
    have last : behindMember '\x7d' indent (prettyFields (indent + 1) []) rest =
      newline indent ++ '\x7d' :: rest := rfl
    rw [last, readFields, some, nextField_end]
    simp [bind, Except.bind, pure, Except.pure]
  | cons field fields ih =>
    obtain ⟨name, value⟩ := field
    have stops := stops_behindMember '\x7d' indent (prettyFields (indent + 1) fields) rest
    rw [prettyFields, behindMember_cons] at enough ⊢
    obtain ⟨fuel, rfl, left⟩ := fuel_behind enough
    have here := Nat.le_trans (length_behind _ _) left
    have behind := Nat.le_trans (length_behind _ _) here
    rw [List.append_assoc, List.cons_append, List.cons_append] at here ⊢
    rw [(each _ List.mem_cons_self).field stops name done (some ▸ nextField_comma _ _ _)
        (Nat.le_trans (length_behind ['\x22'] _) (by simpa [stringText] using here)),
      ih (fun field member => each field (List.mem_cons_of_mem _ member)) rfl behind]
    simp

theorem readValue_brace (fuel limit : Nat) (cs : List Char) :
    readValue (fuel + 1) (limit + 2) (encoded ('\x7b' :: cs)) =
      readFields fuel (limit + 1) [] (encoded cs) := by
  rw [readValue]
  rfl

theorem readsBack_object (sorted : Sorted fields)
    (each : ∀ field ∈ fields, ReadsBack (limit + 1) field.2) :
    ReadsBack (limit + 2) (.object fields) := by
  intro indent rest stops fuel enough
  cases fields with
  | nil =>
    have text : prettyAt indent (.object []) ++ rest = '\x7b' :: '\x7d' :: rest := rfl
    rw [text] at enough ⊢
    obtain ⟨fuel, rfl, left⟩ := fuel_behind enough
    obtain ⟨fuel, rfl, _⟩ := fuel_behind left
    rw [readValue_brace]
    rfl
  | cons field fields =>
    obtain ⟨name, value⟩ := field
    have stops := stops_behindMember '\x7d' indent (prettyFields (indent + 1) fields) rest
    rw [prettyAt, prettyFields, block_cons] at enough ⊢
    obtain ⟨fuel, rfl, line⟩ := fuel_behind enough
    rw [newline, List.cons_append] at line
    obtain ⟨fuel, rfl, blanks⟩ := fuel_behind line
    have here := Nat.le_trans (length_behind _ _) blanks
    have behind := Nat.le_trans (length_behind _ _) here
    rw [List.append_assoc, List.cons_append, List.cons_append] at here ⊢
    rw [readValue_brace, (each _ List.mem_cons_self).field stops name [] (nextField_first _ _ _)
        (Nat.le_trans (length_behind ['\x22'] _) (by simpa [stringText] using here)),
      readFields_behind (fun field member => each field (List.mem_cons_of_mem _ member)) indent rest
        rfl behind]
    exact congrArg (fun j => Except.ok (j, encoded rest)) (ofFields_of_sorted sorted)

end fields

theorem readsBack_of_canonical {depth : Nat} {j : Json} (canonical : Canonical depth j) :
    ∀ limit, depth < limit → ReadsBack limit j := by
  induction canonical with
  | null =>
    intro limit _ indent rest stops fuel enough
    obtain ⟨fuel, rfl, _⟩ := fuel_behind (c := 'n') enough
    rw [readValue]
    rfl
  | bool b =>
    intro limit _ indent rest stops fuel enough
    cases b with
    | false =>
      obtain ⟨fuel, rfl, _⟩ := fuel_behind (c := 'f') enough
      rw [readValue]
      rfl
    | true =>
      obtain ⟨fuel, rfl, _⟩ := fuel_behind (c := 't') enough
      rw [readValue]
      rfl
  | integer low high => exact fun limit _ => readsBack_integer limit low high
  | string s =>
    intro limit _ indent rest stops fuel enough
    rw [prettyAt, stringText, List.append_assoc, List.cons_append] at enough ⊢
    obtain ⟨fuel, rfl, left⟩ := fuel_behind enough
    have quoted : readValue (fuel + 1) limit
        (encoded ('\x22' :: (s.toList.flatMap escapeChar ++ (['\x22'] ++ rest)))) =
        (readString fuel (encoded (s.toList.flatMap escapeChar ++ '\x22' :: rest))).map
          (fun read => (.string read.1, read.2)) := by
      rw [readValue]
      rfl
    rw [quoted, readString_text s rest left]
    rfl
  | array each ih =>
    intro limit deep
    obtain ⟨limit, rfl⟩ : ∃ more, limit = more + 2 := ⟨limit - 2, by omega⟩
    exact readsBack_array (fun item member => ih item member (limit + 1) (by omega))
  | object sorted each ih =>
    intro limit deep
    obtain ⟨limit, rfl⟩ : ∃ more, limit = more + 2 := ⟨limit - 2, by omega⟩
    exact readsBack_object sorted (fun field member => ih field member (limit + 1) (by omega))

theorem parse_pretty_append {depth : Nat} {j : Json} (canonical : Canonical depth j)
    (shallow : depth < depthLimit) {rest : List Char} (stops : Stops rest)
    (blank : skipBlank (encoded rest) = []) : parse (pretty j ++ String.ofList rest) = .ok j := by
  have text : utf8 (pretty j ++ String.ofList rest) = encoded (prettyAt 0 j ++ rest) := by
    rw [pretty, ← String.ofList_append, utf8_ofList]
  have read := readsBack_of_canonical canonical depthLimit shallow 0 rest stops
    (2 * (encoded (prettyAt 0 j ++ rest)).length + 2) (by omega)
  rw [parse, parseBytes, readDocument, text, read]
  simp [bind, Except.bind, pure, Except.pure, blank, Except.mapError]

theorem parse_pretty {depth : Nat} {j : Json} (canonical : Canonical depth j)
    (shallow : depth < depthLimit) : parse (pretty j) = .ok j := by
  have nothing : skipBlank (encoded []) = [] := rfl
  have read := parse_pretty_append canonical shallow (by simp [Stops]) nothing
  rwa [String.ofList_nil, String.append_empty] at read

end BufferLint.Json
