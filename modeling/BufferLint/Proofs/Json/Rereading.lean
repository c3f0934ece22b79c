import BufferLint.Proofs.Json.Integer
import BufferLint.Proofs.Json.Tokens

/-! What is printed is read back, also by the reader that lets people write more than is
printed. -/
namespace BufferLint.Json

mutual

/-- A value as it comes back from its text: numbers are those their texts stand for, and of fields
with one name the last is left. -/
def reread : Json → Json
  | .number n => Relaxed.literalValue n.text
  | .array items => .array (rereadItems items)
  | .object fields => ofFields (rereadFields fields)
  | j => j

def rereadItems : List Json → List Json
  | [] => []
  | item :: rest => reread item :: rereadItems rest

def rereadFields : List (String × Json) → List (String × Json)
  | [] => []
  | (name, value) :: rest => (name, reread value) :: rereadFields rest

end

theorem rereadFields_eq_map (fields : List (String × Json)) :
    rereadFields fields = fields.map (fun field => (field.1, reread field.2)) := by
  induction fields with
  | nil => rfl
  | cons field rest ih => rw [rereadFields, ih, List.map_cons]

theorem rereadItems_eq_map (items : List Json) : rereadItems items = items.map reread := by
  induction items with
  | nil => rfl
  | cons item rest ih => rw [rereadItems, ih, List.map_cons]

theorem reread_integer {i : Int} (low : -0x8000000000000000 ≤ i) (high : i ≤ largestWord) :
    reread (.number (.integer i)) = .number (.integer i) :=
  Relaxed.literalValue_integer low high

theorem reread_nat {n : Nat} (fits : n ≤ largestWord) : reread (.nat n) = .nat n :=
  reread_integer (by omega) (by exact_mod_cast fits)

namespace Relaxed

open BufferLint.Text

theorem join_cons (separator part : List Char) (parts : List (List Char)) :
    join separator (part :: parts) = part ++ parts.flatMap (separator ++ ·) := by
  induction parts generalizing part with
  | nil => simp [join]
  | cons next rest ih => simp [join, ih]

theorem length_newline (depth : Nat) : (newline depth).length = 2 * depth + 1 := by
  simp [newline]

theorem blank_newline (depth : Nat) : ∀ c ∈ newline depth, isBlank c = true := by
  intro c member
  rcases List.mem_cons.mp member with rfl | blank
  · decide
  · rw [(List.mem_replicate.mp blank).2]
    decide

/-- What stands behind a member: the others, each on a line of its own, and the end of the
container. -/
def behindMember (closing : Char) (depth : Nat) (parts : List (List Char)) (rest : List Char) :
    List Char :=
  parts.flatMap ((',' :: newline (depth + 1)) ++ ·) ++ (newline depth ++ closing :: rest)

section layout

variable (opening closing : Char) (depth : Nat) (part : List Char) (parts : List (List Char))
  (rest : List Char)

theorem block_cons : block opening closing depth (part :: parts) ++ rest =
    opening :: (newline (depth + 1) ++ (part ++ behindMember closing depth parts rest)) := by
  simp [block, join_cons, behindMember]

theorem behindMember_cons : behindMember closing depth (part :: parts) rest =
    ',' :: (newline (depth + 1) ++ (part ++ behindMember closing depth parts rest)) := by
  simp [behindMember]

theorem stops_behindMember : Stops (behindMember closing depth parts rest) := by
  cases parts with
  | nil =>
    rintro c ⟨⟩
    exact .inr rfl
  | cons part parts =>
    rw [behindMember_cons]
    rintro c ⟨⟩
    exact .inl rfl

end layout

/-- A text begins with a value, and `rest` stands behind it. No value begins with the bracket at
which the items of an array end. -/
def Reads (text : List Char) (value : Json) (rest : List Char) : Prop :=
  ∃ token after, token.Opens text after ∧ token ≠ .closeBracket ∧
    ∀ fuel, 2 * text.length ≤ fuel →
      readValue fuel token ⟨some token, text, after⟩ = .ok (value, rest)

def moreItems (fuel : Nat) (opening : List Char) (done : List Json) (text : List Char) :
    Except Stop (Json × List Char) := do
  readItems fuel opening done (← skipComma fuel (← next fuel text))

def moreFields (fuel : Nat) (opening : List Char) (done : List (String × Json))
    (text : List Char) : Except Stop (Json × List Char) := do
  readFields fuel opening done (← skipComma fuel (← next fuel text))

theorem Reads.plain {token : Token} {text rest : List Char} {value : Json}
    (opens : token.Opens text rest) (other : token ≠ .closeBracket)
    (read : ∀ fuel, readValue (fuel + 1) token ⟨some token, text, rest⟩ = .ok (value, rest)) :
    Reads text value rest := by
  refine ⟨token, rest, opens, other, fun fuel enough => ?_⟩
  have positive := opens.positive
  obtain ⟨fuel, rfl⟩ : ∃ more, fuel = more + 1 := ⟨fuel - 1, by omega⟩
  exact read fuel

section members

variable {text rest blank : List Char} {value : Json} {fuel : Nat} (opening : List Char)

theorem next_comma (enough : text.length + 1 < fuel) :
    next fuel (',' :: text) = .ok ⟨some .comma, ',' :: text, text⟩ :=
  (opens_comma text).next [] (by simp) enough

theorem moreItems_comma (done : List Json) (enough : text.length + 1 < fuel) :
    moreItems fuel opening done (',' :: text) =
      (do readItems fuel opening done (← next fuel text)) := by
  rw [moreItems, next_comma enough]
  rfl

theorem moreFields_comma (done : List (String × Json)) (enough : text.length + 1 < fuel) :
    moreFields fuel opening done (',' :: text) =
      (do readFields fuel opening done (← next fuel text)) := by
  rw [moreFields, next_comma enough]
  rfl

theorem moreItems_end (done : List Json) (blanks : ∀ c ∈ blank, isBlank c = true)
    (enough : rest.length + 1 < fuel) :
    moreItems fuel opening done (blank ++ ']' :: rest) = .ok (.array done.reverse, rest) := by
  obtain ⟨fuel, rfl⟩ : ∃ more, fuel = more + 1 := ⟨fuel - 1, by omega⟩
  rw [moreItems, (opens_closeBracket rest).next blank blanks enough]
  rfl

theorem moreFields_end (done : List (String × Json)) (blanks : ∀ c ∈ blank, isBlank c = true)
    (enough : rest.length + 1 < fuel) :
    moreFields fuel opening done (blank ++ '\x7d' :: rest) = .ok (ofFields done.reverse, rest) := by
  obtain ⟨fuel, rfl⟩ : ∃ more, fuel = more + 1 := ⟨fuel - 1, by omega⟩
  rw [moreFields, (opens_closeBrace rest).next blank blanks enough]
  rfl

theorem Reads.item (reads : Reads text value rest) (blanks : ∀ c ∈ blank, isBlank c = true)
    (enough : 2 * text.length ≤ fuel) (done : List Json) :
    (do readItems (fuel + 1) opening done (← next (fuel + 1) (blank ++ text))) =
      moreItems fuel opening (value :: done) rest := by
  obtain ⟨token, after, opens, other, read⟩ := reads
  rw [opens.next blank blanks (by omega)]
  simp [bind, Except.bind, readItems, read fuel enough, moreItems]

theorem Reads.field (reads : Reads text value rest) (blanks : ∀ c ∈ blank, isBlank c = true)
    (name : String) (enough : 2 * (stringText name ++ ':' :: ' ' :: text).length ≤ fuel)
    (done : List (String × Json)) :
    (do readFields (fuel + 1) opening done
          (← next (fuel + 1) (blank ++ (stringText name ++ ':' :: ' ' :: text)))) =
      moreFields fuel opening ((name, value) :: done) rest := by
  obtain ⟨token, after, opens, _, read⟩ := reads
  simp only [List.length_append, List.length_cons] at enough
  have key : next (fuel + 1) (blank ++ (stringText name ++ ':' :: ' ' :: text)) =
      .ok ⟨some (.text name), stringText name ++ ':' :: ' ' :: text, ':' :: ' ' :: text⟩ :=
    (opens_text _ name).next blank blanks
      (by simp only [List.length_append, List.length_cons]; omega)
  have colon : next fuel (':' :: ' ' :: text) = .ok ⟨some .colon, ':' :: ' ' :: text, ' ' :: text⟩ :=
    (opens_colon (' ' :: text)).next [] (by simp) (by simp only [List.length_cons]; omega)
  have first : next fuel (' ' :: text) = .ok ⟨some token, text, after⟩ :=
    opens.next [' '] (by simp; decide) (by omega)
  rw [key]
  simp [bind, Except.bind, pure, Except.pure, readFields, keyOf, colon, valueLexeme, first,
    read fuel (by omega), moreFields]

end members

theorem reads_emptyArray (rest : List Char) : Reads ('[' :: ']' :: rest) (.array []) rest := by
  refine ⟨_, _, opens_bracket (']' :: rest), by simp, fun fuel enough => ?_⟩
  simp only [List.length_cons] at enough
  obtain ⟨fuel, rfl⟩ : ∃ more, fuel = more + 2 := ⟨fuel - 2, by omega⟩
  have ends : next (fuel + 1) (']' :: rest) = .ok ⟨some .closeBracket, ']' :: rest, rest⟩ :=
    (opens_closeBracket rest).next [] (by simp) (by simp only [List.length_cons]; omega)
  rw [readValue, ends]
  rfl

theorem reads_emptyObject (rest : List Char) :
    Reads ('\x7b' :: '\x7d' :: rest) (.object []) rest := by
  refine ⟨_, _, opens_brace ('\x7d' :: rest), by simp, fun fuel enough => ?_⟩
  simp only [List.length_cons] at enough
  obtain ⟨fuel, rfl⟩ : ∃ more, fuel = more + 2 := ⟨fuel - 2, by omega⟩
  have ends : next (fuel + 1) ('\x7d' :: rest) = .ok ⟨some .closeBrace, '\x7d' :: rest, rest⟩ :=
    (opens_closeBrace rest).next [] (by simp) (by simp only [List.length_cons]; omega)
  rw [readValue, ends]
  rfl

mutual

/-- A printed value is read back, whatever stands behind it. The recursion is on the value; the
comma or bracket in front of a member, which is never handed on, pays for the two calls that the
member takes. -/
theorem reads_pretty (j : Json) (depth : Nat) {rest : List Char} (stops : Stops rest) :
    Reads (prettyAt depth j ++ rest) (reread j) rest := by
  match j with
  | .null => exact .plain (opens_null stops) (by simp) (fun _ => rfl)
  | .bool b => exact .plain (opens_bool stops b) (by simp) (fun _ => rfl)
  | .number n => exact .plain (opens_number stops n.numeral) (by simp) (fun _ => rfl)
  | .string s => exact .plain (opens_text rest s) (by simp) (fun _ => rfl)
  | .array [] => exact reads_emptyArray rest
  | .array (item :: items) =>
    have stops := stops_behindMember ']' depth (prettyItems (depth + 1) items) rest
    have first := reads_pretty item (depth + 1) stops
    rw [prettyAt, prettyItems, block_cons]
    refine ⟨_, _, opens_bracket _, by simp, fun fuel enough => ?_⟩
    simp only [List.length_cons, List.length_append, length_newline] at enough
    obtain ⟨fuel, rfl⟩ : ∃ more, fuel = more + 2 := ⟨fuel - 2, by omega⟩
    rw [readValue, first.item _ (blank_newline (depth + 1))
      (by simp only [List.length_append]; omega),
      moreItems_pretty items depth rest _ fuel _ (by omega)]
    simp [reread, rereadItems]
  | .object [] => exact reads_emptyObject rest
  | .object ((name, value) :: fields) =>
    have stops := stops_behindMember '\x7d' depth (prettyFields (depth + 1) fields) rest
    have first := reads_pretty value (depth + 1) stops
    rw [prettyAt, prettyFields, block_cons]
    refine ⟨_, _, opens_brace _, by simp, fun fuel enough => ?_⟩
    simp only [List.length_cons, List.length_append, length_newline] at enough
    obtain ⟨fuel, rfl⟩ : ∃ more, fuel = more + 2 := ⟨fuel - 2, by omega⟩
    rw [readValue, List.append_assoc, List.cons_append, List.cons_append,
      first.field _ (blank_newline (depth + 1)) name
        (by simp only [List.length_append, List.length_cons]; omega),
      moreFields_pretty fields depth rest _ fuel _ (by omega)]
    simp [reread, rereadFields]

theorem moreItems_pretty (items : List Json) (depth : Nat) (rest opening : List Char) (fuel : Nat)
    (done : List Json)
    (enough : 2 * (behindMember ']' depth (prettyItems (depth + 1) items) rest).length < fuel) :
    moreItems fuel opening done (behindMember ']' depth (prettyItems (depth + 1) items) rest) =
      .ok (.array (done.reverse ++ rereadItems items), rest) := by
  match items with
  | [] =>
    simp [behindMember, prettyItems] at enough
    rw [rereadItems, List.append_nil]
    exact moreItems_end opening done (blank_newline depth) (by omega)
  | item :: items =>
    have stops := stops_behindMember ']' depth (prettyItems (depth + 1) items) rest
    have first := reads_pretty item (depth + 1) stops
    rw [prettyItems, behindMember_cons] at enough ⊢
    simp only [List.length_cons, List.length_append] at enough
    obtain ⟨fuel, rfl⟩ : ∃ more, fuel = more + 1 := ⟨fuel - 1, by omega⟩
    rw [moreItems_comma opening done (by simp only [List.length_append]; omega),
      first.item opening (blank_newline (depth + 1)) (by simp only [List.length_append]; omega),
      moreItems_pretty items depth rest opening fuel (reread item :: done) (by omega)]
    simp [rereadItems]

theorem moreFields_pretty (fields : List (String × Json)) (depth : Nat) (rest opening : List Char)
    (fuel : Nat) (done : List (String × Json))
    (enough : 2 * (behindMember '\x7d' depth (prettyFields (depth + 1) fields) rest).length < fuel) :
    moreFields fuel opening done
        (behindMember '\x7d' depth (prettyFields (depth + 1) fields) rest) =
      .ok (ofFields (done.reverse ++ rereadFields fields), rest) := by
  match fields with
  | [] =>
    simp [behindMember, prettyFields] at enough
    rw [rereadFields, List.append_nil]
    exact moreFields_end opening done (blank_newline depth) (by omega)
  | (name, value) :: fields =>
    have stops := stops_behindMember '\x7d' depth (prettyFields (depth + 1) fields) rest
    have first := reads_pretty value (depth + 1) stops
    rw [prettyFields, behindMember_cons] at enough ⊢
    simp only [List.length_cons, List.length_append] at enough
    obtain ⟨fuel, rfl⟩ : ∃ more, fuel = more + 1 := ⟨fuel - 1, by omega⟩
    rw [moreFields_comma opening done
        (by simp only [List.length_append, List.length_cons]; omega),
      List.append_assoc, List.cons_append, List.cons_append,
      first.field opening (blank_newline (depth + 1)) name
        (by simp only [List.length_append, List.length_cons]; omega),
      moreFields_pretty fields depth rest opening fuel ((name, reread value) :: done) (by omega)]
    simp [rereadFields]

end

/-- The text of a value is read back as one value. -/
theorem parse_pretty (j : Json) : parse (pretty j) = .ok (some (reread j)) := by
  have stops : Stops [] := by simp [Stops]
  obtain ⟨token, after, opens, _, read⟩ := reads_pretty j 0 stops
  rw [List.append_nil] at opens read
  have first : next (2 * (prettyAt 0 j).length + 2) (prettyAt 0 j) =
      .ok ⟨some token, prettyAt 0 j, after⟩ :=
    opens.next [] (by simp) (by omega)
  have value := read (2 * (prettyAt 0 j).length + 2) (by omega)
  have behind : next (2 * (prettyAt 0 j).length + 2) [] = .ok ⟨none, [], []⟩ := rfl
  have document : readDocument (prettyAt 0 j) = .ok (some (reread j)) := by
    simp only [readDocument, first, value, behind, bind, Except.bind, pure, Except.pure]
  rw [parse, pretty, String.toList_ofList, document]
  rfl

end Relaxed
end BufferLint.Json
