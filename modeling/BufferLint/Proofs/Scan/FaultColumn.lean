import BufferLint.Proofs.Text.Encoding
import BufferLint.Scan.JsonSyntax

/-! Which character of a line a fault in JSON is placed at. The reader counts bytes; a byte that
begins a character leads to this character, and a later one to the character behind it. -/
namespace BufferLint.Scan.JsonSyntax

open BufferLint.Text

section

variable {cs : List Char} {index offset position : Nat}

theorem charactersBefore_of_le (le : offset ≤ position) :
    charactersBefore offset cs position = 0 := by
  cases cs with
  | nil => rfl
  | cons c rest => exact if_neg (Nat.not_lt.mpr le)

theorem charactersBefore_all (all : position + (encoded cs).length ≤ offset) :
    charactersBefore offset cs position = cs.length := by
  induction cs generalizing position with
  | nil => rfl
  | cons c rest ih =>
    have some := c.utf8Size_pos
    simp only [encoded_cons, List.length_append, String.length_utf8EncodeChar] at all
    rw [charactersBefore, if_pos (by omega), ih (by omega), List.length_cons]

/-- Of the character that has the byte, only the bytes behind its first count the character
itself. -/
theorem charactersBefore_holds (held : Holds cs index offset) (position : Nat) :
    charactersBefore (position + offset) cs position =
      if (encoded (cs.take index)).length = offset then index else index + 1 := by
  induction cs generalizing index offset position with
  | nil => exact absurd held (not_holds_nil index offset)
  | cons c rest ih =>
    rcases (holds_cons c rest index offset).mp held with ⟨rfl, inside⟩ | ⟨i, o, rfl, rfl, later⟩
    · rw [List.take_zero, encoded_nil, List.length_nil]
      by_cases first : 0 = offset
      · rw [if_pos first]
        exact charactersBefore_of_le (by omega)
      · rw [if_neg first, charactersBefore, if_pos (by omega), charactersBefore_of_le (by omega)]
    · have some := c.utf8Size_pos
      have behind := ih later (position + c.utf8Size)
      rw [List.take_succ_cons, encoded_cons, List.length_append, String.length_utf8EncodeChar,
        charactersBefore, if_pos (by omega), ← Nat.add_assoc, behind]
      simp only [Nat.add_left_cancel_iff]
      split <;> rfl

end

theorem position_line {content text : List Char} {line : Nat}
    (there : (lines content)[line - 1]? = some text) (byteColumn : Nat) :
    position content line byteColumn =
      (line - 1, charactersBefore (byteColumn - 1) text 0) := by
  have inside : line - 1 < (lines content).length := (List.getElem?_eq_some_iff.mp there).1
  have same : min (line - 1) ((lines content).length - 1) = line - 1 := by omega
  simp only [position, same, there, Option.getD_some]

theorem position_beyond {content : List Char} {line : Nat} (beyond : (lines content).length < line)
    (byteColumn : Nat) :
    position content line byteColumn = position content (lines content).length byteColumn := by
  have last : min (line - 1) ((lines content).length - 1) =
      min ((lines content).length - 1) ((lines content).length - 1) := by omega
  simp only [position, last]

/-- A byte column leads to the line's character that has this byte if it is the first of the
character, and to the character behind it otherwise. Column zero leads to the beginning of the line
and a column beyond the line to its end; a line beyond the last stands for the last. -/
theorem byte_column_leads_to_a_character (content : List Char) (line byteColumn : Nat) :
    (∀ text, 1 ≤ line → (lines content)[line - 1]? = some text →
      (position content line byteColumn).1 = line - 1 ∧
      (byteColumn = 0 → (position content line byteColumn).2 = 0) ∧
      ((encoded text).length < byteColumn →
        (position content line byteColumn).2 = text.length) ∧
      (1 ≤ byteColumn → byteColumn ≤ (encoded text).length →
        ∃ index, Holds text index (byteColumn - 1) ∧
          (∀ other, Holds text other (byteColumn - 1) → other = index) ∧
          (position content line byteColumn).2 =
            if (encoded (text.take index)).length = byteColumn - 1 then index else index + 1)) ∧
    ((lines content).length < line →
      position content line byteColumn = position content (lines content).length byteColumn) ∧
    ∀ e, Json.parse (String.ofList content) = .error e → ∃ d, scan content = [d] ∧
      d.line = UInt32.ofNat (position content e.line e.column).1 ∧
      d.column = UInt32.ofNat (position content e.line e.column).2 := by
  refine ⟨?_, fun beyond => position_beyond beyond byteColumn, ?_⟩
  · intro text _ there
    rw [position_line there]
    refine ⟨rfl, ?_, ?_, ?_⟩
    · rintro rfl
      exact charactersBefore_of_le (Nat.le_refl 0)
    · intro behind
      have all : 0 + (encoded text).length ≤ byteColumn - 1 := by omega
      exact charactersBefore_all all
    · intro positive within
      have inside : byteColumn - 1 < (encoded text).length := by omega
      obtain ⟨index, held, only⟩ := existsUnique_holds inside
      have column := charactersBefore_holds held 0
      rw [Nat.zero_add] at column
      exact ⟨index, held, only, column⟩
  · intro e fault
    exact ⟨_, by rw [scan, fault], rfl, rfl⟩

/-- Four bytes are read behind an escape of the kind of backslash-u, and the fault is at the last
of them, the second byte of the character at index 5. The finding is at index 6. -/
theorem fault_inside_a_character_is_placed_behind_it :
    let content := ['\x22', '\x5c', 'u', '1', '2', 'é', '\x22']
    lines content = [content] ∧ Holds content 5 (7 - 1) ∧
      Json.parse (String.ofList content) = .error ⟨.invalidEscape, 1, 7⟩ ∧
      position content 1 7 = (0, 6) ∧
      scan content = [.place 0 6 "JSON syntax error: invalid escape at line 1 column 7" .error
        "JSON Parser" "json-syntax"] := by
  intro content
  have fault : Json.parse (String.ofList content) = .error ⟨.invalidEscape, 1, 7⟩ := by
    rw [Json.parse, utf8_ofList]
    rfl
  refine ⟨by decide, ⟨content.take 5, 'é', ['\x22'], by decide⟩, fault, by decide, ?_⟩
  rw [scan, fault]
  decide

end BufferLint.Scan.JsonSyntax
