import BufferLint.Text.Utf8

/-! Which bytes of a text belong to which of its characters. -/
namespace BufferLint.Text

def encoded (cs : List Char) : Bytes := cs.flatMap String.utf8EncodeChar

theorem utf8_eq (s : String) : utf8 s = encoded s.toList := rfl

theorem utf8_ofList (cs : List Char) : utf8 (String.ofList cs) = encoded cs := by
  rw [utf8_eq, String.toList_ofList]

@[simp] theorem encoded_nil : encoded [] = [] := rfl

@[simp] theorem encoded_cons (c : Char) (cs : List Char) :
    encoded (c :: cs) = String.utf8EncodeChar c ++ encoded cs := rfl

@[simp] theorem encoded_append (cs ds : List Char) :
    encoded (cs ++ ds) = encoded cs ++ encoded ds := List.flatMap_append

theorem decode_encoded (cs : List Char) : decodeUtf8? (encoded cs) = some (String.ofList cs) := by
  rw [← utf8_ofList, decode_utf8]

/-- A character takes one byte, which is its number, or bytes that no ASCII character has. -/
theorem encodeChar_cases (c : Char) :
    c.toNat < 0x80 ∧ String.utf8EncodeChar c = [c.toUInt8] ∨
      0x80 ≤ c.toNat ∧ ∀ b ∈ String.utf8EncodeChar c, 0x80 ≤ b := by
  by_cases ascii : c.toNat ≤ 0x7f
  · refine .inl ⟨by omega, ?_⟩
    have short : c.val.toNat ≤ 0x7f := ascii
    simp only [String.utf8EncodeChar, if_pos short]
    rfl
  · refine .inr ⟨by omega, ?_⟩
    have long : ¬ c.val.toNat ≤ 0x7f := ascii
    intro b member
    rw [UInt8.le_iff_toNat_le]
    simp only [String.utf8EncodeChar, if_neg long] at member
    split at member
    · simp only [List.mem_cons, List.not_mem_nil, or_false] at member
      rcases member with rfl | rfl <;> simp <;> omega
    · split at member
      · simp only [List.mem_cons, List.not_mem_nil, or_false] at member
        rcases member with rfl | rfl | rfl <;> simp <;> omega
      · simp only [List.mem_cons, List.not_mem_nil, or_false] at member
        rcases member with rfl | rfl | rfl | rfl <;> simp <;> omega

/-- The character at an index has the byte at an offset. -/
def Holds (cs : List Char) (index offset : Nat) : Prop :=
  ∃ before c after, cs = before ++ c :: after ∧ before.length = index ∧
    (encoded before).length ≤ offset ∧
    offset < (encoded before).length + (String.utf8EncodeChar c).length

theorem not_holds_nil (index offset : Nat) : ¬ Holds [] index offset := by
  rintro ⟨before, c, after, split, _⟩
  simp at split

theorem holds_cons (c : Char) (cs : List Char) (index offset : Nat) :
    Holds (c :: cs) index offset ↔
      index = 0 ∧ offset < c.utf8Size ∨
      ∃ i o, index = i + 1 ∧ offset = c.utf8Size + o ∧ Holds cs i o := by
  constructor
  · rintro ⟨before, d, after, split, rfl, low, high⟩
    cases before with
    | nil =>
      cases split
      exact .inl ⟨rfl, by simpa using high⟩
    | cons e before =>
      cases split
      simp only [encoded_cons, List.length_append, String.length_utf8EncodeChar] at low high
      refine .inr ⟨before.length, offset - c.utf8Size, rfl, by omega, before, d, after, rfl, rfl,
        ?_⟩
      simp only [String.length_utf8EncodeChar]
      omega
  · rintro (⟨rfl, first⟩ | ⟨i, o, rfl, rfl, before, d, after, rfl, rfl, low, high⟩)
    · exact ⟨[], c, cs, rfl, rfl, Nat.zero_le _, by simpa using first⟩
    · refine ⟨c :: before, d, after, rfl, rfl, ?_⟩
      simp only [encoded_cons, List.length_append, String.length_utf8EncodeChar] at low high ⊢
      omega

theorem existsUnique_holds {cs : List Char} {offset : Nat} (inside : offset < (encoded cs).length) :
    ∃ index, Holds cs index offset ∧ ∀ other, Holds cs other offset → other = index := by
  induction cs generalizing offset with
  | nil => simp at inside
  | cons c cs ih =>
    simp only [encoded_cons, List.length_append, String.length_utf8EncodeChar] at inside
    by_cases first : offset < c.utf8Size
    · refine ⟨0, (holds_cons _ _ _ _).mpr (.inl ⟨rfl, first⟩), ?_⟩
      intro other held
      rcases (holds_cons _ _ _ _).mp held with ⟨rfl, _⟩ | ⟨i, o, _, same, _⟩
      · rfl
      · omega
    · obtain ⟨index, held, only⟩ := @ih (offset - c.utf8Size) (by omega)
      refine ⟨index + 1, (holds_cons _ _ _ _).mpr (.inr ⟨index, _, rfl, by omega, held⟩), ?_⟩
      intro other found
      rcases (holds_cons _ _ _ _).mp found with ⟨_, less⟩ | ⟨i, o, rfl, rfl, later⟩
      · exact absurd less first
      · rw [Nat.add_sub_cancel_left] at only
        rw [only i later]

end BufferLint.Text
