import BufferLint.Json.Relaxed
import BufferLint.Proofs.Json.Numeral

/-! What is printed falls into the tokens that were meant, also for the reader that lets people
write more than is printed. -/
namespace BufferLint.Json.Relaxed

open BufferLint.Text

def Behind (isOne : Char → Bool) (rest : List Char) : Prop :=
  ∀ c ∈ rest.head?, isOne c = false

theorem Behind.split {isOne : Char → Bool} {rest : List Char} (behind : Behind isOne rest) :
    rest.takeWhile isOne = [] ∧ rest.dropWhile isOne = rest := by
  cases rest with
  | nil => exact ⟨rfl, rfl⟩
  | cons c more =>
    have other := behind c rfl
    simp [other]

/-- What can stand behind a printed value: nothing, a comma or a new line. -/
def Stops (rest : List Char) : Prop := ∀ c ∈ rest.head?, c = ',' ∨ c = '\n'

theorem Stops.behind {rest : List Char} (stops : Stops rest) {isOne : Char → Bool}
    (comma : isOne ',' = false) (newline : isOne '\n' = false) : Behind isOne rest := by
  intro c head
  rcases stops c head with rfl | rfl
  · exact comma
  · exact newline

theorem takeDigits_append {ds rest : List Char} (digits : Digits ds)
    (behind : Behind Char.isDigit rest) (fault : Fault) :
    takeDigits Char.isDigit fault (ds ++ rest) = .ok (ds, rest) := by
  obtain ⟨taken, dropped⟩ := behind.split
  obtain ⟨c, more, rfl⟩ := List.exists_cons_of_ne_nil digits.some
  have first : ((c :: more) ++ rest).head?.any Char.isDigit = true := by
    simpa using digits.all c List.mem_cons_self
  rw [takeDigits, if_pos first, List.takeWhile_append_of_pos digits.all,
    List.dropWhile_append_of_pos digits.all, taken, dropped, List.append_nil]

theorem takeFraction_append {fraction rest : List Char} (isFraction : Fraction fraction)
    (point : Behind (· == '.') rest) (behind : Behind Char.isDigit rest) :
    takeFraction (fraction ++ rest) = .ok (fraction, rest) := by
  cases isFraction with
  | none =>
    rw [List.nil_append, takeFraction.eq_def]
    split
    · cases point '.' rfl
    · rfl
  | digits digits =>
    simp only [List.cons_append, takeFraction, takeDigits_append digits behind]
    rfl

theorem takeExponent_append {exponent rest : List Char} (isExponent : Exponent exponent)
    (mark : Behind (fun c => c == 'e' || c == 'E') rest) (behind : Behind Char.isDigit rest) :
    takeExponent (exponent ++ rest) = .ok (exponent, rest) := by
  cases isExponent with
  | none =>
    cases rest with
    | nil => rfl
    | cons c more =>
      have other := mark c rfl
      simp only [Bool.or_eq_false_iff, beq_eq_false_iff_ne] at other
      simp [takeExponent, other]
  | digits signed digits =>
    have body := takeDigits_append digits behind .expectedDigit
    rcases signed with rfl | rfl
    · simp [takeExponent, takeExponentBody, body, bind, Except.bind, pure, Except.pure]
    · simp [takeExponent, takeExponentBody, body, bind, Except.bind, pure, Except.pure]

theorem takeDecimals_append (whole : List Char) {fraction exponent rest : List Char}
    (isFraction : Fraction fraction) (isExponent : Exponent exponent) (stops : Stops rest) :
    takeDecimals whole (fraction ++ exponent ++ rest) =
      .ok (whole ++ fraction ++ exponent, rest) := by
  have point : Behind (· == '.') (exponent ++ rest) ∧ Behind Char.isDigit (exponent ++ rest) := by
    cases isExponent with
    | none => exact ⟨stops.behind (by decide) (by decide), stops.behind (by decide) (by decide)⟩
    | digits signed digits => exact ⟨by simp [Behind], by simp [Behind]⟩
  have first := takeFraction_append isFraction point.1 point.2
  have second := takeExponent_append isExponent (stops.behind (by decide) (by decide))
    (stops.behind (by decide) (by decide))
  rw [List.append_assoc]
  simp [takeDecimals, first, second, bind, Except.bind, pure, Except.pure]

theorem takeUnsigned_append {cs rest : List Char} (isUnsigned : Unsigned cs)
    (stops : Stops rest) : takeUnsigned (cs ++ rest) = .ok (cs, rest) := by
  obtain ⟨isWhole, isFraction, isExponent⟩ := isUnsigned
  rename_i whole fraction exponent
  have decimals := takeDecimals_append whole isFraction isExponent stops
  have behind : Behind Char.isDigit (fraction ++ exponent ++ rest) ∧
      Behind isHexMark (fraction ++ exponent ++ rest) := by
    cases isFraction with
    | digits digits => exact ⟨by simp [Behind], by simp [Behind, isHexMark]⟩
    | none =>
      cases isExponent with
      | digits signed digits => exact ⟨by simp [Behind], by simp [Behind, isHexMark]⟩
      | none => exact ⟨stops.behind (by decide) (by decide), stops.behind (by decide) (by decide)⟩
  have assoc : whole ++ fraction ++ exponent ++ rest =
      whole ++ (fraction ++ exponent ++ rest) := by simp
  rw [assoc]
  generalize fraction ++ exponent ++ rest = tail at decimals behind
  cases isWhole with
  | zero =>
    cases tail with
    | nil => exact decimals
    | cons mark more =>
      have plain : isHexMark mark = false := behind.2 mark rfl
      simpa [takeUnsigned, plain] using decimals
  | digits nonzero all =>
    rename_i c digits
    have digit : c.isDigit = true := all c List.mem_cons_self
    have others : ∀ d ∈ digits, d.isDigit = true := fun d member =>
      all d (List.mem_cons_of_mem c member)
    obtain ⟨taken, dropped⟩ := behind.1.split
    have unfolded : takeUnsigned (c :: (digits ++ tail)) =
        takeDecimals (c :: (digits ++ tail).takeWhile Char.isDigit)
          ((digits ++ tail).dropWhile Char.isDigit) := by
      rw [takeUnsigned.eq_def]
      simp only [if_neg nonzero, if_pos digit]
    rw [List.takeWhile_append_of_pos others, List.dropWhile_append_of_pos others, taken, dropped,
      List.append_nil] at unfolded
    exact unfolded.trans decimals

theorem readNumberToken_numeral {cs rest : List Char} (numeral : Numeral cs)
    (stops : Stops rest) : readNumberToken (cs ++ rest) = .ok (.number cs, rest) := by
  cases numeral with
  | negative isUnsigned =>
    simp [readNumberToken, takeUnsigned_append isUnsigned stops, bind, Except.bind, pure,
      Except.pure]
  | unsigned isUnsigned =>
    have taken := takeUnsigned_append isUnsigned stops
    obtain ⟨c, more, rfl, digit⟩ := isUnsigned.first
    rw [List.cons_append] at taken ⊢
    simp [readNumberToken, digit_unsigned digit, taken, bind, Except.bind, pure, Except.pure]

theorem hexCharValue_hexDigit (n : Nat) : hexCharValue (hexDigit n) = some (n % 16) := by
  have each : ∀ k < 16, hexCharValue (Nat.digitChar k) = some k := by decide
  exact each (n % 16) (Nat.mod_lt n (by omega))

theorem surrogate_control {c : Char} (control : c.toNat < 0x20) :
    isTrailSurrogate c.toNat = false ∧ isLeadSurrogate c.toNat = false := by
  constructor <;> simp [isTrailSurrogate, isLeadSurrogate] <;> omega

theorem readUnicode_control {c : Char} (control : c.toNat < 0x20) (start rest : List Char) :
    readUnicode start ('0' :: '0' :: hexDigit (c.toNat / 16) :: hexDigit c.toNat :: rest) =
      .ok (c, rest) := by
  have value : ((0 * 16 + 0) * 16 + c.toNat / 16 % 16) * 16 + c.toNat % 16 = c.toNat := by omega
  have zero : hexCharValue '0' = some 0 := by decide
  simp only [readUnicode, fourHex, zero, hexCharValue_hexDigit, Option.bind_eq_bind,
    Option.bind_some, Option.pure_def, value, surrogate_control control, Bool.false_eq_true,
    if_false, Char.ofNat_toNat]

/-- Whatever a character is written as, it is read back in one round. -/
theorem readChars_escapeChar (opening done : List Char) (fuel : Nat) (c : Char)
    (rest : List Char) :
    readChars '\x22' opening (fuel + 1) done (escapeChar c ++ rest) =
      readChars '\x22' opening fuel (c :: done) rest := by
  unfold escapeChar
  iterate 7
    split
    · rename_i same; subst same; rfl
  split
  · rename_i control
    simp [readChars, readEscape, readUnicode_control control, Except.map, bind, Except.bind]
  · rename_i quote backslash _ _ _ _ _ _
    simp [readChars, quote, backslash]

theorem readChars_text (opening done : List Char) (cs : List Char) (fuel : Nat)
    (enough : cs.length < fuel) (rest : List Char) :
    readChars '\x22' opening fuel done (cs.flatMap escapeChar ++ '\x22' :: rest) =
      .ok (String.ofList (done.reverse ++ cs), rest) := by
  obtain ⟨fuel, rfl⟩ : ∃ more, fuel = more + 1 := ⟨fuel - 1, by omega⟩
  induction cs generalizing fuel done with
  | nil => simp [readChars]
  | cons c cs ih =>
    obtain ⟨fuel, rfl⟩ : ∃ more, fuel = more + 1 := ⟨fuel - 1, by simp at enough; omega⟩
    have later := ih (c :: done) fuel (by simpa using enough)
    simpa [readChars_escapeChar] using later

theorem length_le_escaped (cs : List Char) : cs.length ≤ (cs.flatMap escapeChar).length := by
  have some : ∀ c, 1 ≤ (escapeChar c).length := by
    intro c
    unfold escapeChar
    repeat' split
    all_goals simp
  induction cs with
  | nil => simp
  | cons c cs ih =>
    have one := some c
    simp only [List.flatMap_cons, List.length_append, List.length_cons]
    omega

def Solid (c : Char) : Prop := isBlank c = false ∧ c ≠ '/'

theorem skipTrivia_solid {blank : List Char} (blanks : ∀ c ∈ blank, isBlank c = true) {c : Char}
    (solid : Solid c) (rest : List Char) {fuel : Nat} (some : 0 < fuel) :
    skipTrivia fuel (blank ++ c :: rest) = .ok (c :: rest) := by
  obtain ⟨fuel, rfl⟩ : ∃ more, fuel = more + 1 := ⟨fuel - 1, by omega⟩
  have dropped : (blank ++ c :: rest).dropWhile isBlank = c :: rest := by
    rw [List.dropWhile_append_of_pos blanks]
    simp [solid.1]
  rw [skipTrivia, dropped]
  split
  · rename_i same; exact absurd (List.cons.inj same).1 solid.2
  · rename_i same; exact absurd (List.cons.inj same).1 solid.2
  · rfl

/-- The token at the beginning of a text, and the text behind it. -/
def Token.Opens (token : Token) (text after : List Char) : Prop :=
  ∃ c rest, text = c :: rest ∧ Solid c ∧
    ∀ fuel, text.length < fuel → readToken fuel c rest = .ok (token, after)

theorem Token.Opens.next {token : Token} {text after : List Char}
    (opens : token.Opens text after) (blank : List Char) (blanks : ∀ c ∈ blank, isBlank c = true)
    {fuel : Nat} (enough : text.length < fuel) :
    next fuel (blank ++ text) = .ok ⟨some token, text, after⟩ := by
  obtain ⟨c, rest, rfl, solid, read⟩ := opens
  simp [Relaxed.next, skipTrivia_solid blanks solid rest (Nat.zero_lt_of_lt enough),
    read fuel enough, bind, Except.bind, pure, Except.pure]

theorem Token.Opens.positive {token : Token} {text after : List Char}
    (opens : token.Opens text after) : 0 < text.length := by
  obtain ⟨c, behind, rfl, _⟩ := opens
  simp

section punctuation

variable (rest : List Char)

theorem opens_brace : Token.openBrace.Opens ('\x7b' :: rest) rest :=
  ⟨_, rest, rfl, ⟨by decide, by decide⟩, fun _ _ => rfl⟩

theorem opens_closeBrace : Token.closeBrace.Opens ('\x7d' :: rest) rest :=
  ⟨_, rest, rfl, ⟨by decide, by decide⟩, fun _ _ => rfl⟩

theorem opens_bracket : Token.openBracket.Opens ('[' :: rest) rest :=
  ⟨_, rest, rfl, ⟨by decide, by decide⟩, fun _ _ => rfl⟩

theorem opens_closeBracket : Token.closeBracket.Opens (']' :: rest) rest :=
  ⟨_, rest, rfl, ⟨by decide, by decide⟩, fun _ _ => rfl⟩

theorem opens_comma : Token.comma.Opens (',' :: rest) rest :=
  ⟨_, rest, rfl, ⟨by decide, by decide⟩, fun _ _ => rfl⟩

theorem opens_colon : Token.colon.Opens (':' :: rest) rest :=
  ⟨_, rest, rfl, ⟨by decide, by decide⟩, fun _ _ => rfl⟩

theorem opens_text (s : String) : (Token.text s).Opens (stringText s ++ rest) rest := by
  refine ⟨'\x22', s.toList.flatMap escapeChar ++ '\x22' :: rest, by simp [stringText],
    ⟨by decide, by decide⟩, ?_⟩
  intro fuel enough
  have bound := length_le_escaped s.toList
  have short : s.toList.length < fuel := by
    simp only [stringText, List.length_append, List.length_cons] at enough
    omega
  simp [readToken, readChars_text _ _ _ _ short, Except.map]

end punctuation

section stopped

variable {rest : List Char} (stops : Stops rest)
include stops

theorem takeWord_append (word : String) : takeWord word (word.toList ++ rest) = some rest := by
  have ends : rest.head?.any isAlphanumeric = false := by
    cases rest with
    | nil => rfl
    | cons d behind =>
      have next : Behind isAlphanumeric (d :: behind) := stops.behind (by decide) (by decide)
      exact next d rfl
  have dropped : (word.toList ++ rest).drop word.length = rest := by
    rw [← String.length_toList, List.drop_left]
  simp [takeWord, dropped, ends]

theorem opens_bool (b : Bool) : (Token.bool b).Opens (boolText b ++ rest) rest := by
  cases b with
  | true =>
    refine ⟨'t', ['r', 'u', 'e'] ++ rest, rfl, ⟨by decide, by decide⟩, fun _ _ => ?_⟩
    have read : readWordToken ("true".toList ++ rest) = .ok (.bool true, rest) := by
      rw [readWordToken, takeWord_append stops]
    exact read
  | false =>
    refine ⟨'f', ['a', 'l', 's', 'e'] ++ rest, rfl, ⟨by decide, by decide⟩, fun _ _ => ?_⟩
    have other : takeWord "true" ("false".toList ++ rest) = none := rfl
    have read : readWordToken ("false".toList ++ rest) = .ok (.bool false, rest) := by
      rw [readWordToken, other, takeWord_append stops]
    exact read

theorem opens_null : Token.null.Opens ("null".toList ++ rest) rest := by
  refine ⟨'n', ['u', 'l', 'l'] ++ rest, rfl, ⟨by decide, by decide⟩, fun _ _ => ?_⟩
  have notTrue : takeWord "true" ("null".toList ++ rest) = none := rfl
  have notFalse : takeWord "false" ("null".toList ++ rest) = none := rfl
  have read : readWordToken ("null".toList ++ rest) = .ok (.null, rest) := by
    rw [readWordToken, notTrue, notFalse, takeWord_append stops]
  exact read

theorem opens_number {cs : List Char} (numeral : Numeral cs) :
    (Token.number cs).Opens (cs ++ rest) rest := by
  have read := readNumberToken_numeral numeral stops
  obtain ⟨c, more, rfl, first⟩ := numeral.first
  have other : ∀ d, d ≠ '-' → d.isDigit = false → c ≠ d := by
    rintro d sign digit rfl
    exact first.elim sign (by simp [digit])
  have solid : isBlank c = false := by
    rcases first with rfl | digit
    · decide
    · have range := digit_range digit
      simp [isBlank]
      omega
  refine ⟨c, more ++ rest, rfl, ⟨solid, other '/' (by decide) (by decide)⟩, fun fuel _ => ?_⟩
  rw [List.cons_append] at read
  rcases first with rfl | digit
  · exact read
  · simp [readToken, other, digit, read]

end stopped

end BufferLint.Json.Relaxed
