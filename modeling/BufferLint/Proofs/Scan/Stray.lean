import BufferLint.Proofs.Scan.Brackets

/-! One bracket too many. Since kinds are not compared, a stray bracket inside others takes a
partner that is not its own, and so does every bracket around it: the one finding stands at the
outermost of them. It stands at the stray bracket itself only when there is no pair around it. -/
namespace BufferLint.Scan.Script

def Partners (o c : Bracket) : Prop :=
  (o.char = '(' ∧ c.char = ')') ∨ (o.char = '[' ∧ c.char = ']') ∨
    (o.char = '\x7b' ∧ c.char = '\x7d')

/-- Every bracket has a partner of its own kind, and pairs do not cross. -/
inductive Nested : List Bracket → Prop where
  | nil : Nested []
  | pair {o c : Bracket} {inner rest : List Bracket} (kind : Partners o c)
      (inside : Nested inner) (behind : Nested rest) : Nested (o :: inner ++ c :: rest)

theorem Nested.append {xs ys : List Bracket} (first : Nested xs) (second : Nested ys) :
    Nested (xs ++ ys) := by
  induction first with
  | nil => exact second
  | @pair o c inner rest kind inside behind _ ih =>
    have split : o :: inner ++ c :: rest ++ ys = o :: inner ++ c :: (rest ++ ys) := by simp
    rw [split]
    exact .pair kind inside ih

/-- The two sides of a place in a nested text: between pairs, or inside a pair. -/
inductive Cut : List Bracket → List Bracket → Prop where
  | between {front back : List Bracket} (before : Nested front) (behind : Nested back) :
      Cut front back
  | inside {outer left right rest : List Bracket} {o c : Bracket} (before : Nested outer)
      (kind : Partners o c) (within : Cut left right) (behind : Nested rest) :
      Cut (outer ++ o :: left) (right ++ c :: rest)

theorem Cut.nested {front back : List Bracket} (cut : Cut front back) : Nested (front ++ back) := by
  induction cut with
  | between before behind => exact before.append behind
  | @inside outer left right rest o c before kind _ behind ih =>
    have split : outer ++ o :: left ++ (right ++ c :: rest) =
        outer ++ (o :: (left ++ right) ++ c :: rest) := by simp
    rw [split]
    exact before.append (.pair kind ih behind)

theorem Cut.behind_pair {o c : Bracket} {inner front back : List Bracket} (kind : Partners o c)
    (inside : Nested inner) (cut : Cut front back) : Cut (o :: inner ++ c :: front) back := by
  cases cut with
  | between before behind => exact .between (.pair kind inside before) behind
  | @inside outer left right rest p q before kind' within behind =>
    have split : o :: inner ++ c :: (outer ++ p :: left) =
        (o :: inner ++ c :: outer) ++ p :: left := by simp
    rw [split]
    exact .inside (.pair kind inside before) kind' within behind

theorem Nested.cut {front back : List Bracket} (nested : Nested (front ++ back)) :
    Cut front back := by
  generalize whole : front ++ back = bs at nested
  induction nested generalizing front back with
  | nil =>
    obtain ⟨rfl, rfl⟩ := List.append_eq_nil_iff.mp whole
    exact .between .nil .nil
  | @pair o c inner rest kind inside behind inner_cut rest_cut =>
    rcases List.append_eq_append_iff.mp whole with ⟨mid, split, rfl⟩ | ⟨mid, rfl, split⟩
    · cases front with
      | nil =>
        cases split
        exact .between .nil (.pair kind inside behind)
      | cons x front =>
        cases split
        exact .inside .nil kind (inner_cut rfl) behind
    · cases mid with
      | nil =>
        cases split
        rw [List.append_nil]
        have within : Cut inner [] := inner_cut (List.append_nil _)
        exact .inside .nil kind within behind
      | cons x mid =>
        cases split
        exact (rest_cut rfl).behind_pair kind inside

theorem Partners.isOpening {o c : Bracket} (kind : Partners o c) :
    Script.isOpening o.char = true ∧ Script.isOpening c.char = false := by
  rcases kind with ⟨first, second⟩ | ⟨first, second⟩ | ⟨first, second⟩ <;>
    rw [first, second] <;> decide

theorem Paired.read_of_closes {s : Paired} {b x : Bracket} {outer : List Bracket}
    (closing : isOpening b.char = false) (waits : s.pending = x :: outer) :
    s.read b = { s with pending := outer } := by
  simp [Paired.read, closing, waits]

theorem Paired.read_of_nothing {s : Paired} {b : Bracket} (closing : isOpening b.char = false)
    (nothing : s.pending = []) : s.read b = { s with extra := b :: s.extra } := by
  simp [Paired.read, closing, nothing]

/-- What is nested leaves the stack as it was. -/
theorem Nested.read {bs : List Bracket} (nested : Nested bs) (s : Paired) :
    bs.foldl Paired.read s = s := by
  induction nested generalizing s with
  | nil => rfl
  | pair kind inside behind inner rest =>
    obtain ⟨opening, closing⟩ := kind.isOpening
    rw [List.foldl_append, List.foldl_cons, rest, List.foldl_cons, inner,
      Paired.read_of_opens opening]
    exact Paired.read_of_closes closing rfl

section

variable {front back : List Bracket} {b : Bracket}

theorem read_between (before : Nested front) (behind : Nested back) (s : Paired) :
    (front ++ b :: back).foldl Paired.read s = s.read b := by
  rw [List.foldl_append, before.read, List.foldl_cons, behind.read]

/-- Inside a pair one bracket more waits, and the pair's own end is read last. -/
theorem read_inside {outer left right rest : List Bracket} {o c : Bracket} (before : Nested outer)
    (opening : isOpening o.char = true) (behind : Nested rest) (s : Paired) :
    (outer ++ o :: left ++ b :: (right ++ c :: rest)).foldl Paired.read s =
      ((left ++ b :: right).foldl Paired.read { s with pending := o :: s.pending }).read c := by
  have split : outer ++ o :: left ++ b :: (right ++ c :: rest) =
      outer ++ o :: ((left ++ b :: right) ++ c :: rest) := by simp
  rw [split, List.foldl_append, before.read, List.foldl_cons, Paired.read_of_opens opening,
    List.foldl_append, List.foldl_cons, behind.read]

/-- A stray closing bracket costs the innermost bracket that waits. -/
theorem Cut.read_closing (cut : Cut front back) (closing : isOpening b.char = false) {s : Paired}
    {x : Bracket} {outer : List Bracket} (waits : s.pending = x :: outer) :
    (front ++ b :: back).foldl Paired.read s = { s with pending := outer } := by
  induction cut generalizing s x outer with
  | between before behind =>
    rw [read_between before behind]
    exact Paired.read_of_closes closing waits
  | @inside pre left right rest o c before kind _ behind ih =>
    obtain ⟨first, last⟩ := kind.isOpening
    have within := ih (s := { s with pending := o :: s.pending }) rfl
    rw [read_inside before first behind, within]
    exact Paired.read_of_closes last waits

theorem Cut.read_opening (cut : Cut front back) (opening : isOpening b.char = true) (s : Paired) :
    ∃ x, (front ++ b :: back).foldl Paired.read s = { s with pending := x :: s.pending } := by
  induction cut generalizing s with
  | between before behind =>
    refine ⟨b, ?_⟩
    rw [read_between before behind]
    exact Paired.read_of_opens opening
  | @inside pre left right rest o c before kind _ behind ih =>
    obtain ⟨first, last⟩ := kind.isOpening
    obtain ⟨y, within⟩ := ih { s with pending := o :: s.pending }
    refine ⟨o, ?_⟩
    rw [read_inside before first behind, within]
    exact Paired.read_of_closes last rfl

/- The outermost pair around a place of a nested text. -/
def Around (front back : List Bracket) (o c : Bracket) : Prop :=
  ∃ outer left right rest, front = outer ++ o :: left ∧ back = right ++ c :: rest ∧
    Nested outer ∧ Partners o c ∧ Nested (left ++ right) ∧ Nested rest

theorem pairing_closing (nested : Nested (front ++ back)) (closing : isOpening b.char = false) :
    (Nested front ∧ pairing (front ++ b :: back) = ⟨[], [b]⟩) ∨
      ∃ o c, Around front back o c ∧ pairing (front ++ b :: back) = ⟨[], [c]⟩ := by
  unfold pairing
  cases nested.cut with
  | between before behind =>
    left
    refine ⟨before, ?_⟩
    rw [read_between before behind]
    exact Paired.read_of_nothing closing rfl
  | @inside outer left right rest o c before kind within behind =>
    right
    obtain ⟨first, last⟩ := kind.isOpening
    have read := within.read_closing closing (s := ⟨[o], []⟩) rfl
    refine ⟨o, c, ⟨outer, left, right, rest, rfl, rfl, before, kind, within.nested, behind⟩, ?_⟩
    rw [read_inside before first behind, read]
    exact Paired.read_of_nothing last rfl

theorem pairing_opening (nested : Nested (front ++ back)) (opening : isOpening b.char = true) :
    (Nested front ∧ pairing (front ++ b :: back) = ⟨[b], []⟩) ∨
      ∃ o c, Around front back o c ∧ pairing (front ++ b :: back) = ⟨[o], []⟩ := by
  unfold pairing
  cases nested.cut with
  | between before behind =>
    left
    refine ⟨before, ?_⟩
    rw [read_between before behind]
    exact Paired.read_of_opens opening
  | @inside outer left right rest o c before kind within behind =>
    right
    obtain ⟨first, last⟩ := kind.isOpening
    obtain ⟨y, read⟩ := within.read_opening opening ⟨[o], []⟩
    refine ⟨o, c, ⟨outer, left, right, rest, rfl, rfl, before, kind, within.nested, behind⟩, ?_⟩
    rw [read_inside before first behind, read]
    exact Paired.read_of_closes last rfl

end

def Bracket.place (b : Bracket) : Place := ⟨b.line, b.column⟩

theorem le_of_mem_places {p q : Place} {cs : List Char} (member : q ∈ places p cs) :
    p.line < q.line ∨ (p.line = q.line ∧ p.column ≤ q.column) := by
  induction cs generalizing p with
  | nil => cases member
  | cons c rest ih =>
    rcases List.mem_cons.mp member with rfl | later
    · exact .inr ⟨rfl, Nat.le_refl _⟩
    · have next := ih later
      unfold Place.after at next
      split at next <;> simp only at next <;> omega

def Place.Before (p q : Place) : Prop :=
  p.line < q.line ∨ (p.line = q.line ∧ p.column < q.column)

theorem Place.Before.ne {p q : Place} (before : p.Before q) : p ≠ q := by
  rintro rfl
  unfold Place.Before at before
  omega

theorem places_ordered (p : Place) (cs : List Char) : (places p cs).Pairwise Place.Before := by
  induction cs generalizing p with
  | nil => exact .nil
  | cons c rest ih =>
    refine List.pairwise_cons.mpr ⟨?_, ih _⟩
    intro q later
    have next := le_of_mem_places later
    unfold Place.after at next
    unfold Place.Before
    split at next <;> simp only at next <;> omega

theorem lex_ordered (content : List Char) :
    (lex content).Pairwise (fun g h => g.place.Before h.place) := by
  rw [← List.pairwise_map (f := Glyph.place) (R := Place.Before), lex, glyphs_place]
  exact places_ordered _ content

theorem codeBrackets_ordered (content : List Char) :
    (codeBrackets content).Pairwise (fun a b => a.place.Before b.place) := by
  have place : ∀ g : Glyph, ∀ b ∈ g.bracket?, b.place = g.place := by
    intro g b seen
    unfold Glyph.bracket? at seen
    split at seen
    · cases Option.some.inj seen
      rfl
    · cases seen
  refine (lex_ordered content).filterMap _ ?_
  intro g h before a seen b seen'
  rw [place g a seen, place h b seen']
  exact before

theorem codeBrackets_apart (content : List Char) :
    (codeBrackets content).Pairwise (fun a b => a.place ≠ b.place) :=
  (codeBrackets_ordered content).imp Place.Before.ne

theorem Around.apart {front back : List Bracket} {b o c : Bracket} (around : Around front back o c)
    (apart : (front ++ b :: back).Pairwise (fun x y => x.place ≠ y.place)) :
    o.place ≠ b.place ∧ c.place ≠ b.place := by
  obtain ⟨outer, left, right, rest, rfl, rfl, _⟩ := around
  obtain ⟨_, behind, across⟩ := List.pairwise_append.mp apart
  constructor
  · exact across o (by simp) b (by simp)
  · exact ((List.pairwise_cons.mp behind).1 c (by simp)).symm

/-- What a scan says of brackets. -/
def bracketFindings (content : List Char) : List Diagnostic :=
  (scan content).filter (fun d => hasRule extraRule d || hasRule unclosedRule d)

theorem bracketFindings_of_extra {content : List Char} {e : Bracket}
    (paired : pairing (codeBrackets content) = ⟨[], [e]⟩) :
    bracketFindings content = [e.extra] := by
  have extra := reported_extra content
  have silent := reported_unclosed content
  rw [paired] at extra silent
  refine Eq.trans (List.filter_congr fun d member => ?_) extra
  have other := List.filter_eq_nil_iff.mp silent d member
  simp [other]

theorem bracketFindings_of_pending {content : List Char} {o : Bracket}
    (paired : pairing (codeBrackets content) = ⟨[o], []⟩) :
    bracketFindings content = [unclosed o.opening] := by
  have silent := reported_extra content
  have unclosed := reported_unclosed content
  rw [paired] at unclosed silent
  refine Eq.trans (List.filter_congr fun d member => ?_) unclosed
  have other := List.filter_eq_nil_iff.mp silent d member
  simp [other]

/-- A text whose brackets are well nested but for one has one finding about brackets. It is at that
one if there is no pair around it; otherwise it is at the outermost pair around it, at the end that
does what the stray bracket does. -/
theorem stray_bracket_is_blamed_on_the_outermost (content : List Char) {front back : List Bracket}
    {b : Bracket} (code : codeBrackets content = front ++ b :: back)
    (nested : Nested (front ++ back)) :
    (isClosing b.char = true →
      (Nested front ∧ bracketFindings content = [b.extra]) ∨
        ∃ o c, Around front back o c ∧ c.place ≠ b.place ∧ bracketFindings content = [c.extra]) ∧
    (isOpening b.char = true →
      (Nested front ∧ bracketFindings content = [unclosed b.opening]) ∨
        ∃ o c, Around front back o c ∧ o.place ≠ b.place ∧
          bracketFindings content = [unclosed o.opening]) := by
  have apart := codeBrackets_apart content
  rw [code] at apart
  constructor
  · intro closes
    have closing : isOpening b.char = false := by simpa [b.isClosing_eq] using closes
    rcases pairing_closing nested closing with ⟨alone, paired⟩ | ⟨o, c, around, paired⟩
    · exact .inl ⟨alone, bracketFindings_of_extra (code ▸ paired)⟩
    · exact .inr ⟨o, c, around, (around.apart apart).2, bracketFindings_of_extra (code ▸ paired)⟩
  · intro opening
    rcases pairing_opening nested opening with ⟨alone, paired⟩ | ⟨o, c, around, paired⟩
    · exact .inl ⟨alone, bracketFindings_of_pending (code ▸ paired)⟩
    · exact .inr ⟨o, c, around, (around.apart apart).1, bracketFindings_of_pending (code ▸ paired)⟩

/-- A parenthesis nobody opened, two pairs deep: the finding is at the end of the outer one. -/
theorem stray_bracket_is_blamed_on_the_outermost_deep :
    ∃ front b back, codeBrackets "[\x7b\n)\x7d];".toList = front ++ b :: back ∧
      Nested (front ++ back) ∧ b.place = ⟨1, 0⟩ ∧
      ∃ o c, Around front back o c ∧ bracketFindings "[\x7b\n)\x7d];".toList = [c.extra] := by
  let o : Bracket := ⟨'[', 0, 0, by decide⟩
  let p : Bracket := ⟨'\x7b', 0, 1, by decide⟩
  let b : Bracket := ⟨')', 1, 0, by decide⟩
  let q : Bracket := ⟨'\x7d', 1, 1, by decide⟩
  let c : Bracket := ⟨']', 1, 2, by decide⟩
  have code : codeBrackets "[\x7b\n)\x7d];".toList = [o, p] ++ b :: [q, c] := rfl
  have inner : Nested [p, q] := .pair (.inr (.inr ⟨rfl, rfl⟩)) .nil .nil
  have nested : Nested (o :: [p, q] ++ c :: []) := .pair (.inr (.inl ⟨rfl, rfl⟩)) inner .nil
  refine ⟨_, _, _, code, nested, rfl, ?_⟩
  rcases (stray_bracket_is_blamed_on_the_outermost _ code nested).1 rfl with
    ⟨alone, _⟩ | ⟨o, c, around, _, found⟩
  · have left := alone.read ⟨[], []⟩
    simp [o, p, Paired.read, isOpening] at left
  · exact ⟨o, c, around, found⟩

/-- A parenthesis that nobody opened and a brace that nobody closes, each inside a pair of square
brackets: neither is what the scan points at. -/
theorem enclosed_stray_is_not_blamed :
    (∃ o b c, codeBrackets "[)];".toList = [o] ++ b :: [c] ∧ Nested ([o] ++ [c]) ∧
      b.char = ')' ∧ b.place = ⟨0, 1⟩ ∧
      (bracketFindings "[)];".toList).map shown = [(0, 2, .error, "Extra closing bracket")]) ∧
    ∃ o b c, codeBrackets "[\x7b];".toList = [o] ++ b :: [c] ∧ Nested ([o] ++ [c]) ∧
      b.char = '\x7b' ∧ b.place = ⟨0, 1⟩ ∧
      (bracketFindings "[\x7b];".toList).map shown = [(0, 0, .error, "Unclosed bracket")] := by
  let o : Bracket := ⟨'[', 0, 0, by decide⟩
  let c : Bracket := ⟨']', 0, 2, by decide⟩
  have nested : Nested ([o] ++ [c]) := .pair (.inr (.inl ⟨rfl, rfl⟩)) .nil .nil
  constructor
  · exact ⟨o, ⟨')', 0, 1, by decide⟩, c, rfl, nested, rfl, rfl, by decide⟩
  · exact ⟨o, ⟨'\x7b', 0, 1, by decide⟩, c, rfl, nested, rfl, rfl, by decide⟩

end BufferLint.Scan.Script
