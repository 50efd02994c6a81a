import LosslessSyntax.Trivia.Scan

/-!
# Nesting of block comments

How far a block comment goes, said by the depth of nesting alone: it ends where as many comments have
been closed as were opened, or with the text when that never happens. The main statement,
`cutBlock_eq_iff`, says that cutting gives the only front part of this sort.
-/

namespace LosslessSyntax.Trivia

/-- The number of characters up to where no comment is open any more, `depth` being open at first. -/
def nestingEnd? (depth : Nat) : List Char → Option Nat
  | '/' :: '*' :: rest => (nestingEnd? (depth + 1) rest).map (· + 2)
  | '*' :: '/' :: rest =>
    match depth with
    | 0 | 1 => some 2
    | further + 2 => (nestingEnd? (further + 1) rest).map (· + 2)
  | _ :: rest => (nestingEnd? depth rest).map (· + 1)
  | [] => none

/-- The last comment closes with the last character. -/
def Closed (text : List Char) : Prop := nestingEnd? 0 text = some text.length

/-- Some comment stays open. -/
def Unclosed (text : List Char) : Prop := nestingEnd? 0 text = none

instance (text : List Char) : Decidable (Closed text) := inferInstanceAs (Decidable (_ = _))

instance (text : List Char) : Decidable (Unclosed text) := inferInstanceAs (Decidable (_ = _))

theorem blockEnd_eq (text : List Char) (outer read : Nat) :
    blockEnd outer read text = read + (nestingEnd? (outer + 1) text).getD text.length := by
  fun_induction blockEnd outer read text with
  | case1 outer read rest ih =>
    rw [ih, nestingEnd?]
    cases nestingEnd? (outer + 1 + 1) rest <;> simp <;> omega
  | case2 read rest => simp [nestingEnd?]
  | case3 read rest further ih =>
    rw [ih, nestingEnd?]
    cases nestingEnd? (further + 1) rest <;> simp <;> omega
  | case4 outer read c rest opening closing ih =>
    rw [ih, nestingEnd?]
    · cases nestingEnd? (outer + 1) rest <;> simp <;> omega
    · exact opening
    · exact closing
  | case5 outer read => simp [nestingEnd?]

theorem nestingEnd?_cons {depth : Nat} {c : Char} {rest : List Char}
    (opening : ¬ (c = '/' ∧ rest.head? = some '*')) (closing : ¬ (c = '*' ∧ rest.head? = some '/')) :
    nestingEnd? depth (c :: rest) = (nestingEnd? depth rest).map (· + 1) := by
  rw [nestingEnd?]
  · rintro after rfl rfl; exact opening ⟨rfl, rfl⟩
  · rintro after rfl rfl; exact closing ⟨rfl, rfl⟩

/-- What follows the end does not matter. -/
theorem nestingEnd?_append {depth n : Nat} {text : List Char} (found : nestingEnd? depth text = some n)
    (more : List Char) : nestingEnd? depth (text ++ more) = some n := by
  fun_induction nestingEnd? depth text generalizing n with
  | case1 depth rest ih =>
    obtain ⟨m, inner, rfl⟩ := Option.map_eq_some_iff.mp found
    simp [nestingEnd?, ih inner]
  | case2 rest => exact found
  | case3 rest => exact found
  | case4 rest further ih =>
    obtain ⟨m, inner, rfl⟩ := Option.map_eq_some_iff.mp found
    simp [nestingEnd?, ih inner]
  | case5 depth c rest opening closing ih =>
    obtain ⟨m, inner, rfl⟩ := Option.map_eq_some_iff.mp found
    cases rest with
    | nil => cases inner
    | cons d rest =>
      rw [List.cons_append, nestingEnd?_cons, ih inner, Option.map_some]
      · rintro ⟨rfl, head⟩; cases head; exact opening rest rfl rfl
      · rintro ⟨rfl, head⟩; cases head; exact closing rest rfl rfl
  | case6 depth => cases found

/-- The end lies within the text, and is the end also when the text is cut there. -/
theorem nestingEnd?_take {depth n : Nat} {text : List Char} (found : nestingEnd? depth text = some n) :
    n ≤ text.length ∧ nestingEnd? depth (text.take n) = some n := by
  fun_induction nestingEnd? depth text generalizing n with
  | case1 depth rest ih =>
    obtain ⟨m, inner, rfl⟩ := Option.map_eq_some_iff.mp found
    obtain ⟨within, cut⟩ := ih inner
    exact ⟨by simpa using within, by simp [nestingEnd?, cut]⟩
  | case2 rest => cases found; exact ⟨by simp, rfl⟩
  | case3 rest => cases found; exact ⟨by simp, rfl⟩
  | case4 rest further ih =>
    obtain ⟨m, inner, rfl⟩ := Option.map_eq_some_iff.mp found
    obtain ⟨within, cut⟩ := ih inner
    exact ⟨by simpa using within, by simp [nestingEnd?, cut]⟩
  | case5 depth c rest opening closing ih =>
    obtain ⟨m, inner, rfl⟩ := Option.map_eq_some_iff.mp found
    obtain ⟨within, cut⟩ := ih inner
    refine ⟨by simpa using within, ?_⟩
    have head {d : Char} (same : (rest.take m).head? = some d) : ∃ after, rest = d :: after := by
      cases rest with
      | nil => cases inner
      | cons e rest =>
        cases m with
        | zero => cases same
        | succ m => cases same; exact ⟨rest, rfl⟩
    rw [List.take_succ_cons, nestingEnd?_cons, cut, Option.map_some]
    · rintro ⟨rfl, same⟩
      obtain ⟨after, eq⟩ := head same
      exact opening after rfl eq
    · rintro ⟨rfl, same⟩
      obtain ⟨after, eq⟩ := head same
      exact closing after rfl eq
  | case6 depth => cases found

theorem cutBlock_eq (rest : List Char) :
    cutBlock ('/' :: '*' :: rest) =
      (('/' :: '*' :: rest).take ((nestingEnd? 0 ('/' :: '*' :: rest)).getD (rest.length + 2)),
        ('/' :: '*' :: rest).drop ((nestingEnd? 0 ('/' :: '*' :: rest)).getD (rest.length + 2))) := by
  have length : blockEnd 0 2 rest = (nestingEnd? 0 ('/' :: '*' :: rest)).getD (rest.length + 2) := by
    rw [blockEnd_eq, nestingEnd?]
    cases nestingEnd? 1 rest <;> simp <;> omega
  simp only [cutBlock, List.drop_succ_cons, List.drop_zero, length]

/-- The front part is the one that is closed with its last character, or all of the text where the
comment stays open. -/
theorem cutBlock_eq_iff {rest front back : List Char} :
    cutBlock ('/' :: '*' :: rest) = (front, back) ↔
      front ++ back = '/' :: '*' :: rest ∧ (Closed front ∨ Unclosed front ∧ back = []) := by
  rw [cutBlock_eq]
  cases found : nestingEnd? 0 ('/' :: '*' :: rest) with
  | some n =>
    obtain ⟨within, cut⟩ := nestingEnd?_take found
    have length : (('/' :: '*' :: rest).take n).length = n := List.length_take_of_le within
    constructor
    · intro same
      cases same
      refine ⟨List.take_append_drop _ _, .inl ?_⟩
      rw [Closed, Option.getD_some, length, cut]
    · rintro ⟨whole, closed | ⟨unclosed, rfl⟩⟩
      · have same := nestingEnd?_append closed back
        rw [whole, found] at same
        cases same
        rw [Option.getD_some, ← whole, List.take_left, List.drop_left]
      · rw [List.append_nil] at whole
        rw [Unclosed, whole, found] at unclosed
        cases unclosed
  | none =>
    rw [Option.getD_none]
    constructor
    · intro same
      cases same
      refine ⟨List.take_append_drop _ _, .inr ⟨?_, by simp⟩⟩
      rw [Unclosed, List.take_of_length_le (by simp), found]
    · rintro ⟨whole, closed | ⟨unclosed, rfl⟩⟩
      · have same := nestingEnd?_append closed back
        rw [whole, found] at same
        cases same
      · rw [List.append_nil] at whole
        rw [whole, List.take_of_length_le (by simp), List.drop_of_length_le (by simp)]

end LosslessSyntax.Trivia
