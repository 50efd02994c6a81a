import Mathlib.Data.List.Infix
import LosslessSyntax.Trivia.Scan
import LosslessSyntax.Proofs.CommentNesting

/-!
# The piece at the front of a text

Which piece splitting cuts off a text, said without the scanner: the one that is written at the front,
is well formed, and ends before the text that follows. The main statement is `nextPiece_eq_iff`; it
holds since no text begins with two such pieces.
-/

namespace LosslessSyntax.Trivia

/-- The characters that are runs wherever they stand. -/
def runChars : List Char := [' ', '\t', '\x0b', '\x0c', '\n', '\r', '\\', '#']

/-- A comment that begins with two slashes and stays in its line. A third slash makes it a doc
comment. -/
structure LineText (doc : Bool) (text : List Char) : Prop where
  slashes : ['/', '/'] <+: text
  doc_iff : doc ↔ ['/', '/', '/'] <+: text
  noBreak : ∀ c ∈ text, ¬ isLineBreak c

/-- A block comment that closes with its last character or not at all. A second star makes it a doc
comment, unless it closes there. -/
structure BlockText (doc : Bool) (text : List Char) : Prop where
  opening : ['/', '*'] <+: text
  doc_iff : doc ↔ ['/', '*', '*'] <+: text ∧ ¬ ['/', '*', '*', '/'] <+: text
  ending : Closed text ∨ Unclosed text

/-- Text in which no other piece begins. -/
structure UnexpectedText (text : List Char) : Prop where
  nonempty : text ≠ []
  noRun : ∀ c ∈ text, c ∉ runChars
  noLine : ¬ ['/', '/'] <:+: text
  noBlock : ¬ ['/', '*'] <:+: text

/-- A piece as splitting gives it, whatever stands around it. -/
def Piece.WellFormed : Piece → Prop
  | .run _ count => 1 ≤ count.toNat
  | .stretch .lineComment text => LineText false text.toList
  | .stretch .docLineComment text => LineText true text.toList
  | .stretch .blockComment text => BlockText false text.toList
  | .stretch .docBlockComment text => BlockText true text.toList
  | .stretch .unexpected text => UnexpectedText text.toList

instance (doc : Bool) (text : List Char) : Decidable (LineText doc text) :=
  decidable_of_iff
    (['/', '/'] <+: text ∧ (doc ↔ ['/', '/', '/'] <+: text) ∧ text.all (!isLineBreak ·))
    ⟨fun h => ⟨h.1, h.2.1, by simpa using h.2.2⟩, fun h => ⟨h.slashes, h.doc_iff, by simpa using h.noBreak⟩⟩

instance (doc : Bool) (text : List Char) : Decidable (BlockText doc text) :=
  decidable_of_iff
    (['/', '*'] <+: text ∧ (doc ↔ ['/', '*', '*'] <+: text ∧ ¬ ['/', '*', '*', '/'] <+: text) ∧
      (Closed text ∨ Unclosed text))
    ⟨fun h => ⟨h.1, h.2.1, h.2.2⟩, fun h => ⟨h.opening, h.doc_iff, h.ending⟩⟩

instance (text : List Char) : Decidable (UnexpectedText text) :=
  decidable_of_iff
    (text ≠ [] ∧ text.all (· ∉ runChars) ∧ ¬ ['/', '/'] <:+: text ∧ ¬ ['/', '*'] <:+: text)
    ⟨fun h => ⟨h.1, by simpa using h.2.1, h.2.2.1, h.2.2.2⟩,
      fun h => ⟨h.nonempty, by simpa using h.noRun, h.noLine, h.noBlock⟩⟩

instance : DecidablePred Piece.WellFormed
  | .run _ count => inferInstanceAs (Decidable (1 ≤ count.toNat))
  | .stretch .lineComment text => inferInstanceAs (Decidable (LineText false text.toList))
  | .stretch .docLineComment text => inferInstanceAs (Decidable (LineText true text.toList))
  | .stretch .blockComment text => inferInstanceAs (Decidable (BlockText false text.toList))
  | .stretch .docBlockComment text => inferInstanceAs (Decidable (BlockText true text.toList))
  | .stretch .unexpected text => inferInstanceAs (Decidable (UnexpectedText text.toList))

/-- The piece is at its end when this text follows. -/
def Piece.EndsBefore : Piece → List Char → Prop
  | .run .carriageReturn _, text => text.head? ≠ some '\n'
  | .run _ _, _ => True
  | .stretch .lineComment _, text | .stretch .docLineComment _, text =>
    ∀ c, text.head? = some c → isLineBreak c
  | .stretch .blockComment inside, text | .stretch .docBlockComment inside, text =>
    text = [] ∨ Closed inside.toList
  | .stretch .unexpected inside, text =>
    (text = [] ∨ startsPiece text) ∧ (inside.toList.getLast? = some '/' → text.head? ≠ some '/')

/-- One piece as it is cut off: runs come unit by unit. -/
def Piece.Single : Piece → Prop
  | .run _ count => count = 1
  | .stretch _ _ => True

theorem ofChar?_eq_none_iff {c : Char} : RunUnit.ofChar? c = none ↔ c ∉ runChars := by
  unfold RunUnit.ofChar? runChars
  repeat' split
  all_goals simp_all

theorem isSome_ofChar?_iff {c : Char} : (RunUnit.ofChar? c).isSome ↔ c ∈ runChars := by
  rw [← Option.ne_none_iff_isSome, ne_eq, ofChar?_eq_none_iff, not_not]

theorem startsPiece_cons {c : Char} {rest : List Char} :
    startsPiece (c :: rest) ↔
      c ∈ runChars ∨ c = '/' ∧ (rest.head? = some '/' ∨ rest.head? = some '*') := by
  have run : (RunUnit.ofChar? c).isSome ↔ c ∈ runChars := isSome_ofChar?_iff
  by_cases slash : c = '/'
  · subst slash
    have plain : '/' ∉ runChars := by decide
    rcases rest with _ | ⟨d, rest⟩
    · simpa [startsPiece] using run
    · by_cases line : d = '/'
      · simp [startsPiece, line]
      · by_cases block : d = '*'
        · simp [startsPiece, block]
        · unfold startsPiece
          simp [line, block, plain, run]
  · unfold startsPiece
    simp [slash, run]

theorem pair_prefix_iff {a b c : Char} {text : List Char} :
    [a, b] <+: c :: text ↔ c = a ∧ text.head? = some b := by
  cases text with
  | nil => simp
  | cons d text => simp [List.cons_prefix_cons, eq_comm]

/-- A line is cut where its characters are no breaks and a break follows, if anything. -/
theorem cutLine_eq_iff {text front back : List Char} :
    cutLine text = (front, back) ↔
      front ++ back = text ∧ (∀ c ∈ front, ¬ isLineBreak c) ∧ ∀ c, back.head? = some c → isLineBreak c := by
  constructor
  · intro same
    cases same
    refine ⟨List.takeWhile_append_dropWhile, fun c member => ?_, fun c head => ?_⟩
    · simpa using List.all_eq_true.mp List.all_takeWhile c member
    · have stop := List.head?_dropWhile_not (!isLineBreak ·) text
      rw [head] at stop
      simpa using stop
  · rintro ⟨rfl, inside, stop⟩
    have inside' : ∀ c ∈ front, (!isLineBreak c) = true := by simpa using inside
    rw [cutLine, List.takeWhile_append_of_pos inside', List.dropWhile_append_of_pos inside']
    cases back with
    | nil => simp
    | cons d back => simp [stop d rfl]

/-- No piece begins in `front` when `back` follows it. -/
def Unbroken (back : List Char) : List Char → Prop
  | [] => True
  | c :: front => ¬ startsPiece (c :: (front ++ back)) ∧ Unbroken back front

theorem unexpectedEnd_append {front back : List Char} (read : Nat) (unbroken : Unbroken back front)
    (stop : back = [] ∨ startsPiece back) : unexpectedEnd read (front ++ back) = read + front.length := by
  induction front generalizing read with
  | nil =>
    rw [List.nil_append, List.length_nil, Nat.add_zero]
    cases back with
    | nil => rfl
    | cons d back =>
      have starts : startsPiece (d :: back) := stop.resolve_left (List.cons_ne_nil _ _)
      rw [unexpectedEnd, if_pos starts]
  | cons c front ih =>
    rw [List.cons_append, unexpectedEnd, if_neg unbroken.1, ih (read + 1) unbroken.2, List.length_cons]
    omega

theorem exists_unbroken (text : List Char) :
    ∃ front back, front ++ back = text ∧ Unbroken back front ∧ (back = [] ∨ startsPiece back) := by
  induction text with
  | nil => exact ⟨[], [], rfl, trivial, .inl rfl⟩
  | cons c rest ih =>
    by_cases starts : startsPiece (c :: rest)
    · exact ⟨[], c :: rest, rfl, trivial, .inr starts⟩
    · obtain ⟨front, back, rfl, unbroken, stop⟩ := ih
      exact ⟨c :: front, back, rfl, ⟨starts, unbroken⟩, stop⟩

/-- Unexpected text is cut where the next piece begins. Its first character is not looked at. -/
theorem cutUnexpected_eq_iff {c : Char} {rest front back : List Char} :
    cutUnexpected (c :: rest) = (c :: front, back) ↔
      front ++ back = rest ∧ Unbroken back front ∧ (back = [] ∨ startsPiece back) := by
  have cut {front back : List Char} (unbroken : Unbroken back front) (stop : back = [] ∨ startsPiece back) :
      cutUnexpected (c :: (front ++ back)) = (c :: front, back) := by
    simp [cutUnexpected, unexpectedEnd_append 1 unbroken stop, Nat.add_comm 1]
  constructor
  · intro same
    obtain ⟨front', back', rfl, unbroken, stop⟩ := exists_unbroken rest
    rw [cut unbroken stop] at same
    cases same
    exact ⟨rfl, unbroken, stop⟩
  · rintro ⟨rfl, unbroken, stop⟩
    exact cut unbroken stop

/-- That no piece begins in a text is seen from the text alone, but for a slash at its end. -/
theorem unbroken_iff {front back : List Char} :
    Unbroken back front ↔ (∀ c ∈ front, c ∉ runChars) ∧ ¬ ['/', '/'] <:+: front ∧ ¬ ['/', '*'] <:+: front ∧
      (front.getLast? = some '/' → back.head? ≠ some '/' ∧ back.head? ≠ some '*') := by
  induction front with
  | nil => simp [Unbroken]
  | cons c front ih =>
    rw [Unbroken, ih, startsPiece_cons, List.infix_cons_iff, List.infix_cons_iff, pair_prefix_iff,
      pair_prefix_iff]
    cases front with
    | nil => simp
    | cons d front => simp; tauto

/-- A line comment is what is cut off after two slashes. -/
theorem lineText_iff {doc : Bool} {rest front back : List Char} :
    (front ++ back = '/' :: '/' :: rest ∧ LineText doc front ∧ ∀ c, back.head? = some c → isLineBreak c) ↔
      cutLine ('/' :: '/' :: rest) = (front, back) ∧ (doc ↔ rest.head? = some '/') := by
  rw [cutLine_eq_iff]
  have third {inner : List Char} (stop : ∀ c, back.head? = some c → isLineBreak c) :
      ['/', '/', '/'] <+: '/' :: '/' :: inner ↔ (inner ++ back).head? = some '/' := by
    cases inner with
    | nil =>
      have noSlash : back.head? ≠ some '/' := fun head => absurd (stop '/' head) (by decide)
      simp [List.cons_prefix_cons, noSlash]
    | cons d inner => simp [List.cons_prefix_cons, eq_comm]
  constructor
  · rintro ⟨whole, ⟨⟨inner, rfl⟩, docIff, noBreak⟩, stop⟩
    obtain rfl : inner ++ back = rest := by simpa using whole
    exact ⟨⟨rfl, noBreak, stop⟩, docIff.trans (third stop)⟩
  · rintro ⟨⟨whole, noBreak, stop⟩, docIff⟩
    have slash : back.head? ≠ some '/' := fun head => absurd (stop '/' head) (by decide)
    rcases front with _ | ⟨a, _ | ⟨b, inner⟩⟩
    · obtain rfl : back = '/' :: '/' :: rest := by simpa using whole
      exact absurd rfl slash
    · obtain ⟨_, rfl⟩ : a = '/' ∧ back = '/' :: rest := by simpa using whole
      exact absurd rfl slash
    · obtain ⟨rfl, rfl, rfl⟩ : a = '/' ∧ b = '/' ∧ inner ++ back = rest := by simpa using whole
      exact ⟨rfl, ⟨⟨inner, rfl⟩, docIff.trans (third stop).symm, noBreak⟩, stop⟩

/-- The closing of a closed comment lies behind its opening. -/
theorem Closed.exists_inner {inner : List Char} (closed : Closed ('/' :: '*' :: inner)) :
    ∃ a b more, inner = a :: b :: more := by
  rcases inner with _ | ⟨a, _ | ⟨b, more⟩⟩
  · cases closed
  · have alone : nestingEnd? 1 [a] = none := by
      rw [nestingEnd?_cons (by simp) (by simp)]
      rfl
    rw [Closed, nestingEnd?, alone] at closed
    cases closed
  · exact ⟨a, b, more, rfl⟩

/-- A block comment is what is cut off after a slash and a star. -/
theorem blockText_iff {doc : Bool} {rest front back : List Char} :
    (front ++ back = '/' :: '*' :: rest ∧ BlockText doc front ∧ (back = [] ∨ Closed front)) ↔
      cutBlock ('/' :: '*' :: rest) = (front, back) ∧ (doc ↔ ['*'] <+: rest ∧ ¬ ['*', '/'] <+: rest) := by
  rw [cutBlock_eq_iff]
  have second {inner : List Char} (ends : back = [] ∨ Closed ('/' :: '*' :: inner)) :
      (['/', '*', '*'] <+: '/' :: '*' :: inner ∧ ¬ ['/', '*', '*', '/'] <+: '/' :: '*' :: inner) ↔
        ['*'] <+: inner ++ back ∧ ¬ ['*', '/'] <+: inner ++ back := by
    rcases ends with rfl | closed
    · simp [List.cons_prefix_cons]
    · obtain ⟨a, b, more, rfl⟩ := closed.exists_inner
      simp [List.cons_prefix_cons]
  constructor
  · rintro ⟨whole, ⟨⟨inner, rfl⟩, docIff, ending⟩, ends⟩
    obtain rfl : inner ++ back = rest := by simpa using whole
    refine ⟨⟨rfl, ?_⟩, docIff.trans (second ends)⟩
    rcases ends with none | closed
    · exact ending.imp_right fun unclosed => ⟨unclosed, none⟩
    · exact .inl closed
  · rintro ⟨⟨whole, ending⟩, docIff⟩
    have opening : ['/', '*'] <+: front := by
      rcases front with _ | ⟨a, _ | ⟨b, inner⟩⟩
      · rcases ending with closed | ⟨_, rfl⟩
        · cases closed
        · cases whole
      · rcases ending with closed | ⟨_, rfl⟩
        · rw [Closed, nestingEnd?_cons (by simp) (by simp)] at closed
          cases closed
        · cases whole
      · obtain ⟨rfl, rfl, _⟩ : a = '/' ∧ b = '*' ∧ inner ++ back = rest := by simpa using whole
        exact ⟨inner, rfl⟩
    obtain ⟨inner, rfl⟩ := opening
    obtain rfl : inner ++ back = rest := by simpa using whole
    have ends : back = [] ∨ Closed ('/' :: '*' :: inner) := ending.symm.imp_left And.right
    exact ⟨rfl, ⟨⟨inner, rfl⟩, docIff.trans (second ends).symm, ending.imp_right And.left⟩, ends⟩

/-- Unexpected text is what is cut off where no other piece begins. -/
theorem unexpectedText_iff {c : Char} {rest front back : List Char} :
    (front ++ back = c :: rest ∧ UnexpectedText front ∧ (back = [] ∨ startsPiece back) ∧
        (front.getLast? = some '/' → back.head? ≠ some '/')) ↔
      cutUnexpected (c :: rest) = (front, back) ∧ ¬ startsPiece (c :: rest) := by
  have star (stop : back = [] ∨ startsPiece back) : back.head? ≠ some '*' := by
    rcases stop with rfl | starts
    · simp
    · rcases back with _ | ⟨d, back⟩
      · simp
      · rintro head
        cases head
        rw [startsPiece_cons] at starts
        simp [runChars] at starts
  constructor
  · rintro ⟨whole, ⟨nonempty, noRun, noLine, noBlock⟩, stop, last⟩
    have unbroken : Unbroken back front :=
      unbroken_iff.mpr ⟨noRun, noLine, noBlock, fun slash => ⟨last slash, star stop⟩⟩
    cases front with
    | nil => exact absurd rfl nonempty
    | cons a front =>
      obtain ⟨rfl, rfl⟩ : a = c ∧ front ++ back = rest := by simpa using whole
      exact ⟨cutUnexpected_eq_iff.mpr ⟨rfl, unbroken.2, stop⟩, unbroken.1⟩
  · rintro ⟨cut, plain⟩
    have whole : front ++ back = c :: rest := by
      have := cutUnexpected_append (c :: rest)
      rwa [cut] at this
    have first : front ≠ [] := by
      rintro rfl
      have := congrArg (·.1.length) cut
      have progress := le_unexpectedEnd rest 1
      simp [cutUnexpected] at this
      omega
    cases front with
    | nil => exact absurd rfl first
    | cons a front =>
      obtain ⟨rfl, rfl⟩ : a = c ∧ front ++ back = rest := by simpa using whole
      obtain ⟨_, unbroken, stop⟩ := cutUnexpected_eq_iff.mp cut
      have all : Unbroken back (a :: front) := ⟨plain, unbroken⟩
      obtain ⟨noRun, noLine, noBlock, last⟩ := unbroken_iff.mp all
      exact ⟨rfl, ⟨first, noRun, noLine, noBlock⟩, stop, fun slash => (last slash).1⟩

/-- The sort of a line comment. -/
def lineSort (doc : Bool) : TextSort := if doc then .docLineComment else .lineComment

/-- The sort of a block comment. -/
def blockSort (doc : Bool) : TextSort := if doc then .docBlockComment else .blockComment

theorem nextPiece_run {c : Char} {rest : List Char} {unit : RunUnit} (found : RunUnit.ofChar? c = some unit)
    (alone : c = '\r' → rest.head? ≠ some '\n') : nextPiece c rest = (.run unit 1, rest) := by
  unfold nextPiece
  split
  case h_1 => exact absurd rfl (alone rfl)
  case h_2 | h_3 | h_4 | h_5 | h_6 => cases found
  case h_7 => rw [found]

theorem nextPiece_line {doc : Bool} {rest : List Char} (docIff : doc ↔ rest.head? = some '/') :
    nextPiece '/' ('/' :: rest) = toStretch (lineSort doc) (cutLine ('/' :: '/' :: rest)) := by
  rcases rest with _ | ⟨d, rest⟩
  · cases doc
    · rfl
    · simp at docIff
  · by_cases third : d = '/'
    · cases doc
      · simp [third] at docIff
      · rw [third]; rfl
    · cases doc
      · simp [nextPiece, third, lineSort]
      · simp [third] at docIff

theorem nextPiece_block {doc : Bool} {rest : List Char}
    (docIff : doc ↔ ['*'] <+: rest ∧ ¬ ['*', '/'] <+: rest) :
    nextPiece '/' ('*' :: rest) = toStretch (blockSort doc) (cutBlock ('/' :: '*' :: rest)) := by
  rcases rest with _ | ⟨d, rest⟩
  · cases doc
    · rfl
    · simp at docIff
  · by_cases star : d = '*'
    · subst star
      rcases rest with _ | ⟨e, rest⟩
      · cases doc
        · simp at docIff
        · rfl
      · by_cases slash : e = '/'
        · cases doc
          · rw [slash]; rfl
          · simp [slash] at docIff
        · cases doc
          · simp [List.cons_prefix_cons, Ne.symm slash] at docIff
          · simp [nextPiece, slash, blockSort]
    · cases doc
      · simp [nextPiece, star, blockSort]
      · simp [Ne.symm star] at docIff

theorem nextPiece_unexpected {c : Char} {rest : List Char} (plain : ¬ startsPiece (c :: rest)) :
    nextPiece c rest = toStretch .unexpected (cutUnexpected (c :: rest)) := by
  unfold nextPiece
  split
  case h_1 => exact absurd (startsPiece_cons.mpr (.inl (by decide))) plain
  case h_2 | h_3 | h_4 | h_5 | h_6 => exact absurd rfl plain
  case h_7 =>
    rw [startsPiece_cons, not_or] at plain
    rw [ofChar?_eq_none_iff.mpr plain.1]

/-! ## Which piece is cut off -/

theorem endsBefore_run {unit : RunUnit} {count : UInt32} {back : List Char} :
    (Piece.run unit count).EndsBefore back ↔ (unit = .carriageReturn → back.head? ≠ some '\n') := by
  cases unit <;> simp [Piece.EndsBefore]

theorem wellFormed_lineSort {doc : Bool} {text : String} :
    (Piece.stretch (lineSort doc) text).WellFormed ↔ LineText doc text.toList := by
  cases doc <;> rfl

theorem endsBefore_lineSort {doc : Bool} {text : String} {back : List Char} :
    (Piece.stretch (lineSort doc) text).EndsBefore back ↔ ∀ c, back.head? = some c → isLineBreak c := by
  cases doc <;> rfl

theorem wellFormed_blockSort {doc : Bool} {text : String} :
    (Piece.stretch (blockSort doc) text).WellFormed ↔ BlockText doc text.toList := by
  cases doc <;> rfl

theorem endsBefore_blockSort {doc : Bool} {text : String} {back : List Char} :
    (Piece.stretch (blockSort doc) text).EndsBefore back ↔ back = [] ∨ Closed text.toList := by
  cases doc <;> rfl

theorem wellFormed_one (unit : RunUnit) : (Piece.run unit 1).WellFormed := by
  change 1 ≤ (1 : UInt32).toNat
  decide

/-- Cutting off a run leaves what may follow it. -/
theorem nextPiece_run_spec {c : Char} {rest : List Char} (run : c ∈ runChars) :
    (nextPiece c rest).1.Single ∧ (nextPiece c rest).1.WellFormed ∧
      (nextPiece c rest).1.EndsBefore (nextPiece c rest).2 := by
  by_cases both : c = '\r' ∧ rest.head? = some '\n'
  · obtain ⟨rfl, head⟩ := both
    obtain ⟨after, rfl⟩ : ∃ after, rest = '\n' :: after := by
      rcases rest with _ | ⟨d, after⟩
      · cases head
      · cases head; exact ⟨after, rfl⟩
    exact ⟨rfl, wellFormed_one _, trivial⟩
  · cases found : RunUnit.ofChar? c with
    | none => exact absurd run (ofChar?_eq_none_iff.mp found)
    | some unit =>
      rw [nextPiece_run found fun return_ head => both ⟨return_, head⟩]
      refine ⟨rfl, wellFormed_one unit, endsBefore_run.mpr ?_⟩
      rintro rfl head
      have text := RunUnit.text_ofChar? found
      have same : c = '\r' := by simpa [RunUnit.text] using (congrArg String.toList text).symm
      exact both ⟨same, head⟩

/-- What is cut off a text is well formed and ends before the rest. -/
theorem nextPiece_spec (c : Char) (rest : List Char) :
    (nextPiece c rest).1.Single ∧ (nextPiece c rest).1.WellFormed ∧
      (nextPiece c rest).1.EndsBefore (nextPiece c rest).2 := by
  by_cases starts : startsPiece (c :: rest)
  · rcases startsPiece_cons.mp starts with run | ⟨rfl, second⟩
    · exact nextPiece_run_spec run
    · rcases rest with _ | ⟨d, rest⟩
      · rcases second with impossible | impossible <;> cases impossible
      · rcases second with line | block
        · cases line
          have docIff : decide (rest.head? = some '/') ↔ rest.head? = some '/' := decide_eq_true_iff
          obtain ⟨front, back, cut⟩ : ∃ front back, cutLine ('/' :: '/' :: rest) = (front, back) := ⟨_, _, rfl⟩
          obtain ⟨_, text, stop⟩ := lineText_iff.mpr ⟨cut, docIff⟩
          rw [nextPiece_line docIff, cut]
          exact ⟨trivial, wellFormed_lineSort.mpr (by rwa [String.toList_ofList]), endsBefore_lineSort.mpr stop⟩
        · cases block
          have docIff : decide (['*'] <+: rest ∧ ¬ ['*', '/'] <+: rest) ↔ _ := decide_eq_true_iff
          obtain ⟨front, back, cut⟩ : ∃ front back, cutBlock ('/' :: '*' :: rest) = (front, back) := ⟨_, _, rfl⟩
          obtain ⟨_, text, ends⟩ := blockText_iff.mpr ⟨cut, docIff⟩
          rw [nextPiece_block docIff, cut]
          exact ⟨trivial, wellFormed_blockSort.mpr (by rwa [String.toList_ofList]),
            endsBefore_blockSort.mpr (by rwa [String.toList_ofList])⟩
  · obtain ⟨front, back, cut⟩ : ∃ front back, cutUnexpected (c :: rest) = (front, back) := ⟨_, _, rfl⟩
    obtain ⟨_, text, stop, last⟩ := unexpectedText_iff.mpr ⟨cut, starts⟩
    rw [nextPiece_unexpected starts, cut]
    refine ⟨trivial, ?_, stop, ?_⟩
    · change UnexpectedText (String.ofList front).toList
      rwa [String.toList_ofList]
    · rwa [String.toList_ofList]

theorem nextPiece_of_run {c : Char} {rest back : List Char} {unit : RunUnit}
    (whole : unit.text.toList ++ back = c :: rest) (ends : (Piece.run unit 1).EndsBefore back) :
    nextPiece c rest = (.run unit 1, back) := by
  cases unit with
  | carriageReturn =>
    obtain ⟨rfl, rfl⟩ : '\r' = c ∧ back = rest := by simpa [RunUnit.text] using whole
    exact nextPiece_run rfl fun _ => ends
  | carriageReturnLineFeed =>
    obtain ⟨rfl, rfl⟩ : '\r' = c ∧ '\n' :: back = rest := by simpa [RunUnit.text] using whole
    rfl
  | _ =>
    obtain ⟨rfl, rfl⟩ : _ = c ∧ back = rest := by simpa [RunUnit.text] using whole
    exact nextPiece_run rfl (by simp)

theorem nextPiece_of_line {c : Char} {rest back : List Char} {doc : Bool} {text : String}
    (whole : text.toList ++ back = c :: rest) (line : LineText doc text.toList)
    (stop : ∀ c, back.head? = some c → isLineBreak c) :
    nextPiece c rest = (.stretch (lineSort doc) text, back) := by
  obtain ⟨inner, slashes⟩ := line.slashes
  rw [← slashes] at whole line
  obtain ⟨rfl, rfl⟩ : '/' = c ∧ '/' :: (inner ++ back) = rest := by simpa using whole
  have cut : cutLine ('/' :: '/' :: (inner ++ back)) = ('/' :: '/' :: inner, back) ∧
      (doc ↔ (inner ++ back).head? = some '/') := lineText_iff.mp ⟨rfl, line, stop⟩
  have written : String.ofList ('/' :: '/' :: inner) = text := by
    have same := congrArg String.ofList slashes
    rwa [String.ofList_toList] at same
  rw [nextPiece_line cut.2, cut.1, toStretch, written]

theorem nextPiece_of_block {c : Char} {rest back : List Char} {doc : Bool} {text : String}
    (whole : text.toList ++ back = c :: rest) (block : BlockText doc text.toList)
    (ends : back = [] ∨ Closed text.toList) :
    nextPiece c rest = (.stretch (blockSort doc) text, back) := by
  obtain ⟨inner, opening⟩ := block.opening
  rw [← opening] at whole block ends
  obtain ⟨rfl, rfl⟩ : '/' = c ∧ '*' :: (inner ++ back) = rest := by simpa using whole
  have cut : cutBlock ('/' :: '*' :: (inner ++ back)) = ('/' :: '*' :: inner, back) ∧
      (doc ↔ ['*'] <+: inner ++ back ∧ ¬ ['*', '/'] <+: inner ++ back) :=
    blockText_iff.mp ⟨rfl, block, ends⟩
  have written : String.ofList ('/' :: '*' :: inner) = text := by
    have same := congrArg String.ofList opening
    rwa [String.ofList_toList] at same
  rw [nextPiece_block cut.2, cut.1, toStretch, written]

/-- A single well-formed piece that ends before the rest of a text is what is cut off it. -/
theorem nextPiece_of_source {c : Char} {rest back : List Char} {piece : Piece}
    (whole : piece.source.toList ++ back = c :: rest) (single : piece.Single) (wellFormed : piece.WellFormed)
    (ends : piece.EndsBefore back) : nextPiece c rest = (piece, back) := by
  cases piece with
  | run unit count =>
    obtain rfl : count = 1 := single
    rw [Piece.source_one] at whole
    exact nextPiece_of_run whole ends
  | stretch sort text =>
    change text.toList ++ back = c :: rest at whole
    cases sort with
    | lineComment => exact nextPiece_of_line whole wellFormed ends
    | docLineComment => exact nextPiece_of_line whole wellFormed ends
    | blockComment => exact nextPiece_of_block whole wellFormed ends
    | docBlockComment => exact nextPiece_of_block whole wellFormed ends
    | unexpected =>
      obtain ⟨cut, plain⟩ := unexpectedText_iff.mp ⟨whole, wellFormed, ends.1, ends.2⟩
      rw [nextPiece_unexpected plain, cut, toStretch, String.ofList_toList]

/-- The piece that is cut off a text is the single well-formed one that is written at its front and
ends before the rest. -/
theorem nextPiece_eq_iff {c : Char} {rest back : List Char} {piece : Piece} :
    nextPiece c rest = (piece, back) ↔
      piece.source.toList ++ back = c :: rest ∧ piece.Single ∧ piece.WellFormed ∧ piece.EndsBefore back := by
  constructor
  · intro cut
    have whole := source_nextPiece c rest
    have spec := nextPiece_spec c rest
    rw [cut] at whole spec
    exact ⟨whole, spec⟩
  · rintro ⟨whole, single, wellFormed, ends⟩
    exact nextPiece_of_source whole single wellFormed ends

end LosslessSyntax.Trivia
