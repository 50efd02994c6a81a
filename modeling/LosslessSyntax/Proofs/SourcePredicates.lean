import LosslessSyntax.Proofs.ByteScan
import LosslessSyntax.Proofs.CanonicalTrivia

/-!
# Comments and line breaks of a text

What trivia says of its pieces, said of the text that it was read from: whether there is a comment is seen
from two characters in a row, and a line break counts unless it stands inside a block comment. The main
statement is `predicates_parse`. Pieces are found by the character they hold (`exists_piece_at`), and their
canonical form says what else they hold.
-/

namespace LosslessSyntax.Trivia

/-- Whether the piece is a block comment, for documentation or not. -/
def Piece.isBlockComment : Piece → Bool
  | .stretch .blockComment _ | .stretch .docBlockComment _ => true
  | .stretch _ _ | .run _ _ => false

/-- The byte position lies in the span of the piece: behind the pieces before it, and before its end. -/
def Covers (trivia : Trivia) (piece : Piece) (pos : Nat) : Prop :=
  ∃ before after, trivia.toList = before ++ piece :: after ∧
    Text.totalLen Piece.textLen before ≤ pos ∧ pos < Text.totalLen Piece.textLen before + piece.textLen

/-- Each character of a text stands in one of its pieces. -/
theorem exists_piece_at {pieces : List Piece} {front back : List Char} {c : Char}
    (whole : pieces.flatMap (·.source.toList) = front ++ c :: back) :
    ∃ before piece after inner rest, pieces = before ++ piece :: after ∧
      piece.source.toList = inner ++ c :: rest ∧ front = before.flatMap (·.source.toList) ++ inner ∧
      back = rest ++ after.flatMap (·.source.toList) := by
  induction pieces generalizing front with
  | nil => simp at whole
  | cons piece pieces ih =>
    -- the character stands in a later piece, unless the front part ends inside the first one
    have later (front' : List Char) (tail : pieces.flatMap (·.source.toList) = front' ++ c :: back)
        (same : front = piece.source.toList ++ front') : ∃ before piece' after inner rest,
          piece :: pieces = before ++ piece' :: after ∧ piece'.source.toList = inner ++ c :: rest ∧
          front = before.flatMap (·.source.toList) ++ inner ∧
          back = rest ++ after.flatMap (·.source.toList) := by
      obtain ⟨before, piece', after, inner, rest, rfl, inside, rfl, rfl⟩ := ih tail
      exact ⟨piece :: before, piece', after, inner, rest, rfl, inside, by rw [same]; simp, rfl⟩
    rw [List.flatMap_cons] at whole
    rcases List.append_eq_append_iff.mp whole with ⟨front', same, tail⟩ | ⟨middle, inside, tail⟩
    · exact later front' tail same
    · cases middle with
      | nil => exact later [] tail.symm (by simpa using inside.symm)
      | cons d rest =>
        obtain ⟨rfl, rfl⟩ := List.cons_eq_cons.mp tail
        exact ⟨[], piece, pieces, front, rest, rfl, inside, rfl, rfl⟩

/-- Spans do not overlap. -/
theorem Covers.unique {trivia : Trivia} {piece piece' : Piece} {pos : Nat} (covers : trivia.Covers piece pos)
    (covers' : trivia.Covers piece' pos) : piece = piece' := by
  obtain ⟨before, after, whole, start, stop⟩ := covers
  obtain ⟨before', after', whole', start', stop'⟩ := covers'
  have same : before ++ piece :: after = before' ++ piece' :: after' := whole.symm.trans whole'
  clear whole whole'
  induction before generalizing before' pos with
  | nil =>
    cases before' with
    | nil => exact (List.cons_eq_cons.mp same).1
    | cons first before' =>
      obtain ⟨rfl, _⟩ := List.cons_eq_cons.mp same
      simp only [Text.totalLen_nil, Text.totalLen_cons] at start stop start' stop'
      omega
  | cons first before ih =>
    cases before' with
    | nil =>
      obtain ⟨rfl, _⟩ := List.cons_eq_cons.mp same
      simp only [Text.totalLen_nil, Text.totalLen_cons] at start stop start' stop'
      omega
    | cons first' before' =>
      obtain ⟨rfl, others⟩ := List.cons_eq_cons.mp same
      simp only [Text.totalLen_cons] at start stop start' stop'
      have start : Text.totalLen Piece.textLen before ≤ pos - first.textLen := by omega
      exact ih start (by omega) before' (by omega) (by omega) others

theorem totalLen_eq_utf8ByteSize (pieces : List Piece) :
    Text.totalLen Piece.textLen pieces = (String.ofList (pieces.flatMap (·.source.toList))).utf8ByteSize := by
  have whole := textLen_eq ⟨pieces.toArray⟩
  rw [← String.ofList_toList (s := source _), source, String.toList_join, List.flatMap_map] at whole
  exact whole

/-- The piece that a character stands in covers the position of the character. -/
theorem covers_of_split {trivia : Trivia} {before after : List Piece} {piece : Piece} {inner rest : List Char}
    {c : Char} (pieces : trivia.toList = before ++ piece :: after)
    (inside : piece.source.toList = inner ++ c :: rest) :
    trivia.Covers piece (String.ofList (before.flatMap (·.source.toList) ++ inner)).utf8ByteSize := by
  have length : piece.textLen =
      (String.ofList inner).utf8ByteSize + (c.utf8Size + (String.ofList rest).utf8ByteSize) := by
    rw [piece.textLen_eq, ← String.ofList_toList (s := piece.source), inside, String.ofList_append,
      String.utf8ByteSize_append, utf8ByteSize_cons]
  have wide : 0 < c.utf8Size := c.utf8Size_pos
  refine ⟨before, after, pieces, ?_, ?_⟩
  all_goals
    rw [totalLen_eq_utf8ByteSize, String.ofList_append, String.utf8ByteSize_append]
    omega

/-- Pieces read from a text make it up. -/
theorem flatMap_parse (text : String) : (parse text).toList.flatMap (·.source.toList) = text.toList := by
  have whole : (parse text).source.toList = text.toList := by rw [source_parse]
  rwa [source, String.toList_join, List.flatMap_map] at whole

theorem mem_runChars_of_isLineBreak {c : Char} (break_ : isLineBreak c) : c ∈ runChars := by
  have either : c = '\n' ∨ c = '\r' := by simpa [isLineBreak] using break_
  rcases either with rfl | rfl <;> decide

/-- A unit ends a line when it has a line break in it. -/
theorem RunUnit.isNewline_eq_any (unit : RunUnit) : unit.isNewline = unit.text.toList.any isLineBreak := by
  cases unit <;> decide

theorem Piece.mem_text_of_run {unit : RunUnit} {count : UInt32} {c : Char}
    (member : c ∈ (Piece.run unit count).source.toList) : c ∈ unit.text.toList := by
  rw [Piece.source, String.toList_join, List.mem_flatMap] at member
  obtain ⟨text, repeated, inside⟩ := member
  rwa [List.eq_of_mem_replicate repeated] at inside

/-- A line break stands in a run of line breaks or in a block comment. -/
theorem Piece.isNewline_of_mem {piece : Piece} (wellFormed : piece.WellFormed) (plain : ¬ piece.isBlockComment)
    {c : Char} (member : c ∈ piece.source.toList) (break_ : isLineBreak c) : piece.isNewline := by
  cases piece with
  | run unit count =>
    rw [Piece.isNewline, RunUnit.isNewline_eq_any]
    exact List.any_eq_true.mpr ⟨c, mem_text_of_run member, break_⟩
  | stretch sort text =>
    cases sort with
    | lineComment | docLineComment => exact absurd break_ (LineText.noBreak wellFormed c member)
    | blockComment | docBlockComment => exact absurd rfl plain
    | unexpected => exact absurd (mem_runChars_of_isLineBreak break_) (UnexpectedText.noRun wellFormed c member)

/-- A run of line breaks begins with one. -/
theorem Piece.exists_break {piece : Piece} (wellFormed : piece.WellFormed) (newline : piece.isNewline) :
    ∃ c rest, piece.source.toList = c :: rest ∧ isLineBreak c := by
  cases piece with
  | run unit count =>
    obtain ⟨c, rest, whole, _, break_, _⟩ := head_run wellFormed []
    rw [List.append_nil] at whole
    exact ⟨c, rest, whole, break_.mpr newline⟩
  | stretch sort text => cases newline

/-- Trivia has a run of line breaks exactly when a line break of its text stands outside the block comments. -/
theorem hasNewline_parse_iff {text : String} : (parse text).hasNewline ↔
    ∃ front c back, front ++ String.singleton c ++ back = text ∧ isLineBreak c ∧
      ¬ ∃ piece, piece.isBlockComment ∧ (parse text).Covers piece front.utf8ByteSize := by
  have wellFormed := (canonical_parse text).wellFormed
  constructor
  · intro newline
    obtain ⟨piece, member, newline⟩ := List.any_eq_true.mp newline
    obtain ⟨before, after, pieces⟩ := List.append_of_mem member
    obtain ⟨c, rest, inside, break_⟩ := Piece.exists_break (wellFormed piece member) newline
    have atStart : piece.source.toList = [] ++ c :: rest := inside
    have covers := covers_of_split pieces atStart
    rw [List.append_nil] at covers
    refine ⟨.ofList (before.flatMap (·.source.toList)), c, .ofList (rest ++ after.flatMap (·.source.toList)),
      ?_, break_, ?_⟩
    · rw [← String.toList_inj, ← flatMap_parse text, pieces]
      simp [inside]
    · rintro ⟨other, block, covers'⟩
      obtain rfl := covers.unique covers'
      cases piece with
      | run unit count => cases block
      | stretch sort text => cases newline
  · rintro ⟨front, c, back, whole, break_, outside⟩
    have characters : (parse text).toList.flatMap (·.source.toList) = front.toList ++ c :: back.toList := by
      rw [flatMap_parse, ← whole]
      simp
    obtain ⟨before, piece, after, inner, rest, pieces, inside, start, _⟩ := exists_piece_at characters
    have covers := covers_of_split pieces inside
    rw [← start, String.ofList_toList] at covers
    have member : piece ∈ (parse text).toList := by simp [pieces]
    have within : c ∈ piece.source.toList := by simp [inside]
    have plain : ¬ piece.isBlockComment := fun block => outside ⟨piece, block, covers⟩
    exact List.any_eq_true.mpr ⟨piece, member, Piece.isNewline_of_mem (wellFormed piece member) plain within break_⟩

/-- The text of a piece that is read stands somewhere in the text. -/
theorem infix_of_mem_parse {text : String} {piece : Piece} (member : piece ∈ (parse text).toList) :
    piece.source.toList <:+: text.toList := by
  rw [← flatMap_parse text]
  obtain ⟨before, after, pieces⟩ := List.append_of_mem member
  rw [pieces]
  exact ⟨before.flatMap (·.source.toList), after.flatMap (·.source.toList), by simp⟩

/-- A comment begins with two slashes, or with a slash and a star. -/
theorem Piece.opening_of_isComment {piece : Piece} (wellFormed : piece.WellFormed) (comment : piece.isComment) :
    ['/', '/'] <+: piece.source.toList ∨ ['/', '*'] <+: piece.source.toList := by
  cases piece with
  | run unit count => cases comment
  | stretch sort text =>
    cases sort with
    | lineComment | docLineComment => exact .inl (LineText.slashes wellFormed)
    | blockComment | docBlockComment => exact .inr (BlockText.opening wellFormed)
    | unexpected => cases comment

theorem Piece.opening_of_isBlockComment {piece : Piece} (wellFormed : piece.WellFormed)
    (block : piece.isBlockComment) : ['/', '*'] <+: piece.source.toList := by
  cases piece with
  | run unit count => cases block
  | stretch sort text =>
    cases sort with
    | blockComment | docBlockComment => exact BlockText.opening wellFormed
    | lineComment | docLineComment | unexpected => cases block

theorem slash_not_mem_text (unit : RunUnit) : '/' ∉ unit.text.toList := by
  cases unit <;> decide

/-- Where two characters could open a comment there is one, since unexpected text neither holds both of them
nor stops between them. -/
theorem exists_comment_of_pair {text : String} {second : Char} (opens : second = '/' ∨ second = '*')
    (pair : ['/', second] <:+: text.toList) : ∃ piece ∈ (parse text).toList, piece.isComment := by
  have canonical := canonical_parse text
  obtain ⟨front, back, whole⟩ := pair
  have characters : (parse text).toList.flatMap (·.source.toList) = front ++ '/' :: second :: back := by
    rw [flatMap_parse, ← whole]
    simp
  obtain ⟨before, piece, after, inner, rest, pieces, inside, _, behind⟩ := exists_piece_at characters
  rw [pieces] at canonical ⊢
  have wellFormed : piece.WellFormed := canonical.wellFormed piece (by simp)
  cases piece with
  | run unit count =>
    have slash : '/' ∈ (Piece.run unit count).source.toList := by simp [inside]
    exact absurd (Piece.mem_text_of_run slash) (slash_not_mem_text unit)
  | stretch sort body =>
    by_cases comment : sort.isComment
    · exact ⟨.stretch sort body, by simp, comment⟩
    obtain rfl := eq_unexpected comment
    cases rest with
    | cons d rest =>
      -- both characters stand in the unexpected text
      obtain ⟨rfl, _⟩ := List.cons_eq_cons.mp behind
      have both : ['/', second] <:+: body.toList := ⟨inner, rest, by simpa [Piece.source] using inside.symm⟩
      rcases opens with rfl | rfl
      · exact absurd both (UnexpectedText.noLine wellFormed)
      · exact absurd both (UnexpectedText.noBlock wellFormed)
    | nil =>
      -- the second one begins the next piece
      cases after with
      | nil => cases behind
      | cons next after =>
        obtain ⟨_, tail, _⟩ := List.isChain_append.mp canonical.precedes
        have precedes := (List.isChain_cons_cons.mp tail).1
        have wellFormed' : next.WellFormed := canonical.wellFormed next (by simp)
        refine ⟨next, by simp, ?_⟩
        cases next with
        | run unit count =>
          obtain ⟨c, more, begins, run, _⟩ := Piece.head_run wellFormed' (after.flatMap (·.source.toList))
          rw [List.nil_append, List.flatMap_cons, begins] at behind
          obtain ⟨rfl, _⟩ := List.cons_eq_cons.mp behind
          rcases opens with rfl | rfl <;> exact absurd run (by decide)
        | stretch sort' body' => exact precedes.1

theorem hasComment_parse_iff {text : String} :
    (parse text).hasComment ↔ ['/', '/'] <:+: text.toList ∨ ['/', '*'] <:+: text.toList := by
  rw [hasComment, List.any_eq_true]
  constructor
  · rintro ⟨piece, member, comment⟩
    have inside := infix_of_mem_parse member
    have wellFormed := (canonical_parse text).wellFormed piece member
    exact (Piece.opening_of_isComment wellFormed comment).imp (·.isInfix.trans inside) (·.isInfix.trans inside)
  · rintro (line | block)
    · exact exists_comment_of_pair (.inl rfl) line
    · exact exists_comment_of_pair (.inr rfl) block

/-- Trivia has a comment exactly when a slash stands before a slash or a star in its text. It has a line break
exactly when one stands in its text outside the spans of the block comments; without an opening of a block
comment, that is when one stands anywhere in the text. -/
theorem predicates_parse (text : String) :
    ((parse text).hasComment ↔ ['/', '/'] <:+: text.toList ∨ ['/', '*'] <:+: text.toList) ∧
      ((parse text).hasNewline ↔ ∃ front c back, front ++ String.singleton c ++ back = text ∧ isLineBreak c ∧
        ¬ ∃ piece, piece.isBlockComment ∧ (parse text).Covers piece front.utf8ByteSize) ∧
      (¬ ['/', '*'] <:+: text.toList → ((parse text).hasNewline ↔ ∃ c ∈ text.toList, isLineBreak c)) := by
  refine ⟨hasComment_parse_iff, hasNewline_parse_iff, fun noBlock => ?_⟩
  rw [hasNewline_parse_iff]
  constructor
  · rintro ⟨front, c, back, rfl, break_, _⟩
    exact ⟨c, by simp, break_⟩
  · rintro ⟨c, member, break_⟩
    obtain ⟨front, back, whole⟩ := List.append_of_mem member
    refine ⟨.ofList front, c, .ofList back, by simp [← String.toList_inj, whole], break_, ?_⟩
    rintro ⟨piece, block, before, after, pieces, _⟩
    have member : piece ∈ (parse text).toList := by simp [pieces]
    have opening := Piece.opening_of_isBlockComment ((canonical_parse text).wellFormed piece member) block
    exact noBlock (opening.isInfix.trans (infix_of_mem_parse member))

/-- A carriage return is a line break also where stray slashes stand around it. -/
theorem predicates_parse_slashes :
    ¬ ['/', '*'] <:+: "*/\r/é/".toList ∧ (parse "*/\r/é/").hasNewline ∧ ¬ (parse "*/\r/é/").hasComment := by
  have noBlock : ¬ ['/', '*'] <:+: "*/\r/é/".toList := by decide
  obtain ⟨comment, _, newline⟩ := predicates_parse "*/\r/é/"
  have noOpening : ¬ (['/', '/'] <:+: "*/\r/é/".toList ∨ ['/', '*'] <:+: "*/\r/é/".toList) := by decide
  exact ⟨noBlock, (newline noBlock).mpr ⟨'\r', by decide, rfl⟩, fun has => noOpening (comment.mp has)⟩

end LosslessSyntax.Trivia
