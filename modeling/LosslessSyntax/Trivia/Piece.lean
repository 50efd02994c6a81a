import LosslessSyntax.Text.Basic

/-!
# Pieces of trivia

Trivia is the source text between tokens that the grammar does not see. A piece is either a run of
one repeated unit, kept as a count of 32 bits, or a stretch of text: a comment, or text that
belongs to no token.
-/

namespace LosslessSyntax.Trivia

/-- What a run repeats. A carriage return with a line feed counts as one unit. -/
inductive RunUnit where
  | space | tab | verticalTab | formFeed | newline | carriageReturn | carriageReturnLineFeed
  | backslash | pound
  deriving DecidableEq

/-- The sorts of stretches of text. -/
inductive TextSort where
  | lineComment | blockComment | docLineComment | docBlockComment | unexpected
  deriving DecidableEq

/-- One piece of trivia. -/
inductive Piece where
  | run (unit : RunUnit) (count : UInt32)
  | stretch (sort : TextSort) (text : String)
  deriving DecidableEq

namespace RunUnit

/-- Every unit, in numbering order. -/
def all : List RunUnit :=
  [.space, .tab, .verticalTab, .formFeed, .newline, .carriageReturn, .carriageReturnLineFeed,
    .backslash, .pound]

def name : RunUnit → String
  | .space => "Spaces"
  | .tab => "Tabs"
  | .verticalTab => "VerticalTabs"
  | .formFeed => "Formfeeds"
  | .newline => "Newlines"
  | .carriageReturn => "CarriageReturns"
  | .carriageReturnLineFeed => "CarriageReturnLineFeeds"
  | .backslash => "Backslashes"
  | .pound => "Pounds"

def text : RunUnit → String
  | .space => " "
  | .tab => "\t"
  | .verticalTab => "\x0b"
  | .formFeed => "\x0c"
  | .newline => "\n"
  | .carriageReturn => "\r"
  | .carriageReturnLineFeed => "\r\n"
  | .backslash => "\\"
  | .pound => "#"

/-- The unit that is one given character. -/
def ofChar? (c : Char) : Option RunUnit :=
  if c = ' ' then some .space
  else if c = '\t' then some .tab
  else if c = '\x0b' then some .verticalTab
  else if c = '\x0c' then some .formFeed
  else if c = '\n' then some .newline
  else if c = '\r' then some .carriageReturn
  else if c = '\\' then some .backslash
  else if c = '#' then some .pound
  else none

/-- Whether the unit ends a line. -/
def isNewline : RunUnit → Bool
  | .newline | .carriageReturn | .carriageReturnLineFeed => true
  | _ => false

def isWhitespace : RunUnit → Bool
  | .backslash | .pound => false
  | _ => true

/-- A unit found for a character is written as that character. -/
theorem text_ofChar? {c : Char} {unit : RunUnit} (h : ofChar? c = some unit) :
    unit.text = c.toString := by
  unfold ofChar? at h
  repeat' split at h
  all_goals simp_all
  all_goals (subst h; rfl)

end RunUnit

namespace TextSort

/-- Every sort, in numbering order. -/
def all : List TextSort :=
  [.lineComment, .blockComment, .docLineComment, .docBlockComment, .unexpected]

def name : TextSort → String
  | .lineComment => "LineComment"
  | .blockComment => "BlockComment"
  | .docLineComment => "DocLineComment"
  | .docBlockComment => "DocBlockComment"
  | .unexpected => "UnexpectedText"

/-- Whether the stretch is a comment of any kind. -/
def isComment : TextSort → Bool
  | .unexpected => false
  | _ => true

/-- Whether the stretch documents what follows it. -/
def isDocComment : TextSort → Bool
  | .docLineComment | .docBlockComment => true
  | _ => false

end TextSort

namespace Piece

def source : Piece → String
  | .run unit count => String.join (List.replicate count.toNat unit.text)
  | .stretch _ text => text

/-- The byte length of a piece, found without writing it out. -/
def textLen : Piece → Nat
  | .run unit count => unit.text.utf8ByteSize * count.toNat
  | .stretch _ text => text.utf8ByteSize

/-- Whether the piece is a run of line breaks. -/
def isNewline : Piece → Bool
  | .run unit _ => unit.isNewline
  | .stretch _ _ => false

def isComment : Piece → Bool
  | .run _ _ => false
  | .stretch sort _ => sort.isComment

def isDocComment : Piece → Bool
  | .run _ _ => false
  | .stretch sort _ => sort.isDocComment

/-- Whether the piece is blank, line breaks included. -/
def isWhitespace : Piece → Bool
  | .run unit _ => unit.isWhitespace
  | .stretch _ _ => false

/-- Two runs of one unit as a single run, unless the count would not fit. -/
def merge? : Piece → Piece → Option Piece
  | .run unit count, .run unit' count' =>
    if unit = unit' ∧ count.toNat + count'.toNat < UInt32.size then
      some (.run unit (count + count'))
    else
      none
  | _, _ => none

def inspect : Piece → String
  | .run unit count => unit.name ++ "(" ++ toString count.toNat ++ ")"
  | .stretch sort text => sort.name ++ "(" ++ Text.quote text ++ ")"

/-- A merged run reads like the runs it was made from. -/
theorem source_merge {a b merged : Piece} (h : a.merge? b = some merged) :
    merged.source = a.source ++ b.source := by
  rcases a with ⟨unit, m⟩ | _ <;> rcases b with ⟨unit', n⟩ | _ <;>
    simp only [merge?, reduceCtorEq] at h
  split at h
  case isTrue fit =>
    obtain ⟨rfl, small⟩ := fit
    rw [← Option.some.inj h]
    simp only [source, UInt32.toNat_add, Nat.mod_eq_of_lt small]
    rw [← List.replicate_append_replicate, String.join_append]
  case isFalse => simp at h

/-- A merged run is as long as the runs it was made from. -/
theorem textLen_merge {a b merged : Piece} (h : a.merge? b = some merged) :
    merged.textLen = a.textLen + b.textLen := by
  rcases a with ⟨unit, m⟩ | _ <;> rcases b with ⟨unit', n⟩ | _ <;>
    simp only [merge?, reduceCtorEq] at h
  split at h
  case isTrue fit =>
    obtain ⟨rfl, small⟩ := fit
    rw [← Option.some.inj h]
    simp only [textLen, UInt32.toNat_add, Nat.mod_eq_of_lt small, Nat.mul_add]
  case isFalse => simp at h

theorem utf8ByteSize_join_replicate (unit : String) (n : Nat) :
    (String.join (List.replicate n unit)).utf8ByteSize = unit.utf8ByteSize * n := by
  induction n with
  | zero => simp [String.join]
  | succ n ih =>
    rw [List.replicate_succ, String.join_cons, String.utf8ByteSize_append, ih, Nat.mul_succ,
      Nat.add_comm]

/-- The length found without writing the piece out is the length of its source. -/
theorem textLen_eq (piece : Piece) : piece.textLen = piece.source.utf8ByteSize := by
  cases piece with
  | run unit count => exact (utf8ByteSize_join_replicate unit.text count.toNat).symm
  | stretch sort text => rfl

theorem source_one (unit : RunUnit) : (Piece.run unit 1).source = unit.text := by
  simp [source, String.join]

end Piece

end LosslessSyntax.Trivia
