import LosslessSyntax.Text.Interner
import LosslessSyntax.Trivia.Scan

/-!
# Splitting trivia by byte counts

The same splitting with all that could go wrong kept: text is cut at byte positions, which may miss the ends of
characters, the depth of a block comment is counted down, the loop need not end, and the text of a comment is
interned, which panics where its shard is full. What fails says which of these it was.
-/

namespace LosslessSyntax.Trivia

/-- A text cut after a number of bytes, unless that is inside a character or past the end. -/
def cutAt? (text : String) (bytes : Nat) : Option (String × String) :=
  (text.pos? ⟨bytes⟩).map fun pos => ((text.sliceTo pos).copy, (text.sliceFrom pos).copy)

def utf8 (text : String) : List UInt8 := text.toByteArray.data.toList

/-- The characters of a text with the byte positions at which they begin. -/
def charIndices (start : Nat) : List Char → List (Nat × Char)
  | [] => []
  | c :: rest => (start, c) :: charIndices (start + c.utf8Size) rest

/-- The number of bytes before the first line break. -/
def lineLen (text : String) : Nat :=
  (((charIndices 0 text.toList).find? (isLineBreak ·.2)).map (·.1)).getD text.utf8ByteSize

/-- The number of bytes up to the end of a block comment, `pos` of them behind, where `depth` comments
are open. There is no answer when one is closed while none is open. -/
def blockLen? (depth pos : Nat) : List UInt8 → Option Nat
  -- 47 is the slash and 42 the star
  | 47 :: 42 :: rest => blockLen? (depth + 1) (pos + 2) rest
  | 42 :: 47 :: rest =>
    match depth with
    | 0 => none
    | 1 => some (pos + 2)
    | further + 2 => blockLen? (further + 1) (pos + 2) rest
  | _ :: rest => blockLen? depth (pos + 1) rest
  | [] => some pos

/-- Whether a piece other than unexpected text begins in front of `text`, of which `first` is the first
character. -/
def startsTrivia (text : String) (first : Char) : Bool :=
  if first = '/' then ['/', '/'] <+: text.toList ∨ ['/', '*'] <+: text.toList
  else (RunUnit.ofChar? first).isSome

/-- The first of the given positions at which a piece begins, or else the end of the text. -/
def firstStart? (text : String) : List (Nat × Char) → Option Nat
  | [] => some text.utf8ByteSize
  | (pos, c) :: more => do
    let (_, rest) ← cutAt? text pos
    if startsTrivia rest c then some pos else firstStart? text more

/-- The number of bytes up to the next piece that begins after the first character. -/
def unexpectedLen? (text : String) : Option Nat := do
  let start := (text.toList.head?.map Char.utf8Size).getD 0
  let (_, rest) ← cutAt? text start
  firstStart? text (charIndices start rest.toList)

/-- Why splitting stops without an answer. -/
inductive Fault where
  /-- A cut is inside a character or past the end. -/
  | cut
  /-- A comment is closed while none is open. -/
  | depth
  /-- The text of a piece is new and its shard has no slot left. -/
  | full (overflow : Text.ShardOverflow)
  deriving DecidableEq

/-- One piece of trivia as it is stored, with the name of its text. -/
inductive NamedPiece where
  | run (unit : RunUnit) (count : UInt32)
  | stretch (sort : TextSort) (name : Text.Name)
  deriving DecidableEq

namespace NamedPiece

/-- Two runs of one unit as a single run, unless the count would not fit. -/
def merge? : NamedPiece → NamedPiece → Option NamedPiece
  | .run unit count, .run unit' count' =>
    if unit = unit' ∧ count.toNat + count'.toNat < UInt32.size then some (.run unit (count + count'))
    else none
  | _, _ => none

/-- A piece added at the end; it joins the last run where it continues it. -/
def push (pieces : List NamedPiece) (piece : NamedPiece) : List NamedPiece :=
  match pieces.getLast? with
  | none => [piece]
  | some last =>
    match last.merge? piece with
    | some merged => pieces.dropLast ++ [merged]
    | none => pieces ++ [piece]

/-- The piece with its text. There is none where the name stands for no text. -/
def piece? (interner : Text.Interner) : NamedPiece → Option Piece
  | .run unit count => some (.run unit count)
  | .stretch sort name => (interner.lookup? name).map (.stretch sort)

/-- The trivia with its texts. There is none where a name stands for no text. -/
def trivia? (interner : Text.Interner) (pieces : List NamedPiece) : Option Trivia :=
  (pieces.mapM (piece? interner)).map fun pieces => ⟨pieces.toArray⟩

end NamedPiece

section Loop

variable (choose : String → Fin Text.Name.shardCount)

/-- A stretch of the given sort and length at the front of a text, with its length and the interner that knows
its text. -/
def stretch (interner : Text.Interner) (text : String) (sort : TextSort) (len : Nat) :
    Except Fault (NamedPiece × Nat × Text.Interner) :=
  match cutAt? text len with
  | none => .error .cut
  | some (body, _) =>
    match interner.intern choose body with
    | .ok (name, after) => .ok (.stretch sort name, len, after)
    | .error overflow => .error (.full overflow)

/-- The first piece of a text that begins with `first`, the number of bytes it takes, and the interner
afterwards. -/
def turn (interner : Text.Interner) (text : String) (first : Char) :
    Except Fault (NamedPiece × Nat × Text.Interner) :=
  if first = '\r' ∧ ['\r', '\n'] <+: text.toList then
    .ok (.run .carriageReturnLineFeed 1, 2, interner)
  else
    match RunUnit.ofChar? first with
    | some unit => .ok (.run unit 1, 1, interner)
    | none =>
      if first = '/' ∧ ['/', '/'] <+: text.toList then
        let doc := decide (['/', '/', '/'] <+: text.toList)
        stretch choose interner text (if doc then .docLineComment else .lineComment) (lineLen text)
      else if first = '/' ∧ ['/', '*'] <+: text.toList then
        let doc := decide (['/', '*', '*'] <+: text.toList ∧ ¬ ['/', '*', '*', '/'] <+: text.toList)
        match blockLen? 0 0 (utf8 text) with
        | some len => stretch choose interner text (if doc then .docBlockComment else .blockComment) len
        | none => .error .depth
      else
        match unexpectedLen? text with
        | some len => stretch choose interner text .unexpected len
        | none => .error .cut

/-- The loop over a text, which pushes one piece each turn and ends where no text is left, or with the fault of
a turn or a cut. It has no end when the turns never stop. -/
inductive Ends : Text.Interner → List NamedPiece → String → Except Fault (List NamedPiece × Text.Interner) → Prop
  | done {interner : Text.Interner} {pieces : List NamedPiece} {text : String} : text.toList.head? = none →
    Ends interner pieces text (.ok (pieces, interner))
  | turn {interner after : Text.Interner} {pieces : List NamedPiece} {text taken rest : String} {first : Char}
    {piece : NamedPiece} {consumed : Nat} {outcome : Except Fault (List NamedPiece × Text.Interner)} :
    text.toList.head? = some first → turn choose interner text first = .ok (piece, consumed, after) →
    cutAt? text consumed = some (taken, rest) → Ends after (NamedPiece.push pieces piece) rest outcome →
    Ends interner pieces text outcome
  | turnFails {interner : Text.Interner} {pieces : List NamedPiece} {text : String} {first : Char} {fault : Fault} :
    text.toList.head? = some first → turn choose interner text first = .error fault →
    Ends interner pieces text (.error fault)
  | cutFails {interner after : Text.Interner} {pieces : List NamedPiece} {text : String} {first : Char}
    {piece : NamedPiece} {consumed : Nat} :
    text.toList.head? = some first → turn choose interner text first = .ok (piece, consumed, after) →
    cutAt? text consumed = none → Ends interner pieces text (.error .cut)

end Loop

end LosslessSyntax.Trivia
