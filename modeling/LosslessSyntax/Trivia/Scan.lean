import LosslessSyntax.Trivia.Basic

/-!
# Splitting trivia

Every text can be read as trivia, and nothing of it is lost: what is neither blank nor a comment
becomes unexpected text. The main function is `parse`; it reads one piece after the other from the
front, and each piece covers at least one character. A line comment ends before the line break. A block
comment holds further block comments and ends where every one of them is closed; if that never happens it
takes the rest of the text.
-/

namespace LosslessSyntax.Trivia

/-- Whether a character breaks the line. -/
def isLineBreak (c : Char) : Bool := c = '\n' || c = '\r'

/-- A text cut before its first line break. -/
def cutLine (text : List Char) : List Char × List Char :=
  (text.takeWhile (!isLineBreak ·), text.dropWhile (!isLineBreak ·))

/-- The number of characters up to the end of a block comment of which `read` characters are
behind and which lies inside `outer` further open ones. -/
def blockEnd (outer read : Nat) : List Char → Nat
  | '/' :: '*' :: rest => blockEnd (outer + 1) (read + 2) rest
  | '*' :: '/' :: rest =>
    match outer with
    | 0 => read + 2
    | further + 1 => blockEnd further (read + 2) rest
  | _ :: rest => blockEnd outer (read + 1) rest
  | [] => read

/-- A text that starts with the opening of a block comment, cut where that comment ends. -/
def cutBlock (text : List Char) : List Char × List Char :=
  let length := blockEnd 0 2 (text.drop 2)
  (text.take length, text.drop length)

theorem cutLine_append (text : List Char) : (cutLine text).1 ++ (cutLine text).2 = text :=
  List.takeWhile_append_dropWhile

theorem cutBlock_append (text : List Char) : (cutBlock text).1 ++ (cutBlock text).2 = text :=
  List.take_append_drop _ text

theorem le_blockEnd (text : List Char) (outer read : Nat) : read ≤ blockEnd outer read text := by
  fun_induction blockEnd outer read text <;> omega

/-- Whether a piece other than unexpected text begins here. -/
def startsPiece : List Char → Bool
  | '/' :: '/' :: _ | '/' :: '*' :: _ => true
  | c :: _ => (RunUnit.ofChar? c).isSome
  | [] => false

/-- The number of characters up to the next piece, `read` of them behind. -/
def unexpectedEnd (read : Nat) : List Char → Nat
  | [] => read
  | c :: rest => if startsPiece (c :: rest) then read else unexpectedEnd (read + 1) rest

/-- A text cut before the first piece that begins after its first character. -/
def cutUnexpected (text : List Char) : List Char × List Char :=
  let length := unexpectedEnd 1 (text.drop 1)
  (text.take length, text.drop length)

/-- A cut text as a piece of the given sort, with what follows it. -/
def toStretch (sort : TextSort) (parts : List Char × List Char) : Piece × List Char :=
  (.stretch sort (String.ofList parts.1), parts.2)

/-- The first piece of the text `c :: rest`, and the text that follows it. -/
def nextPiece (c : Char) (rest : List Char) : Piece × List Char :=
  match c, rest with
  | '\r', '\n' :: after => (.run .carriageReturnLineFeed 1, after)
  | '/', '/' :: '/' :: _ => toStretch .docLineComment (cutLine (c :: rest))
  | '/', '/' :: _ => toStretch .lineComment (cutLine (c :: rest))
  | '/', '*' :: '*' :: '/' :: _ => toStretch .blockComment (cutBlock (c :: rest))
  | '/', '*' :: '*' :: _ => toStretch .docBlockComment (cutBlock (c :: rest))
  | '/', '*' :: _ => toStretch .blockComment (cutBlock (c :: rest))
  | _, _ =>
    match RunUnit.ofChar? c with
    | some unit => (.run unit 1, rest)
    | none => toStretch .unexpected (cutUnexpected (c :: rest))

theorem le_unexpectedEnd (text : List Char) (read : Nat) : read ≤ unexpectedEnd read text := by
  fun_induction unexpectedEnd read text <;> omega

theorem length_dropWhile_le (p : Char → Bool) (text : List Char) :
    (text.dropWhile p).length ≤ text.length :=
  (List.dropWhile_sublist p).length_le

/-- A piece takes at least its first character. -/
theorem length_nextPiece_le (c : Char) (rest : List Char) :
    (nextPiece c rest).2.length ≤ rest.length := by
  have block : (cutBlock (c :: rest)).2.length ≤ rest.length := by
    have := le_blockEnd ((c :: rest).drop 2) 0 2
    simp only [cutBlock, List.length_drop, List.length_cons]
    omega
  have unexpected : (cutUnexpected (c :: rest)).2.length ≤ rest.length := by
    have := le_unexpectedEnd ((c :: rest).drop 1) 1
    simp only [cutUnexpected, List.length_drop, List.length_cons]
    omega
  have line : c = '/' → (cutLine (c :: rest)).2.length ≤ rest.length := by
    rintro rfl
    simpa [cutLine, isLineBreak] using length_dropWhile_le (!isLineBreak ·) rest
  unfold nextPiece
  split <;> simp_all [toStretch]
  split <;> simp_all

/-- The pieces of a text pushed onto trivia read before. -/
def scan (trivia : Trivia) : List Char → Trivia
  | [] => trivia
  | c :: rest => scan (trivia.push (nextPiece c rest).1) (nextPiece c rest).2
  termination_by text => text.length
  decreasing_by exact Nat.lt_succ_of_le (length_nextPiece_le c rest)

/-- The trivia a text consists of. -/
def parse (text : String) : Trivia := scan empty text.toList

theorem cutUnexpected_append (text : List Char) :
    (cutUnexpected text).1 ++ (cutUnexpected text).2 = text :=
  List.take_append_drop _ text

/-- A piece and the text after it make up the text. -/
theorem source_nextPiece (c : Char) (rest : List Char) :
    (nextPiece c rest).1.source.toList ++ (nextPiece c rest).2 = c :: rest := by
  have cut {sort : TextSort} {parts : List Char × List Char} (h : parts.1 ++ parts.2 = c :: rest) :
      (toStretch sort parts).1.source.toList ++ (toStretch sort parts).2 = c :: rest := by
    simpa [toStretch, Piece.source] using h
  unfold nextPiece
  split
  case h_1 => rw [Piece.source_one]; rfl
  case h_2 | h_3 => exact cut (cutLine_append _)
  case h_4 | h_5 | h_6 => exact cut (cutBlock_append _)
  case h_7 =>
    split
    case h_1 unit found => 
      rw [Piece.source_one, RunUnit.text_ofChar? found]
      simp
    case h_2 => exact cut (cutUnexpected_append _)

theorem source_scan (trivia : Trivia) (text : List Char) :
    (scan trivia text).source = trivia.source ++ String.ofList text := by
  fun_induction scan trivia text with
  | case1 => simp
  | case2 trivia c rest ih =>
    rw [ih, source_push, ← source_nextPiece c rest, String.ofList_append,
      String.ofList_toList, String.append_assoc]

/-- Trivia that was read reads back as the text. -/
theorem source_parse (text : String) : (parse text).source = text := by
  rw [parse, source_scan, String.ofList_toList]
  rfl

end LosslessSyntax.Trivia
