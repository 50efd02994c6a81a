import LosslessSyntax.Trivia.Piece

/-!
# Trivia

The pieces on one side of a token, in source order. Pushing a piece that repeats the unit of the
last run lengthens that run, so text that is pushed bit by bit ends up as few pieces.
-/

namespace LosslessSyntax

/-- The trivia on one side of a token. -/
structure Trivia where
  pieces : Array Trivia.Piece
  deriving DecidableEq

namespace Trivia

def empty : Trivia := ⟨#[]⟩

/-- A piece added at the end; it joins the last run where it continues it. -/
def push (trivia : Trivia) (piece : Piece) : Trivia :=
  match trivia.pieces.back? with
  | none => ⟨#[piece]⟩
  | some last =>
    match last.merge? piece with
    | some merged => ⟨trivia.pieces.pop.push merged⟩
    | none => ⟨trivia.pieces.push piece⟩

/-- Pieces pushed one after the other. -/
def ofList (pieces : List Piece) : Trivia := pieces.foldl push empty

def spaces (count : UInt32) : Trivia := ofList [.run .space count]

/-- The pieces in source order. -/
def toList (trivia : Trivia) : List Piece := trivia.pieces.toList

def size (trivia : Trivia) : Nat := trivia.pieces.size

def isEmpty (trivia : Trivia) : Bool := trivia.pieces.isEmpty

/-- The byte length of the source text. -/
def textLen (trivia : Trivia) : Nat := Text.totalLen Piece.textLen trivia.toList

def source (trivia : Trivia) : String := String.join (trivia.toList.map Piece.source)

/-- Whether a piece is a run of line breaks. -/
def hasNewline (trivia : Trivia) : Bool := trivia.toList.any Piece.isNewline

def hasComment (trivia : Trivia) : Bool := trivia.toList.any Piece.isComment

def inspect (trivia : Trivia) : String :=
  "[" ++ ", ".intercalate (trivia.toList.map Piece.inspect) ++ "]"

theorem ext_toList {a b : Trivia} (same : a.toList = b.toList) : a = b := by
  rcases a with ⟨⟨pieces⟩⟩
  rcases b with ⟨⟨pieces'⟩⟩
  obtain rfl : pieces = pieces' := same
  rfl

theorem toList_push (trivia : Trivia) (piece : Piece) :
    (trivia.push piece).toList =
      match trivia.toList.getLast? with
      | none => [piece]
      | some last =>
        match last.merge? piece with
        | some merged => trivia.toList.dropLast ++ [merged]
        | none => trivia.toList ++ [piece] := by
  rcases trivia with ⟨⟨pieces⟩⟩
  simp only [push, toList, List.back?_toArray]
  cases pieces.getLast? with
  | none => rfl
  | some last =>
    dsimp only
    cases last.merge? piece <;> simp

theorem toList_push_merged {trivia : Trivia} {front : List Piece} {last piece merged : Piece}
    (pieces : trivia.toList = front ++ [last]) (merge : last.merge? piece = some merged) :
    (trivia.push piece).toList = front ++ [merged] := by
  simp [toList_push, pieces, merge]

theorem toList_push_apart {trivia : Trivia} {piece : Piece}
    (apart : ∀ last ∈ trivia.toList.getLast?, last.merge? piece = none) :
    (trivia.push piece).toList = trivia.toList ++ [piece] := by
  rw [toList_push]
  cases last : trivia.toList.getLast? with
  | none =>
    rw [List.getLast?_eq_none_iff.mp last]
    rfl
  | some piece' =>
    have apart' : piece'.merge? piece = none := apart piece' (by simp [last])
    simp [apart']

/-- Pushing a piece adds its text at the end. -/
theorem source_push (trivia : Trivia) (piece : Piece) :
    (trivia.push piece).source = trivia.source ++ piece.source := by
  simp only [source, toList_push]
  cases h : trivia.toList.getLast? with
  | none => simp_all
  | some last =>
    obtain ⟨front, eq⟩ := List.getLast?_eq_some_iff.mp h
    cases m : last.merge? piece with
    | none => simp [m]
    | some merged => simp [m, eq, Piece.source_merge m, String.append_assoc]

/-- Pushing a piece adds its length. -/
theorem textLen_push (trivia : Trivia) (piece : Piece) :
    (trivia.push piece).textLen = trivia.textLen + piece.textLen := by
  simp only [textLen, toList_push]
  cases h : trivia.toList.getLast? with
  | none => simp_all
  | some last =>
    obtain ⟨front, eq⟩ := List.getLast?_eq_some_iff.mp h
    cases m : last.merge? piece with
    | none => simp [m]
    | some merged => simp [m, eq, Piece.textLen_merge m, Nat.add_assoc]

/-- The length of trivia is the length of its source. -/
theorem textLen_eq (trivia : Trivia) : trivia.textLen = trivia.source.utf8ByteSize := by
  simp only [textLen, source]
  induction trivia.toList with
  | nil => rfl
  | cons piece rest ih =>
    rw [Text.totalLen_cons, List.map_cons, String.join_cons, String.utf8ByteSize_append, ih,
      piece.textLen_eq]

end Trivia

end LosslessSyntax
