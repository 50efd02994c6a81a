import Mathlib.Data.List.Chain
import LosslessSyntax.Proofs.NextPiece

/-!
# Canonical trivia

Which trivia splitting can give: every piece is well formed, and each piece may stand before its
neighbour. `parse_source_iff_canonical` says that this is exactly the trivia that reads back from its
own source, and exactly the trivia that is read from any text.
-/

namespace LosslessSyntax.Trivia

/-- What may stand directly behind a piece: a run does not go on unless its count is full, a carriage
return is not half of a longer unit, a line comment reaches its line break, a block comment with
something behind it is closed, and unexpected text ends only where something else begins. -/
def Piece.Precedes : Piece → Piece → Prop
  | .run unit count, .run unit' _ =>
    (unit = unit' → count.toNat + 1 = UInt32.size) ∧ ¬ (unit = .carriageReturn ∧ unit' = .newline)
  | .run _ _, .stretch _ _ => True
  | .stretch .lineComment _, next | .stretch .docLineComment _, next => next.isNewline
  | .stretch .blockComment text, _ | .stretch .docBlockComment text, _ => Closed text.toList
  | .stretch .unexpected _, .run _ _ => True
  | .stretch .unexpected text, .stretch sort _ => sort.isComment ∧ text.toList.getLast? ≠ some '/'

instance : DecidableRel Piece.Precedes
  | .run unit count, .run unit' _ => inferInstanceAs (Decidable
      ((unit = unit' → count.toNat + 1 = UInt32.size) ∧ ¬ (unit = .carriageReturn ∧ unit' = .newline)))
  | .run _ _, .stretch _ _ => inferInstanceAs (Decidable True)
  | .stretch .lineComment _, next | .stretch .docLineComment _, next =>
    inferInstanceAs (Decidable (next.isNewline = true))
  | .stretch .blockComment text, _ | .stretch .docBlockComment text, _ =>
    inferInstanceAs (Decidable (Closed text.toList))
  | .stretch .unexpected _, .run _ _ => inferInstanceAs (Decidable True)
  | .stretch .unexpected text, .stretch sort _ =>
    inferInstanceAs (Decidable (sort.isComment = true ∧ text.toList.getLast? ≠ some '/'))

/-- Pieces as splitting gives them. -/
structure Canonical (pieces : List Piece) : Prop where
  wellFormed : ∀ piece ∈ pieces, piece.WellFormed
  precedes : pieces.IsChain Piece.Precedes

instance : DecidablePred Canonical := fun pieces =>
  decidable_of_iff (pieces.all (·.WellFormed) ∧ pieces.IsChain Piece.Precedes)
    ⟨fun h => ⟨by simpa using h.1, h.2⟩, fun h => ⟨by simpa using h.wellFormed, h.precedes⟩⟩

theorem Piece.toList_source_run {unit : RunUnit} {count : UInt32} (wellFormed : (Piece.run unit count).WellFormed) :
    ∃ more, (Piece.run unit count).source.toList = unit.text.toList ++ more := by
  obtain ⟨n, size⟩ : ∃ n, count.toNat = n + 1 := Nat.exists_eq_add_of_le' wellFormed
  refine ⟨(List.replicate n unit.text).flatMap String.toList, ?_⟩
  rw [Piece.source, String.toList_join, size, List.replicate_succ, List.flatMap_cons]

/-- A run begins with a character of its own; only a run of line feeds begins with a line feed. -/
theorem Piece.head_run {unit : RunUnit} {count : UInt32} (wellFormed : (Piece.run unit count).WellFormed)
    (after : List Char) :
    ∃ c rest, (Piece.run unit count).source.toList ++ after = c :: rest ∧ c ∈ runChars ∧
      (isLineBreak c ↔ unit.isNewline) ∧ (c = '\n' ↔ unit = .newline) := by
  obtain ⟨more, text⟩ := toList_source_run wellFormed
  rw [text]
  cases unit <;> exact ⟨_, _, rfl, by decide, by decide, by decide⟩

theorem eq_unexpected {sort : TextSort} (noComment : ¬ sort.isComment) : sort = .unexpected := by
  cases sort with
  | unexpected => rfl
  | _ => exact absurd rfl noComment

/-- A comment begins with a slash, and so that a comment begins. -/
theorem Piece.head_comment {sort : TextSort} {text : String} (wellFormed : (Piece.stretch sort text).WellFormed)
    (comment : sort.isComment) (after : List Char) :
    ∃ rest, text.toList ++ after = '/' :: rest ∧ startsPiece ('/' :: rest) := by
  have line {doc : Bool} (line : LineText doc text.toList) :
      ∃ rest, text.toList ++ after = '/' :: rest ∧ startsPiece ('/' :: rest) := by
    obtain ⟨inner, slashes⟩ := line.slashes
    exact ⟨'/' :: (inner ++ after), by rw [← slashes]; rfl, rfl⟩
  have block {doc : Bool} (block : BlockText doc text.toList) :
      ∃ rest, text.toList ++ after = '/' :: rest ∧ startsPiece ('/' :: rest) := by
    obtain ⟨inner, opening⟩ := block.opening
    exact ⟨'*' :: (inner ++ after), by rw [← opening]; rfl, rfl⟩
  cases sort with
  | lineComment | docLineComment => exact line wellFormed
  | blockComment | docBlockComment => exact block wellFormed
  | unexpected => cases comment

/-- Unexpected text that is at its end begins no other piece. -/
theorem Piece.head_unexpected {text : String} {after : List Char}
    (wellFormed : (Piece.stretch .unexpected text).WellFormed)
    (ends : (Piece.stretch .unexpected text).EndsBefore after) :
    ∃ c rest, text.toList ++ after = c :: rest ∧ ¬ startsPiece (c :: rest) := by
  obtain ⟨c, inner, whole⟩ := List.exists_cons_of_ne_nil wellFormed.nonempty
  refine ⟨c, inner ++ after, by rw [whole, List.cons_append], ?_⟩
  have cut : cutUnexpected (c :: (inner ++ after)) = (text.toList, after) ∧ ¬ startsPiece (c :: (inner ++ after)) :=
    unexpectedText_iff.mp ⟨by rw [whole, List.cons_append], wellFormed, ends.1, ends.2⟩
  exact cut.2

/-- A stretch of text begins with no character of a run. -/
theorem Piece.head_stretch {sort : TextSort} {text : String} (wellFormed : (Piece.stretch sort text).WellFormed)
    (after : List Char) : ∃ c rest, text.toList ++ after = c :: rest ∧ c ∉ runChars := by
  by_cases comment : sort.isComment
  · obtain ⟨rest, whole, _⟩ := head_comment wellFormed comment after
    exact ⟨'/', rest, whole, by decide⟩
  · obtain rfl := eq_unexpected comment
    obtain ⟨c, inner, whole⟩ := List.exists_cons_of_ne_nil wellFormed.nonempty
    exact ⟨c, inner ++ after, by rw [whole, List.cons_append], wellFormed.noRun c (by simp [whole])⟩

theorem Piece.exists_cons_source {piece : Piece} (wellFormed : piece.WellFormed) (after : List Char) :
    ∃ c rest, piece.source.toList ++ after = c :: rest := by
  cases piece with
  | run unit count =>
    obtain ⟨c, rest, whole, _⟩ := head_run wellFormed after
    exact ⟨c, rest, whole⟩
  | stretch sort text =>
    obtain ⟨c, rest, whole, _⟩ := head_stretch wellFormed after
    exact ⟨c, rest, whole⟩

/-- Two pieces that are runs of one unit only if the first is full. -/
def Piece.Apart (piece next : Piece) : Prop :=
  ∀ unit count count', piece = .run unit count → next = .run unit count' → count.toNat + 1 = UInt32.size

theorem precedes_of_run {unit : RunUnit} {count : UInt32} {next : Piece} {after : List Char}
    (wellFormed : next.WellFormed) :
    (Piece.run unit count).Precedes next ↔
      (Piece.run unit count).EndsBefore (next.source.toList ++ after) ∧ (Piece.run unit count).Apart next := by
  rw [endsBefore_run]
  cases next with
  | run unit' count' =>
    obtain ⟨c, rest, whole, _, _, feed⟩ := Piece.head_run wellFormed after
    rw [whole]
    constructor
    · rintro ⟨full, pair⟩
      refine ⟨fun return_ head => pair ⟨return_, feed.mp (Option.some.inj head)⟩, ?_⟩
      rintro u m n same next
      cases same
      cases next
      exact full rfl
    · rintro ⟨ends, apart⟩
      refine ⟨?_, fun ⟨return_, feed'⟩ => ends return_ (by rw [feed.mpr feed']; rfl)⟩
      rintro rfl
      exact apart unit count count' rfl rfl
  | stretch sort text =>
    obtain ⟨c, rest, whole, plain⟩ := Piece.head_stretch wellFormed after
    change True ↔ (unit = .carriageReturn → (text.toList ++ after).head? ≠ some '\n') ∧ _
    rw [whole]
    refine iff_of_true trivial ⟨?_, ?_⟩
    · rintro _ head
      cases head
      exact plain (by decide)
    · rintro u m n _ next
      cases next

/-- A line comment ends before a run of line breaks and before nothing else. -/
theorem isNewline_iff_head {next : Piece} {after : List Char} (wellFormed : next.WellFormed) :
    next.isNewline ↔ ∀ c, (next.source.toList ++ after).head? = some c → isLineBreak c := by
  cases next with
  | run unit count =>
    obtain ⟨c, rest, whole, _, break_, _⟩ := Piece.head_run wellFormed after
    rw [whole]
    change unit.isNewline ↔ _
    simp [← break_]
  | stretch sort text =>
    obtain ⟨c, rest, whole, plain⟩ := Piece.head_stretch wellFormed after
    have inLine : ¬ isLineBreak c := by
      intro break_
      have either : c = '\n' ∨ c = '\r' := by simpa [isLineBreak] using break_
      rcases either with rfl | rfl
      · exact plain (by decide)
      · exact plain (by decide)
    change false = true ↔ ∀ c, (text.toList ++ after).head? = some c → isLineBreak c
    rw [whole]
    simp [inLine]

theorem precedes_of_unexpected {text : String} {next : Piece} {after : List Char} (wellFormed : next.WellFormed)
    (ends : next.EndsBefore after) :
    (Piece.stretch .unexpected text).Precedes next ↔
      (Piece.stretch .unexpected text).EndsBefore (next.source.toList ++ after) := by
  cases next with
  | run unit count =>
    obtain ⟨c, rest, whole, run, _⟩ := Piece.head_run wellFormed after
    refine iff_of_true trivial ?_
    rw [whole]
    refine ⟨.inr (startsPiece_cons.mpr (.inl run)), ?_⟩
    rintro _ head
    cases head
    exact absurd run (by decide)
  | stretch sort inside =>
    change sort.isComment ∧ text.toList.getLast? ≠ some '/' ↔
      (inside.toList ++ after = [] ∨ startsPiece (inside.toList ++ after)) ∧
        (text.toList.getLast? = some '/' → (inside.toList ++ after).head? ≠ some '/')
    by_cases comment : sort.isComment
    · obtain ⟨rest, whole, starts⟩ := Piece.head_comment wellFormed comment after
      rw [whole]
      simp [comment, starts]
    · obtain rfl := eq_unexpected comment
      obtain ⟨c, rest, whole, plain⟩ := Piece.head_unexpected wellFormed ends
      rw [whole]
      simp [comment, plain]

/-- What may stand behind a piece is what it ends before and what does not join it. -/
theorem precedes_iff {piece next : Piece} {after : List Char} (wellFormed : next.WellFormed)
    (ends : next.EndsBefore after) :
    piece.Precedes next ↔ piece.EndsBefore (next.source.toList ++ after) ∧ piece.Apart next := by
  cases piece with
  | run unit count => exact precedes_of_run wellFormed
  | stretch sort text =>
    have apart : (Piece.stretch sort text).Apart next := by
      rintro unit m n same _
      cases same
    have more : next.source.toList ++ after ≠ [] := by
      obtain ⟨c, rest, whole⟩ := Piece.exists_cons_source wellFormed after
      rw [whole]
      exact List.cons_ne_nil _ _
    rw [and_iff_left apart]
    cases sort with
    | lineComment | docLineComment => exact isNewline_iff_head wellFormed
    | blockComment | docBlockComment => exact (or_iff_right more).symm
    | unexpected => exact precedes_of_unexpected wellFormed ends

theorem endsBefore_nil (piece : Piece) : piece.EndsBefore [] := by
  cases piece with
  | run unit count => exact endsBefore_run.mpr fun _ => by simp
  | stretch sort text => cases sort <;> simp [Piece.EndsBefore]

/-- In canonical trivia every piece ends before the text of those behind it. -/
theorem Canonical.endsBefore {pieces : List Piece} {piece : Piece} (canonical : Canonical (piece :: pieces)) :
    piece.EndsBefore (pieces.flatMap (·.source.toList)) := by
  induction pieces generalizing piece with
  | nil => exact endsBefore_nil piece
  | cons next pieces ih =>
    obtain ⟨precedes, rest⟩ := List.isChain_cons_cons.mp canonical.precedes
    have wellFormed : ∀ p ∈ next :: pieces, p.WellFormed := fun p member =>
      canonical.wellFormed p (List.mem_cons_of_mem _ member)
    have ends : next.EndsBefore (pieces.flatMap (·.source.toList)) := ih ⟨wellFormed, rest⟩
    exact ((precedes_iff (wellFormed next List.mem_cons_self) ends).mp precedes).1

theorem toNat_add_one {count : UInt32} (small : count.toNat + 1 < UInt32.size) :
    (count + 1).toNat = count.toNat + 1 := by
  rw [UInt32.toNat_add, UInt32.toNat_one]
  exact Nat.mod_eq_of_lt small

/-- A piece takes in no further unit exactly when it stands apart from it. -/
theorem merge?_one_eq_none_iff {piece next : Piece} (single : next.Single) :
    piece.merge? next = none ↔ piece.Apart next := by
  cases piece with
  | stretch sort text =>
    refine iff_of_true rfl ?_
    rintro u m n same _
    cases same
  | run unit count =>
    cases next with
    | stretch sort text =>
      refine iff_of_true rfl ?_
      rintro u m n _ same
      cases same
    | run unit' count' =>
      obtain rfl : count' = 1 := single
      have bound : count.toNat < UInt32.size := count.toNat_lt_size
      rw [Piece.merge?, UInt32.toNat_one]
      constructor
      · intro none u m n same same'
        cases same
        cases same'
        by_contra notFull
        rw [if_pos ⟨rfl, by omega⟩] at none
        cases none
      · intro apart
        refine if_neg ?_
        rintro ⟨same, fits⟩
        have full : count.toNat + 1 = UInt32.size := apart unit count 1 rfl (by rw [same])
        omega

theorem run_of_merge? {piece next merged : Piece} (single : next.Single) (merge : piece.merge? next = some merged) :
    ∃ unit count, piece = .run unit count ∧ next = .run unit 1 ∧ count.toNat + 1 < UInt32.size := by
  cases piece with
  | stretch sort text => cases merge
  | run unit count =>
    cases next with
    | stretch sort text => cases merge
    | run unit' count' =>
      obtain rfl : count' = 1 := single
      rw [Piece.merge?] at merge
      by_cases fit : unit = unit' ∧ count.toNat + (1 : UInt32).toNat < UInt32.size
      · rw [if_pos fit] at merge
        obtain ⟨rfl, small⟩ := fit
        exact ⟨unit, count, rfl, rfl, small⟩
      · rw [if_neg fit] at merge
        cases merge

/-! ## What is read is canonical -/

/-- Trivia read from the front of a text, with the rest of the text. -/
structure Read (trivia : Trivia) (rest : List Char) : Prop where
  canonical : Canonical trivia.toList
  ends : ∀ last ∈ trivia.toList.getLast?, last.EndsBefore rest

theorem canonical_nil : Canonical [] := ⟨by simp, .nil⟩

theorem Canonical.concat {pieces : List Piece} {piece : Piece} (canonical : Canonical pieces)
    (wellFormed : piece.WellFormed) (precedes : ∀ last ∈ pieces.getLast?, last.Precedes piece) :
    Canonical (pieces ++ [piece]) := by
  refine ⟨fun p member => ?_, ?_⟩
  · rcases List.mem_append.mp member with earlier | new
    · exact canonical.wellFormed p earlier
    · obtain rfl : p = piece := List.mem_singleton.mp new
      exact wellFormed
  · refine List.isChain_append.mpr ⟨canonical.precedes, List.isChain_singleton piece, ?_⟩
    intro last isLast next isNext
    cases isNext
    exact precedes last isLast

theorem Canonical.front {pieces : List Piece} {piece : Piece} (canonical : Canonical (pieces ++ [piece])) :
    Canonical pieces ∧ ∀ last ∈ pieces.getLast?, last.Precedes piece := by
  obtain ⟨chain, _, between⟩ := List.isChain_append.mp canonical.precedes
  exact ⟨⟨fun p member => canonical.wellFormed p (List.mem_append_left _ member), chain⟩,
    fun last isLast => between last isLast piece rfl⟩

/-- The count of a run does not matter to what stands before it. -/
theorem precedes_run_iff {piece : Piece} {unit : RunUnit} (count count' : UInt32) :
    piece.Precedes (.run unit count) ↔ piece.Precedes (.run unit count') := by
  cases piece with
  | run => rfl
  | stretch sort text => cases sort <;> rfl

/-- A unit that joins the last run leaves what was read canonical. -/
theorem Read.lengthen {trivia : Trivia} {front : List Piece} {unit : RunUnit} {count : UInt32}
    {rest after : List Char} (read : Read trivia rest) (pieces : trivia.toList = front ++ [.run unit count])
    (small : count.toNat + 1 < UInt32.size) (ends : (Piece.run unit 1).EndsBefore after) :
    Read (trivia.push (.run unit 1)) after := by
  have merge : (Piece.run unit count).merge? (.run unit 1) = some (.run unit (count + 1)) := if_pos ⟨rfl, small⟩
  have whole : (trivia.push (.run unit 1)).toList = front ++ [.run unit (count + 1)] :=
    toList_push_merged pieces merge
  have old : Canonical (front ++ [.run unit count]) := pieces ▸ read.canonical
  have wellFormed : (Piece.run unit (count + 1)).WellFormed := by
    change 1 ≤ (count + 1).toNat
    rw [toNat_add_one small]
    omega
  refine ⟨?_, ?_⟩
  · rw [whole]
    refine old.front.1.concat wellFormed fun last isLast => ?_
    exact (precedes_run_iff count (count + 1)).mp (old.front.2 last isLast)
  · rw [whole, List.getLast?_concat]
    rintro last ⟨⟩
    exact endsBefore_run.mpr (endsBefore_run.mp ends)

/-- A piece that joins nothing leaves what was read canonical. -/
theorem Read.concat {trivia : Trivia} {piece : Piece} {after : List Char}
    (read : Read trivia (piece.source.toList ++ after)) (single : piece.Single) (wellFormed : piece.WellFormed)
    (ends : piece.EndsBefore after) (apart : ∀ last ∈ trivia.toList.getLast?, last.merge? piece = none) :
    Read (trivia.push piece) after := by
  have whole : (trivia.push piece).toList = trivia.toList ++ [piece] := toList_push_apart apart
  refine ⟨?_, ?_⟩
  · rw [whole]
    refine read.canonical.concat wellFormed fun last isLast => ?_
    have apart' : last.Apart piece := (merge?_one_eq_none_iff single).mp (apart last isLast)
    exact (precedes_iff wellFormed ends).mpr ⟨read.ends last isLast, apart'⟩
  · rw [whole, List.getLast?_concat]
    rintro last ⟨⟩
    exact ends

theorem Read.push {trivia : Trivia} {piece : Piece} {after : List Char}
    (read : Read trivia (piece.source.toList ++ after)) (single : piece.Single) (wellFormed : piece.WellFormed)
    (ends : piece.EndsBefore after) : Read (trivia.push piece) after := by
  -- only a unit can join, and only the run it repeats
  by_cases joins : ∃ last ∈ trivia.toList.getLast?, last.merge? piece ≠ none
  · obtain ⟨last, isLast, some⟩ := joins
    obtain ⟨merged, merge⟩ := Option.ne_none_iff_exists'.mp some
    obtain ⟨front, pieces⟩ := List.getLast?_eq_some_iff.mp isLast
    obtain ⟨unit, count, rfl, rfl, small⟩ := run_of_merge? single merge
    exact read.lengthen pieces small ends
  · refine read.concat single wellFormed ends fun last isLast => ?_
    by_contra some
    exact joins ⟨last, isLast, some⟩

theorem Read.scan {trivia : Trivia} {text : List Char} (read : Read trivia text) :
    Canonical (scan trivia text).toList := by
  fun_induction Trivia.scan trivia text with
  | case1 => exact read.canonical
  | case2 trivia c rest ih =>
    obtain ⟨single, wellFormed, ends⟩ := nextPiece_spec c rest
    rw [← source_nextPiece c rest] at read
    exact ih (read.push single wellFormed ends)

/-- Every text is read as canonical trivia. -/
theorem canonical_parse (text : String) : Canonical (parse text).toList := by
  have start : Read empty text.toList := ⟨canonical_nil, fun last isLast => by cases isLast⟩
  exact start.scan

/-! ## Canonical trivia is read back -/

theorem scan_source {piece : Piece} {after : List Char} (trivia : Trivia) (single : piece.Single)
    (wellFormed : piece.WellFormed) (ends : piece.EndsBefore after) :
    scan trivia (piece.source.toList ++ after) = scan (trivia.push piece) after := by
  obtain ⟨c, rest, whole⟩ := Piece.exists_cons_source wellFormed after
  have first : nextPiece c rest = (piece, after) := nextPiece_eq_iff.mpr ⟨whole, single, wellFormed, ends⟩
  rw [whole, scan, first]

/-- A unit is cut off also when more of its run follow it. -/
theorem scan_unit {unit : RunUnit} {after : List Char} (ends : unit = .carriageReturn → after.head? ≠ some '\n')
    (more : Nat) (trivia : Trivia) :
    scan trivia (unit.text.toList ++ ((List.replicate more unit.text).flatMap String.toList ++ after)) =
      scan (trivia.push (.run unit 1)) ((List.replicate more unit.text).flatMap String.toList ++ after) := by
  have single : (Piece.run unit 1).Single := rfl
  have ends' : (Piece.run unit 1).EndsBefore ((List.replicate more unit.text).flatMap String.toList ++ after) := by
    refine endsBefore_run.mpr ?_
    rintro rfl
    cases more with
    | zero => exact ends rfl
    | succ more => simp [List.replicate_succ, RunUnit.text]
  rw [← scan_source trivia single (wellFormed_one unit) ends', Piece.source_one]

/-- Further units are counted one by one onto the last run. -/
theorem scan_more {unit : RunUnit} {after : List Char} (ends : unit = .carriageReturn → after.head? ≠ some '\n')
    (more : Nat) : ∀ (front : List Piece) (count : UInt32) (trivia : Trivia),
      trivia.toList = front ++ [.run unit count] → count.toNat + more < UInt32.size →
      ∃ read, scan trivia ((List.replicate more unit.text).flatMap String.toList ++ after) = scan read after ∧
        read.toList = front ++ [.run unit (.ofNat (count.toNat + more))] := by
  induction more with
  | zero =>
    intro front count trivia pieces _
    exact ⟨trivia, rfl, by simpa using pieces⟩
  | succ more ih =>
    intro front count trivia pieces small
    have fits : count.toNat + 1 < UInt32.size := by omega
    have increased : (count + 1).toNat = count.toNat + 1 := toNat_add_one fits
    have merge : (Piece.run unit count).merge? (.run unit 1) = some (.run unit (count + 1)) := if_pos ⟨rfl, fits⟩
    obtain ⟨read, same, whole⟩ := ih front (count + 1) (trivia.push (.run unit 1))
      (toList_push_merged pieces merge) (by omega)
    refine ⟨read, ?_, ?_⟩
    · rw [← same, ← scan_unit ends more, List.replicate_succ, List.flatMap_cons, List.append_assoc]
    · rw [whole, increased]
      congr 4
      omega

/-- A whole run is counted into one piece where nothing before it joins it. -/
theorem scan_run {unit : RunUnit} {count : UInt32} {after : List Char} {trivia : Trivia}
    (wellFormed : (Piece.run unit count).WellFormed) (ends : (Piece.run unit count).EndsBefore after)
    (apart : ∀ last ∈ trivia.toList.getLast?, last.Apart (.run unit count)) :
    ∃ read, scan trivia ((Piece.run unit count).source.toList ++ after) = scan read after ∧
      read.toList = trivia.toList ++ [.run unit count] := by
  obtain ⟨more, size⟩ : ∃ more, count.toNat = more + 1 := Nat.exists_eq_add_of_le' wellFormed
  have single : (Piece.run unit 1).Single := rfl
  have first : (trivia.push (.run unit 1)).toList = trivia.toList ++ [.run unit 1] := by
    refine toList_push_apart fun last isLast => (merge?_one_eq_none_iff single).mpr ?_
    rintro u m n same next
    cases next
    exact apart last isLast _ m count same rfl
  have small : (1 : UInt32).toNat + more < UInt32.size := by
    have bound : count.toNat < UInt32.size := count.toNat_lt_size
    rw [UInt32.toNat_one]
    omega
  obtain ⟨read, same, whole⟩ := scan_more (endsBefore_run.mp ends) more trivia.toList 1 _ first small
  refine ⟨read, ?_, ?_⟩
  · rw [← same, ← scan_unit (endsBefore_run.mp ends) more, Piece.source, String.toList_join, size,
      List.replicate_succ, List.flatMap_cons, List.append_assoc]
  · have total : (1 : UInt32).toNat + more = count.toNat := by
      rw [size, Nat.add_comm]
      rfl
    rw [whole, total, UInt32.ofNat_toNat]

theorem scan_pieces (pieces : List Piece) : ∀ trivia : Trivia, Canonical (trivia.toList ++ pieces) →
    (scan trivia (pieces.flatMap (·.source.toList))).toList = trivia.toList ++ pieces := by
  induction pieces with
  | nil =>
    intro trivia _
    rw [List.flatMap_nil, scan, List.append_nil]
  | cons piece pieces ih =>
    intro trivia canonical
    obtain ⟨_, chain, between⟩ := List.isChain_append.mp canonical.precedes
    have tail : Canonical (piece :: pieces) :=
      ⟨fun p member => canonical.wellFormed p (List.mem_append_right _ member), chain⟩
    have wellFormed : piece.WellFormed := tail.wellFormed piece List.mem_cons_self
    have ends : piece.EndsBefore (pieces.flatMap (·.source.toList)) := tail.endsBefore
    have apart : ∀ last ∈ trivia.toList.getLast?, last.Apart piece := fun last isLast =>
      ((precedes_iff wellFormed ends).mp (between last isLast piece rfl)).2
    -- a run is read unit by unit, anything else at once
    obtain ⟨read, same, whole⟩ : ∃ read,
        scan trivia (piece.source.toList ++ pieces.flatMap (·.source.toList)) =
          scan read (pieces.flatMap (·.source.toList)) ∧ read.toList = trivia.toList ++ [piece] := by
      cases piece with
      | run unit count => exact scan_run wellFormed ends apart
      | stretch sort text =>
        have single : (Piece.stretch sort text).Single := trivial
        refine ⟨_, scan_source trivia single wellFormed ends, toList_push_apart fun last isLast => ?_⟩
        exact (merge?_one_eq_none_iff single).mpr (apart last isLast)
    have next : Canonical (read.toList ++ pieces) := by
      rw [whole, List.append_assoc]
      exact canonical
    rw [List.flatMap_cons, same, ih read next, whole, List.append_assoc, List.singleton_append]

/-- Trivia reads back from its own source exactly when it is canonical, and no other trivia is read from
any text. -/
theorem parse_source_iff_canonical (trivia : Trivia) :
    (parse trivia.source = trivia ↔ Canonical trivia.toList) ∧
      ((∃ text, parse text = trivia) ↔ Canonical trivia.toList) := by
  have sound {text : String} (read : parse text = trivia) : Canonical trivia.toList :=
    read ▸ canonical_parse text
  have complete (canonical : Canonical trivia.toList) : parse trivia.source = trivia := by
    have source : trivia.source.toList = trivia.toList.flatMap (·.source.toList) := by
      rw [Trivia.source, String.toList_join, List.flatMap_map]
    rw [parse, source]
    exact ext_toList (scan_pieces trivia.toList empty canonical)
  refine ⟨⟨sound, complete⟩, ?_, fun canonical => ⟨_, complete canonical⟩⟩
  rintro ⟨text, read⟩
  exact sound read

example : Canonical [.stretch .unexpected "a/", .run .space 1, .stretch .blockComment "/**/"] := by decide

example : ¬ Canonical [.stretch .unexpected "a/", .stretch .blockComment "/**/"] := by decide

end LosslessSyntax.Trivia
