import LosslessSyntax.Proofs.ByteScan
import LosslessSyntax.Proofs.Interning
import LosslessSyntax.Proofs.RunLengths

/-!
# Splitting comes to an end

The loop that splits a text by byte counts stops on every text, with the pieces that reading characters finds. What
else can stop it is the interner alone, where the shard of a new text is full; `not_ends_numbered` has a text on
which that happens however texts are spread over the shards. The main statement is `ends_lossless`. One turn is
decided by `turn_eq`, and what is kept from turn to turn is `Reading`: the named pieces stand for those with their
texts, and these texts are known.
-/

namespace LosslessSyntax.Trivia

open Text (Interner)

/-- The text of a piece that is kept under a name, if any. -/
def Piece.texts : Piece → List String
  | .run _ _ => []
  | .stretch _ text => [text]

/-- The texts that are kept under a name, in source order. -/
def texts (trivia : Trivia) : List String := trivia.toList.flatMap Piece.texts

theorem Piece.texts_of_merge? {piece next merged : Piece} (merge : piece.merge? next = some merged) :
    piece.texts = [] ∧ next.texts = [] ∧ merged.texts = [] := by
  cases piece with
  | stretch sort text => cases merge
  | run unit count =>
    cases next with
    | stretch sort text => cases merge
    | run unit' count' =>
      obtain ⟨_, _, _, same, _⟩ := of_merge? merge
      cases merged with
      | stretch sort text => cases same
      | run unit'' count'' => exact ⟨rfl, rfl, rfl⟩

theorem texts_push (trivia : Trivia) (piece : Piece) : (trivia.push piece).texts = trivia.texts ++ piece.texts := by
  unfold texts
  rcases push_cases trivia piece with ⟨_, pushed⟩ | ⟨front, last, merged, whole, merge, pushed⟩
  · rw [pushed, List.flatMap_append, List.flatMap_singleton]
  · obtain ⟨noneLast, none, noneMerged⟩ := Piece.texts_of_merge? merge
    rw [pushed, whole, List.flatMap_append, List.flatMap_append, List.flatMap_singleton, List.flatMap_singleton,
      noneLast, none, noneMerged, List.append_nil, List.append_nil]

theorem mem_texts_scan {trivia : Trivia} {text : List Char} {known : String} (member : known ∈ trivia.texts) :
    known ∈ (scan trivia text).texts := by
  fun_induction scan trivia text with
  | case1 trivia => exact member
  | case2 trivia c rest ih =>
    apply ih
    rw [texts_push]
    exact List.mem_append_left _ member

/-- The text of a piece that is pushed is among those that are read in the end. -/
theorem texts_subset_scan (trivia : Trivia) (piece : Piece) (text : List Char) :
    piece.texts.toFinset ⊆ (scan (trivia.push piece) text).texts.toFinset := by
  intro own member
  rw [List.mem_toFinset] at member ⊢
  apply mem_texts_scan
  rw [texts_push]
  exact List.mem_append_right _ member

section Naming

variable {choose : String → Fin Text.Name.shardCount} {interner after : Interner} {known : Finset String}
  {named other : NamedPiece} {piece next : Piece} {pieces : List NamedPiece} {trivia : Trivia}

/-- A named piece stands for the one with the text in place of its name. -/
inductive NamedPiece.Stands (choose : String → Fin Text.Name.shardCount) (interner : Interner) :
    NamedPiece → Piece → Prop
  | run (unit : RunUnit) (count : UInt32) : Stands choose interner (.run unit count) (.run unit count)
  | stretch (sort : TextSort) {text : String} {name : Text.Name} : interner.name? choose text = some name →
    Stands choose interner (.stretch sort name) (.stretch sort text)

namespace NamedPiece.Stands

theorem keeps (stands : Stands choose interner named piece) (kept : interner.Keeps choose after) :
    Stands choose after named piece := by
  cases stands with
  | run unit count => exact .run unit count
  | stretch sort stored => exact .stretch sort (kept _ _ stored)

theorem piece?_eq (stands : Stands choose interner named piece) (holds : interner.Holds choose known) :
    named.piece? interner = some piece := by
  cases stands with
  | run unit count => rfl
  | stretch sort stored => rw [piece?, holds.lookup?_eq stored, Option.map_some]

/-- Comparing names compares texts. -/
theorem eq_iff (stands : Stands choose interner named piece) (stands' : Stands choose interner other next)
    (holds : interner.Holds choose known) : named = other ↔ piece = next := by
  constructor
  · rintro rfl
    exact Option.some.inj ((stands.piece?_eq holds).symm.trans (stands'.piece?_eq holds))
  · rintro rfl
    cases stands with
    | run unit count => cases stands'; rfl
    | stretch sort stored =>
      cases stands' with
      | stretch _ stored' => rw [Option.some.inj (stored.symm.trans stored')]

/-- Named pieces merge where the pieces do. -/
theorem merge? (stands : Stands choose interner named piece) (stands' : Stands choose interner other next) :
    (named.merge? other = none ∧ piece.merge? next = none) ∨
      ∃ unit count, named.merge? other = some (.run unit count) ∧ piece.merge? next = some (.run unit count) := by
  cases stands with
  | stretch sort stored => exact .inl ⟨rfl, rfl⟩
  | run unit count =>
    cases stands' with
    | stretch sort stored => exact .inl ⟨rfl, rfl⟩
    | run unit' count' =>
      by_cases fit : unit = unit' ∧ count.toNat + count'.toNat < UInt32.size
      · exact .inr ⟨unit, count + count', if_pos fit, if_pos fit⟩
      · exact .inl ⟨if_neg fit, if_neg fit⟩

theorem push (stands : Stands choose interner named piece)
    (all : List.Forall₂ (Stands choose interner) pieces trivia.toList) :
    List.Forall₂ (Stands choose interner) (NamedPiece.push pieces named) (trivia.push piece).toList := by
  rw [toList_push]
  rcases List.eq_nil_or_concat' trivia.toList with none | ⟨front, last, whole⟩
  · rw [none] at all ⊢
    obtain rfl := List.forall₂_nil_right_iff.mp all
    exact .cons stands .nil
  · rw [whole] at all ⊢
    obtain ⟨front', last', rfl, others, between⟩ := exists_concat_of_forall₂ all
    rw [NamedPiece.push, List.getLast?_concat, List.getLast?_concat]
    dsimp only
    rcases between.merge? stands with ⟨none, none'⟩ | ⟨unit, count, merged, merged'⟩
    · rw [none, none']
      exact List.rel_append (List.rel_append others (.cons between .nil)) (.cons stands .nil)
    · rw [merged, merged', List.dropLast_concat, List.dropLast_concat]
      exact List.rel_append others (.cons (.run unit count) .nil)

end NamedPiece.Stands

/-- A piece with its text interned. -/
def Piece.intern (choose : String → Fin Text.Name.shardCount) (interner : Interner) :
    Piece → Except Text.ShardOverflow (NamedPiece × Interner)
  | .run unit count => .ok (.run unit count, interner)
  | .stretch sort text =>
    match interner.intern choose text with
    | .ok (name, after) => .ok (.stretch sort name, after)
    | .error overflow => .error overflow

theorem source_of_intern_error {overflow : Text.ShardOverflow}
    (refused : piece.intern choose interner = .error overflow) :
    interner.intern choose piece.source = .error overflow ∧ piece.texts = [piece.source] := by
  cases piece with
  | run unit count => cases refused
  | stretch sort text =>
    rw [Piece.intern] at refused
    change interner.intern choose text = .error overflow ∧ _
    cases first : interner.intern choose text with
    | ok made => rw [first] at refused; cases refused
    | error overflow' => rw [first] at refused; cases refused; exact ⟨rfl, rfl⟩

/-- What is named stands for what it was made from, and nothing but its text has come in. -/
theorem stands_of_intern (holds : interner.Holds choose known)
    (made : piece.intern choose interner = .ok (named, after)) :
    named.Stands choose after piece ∧ interner.Keeps choose after ∧
      after.Holds choose (known ∪ piece.texts.toFinset) := by
  cases piece with
  | run unit count =>
    cases made
    rw [Piece.texts, List.toFinset_nil, Finset.union_empty]
    exact ⟨.run unit count, fun _ _ stored => stored, holds⟩
  | stretch sort text =>
    rw [Piece.intern] at made
    cases first : interner.intern choose text with
    | error overflow => rw [first] at made; cases made
    | ok result =>
      rw [first] at made
      cases made
      obtain ⟨holdsAfter, kept, stored⟩ := holds.of_intern first
      rw [Piece.texts, List.toFinset_cons, List.toFinset_nil, Finset.union_insert, Finset.union_empty]
      exact ⟨.stretch sort stored, kept, holdsAfter⟩

theorem stretch_eq {text : List Char} (sort : TextSort) {parts : List Char × List Char}
    (whole : parts.1 ++ parts.2 = text) :
    stretch choose interner (String.ofList text) sort (String.ofList parts.1).utf8ByteSize =
      match (toStretch sort parts).1.intern choose interner with
      | .ok (piece, after) => .ok (piece, (toStretch sort parts).1.source.utf8ByteSize, after)
      | .error overflow => .error (.full overflow) := by
  rw [stretch, ← whole, String.ofList_append, cutAt?_append, toStretch, Piece.intern]
  dsimp only
  cases interner.intern choose (String.ofList parts.1) <;> rfl

/-- One turn takes the piece at the front of the text, with as many bytes as it is written with. It fails only if
the text of the piece gets no name. -/
theorem turn_eq (choose : String → Fin Text.Name.shardCount) (interner : Interner) (c : Char) (rest : List Char) :
    turn choose interner (String.ofList (c :: rest)) c =
      match (nextPiece c rest).1.intern choose interner with
      | .ok (piece, after) => .ok (piece, (nextPiece c rest).1.source.utf8ByteSize, after)
      | .error overflow => .error (.full overflow) := by
  rw [turn, String.toList_ofList]
  by_cases both : c = '\r' ∧ ['\r', '\n'] <+: c :: rest
  · rw [if_pos both]
    obtain ⟨rfl, after, rfl⟩ : c = '\r' ∧ ∃ after, rest = '\n' :: after :=
      ⟨both.1, List.head?_eq_some_iff.mp (pair_prefix_iff.mp both.2).2⟩
    rfl
  rw [if_neg both]
  cases found : RunUnit.ofChar? c with
  | some unit =>
    have alone : c = '\r' → rest.head? ≠ some '\n' := fun return_ head =>
      both ⟨return_, pair_prefix_iff.mpr ⟨return_, head⟩⟩
    rw [nextPiece_run found alone, Piece.source_one, utf8ByteSize_of_ofChar? found]
    rfl
  | none =>
    dsimp only
    by_cases line : c = '/' ∧ ['/', '/'] <+: c :: rest
    · rw [if_pos line, lineLen_eq]
      obtain ⟨rfl, after, rfl⟩ : c = '/' ∧ ∃ after, rest = '/' :: after :=
        ⟨line.1, List.head?_eq_some_iff.mp (pair_prefix_iff.mp line.2).2⟩
      have docIff : decide (['/', '/', '/'] <+: '/' :: '/' :: after) ↔ after.head? = some '/' := by
        rw [decide_eq_true_eq, List.cons_prefix_cons, pair_prefix_iff]
        simp
      rw [nextPiece_line docIff]
      exact stretch_eq _ (cutLine_append _)
    rw [if_neg line]
    by_cases block : c = '/' ∧ ['/', '*'] <+: c :: rest
    · rw [if_pos block]
      obtain ⟨rfl, after, rfl⟩ : c = '/' ∧ ∃ after, rest = '*' :: after :=
        ⟨block.1, List.head?_eq_some_iff.mp (pair_prefix_iff.mp block.2).2⟩
      have docIff : decide (['/', '*', '*'] <+: '/' :: '*' :: after ∧
          ¬ ['/', '*', '*', '/'] <+: '/' :: '*' :: after) ↔ ['*'] <+: after ∧ ¬ ['*', '/'] <+: after := by
        simp [List.cons_prefix_cons]
      rw [nextPiece_block docIff, utf8_eq, String.toList_ofList, blockLen?_block]
      exact stretch_eq _ (cutBlock_append _)
    rw [if_neg block]
    have plain : ¬ startsPiece (c :: rest) := by
      rw [startsPiece_cons]
      rintro (run | ⟨slash, second | second⟩)
      · exact ofChar?_eq_none_iff.mp found run
      · exact line ⟨slash, pair_prefix_iff.mpr ⟨slash, second⟩⟩
      · exact block ⟨slash, pair_prefix_iff.mpr ⟨slash, second⟩⟩
    rw [nextPiece_unexpected plain, unexpectedLen?_eq]
    exact stretch_eq _ (cutUnexpected_append _)

/-- What holds before each turn: the named pieces stand for those read so far, whose texts are all known. -/
structure Reading (choose : String → Fin Text.Name.shardCount) (interner : Interner) (known : Finset String)
    (pieces : List NamedPiece) (trivia : Trivia) : Prop where
  holds : interner.Holds choose known
  stands : List.Forall₂ (NamedPiece.Stands choose interner) pieces trivia.toList
  texts : trivia.texts.toFinset ⊆ known

/-- How the loop may end where certain texts were known and `trivia` is to be read: with pieces that have its
texts, or without room for all of them. -/
def EndCorrect (choose : String → Fin Text.Name.shardCount) (known : Finset String) (trivia : Trivia) :
    Except Fault (List NamedPiece × Interner) → Prop
  | .ok (pieces, after) =>
    Interner.HasRoom choose (known ∪ trivia.texts.toFinset) ∧
      NamedPiece.trivia? after pieces = some trivia
  | .error (.full _) => ¬ Interner.HasRoom choose (known ∪ trivia.texts.toFinset)
  | .error .cut | .error .depth => False

theorem Reading.push (reading : Reading choose interner known pieces trivia)
    (made : piece.intern choose interner = .ok (named, after)) :
    Reading choose after (known ∪ piece.texts.toFinset) (NamedPiece.push pieces named) (trivia.push piece) := by
  obtain ⟨stands, kept, holds⟩ := stands_of_intern reading.holds made
  refine ⟨holds, stands.push (reading.stands.imp fun _ _ old => old.keeps kept), ?_⟩
  rw [texts_push, List.toFinset_append]
  exact Finset.union_subset_union_left reading.texts

theorem mapM_piece?_eq {whole : List Piece} (holds : interner.Holds choose known)
    (all : List.Forall₂ (NamedPiece.Stands choose interner) pieces whole) :
    pieces.mapM (NamedPiece.piece? interner) = some whole := by
  induction all with
  | nil => rfl
  | cons stands _ ih => simp [List.mapM_cons, stands.piece?_eq holds, ih]

theorem Reading.trivia?_eq (reading : Reading choose interner known pieces trivia) :
    NamedPiece.trivia? interner pieces = some trivia := by
  rw [NamedPiece.trivia?, mapM_piece?_eq reading.holds reading.stands]
  rfl

/-- The loop comes to an end from wherever it stands, by induction along the text. -/
theorem exists_ends (reading : Reading choose interner known pieces trivia) (text : List Char) :
    ∃ outcome, Ends choose interner pieces (String.ofList text) outcome ∧
      EndCorrect choose known (scan trivia text) outcome := by
  fun_induction scan trivia text generalizing interner known pieces with
  | case1 trivia =>
    refine ⟨.ok (pieces, interner), .done (by rw [String.toList_ofList, List.head?_nil]), ?_,
      reading.trivia?_eq⟩
    rw [Finset.union_eq_left.mpr reading.texts]
    exact reading.holds.room
  | case2 trivia c rest ih =>
    have first : (String.ofList (c :: rest)).toList.head? = some c := by
      rw [String.toList_ofList, List.head?_cons]
    have inside := texts_subset_scan trivia (nextPiece c rest).1 (nextPiece c rest).2
    have turned := turn_eq choose interner c rest
    cases made : (nextPiece c rest).1.intern choose interner with
    | error overflow =>
      rw [made] at turned
      refine ⟨.error (.full overflow), .turnFails first turned, fun room => ?_⟩
      obtain ⟨refused, own⟩ := source_of_intern_error made
      rw [own] at inside
      have fits : insert (nextPiece c rest).1.source known ⊆ known ∪ _ :=
        Finset.insert_subset (Finset.mem_union_right _ (inside (by simp))) Finset.subset_union_left
      obtain ⟨name, after, ran⟩ := reading.holds.exists_intern (room.mono fits)
      cases refused.symm.trans ran
    | ok result =>
      obtain ⟨named, after⟩ := result
      rw [made] at turned
      obtain ⟨outcome, ends, correct⟩ := ih (reading.push made)
      refine ⟨outcome, .turn first turned (cutAt?_nextPiece c rest) ends, ?_⟩
      unfold EndCorrect at correct ⊢
      rwa [Finset.union_assoc, Finset.union_eq_right.mpr inside] at correct

/-- The loop ends in one way only. -/
theorem Ends.unique {text : String} {outcome outcome' : Except Fault (List NamedPiece × Interner)}
    (run : Ends choose interner pieces text outcome) (run' : Ends choose interner pieces text outcome') :
    outcome = outcome' := by
  induction run with
  | done none =>
    cases run' with
    | done => rfl
    | turn first => rw [none] at first; cases first
    | turnFails first => rw [none] at first; cases first
    | cutFails first => rw [none] at first; cases first
  | turn first turned cut _ ih =>
    cases run' with
    | done none => rw [none] at first; cases first
    | turn first' turned' cut' next =>
      cases first.symm.trans first'
      cases turned.symm.trans turned'
      cases cut.symm.trans cut'
      exact ih next
    | turnFails first' failed =>
      cases first.symm.trans first'
      cases turned.symm.trans failed
    | cutFails first' turned' failed =>
      cases first.symm.trans first'
      cases turned.symm.trans turned'
      cases cut.symm.trans failed
  | turnFails first failed =>
    cases run' with
    | done none => rw [none] at first; cases first
    | turn first' turned' => cases first.symm.trans first'; cases failed.symm.trans turned'
    | turnFails first' failed' => cases first.symm.trans first'; cases failed.symm.trans failed'; rfl
    | cutFails first' turned' => cases first.symm.trans first'; cases failed.symm.trans turned'
  | cutFails first turned failed =>
    cases run' with
    | done none => rw [none] at first; cases first
    | turn first' turned' cut' =>
      cases first.symm.trans first'
      cases turned.symm.trans turned'
      cases failed.symm.trans cut'
    | turnFails first' failed' => cases first.symm.trans first'; cases turned.symm.trans failed'
    | cutFails => rfl

theorem reading_empty (holds : interner.Holds choose known) : Reading choose interner known [] empty :=
  ⟨holds, .nil, Finset.empty_subset known⟩

/-- Splitting comes to one end on every text, in any interner that a run of calls leads to. Every turn of its loop
takes at least one character, with the cut at the end of a character and the depth of comments never below zero, and
exactly the text of the piece that it pushes; what may stop it is that this text gets no name. The loop ends with a
result exactly if the texts of all pieces find room beside the earlier ones, and with a full shard otherwise. The
result reads as the text, and is as long as it in bytes. -/
theorem ends_lossless {earlier : List String} {names : List Text.Name}
    (ran : Interner.empty.internAll choose earlier = .ok (names, interner)) (text : String) :
    (∀ first rest, ∃ taken after, 1 ≤ taken.length ∧
        cutAt? (String.ofList (first :: rest)) taken.utf8ByteSize = some (taken, after) ∧
        ((∃ named later, turn choose interner (String.ofList (first :: rest)) first =
              .ok (named, taken.utf8ByteSize, later) ∧ (named.piece? later).map Piece.source = some taken) ∨
          ∃ overflow, turn choose interner (String.ofList (first :: rest)) first = .error (.full overflow) ∧
            interner.intern choose taken = .error overflow)) ∧
      (∃ outcome, Ends choose interner [] text outcome ∧
        (∀ other, Ends choose interner [] text other → other = outcome) ∧
        EndCorrect choose ({""} ∪ earlier.toFinset) (parse text) outcome) ∧
      ((∃ pieces after, Ends choose interner [] text (.ok (pieces, after))) ↔
        Interner.HasRoom choose ({""} ∪ earlier.toFinset ∪ (parse text).texts.toFinset)) ∧
      (parse text).source = text ∧ (parse text).textLen = text.utf8ByteSize := by
  have holds := (Interner.holds_empty.of_internAll ran).1
  obtain ⟨outcome, ends, correct⟩ := exists_ends (reading_empty holds) text.toList
  rw [String.ofList_toList] at ends
  change EndCorrect _ _ (parse text) outcome at correct
  refine ⟨?turns, ⟨outcome, ends, fun other run => run.unique ends, correct⟩, ?room, source_parse text, ?length⟩
  case turns =>
    intro first rest
    have whole := congrArg List.length (source_nextPiece first rest)
    have progress := length_nextPiece_le first rest
    rw [List.length_append, String.length_toList, List.length_cons] at whole
    refine ⟨_, _, by omega, cutAt?_nextPiece first rest, ?_⟩
    have turned := turn_eq choose interner first rest
    cases made : (nextPiece first rest).1.intern choose interner with
    | error overflow =>
      rw [made] at turned
      exact .inr ⟨overflow, turned, (source_of_intern_error made).1⟩
    | ok result =>
      rw [made] at turned
      obtain ⟨stands, _, holdsAfter⟩ := stands_of_intern holds made
      exact .inl ⟨_, _, turned, by rw [stands.piece?_eq holdsAfter, Option.map_some]⟩
  case room =>
    constructor
    · rintro ⟨pieces, after, run⟩
      obtain rfl := run.unique ends
      exact correct.1
    · intro room
      match outcome, ends, correct with
      | .ok (pieces, after), ends, _ => exact ⟨pieces, after, ends⟩
      | .error (.full _), _, full => exact absurd room full
  case length => rw [textLen_eq, source_parse]

end Naming

/-- A comment with a character of two bytes and a word that is known already come out as they went in. -/
theorem ends_lossless_comment : ∃ names interner,
    Interner.empty.internAll (fun _ => 3) ["x"] = .ok (names, interner) ∧
      ∃ pieces after, Ends (fun _ => 3) interner [] "/*é*/ x" (.ok (pieces, after)) ∧
        NamedPiece.trivia? after pieces = some (parse "/*é*/ x") ∧ (parse "/*é*/ x").source = "/*é*/ x" ∧
          (parse "/*é*/ x").textLen = 8 := by
  have read : (parse "/*é*/ x").texts = ["/*é*/", "x"] := by decide +kernel
  have card : ({""} ∪ ["x"].toFinset ∪ ["/*é*/", "x"].toFinset : Finset String).card = 3 := by decide
  have room : Interner.HasRoom (fun _ => 3) ({""} ∪ ["x"].toFinset ∪ (parse "/*é*/ x").texts.toFinset) := by
    intro shard
    rw [read]
    exact (Finset.card_filter_le _ _).trans (card ▸ by decide)
  obtain ⟨names, interner, ran⟩ :=
    Interner.holds_empty.exists_internAll (room.mono Finset.subset_union_left)
  obtain ⟨_, ⟨outcome, ends, unique, correct⟩, ended, source, textLen⟩ := ends_lossless ran "/*é*/ x"
  obtain ⟨pieces, after, run⟩ := ended.mpr room
  obtain rfl := unique _ run
  exact ⟨names, interner, ran, pieces, after, run, correct.2, source, textLen⟩

/-- A text of numbered lines. -/
def numbered (lines : List Nat) : List Char := lines.flatMap fun line => line.repr.toList ++ ['\n']

theorem nextPiece_digits {text : String} {c : Char} {rest after : List Char}
    (whole : text.toList ++ '\n' :: after = c :: rest) (written : text ≠ "")
    (digit : ∀ d ∈ text.toList, d.isDigit) : nextPiece c rest = (.stretch .unexpected text, '\n' :: after) := by
  have noSlash : '/' ∉ text.toList := fun member => absurd (digit '/' member) (by decide)
  have unexpected : UnexpectedText text.toList := by
    constructor
    case nonempty => exact fun empty => written (String.toList_eq_nil_iff.mp empty)
    case noRun =>
      intro d member run
      have plain : (runChars.all fun d => !d.isDigit) = true := by decide
      have noDigit := List.all_eq_true.mp plain d run
      rw [digit d member] at noDigit
      cases noDigit
    case noLine => exact fun inside => noSlash (inside.subset List.mem_cons_self)
    case noBlock => exact fun inside => noSlash (inside.subset List.mem_cons_self)
  exact nextPiece_of_source whole trivial unexpected
    ⟨.inr rfl, fun last => absurd (List.mem_of_getLast? last) noSlash⟩

theorem texts_scan_numbered (trivia : Trivia) (lines : List Nat) :
    (scan trivia (numbered lines)).texts = trivia.texts ++ lines.map Nat.repr := by
  induction lines generalizing trivia with
  | nil => rw [numbered, List.flatMap_nil, scan, List.map_nil, List.append_nil]
  | cons line lines ih =>
    have whole : numbered (line :: lines) = line.repr.toList ++ '\n' :: numbered lines := by
      rw [numbered, List.flatMap_cons, List.append_assoc]
      rfl
    cases front : numbered (line :: lines) with
    | nil => rw [whole] at front; exact absurd front (by simp)
    | cons c rest =>
      have newline : nextPiece '\n' (numbered lines) = (.run .newline 1, numbered lines) :=
        nextPiece_run rfl fun impossible => absurd impossible (by decide)
      have digit : ∀ d ∈ line.repr.toList, d.isDigit := by
        intro d member
        rw [Nat.toList_repr] at member
        exact Nat.isDigit_of_mem_toDigits (by decide) (by decide) member
      have numeral := nextPiece_digits (whole.symm.trans front) Nat.repr_ne_empty digit
      rw [scan, numeral, scan, newline, ih, texts_push, texts_push]
      simp [Piece.texts]

/-- However the texts are spread over the shards, they are full before the numbered lines have come to an end. -/
theorem not_ends_numbered : ¬ ∃ choose pieces after,
    Ends choose Interner.empty [] (String.ofList (numbered (List.range (2 ^ 32)))) (.ok (pieces, after)) := by
  rintro ⟨choose, pieces, after, run⟩
  obtain ⟨outcome, ends, correct⟩ :=
    exists_ends (reading_empty Interner.holds_empty) (numbered (List.range (2 ^ 32)))
  obtain rfl := run.unique ends
  have room := correct.1
  have read : (scan empty (numbered (List.range (2 ^ 32)))).texts = (List.range (2 ^ 32)).map Nat.repr := by
    rw [texts_scan_numbered]
    exact List.nil_append _
  rw [read] at room
  exact Interner.not_hasRoom_numerals (by decide) room

end LosslessSyntax.Trivia
