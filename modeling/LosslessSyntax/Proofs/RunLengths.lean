import Mathlib.Data.List.Forall2
import Mathlib.Data.List.Induction
import Mathlib.Data.List.SplitBy
import LosslessSyntax.Trivia.Basic

/-!
# Run lengths

Pieces pushed one after the other are gathered: runs of one unit that follow each other become one run, as far
as their counts fit together, and nothing else changes. The main statement is `ofList_gathers`. It rests on what
a single push can do (`push_cases`), and on one induction over the pieces.
-/

namespace LosslessSyntax.Trivia

namespace Piece

/-- The unit that a run repeats. -/
def unit? : Piece → Option RunUnit
  | .run unit _ => some unit
  | .stretch _ _ => none

/-- How often a run repeats its unit. A stretch of text repeats none. -/
def count : Piece → Nat
  | .run _ count => count.toNat
  | .stretch _ _ => 0

/-- Whether the next piece goes on with the run that this one is. -/
def continues (piece next : Piece) : Bool := piece.unit?.isSome && piece.unit? = next.unit?

/-- The pieces may stay neighbours: the second one does not go on with the run of the first, or their counts
do not fit together. -/
def StaysApart (piece next : Piece) : Prop := piece.continues next → UInt32.size ≤ piece.count + next.count

end Piece

/-- The counts of all runs together. -/
def totalCount (pieces : List Piece) : Nat := Text.totalLen Piece.count pieces

/-- A piece says what the parts say: the same text, or as many units as their runs together. -/
inductive Gathers : List Piece → Piece → Prop
  | stretch (sort : TextSort) (text : String) : Gathers [.stretch sort text] (.stretch sort text)
  | runs {parts : List Piece} {unit : RunUnit} {count : UInt32} : parts ≠ [] →
    (∀ part ∈ parts, part.unit? = some unit) → totalCount parts = count.toNat →
    Gathers parts (.run unit count)

/-- A sequence cut into the longest parts in which each piece goes on with the run before it. A stretch of text
is a part of its own. -/
def blocks (pieces : List Piece) : List (List Piece) := pieces.splitBy Piece.continues

/-- Two parts are the same stretch of text, or one run that may be split in another way. -/
inductive Resplit : List Piece → List Piece → Prop
  | stretch (sort : TextSort) (text : String) : Resplit [.stretch sort text] [.stretch sort text]
  | runs {block other : List Piece} {unit : RunUnit} : (∀ part ∈ block, part.unit? = some unit) →
    (∀ part ∈ other, part.unit? = some unit) → totalCount block = totalCount other → Resplit block other

section Pieces

variable {piece next merged : Piece}

theorem Piece.exists_run_of_unit? {unit : RunUnit} (found : piece.unit? = some unit) :
    ∃ count, piece = .run unit count := by
  cases piece with
  | stretch sort text => cases found
  | run unit' count =>
    cases found
    exact ⟨count, rfl⟩

theorem Piece.continues_iff :
    piece.continues next ↔ ∃ unit, piece.unit? = some unit ∧ next.unit? = some unit := by
  rw [continues, Bool.and_eq_true, decide_eq_true_eq, Option.isSome_iff_exists]
  constructor
  · rintro ⟨⟨unit, found⟩, same⟩
    exact ⟨unit, found, same ▸ found⟩
  · rintro ⟨unit, found, found'⟩
    exact ⟨⟨unit, found⟩, found.trans found'.symm⟩

theorem merge?_eq_none_iff : piece.merge? next = none ↔ piece.StaysApart next := by
  cases piece with
  | stretch sort text => simp [Piece.merge?, Piece.StaysApart, Piece.continues, Piece.unit?]
  | run unit count =>
    cases next with
    | stretch sort text => simp [Piece.merge?, Piece.StaysApart, Piece.continues, Piece.unit?]
    | run unit' count' =>
      simp [Piece.merge?, Piece.StaysApart, Piece.continues, Piece.unit?, Piece.count]

/-- Two runs of one unit merge into a run of that unit, and their counts add up as numbers, without going round. -/
theorem of_merge? (merge : piece.merge? next = some merged) :
    ∃ unit, piece.unit? = some unit ∧ next.unit? = some unit ∧ merged.unit? = some unit ∧
      merged.count = piece.count + next.count := by
  cases piece with
  | stretch sort text => cases merge
  | run unit count =>
    cases next with
    | stretch sort text => cases merge
    | run unit' count' =>
      rw [Piece.merge?] at merge
      split at merge
      case isTrue fits =>
        obtain ⟨rfl, small⟩ := fits
        cases merge
        refine ⟨unit, rfl, rfl, rfl, ?_⟩
        rw [Piece.count, UInt32.toNat_add]
        exact Nat.mod_eq_of_lt small
      case isFalse => cases merge

end Pieces

/-- A piece is put behind the others, or the last of them is lengthened by it. -/
theorem push_cases (trivia : Trivia) (piece : Piece) :
    ((∀ last ∈ trivia.toList.getLast?, last.StaysApart piece) ∧
        (trivia.push piece).toList = trivia.toList ++ [piece]) ∨
      ∃ front last merged, trivia.toList = front ++ [last] ∧ last.merge? piece = some merged ∧
        (trivia.push piece).toList = front ++ [merged] := by
  by_cases apart : ∀ last ∈ trivia.toList.getLast?, last.merge? piece = none
  · exact .inl ⟨fun last isLast => merge?_eq_none_iff.mp (apart last isLast), toList_push_apart apart⟩
  · push Not at apart
    obtain ⟨last, isLast, merges⟩ := apart
    obtain ⟨merged, merge⟩ := Option.ne_none_iff_exists'.mp merges
    obtain ⟨front, pieces⟩ := List.getLast?_eq_some_iff.mp isLast
    exact .inr ⟨front, last, merged, pieces, merge, toList_push_merged pieces merge⟩

theorem ofList_concat (pieces : List Piece) (piece : Piece) :
    ofList (pieces ++ [piece]) = (ofList pieces).push piece := by
  simp [ofList]

theorem source_ofList (pieces : List Piece) : (ofList pieces).source = String.join (pieces.map Piece.source) := by
  induction pieces using List.reverseRecOn with
  | nil => rfl
  | append_singleton front piece ih =>
    rw [ofList_concat, source_push, ih, List.map_append, String.join_append, List.map_singleton]
    simp [String.join]

theorem textLen_ofList (pieces : List Piece) : (ofList pieces).textLen = Text.totalLen Piece.textLen pieces := by
  induction pieces using List.reverseRecOn with
  | nil => rfl
  | append_singleton front piece ih =>
    rw [ofList_concat, textLen_push, ih, Text.totalLen_append, Text.totalLen_cons, Text.totalLen_nil, Nat.add_zero]

/-- What is seen of a run from its unit holds of some gathered piece exactly when it holds of some pushed one. -/
theorem any_ofList {holds : Piece → Bool}
    (byUnit : ∀ {piece next : Piece} {unit : RunUnit}, piece.unit? = some unit → next.unit? = some unit →
      holds piece = holds next) (pieces : List Piece) : (ofList pieces).toList.any holds = pieces.any holds := by
  induction pieces using List.reverseRecOn with
  | nil => rfl
  | append_singleton front piece ih =>
    rw [ofList_concat, List.any_append, ← ih]
    rcases push_cases (ofList front) piece with ⟨_, pushed⟩ | ⟨before, last, merged, whole, merge, pushed⟩
    · rw [pushed, List.any_append]
    · obtain ⟨unit, first, second, both, _⟩ := of_merge? merge
      rw [pushed, whole, List.any_append, List.any_append]
      simp [byUnit first both, byUnit second both]

theorem hasNewline_ofList (pieces : List Piece) : (ofList pieces).hasNewline = pieces.any Piece.isNewline := by
  refine any_ofList (fun first second => ?_) pieces
  obtain ⟨_, rfl⟩ := Piece.exists_run_of_unit? first
  obtain ⟨_, rfl⟩ := Piece.exists_run_of_unit? second
  rfl

theorem hasComment_ofList (pieces : List Piece) : (ofList pieces).hasComment = pieces.any Piece.isComment := by
  refine any_ofList (fun first second => ?_) pieces
  obtain ⟨_, rfl⟩ := Piece.exists_run_of_unit? first
  obtain ⟨_, rfl⟩ := Piece.exists_run_of_unit? second
  rfl

/-! ## What is gathered -/

namespace Gathers

variable {parts : List Piece} {piece : Piece} {unit : RunUnit}

theorem only (piece : Piece) : Gathers [piece] piece := by
  cases piece with
  | stretch sort text => exact .stretch sort text
  | run unit count => exact .runs (by simp) (by simp [Piece.unit?]) (by simp [totalCount, Piece.count])

theorem ne_nil (gathers : Gathers parts piece) : parts ≠ [] := by
  cases gathers with
  | stretch => exact List.cons_ne_nil _ _
  | runs nonempty => exact nonempty

theorem unit?_eq (gathers : Gathers parts piece) {part : Piece} (member : part ∈ parts) :
    part.unit? = piece.unit? := by
  cases gathers with
  | stretch => rw [List.mem_singleton.mp member]
  | runs _ units => exact units part member

theorem unit?_eq_some (gathers : Gathers parts piece) (units : ∀ part ∈ parts, part.unit? = some unit) :
    piece.unit? = some unit := by
  obtain ⟨part, member⟩ := List.exists_mem_of_ne_nil parts gathers.ne_nil
  rw [← gathers.unit?_eq member, units part member]

theorem count_eq (gathers : Gathers parts piece) : piece.count = totalCount parts := by
  cases gathers with
  | stretch => rfl
  | runs _ _ total => exact total.symm

/-- A piece that joins what was gathered is one part more of it. -/
theorem concat {next merged : Piece} (gathers : Gathers parts piece) (merge : piece.merge? next = some merged) :
    Gathers (parts ++ [next]) merged := by
  obtain ⟨unit, first, second, both, count⟩ := of_merge? merge
  have total : totalCount (parts ++ [next]) = merged.count := by
    rw [count, gathers.count_eq]
    simp [totalCount]
  obtain ⟨_, rfl⟩ := Piece.exists_run_of_unit? both
  refine .runs (by simp) (fun part member => ?_) total
  rcases List.mem_append.mp member with earlier | last
  · rw [gathers.unit?_eq earlier, first]
  · rw [List.mem_singleton.mp last, second]

/-- How a run is split does not matter to the piece that gathers it. -/
theorem eq_of_resplit {other : List Piece} {piece' : Piece} (gathers : Gathers parts piece)
    (gathers' : Gathers other piece') (resplit : Resplit parts other) : piece = piece' := by
  cases resplit with
  | stretch sort text =>
    cases gathers with
    | runs _ units => cases units _ List.mem_cons_self
    | stretch =>
      cases gathers' with
      | runs _ units => cases units _ List.mem_cons_self
      | stretch => rfl
  | runs units units' total =>
    have same : piece.count = piece'.count := by rw [gathers.count_eq, total, gathers'.count_eq]
    obtain ⟨count, rfl⟩ := Piece.exists_run_of_unit? (gathers.unit?_eq_some units)
    obtain ⟨count', rfl⟩ := Piece.exists_run_of_unit? (gathers'.unit?_eq_some units')
    rw [UInt32.toNat_inj.mp same]

end Gathers

/-- The last of two related lists stand in relation too. -/
theorem exists_concat_of_forall₂ {α β : Type} {R : α → β → Prop} {as : List α} {bs : List β} {b : β}
    (related : List.Forall₂ R as (bs ++ [b])) :
    ∃ front a, as = front ++ [a] ∧ List.Forall₂ R front bs ∧ R a b := by
  have back := List.forall₂_drop_append as bs [b] related
  obtain ⟨a, rest, last, nothing, single⟩ := List.forall₂_cons_right_iff.mp back
  obtain rfl := List.forall₂_nil_right_iff.mp nothing
  refine ⟨as.take bs.length, a, ?_, List.forall₂_take_append as bs [b] related, last⟩
  rw [← single, List.take_append_drop]

/-- The pieces that are gathered are pushed ones in their order, each alone or as one run with its neighbours. -/
theorem exists_groups (pieces : List Piece) :
    ∃ groups, groups.flatten = pieces ∧ List.Forall₂ Gathers groups (ofList pieces).toList := by
  induction pieces using List.reverseRecOn with
  | nil => exact ⟨[], rfl, .nil⟩
  | append_singleton front piece ih =>
    obtain ⟨groups, rfl, gathered⟩ := ih
    rw [ofList_concat]
    rcases push_cases (ofList groups.flatten) piece with
      ⟨_, pushed⟩ | ⟨before, last, merged, whole, merge, pushed⟩
    · refine ⟨groups ++ [[piece]], by simp, ?_⟩
      rw [pushed]
      exact List.rel_append gathered (.cons (.only piece) .nil)
    · rw [whole] at gathered
      obtain ⟨groups', group, rfl, others, gathers⟩ := exists_concat_of_forall₂ gathered
      refine ⟨groups' ++ [group ++ [piece]], by simp, ?_⟩
      rw [pushed]
      exact List.rel_append others (.cons (gathers.concat merge) .nil)

/-- Neighbours in gathered pieces could not be gathered further. -/
theorem staysApart_ofList (pieces : List Piece) : (ofList pieces).toList.IsChain Piece.StaysApart := by
  induction pieces using List.reverseRecOn with
  | nil => exact .nil
  | append_singleton front piece ih =>
    rw [ofList_concat]
    rcases push_cases (ofList front) piece with
      ⟨apart, pushed⟩ | ⟨before, last, merged, whole, merge, pushed⟩
    · rw [pushed]
      refine List.isChain_append.mpr ⟨ih, List.isChain_singleton piece, ?_⟩
      rintro last isLast _ ⟨⟩
      exact apart last isLast
    · rw [whole] at ih
      obtain ⟨chain, _, between⟩ := List.isChain_append.mp ih
      obtain ⟨unit, first, _, both, count⟩ := of_merge? merge
      rw [pushed]
      refine List.isChain_append.mpr ⟨chain, List.isChain_singleton merged, ?_⟩
      rintro earlier isEarlier _ ⟨⟩ goesOn
      -- what did not fit with the last run fits even less with the longer one
      have goesOn' : earlier.continues last := by
        rwa [Piece.continues, first, ← both]
      have full := between earlier isEarlier last rfl goesOn'
      omega

/-- Pieces that stay apart are gathered as they are. -/
theorem toList_ofList_of_staysApart {pieces : List Piece} (apart : pieces.IsChain Piece.StaysApart) :
    (ofList pieces).toList = pieces := by
  induction pieces using List.reverseRecOn with
  | nil => rfl
  | append_singleton front piece ih =>
    obtain ⟨chain, _, between⟩ := List.isChain_append.mp apart
    rw [ofList_concat, toList_push_apart, ih chain]
    intro last isLast
    rw [ih chain] at isLast
    exact merge?_eq_none_iff.mpr (between last isLast piece rfl)

/-! ## Blocks -/

/-- A block whose counts fit together is gathered into one piece, where nothing before it goes on with it. -/
theorem exists_gathers_block {front block : List Piece} (nonempty : block ≠ [])
    (chain : block.IsChain (Piece.continues · ·)) (fits : totalCount block < UInt32.size)
    (apart : ∀ last ∈ (ofList front).toList.getLast?, ∀ first ∈ block.head?, ¬ last.continues first) :
    ∃ piece, Gathers block piece ∧ (ofList (front ++ block)).toList = (ofList front).toList ++ [piece] := by
  induction block using List.reverseRecOn with
  | nil => exact absurd rfl nonempty
  | append_singleton parts next ih =>
    rw [← List.append_assoc, ofList_concat]
    by_cases alone : parts = []
    · subst alone
      rw [List.append_nil]
      refine ⟨next, .only next, ?_⟩
      rcases push_cases (ofList front) next with ⟨_, pushed⟩ | ⟨before, last, merged, whole, merge, _⟩
      · exact pushed
      · obtain ⟨unit, first, second, _⟩ := of_merge? merge
        have isLast : last ∈ (ofList front).toList.getLast? := by simp [whole]
        exact absurd (Piece.continues_iff.mpr ⟨unit, first, second⟩) (apart last isLast next rfl)
    · obtain ⟨chain', _, between⟩ := List.isChain_append.mp chain
      have total : totalCount (parts ++ [next]) = totalCount parts + next.count := by simp [totalCount]
      obtain ⟨piece, gathers, whole⟩ := ih alone chain' (by omega) fun last isLast first isFirst =>
        apart last isLast first (by simp_all)
      have isLast : parts.getLast alone ∈ parts.getLast? := by simp [List.getLast?_eq_some_getLast alone]
      obtain ⟨unit, first, second⟩ := Piece.continues_iff.mp (between _ isLast next rfl)
      have found : piece.unit? = some unit := (gathers.unit?_eq (List.getLast_mem alone)).symm.trans first
      rcases push_cases (ofList (front ++ parts)) next with
        ⟨apart', _⟩ | ⟨before, last, merged, pieces, merge, pushed⟩
      · -- the counts fit, so the piece is lengthened
        have full := apart' piece (by simp [whole]) (Piece.continues_iff.mpr ⟨unit, found, second⟩)
        rw [gathers.count_eq] at full
        omega
      · rw [whole] at pieces
        obtain ⟨rfl, same⟩ := List.append_inj' pieces rfl
        obtain rfl : piece = last := (List.cons_eq_cons.mp same).1
        exact ⟨merged, gathers.concat merge, pushed⟩

/-- Blocks that each fit are gathered into one piece each. -/
theorem gathers_flatten {parts : List (List Piece)} (nonempty : [] ∉ parts)
    (chains : ∀ block ∈ parts, block.IsChain (Piece.continues · ·))
    (boundaries : parts.IsChain fun block next =>
      ∃ some some', (block.getLast some).continues (next.head some') = false)
    (fits : ∀ block ∈ parts, totalCount block < UInt32.size) :
    List.Forall₂ Gathers parts (ofList parts.flatten).toList := by
  induction parts using List.reverseRecOn with
  | nil => exact .nil
  | append_singleton earlier block ih =>
    simp only [List.mem_append, List.mem_singleton, not_or, or_imp, forall_and, forall_eq] at nonempty chains fits
    obtain ⟨boundaries', _, between⟩ := List.isChain_append.mp boundaries
    have gathered := ih nonempty.1 chains.1 boundaries' fits.1
    have apart : ∀ last ∈ (ofList earlier.flatten).toList.getLast?, ∀ first ∈ block.head?,
        ¬ last.continues first := by
      intro last isLast first isFirst goesOn
      obtain ⟨front, pieces⟩ := List.getLast?_eq_some_iff.mp isLast
      rw [pieces] at gathered
      obtain ⟨_, before, rfl, _, gathers⟩ := exists_concat_of_forall₂ gathered
      obtain ⟨some, some', ends⟩ := between before (by simp) block rfl
      rw [List.head?_eq_some_head some'] at isFirst
      obtain rfl := Option.some.inj isFirst
      rw [Piece.continues, gathers.unit?_eq (List.getLast_mem some)] at ends
      exact absurd (ends.symm.trans goesOn) Bool.false_ne_true
    obtain ⟨piece, gathers, whole⟩ := exists_gathers_block (Ne.symm nonempty.2) chains.2 fits.2 apart
    rw [List.flatten_append, List.flatten_singleton, whole]
    exact List.rel_append gathered (.cons gathers .nil)

theorem gathers_blocks {pieces : List Piece} (fits : ∀ block ∈ blocks pieces, totalCount block < UInt32.size) :
    List.Forall₂ Gathers (blocks pieces) (ofList pieces).toList := by
  have gathered : List.Forall₂ Gathers (blocks pieces) (ofList (blocks pieces).flatten).toList :=
    gathers_flatten (List.nil_notMem_splitBy _ pieces) (fun block member => List.isChain_of_mem_splitBy member)
      (List.isChain_getLast_head_splitBy _ pieces) fits
  have whole : (blocks pieces).flatten = pieces := List.flatten_splitBy _ pieces
  rwa [whole] at gathered

theorem Resplit.totalCount_eq {block other : List Piece} (resplit : Resplit block other) :
    totalCount block = totalCount other := by
  cases resplit with
  | stretch => rfl
  | runs _ _ total => exact total

theorem fits_of_resplit {parts others : List (List Piece)} (resplit : List.Forall₂ Resplit parts others)
    (fits : ∀ block ∈ parts, totalCount block < UInt32.size) :
    ∀ other ∈ others, totalCount other < UInt32.size := by
  induction resplit with
  | nil => exact fits
  | cons same _ ih =>
    rw [List.forall_mem_cons] at fits ⊢
    exact ⟨same.totalCount_eq ▸ fits.1, ih fits.2⟩

theorem eq_of_forall₂_resplit {parts others : List (List Piece)} {pieces pieces' : List Piece}
    (resplit : List.Forall₂ Resplit parts others) (gathered : List.Forall₂ Gathers parts pieces)
    (gathered' : List.Forall₂ Gathers others pieces') : pieces = pieces' := by
  induction resplit generalizing pieces pieces' with
  | nil =>
    cases gathered
    cases gathered'
    rfl
  | cons same _ ih =>
    cases gathered with
    | cons gathers more =>
      cases gathered' with
      | cons gathers' more' => rw [gathers.eq_of_resplit gathers' same, ih more more']

/-- Runs split in another way are gathered into the same pieces. -/
theorem ofList_eq_of_resplit {pieces others : List Piece}
    (fits : ∀ block ∈ blocks pieces, totalCount block < UInt32.size)
    (resplit : List.Forall₂ Resplit (blocks pieces) (blocks others)) : ofList others = ofList pieces := by
  have fits' := fits_of_resplit resplit fits
  exact ext_toList (eq_of_forall₂_resplit resplit (gathers_blocks fits) (gathers_blocks fits')).symm

/-- Pushing keeps the text and its length, and what holds of some piece that is looked at by its sort alone. Each
gathered piece says what a stretch of pushed ones says, with their counts added up as numbers, and two neighbours
are runs of one unit only where their counts do not fit together; so gathering again changes nothing. Where the
counts of each block of runs fit together, there is one piece for each block, however the runs are split. -/
theorem ofList_gathers (pieces : List Piece) :
    (ofList pieces).source = String.join (pieces.map Piece.source) ∧
      (ofList pieces).textLen = Text.totalLen Piece.textLen pieces ∧
      (∃ groups, groups.flatten = pieces ∧ List.Forall₂ Gathers groups (ofList pieces).toList) ∧
      (ofList pieces).toList.IsChain Piece.StaysApart ∧
      ((ofList pieces).hasNewline ↔ ∃ piece ∈ pieces, piece.isNewline) ∧
      ((ofList pieces).hasComment ↔ ∃ piece ∈ pieces, piece.isComment) ∧
      ofList (ofList pieces).toList = ofList pieces ∧
      ((∀ block ∈ blocks pieces, totalCount block < UInt32.size) →
        List.Forall₂ Gathers (blocks pieces) (ofList pieces).toList ∧
          ∀ others, List.Forall₂ Resplit (blocks pieces) (blocks others) → ofList others = ofList pieces) := by
  refine ⟨source_ofList pieces, textLen_ofList pieces, exists_groups pieces, staysApart_ofList pieces, ?_, ?_,
    ?_, fun fits => ⟨gathers_blocks fits, fun others resplit => ofList_eq_of_resplit fits resplit⟩⟩
  · rw [hasNewline_ofList, List.any_eq_true]
  · rw [hasComment_ofList, List.any_eq_true]
  · exact ext_toList (toList_ofList_of_staysApart (staysApart_ofList pieces))

/-- Line feeds up to the greatest count, split in two ways around a comment. -/
theorem ofList_gathers_lineFeeds :
    let pieces :=
      [.run .space 2, .run .space 0, .stretch .lineComment "//", .run .newline 4294967290, .run .newline 5]
    let others := [.run .space 1, .run .space 1, .stretch .lineComment "//", .run .newline 4294967295]
    (∀ block ∈ blocks pieces, totalCount block < UInt32.size) ∧
      List.Forall₂ Resplit (blocks pieces) (blocks others) ∧ ofList others = ofList pieces := by
  intro pieces others
  have fits : ∀ block ∈ blocks pieces, totalCount block < UInt32.size := by decide
  have resplit : List.Forall₂ Resplit (blocks pieces) (blocks others) :=
    .cons (@Resplit.runs _ _ .space (by decide) (by decide) (by decide))
      (.cons (.stretch _ _) (.cons (@Resplit.runs _ _ .newline (by decide) (by decide) (by decide)) .nil))
  exact ⟨fits, resplit, ((ofList_gathers pieces).2.2.2.2.2.2.2 fits).2 others resplit⟩

end LosslessSyntax.Trivia
