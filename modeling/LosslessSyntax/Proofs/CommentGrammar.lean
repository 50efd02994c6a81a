import LosslessSyntax.Proofs.ByteScan

/-!
# A grammar of block comments

Block comments nest: inside of one stand further ones, and single characters at which none begins or ends.
The main statement, `blockCommentLen?_exact`, says that counting the depth byte by byte finds what this
grammar says. Both sides are compared through `nestingEnd?`: a body leaves the depth as it was
(`CommentBody.nestingEnd?_eq`), and where the depth comes back to zero a comment ends (`exists_commentBody`).
-/

namespace LosslessSyntax.Trivia

/-- At the front of a text stands the inside of a comment, and the second text follows it. A single character
belongs to the inside where the text from it on starts neither with an opening nor with a closing. -/
inductive CommentBody : List Char → List Char → Prop
  | done (rest : List Char) : CommentBody rest rest
  | comment {inner middle rest : List Char} : CommentBody inner ('*' :: '/' :: middle) →
    CommentBody middle rest → CommentBody ('/' :: '*' :: inner) rest
  | char {c : Char} {text rest : List Char} : ¬ ['/', '*'] <+: c :: text → ¬ ['*', '/'] <+: c :: text →
    CommentBody text rest → CommentBody (c :: text) rest

/-- At the front of a text stands a comment, and the second text follows it. -/
inductive Comment : List Char → List Char → Prop
  | mk {inner rest : List Char} : CommentBody inner ('*' :: '/' :: rest) → Comment ('/' :: '*' :: inner) rest

/-- The number of bytes that the loop counts for the comment at the front of a text. There is none when it
would close a comment while none is open. -/
def blockCommentLen? (text : String) : Option Nat := blockLen? 0 0 (utf8 text)

/-- The inside of a comment is passed without a change of depth. -/
theorem CommentBody.nestingEnd?_eq {text rest : List Char} (body : CommentBody text rest) :
    ∃ front, text = front ++ rest ∧ ∀ depth,
      nestingEnd? (depth + 1) text = (nestingEnd? (depth + 1) rest).map (· + front.length) := by
  induction body with
  | done rest =>
    refine ⟨[], rfl, fun depth => ?_⟩
    cases nestingEnd? (depth + 1) rest <;> rfl
  | comment _ _ ihInner ihRest =>
    obtain ⟨inside, rfl, passInside⟩ := ihInner
    obtain ⟨behind, rfl, passBehind⟩ := ihRest
    rename_i rest _ _
    refine ⟨'/' :: '*' :: inside ++ '*' :: '/' :: behind, by simp, fun depth => ?_⟩
    rw [nestingEnd?, passInside, nestingEnd?, passBehind]
    cases nestingEnd? (depth + 1) rest with
    | none => rfl
    | some n =>
      simp only [Option.map_some, Option.some.injEq, List.length_append, List.length_cons]
      omega
  | char opening closing _ ih =>
    obtain ⟨front, rfl, pass⟩ := ih
    rename_i c rest _
    refine ⟨c :: front, rfl, fun depth => ?_⟩
    rw [nestingEnd?_cons, pass]
    · cases nestingEnd? (depth + 1) rest with
      | none => rfl
      | some n => simp [Nat.add_assoc]
    · rwa [pair_prefix_iff] at opening
    · rwa [pair_prefix_iff] at closing

/-- The depth comes back to zero where a comment ends. -/
theorem Comment.nestingEnd?_eq {text rest : List Char} (comment : Comment text rest) :
    ∃ inside, text = '/' :: '*' :: inside ++ '*' :: '/' :: rest ∧
      nestingEnd? 0 text = some ('/' :: '*' :: inside ++ ['*', '/']).length := by
  cases comment with
  | mk body =>
    obtain ⟨inside, rfl, pass⟩ := body.nestingEnd?_eq
    refine ⟨inside, rfl, ?_⟩
    rw [nestingEnd?, pass, nestingEnd?]
    simp only [Option.map_some, Option.some.injEq, List.length_append, List.length_cons, List.length_nil]
    omega

/-- Where one of the open comments is closed, the inside of the last one ends. -/
theorem exists_commentBody (depth : Nat) (text : List Char) (closed : (nestingEnd? (depth + 1) text).isSome) :
    ∃ rest, CommentBody text ('*' :: '/' :: rest) ∧ (0 < depth → (nestingEnd? depth rest).isSome) := by
  match text with
  | [] => simp [nestingEnd?] at closed
  | c :: text =>
    by_cases opening : ['/', '*'] <+: c :: text
    · obtain ⟨rfl, inner, rfl⟩ : c = '/' ∧ ∃ inner, text = '*' :: inner := by
        rw [pair_prefix_iff, List.head?_eq_some_iff] at opening
        exact opening
      rw [nestingEnd?, Option.isSome_map] at closed
      -- one comment more is open: it is closed first, and what follows is shorter
      obtain ⟨middle, inside, further⟩ := exists_commentBody (depth + 1) inner closed
      have shorter : middle.length < inner.length := by
        obtain ⟨front, rfl, _⟩ := inside.nestingEnd?_eq
        simp only [List.length_append, List.length_cons]
        omega
      obtain ⟨rest, behind, others⟩ := exists_commentBody depth middle (further (Nat.succ_pos _))
      exact ⟨rest, .comment inside behind, others⟩
    · by_cases closing : ['*', '/'] <+: c :: text
      · obtain ⟨rfl, rest, rfl⟩ : c = '*' ∧ ∃ rest, text = '/' :: rest := by
          rw [pair_prefix_iff, List.head?_eq_some_iff] at closing
          exact closing
        refine ⟨rest, .done _, fun further => ?_⟩
        obtain ⟨depth, rfl⟩ := Nat.exists_eq_succ_of_ne_zero (Nat.ne_of_gt further)
        rwa [nestingEnd?, Option.isSome_map] at closed
      · rw [nestingEnd?_cons, Option.isSome_map] at closed
        · obtain ⟨rest, body, others⟩ := exists_commentBody depth text closed
          exact ⟨rest, .char opening closing body, others⟩
        · rwa [pair_prefix_iff] at opening
        · rwa [pair_prefix_iff] at closing
termination_by text.length
decreasing_by
  all_goals
    subst_vars
    simp only [List.length_cons]
    omega

theorem exists_comment {inner : List Char} (closed : (nestingEnd? 0 ('/' :: '*' :: inner)).isSome) :
    ∃ rest, Comment ('/' :: '*' :: inner) rest := by
  rw [nestingEnd?, Option.isSome_map] at closed
  obtain ⟨rest, body, _⟩ := exists_commentBody 0 inner closed
  exact ⟨rest, .mk body⟩

/-- A front part is a comment when it opens one and closes the last one with its last character, whatever
follows it. -/
theorem comment_append_iff {front rest : List Char} :
    Comment (front ++ rest) rest ↔ ['/', '*'] <+: front ∧ Closed front := by
  constructor
  · intro comment
    obtain ⟨inside, whole, found⟩ := comment.nestingEnd?_eq
    obtain rfl : front = '/' :: '*' :: inside ++ ['*', '/'] := by
      refine List.append_cancel_right (whole.trans ?_)
      rw [List.append_assoc]
      rfl
    refine ⟨⟨_, rfl⟩, ?_⟩
    have cut := (nestingEnd?_take found).2
    rwa [List.take_left] at cut
  · rintro ⟨⟨inner, rfl⟩, closed⟩
    have found := nestingEnd?_append closed rest
    rw [List.append_assoc] at found ⊢
    obtain ⟨other, comment⟩ : ∃ other, Comment ('/' :: '*' :: (inner ++ rest)) other :=
      exists_comment (Option.isSome_iff_exists.mpr ⟨_, found⟩)
    -- the depth comes back to zero only once, so the comment found ends with the front part
    obtain ⟨inside, whole, found'⟩ := comment.nestingEnd?_eq
    have length := Option.some.inj (found.symm.trans found')
    have whole' : ['/', '*'] ++ inner ++ rest = '/' :: '*' :: inside ++ ['*', '/'] ++ other := by
      rw [List.append_assoc ('/' :: '*' :: inside)]
      exact whole
    obtain ⟨_, rfl⟩ := List.append_inj whole' length
    exact comment

section Texts

variable {front rest : String}

/-- A comment at the front of a text, by its characters alone. -/
theorem Comment.parts (comment : Comment (front ++ rest).toList rest.toList) :
    ['/', '*'] <+: front.toList ∧ Closed front.toList := by
  rw [String.toList_append] at comment
  exact comment_append_iff.mp comment

/-- A text starts with at most one comment. -/
theorem Comment.front_eq {front' rest' : String} (comment : Comment (front ++ rest).toList rest.toList)
    (comment' : Comment (front' ++ rest').toList rest'.toList) (whole : front' ++ rest' = front ++ rest) :
    front' = front := by
  have found := nestingEnd?_append comment.parts.2 rest.toList
  have found' := nestingEnd?_append comment'.parts.2 rest'.toList
  have characters : front'.toList ++ rest'.toList = front.toList ++ rest.toList := by
    rw [← String.toList_append, ← String.toList_append, whole]
  rw [characters, found, Option.some.injEq] at found'
  exact String.toList_inj.mp (List.append_inj characters found'.symm).1

/-- A comment is counted whatever follows it, and all bytes are where it stays open. -/
theorem blockCommentLen?_append (opening : ['/', '*'] <+: front.toList)
    (ends : Closed front.toList ∨ Unclosed front.toList ∧ rest.toList = []) :
    blockCommentLen? (front ++ rest) = some front.utf8ByteSize := by
  obtain ⟨inner, begins⟩ := opening
  have whole : (front ++ rest).toList = '/' :: '*' :: (inner ++ rest.toList) := by
    rw [String.toList_append, ← begins]
    rfl
  have cut : cutBlock ('/' :: '*' :: (inner ++ rest.toList)) = (front.toList, rest.toList) :=
    cutBlock_eq_iff.mpr ⟨by rw [← whole, String.toList_append], ends⟩
  rw [blockCommentLen?, utf8_eq, whole, blockLen?_block, cut, String.ofList_toList]

theorem two_le_utf8ByteSize (opening : ['/', '*'] <+: front.toList) : 2 ≤ front.utf8ByteSize := by
  obtain ⟨inner, begins⟩ := opening
  have slash : Char.utf8Size '/' = 1 := rfl
  have star : Char.utf8Size '*' = 1 := rfl
  rw [← String.ofList_toList (s := front), ← begins, List.cons_append, List.cons_append, utf8ByteSize_cons,
    utf8ByteSize_cons, slash, star]
  omega

/-- A text that opens a comment has one at its front, or all of it stays open. -/
theorem exists_comment_or_unclosed {text : String} (opening : ['/', '*'] <+: text.toList) :
    ∃ front rest, front ++ rest = text ∧ ['/', '*'] <+: front.toList ∧
      (Comment text.toList rest.toList ∧ Closed front.toList ∨ Unclosed front.toList ∧ rest.toList = []) := by
  cases found : nestingEnd? 0 text.toList with
  | none => exact ⟨text, "", String.append_empty, opening, .inr ⟨found, rfl⟩⟩
  | some n =>
    obtain ⟨inner, begins⟩ := opening
    rw [← begins] at found
    obtain ⟨rest, comment⟩ := exists_comment (Option.isSome_of_eq_some found)
    obtain ⟨inside, whole, _⟩ := comment.nestingEnd?_eq
    have parts : String.ofList ('/' :: '*' :: inside ++ ['*', '/']) ++ String.ofList rest = text := by
      rw [← String.ofList_append, ← String.toList_inj, String.toList_ofList, ← begins, List.append_assoc]
      exact whole.symm
    have comment' : Comment text.toList (String.ofList rest).toList := by
      rw [← begins, String.toList_ofList]
      exact comment
    rw [← parts] at comment'
    refine ⟨_, _, parts, comment'.parts.1, .inl ⟨?_, comment'.parts.2⟩⟩
    rwa [← parts]

end Texts

/-- The length of a block comment is found exactly. That a comment stands at the front of a text does not depend
on the rest of the text. Where one does, no other one does, and its bytes are counted, whatever follows it. Where
none does, all bytes are. There always is a length, so no comment is closed that was not opened, it takes in the
opening, and it ends between characters. -/
theorem blockCommentLen?_exact (text : String) (opening : ['/', '*'] <+: text.toList) :
    (∀ front rest, front ++ rest = text → (Comment text.toList rest.toList ↔ Comment front.toList [])) ∧
    (∀ front rest, front ++ rest = text → Comment text.toList rest.toList →
      blockCommentLen? text = some front.utf8ByteSize ∧
      (∀ front' rest', front' ++ rest' = text → Comment text.toList rest'.toList → front' = front) ∧
      ∀ more, Comment (front ++ more).toList more.toList ∧
        blockCommentLen? (front ++ more) = some front.utf8ByteSize) ∧
    ((∀ rest, ¬ Comment text.toList rest) → blockCommentLen? text = some text.utf8ByteSize) ∧
    ∃ front rest, cutAt? text front.utf8ByteSize = some (front, rest) ∧
      blockCommentLen? text = some front.utf8ByteSize ∧ 2 ≤ front.utf8ByteSize := by
  obtain ⟨first, behind, split, begins, ends⟩ := exists_comment_or_unclosed opening
  have counted : blockCommentLen? text = some first.utf8ByteSize := by
    rw [← split, blockCommentLen?_append begins (ends.imp_left And.right)]
  refine ⟨?alone, ?one, fun noComment => ?none, first, behind, ?cut, counted, two_le_utf8ByteSize begins⟩
  case alone =>
    rintro front rest rfl
    have alone : Comment (front.toList ++ []) [] ↔ _ := comment_append_iff
    rw [List.append_nil] at alone
    rw [String.toList_append, comment_append_iff, alone]
  case one =>
    rintro front rest rfl comment
    obtain ⟨begins, closed⟩ := comment.parts
    refine ⟨blockCommentLen?_append begins (.inl closed), fun front' rest' whole comment' => ?_, fun more => ⟨?_, ?_⟩⟩
    · rw [← whole] at comment'
      exact comment.front_eq comment' whole
    · rw [String.toList_append]
      exact comment_append_iff.mpr ⟨begins, closed⟩
    · exact blockCommentLen?_append begins (.inl closed)
  case none =>
    rcases ends with ⟨comment, _⟩ | ⟨_, nothing⟩
    · exact absurd comment (noComment _)
    · rw [counted, ← split, String.toList_eq_nil_iff.mp nothing, String.append_empty]
  case cut => exact cutAt?_eq_some_iff.mpr ⟨split, rfl⟩

/-- A comment within a comment is passed, and `/*/` opens one without closing it. -/
theorem blockCommentLen?_exact_nested :
    blockCommentLen? "/*/**/é*/b" = some 10 ∧ blockCommentLen? "/*/" = some 3 := by
  have nested : Comment "/*/**/é*/b".toList "b".toList :=
    .mk (.comment (.done _) (.char (by decide) (by decide) (.done _)))
  have stays (rest : List Char) : ¬ Comment "/*/".toList rest := by
    intro comment
    have unclosed : Unclosed "/*/".toList := by decide
    obtain ⟨_, _, found⟩ := comment.nestingEnd?_eq
    cases unclosed.symm.trans found
  exact ⟨((blockCommentLen?_exact "/*/**/é*/b" (by decide)).2.1 "/*/**/é*/" "b" rfl nested).1,
    (blockCommentLen?_exact "/*/" (by decide)).2.2.1 stays⟩

end LosslessSyntax.Trivia
