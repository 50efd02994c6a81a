import Mathlib.Data.List.Induction
import LosslessSyntax.Token.Basic

/-!
# Edits of tokens

Edits of a token, one after the other. Whether the token is present never changes; a missing token takes a
kind and nothing else, and a present one has in each part the last value given to it. The main statement is
`editAll_keeps`, about tokens that carry their presence as a flag (`FlaggedToken`). Only the edits themselves
keep trivia off the missing ones, and `Kept` is what each of them preserves.
-/

namespace LosslessSyntax

/-- A new value for one part of a token. -/
inductive TokenEdit where
  | leading (trivia : Trivia)
  | trailing (trivia : Trivia)
  | kind (kind : TokenKind)

namespace TokenEdit

def leading? : TokenEdit → Option Trivia
  | .leading trivia => some trivia
  | .trailing _ | .kind _ => none

def trailing? : TokenEdit → Option Trivia
  | .trailing trivia => some trivia
  | .leading _ | .kind _ => none

def kind? : TokenEdit → Option TokenKind
  | .kind value => some value
  | .leading _ | .trailing _ => none

/-- The last value that edits give to a part, or else the value at first. -/
def last {α : Type} (part? : TokenEdit → Option α) (first : α) (edits : List TokenEdit) : α :=
  (edits.filterMap part?).getLast?.getD first

theorem last_concat {α : Type} (part? : TokenEdit → Option α) (first : α) (edits : List TokenEdit)
    (edit : TokenEdit) : last part? first (edits ++ [edit]) = (part? edit).getD (last part? first edits) := by
  rw [last, List.filterMap_append, List.getLast?_append]
  cases given : part? edit with
  | none => simp [given, last]
  | some value => simp [given]

end TokenEdit

def Token.edit (token : Token) : TokenEdit → Token
  | .leading trivia => token.withLeading trivia
  | .trailing trivia => token.withTrailing trivia
  | .kind kind => token.withKind kind

/-- The token after edits one after the other. -/
def Token.editAll (token : Token) (edits : List TokenEdit) : Token := edits.foldl Token.edit token

namespace FlaggedToken

/-- The tokens that edits start from. -/
inductive Made : FlaggedToken → Prop
  | present (kind : TokenKind) (leading trailing : Trivia) : Made (.present kind leading trailing)
  | bare (kind : TokenKind) : Made (.bare kind)
  | read {tag : Tag} {text : String} {leading trailing : Trivia} {token : FlaggedToken} :
    ofLexeme tag text leading trailing = .ok token → Made token
  | missing (kind : TokenKind) : Made (.missing kind)

def edit (token : FlaggedToken) : TokenEdit → FlaggedToken
  | .leading trivia => token.withLeading trivia
  | .trailing trivia => token.withTrailing trivia
  | .kind kind => token.withKind kind

/-- The token after edits one after the other. -/
def editAll (token : FlaggedToken) (edits : List TokenEdit) : FlaggedToken := edits.foldl edit token

section Last

variable (start : FlaggedToken) (edits : List TokenEdit)

/-- The last kind that edits give, or else the one at first. -/
def lastKind : TokenKind := TokenEdit.last TokenEdit.kind? start.kind edits

/-- The last trivia that edits give for in front, or else the one at first. -/
def lastLeading : Trivia := TokenEdit.last TokenEdit.leading? start.leading edits

/-- The last trivia that edits give for behind, or else the one at first. -/
def lastTrailing : Trivia := TokenEdit.last TokenEdit.trailing? start.trailing edits

end Last

/-- Two tokens with edits have the same presence and the same last values. Where they are missing, the kind is the
only one. -/
structure SameLast (start : FlaggedToken) (edits : List TokenEdit) (other : FlaggedToken)
    (edits' : List TokenEdit) : Prop where
  presence : start.presence = other.presence
  kind : start.lastKind edits = other.lastKind edits'
  trivia : start.presence = .present →
    start.lastLeading edits = other.lastLeading edits' ∧ start.lastTrailing edits = other.lastTrailing edits'

section Presence

variable {token : FlaggedToken} (change : TokenEdit)

/-- A missing token takes a kind and nothing else. -/
theorem edit_of_missing (missing : token.presence = .missing) :
    token.edit change = { token with kind := change.kind?.getD token.kind } := by
  have flag : token.isMissing := decide_eq_true missing
  cases change with
  | leading trivia => exact if_pos flag
  | trailing trivia => exact if_pos flag
  | kind value => rfl

/-- A present token takes a value in each part. -/
theorem edit_of_present (present : token.presence = .present) :
    token.edit change = { token with
      kind := change.kind?.getD token.kind
      leading := change.leading?.getD token.leading
      trailing := change.trailing?.getD token.trailing } := by
  have flag : ¬ token.isMissing := by simp [isMissing, present]
  cases change with
  | leading trivia => exact if_neg flag
  | trailing trivia => exact if_neg flag
  | kind value => rfl

end Presence

/-- What edits keep of the token they started from: its presence, and in each part the last value given to it, but
no trivia where the token is missing. -/
structure Kept (start : FlaggedToken) (edits : List TokenEdit) (token : FlaggedToken) : Prop where
  presence : token.presence = start.presence
  kind : token.kind = start.lastKind edits
  of_missing : start.presence = .missing → token.leading = .empty ∧ token.trailing = .empty
  of_present : start.presence = .present →
    token.leading = start.lastLeading edits ∧ token.trailing = start.lastTrailing edits

theorem exists_present_of_ofLexeme {tag : Tag} {text : String} {leading trailing : Trivia} {token : FlaggedToken}
    (read : ofLexeme tag text leading trailing = .ok token) : ∃ kind, token = present kind leading trailing := by
  rw [ofLexeme] at read
  cases kind : TokenKind.ofLexeme tag text with
  | error refusal =>
    rw [kind] at read
    cases read
  | ok kind' =>
    rw [kind] at read
    cases read
    exact ⟨kind', rfl⟩

theorem Made.kept {start : FlaggedToken} (made : start.Made) : Kept start [] start := by
  refine ⟨rfl, rfl, fun missing => ?_, fun _ => ⟨rfl, rfl⟩⟩
  cases made with
  | missing kind => exact ⟨rfl, rfl⟩
  | present kind leading trailing => cases missing
  | bare kind => cases missing
  | read read =>
    rename_i tag text leading trailing
    obtain ⟨kind, rfl⟩ := exists_present_of_ofLexeme read
    cases missing

/-- Each edit changes the part that it is for, and none but the kind where the token is missing. -/
theorem Kept.edit {start token : FlaggedToken} {edits : List TokenEdit} (kept : Kept start edits token)
    (change : TokenEdit) : Kept start (edits ++ [change]) (token.edit change) := by
  cases presence : token.presence with
  | missing =>
    rw [edit_of_missing change presence]
    refine ⟨kept.presence, ?_, kept.of_missing, fun present => ?_⟩
    · rw [lastKind, TokenEdit.last_concat, kept.kind, lastKind]
    · cases presence.symm.trans (kept.presence.trans present)
  | present =>
    rw [edit_of_present change presence]
    refine ⟨kept.presence, ?_, fun missing => ?_, fun present => ?_⟩
    · rw [lastKind, TokenEdit.last_concat, kept.kind, lastKind]
    · cases presence.symm.trans (kept.presence.trans missing)
    · obtain ⟨leading, trailing⟩ := kept.of_present present
      rw [lastLeading, lastTrailing, TokenEdit.last_concat, TokenEdit.last_concat, leading, trailing]
      exact ⟨rfl, rfl⟩

/-- What one edit keeps, any number of edits keeps. -/
theorem Made.kept_editAll {start : FlaggedToken} (made : start.Made) (edits : List TokenEdit) :
    Kept start edits (start.editAll edits) := by
  induction edits using List.reverseRecOn with
  | nil => exact made.kept
  | append_singleton front change ih =>
    rw [editAll, List.foldl_append]
    exact ih.edit change

theorem readings_of_missing {token : FlaggedToken} (missing : token.presence = .missing) :
    token.text = "" ∧ token.textLen = 0 ∧ token.source = "" := by
  simp [text, textLen, source, isMissing, missing]

theorem readings_of_present {token : FlaggedToken} (present : token.presence = .present) :
    token.text = token.kind.text ∧
      token.source = token.leading.source ++ token.kind.text ++ token.trailing.source ∧
      token.textLen = token.source.utf8ByteSize := by
  simp [text, textLen, source, isMissing, present, String.utf8ByteSize_append, Trivia.textLen_eq]

theorem flagged_edit (token : Token) (change : TokenEdit) :
    (token.edit change).flagged = token.flagged.edit change := by
  cases token <;> cases change <;> rfl

theorem flagged_editAll (token : Token) (edits : List TokenEdit) :
    (token.editAll edits).flagged = token.flagged.editAll edits := by
  induction edits generalizing token with
  | nil => rfl
  | cons change rest ih => rw [Token.editAll, List.foldl_cons, ← Token.editAll, ih, flagged_edit]; rfl

/-- Tokens read alike with the flag and without. -/
theorem readings_flagged (token : Token) :
    token.flagged.text = token.text ∧ token.flagged.textLen = token.textLen ∧
      token.flagged.source = token.source ∧ token.flagged.isMissing = token.isMissing := by
  cases token <;> exact ⟨rfl, rfl, rfl, rfl⟩

theorem Made.exists_flagged {start : FlaggedToken} (made : start.Made) :
    ∃ token : Token, token.flagged = start := by
  cases made with
  | missing kind => exact ⟨.missing kind, rfl⟩
  | present kind leading trailing => exact ⟨.present kind leading trailing, rfl⟩
  | bare kind => exact ⟨.bare kind, rfl⟩
  | read read =>
    obtain ⟨kind, rfl⟩ := exists_present_of_ofLexeme read
    exact ⟨.present kind _ _, rfl⟩

/-- What is kept of the start tells the edited token. -/
theorem Kept.eq {start other token token' : FlaggedToken} {edits edits' : List TokenEdit}
    (kept : Kept start edits token) (kept' : Kept other edits' token') (same : SameLast start edits other edits') :
    token = token' := by
  have sameKind : token.kind = token'.kind := by rw [kept.kind, same.kind, kept'.kind]
  have samePresence : token.presence = token'.presence := by
    rw [kept.presence, same.presence, kept'.presence]
  have sameTrivia : token.leading = token'.leading ∧ token.trailing = token'.trailing := by
    cases flag : start.presence with
    | missing =>
      obtain ⟨leading, trailing⟩ := kept.of_missing flag
      obtain ⟨leading', trailing'⟩ := kept'.of_missing (same.presence ▸ flag)
      exact ⟨leading.trans leading'.symm, trailing.trans trailing'.symm⟩
    | present =>
      obtain ⟨leading, trailing⟩ := kept.of_present flag
      obtain ⟨leading', trailing'⟩ := kept'.of_present (same.presence ▸ flag)
      rw [leading, leading', trailing, trailing']
      exact same.trivia flag
  exact FlaggedToken.ext sameKind sameTrivia.1 sameTrivia.2 samePresence

end FlaggedToken

/-- Edits never change whether a token is present. A missing one has no trivia, no text and no length after any
edits, and the last kind given to it. A present one has in each part the last value given to that part, or the one
it had at first; it prints them in their order, and its length is that of what it prints. So only these last values
matter. Tokens without a flag take the same edits and read alike. -/
theorem editAll_keeps {start : FlaggedToken} (made : start.Made) (edits : List TokenEdit) :
    (start.editAll edits).presence = start.presence ∧
      (start.editAll edits).kind = start.lastKind edits ∧
      (start.presence = .missing → (start.editAll edits).leading = .empty ∧
        (start.editAll edits).trailing = .empty ∧
        (start.editAll edits).text = "" ∧ (start.editAll edits).textLen = 0 ∧
        (start.editAll edits).source = "") ∧
      (start.presence = .present → (start.editAll edits).leading = start.lastLeading edits ∧
        (start.editAll edits).trailing = start.lastTrailing edits ∧
        (start.editAll edits).text = (start.editAll edits).kind.text ∧
        (start.editAll edits).source = (start.editAll edits).leading.source ++ (start.editAll edits).kind.text ++
          (start.editAll edits).trailing.source ∧
        (start.editAll edits).textLen = (start.editAll edits).source.utf8ByteSize) ∧
      (∀ (other : FlaggedToken) (edits' : List TokenEdit), other.Made →
        FlaggedToken.SameLast start edits other edits' → start.editAll edits = other.editAll edits') ∧
      ∃ token : Token, token.flagged = start ∧ (token.editAll edits).flagged = start.editAll edits ∧
        (start.editAll edits).text = (token.editAll edits).text ∧
        (start.editAll edits).textLen = (token.editAll edits).textLen ∧
        (start.editAll edits).source = (token.editAll edits).source := by
  have kept := made.kept_editAll edits
  refine ⟨kept.presence, kept.kind, fun missing => ?_, fun present => ?_,
    fun other edits' made' => kept.eq (made'.kept_editAll edits'), ?_⟩
  · obtain ⟨leading, trailing⟩ := kept.of_missing missing
    exact ⟨leading, trailing, FlaggedToken.readings_of_missing (kept.presence.trans missing)⟩
  · obtain ⟨leading, trailing⟩ := kept.of_present present
    exact ⟨leading, trailing, FlaggedToken.readings_of_present (kept.presence.trans present)⟩
  · obtain ⟨token, rfl⟩ := made.exists_flagged
    obtain ⟨text, textLen, source, _⟩ := FlaggedToken.readings_flagged (token.editAll edits)
    rw [FlaggedToken.flagged_editAll] at text textLen source
    exact ⟨token, rfl, FlaggedToken.flagged_editAll token edits, text, textLen, source⟩

/-- A missing token stays blank under trivia, and to a present one it makes no difference that it is given
another kind before its last values. -/
theorem editAll_keeps_separators :
    (FlaggedToken.missing (.fixed .rightAngle)).Made ∧
      ((FlaggedToken.missing (.fixed .rightAngle)).editAll
        [.leading (.spaces 2), .kind (.fixed .comma)]).source = "" ∧
      (FlaggedToken.bare (.fixed .comma)).Made ∧
      (FlaggedToken.bare (.fixed .comma)).editAll
          [.kind (.fixed .colon), .trailing (.spaces 1), .kind (.fixed .semicolon)] =
        (FlaggedToken.bare (.fixed .comma)).editAll [.trailing (.spaces 1), .kind (.fixed .semicolon)] := by
  have missing : (FlaggedToken.missing (.fixed .rightAngle)).Made := .missing _
  have bare : (FlaggedToken.bare (.fixed .comma)).Made := .bare _
  obtain ⟨_, _, blank, _⟩ := editAll_keeps missing [.leading (.spaces 2), .kind (.fixed .comma)]
  obtain ⟨_, _, _, _, alike, _⟩ :=
    editAll_keeps bare [.kind (.fixed .colon), .trailing (.spaces 1), .kind (.fixed .semicolon)]
  exact ⟨missing, (blank rfl).2.2.2.2, bare,
    alike _ [.trailing (.spaces 1), .kind (.fixed .semicolon)] bare ⟨rfl, rfl, fun _ => ⟨rfl, rfl⟩⟩⟩

end LosslessSyntax
