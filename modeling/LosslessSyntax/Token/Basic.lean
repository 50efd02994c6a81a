import LosslessSyntax.Token.Kind
import LosslessSyntax.Trivia.Scan

/-!
# Tokens

A token is a kind with the trivia before and after it. A missing token stands where the grammar
wants one and the source has none: it keeps its kind, has no trivia and prints nothing.

`FlaggedToken` is the same token with everything kept that could go wrong: presence is a flag beside the other parts,
so that a missing token has room for trivia too, and every reading and every edit looks at the flag by itself.
-/

namespace LosslessSyntax

/-- Whether a token stands in the source. -/
inductive Presence where
  | present
  | missing
  deriving DecidableEq

def Presence.name : Presence → String
  | .present => "Present"
  | .missing => "Missing"

/-- A token with its trivia, or the place of a token that the source lacks. -/
inductive Token where
  | present (kind : TokenKind) (leading trailing : Trivia)
  | missing (kind : TokenKind)
  deriving DecidableEq

namespace Token

/-- A present token without trivia. -/
def bare (kind : TokenKind) : Token := .present kind .empty .empty

/-- The present token of a lexeme. -/
def ofLexeme (tag : Tag) (text : String) (leading trailing : Trivia) : Except LexemeError Token :=
  (TokenKind.ofLexeme tag text).map (.present · leading trailing)

def kind : Token → TokenKind
  | .present kind _ _ | .missing kind => kind

def presence : Token → Presence
  | .present _ _ _ => .present
  | .missing _ => .missing

/-- Whether the source lacks the token. -/
def isMissing (token : Token) : Bool := token.presence = .missing

def leading : Token → Trivia
  | .present _ leading _ => leading
  | .missing _ => .empty

def trailing : Token → Trivia
  | .present _ _ trailing => trailing
  | .missing _ => .empty

/-- The token's own text, without trivia. -/
def text : Token → String
  | .present kind _ _ => kind.text
  | .missing _ => ""

/-- The byte length of the token with its trivia. -/
def textLen : Token → Nat
  | .present kind leading trailing =>
    leading.textLen + kind.text.utf8ByteSize + trailing.textLen
  | .missing _ => 0

/-- The source text of the token with its trivia. -/
def source : Token → String
  | .present kind leading trailing => leading.source ++ kind.text ++ trailing.source
  | .missing _ => ""

/-- Another trivia before the token. A missing token has no place for it. -/
def withLeading (trivia : Trivia) : Token → Token
  | .present kind _ trailing => .present kind trivia trailing
  | .missing kind => .missing kind

/-- Another trivia after the token. A missing token has no place for it. -/
def withTrailing (trivia : Trivia) : Token → Token
  | .present kind leading _ => .present kind leading trivia
  | .missing kind => .missing kind

/-- Another kind; trivia and presence stay. -/
def withKind (kind : TokenKind) : Token → Token
  | .present _ leading trailing => .present kind leading trailing
  | .missing _ => .missing kind

/-- The length of a token is the length of its source. -/
theorem textLen_eq (token : Token) : token.textLen = token.source.utf8ByteSize := by
  cases token with
  | present kind leading trailing =>
    simp only [textLen, source, String.utf8ByteSize_append, leading.textLen_eq, trailing.textLen_eq]
  | missing kind => rfl

/-- A missing token has neither text nor length. -/
theorem source_of_isMissing {token : Token} (missing : token.isMissing) :
    token.source = "" ∧ token.textLen = 0 := by
  cases token with
  | present kind leading trailing => simp [isMissing, presence] at missing
  | missing kind => exact ⟨rfl, rfl⟩

end Token

/-- A token as a record of its parts. -/
@[ext]
structure FlaggedToken where
  kind : TokenKind
  leading : Trivia
  trailing : Trivia
  presence : Presence
  deriving DecidableEq

namespace FlaggedToken

def present (kind : TokenKind) (leading trailing : Trivia) : FlaggedToken :=
  ⟨kind, leading, trailing, .present⟩

def bare (kind : TokenKind) : FlaggedToken := present kind .empty .empty

def ofLexeme (tag : Tag) (text : String) (leading trailing : Trivia) : Except LexemeError FlaggedToken :=
  (TokenKind.ofLexeme tag text).map (present · leading trailing)

def missing (kind : TokenKind) : FlaggedToken := ⟨kind, .empty, .empty, .missing⟩

def isMissing (token : FlaggedToken) : Bool := token.presence = .missing

def text (token : FlaggedToken) : String :=
  match token.presence with
  | .present => token.kind.text
  | .missing => ""

def textLen (token : FlaggedToken) : Nat :=
  match token.presence with
  | .present => token.leading.textLen + token.kind.text.utf8ByteSize + token.trailing.textLen
  | .missing => 0

def source (token : FlaggedToken) : String :=
  if token.isMissing then "" else token.leading.source ++ token.kind.text ++ token.trailing.source

def withLeading (trivia : Trivia) (token : FlaggedToken) : FlaggedToken :=
  if token.isMissing then token else { token with leading := trivia }

def withTrailing (trivia : Trivia) (token : FlaggedToken) : FlaggedToken :=
  if token.isMissing then token else { token with trailing := trivia }

def withKind (kind : TokenKind) (token : FlaggedToken) : FlaggedToken := { token with kind }

end FlaggedToken

/-- The record of a token. Where the source lacks it, there is no trivia. -/
def Token.flagged : Token → FlaggedToken
  | .present kind leading trailing => .present kind leading trailing
  | .missing kind => .missing kind

end LosslessSyntax
