import LosslessSyntax.Token.Tag
import LosslessSyntax.Token.Keyword
import LosslessSyntax.Text.Basic

/-!
# Token kinds

A token kind is a tag with the text or the keyword that goes with it. A lexeme is the form in which
a lexer hands over a token: a tag and the text it covers. Reading a lexeme gives a kind, or says
why the tag and the text do not belong together. `FlatKind` lists the kinds with no sorts to group them,
with a table for each question, and `FlatKind.tryLift_eq` ties its reading of lexemes to this one.
-/

namespace LosslessSyntax

/-- What a token is: a fixed tag, a keyword, or a free tag with its text. -/
inductive TokenKind where
  | fixed (tag : FixedTag)
  | keyword (keyword : Keyword)
  | free (tag : FreeTag) (text : String)
  deriving DecidableEq

/-- Why a tag and a text make no token. -/
inductive LexemeError where
  /-- The text under the keyword tag is no keyword. -/
  | unknownKeyword (text : String)
  /-- The text under a fixed tag is neither empty nor the spelling. -/
  | misspelling (tag : Tag) (text : String)
  deriving DecidableEq

def LexemeError.message : LexemeError → String
  | .unknownKeyword text => "`" ++ text ++ "` was lexed as a keyword but is not one"
  | .misspelling tag text =>
    tag.name ++ " token must be spelled `" ++ tag.spelling?.getD "" ++ "`, got `" ++ text ++ "`"

namespace TokenKind

def tag : TokenKind → Tag
  | .fixed tag => .fixed tag
  | .keyword _ => .keyword
  | .free tag _ => .free tag

/-- The text of its own that a kind carries. -/
def payload? : TokenKind → Option String
  | .free _ text => some text
  | .fixed _ | .keyword _ => none

def keyword? : TokenKind → Option Keyword
  | .keyword word => some word
  | .fixed _ | .free _ _ => none

/-- The spelling that follows from the kind alone. -/
def canonicalText? : TokenKind → Option String
  | .fixed tag => some tag.spelling
  | .keyword word => some word.spelling
  | .free _ _ => none

/-- The source text of a kind. -/
def text : TokenKind → String
  | .fixed tag => tag.spelling
  | .keyword word => word.spelling
  | .free _ text => text

/-- The wording for messages; a keyword goes by its spelling. -/
def label : TokenKind → String
  | .fixed tag => tag.label
  | .keyword word => word.spelling
  | .free tag _ => tag.label

/-- Whether the text can never be a plain identifier: reserved words and directives. -/
def isReserved : TokenKind → Bool
  | .fixed tag => tag.isDirective
  | .keyword word => word.isReserved
  | .free _ _ => false

def isPunctuation (kind : TokenKind) : Bool := kind.tag.isPunctuation

/-- The kind of a lexeme. A fixed tag takes its spelling or nothing, the keyword tag takes the
spelling of a keyword, and a free tag takes any text. That the text of a free tag is interned, which
may be refused, is left to `FlatKind.tryLift`. -/
def ofLexeme (tag : Tag) (text : String) : Except LexemeError TokenKind :=
  match tag with
  | .fixed sort =>
    if text = "" ∨ text = sort.spelling then .ok (.fixed sort)
    else .error (.misspelling tag text)
  | .keyword =>
    match Keyword.ofSpelling? text with
    | some word => .ok (.keyword word)
    | none => .error (.unknownKeyword text)
  | .free sort => .ok (.free sort text)

/-- The tag of a kind, and its text where the tag leaves it open. -/
def lexeme (kind : TokenKind) : Tag × Option String :=
  match kind with
  | .fixed tag => (.fixed tag, none)
  | .keyword word => (.keyword, some word.spelling)
  | .free tag text => (.free tag, some text)

/-- The kind for debugging output: the name of the tag, then what it carries. -/
def inspect : TokenKind → String
  | .fixed tag => tag.name
  | .keyword word => "Keyword(" ++ word.name ++ ")"
  | .free tag text => tag.name ++ "(" ++ Text.quote text ++ ")"

end TokenKind

end LosslessSyntax
