/-!
# Token tags

A tag is the sort of a token without its text. Most tags have one spelling, a few leave the text
open, and all keywords share one tag. Tags are numbered densely: end of input first, then by name.
They are grouped by these sorts here; `FlatTag` lists them with no groups.
-/

namespace LosslessSyntax

/-- Tags whose tokens are all spelled alike. -/
inductive FixedTag where
  | eof | arrow | atSign | backslash | backtick | colon | comma | ellipsis | equal
  | exclamationMark | infixQuestionMark | leftAngle | leftBrace | leftParen | leftSquare
  | multilineStringQuote | period | postfixQuestionMark | pound | poundAvailable | poundElse
  | poundElseif | poundEndif | poundIf | poundSourceLocation | poundUnavailable | prefixAmpersand
  | rightAngle | rightBrace | rightParen | rightSquare | semicolon | singleQuote | stringQuote
  | wildcard
  deriving DecidableEq

/-- Tags whose tokens carry any text. -/
inductive FreeTag where
  | binaryOperator | dollarIdentifier | floatLiteral | identifier | integerLiteral
  | postfixOperator | prefixOperator | rawStringDelimiter | regexLiteral | stringSegment | unknown
  deriving DecidableEq

/-- The sort of a token, without its text. -/
inductive Tag where
  | fixed (tag : FixedTag)
  | keyword
  | free (tag : FreeTag)
  deriving DecidableEq

namespace FixedTag

def name : FixedTag → String
  | .eof => "Eof"
  | .arrow => "Arrow"
  | .atSign => "AtSign"
  | .backslash => "Backslash"
  | .backtick => "Backtick"
  | .colon => "Colon"
  | .comma => "Comma"
  | .ellipsis => "Ellipsis"
  | .equal => "Equal"
  | .exclamationMark => "ExclamationMark"
  | .infixQuestionMark => "InfixQuestionMark"
  | .leftAngle => "LeftAngle"
  | .leftBrace => "LeftBrace"
  | .leftParen => "LeftParen"
  | .leftSquare => "LeftSquare"
  | .multilineStringQuote => "MultilineStringQuote"
  | .period => "Period"
  | .postfixQuestionMark => "PostfixQuestionMark"
  | .pound => "Pound"
  | .poundAvailable => "PoundAvailable"
  | .poundElse => "PoundElse"
  | .poundElseif => "PoundElseif"
  | .poundEndif => "PoundEndif"
  | .poundIf => "PoundIf"
  | .poundSourceLocation => "PoundSourceLocation"
  | .poundUnavailable => "PoundUnavailable"
  | .prefixAmpersand => "PrefixAmpersand"
  | .rightAngle => "RightAngle"
  | .rightBrace => "RightBrace"
  | .rightParen => "RightParen"
  | .rightSquare => "RightSquare"
  | .semicolon => "Semicolon"
  | .singleQuote => "SingleQuote"
  | .stringQuote => "StringQuote"
  | .wildcard => "Wildcard"

/-- The spelling shared by every token with this tag. The end of input is spelled as nothing. -/
def spelling : FixedTag → String
  | .eof => ""
  | .arrow => "->"
  | .atSign => "@"
  | .backslash => "\\"
  | .backtick => "`"
  | .colon => ":"
  | .comma => ","
  | .ellipsis => "..."
  | .equal => "="
  | .exclamationMark => "!"
  | .infixQuestionMark => "?"
  | .leftAngle => "<"
  | .leftBrace => "\x7b"
  | .leftParen => "("
  | .leftSquare => "["
  | .multilineStringQuote => "\"\"\""
  | .period => "."
  | .postfixQuestionMark => "?"
  | .pound => "#"
  | .poundAvailable => "#available"
  | .poundElse => "#else"
  | .poundElseif => "#elseif"
  | .poundEndif => "#endif"
  | .poundIf => "#if"
  | .poundSourceLocation => "#sourceLocation"
  | .poundUnavailable => "#unavailable"
  | .prefixAmpersand => "&"
  | .rightAngle => ">"
  | .rightBrace => "\x7d"
  | .rightParen => ")"
  | .rightSquare => "]"
  | .semicolon => ";"
  | .singleQuote => "'"
  | .stringQuote => "\""
  | .wildcard => "_"

/-- The conditional compilation directives, the only fixed tags that count as keywords. -/
def isDirective : FixedTag → Bool
  | .poundAvailable | .poundElse | .poundElseif | .poundEndif | .poundIf | .poundSourceLocation
  | .poundUnavailable => true
  | _ => false

/-- Punctuation separates names from each other. The end of input, the wildcard and the directives
are not punctuation. -/
def isPunctuation : FixedTag → Bool
  | .eof | .wildcard => false
  | tag => !tag.isDirective

/-- The wording for messages: the spelling, unless that would tell the reader nothing. -/
def label : FixedTag → String
  | .eof => "end of file"
  | .wildcard => "wildcard"
  | tag => tag.spelling

end FixedTag

namespace FreeTag

def name : FreeTag → String
  | .binaryOperator => "BinaryOperator"
  | .dollarIdentifier => "DollarIdentifier"
  | .floatLiteral => "FloatLiteral"
  | .identifier => "Identifier"
  | .integerLiteral => "IntegerLiteral"
  | .postfixOperator => "PostfixOperator"
  | .prefixOperator => "PrefixOperator"
  | .rawStringDelimiter => "RawStringDelimiter"
  | .regexLiteral => "RegexLiteral"
  | .stringSegment => "StringSegment"
  | .unknown => "Unknown"

/-- The wording for messages: what such a token is, since its spelling is open. -/
def label : FreeTag → String
  | .binaryOperator => "binary operator"
  | .dollarIdentifier => "dollar identifier"
  | .floatLiteral => "floating literal"
  | .identifier => "identifier"
  | .integerLiteral => "integer literal"
  | .postfixOperator => "postfix operator"
  | .prefixOperator => "prefix operator"
  | .rawStringDelimiter => "raw string delimiter"
  | .regexLiteral => "regex literal"
  | .stringSegment => "string segment"
  | .unknown => "token"

end FreeTag

namespace Tag

/-- Every tag, in numbering order. -/
def all : List Tag :=
  [.fixed .eof, .fixed .arrow, .fixed .atSign, .fixed .backslash, .fixed .backtick,
    .free .binaryOperator, .fixed .colon, .fixed .comma, .free .dollarIdentifier, .fixed .ellipsis,
    .fixed .equal, .fixed .exclamationMark, .free .floatLiteral, .free .identifier,
    .fixed .infixQuestionMark, .free .integerLiteral, .keyword, .fixed .leftAngle,
    .fixed .leftBrace, .fixed .leftParen, .fixed .leftSquare, .fixed .multilineStringQuote,
    .fixed .period, .free .postfixOperator, .fixed .postfixQuestionMark, .fixed .pound,
    .fixed .poundAvailable, .fixed .poundElse, .fixed .poundElseif, .fixed .poundEndif,
    .fixed .poundIf, .fixed .poundSourceLocation, .fixed .poundUnavailable,
    .fixed .prefixAmpersand, .free .prefixOperator, .free .rawStringDelimiter, .free .regexLiteral,
    .fixed .rightAngle, .fixed .rightBrace, .fixed .rightParen, .fixed .rightSquare,
    .fixed .semicolon, .fixed .singleQuote, .fixed .stringQuote, .free .stringSegment,
    .free .unknown, .fixed .wildcard]

/-- The position of a tag in `all`. -/
def code (tag : Tag) : Nat := all.idxOf tag

def ofCode? (code : Nat) : Option Tag := all[code]?

def name : Tag → String
  | .fixed tag => tag.name
  | .keyword => "Keyword"
  | .free tag => tag.name

def ofName? (name : String) : Option Tag := all.find? (·.name == name)

def spelling? : Tag → Option String
  | .fixed tag => some tag.spelling
  | .keyword | .free _ => none

/-- Whether every token with this tag is spelled alike. -/
def isFixed (tag : Tag) : Bool := tag.spelling?.isSome

/-- Whether tokens with this tag carry text of their own. A keyword's text follows from which
keyword it is. -/
def isFree : Tag → Bool
  | .free _ => true
  | .fixed _ | .keyword => false

def isPunctuation : Tag → Bool
  | .fixed tag => tag.isPunctuation
  | .keyword | .free _ => false

def isDirective : Tag → Bool
  | .fixed tag => tag.isDirective
  | .keyword | .free _ => false

def label : Tag → String
  | .fixed tag => tag.label
  | .keyword => "keyword"
  | .free tag => tag.label

end Tag

end LosslessSyntax
