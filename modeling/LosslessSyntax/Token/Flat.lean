import LosslessSyntax.Token.Kind
import LosslessSyntax.Text.Interner

/-!
# Tags and kinds one by one

The lists of tags and of kinds with no sorts to group them: every tag has a constructor of its own, and so has
every kind, with the name of its text where the tag leaves that open. What belongs to a tag or a kind is looked up
in one table for each question, and a lexeme is read by a table too. Reading interns the text of a free tag, which
panics where its shard is full; it would panic as well at a tag that is taken for a fixed one and is none.
-/

namespace LosslessSyntax

/-- A tag by itself, in numbering order. -/
inductive FlatTag where
  | eof | arrow | atSign | backslash | backtick | binaryOperator | colon | comma | dollarIdentifier
  | ellipsis | equal | exclamationMark | floatLiteral | identifier | infixQuestionMark | integerLiteral
  | keyword | leftAngle | leftBrace | leftParen | leftSquare | multilineStringQuote | period
  | postfixOperator | postfixQuestionMark | pound | poundAvailable | poundElse | poundElseif | poundEndif
  | poundIf | poundSourceLocation | poundUnavailable | prefixAmpersand | prefixOperator
  | rawStringDelimiter | regexLiteral | rightAngle | rightBrace | rightParen | rightSquare | semicolon
  | singleQuote | stringQuote | stringSegment | unknown | wildcard
  deriving DecidableEq

/-- A kind by itself, with its keyword or with the name of its text. -/
inductive FlatKind where
  | eof | arrow | atSign | backslash | backtick | binaryOperator (name : Text.Name) | colon | comma
  | dollarIdentifier (name : Text.Name) | ellipsis | equal | exclamationMark
  | floatLiteral (name : Text.Name) | identifier (name : Text.Name) | infixQuestionMark
  | integerLiteral (name : Text.Name) | keyword (word : Keyword) | leftAngle | leftBrace | leftParen
  | leftSquare | multilineStringQuote | period | postfixOperator (name : Text.Name) | postfixQuestionMark
  | pound | poundAvailable | poundElse | poundElseif | poundEndif | poundIf | poundSourceLocation
  | poundUnavailable | prefixAmpersand | prefixOperator (name : Text.Name)
  | rawStringDelimiter (name : Text.Name) | regexLiteral (name : Text.Name) | rightAngle | rightBrace
  | rightParen | rightSquare | semicolon | singleQuote | stringQuote | stringSegment (name : Text.Name)
  | unknown (name : Text.Name) | wildcard
  deriving DecidableEq

/-- Why a lexeme gives no kind. -/
inductive LiftError where
  /-- The text under the keyword tag is no keyword. -/
  | unknownKeyword (text : String)
  /-- The text under a fixed tag is neither empty nor the spelling. -/
  | misspelling (tag : FlatTag) (text : String)
  deriving DecidableEq

/-- Why reading a lexeme stops without an answer. -/
inductive LiftPanic where
  /-- The text is new and its shard has no slot left. -/
  | full (overflow : Text.ShardOverflow)
  /-- A tag that is not fixed was to become a kind without text. -/
  | notFixed (tag : FlatTag)
  deriving DecidableEq

namespace FlatTag

/-- The spelling shared by all tokens with the tag. -/
def defaultText? : FlatTag → Option String
  | .eof => some ""
  | .arrow => some "->"
  | .atSign => some "@"
  | .backslash => some "\\"
  | .backtick => some "`"
  | .colon => some ":"
  | .comma => some ","
  | .ellipsis => some "..."
  | .equal => some "="
  | .exclamationMark => some "!"
  | .infixQuestionMark => some "?"
  | .leftAngle => some "<"
  | .leftBrace => some "\x7b"
  | .leftParen => some "("
  | .leftSquare => some "["
  | .multilineStringQuote => some "\"\"\""
  | .period => some "."
  | .postfixQuestionMark => some "?"
  | .pound => some "#"
  | .poundAvailable => some "#available"
  | .poundElse => some "#else"
  | .poundElseif => some "#elseif"
  | .poundEndif => some "#endif"
  | .poundIf => some "#if"
  | .poundSourceLocation => some "#sourceLocation"
  | .poundUnavailable => some "#unavailable"
  | .prefixAmpersand => some "&"
  | .rightAngle => some ">"
  | .rightBrace => some "\x7d"
  | .rightParen => some ")"
  | .rightSquare => some "]"
  | .semicolon => some ";"
  | .singleQuote => some "'"
  | .stringQuote => some "\""
  | .wildcard => some "_"
  | .binaryOperator | .dollarIdentifier | .floatLiteral | .identifier | .integerLiteral | .keyword
  | .postfixOperator | .prefixOperator | .rawStringDelimiter | .regexLiteral | .stringSegment | .unknown => none

def isFixedSpelling (tag : FlatTag) : Bool := tag.defaultText?.isSome

/-- Whether tokens with the tag carry text of their own. -/
def hasTextPayload (tag : FlatTag) : Bool := !tag.isFixedSpelling && tag ≠ .keyword

/-- The same tag under its sort. -/
def tag : FlatTag → Tag
  | .eof => .fixed .eof
  | .arrow => .fixed .arrow
  | .atSign => .fixed .atSign
  | .backslash => .fixed .backslash
  | .backtick => .fixed .backtick
  | .binaryOperator => .free .binaryOperator
  | .colon => .fixed .colon
  | .comma => .fixed .comma
  | .dollarIdentifier => .free .dollarIdentifier
  | .ellipsis => .fixed .ellipsis
  | .equal => .fixed .equal
  | .exclamationMark => .fixed .exclamationMark
  | .floatLiteral => .free .floatLiteral
  | .identifier => .free .identifier
  | .infixQuestionMark => .fixed .infixQuestionMark
  | .integerLiteral => .free .integerLiteral
  | .keyword => .keyword
  | .leftAngle => .fixed .leftAngle
  | .leftBrace => .fixed .leftBrace
  | .leftParen => .fixed .leftParen
  | .leftSquare => .fixed .leftSquare
  | .multilineStringQuote => .fixed .multilineStringQuote
  | .period => .fixed .period
  | .postfixOperator => .free .postfixOperator
  | .postfixQuestionMark => .fixed .postfixQuestionMark
  | .pound => .fixed .pound
  | .poundAvailable => .fixed .poundAvailable
  | .poundElse => .fixed .poundElse
  | .poundElseif => .fixed .poundElseif
  | .poundEndif => .fixed .poundEndif
  | .poundIf => .fixed .poundIf
  | .poundSourceLocation => .fixed .poundSourceLocation
  | .poundUnavailable => .fixed .poundUnavailable
  | .prefixAmpersand => .fixed .prefixAmpersand
  | .prefixOperator => .free .prefixOperator
  | .rawStringDelimiter => .free .rawStringDelimiter
  | .regexLiteral => .free .regexLiteral
  | .rightAngle => .fixed .rightAngle
  | .rightBrace => .fixed .rightBrace
  | .rightParen => .fixed .rightParen
  | .rightSquare => .fixed .rightSquare
  | .semicolon => .fixed .semicolon
  | .singleQuote => .fixed .singleQuote
  | .stringQuote => .fixed .stringQuote
  | .stringSegment => .free .stringSegment
  | .unknown => .free .unknown
  | .wildcard => .fixed .wildcard

end FlatTag

/-- The same refusal, with the tag under its sort. -/
def LiftError.lexemeError : LiftError → LexemeError
  | .unknownKeyword text => .unknownKeyword text
  | .misspelling tag text => .misspelling tag.tag text

/-- The kind of a fixed tag. -/
def FixedTag.flatKind : FixedTag → FlatKind
  | .eof => .eof
  | .arrow => .arrow
  | .atSign => .atSign
  | .backslash => .backslash
  | .backtick => .backtick
  | .colon => .colon
  | .comma => .comma
  | .ellipsis => .ellipsis
  | .equal => .equal
  | .exclamationMark => .exclamationMark
  | .infixQuestionMark => .infixQuestionMark
  | .leftAngle => .leftAngle
  | .leftBrace => .leftBrace
  | .leftParen => .leftParen
  | .leftSquare => .leftSquare
  | .multilineStringQuote => .multilineStringQuote
  | .period => .period
  | .postfixQuestionMark => .postfixQuestionMark
  | .pound => .pound
  | .poundAvailable => .poundAvailable
  | .poundElse => .poundElse
  | .poundElseif => .poundElseif
  | .poundEndif => .poundEndif
  | .poundIf => .poundIf
  | .poundSourceLocation => .poundSourceLocation
  | .poundUnavailable => .poundUnavailable
  | .prefixAmpersand => .prefixAmpersand
  | .rightAngle => .rightAngle
  | .rightBrace => .rightBrace
  | .rightParen => .rightParen
  | .rightSquare => .rightSquare
  | .semicolon => .semicolon
  | .singleQuote => .singleQuote
  | .stringQuote => .stringQuote
  | .wildcard => .wildcard

/-- The kind of a free tag with the name of its text. -/
def FreeTag.flatKind (name : Text.Name) : FreeTag → FlatKind
  | .binaryOperator => .binaryOperator name
  | .dollarIdentifier => .dollarIdentifier name
  | .floatLiteral => .floatLiteral name
  | .identifier => .identifier name
  | .integerLiteral => .integerLiteral name
  | .postfixOperator => .postfixOperator name
  | .prefixOperator => .prefixOperator name
  | .rawStringDelimiter => .rawStringDelimiter name
  | .regexLiteral => .regexLiteral name
  | .stringSegment => .stringSegment name
  | .unknown => .unknown name

namespace FlatKind

def rawTag : FlatKind → FlatTag
  | .eof => .eof
  | .arrow => .arrow
  | .atSign => .atSign
  | .backslash => .backslash
  | .backtick => .backtick
  | .binaryOperator _ => .binaryOperator
  | .colon => .colon
  | .comma => .comma
  | .dollarIdentifier _ => .dollarIdentifier
  | .ellipsis => .ellipsis
  | .equal => .equal
  | .exclamationMark => .exclamationMark
  | .floatLiteral _ => .floatLiteral
  | .identifier _ => .identifier
  | .infixQuestionMark => .infixQuestionMark
  | .integerLiteral _ => .integerLiteral
  | .keyword _ => .keyword
  | .leftAngle => .leftAngle
  | .leftBrace => .leftBrace
  | .leftParen => .leftParen
  | .leftSquare => .leftSquare
  | .multilineStringQuote => .multilineStringQuote
  | .period => .period
  | .postfixOperator _ => .postfixOperator
  | .postfixQuestionMark => .postfixQuestionMark
  | .pound => .pound
  | .poundAvailable => .poundAvailable
  | .poundElse => .poundElse
  | .poundElseif => .poundElseif
  | .poundEndif => .poundEndif
  | .poundIf => .poundIf
  | .poundSourceLocation => .poundSourceLocation
  | .poundUnavailable => .poundUnavailable
  | .prefixAmpersand => .prefixAmpersand
  | .prefixOperator _ => .prefixOperator
  | .rawStringDelimiter _ => .rawStringDelimiter
  | .regexLiteral _ => .regexLiteral
  | .rightAngle => .rightAngle
  | .rightBrace => .rightBrace
  | .rightParen => .rightParen
  | .rightSquare => .rightSquare
  | .semicolon => .semicolon
  | .singleQuote => .singleQuote
  | .stringQuote => .stringQuote
  | .stringSegment _ => .stringSegment
  | .unknown _ => .unknown
  | .wildcard => .wildcard

/-- The name of the text that a kind carries. -/
def payload? : FlatKind → Option Text.Name
  | .binaryOperator name | .dollarIdentifier name | .floatLiteral name | .identifier name
  | .integerLiteral name | .postfixOperator name | .prefixOperator name | .rawStringDelimiter name
  | .regexLiteral name | .stringSegment name | .unknown name => some name
  | _ => none

/-- The spelling that follows from the kind alone. -/
def canonicalText? : FlatKind → Option String
  | .keyword word => some word.spelling
  | kind => kind.rawTag.defaultText?

/-- The source text of a kind. There is none where its name stands for no text. -/
def text? (interner : Text.Interner) (kind : FlatKind) : Option String :=
  match kind.payload? with
  | some name => interner.lookup? name
  | none => some (kind.canonicalText?.getD "")

/-- The tag of a kind, and its text where the tag leaves it open. -/
def lower? (interner : Text.Interner) (kind : FlatKind) : Option (FlatTag × Option String) :=
  match kind with
  | .keyword word => some (kind.rawTag, some word.spelling)
  | _ =>
    match kind.payload? with
    | some name => (interner.lookup? name).map fun text => (kind.rawTag, some text)
    | none => some (kind.rawTag, none)

/-- The kind of a tag by itself. There is none where the tag leaves the text open. -/
def fromFixed? : FlatTag → Option FlatKind
  | .eof => some .eof
  | .arrow => some .arrow
  | .atSign => some .atSign
  | .backslash => some .backslash
  | .backtick => some .backtick
  | .colon => some .colon
  | .comma => some .comma
  | .ellipsis => some .ellipsis
  | .equal => some .equal
  | .exclamationMark => some .exclamationMark
  | .infixQuestionMark => some .infixQuestionMark
  | .leftAngle => some .leftAngle
  | .leftBrace => some .leftBrace
  | .leftParen => some .leftParen
  | .leftSquare => some .leftSquare
  | .multilineStringQuote => some .multilineStringQuote
  | .period => some .period
  | .postfixQuestionMark => some .postfixQuestionMark
  | .pound => some .pound
  | .poundAvailable => some .poundAvailable
  | .poundElse => some .poundElse
  | .poundElseif => some .poundElseif
  | .poundEndif => some .poundEndif
  | .poundIf => some .poundIf
  | .poundSourceLocation => some .poundSourceLocation
  | .poundUnavailable => some .poundUnavailable
  | .prefixAmpersand => some .prefixAmpersand
  | .rightAngle => some .rightAngle
  | .rightBrace => some .rightBrace
  | .rightParen => some .rightParen
  | .rightSquare => some .rightSquare
  | .semicolon => some .semicolon
  | .singleQuote => some .singleQuote
  | .stringQuote => some .stringQuote
  | .wildcard => some .wildcard
  | _ => none

section Lift

variable (choose : String → Fin Text.Name.shardCount) (interner : Text.Interner)

/-- A kind that carries the name of the text, with the interner that knows it. -/
def ofInterned (text : String) (kind : Text.Name → FlatKind) :
    Except LiftPanic (Except LiftError FlatKind × Text.Interner) :=
  match interner.intern choose text with
  | .ok (name, after) => .ok (.ok (kind name), after)
  | .error overflow => .error (.full overflow)

/-- The kind of a lexeme, or why there is none, with the interner afterwards. -/
def tryLift (tag : FlatTag) (text : String) : Except LiftPanic (Except LiftError FlatKind × Text.Interner) :=
  match tag with
  | .binaryOperator => ofInterned choose interner text .binaryOperator
  | .dollarIdentifier => ofInterned choose interner text .dollarIdentifier
  | .floatLiteral => ofInterned choose interner text .floatLiteral
  | .identifier => ofInterned choose interner text .identifier
  | .integerLiteral => ofInterned choose interner text .integerLiteral
  | .postfixOperator => ofInterned choose interner text .postfixOperator
  | .prefixOperator => ofInterned choose interner text .prefixOperator
  | .rawStringDelimiter => ofInterned choose interner text .rawStringDelimiter
  | .regexLiteral => ofInterned choose interner text .regexLiteral
  | .stringSegment => ofInterned choose interner text .stringSegment
  | .unknown => ofInterned choose interner text .unknown
  | .keyword =>
    match Keyword.ofSpelling? text with
    | some word => .ok (.ok (.keyword word), interner)
    | none => .ok (.error (.unknownKeyword text), interner)
  | fixed =>
    if text ≠ "" ∧ fixed.defaultText? ≠ some text then .ok (.error (.misspelling fixed text), interner)
    else
      match fromFixed? fixed with
      | some kind => .ok (.ok kind, interner)
      | none => .error (.notFixed fixed)

end Lift

end FlatKind

end LosslessSyntax
