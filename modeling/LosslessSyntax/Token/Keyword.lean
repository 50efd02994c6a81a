import Std.Data.HashMap

/-!
# Keywords

Reserved words can never be a plain identifier. Contextual words are keywords in some positions and
identifiers everywhere else. A spelling is looked up in a table built once; the byte lengths that
occur among the spellings turn most other words away before the table is asked.

The table is filled a second time with everything kept that could go wrong (`Table.fill`,
`Table.fill?`): keywords are registered one after the other, the bounds on the lengths are moved for
each of them, and a spelling may be taken already.
-/

namespace LosslessSyntax

/-- The words with a meaning of their own. -/
inductive Keyword where
  | kwAnyUpper | kwAs | kwAssociatedtype | kwBreak | kwCase | kwCatch | kwClass | kwContinue
  | kwDefault | kwDefer | kwDeinit | kwDo | kwElse | kwEnum | kwExtension | kwFallthrough | kwFalse
  | kwFileprivate | kwFor | kwFunc | kwGuard | kwIf | kwImport | kwIn | kwInit | kwInout
  | kwInternal | kwIs | kwLet | kwNil | kwOperator | kwPrecedencegroup | kwPrivate
  | kwProtocolLower | kwPublic | kwRepeat | kwRethrows | kwReturn | kwSelfLower | kwSelfUpper
  | kwStatic | kwStruct | kwSubscript | kwSuper | kwSwitch | kwThrow | kwThrows | kwTrue | kwTry
  | kwTypealias | kwVar | kwWhere | kwWhile | kwDunderOwned | kwDunderShared | kwUnderscoreConst
  | kwUnderscoreResultDependsOn | kwAnyLower | kwAsync | kwAwait | kwBorrowing | kwConsuming
  | kwConvenience | kwDidSet | kwDynamic | kwEach | kwFinal | kwGet | kwIndirect | kwIsolated
  | kwLazy | kwMutating | kwNonisolated | kwOpen | kwOptional | kwOverride | kwPackage
  | kwProtocolUpper | kwRequired | kwSet | kwSome | kwTransferring | kwType | kwUnowned | kwWeak
  | kwWillSet
  deriving DecidableEq

namespace Keyword

/-- The words that are keywords in every position. -/
def reserved : List Keyword :=
  [.kwAnyUpper, .kwAs, .kwAssociatedtype, .kwBreak, .kwCase, .kwCatch, .kwClass, .kwContinue,
    .kwDefault, .kwDefer, .kwDeinit, .kwDo, .kwElse, .kwEnum, .kwExtension, .kwFallthrough,
    .kwFalse, .kwFileprivate, .kwFor, .kwFunc, .kwGuard, .kwIf, .kwImport, .kwIn, .kwInit,
    .kwInout, .kwInternal, .kwIs, .kwLet, .kwNil, .kwOperator, .kwPrecedencegroup, .kwPrivate,
    .kwProtocolLower, .kwPublic, .kwRepeat, .kwRethrows, .kwReturn, .kwSelfLower, .kwSelfUpper,
    .kwStatic, .kwStruct, .kwSubscript, .kwSuper, .kwSwitch, .kwThrow, .kwThrows, .kwTrue, .kwTry,
    .kwTypealias, .kwVar, .kwWhere, .kwWhile]

/-- The words that are keywords only where the grammar asks for them. -/
def contextual : List Keyword :=
  [.kwDunderOwned, .kwDunderShared, .kwUnderscoreConst, .kwUnderscoreResultDependsOn, .kwAnyLower,
    .kwAsync, .kwAwait, .kwBorrowing, .kwConsuming, .kwConvenience, .kwDidSet, .kwDynamic, .kwEach,
    .kwFinal, .kwGet, .kwIndirect, .kwIsolated, .kwLazy, .kwMutating, .kwNonisolated, .kwOpen,
    .kwOptional, .kwOverride, .kwPackage, .kwProtocolUpper, .kwRequired, .kwSet, .kwSome,
    .kwTransferring, .kwType, .kwUnowned, .kwWeak, .kwWillSet]

/-- Every keyword, in numbering order. -/
def all : List Keyword := reserved ++ contextual

/-- The position of a keyword in `all`. -/
def code (keyword : Keyword) : Nat := all.idxOf keyword

def ofCode? (code : Nat) : Option Keyword := all[code]?

/-- Whether the word is a keyword in every position. -/
def isReserved (keyword : Keyword) : Bool := reserved.contains keyword

/-- The name a keyword is written under; words that differ in case alone are told apart by it. -/
def name : Keyword → String
  | .kwAnyUpper => "AnyUpper"
  | .kwAs => "As"
  | .kwAssociatedtype => "Associatedtype"
  | .kwBreak => "Break"
  | .kwCase => "Case"
  | .kwCatch => "Catch"
  | .kwClass => "Class"
  | .kwContinue => "Continue"
  | .kwDefault => "Default"
  | .kwDefer => "Defer"
  | .kwDeinit => "Deinit"
  | .kwDo => "Do"
  | .kwElse => "Else"
  | .kwEnum => "Enum"
  | .kwExtension => "Extension"
  | .kwFallthrough => "Fallthrough"
  | .kwFalse => "False"
  | .kwFileprivate => "Fileprivate"
  | .kwFor => "For"
  | .kwFunc => "Func"
  | .kwGuard => "Guard"
  | .kwIf => "If"
  | .kwImport => "Import"
  | .kwIn => "In"
  | .kwInit => "Init"
  | .kwInout => "Inout"
  | .kwInternal => "Internal"
  | .kwIs => "Is"
  | .kwLet => "Let"
  | .kwNil => "Nil"
  | .kwOperator => "Operator"
  | .kwPrecedencegroup => "Precedencegroup"
  | .kwPrivate => "Private"
  | .kwProtocolLower => "ProtocolLower"
  | .kwPublic => "Public"
  | .kwRepeat => "Repeat"
  | .kwRethrows => "Rethrows"
  | .kwReturn => "Return"
  | .kwSelfLower => "SelfLower"
  | .kwSelfUpper => "SelfUpper"
  | .kwStatic => "Static"
  | .kwStruct => "Struct"
  | .kwSubscript => "Subscript"
  | .kwSuper => "Super"
  | .kwSwitch => "Switch"
  | .kwThrow => "Throw"
  | .kwThrows => "Throws"
  | .kwTrue => "True"
  | .kwTry => "Try"
  | .kwTypealias => "Typealias"
  | .kwVar => "Var"
  | .kwWhere => "Where"
  | .kwWhile => "While"
  | .kwDunderOwned => "DunderOwned"
  | .kwDunderShared => "DunderShared"
  | .kwUnderscoreConst => "UnderscoreConst"
  | .kwUnderscoreResultDependsOn => "UnderscoreResultDependsOn"
  | .kwAnyLower => "AnyLower"
  | .kwAsync => "Async"
  | .kwAwait => "Await"
  | .kwBorrowing => "Borrowing"
  | .kwConsuming => "Consuming"
  | .kwConvenience => "Convenience"
  | .kwDidSet => "DidSet"
  | .kwDynamic => "Dynamic"
  | .kwEach => "Each"
  | .kwFinal => "Final"
  | .kwGet => "Get"
  | .kwIndirect => "Indirect"
  | .kwIsolated => "Isolated"
  | .kwLazy => "Lazy"
  | .kwMutating => "Mutating"
  | .kwNonisolated => "Nonisolated"
  | .kwOpen => "Open"
  | .kwOptional => "Optional"
  | .kwOverride => "Override"
  | .kwPackage => "Package"
  | .kwProtocolUpper => "ProtocolUpper"
  | .kwRequired => "Required"
  | .kwSet => "Set"
  | .kwSome => "Some"
  | .kwTransferring => "Transferring"
  | .kwType => "Type"
  | .kwUnowned => "Unowned"
  | .kwWeak => "Weak"
  | .kwWillSet => "WillSet"

def ofName? (name : String) : Option Keyword := all.find? (·.name == name)

/-- How the keyword is spelled in source text. -/
def spelling : Keyword → String
  | .kwAnyUpper => "Any"
  | .kwAs => "as"
  | .kwAssociatedtype => "associatedtype"
  | .kwBreak => "break"
  | .kwCase => "case"
  | .kwCatch => "catch"
  | .kwClass => "class"
  | .kwContinue => "continue"
  | .kwDefault => "default"
  | .kwDefer => "defer"
  | .kwDeinit => "deinit"
  | .kwDo => "do"
  | .kwElse => "else"
  | .kwEnum => "enum"
  | .kwExtension => "extension"
  | .kwFallthrough => "fallthrough"
  | .kwFalse => "false"
  | .kwFileprivate => "fileprivate"
  | .kwFor => "for"
  | .kwFunc => "func"
  | .kwGuard => "guard"
  | .kwIf => "if"
  | .kwImport => "import"
  | .kwIn => "in"
  | .kwInit => "init"
  | .kwInout => "inout"
  | .kwInternal => "internal"
  | .kwIs => "is"
  | .kwLet => "let"
  | .kwNil => "nil"
  | .kwOperator => "operator"
  | .kwPrecedencegroup => "precedencegroup"
  | .kwPrivate => "private"
  | .kwProtocolLower => "protocol"
  | .kwPublic => "public"
  | .kwRepeat => "repeat"
  | .kwRethrows => "rethrows"
  | .kwReturn => "return"
  | .kwSelfLower => "self"
  | .kwSelfUpper => "Self"
  | .kwStatic => "static"
  | .kwStruct => "struct"
  | .kwSubscript => "subscript"
  | .kwSuper => "super"
  | .kwSwitch => "switch"
  | .kwThrow => "throw"
  | .kwThrows => "throws"
  | .kwTrue => "true"
  | .kwTry => "try"
  | .kwTypealias => "typealias"
  | .kwVar => "var"
  | .kwWhere => "where"
  | .kwWhile => "while"
  | .kwDunderOwned => "__owned"
  | .kwDunderShared => "__shared"
  | .kwUnderscoreConst => "_const"
  | .kwUnderscoreResultDependsOn => "_resultDependsOn"
  | .kwAnyLower => "any"
  | .kwAsync => "async"
  | .kwAwait => "await"
  | .kwBorrowing => "borrowing"
  | .kwConsuming => "consuming"
  | .kwConvenience => "convenience"
  | .kwDidSet => "didSet"
  | .kwDynamic => "dynamic"
  | .kwEach => "each"
  | .kwFinal => "final"
  | .kwGet => "get"
  | .kwIndirect => "indirect"
  | .kwIsolated => "isolated"
  | .kwLazy => "lazy"
  | .kwMutating => "mutating"
  | .kwNonisolated => "nonisolated"
  | .kwOpen => "open"
  | .kwOptional => "optional"
  | .kwOverride => "override"
  | .kwPackage => "package"
  | .kwProtocolUpper => "Protocol"
  | .kwRequired => "required"
  | .kwSet => "set"
  | .kwSome => "some"
  | .kwTransferring => "transferring"
  | .kwType => "Type"
  | .kwUnowned => "unowned"
  | .kwWeak => "weak"
  | .kwWillSet => "willSet"

/-- Keywords by spelling, with the least and the greatest byte length of a spelling. -/
structure Table where
  bySpelling : Std.HashMap String Keyword
  shortest : Nat
  longest : Nat

/-- The table of the given keywords; of two with one spelling the later stays. -/
def Table.ofList (keywords : List Keyword) : Table where
  bySpelling := keywords.foldl (fun table keyword => table.insert keyword.spelling keyword) ∅
  shortest := (keywords.map fun keyword => keyword.spelling.utf8ByteSize).min?.getD 0
  longest := (keywords.map fun keyword => keyword.spelling.utf8ByteSize).max?.getD 0

/-- The keyword with exactly this spelling. -/
def Table.find? (table : Table) (text : String) : Option Keyword :=
  if table.shortest ≤ text.utf8ByteSize ∧ text.utf8ByteSize ≤ table.longest then
    table.bySpelling[text]?
  else
    none

/-- The table of all keywords. -/
def table : Table := .ofList all

/-- The keyword with exactly this spelling, letter case included. -/
def ofSpelling? (text : String) : Option Keyword := table.find? text

namespace Table

/-- The table before any keyword is registered. Its bounds leave out every length. -/
def unfilled : Table where
  bySpelling := ∅
  shortest := USize.size - 1
  longest := 0

/-- A keyword put under its spelling, in place of one that is spelled alike. -/
def register (table : Table) (keyword : Keyword) : Table where
  bySpelling := table.bySpelling.insert keyword.spelling keyword
  shortest := min table.shortest keyword.spelling.utf8ByteSize
  longest := max table.longest keyword.spelling.utf8ByteSize

/-- A keyword put under its spelling, unless that is taken. -/
def registerNew? (table : Table) (keyword : Keyword) : Option Table :=
  if keyword.spelling ∈ table.bySpelling then none else some (table.register keyword)

/-- All keywords registered, the later in place of the earlier. -/
def fill (keywords : List Keyword) : Table := keywords.foldl register unfilled

/-- All keywords registered under spellings that were not taken. -/
def fill? (keywords : List Keyword) : Option Table := keywords.foldlM registerNew? unfilled

end Table

end Keyword

end LosslessSyntax
