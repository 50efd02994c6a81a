import LosslessSyntax.Schema.Basic

/-!
# The catalogue

The schema of the type expressions. Slots stand in source order; a slot that was renamed keeps its
old name as the former one.
-/

namespace LosslessSyntax

namespace Catalogue

/-- A choice of tokens with one spelling. -/
def glyph (tag : FixedTag) : TokenChoice := .tag (.fixed tag)

def identifier : TokenChoice := .tag (.free .identifier)

/-- A slot for a token with one spelling. -/
def glyphSlot (name : String) (tag : FixedTag) : Slot := .token name [glyph tag]

/-- A slot for one of several keywords. -/
def keywordSlot (name : String) (words : List Keyword) : Slot :=
  .token name (words.map .keyword)

def typeSlot (name : String) : Slot := .ofConstraint name .anyType

def kindSlot (name : String) (kind : SyntaxKind) : Slot := .ofConstraint name (.ofKind kind)

def listSlot (name : String) (kind : SyntaxKind) (elementName : String) : Slot :=
  .ofConstraint name (.listOf kind elementName)

def attributesSlot : Slot := (listSlot "attributes" .attributeList "Attribute").defaultingToEmpty

def trailingCommaSlot : Slot := (glyphSlot "trailingComma" .comma).optional

/-- The slot for the arguments of a generic type, which may be left out. -/
def genericArgumentsSlot : Slot :=
  (kindSlot "genericArgumentClause" .genericArgumentClause).optional

def leftSquareSlot : Slot := (glyphSlot "leftSquare" .leftSquare).formerly "leftSquareBracket"

def rightSquareSlot : Slot :=
  (glyphSlot "rightSquare" .rightSquare).formerly "rightSquareBracket"

def leftAngleSlot : Slot := (glyphSlot "leftAngle" .leftAngle).formerly "leftAngleBracket"

def rightAngleSlot : Slot := (glyphSlot "rightAngle" .rightAngle).formerly "rightAngleBracket"

def entry : SyntaxKind → Entry
  | .arrayType =>
    .layout .arrayType .type (some "array type")
      [leftSquareSlot,
        (typeSlot "element").formerly "elementType",
        rightSquareSlot]
  | .attributedType =>
    (Entry.layout .attributedType .type (some "type")
      [(keywordSlot "specifier"
          [.kwInout, .kwDunderShared, .kwDunderOwned, .kwIsolated, .kwUnderscoreConst,
            .kwBorrowing, .kwConsuming, .kwTransferring, .kwUnderscoreResultDependsOn]).optional,
        attributesSlot,
        typeSlot "baseType"]).declaring [.withAttributes]
  | .classRestrictionType =>
    .layout .classRestrictionType .type none [keywordSlot "classKeyword" [.kwClass]]
  | .compositionTypeElementList =>
    .collection .compositionTypeElementList [.compositionTypeElement]
  | .compositionTypeElement =>
    .layout .compositionTypeElement .node none
      [typeSlot "type",
        (Slot.ofConstraint "ampersand" .anyToken).optional]
  | .compositionType =>
    .layout .compositionType .type (some "type composition")
      [listSlot "elements" .compositionTypeElementList "Element"]
  | .someOrAnyType =>
    .layout .someOrAnyType .type (some "type")
      [keywordSlot "someOrAnySpecifier" [.kwSome, .kwAnyLower],
        (typeSlot "constraint").formerly "baseType"]
  | .dictionaryType =>
    .layout .dictionaryType .type (some "dictionary type")
      [leftSquareSlot,
        ((typeSlot "key").formerly "keyType").labelled "key type",
        glyphSlot "colon" .colon,
        ((typeSlot "value").formerly "valueType").labelled "value type",
        rightSquareSlot]
  | .functionType =>
    (Entry.layout .functionType .type (some "function type")
      [glyphSlot "leftParen" .leftParen,
        ((listSlot "parameters" .tupleTypeElementList "Parameter").formerly
          "arguments").elementsFormerly "Argument",
        glyphSlot "rightParen" .rightParen,
        (kindSlot "effectSpecifiers" .typeEffectSpecifiers).optional,
        (kindSlot "returnClause" .returnClause).formerly "output"]).declaring [.parenthesized]
  | .genericArgumentClause =>
    .layout .genericArgumentClause .node (some "generic argument clause")
      [leftAngleSlot,
        listSlot "arguments" .genericArgumentList "Argument",
        rightAngleSlot]
  | .genericArgumentList => .collection .genericArgumentList [.genericArgument]
  | .genericArgument =>
    (Entry.layout .genericArgument .node (some "generic argument")
      [(typeSlot "argument").formerly "argumentType",
        trailingCommaSlot]).declaring [.withTrailingComma]
  | .implicitlyUnwrappedOptionalType =>
    .layout .implicitlyUnwrappedOptionalType .type (some "implicitly unwrapped optional type")
      [typeSlot "wrappedType",
        glyphSlot "exclamationMark" .exclamationMark]
  | .memberType =>
    .layout .memberType .type (some "member type")
      [(typeSlot "baseType").labelled "base type",
        glyphSlot "period" .period,
        (Slot.token "name" [identifier, .keyword .kwSelfLower]).labelled "name",
        genericArgumentsSlot]
  | .metatypeType =>
    .layout .metatypeType .type (some "metatype")
      [(typeSlot "baseType").labelled "base type",
        glyphSlot "period" .period,
        (keywordSlot "metatypeSpecifier" [.kwType, .kwProtocolUpper]).formerly "typeOrProtocol"]
  | .namedOpaqueReturnType =>
    .layout .namedOpaqueReturnType .type (some "named opaque return type")
      [((kindSlot "genericParameterClause" .genericParameterClause).formerly
          "genericParameters").documented
          "The parameter clause that defines the generic parameters.",
        (typeSlot "type").formerly "baseType"]
  | .optionalType =>
    .layout .optionalType .type (some "optional type")
      [typeSlot "wrappedType",
        glyphSlot "questionMark" .postfixQuestionMark]
  | .suppressedType =>
    .layout .suppressedType .type (some "suppressed type conformance")
      [.token "withoutTilde" [.tag (.free .prefixOperator)],
        (typeSlot "type").formerly "patternType"]
  | .packExpansionType =>
    .layout .packExpansionType .type (some "variadic expansion")
      [keywordSlot "repeatKeyword" [.kwRepeat],
        (typeSlot "repetitionPattern").formerly "patternType"]
  | .packElementType =>
    .layout .packElementType .type (some "pack element")
      [keywordSlot "eachKeyword" [.kwEach],
        (typeSlot "pack").formerly "packType"]
  | .identifierType =>
    .layout .identifierType .type (some "type")
      [.token "name"
          [identifier, .keyword .kwSelfUpper, .keyword .kwAnyUpper, glyph .wildcard],
        genericArgumentsSlot]
  | .tupleTypeElementList => .collection .tupleTypeElementList [.tupleTypeElement]
  | .tupleTypeElement =>
    (Entry.layout .tupleTypeElement .node none
      [((keywordSlot "inoutKeyword" [.kwInout]).formerly "inOut").optional,
        (((Slot.token "firstName" [identifier, glyph .wildcard]).formerly "name").labelled
          "name").optional,
        ((Slot.token "secondName" [identifier, glyph .wildcard]).labelled
          "internal name").optional,
        (glyphSlot "colon" .colon).optional,
        typeSlot "type",
        (glyphSlot "ellipsis" .ellipsis).optional,
        trailingCommaSlot]).declaring [.withTrailingComma]
  | .tupleType =>
    (Entry.layout .tupleType .type (some "tuple type")
      [glyphSlot "leftParen" .leftParen,
        listSlot "elements" .tupleTypeElementList "Element",
        glyphSlot "rightParen" .rightParen]).declaring [.parenthesized]
  | .atAttribute =>
    (Entry.layout .atAttribute .node (some "attribute")
      [glyphSlot "atSign" .atSign,
        (typeSlot "attributeName").labelled "name",
        (glyphSlot "leftParen" .leftParen).optional,
        (Slot.ofConstraint "argument" .anyToken).optional,
        (glyphSlot "rightParen" .rightParen).optional]).documented
      "An `@` attribute, with an optional single-token argument."
  | .attributeList => .collection .attributeList [.atAttribute]
  | .typeEffectSpecifiers =>
    .layout .typeEffectSpecifiers .node (some "effect specifiers")
      [(keywordSlot "asyncSpecifier" [.kwAsync]).optional,
        (keywordSlot "throwsSpecifier" [.kwThrows, .kwRethrows]).optional]
  | .returnClause =>
    .layout .returnClause .node (some "return clause")
      [glyphSlot "arrow" .arrow,
        ((typeSlot "type").formerly "returnType").labelled "return type"]
  | .genericParameterClause =>
    .layout .genericParameterClause .node (some "generic parameter clause")
      [leftAngleSlot,
        (listSlot "parameters" .genericParameterList "Parameter").formerly
          "genericParameterList",
        rightAngleSlot]
  | .genericParameterList => .collection .genericParameterList [.genericParameter]
  | .genericParameter =>
    (Entry.layout .genericParameter .node (some "generic parameter")
      [attributesSlot,
        ((keywordSlot "eachKeyword" [.kwEach]).formerly "specifier").optional,
        .token "name" [identifier],
        (glyphSlot "colon" .colon).optional,
        (typeSlot "inheritedType").optional,
        trailingCommaSlot]).declaring [.withAttributes, .withTrailingComma]
  | .missingType =>
    (Entry.layout .missingType .type (some "type")
      [(Slot.token "placeholder" [identifier]).documented
        "A placeholder identifier that is missing from the source."]).documented
      "Stands in for a type the parser expected but did not find."

end Catalogue

/-- The schema of the type expressions. -/
def catalogue : Schema := ⟨Catalogue.entry⟩

end LosslessSyntax
