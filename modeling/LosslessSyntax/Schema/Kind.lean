/-!
# Kinds of nodes

A kind is one construct of the language. Most kinds are layouts with named slots, some are lists of
nodes of one kind. Each kind belongs to a base, and a slot may ask for a base in place of a kind.
-/

namespace LosslessSyntax

/-- The categories of kinds. -/
inductive Base where
  | node
  /-- Lists of like nodes. -/
  | collection
  | type
  deriving DecidableEq

/-- The constructs of the language: types first, then what types are made of. -/
inductive SyntaxKind where
  | arrayType | attributedType | classRestrictionType | compositionTypeElementList
  | compositionTypeElement | compositionType | someOrAnyType | dictionaryType | functionType
  | genericArgumentClause | genericArgumentList | genericArgument | implicitlyUnwrappedOptionalType
  | memberType | metatypeType | namedOpaqueReturnType | optionalType | suppressedType
  | packExpansionType | packElementType | identifierType | tupleTypeElementList | tupleTypeElement
  | tupleType | atAttribute | attributeList | typeEffectSpecifiers | returnClause
  | genericParameterClause | genericParameterList | genericParameter | missingType
  deriving DecidableEq

namespace Base

def all : List Base := [.node, .collection, .type]

def name : Base → String
  | .node => "Syntax"
  | .collection => "SyntaxCollection"
  | .type => "Type"

def ofName? (name : String) : Option Base := all.find? (·.name == name)

def label : Base → String
  | .node => "syntax"
  | .collection => "collection"
  | .type => "type"

end Base

namespace SyntaxKind

/-- Every kind, in numbering order. -/
def all : List SyntaxKind :=
  [.arrayType, .attributedType, .classRestrictionType, .compositionTypeElementList,
    .compositionTypeElement, .compositionType, .someOrAnyType, .dictionaryType, .functionType,
    .genericArgumentClause, .genericArgumentList, .genericArgument,
    .implicitlyUnwrappedOptionalType, .memberType, .metatypeType, .namedOpaqueReturnType,
    .optionalType, .suppressedType, .packExpansionType, .packElementType, .identifierType,
    .tupleTypeElementList, .tupleTypeElement, .tupleType, .atAttribute, .attributeList,
    .typeEffectSpecifiers, .returnClause, .genericParameterClause, .genericParameterList,
    .genericParameter, .missingType]

/-- The position of a kind in `all`. -/
def code (kind : SyntaxKind) : Nat := all.idxOf kind

def ofCode? (code : Nat) : Option SyntaxKind := all[code]?

def name : SyntaxKind → String
  | .arrayType => "ArrayType"
  | .attributedType => "AttributedType"
  | .classRestrictionType => "ClassRestrictionType"
  | .compositionTypeElementList => "CompositionTypeElementList"
  | .compositionTypeElement => "CompositionTypeElement"
  | .compositionType => "CompositionType"
  | .someOrAnyType => "SomeOrAnyType"
  | .dictionaryType => "DictionaryType"
  | .functionType => "FunctionType"
  | .genericArgumentClause => "GenericArgumentClause"
  | .genericArgumentList => "GenericArgumentList"
  | .genericArgument => "GenericArgument"
  | .implicitlyUnwrappedOptionalType => "ImplicitlyUnwrappedOptionalType"
  | .memberType => "MemberType"
  | .metatypeType => "MetatypeType"
  | .namedOpaqueReturnType => "NamedOpaqueReturnType"
  | .optionalType => "OptionalType"
  | .suppressedType => "SuppressedType"
  | .packExpansionType => "PackExpansionType"
  | .packElementType => "PackElementType"
  | .identifierType => "IdentifierType"
  | .tupleTypeElementList => "TupleTypeElementList"
  | .tupleTypeElement => "TupleTypeElement"
  | .tupleType => "TupleType"
  | .atAttribute => "Attribute"
  | .attributeList => "AttributeList"
  | .typeEffectSpecifiers => "TypeEffectSpecifiers"
  | .returnClause => "ReturnClause"
  | .genericParameterClause => "GenericParameterClause"
  | .genericParameterList => "GenericParameterList"
  | .genericParameter => "GenericParameter"
  | .missingType => "MissingType"

def ofName? (name : String) : Option SyntaxKind := all.find? (·.name == name)

end SyntaxKind

end LosslessSyntax
