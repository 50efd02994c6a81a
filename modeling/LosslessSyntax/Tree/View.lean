import LosslessSyntax.Tree.Edit

/-!
# Views

A view reads the nodes of one layout kind by accessors, one for each slot in order. An accessor says
whether its slot may be empty and whether a token, a node or a list stands there. The table is
written out on its own, and a view is only given for a node of its kind.
-/

namespace LosslessSyntax

/-- What an accessor gives. -/
inductive AccessorSort where
  | token
  | node
  | list
  deriving DecidableEq

/-- The way to one child of a view. -/
structure Accessor where
  name : String
  slot : String
  sort : AccessorSort
  isOptional : Bool
  deriving DecidableEq

/-- The accessors for the nodes of one kind. -/
structure View where
  kind : SyntaxKind
  accessors : List Accessor
  deriving DecidableEq

namespace Accessor

/-- The accessor of a slot that always holds a token. -/
def token (name slot : String) : Accessor := ⟨name, slot, .token, false⟩

/-- The accessor of a slot that may hold a token. -/
def token? (name slot : String) : Accessor := ⟨name, slot, .token, true⟩

/-- The accessor of a slot that always holds a node. -/
def node (name slot : String) : Accessor := ⟨name, slot, .node, false⟩

/-- The accessor of a slot that may hold a node. -/
def node? (name slot : String) : Accessor := ⟨name, slot, .node, true⟩

/-- The accessor of a slot that always holds a list. -/
def list (name slot : String) : Accessor := ⟨name, slot, .list, false⟩

end Accessor

namespace View

/-- Every view, one for each layout kind. -/
def all : List View :=
  [⟨.arrayType,
      [.token "left_square" "leftSquare",
       .node "element" "element",
       .token "right_square" "rightSquare"]⟩,
    ⟨.attributedType,
      [.token? "specifier" "specifier",
       .list "attributes" "attributes",
       .node "base_type" "baseType"]⟩,
    ⟨.classRestrictionType,
      [.token "class_keyword" "classKeyword"]⟩,
    ⟨.compositionTypeElement,
      [.node "ty" "type",
       .token? "ampersand" "ampersand"]⟩,
    ⟨.compositionType,
      [.list "elements" "elements"]⟩,
    ⟨.someOrAnyType,
      [.token "some_or_any_specifier" "someOrAnySpecifier",
       .node "constraint" "constraint"]⟩,
    ⟨.dictionaryType,
      [.token "left_square" "leftSquare",
       .node "key" "key",
       .token "colon" "colon",
       .node "value" "value",
       .token "right_square" "rightSquare"]⟩,
    ⟨.functionType,
      [.token "left_paren" "leftParen",
       .list "parameters" "parameters",
       .token "right_paren" "rightParen",
       .node? "effect_specifiers" "effectSpecifiers",
       .node "return_clause" "returnClause"]⟩,
    ⟨.genericArgumentClause,
      [.token "left_angle" "leftAngle",
       .list "arguments" "arguments",
       .token "right_angle" "rightAngle"]⟩,
    ⟨.genericArgument,
      [.node "argument" "argument",
       .token? "trailing_comma" "trailingComma"]⟩,
    ⟨.implicitlyUnwrappedOptionalType,
      [.node "wrapped_type" "wrappedType",
       .token "exclamation_mark" "exclamationMark"]⟩,
    ⟨.memberType,
      [.node "base_type" "baseType",
       .token "period" "period",
       .token "name" "name",
       .node? "generic_argument_clause" "genericArgumentClause"]⟩,
    ⟨.metatypeType,
      [.node "base_type" "baseType",
       .token "period" "period",
       .token "metatype_specifier" "metatypeSpecifier"]⟩,
    ⟨.namedOpaqueReturnType,
      [.node "generic_parameter_clause" "genericParameterClause",
       .node "ty" "type"]⟩,
    ⟨.optionalType,
      [.node "wrapped_type" "wrappedType",
       .token "question_mark" "questionMark"]⟩,
    ⟨.suppressedType,
      [.token "without_tilde" "withoutTilde",
       .node "ty" "type"]⟩,
    ⟨.packExpansionType,
      [.token "repeat_keyword" "repeatKeyword",
       .node "repetition_pattern" "repetitionPattern"]⟩,
    ⟨.packElementType,
      [.token "each_keyword" "eachKeyword",
       .node "pack" "pack"]⟩,
    ⟨.identifierType,
      [.token "name" "name",
       .node? "generic_argument_clause" "genericArgumentClause"]⟩,
    ⟨.tupleTypeElement,
      [.token? "inout_keyword" "inoutKeyword",
       .token? "first_name" "firstName",
       .token? "second_name" "secondName",
       .token? "colon" "colon",
       .node "ty" "type",
       .token? "ellipsis" "ellipsis",
       .token? "trailing_comma" "trailingComma"]⟩,
    ⟨.tupleType,
      [.token "left_paren" "leftParen",
       .list "elements" "elements",
       .token "right_paren" "rightParen"]⟩,
    ⟨.atAttribute,
      [.token "at_sign" "atSign",
       .node "attribute_name" "attributeName",
       .token? "left_paren" "leftParen",
       .token? "argument" "argument",
       .token? "right_paren" "rightParen"]⟩,
    ⟨.typeEffectSpecifiers,
      [.token? "async_specifier" "asyncSpecifier",
       .token? "throws_specifier" "throwsSpecifier"]⟩,
    ⟨.returnClause,
      [.token "arrow" "arrow",
       .node "ty" "type"]⟩,
    ⟨.genericParameterClause,
      [.token "left_angle" "leftAngle",
       .list "parameters" "parameters",
       .token "right_angle" "rightAngle"]⟩,
    ⟨.genericParameter,
      [.list "attributes" "attributes",
       .token? "each_keyword" "eachKeyword",
       .token "name" "name",
       .token? "colon" "colon",
       .node? "inherited_type" "inheritedType",
       .token? "trailing_comma" "trailingComma"]⟩,
    ⟨.missingType,
      [.token "placeholder" "placeholder"]⟩]

def name (view : View) : String := view.kind.name ++ "Syntax"

def ofName? (name : String) : Option View := all.find? (·.name == name)

def ofKind? (kind : SyntaxKind) : Option View := all.find? (·.kind == kind)

/-- The slots of a view in order. -/
def slotNames (view : View) : List String := view.accessors.map (·.slot)

end View

/-- A node seen through a view. -/
structure Viewed (view : View) where
  node : Node
  kind_eq : node.kind = view.kind

/-- Why an accessor gave nothing. -/
inductive AccessError where
  /-- The kind has no such slot. -/
  | unknownSlot (violation : Violation)
  /-- The slot has to be filled and does not hold what it should. -/
  | emptySlot (kind : SyntaxKind) (slot : String)
  deriving DecidableEq

def AccessError.message : AccessError → String
  | .unknownSlot violation => violation.message
  | .emptySlot kind slot => kind.name ++ " slot `" ++ slot ++ "` is mandatory but empty"

/-- A node seen through a view, if it is of the kind of the view. -/
def View.cast? (view : View) (n : Node) : Option (Viewed view) :=
  if h : n.kind = view.kind then some ⟨n, h⟩ else none

/-- The child in the slot of an accessor, if it is of the accessor's sort. -/
def Accessor.find (accessor : Accessor) (n : Node) : Except Violation (Option Element) :=
  match accessor.sort with
  | .token => (n.childLeaf accessor.slot).map (·.map .leaf)
  | .node | .list => (n.childNode accessor.slot).map (·.map .node)

/-- What an accessor gives; only an optional slot may be empty. -/
def Viewed.read {view : View} (viewed : Viewed view) (accessor : Accessor) :
    Except AccessError (Option Element) :=
  match accessor.find viewed.node with
  | .error violation => .error (.unknownSlot violation)
  | .ok none =>
    if accessor.isOptional then .ok none else .error (.emptySlot view.kind accessor.slot)
  | .ok (some element) => .ok (some element)

end LosslessSyntax
