import LosslessSyntax.Schema.Kind
import LosslessSyntax.Token.Kind

/-!
# Slots

A slot is a named place in a node. Its constraint says what may stand there; a slot that is not
optional has to be filled. A renamed slot still answers to the name it had before.
-/

namespace LosslessSyntax

/-- One sort of token that a slot takes. -/
inductive TokenChoice where
  | tag (tag : Tag)
  /-- This keyword and no other. -/
  | keyword (keyword : Keyword)
  deriving DecidableEq

/-- The nodes that a slot for nodes takes. -/
inductive NodeChoice where
  | base (base : Base)
  /-- This kind and no other. -/
  | kind (kind : SyntaxKind)
  deriving DecidableEq

/-- What a slot may hold. -/
inductive Constraint where
  | node (choice : NodeChoice)
  | anyToken
  /-- A token of one of these sorts. -/
  | tokens (choices : List TokenChoice)
  /-- A collection of one kind. One element of it goes by `elementName`, before a rename by
  `formerElementName`. With `defaultsToEmpty` a slot left open gets an empty collection. -/
  | collection (kind : SyntaxKind) (elementName : String) (formerElementName : Option String)
      (defaultsToEmpty : Bool)
  deriving DecidableEq

/-- How many values a slot holds. -/
inductive Cardinality where
  | one
  | optional
  /-- One collection of any number of elements. -/
  | sequence (defaultsToEmpty : Bool)
  deriving DecidableEq

/-- A named place in a node. -/
structure Slot where
  name : String
  /-- The name before a rename. -/
  formerName : Option String
  constraint : Constraint
  isOptional : Bool
  label : Option String
  documentation : Option String
  deriving DecidableEq

namespace TokenChoice

/-- Whether a token of this kind is of the chosen sort. -/
def admits : TokenChoice → TokenKind → Bool
  | .tag expected, kind => kind.tag = expected
  | .keyword expected, kind => kind.keyword? = some expected

def label : TokenChoice → String
  | .tag expected => expected.label
  | .keyword expected => expected.spelling

end TokenChoice

namespace Constraint

def anyType : Constraint := .node (.base .type)

def ofKind (kind : SyntaxKind) : Constraint := .node (.kind kind)

/-- A collection of one kind whose elements never had another name. -/
def listOf (kind : SyntaxKind) (elementName : String) : Constraint :=
  .collection kind elementName none false

def isToken : Constraint → Bool
  | .anyToken | .tokens _ => true
  | .node _ | .collection _ _ _ _ => false

/-- Whether a token of this kind may stand here. -/
def admitsToken : Constraint → TokenKind → Bool
  | .anyToken, _ => true
  | .tokens choices, kind => choices.any (·.admits kind)
  | .node _, _ | .collection _ _ _ _, _ => false

/-- The kind of the empty collection that fills a slot left open. -/
def default? : Constraint → Option SyntaxKind
  | .collection kind _ _ true => some kind
  | _ => none

def describe : Constraint → String
  | .node (.base .node) => "any node"
  | .node (.base base) => "a " ++ base.label ++ " node"
  | .node (.kind kind) => "a " ++ kind.name ++ " node"
  | .anyToken => "any token"
  | .tokens [choice] => "`" ++ choice.label ++ "`"
  | .tokens choices =>
    "one of " ++ ", ".intercalate (choices.map fun choice => "`" ++ choice.label ++ "`")
  | .collection kind _ _ _ => "a " ++ kind.name ++ " collection"

end Constraint

namespace Slot

/-- A slot that has to be filled. -/
def ofConstraint (name : String) (constraint : Constraint) : Slot where
  name := name
  formerName := none
  constraint := constraint
  isOptional := false
  label := none
  documentation := none

/-- A slot that has to be filled with one of these tokens. -/
def token (name : String) (choices : List TokenChoice) : Slot :=
  ofConstraint name (.tokens choices)

/-- The slot under a name that it has taken the place of. -/
def formerly (slot : Slot) (name : String) : Slot := { slot with formerName := some name }

/-- The slot, which may stay empty. -/
def optional (slot : Slot) : Slot := { slot with isOptional := true }

def labelled (slot : Slot) (label : String) : Slot := { slot with label := some label }

def documented (slot : Slot) (documentation : String) : Slot :=
  { slot with documentation := some documentation }

/-- The slot, filled with an empty collection when left open. Only a slot for a collection
changes. -/
def defaultingToEmpty (slot : Slot) : Slot :=
  match slot.constraint with
  | .collection kind element former _ =>
    { slot with constraint := .collection kind element former true }
  | _ => slot

/-- The slot whose elements had another name before. Only a slot for a collection changes. -/
def elementsFormerly (slot : Slot) (name : String) : Slot :=
  match slot.constraint with
  | .collection kind element _ defaultsToEmpty =>
    { slot with constraint := .collection kind element (some name) defaultsToEmpty }
  | _ => slot

def cardinality (slot : Slot) : Cardinality :=
  match slot.constraint with
  | .collection _ _ _ defaultsToEmpty => .sequence defaultsToEmpty
  | _ => if slot.isOptional then .optional else .one

/-- The names the slot answers to, the current one first. -/
def names (slot : Slot) : List String := slot.name :: slot.formerName.toList

def answersTo (slot : Slot) (name : String) : Bool :=
  slot.name = name || slot.formerName = some name

end Slot

end LosslessSyntax
