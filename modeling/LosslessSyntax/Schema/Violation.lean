import LosslessSyntax.Schema.Slot

/-!
# Violations

A violation says where the children of a node break its schema, what was asked for there and what
was supplied. The wording is fixed by `Violation.message`.
-/

namespace LosslessSyntax

/-- What a schema sees of a child. -/
inductive Supplied where
  | absent
  | token (kind : TokenKind)
  | node (kind : SyntaxKind)
  deriving DecidableEq

/-- Where in a node the trouble is. -/
inductive Location where
  | slot (index : Nat) (name : String)
  /-- At an element of a collection. -/
  | element (index : Nat)
  /-- In the number of children. -/
  | arity
  /-- At a name that no slot answers to. -/
  | unknownSlot (name : String)
  deriving DecidableEq

/-- What the schema asks for. -/
inductive Expected where
  /-- Something under the constraint of a slot, or nothing if that is optional. -/
  | slot (constraint : Constraint) (isOptional : Bool)
  /-- A node of one of these kinds. -/
  | element (choices : List SyntaxKind)
  | childCount (count : Nat)
  | slotName
  deriving DecidableEq

/-- What there was instead. -/
inductive Found where
  | supplied (child : Supplied)
  | childCount (count : Nat)
  /-- A position behind the last slot. -/
  | slotIndex (index : Nat)
  deriving DecidableEq

/-- Children that do not fit the schema of a node. -/
structure Violation where
  node : SyntaxKind
  location : Location
  expected : Expected
  found : Found
  deriving DecidableEq

def Supplied.describe : Supplied → String
  | .absent => "nothing"
  | .token kind =>
    match kind.canonicalText? with
    | some _ => "token `" ++ kind.label ++ "`"
    | none => kind.label ++ " `" ++ kind.text ++ "`"
  | .node kind => "a " ++ kind.name ++ " node"

/-- The wording for a place, after the name of the node. -/
def Location.describe : Location → String
  | .slot index name => " slot " ++ toString index ++ " `" ++ name ++ "`"
  | .element index => " element " ++ toString index
  | .arity => ""
  | .unknownSlot name => " has no slot `" ++ name ++ "`"

def Expected.describe : Expected → String
  | .slot constraint isOptional =>
    constraint.describe ++ if isOptional then " or nothing" else ""
  | .element choices => " or ".intercalate (choices.map fun kind => "a " ++ kind.name ++ " node")
  | .childCount count => toString count ++ " children"
  | .slotName => "a slot name"

def Found.describe : Found → String
  | .supplied child => child.describe
  | .childCount count => toString count
  | .slotIndex index => "slot index " ++ toString index

namespace Violation

/-- A name that no slot answers to. -/
def unknownSlot (node : SyntaxKind) (name : String) (supplied : Supplied) : Violation where
  node := node
  location := .unknownSlot name
  expected := .slotName
  found := .supplied supplied

/-- The name of the slot in question, if there is one. -/
def slotName? (violation : Violation) : Option String :=
  match violation.location with
  | .slot _ name | .unknownSlot name => some name
  | .element _ | .arity => none

/-- The wording of a violation. Where the name of a slot is asked for, the place says it all. -/
def message (violation : Violation) : String :=
  let place := violation.node.name ++ violation.location.describe
  match violation.expected with
  | .slotName => place
  | expected =>
    place ++ ": expected " ++ expected.describe ++ ", found " ++ violation.found.describe

end Violation

end LosslessSyntax
