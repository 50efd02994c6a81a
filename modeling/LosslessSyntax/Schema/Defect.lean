import LosslessSyntax.Schema.Basic

/-!
# Defects of a schema

A schema without defects has its entries in place, answers to each slot name once in a kind, keeps
what the declared traits promise, and only speaks of collections where there are collections.
-/

namespace LosslessSyntax

/-- One thing wrong with a schema. -/
inductive Defect where
  /-- The entry at a position describes the kind of another position. -/
  | outOfOrder (index : Nat) (kind : SyntaxKind)
  /-- The base says collection and the shape says layout, or the other way round. -/
  | baseMismatch (kind : SyntaxKind)
  /-- A name that a kind has in use twice. -/
  | duplicateSlotName (kind : SyntaxKind) (name : String)
  /-- A slot of a declared trait that the kind lacks or has otherwise. -/
  | traitMismatch (kind : SyntaxKind) (t : Trait) (slot : String)
  /-- A slot for a collection of a kind that is none. -/
  | notACollection (kind : SyntaxKind) (slot : String)
  /-- A slot for tokens that takes none. -/
  | emptyTokenChoices (kind : SyntaxKind) (slot : String)
  /-- A collection that takes no elements. -/
  | emptyElementChoices (kind : SyntaxKind)
  /-- A collection whose elements are collections. -/
  | nestedCollection (kind element : SyntaxKind)
  deriving DecidableEq

def Defect.message : Defect → String
  | .outOfOrder index kind => "schema entry " ++ toString index ++ " describes " ++ kind.name
  | .baseMismatch kind =>
    kind.name ++ ": base and layout disagree on whether it is a collection"
  | .duplicateSlotName kind name =>
    kind.name ++ ": more than one slot answers to `" ++ name ++ "`"
  | .traitMismatch kind t slot =>
    kind.name ++ ": declares " ++ t.name ++ " but slot `" ++ slot ++ "` does not match"
  | .notACollection kind slot =>
    kind.name ++ ": slot `" ++ slot ++ "` refers to a non-collection kind"
  | .emptyTokenChoices kind slot => kind.name ++ ": slot `" ++ slot ++ "` accepts no tokens"
  | .emptyElementChoices kind => kind.name ++ ": collection accepts no elements"
  | .nestedCollection kind element =>
    kind.name ++ ": element kind " ++ element.name ++ " is itself a collection"

namespace Schema

/-- The names that occur again, in order, given those seen before. -/
def repeated (seen : List String) : List String → List String
  | [] => []
  | name :: rest =>
    if name ∈ seen then name :: repeated seen rest else repeated (name :: seen) rest

/-- What is wrong with the constraint of a slot. -/
def constraintDefects (schema : Schema) (kind : SyntaxKind) (slot : Slot) : List Defect :=
  match slot.constraint with
  | .collection target _ _ _ =>
    if schema.isCollection target then [] else [.notACollection kind slot.name]
  | .tokens [] => [.emptyTokenChoices kind slot.name]
  | _ => []

/-- What is wrong with slots, slot by slot, given the names of the slots before them. -/
def slotDefects (schema : Schema) (kind : SyntaxKind) (seen : List String) :
    List Slot → List Defect
  | [] => []
  | slot :: rest =>
    (repeated seen slot.names).map (.duplicateSlotName kind) ++
      schema.constraintDefects kind slot ++
      schema.slotDefects kind (slot.names ++ seen) rest

/-- Whether a slot is as a trait wants it. -/
def conforms (slot wanted : Slot) : Bool :=
  slot.name = wanted.name && slot.constraint = wanted.constraint &&
    slot.isOptional = wanted.isOptional

/-- The promises of declared traits that a kind breaks. -/
def traitDefects (schema : Schema) (kind : SyntaxKind) : List Defect :=
  (schema.entry kind).traits.toList.flatMap fun t =>
    (t.slots.filter fun wanted => !(schema.slots kind).any (conforms · wanted)).map fun wanted =>
      .traitMismatch kind t wanted.name

/-- What is wrong with the kinds of elements of a collection. -/
def elementDefects (schema : Schema) (kind : SyntaxKind) (elements : List SyntaxKind) :
    List Defect :=
  (if elements.isEmpty then [.emptyElementChoices kind] else []) ++
    (elements.filter schema.isCollection).map (.nestedCollection kind)

/-- What is wrong with the entry in the place of a kind. The slots and traits checked are those of
the kind that the entry describes. -/
def entryDefects (schema : Schema) (place : SyntaxKind) : List Defect :=
  let entry := schema.entry place
  (if entry.kind = place then [] else [.outOfOrder place.code entry.kind]) ++
    (if entry.isCollection = (entry.base = .collection : Bool) then []
      else [.baseMismatch entry.kind]) ++
    match entry.shape with
    | .layout _ =>
      schema.slotDefects entry.kind [] (schema.slots entry.kind) ++ schema.traitDefects entry.kind
    | .collection elements => schema.elementDefects entry.kind elements

/-- Everything wrong with a schema, entry by entry. -/
def defects (schema : Schema) : List Defect := SyntaxKind.all.flatMap schema.entryDefects

end Schema

end LosslessSyntax
