import LosslessSyntax.Schema.Basic
import LosslessSyntax.Schema.Violation

/-!
# Validation

Children are checked by what the schema sees of them: that they are absent, the kind of a token or
the kind of a node. A layout takes one entry for each slot and a collection one for each element;
the first misfit in source order is reported.
-/

namespace LosslessSyntax.Schema

/-- Whether something fits into a slot. -/
def fits (schema : Schema) (slot : Slot) : Supplied → Bool
  | .absent => slot.isOptional
  | .token kind => slot.constraint.admitsToken kind
  | .node kind => schema.admitsNode slot.constraint kind

/-- Checks what is to fill one slot. A position behind the last slot, which is every position of a
collection, breaks the arity. -/
def validateSlot (schema : Schema) (kind : SyntaxKind) (index : Nat) (supplied : Supplied) :
    Except Violation Unit :=
  match (schema.slots kind)[index]? with
  | none =>
    .error ⟨kind, .arity, .childCount (schema.slots kind).length, .slotIndex index⟩
  | some slot =>
    if schema.fits slot supplied then .ok ()
    else
      .error ⟨kind, .slot index slot.name, .slot slot.constraint slot.isOptional,
        .supplied supplied⟩

/-- Checks what is to be one element of a collection. -/
def validateElement (schema : Schema) (kind : SyntaxKind) (index : Nat) (supplied : Supplied) :
    Except Violation Unit :=
  let misfit : Except Violation Unit :=
    .error ⟨kind, .element index, .element (schema.elements kind), .supplied supplied⟩
  match supplied with
  | .node element => if element ∈ schema.elements kind then .ok () else misfit
  | .absent | .token _ => misfit

/-- The outcome of the first failing check, the first child being at `index`. -/
def validateEach (check : Nat → Supplied → Except Violation Unit) (index : Nat) :
    List Supplied → Except Violation Unit
  | [] => .ok ()
  | supplied :: rest =>
    match check index supplied with
    | .ok () => validateEach check (index + 1) rest
    | .error violation => .error violation

/-- Checks all children of a node. The number of children of a layout is checked first. -/
def validate (schema : Schema) (kind : SyntaxKind) (supplied : List Supplied) :
    Except Violation Unit :=
  match (schema.entry kind).shape with
  | .layout slots =>
    if supplied.length ≠ slots.length then
      .error ⟨kind, .arity, .childCount slots.length, .childCount supplied.length⟩
    else
      validateEach (schema.validateSlot kind) 0 supplied
  | .collection _ => validateEach (schema.validateElement kind) 0 supplied

end LosslessSyntax.Schema
