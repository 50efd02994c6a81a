import LosslessSyntax.Tree.Construct

/-!
# Drafts

A draft collects the children of a node by the names of their slots and is checked once, when it is
finished. Slots left open stay empty, unless they are to hold an empty collection then. The first
name that no slot answers to is kept and decides the outcome.
-/

namespace LosslessSyntax

/-- A node in the making. -/
structure Draft where
  kind : SyntaxKind
  slots : List (Option Element)
  /-- The first trouble with a name. -/
  unknown : Option Violation

namespace Draft

def empty (kind : SyntaxKind) : Draft :=
  ⟨kind, List.replicate (catalogue.slots kind).length none, none⟩

/-- The draft with a slot filled, or opened again. -/
def set (draft : Draft) (name : String) (value : Option Element) : Draft :=
  match catalogue.slotIndex? draft.kind name with
  | some index => { draft with slots := draft.slots.set index value }
  | none =>
    match draft.unknown with
    | some _ => draft
    | none =>
      { draft with unknown := some (.unknownSlot draft.kind name (.ofEntry value)) }

/-- The draft with slots set one after the other. -/
def setAll (draft : Draft) (values : List (String × Option Element)) : Draft :=
  values.foldl (fun draft (name, value) => draft.set name value) draft

/-- An entry, with an empty collection put where a slot wants one. -/
def defaulted {ε : Type} (slot : Slot) (entry : Option Element) : Building ε (Option Element) :=
  match entry, slot.constraint.default? with
  | none, some kind => return some (.node (← Node.emptyCollection kind))
  | entry, _ => return entry

/-- The entries of slots, with empty collections put where slots want them. -/
def defaultedAll {ε : Type} : List Slot → List (Option Element) →
    Building ε (List (Option Element))
  | slot :: slots, entry :: entries => do
    let first ← defaulted slot entry
    let others ← defaultedAll slots entries
    return first :: others
  | _, entries => return entries

/-- The node that the draft describes. -/
def finish (draft : Draft) : Building Violation Node :=
  match draft.unknown with
  | some violation => throw violation
  | none => do
    let children ← defaultedAll (catalogue.slots draft.kind) draft.slots
    Node.ofChildren draft.kind children

end Draft

end LosslessSyntax
