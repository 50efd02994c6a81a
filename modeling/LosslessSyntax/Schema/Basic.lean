import LosslessSyntax.Schema.Trait

/-!
# Schemas

A schema describes each kind by an entry. It may be any such table; whether it makes sense is
checked elsewhere. Slots are found by name: a current name goes before a former one, and of several
slots under one name the last one counts. `NameTable` finds them by two maps that are filled slot by slot:
a slot takes over a name that a slot before it has in the same map, and the map of former names is only
asked for names that are not current.
-/

namespace LosslessSyntax

/-- Named slots, or a list of like nodes. -/
inductive Shape where
  | layout (slots : List Slot)
  | collection (elements : List SyntaxKind)
  deriving DecidableEq

/-- What a schema says about one kind. -/
structure Entry where
  kind : SyntaxKind
  base : Base
  /-- The wording for messages; kinds without one go by the slot they stand in. -/
  label : Option String
  documentation : Option String
  traits : TraitSet
  shape : Shape
  deriving DecidableEq

/-- A table of the kinds. -/
structure Schema where
  entry : SyntaxKind → Entry

namespace Entry

/-- The entry of a kind with slots. -/
def layout (kind : SyntaxKind) (base : Base) (label : Option String) (slots : List Slot) :
    Entry where
  kind := kind
  base := base
  label := label
  documentation := none
  traits := .empty
  shape := .layout slots

/-- The entry of a kind of lists. -/
def collection (kind : SyntaxKind) (elements : List SyntaxKind) : Entry where
  kind := kind
  base := .collection
  label := none
  documentation := none
  traits := .empty
  shape := .collection elements

def declaring (entry : Entry) (traits : List Trait) : Entry :=
  { entry with traits := .ofList traits }

def documented (entry : Entry) (documentation : String) : Entry :=
  { entry with documentation := some documentation }

/-- The slots in source order. A collection has none. -/
def slots (entry : Entry) : List Slot :=
  match entry.shape with
  | .layout slots => slots
  | .collection _ => []

/-- The kinds of elements. A layout has none. -/
def elements (entry : Entry) : List SyntaxKind :=
  match entry.shape with
  | .layout _ => []
  | .collection elements => elements

def isCollection (entry : Entry) : Bool :=
  match entry.shape with
  | .layout _ => false
  | .collection _ => true

end Entry

namespace Schema

def base (schema : Schema) (kind : SyntaxKind) : Base := (schema.entry kind).base

def slots (schema : Schema) (kind : SyntaxKind) : List Slot := (schema.entry kind).slots

def elements (schema : Schema) (kind : SyntaxKind) : List SyntaxKind :=
  (schema.entry kind).elements

def isCollection (schema : Schema) (kind : SyntaxKind) : Bool := (schema.entry kind).isCollection

def hasTrait (schema : Schema) (kind : SyntaxKind) (t : Trait) : Bool :=
  (schema.entry kind).traits.contains t

/-- The position of the last slot that passes a test, the first slot being at `index`. -/
def lastIndex? (p : Slot → Bool) (index : Nat) : List Slot → Option Nat
  | [] => none
  | slot :: rest =>
    match lastIndex? p (index + 1) rest with
    | some later => some later
    | none => if p slot then some index else none

/-- The position of the slot under a name, be it current or former. -/
def slotIndex? (schema : Schema) (kind : SyntaxKind) (name : String) : Option Nat :=
  match lastIndex? (·.name = name) 0 (schema.slots kind) with
  | some index => some index
  | none => lastIndex? (·.formerName = some name) 0 (schema.slots kind)

/-- The slot under a name, be it current or former. -/
def slot? (schema : Schema) (kind : SyntaxKind) (name : String) : Option Slot :=
  (schema.slotIndex? kind name).bind ((schema.slots kind)[·]?)

/-- The position of a slot of a trait in a kind that declares the trait. Former names do not
count. -/
def traitSlotIndex? (schema : Schema) (t : Trait) (kind : SyntaxKind) (name : String) :
    Option Nat :=
  if schema.hasTrait kind t ∧ t.slots.any (·.name = name) then
    (schema.slots kind).findIdx? (·.name = name)
  else
    none

/-- Whether a node of this kind belongs to a base. -/
def inBase (schema : Schema) (base : Base) (kind : SyntaxKind) : Bool :=
  match base with
  | .node => true
  | _ => schema.base kind = base

/-- Whether a node of this kind may stand under a constraint. -/
def admitsNode (schema : Schema) (constraint : Constraint) (kind : SyntaxKind) : Bool :=
  match constraint with
  | .node (.base base) => schema.inBase base kind
  | .node (.kind expected) => kind = expected
  | .collection expected _ _ _ => kind = expected
  | .anyToken | .tokens _ => false

end Schema

/-- The positions of slots by their current and by their former names. -/
structure NameTable where
  current : Std.HashMap String Nat
  former : Std.HashMap String Nat

namespace NameTable

/-- The table with one more slot. -/
def insert (table : NameTable) (index : Nat) (slot : Slot) : NameTable where
  current := table.current.insert slot.name index
  former :=
    match slot.formerName with
    | some name => table.former.insert name index
    | none => table.former

/-- The table with more slots, the first one at `index`. -/
def insertAll (table : NameTable) (index : Nat) : List Slot → NameTable
  | [] => table
  | slot :: rest => (table.insert index slot).insertAll (index + 1) rest

def ofSlots (slots : List Slot) : NameTable := insertAll ⟨∅, ∅⟩ 0 slots

/-- The position under a name, be it current or former. -/
def find? (table : NameTable) (name : String) : Option Nat :=
  match table.current[name]? with
  | some index => some index
  | none => table.former[name]?

end NameTable

/-- The slots of a kind by name. -/
def Schema.nameTable (schema : Schema) (kind : SyntaxKind) : NameTable := .ofSlots (schema.slots kind)

end LosslessSyntax
