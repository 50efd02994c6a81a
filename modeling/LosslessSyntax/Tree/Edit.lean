import LosslessSyntax.Tree.Construct

/-!
# Reading and editing nodes

Children are read by the names of their slots. An edit gives a new node and leaves the old one as it
was; all children but the edited one are shared. Only what changes is checked again, since the rest
was checked when the old node was built.
-/

namespace LosslessSyntax

/-- Why an element could not be taken away. -/
inductive RemovalError where
  | outOfBounds (kind : SyntaxKind) (index size : Nat)
  /-- The node has slots in place of elements. -/
  | fixedArity (violation : Violation)
  deriving DecidableEq

def RemovalError.message : RemovalError → String
  | .outOfBounds kind index size =>
    "element " ++ toString index ++ " out of bounds for " ++ kind.name ++ " of length " ++
      toString size
  | .fixedArity violation => violation.message

namespace Node

/-- The position of the slot under a name, current or former, for something to be put there. -/
def slotIndex (n : Node) (name : String) (supplied : Supplied) : Except Violation Nat :=
  match catalogue.slotIndex? n.kind name with
  | some index => .ok index
  | none => .error (.unknownSlot n.kind name supplied)

/-- The child in the slot under a name, current or former. -/
def child (n : Node) (name : String) : Except Violation (Option Element) :=
  (n.slotIndex name .absent).map n.childAt?

/-- The child in the slot under a name, if it is a node. -/
def childNode (n : Node) (name : String) : Except Violation (Option Node) :=
  (n.child name).map (·.bind Element.node?)

/-- The child in the slot under a name, if it is a token. -/
def childLeaf (n : Node) (name : String) : Except Violation (Option Leaf) :=
  (n.child name).map (·.bind Element.leaf?)

/-- Whether the kind of the node declares a trait. -/
def hasTrait (n : Node) (t : Trait) : Bool := catalogue.hasTrait n.kind t

/-- The child in a slot of a trait that the kind of the node declares. -/
def traitChild? (n : Node) (t : Trait) (name : String) : Option Element :=
  (catalogue.traitSlotIndex? t n.kind name).bind n.childAt?

/-- The node with another entry at a position. -/
def withChildAt (n : Node) (index : Nat) (value : Option Element) : Building Violation Node := do
  catalogue.validateSlot n.kind index (.ofEntry value)
  ofFitting n.kind (n.children.set index value)

/-- An entry is replaced exactly when the new one is valid in its place. -/
theorem run_withChildAt (n : Node) (index : Nat) (value : Option Element) (serial : Nat) :
    n.withChildAt index value serial =
      (catalogue.validateSlot n.kind index (.ofEntry value)).map fun _ =>
        (.mk serial n.kind (n.children.set index value) (totalLen (n.children.set index value)),
          serial + 1) := by
  simp only [withChildAt]
  cases catalogue.validateSlot n.kind index (.ofEntry value) <;> rfl

/-- The node with another entry in the slot under a name. -/
def withChild (n : Node) (name : String) (value : Option Element) : Building Violation Node := do
  let index ← n.slotIndex name (.ofEntry value)
  n.withChildAt index value

/-- The collection with one more element at the end. -/
def withAppended (n : Node) (element : Element) : Building Violation Node := do
  catalogue.validateElement n.kind n.size element.supplied
  ofFitting n.kind (n.children ++ [some element])

/-- An element is added exactly when it is valid as the last one. -/
theorem run_withAppended (n : Node) (element : Element) (serial : Nat) :
    n.withAppended element serial =
      (catalogue.validateElement n.kind n.size element.supplied).map fun _ =>
        (.mk serial n.kind (n.children ++ [some element])
          (totalLen (n.children ++ [some element])), serial + 1) := by
  simp only [withAppended]
  cases catalogue.validateElement n.kind n.size element.supplied <;> rfl

/-- The collection without one of its elements. -/
def withRemoved (n : Node) (index : Nat) : Building RemovalError Node :=
  if n.size ≤ index then
    throw (.outOfBounds n.kind index n.size)
  else if catalogue.isCollection n.kind then
    ofFitting n.kind (n.children.eraseIdx index)
  else
    throw (.fixedArity ⟨n.kind, .arity, .childCount n.size, .childCount (n.size - 1)⟩)

/-- The collection with other elements. -/
def withElements (n : Node) (elements : List Element) : Building Violation Node :=
  ofElements n.kind elements

end Node

namespace Leaf

/-- A new leaf that holds the edited token. -/
def withToken {ε : Type} (l : Leaf) (edit : Token → Token) : Building ε Leaf :=
  ofToken (edit l.token)

end Leaf

end LosslessSyntax
