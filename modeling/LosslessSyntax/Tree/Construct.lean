import LosslessSyntax.Schema.Catalogue
import LosslessSyntax.Schema.Validation
import LosslessSyntax.Tree.Basic

/-!
# Building trees

Leaves and nodes are allocated under fresh serial numbers. A node is checked against the catalogue
when it is built, so each node that was built has the children its kind asks for.
-/

namespace LosslessSyntax

/-- A computation that gives out serial numbers, the state being the next one, and that may
fail. -/
abbrev Building (ε : Type) := StateT Nat (Except ε)

/-- What is made with the next serial number. -/
def allocate {ε α : Type} (make : Nat → α) : Building ε α :=
  modifyGet fun serial => (make serial, serial + 1)

/-- The leaf of a token. -/
def Leaf.ofToken {ε : Type} (token : Token) : Building ε Leaf := allocate (⟨·, token⟩)

namespace Node

/-- The byte length of entries taken together. -/
def totalLen (children : List (Option Element)) : Nat :=
  Text.totalLen Element.textLen (Element.present children)

/-- The node over entries that are known to fit. -/
def ofFitting {ε : Type} (kind : SyntaxKind) (children : List (Option Element)) :
    Building ε Node :=
  allocate (.mk · kind children (totalLen children))

/-- The node over one entry for each slot or element. -/
def ofChildren (kind : SyntaxKind) (children : List (Option Element)) :
    Building Violation Node := do
  catalogue.validate kind (children.map Supplied.ofEntry)
  ofFitting kind children

/-- A node is built exactly when its children are valid, and is what `mk` makes of them. -/
theorem run_ofChildren (kind : SyntaxKind) (children : List (Option Element)) (serial : Nat) :
    ofChildren kind children serial =
      (catalogue.validate kind (children.map Supplied.ofEntry)).map fun _ =>
        (.mk serial kind children (totalLen children), serial + 1) := by
  simp only [ofChildren]
  cases catalogue.validate kind (children.map Supplied.ofEntry) <;> rfl

def ofElements (kind : SyntaxKind) (elements : List Element) : Building Violation Node :=
  ofChildren kind (elements.map some)

def emptyCollection {ε : Type} (kind : SyntaxKind) : Building ε Node := ofFitting kind []

end Node

end LosslessSyntax
