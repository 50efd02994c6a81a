import LosslessSyntax.Schema.Violation
import LosslessSyntax.Token.Basic

/-!
# Trees

A tree has tokens for leaves and nodes above them. A node has one entry for each slot of its kind,
empty where nothing stands, or one entry for each element of a list. Handles are shared freely: a
serial number, given out when a leaf or a node is allocated, tells which handles are one allocation.
A node keeps the byte length of its text, so a length is never counted again.
-/

namespace LosslessSyntax

/-- A token in a tree. -/
structure Leaf where
  serial : Nat
  token : Token
  deriving DecidableEq

mutual

/-- A node of a tree, with the byte length of its text. -/
inductive Node where
  | mk (serial : Nat) (kind : SyntaxKind) (children : List (Option Element)) (textLen : Nat)

/-- What can stand in a slot. -/
inductive Element where
  | node (n : Node)
  | leaf (l : Leaf)

end

/-- The elements among entries, in order. -/
def Element.present (entries : List (Option Element)) : List Element :=
  entries.flatMap Option.toList

namespace Leaf

/-- Whether both handles are one allocation. -/
def sameHandle (a b : Leaf) : Bool := a.serial = b.serial

end Leaf

namespace Node

def serial : Node → Nat
  | mk serial _ _ _ => serial

def kind : Node → SyntaxKind
  | mk _ kind _ _ => kind

/-- One entry for each slot or element. -/
def children : Node → List (Option Element)
  | mk _ _ children _ => children

/-- The byte length of the text below the node, trivia included. -/
def textLen : Node → Nat
  | mk _ _ _ textLen => textLen

section Parts

variable (serial : Nat) (kind : SyntaxKind) (children : List (Option Element)) (textLen : Nat)

@[simp] theorem serial_mk : (mk serial kind children textLen).serial = serial := rfl

@[simp] theorem kind_mk : (mk serial kind children textLen).kind = kind := rfl

@[simp] theorem children_mk : (mk serial kind children textLen).children = children := rfl

@[simp] theorem textLen_mk : (mk serial kind children textLen).textLen = textLen := rfl

end Parts

/-- The children that are there, in order. -/
def elements (n : Node) : List Element := Element.present n.children

def size (n : Node) : Nat := n.children.length

def childAt? (n : Node) (index : Nat) : Option Element := n.children[index]?.join

/-- Whether both handles are one allocation. -/
def sameHandle (a b : Node) : Bool := a.serial = b.serial

end Node

namespace Element

def node? : Element → Option Node
  | node n => some n
  | leaf _ => none

def leaf? : Element → Option Leaf
  | node _ => none
  | leaf l => some l

/-- The byte length of the element, trivia included. -/
def textLen : Element → Nat
  | node n => n.textLen
  | leaf l => l.token.textLen

/-- What a schema sees of the element. -/
def supplied : Element → Supplied
  | node n => .node n.kind
  | leaf l => .token l.token.kind

/-- Whether both handles are one allocation. -/
def sameHandle : Element → Element → Bool
  | node a, node b => a.sameHandle b
  | leaf a, leaf b => a.sameHandle b
  | _, _ => false

/-- The children that are there, in order. A token has none. -/
def elements : Element → List Element
  | node n => n.elements
  | leaf _ => []

end Element

/-- What a schema sees of an entry. -/
def Supplied.ofEntry : Option Element → Supplied
  | none => .absent
  | some element => element.supplied

end LosslessSyntax
