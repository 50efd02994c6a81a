import Std.Data.HashMap
import LosslessSyntax.Tree.Equality
import LosslessSyntax.Tree.Walk

/-!
# Digests

What a hash is made from: the sequence of items that a value feeds into it. The items of a tree are
those of its walk, a node giving its kind and which of its slots are filled, a token all its parts.
Serial numbers are left out, so equal trees feed the same items.

A text is fed in where a hash is made from its name of 32 bits. Nothing is lost by that: names and texts are one to
one for as long as the interner lives (`Text.internAll_exact`), so two values feed equal items in the one form
exactly if they do in the other. `Element` stands for a reference to an element as well, which has the same two
variants, is equal where its referent is and feeds the items of its referent.
-/

namespace LosslessSyntax

/-- One item fed into a hash. -/
inductive Write where
  | number (value : Nat)
  | flag (value : Bool)
  | text (value : String)
  deriving DecidableEq, Hashable

/-- The hash of a sequence of items. -/
def Write.digest (writes : List Write) : UInt64 :=
  writes.foldl (fun digest write => mixHash digest (hash write)) 7

namespace Trivia

def Piece.writes : Piece → List Write
  | .run unit count => [.number (RunUnit.all.idxOf unit), .number count.toNat]
  | .stretch sort text => [.number (RunUnit.all.length + TextSort.all.idxOf sort), .text text]

/-- The items of trivia, the number of pieces first. -/
def writes (trivia : Trivia) : List Write :=
  .number trivia.size :: trivia.toList.flatMap Piece.writes

end Trivia

def TokenKind.writes (kind : TokenKind) : List Write :=
  .number kind.tag.code ::
    match kind with
    | .fixed _ => []
    | .keyword word => [.number word.code]
    | .free _ text => [.text text]

def Token.writes (token : Token) : List Write :=
  token.kind.writes ++ token.leading.writes ++ token.trailing.writes ++ [.flag token.isMissing]

def Leaf.writes (l : Leaf) : List Write := l.token.writes

namespace Node

/-- The items of a node itself: its kind, then whether each slot is filled. -/
def ownWrites (n : Node) : List Write :=
  .number n.kind.code :: n.children.map fun entry => .flag entry.isSome

/-- The items of a node and all below it. -/
def writes (n : Node) : List Write :=
  n.preorder.flatMap fun
    | .node below => below.ownWrites
    | .leaf l => l.writes

end Node

/-- The items of an element: which sort it is, then those of the node or token. -/
def Element.writes : Element → List Write
  | .node n => .number 0 :: n.writes
  | .leaf l => .number 1 :: l.writes

instance : Hashable Node := ⟨fun n => Write.digest n.writes⟩

instance : Hashable Element := ⟨fun element => Write.digest element.writes⟩

/-- For each element the position of the first one equal to it, the first element being at `index`
and `seen` holding the positions of those before. -/
def Element.firstEqualFrom (seen : Std.HashMap Element Nat) (index : Nat) :
    List Element → List Nat
  | [] => []
  | element :: rest =>
    match seen[element]? with
    | some first => first :: firstEqualFrom seen (index + 1) rest
    | none => index :: firstEqualFrom (seen.insert element index) (index + 1) rest

/-- For each element the position of the first one equal to it. -/
def Element.firstEqual (elements : List Element) : List Nat := firstEqualFrom ∅ 0 elements

end LosslessSyntax
