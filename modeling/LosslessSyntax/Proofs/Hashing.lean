import LosslessSyntax.Proofs.EqualReads
import LosslessSyntax.Tree.Digest

/-!
# Hashing

Whatever compares equal feeds the same items into a hash. The comparison takes shortcuts and looks at pairs
of nodes in an order of its own, while a digest visits everything in the order of the walk; what connects
them is the structure that equal trees share (`Element.SameTree.flatMap_flatten`). The main statement is
`equal_hashes`. So a map whose keys are elements of a session finds what was stored under an equal key.
-/

namespace LosslessSyntax

/-- An element that a session has, or that stands below such elements, as the key of a map. The map hashes by
what `digest` makes of the items that are fed in. -/
structure Session.Key (session : Session) (digest : List Write → UInt64) where
  element : Element
  holds : session.Holds element

section Keys

variable {session : Session} {digest : List Write → UInt64}

instance : BEq (session.Key digest) := ⟨fun x y => x.element == y.element⟩

instance : Hashable (session.Key digest) := ⟨fun x => digest x.element.writes⟩

end Keys

namespace Element.SameTree

/-- Like nodes give the same items themselves: entries are filled at the same places. -/
theorem ownWrites_eq {a b : Node} (same : SameTree (.node a) (.node b)) : a.ownWrites = b.ownWrites := by
  have flags : (a.children.map fun entry => Write.flag entry.isSome) =
      b.children.map fun entry => Write.flag entry.isSome := by
    refine map_eq_of_forall₂ (same.children.imp ?_)
    intro x y entry
    cases entry with
    | none => rfl
    | some _ => rfl
  unfold Node.ownWrites
  rw [same.kind_eq, flags]

theorem leaf_writes_eq {a b : Leaf} (same : SameTree (.leaf a) (.leaf b)) : a.writes = b.writes :=
  congrArg Token.writes same.token_eq

/-- Like nodes give the same items with all below them. -/
theorem node_writes_eq {a b : Node} (same : SameTree (.node a) (.node b)) : a.writes = b.writes := by
  unfold Node.writes Node.preorder
  rw [preorder_eq, preorder_eq]
  refine flatMap_flatten ?_ same
  intro x y same
  refine same.recursion ?leaf ?node
  case leaf =>
    intro x y same
    exact same.leaf_writes_eq
  case node =>
    intro x y same _
    exact same.ownWrites_eq

theorem writes_eq {a b : Element} (same : SameTree a b) : a.writes = b.writes := by
  refine same.recursion ?leaf ?node
  case leaf =>
    intro a b same
    exact congrArg (Write.number 1 :: ·) same.leaf_writes_eq
  case node =>
    intro a b same _
    exact congrArg (Write.number 0 :: ·) same.node_writes_eq

end Element.SameTree

namespace Session.Reachable

variable {session : Session} (reachable : session.Reachable) {digest : List Write → UInt64}
include reachable

theorem key_beq_iff {x y : session.Key digest} : (x == y) = true ↔ x.element.Alike y.element :=
  Element.equal_iff reachable x.holds y.holds

/-- Comparing keys is an equivalence. -/
theorem equivBEq : EquivBEq (session.Key digest) where
  rfl {x} := (reachable.key_beq_iff).mpr (.refl x.element)
  symm equal := (reachable.key_beq_iff).mpr (reachable.key_beq_iff.mp equal).symm
  trans first second :=
    (reachable.key_beq_iff).mpr ((reachable.key_beq_iff.mp first).trans (reachable.key_beq_iff.mp second))

/-- Equal keys have one hash. -/
theorem lawfulHashable : LawfulHashable (session.Key digest) where
  hash_eq x y equal := congrArg digest (reachable.sameTree ⟨x.holds, y.holds, equal⟩).writes_eq

end Session.Reachable

/-- What compares equal feeds the same items into a hash: tokens, and the tokens, nodes and elements of a
session. So a map that hashes these items, in whatever way, finds the same under equal elements. -/
theorem equal_hashes {session : Session} (reachable : session.Reachable) :
    (∀ a b : Token, (a == b) = true → a.writes = b.writes) ∧
      (∀ a b : Leaf, session.Holds (.leaf a) → session.Holds (.leaf b) → (a == b) = true →
        a.writes = b.writes) ∧
      (∀ a b : Node, session.Holds (.node a) → session.Holds (.node b) → (a == b) = true →
        a.writes = b.writes) ∧
      (∀ a b : Element, session.Holds a → session.Holds b → (a == b) = true → a.writes = b.writes) ∧
      ∀ (β : Type) (digest : List Write → UInt64) (map : Std.HashMap (session.Key digest) β)
        (x y : session.Key digest), (x == y) = true → map[x]? = map[y]? := by
  refine ⟨?_, ?_, ?_, ?_, ?_⟩
  · intro a b equal
    rw [eq_of_beq equal]
  · intro a b left right equal
    exact (reachable.sameTree ⟨left, right, equal⟩).leaf_writes_eq
  · intro a b left right equal
    exact (reachable.sameTree ⟨left, right, equal⟩).node_writes_eq
  · intro a b left right equal
    exact (reachable.sameTree ⟨left, right, equal⟩).writes_eq
  · intro β digest map x y equal
    have : EquivBEq (session.Key digest) := reachable.equivBEq
    have : LawfulHashable (session.Key digest) := reachable.lawfulHashable
    exact Std.HashMap.getElem?_congr equal

/-- What is stored under the drafted node is found under the edited one. -/
theorem equal_hashes_edited :
    Sample.session.Reachable ∧ Sample.session.Equates (.node Sample.drafted) (.node Sample.root) ∧
      Sample.drafted.writes = Sample.root.writes ∧
      ((∅ : Std.HashMap (Sample.session.Key Write.digest) Nat).insert
        ⟨.node Sample.drafted, Sample.equates.left⟩ 1)[
          (⟨.node Sample.root, Sample.equates.right⟩ : Sample.session.Key Write.digest)]? = some 1 := by
  obtain ⟨_, _, nodes, _, maps⟩ := equal_hashes Sample.session_reachable
  have equates := Sample.equates
  refine ⟨Sample.session_reachable, equates, nodes _ _ equates.left equates.right equates.equal, ?_⟩
  have : EquivBEq (Sample.session.Key Write.digest) := Sample.session_reachable.equivBEq
  have : LawfulHashable (Sample.session.Key Write.digest) := Sample.session_reachable.lawfulHashable
  rw [← maps Nat Write.digest _ ⟨.node Sample.drafted, equates.left⟩ ⟨.node Sample.root, equates.right⟩
    equates.equal]
  exact Std.HashMap.getElem?_insert_self

end LosslessSyntax
