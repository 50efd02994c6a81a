import LosslessSyntax.Proofs.Reconstruction
import LosslessSyntax.Proofs.StructuralEquality

/-!
# Reads of equal trees

Trees of one structure cannot be told apart by reading them: they walk alike, print alike and have alike
children under all positions and names. Whatever compares equal in a session is of one structure
(`Session.Reachable.sameTree`). The main statement here is `Element.SameTree.sameReads`.
-/

namespace LosslessSyntax

/-- Handles that a session has, or that stand below such handles, and that compare equal. -/
structure Session.Equates (session : Session) (a b : Element) : Prop where
  left : session.Holds a
  right : session.Holds b
  equal : a.Equal b

/-- Whatever is read of the nodes is the same, or is equal, or is refused with the same violation. -/
structure Node.SameReads (a b : Node) : Prop where
  kind : a.kind = b.kind
  size : a.size = b.size
  textLen : a.textLen = b.textLen
  source : a.source = b.source
  preorder : List.Forall₂ Element.Equal a.preorder b.preorder
  childAt : ∀ index, Option.Rel Element.Equal (a.childAt? index) (b.childAt? index)
  child : ∀ name, Agree (Option.Rel Element.Equal) (a.child name) (b.child name)
  traitChild : ∀ t name, Option.Rel Element.Equal (a.traitChild? t name) (b.traitChild? t name)

/-- Elements of one structure that compare equal and read the same. -/
inductive Element.Interchangeable : Element → Element → Prop
  | leaf {a b : Leaf} (token : a.token = b.token) (equal : (a == b) = true) : Interchangeable (.leaf a) (.leaf b)
  | node {a b : Node} (alike : Alike (.node a) (.node b)) (equal : (a == b) = true) (reads : a.SameReads b) :
    Interchangeable (.node a) (.node b)

/-- Equal handles of a session are trees of one structure. -/
theorem Session.Reachable.sameTree {session : Session} (reachable : session.Reachable) {a b : Element}
    (equates : session.Equates a b) : a.SameTree b where
  alike := (Element.equal_iff reachable equates.left equates.right).mp equates.equal
  left := reachable.sound_of_holds equates.left
  right := reachable.sound_of_holds equates.right

/-- The drafted node and the edited one were allocated apart. -/
theorem Sample.equates : session.Equates (.node drafted) (.node root) where
  left := .of_mem (by simp [session])
  right := .of_mem (by simp [session])
  equal := Node.beq_of_children_eq rfl rfl rfl

namespace Element.SameTree

theorem sound_of_forall₂ {as bs : List Element} (same : List.Forall₂ SameTree as bs) :
    (∀ a ∈ as, a.Sound) ∧ ∀ b ∈ bs, b.Sound := by
  induction same with
  | nil => simp
  | cons first _ ih =>
    rw [List.forall_mem_cons, List.forall_mem_cons]
    exact ⟨⟨first.left, ih.1⟩, first.right, ih.2⟩

theorem childAt {a b : Node} (same : SameTree (.node a) (.node b)) (index : Nat) :
    Option.Rel SameTree (a.childAt? index) (b.childAt? index) := by
  obtain ⟨_, absent, child⟩ := Node.forall₂_children_iff.mp same.children
  exact rel_iff.mpr ⟨absent index, child index⟩

/-- What stands below like trees is alike, place by place. -/
theorem flatten {a b : Element} (same : SameTree a b) : List.Forall₂ SameTree a.flatten b.flatten := by
  refine same.recursion ?leaf ?node
  case leaf =>
    intro a b same
    exact .cons same .nil
  case node =>
    intro a b same entries
    rw [flatten_eq (.node a), flatten_eq (.node b)]
    exact .cons same (List.rel_flatMap (forall₂_present entries) fun _ _ below => below)

/-- What is gathered along the walks of like trees is the same, if like elements give the same. -/
theorem flatMap_flatten {α : Type} {f : Element → List α} (own : ∀ x y, SameTree x y → f x = f y)
    {a b : Element} (same : SameTree a b) : a.flatten.flatMap f = b.flatten.flatMap f := by
  rw [List.flatMap_def, List.flatMap_def, map_eq_of_forall₂ (same.flatten.imp own)]

theorem tokens_eq {a b : Element} (same : SameTree a b) : a.tokens = b.tokens := by
  unfold tokens
  rw [List.filterMap_eq_flatMap_toList, List.filterMap_eq_flatMap_toList, List.map_flatMap, List.map_flatMap]
  refine flatMap_flatten ?_ same
  intro x y same
  refine same.recursion ?leaf ?node
  case leaf =>
    intro a b same
    exact congrArg List.singleton same.token_eq
  case node =>
    intro a b _ _
    rfl

theorem child {a b : Node} (same : SameTree (.node a) (.node b)) (name : String) :
    Agree (Option.Rel Element.Equal) (a.child name) (b.child name) := by
  unfold Node.child Node.slotIndex
  rw [same.kind_eq]
  cases catalogue.slotIndex? b.kind name with
  | none => exact .error _
  | some index => exact .ok (rel_imp (fun _ _ => equal) _ _ (same.childAt index))

theorem traitChild {a b : Node} (same : SameTree (.node a) (.node b)) (t : Trait) (name : String) :
    Option.Rel Element.Equal (a.traitChild? t name) (b.traitChild? t name) := by
  unfold Node.traitChild?
  rw [same.kind_eq]
  cases catalogue.traitSlotIndex? t b.kind name with
  | none => exact .none
  | some index => exact rel_imp (fun _ _ => equal) _ _ (same.childAt index)

/-- Like nodes read the same. -/
theorem sameReads {a b : Node} (same : SameTree (.node a) (.node b)) : a.SameReads b where
  kind := same.kind_eq
  size := same.children.length_eq
  textLen := same.textLen_eq
  source := by
    show (Element.node a).source = (Element.node b).source
    rw [source_eq_join, source_eq_join, same.tokens_eq]
  preorder := by
    show List.Forall₂ Equal (Element.node a).preorder (Element.node b).preorder
    rw [preorder_eq, preorder_eq]
    exact same.flatten.imp fun _ _ => equal
  childAt index := rel_imp (fun _ _ => equal) _ _ (same.childAt index)
  child := same.child
  traitChild := same.traitChild

theorem interchangeable {a b : Element} (same : SameTree a b) : a.Interchangeable b := by
  refine same.recursion ?leaf ?node
  case leaf =>
    intro a b same
    exact .leaf same.token_eq same.equal
  case node =>
    intro a b same _
    exact .node same.alike same.equal same.sameReads

end Element.SameTree

end LosslessSyntax
