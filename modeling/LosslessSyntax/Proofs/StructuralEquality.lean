import Mathlib.Data.List.Forall2
import LosslessSyntax.Tree.Equality
import LosslessSyntax.Proofs.Allocation
import LosslessSyntax.Proofs.Validity

/-!
# Structural equality

Two trees are alike when they have the same kinds, tokens and empty entries at the same places. The main
statement, `equal_iff_alike`, says that the comparison of two trees of one session, which ends for all
pairs, tells whether they are alike. What it leaves out does not matter there: one allocation has one
content (`Session.Reachable.allocated`), and kept lengths follow from the structure
(`Element.SameTree.textLen_eq`).
-/

namespace LosslessSyntax

/-- Like elements are tokens with equal parts, or nodes of one kind and size whose entries are both
absent or alike again. -/
inductive Element.Alike : Element → Element → Prop
  | leaf {a b : Leaf} (kind : a.token.kind = b.token.kind) (presence : a.token.presence = b.token.presence)
    (leading : a.token.leading.toList = b.token.leading.toList)
    (trailing : a.token.trailing.toList = b.token.trailing.toList) : Alike (.leaf a) (.leaf b)
  | node {a b : Node} (kind : a.kind = b.kind) (size : a.size = b.size)
    (absent : ∀ i, a.childAt? i = none ↔ b.childAt? i = none)
    (child : ∀ i x y, a.childAt? i = some x → b.childAt? i = some y → Alike x y) : Alike (.node a) (.node b)

theorem Token.eq_of_parts {a b : Token} (kind : a.kind = b.kind) (presence : a.presence = b.presence)
    (leading : a.leading.toList = b.leading.toList) (trailing : a.trailing.toList = b.trailing.toList) :
    a = b := by
  have before := Trivia.ext_toList leading
  have after := Trivia.ext_toList trailing
  cases a with
  | present kindA leadingA trailingA =>
    cases b with
    | present kindB leadingB trailingB => cases kind; cases before; cases after; rfl
    | missing kindB => cases presence
  | missing kindA =>
    cases b with
    | present kindB leadingB trailingB => cases presence
    | missing kindB => cases kind; rfl

/-- The comparison of leaves compares their tokens, if one allocation has one token. -/
theorem Leaf.equal_iff {a b : Leaf} (shared : a.sameHandle b → a = b) : a.equal b = true ↔ a.token = b.token := by
  unfold equal
  rw [Bool.or_eq_true, decide_eq_true_iff]
  constructor
  · rintro (same | same)
    · rw [shared same]
    · exact same
  · exact .inr

theorem Element.alike_leaf_iff {a b : Leaf} : Alike (.leaf a) (.leaf b) ↔ a.token = b.token := by
  constructor
  · intro alike
    cases alike with
    | leaf kind presence leading trailing => exact Token.eq_of_parts kind presence leading trailing
  · intro same
    exact .leaf (by rw [same]) (by rw [same]) (by rw [same]) (by rw [same])

theorem rel_iff {R : Element → Element → Prop} {a b : Option Element} :
    Option.Rel R a b ↔ (a = none ↔ b = none) ∧ ∀ x y, a = some x → b = some y → R x y := by
  constructor
  · intro related
    cases related with
    | some related => exact ⟨by simp, fun x y left right => by cases left; cases right; exact related⟩
    | none => exact ⟨Iff.rfl, fun x y left => by cases left⟩
  · rintro ⟨absent, each⟩
    cases a with
    | none => rw [absent.mp rfl]; exact .none
    | some x =>
      cases b with
      | none => cases absent.mpr rfl
      | some y => exact .some (each x y rfl rfl)

theorem map_eq_of_forall₂ {α γ : Type} {f : α → γ} {as bs : List α}
    (same : List.Forall₂ (fun a b => f a = f b) as bs) : as.map f = bs.map f := by
  rw [← List.forall₂_eq_eq_eq, List.forall₂_map_left_iff, List.forall₂_map_right_iff]
  exact same

theorem rel_refl {R : Element → Element → Prop} (refl : ∀ element, R element element) (entry : Option Element) :
    Option.Rel R entry entry := by
  cases entry with
  | none => exact .none
  | some element => exact .some (refl element)

theorem rel_imp {R S : Element → Element → Prop} (weaken : ∀ x y, R x y → S x y) (a b : Option Element)
    (related : Option.Rel R a b) : Option.Rel S a b := by
  cases related with
  | none => exact .none
  | some related => exact .some (weaken _ _ related)

namespace Node

theorem childAt?_of_lt {n : Node} {index : Nat} (inside : index < n.children.length) :
    n.childAt? index = n.children.get ⟨index, inside⟩ := by
  simp [childAt?, List.getElem?_eq_getElem inside]

theorem childAt?_of_le {n : Node} {index : Nat} (outside : n.children.length ≤ index) :
    n.childAt? index = none := by
  simp [childAt?, List.getElem?_eq_none outside]

/-- Children are related one by one, whether by position or along the entries. -/
theorem forall₂_children_iff {R : Element → Element → Prop} {a b : Node} :
    List.Forall₂ (Option.Rel R) a.children b.children ↔
      a.size = b.size ∧ (∀ i, a.childAt? i = none ↔ b.childAt? i = none) ∧
        ∀ i x y, a.childAt? i = some x → b.childAt? i = some y → R x y := by
  have atEach : (∀ i (left : i < a.children.length) (right : i < b.children.length),
      Option.Rel R (a.children.get ⟨i, left⟩) (b.children.get ⟨i, right⟩)) ↔
      ∀ i, i < a.children.length → i < b.children.length → Option.Rel R (a.childAt? i) (b.childAt? i) := by
    constructor
    · intro each i left right
      rw [childAt?_of_lt left, childAt?_of_lt right]
      exact each i left right
    · intro each i left right
      rw [← childAt?_of_lt left, ← childAt?_of_lt right]
      exact each i left right
  rw [List.forall₂_iff_get, atEach]
  constructor
  · rintro ⟨size, each⟩
    have everywhere : ∀ i, Option.Rel R (a.childAt? i) (b.childAt? i) := by
      intro i
      by_cases inside : i < a.children.length
      · exact each i inside (size ▸ inside)
      · rw [childAt?_of_le (by omega), childAt?_of_le (by omega)]
        exact .none
    exact ⟨size, fun i => (rel_iff.mp (everywhere i)).1, fun i => (rel_iff.mp (everywhere i)).2⟩
  · rintro ⟨size, absent, related⟩
    exact ⟨size, fun i _ _ => rel_iff.mpr ⟨absent i, related i⟩⟩

end Node

namespace Element

theorem alike_node_iff {a b : Node} :
    Alike (.node a) (.node b) ↔ a.kind = b.kind ∧ List.Forall₂ (Option.Rel Alike) a.children b.children := by
  rw [Node.forall₂_children_iff]
  constructor
  · intro alike
    cases alike with
    | node kind size absent child => exact ⟨kind, size, absent, child⟩
  · rintro ⟨kind, size, absent, child⟩
    exact .node kind size absent child

theorem Alike.supplied_eq {a b : Element} (alike : Alike a b) : a.supplied = b.supplied := by
  cases alike with
  | leaf kind => exact congrArg Supplied.token kind
  | node kind => exact congrArg Supplied.node kind

theorem ofEntry_eq_of_alike {a b : Option Element} (alike : Option.Rel Alike a b) :
    Supplied.ofEntry a = Supplied.ofEntry b := by
  cases alike with
  | none => rfl
  | some alike => exact alike.supplied_eq

theorem Alike.refl (element : Element) : Alike element element := by
  induction element using children_induction with
  | step element ih =>
    cases element with
    | leaf l => exact .leaf rfl rfl rfl rfl
    | node n =>
      refine .node rfl rfl (fun i => Iff.rfl) (fun i x y left right => ?_)
      cases left.symm.trans right
      exact ih x (Node.mem_elements_of_childAt? left)

theorem Alike.symm {a b : Element} (alike : Alike a b) : Alike b a := by
  induction alike with
  | leaf kind presence leading trailing => exact .leaf kind.symm presence.symm leading.symm trailing.symm
  | node kind size absent _ ih =>
    exact .node kind.symm size.symm (fun i => (absent i).symm) (fun i x y left right => ih i y x right left)

theorem Alike.trans {a b c : Element} (first : Alike a b) (second : Alike b c) : Alike a c := by
  induction first generalizing c with
  | leaf kind presence leading trailing =>
    cases second with
    | leaf kind' presence' leading' trailing' =>
      exact .leaf (kind.trans kind') (presence.trans presence') (leading.trans leading')
        (trailing.trans trailing')
  | node kind size absent _ ih =>
    cases second with
    | @node _ c kind' size' absent' child' =>
      refine .node (kind.trans kind') (size.trans size') (fun i => (absent i).trans (absent' i)) ?_
      intro i x z left right
      rename_i a b _
      cases middle : b.childAt? i with
      | none => rw [(absent i).mpr middle] at left; cases left
      | some y => exact ih i x y left middle (child' i y z middle right)

theorem forall₂_toList {R : Element → Element → Prop} {a b : Option Element} (related : Option.Rel R a b) :
    List.Forall₂ R a.toList b.toList := by
  cases related with
  | some related => exact .cons related .nil
  | none => exact .nil

/-- Related entries hold related elements. -/
theorem forall₂_present {R : Element → Element → Prop} {as bs : List (Option Element)}
    (related : List.Forall₂ (Option.Rel R) as bs) : List.Forall₂ R (present as) (present bs) :=
  List.rel_flatMap related fun _ _ entry => forall₂_toList entry

/-- A schema sees the same of entries whose elements show the same. -/
theorem map_ofEntry_eq {first second : List (Option Element)}
    (same : List.Forall₂ (Option.Rel fun x y => x.supplied = y.supplied) first second) :
    first.map Supplied.ofEntry = second.map Supplied.ofEntry := by
  refine map_eq_of_forall₂ (same.imp ?_)
  intro a b entry
  cases entry with
  | none => rfl
  | some same => exact same

theorem map_textLen_present {as bs : List (Option Element)}
    (related : List.Forall₂ (Option.Rel fun x y => x.textLen = y.textLen) as bs) :
    (present as).map textLen = (present bs).map textLen :=
  map_eq_of_forall₂ (forall₂_present related)

end Element

/-- Sound trees of one structure, however their parts were allocated. -/
structure Element.SameTree (a b : Element) : Prop where
  alike : a.Alike b
  left : a.Sound
  right : b.Sound

namespace Element.SameTree

theorem token_eq {a b : Leaf} (same : SameTree (.leaf a) (.leaf b)) : a.token = b.token :=
  alike_leaf_iff.mp same.alike

theorem kind_eq {a b : Node} (same : SameTree (.node a) (.node b)) : a.kind = b.kind :=
  (alike_node_iff.mp same.alike).1

/-- The children of like nodes are like trees again. -/
theorem children {a b : Node} (same : SameTree (.node a) (.node b)) :
    List.Forall₂ (Option.Rel SameTree) a.children b.children := by
  obtain ⟨size, absent, child⟩ := Node.forall₂_children_iff.mp (alike_node_iff.mp same.alike).2
  refine Node.forall₂_children_iff.mpr ⟨size, absent, ?_⟩
  intro i x y leftAt rightAt
  exact ⟨child i x y leftAt rightAt, same.left.child (Node.mem_elements_of_childAt? leftAt),
    same.right.child (Node.mem_elements_of_childAt? rightAt)⟩

/-- What holds of like tokens, and of like nodes as soon as it holds of their children, holds of all like
trees. -/
@[elab_as_elim]
theorem recursion {motive : Element → Element → Prop}
    (leaf : ∀ a b : Leaf, SameTree (.leaf a) (.leaf b) → motive (.leaf a) (.leaf b))
    (node : ∀ a b : Node, SameTree (.node a) (.node b) →
      List.Forall₂ (Option.Rel motive) a.children b.children → motive (.node a) (.node b))
    {a b : Element} (same : SameTree a b) : motive a b := by
  induction a using children_induction generalizing b with
  | step a ih =>
    cases a with
    | leaf a =>
      cases b with
      | leaf b => exact leaf a b same
      | node b => cases same.alike
    | node a =>
      cases b with
      | leaf b => cases same.alike
      | node b =>
        obtain ⟨size, absent, child⟩ := Node.forall₂_children_iff.mp same.children
        refine node a b same (Node.forall₂_children_iff.mpr ⟨size, absent, ?_⟩)
        intro i x y leftAt rightAt
        exact ih x (Node.mem_elements_of_childAt? leftAt) (child i x y leftAt rightAt)

/-- The kept length of a sound tree is a matter of its structure. -/
theorem textLen_eq {a b : Element} (same : SameTree a b) : a.textLen = b.textLen := by
  refine same.recursion ?leaf ?node
  case leaf =>
    intro a b same
    exact congrArg Token.textLen same.token_eq
  case node =>
    intro a b same entries
    show a.textLen = b.textLen
    rw [same.left.node.length, same.right.node.length]
    exact congrArg List.sum (map_textLen_present entries)

end Element.SameTree

/-! ## The comparison without its list -/

/-- Elements that the comparison takes for equal. -/
def Element.Equal (a b : Element) : Prop := (a == b) = true

namespace Node

/-- The pairs found are put in front of whatever is pending. -/
theorem pairUp_append (pending rest : List (Node × Node)) (as bs : List (Option Element)) :
    pairUp (pending ++ rest) as bs = (pairUp pending as bs).map (· ++ rest) := by
  fun_induction pairUp pending as bs with
  | case1 pending as bs ih => rw [pairUp, ih]
  | case2 pending a as b bs ih => rw [pairUp, ← List.cons_append, ih]
  | case3 pending a as b bs equal ih => rw [pairUp, if_pos equal, ih]
  | case4 pending a as b bs differ => rw [pairUp, if_neg differ]; rfl
  | case5 pending a as b bs bothAbsent bothNodes bothLeaves =>
    rw [pairUp]
    · rfl
    · exact bothAbsent
    · exact bothNodes
    · exact bothLeaves
  | case6 pending bs => rw [pairUp]; rfl
  | case7 as pending ne =>
    cases as with
    | nil => exact absurd rfl ne
    | cons a as => simp [pairUp]

/-- The order in which pairs are compared does not matter: each counts by itself. -/
theorem equalPairs_append (front rest : List (Node × Node)) :
    equalPairs (front ++ rest) = (equalPairs front && equalPairs rest) := by
  fun_induction equalPairs front with
  | case1 => simp
  | case2 a b front same ih => rw [List.cons_append, equalPairs, if_pos same, ih]
  | case3 a b front apart differ => rw [List.cons_append, equalPairs, if_neg apart, if_pos differ]; rfl
  | case4 a b front apart agree ran =>
    rw [List.cons_append, equalPairs, if_neg apart, if_neg agree, pairUp_append, ran]
    rfl
  | case5 a b front apart agree found ran ih =>
    rw [List.cons_append, equalPairs, if_neg apart, if_neg agree, pairUp_append, ran]
    exact ih

theorem equalPairs_cons (a b : Node) (rest : List (Node × Node)) :
    equalPairs ((a, b) :: rest) = ((a == b) && equalPairs rest) :=
  equalPairs_append [(a, b)] rest

/-- Pairing up two lists of entries and comparing what was found comes to comparing entry by entry. -/
theorem exists_equal_pairUp_iff {pending : List (Node × Node)} {as bs : List (Option Element)}
    (length : as.length = bs.length) :
    (∃ found, pairUp pending as bs = some found ∧ equalPairs found = true) ↔
      equalPairs pending = true ∧ List.Forall₂ (Option.Rel Element.Equal) as bs := by
  fun_induction pairUp pending as bs with
  | case1 pending as bs ih =>
    rw [ih (Nat.succ.inj length), List.forall₂_cons]
    simp
  | case2 pending a as b bs ih =>
    rw [ih (Nat.succ.inj length), List.forall₂_cons, Option.rel_some_some, equalPairs_cons, Bool.and_eq_true]
    show (_ ∧ _) ∧ _ ↔ _ ∧ (a == b) = true ∧ _
    tauto
  | case3 pending a as b bs equal ih =>
    have same : Element.Equal (.leaf a) (.leaf b) := equal
    rw [ih (Nat.succ.inj length), List.forall₂_cons, Option.rel_some_some]
    simp [same]
  | case4 pending a as b bs differ =>
    have other : ¬ Element.Equal (.leaf a) (.leaf b) := differ
    rw [List.forall₂_cons, Option.rel_some_some]
    simp [other]
  | case5 pending a as b bs bothAbsent bothNodes bothLeaves =>
    have unlike : ¬ Option.Rel Element.Equal a b := by
      intro related
      cases related with
      | none => exact bothAbsent rfl rfl
      | @some x y equal =>
        cases x with
        | node x =>
          cases y with
          | node y => exact bothNodes _ _ rfl rfl
          | leaf y => cases equal
        | leaf x =>
          cases y with
          | node y => cases equal
          | leaf y => exact bothLeaves _ _ rfl rfl
    simp [List.forall₂_cons, unlike]
  | case6 pending bs =>
    cases List.length_eq_zero_iff.mp length.symm
    simp
  | case7 as pending _ =>
    cases List.length_eq_zero_iff.mp length
    simp

/-- The comparison said without the list of pairs: two nodes are equal if they are one allocation, or
else if their kinds, kept lengths and entries agree. -/
theorem beq_iff_entries {a b : Node} :
    (a == b) = true ↔ a.sameHandle b = true ∨ a.kind = b.kind ∧ a.textLen = b.textLen ∧
      List.Forall₂ (Option.Rel Element.Equal) a.children b.children := by
  change equalPairs [(a, b)] = true ↔ _
  rw [equalPairs]
  by_cases same : a.sameHandle b = true
  · simp [same, equalPairs]
  · rw [if_neg same]
    by_cases differ : a.kind ≠ b.kind ∨ a.textLen ≠ b.textLen ∨ a.size ≠ b.size
    · rw [if_pos differ]
      refine iff_of_false Bool.false_ne_true ?_
      rintro (handle | ⟨kind, length, entries⟩)
      · exact same handle
      · rcases differ with other | other | other
        · exact other kind
        · exact other length
        · exact other entries.length_eq
    · rw [if_neg differ]
      simp only [not_or, not_not] at differ
      obtain ⟨kind, length, size⟩ := differ
      have entries : (∃ found, pairUp [] a.children b.children = some found ∧ equalPairs found = true) ↔
          equalPairs [] = true ∧ List.Forall₂ (Option.Rel Element.Equal) a.children b.children :=
        exists_equal_pairUp_iff size
      cases ran : pairUp [] a.children b.children with
      | none => simp_all [equalPairs]
      | some found => simp_all [equalPairs]

end Node

theorem Element.equal_self (element : Element) : element.Equal element := by
  cases element with
  | node n => exact Node.beq_iff_entries.mpr (.inl (by simp [Node.sameHandle]))
  | leaf l =>
    show l.equal l = true
    simp [Leaf.equal]

namespace Node

/-- Nodes over the same handles compare equal, in whatever sessions they were made. -/
theorem beq_of_children_eq {a b : Node} (kind : a.kind = b.kind) (length : a.textLen = b.textLen)
    (children : a.children = b.children) : (a == b) = true := by
  refine beq_iff_entries.mpr (.inr ⟨kind, length, ?_⟩)
  rw [children, List.forall₂_same]
  intro entry _
  exact rel_refl Element.equal_self entry

end Node

/-- Like elements of sound trees compare equal, however their parts were allocated. -/
theorem Element.SameTree.equal {a b : Element} (same : SameTree a b) : a.Equal b := by
  refine same.recursion ?leaf ?node
  case leaf =>
    intro a b same
    show a.equal b = true
    simp [Leaf.equal, same.token_eq]
  case node =>
    intro a b same entries
    exact Node.beq_iff_entries.mpr (.inr ⟨same.kind_eq, same.textLen_eq, entries⟩)

/-! ## The whole comparison -/

section Comparison

variable {session : Session} (reachable : session.Reachable)
include reachable

theorem Session.Reachable.sound_of_holds {element : Element} (holds : session.Holds element) :
    element.Sound := by
  obtain ⟨outer, held, below⟩ := holds
  intro n within
  exact reachable.sound outer held n (Element.mem_flatten_trans below within)

/-- Handles of one allocation have one content. -/
theorem Session.Reachable.eq_of_sameHandle {a b : Element} (left : session.Holds a)
    (right : session.Holds b) (same : a.sameHandle b) : a = b :=
  reachable.allocated.unique a b left right (Element.serial_eq_of_sameHandle same)

theorem Session.Reachable.node_eq {a b : Node} (left : session.Holds (.node a))
    (right : session.Holds (.node b)) (same : a.sameHandle b) : a = b :=
  Element.node.inj (reachable.eq_of_sameHandle left right same)

/-- Of what a session has, or what stands below that, the like elements compare equal and no others. -/
theorem Element.equal_iff {a b : Element} (left : session.Holds a) (right : session.Holds b) :
    a.Equal b ↔ Alike a b := by
  refine ⟨fun equal => ?_, fun alike => ?_⟩
  · induction a using children_induction generalizing b with
    | step a ih =>
      cases a with
      | leaf a =>
        cases b with
        | node b => cases equal
        | leaf b =>
          have shared : a.sameHandle b → a = b := by
            intro same
            exact Element.leaf.inj (reachable.eq_of_sameHandle left right same)
          exact alike_leaf_iff.mpr ((Leaf.equal_iff shared).mp equal)
      | node a =>
        cases b with
        | leaf b => cases equal
        | node b =>
          rcases Node.beq_iff_entries.mp equal with same | ⟨kind, _, entries⟩
          · rw [reachable.node_eq left right same]
            exact .refl _
          · obtain ⟨size, absent, related⟩ := Node.forall₂_children_iff.mp entries
            refine .node kind size absent ?_
            intro i x y leftAt rightAt
            have leftChild := Node.mem_elements_of_childAt? leftAt
            have rightChild := Node.mem_elements_of_childAt? rightAt
            exact ih x leftChild (left.child leftChild) (right.child rightChild) (related i x y leftAt rightAt)
  · have same : a.SameTree b := ⟨alike, reachable.sound_of_holds left, reachable.sound_of_holds right⟩
    exact same.equal

theorem Node.beq_iff {a b : Node} (left : session.Holds (.node a)) (right : session.Holds (.node b)) :
    (a == b) = true ↔ Element.Alike (.node a) (.node b) :=
  Element.equal_iff reachable left right

end Comparison

/-- Nodes that a session has, or that stand below such nodes, compare equal exactly when they are alike.
Two handles of one allocation are alike, and like nodes keep the same length, so neither the early
success nor the early failure of the comparison tells more; and comparing equal is an equivalence. -/
theorem equal_iff_alike {session : Session} (reachable : session.Reachable) :
    (∀ a b : Node, session.Holds (.node a) → session.Holds (.node b) →
      ((a == b) = true ↔ Element.Alike (.node a) (.node b)) ∧
        (a.sameHandle b → Element.Alike (.node a) (.node b)) ∧
        (Element.Alike (.node a) (.node b) → a.textLen = b.textLen)) ∧
      Equivalence fun a b : { n : Node // session.Holds (.node n) } => (a.val == b.val) = true := by
  constructor
  · intro a b left right
    refine ⟨Node.beq_iff reachable left right, fun same => ?_, fun alike => ?_⟩
    · rw [reachable.node_eq left right same]
      exact .refl _
    · have same : Element.SameTree (.node a) (.node b) :=
        ⟨alike, reachable.sound_of_holds left, reachable.sound_of_holds right⟩
      exact same.textLen_eq
  · constructor
    · rintro ⟨a, left⟩
      exact (Node.beq_iff reachable left left).mpr (.refl _)
    · rintro ⟨a, left⟩ ⟨b, right⟩ equal
      exact (Node.beq_iff reachable right left).mpr ((Node.beq_iff reachable left right).mp equal).symm
    · rintro ⟨a, left⟩ ⟨b, middle⟩ ⟨c, right⟩ first second
      have alike := (Node.beq_iff reachable left middle).mp first
      exact (Node.beq_iff reachable left right).mpr (alike.trans ((Node.beq_iff reachable middle right).mp second))

/-- The drafted node and the edited one share their children, and are alike though allocated apart. -/
theorem equal_iff_alike_edited :
    Sample.session.Reachable ∧ Sample.session.Holds (.node Sample.drafted) ∧
      Sample.session.Holds (.node Sample.root) ∧ Sample.drafted.sameHandle Sample.root = false ∧
      (Sample.drafted == Sample.root) = true ∧ Element.Alike (.node Sample.drafted) (.node Sample.root) := by
  have drafted : Sample.session.Holds (.node Sample.drafted) := .of_mem (by simp [Sample.session])
  have root : Sample.session.Holds (.node Sample.root) := .of_mem (by simp [Sample.session])
  have equal : (Sample.drafted == Sample.root) = true := by
    change Node.equalPairs [(Sample.drafted, Sample.root)] = true
    cbv
  have alike := (equal_iff_alike Sample.session_reachable).1 _ _ drafted root
  exact ⟨Sample.session_reachable, drafted, root, rfl, equal, alike.1.mp equal⟩

/-- Both fail for one reason, or both succeed with related results. -/
inductive Agree {ε α : Type} (R : α → α → Prop) : Except ε α → Except ε α → Prop
  | error (reason : ε) : Agree R (.error reason) (.error reason)
  | ok {a b : α} (related : R a b) : Agree R (.ok a) (.ok b)

namespace Agree

variable {ε α : Type} {R S : α → α → Prop}

theorem imp {first second : Except ε α} (agree : Agree R first second)
    (weaken : ∀ a b, first = .ok a → second = .ok b → R a b → S a b) : Agree S first second := by
  cases agree with
  | error reason => exact .error reason
  | ok related => exact .ok (weaken _ _ rfl rfl related)

/-- What is made after the same check agrees if the results do. -/
theorem of_check {check check' : Except ε Unit} (same : check = check') {a b : α} (related : R a b) :
    Agree R (check.map fun _ => a) (check'.map fun _ => b) := by
  subst same
  cases check with
  | error reason => exact .error reason
  | ok _ => exact .ok related

theorem mapError {ε' : Type} {first second : Except ε α} (agree : Agree R first second) (f : ε → ε') :
    Agree R (first.mapError f) (second.mapError f) := by
  cases agree with
  | error reason => exact .error (f reason)
  | ok related => exact .ok related

theorem map {β : Type} {T : β → β → Prop} {first second : Except ε α} (agree : Agree R first second)
    {f : α → β} (related : ∀ a b, R a b → T (f a) (f b)) : Agree T (first.map f) (second.map f) := by
  cases agree with
  | error reason => exact .error reason
  | ok own => exact .ok (related _ _ own)

end Agree

end LosslessSyntax
