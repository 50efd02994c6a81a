import Mathlib.Algebra.GroupWithZero.Nat
import Mathlib.Data.List.InsertIdx
import LosslessSyntax.Proofs.Acceptance
import LosslessSyntax.Proofs.Session

/-!
# Validity

Every node of a session has the children that the catalogue asks for and keeps the right length,
though most calls check only what they change. The main statement is `reachable_sound`. What carries
it is that a call makes a sound node from sound handles: `Call.sound_of_run`.
-/

namespace LosslessSyntax

/-- A node as its kind wants it. Checking all of its children again would pass, which for a layout
means one entry for each slot, empty only in optional slots and else under the slot's constraint,
and for a collection nodes of its element kinds only; the kept length is the sum of its children's. -/
structure Node.Sound (n : Node) : Prop where
  valid : catalogue.validate n.kind (n.children.map Supplied.ofEntry) = .ok ()
  arity : ∀ slots, (catalogue.entry n.kind).shape = .layout slots → n.size = slots.length
  mandatory : ∀ slots i slot, (catalogue.entry n.kind).shape = .layout slots → slots[i]? = some slot →
    n.childAt? i = none → slot.isOptional
  admitted : ∀ slots i slot child, (catalogue.entry n.kind).shape = .layout slots →
    slots[i]? = some slot → n.childAt? i = some child → catalogue.fits slot child.supplied
  elements : ∀ kinds, (catalogue.entry n.kind).shape = .collection kinds →
    ∀ entry ∈ n.children, ∃ element, entry = some (.node element) ∧ element.kind ∈ kinds
  length : n.textLen = (n.elements.map Element.textLen).sum

/-- Every node in a tree is sound. -/
def Element.Sound (element : Element) : Prop :=
  ∀ n, .node n ∈ element.flatten → n.Sound

namespace Node

theorem totalLen_eq_sum (children : List (Option Element)) :
    totalLen children = ((Element.present children).map Element.textLen).sum := by
  unfold totalLen
  induction Element.present children with
  | nil => rfl
  | cons first rest ih => rw [Text.totalLen_cons, ih, List.map_cons, List.sum_cons]

theorem childAt?_eq_some_iff {n : Node} {index : Nat} {child : Element} :
    n.childAt? index = some child ↔ n.children[index]? = some (some child) := by
  simp [childAt?, Option.join_eq_some_iff]

theorem lt_size_of_childAt? {n : Node} {index : Nat} {child : Element}
    (found : n.childAt? index = some child) : index < n.size := by
  obtain ⟨inside, _⟩ := List.getElem?_eq_some_iff.mp (childAt?_eq_some_iff.mp found)
  exact inside

theorem mem_elements_of_childAt? {n : Node} {index : Nat} {child : Element}
    (found : n.childAt? index = some child) : child ∈ n.elements :=
  Element.mem_present.mpr (List.mem_of_getElem? (childAt?_eq_some_iff.mp found))

/-- Accepted children and the sum of their lengths make a node sound. -/
theorem sound_mk {serial : Nat} {kind : SyntaxKind} {children : List (Option Element)}
    (accepted : catalogue.Accepts kind (children.map Supplied.ofEntry)) :
    (Node.mk serial kind children (totalLen children)).Sound where
  valid := Schema.validate_ok_iff.mpr accepted
  arity slots shape := by
    simpa [size] using ((Schema.accepts_layout shape).mp accepted).1
  mandatory slots i slot shape slotAt absent := by
    obtain ⟨length, each⟩ := (Schema.accepts_layout shape).mp accepted
    obtain ⟨inside, _⟩ := List.getElem?_eq_some_iff.mp slotAt
    have entryAt : children[i]? = some none := by
      rw [List.length_map] at length
      have found := List.getElem?_eq_getElem (length.symm ▸ inside)
      simp only [childAt?, Node.children, found, Option.join_some] at absent
      rw [found, absent]
    exact each i slot .absent slotAt (by simp [entryAt, Supplied.ofEntry])
  admitted slots i slot child shape slotAt childAt := by
    have entryAt : children[i]? = some (some child) := childAt?_eq_some_iff.mp childAt
    exact ((Schema.accepts_layout shape).mp accepted).2 i slot _ slotAt (by simp [entryAt, Supplied.ofEntry])
  elements kinds shape entry member := by
    obtain ⟨kind, within, same⟩ :=
      (Schema.accepts_collection shape).mp accepted _ (List.mem_map_of_mem member)
    cases entry with
    | none => cases same
    | some element =>
      cases element with
      | leaf l => cases same
      | node element => cases same; exact ⟨element, rfl, within⟩
  length := totalLen_eq_sum children

theorem Sound.accepted {n : Node} (sound : n.Sound) :
    catalogue.Accepts n.kind (n.children.map Supplied.ofEntry) :=
  Schema.validate_ok_iff.mp sound.valid

end Node

namespace Element

theorem sound_leaf (l : Leaf) : (Element.leaf l).Sound := by
  intro n member
  rw [mem_flatten_iff] at member
  rcases member with impossible | ⟨child, within, _⟩
  · cases impossible
  · cases within

theorem sound_node {n : Node} (own : n.Sound) (below : ∀ child ∈ n.elements, child.Sound) :
    (Element.node n).Sound := by
  intro m member
  rcases mem_flatten_iff.mp member with same | ⟨child, within, under⟩
  · cases same; exact own
  · exact below child within m under

theorem Sound.child {element child : Element} (sound : element.Sound) (member : child ∈ element.elements) :
    child.Sound :=
  fun n below => sound n (mem_flatten_trans (mem_flatten_of_mem_elements member) below)

theorem Sound.node {n : Node} (sound : (Element.node n).Sound) : n.Sound :=
  sound n (mem_flatten_self _)

theorem sound_filler {slot : Slot} {kind : SyntaxKind} {first last : Nat} {element : Element}
    (member : slot ∈ catalogue.slots kind) (filler : Draft.Filler slot first last element) :
    element.Sound := by
  obtain ⟨kind, id, default, _, _, rfl⟩ := filler
  have accepted : catalogue.Accepts kind (([] : List (Option Element)).map Supplied.ofEntry) :=
    Schema.accepts_nil (catalogue_default_isCollection member default)
  exact sound_node (Node.sound_mk accepted) (fun _ impossible => by cases impossible)

end Element

/-- A call that succeeds on sound nodes makes a node whose children are accepted. Only a new node is
checked as a whole; an edited one is accepted because the old one was. -/
theorem Call.accepts_of_run {call : Call} {serial next : Nat} {n : Node}
    (sound : ∀ argument ∈ call.arguments, argument.Sound) (ran : call.run serial = .ok (n, next)) :
    catalogue.Accepts n.kind (n.children.map Supplied.ofEntry) := by
  cases call with
  | ofChildren kind children =>
    obtain ⟨valid, rfl, _⟩ := Node.ofChildren_ok_iff.mp (mapError_ok_iff.mp ran)
    exact Schema.validate_ok_iff.mp valid
  | ofElements kind elements =>
    obtain ⟨valid, rfl, _⟩ := Node.ofChildren_ok_iff.mp (mapError_ok_iff.mp ran)
    exact Schema.validate_ok_iff.mp valid
  | ofDraft kind values =>
    obtain ⟨_, filled, middle, _, built⟩ := Draft.finish_ok_iff.mp (mapError_ok_iff.mp ran)
    obtain ⟨valid, rfl, _⟩ := Node.ofChildren_ok_iff.mp built
    exact Schema.validate_ok_iff.mp valid
  | withChild m name value =>
    obtain ⟨index, _, edited⟩ := Node.withChild_ok_iff.mp (mapError_ok_iff.mp ran)
    obtain ⟨valid, rfl, _⟩ := Node.withChildAt_ok_iff.mp edited
    have old := (sound (.node m) List.mem_cons_self).node.accepted
    simpa [List.map_set] using old.set valid
  | withChildAt m index value =>
    obtain ⟨valid, rfl, _⟩ := Node.withChildAt_ok_iff.mp (mapError_ok_iff.mp ran)
    have old := (sound (.node m) List.mem_cons_self).node.accepted
    simpa [List.map_set] using old.set valid
  | withAppended m element =>
    obtain ⟨valid, rfl, _⟩ := Node.withAppended_ok_iff.mp (mapError_ok_iff.mp ran)
    have old := (sound (.node m) List.mem_cons_self).node.accepted
    simpa [Supplied.ofEntry] using old.append valid
  | withRemoved m index =>
    obtain ⟨_, collection, rfl, _⟩ := Node.withRemoved_ok_iff.mp (mapError_ok_iff.mp ran)
    have old := (sound (.node m) List.mem_cons_self).node.accepted
    simpa [List.eraseIdx_map] using old.eraseIdx collection index
  | withElements m elements =>
    obtain ⟨valid, rfl, _⟩ := Node.ofChildren_ok_iff.mp (mapError_ok_iff.mp ran)
    exact Schema.validate_ok_iff.mp valid

/-- A call that succeeds on sound handles makes a sound one. -/
theorem Call.sound_of_run {call : Call} {serial next : Nat} {n : Node}
    (sound : ∀ argument ∈ call.arguments, argument.Sound) (ran : call.run serial = .ok (n, next)) :
    (Element.node n).Sound := by
  have made := made_of_run ran
  refine Element.sound_node ?_ fun child member => ?_
  · rw [made.shape]
    exact Node.sound_mk (accepts_of_run sound ran)
  · rcases made.origin child member with given | ⟨argument, given, below⟩ | ⟨slot, slotMember, filler⟩
    · exact sound child given
    · exact (sound argument given).child below
    · exact Element.sound_filler slotMember filler

theorem Session.Reachable.sound {session : Session} (reachable : session.Reachable) :
    ∀ element ∈ session.held, element.Sound := by
  refine reachable.invariant (P := fun session => ∀ element ∈ session.held, element.Sound) ?_ ?_
  · intro next element member
    cases member
  · intro before after sound step element member
    cases step with
    | token token l next made =>
      rcases List.mem_cons.mp member with rfl | old
      · exact Element.sound_leaf _
      · exact sound element old
    | call call n next held made =>
      rcases List.mem_cons.mp member with rfl | old
      · exact Call.sound_of_run (fun argument given => sound argument (held argument given)) made
      · exact sound element old
    | child parent child held within =>
      rcases List.mem_cons.mp member with rfl | old
      · exact (sound parent held).child within
      · exact sound element old

theorem Node.Reachable.sound {n : Node} (reachable : n.Reachable) : (Element.node n).Sound := by
  obtain ⟨session, run, held⟩ := reachable
  exact run.sound (.node n) held

/-- In every run, each node that was made and each node below it is sound. -/
theorem reachable_sound {n below : Node} (reachable : n.Reachable) (within : .node below ∈ n.preorder) :
    below.Sound := by
  rw [Node.preorder, Element.preorder_eq] at within
  exact reachable.sound below within

/-- The attributes that a draft filled in are sound. -/
theorem reachable_sound_attributes :
    Sample.root.Reachable ∧ .node Sample.attributes ∈ Sample.root.preorder ∧ Sample.attributes.Sound := by
  have within : .node Sample.attributes ∈ Sample.root.preorder := by
    rw [Node.preorder, Element.preorder_eq]
    exact Element.mem_flatten_of_mem_elements (by simp [Element.elements, Node.elements, Sample.root])
  exact ⟨Sample.root_reachable, within, reachable_sound Sample.root_reachable within⟩

end LosslessSyntax
