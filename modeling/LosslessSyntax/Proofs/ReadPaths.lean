import Mathlib.Data.List.Forall2
import LosslessSyntax.Tree.View
import LosslessSyntax.Proofs.TraitPromises
import LosslessSyntax.Proofs.Validity

/-!
# Ways to a child

A child of a layout is reached by its position, by the current or the former name of its slot, through a
trait, and by an accessor of the view of its kind. The main statement is `reads_agree`: all of these lead to
the same handle, and no accessor of a view fails. Names lead to one slot because those of the catalogue are
distinct; accessors do not fail because nodes are sound and the table of views matches the catalogue
(`views_match`).
-/

namespace LosslessSyntax

/-- What can stand under a constraint. -/
def AccessorSort.ofConstraint : Constraint → AccessorSort
  | .anyToken | .tokens _ => .token
  | .node _ => .node
  | .collection _ _ _ _ => .list

/-- The elements of a sort. -/
inductive AccessorSort.Covers : AccessorSort → Element → Prop
  | token (l : Leaf) : Covers .token (.leaf l)
  | node (n : Node) : Covers .node (.node n)
  | list (n : Node) (collection : catalogue.isCollection n.kind) : Covers .list (.node n)

/-- The accessor goes by the name of the slot and is right about what stands there. -/
def Accessor.Matches (accessor : Accessor) (slot : Slot) : Prop :=
  accessor.slot = slot.name ∧ accessor.isOptional = slot.isOptional ∧
    accessor.sort = .ofConstraint slot.constraint

instance : DecidableRel Accessor.Matches := fun _ _ => inferInstanceAs (Decidable (_ ∧ _ ∧ _))

/-- All names of a slot lead to what stands at its position, also where a trait asks for the slot. Only an
optional slot is empty. -/
structure Node.ReadsSlot (n : Node) (index : Nat) (slot : Slot) : Prop where
  current : n.child slot.name = .ok (n.childAt? index)
  former : ∀ name, slot.formerName = some name → n.child name = .ok (n.childAt? index)
  traits : ∀ t, n.hasTrait t → (∃ wanted ∈ t.slots, wanted.name = slot.name) →
    n.traitChild? t slot.name = n.childAt? index
  optional : n.childAt? index = none → slot.isOptional

/-- The accessor gives what stands at a position, which is of the accessor's sort, and nothing only if it
may. -/
structure Viewed.Gives {view : View} (viewed : Viewed view) (accessor : Accessor) (index : Nat) : Prop where
  read : viewed.read accessor = .ok (viewed.node.childAt? index)
  sort : ∀ element, viewed.node.childAt? index = some element → accessor.sort.Covers element
  optional : viewed.node.childAt? index = none → accessor.isOptional

theorem views_match :
    ∀ view ∈ View.all, List.Forall₂ Accessor.Matches view.accessors (catalogue.slots view.kind) := by
  decide

theorem exists_view {kind : SyntaxKind} (layout : catalogue.isCollection kind = false) :
    ∃ view ∈ View.all, view.kind = kind := by
  revert layout
  cases kind <;> decide

theorem view_eq_of_kind_eq : ∀ view ∈ View.all, ∀ other ∈ View.all, other.kind = view.kind → other = view := by
  decide

theorem View.isSome_cast? {view : View} {n : Node} : (view.cast? n).isSome ↔ n.kind = view.kind := by
  unfold cast?
  split <;> simp [*]

theorem Schema.constraintDefects_of_slotDefects {schema : Schema} {kind : SyntaxKind} {seen : List String}
    {slots : List Slot} (passed : schema.slotDefects kind seen slots = []) :
    ∀ slot ∈ slots, schema.constraintDefects kind slot = [] := by
  induction slots generalizing seen with
  | nil => simp
  | cons first rest ih =>
    simp only [slotDefects, List.append_eq_nil_iff] at passed
    exact List.forall_mem_cons.mpr ⟨passed.1.2, ih passed.2⟩

/-- Where a schema without defects asks for a list, it asks for a kind of lists. -/
theorem Schema.isCollection_of_clean {schema : Schema} (clean : schema.defects = []) {kind target : SyntaxKind}
    {slot : Slot} (member : slot ∈ schema.slots kind) {elementName : String} {formerElementName : Option String}
    {defaultsToEmpty : Bool}
    (asked : slot.constraint = .collection target elementName formerElementName defaultsToEmpty) :
    schema.isCollection target := by
  have passed := entryDefects_of_clean clean kind
  simp only [entryDefects, shape_of_mem_slots member, List.append_eq_nil_iff, ordered_of_clean clean kind] at passed
  have checked := constraintDefects_of_slotDefects passed.2.1 slot member
  by_contra other
  simp [constraintDefects, asked, other] at checked

/-- What fits into a slot of the catalogue is of the sort that its constraint stands for. -/
theorem covers_of_fits {kind : SyntaxKind} {slot : Slot} (member : slot ∈ catalogue.slots kind) {element : Element}
    (fit : catalogue.fits slot element.supplied) :
    (AccessorSort.ofConstraint slot.constraint).Covers element := by
  cases constraint : slot.constraint with
  | node choice =>
    cases element with
    | node n => exact .node n
    | leaf l => simp [Element.supplied, Schema.fits, constraint, Constraint.admitsToken] at fit
  | anyToken =>
    cases element with
    | node n => simp [Element.supplied, Schema.fits, constraint, Schema.admitsNode] at fit
    | leaf l => exact .token l
  | tokens choices =>
    cases element with
    | node n => simp [Element.supplied, Schema.fits, constraint, Schema.admitsNode] at fit
    | leaf l => exact .token l
  | collection target elementName formerElementName defaultsToEmpty =>
    cases element with
    | node n =>
      have same : n.kind = target := by
        simpa [Element.supplied, Schema.fits, constraint, Schema.admitsNode] using fit
      exact .list n (same ▸ Schema.isCollection_of_clean Schema.catalogue_defects member constraint)
    | leaf l => simp [Element.supplied, Schema.fits, constraint, Constraint.admitsToken] at fit

section Slot

variable {n : Node} {index : Nat} {slot : Slot}

/-- Each name of a slot leads to its position. -/
theorem Node.child_of_answersTo (slotAt : (catalogue.slots n.kind)[index]? = some slot) {name : String}
    (named : slot.answersTo name) : n.child name = .ok (n.childAt? index) := by
  have distinct := Schema.namesDistinct_of_clean Schema.catalogue_defects n.kind
  rw [child, slotIndex, (Schema.slotIndex?_eq_some_iff distinct).mpr ⟨slot, slotAt, named⟩]
  rfl

theorem Node.child_of_unknown {name : String} (unknown : ∀ slot ∈ catalogue.slots n.kind, ¬slot.answersTo name) :
    n.child name = .error (.unknownSlot n.kind name .absent) := by
  rw [child, slotIndex, Schema.slotIndex?_eq_none_iff.mpr unknown]
  rfl

theorem Node.Sound.isOptional_of_absent (sound : n.Sound) (slotAt : (catalogue.slots n.kind)[index]? = some slot)
    (absent : n.childAt? index = none) : slot.isOptional :=
  sound.mandatory _ index slot (Schema.shape_of_mem_slots (List.mem_of_getElem? slotAt)) slotAt absent

theorem Node.Sound.fits_of_childAt? (sound : n.Sound) (slotAt : (catalogue.slots n.kind)[index]? = some slot)
    {element : Element} (present : n.childAt? index = some element) : catalogue.fits slot element.supplied :=
  sound.admitted _ index slot element (Schema.shape_of_mem_slots (List.mem_of_getElem? slotAt)) slotAt present

theorem Node.Sound.readsSlot (sound : n.Sound) (slotAt : (catalogue.slots n.kind)[index]? = some slot) :
    n.ReadsSlot index slot where
  current := child_of_answersTo slotAt (by simp [Slot.answersTo])
  former name renamed := child_of_answersTo slotAt (by simp [Slot.answersTo, renamed])
  traits t declared asked := by
    obtain ⟨wanted, member, named⟩ := asked
    have distinct := Schema.namesDistinct_of_clean Schema.catalogue_defects n.kind
    rw [traitChild?, ← named, Schema.traitSlotIndex?_of_getElem? distinct declared slotAt member named.symm]
    rfl
  optional := sound.isOptional_of_absent slotAt

/-- Reading by sort loses nothing of an element of the sort. -/
theorem Accessor.find_of_covers {accessor : Accessor} {entry : Option Element}
    (reads : n.child accessor.slot = .ok entry)
    (covers : ∀ element, entry = some element → accessor.sort.Covers element) : accessor.find n = .ok entry := by
  rw [find, Node.childNode, Node.childLeaf, reads]
  cases entry with
  | none => cases accessor.sort <;> rfl
  | some element =>
    have covered := covers element rfl
    -- The sort decides which of the two reads is made, and the element is what that read lets through.
    generalize accessor.sort = sort at covered
    cases covered <;> rfl

/-- An accessor that matches a slot gives what stands there. -/
theorem Viewed.gives_of_matches {view : View} (viewed : Viewed view) (sound : viewed.node.Sound)
    (slotAt : (catalogue.slots viewed.node.kind)[index]? = some slot) {accessor : Accessor}
    (matching : accessor.Matches slot) : viewed.Gives accessor index := by
  obtain ⟨named, isOptional, sort⟩ := matching
  have covers : ∀ element, viewed.node.childAt? index = some element → accessor.sort.Covers element := by
    intro element present
    rw [sort]
    exact covers_of_fits (List.mem_of_getElem? slotAt) (sound.fits_of_childAt? slotAt present)
  have optional : viewed.node.childAt? index = none → accessor.isOptional := by
    intro absent
    rw [isOptional]
    exact sound.isOptional_of_absent slotAt absent
  have reads : viewed.node.child accessor.slot = .ok (viewed.node.childAt? index) := by
    rw [named]
    exact (sound.readsSlot slotAt).current
  refine ⟨?_, covers, optional⟩
  rw [read, Accessor.find_of_covers reads covers]
  cases stands : viewed.node.childAt? index with
  | none => simp [optional stands]
  | some element => rfl

end Slot

/-- A layout is cast by the view of its kind and by no other, and none of the accessors fails. There is one
accessor for each slot in order, and all ways to the slot give what stands at its position. A name to which
no slot answers is a violation, and a trait gives nothing where it is not declared or does not know the name
as one of its own. -/
theorem reads_agree {n : Node} (reachable : n.Reachable) (layout : catalogue.isCollection n.kind = false) :
    (∃ view ∈ View.all, ∃ viewed, view.cast? n = some viewed ∧ viewed.node = n ∧
      (∀ other ∈ View.all, (other.cast? n).isSome ↔ other = view) ∧
      view.accessors.length = (catalogue.slots n.kind).length ∧
      (∀ accessor ∈ view.accessors, ∃ found, viewed.read accessor = .ok found) ∧
      ∀ index slot, (catalogue.slots n.kind)[index]? = some slot → n.ReadsSlot index slot ∧
        ∃ accessor, view.accessors[index]? = some accessor ∧ accessor.Matches slot ∧
          viewed.Gives accessor index) ∧
    (∀ name, (∀ slot ∈ catalogue.slots n.kind, ¬slot.answersTo name) →
      n.child name = .error (.unknownSlot n.kind name .absent)) ∧
    ∀ t name, (n.hasTrait t = false ∨ ∀ wanted ∈ t.slots, wanted.name ≠ name) →
      n.traitChild? t name = none := by
  have sound := reachable.sound.node
  refine ⟨?views, fun name unknown => Node.child_of_unknown unknown, ?traits⟩
  case traits =>
    intro t name unknown
    rw [Node.traitChild?, Schema.traitSlotIndex?_eq_none unknown, Option.bind_none]
  case views =>
    obtain ⟨view, member, ofKind⟩ := exists_view layout
    have rows := views_match view member
    rw [ofKind] at rows
    let viewed : Viewed view := ⟨n, ofKind.symm⟩
    have cast : view.cast? n = some viewed := dif_pos ofKind.symm
    refine ⟨view, member, viewed, cast, rfl, ?_, rows.length_eq, ?_, ?_⟩
    · intro other among
      rw [View.isSome_cast?, ← ofKind]
      exact ⟨fun same => view_eq_of_kind_eq view member other among same.symm, fun same => by rw [same]⟩
    -- Accessors and slots are matched by position, so each accessor has a slot to read and the other way round.
    · intro accessor within
      obtain ⟨index, inside, rfl⟩ := List.mem_iff_getElem.mp within
      have slotAt := List.getElem?_eq_getElem (rows.length_eq ▸ inside)
      exact ⟨_, (viewed.gives_of_matches sound slotAt (rows.get inside _)).read⟩
    · intro index slot slotAt
      obtain ⟨inside, rfl⟩ := List.getElem?_eq_some_iff.mp slotAt
      have accessorAt := List.getElem?_eq_getElem (rows.length_eq.symm ▸ inside)
      have matching := rows.get (rows.length_eq.symm ▸ inside) inside
      exact ⟨sound.readsSlot slotAt, _, accessorAt, matching, viewed.gives_of_matches sound slotAt matching⟩

/-- The attributes of the sample are found by name, through their trait and by an accessor, and the element of
its array under the name it had. -/
theorem reads_agree_sample :
    (Sample.root.Reachable ∧ catalogue.isCollection Sample.root.kind = false) ∧
      (Sample.array.Reachable ∧ catalogue.isCollection Sample.array.kind = false) ∧
      Sample.root.child "attributes" = .ok (some (.node Sample.attributes)) ∧
      Sample.root.traitChild? .withAttributes "attributes" = some (.node Sample.attributes) ∧
      (∃ view ∈ View.all, ∃ viewed accessor, view.cast? Sample.root = some viewed ∧
        view.accessors[1]? = some accessor ∧ viewed.read accessor = .ok (some (.node Sample.attributes))) ∧
      Sample.root.child "elements" = .error (.unknownSlot .attributedType "elements" .absent) ∧
      Sample.root.traitChild? .parenthesized "leftParen" = none ∧
      Sample.array.child "elementType" = .ok (some (.node Sample.element)) := by
  obtain ⟨⟨view, member, viewed, cast, same, _, _, _, each⟩, unknown, traits⟩ :=
    reads_agree Sample.root_reachable rfl
  obtain ⟨⟨_, _, _, _, _, _, _, _, eachOfArray⟩, _, _⟩ := reads_agree Sample.array_reachable rfl
  obtain ⟨attributes, accessor, accessorAt, _, given⟩ := each 1 _ rfl
  have read := given.read
  rw [same] at read
  exact ⟨⟨Sample.root_reachable, rfl⟩, ⟨Sample.array_reachable, rfl⟩, attributes.current,
    attributes.traits .withAttributes rfl ⟨_, List.mem_cons_self, rfl⟩,
    ⟨view, member, viewed, accessor, cast, accessorAt, read⟩, unknown "elements" (by decide),
    traits .parenthesized "leftParen" (.inl rfl), (eachOfArray 1 _ rfl).1.former _ rfl⟩

end LosslessSyntax
