import LosslessSyntax.Schema.Catalogue
import LosslessSyntax.Schema.Validation

/-!
# Acceptance

What a schema accepts, said without the order in which children are checked. The main statement,
`validate_ok_iff`, says that validation passes exactly what is accepted. Accepted children stay
accepted when one fitting entry takes the place of another, and in collections also when an element
comes or goes.
-/

namespace LosslessSyntax.Schema

/-- The children a schema accepts. A layout has one entry for each slot and each entry fits its
slot; a collection has nodes of its element kinds and nothing else. -/
def Accepts (schema : Schema) (kind : SyntaxKind) (supplied : List Supplied) : Prop :=
  match (schema.entry kind).shape with
  | .layout slots => supplied.length = slots.length ∧
      ∀ (i : Nat) (slot : Slot) (child : Supplied), slots[i]? = some slot → supplied[i]? = some child →
        schema.fits slot child
  | .collection elements => ∀ child ∈ supplied, ∃ element ∈ elements, child = .node element

variable {schema : Schema} {kind : SyntaxKind}

theorem validateSlot_ok_iff {index : Nat} {child : Supplied} :
    schema.validateSlot kind index child = .ok () ↔
      ∃ slot, (schema.slots kind)[index]? = some slot ∧ schema.fits slot child := by
  unfold validateSlot
  cases found : (schema.slots kind)[index]? with
  | none => simp
  | some slot =>
    by_cases fit : schema.fits slot child
    · simp [fit]
    · simp [fit]

theorem validateElement_ok_iff {index : Nat} {child : Supplied} :
    schema.validateElement kind index child = .ok () ↔
      ∃ element ∈ schema.elements kind, child = .node element := by
  unfold validateElement
  cases child with
  | absent => simp
  | token token => simp
  | node element =>
    by_cases member : element ∈ schema.elements kind
    · simp [member]
    · simp [member]

/-- Each child is checked under its own position. -/
theorem validateEach_ok_iff {check : Nat → Supplied → Except Violation Unit} {start : Nat}
    {supplied : List Supplied} :
    validateEach check start supplied = .ok () ↔
      ∀ (i : Nat) (child : Supplied), supplied[i]? = some child → check (start + i) child = .ok () := by
  induction supplied generalizing start with
  | nil => simp [validateEach]
  | cons first rest ih =>
    rw [validateEach]
    cases checked : check start first with
    | error violation =>
      constructor
      · intro impossible; cases impossible
      · intro each
        have := each 0 first rfl
        rw [Nat.add_zero, checked] at this
        cases this
    | ok _ =>
      dsimp only
      rw [ih]
      constructor
      · intro each i child found
        cases i with
        | zero => cases found; exact checked
        | succ i => rw [Nat.add_succ, ← Nat.succ_add]; exact each i child found
      · intro each i child found
        have := each (i + 1) child found
        rwa [Nat.add_succ, ← Nat.succ_add] at this

theorem slots_of_layout {slots : List Slot} (shape : (schema.entry kind).shape = .layout slots) :
    schema.slots kind = slots := by
  simp [Schema.slots, Entry.slots, shape]

theorem elements_of_layout {slots : List Slot} (shape : (schema.entry kind).shape = .layout slots) :
    schema.elements kind = [] := by
  simp [Schema.elements, Entry.elements, shape]

theorem slots_of_collection {elements : List SyntaxKind}
    (shape : (schema.entry kind).shape = .collection elements) : schema.slots kind = [] := by
  simp [Schema.slots, Entry.slots, shape]

theorem elements_of_collection {elements : List SyntaxKind}
    (shape : (schema.entry kind).shape = .collection elements) : schema.elements kind = elements := by
  simp [Schema.elements, Entry.elements, shape]

theorem isCollection_of_layout {slots : List Slot} (shape : (schema.entry kind).shape = .layout slots) :
    schema.isCollection kind = false := by
  simp [isCollection, Entry.isCollection, shape]

theorem isCollection_of_collection {elements : List SyntaxKind}
    (shape : (schema.entry kind).shape = .collection elements) : schema.isCollection kind = true := by
  simp [isCollection, Entry.isCollection, shape]

theorem exists_shape_of_isCollection (collection : schema.isCollection kind) :
    ∃ elements, (schema.entry kind).shape = .collection elements := by
  cases shape : (schema.entry kind).shape with
  | layout slots => rw [isCollection_of_layout shape] at collection; cases collection
  | collection elements => exact ⟨elements, rfl⟩

/-- Only a layout has slots. -/
theorem shape_of_mem_slots {slot : Slot} (member : slot ∈ schema.slots kind) :
    (schema.entry kind).shape = .layout (schema.slots kind) := by
  cases shape : (schema.entry kind).shape with
  | layout slots => rw [slots_of_layout shape]
  | collection elements =>
    rw [slots_of_collection shape] at member
    cases member

theorem accepts_layout {slots : List Slot} (shape : (schema.entry kind).shape = .layout slots)
    {supplied : List Supplied} :
    schema.Accepts kind supplied ↔ supplied.length = slots.length ∧
      ∀ (i : Nat) (slot : Slot) (child : Supplied), slots[i]? = some slot → supplied[i]? = some child →
        schema.fits slot child := by
  simp [Accepts, shape]

theorem accepts_collection {elements : List SyntaxKind}
    (shape : (schema.entry kind).shape = .collection elements) {supplied : List Supplied} :
    schema.Accepts kind supplied ↔ ∀ child ∈ supplied, ∃ element ∈ elements, child = .node element := by
  simp [Accepts, shape]

/-- Validation passes exactly the children that the schema accepts. -/
theorem validate_ok_iff {supplied : List Supplied} :
    schema.validate kind supplied = .ok () ↔ schema.Accepts kind supplied := by
  unfold validate
  cases shape : (schema.entry kind).shape with
  | layout slots =>
    rw [accepts_layout shape]
    dsimp only
    by_cases length : supplied.length = slots.length
    · rw [if_neg (not_not_intro length), validateEach_ok_iff]
      simp only [validateSlot_ok_iff, slots_of_layout shape, Nat.zero_add]
      refine ⟨fun each => ⟨length, fun i slot child slotAt childAt => ?_⟩, fun accepted i child childAt => ?_⟩
      · obtain ⟨found, foundAt, fit⟩ := each i child childAt
        cases slotAt.symm.trans foundAt
        exact fit
      · obtain ⟨inside, _⟩ := List.getElem?_eq_some_iff.mp childAt
        have slotAt : slots[i]? = some slots[i] := List.getElem?_eq_getElem (length ▸ inside)
        exact ⟨_, slotAt, accepted.2 i _ child slotAt childAt⟩
    · rw [if_pos length]
      simp [length]
  | collection elements =>
    rw [accepts_collection shape, validateEach_ok_iff]
    simp only [validateElement_ok_iff, elements_of_collection shape]
    refine ⟨fun each child member => ?_, fun each i child childAt => each child (List.mem_of_getElem? childAt)⟩
    obtain ⟨i, childAt⟩ := List.mem_iff_getElem?.mp member
    exact each i child childAt

/-- Where all children but one are known to pass, that one decides. -/
theorem validateEach_set {check : Nat → Supplied → Except Violation Unit} {start : Nat}
    {supplied : List Supplied} (passed : validateEach check start supplied = .ok ()) {index : Nat}
    (inside : index < supplied.length) (child : Supplied) :
    validateEach check start (supplied.set index child) = check (start + index) child := by
  induction supplied generalizing start index with
  | nil => simp at inside
  | cons first rest ih =>
    have each := validateEach_ok_iff.mp passed
    have others : validateEach check (start + 1) rest = .ok () := by
      refine validateEach_ok_iff.mpr fun i other found => ?_
      rw [Nat.add_assoc, Nat.add_comm 1]
      exact each (i + 1) other found
    cases index with
    | zero =>
      rw [List.set_cons_zero, validateEach, others, Nat.add_zero]
      cases check start child <;> rfl
    | succ index =>
      have own : check start first = .ok () := each 0 first rfl
      rw [List.set_cons_succ, validateEach, own]
      rw [ih others (Nat.lt_of_succ_lt_succ inside), Nat.add_assoc, Nat.add_comm 1]

/-- Checking all children again after one took the place of another comes to checking that one. -/
theorem Accepts.validate_set {supplied : List Supplied} (accepted : schema.Accepts kind supplied) {index : Nat}
    (inside : index < (schema.slots kind).length) (child : Supplied) :
    schema.validate kind (supplied.set index child) = schema.validateSlot kind index child := by
  have passed := validate_ok_iff.mpr accepted
  unfold validate at passed ⊢
  cases shape : (schema.entry kind).shape with
  | collection elements =>
    rw [slots_of_collection shape] at inside
    cases inside
  | layout slots =>
    have length := ((accepts_layout shape).mp accepted).1
    rw [slots_of_layout shape, ← length] at inside
    rw [shape] at passed
    simp only [length, ne_eq, not_true_eq_false, if_false, List.length_set] at passed ⊢
    rw [validateEach_set passed inside, Nat.zero_add]

theorem lastIndex?_lt {p : Slot → Bool} {start index : Nat} {slots : List Slot}
    (found : lastIndex? p start slots = some index) : index < start + slots.length := by
  induction slots generalizing start with
  | nil => cases found
  | cons slot rest ih =>
    rw [List.length_cons]
    unfold lastIndex? at found
    split at found
    · rename_i later foundLater
      cases found
      have := ih foundLater
      omega
    · split at found
      · cases found
        omega
      · cases found

/-- A name stands for one of the slots. -/
theorem slotIndex?_lt {name : String} {index : Nat} (found : schema.slotIndex? kind name = some index) :
    index < (schema.slots kind).length := by
  unfold slotIndex? at found
  split at found
  · rename_i current foundCurrent
    cases found
    have := lastIndex?_lt foundCurrent
    omega
  · have := lastIndex?_lt found
    omega

/-- An entry that fits its slot may take the place of the one there. -/
theorem Accepts.set {supplied : List Supplied} (accepted : schema.Accepts kind supplied) {index : Nat}
    {child : Supplied} (valid : schema.validateSlot kind index child = .ok ()) :
    schema.Accepts kind (supplied.set index child) := by
  obtain ⟨slot, slotAt, fit⟩ := validateSlot_ok_iff.mp valid
  cases shape : (schema.entry kind).shape with
  | collection elements => simp [slots_of_collection shape] at slotAt
  | layout slots =>
    rw [slots_of_layout shape] at slotAt
    obtain ⟨length, each⟩ := (accepts_layout shape).mp accepted
    refine (accepts_layout shape).mpr ⟨by rw [List.length_set, length], fun i other entry otherAt entryAt => ?_⟩
    by_cases here : index = i
    · subst here
      cases slotAt.symm.trans otherAt
      rw [List.getElem?_set_self'] at entryAt
      obtain ⟨_, _, rfl⟩ := Option.map_eq_some_iff.mp entryAt
      exact fit
    · rw [List.getElem?_set_ne here] at entryAt
      exact each i other entry otherAt entryAt

/-- An admitted element may come at the end. Only collections admit elements. -/
theorem Accepts.append {supplied : List Supplied} (accepted : schema.Accepts kind supplied) {index : Nat}
    {child : Supplied} (valid : schema.validateElement kind index child = .ok ()) :
    schema.Accepts kind (supplied ++ [child]) := by
  obtain ⟨element, member, rfl⟩ := validateElement_ok_iff.mp valid
  cases shape : (schema.entry kind).shape with
  | layout slots => simp [elements_of_layout shape] at member
  | collection elements =>
    rw [elements_of_collection shape] at member
    rw [accepts_collection shape] at accepted ⊢
    intro other within
    rcases List.mem_append.mp within with before | last
    · exact accepted other before
    · exact ⟨element, member, List.mem_singleton.mp last⟩

/-- An admitted element may take the place of another. -/
theorem Accepts.set_element {supplied : List Supplied} (accepted : schema.Accepts kind supplied)
    {index : Nat} {child : Supplied} (valid : schema.validateElement kind index child = .ok ()) :
    schema.Accepts kind (supplied.set index child) := by
  obtain ⟨element, member, rfl⟩ := validateElement_ok_iff.mp valid
  cases shape : (schema.entry kind).shape with
  | layout slots => simp [elements_of_layout shape] at member
  | collection elements =>
    rw [elements_of_collection shape] at member
    rw [accepts_collection shape] at accepted ⊢
    intro other within
    rcases List.mem_or_eq_of_mem_set within with old | rfl
    · exact accepted other old
    · exact ⟨element, member, rfl⟩

/-- Any element of a collection may go. -/
theorem Accepts.eraseIdx {supplied : List Supplied} (accepted : schema.Accepts kind supplied)
    (collection : schema.isCollection kind) (index : Nat) :
    schema.Accepts kind (supplied.eraseIdx index) := by
  cases shape : (schema.entry kind).shape with
  | layout slots => simp [isCollection_of_layout shape] at collection
  | collection elements =>
    rw [accepts_collection shape] at accepted ⊢
    exact fun child member => accepted child (List.mem_of_mem_eraseIdx member)

/-- A collection may be empty. -/
theorem accepts_nil (collection : schema.isCollection kind) : schema.Accepts kind [] := by
  cases shape : (schema.entry kind).shape with
  | layout slots => simp [isCollection_of_layout shape] at collection
  | collection elements =>
    rw [accepts_collection shape]
    simp

end LosslessSyntax.Schema

namespace LosslessSyntax

/-- Where the catalogue fills an open slot, it does so with a collection. -/
theorem catalogue_default_isCollection {kind filler : SyntaxKind} {slot : Slot}
    (member : slot ∈ catalogue.slots kind) (default : slot.constraint.default? = some filler) :
    catalogue.isCollection filler := by
  have all : ∀ slot ∈ catalogue.slots kind, slot.constraint.default?.all catalogue.isCollection := by
    cases kind <;> decide
  simpa [default] using all slot member

end LosslessSyntax
