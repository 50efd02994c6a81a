import LosslessSyntax.Proofs.SlotEdits

/-!
# Drafting

A draft is filled by the names of slots, in any order and more than once, and is finished to the node that
is built from one entry for each slot. The main statement, `finish_refines`, says which entries these are:
in each slot the last value given to it, under whichever name, or else the empty collection that the slot
wants. A name that no slot answers to decides the outcome before all else, the first one if there are
several. So no draft depends on the order in which its slots were filled.
-/

namespace LosslessSyntax

namespace SlotEdit

/-- What a slot is left with: the last value given to it, absent if there is none. -/
def final? (kind : SyntaxKind) (edits : List SlotEdit) (index : Nat) : Option Element :=
  (last? kind edits index).join

end SlotEdit

namespace Draft

/-- The draft of a kind after edits of its slots, one after the other. -/
def ofEdits (kind : SyntaxKind) (edits : List SlotEdit) : Draft :=
  (empty kind).setAll (edits.map fun edit => (edit.name, edit.value))

/-- What stands in a slot in the end: the value it was left with, and where that is absent an empty
collection, if the slot is marked to be filled so. -/
inductive Settles (slot : Slot) : Option Element → Option Element → Prop
  | given (element : Element) : Settles slot (some element) (some element)
  | filled {filler : SyntaxKind} {elementName : String} {formerElementName : Option String} (serial : Nat)
    (wanted : slot.constraint = .collection filler elementName formerElementName true) :
    Settles slot none (some (.node (.mk serial filler [] 0)))
  | absent (unwanted : ∀ filler elementName formerElementName,
      slot.constraint ≠ .collection filler elementName formerElementName true) : Settles slot none none

/-- The entries that edits stand for, one for each slot. -/
structure Describes (kind : SyntaxKind) (edits : List SlotEdit) (children : List (Option Element)) : Prop where
  size : children.length = (catalogue.slots kind).length
  entry : ∀ index slot entry, (catalogue.slots kind)[index]? = some slot → children[index]? = some entry →
    Settles slot (SlotEdit.final? kind edits index) entry

section Filling

variable {kind : SyntaxKind} {edits : List SlotEdit}

theorem setAll_cons (draft : Draft) (edit : SlotEdit) (rest : List SlotEdit) :
    draft.setAll ((edit :: rest).map fun edit => (edit.name, edit.value)) =
      (draft.set edit.name edit.value).setAll (rest.map fun edit => (edit.name, edit.value)) :=
  rfl

/-- While all names are known, a draft holds the last values. -/
theorem setAll_of_known (known : ∀ edit ∈ edits, edit.target? kind ≠ none) (entries : List (Option Element)) :
    setAll ⟨kind, entries, none⟩ (edits.map fun edit => (edit.name, edit.value)) =
      ⟨kind, SlotEdit.applyAll kind edits entries, none⟩ := by
  induction edits generalizing entries with
  | nil => rw [SlotEdit.applyAll_nil]; rfl
  | cons edit rest ih =>
    rw [List.forall_mem_cons] at known
    obtain ⟨index, target⟩ := Option.ne_none_iff_exists'.mp known.1
    have written : set ⟨kind, entries, none⟩ edit.name edit.value =
        ⟨kind, entries.set index edit.value, none⟩ := by
      unfold set
      rw [show catalogue.slotIndex? kind edit.name = some index from target]
    rw [setAll_cons, written, ih known.2, SlotEdit.applyAll_set target]

/-- A draft remembers the first trouble whatever comes later. -/
theorem unknown_setAll (rest : List SlotEdit) {draft : Draft} {violation : Violation}
    (unknown : draft.unknown = some violation) :
    (draft.setAll (rest.map fun edit => (edit.name, edit.value))).unknown = some violation := by
  induction rest generalizing draft with
  | nil => exact unknown
  | cons edit rest ih =>
    rw [setAll_cons]
    apply ih
    unfold set
    cases catalogue.slotIndex? draft.kind edit.name with
    | some index => exact unknown
    | none => simp [unknown]

/-- The first name that no slot answers to is what a draft remembers. -/
theorem unknown_ofEdits {edit : SlotEdit}
    (first : edits.find? (fun edit => edit.target? kind = none) = some edit) :
    (ofEdits kind edits).unknown = some (.unknownSlot kind edit.name (.ofEntry edit.value)) := by
  obtain ⟨unknown, front, rest, rfl, known⟩ := List.find?_eq_some_iff_append.mp first
  have target : catalogue.slotIndex? kind edit.name = none := of_decide_eq_true unknown
  have knownFront : ∀ before ∈ front, before.target? kind ≠ none := by
    intro before member
    simpa using known before member
  have filled := setAll_of_known knownFront (List.replicate (catalogue.slots kind).length none)
  unfold ofEdits
  rw [List.map_append, setAll, List.foldl_append]
  show (setAll (setAll _ (front.map _)) ((edit :: rest).map _)).unknown = _
  rw [empty, filled, setAll_cons]
  apply unknown_setAll
  simp [set, target]

end Filling

theorem default?_eq_some_iff {constraint : Constraint} {filler : SyntaxKind} :
    constraint.default? = some filler ↔ ∃ elementName formerElementName,
      constraint = .collection filler elementName formerElementName true := by
  constructor
  · intro default
    unfold Constraint.default? at default
    split at default
    · cases default
      exact ⟨_, _, rfl⟩
    · cases default
  · rintro ⟨_, _, rfl⟩
    rfl

theorem defaulted_settles {ε : Type} {slot : Slot} {value entry : Option Element} {serial next : Nat}
    (ran : (defaulted slot value : Building ε _) serial = .ok (entry, next)) : Settles slot value entry := by
  unfold defaulted at ran
  cases value with
  | some element => cases ran; exact .given element
  | none =>
    cases default : slot.constraint.default? with
    | some filler =>
      obtain ⟨_, _, wanted⟩ := default?_eq_some_iff.mp default
      simp only [default] at ran
      cases ran
      exact .filled serial wanted
    | none =>
      simp only [default] at ran
      cases ran
      apply Settles.absent
      intro filler elementName formerElementName wanted
      rw [wanted] at default
      cases default

/-- Filling slots settles each of them. -/
theorem defaultedAll_settles {ε : Type} {slots : List Slot} {values filled : List (Option Element)}
    {serial next : Nat} (length : values.length = slots.length)
    (ran : (defaultedAll slots values : Building ε _) serial = .ok (filled, next)) :
    filled.length = slots.length ∧ ∀ (index : Nat) (slot : Slot) (value entry : Option Element),
      slots[index]? = some slot → values[index]? = some value → filled[index]? = some entry →
        Settles slot value entry := by
  induction slots generalizing values filled serial with
  | nil =>
    cases List.length_eq_zero_iff.mp length
    cases ran
    simp
  | cons slot slots ih =>
    obtain ⟨value, values, rfl⟩ := List.exists_cons_of_length_eq_add_one length
    obtain ⟨first, middle, firstRan, _⟩ := defaulted_run ε slot value serial
    obtain ⟨others, last, othersRan, _⟩ := defaultedAll_run ε slots values middle
    cases (run_defaultedAll_cons firstRan othersRan).symm.trans ran
    obtain ⟨size, each⟩ := ih (Nat.succ.inj length) othersRan
    refine ⟨by simp [size], ?_⟩
    intro index other given entry slotAt valueAt entryAt
    cases index with
    | zero =>
      cases slotAt
      cases valueAt
      cases entryAt
      exact defaulted_settles firstRan
    | succ index => exact each index other given entry slotAt valueAt entryAt

theorem getElem?_applyAll_replicate (kind : SyntaxKind) (edits : List SlotEdit) {size index : Nat}
    (inside : index < size) :
    (SlotEdit.applyAll kind edits (List.replicate size none))[index]? =
      some (SlotEdit.final? kind edits index) := by
  rw [SlotEdit.applyAll, List.getElem?_mapIdx, List.getElem?_replicate, if_pos inside, SlotEdit.final?]
  cases SlotEdit.last? kind edits index <;> rfl

/-- A draft with known names is finished to what is built over entries that its edits stand for. -/
theorem exists_describes {kind : SyntaxKind} {edits : List SlotEdit}
    (known : ∀ edit ∈ edits, edit.target? kind ≠ none) (serial : Nat) :
    ∃ children middle, Describes kind edits children ∧
      (ofEdits kind edits).finish serial = Node.ofChildren kind children middle := by
  have values := setAll_of_known known (List.replicate (catalogue.slots kind).length none)
  have size : (SlotEdit.applyAll kind edits (List.replicate (catalogue.slots kind).length none)).length =
      (catalogue.slots kind).length := by
    simp [SlotEdit.applyAll]
  obtain ⟨children, middle, ran, _⟩ := defaultedAll_run Violation (catalogue.slots kind)
    (SlotEdit.applyAll kind edits (List.replicate (catalogue.slots kind).length none)) serial
  obtain ⟨length, settles⟩ := defaultedAll_settles size ran
  refine ⟨children, middle, ⟨length, ?_⟩, ?_⟩
  · intro index slot entry slotAt entryAt
    obtain ⟨inside, _⟩ := List.getElem?_eq_some_iff.mp slotAt
    exact settles index slot _ entry slotAt (getElem?_applyAll_replicate kind edits inside) entryAt
  · unfold ofEdits empty
    rw [values, run_finish rfl ran]

/-- What stands in a slot is related if the values are that it was left with, and so are new empty
collections of one kind. -/
theorem Settles.related {R : Element → Element → Prop}
    (fresh : ∀ filler serial serial', R (.node (.mk serial filler [] 0)) (.node (.mk serial' filler [] 0)))
    {slot : Slot} {value value' first second : Option Element} (values : Option.Rel R value value')
    (left : Settles slot value first) (right : Settles slot value' second) : Option.Rel R first second := by
  cases left with
  | given element =>
    cases right with
    | given => exact values
    | filled => cases values
    | absent => cases values
  | filled serial wanted =>
    cases right with
    | given => cases values
    | filled serial' wanted' =>
      cases wanted.symm.trans wanted'
      exact .some (fresh _ serial serial')
    | absent unwanted => exact absurd wanted (unwanted _ _ _)
  | absent unwanted =>
    cases right with
    | given => cases values
    | filled serial wanted => exact absurd wanted (unwanted _ _ _)
    | absent => exact .none

/-- Elements that compare equal and show the same from outside. -/
structure Twins (a b : Element) : Prop where
  equal : a.Equal b
  supplied : a.supplied = b.supplied
  textLen : a.textLen = b.textLen

theorem Twins.refl (element : Element) : Twins element element :=
  ⟨element.equal_self, rfl, rfl⟩

/-- Empty collections of one kind show no difference. -/
theorem Twins.fresh (filler : SyntaxKind) (serial serial' : Nat) :
    Twins (.node (.mk serial filler [] 0)) (.node (.mk serial' filler [] 0)) :=
  ⟨Node.beq_iff_entries.mpr (.inr ⟨rfl, rfl, .nil⟩), rfl, rfl⟩

theorem Describes.twins {kind : SyntaxKind} {edits others : List SlotEdit} {first second : List (Option Element)}
    (same : ∀ index, SlotEdit.final? kind edits index = SlotEdit.final? kind others index)
    (left : Describes kind edits first) (right : Describes kind others second) :
    List.Forall₂ (Option.Rel Twins) first second := by
  refine List.forall₂_iff_get.mpr ⟨left.size.trans right.size.symm, ?_⟩
  intro index insideFirst insideSecond
  have slotAt : (catalogue.slots kind)[index]? = some _ :=
    List.getElem?_eq_getElem (left.size ▸ insideFirst)
  have values : Option.Rel Twins (SlotEdit.final? kind edits index) (SlotEdit.final? kind others index) := by
    rw [same]
    exact rel_refl Twins.refl _
  exact Settles.related Twins.fresh values (left.entry index _ _ slotAt (List.getElem?_eq_getElem insideFirst))
    (right.entry index _ _ slotAt (List.getElem?_eq_getElem insideSecond))

/-- Nothing that is built tells twins apart. -/
theorem ofChildren_agree {kind : SyntaxKind} {first second : List (Option Element)}
    (twins : List.Forall₂ (Option.Rel Twins) first second) (serial serial' : Nat) :
    Agree (fun made made' => (made.1 == made'.1) = true) (Node.ofChildren kind first serial)
      (Node.ofChildren kind second serial') := by
  have supplied := Element.map_ofEntry_eq (twins.imp (rel_imp fun _ _ same => same.supplied))
  have length : Node.totalLen first = Node.totalLen second := by
    rw [Node.totalLen_eq_sum, Node.totalLen_eq_sum]
    exact congrArg List.sum (Element.map_textLen_present (twins.imp (rel_imp fun _ _ same => same.textLen)))
  have equal := twins.imp (rel_imp fun _ _ same => same.equal)
  rw [Node.run_ofChildren, Node.run_ofChildren, supplied]
  exact .of_check rfl (Node.beq_iff_entries.mpr (.inr ⟨rfl, length, equal⟩))

end Draft

/-- A draft is refused for the first name that no slot answers to. A draft without such a name comes out
as the node that is built from its entries by position, or is refused like it, whichever empty
collections stand for open slots. So only the last value of each slot counts. -/
theorem finish_refines (kind : SyntaxKind) :
    (∀ edits edit serial, edits.find? (fun edit => SlotEdit.target? kind edit = none) = some edit →
      (Draft.ofEdits kind edits).finish serial =
        .error (.unknownSlot kind edit.name (.ofEntry edit.value))) ∧
      (∀ edits, (∀ edit ∈ edits, SlotEdit.target? kind edit ≠ none) →
        (∃ children, Draft.Describes kind edits children) ∧
          ∀ children serial serial', Draft.Describes kind edits children →
            Agree (fun made made' => (made.1 == made'.1) = true)
              ((Draft.ofEdits kind edits).finish serial) (Node.ofChildren kind children serial')) ∧
      ∀ edits others, (∀ edit ∈ edits, SlotEdit.target? kind edit ≠ none) →
        (∀ edit ∈ others, SlotEdit.target? kind edit ≠ none) →
        (∀ index, SlotEdit.final? kind edits index = SlotEdit.final? kind others index) →
        ∀ serial serial', Agree (fun made made' => (made.1 == made'.1) = true)
          ((Draft.ofEdits kind edits).finish serial) ((Draft.ofEdits kind others).finish serial') := by
  refine ⟨?_, ?_, ?_⟩
  · intro edits edit serial first
    unfold Draft.finish
    rw [Draft.unknown_ofEdits first]
    rfl
  · intro edits known
    refine ⟨?_, ?_⟩
    · obtain ⟨children, _, describes, _⟩ := Draft.exists_describes known 0
      exact ⟨children, describes⟩
    · intro children serial serial' describes
      obtain ⟨filled, middle, own, finished⟩ := Draft.exists_describes known serial
      rw [finished]
      exact Draft.ofChildren_agree (own.twins (fun _ => rfl) describes) middle serial'
  · intro edits others known knownOthers same serial serial'
    obtain ⟨first, middle, left, finished⟩ := Draft.exists_describes known serial
    obtain ⟨second, middle', right, finishedOthers⟩ := Draft.exists_describes knownOthers serial'
    rw [finished, finishedOthers]
    exact Draft.ofChildren_agree (left.twins same right) middle middle'

/-- An attributed type whose attributes are set to something unfit and taken out again. -/
def Sample.filling : List SlotEdit :=
  [⟨"attributes", some (.node Sample.element)⟩, ⟨"baseType", some (.node Sample.array)⟩, ⟨"attributes", none⟩]

theorem finish_refines_attributed :
    (∀ edit ∈ Sample.filling, edit.target? .attributedType ≠ none) ∧
      Draft.Describes .attributedType Sample.filling Sample.drafted.children ∧
      (∃ made next, (Draft.ofEdits .attributedType Sample.filling).finish 5 = .ok (made, next) ∧
        (made == Sample.root) = true) ∧
      (Draft.ofEdits .attributedType (Sample.filling ++ [⟨"base", none⟩, ⟨"type", none⟩])).finish 5 =
        .error (.unknownSlot .attributedType "base" .absent) := by
  have known : ∀ edit ∈ Sample.filling, edit.target? .attributedType ≠ none := by
    intro edit member
    simp only [Sample.filling, List.mem_cons, List.not_mem_nil, or_false] at member
    rcases member with rfl | rfl | rfl <;> decide
  have describes : Draft.Describes .attributedType Sample.filling Sample.drafted.children := by
    refine ⟨rfl, ?_⟩
    intro index slot entry slotAt entryAt
    match index with
    | 0 => cases slotAt; cases entryAt; exact .absent (by intro _ _ _ wanted; cases wanted)
    | 1 => cases slotAt; cases entryAt; exact .filled 5 rfl
    | 2 => cases slotAt; cases entryAt; exact .given _
    | index + 3 => cases slotAt
  have laws := finish_refines .attributedType
  refine ⟨known, describes, ?_, laws.1 _ ⟨"base", none⟩ 5 rfl⟩
  have agree := (laws.2.1 _ known).2 _ 5 7 describes
  generalize (Draft.ofEdits .attributedType Sample.filling).finish 5 = outcome at agree
  have built : Node.ofChildren .attributedType Sample.drafted.children 7 = .ok (Sample.root, 8) := rfl
  rw [built] at agree
  cases agree with
  | ok equal => exact ⟨_, _, rfl, equal⟩

end LosslessSyntax
