import LosslessSyntax.Proofs.StructuralEquality

/-!
# Slot edits

Edits of a node by the names of its slots, one after the other. The main statement,
`withChildren_agrees`, compares them with nodes that are built and checked anew: a run of edits leaves
in each slot the last value given to it, under whichever name, and stops where building would be refused,
with the same violation. Each edit checks one slot only. That this is enough comes from
`Schema.Accepts.validate_set` and from the node being sound, which the edits keep.
-/

namespace LosslessSyntax

/-- A value for the slot under a name, current or former. -/
structure SlotEdit where
  name : String
  value : Option Element

namespace SlotEdit

/-- The slot that the edit is for. -/
def target? (kind : SyntaxKind) (edit : SlotEdit) : Option Nat := catalogue.slotIndex? kind edit.name

/-- The name is known, and the value valid in its slot. -/
def Fits (kind : SyntaxKind) (edit : SlotEdit) : Prop :=
  ∃ index, edit.target? kind = some index ∧
    catalogue.validateSlot kind index (.ofEntry edit.value) = .ok ()

/-- The last value given to a slot. -/
def last? (kind : SyntaxKind) (edits : List SlotEdit) (index : Nat) : Option (Option Element) :=
  ((edits.filter fun edit => edit.target? kind = some index).getLast?).map (·.value)

/-- Entries, each with the last value given to its slot in its place. -/
def applyAll (kind : SyntaxKind) (edits : List SlotEdit) (entries : List (Option Element)) :
    List (Option Element) :=
  entries.mapIdx fun index entry => (last? kind edits index).getD entry

end SlotEdit

namespace Node

/-- Edits one after the other, each of the node that the one before gave. -/
def withChildren (n : Node) (edits : List SlotEdit) : Building Violation Node :=
  edits.foldlM (fun m edit => m.withChild edit.name edit.value) n

/-- Why a node cannot be edited so: no slot has the name, or the node built anew over the children with
the value in its slot is refused. -/
inductive Refuses (n : Node) (edit : SlotEdit) : Violation → Prop
  | unknown : edit.target? n.kind = none →
    Refuses n edit (.unknownSlot n.kind edit.name (.ofEntry edit.value))
  | misfit (index : Nat) (violation : Violation) : edit.target? n.kind = some index →
    (∀ serial, ofChildren n.kind (n.children.set index edit.value) serial = .error violation) →
    Refuses n edit violation

/-- Two runs of edits succeed with equal nodes over the same handles. -/
def SameOutcome (n : Node) (edits others : List SlotEdit) : Prop :=
  ∀ serial serial', ∃ a b next next', n.withChildren edits serial = .ok (a, next) ∧
    n.withChildren others serial' = .ok (b, next') ∧ a.children = b.children ∧ (a == b) = true

end Node

namespace SlotEdit

variable {kind : SyntaxKind}

theorem last?_append (front rest : List SlotEdit) (index : Nat) :
    last? kind (front ++ rest) index = (last? kind rest index).or (last? kind front index) := by
  unfold last?
  rw [List.filter_append, List.getLast?_append]
  cases (rest.filter fun edit => edit.target? kind = some index).getLast? with
  | none => rfl
  | some edit => rfl

theorem last?_cons (edit : SlotEdit) (rest : List SlotEdit) (index : Nat) :
    last? kind (edit :: rest) index =
      (last? kind rest index).or (if edit.target? kind = some index then some edit.value else none) := by
  have split : last? kind ([edit] ++ rest) index = _ := last?_append [edit] rest index
  rw [List.singleton_append] at split
  rw [split]
  by_cases here : edit.target? kind = some index
  · simp [last?, here]
  · simp [last?, here]

theorem applyAll_nil (entries : List (Option Element)) : applyAll kind [] entries = entries := by
  refine List.ext_getElem? fun j => ?_
  rw [applyAll, List.getElem?_mapIdx]
  cases entries[j]? <;> rfl

/-- Values given later are put over one that is there already. -/
theorem applyAll_set {edit : SlotEdit} {index : Nat} (target : edit.target? kind = some index)
    (rest : List SlotEdit) (entries : List (Option Element)) :
    applyAll kind rest (entries.set index edit.value) = applyAll kind (edit :: rest) entries := by
  refine List.ext_getElem? fun j => ?_
  rw [applyAll, applyAll, List.getElem?_mapIdx, List.getElem?_mapIdx, last?_cons, target]
  by_cases here : index = j
  · -- the slot just written, where a value from `rest` still goes over the new one
    subst here
    rw [List.getElem?_set_self']
    cases entries[index]? with
    | none => rfl
    | some entry => cases last? kind rest index <;> simp
  · rw [List.getElem?_set_ne here, if_neg fun same => here (Option.some.inj same), Option.or_none]

theorem applyAll_congr {edits others : List SlotEdit}
    (same : ∀ index, last? kind edits index = last? kind others index) (entries : List (Option Element)) :
    applyAll kind edits entries = applyAll kind others entries := by
  unfold applyAll
  congr 1
  funext index entry
  rw [same]

/-- Neighbours for different slots may change places. -/
theorem last?_swap {first second : SlotEdit} (apart : first.target? kind ≠ second.target? kind)
    (front rest : List SlotEdit) (index : Nat) :
    last? kind (front ++ first :: second :: rest) index =
      last? kind (front ++ second :: first :: rest) index := by
  have swapped : last? kind (first :: second :: rest) index = last? kind (second :: first :: rest) index := by
    simp only [last?_cons, Option.or_assoc]
    congr 1
    by_cases here : first.target? kind = some index
    · have other : second.target? kind ≠ some index := fun same => apart (here.trans same.symm)
      simp [here, other]
    · simp [here]
  rw [last?_append, last?_append, swapped]

/-- A value counts for nothing when the slot is given another one. -/
theorem last?_overwrite {first second : SlotEdit} (same : first.target? kind = second.target? kind)
    (front rest : List SlotEdit) (index : Nat) :
    last? kind (front ++ first :: second :: rest) index = last? kind (front ++ second :: rest) index := by
  have covered : last? kind (first :: second :: rest) index = last? kind (second :: rest) index := by
    simp only [last?_cons, Option.or_assoc, same]
    congr 1
    by_cases here : second.target? kind = some index
    · simp [here]
    · simp [here]
  rw [last?_append, last?_append, covered]

theorem exists_first_misfit {edits : List SlotEdit} (misfits : ¬ ∀ edit ∈ edits, edit.Fits kind) :
    ∃ front edit rest, edits = front ++ edit :: rest ∧ (∀ before ∈ front, before.Fits kind) ∧
      ¬ edit.Fits kind := by
  induction edits with
  | nil => simp at misfits
  | cons first later ih =>
    by_cases fits : first.Fits kind
    · rw [List.forall_mem_cons, not_and] at misfits
      obtain ⟨front, edit, rest, rfl, fitsFront, misfit⟩ := ih (misfits fits)
      exact ⟨first :: front, edit, rest, rfl, List.forall_mem_cons.mpr ⟨fits, fitsFront⟩, misfit⟩
    · exact ⟨[], first, later, rfl, by simp, fits⟩

end SlotEdit

namespace Node

variable {n : Node} {edit : SlotEdit}

theorem run_withChildren_cons (rest : List SlotEdit) (serial : Nat) :
    n.withChildren (edit :: rest) serial =
      (n.withChild edit.name edit.value serial).bind fun made => made.1.withChildren rest made.2 := by
  rfl

theorem run_withChildren_append (front rest : List SlotEdit) (serial : Nat) :
    n.withChildren (front ++ rest) serial =
      (n.withChildren front serial).bind fun made => made.1.withChildren rest made.2 := by
  unfold withChildren
  rw [List.foldlM_append]
  rfl

/-- An edit that fits changes one entry and keeps the node sound. -/
theorem withChild_of_fits (sound : n.Sound) (fits : edit.Fits n.kind) (serial : Nat) :
    ∃ m index, n.withChild edit.name edit.value serial = .ok (m, serial + 1) ∧
      edit.target? n.kind = some index ∧ m.kind = n.kind ∧ m.children = n.children.set index edit.value ∧
      m.Sound := by
  obtain ⟨index, target, valid⟩ := fits
  have accepted : catalogue.Accepts n.kind ((n.children.set index edit.value).map Supplied.ofEntry) := by
    rw [List.map_set]
    exact sound.accepted.set valid
  refine ⟨.mk serial n.kind (n.children.set index edit.value) _, index, ?_, target, rfl, rfl, sound_mk accepted⟩
  exact withChild_ok_iff.mpr ⟨index, target, withChildAt_ok_iff.mpr ⟨valid, rfl, rfl⟩⟩

/-- An edit that does not fit is refused as the whole node would be. -/
theorem withChild_of_not_fits (sound : n.Sound) (misfit : ¬ edit.Fits n.kind) (serial : Nat) :
    ∃ violation, n.withChild edit.name edit.value serial = .error violation ∧ n.Refuses edit violation := by
  unfold withChild slotIndex
  cases target : catalogue.slotIndex? n.kind edit.name with
  | none => exact ⟨_, rfl, .unknown target⟩
  | some index =>
    cases checked : catalogue.validateSlot n.kind index (.ofEntry edit.value) with
    | ok _ => exact absurd ⟨index, target, checked⟩ misfit
    | error violation =>
      refine ⟨violation, ?_, .misfit index violation target fun other => ?_⟩
      · change n.withChildAt index edit.value serial = .error violation
        rw [run_withChildAt, checked]
        rfl
      · rw [run_ofChildren, List.map_set, sound.accepted.validate_set (Schema.slotIndex?_lt target), checked]
        rfl

/-- Edits that all fit succeed, and leave the last values in their slots. -/
theorem withChildren_of_fits {edits : List SlotEdit} (sound : n.Sound)
    (fits : ∀ edit ∈ edits, edit.Fits n.kind) (serial : Nat) :
    ∃ final, n.withChildren edits serial = .ok (final, serial + edits.length) ∧ final.kind = n.kind ∧
      final.children = SlotEdit.applyAll n.kind edits n.children ∧ final.Sound := by
  induction edits generalizing n serial with
  | nil => exact ⟨n, rfl, rfl, (SlotEdit.applyAll_nil n.children).symm, sound⟩
  | cons edit rest ih =>
    obtain ⟨m, index, edited, target, kind, children, soundM⟩ :=
      withChild_of_fits sound (fits edit List.mem_cons_self) serial
    have fitsRest : ∀ later ∈ rest, later.Fits m.kind := by
      intro later member
      rw [kind]
      exact fits later (List.mem_cons_of_mem _ member)
    obtain ⟨final, ran, finalKind, finalChildren, soundFinal⟩ := ih soundM fitsRest (serial + 1)
    refine ⟨final, ?_, finalKind.trans kind, ?_, soundFinal⟩
    · rw [run_withChildren_cons, edited]
      change m.withChildren rest (serial + 1) = _
      rw [ran, List.length_cons, Nat.add_assoc, Nat.add_comm 1]
    · rw [finalChildren, kind, children, SlotEdit.applyAll_set target]

/-- Edits stop at the first one that does not fit. -/
theorem withChildren_of_not_fits {front : List SlotEdit} (sound : n.Sound)
    (fits : ∀ before ∈ front, before.Fits n.kind) (misfit : ¬ edit.Fits n.kind) (rest : List SlotEdit)
    (serial : Nat) :
    ∃ current next violation, n.withChildren front serial = .ok (current, next) ∧
      n.withChildren (front ++ edit :: rest) serial = .error violation ∧ current.Refuses edit violation := by
  obtain ⟨current, ran, kind, _, soundCurrent⟩ := withChildren_of_fits sound fits serial
  rw [← kind] at misfit
  obtain ⟨violation, refused, reason⟩ := withChild_of_not_fits soundCurrent misfit (serial + front.length)
  refine ⟨current, _, violation, ran, ?_, reason⟩
  rw [run_withChildren_append, ran]
  change current.withChildren (edit :: rest) (serial + front.length) = _
  rw [run_withChildren_cons, refused]
  rfl

/-- Only the last value for each slot counts. -/
theorem sameOutcome_of_last? {edits others : List SlotEdit} (sound : n.Sound)
    (fits : ∀ edit ∈ edits, edit.Fits n.kind) (fitsOthers : ∀ edit ∈ others, edit.Fits n.kind)
    (same : ∀ index, SlotEdit.last? n.kind edits index = SlotEdit.last? n.kind others index) :
    n.SameOutcome edits others := by
  intro serial serial'
  obtain ⟨a, ranA, kindA, childrenA, soundA⟩ := withChildren_of_fits sound fits serial
  obtain ⟨b, ranB, kindB, childrenB, soundB⟩ := withChildren_of_fits sound fitsOthers serial'
  have children : a.children = b.children := by
    rw [childrenA, childrenB, SlotEdit.applyAll_congr same]
  have length : a.textLen = b.textLen := by
    rw [soundA.length, soundB.length, elements, elements, children]
  exact ⟨a, b, _, _, ranA, ranB, children, beq_of_children_eq (kindA.trans kindB.symm) length children⟩

/-- Edits succeed exactly when each one fits by itself, whatever stands in the other slots. -/
theorem withChildren_ok_iff {edits : List SlotEdit} (sound : n.Sound) (serial : Nat) :
    (∃ final next, n.withChildren edits serial = .ok (final, next)) ↔ ∀ edit ∈ edits, edit.Fits n.kind := by
  constructor
  · rintro ⟨final, next, ran⟩
    by_contra some_misfit
    obtain ⟨front, edit, rest, rfl, fits, misfit⟩ := SlotEdit.exists_first_misfit some_misfit
    obtain ⟨_, _, violation, _, refused, _⟩ := withChildren_of_not_fits sound fits misfit rest serial
    cases refused.symm.trans ran
  · intro fits
    obtain ⟨final, ran, _⟩ := withChildren_of_fits sound fits serial
    exact ⟨final, _, ran⟩

theorem childAt?_applyAll {final : Node} {edits : List SlotEdit}
    (children : final.children = SlotEdit.applyAll n.kind edits n.children) {index : Nat}
    (inside : index < n.size) :
    final.childAt? index = (SlotEdit.last? n.kind edits index).getD (n.childAt? index) := by
  unfold childAt?
  rw [children, SlotEdit.applyAll, List.getElem?_mapIdx, List.getElem?_eq_getElem inside]
  rfl

/-- A sound node is built anew over its children, and equals what is built. -/
theorem Sound.rebuilt (sound : n.Sound) (serial : Nat) :
    ∃ m, ofChildren n.kind n.children serial = .ok (m, serial + 1) ∧ (n == m) = true := by
  refine ⟨_, ofChildren_ok_iff.mpr ⟨sound.valid, rfl, rfl⟩, beq_of_children_eq rfl ?_ rfl⟩
  rw [sound.length, textLen_mk, totalLen_eq_sum]
  rfl

end Node

/-- Two edits of the element of an array, under its former and its current name. -/
def Sample.edits : List SlotEdit :=
  [⟨"elementType", some (.node Sample.root)⟩, ⟨"element", some (.node Sample.element)⟩]

end LosslessSyntax
