import LosslessSyntax.Proofs.NameResolution

/-!
# Promises of traits

A kind that declares a trait is to have the slots of the trait, so that they can be read without knowing the
kind. The main statement is `honours_iff_layout`: in a schema without defects a layout keeps the promises of
its traits. A list has no slots to keep them with, and the traits of a list are not checked
(`not_honours_of_clean`).
-/

namespace LosslessSyntax

theorem Trait.mem_all (t : Trait) : t ∈ all := by
  cases t <;> decide

theorem TraitSet.mem_toList {set : TraitSet} {t : Trait} : t ∈ set.toList ↔ set.contains t := by
  simp [toList, t.mem_all]

namespace Schema

/-- The kind has each slot of the trait, under its name, with its constraint and as optional as it is, and
that is where the slot is found through the trait. -/
def Honours (schema : Schema) (kind : SyntaxKind) (t : Trait) : Prop :=
  ∀ wanted ∈ t.slots, ∃ index slot, (schema.slots kind)[index]? = some slot ∧ slot.name = wanted.name ∧
    slot.constraint = wanted.constraint ∧ slot.isOptional = wanted.isOptional ∧
    schema.traitSlotIndex? t kind wanted.name = some index

variable {schema : Schema} {kind : SyntaxKind} {t : Trait}

/-- Under distinct names, a slot that goes by a name of a declared trait is found through the trait. -/
theorem traitSlotIndex?_of_getElem? (distinct : Slot.NamesDistinct (schema.slots kind))
    (declared : schema.hasTrait kind t) {index : Nat} {slot wanted : Slot}
    (slotAt : (schema.slots kind)[index]? = some slot) (member : wanted ∈ t.slots)
    (named : slot.name = wanted.name) : schema.traitSlotIndex? t kind wanted.name = some index := by
  have known : t.slots.any (·.name = wanted.name) := by
    simp only [List.any_eq_true, decide_eq_true_eq]
    exact ⟨wanted, member, rfl⟩
  obtain ⟨inside, here⟩ := List.getElem?_eq_some_iff.mp slotAt
  rw [traitSlotIndex?, if_pos ⟨declared, known⟩, List.findIdx?_eq_some_iff_getElem]
  refine ⟨inside, by simp [here, named], ?_⟩
  intro j before same
  have other : (schema.slots kind)[j]? = some _ := List.getElem?_eq_getElem (Nat.lt_trans before inside)
  have otherNamed : (schema.slots kind)[j].answersTo wanted.name := by
    simp [Slot.answersTo, of_decide_eq_true same]
  exact absurd (distinct.index_eq other slotAt otherNamed (by simp [Slot.answersTo, named])) (by omega)

/-- Nothing is found through a trait that is not declared, or under a name that the trait does not know. -/
theorem traitSlotIndex?_eq_none {name : String}
    (unknown : schema.hasTrait kind t = false ∨ ∀ wanted ∈ t.slots, wanted.name ≠ name) :
    schema.traitSlotIndex? t kind name = none := by
  rw [traitSlotIndex?, if_neg]
  rintro ⟨declared, known⟩
  rcases unknown with undeclared | other
  · rw [undeclared] at declared
    cases declared
  · obtain ⟨wanted, member, named⟩ := List.any_eq_true.mp known
    exact other wanted member (of_decide_eq_true named)

theorem conforms_iff {slot wanted : Slot} : conforms slot wanted ↔ slot.name = wanted.name ∧
    slot.constraint = wanted.constraint ∧ slot.isOptional = wanted.isOptional := by
  simp [conforms, and_assoc]

/-- The check of traits passes when each slot of a declared trait has one of the kind's slots to match. -/
theorem traitDefects_eq_nil_iff : schema.traitDefects kind = [] ↔ ∀ t, schema.hasTrait kind t →
    ∀ wanted ∈ t.slots, ∃ slot ∈ schema.slots kind, conforms slot wanted := by
  simp only [traitDefects, List.flatMap_eq_nil_iff, List.map_eq_nil_iff, List.filter_eq_nil_iff,
    TraitSet.mem_toList, hasTrait, Bool.not_eq_true', Bool.not_eq_false, List.any_eq_true]

section Clean

variable (clean : schema.defects = [])

include clean

theorem entryDefects_of_clean (place : SyntaxKind) : schema.entryDefects place = [] :=
  List.flatMap_eq_nil_iff.mp clean place place.mem_all

theorem ordered_of_clean (place : SyntaxKind) : (schema.entry place).kind = place := by
  have passed := entryDefects_of_clean clean place
  simp only [entryDefects, List.append_eq_nil_iff] at passed
  by_contra moved
  simp [moved] at passed

theorem namesDistinct_of_clean (kind : SyntaxKind) : Slot.NamesDistinct (schema.slots kind) := by
  cases shape : (schema.entry kind).shape with
  | layout slots =>
    rw [slots_of_layout shape]
    exact (no_duplicate_defects_iff (ordered_of_clean clean) shape).mp (by simp [clean])
  | collection elements =>
    rw [slots_of_collection shape]
    exact List.nodup_nil

theorem traitDefects_of_clean {slots : List Slot} (shape : (schema.entry kind).shape = .layout slots) :
    schema.traitDefects kind = [] := by
  have passed := entryDefects_of_clean clean kind
  simp only [entryDefects, shape, List.append_eq_nil_iff] at passed
  rw [← ordered_of_clean clean kind]
  exact passed.2.2

end Clean

/-- A layout of a schema without defects keeps its promises: the slot that was checked is the only one of
its name, so it is the one that is found. -/
theorem honours_of_layout (clean : schema.defects = []) (declared : schema.hasTrait kind t)
    {slots : List Slot} (shape : (schema.entry kind).shape = .layout slots) : schema.Honours kind t := by
  intro wanted member
  have checked := traitDefects_eq_nil_iff.mp (traitDefects_of_clean clean shape)
  obtain ⟨slot, within, conforming⟩ := checked t declared wanted member
  obtain ⟨named, constraint, isOptional⟩ := conforms_iff.mp conforming
  obtain ⟨index, slotAt⟩ := List.mem_iff_getElem?.mp within
  exact ⟨index, slot, slotAt, named, constraint, isOptional,
    traitSlotIndex?_of_getElem? (namesDistinct_of_clean clean kind) declared slotAt member named⟩

/-- A list keeps no promise, since each trait asks for some slot. -/
theorem not_honours_of_collection {elements : List SyntaxKind}
    (shape : (schema.entry kind).shape = .collection elements) : ¬schema.Honours kind t := by
  intro honours
  obtain ⟨wanted, member⟩ : ∃ wanted, wanted ∈ t.slots := by
    cases t with
    | withAttributes => exact ⟨_, List.mem_cons_self⟩
    | parenthesized => exact ⟨_, List.mem_cons_self⟩
    | withTrailingComma => exact ⟨_, List.mem_cons_self⟩
  obtain ⟨index, slot, slotAt, _⟩ := honours wanted member
  simp [slots_of_collection shape] at slotAt

/-- In a schema without defects, a kind keeps the promises of a trait that it declares exactly when it is a
layout. -/
theorem honours_iff_layout {schema : Schema} (clean : schema.defects = []) {kind : SyntaxKind} {t : Trait}
    (declared : schema.hasTrait kind t) : schema.Honours kind t ↔ schema.isCollection kind = false := by
  cases shape : (schema.entry kind).shape with
  | layout slots =>
    exact iff_of_true (honours_of_layout clean declared shape) (isCollection_of_layout shape)
  | collection elements =>
    refine iff_of_false (not_honours_of_collection shape) ?_
    simp [isCollection_of_collection shape]

/-- Function types have the parentheses that they declare. -/
theorem honours_iff_layout_functionType :
    catalogue.defects = [] ∧ catalogue.hasTrait .functionType .parenthesized ∧
      catalogue.Honours .functionType .parenthesized :=
  ⟨catalogue_defects, rfl, (honours_iff_layout catalogue_defects rfl).mpr rfl⟩

/-- The catalogue, with lists of attributes declared to be in parentheses. -/
def parenthesizedLists : Schema where
  entry
    | .attributeList => (catalogue.entry .attributeList).declaring [.parenthesized]
    | kind => catalogue.entry kind

/-- The traits of a list go unchecked, so that a schema without defects can break the promise of one. -/
theorem not_honours_of_clean : ¬∀ schema : Schema, schema.defects = [] →
    ∀ kind t, schema.hasTrait kind t → schema.Honours kind t := by
  intro all
  have clean : parenthesizedLists.defects = [] := by decide
  obtain ⟨index, slot, slotAt, _⟩ := all parenthesizedLists clean .attributeList .parenthesized rfl _
    List.mem_cons_self
  cases slotAt

end Schema

end LosslessSyntax
