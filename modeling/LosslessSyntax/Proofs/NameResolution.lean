import Mathlib.Data.List.Nodup
import LosslessSyntax.Schema.Catalogue
import LosslessSyntax.Schema.Defect
import LosslessSyntax.Proofs.Acceptance

/-!
# Slots by name

How names stand for slots, and what the check for names in use twice is worth. The main statement is
`resolution_exact`: a kind for which no such name is reported has each of its slots under each of its names
and under no other. In any case a slot that has the name now goes before one that had it. The two maps of
`NameTable` and the search for the last slot find the same.
-/

namespace LosslessSyntax

theorem SyntaxKind.mem_all (kind : SyntaxKind) : kind ∈ all := by
  cases kind <;> decide

namespace Slot

theorem mem_names_iff {slot : Slot} {name : String} : name ∈ slot.names ↔ slot.answersTo name := by
  unfold names answersTo
  rw [List.mem_cons, Option.mem_toList, Bool.or_eq_true, decide_eq_true_iff, decide_eq_true_iff, eq_comm]

/-- No name, current or former, is in use twice. -/
def NamesDistinct (slots : List Slot) : Prop := (slots.flatMap names).Nodup

theorem namesDistinct_cons {slot : Slot} {rest : List Slot} : NamesDistinct (slot :: rest) ↔
    slot.names.Nodup ∧ NamesDistinct rest ∧ ∀ name ∈ rest.flatMap names, name ∉ slot.names := by
  unfold NamesDistinct
  rw [List.flatMap_cons, List.nodup_append', List.disjoint_right]

/-- Under distinct names, one slot at most answers. -/
theorem NamesDistinct.index_eq {slots : List Slot} (distinct : NamesDistinct slots) {i j : Nat} {a b : Slot}
    (aAt : slots[i]? = some a) (bAt : slots[j]? = some b) {name : String} (aNamed : a.answersTo name)
    (bNamed : b.answersTo name) : i = j := by
  have apart := List.pairwise_iff_getElem.mp (List.nodup_flatMap.mp distinct).2
  obtain ⟨iInside, rfl⟩ := List.getElem?_eq_some_iff.mp aAt
  obtain ⟨jInside, rfl⟩ := List.getElem?_eq_some_iff.mp bAt
  rcases Nat.lt_trichotomy i j with lt | same | gt
  · exact absurd (mem_names_iff.mpr bNamed) (apart i j iInside jInside lt (mem_names_iff.mpr aNamed))
  · exact same
  · exact absurd (mem_names_iff.mpr aNamed) (apart j i jInside iInside gt (mem_names_iff.mpr bNamed))

end Slot

namespace Schema

section Last

variable {p : Slot → Bool} {start index : Nat} {slots : List Slot}

theorem lastIndex?_eq_none_iff : lastIndex? p start slots = none ↔ ∀ slot ∈ slots, ¬p slot := by
  induction slots generalizing start with
  | nil => simp [lastIndex?]
  | cons slot rest ih =>
    rw [List.forall_mem_cons, ← @ih (start + 1), lastIndex?]
    cases lastIndex? p (start + 1) rest with
    | some later => simp
    | none => simp

theorem exists_of_lastIndex? (found : lastIndex? p start slots = some index) :
    ∃ i slot, index = start + i ∧ slots[i]? = some slot ∧ p slot := by
  induction slots generalizing start with
  | nil => cases found
  | cons slot rest ih =>
    rw [lastIndex?] at found
    cases later : lastIndex? p (start + 1) rest with
    | some last =>
      rw [later] at found
      cases found
      obtain ⟨i, owner, position, ownerAt, passes⟩ := ih later
      exact ⟨i + 1, owner, by omega, ownerAt, passes⟩
    | none =>
      rw [later] at found
      obtain ⟨passes, position⟩ := Option.ite_none_right_eq_some.mp found
      exact ⟨0, slot, by simpa using position.symm, rfl, passes⟩

end Last

variable {schema : Schema} {kind : SyntaxKind} {name : String} {index : Nat}

/-- The search for a name starts over with former names when no current name matches. -/
theorem slotIndex?_eq_or (schema : Schema) (kind : SyntaxKind) (name : String) :
    schema.slotIndex? kind name =
      (lastIndex? (·.name = name) 0 (schema.slots kind)).or
        (lastIndex? (·.formerName = some name) 0 (schema.slots kind)) := by
  unfold slotIndex?
  cases lastIndex? (·.name = name) 0 (schema.slots kind) <;> rfl

theorem slotIndex?_eq_none_iff :
    schema.slotIndex? kind name = none ↔ ∀ slot ∈ schema.slots kind, ¬slot.answersTo name := by
  rw [slotIndex?_eq_or, Option.or_eq_none_iff, lastIndex?_eq_none_iff, lastIndex?_eq_none_iff]
  constructor
  · rintro ⟨current, former⟩ slot member named
    rcases Bool.or_eq_true_iff.mp named with now | before
    · exact current slot member now
    · exact former slot member before
  · intro unnamed
    refine ⟨fun slot member now => unnamed slot member ?_, fun slot member before => unnamed slot member ?_⟩
    · exact Bool.or_eq_true_iff.mpr (.inl now)
    · exact Bool.or_eq_true_iff.mpr (.inr before)

/-- A name stands for a slot that answers to it. -/
theorem answersTo_of_slotIndex? (found : schema.slotIndex? kind name = some index) :
    ∃ slot, (schema.slots kind)[index]? = some slot ∧ slot.answersTo name := by
  rw [slotIndex?_eq_or, Option.or_eq_some_iff] at found
  rcases found with current | ⟨_, former⟩
  · obtain ⟨i, slot, rfl, slotAt, named⟩ := exists_of_lastIndex? current
    exact ⟨slot, by simpa using slotAt, by simp [Slot.answersTo, of_decide_eq_true named]⟩
  · obtain ⟨i, slot, rfl, slotAt, named⟩ := exists_of_lastIndex? former
    exact ⟨slot, by simpa using slotAt, by simp [Slot.answersTo, of_decide_eq_true named]⟩

/-- A current name stands for a slot that has it now. -/
theorem exists_slotIndex?_of_current {slot : Slot} (member : slot ∈ schema.slots kind) :
    ∃ index owner, schema.slotIndex? kind slot.name = some index ∧
      (schema.slots kind)[index]? = some owner ∧ owner.name = slot.name := by
  rw [slotIndex?_eq_or]
  cases found : lastIndex? (·.name = slot.name) 0 (schema.slots kind) with
  | none =>
    have other := lastIndex?_eq_none_iff.mp found slot member
    simp at other
  | some index =>
    obtain ⟨i, owner, rfl, ownerAt, named⟩ := exists_of_lastIndex? found
    exact ⟨0 + i, owner, rfl, by simpa using ownerAt, of_decide_eq_true named⟩

/-- Under distinct names, a name stands for the slot that answers to it. -/
theorem slotIndex?_eq_some_iff (distinct : Slot.NamesDistinct (schema.slots kind)) :
    schema.slotIndex? kind name = some index ↔
      ∃ slot, (schema.slots kind)[index]? = some slot ∧ slot.answersTo name := by
  constructor
  · exact answersTo_of_slotIndex?
  · rintro ⟨slot, slotAt, named⟩
    cases found : schema.slotIndex? kind name with
    | none => exact absurd named (slotIndex?_eq_none_iff.mp found slot (List.mem_of_getElem? slotAt))
    | some other =>
      obtain ⟨owner, ownerAt, ownerNamed⟩ := answersTo_of_slotIndex? found
      rw [distinct.index_eq ownerAt slotAt ownerNamed named]

end Schema

namespace NameTable

variable (table : NameTable) (start : Nat) (slots : List Slot) (name : String)

theorem getElem?_current_insertAll : (table.insertAll start slots).current[name]? =
    (Schema.lastIndex? (·.name = name) start slots).or table.current[name]? := by
  induction slots generalizing table start with
  | nil => rfl
  | cons slot rest ih =>
    rw [insertAll, ih, insert, Std.HashMap.getElem?_insert, Schema.lastIndex?]
    cases Schema.lastIndex? (·.name = name) (start + 1) rest with
    | some later => rfl
    | none => by_cases same : slot.name = name <;> simp [same]

theorem getElem?_former_insertAll : (table.insertAll start slots).former[name]? =
    (Schema.lastIndex? (·.formerName = some name) start slots).or table.former[name]? := by
  induction slots generalizing table start with
  | nil => rfl
  | cons slot rest ih =>
    rw [insertAll, ih, insert, Schema.lastIndex?]
    cases Schema.lastIndex? (·.formerName = some name) (start + 1) rest with
    | some later => rfl
    | none =>
      cases former : slot.formerName with
      | none => simp
      | some old => by_cases same : old = name <;> simp [Std.HashMap.getElem?_insert, same]

end NameTable

/-- The maps find what the search for the last slot finds. -/
theorem Schema.find?_nameTable (schema : Schema) (kind : SyntaxKind) (name : String) :
    (schema.nameTable kind).find? name = schema.slotIndex? kind name := by
  rw [slotIndex?_eq_or, nameTable, NameTable.ofSlots, NameTable.find?,
    NameTable.getElem?_current_insertAll, NameTable.getElem?_former_insertAll]
  cases lastIndex? (·.name = name) 0 (schema.slots kind) with
  | some index => rfl
  | none => simp

namespace Schema

variable {schema : Schema} {kind : SyntaxKind}

theorem repeated_eq_nil_iff {seen names : List String} :
    repeated seen names = [] ↔ names.Nodup ∧ ∀ name ∈ names, name ∉ seen := by
  induction names generalizing seen with
  | nil => simp [repeated]
  | cons first rest ih =>
    rw [repeated, List.nodup_cons, List.forall_mem_cons]
    by_cases known : first ∈ seen
    · simp [known]
    · rw [if_neg known, ih]
      constructor
      · rintro ⟨distinct, fresh⟩
        refine ⟨⟨fun again => ?_, distinct⟩, known, fun name member old => ?_⟩
        · exact fresh first again List.mem_cons_self
        · exact fresh name member (List.mem_cons_of_mem _ old)
      · rintro ⟨⟨once, distinct⟩, _, fresh⟩
        refine ⟨distinct, fun name member old => ?_⟩
        rcases List.mem_cons.mp old with rfl | old
        · exact once member
        · exact fresh name member old

/-- Only the names of slots are reported as in use twice. -/
theorem duplicate_not_mem_constraintDefects {slot : Slot} {other : SyntaxKind} {name : String} :
    .duplicateSlotName other name ∉ schema.constraintDefects kind slot := by
  unfold constraintDefects
  split
  · split <;> simp
  · simp
  · simp

theorem duplicate_not_mem_traitDefects {other : SyntaxKind} {name : String} :
    .duplicateSlotName other name ∉ schema.traitDefects kind := by
  simp [traitDefects]

theorem duplicate_not_mem_elementDefects {elements : List SyntaxKind} {other : SyntaxKind} {name : String} :
    .duplicateSlotName other name ∉ schema.elementDefects kind elements := by
  unfold elementDefects
  split <;> simp

theorem duplicate_mem_slotDefects_cons {seen : List String} {slot : Slot} {rest : List Slot}
    {other : SyntaxKind} {name : String} :
    .duplicateSlotName other name ∈ schema.slotDefects kind seen (slot :: rest) ↔
      (other = kind ∧ name ∈ repeated seen slot.names) ∨
        .duplicateSlotName other name ∈ schema.slotDefects kind (slot.names ++ seen) rest := by
  rw [slotDefects, List.mem_append, List.mem_append, or_iff_left duplicate_not_mem_constraintDefects,
    List.mem_map]
  simp [and_comm, eq_comm]

/-- What is reported of slots is reported of their kind. -/
theorem kind_of_duplicate {seen : List String} {slots : List Slot} {other : SyntaxKind} {name : String}
    (reported : .duplicateSlotName other name ∈ schema.slotDefects kind seen slots) : other = kind := by
  induction slots generalizing seen with
  | nil => cases reported
  | cons slot rest ih =>
    rcases duplicate_mem_slotDefects_cons.mp reported with ⟨same, _⟩ | later
    · exact same
    · exact ih later

/-- Slots pass the check when their names are distinct and are none of those seen before. -/
theorem no_duplicate_slotDefects_iff {seen : List String} {slots : List Slot} :
    (∀ name, .duplicateSlotName kind name ∉ schema.slotDefects kind seen slots) ↔
      Slot.NamesDistinct slots ∧ ∀ name ∈ slots.flatMap Slot.names, name ∉ seen := by
  induction slots generalizing seen with
  | nil => simp [slotDefects, Slot.NamesDistinct]
  | cons slot rest ih =>
    -- The names of a slot are checked against those seen, and the rest against both.
    have split : (∀ name, .duplicateSlotName kind name ∉ schema.slotDefects kind seen (slot :: rest)) ↔
        repeated seen slot.names = [] ∧
          ∀ name, .duplicateSlotName kind name ∉ schema.slotDefects kind (slot.names ++ seen) rest := by
      rw [List.eq_nil_iff_forall_not_mem, ← forall_and]
      simp [duplicate_mem_slotDefects_cons]
    rw [split, ih, repeated_eq_nil_iff, Slot.namesDistinct_cons, List.flatMap_cons, List.forall_mem_append]
    simp only [List.mem_append, not_or]
    constructor
    · rintro ⟨⟨own, fresh⟩, others, apart⟩
      exact ⟨⟨own, others, fun name member => (apart name member).1⟩, fresh, fun name member => (apart name member).2⟩
    · rintro ⟨⟨own, others, apart⟩, fresh, freshOthers⟩
      exact ⟨⟨own, fresh⟩, others, fun name member => ⟨apart name member, freshOthers name member⟩⟩

/-- Names in use twice are only reported of layouts. -/
theorem duplicate_mem_entryDefects_iff {place other : SyntaxKind} {name : String} :
    .duplicateSlotName other name ∈ schema.entryDefects place ↔
      (schema.entry place).isCollection = false ∧ .duplicateSlotName other name ∈
        schema.slotDefects (schema.entry place).kind [] (schema.slots (schema.entry place).kind) := by
  have placed : .duplicateSlotName other name ∉ if (schema.entry place).kind = place then []
      else [Defect.outOfOrder place.code (schema.entry place).kind] := by
    split <;> simp
  have based : .duplicateSlotName other name ∉
      if (schema.entry place).isCollection = ((schema.entry place).base = .collection : Bool) then []
        else [Defect.baseMismatch (schema.entry place).kind] := by
    split <;> simp
  rw [entryDefects, List.mem_append, List.mem_append, or_iff_right placed, or_iff_right based]
  cases shape : (schema.entry place).shape with
  | layout slots => simp [Entry.isCollection, shape, duplicate_not_mem_traitDefects]
  | collection elements => simp [Entry.isCollection, shape, duplicate_not_mem_elementDefects]

/-- No name of a layout is reported exactly when its names are distinct. -/
theorem no_duplicate_defects_iff (ordered : ∀ place, (schema.entry place).kind = place) {slots : List Slot}
    (shape : (schema.entry kind).shape = .layout slots) :
    (∀ name, .duplicateSlotName kind name ∉ schema.defects) ↔ Slot.NamesDistinct slots := by
  have own : ∀ name, .duplicateSlotName kind name ∈ schema.defects ↔
      .duplicateSlotName kind name ∈ schema.slotDefects kind [] slots := by
    intro name
    rw [defects, List.mem_flatMap]
    simp only [duplicate_mem_entryDefects_iff, ordered]
    constructor
    · rintro ⟨place, _, _, reported⟩
      cases kind_of_duplicate reported
      rwa [slots_of_layout shape] at reported
    · intro reported
      refine ⟨kind, kind.mem_all, isCollection_of_layout shape, ?_⟩
      rwa [slots_of_layout shape]
  simp only [own, no_duplicate_slotDefects_iff]
  simp

/-- Of a layout whose entry is in place, no name is reported as in use twice exactly when its names, current
and former, are distinct. Then a name stands for a slot exactly when the slot answers to it, one slot at most
does, and each slot is found under its current and its former name. Whether or not names are distinct, a
current name stands for a slot that has it now. The names of a collection stand for nothing. All this is what
two maps filled slot by slot find as well. -/
theorem resolution_exact {schema : Schema} (ordered : ∀ place, (schema.entry place).kind = place) :
    (∀ kind slots, (schema.entry kind).shape = .layout slots →
      ((∀ name, .duplicateSlotName kind name ∉ schema.defects) ↔ Slot.NamesDistinct slots) ∧
      (Slot.NamesDistinct slots →
        (∀ name index, schema.slotIndex? kind name = some index ↔
          ∃ slot, slots[index]? = some slot ∧ slot.answersTo name) ∧
        (∀ (name : String) (i j : Nat) (a b : Slot), slots[i]? = some a → slots[j]? = some b →
          a.answersTo name → b.answersTo name → i = j) ∧
        ∀ (index : Nat) (slot : Slot), slots[index]? = some slot →
          schema.slotIndex? kind slot.name = some index ∧
            ∀ former, slot.formerName = some former → schema.slotIndex? kind former = some index) ∧
      ∀ slot ∈ slots, ∃ index owner, schema.slotIndex? kind slot.name = some index ∧
        slots[index]? = some owner ∧ owner.name = slot.name) ∧
    (∀ kind elements, (schema.entry kind).shape = .collection elements →
      ∀ name, schema.slotIndex? kind name = none) ∧
    ∀ kind name, (schema.nameTable kind).find? name = schema.slotIndex? kind name := by
  refine ⟨?layout, ?collection, find?_nameTable schema⟩
  case layout =>
    intro kind slots shape
    refine ⟨no_duplicate_defects_iff ordered shape, ?_, ?_⟩
    · intro distinct
      have resolves : ∀ name index, schema.slotIndex? kind name = some index ↔
          ∃ slot, slots[index]? = some slot ∧ slot.answersTo name := by
        intro name index
        rw [← slots_of_layout shape] at distinct ⊢
        exact slotIndex?_eq_some_iff distinct
      refine ⟨resolves, fun name i j a b aAt bAt aNamed bNamed => distinct.index_eq aAt bAt aNamed bNamed, ?_⟩
      intro index slot slotAt
      refine ⟨(resolves _ _).mpr ⟨slot, slotAt, by simp [Slot.answersTo]⟩, ?_⟩
      intro former renamed
      exact (resolves _ _).mpr ⟨slot, slotAt, by simp [Slot.answersTo, renamed]⟩
    · intro slot member
      rw [← slots_of_layout shape] at member ⊢
      exact exists_slotIndex?_of_current member
  case collection =>
    intro kind elements shape name
    rw [slotIndex?_eq_none_iff, slots_of_collection shape]
    simp

theorem catalogue_defects : catalogue.defects = [] := by
  decide

/-- The parameters of a function type are found under both of their names, and its names are distinct. -/
theorem resolution_exact_functionType :
    (∀ place, (catalogue.entry place).kind = place) ∧
      Slot.NamesDistinct (catalogue.slots .functionType) ∧
      catalogue.slotIndex? .functionType "parameters" = some 1 ∧
      catalogue.slotIndex? .functionType "arguments" = some 1 ∧
      (catalogue.nameTable .functionType).find? "arguments" = some 1 ∧
      catalogue.slotIndex? .tupleTypeElementList "arguments" = none := by
  have ordered : ∀ place, (catalogue.entry place).kind = place := by
    intro place
    cases place <;> rfl
  obtain ⟨layout, collection, maps⟩ := resolution_exact ordered
  obtain ⟨reported, resolves, _⟩ := layout .functionType _ rfl
  have distinct := reported.mp (by simp [catalogue_defects])
  obtain ⟨now, former⟩ := (resolves distinct).2.2 1 _ rfl
  refine ⟨ordered, distinct, now, former _ rfl, ?_, collection .tupleTypeElementList _ rfl _⟩
  exact (maps _ _).trans (former _ rfl)

/-- The second slot has the name that the first one had, and is reported. -/
example : let schema : Schema := ⟨fun kind => .layout kind .node none
      [(Slot.ofConstraint "upper" .anyType).formerly "bound", .ofConstraint "bound" .anyType]⟩
    schema.slotIndex? .optionalType "bound" = some 1 ∧
      .duplicateSlotName .optionalType "bound" ∈ schema.defects := by
  decide

end Schema

end LosslessSyntax
