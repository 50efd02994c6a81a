import LosslessSyntax.Proofs.Drafting
import LosslessSyntax.Proofs.FirstMisfit
import LosslessSyntax.Proofs.NameResolution

/-!
# What violations say

A violation is about what a caller asked for: so many entries in a node of some kind, values at positions
and values under names. The main statement is `violations_truthful`: whichever call or read is refused, the
violation speaks of that kind, points at something the caller asked for, quotes the catalogue, and what it
says was found there is indeed not what the catalogue wants.
-/

namespace LosslessSyntax

/-- The edits that fill a draft with values. -/
def SlotEdit.ofValues (values : List (String × Option Element)) : List SlotEdit :=
  values.map fun value => ⟨value.1, value.2⟩

/-- What an expectation lets stand. -/
inductive Expected.Admits (schema : Schema) : Expected → Supplied → Prop
  | absent (constraint : Constraint) : Admits schema (.slot constraint true) .absent
  | taken {constraint : Constraint} {child : Supplied} (isOptional : Bool)
    (taken : schema.Takes constraint child) : Admits schema (.slot constraint isOptional) child
  | offered {choices : List SyntaxKind} {kind : SyntaxKind} (offered : kind ∈ choices) :
    Admits schema (.element choices) (.node kind)

/-- What a caller asks for. -/
structure Demand where
  kind : SyntaxKind
  /-- How many entries the node is to have. -/
  size : Nat
  /-- What is to stand at a position, open slots being filled already. -/
  puts : Nat → Option Element → Prop
  /-- The names given, each with what was to go there. -/
  names : String → Option Element → Prop

namespace Demand

/-- A node over these entries. -/
def ofEntries (kind : SyntaxKind) (entries : List (Option Element)) : Demand where
  kind := kind
  size := entries.length
  puts index entry := entries[index]? = some entry
  names _ _ := False

/-- The child under a name. -/
def ofRead (n : Node) (name : String) : Demand where
  kind := n.kind
  size := n.size
  puts _ _ := False
  names given value := given = name ∧ value = none

end Demand

namespace Call

/-- The node that is edited. -/
def receiver? : Call → Option Node
  | ofChildren _ _ | ofElements _ _ | ofDraft _ _ => none
  | withChild n _ _ | withChildAt n _ _ | withAppended n _ | withRemoved n _ | withElements n _ => some n

/-- What the call asks for. Of a draft, each slot is to hold the last value given to it, or else the empty
collection it wants. -/
def demand : Call → Demand
  | ofChildren kind children => .ofEntries kind children
  | ofElements kind elements => .ofEntries kind (elements.map some)
  | ofDraft kind values =>
    { kind := kind
      size := (catalogue.slots kind).length
      puts := fun index entry => ∃ slot, (catalogue.slots kind)[index]? = some slot ∧
        Draft.Settles slot (SlotEdit.final? kind (SlotEdit.ofValues values) index) entry
      names := fun name value => (name, value) ∈ values }
  | withChild n name value =>
    { kind := n.kind
      size := n.size
      puts := fun index entry => catalogue.slotIndex? n.kind name = some index ∧ entry = value
      names := fun given entry => given = name ∧ entry = value }
  | withChildAt n index value =>
    { kind := n.kind
      size := n.size
      puts := fun position entry => position = index ∧ entry = value
      names := fun _ _ => False }
  | withAppended n element =>
    { kind := n.kind
      size := n.size + 1
      puts := fun index entry => index = n.size ∧ entry = some element
      names := fun _ _ => False }
  | withRemoved n _ =>
    { kind := n.kind
      size := n.size - 1
      puts := fun _ _ => False
      names := fun _ _ => False }
  | withElements n elements => .ofEntries n.kind (elements.map some)

end Call

/-- A violation that is right about a demand. -/
inductive Violation.Truthful (demand : Demand) : Violation → Prop
  | slot {index : Nat} {slot : Slot} {entry : Option Element}
    (slotAt : (catalogue.slots demand.kind)[index]? = some slot) (put : demand.puts index entry)
    (misfit : ¬(Expected.slot slot.constraint slot.isOptional).Admits catalogue (.ofEntry entry)) :
    Truthful demand ⟨demand.kind, .slot index slot.name, .slot slot.constraint slot.isOptional,
      .supplied (.ofEntry entry)⟩
  | element {index : Nat} {entry : Option Element} (put : demand.puts index entry)
    (misfit : ¬(Expected.element (catalogue.elements demand.kind)).Admits catalogue (.ofEntry entry)) :
    Truthful demand ⟨demand.kind, .element index, .element (catalogue.elements demand.kind),
      .supplied (.ofEntry entry)⟩
  /-- A wrong number of entries. -/
  | count (differs : demand.size ≠ (catalogue.slots demand.kind).length) :
    Truthful demand ⟨demand.kind, .arity, .childCount (catalogue.slots demand.kind).length,
      .childCount demand.size⟩
  /-- A position behind the last slot. -/
  | position {index : Nat} {entry : Option Element} (put : demand.puts index entry)
    (outside : (catalogue.slots demand.kind).length ≤ index) :
    Truthful demand ⟨demand.kind, .arity, .childCount (catalogue.slots demand.kind).length,
      .slotIndex index⟩
  | unknownSlot {name : String} {value : Option Element} (given : demand.names name value)
    (unknown : ∀ slot ∈ catalogue.slots demand.kind, ¬slot.answersTo name) :
    Truthful demand (.unknownSlot demand.kind name (.ofEntry value))

section Checks

variable {demand : Demand} {violation : Violation} {index : Nat} {entry : Option Element}

/-- What does not fit a slot is not what the slot is said to want. -/
theorem not_admits_slot {slot : Slot} {child : Supplied} (misfit : ¬catalogue.fits slot child) :
    ¬(Expected.slot slot.constraint slot.isOptional).Admits catalogue child := by
  intro admits
  apply misfit
  rw [Schema.fits_iff]
  generalize optional : slot.isOptional = isOptional at admits
  cases admits with
  | absent => exact .absent optional
  | taken _ taken => exact .present taken

theorem truthful_of_validateSlot (put : demand.puts index entry)
    (refused : catalogue.validateSlot demand.kind index (.ofEntry entry) = .error violation) :
    violation.Truthful demand := by
  unfold Schema.validateSlot at refused
  cases slotAt : (catalogue.slots demand.kind)[index]? with
  | none =>
    rw [slotAt] at refused
    cases refused
    exact .position put (List.getElem?_eq_none_iff.mp slotAt)
  | some slot =>
    simp only [slotAt] at refused
    by_cases fit : catalogue.fits slot (.ofEntry entry)
    · rw [if_pos fit] at refused
      cases refused
    · rw [if_neg fit] at refused
      cases refused
      exact .slot slotAt put (not_admits_slot fit)

theorem truthful_of_validateElement (put : demand.puts index entry)
    (refused : catalogue.validateElement demand.kind index (.ofEntry entry) = .error violation) :
    violation.Truthful demand := by
  have misfit : ¬(Expected.element (catalogue.elements demand.kind)).Admits catalogue (.ofEntry entry) := by
    intro admits
    have passed : catalogue.validateElement demand.kind index (.ofEntry entry) = .ok () := by
      rw [Schema.validateElement_ok_iff]
      generalize Supplied.ofEntry entry = child at admits
      cases admits with
      | offered offered => exact ⟨_, offered, rfl⟩
    cases passed.symm.trans refused
  have wording : violation = ⟨demand.kind, .element index, .element (catalogue.elements demand.kind),
      .supplied (.ofEntry entry)⟩ := by
    unfold Schema.validateElement at refused
    split at refused
    · split at refused
      · cases refused
      · exact (Except.error.inj refused).symm
    · exact (Except.error.inj refused).symm
    · exact (Except.error.inj refused).symm
  rw [wording]
  exact .element put misfit

/-- The check of all entries speaks of one that was asked for, or of their number. -/
theorem truthful_of_validate {entries : List (Option Element)} (size : demand.size = entries.length)
    (puts : ∀ index entry, entries[index]? = some entry → demand.puts index entry)
    (refused : catalogue.validate demand.kind (entries.map Supplied.ofEntry) = .error violation) :
    violation.Truthful demand := by
  have put : ∀ index child, (entries.map Supplied.ofEntry)[index]? = some child →
      ∃ entry, demand.puts index entry ∧ child = .ofEntry entry := by
    intro index child childAt
    rw [List.getElem?_map, Option.map_eq_some_iff] at childAt
    obtain ⟨entry, entryAt, rfl⟩ := childAt
    exact ⟨entry, puts index entry entryAt, rfl⟩
  cases shape : (catalogue.entry demand.kind).shape with
  | layout slots =>
    by_cases length : (entries.map Supplied.ofEntry).length = slots.length
    · obtain ⟨index, child, first, refusedHere⟩ := (Schema.validate_layout_error_iff shape length).mp refused
      obtain ⟨entry, asked, rfl⟩ := put index child first.here
      exact truthful_of_validateSlot asked refusedHere
    · cases (Schema.validate_of_length_ne shape length).symm.trans refused
      rw [List.length_map, ← size] at length ⊢
      rw [← Schema.slots_of_layout shape] at length ⊢
      exact .count length
  | collection elements =>
    obtain ⟨index, child, first, refusedHere⟩ := (Schema.validate_collection_error_iff shape).mp refused
    obtain ⟨entry, asked, rfl⟩ := put index child first.here
    exact truthful_of_validateElement asked refusedHere

/-- A name that stands for no slot was given, and no slot answers to it. -/
theorem truthful_of_slotIndex? (demand : Demand) {name : String} {value : Option Element}
    (given : demand.names name value) (unknown : catalogue.slotIndex? demand.kind name = none) :
    (Violation.unknownSlot demand.kind name (.ofEntry value)).Truthful demand :=
  .unknownSlot given (Schema.slotIndex?_eq_none_iff.mp unknown)

end Checks

/-! ## Calls -/

section Calls

variable {violation : Violation} {serial : Nat}

theorem Node.ofChildren_error_iff {kind : SyntaxKind} {children : List (Option Element)} :
    ofChildren kind children serial = .error violation ↔
      catalogue.validate kind (children.map Supplied.ofEntry) = .error violation := by
  rw [run_ofChildren]
  cases catalogue.validate kind (children.map Supplied.ofEntry) with
  | ok _ => simp [Except.map]
  | error own => simp [Except.map]

theorem truthful_of_ofChildren {kind : SyntaxKind} {entries : List (Option Element)}
    (refused : Node.ofChildren kind entries serial = .error violation) :
    violation.Truthful (.ofEntries kind entries) :=
  truthful_of_validate rfl (fun _ _ entryAt => entryAt) (Node.ofChildren_error_iff.mp refused)

theorem truthful_of_withChildAt {demand : Demand} {n : Node} (kind : demand.kind = n.kind) {index : Nat}
    {value : Option Element} (put : demand.puts index value)
    (refused : n.withChildAt index value serial = .error violation) : violation.Truthful demand := by
  rw [Node.run_withChildAt, ← kind] at refused
  cases checked : catalogue.validateSlot demand.kind index (.ofEntry value) with
  | ok _ =>
    rw [checked] at refused
    cases refused
  | error own =>
    rw [checked] at refused
    cases refused
    exact truthful_of_validateSlot put checked

theorem setAll_eq_ofEdits (kind : SyntaxKind) (values : List (String × Option Element)) :
    (Draft.empty kind).setAll values = Draft.ofEdits kind (SlotEdit.ofValues values) := by
  simp [Draft.ofEdits, SlotEdit.ofValues, Function.comp_def]

/-- A draft is refused for its first unknown name, or as the entries that it stands for would be. -/
theorem truthful_of_finish {kind : SyntaxKind} {values : List (String × Option Element)}
    (refused : ((Draft.empty kind).setAll values).finish serial = .error violation) :
    violation.Truthful (Call.ofDraft kind values).demand := by
  rw [setAll_eq_ofEdits] at refused
  cases first : (SlotEdit.ofValues values).find? fun edit => edit.target? kind = none with
  | some edit =>
    rw [Draft.finish, Draft.unknown_ofEdits first] at refused
    cases refused
    obtain ⟨value, member, rfl⟩ := List.mem_map.mp (List.mem_of_find?_eq_some first)
    obtain ⟨unknown, _⟩ := List.find?_eq_some_iff_append.mp first
    exact truthful_of_slotIndex? (Call.ofDraft kind values).demand member (of_decide_eq_true unknown)
  | none =>
    have known : ∀ edit ∈ SlotEdit.ofValues values, edit.target? kind ≠ none := by
      intro edit member
      simpa using List.find?_eq_none.mp first edit member
    obtain ⟨entries, middle, describes, finished⟩ := Draft.exists_describes known serial
    rw [finished] at refused
    refine truthful_of_validate describes.size.symm ?_ (Node.ofChildren_error_iff.mp refused)
    intro index entry entryAt
    obtain ⟨inside, _⟩ := List.getElem?_eq_some_iff.mp entryAt
    have slotAt : (catalogue.slots kind)[index]? = some _ := List.getElem?_eq_getElem (describes.size ▸ inside)
    exact ⟨_, slotAt, describes.entry index _ entry slotAt entryAt⟩

theorem slotIndex_error_iff {n : Node} {name : String} {supplied : Supplied} :
    n.slotIndex name supplied = .error violation ↔ catalogue.slotIndex? n.kind name = none ∧
      violation = .unknownSlot n.kind name supplied := by
  unfold Node.slotIndex
  cases catalogue.slotIndex? n.kind name with
  | none => simp [eq_comm]
  | some index => simp

theorem truthful_of_withChild {n : Node} {name : String} {value : Option Element}
    (refused : n.withChild name value serial = .error violation) :
    violation.Truthful (Call.withChild n name value).demand := by
  cases target : catalogue.slotIndex? n.kind name with
  | none =>
    rw [Node.withChild, slotIndex_error_iff.mpr ⟨target, rfl⟩] at refused
    cases refused
    exact truthful_of_slotIndex? (Call.withChild n name value).demand ⟨rfl, rfl⟩ target
  | some index =>
    have resolved : n.slotIndex name (.ofEntry value) = .ok index := by
      rw [Node.slotIndex, target]
    rw [Node.withChild, resolved] at refused
    exact truthful_of_withChildAt rfl ⟨target, rfl⟩ refused

theorem truthful_of_withAppended {n : Node} {element : Element}
    (refused : n.withAppended element serial = .error violation) :
    violation.Truthful (Call.withAppended n element).demand := by
  rw [Node.run_withAppended] at refused
  cases checked : catalogue.validateElement n.kind n.size element.supplied with
  | ok _ =>
    rw [checked] at refused
    cases refused
  | error own =>
    rw [checked] at refused
    cases refused
    have put : (Call.withAppended n element).demand.puts n.size (some element) := ⟨rfl, rfl⟩
    exact truthful_of_validateElement put checked

/-- Only of a layout nothing can be removed, and that has as many entries as slots. -/
theorem truthful_of_withRemoved {n : Node} (sound : n.Sound) {index : Nat}
    (refused : n.withRemoved index serial = .error (.fixedArity violation)) :
    violation.Truthful (Call.withRemoved n index).demand := by
  unfold Node.withRemoved at refused
  by_cases outside : n.size ≤ index
  · rw [if_pos outside] at refused
    cases refused
  · rw [if_neg outside] at refused
    by_cases collection : catalogue.isCollection n.kind
    · rw [if_pos collection] at refused
      cases refused
    · rw [if_neg collection] at refused
      cases refused
      cases shape : (catalogue.entry n.kind).shape with
      | collection elements => exact absurd (Schema.isCollection_of_collection shape) collection
      | layout slots =>
        have size : n.size = (catalogue.slots n.kind).length := by
          rw [Schema.slots_of_layout shape]
          exact sound.arity slots shape
        have differs : n.size - 1 ≠ (catalogue.slots n.kind).length := by omega
        have truthful : Violation.Truthful (Call.withRemoved n index).demand ⟨n.kind, .arity,
          .childCount (catalogue.slots n.kind).length, .childCount (n.size - 1)⟩ := .count differs
        rwa [← size] at truthful

theorem Call.mapError_error_iff {ε ε' α : Type} {f : ε → ε'} {outcome : Except ε α} {e : ε'} :
    outcome.mapError f = .error e ↔ ∃ own, outcome = .error own ∧ f own = e := by
  cases outcome with
  | ok a => simp [Except.mapError]
  | error own => simp [Except.mapError]

/-- A call is refused with a violation by the operation that it runs. -/
theorem Call.error_of_mapError {α : Type} {outcome : Except Violation α}
    (refused : outcome.mapError Refusal.violation = .error (.violation violation)) :
    outcome = .error violation := by
  obtain ⟨own, failed, same⟩ := mapError_error_iff.mp refused
  cases same
  exact failed

theorem Call.truthful_of_run {call : Call} (sound : ∀ n, call.receiver? = some n → n.Sound)
    (refused : call.run serial = .error (.violation violation)) : violation.Truthful call.demand := by
  cases call with
  | ofChildren kind children => exact truthful_of_ofChildren (error_of_mapError refused)
  | ofElements kind elements => exact truthful_of_ofChildren (error_of_mapError refused)
  | ofDraft kind values => exact truthful_of_finish (error_of_mapError refused)
  | withChild n name value => exact truthful_of_withChild (error_of_mapError refused)
  | withChildAt n index value => exact truthful_of_withChildAt rfl ⟨rfl, rfl⟩ (error_of_mapError refused)
  | withAppended n element => exact truthful_of_withAppended (error_of_mapError refused)
  | withRemoved n index =>
    obtain ⟨own, failed, same⟩ := mapError_error_iff.mp refused
    cases own with
    | outOfBounds kind index size => cases same
    | fixedArity broken =>
      cases same
      exact truthful_of_withRemoved (sound n rfl) failed
  | withElements n elements => exact truthful_of_ofChildren (error_of_mapError refused)

theorem truthful_of_child {n : Node} {name : String} (refused : n.child name = .error violation) :
    violation.Truthful (.ofRead n name) := by
  unfold Node.child at refused
  cases resolved : n.slotIndex name .absent with
  | ok index =>
    rw [resolved] at refused
    cases refused
  | error own =>
    rw [resolved] at refused
    cases refused
    obtain ⟨unknown, rfl⟩ := slotIndex_error_iff.mp resolved
    exact truthful_of_slotIndex? (.ofRead n name) ⟨rfl, rfl⟩ unknown

end Calls

/-- The violations of calls and reads are right about what was asked for. At a slot, they give its position,
its current name and its own constraint, and what was to stand there is not admitted by that; at an element,
they give its position and the kinds of elements, and what was to stand there is none of these. A number of
entries that is refused is not the number of slots, and a position that is refused is behind the last slot.
A name that is refused was given, and no slot answers to it. -/
theorem violations_truthful :
    (∀ (call : Call) (serial : Nat) (violation : Violation), (∀ n, call.receiver? = some n → n.Reachable) →
      call.run serial = .error (.violation violation) → violation.Truthful call.demand) ∧
    ∀ (n : Node) (name : String) (violation : Violation), n.child name = .error violation →
      violation.Truthful (.ofRead n name) := by
  refine ⟨?_, ?_⟩
  · intro call serial violation reachable refused
    refine Call.truthful_of_run ?_ refused
    intro n receiver
    exact (reachable n receiver).sound.node
  · intro n name violation refused
    exact truthful_of_child refused

/-- A token for the element of an array, set under the former name, is refused at the current one. -/
theorem violations_truthful_array :
    Sample.array.Reachable ∧ (∃ violation,
      (Call.withChild Sample.array "elementType" (some (.leaf Sample.name))).run 8 =
        .error (.violation violation) ∧ violation.location = .slot 1 "element" ∧
      violation.Truthful (Call.withChild Sample.array "elementType" (some (.leaf Sample.name))).demand) ∧
      ∃ violation, Sample.array.child "elements" = .error violation ∧
        violation.Truthful (.ofRead Sample.array "elements") := by
  refine ⟨Sample.array_reachable, ⟨_, rfl, rfl, violations_truthful.1 _ 8 _ ?_ rfl⟩, _, rfl,
    violations_truthful.2 _ _ _ rfl⟩
  intro n receiver
  cases receiver
  exact Sample.array_reachable

end LosslessSyntax
