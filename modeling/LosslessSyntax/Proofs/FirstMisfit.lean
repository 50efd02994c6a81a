import LosslessSyntax.Proofs.Acceptance
import Mathlib.Data.List.Forall2

/-!
# The first misfit

What may stand where is said here by rules, one for each sort of constraint, without the tests that a
validation runs. The main statement, `validate_meets`, measures validation against these rules. It passes
what the rules allow, and otherwise speaks of the first child in source order that no rule allows, unless
already the number of children is wrong. The texts of tokens never matter.
-/

namespace LosslessSyntax

/-- The tokens of a sort: all with its tag, or its keyword only. -/
inductive TokenChoice.Covers : TokenChoice → TokenKind → Prop
  | tag (kind : TokenKind) : Covers (.tag kind.tag) kind
  | keyword (word : Keyword) : Covers (.keyword word) (.keyword word)

/-- Children that differ at most in the text of a token. -/
inductive Supplied.SameButText : Supplied → Supplied → Prop
  | refl (child : Supplied) : SameButText child child
  | text (tag : FreeTag) (first second : String) :
    SameButText (.token (.free tag first)) (.token (.free tag second))

namespace Schema

/-- What a constraint lets stand. -/
inductive Takes (schema : Schema) : Constraint → Supplied → Prop
  | anyToken (kind : TokenKind) : Takes schema .anyToken (.token kind)
  | choice {choices : List TokenChoice} {choice : TokenChoice} {kind : TokenKind} (offered : choice ∈ choices)
    (covers : choice.Covers kind) : Takes schema (.tokens choices) (.token kind)
  | anyNode (kind : SyntaxKind) : Takes schema (.node (.base .node)) (.node kind)
  | base (kind : SyntaxKind) : Takes schema (.node (.base (schema.base kind))) (.node kind)
  | kind (kind : SyntaxKind) : Takes schema (.node (.kind kind)) (.node kind)
  | collection (kind : SyntaxKind) (elementName : String) (formerElementName : Option String)
    (defaultsToEmpty : Bool) :
    Takes schema (.collection kind elementName formerElementName defaultsToEmpty) (.node kind)

/-- What may fill a slot: nothing where it is optional, and else what its constraint lets stand. -/
inductive Fills (schema : Schema) (slot : Slot) : Supplied → Prop
  | absent (optional : slot.isOptional) : Fills schema slot .absent
  | present {child : Supplied} (taken : schema.Takes slot.constraint child) : Fills schema slot child

/-- A child that does not pass while all before it do. -/
structure FirstMisfit (Passes : Nat → Supplied → Prop) (supplied : List Supplied) (index : Nat)
    (child : Supplied) : Prop where
  here : supplied[index]? = some child
  misfit : ¬Passes index child
  before : ∀ (i : Nat) (other : Supplied), i < index → supplied[i]? = some other → Passes i other

variable {schema : Schema} {kind : SyntaxKind}

theorem admits_iff {choice : TokenChoice} {token : TokenKind} : choice.admits token ↔ choice.Covers token := by
  constructor
  · intro admitted
    cases choice with
    | tag tag =>
      cases of_decide_eq_true admitted
      exact .tag token
    | keyword word =>
      cases token with
      | keyword own =>
        cases of_decide_eq_true admitted
        exact .keyword word
      | fixed tag => simp [TokenChoice.admits, TokenKind.keyword?] at admitted
      | free tag text => simp [TokenChoice.admits, TokenKind.keyword?] at admitted
  · intro covers
    cases covers with
    | tag => simp [TokenChoice.admits]
    | keyword => simp [TokenChoice.admits, TokenKind.keyword?]

theorem admitsToken_iff {constraint : Constraint} {token : TokenKind} :
    constraint.admitsToken token ↔ schema.Takes constraint (.token token) := by
  constructor
  · intro admitted
    cases constraint with
    | anyToken => exact .anyToken token
    | tokens choices =>
      obtain ⟨choice, offered, admits⟩ := List.any_eq_true.mp admitted
      exact .choice offered (admits_iff.mp admits)
    | node choice => cases admitted
    | collection kind elementName formerElementName defaultsToEmpty => cases admitted
  · intro taken
    cases taken with
    | anyToken => rfl
    | choice offered covers => exact List.any_eq_true.mpr ⟨_, offered, admits_iff.mpr covers⟩

theorem inBase_iff {base : Base} : schema.inBase base kind ↔ base = .node ∨ schema.base kind = base := by
  cases base with
  | node => simp [inBase]
  | collection => simp [inBase]
  | type => simp [inBase]

theorem admitsNode_iff {constraint : Constraint} :
    schema.admitsNode constraint kind ↔ schema.Takes constraint (.node kind) := by
  constructor
  · intro admitted
    cases constraint with
    | node choice =>
      cases choice with
      | base base =>
        rcases inBase_iff.mp admitted with rfl | rfl
        · exact .anyNode kind
        · exact .base kind
      | kind expected =>
        cases of_decide_eq_true admitted
        exact .kind kind
    | collection expected elementName formerElementName defaultsToEmpty =>
      cases of_decide_eq_true admitted
      exact .collection kind elementName formerElementName defaultsToEmpty
    | anyToken => cases admitted
    | tokens choices => cases admitted
  · intro taken
    cases taken with
    | anyNode =>
      show schema.inBase .node kind
      exact inBase_iff.mpr (.inl rfl)
    | base =>
      show schema.inBase (schema.base kind) kind
      exact inBase_iff.mpr (.inr rfl)
    | kind => simp [admitsNode]
    | collection => simp [admitsNode]

theorem not_takes_absent {constraint : Constraint} : ¬schema.Takes constraint .absent := by
  intro taken
  cases taken

/-- The test for a slot decides what may fill it. -/
theorem fits_iff {slot : Slot} {child : Supplied} : schema.fits slot child ↔ schema.Fills slot child := by
  constructor
  · intro fit
    cases child with
    | absent => exact .absent fit
    | token token => exact .present (admitsToken_iff.mp fit)
    | node kind => exact .present (admitsNode_iff.mp fit)
  · intro fills
    cases fills with
    | absent optional => exact optional
    | present taken =>
      cases child with
      | absent => exact absurd taken not_takes_absent
      | token token => exact admitsToken_iff.mpr taken
      | node kind => exact admitsNode_iff.mpr taken

section First

variable {Passes : Nat → Supplied → Prop} {first child : Supplied} {rest : List Supplied} {index : Nat}

theorem firstMisfit_zero : FirstMisfit Passes (first :: rest) 0 child ↔ first = child ∧ ¬Passes 0 child := by
  constructor
  · intro least
    exact ⟨Option.some.inj least.here, least.misfit⟩
  · rintro ⟨rfl, misfit⟩
    refine ⟨rfl, misfit, ?_⟩
    intro i other lt
    cases lt

theorem firstMisfit_succ : FirstMisfit Passes (first :: rest) (index + 1) child ↔
    Passes 0 first ∧ FirstMisfit (fun i => Passes (i + 1)) rest index child := by
  constructor
  · intro least
    refine ⟨least.before 0 first index.succ_pos rfl, least.here, least.misfit, ?_⟩
    intro i other lt found
    exact least.before (i + 1) other (Nat.succ_lt_succ lt) found
  · rintro ⟨passed, least⟩
    refine ⟨least.here, least.misfit, ?_⟩
    intro i other lt found
    cases i with
    | zero => cases found; exact passed
    | succ i => exact least.before i other (Nat.lt_of_succ_lt_succ lt) found

end First

/-- A run of checks fails as the check of the first misfit does. -/
theorem validateEach_error_iff {check : Nat → Supplied → Except Violation Unit} {start : Nat}
    {supplied : List Supplied} {violation : Violation} :
    validateEach check start supplied = .error violation ↔ ∃ index child,
      FirstMisfit (fun i child => check (start + i) child = .ok ()) supplied index child ∧
        check (start + index) child = .error violation := by
  induction supplied generalizing start with
  | nil =>
    constructor
    · intro failed
      cases failed
    · rintro ⟨index, child, least, _⟩
      simpa using least.here
  | cons first rest ih =>
    have shift : ∀ i, start + 1 + i = start + (i + 1) := by
      intro i
      omega
    rw [validateEach]
    cases checked : check start first with
    | error own =>
      constructor
      · intro failed
        refine ⟨0, first, firstMisfit_zero.mpr ⟨rfl, ?_⟩, checked.trans failed⟩
        simp [checked]
      · rintro ⟨index, child, least, failed⟩
        cases index with
        | zero =>
          obtain ⟨rfl, _⟩ := firstMisfit_zero.mp least
          exact checked.symm.trans failed
        | succ index =>
          obtain ⟨passed, _⟩ := firstMisfit_succ.mp least
          simp [checked] at passed
    | ok _ =>
      -- the first child passes, so a misfit of the rest is one of all, one position further on
      dsimp only
      rw [ih]
      simp only [shift]
      constructor
      · rintro ⟨index, child, least, failed⟩
        exact ⟨index + 1, child, firstMisfit_succ.mpr ⟨checked, least⟩, failed⟩
      · rintro ⟨index, child, least, failed⟩
        cases index with
        | zero =>
          obtain ⟨rfl, misfit⟩ := firstMisfit_zero.mp least
          exact absurd checked misfit
        | succ index => exact ⟨index, child, (firstMisfit_succ.mp least).2, failed⟩

/-! ## Texts of tokens -/

section Texts

variable {first second : Supplied}

/-- A slot does not look at texts. -/
theorem fits_congr (same : first.SameButText second) (slot : Slot) :
    schema.fits slot first = schema.fits slot second := by
  cases same with
  | refl => rfl
  | text tag _ _ =>
    show slot.constraint.admitsToken _ = slot.constraint.admitsToken _
    cases slot.constraint with
    | tokens choices =>
      refine congrArg choices.any (funext fun choice => ?_)
      cases choice <;> rfl
    | _ => rfl

theorem validateSlot_location_congr (same : first.SameButText second) (index : Nat) :
    (schema.validateSlot kind index first).mapError (·.location) =
      (schema.validateSlot kind index second).mapError (·.location) := by
  unfold validateSlot
  cases (schema.slots kind)[index]? with
  | none => rfl
  | some slot =>
    dsimp only
    rw [fits_congr same]
    by_cases fit : schema.fits slot second
    · simp [fit]
    · simp [fit, Except.mapError]

theorem validateElement_location_congr (same : first.SameButText second) (index : Nat) :
    (schema.validateElement kind index first).mapError (·.location) =
      (schema.validateElement kind index second).mapError (·.location) := by
  cases same <;> rfl

/-- Where no check looks at texts, a run of checks does not either. -/
theorem validateEach_location_congr {check : Nat → Supplied → Except Violation Unit}
    (blind : ∀ index first second, Supplied.SameButText first second →
      (check index first).mapError (·.location) = (check index second).mapError (·.location))
    {supplied others : List Supplied} (same : List.Forall₂ Supplied.SameButText supplied others) (start : Nat) :
    (validateEach check start supplied).mapError (·.location) =
      (validateEach check start others).mapError (·.location) := by
  induction same generalizing start with
  | nil => rfl
  | @cons first second _ _ same _ ih =>
    have head := blind start first second same
    unfold validateEach
    cases checked : check start first with
    | ok _ =>
      cases checked' : check start second with
      | ok _ => exact ih (start + 1)
      | error _ => simp [checked, checked', Except.mapError] at head
    | error _ =>
      cases checked' : check start second with
      | ok _ => simp [checked, checked', Except.mapError] at head
      | error _ => simpa [checked, checked', Except.mapError] using head

theorem validate_location_congr {supplied others : List Supplied}
    (same : List.Forall₂ Supplied.SameButText supplied others) :
    (schema.validate kind supplied).mapError (·.location) =
      (schema.validate kind others).mapError (·.location) := by
  unfold validate
  cases (schema.entry kind).shape with
  | layout slots =>
    dsimp only
    rw [same.length_eq]
    by_cases length : others.length = slots.length
    · rw [if_neg (not_not_intro length), if_neg (not_not_intro length)]
      exact validateEach_location_congr (fun index _ _ same => validateSlot_location_congr same index) same 0
    · rw [if_pos length, if_pos length]
  | collection elements =>
    exact validateEach_location_congr (fun index _ _ same => validateElement_location_congr same index) same 0

end Texts

section Layout

variable {slots : List Slot} (shape : (schema.entry kind).shape = .layout slots)

include shape

theorem validateSlot_layout_iff {index : Nat} {child : Supplied} :
    schema.validateSlot kind index child = .ok () ↔ ∃ slot, slots[index]? = some slot ∧ schema.Fills slot child := by
  rw [validateSlot_ok_iff, slots_of_layout shape]
  simp only [fits_iff]

theorem validate_layout_ok_iff {supplied : List Supplied} :
    schema.validate kind supplied = .ok () ↔ List.Forall₂ schema.Fills slots supplied := by
  rw [validate_ok_iff, accepts_layout shape, List.forall₂_iff_get]
  constructor
  · rintro ⟨length, each⟩
    refine ⟨length.symm, ?_⟩
    intro i insideSlots inside
    exact fits_iff.mp (each i _ _ (List.getElem?_eq_getElem insideSlots) (List.getElem?_eq_getElem inside))
  · rintro ⟨length, each⟩
    refine ⟨length.symm, ?_⟩
    intro i slot child slotAt childAt
    obtain ⟨insideSlots, rfl⟩ := List.getElem?_eq_some_iff.mp slotAt
    obtain ⟨inside, rfl⟩ := List.getElem?_eq_some_iff.mp childAt
    exact fits_iff.mpr (each i insideSlots inside)

theorem validate_of_length_ne {supplied : List Supplied} (length : supplied.length ≠ slots.length) :
    schema.validate kind supplied =
      .error ⟨kind, .arity, .childCount slots.length, .childCount supplied.length⟩ := by
  unfold validate
  rw [shape]
  exact if_pos length

theorem validate_layout_error_iff {supplied : List Supplied} {violation : Violation}
    (length : supplied.length = slots.length) :
    schema.validate kind supplied = .error violation ↔ ∃ index child,
      FirstMisfit (fun i child => ∃ slot, slots[i]? = some slot ∧ schema.Fills slot child) supplied index child ∧
        schema.validateSlot kind index child = .error violation := by
  have each : schema.validate kind supplied = validateEach (schema.validateSlot kind) 0 supplied := by
    unfold validate
    rw [shape]
    exact if_neg (not_not_intro length)
  rw [each, validateEach_error_iff]
  simp only [Nat.zero_add, validateSlot_layout_iff shape]

theorem validateElement_of_layout (index : Nat) (child : Supplied) :
    ∃ violation, schema.validateElement kind index child = .error violation := by
  cases checked : schema.validateElement kind index child with
  | error violation => exact ⟨violation, rfl⟩
  | ok _ =>
    obtain ⟨element, member, _⟩ := validateElement_ok_iff.mp checked
    simp [elements_of_layout shape] at member

end Layout

section Collection

variable {elements : List SyntaxKind} (shape : (schema.entry kind).shape = .collection elements)

include shape

theorem validate_collection_error_iff {supplied : List Supplied} {violation : Violation} :
    schema.validate kind supplied = .error violation ↔ ∃ index child,
      FirstMisfit (fun _ child => ∃ element ∈ elements, child = .node element) supplied index child ∧
        schema.validateElement kind index child = .error violation := by
  have each : schema.validate kind supplied = validateEach (schema.validateElement kind) 0 supplied := by
    unfold validate
    rw [shape]
  rw [each, validateEach_error_iff]
  simp only [Nat.zero_add, validateElement_ok_iff, elements_of_collection shape]

theorem validateSlot_of_collection (index : Nat) (child : Supplied) :
    ∃ violation, schema.validateSlot kind index child = .error violation := by
  cases checked : schema.validateSlot kind index child with
  | error violation => exact ⟨violation, rfl⟩
  | ok _ =>
    obtain ⟨slot, slotAt, _⟩ := validateSlot_ok_iff.mp checked
    simp [slots_of_collection shape] at slotAt

end Collection

/-- Validation does what the rules say. The children of a layout pass when each slot is filled; a wrong number
of them is reported before all else, and then the first child that does not fill its slot. The children of
a collection pass when all are nodes of its element kinds, and otherwise the first that is not is reported.
Slots are no matter of collections, nor elements of layouts, and no text of a token changes the outcome or
the place that is reported. -/
theorem validate_meets (schema : Schema) (kind : SyntaxKind) :
    (∀ slots, (schema.entry kind).shape = .layout slots →
      (∀ supplied, schema.validate kind supplied = .ok () ↔ List.Forall₂ schema.Fills slots supplied) ∧
      (∀ supplied, supplied.length ≠ slots.length → schema.validate kind supplied =
        .error ⟨kind, .arity, .childCount slots.length, .childCount supplied.length⟩) ∧
      (∀ supplied violation, supplied.length = slots.length →
        (schema.validate kind supplied = .error violation ↔ ∃ index child,
          FirstMisfit (fun i child => ∃ slot, slots[i]? = some slot ∧ schema.Fills slot child)
            supplied index child ∧ schema.validateSlot kind index child = .error violation)) ∧
      ∀ index child, ∃ violation, schema.validateElement kind index child = .error violation) ∧
    (∀ elements, (schema.entry kind).shape = .collection elements →
      (∀ supplied, schema.validate kind supplied = .ok () ↔
        ∀ child ∈ supplied, ∃ element ∈ elements, child = .node element) ∧
      (∀ supplied violation, schema.validate kind supplied = .error violation ↔ ∃ index child,
        FirstMisfit (fun _ child => ∃ element ∈ elements, child = .node element) supplied index child ∧
          schema.validateElement kind index child = .error violation) ∧
      ∀ index child, ∃ violation, schema.validateSlot kind index child = .error violation) ∧
    (∀ supplied others, List.Forall₂ Supplied.SameButText supplied others →
      (schema.validate kind supplied).mapError (·.location) =
        (schema.validate kind others).mapError (·.location)) ∧
    ∀ index first second, Supplied.SameButText first second →
      (schema.validateSlot kind index first).mapError (·.location) =
          (schema.validateSlot kind index second).mapError (·.location) ∧
        (schema.validateElement kind index first).mapError (·.location) =
          (schema.validateElement kind index second).mapError (·.location) := by
  refine ⟨?layout, ?collection, ?texts, ?single⟩
  case layout =>
    intro slots shape
    refine ⟨?_, ?_, ?_, validateElement_of_layout shape⟩
    · intro supplied
      exact validate_layout_ok_iff shape
    · intro supplied length
      exact validate_of_length_ne shape length
    · intro supplied violation length
      exact validate_layout_error_iff shape length
  case collection =>
    intro elements shape
    refine ⟨?_, ?_, validateSlot_of_collection shape⟩
    · intro supplied
      rw [validate_ok_iff, accepts_collection shape]
    · intro supplied violation
      exact validate_collection_error_iff shape
  case texts =>
    intro supplied others same
    exact validate_location_congr same
  case single =>
    intro index first second same
    exact ⟨validateSlot_location_congr same index, validateElement_location_congr same index⟩

/-- Of two colons in a member type, one for the name and one for the arguments, the first is reported. -/
theorem validate_meets_memberType :
    ∃ violation, catalogue.validate .memberType [.node .identifierType, .token (.fixed .period),
        .token (.fixed .colon), .token (.fixed .colon)] = .error violation ∧
      violation.location = .slot 2 "name" := by
  have laws := (validate_meets catalogue .memberType).1 _ rfl
  refine ⟨_, (laws.2.2.1 _ _ rfl).mpr ⟨2, .token (.fixed .colon), ⟨rfl, ?_, ?_⟩, rfl⟩, rfl⟩
  · rintro ⟨slot, slotAt, fills⟩
    cases slotAt
    exact absurd (fits_iff.mpr fills) (by decide)
  · intro i other lt found
    match i with
    | 0 => cases found; exact ⟨_, rfl, fits_iff.mp rfl⟩
    | 1 => cases found; exact ⟨_, rfl, fits_iff.mp rfl⟩

end Schema

end LosslessSyntax
