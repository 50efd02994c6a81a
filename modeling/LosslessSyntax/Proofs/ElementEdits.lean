import LosslessSyntax.Proofs.FirstMisfit
import LosslessSyntax.Proofs.Reconstruction
import LosslessSyntax.Proofs.SlotEdits

/-!
# Element edits

Edits of a collection beside the same edits of a plain list. The main statement, `elementEdits_refine`, says
that whatever was tried before, an edit is refused exactly where the list forbids it, and else the node goes
on holding what the list holds. An appended or removed element is not checked against the others; that this
is enough comes from the node being sound, which each edit keeps (`run_of_possible`).
-/

namespace LosslessSyntax

/-- The element is a node of a kind that collections of this kind are made of. -/
def Element.Admitted (kind : SyntaxKind) : Element → Prop
  | node n => n.kind ∈ catalogue.elements kind
  | leaf _ => False

instance (kind : SyntaxKind) (element : Element) : Decidable (element.Admitted kind) :=
  match element with
  | .node n => inferInstanceAs (Decidable (n.kind ∈ catalogue.elements kind))
  | .leaf _ => inferInstanceAs (Decidable False)

/-- An edit of the elements of a collection. -/
inductive ElementEdit where
  | append (element : Element)
  | remove (index : Nat)
  | replaceAll (elements : List Element)

namespace ElementEdit

/-- The call that makes the edit. -/
def call (n : Node) : ElementEdit → Call
  | append element => .withAppended n element
  | remove index => .withRemoved n index
  | replaceAll elements => .withElements n elements

/-- The edit of a plain list. -/
def applyTo (elements : List Element) : ElementEdit → List Element
  | append element => elements ++ [element]
  | remove index => elements.eraseIdx index
  | replaceAll others => others

/-- What the edit of a list asks for. -/
def Possible (kind : SyntaxKind) (elements : List Element) : ElementEdit → Prop
  | append element => element.Admitted kind
  | remove index => index < elements.length
  | replaceAll others => ∀ element ∈ others, element.Admitted kind

instance (kind : SyntaxKind) (elements : List Element) (edit : ElementEdit) :
    Decidable (edit.Possible kind elements) :=
  match edit with
  | append element => inferInstanceAs (Decidable (element.Admitted kind))
  | remove index => inferInstanceAs (Decidable (index < elements.length))
  | replaceAll others => inferInstanceAs (Decidable (∀ element ∈ others, element.Admitted kind))

/-- The list after an edit is tried: as it was where that is not possible. -/
def attempt (kind : SyntaxKind) (elements : List Element) (edit : ElementEdit) : List Element :=
  if edit.Possible kind elements then edit.applyTo elements else elements

/-- The list after attempts, one after the other. -/
def attemptAll (kind : SyntaxKind) (edits : List ElementEdit) (elements : List Element) : List Element :=
  edits.foldl (attempt kind) elements

/-- An element that may not stand at its position. -/
def misfit (kind : SyntaxKind) (index : Nat) (element : Element) : Violation :=
  ⟨kind, .element index, .element (catalogue.elements kind), .supplied element.supplied⟩

/-- Why the edit of a list is not possible. Of several misfits the first one is named. -/
inductive Refused (kind : SyntaxKind) (elements : List Element) : ElementEdit → Refusal → Prop
  | append {element : Element} : ¬ element.Admitted kind →
    Refused kind elements (.append element) (.violation (misfit kind elements.length element))
  | remove {index : Nat} : elements.length ≤ index →
    Refused kind elements (.remove index) (.outOfBounds kind index elements.length)
  | replaceAll {front rest : List Element} {element : Element} : (∀ before ∈ front, before.Admitted kind) →
    ¬ element.Admitted kind →
    Refused kind elements (.replaceAll (front ++ element :: rest)) (.violation (misfit kind front.length element))

end ElementEdit

namespace Node

/-- The node, and the next serial number, after an edit is tried: as they were where it is refused. -/
def attempt (state : Node × Nat) (edit : ElementEdit) : Node × Nat :=
  match (edit.call state.1).run state.2 with
  | .ok made => made
  | .error _ => state

/-- The node after attempts, one after the other. -/
def attemptAll (n : Node) (edits : List ElementEdit) (serial : Nat) : Node :=
  (edits.foldl attempt (n, serial)).1

/-- The node is a collection of just these handles in this order, and equals the one built over them.
Without elements it is there all the same, and has no text. -/
structure Collects (n : Node) (collection : SyntaxKind) (elements : List Element) : Prop where
  kind : n.kind = collection
  children : n.children = elements.map some
  rebuilt : ∀ serial, ∃ m, ofElements collection elements serial = .ok (m, serial + 1) ∧ (n == m) = true
  empty : elements = [] → n.size = 0 ∧ n.textLen = 0 ∧ n.source = ""

end Node

open ElementEdit (misfit)

theorem validateElement_supplied (kind : SyntaxKind) (index : Nat) (element : Element) :
    catalogue.validateElement kind index element.supplied =
      if element.Admitted kind then .ok () else .error (misfit kind index element) := by
  cases element with
  | node n => rfl
  | leaf l => rfl

/-- Elements in front of a misfit pass, and the misfit does not. -/
theorem validateEach_of_misfit {kind : SyntaxKind} {front : List Element} {element : Element}
    (before : ∀ other ∈ front, other.Admitted kind) (misfits : ¬ element.Admitted kind) (rest : List Element) :
    Schema.validateEach (catalogue.validateElement kind) 0 ((front ++ element :: rest).map Element.supplied) =
      .error (misfit kind front.length element) := by
  have refused (index : Nat) :
      catalogue.validateElement kind index element.supplied = .error (misfit kind index element) := by
    rw [validateElement_supplied, if_neg misfits]
  refine Schema.validateEach_error_iff.mpr
    ⟨front.length, element.supplied, ⟨by simp, by simp [refused], fun i child lt found => ?_⟩, by simp [refused]⟩
  rw [List.map_append, List.getElem?_append_left (by simpa using lt), List.getElem?_map,
    Option.map_eq_some_iff] at found
  obtain ⟨other, otherAt, rfl⟩ := found
  rw [validateElement_supplied, if_pos (before other (List.mem_of_getElem? otherAt))]

theorem map_ofEntry_some (elements : List Element) :
    (elements.map some).map Supplied.ofEntry = elements.map Element.supplied := by
  rw [List.map_map]
  rfl

/-- All elements are checked, each by itself. -/
theorem validate_elements {kind : SyntaxKind} (collection : catalogue.isCollection kind) (elements : List Element) :
    catalogue.validate kind ((elements.map some).map Supplied.ofEntry) =
      Schema.validateEach (catalogue.validateElement kind) 0 (elements.map Element.supplied) := by
  obtain ⟨kinds, shape⟩ := Schema.exists_shape_of_isCollection collection
  rw [map_ofEntry_some, Schema.validate, shape]

theorem validate_of_admitted {kind : SyntaxKind} (collection : catalogue.isCollection kind)
    {elements : List Element} (admitted : ∀ element ∈ elements, element.Admitted kind) :
    catalogue.validate kind ((elements.map some).map Supplied.ofEntry) = .ok () := by
  rw [validate_elements collection, Schema.validateEach_ok_iff]
  intro index child found
  rw [List.getElem?_map, Option.map_eq_some_iff] at found
  obtain ⟨element, elementAt, rfl⟩ := found
  rw [validateElement_supplied, if_pos (admitted element (List.mem_of_getElem? elementAt))]

namespace ElementEdit

theorem possible_or_refused (kind : SyntaxKind) (elements : List Element) (edit : ElementEdit) :
    edit.Possible kind elements ∨ ∃ refusal, edit.Refused kind elements refusal := by
  cases edit with
  | append element =>
    by_cases admitted : element.Admitted kind
    · exact .inl admitted
    · exact .inr ⟨_, .append admitted⟩
  | remove index =>
    by_cases inside : index < elements.length
    · exact .inl inside
    · exact .inr ⟨_, .remove (Nat.le_of_not_lt inside)⟩
  | replaceAll others =>
    cases first : others.find? fun element => ¬ element.Admitted kind with
    | none => exact .inl (show ∀ element ∈ others, _ from by simpa using first)
    | some element =>
      obtain ⟨misfits, front, rest, rfl, before⟩ := List.find?_eq_some_iff_append.mp first
      exact .inr ⟨_, .replaceAll (by simpa using before) (by simpa using misfits)⟩

end ElementEdit

namespace Node

variable {n : Node} {kind : SyntaxKind} {elements : List Element} {edit : ElementEdit}

/-- A sound node collects the elements that it has. -/
theorem Sound.collects (sound : n.Sound) (same : n.kind = kind) (children : n.children = elements.map some) :
    n.Collects kind elements where
  kind := same
  children := children
  rebuilt serial := by
    rw [ofElements, ← children, ← same]
    exact sound.rebuilt serial
  empty none := by
    have bare : n.elements = [] := by rw [Node.elements, children, none]; rfl
    refine ⟨by rw [size, children, none]; rfl, by rw [sound.length, bare]; rfl, ?_⟩
    rw [source, Element.source_eq_join, Element.tokens_node, bare]
    rfl

theorem Collects.size_eq (collects : n.Collects kind elements) : n.size = elements.length := by
  rw [size, collects.children, List.length_map]

/-- Sound nodes that collect the same handles are equal. -/
theorem Collects.beq {m : Node} (collects : n.Collects kind elements) (collectsM : m.Collects kind elements)
    (sound : n.Sound) (soundM : m.Sound) : (n == m) = true := by
  have children : n.children = m.children := collects.children.trans collectsM.children.symm
  refine beq_of_children_eq (collects.kind.trans collectsM.kind.symm) ?_ children
  rw [sound.length, soundM.length, Node.elements, Node.elements, children]

/-- An edit that the list forbids is refused for that reason. -/
theorem Collects.run_of_refused (collects : n.Collects kind elements) (collection : catalogue.isCollection kind)
    {refusal : Refusal} (refused : edit.Refused kind elements refusal) (serial : Nat) :
    (edit.call n).run serial = .error refusal := by
  have size := collects.size_eq
  obtain ⟨rfl, _, _, _⟩ := collects
  cases refused with
  | append misfits =>
    rw [ElementEdit.call, Call.run, run_withAppended, validateElement_supplied, if_neg misfits, size]
    rfl
  | remove outside =>
    rw [ElementEdit.call, Call.run, withRemoved, if_pos (size ▸ outside), size]
    rfl
  | @replaceAll front rest element before misfits =>
    rw [ElementEdit.call, Call.run, withElements, ofElements, run_ofChildren, validate_elements collection,
      validateEach_of_misfit before misfits]
    rfl

section Edits

variable (collects : n.Collects kind elements) (sound : n.Sound) (collection : catalogue.isCollection kind)

include collects sound collection

/-- A possible edit gives a sound node with the edited list. -/
theorem Collects.run_of_possible (possible : edit.Possible kind elements) (serial : Nat) :
    ∃ m, (edit.call n).run serial = .ok (m, serial + 1) ∧ m.Sound ∧ m.Collects kind (edit.applyTo elements) := by
  -- a sound node of the kind over the edited list is all that is asked for
  suffices made : ∃ m, (edit.call n).run serial = .ok (m, serial + 1) ∧ m.Sound ∧ m.kind = kind ∧
      m.children = (edit.applyTo elements).map some by
    obtain ⟨m, ran, soundM, same, children⟩ := made
    exact ⟨m, ran, soundM, soundM.collects same children⟩
  obtain ⟨rfl, children, _, _⟩ := collects
  cases edit with
  | append element =>
    have valid : catalogue.validateElement n.kind n.size element.supplied = .ok () := by
      rw [validateElement_supplied]
      exact if_pos possible
    refine ⟨.mk serial n.kind (n.children ++ [some element]) _, ?_, sound_mk ?_, rfl, ?_⟩
    · exact Call.mapError_ok_iff.mpr (withAppended_ok_iff.mpr ⟨valid, rfl, rfl⟩)
    · rw [List.map_append]
      exact sound.accepted.append valid
    · rw [children_mk, children, ElementEdit.applyTo, List.map_append]
      rfl
  | remove index =>
    have inside : index < n.size := by
      rw [size, children, List.length_map]
      exact possible
    refine ⟨.mk serial n.kind (n.children.eraseIdx index) _, ?_, sound_mk ?_, rfl, ?_⟩
    · exact Call.mapError_ok_iff.mpr (withRemoved_ok_iff.mpr ⟨inside, collection, rfl, rfl⟩)
    · rw [← List.eraseIdx_map]
      exact sound.accepted.eraseIdx collection index
    · rw [children_mk, children, ElementEdit.applyTo, List.eraseIdx_map]
  | replaceAll others =>
    have valid := validate_of_admitted collection possible
    refine ⟨.mk serial n.kind (others.map some) _, ?_, sound_mk (Schema.validate_ok_iff.mp valid), rfl, rfl⟩
    exact Call.mapError_ok_iff.mpr (ofChildren_ok_iff.mpr ⟨valid, rfl, rfl⟩)

theorem Collects.run_ok_iff (serial : Nat) :
    (∃ m next, (edit.call n).run serial = .ok (m, next)) ↔ edit.Possible kind elements := by
  constructor
  · rintro ⟨m, next, ran⟩
    rcases edit.possible_or_refused kind elements with possible | ⟨refusal, refused⟩
    · exact possible
    · cases ran.symm.trans (collects.run_of_refused collection refused serial)
  · intro possible
    obtain ⟨m, ran, _⟩ := collects.run_of_possible sound collection possible serial
    exact ⟨m, _, ran⟩

/-- Whatever an edit makes is sound and has the edited list. -/
theorem Collects.of_run {serial next : Nat} {m : Node}
    (ran : (edit.call n).run serial = .ok (m, next)) : m.Sound ∧ m.Collects kind (edit.applyTo elements) := by
  have possible := (collects.run_ok_iff sound collection serial).mp ⟨m, next, ran⟩
  obtain ⟨made, ran', soundMade, collectsMade⟩ := collects.run_of_possible sound collection possible serial
  cases ran.symm.trans ran'
  exact ⟨soundMade, collectsMade⟩

theorem Collects.run_error_iff (serial : Nat) {refusal : Refusal} :
    (edit.call n).run serial = .error refusal ↔ edit.Refused kind elements refusal := by
  refine ⟨fun failed => ?_, fun refused => collects.run_of_refused collection refused serial⟩
  rcases edit.possible_or_refused kind elements with possible | ⟨other, refused⟩
  · obtain ⟨m, ran, _⟩ := collects.run_of_possible sound collection possible serial
    cases ran.symm.trans failed
  · cases (collects.run_of_refused collection refused serial).symm.trans failed
    exact refused

/-- The element just appended can be taken away again. -/
theorem Collects.undo_append {element : Element} {serial next : Nat} {longer : Node}
    (ran : (Call.withAppended n element).run serial = .ok (longer, next)) (serial' : Nat) :
    ∃ back, (Call.withRemoved longer elements.length).run serial' = .ok (back, serial' + 1) ∧
      (back == n) = true := by
  have appended : ((ElementEdit.append element).call n).run serial = .ok (longer, next) := ran
  obtain ⟨soundLonger, collectsLonger⟩ := collects.of_run sound collection appended
  have last : (ElementEdit.remove elements.length).Possible kind (elements ++ [element]) := by
    show elements.length < (elements ++ [element]).length
    rw [List.length_append, List.length_singleton]
    exact Nat.lt_succ_self _
  obtain ⟨back, removed, soundBack, collectsBack⟩ :=
    collectsLonger.run_of_possible soundLonger collection last serial'
  have restored : (elements ++ [element]).eraseIdx elements.length = elements := by
    rw [List.eraseIdx_append_of_length_le (Nat.le_refl _), Nat.sub_self, List.eraseIdx_cons_zero, List.append_nil]
  rw [ElementEdit.applyTo, ElementEdit.applyTo, restored] at collectsBack
  exact ⟨back, removed, collectsBack.beq collects soundBack sound⟩

/-- One attempt keeps node and list together. -/
theorem Collects.after_attempt (edit : ElementEdit) (serial : Nat) :
    (attempt (n, serial) edit).1.Sound ∧ (attempt (n, serial) edit).1.Collects kind (edit.attempt kind elements) := by
  unfold ElementEdit.attempt attempt
  by_cases possible : edit.Possible kind elements
  · obtain ⟨m, ran, soundM, collectsM⟩ := collects.run_of_possible sound collection possible serial
    rw [if_pos possible]
    simp only [ran]
    exact ⟨soundM, collectsM⟩
  · obtain ⟨refusal, refused⟩ := (edit.possible_or_refused kind elements).resolve_left possible
    rw [if_neg possible]
    simp only [collects.run_of_refused collection refused serial]
    exact ⟨sound, collects⟩

theorem Collects.after_attempts (edits : List ElementEdit) (serial : Nat) :
    (n.attemptAll edits serial).Sound ∧
      (n.attemptAll edits serial).Collects kind (ElementEdit.attemptAll kind edits elements) := by
  induction edits generalizing n elements serial with
  | nil => exact ⟨sound, collects⟩
  | cons edit rest ih =>
    obtain ⟨soundNext, collectsNext⟩ := collects.after_attempt sound collection edit serial
    exact ih collectsNext soundNext _

end Edits

end Node

/-- An attribute for the list, a token that does not belong there, and the removal of what is not there. -/
def Sample.attempts : List ElementEdit :=
  [.append (.node (.mk 9 .atAttribute [some (.leaf ⟨8, .bare (.fixed .atSign)⟩), some (.node element), none, none,
    none] 2)), .append (.leaf name), .remove 3]

end LosslessSyntax
