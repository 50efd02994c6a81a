import LosslessSyntax.Proofs.Session

/-!
# Allocation

A session never gives out a serial number twice, so handles of one allocation show one content. The
main statement, `Session.Reachable.allocated`, says this of all handles of a session and of everything
below them, however much of it is shared. Only a draft allocates more than the node it makes, and the
empty collections that it fills in stand under numbers of their own.
-/

namespace LosslessSyntax

namespace Element

/-- The number under which the element was allocated. -/
def serial : Element → Nat
  | node n => n.serial
  | leaf l => l.serial

theorem serial_eq_of_sameHandle {a b : Element} (same : a.sameHandle b) : a.serial = b.serial := by
  cases a with
  | node a =>
    cases b with
    | node b => exact of_decide_eq_true same
    | leaf b => cases same
  | leaf a =>
    cases b with
    | node b => cases same
    | leaf b => exact of_decide_eq_true same

end Element

namespace Draft

theorem Filler.serial_mem {slot : Slot} {first last : Nat} {element : Element}
    (filler : Filler slot first last element) : first ≤ element.serial ∧ element.serial < last := by
  obtain ⟨_, _, _, lower, upper, rfl⟩ := filler
  exact ⟨lower, upper⟩

theorem Filler.elements_eq {slot : Slot} {first last : Nat} {element : Element}
    (filler : Filler slot first last element) : element.elements = [] := by
  obtain ⟨_, _, _, _, _, rfl⟩ := filler
  rfl

/-- Of what stands in filled slots, two elements that were not there before have two numbers. -/
theorem fillers_apart {ε : Type} {slots : List Slot} {entries filled : List (Option Element)}
    {serial next : Nat} (old : ∀ element ∈ Element.present entries, element.serial < serial)
    (ran : (defaultedAll slots entries : Building ε _) serial = .ok (filled, next)) {a b : Element}
    (left : a ∈ Element.present filled) (right : b ∈ Element.present filled) (new : serial ≤ a.serial)
    (same : a.serial = b.serial) : a = b := by
  induction slots generalizing entries filled serial with
  | nil =>
    have unchanged : filled = entries := by
      cases entries <;> (cases ran; rfl)
    rw [unchanged] at left
    have := old a left
    omega
  | cons slot slots ih =>
    cases entries with
    | nil => cases ran; cases left
    | cons entry entries =>
      obtain ⟨first, middle, firstRan, before, firstOrigin⟩ := defaulted_run ε slot entry serial
      obtain ⟨others, last, othersRan, _, othersOrigin⟩ := defaultedAll_run ε slots entries middle
      cases (run_defaultedAll_cons firstRan othersRan).symm.trans ran
      have oldEntry : ∀ element, entry = some element → element.serial < serial := by
        intro element here
        exact old element (by simp [here])
      have oldEntries : ∀ element ∈ Element.present entries, element.serial < serial := by
        intro element later
        exact old element (by simp [later])
      -- a new element of the first slot is numbered before `middle`, a new one of the others after it
      have firstNumber : ∀ element, first = some element → serial ≤ element.serial →
          element.serial < middle := by
        intro element here fresh
        rcases firstOrigin element here with kept | filler
        · have := oldEntry element kept
          omega
        · exact filler.serial_mem.2
      have othersNumber : ∀ element ∈ Element.present others, serial ≤ element.serial →
          middle ≤ element.serial := by
        intro element later fresh
        rcases othersOrigin element later with kept | ⟨_, _, filler⟩
        · have := oldEntries element kept
          omega
        · exact filler.serial_mem.1
      rw [Element.present_cons, List.mem_append, Option.mem_toList] at left right
      rcases left with leftHere | leftLater <;> rcases right with rightHere | rightLater
      · exact Option.some.inj (leftHere.symm.trans rightHere)
      · have := firstNumber a leftHere new
        have := othersNumber b rightLater (by omega)
        omega
      · have := othersNumber a leftLater new
        have := firstNumber b rightHere (by omega)
        omega
      · refine ih (fun element member => ?_) othersRan leftLater rightLater (othersNumber a leftLater new)
        have := oldEntries element member
        omega

end Draft

namespace Call

/-- All calls but drafts allocate nothing besides the node they make. -/
theorem next_of_run {call : Call} {serial next : Nat} {n : Node} (ran : call.run serial = .ok (n, next)) :
    next = serial + 1 ∨ ∃ kind values, call = .ofDraft kind values := by
  cases call with
  | ofChildren kind children => exact .inl (Node.ofChildren_ok_iff.mp (mapError_ok_iff.mp ran)).2.2
  | ofElements kind elements => exact .inl (Node.ofChildren_ok_iff.mp (mapError_ok_iff.mp ran)).2.2
  | ofDraft kind values => exact .inr ⟨kind, values, rfl⟩
  | withChild m name value =>
    obtain ⟨_, _, edited⟩ := Node.withChild_ok_iff.mp (mapError_ok_iff.mp ran)
    exact .inl (Node.withChildAt_ok_iff.mp edited).2.2
  | withChildAt m index value => exact .inl (Node.withChildAt_ok_iff.mp (mapError_ok_iff.mp ran)).2.2
  | withAppended m element => exact .inl (Node.withAppended_ok_iff.mp (mapError_ok_iff.mp ran)).2.2
  | withRemoved m index => exact .inl (Node.withRemoved_ok_iff.mp (mapError_ok_iff.mp ran)).2.2.2
  | withElements m elements => exact .inl (Node.ofChildren_ok_iff.mp (mapError_ok_iff.mp ran)).2.2

/-- Below a node that was made stand handles from before, the node itself, and fillers with numbers
in between. -/
theorem mem_flatten_of_run {call : Call} {serial next : Nat} {n : Node}
    (ran : call.run serial = .ok (n, next)) {element : Element} (member : element ∈ (Element.node n).flatten) :
    element = .node n ∨ (∃ argument ∈ call.arguments, element ∈ argument.flatten) ∨
      element ∈ n.elements ∧ serial ≤ element.serial ∧ element.serial < next - 1 := by
  have made := made_of_run ran
  rcases Element.mem_flatten_iff.mp member with same | ⟨child, within, below⟩
  · exact .inl same
  · rcases made.origin child within with given | ⟨argument, given, under⟩ | ⟨_, _, filler⟩
    · exact .inr (.inl ⟨child, given, below⟩)
    · have above := Element.mem_flatten_of_mem_elements under
      exact .inr (.inl ⟨argument, given, Element.mem_flatten_trans above below⟩)
    · rcases Element.mem_flatten_iff.mp below with rfl | ⟨_, impossible, _⟩
      · exact .inr (.inr ⟨within, filler.serial_mem⟩)
      · rw [filler.elements_eq] at impossible
        cases impossible

/-- New children of a node that was made are told apart by their numbers. -/
theorem elements_apart {call : Call} {serial next : Nat} {n : Node} (ran : call.run serial = .ok (n, next))
    (old : ∀ argument ∈ call.arguments, argument.serial < serial) {a b : Element} (left : a ∈ n.elements)
    (right : b ∈ n.elements) (new : serial ≤ a.serial) (bound : a.serial < next - 1)
    (same : a.serial = b.serial) : a = b := by
  rcases next_of_run ran with single | ⟨kind, values, rfl⟩
  · omega
  · obtain ⟨_, filled, middle, filledRan, built⟩ := Draft.finish_ok_iff.mp (mapError_ok_iff.mp ran)
    obtain ⟨_, rfl, _⟩ := Node.ofChildren_ok_iff.mp built
    refine Draft.fillers_apart (fun element member => ?_) filledRan left right new same
    rcases Draft.mem_slots_setAll _ member with given | opened
    · exact old element given
    · simp [Draft.present_slots_empty] at opened

end Call

namespace Session

/-- The session has a handle of the element, or of something it stands below. -/
def Holds (session : Session) (element : Element) : Prop :=
  ∃ outer ∈ session.held, element ∈ outer.flatten

/-- Every number in use was given out, and to one element only. -/
structure Allocated (session : Session) : Prop where
  used : ∀ element, session.Holds element → element.serial < session.next
  unique : ∀ a b, session.Holds a → session.Holds b → a.serial = b.serial → a = b

theorem holds_cons {next : Nat} {first element : Element} {session : Session} :
    Holds ⟨next, first :: session.held⟩ element ↔ element ∈ first.flatten ∨ session.Holds element := by
  simp [Holds]

theorem Holds.of_mem {session : Session} {element : Element} (member : element ∈ session.held) :
    session.Holds element :=
  ⟨element, member, element.mem_flatten_self⟩

theorem Holds.below {session : Session} {outer inner : Element} (holds : session.Holds outer)
    (below : inner ∈ outer.flatten) : session.Holds inner := by
  obtain ⟨top, held, above⟩ := holds
  exact ⟨top, held, Element.mem_flatten_trans above below⟩

theorem Holds.child {session : Session} {outer child : Element} (holds : session.Holds outer)
    (member : child ∈ outer.elements) : session.Holds child :=
  holds.below (Element.mem_flatten_of_mem_elements member)

/-- Numbers stay told apart when elements come in that have further numbers of their own. -/
theorem Allocated.grow {before after : Session} (allocated : before.Allocated) {N : Element → Prop}
    (origin : ∀ element, after.Holds element → before.Holds element ∨ N element)
    (range : ∀ element, N element → before.next ≤ element.serial ∧ element.serial < after.next)
    (apart : ∀ a b, N a → N b → a.serial = b.serial → a = b) (later : before.next ≤ after.next) :
    after.Allocated := by
  constructor
  · intro element holds
    rcases origin element holds with old | new
    · exact Nat.lt_of_lt_of_le (allocated.used element old) later
    · exact (range element new).2
  · intro a b left right same
    rcases origin a left with oldLeft | newLeft <;> rcases origin b right with oldRight | newRight
    · exact allocated.unique a b oldLeft oldRight same
    · have used := allocated.used a oldLeft
      have fresh := (range b newRight).1
      omega
    · have used := allocated.used b oldRight
      have fresh := (range a newLeft).1
      omega
    · exact apart a b newLeft newRight same

theorem Allocated.step {before after : Session} (allocated : before.Allocated) (step : Step before after) :
    after.Allocated := by
  cases step with
  | token token l next made =>
    obtain ⟨rfl, rfl⟩ := Prod.mk.inj (Except.ok.inj made)
    refine allocated.grow (N := (· = .leaf ⟨before.next, token⟩)) ?_ ?_ ?_ (Nat.le_succ _)
    · intro element holds
      rcases holds_cons.mp holds with new | old
      · exact .inr (List.mem_singleton.mp new)
      · exact .inl old
    · rintro element rfl
      exact ⟨Nat.le_refl _, Nat.lt_succ_self _⟩
    · rintro a b rfl rfl _
      rfl
  | call call n next held made =>
    have later := (Call.made_of_run made).later
    have own : (Element.node n).serial = next - 1 := congrArg Node.serial (Call.made_of_run made).shape
    have oldArguments : ∀ argument ∈ call.arguments, argument.serial < before.next := by
      intro argument given
      exact allocated.used argument (.of_mem (held argument given))
    refine allocated.grow (N := fun element => element = .node n ∨
      element ∈ n.elements ∧ before.next ≤ element.serial ∧ element.serial < next - 1) ?_ ?_ ?_
      (Nat.le_of_lt later)
    · intro element holds
      rcases holds_cons.mp holds with new | old
      · rcases Call.mem_flatten_of_run made new with same | ⟨argument, given, below⟩ | filler
        · exact .inr (.inl same)
        · exact .inl ⟨argument, held argument given, below⟩
        · exact .inr (.inr filler)
      · exact .inl old
    · rintro element (rfl | ⟨_, fresh, bound⟩)
      · dsimp only
        omega
      · dsimp only
        omega
    · rintro a b (rfl | ⟨left, fresh, bound⟩) (rfl | ⟨right, _, bound'⟩) same
      · rfl
      · omega
      · omega
      · exact Call.elements_apart made oldArguments left right fresh bound same
  | child parent child held within =>
    refine allocated.grow (N := fun _ => False) ?_ ?_ ?_ (Nat.le_refl _)
    · intro element holds
      rcases holds_cons.mp holds with new | old
      · exact .inl (((Holds.of_mem held).child within).below new)
      · exact .inl old
    · rintro _ ⟨⟩
    · rintro _ _ ⟨⟩

/-- Throughout a session one serial number belongs to one element. -/
theorem Reachable.allocated {session : Session} (reachable : session.Reachable) : session.Allocated := by
  refine reachable.invariant (P := Allocated) (fun next => ?_) (fun before after => Allocated.step)
  constructor
  · rintro element ⟨_, impossible, _⟩
    cases impossible
  · rintro a b ⟨_, impossible, _⟩
    cases impossible

end Session

end LosslessSyntax
