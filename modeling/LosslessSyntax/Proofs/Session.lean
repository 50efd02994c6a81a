import Mathlib.Logic.Relation
import LosslessSyntax.Tree.Draft
import LosslessSyntax.Tree.Edit
import LosslessSyntax.Proofs.Subtree

/-!
# Sessions

A session holds handles and makes further ones: tokens, nodes built or edited from handles it holds,
and the children of nodes it holds. Handles come in any order, and each may be used any number of
times. A node is reachable when some session holds it. What a call that succeeds makes is said once,
by `Call.made_of_run`; later statements about reachable nodes are about its result.
-/

namespace LosslessSyntax

/-- A call that is to make a node. -/
inductive Call where
  | ofChildren (kind : SyntaxKind) (children : List (Option Element))
  | ofElements (kind : SyntaxKind) (elements : List Element)
  | ofDraft (kind : SyntaxKind) (values : List (String × Option Element))
  | withChild (n : Node) (name : String) (value : Option Element)
  | withChildAt (n : Node) (index : Nat) (value : Option Element)
  | withAppended (n : Node) (element : Element)
  | withRemoved (n : Node) (index : Nat)
  | withElements (n : Node) (elements : List Element)

/-- Why a call makes no node. -/
inductive Refusal where
  | violation (violation : Violation)
  /-- There is no element to take away. -/
  | outOfBounds (kind : SyntaxKind) (index size : Nat)
  deriving DecidableEq

/-- The refusal of a removal. -/
def Refusal.ofRemoval : RemovalError → Refusal
  | .outOfBounds kind index size => .outOfBounds kind index size
  | .fixedArity broken => .violation broken

namespace Call

/-- The outcome of a call, with the next serial number before and after. -/
def run (call : Call) (serial : Nat) : Except Refusal (Node × Nat) :=
  match call with
  | ofChildren kind children => (Node.ofChildren kind children serial).mapError .violation
  | ofElements kind elements => (Node.ofElements kind elements serial).mapError .violation
  | ofDraft kind values =>
    (((Draft.empty kind).setAll values).finish serial).mapError .violation
  | withChild n name value => (n.withChild name value serial).mapError .violation
  | withChildAt n index value => (n.withChildAt index value serial).mapError .violation
  | withAppended n element => (n.withAppended element serial).mapError .violation
  | withRemoved n index => (n.withRemoved index serial).mapError .ofRemoval
  | withElements n elements => (n.withElements elements serial).mapError .violation

/-- The handles that a call is given. -/
def arguments : Call → List Element
  | ofChildren _ children => Element.present children
  | ofElements _ elements => elements
  | ofDraft _ values => Element.present (values.map (·.2))
  | withChild n _ value | withChildAt n _ value => .node n :: value.toList
  | withAppended n element => [.node n, element]
  | withRemoved n _ => [.node n]
  | withElements n elements => .node n :: elements

end Call

/-- The handles in use, and the next serial number. -/
structure Session where
  next : Nat
  held : List Element

namespace Session

/-- One more handle: a new token, a node made from handles in use, or a child of one of them. -/
inductive Step : Session → Session → Prop
  | token (session : Session) (token : Token) (l : Leaf) (next : Nat)
      (made : (Leaf.ofToken token : Building Violation Leaf) session.next = .ok (l, next)) :
      Step session ⟨next, .leaf l :: session.held⟩
  | call (session : Session) (call : Call) (n : Node) (next : Nat)
      (held : ∀ argument ∈ call.arguments, argument ∈ session.held)
      (made : call.run session.next = .ok (n, next)) : Step session ⟨next, .node n :: session.held⟩
  | child (session : Session) (element child : Element) (held : element ∈ session.held)
      (member : child ∈ element.elements) : Step session ⟨session.next, child :: session.held⟩

/-- Some run of steps leads to the session, beginning without handles. -/
def Reachable (session : Session) : Prop :=
  ∃ start, Relation.ReflTransGen Step ⟨start, []⟩ session

end Session

/-- Some session holds the node. -/
def Node.Reachable (n : Node) : Prop :=
  ∃ session : Session, session.Reachable ∧ .node n ∈ session.held

/-- What holds of no handles at first, and after each step if it held before, holds of every
session. -/
theorem Session.Reachable.invariant {P : Session → Prop} (start : ∀ next, P ⟨next, []⟩)
    (step : ∀ before after, P before → Step before after → P after) {session : Session}
    (reachable : session.Reachable) : P session := by
  obtain ⟨next, path⟩ := reachable
  induction path with
  | refl => exact start next
  | tail _ last ih => exact step _ _ ih last

theorem Session.Reachable.step {before after : Session} (reachable : before.Reachable)
    (step : Step before after) : after.Reachable := by
  obtain ⟨start, path⟩ := reachable
  exact ⟨start, path.tail step⟩

/-! ## A session for the text `[ /**/T`

The closing bracket is missing. The array type is drafted by former names, then an attributed type is
drafted over it, whose attributes are filled in, and at last its absent specifier is set anew. -/

namespace Sample

def opening : Leaf :=
  ⟨0, .present (.fixed .leftSquare) .empty ⟨#[.run .space 1, .stretch .blockComment "/**/"]⟩⟩

def name : Leaf := ⟨1, .bare (.free .identifier "T")⟩

def closing : Leaf := ⟨2, .missing (.fixed .rightSquare)⟩

def element : Node := .mk 3 .identifierType [some (.leaf name), none] 1

def array : Node :=
  .mk 4 .arrayType [some (.leaf opening), some (.node element), some (.leaf closing)] 7

def attributes : Node := .mk 5 .attributeList [] 0

def drafted : Node := .mk 6 .attributedType [none, some (.node attributes), some (.node array)] 7

def root : Node := .mk 7 .attributedType [none, some (.node attributes), some (.node array)] 7

/-- All that the session made, the latest first. -/
def session : Session :=
  ⟨8, [.node root, .node drafted, .node array, .node element, .leaf closing, .leaf name, .leaf opening]⟩

theorem session_reachable : session.Reachable := by
  have start : Session.Reachable ⟨0, []⟩ := ⟨0, .refl⟩
  have tokens := ((start.step (.token _ opening.token opening 1 rfl)).step
    (.token _ name.token name 2 rfl)).step (.token _ closing.token closing 3 rfl)
  have named := tokens.step (.call _ (.ofChildren .identifierType [some (.leaf name), none]) element 4
    (by simp [Call.arguments]) rfl)
  have bracketed := named.step (.call _ (.ofDraft .arrayType [("leftSquareBracket", some (.leaf opening)),
    ("elementType", some (.node element)), ("rightSquareBracket", some (.leaf closing))]) array 5
    (by simp [Call.arguments]) rfl)
  have wrapped := bracketed.step (.call _ (.ofDraft .attributedType [("baseType", some (.node array))])
    drafted 7 (by simp [Call.arguments]) rfl)
  exact wrapped.step (.call _ (.withChild drafted "specifier" none) root 8
    (by simp [Call.arguments]) rfl)

theorem root_reachable : root.Reachable := ⟨session, session_reachable, List.mem_cons_self⟩

theorem array_reachable : array.Reachable := ⟨session, session_reachable, by simp [session]⟩

end Sample

section Outcomes

variable {serial next : Nat} {n made : Node}

theorem Node.ofChildren_ok_iff {kind : SyntaxKind} {children : List (Option Element)} :
    ofChildren kind children serial = .ok (made, next) ↔
      catalogue.validate kind (children.map Supplied.ofEntry) = .ok () ∧
        made = .mk serial kind children (totalLen children) ∧ next = serial + 1 := by
  rw [run_ofChildren]
  cases catalogue.validate kind (children.map Supplied.ofEntry) with
  | error violation => simp [Except.map]
  | ok _ => simp [Except.map, eq_comm]

theorem Node.withChildAt_ok_iff {index : Nat} {value : Option Element} :
    n.withChildAt index value serial = .ok (made, next) ↔
      catalogue.validateSlot n.kind index (.ofEntry value) = .ok () ∧
        made = .mk serial n.kind (n.children.set index value) (totalLen (n.children.set index value)) ∧
        next = serial + 1 := by
  rw [run_withChildAt]
  cases catalogue.validateSlot n.kind index (.ofEntry value) with
  | error violation => simp [Except.map]
  | ok _ => simp [Except.map, eq_comm]

/-- A name stands for the position it resolves to. -/
theorem Node.withChild_ok_iff {name : String} {value : Option Element} :
    n.withChild name value serial = .ok (made, next) ↔
      ∃ index, catalogue.slotIndex? n.kind name = some index ∧
        n.withChildAt index value serial = .ok (made, next) := by
  unfold withChild slotIndex
  cases catalogue.slotIndex? n.kind name with
  | none =>
    constructor
    · intro impossible; cases impossible
    · rintro ⟨_, impossible, _⟩; cases impossible
  | some index => exact ⟨fun ran => ⟨index, rfl, ran⟩, fun ⟨_, same, ran⟩ => by cases same; exact ran⟩

theorem Node.withAppended_ok_iff {element : Element} :
    n.withAppended element serial = .ok (made, next) ↔
      catalogue.validateElement n.kind n.size element.supplied = .ok () ∧
        made = .mk serial n.kind (n.children ++ [some element])
          (totalLen (n.children ++ [some element])) ∧ next = serial + 1 := by
  rw [run_withAppended]
  cases catalogue.validateElement n.kind n.size element.supplied with
  | error violation => simp [Except.map]
  | ok _ => simp [Except.map, eq_comm]

theorem Node.withRemoved_ok_iff {index : Nat} :
    n.withRemoved index serial = .ok (made, next) ↔
      index < n.size ∧ catalogue.isCollection n.kind ∧
        made = .mk serial n.kind (n.children.eraseIdx index) (totalLen (n.children.eraseIdx index)) ∧
        next = serial + 1 := by
  unfold withRemoved
  by_cases outside : n.size ≤ index
  · rw [if_pos outside]
    constructor
    · intro impossible; cases impossible
    · rintro ⟨inside, _⟩; omega
  · rw [if_neg outside]
    by_cases collection : catalogue.isCollection n.kind
    · rw [if_pos collection]
      constructor
      · intro ran; cases ran; exact ⟨by omega, collection, rfl, rfl⟩
      · rintro ⟨_, _, rfl, rfl⟩; rfl
    · rw [if_neg collection]
      constructor
      · intro impossible; cases impossible
      · rintro ⟨_, isCollection, _⟩; exact absurd isCollection collection

end Outcomes

namespace Draft

theorem mem_slots_set (draft : Draft) {name : String} {value : Option Element} {element : Element}
    (member : element ∈ Element.present (draft.set name value).slots) :
    value = some element ∨ element ∈ Element.present draft.slots := by
  unfold set at member
  split at member
  · exact Element.mem_present_set member
  · split at member
    · exact .inr member
    · exact .inr member

/-- What stands in a draft was there before or was set. -/
theorem mem_slots_setAll (draft : Draft) {values : List (String × Option Element)} {element : Element}
    (member : element ∈ Element.present (draft.setAll values).slots) :
    element ∈ Element.present (values.map (·.2)) ∨ element ∈ Element.present draft.slots := by
  induction values generalizing draft with
  | nil => exact .inr member
  | cons first rest ih =>
    rw [List.map_cons, Element.present_cons, List.mem_append]
    rcases ih (draft.set first.1 first.2) member with later | before
    · exact .inl (.inr later)
    · rcases mem_slots_set draft before with new | old
      · exact .inl (.inl (by simp [new]))
      · exact .inr old

theorem present_slots_empty (kind : SyntaxKind) : Element.present (empty kind).slots = [] := by
  simp [empty, Element.present]

/-- An empty collection that was allocated between two serial numbers to fill a slot. -/
def Filler (slot : Slot) (first last : Nat) (element : Element) : Prop :=
  ∃ kind id, slot.constraint.default? = some kind ∧ first ≤ id ∧ id < last ∧
    element = .node (.mk id kind [] 0)

theorem Filler.widen {slot : Slot} {first last first' last' : Nat} {element : Element}
    (filler : Filler slot first last element) (lower : first' ≤ first) (upper : last ≤ last') :
    Filler slot first' last' element := by
  obtain ⟨kind, id, default, from_, below, rfl⟩ := filler
  exact ⟨kind, id, default, by omega, by omega, rfl⟩

theorem defaulted_run (ε : Type) (slot : Slot) (entry : Option Element) (serial : Nat) :
    ∃ filled next, (defaulted slot entry : Building ε _) serial = .ok (filled, next) ∧ serial ≤ next ∧
      ∀ element, filled = some element → entry = some element ∨ Filler slot serial next element := by
  unfold defaulted
  cases entry with
  | some element => exact ⟨some element, serial, rfl, Nat.le_refl _, fun _ same => .inl same⟩
  | none =>
    cases default : slot.constraint.default? with
    | none => exact ⟨none, serial, rfl, Nat.le_refl _, fun _ same => .inl same⟩
    | some kind =>
      refine ⟨some (.node (.mk serial kind [] 0)), serial + 1, rfl, Nat.le_succ _, fun element same => ?_⟩
      cases same
      exact .inr ⟨kind, serial, default, Nat.le_refl _, Nat.lt_succ_self _, rfl⟩

/-- Slots are filled one after the other. -/
theorem run_defaultedAll_cons {ε : Type} {slot : Slot} {slots : List Slot} {entry first : Option Element}
    {entries others : List (Option Element)} {serial middle next : Nat}
    (firstRan : (defaulted slot entry : Building ε _) serial = .ok (first, middle))
    (othersRan : (defaultedAll slots entries : Building ε _) middle = .ok (others, next)) :
    (defaultedAll (slot :: slots) (entry :: entries) : Building ε _) serial = .ok (first :: others, next) := by
  change (defaulted slot entry serial).bind (fun made =>
    (defaultedAll slots entries made.2).bind fun more => .ok (made.1 :: more.1, more.2)) = _
  rw [firstRan]
  change (defaultedAll slots entries middle).bind (fun more => .ok (first :: more.1, more.2)) = _
  rw [othersRan]
  rfl

/-- Filling slots never fails, and keeps what stands in them. -/
theorem defaultedAll_run (ε : Type) (slots : List Slot) (entries : List (Option Element)) (serial : Nat) :
    ∃ filled next, (defaultedAll slots entries : Building ε _) serial = .ok (filled, next) ∧ serial ≤ next ∧
      ∀ element ∈ Element.present filled,
        element ∈ Element.present entries ∨ ∃ slot ∈ slots, Filler slot serial next element := by
  induction slots generalizing entries serial with
  | nil => exact ⟨entries, serial, by cases entries <;> rfl, Nat.le_refl _, fun _ member => .inl member⟩
  | cons slot slots ih =>
    cases entries with
    | nil => exact ⟨[], serial, rfl, Nat.le_refl _, fun _ member => .inl member⟩
    | cons entry entries =>
      obtain ⟨first, middle, firstRan, before, firstOrigin⟩ := defaulted_run ε slot entry serial
      obtain ⟨others, next, othersRan, after, othersOrigin⟩ := ih entries middle
      refine ⟨first :: others, next, run_defaultedAll_cons firstRan othersRan, by omega,
        fun element member => ?_⟩
      rw [Element.present_cons, List.mem_append, Option.mem_toList] at member
      rw [Element.present_cons, List.mem_append, Option.mem_toList]
      rcases member with here | later
      · rcases firstOrigin element here with kept | filler
        · exact .inl (.inl kept)
        · exact .inr ⟨slot, List.mem_cons_self, filler.widen (Nat.le_refl _) after⟩
      · rcases othersOrigin element later with kept | ⟨other, member, filler⟩
        · exact .inl (.inr kept)
        · exact .inr ⟨other, List.mem_cons_of_mem _ member, filler.widen before (Nat.le_refl _)⟩

/-- A draft without trouble is finished to what is built over its filled slots. -/
theorem run_finish {draft : Draft} (known : draft.unknown = none) {serial middle : Nat}
    {filled : List (Option Element)}
    (ran : (defaultedAll (catalogue.slots draft.kind) draft.slots : Building Violation _) serial =
      .ok (filled, middle)) :
    draft.finish serial = Node.ofChildren draft.kind filled middle := by
  simp [finish, known, bind, StateT.bind, Except.bind, ran]

/-- A finished draft is the node over its filled slots. -/
theorem finish_ok_iff {draft : Draft} {serial next : Nat} {made : Node} :
    draft.finish serial = .ok (made, next) ↔
      draft.unknown = none ∧ ∃ filled middle,
        (defaultedAll (catalogue.slots draft.kind) draft.slots : Building Violation _) serial =
          .ok (filled, middle) ∧ Node.ofChildren draft.kind filled middle = .ok (made, next) := by
  cases trouble : draft.unknown with
  | some violation =>
    unfold finish
    rw [trouble]
    constructor
    · intro impossible; cases impossible
    · rintro ⟨impossible, _⟩; cases impossible
  | none =>
    obtain ⟨filled, middle, ran, _⟩ :=
      defaultedAll_run Violation (catalogue.slots draft.kind) draft.slots serial
    rw [run_finish trouble ran]
    refine ⟨fun made => ⟨rfl, filled, middle, ran, made⟩, fun ⟨_, other, later, ran', made⟩ => ?_⟩
    cases ran.symm.trans ran'
    exact made

end Draft

namespace Call

/-- What a call made: a node allocated last, that knows the length of its children. Each child was
given to the call, stands below a node given to it, or is an empty collection put into a slot. -/
structure Made (call : Call) (serial : Nat) (n : Node) (next : Nat) : Prop where
  later : serial < next
  shape : n = .mk (next - 1) n.kind n.children (Node.totalLen n.children)
  origin : ∀ child ∈ n.elements, child ∈ call.arguments ∨
    (∃ argument ∈ call.arguments, child ∈ argument.elements) ∨
    ∃ slot ∈ catalogue.slots n.kind, Draft.Filler slot serial (next - 1) child

theorem mapError_ok_iff {ε ε' α : Type} {f : ε → ε'} {outcome : Except ε α} {a : α} :
    outcome.mapError f = .ok a ↔ outcome = .ok a := by
  cases outcome with
  | ok b =>
    constructor
    · intro same; cases same; rfl
    · intro same; cases same; rfl
  | error e =>
    constructor
    · intro impossible; cases impossible
    · intro impossible; cases impossible

/-- The node was made from entries, after as many fillers as there are numbers in between. -/
theorem Made.of_mk {call : Call} {serial middle : Nat} {kind : SyntaxKind}
    {children : List (Option Element)} (before : serial ≤ middle)
    (origin : ∀ child ∈ Element.present children, child ∈ call.arguments ∨
      (∃ argument ∈ call.arguments, child ∈ argument.elements) ∨
      ∃ slot ∈ catalogue.slots kind, Draft.Filler slot serial middle child) :
    Made call serial (.mk middle kind children (Node.totalLen children)) (middle + 1) where
  later := by omega
  shape := rfl
  origin := origin

/-- A node with one entry replaced was made from that node and the new entry. -/
theorem Made.of_withChildAt {call : Call} {serial next index : Nat} {m n : Node} {value : Option Element}
    (arguments : call.arguments = .node m :: value.toList)
    (ran : m.withChildAt index value serial = .ok (n, next)) : Made call serial n next := by
  obtain ⟨_, rfl, rfl⟩ := Node.withChildAt_ok_iff.mp ran
  refine .of_mk (Nat.le_refl _) fun child member => ?_
  rw [arguments]
  rcases Element.mem_present_set member with new | old
  · exact .inl (by simp [new])
  · exact .inr (.inl ⟨.node m, List.mem_cons_self, old⟩)

theorem made_of_run {call : Call} {serial next : Nat} {n : Node}
    (ran : call.run serial = .ok (n, next)) : Made call serial n next := by
  cases call with
  | ofChildren kind children =>
    obtain ⟨_, rfl, rfl⟩ := Node.ofChildren_ok_iff.mp (mapError_ok_iff.mp ran)
    exact .of_mk (Nat.le_refl _) fun child member => .inl member
  | ofElements kind elements =>
    obtain ⟨_, rfl, rfl⟩ := Node.ofChildren_ok_iff.mp (mapError_ok_iff.mp ran)
    refine .of_mk (Nat.le_refl _) fun child member => .inl ?_
    rwa [Element.present_map_some] at member
  | ofDraft kind values =>
    obtain ⟨_, filled, middle, filledRan, built⟩ := Draft.finish_ok_iff.mp (mapError_ok_iff.mp ran)
    obtain ⟨_, _, same, before, origin⟩ := Draft.defaultedAll_run Violation
      (catalogue.slots ((Draft.empty kind).setAll values).kind) ((Draft.empty kind).setAll values).slots serial
    cases filledRan.symm.trans same
    obtain ⟨_, rfl, rfl⟩ := Node.ofChildren_ok_iff.mp built
    refine .of_mk before fun child member => ?_
    rcases origin child member with set | filler
    · rcases Draft.mem_slots_setAll _ set with given | open_
      · exact .inl given
      · simp [Draft.present_slots_empty] at open_
    · exact .inr (.inr filler)
  | withChild m name value =>
    obtain ⟨index, _, ran⟩ := Node.withChild_ok_iff.mp (mapError_ok_iff.mp ran)
    exact .of_withChildAt rfl ran
  | withChildAt m index value => exact .of_withChildAt rfl (mapError_ok_iff.mp ran)
  | withAppended m element =>
    obtain ⟨_, rfl, rfl⟩ := Node.withAppended_ok_iff.mp (mapError_ok_iff.mp ran)
    refine .of_mk (Nat.le_refl _) fun child member => ?_
    rcases List.mem_append.mp (Element.mem_present.mp member) with old | new
    · exact .inr (.inl ⟨.node m, List.mem_cons_self, Element.mem_present.mpr old⟩)
    · simp only [List.mem_singleton, Option.some.injEq] at new
      exact .inl (by simp [arguments, new])
  | withRemoved m index =>
    obtain ⟨_, _, rfl, rfl⟩ := Node.withRemoved_ok_iff.mp (mapError_ok_iff.mp ran)
    refine .of_mk (Nat.le_refl _) fun child member => ?_
    have old := List.mem_of_mem_eraseIdx (Element.mem_present.mp member)
    exact .inr (.inl ⟨.node m, List.mem_cons_self, Element.mem_present.mpr old⟩)
  | withElements m elements =>
    obtain ⟨_, rfl, rfl⟩ := Node.ofChildren_ok_iff.mp (mapError_ok_iff.mp ran)
    refine .of_mk (Nat.le_refl _) fun child member => .inl (List.mem_cons_of_mem _ ?_)
    rwa [Element.present_map_some] at member

end Call

end LosslessSyntax
