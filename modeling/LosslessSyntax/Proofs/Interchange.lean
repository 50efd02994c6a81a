import LosslessSyntax.Proofs.Drafting
import LosslessSyntax.Proofs.EqualReads

/-!
# Interchange

Equal trees do the same service. Calls that differ only in that equal handles stand in for one another are
refused for the same reason or make equal nodes, and so do whole programs, whatever they build and edit from
the handles they begin with. What calls make is compared by structure (`Call.Matches.agree_alike`); that
trees of one structure compare equal and read the same is known already. The main statement is
`equal_interchangeable`.
-/

namespace LosslessSyntax

namespace Call

/-- Two calls of one sort, with the same kinds, names and positions, whose handles are related. -/
inductive Matches (R : Element → Element → Prop) : Call → Call → Prop
  | ofChildren (kind : SyntaxKind) {children others : List (Option Element)}
    (entries : List.Forall₂ (Option.Rel R) children others) :
    Matches R (.ofChildren kind children) (.ofChildren kind others)
  | ofElements (kind : SyntaxKind) {elements others : List Element} (each : List.Forall₂ R elements others) :
    Matches R (.ofElements kind elements) (.ofElements kind others)
  | ofDraft (kind : SyntaxKind) {values others : List (String × Option Element)}
    (each : List.Forall₂ (fun value other => value.1 = other.1 ∧ Option.Rel R value.2 other.2) values others) :
    Matches R (.ofDraft kind values) (.ofDraft kind others)
  | withChild {n m : Node} (node : R (.node n) (.node m)) (name : String) {value other : Option Element}
    (entry : Option.Rel R value other) : Matches R (.withChild n name value) (.withChild m name other)
  | withChildAt {n m : Node} (node : R (.node n) (.node m)) (index : Nat) {value other : Option Element}
    (entry : Option.Rel R value other) : Matches R (.withChildAt n index value) (.withChildAt m index other)
  | withAppended {n m : Node} (node : R (.node n) (.node m)) {element other : Element}
    (last : R element other) : Matches R (.withAppended n element) (.withAppended m other)
  | withRemoved {n m : Node} (node : R (.node n) (.node m)) (index : Nat) :
    Matches R (.withRemoved n index) (.withRemoved m index)
  | withElements {n m : Node} (node : R (.node n) (.node m)) {elements others : List Element}
    (each : List.Forall₂ R elements others) : Matches R (.withElements n elements) (.withElements m others)

/-- Results whose nodes are related. -/
def Results (R : Element → Element → Prop) (made made' : Node × Nat) : Prop := R (.node made.1) (.node made'.1)

end Call

section Edits

open Element (Alike alike_node_iff)

theorem forall₂_set {R : Option Element → Option Element → Prop} {children others : List (Option Element)}
    {value other : Option Element} (entries : List.Forall₂ R children others) (entry : R value other)
    (index : Nat) : List.Forall₂ R (children.set index value) (others.set index other) := by
  induction entries generalizing index with
  | nil => exact .nil
  | cons first rest ih =>
    cases index with
    | zero => exact .cons entry rest
    | succ index => exact .cons first (ih index)

theorem forall₂_eraseIdx {R : Option Element → Option Element → Prop} {children others : List (Option Element)}
    (entries : List.Forall₂ R children others) (index : Nat) :
    List.Forall₂ R (children.eraseIdx index) (others.eraseIdx index) := by
  rw [List.eraseIdx_eq_take_drop_succ, List.eraseIdx_eq_take_drop_succ]
  exact List.rel_append (List.forall₂_take index entries) (List.forall₂_drop (index + 1) entries)

theorem forall₂_map_some {R : Element → Element → Prop} {elements others : List Element}
    (each : List.Forall₂ R elements others) :
    List.Forall₂ (Option.Rel R) (elements.map some) (others.map some) :=
  List.rel_map (fun _ _ => Option.Rel.some) each

variable {kind : SyntaxKind} {children others : List (Option Element)} {n m : Node}
  {value other : Option Element} (serial serial' : Nat)

theorem alike_mk {len len' : Nat} (entries : List.Forall₂ (Option.Rel Alike) children others) :
    Alike (.node (.mk serial kind children len)) (.node (.mk serial' kind others len')) :=
  alike_node_iff.mpr ⟨rfl, entries⟩

theorem ofChildren_alike (entries : List.Forall₂ (Option.Rel Alike) children others) :
    Agree (Call.Results Alike) (Node.ofChildren kind children serial) (Node.ofChildren kind others serial') := by
  have supplied := Element.map_ofEntry_eq (entries.imp (rel_imp fun _ _ alike => alike.supplied_eq))
  rw [Node.run_ofChildren, Node.run_ofChildren, supplied]
  exact .of_check rfl (alike_mk serial serial' entries)

theorem withChildAt_alike (alike : Alike (.node n) (.node m)) (index : Nat) (entry : Option.Rel Alike value other) :
    Agree (Call.Results Alike) (n.withChildAt index value serial) (m.withChildAt index other serial') := by
  obtain ⟨kind, entries⟩ := alike_node_iff.mp alike
  rw [Node.run_withChildAt, Node.run_withChildAt, kind, Element.ofEntry_eq_of_alike entry]
  exact .of_check rfl (alike_mk serial serial' (forall₂_set entries entry index))

theorem withChild_alike (alike : Alike (.node n) (.node m)) (name : String) (entry : Option.Rel Alike value other) :
    Agree (Call.Results Alike) (n.withChild name value serial) (m.withChild name other serial') := by
  unfold Node.withChild Node.slotIndex
  rw [(alike_node_iff.mp alike).1, Element.ofEntry_eq_of_alike entry]
  cases catalogue.slotIndex? m.kind name with
  | none => exact .error _
  | some index => exact withChildAt_alike serial serial' alike index entry

theorem withAppended_alike {element last : Element} (alike : Alike (.node n) (.node m))
    (each : Alike element last) :
    Agree (Call.Results Alike) (n.withAppended element serial) (m.withAppended last serial') := by
  obtain ⟨kind, entries⟩ := alike_node_iff.mp alike
  have size : n.size = m.size := entries.length_eq
  rw [Node.run_withAppended, Node.run_withAppended, kind, size, each.supplied_eq]
  exact .of_check rfl (alike_mk serial serial' (List.rel_append entries (.cons (.some each) .nil)))

theorem withRemoved_alike (alike : Alike (.node n) (.node m)) (index : Nat) :
    Agree (Call.Results Alike) (n.withRemoved index serial) (m.withRemoved index serial') := by
  obtain ⟨kind, entries⟩ := alike_node_iff.mp alike
  have size : n.size = m.size := entries.length_eq
  unfold Node.withRemoved
  rw [kind, size]
  by_cases outside : m.size ≤ index
  · rw [if_pos outside, if_pos outside]
    exact .error _
  · rw [if_neg outside, if_neg outside]
    by_cases collection : catalogue.isCollection m.kind
    · rw [if_pos collection, if_pos collection]
      exact .ok (alike_mk serial serial' (forall₂_eraseIdx entries index))
    · rw [if_neg collection, if_neg collection]
      exact .error _

theorem withElements_alike {elements instead : List Element} (alike : Alike (.node n) (.node m))
    (each : List.Forall₂ Alike elements instead) :
    Agree (Call.Results Alike) (n.withElements elements serial) (m.withElements instead serial') := by
  unfold Node.withElements Node.ofElements
  rw [(alike_node_iff.mp alike).1]
  exact ofChildren_alike serial serial' (forall₂_map_some each)

end Edits

namespace Draft

/-- Drafts of one kind with like values and the same trouble. -/
structure Alike (a b : Draft) : Prop where
  kind : a.kind = b.kind
  slots : List.Forall₂ (Option.Rel Element.Alike) a.slots b.slots
  unknown : a.unknown = b.unknown

variable {a b : Draft}

theorem Alike.empty (kind : SyntaxKind) : Alike (empty kind) (empty kind) where
  kind := rfl
  slots := List.forall₂_same.mpr fun entry _ => rel_refl Element.Alike.refl entry
  unknown := rfl

theorem Alike.set {value other : Option Element} (alike : a.Alike b) (name : String)
    (entry : Option.Rel Element.Alike value other) : (a.set name value).Alike (b.set name other) := by
  obtain ⟨kind, slots, unknown⟩ := alike
  unfold Draft.set
  rw [kind, unknown, Element.ofEntry_eq_of_alike entry]
  cases catalogue.slotIndex? b.kind name with
  | some index => exact ⟨rfl, forall₂_set slots entry index, rfl⟩
  | none =>
    cases b.unknown with
    | some violation => exact ⟨kind, slots, unknown⟩
    | none => exact ⟨rfl, slots, rfl⟩

theorem Alike.setAll {values others : List (String × Option Element)} (alike : a.Alike b)
    (each : List.Forall₂ (fun value other => value.1 = other.1 ∧ Option.Rel Element.Alike value.2 other.2)
      values others) : (a.setAll values).Alike (b.setAll others) := by
  refine List.rel_foldl ?_ alike each
  rintro _ _ alike ⟨_, _⟩ ⟨_, _⟩ ⟨rfl, entry⟩
  exact alike.set _ entry

/-- Like values are filled up to like entries. -/
theorem defaultedAll_alike (slots : List Slot) {values others : List (Option Element)}
    (related : List.Forall₂ (Option.Rel Element.Alike) values others) (serial serial' : Nat) :
    ∃ filled next filled' next', (defaultedAll slots values : Building Violation _) serial = .ok (filled, next) ∧
      (defaultedAll slots others : Building Violation _) serial' = .ok (filled', next') ∧
      List.Forall₂ (Option.Rel Element.Alike) filled filled' := by
  induction slots generalizing values others serial serial' with
  | nil => exact ⟨values, serial, others, serial', by cases values <;> rfl, by cases others <;> rfl, related⟩
  | cons slot slots ih =>
    cases related with
    | nil => exact ⟨[], serial, [], serial', rfl, rfl, .nil⟩
    | @cons value other _ _ same rest =>
      obtain ⟨first, middle, firstRan, _⟩ := defaulted_run Violation slot value serial
      obtain ⟨first', middle', firstRan', _⟩ := defaulted_run Violation slot other serial'
      obtain ⟨filled, next, filled', next', ran, ran', entries⟩ := ih rest middle middle'
      refine ⟨first :: filled, next, first' :: filled', next', run_defaultedAll_cons firstRan ran,
        run_defaultedAll_cons firstRan' ran', .cons ?_ entries⟩
      refine Settles.related ?_ same (defaulted_settles firstRan) (defaulted_settles firstRan')
      -- an empty collection that either run puts in, whatever its number
      intro filler serial serial'
      exact alike_mk serial serial' .nil

theorem Alike.finish (alike : a.Alike b) (serial serial' : Nat) :
    Agree (Call.Results Element.Alike) (a.finish serial) (b.finish serial') := by
  obtain ⟨kind, slots, unknown⟩ := alike
  cases trouble : b.unknown with
  | some violation =>
    unfold Draft.finish
    rw [unknown, trouble]
    exact .error violation
  | none =>
    obtain ⟨filled, next, filled', next', ran, ran', entries⟩ :=
      defaultedAll_alike (catalogue.slots b.kind) slots serial serial'
    rw [run_finish (unknown.trans trouble) (kind ▸ ran), run_finish trouble ran', kind]
    exact ofChildren_alike next next' entries

end Draft

namespace Call.Matches

variable {R S : Element → Element → Prop} {call other : Call}

theorem imp (weaken : ∀ a b, R a b → S a b) (related : Matches R call other) : Matches S call other := by
  cases related with
  | ofChildren kind entries => exact .ofChildren kind (entries.imp (rel_imp weaken))
  | ofElements kind each => exact .ofElements kind (each.imp weaken)
  | ofDraft kind each =>
    refine .ofDraft kind (each.imp ?_)
    rintro _ _ ⟨name, entry⟩
    exact ⟨name, rel_imp weaken _ _ entry⟩
  | withChild node name entry => exact .withChild (weaken _ _ node) name (rel_imp weaken _ _ entry)
  | withChildAt node index entry => exact .withChildAt (weaken _ _ node) index (rel_imp weaken _ _ entry)
  | withAppended node last => exact .withAppended (weaken _ _ node) (weaken _ _ last)
  | withRemoved node index => exact .withRemoved (weaken _ _ node) index
  | withElements node each => exact .withElements (weaken _ _ node) (each.imp weaken)

/-- The handles that matching calls are given are related, one by one. -/
theorem arguments (related : Matches R call other) : List.Forall₂ R call.arguments other.arguments := by
  cases related with
  | ofChildren kind entries => exact Element.forall₂_present entries
  | ofElements kind each => exact each
  | ofDraft kind each => exact Element.forall₂_present (List.rel_map (fun _ _ same => same.2) each)
  | withChild node name entry => exact .cons node (Element.forall₂_toList entry)
  | withChildAt node index entry => exact .cons node (Element.forall₂_toList entry)
  | withAppended node last => exact .cons node (.cons last .nil)
  | withRemoved node index => exact .cons node .nil
  | withElements node each => exact .cons node each

/-- Calls on like handles are refused alike or make like nodes. -/
theorem agree_alike (related : Matches Element.Alike call other) (serial serial' : Nat) :
    Agree (Results Element.Alike) (call.run serial) (other.run serial') := by
  cases related with
  | ofChildren kind entries => exact (ofChildren_alike serial serial' entries).mapError _
  | ofElements kind each => exact (ofChildren_alike serial serial' (forall₂_map_some each)).mapError _
  | ofDraft kind each => exact (((Draft.Alike.empty kind).setAll each).finish serial serial').mapError _
  | withChild node name entry => exact (withChild_alike serial serial' node name entry).mapError _
  | withChildAt node index entry => exact (withChildAt_alike serial serial' node index entry).mapError _
  | withAppended node last => exact (withAppended_alike serial serial' node last).mapError _
  | withRemoved node index => exact (withRemoved_alike serial serial' node index).mapError _
  | withElements node each => exact (withElements_alike serial serial' node each).mapError _

/-- Calls on trees of one structure are refused alike or make trees of one structure. -/
theorem agree (related : Matches Element.SameTree call other) (serial serial' : Nat) :
    Agree (Results Element.SameTree) (call.run serial) (other.run serial') := by
  obtain ⟨left, right⟩ := Element.SameTree.sound_of_forall₂ related.arguments
  -- likeness alone would not do for a further step: lengths are kept, and kept lengths are compared
  refine ((related.imp fun _ _ same => same.alike).agree_alike serial serial').imp ?_
  intro made made' ran ran' alike
  exact ⟨alike, sound_of_run left ran, sound_of_run right ran'⟩

end Call.Matches

/-! ## Programs -/

/-- A call whose handles are named by their positions among those at hand. -/
inductive Request where
  | ofChildren (kind : SyntaxKind) (children : List (Option Nat))
  | ofElements (kind : SyntaxKind) (elements : List Nat)
  | ofDraft (kind : SyntaxKind) (values : List (String × Option Nat))
  | withChild (n : Nat) (name : String) (value : Option Nat)
  | withChildAt (n index : Nat) (value : Option Nat)
  | withAppended (n element : Nat)
  | withRemoved (n index : Nat)
  | withElements (n : Nat) (elements : List Nat)

/-- One step of a program: it makes a token, edits one, takes a child or calls for a node. -/
inductive Command where
  | token (content : Token)
  | retoken (l : Nat) (edit : Token → Token)
  | child (n index : Nat)
  | request (asked : Request)

section Handles

variable (held : List Element)

def nodeAt? (position : Nat) : Option Node := do (← held[position]?).node?

def leafAt? (position : Nat) : Option Leaf := do (← held[position]?).leaf?

/-- The entry that a position stands for; no position stands for an absent one. -/
def entryAt? : Option Nat → Option (Option Element)
  | none => some none
  | some position => do return some (← held[position]?)

/-- The call on the handles at hand, if all of them are there. -/
def Request.call? : Request → Option Call
  | ofChildren kind children => do return .ofChildren kind (← children.mapM (entryAt? held))
  | ofElements kind elements => do return .ofElements kind (← elements.mapM (held[·]?))
  | ofDraft kind values => do
    return .ofDraft kind (← values.mapM fun (name, value) => do return (name, ← entryAt? held value))
  | withChild n name value => do return .withChild (← nodeAt? held n) name (← entryAt? held value)
  | withChildAt n index value => do return .withChildAt (← nodeAt? held n) index (← entryAt? held value)
  | withAppended n element => do return .withAppended (← nodeAt? held n) (← held[element]?)
  | withRemoved n index => do return .withRemoved (← nodeAt? held n) index
  | withElements n elements => do return .withElements (← nodeAt? held n) (← elements.mapM (held[·]?))

namespace Command

/-- The outcome of a command, with the next serial number before and after. There is none if the command
names what is not there. -/
def perform (serial : Nat) : Command → Option (Except Refusal (Element × Nat))
  | .token content =>
    some (((Leaf.ofToken content : Building Refusal Leaf) serial).map fun made => (.leaf made.1, made.2))
  | retoken l edit => do
    let l ← leafAt? held l
    return ((l.withToken edit : Building Refusal Leaf) serial).map fun made => (.leaf made.1, made.2)
  | child n index => do
    let n ← nodeAt? held n
    let child ← n.childAt? index
    return .ok (child, serial)
  | .request asked => do
    let call ← asked.call? held
    return (call.run serial).map fun made => (.node made.1, made.2)

end Command

end Handles

/-- The outcomes of commands, one after the other. What is made can be used from then on, under the next
position. -/
def Command.outcomes : List Command → List Element → Nat → List (Option (Except Refusal Element))
  | [], _, _ => []
  | command :: rest, held, serial =>
    match command.perform held serial with
    | some (.ok (made, next)) => some (.ok made) :: outcomes rest (held ++ [made]) next
    | some (.error refusal) => some (.error refusal) :: outcomes rest held serial
    | none => none :: outcomes rest held serial

section Options

variable {α β γ δ : Type} {R : α → β → Prop} {S : γ → δ → Prop}

theorem rel_bind {a : Option α} {b : Option β} {f : α → Option γ} {g : β → Option δ} (related : Option.Rel R a b)
    (each : ∀ x y, R x y → Option.Rel S (f x) (g y)) : Option.Rel S (a >>= f) (b >>= g) := by
  cases related with
  | none => exact .none
  | some related => exact each _ _ related

theorem rel_mapM {f : α → Option γ} {g : α → Option δ} (each : ∀ a, Option.Rel S (f a) (g a)) (as : List α) :
    Option.Rel (List.Forall₂ S) (as.mapM f) (as.mapM g) := by
  induction as with
  | nil => exact .some .nil
  | cons a as ih =>
    rw [List.mapM_cons, List.mapM_cons]
    refine rel_bind (each a) fun first first' same => ?_
    refine rel_bind ih fun rest rest' others => ?_
    exact .some (.cons same others)

end Options

section Running

open Element (SameTree)

variable {held others : List Element} (same : List.Forall₂ SameTree held others)

include same

theorem rel_getElem? (position : Nat) : Option.Rel SameTree held[position]? others[position]? := by
  induction same generalizing position with
  | nil => exact .none
  | cons first _ ih =>
    cases position with
    | zero => exact .some first
    | succ position => exact ih position

theorem rel_nodeAt? (position : Nat) :
    Option.Rel (fun n m => SameTree (.node n) (.node m)) (nodeAt? held position) (nodeAt? others position) := by
  refine rel_bind (rel_getElem? same position) ?_
  intro a b tree
  refine tree.recursion ?leaf ?node
  case leaf =>
    intro a b _
    exact .none
  case node =>
    intro a b tree _
    exact .some tree

theorem rel_leafAt? (position : Nat) :
    Option.Rel (fun l k => l.token = k.token) (leafAt? held position) (leafAt? others position) := by
  refine rel_bind (rel_getElem? same position) ?_
  intro a b tree
  refine tree.recursion ?leaf ?node
  case leaf =>
    intro a b tree
    exact .some tree.token_eq
  case node =>
    intro a b _ _
    exact .none

theorem rel_entryAt? (position : Option Nat) :
    Option.Rel (Option.Rel SameTree) (entryAt? held position) (entryAt? others position) := by
  cases position with
  | none => exact .some .none
  | some position => exact rel_bind (rel_getElem? same position) fun _ _ tree => .some (.some tree)

/-- One request gives matching calls. -/
theorem rel_call? (request : Request) :
    Option.Rel (Call.Matches SameTree) (request.call? held) (request.call? others) := by
  cases request with
  | ofChildren kind children =>
    refine rel_bind (rel_mapM (rel_entryAt? same) children) fun _ _ entries => ?_
    exact .some (.ofChildren kind entries)
  | ofElements kind elements =>
    refine rel_bind (rel_mapM (rel_getElem? same) elements) fun _ _ each => ?_
    exact .some (.ofElements kind each)
  | ofDraft kind values =>
    have each : ∀ value : String × Option Nat, Option.Rel
        (fun value other => value.1 = other.1 ∧ Option.Rel SameTree value.2 other.2)
        (entryAt? held value.2 >>= fun entry => some (value.1, entry))
        (entryAt? others value.2 >>= fun entry => some (value.1, entry)) := by
      intro value
      exact rel_bind (rel_entryAt? same value.2) fun _ _ entry => .some ⟨rfl, entry⟩
    refine rel_bind (rel_mapM each values) fun _ _ each => ?_
    exact .some (.ofDraft kind each)
  | withChild n name value =>
    refine rel_bind (rel_nodeAt? same n) fun _ _ node => ?_
    refine rel_bind (rel_entryAt? same value) fun _ _ entry => ?_
    exact .some (.withChild node name entry)
  | withChildAt n index value =>
    refine rel_bind (rel_nodeAt? same n) fun _ _ node => ?_
    refine rel_bind (rel_entryAt? same value) fun _ _ entry => ?_
    exact .some (.withChildAt node index entry)
  | withAppended n element =>
    refine rel_bind (rel_nodeAt? same n) fun _ _ node => ?_
    refine rel_bind (rel_getElem? same element) fun _ _ last => ?_
    exact .some (.withAppended node last)
  | withRemoved n index =>
    refine rel_bind (rel_nodeAt? same n) fun _ _ node => ?_
    exact .some (.withRemoved node index)
  | withElements n elements =>
    refine rel_bind (rel_nodeAt? same n) fun _ _ node => ?_
    refine rel_bind (rel_mapM (rel_getElem? same) elements) fun _ _ each => ?_
    exact .some (.withElements node each)

/-- One command has outcomes that agree. -/
theorem perform_agree (command : Command) (serial serial' : Nat) :
    Option.Rel (Agree fun made made' => SameTree made.1 made'.1) (command.perform held serial)
      (command.perform others serial') := by
  cases command with
  | token content =>
    refine .some (.ok ?_)
    exact ⟨Element.alike_leaf_iff.mpr rfl, Element.sound_leaf _, Element.sound_leaf _⟩
  | retoken l edit =>
    refine rel_bind (rel_leafAt? same l) fun own other token => ?_
    refine .some (.ok ?_)
    exact ⟨Element.alike_leaf_iff.mpr (congrArg edit token), Element.sound_leaf _, Element.sound_leaf _⟩
  | child n index =>
    refine rel_bind (rel_nodeAt? same n) fun _ _ node => ?_
    refine rel_bind (node.childAt index) fun _ _ child => ?_
    exact .some (.ok child)
  | request asked =>
    refine rel_bind (rel_call? same asked) fun _ _ calls => ?_
    exact .some ((calls.agree serial serial').map fun _ _ made => made)

/-- Programs run alike on trees of one structure. -/
theorem outcomes_agree (program : List Command) (serial serial' : Nat) :
    List.Forall₂ (Option.Rel (Agree SameTree)) (Command.outcomes program held serial)
      (Command.outcomes program others serial') := by
  induction program generalizing held others serial serial' with
  | nil => exact .nil
  | cons command rest ih =>
    have step := perform_agree same command serial serial'
    unfold Command.outcomes
    generalize command.perform held serial = outcome at step
    generalize command.perform others serial' = outcome' at step
    cases step with
    | none => exact .cons .none (ih same serial serial')
    | some agree =>
      cases agree with
      | error refusal => exact .cons (.some (.error refusal)) (ih same serial serial')
      | @ok made made' tree =>
        -- what was made stands last among the handles of either run
        have longer : List.Forall₂ SameTree (held ++ [made.1]) (others ++ [made'.1]) :=
          List.rel_append same (.cons tree .nil)
        exact .cons (.some (.ok tree)) (ih longer made.2 made'.2)

end Running

/-- Equal nodes of a session are interchangeable. All reads of them agree; calls with the same names, kinds
and positions and equal handles are refused for the same reason or make nodes that are equal and read the
same; and a program that begins with equal handles goes the same way in all its steps, however the numbers
are given out. -/
theorem equal_interchangeable {session : Session} (reachable : session.Reachable) :
    (∀ a b : Node, session.Holds (.node a) → session.Holds (.node b) → (a == b) = true → a.SameReads b) ∧
      (∀ call other : Call, call.Matches session.Equates other → ∀ serial serial',
        Agree (Call.Results Element.Interchangeable) (call.run serial) (other.run serial')) ∧
      ∀ (program : List Command) (held others : List Element), List.Forall₂ session.Equates held others →
        ∀ serial serial', List.Forall₂ (Option.Rel (Agree Element.Interchangeable))
          (Command.outcomes program held serial) (Command.outcomes program others serial') := by
  refine ⟨?_, ?_, ?_⟩
  · intro a b left right equal
    exact (reachable.sameTree ⟨left, right, equal⟩).sameReads
  · intro call other related serial serial'
    have agree := (related.imp fun _ _ equates => reachable.sameTree equates).agree serial serial'
    exact agree.imp fun made made' _ _ tree => tree.interchangeable
  · intro program held others equates serial serial'
    have same := equates.imp fun _ _ equates => reachable.sameTree equates
    refine (outcomes_agree same program serial serial').imp ?_
    intro outcome outcome' agree
    cases agree with
    | none => exact .none
    | some agree => exact .some (agree.imp fun _ _ _ _ tree => tree.interchangeable)

/-- Puts another base type in, then puts it where it does not fit, and removes what is not there. -/
def Sample.program : List Command :=
  [.request (.withChild 0 "baseType" (some 1)), .request (.withChild 2 "specifier" (some 1)),
    .request (.withRemoved 2 9)]

theorem equal_interchangeable_program :
    Sample.session.Reachable ∧ Sample.session.Equates (.node Sample.drafted) (.node Sample.root) ∧
      Sample.drafted.SameReads Sample.root ∧
      Agree (Call.Results Element.Interchangeable) ((Call.withChild Sample.drafted "specifier" none).run 8)
        ((Call.withChild Sample.root "specifier" none).run 9) ∧
      List.Forall₂ (Option.Rel (Agree Element.Interchangeable))
        (Command.outcomes Sample.program [.node Sample.drafted, .node Sample.element] 8)
        (Command.outcomes Sample.program [.node Sample.root, .node Sample.element] 9) := by
  obtain ⟨reads, calls, programs⟩ := equal_interchangeable Sample.session_reachable
  have equates := Sample.equates
  have element : Sample.session.Holds (.node Sample.element) := .of_mem (by simp [Sample.session])
  refine ⟨Sample.session_reachable, equates, reads _ _ equates.left equates.right equates.equal, ?_, ?_⟩
  · exact calls _ _ (.withChild equates "specifier" .none) 8 9
  · exact programs _ _ _ (.cons equates (.cons ⟨element, element, Element.equal_self _⟩ .nil)) 8 9

end LosslessSyntax
