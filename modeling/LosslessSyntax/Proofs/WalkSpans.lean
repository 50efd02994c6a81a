import LosslessSyntax.Proofs.ByteScan
import LosslessSyntax.Proofs.DeepEdit

/-!
# Spans of a walk

A walk keeps one stack, and still comes along in the order of the tree: after any number of visits, what is
left are the other elements of the flattened root. What stands at a position of the tree is visited in one
stretch, and its source is cut out of the source of the root at the place that the lengths of the tokens
visited before add up to. The main statement is `walk_spans`; a position is given by the `Trail` that leads
to it.
-/

namespace LosslessSyntax

/-- The walk visits these elements one after the other, and then it ends. -/
inductive Walk.Yields : Walk → List Element → Prop
  | done {walk : Walk} : walk.next? = none → walk.Yields []
  | next {walk rest : Walk} {element : Element} {others : List Element} :
    walk.next? = some (element, rest) → rest.Yields others → walk.Yields (element :: others)

/-- What a walk visits before it comes to the position. -/
def Trail.visited : {n : Node} → Trail n → List Element
  | n, .here index => .node n :: flattenEntries (n.children.take index)
  | n, .down index _ rest => .node n :: flattenEntries (n.children.take index) ++ rest.visited

/-- The source text of the tokens among visited elements. -/
def visitedSource (visited : List Element) : String :=
  String.join ((visited.filterMap Element.leaf?).map (·.token.source))

/-- The bytes of the tokens among visited elements, from the lengths that the tokens know. -/
def visitedLen (visited : List Element) : Nat :=
  ((visited.filterMap Element.leaf?).map (·.token.textLen)).sum

/-- So many bytes of a text from a byte position on, if both ends lie between characters. -/
def slice? (text : String) (start len : Nat) : Option String := do
  let (_, rest) ← Trivia.cutAt? text start
  let (span, _) ← Trivia.cutAt? rest len
  return span

namespace Walk

/-- A walk comes to an end, and visits what is pending. -/
theorem yields_toList (walk : Walk) : walk.Yields walk.toList := by
  generalize visits : walk.toList = elements
  induction elements generalizing walk with
  | nil =>
    cases next : walk.next? with
    | none => exact .done next
    | some visit =>
      rw [toList_of_next? next] at visits
      cases visits
  | cons element others ih =>
    cases next : walk.next? with
    | none =>
      rw [toList_of_next?_eq_none next] at visits
      cases visits
    | some visit =>
      rw [toList_of_next? next] at visits
      obtain ⟨rfl, left⟩ := List.cons_eq_cons.mp visits
      exact .next next (ih visit.2 left)

theorem yields_drop (n : Node) (visits : Nat) :
    (n.walk.drop visits).Yields (n.flatten.drop visits) := by
  have whole : n.walk.toList = n.flatten := (Element.node n).preorder_eq
  rw [← whole, ← toList_drop]
  exact yields_toList _

end Walk

theorem Node.flatten_eq (n : Node) : n.flatten = .node n :: flattenEntries n.children := by
  cases n
  rfl

/-- What stands in an entry is visited in one stretch. -/
theorem flattenEntries_split {entries : List (Option Element)} {index : Nat} {element : Element}
    (found : entries[index]? = some (some element)) :
    flattenEntries entries =
      flattenEntries (entries.take index) ++ element.flatten ++ flattenEntries (entries.drop (index + 1)) := by
  simp only [flattenEntries_eq, present_split found, List.flatMap_append, Option.toList_some,
    List.flatMap_singleton]

/-- Whatever is visited below entries is visited below one of them. -/
theorem exists_entry_of_flattenEntries {entries : List (Option Element)} {front behind : List Element}
    {below : Element} (split : flattenEntries entries = front ++ below :: behind) :
    ∃ index element front' behind', entries[index]? = some (some element) ∧
      element.flatten = front' ++ below :: behind' ∧
      front = flattenEntries (entries.take index) ++ front' := by
  induction entries generalizing front with
  | nil => simp [flattenEntries] at split
  | cons entry rest ih =>
    rw [flattenEntries] at split
    rcases List.append_eq_append_iff.mp split with ⟨middle, rfl, tail⟩ | ⟨middle, head, tail⟩
    · obtain ⟨index, element, front', behind', found, inside, rfl⟩ := ih tail
      exact ⟨index + 1, element, front', behind', found, inside, by simp [flattenEntries]⟩
    · cases middle with
      | nil =>
        obtain ⟨index, element, front', behind', found, inside, same⟩ := ih (tail.symm.trans (List.nil_append _).symm)
        refine ⟨index + 1, element, front', behind', found, inside, ?_⟩
        rw [List.take_succ_cons, flattenEntries, List.append_assoc, ← same, head, List.append_nil, List.append_nil]
      | cons first more =>
        obtain ⟨rfl, _⟩ := List.cons_eq_cons.mp tail
        cases entry with
        | none => simp [flattenEntry] at head
        | some element => exact ⟨0, element, front, more, rfl, head, rfl⟩

namespace Trail

variable {n : Node} {element : Element}

/-- What stands at a position is visited in one stretch. -/
theorem flatten_eq {trail : Trail n} (found : trail.occupant = some element) :
    ∃ behind, n.flatten = trail.visited ++ element.flatten ++ behind := by
  induction trail with
  | @here n index =>
    refine ⟨flattenEntries (n.children.drop (index + 1)), ?_⟩
    have childAt : n.childAt? index = some element := found
    rw [Node.flatten_eq, flattenEntries_split (Node.childAt?_eq_some_iff.mp childAt)]
    rfl
  | @down n child index childAt rest ih =>
    obtain ⟨behind, inside⟩ := ih found
    refine ⟨behind ++ flattenEntries (n.children.drop (index + 1)), ?_⟩
    rw [Node.flatten_eq, flattenEntries_split (Node.childAt?_eq_some_iff.mp childAt), Element.flatten, inside]
    simp [visited]

/-- Every visit but the first is at the end of a trail. -/
theorem exists_trail {front behind : List Element} (split : n.flatten = front ++ element :: behind) :
    front = [] ∧ element = .node n ∨ ∃ trail : Trail n, trail.occupant = some element ∧ trail.visited = front := by
  suffices all : ∀ root n, root = Element.node n → ∀ front behind, n.flatten = front ++ element :: behind →
      front = [] ∧ element = .node n ∨ ∃ trail : Trail n, trail.occupant = some element ∧ trail.visited = front from
    all _ n rfl front behind split
  intro root
  induction root using Element.children_induction with
  | step root ih =>
    rintro n rfl front behind split
    rw [Node.flatten_eq] at split
    cases front with
    | nil =>
      obtain ⟨same, _⟩ := List.cons_eq_cons.mp split
      exact .inl ⟨rfl, same.symm⟩
    | cons first front =>
      right
      obtain ⟨rfl, below⟩ := List.cons_eq_cons.mp split
      obtain ⟨index, child, front', behind', entryAt, inside, rfl⟩ := exists_entry_of_flattenEntries below
      have childAt := Node.childAt?_eq_some_iff.mpr entryAt
      -- the visit is to the child itself, or goes further down
      have itself (same : element = child) (none : front' = []) :
          ∃ trail : Trail n, trail.occupant = some element ∧
            trail.visited = .node n :: (flattenEntries (n.children.take index) ++ front') :=
        ⟨.here ⟨index, Node.lt_size_of_childAt? childAt⟩, same ▸ childAt, by rw [none, List.append_nil]; rfl⟩
      cases child with
      | leaf l =>
        rcases List.append_eq_singleton_iff.mp inside.symm with ⟨none, same⟩ | ⟨_, impossible⟩
        · exact itself (List.cons_eq_cons.mp same).1 none
        · cases impossible
      | node child =>
        rcases ih (.node child) (Node.mem_elements_of_childAt? childAt) child rfl front' behind' inside with
          ⟨none, same⟩ | ⟨rest, found, rfl⟩
        · exact itself same none
        · exact ⟨.down index childAt rest, found, rfl⟩

end Trail

theorem visitedSource_append (front rest : List Element) :
    visitedSource (front ++ rest) = visitedSource front ++ visitedSource rest := by
  rw [visitedSource, List.filterMap_append, List.map_append, String.join_append]
  rfl

theorem utf8ByteSize_visitedSource (visited : List Element) :
    (visitedSource visited).utf8ByteSize = visitedLen visited := by
  rw [visitedSource, utf8ByteSize_join, List.map_map, visitedLen]
  congr 1
  exact List.map_congr_left fun l _ => (Token.textLen_eq l.token).symm

theorem Element.source_eq_visited (element : Element) : element.source = visitedSource element.flatten := by
  rw [source, leaves, preorder_eq]
  rfl

theorem slice?_append (front span behind : String) :
    slice? (front ++ span ++ behind) front.utf8ByteSize span.utf8ByteSize = some span := by
  simp [slice?, String.append_assoc, Trivia.cutAt?_append]

/-- The source of a stretch of visits is cut out at the lengths visited before. -/
theorem slice?_visited {n : Node} {element : Element} {front behind : List Element} (sound : element.Sound)
    (split : n.flatten = front ++ element.flatten ++ behind) :
    slice? n.source (visitedLen front) element.textLen = some element.source := by
  have whole : n.source = visitedSource front ++ element.source ++ visitedSource behind := by
    rw [Node.source, Element.source_eq_visited, Element.flatten, split, visitedSource_append,
      visitedSource_append, ← Element.source_eq_visited]
  rw [whole, ← utf8ByteSize_visitedSource, sound.textLen_eq_utf8ByteSize, slice?_append]

/-- The walk of a node visits the flattened node and ends, and after some visits it goes on with the others; the
tokens come in its order. What stands at a position, also where it is shared with others, is visited in one
stretch from itself on, and its source is cut out of the source of the node at the lengths of the tokens before.
Every visit but the first is one to a position. -/
theorem walk_spans {root : Node} (reachable : root.Reachable) :
    (∀ visits, (root.walk.drop visits).Yields (root.flatten.drop visits)) ∧
    root.preorder = root.flatten ∧
    root.leaves = root.flatten.filterMap Element.leaf? ∧
    (∀ (trail : Trail root) (below : Element), trail.occupant = some below →
      below.preorder.head? = some below ∧
      (∃ behind, root.preorder = trail.visited ++ below.preorder ++ behind) ∧
      slice? root.source (visitedLen trail.visited) below.textLen = some below.source) ∧
    ∀ front below behind, root.preorder = front ++ below :: behind →
      front = [] ∧ below = .node root ∨
        ∃ trail : Trail root, trail.occupant = some below ∧ trail.visited = front := by
  have order : root.preorder = root.flatten := (Element.node root).preorder_eq
  refine ⟨Walk.yields_drop root, order, ?tokens, fun trail below found => ?span,
    fun front below behind split => Trail.exists_trail (order ▸ split)⟩
  case tokens => rw [← order]; rfl
  case span =>
    obtain ⟨behind, split⟩ := Trail.flatten_eq found
    have within : below ∈ root.flatten := by
      rw [split]
      exact List.mem_append_left _ (List.mem_append_right _ below.mem_flatten_self)
    have sound : below.Sound := fun m under => reachable.sound m (Element.mem_flatten_trans within under)
    refine ⟨?_, ⟨behind, ?_⟩, slice?_visited sound split⟩
    · rw [Element.preorder_eq, Element.flatten_eq, List.head?_cons]
    · rw [order, Element.preorder_eq, split]

/-- In front of the name of the element type stand six bytes. -/
theorem walk_spans_name :
    Sample.root.Reachable ∧ Sample.toName.occupant = some (.leaf Sample.name) ∧
      slice? Sample.root.source 6 1 = some "T" := by
  have found : Sample.toName.occupant = some (.leaf Sample.name) := rfl
  obtain ⟨_, _, _, spans, _⟩ := walk_spans Sample.root_reachable
  have cut := (spans Sample.toName _ found).2.2
  rw [Element.source_eq_join (.leaf Sample.name)] at cut
  exact ⟨Sample.root_reachable, found, cut⟩

end LosslessSyntax
