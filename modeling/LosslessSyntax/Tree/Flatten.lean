import LosslessSyntax.Tree.Walk

/-!
# Walks and structure

The order of a walk said by recursion on the tree: a node, then all below its first child, then all
below the next. The main statement, `Walk.toList_eq`, is that a walk visits what is pending in this
order; so the walk from an element is the flattened element.
-/

namespace LosslessSyntax

mutual

/-- A node and all below it, each node before its children. -/
def Node.flatten : Node → List Element
  | .mk serial kind children textLen =>
    .node (.mk serial kind children textLen) :: flattenEntries children

/-- All that stands in entries or below them. -/
def flattenEntries : List (Option Element) → List Element
  | [] => []
  | entry :: rest => flattenEntry entry ++ flattenEntries rest

/-- What stands in an entry and below it. -/
def flattenEntry : Option Element → List Element
  | none => []
  | some element => element.flatten

/-- An element and all below it, each node before its children. -/
def Element.flatten : Element → List Element
  | .node n => n.flatten
  | .leaf l => [.leaf l]

end

theorem flattenEntries_eq (entries : List (Option Element)) :
    flattenEntries entries = (Element.present entries).flatMap Element.flatten := by
  induction entries with
  | nil => rfl
  | cons entry rest ih =>
    rw [flattenEntries, ih]
    cases entry <;> simp [flattenEntry, Element.present]

/-- An element comes first, then its children with all below them. -/
theorem Element.flatten_eq (element : Element) :
    element.flatten = element :: element.elements.flatMap flatten := by
  rcases element with ⟨serial, kind, children, textLen⟩ | l
  · rw [flatten, Node.flatten, flattenEntries_eq]
    rfl
  · rfl

namespace Walk

theorem toList_visitFrom (visited : Array Element) (walk : Walk) :
    (visitFrom visited walk).toList = visited.toList ++ walk.pending.flatMap Element.flatten := by
  fun_induction visitFrom visited walk with
  | case1 => simp
  | case2 visited element rest ih =>
    rw [ih, List.flatMap_cons, element.flatten_eq]
    simp

/-- A walk visits what is pending, each element with all below it. -/
theorem toList_eq (walk : Walk) : walk.toList = walk.pending.flatMap Element.flatten := by
  simp [toList, toList_visitFrom]

/-- The element visited next is the first one still to be visited. -/
theorem toList_of_next? {walk rest : Walk} {element : Element}
    (h : walk.next? = some (element, rest)) : walk.toList = element :: rest.toList := by
  rcases walk with ⟨_ | ⟨first, others⟩⟩
  · simp [next?] at h
  · obtain ⟨rfl, rfl⟩ := Prod.mk.inj (Option.some.inj h)
    simp [toList_eq, first.flatten_eq]

/-- A walk without a next element has nothing to visit. -/
theorem toList_of_next?_eq_none {walk : Walk} (h : walk.next? = none) : walk.toList = [] := by
  rcases walk with ⟨_ | ⟨first, others⟩⟩
  · simp [toList_eq]
  · simp [next?] at h

/-- After some visits the others are left. -/
theorem toList_drop (n : Nat) (walk : Walk) : (walk.drop n).toList = walk.toList.drop n := by
  induction n generalizing walk with
  | zero => rfl
  | succ n ih =>
    rw [drop]
    cases h : walk.next? with
    | none => simp [toList_of_next?_eq_none h]
    | some visit =>
      obtain ⟨element, rest⟩ := visit
      simp [toList_of_next? h, ih]

end Walk

/-- The walk from an element visits the flattened element. -/
theorem Element.preorder_eq (element : Element) : element.preorder = element.flatten := by
  simp [preorder, Walk.toList_eq, Walk.ofElement]

end LosslessSyntax
