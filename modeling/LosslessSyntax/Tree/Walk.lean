import LosslessSyntax.Tree.Basic

/-!
# Walking a tree

A walk visits a node before its children and the children in order, passing over empty slots. What
is still to be visited is kept on a stack, so the depth of a tree is no limit; a shared subtree is
visited wherever it stands. The tokens of the walk, written one after the other, are the source.
-/

namespace LosslessSyntax

/-- A walk under way: the elements still to be visited with all below them, the next one first. -/
structure Walk where
  pending : List Element

/-- Elements weigh no more than the entries they stand in. -/
theorem Element.sizeOf_present_le (entries : List (Option Element)) :
    sizeOf (present entries) ≤ sizeOf entries := by
  induction entries with
  | nil => exact Nat.le_refl _
  | cons entry rest ih =>
    cases entry with
    | none =>
      change sizeOf (present rest) ≤ _
      exact Nat.le_trans ih (Nat.le_add_left _ _)
    | some element =>
      change 1 + sizeOf element + sizeOf (present rest) ≤ 1 + (1 + sizeOf element) + sizeOf rest
      omega

/-- Two stacks weigh what they weigh together, but for the end of one of them. -/
theorem sizeOf_append_elements (above below : List Element) :
    sizeOf (above ++ below) + 1 = sizeOf above + sizeOf below := by
  induction above with
  | nil => simp only [List.nil_append, List.nil.sizeOf_spec]; omega
  | cons element rest ih => simp only [List.cons_append, List.cons.sizeOf_spec]; omega

/-- The children weigh less than the element they stand in. -/
theorem Element.sizeOf_elements_lt (element : Element) :
    sizeOf element.elements < sizeOf element := by
  rcases element with ⟨serial, kind, children, textLen⟩ | ⟨serial, token⟩
  · have lighter := sizeOf_present_le children
    rw [Element.node.sizeOf_spec, Node.mk.sizeOf_spec]
    change sizeOf (present children) < _
    omega
  · rw [Element.leaf.sizeOf_spec, Leaf.mk.sizeOf_spec]
    change 1 < _
    omega

namespace Walk

def ofElement (element : Element) : Walk := ⟨[element]⟩

/-- The element visited next, and the walk after it. -/
def next? (walk : Walk) : Option (Element × Walk) :=
  match walk.pending with
  | [] => none
  | element :: rest => some (element, ⟨element.elements ++ rest⟩)

/-- The walk after a number of visits. -/
def drop : Nat → Walk → Walk
  | 0, walk => walk
  | n + 1, walk =>
    match walk.next? with
    | none => walk
    | some (_, rest) => drop n rest

/-- The elements visited by the whole walk, added to those visited before. -/
def visitFrom (visited : Array Element) (walk : Walk) : Array Element :=
  match walk with
  | ⟨[]⟩ => visited
  | ⟨element :: rest⟩ => visitFrom (visited.push element) ⟨element.elements ++ rest⟩
  termination_by sizeOf walk.pending
  decreasing_by
    have lighter := element.sizeOf_elements_lt
    have sum := sizeOf_append_elements element.elements rest
    simp only [List.cons.sizeOf_spec]
    omega

/-- The elements visited by the whole walk, in order. -/
def toList (walk : Walk) : List Element := (visitFrom #[] walk).toList

end Walk

namespace Element

/-- The element and all below it, each node before its children. -/
def preorder (element : Element) : List Element := (Walk.ofElement element).toList

/-- The tokens of an element in source order. -/
def leaves (element : Element) : List Leaf := element.preorder.filterMap leaf?

/-- The source text of an element. -/
def source (element : Element) : String :=
  String.join (element.leaves.map (·.token.source))

end Element

namespace Node

def walk (n : Node) : Walk := .ofElement (.node n)

/-- The node and all below it, each node before its children. -/
def preorder (n : Node) : List Element := (Element.node n).preorder

/-- The tokens below a node in source order. -/
def leaves (n : Node) : List Leaf := (Element.node n).leaves

/-- The source text below a node. -/
def source (n : Node) : String := (Element.node n).source

end Node

end LosslessSyntax
