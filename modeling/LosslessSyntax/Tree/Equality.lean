import LosslessSyntax.Tree.Basic

/-!
# Equality of trees

Trees are equal when they have the same kinds, tokens and empty slots in the same places, however
their parts were allocated. Two handles of one allocation are equal at once, so shared parts are not
compared again; otherwise the pairs still to be compared are kept on a list, so the depth of a tree
is no limit.
-/

namespace LosslessSyntax

/-- Whether two leaves hold equal tokens. -/
def Leaf.equal (a b : Leaf) : Bool := a.sameHandle b || a.token = b.token

instance : BEq Leaf := ⟨Leaf.equal⟩

namespace Node

/-- The pairs of nodes at like places, put in front of those pending, unless the entries differ in
what can be seen of them here. -/
def pairUp (pending : List (Node × Node)) :
    List (Option Element) → List (Option Element) → Option (List (Node × Node))
  | none :: as, none :: bs => pairUp pending as bs
  | some (.node a) :: as, some (.node b) :: bs => pairUp ((a, b) :: pending) as bs
  | some (.leaf a) :: as, some (.leaf b) :: bs =>
    if a.equal b then pairUp pending as bs else none
  | _ :: _, _ :: _ => none
  | [], _ | _, [] => some pending

theorem sizeOf_children_lt (n : Node) : sizeOf n.children < sizeOf n := by
  rcases n with ⟨serial, kind, entries, textLen⟩
  rw [Node.mk.sizeOf_spec]
  change sizeOf entries < _
  omega

/-- The pairs found weigh less than the entries they were found in. -/
theorem sizeOf_pairUp_le {pending found : List (Node × Node)} {as bs : List (Option Element)}
    (h : pairUp pending as bs = some found) :
    sizeOf found ≤ sizeOf pending + sizeOf as + sizeOf bs := by
  fun_induction pairUp pending as bs <;> simp_all <;> omega

/-- Whether the nodes of each pair are equal. -/
def equalPairs : List (Node × Node) → Bool
  | [] => true
  | (a, b) :: rest =>
    if a.sameHandle b then equalPairs rest
    else if a.kind ≠ b.kind ∨ a.textLen ≠ b.textLen ∨ a.size ≠ b.size then false
    else
      match _h : pairUp rest a.children b.children with
      | none => false
      | some found => equalPairs found
  termination_by pairs => sizeOf pairs
  decreasing_by
    · simp only [List.cons.sizeOf_spec]
      omega
    · have bound := sizeOf_pairUp_le _h
      have left := a.sizeOf_children_lt
      have right := b.sizeOf_children_lt
      simp only [List.cons.sizeOf_spec, Prod.mk.sizeOf_spec]
      omega

/-- Whether two nodes are equal. -/
def equal (a b : Node) : Bool := equalPairs [(a, b)]

instance : BEq Node := ⟨equal⟩

end Node

namespace Element

/-- Whether two elements are equal. -/
def equal : Element → Element → Bool
  | node a, node b => a.equal b
  | leaf a, leaf b => a.equal b
  | _, _ => false

instance : BEq Element := ⟨equal⟩

end Element

end LosslessSyntax
