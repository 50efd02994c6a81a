import LosslessSyntax.Tree.Flatten

/-!
# Subtrees

What stands below an element: itself, and all that stands below its children. Statements about all
of a tree are proved from the children up by `Element.children_induction`.
-/

namespace LosslessSyntax

namespace Element

@[simp] theorem present_nil : present [] = [] := rfl

@[simp] theorem present_cons (entry : Option Element) (rest : List (Option Element)) :
    present (entry :: rest) = entry.toList ++ present rest := rfl

theorem present_append (front rest : List (Option Element)) :
    present (front ++ rest) = present front ++ present rest := by
  simp [present]

theorem mem_present {entries : List (Option Element)} {element : Element} :
    element ∈ present entries ↔ some element ∈ entries := by
  simp [present]

/-- A filled entry that takes the place of another brings one element. -/
theorem mem_present_set {entries : List (Option Element)} {index : Nat} {value : Option Element}
    {element : Element} (member : element ∈ present (entries.set index value)) :
    value = some element ∨ element ∈ present entries := by
  rw [mem_present] at member
  rcases List.mem_or_eq_of_mem_set member with before | new
  · exact .inr (mem_present.mpr before)
  · exact .inl new.symm

theorem present_map_some (elements : List Element) : present (elements.map some) = elements := by
  induction elements with
  | nil => rfl
  | cons first rest ih => rw [List.map_cons, present_cons, ih]; rfl

/-- Entries without a gap are the elements in them. -/
theorem map_some_present {entries : List (Option Element)}
    (filled : ∀ entry ∈ entries, ∃ element, entry = some element) :
    (present entries).map some = entries := by
  induction entries with
  | nil => rfl
  | cons entry rest ih =>
    obtain ⟨element, rfl⟩ := filled entry List.mem_cons_self
    rw [present_cons, List.map_append, ih fun other member => filled other (List.mem_cons_of_mem _ member)]
    rfl

/-- What holds of an element as soon as it holds of its children holds of every element. -/
theorem children_induction {P : Element → Prop}
    (step : ∀ element : Element, (∀ child ∈ element.elements, P child) → P element)
    (element : Element) : P element :=
  step element fun child member => by
    have inside := List.sizeOf_lt_of_mem member
    have lighter := element.sizeOf_elements_lt
    exact children_induction step child
  termination_by sizeOf element
  decreasing_by omega

theorem mem_flatten_self (element : Element) : element ∈ element.flatten := by
  rw [flatten_eq]
  exact List.mem_cons_self

theorem mem_flatten_iff {element below : Element} :
    below ∈ element.flatten ↔ below = element ∨ ∃ child ∈ element.elements, below ∈ child.flatten := by
  rw [flatten_eq, List.mem_cons, List.mem_flatMap]

theorem mem_flatten_of_mem_elements {element child : Element} (member : child ∈ element.elements) :
    child ∈ element.flatten :=
  mem_flatten_iff.mpr (.inr ⟨child, member, child.mem_flatten_self⟩)

theorem mem_flatten_trans {outer middle inner : Element} (above : middle ∈ outer.flatten)
    (below : inner ∈ middle.flatten) : inner ∈ outer.flatten := by
  induction outer using children_induction with
  | step outer ih =>
    rcases mem_flatten_iff.mp above with rfl | ⟨child, member, within⟩
    · exact below
    · exact mem_flatten_iff.mpr (.inr ⟨child, member, ih child member within⟩)

end Element

end LosslessSyntax
