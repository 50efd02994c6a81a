import LosslessSyntax.Proofs.Reconstruction

/-!
# Deep edits

A trail leads from a node down to one of the positions below it. What stands there is replaced from
below: the last node on the trail is rebuilt with the new element, the one above it with the rebuilt
node, and so on. The main statement, `replace_splices`, says that this succeeds on every level and has
the effect of a splice on the source. A node on the trail is rebuilt with a node of the kind that was
there before, so its own check passes because the old one did (`Node.Sound.admits`).
-/

namespace LosslessSyntax

/-- A way from a node down to a position of it or of a node below. -/
inductive Trail : Node → Type
  | here {n : Node} (index : Fin n.size) : Trail n
  | down {n child : Node} (index : Nat) (found : n.childAt? index = some (.node child))
    (rest : Trail child) : Trail n

namespace Node

/-- The element passes the check of a position by itself. -/
def Admits (n : Node) (index : Nat) (element : Element) : Prop :=
  if catalogue.isCollection n.kind then
    catalogue.validateElement n.kind index element.supplied = .ok ()
  else
    catalogue.validateSlot n.kind index element.supplied = .ok ()

/-- The node with another element at a position. A collection is given all its elements anew. -/
def withEntry (n : Node) (index : Nat) (element : Element) : Building Violation Node :=
  if catalogue.isCollection n.kind then n.withElements (n.elements.set index element)
  else n.withChildAt index (some element)

/-- A node like another one but for the element at a position: all its other children are the same
handles, and the kept length fits its children. -/
structure Replaces (m n : Node) (index : Nat) (element : Element) : Prop where
  kind : m.kind = n.kind
  size : m.size = n.size
  entry : m.childAt? index = some element
  others : ∀ other, other ≠ index → m.childAt? other = n.childAt? other
  length : m.textLen = totalLen m.children

end Node

/-- The source text of entries, one after the other. -/
def sourceOf (entries : List (Option Element)) : String :=
  String.join ((Element.present entries).map Element.source)

namespace Trail

/-- The node at whose position the trail ends. -/
def parent : {n : Node} → Trail n → Node
  | n, .here _ => n
  | _, .down _ _ rest => rest.parent

/-- The position in the last node. -/
def index : {n : Node} → Trail n → Nat
  | _, .here index => index
  | _, .down _ _ rest => rest.index

/-- What stands at the end of the trail, unless that is an empty slot. -/
def occupant {n : Node} (trail : Trail n) : Option Element := trail.parent.childAt? trail.index

def Admits {n : Node} (trail : Trail n) (element : Element) : Prop :=
  trail.parent.Admits trail.index element

/-- All nodes on the trail rebuilt, the last one first. -/
def replace : {n : Node} → Trail n → Element → Building Violation Node
  | n, .here index, element => n.withEntry index element
  | n, .down index _ rest, element => do
    let rebuilt ← rest.replace element
    n.withEntry index (.node rebuilt)

/-- Every node on the trail was replaced by one like it but for the next node on the trail, or for the
element at its end. -/
inductive Rebuilt (element : Element) : {n : Node} → Trail n → Node → Prop
  | here {n m : Node} {index : Fin n.size} : m.Replaces n index element → Rebuilt element (.here index) m
  | down {n m child rebuilt : Node} {index : Nat} {found : n.childAt? index = some (.node child)}
    {rest : Trail child} : Rebuilt element rest rebuilt → m.Replaces n index (.node rebuilt) →
    Rebuilt element (.down index found rest) m

/-- The source text in front of the position. -/
def before : {n : Node} → Trail n → String
  | n, .here index => sourceOf (n.children.take index)
  | n, .down index _ rest => sourceOf (n.children.take index) ++ rest.before

/-- The source text behind the position. -/
def after : {n : Node} → Trail n → String
  | n, .here index => sourceOf (n.children.drop (index + 1))
  | n, .down index _ rest => rest.after ++ sourceOf (n.children.drop (index + 1))

/-- The number of bytes in front of the position, from the lengths that the elements there keep. -/
def offset : {n : Node} → Trail n → Nat
  | n, .here index => Node.totalLen (n.children.take index)
  | n, .down index _ rest => Node.totalLen (n.children.take index) + rest.offset

end Trail

section Entries

variable {entries : List (Option Element)} {index : Nat} {entry : Option Element}

theorem present_split (found : entries[index]? = some entry) :
    Element.present entries =
      Element.present (entries.take index) ++ entry.toList ++ Element.present (entries.drop (index + 1)) := by
  obtain ⟨inside, same⟩ := List.getElem?_eq_some_iff.mp found
  have whole := List.take_append_drop index entries
  rw [List.drop_eq_getElem_cons inside, same] at whole
  conv_lhs => rw [← whole]
  rw [Element.present_append, Element.present_cons, List.append_assoc]

theorem sourceOf_split (found : entries[index]? = some entry) :
    sourceOf entries = sourceOf (entries.take index) ++ entry.elim "" Element.source ++
      sourceOf (entries.drop (index + 1)) := by
  unfold sourceOf
  rw [present_split found, List.map_append, List.map_append, String.join_append, String.join_append]
  cases entry with
  | none => rfl
  | some element => simp

theorem totalLen_split (found : entries[index]? = some entry) :
    Node.totalLen entries = Node.totalLen (entries.take index) + entry.elim 0 Element.textLen +
      Node.totalLen (entries.drop (index + 1)) := by
  unfold Node.totalLen
  rw [present_split found, Text.totalLen_append, Text.totalLen_append]
  cases entry with
  | none => rfl
  | some element => simp

end Entries

namespace Element

theorem source_node (n : Node) : (Element.node n).source = sourceOf n.children := by
  have each : ∀ elements : List Element,
      String.join ((elements.flatMap tokens).map Token.source) = String.join (elements.map source) := by
    intro elements
    induction elements with
    | nil => rfl
    | cons first rest ih =>
      rw [List.flatMap_cons, List.map_append, String.join_append, ih, List.map_cons, String.join_cons,
        source_eq_join]
  rw [source_eq_join, tokens_node, each]
  rfl

theorem utf8ByteSize_sourceOf {entries : List (Option Element)}
    (sound : ∀ element ∈ present entries, element.Sound) :
    (sourceOf entries).utf8ByteSize = Node.totalLen entries := by
  rw [sourceOf, utf8ByteSize_join, Node.totalLen_eq_sum, List.map_map]
  congr 1
  exact List.map_congr_left fun element member => (sound element member).textLen_eq_utf8ByteSize.symm

end Element

namespace Node

theorem getElem?_children {n : Node} {index : Nat} (inside : index < n.size) :
    n.children[index]? = some (n.childAt? index) := by
  rw [childAt?, List.getElem?_eq_getElem inside, Option.join_some]

/-- The children of a sound node pass the checks of their positions. -/
theorem Sound.admits {n : Node} (sound : n.Sound) {index : Nat} {child : Element}
    (found : n.childAt? index = some child) : n.Admits index child := by
  have entryAt := childAt?_eq_some_iff.mp found
  unfold Admits
  cases shape : (catalogue.entry n.kind).shape with
  | layout slots =>
    rw [Schema.isCollection_of_layout shape]
    obtain ⟨inside, _⟩ := List.getElem?_eq_some_iff.mp entryAt
    have bound : index < slots.length := sound.arity slots shape ▸ inside
    have slotAt : slots[index]? = some slots[index] := List.getElem?_eq_getElem bound
    refine Schema.validateSlot_ok_iff.mpr ⟨_, ?_, sound.admitted slots index _ child shape slotAt found⟩
    rw [Schema.slots_of_layout shape, slotAt]
  | collection kinds =>
    rw [Schema.isCollection_of_collection shape]
    obtain ⟨element, same, member⟩ := sound.elements kinds shape _ (List.mem_of_getElem? entryAt)
    cases same
    refine Schema.validateElement_ok_iff.mpr ⟨element.kind, ?_, rfl⟩
    rwa [Schema.elements_of_collection shape]

theorem Admits.of_supplied {n : Node} {index : Nat} {old new : Element} (admits : n.Admits index old)
    (same : new.supplied = old.supplied) : n.Admits index new := by
  unfold Admits at admits ⊢
  rwa [same]

theorem replaces_mk {n : Node} {index : Nat} (inside : index < n.size) (element : Element) (serial : Nat) :
    (Node.mk serial n.kind (n.children.set index (some element))
      (totalLen (n.children.set index (some element)))).Replaces n index element where
  kind := rfl
  size := by simp [size]
  entry := by
    rw [childAt?, children_mk, List.getElem?_set_self inside, Option.join_some]
  others other apart := by
    rw [childAt?, children_mk, List.getElem?_set_ne apart.symm, childAt?]
  length := rfl

/-- An element that passes the check of a position can be put there. -/
theorem withEntry_of_admits {n : Node} (sound : n.Sound) {index : Nat} (inside : index < n.size)
    {element : Element} (admits : n.Admits index element) (serial : Nat) :
    ∃ m, n.withEntry index element serial = .ok (m, serial + 1) ∧ m.Replaces n index element := by
  refine ⟨_, ?_, replaces_mk inside element serial⟩
  unfold Admits at admits
  unfold withEntry
  cases shape : (catalogue.entry n.kind).shape with
  | layout slots =>
    rw [Schema.isCollection_of_layout shape] at admits ⊢
    exact withChildAt_ok_iff.mpr ⟨admits, rfl, rfl⟩
  | collection kinds =>
    rw [Schema.isCollection_of_collection shape] at admits ⊢
    have filled : ∀ entry ∈ n.children, ∃ child, entry = some child := by
      intro entry member
      obtain ⟨child, same, _⟩ := sound.elements kinds shape entry member
      exact ⟨.node child, same⟩
    have children : (n.elements.set index element).map some = n.children.set index (some element) := by
      rw [List.map_set, elements, Element.map_some_present filled]
    have valid : catalogue.validate n.kind ((n.children.set index (some element)).map Supplied.ofEntry) =
        .ok () := by
      rw [List.map_set]
      exact Schema.validate_ok_iff.mpr (sound.accepted.set_element admits)
    change ofChildren n.kind ((n.elements.set index element).map some) serial = _
    rw [children]
    exact ofChildren_ok_iff.mpr ⟨valid, rfl, rfl⟩

theorem Replaces.children {m n : Node} {index : Nat} {element : Element}
    (replaces : m.Replaces n index element) (inside : index < n.size) :
    m.children = n.children.set index (some element) := by
  refine List.ext_getElem? fun other => ?_
  by_cases within : other < n.size
  · rw [getElem?_children (replaces.size ▸ within)]
    by_cases here : other = index
    · subst here
      rw [replaces.entry, List.getElem?_set_self inside]
    · rw [replaces.others other here, List.getElem?_set_ne (Ne.symm here), getElem?_children within]
  · have size : m.children.length = n.children.length := replaces.size
    have outside : n.children.length ≤ other := Nat.le_of_not_lt within
    rw [List.getElem?_eq_none (size ▸ outside), List.getElem?_eq_none (by rwa [List.length_set])]

theorem Replaces.source_eq {m n : Node} {index : Nat} {element : Element}
    (replaces : m.Replaces n index element) (inside : index < n.size) :
    (Element.node m).source = sourceOf (n.children.take index) ++ element.source ++
      sourceOf (n.children.drop (index + 1)) := by
  have entryAt : (n.children.set index (some element))[index]? = some (some element) :=
    List.getElem?_set_self inside
  rw [Element.source_node, replaces.children inside, sourceOf_split entryAt,
    List.take_set_of_le (Nat.le_refl index), List.drop_set_of_lt (Nat.lt_succ_self index)]
  rfl

theorem Replaces.textLen_eq {m n : Node} {index : Nat} {element : Element}
    (replaces : m.Replaces n index element) (inside : index < n.size) :
    m.textLen = totalLen (n.children.take index) + element.textLen +
      totalLen (n.children.drop (index + 1)) := by
  have entryAt : (n.children.set index (some element))[index]? = some (some element) :=
    List.getElem?_set_self inside
  rw [replaces.length, replaces.children inside, totalLen_split entryAt,
    List.take_set_of_le (Nat.le_refl index), List.drop_set_of_lt (Nat.lt_succ_self index)]
  rfl

theorem Sound.textLen_split {n : Node} (sound : n.Sound) {index : Nat} {entry : Option Element}
    (found : n.children[index]? = some entry) :
    n.textLen = totalLen (n.children.take index) + entry.elim 0 Element.textLen +
      totalLen (n.children.drop (index + 1)) := by
  rw [← totalLen_split found, totalLen_eq_sum]
  exact sound.length

end Node

namespace Trail

variable {n m : Node} {element : Element}

/-- Rebuilding a sound node from below succeeds on every level: each rebuilt node has the kind of the
one it stands for, and the node above sees nothing else of it. -/
theorem exists_rebuilt (trail : Trail n) (sound : (Element.node n).Sound) (admits : trail.Admits element)
    (serial : Nat) :
    ∃ m next, trail.replace element serial = .ok (m, next) ∧ m.kind = n.kind ∧ trail.Rebuilt element m := by
  induction trail with
  | here index =>
    obtain ⟨m, ran, replaces⟩ := Node.withEntry_of_admits sound.node index.isLt admits serial
    exact ⟨m, _, ran, replaces.kind, .here replaces⟩
  | @down n child index found rest ih =>
    have below : (Element.node child).Sound := sound.child (Node.mem_elements_of_childAt? found)
    obtain ⟨rebuilt, middle, restRan, kind, restBuilt⟩ := ih below admits
    -- the check of a node sees nothing but its kind
    have fits : n.Admits index (.node rebuilt) :=
      (sound.node.admits found).of_supplied (congrArg Supplied.node kind)
    obtain ⟨m, ran, replaces⟩ :=
      Node.withEntry_of_admits sound.node (Node.lt_size_of_childAt? found) fits middle
    refine ⟨m, middle + 1, ?_, replaces.kind, .down restBuilt replaces⟩
    change (rest.replace element serial).bind (fun made => n.withEntry index (.node made.1) made.2) = _
    rw [restRan]
    exact ran

/-- The source is what stands in front of the position, at it and behind it. -/
theorem source_eq (trail : Trail n) :
    (Element.node n).source = trail.before ++ trail.occupant.elim "" Element.source ++ trail.after := by
  induction trail with
  | @here n index =>
    rw [Element.source_node, sourceOf_split (Node.getElem?_children index.isLt)]
    rfl
  | @down n child index found rest ih =>
    rw [Element.source_node, sourceOf_split (Node.childAt?_eq_some_iff.mp found), Option.elim_some, ih]
    simp only [before, after, String.append_assoc]
    rfl

theorem Rebuilt.source_eq {trail : Trail n} (built : trail.Rebuilt element m) :
    (Element.node m).source = trail.before ++ element.source ++ trail.after := by
  induction built with
  | @here n m index replaces => exact replaces.source_eq index.isLt
  | @down n m child rebuilt index found rest _ replaces ih =>
    rw [replaces.source_eq (Node.lt_size_of_childAt? found), ih]
    simp only [before, after, String.append_assoc]

theorem utf8ByteSize_before (trail : Trail n) (sound : (Element.node n).Sound) :
    trail.before.utf8ByteSize = trail.offset := by
  have front : ∀ {n : Node} (index : Nat), (Element.node n).Sound →
      (sourceOf (n.children.take index)).utf8ByteSize = Node.totalLen (n.children.take index) := by
    intro n index sound
    refine Element.utf8ByteSize_sourceOf fun child member => sound.child ?_
    exact Element.mem_present.mpr (List.mem_of_mem_take (Element.mem_present.mp member))
  induction trail with
  | here index => exact front index sound
  | @down n child index found rest ih =>
    rw [before, String.utf8ByteSize_append, front index sound,
      ih (sound.child (Node.mem_elements_of_childAt? found))]
    rfl

/-- What stands at the position has room in the kept length. -/
theorem offset_add_le (trail : Trail n) (sound : (Element.node n).Sound) :
    trail.offset + trail.occupant.elim 0 Element.textLen ≤ n.textLen := by
  induction trail with
  | @here n index =>
    have whole := sound.node.textLen_split (Node.getElem?_children index.isLt)
    change Node.totalLen (n.children.take index) + (n.childAt? index).elim 0 Element.textLen ≤ _
    omega
  | @down n child index found rest ih =>
    have whole := sound.node.textLen_split (Node.childAt?_eq_some_iff.mp found)
    have inner := ih (sound.child (Node.mem_elements_of_childAt? found))
    change Node.totalLen (n.children.take index) + rest.offset + rest.occupant.elim 0 Element.textLen ≤ _
    change n.textLen = _ + child.textLen + _ at whole
    omega

/-- The kept length changes by what was taken out and put in, on each level the same. -/
theorem Rebuilt.textLen_add {trail : Trail n} (built : trail.Rebuilt element m)
    (sound : (Element.node n).Sound) :
    m.textLen + trail.occupant.elim 0 Element.textLen = n.textLen + element.textLen := by
  induction built with
  | @here n m index replaces =>
    have whole := sound.node.textLen_split (Node.getElem?_children index.isLt)
    have replaced := replaces.textLen_eq index.isLt
    change m.textLen + (n.childAt? index).elim 0 Element.textLen = _
    omega
  | @down n m child rebuilt index found rest _ replaces ih =>
    have whole := sound.node.textLen_split (Node.childAt?_eq_some_iff.mp found)
    have replaced := replaces.textLen_eq (Node.lt_size_of_childAt? found)
    have inner := ih (sound.child (Node.mem_elements_of_childAt? found))
    change m.textLen + rest.occupant.elim 0 Element.textLen = _
    change n.textLen = _ + child.textLen + _ at whole
    change m.textLen = _ + rebuilt.textLen + _ at replaced
    omega

end Trail

/-! ## Splicing -/

/-- An element that passes the check of a position by itself can be put there, however deep. The
source changes by exactly the bytes at the position, the kept length by their number, and every child
of a rebuilt node off the trail is the handle that was there. -/
theorem replace_splices {root : Node} (reachable : root.Reachable) (trail : Trail root)
    {element : Element} (admits : trail.Admits element) (serial : Nat) :
    ∃ rebuilt next, trail.replace element serial = .ok (rebuilt, next) ∧ rebuilt.kind = root.kind ∧
      trail.Rebuilt element rebuilt ∧
      root.source = trail.before ++ trail.occupant.elim "" Element.source ++ trail.after ∧
      rebuilt.source = trail.before ++ element.source ++ trail.after ∧
      trail.before.utf8ByteSize = trail.offset ∧
      trail.occupant.elim 0 Element.textLen ≤ root.textLen ∧
      rebuilt.textLen = root.textLen - trail.occupant.elim 0 Element.textLen + element.textLen := by
  have sound := reachable.sound
  obtain ⟨rebuilt, next, ran, kind, built⟩ := trail.exists_rebuilt sound admits serial
  have room := trail.offset_add_le sound
  have lengths := built.textLen_add sound
  exact ⟨rebuilt, next, ran, kind, built, trail.source_eq, built.source_eq,
    trail.utf8ByteSize_before sound, by omega, by omega⟩

/-- The way to the name of the element type. -/
def Sample.toName : Trail Sample.root :=
  .down 2 rfl (.down 1 rfl (.here ⟨0, by decide⟩))

theorem replace_splices_name :
    Sample.root.Reachable ∧ Sample.toName.Admits (.leaf ⟨8, .bare (.free .identifier "Int")⟩) ∧
      ∃ rebuilt next,
        Sample.toName.replace (.leaf ⟨8, .bare (.free .identifier "Int")⟩) 9 = .ok (rebuilt, next) ∧
          rebuilt.source = "[ /**/Int" ∧ rebuilt.textLen = 9 := by
  have admits : Sample.toName.Admits (.leaf ⟨8, .bare (.free .identifier "Int")⟩) := rfl
  have spelled := funext Element.source_eq_join
  have before : Sample.toName.before = "[ /**/" := by
    simp only [Sample.toName, Trail.before, sourceOf, spelled]
    rfl
  have after : Sample.toName.after = "" := by
    simp only [Sample.toName, Trail.after, sourceOf, spelled]
    rfl
  obtain ⟨rebuilt, next, ran, _, _, _, source, _, _, length⟩ :=
    replace_splices Sample.root_reachable Sample.toName admits 9
  rw [before, after, Element.source_eq_join] at source
  exact ⟨Sample.root_reachable, admits, rebuilt, next, ran, source, length⟩

end LosslessSyntax
