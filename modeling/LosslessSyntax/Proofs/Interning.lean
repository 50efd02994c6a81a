import Mathlib.Algebra.Order.BigOperators.Group.Finset
import Mathlib.Data.List.Forall2
import Std.Data.String.ToNat
import LosslessSyntax.Text.Interner

/-!
# Interning

A text has one name for as long as the interner lives, and no other text has that name. The main statement,
`internAll_exact`, says this at every point of a run, for any spreading of the texts over the shards. It rests
on what a shard holds (`Shard.Holds`), from which `intern_of_name?` and `Holds.intern_new` say all that a
single call can do: nothing for a text that is known, one further slot or a refusal for a new one. No spreading
has room for as many texts as there are slots in all shards (`not_hasRoom_of_nodup`).
-/

namespace LosslessSyntax.Text

/-- The slots and the texts of a shard are inverse to each other, and its texts are the given ones. -/
structure Shard.Holds (shard : Shard) (known : Finset String) : Prop where
  inverse : ∀ (text : String) (slot : Nat), shard.slots[text]? = some slot ↔ shard.texts[slot]? = some text
  texts : ∀ text, text ∈ shard.texts ↔ text ∈ known
  size : shard.texts.size = known.card

namespace Interner

variable (choose : String → Fin Name.shardCount)

/-- The texts that go to a shard. -/
def share (known : Finset String) (shard : Fin Name.shardCount) : Finset String :=
  known.filter (shardOf choose · = shard)

/-- No shard gets more texts than it has slots. -/
def HasRoom (known : Finset String) : Prop := ∀ shard, (share choose known shard).card ≤ Name.slotCount

/-- One of the shards. -/
def shardAt (interner : Interner) (shard : Fin Name.shardCount) : Shard := interner.shards[shard]

/-- The name under which a text is stored. -/
def name? (interner : Interner) (text : String) : Option Name :=
  ((interner.shardAt (shardOf choose text)).slots[text]?).map (.ofParts (shardOf choose text))

/-- One text more in a shard. -/
def insertAt (interner : Interner) (shard : Fin Name.shardCount) (text : String) : Interner :=
  ⟨interner.shards.set shard ((interner.shardAt shard).insert text) shard.isLt, interner.size + 1⟩

/-- One text more in its shard. -/
def store (interner : Interner) (text : String) : Interner := interner.insertAt (shardOf choose text) text

/-- The interner holds the given texts, each in its own shard, with the empty text under its fixed name. -/
structure Holds (interner : Interner) (known : Finset String) : Prop where
  shards : ∀ shard, (interner.shardAt shard).Holds (share choose known shard)
  room : HasRoom choose known
  size : interner.size = known.card
  empty : interner.name? choose "" = some .empty

/-- Every text that is stored keeps its name. -/
def Keeps (before after : Interner) : Prop :=
  ∀ text name, before.name? choose text = some name → after.name? choose text = some name

/-- What the names given for some texts are worth. Equal names stand for equal texts, a name leads back to its
text, only the empty text has the empty name, and each text counts once, however often it is interned. -/
structure Exact (interner : Interner) (texts : List String) (names : List Name) : Prop where
  length : names.length = texts.length
  eq_iff : ∀ (i j : Nat) text other name name', texts[i]? = some text → texts[j]? = some other →
    names[i]? = some name → names[j]? = some name' → (name = name' ↔ text = other)
  lookup : ∀ (i : Nat) text name, texts[i]? = some text → names[i]? = some name → interner.lookup? name = some text
  empty_iff : ∀ (i : Nat) text name, texts[i]? = some text → names[i]? = some name → (name = .empty ↔ text = "")
  size : interner.size = 1 + (texts.filter (· ≠ "")).toFinset.card
  again : ∀ (i : Nat) text name, texts[i]? = some text → names[i]? = some name →
    interner.intern choose text = .ok (name, interner)

end Interner

namespace Name

variable {shard : Fin shardCount} {slot : Nat}

theorem toNat_code_ofParts (fits : slot < slotCount) :
    (ofParts shard slot).code.toNat = shard * slotCount + slot := by
  have bound := shard.isLt
  simp only [ofParts, UInt32.toNat_ofNat', shardCount, slotCount] at *
  omega

/-- The shard is read back from the upper bits. -/
theorem shard_ofParts (fits : slot < slotCount) : (ofParts shard slot).shard = shard := by
  apply Fin.ext
  simp only [Name.shard, toNat_code_ofParts fits, slotCount] at *
  omega

/-- The slot is read back from the lower bits. -/
theorem slot_ofParts (fits : slot < slotCount) : (ofParts shard slot).slot = slot := by
  simp only [Name.slot, toNat_code_ofParts fits, slotCount] at *
  omega

end Name

namespace Shard

variable {shard : Shard} {known : Finset String} {text : String}

theorem holds_empty : empty.Holds ∅ where
  inverse := by simp [empty]
  texts := by simp [empty]
  size := rfl

theorem holds_holdingEmpty : holdingEmpty.Holds {""} where
  inverse text slot := by
    simp only [holdingEmpty, Std.HashMap.getElem?_insert, beq_iff_eq, Std.HashMap.getElem?_empty]
    cases slot with
    | zero => simp
    | succ slot => simp
  texts := by simp [holdingEmpty]
  size := rfl

theorem Holds.exists_slot (holds : shard.Holds known) (member : text ∈ known) :
    ∃ slot, shard.slots[text]? = some slot := by
  obtain ⟨slot, stored⟩ := Array.mem_iff_getElem?.mp ((holds.texts text).mpr member)
  exact ⟨slot, (holds.inverse text slot).mpr stored⟩

theorem Holds.mem {slot : Nat} (holds : shard.Holds known) (found : shard.slots[text]? = some slot) :
    text ∈ known :=
  (holds.texts text).mp (Array.mem_iff_getElem?.mpr ⟨slot, (holds.inverse text slot).mp found⟩)

theorem Holds.slot_lt {slot : Nat} (holds : shard.Holds known) (found : shard.slots[text]? = some slot) :
    slot < known.card := by
  obtain ⟨inside, _⟩ := Array.getElem?_eq_some_iff.mp ((holds.inverse text slot).mp found)
  rwa [holds.size] at inside

/-- A new text gets the slot behind all others. -/
theorem Holds.insert (holds : shard.Holds known) (new : text ∉ known) :
    (shard.insert text).Holds (Insert.insert text known) where
  inverse other slot := by
    simp only [Shard.insert, Std.HashMap.getElem?_insert, Array.getElem?_push, beq_iff_eq]
    by_cases same : text = other
    · subst same
      have absent : shard.texts[slot]? ≠ some text := by
        intro stored
        exact new (holds.mem ((holds.inverse text slot).mpr stored))
      by_cases last : slot = shard.texts.size
      · simp [last]
      · simp [last, absent, Ne.symm last]
    · by_cases last : slot = shard.texts.size
      · have free : shard.slots[other]? ≠ some shard.texts.size := by
          intro found
          have := holds.slot_lt found
          rw [holds.size] at this
          omega
        simp [last, same, free]
      · simp [last, same, holds.inverse]
  texts other := by
    rw [Shard.insert, Array.mem_push, holds.texts, Finset.mem_insert, or_comm]
  size := by
    rw [Shard.insert, Array.size_push, holds.size, Finset.card_insert_of_notMem new]

end Shard

/-! ## One call -/

namespace Interner

variable {choose : String → Fin Name.shardCount} {interner after : Interner} {known : Finset String}
  {text other : String} {name : Name} {shard : Fin Name.shardCount}

theorem mem_share : text ∈ share choose known shard ↔ text ∈ known ∧ shardOf choose text = shard := by
  rw [share, Finset.mem_filter]

theorem share_insert_self : share choose (insert text known) (shardOf choose text) =
    insert text (share choose known (shardOf choose text)) := by
  rw [share, Finset.filter_insert, if_pos rfl, share]

theorem share_insert_of_ne (apart : shardOf choose text ≠ shard) :
    share choose (insert text known) shard = share choose known shard := by
  rw [share, Finset.filter_insert, if_neg apart, share]

theorem HasRoom.mono {more : Finset String} (room : HasRoom choose more) (fewer : known ⊆ more) :
    HasRoom choose known :=
  fun shard => (Finset.card_le_card (Finset.filter_subset_filter _ fewer)).trans (room shard)

/-- All shards together hold no more texts than they have slots. -/
theorem card_le_of_hasRoom (room : HasRoom choose known) : known.card ≤ Name.slotCount * Name.shardCount := by
  have inside : ∀ text ∈ known, shardOf choose text ∈ Finset.univ := fun text _ => Finset.mem_univ _
  have bound := Finset.card_le_mul_card_image_of_maps_to inside Name.slotCount fun shard _ => room shard
  rwa [Finset.card_univ, Fintype.card_fin] at bound

/-- Distinct texts that are as many as there are slots leave no room, since the empty one is held beside them. -/
theorem not_hasRoom_of_nodup {texts : List String} (distinct : texts.Nodup) (written : "" ∉ texts)
    (many : Name.slotCount * Name.shardCount ≤ texts.length) : ¬ HasRoom choose ({""} ∪ texts.toFinset) := by
  intro room
  have held : ({""} ∪ texts.toFinset).card = texts.length + 1 := by
    rw [Finset.singleton_union, Finset.card_insert_of_notMem (by rwa [List.mem_toFinset]),
      List.toFinset_card_of_nodup distinct]
  have bound := card_le_of_hasRoom room
  rw [held] at bound
  exact absurd (many.trans (Nat.le_of_succ_le bound)) (by omega)

/-- The numerals from zero on are such texts. -/
theorem not_hasRoom_numerals {count : Nat} (many : Name.slotCount * Name.shardCount ≤ count) :
    ¬ HasRoom choose ({""} ∪ ((List.range count).map Nat.repr).toFinset) := by
  apply not_hasRoom_of_nodup
  · exact List.nodup_range.map fun _ _ => Nat.repr_injective
  · intro member
    obtain ⟨number, _, empty⟩ := List.mem_map.mp member
    exact Nat.repr_ne_empty empty
  · rwa [List.length_map, List.length_range]

theorem shardAt_store_self : (interner.store choose text).shardAt (shardOf choose text) =
    (interner.shardAt (shardOf choose text)).insert text := by
  simp [shardAt, store, insertAt]

theorem shardAt_store_of_ne (apart : shardOf choose text ≠ shard) :
    (interner.store choose text).shardAt shard = interner.shardAt shard := by
  simp [shardAt, store, insertAt, Fin.val_inj, apart]

theorem shardOf_empty : shardOf choose "" = 0 := if_pos rfl

theorem shardAt_empty : Interner.empty.shardAt shard = if shard = 0 then .holdingEmpty else .empty := by
  rw [shardAt, Interner.empty, Fin.getElem_fin, Vector.getElem_ofFn]

theorem name?_eq_some_iff : interner.name? choose text = some name ↔
    ∃ slot, (interner.shardAt (shardOf choose text)).slots[text]? = some slot ∧
      .ofParts (shardOf choose text) slot = name :=
  Option.map_eq_some_iff

/-- A known text is found under its name, and nothing changes. -/
theorem intern_of_name? (named : interner.name? choose text = some name) :
    interner.intern choose text = .ok (name, interner) := by
  obtain ⟨slot, found, rfl⟩ := name?_eq_some_iff.mp named
  change (interner.shards[shardOf choose text]).slots[text]? = some slot at found
  rw [intern, found]

/-- A text that comes in leaves the names of all others as they were. -/
theorem name?_store_of_ne (apart : text ≠ other) :
    (interner.store choose text).name? choose other = interner.name? choose other := by
  unfold name?
  by_cases same : shardOf choose text = shardOf choose other
  · rw [← same, shardAt_store_self, Shard.insert, Std.HashMap.getElem?_insert, if_neg (by simpa using apart)]
  · rw [shardAt_store_of_ne same]

theorem name?_store_self : (interner.store choose text).name? choose text =
    some (.ofParts (shardOf choose text) (interner.shardAt (shardOf choose text)).texts.size) := by
  rw [name?, shardAt_store_self, Shard.insert, Std.HashMap.getElem?_insert_self]
  rfl

/-- At first the empty text alone is stored. -/
theorem holds_empty : Interner.empty.Holds choose {""} where
  shards shard := by
    rw [shardAt_empty, share, Finset.filter_singleton, shardOf_empty]
    by_cases first : shard = 0
    · rw [if_pos first, if_pos first.symm]
      exact Shard.holds_holdingEmpty
    · rw [if_neg first, if_neg (Ne.symm first)]
      exact Shard.holds_empty
  room shard := (Finset.card_filter_le _ _).trans (by rw [Finset.card_singleton]; decide)
  size := rfl
  empty := by
    rw [name?, shardOf_empty, shardAt_empty, if_pos rfl, Shard.holdingEmpty, Std.HashMap.getElem?_insert_self]
    rfl

namespace Holds

theorem slot_lt {slot : Nat} (holds : interner.Holds choose known)
    (found : (interner.shardAt shard).slots[text]? = some slot) : slot < Name.slotCount :=
  Nat.lt_of_lt_of_le ((holds.shards shard).slot_lt found) (holds.room shard)

theorem exists_name? (holds : interner.Holds choose known) (member : text ∈ known) :
    ∃ name, interner.name? choose text = some name := by
  obtain ⟨slot, found⟩ := (holds.shards (shardOf choose text)).exists_slot (mem_share.mpr ⟨member, rfl⟩)
  exact ⟨_, name?_eq_some_iff.mpr ⟨slot, found, rfl⟩⟩

/-- The name of a stored text leads back to it. -/
theorem lookup?_eq (holds : interner.Holds choose known) (named : interner.name? choose text = some name) :
    interner.lookup? name = some text := by
  obtain ⟨slot, found, rfl⟩ := name?_eq_some_iff.mp named
  change (interner.shardAt (Name.ofParts (shardOf choose text) slot).shard).texts[_]? = _
  rw [Name.shard_ofParts (holds.slot_lt found), Name.slot_ofParts (holds.slot_lt found)]
  exact ((holds.shards _).inverse text slot).mp found

/-- Texts with one name are equal, since the name leads back to both. -/
theorem name?_inj (holds : interner.Holds choose known) (named : interner.name? choose text = some name)
    (named' : interner.name? choose other = some name) : text = other :=
  Option.some.inj ((holds.lookup?_eq named).symm.trans (holds.lookup?_eq named'))

/-- A new text is stored where its shard has a slot left, and refused otherwise. -/
theorem intern_new (holds : interner.Holds choose known) (new : text ∉ known) :
    interner.intern choose text =
      if (share choose known (shardOf choose text)).card < Name.slotCount then
        .ok (.ofParts (shardOf choose text) (share choose known (shardOf choose text)).card,
          interner.store choose text)
      else .error ⟨shardOf choose text, (share choose known (shardOf choose text)).card⟩ := by
  have absent : (interner.shards[shardOf choose text]).slots[text]? = none := by
    rw [Option.eq_none_iff_forall_ne_some]
    intro slot found
    exact new (mem_share.mp ((holds.shards _).mem found)).1
  rw [intern, absent, ← (holds.shards _).size]
  rfl

theorem mem (holds : interner.Holds choose known) (named : interner.name? choose text = some name) :
    text ∈ known := by
  obtain ⟨slot, found, _⟩ := name?_eq_some_iff.mp named
  exact (mem_share.mp ((holds.shards _).mem found)).1

theorem keeps_store (holds : interner.Holds choose known) (new : text ∉ known) :
    interner.Keeps choose (interner.store choose text) := by
  intro other name named
  rw [name?_store_of_ne, named]
  rintro rfl
  exact new (holds.mem named)

/-- With a slot left, a new text is held beside all others. -/
theorem store (holds : interner.Holds choose known) (new : text ∉ known)
    (free : (share choose known (shardOf choose text)).card < Name.slotCount) :
    (interner.store choose text).Holds choose (insert text known) where
  shards shard := by
    by_cases own : shardOf choose text = shard
    · subst own
      rw [shardAt_store_self, share_insert_self]
      exact (holds.shards _).insert fun member => new (mem_share.mp member).1
    · rw [shardAt_store_of_ne own, share_insert_of_ne own]
      exact holds.shards shard
  room shard := by
    by_cases own : shardOf choose text = shard
    · subst own
      rw [share_insert_self, Finset.card_insert_of_notMem fun member => new (mem_share.mp member).1]
      exact free
    · rw [share_insert_of_ne own]
      exact holds.room shard
  size := by
    rw [Finset.card_insert_of_notMem new, ← holds.size]
    rfl
  empty := holds.keeps_store new _ _ holds.empty

/-- A call that succeeds names the text for good, and leaves all other names as they were. -/
theorem of_intern (holds : interner.Holds choose known) (ran : interner.intern choose text = .ok (name, after)) :
    after.Holds choose (insert text known) ∧ interner.Keeps choose after ∧
      after.name? choose text = some name := by
  by_cases old : text ∈ known
  · obtain ⟨name', named⟩ := holds.exists_name? old
    cases (intern_of_name? named).symm.trans ran
    rw [Finset.insert_eq_of_mem old]
    exact ⟨holds, fun _ _ found => found, named⟩
  · rw [holds.intern_new old] at ran
    split at ran
    · rename_i free
      cases ran
      refine ⟨holds.store old free, holds.keeps_store old, ?_⟩
      rw [name?_store_self, (holds.shards _).size]
    · cases ran

/-- A call succeeds if the text does not make its shard too full. -/
theorem exists_intern (holds : interner.Holds choose known) (room : HasRoom choose (insert text known)) :
    ∃ name after, interner.intern choose text = .ok (name, after) := by
  by_cases old : text ∈ known
  · obtain ⟨name, named⟩ := holds.exists_name? old
    exact ⟨name, interner, intern_of_name? named⟩
  · have own := room (shardOf choose text)
    rw [share_insert_self, Finset.card_insert_of_notMem fun member => old (mem_share.mp member).1] at own
    exact ⟨_, _, by rw [holds.intern_new old, if_pos (Nat.lt_of_succ_le own)]⟩

/-- A call succeeds exactly if the text does not make its shard too full. -/
theorem exists_intern_iff (holds : interner.Holds choose known) :
    (∃ name after, interner.intern choose text = .ok (name, after)) ↔ HasRoom choose (insert text known) := by
  constructor
  · rintro ⟨name, after, ran⟩
    exact (holds.of_intern ran).1.room
  · exact holds.exists_intern

end Holds

/-! ## Runs -/

variable {last : Interner} {texts rest : List String} {names more : List Name}

/-- A run succeeds when its first call does and the others do from there on. -/
theorem internAll_cons_ok_iff : interner.internAll choose (text :: rest) = .ok (names, last) ↔
    ∃ name after others, interner.intern choose text = .ok (name, after) ∧
      after.internAll choose rest = .ok (others, last) ∧ names = name :: others := by
  rw [internAll]
  cases first : interner.intern choose text with
  | error overflow =>
    constructor
    · intro impossible; cases impossible
    · rintro ⟨_, _, _, impossible, _⟩; cases impossible
  | ok made =>
    obtain ⟨name, after⟩ := made
    change (after.internAll choose rest).bind (fun made => .ok (name :: made.1, made.2)) = _ ↔ _
    cases next : after.internAll choose rest with
    | error overflow =>
      constructor
      · intro impossible; cases impossible
      · rintro ⟨_, _, _, same, impossible, _⟩; cases same; cases next.symm.trans impossible
    | ok made =>
      constructor
      · intro same; cases same; exact ⟨name, after, _, rfl, next, rfl⟩
      · rintro ⟨_, _, _, same, ran, rfl⟩; cases same; cases next.symm.trans ran; rfl

/-- A run may be cut anywhere. -/
theorem internAll_append_ok_iff : interner.internAll choose (texts ++ rest) = .ok (names, last) ↔
    ∃ front middle back, interner.internAll choose texts = .ok (front, middle) ∧
      middle.internAll choose rest = .ok (back, last) ∧ names = front ++ back := by
  induction texts generalizing interner names with
  | nil =>
    constructor
    · intro ran; exact ⟨[], interner, names, rfl, ran, rfl⟩
    · rintro ⟨_, _, _, same, ran, rfl⟩; cases same; exact ran
  | cons text texts ih =>
    constructor
    · intro ran
      obtain ⟨name, after, others, first, next, rfl⟩ := internAll_cons_ok_iff.mp ran
      obtain ⟨front, middle, back, ranFront, ranBack, rfl⟩ := ih.mp next
      exact ⟨name :: front, middle, back, internAll_cons_ok_iff.mpr ⟨name, after, front, first, ranFront, rfl⟩,
        ranBack, rfl⟩
    · rintro ⟨front, middle, back, ran, ranBack, rfl⟩
      obtain ⟨name, after, others, first, next, rfl⟩ := internAll_cons_ok_iff.mp ran
      exact internAll_cons_ok_iff.mpr
        ⟨name, after, others ++ back, first, ih.mpr ⟨others, middle, back, next, ranBack, rfl⟩, rfl⟩

/-- A run that succeeds names every text for good. -/
theorem Holds.of_internAll (holds : interner.Holds choose known)
    (ran : interner.internAll choose texts = .ok (names, after)) :
    after.Holds choose (known ∪ texts.toFinset) ∧ interner.Keeps choose after ∧
      List.Forall₂ (fun text name => after.name? choose text = some name) texts names := by
  induction texts generalizing interner known names with
  | nil =>
    cases ran
    rw [List.toFinset_nil, Finset.union_empty]
    exact ⟨holds, fun _ _ found => found, .nil⟩
  | cons text texts ih =>
    obtain ⟨name, middle, others, first, next, rfl⟩ := internAll_cons_ok_iff.mp ran
    obtain ⟨holdsMiddle, kept, named⟩ := holds.of_intern first
    obtain ⟨holdsAfter, keptAfter, namedAfter⟩ := ih holdsMiddle next
    rw [List.toFinset_cons, Finset.union_insert, ← Finset.insert_union]
    exact ⟨holdsAfter, fun old oldName found => keptAfter old oldName (kept old oldName found),
      .cons (keptAfter text name named) namedAfter⟩

/-- A run succeeds if there is room for its texts. -/
theorem Holds.exists_internAll (holds : interner.Holds choose known)
    (room : HasRoom choose (known ∪ texts.toFinset)) :
    ∃ names after, interner.internAll choose texts = .ok (names, after) := by
  induction texts generalizing interner known with
  | nil => exact ⟨[], interner, rfl⟩
  | cons text texts ih =>
    rw [List.toFinset_cons, Finset.union_insert, ← Finset.insert_union] at room
    obtain ⟨name, middle, first⟩ := holds.exists_intern (room.mono Finset.subset_union_left)
    obtain ⟨others, after, next⟩ := ih (holds.of_intern first).1 room
    exact ⟨name :: others, after, internAll_cons_ok_iff.mpr ⟨name, middle, others, first, next, rfl⟩⟩

theorem union_concat (text : String) :
    {""} ∪ (texts ++ [text]).toFinset = insert text ({""} ∪ texts.toFinset) := by
  simp [List.toFinset_append, Finset.union_comm]

theorem exists_text_of_given (ran : Interner.empty.internAll choose texts = .ok (names, interner))
    (given : name ∈ .empty :: names) : ∃ text, interner.name? choose text = some name := by
  obtain ⟨holds, _, named⟩ := Interner.holds_empty.of_internAll ran
  rcases List.mem_cons.mp given with rfl | later
  · exact ⟨"", holds.empty⟩
  · obtain ⟨i, inside, rfl⟩ := List.getElem_of_mem later
    have inside' : i < texts.length := named.length_eq ▸ inside
    exact ⟨texts[i], named.get inside' inside⟩

theorem card_distinct (texts : List String) :
    ({""} ∪ texts.toFinset).card = 1 + (texts.filter (· ≠ "")).toFinset.card := by
  have split : {""} ∪ texts.toFinset = insert "" (texts.filter (· ≠ "")).toFinset := by
    ext text
    by_cases empty : text = ""
    · simp [empty]
    · simp [empty]
  rw [split, Finset.card_insert_of_notMem (by simp), Nat.add_comm]

theorem Holds.exact (holds : interner.Holds choose ({""} ∪ texts.toFinset))
    (named : List.Forall₂ (fun text name => interner.name? choose text = some name) texts names) :
    interner.Exact choose texts names := by
  have each : ∀ (i : Nat) text name, texts[i]? = some text → names[i]? = some name →
      interner.name? choose text = some name := by
    intro i text name textAt nameAt
    obtain ⟨inside, rfl⟩ := List.getElem?_eq_some_iff.mp textAt
    obtain ⟨inside', rfl⟩ := List.getElem?_eq_some_iff.mp nameAt
    exact named.get inside inside'
  constructor
  case length => exact named.length_eq.symm
  case eq_iff =>
    intro i j text other name name' textAt otherAt nameAt nameAt'
    constructor
    · rintro rfl
      exact holds.name?_inj (each i _ _ textAt nameAt) (each j _ _ otherAt nameAt')
    · rintro rfl
      exact Option.some.inj ((each i _ _ textAt nameAt).symm.trans (each j _ _ otherAt nameAt'))
  case lookup =>
    intro i text name textAt nameAt
    exact holds.lookup?_eq (each i _ _ textAt nameAt)
  case empty_iff =>
    intro i text name textAt nameAt
    constructor
    · rintro rfl
      exact holds.name?_inj (each i _ _ textAt nameAt) holds.empty
    · rintro rfl
      exact Option.some.inj ((each i _ _ textAt nameAt).symm.trans holds.empty)
  case size => rw [holds.size, card_distinct]
  case again =>
    intro i text name textAt nameAt
    exact intern_of_name? (each i _ _ textAt nameAt)

end Interner

/-- A run of calls succeeds exactly when no shard gets more texts than it has slots. Then, after any number
of the calls, the names given so far are exact for the texts interned so far. -/
theorem internAll_exact (choose : String → Fin Name.shardCount) (texts : List String) :
    ((∃ names last, Interner.empty.internAll choose texts = .ok (names, last)) ↔
        Interner.HasRoom choose ({""} ∪ texts.toFinset)) ∧
      (Interner.HasRoom choose ({""} ∪ texts.toFinset) →
        ∃ names : List Name, ∀ count ≤ texts.length, ∃ interner,
          Interner.empty.internAll choose (texts.take count) = .ok (names.take count, interner) ∧
            interner.Exact choose (texts.take count) (names.take count)) := by
  have start : Interner.empty.Holds choose {""} := Interner.holds_empty
  refine ⟨⟨?_, start.exists_internAll⟩, fun room => ?_⟩
  · rintro ⟨names, last, ran⟩
    exact (start.of_internAll ran).1.room
  · obtain ⟨names, last, ran⟩ := start.exists_internAll room
    refine ⟨names, fun count within => ?_⟩
    rw [← List.take_append_drop count texts] at ran
    obtain ⟨front, interner, back, ranFront, _, rfl⟩ := Interner.internAll_append_ok_iff.mp ran
    obtain ⟨holds, _, named⟩ := start.of_internAll ranFront
    have length : front.length = count := by
      rw [← named.length_eq, List.length_take_of_le within]
    rw [← length, List.take_left, length]
    exact ⟨interner, ranFront, holds.exact named⟩

/-- Two texts that are each the first of their shard still get different names. -/
theorem internAll_exact_shards : Interner.HasRoom (fun text => if text = "b" then 5 else 3)
      ({""} ∪ ["a", "", "b", "a"].toFinset) ∧
    ∃ a b last, Interner.empty.internAll (fun text => if text = "b" then 5 else 3) ["a", "", "b", "a"] =
        .ok ([a, .empty, b, a], last) ∧
      a ≠ b ∧ last.lookup? a = some "a" ∧ last.lookup? b = some "b" ∧ last.size = 3 := by
  have card : ({""} ∪ ["a", "", "b", "a"].toFinset : Finset String).card = 3 := by decide
  have room : Interner.HasRoom (fun text => if text = "b" then 5 else 3) ({""} ∪ ["a", "", "b", "a"].toFinset) := by
    intro shard
    exact (Finset.card_filter_le _ _).trans (card ▸ by decide)
  obtain ⟨names, exact⟩ := (internAll_exact (fun text => if text = "b" then 5 else 3) ["a", "", "b", "a"]).2 room
  obtain ⟨last, ran, exact⟩ := exact 4 (Nat.le_refl 4)
  refine ⟨room, ?_⟩
  match names.take 4, exact, ran with
  | [a, e, b, a'], exact, ran =>
    have again : a = a' := (exact.eq_iff 0 3 _ _ _ _ rfl rfl rfl rfl).mpr rfl
    have empty : e = .empty := (exact.empty_iff 1 _ _ rfl rfl).mpr rfl
    subst again empty
    refine ⟨a, b, last, ran, ?_, exact.lookup 0 _ _ rfl rfl, exact.lookup 2 _ _ rfl rfl, exact.size⟩
    intro same
    have equal : "a" = "b" := (exact.eq_iff 0 2 _ _ _ _ rfl rfl rfl rfl).mp same
    exact absurd equal (by decide)

end LosslessSyntax.Text
