import Std.Data.HashMap

/-!
# Interned text

An interner hands out one name per text, so names can be compared in place of texts. The texts are
spread over sixteen shards; a name packs the shard and the slot within it into 32 bits. Which shard
a text goes to is the caller's choice, except that the empty text is always in the first one, where
it is stored from the start.

A kind of token (`TokenKind.free`) and a piece of trivia (`Trivia.Piece.stretch`) are written with their text where
the text's name is what is stored. `FlatKind` and `Trivia.NamedPiece` have the name; they stand for the others
(`FlatKind.Stands`, `Trivia.NamedPiece.Stands`) and are equal where those are (`FlatKind.Stands.eq_iff`,
`Trivia.NamedPiece.Stands.eq_iff`).
-/

namespace LosslessSyntax.Text

/-- A handle of interned text: the shard in the upper four bits, the slot in the others. -/
structure Name where
  code : UInt32
  deriving DecidableEq

namespace Name

abbrev shardCount : Nat := 16

abbrev slotCount : Nat := 0x10000000

/-- The name of a slot in a shard. -/
def ofParts (shard : Fin shardCount) (slot : Nat) : Name :=
  ⟨UInt32.ofNat (shard * slotCount + slot)⟩

/-- The shard a name points into. -/
def shard (name : Name) : Fin shardCount :=
  ⟨name.code.toNat / slotCount, by
    have := name.code.toNat_lt
    simp only [slotCount, shardCount]
    omega⟩

/-- The slot a name points to. -/
def slot (name : Name) : Nat := name.code.toNat % slotCount

def empty : Name := ⟨0⟩

end Name

/-- Why a text got no name: its shard has no slot left. -/
structure ShardOverflow where
  shard : Nat
  size : Nat
  deriving DecidableEq

def ShardOverflow.message (overflow : ShardOverflow) : String :=
  "text shard " ++ toString overflow.shard ++ " is full (" ++ toString overflow.size ++
    " entries, limit " ++ toString Name.slotCount ++ ")"

/-- The texts of one shard by slot, and the slots by text. -/
structure Shard where
  slots : Std.HashMap String Nat
  texts : Array String

namespace Shard

def empty : Shard := ⟨∅, #[]⟩

/-- The shard that holds the empty text alone. -/
def holdingEmpty : Shard := ⟨(∅ : Std.HashMap String Nat).insert "" 0, #[""]⟩

/-- A further text in the next free slot. -/
def insert (shard : Shard) (text : String) : Shard :=
  ⟨shard.slots.insert text shard.texts.size, shard.texts.push text⟩

end Shard

/-- A set of interned texts. -/
structure Interner where
  shards : Vector Shard Name.shardCount
  /-- The number of texts, the empty one included. -/
  size : Nat

namespace Interner

/-- The interner that holds the empty text alone. -/
def empty : Interner where
  shards := Vector.ofFn fun shard => if shard = 0 then .holdingEmpty else .empty
  size := 1

def shardOf (choose : String → Fin Name.shardCount) (text : String) : Fin Name.shardCount :=
  if text = "" then 0 else choose text

/-- The name of a text, and the interner that knows it. -/
def intern (choose : String → Fin Name.shardCount) (interner : Interner) (text : String) :
    Except ShardOverflow (Name × Interner) :=
  let shard := shardOf choose text
  let texts := interner.shards[shard]
  match texts.slots[text]? with
  | some slot => .ok (.ofParts shard slot, interner)
  | none =>
    let slot := texts.texts.size
    if slot < Name.slotCount then
      .ok (.ofParts shard slot,
        ⟨interner.shards.set shard (texts.insert text), interner.size + 1⟩)
    else
      .error ⟨shard, slot⟩

/-- Texts interned one after the other, with their names in order. -/
def internAll (choose : String → Fin Name.shardCount) (interner : Interner) :
    List String → Except ShardOverflow (List Name × Interner)
  | [] => .ok ([], interner)
  | text :: rest => do
    let (name, interner) ← interner.intern choose text
    let (names, interner) ← interner.internAll choose rest
    return (name :: names, interner)

/-- The text a name was given for. -/
def lookup? (interner : Interner) (name : Name) : Option String :=
  interner.shards[name.shard].texts[name.slot]?

/-- The shard that a hash of the text points to. -/
def byHash (text : String) : Fin Name.shardCount :=
  ⟨(hash text).toNat % Name.shardCount, Nat.mod_lt _ (by decide)⟩

end Interner

end LosslessSyntax.Text
