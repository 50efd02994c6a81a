import LosslessSyntax.Schema.Slot

/-!
# Traits

A trait names slots that unrelated kinds have in common. A kind that declares it has each of these
slots with the same name, constraint and optionality, so a reader can use them without knowing the
kind.
-/

namespace LosslessSyntax

/-- The traits a kind can declare. -/
inductive Trait where
  | withAttributes
  | parenthesized
  /-- Is an element of a list separated by commas. -/
  | withTrailingComma
  deriving DecidableEq

/-- The traits that one kind declares. -/
structure TraitSet where
  withAttributes : Bool
  parenthesized : Bool
  withTrailingComma : Bool
  deriving DecidableEq

namespace Trait

/-- Every trait, in numbering order. -/
def all : List Trait := [.withAttributes, .parenthesized, .withTrailingComma]

def name : Trait → String
  | .withAttributes => "WithAttributes"
  | .parenthesized => "Parenthesized"
  | .withTrailingComma => "WithTrailingComma"

def ofName? (name : String) : Option Trait := all.find? (·.name == name)

/-- The name of the trait as a member of a set. -/
def flagName : Trait → String
  | .withAttributes => "WITH_ATTRIBUTES"
  | .parenthesized => "PARENTHESIZED"
  | .withTrailingComma => "WITH_TRAILING_COMMA"

/-- The bit of the trait in the number of a set. -/
def bit : Trait → Nat
  | .withAttributes => 1
  | .parenthesized => 2
  | .withTrailingComma => 4

/-- The slots that a kind with the trait has. -/
def slots : Trait → List Slot
  | .withAttributes =>
    [(Slot.ofConstraint "attributes" (.listOf .attributeList "Attribute")).defaultingToEmpty]
  | .parenthesized =>
    [.token "leftParen" [.tag (.fixed .leftParen)],
      .token "rightParen" [.tag (.fixed .rightParen)]]
  | .withTrailingComma =>
    [(Slot.token "trailingComma" [.tag (.fixed .comma)]).optional]

end Trait

namespace TraitSet

def empty : TraitSet := ⟨false, false, false⟩

def contains (set : TraitSet) : Trait → Bool
  | .withAttributes => set.withAttributes
  | .parenthesized => set.parenthesized
  | .withTrailingComma => set.withTrailingComma

def insert (set : TraitSet) : Trait → TraitSet
  | .withAttributes => { set with withAttributes := true }
  | .parenthesized => { set with parenthesized := true }
  | .withTrailingComma => { set with withTrailingComma := true }

def ofList (traits : List Trait) : TraitSet := traits.foldl insert empty

/-- The traits of the set, in numbering order. -/
def toList (set : TraitSet) : List Trait := Trait.all.filter set.contains

def isEmpty (set : TraitSet) : Bool := set.toList.isEmpty

/-- The set as a number with one bit for each trait. -/
def bits (set : TraitSet) : Nat := set.toList.foldr (fun t rest => t.bit + rest) 0

/-- The set of the traits whose bits are in a number. Other bits do not count. -/
def ofBits (bits : Nat) : TraitSet :=
  ofList (Trait.all.filter fun t => bits / t.bit % 2 = 1)

def describe (set : TraitSet) : String := " | ".intercalate (set.toList.map Trait.flagName)

end TraitSet

end LosslessSyntax
