namespace UnitPropagation

/-! A generator of reproducible 64-bit numbers.

The state steps by a fixed odd increment, so it runs through all 2 ^ 64 words before it
repeats.  A word is drawn by multiplying the state with a mixed copy of itself and folding
the high half of the product onto the low half. -/

structure Generator where
  state : UInt64
deriving DecidableEq, Repr

namespace Generator

def ofSeed (seed : Nat) : Generator := ⟨UInt64.ofNat seed⟩

def increment : UInt64 := 0x2d358dccaa6c78a5

def mixer : UInt64 := 0x8bb84b93962eacc9

def next (generator : Generator) : UInt64 × Generator :=
  let state := generator.state + increment
  let product := state.toNat * (state ^^^ mixer).toNat
  (UInt64.ofNat (product % UInt64.size) ^^^ UInt64.ofNat (product / UInt64.size), ⟨state⟩)

/-- Draws words until one falls on a fair share of the numbers below `bound`: the product
of the word and `bound` must not have a low half below `limit`.  The number drawn is the
high half.  After `tries` unfair words the last one is taken as it is. -/
def drawFair (bound limit : Nat) : Nat → Generator → Nat × Generator
  | tries, generator =>
      let (word, generator) := generator.next
      let product := word.toNat * bound
      match tries with
      | 0 => (product / UInt64.size, generator)
      | tries + 1 =>
          if product % UInt64.size < limit then drawFair bound limit tries generator
          else (product / UInt64.size, generator)

/-- Draws a number below `bound`, every one of them equally likely. -/
def below (generator : Generator) (bound : Nat) : Nat × Generator :=
  drawFair bound ((UInt64.size - bound) % bound) UInt64.size generator

end Generator

end UnitPropagation
