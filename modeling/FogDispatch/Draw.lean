/-!
# Seeded draws

A deterministic source of numbers that is set up from a seed text alone.  The text is absorbed by a
mixing function of four words, whose first outputs seed the generator of the draws.  A number below
a bound is the upper half of a product, with refusals that keep the draw unbiased.
-/

namespace FogDispatch

/-- Four words that are mixed by additions, rotations and exclusive disjunctions. -/
structure Mixer where
  v0 : UInt64
  v1 : UInt64
  v2 : UInt64
  v3 : UInt64
  deriving DecidableEq, Repr

namespace Mixer

/-- A word with its bits rotated to the left. -/
def rotate (x count : UInt64) : UInt64 := (x <<< count) ||| (x >>> (64 - count))

def round (s : Mixer) : Mixer :=
  let v0 := s.v0 + s.v1
  let v1 := rotate s.v1 13 ^^^ v0
  let v0 := rotate v0 32
  let v2 := s.v2 + s.v3
  let v3 := rotate s.v3 16 ^^^ v2
  let v0 := v0 + v3
  let v3 := rotate v3 21 ^^^ v0
  let v2 := v2 + v1
  let v1 := rotate v1 17 ^^^ v2
  let v2 := rotate v2 32
  ⟨v0, v1, v2, v3⟩

def stir (s : Mixer) : Mixer := s.round.round

def absorb (s : Mixer) (word : UInt64) : Mixer :=
  let mixed := { s with v3 := s.v3 ^^^ word }.stir
  { mixed with v0 := mixed.v0 ^^^ word }

def fresh : Mixer :=
  ⟨0x736f6d6570736575, 0x646f72616e646f6d, 0x6c7967656e657261, 0x7465646279746573⟩

/-- The word that bytes spell, the lowest byte first. -/
def wordOf (bytes : List UInt8) : UInt64 :=
  bytes.foldr (fun b word => (word <<< 8) ||| b.toUInt64) 0

/-- Takes in bytes by words of eight; what is left over forms the last word, together with the
number of bytes modulo 256 in its highest byte, and is stirred once more. -/
def absorbBytes (total : Nat) (s : Mixer) (bytes : List UInt8) : Mixer :=
  if 8 ≤ bytes.length then
    absorbBytes total (s.absorb (wordOf (bytes.take 8))) (bytes.drop 8)
  else
    (s.absorb (wordOf bytes ||| (UInt64.ofNat total <<< 56))).stir
termination_by bytes.length
decreasing_by simp only [List.length_drop]; omega

/-- The state after a text and the byte that closes it. -/
def ofText (text : String) : Mixer :=
  let bytes := text.toUTF8.toList ++ [0xff]
  fresh.absorbBytes bytes.length bytes

end Mixer

/-- A source of words. -/
structure Generator where
  state : Mixer
  tweak : UInt64
  deriving DecidableEq, Repr

namespace Generator

def ofState (state : Mixer) : Generator := ⟨state, 0x13⟩

def next (g : Generator) : UInt64 × Generator :=
  let s := { g.state with v2 := g.state.v2 ^^^ g.tweak }.stir
  (s.v0 ^^^ s.v1 ^^^ s.v2 ^^^ s.v3, ⟨s, g.tweak - 0x11⟩)

def ofSeed (seed : String) : Generator :=
  let (v0, g) := (ofState (Mixer.ofText seed)).next
  let (v1, g) := g.next
  let (v2, g) := g.next
  let (v3, _) := g.next
  ofState ⟨v0, v1, v2, v3⟩

/-- The number of words after which a draw stops refusing.  Each refusal has a chance below one
half. -/
def patience : Nat := 4096

/-- A number below `bound`: the upper half of the product of a word and the bound, refused while
the lower half lies beyond the last whole multiple. -/
def below (bound : Nat) : Nat → Generator → Nat × Generator
  | 0, g => (0, g)
  | attempts + 1, g =>
    let (word, g) := g.next
    let product := word.toNat * bound
    let zone := bound * 2 ^ (63 - Nat.log2 bound) - 1
    if product % 2 ^ 64 ≤ zone then (product / 2 ^ 64, g) else below bound attempts g

def draw (bound : Nat) : Nat → Generator → List Nat
  | 0, _ => []
  | count + 1, g =>
    let (n, g) := below bound patience g
    n :: draw bound count g

end Generator
end FogDispatch
