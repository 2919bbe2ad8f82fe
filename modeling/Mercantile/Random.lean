/-!
Pseudo-random numbers from a seed: the ChaCha stream cipher with eight rounds as a sequence of 32-bit
words, and numbers of a range from it without bias.
-/

namespace Mercantile

/-- A position in the sequence of words of a key. -/
structure Random where
  key : List UInt32
  position : Nat

namespace Random

/-- The words of a key, each from the next state of a linear congruential generator. -/
def expandSeed : Nat → UInt64 → List UInt32
  | 0, _ => []
  | n + 1, state =>
    let state := state * 6364136223846793005 + 11634580027462260723
    let xored := (((state >>> 18) ^^^ state) >>> 27).toUInt32
    let turn := (state >>> 59).toUInt32
    ((xored >>> turn) ||| (xored <<< ((32 - turn) % 32))) :: expandSeed n state

def ofSeed (seed : UInt64) : Random := ⟨expandSeed 8 seed, 0⟩

def rotateLeft (x n : UInt32) : UInt32 := (x <<< n) ||| (x >>> (32 - n))

/-- The quarter round on four of the sixteen words. -/
def quarterRound (s : Array UInt32) (i j k l : Nat) : Array UInt32 :=
  let a := s.getD i 0
  let b := s.getD j 0
  let c := s.getD k 0
  let d := s.getD l 0
  let a := a + b
  let d := rotateLeft (d ^^^ a) 16
  let c := c + d
  let b := rotateLeft (b ^^^ c) 12
  let a := a + b
  let d := rotateLeft (d ^^^ a) 8
  let c := c + d
  let b := rotateLeft (b ^^^ c) 7
  (((s.setIfInBounds i a).setIfInBounds j b).setIfInBounds k c).setIfInBounds l d

def doubleRound (s : Array UInt32) : Array UInt32 :=
  let s := quarterRound s 0 4 8 12
  let s := quarterRound s 1 5 9 13
  let s := quarterRound s 2 6 10 14
  let s := quarterRound s 3 7 11 15
  let s := quarterRound s 0 5 10 15
  let s := quarterRound s 1 6 11 12
  let s := quarterRound s 2 7 8 13
  quarterRound s 3 4 9 14

def block (key : List UInt32) (counter : UInt64) : Array UInt32 :=
  let constants : Array UInt32 := #[0x61707865, 0x3320646e, 0x79622d32, 0x6b206574]
  let start := constants ++ key.toArray ++ #[counter.toUInt32, (counter >>> 32).toUInt32, 0, 0]
  let mixed := doubleRound (doubleRound (doubleRound (doubleRound start)))
  Array.zipWith (· + ·) start mixed

def nextWord (r : Random) : UInt32 × Random :=
  ((block r.key (UInt64.ofNat (r.position / 16))).getD (r.position % 16) 0,
    { r with position := r.position + 1 })

/-- The next two words as one, the low half first. -/
def nextLong (r : Random) : UInt64 × Random :=
  let (low, r) := r.nextWord
  let (high, r) := r.nextWord
  (low.toUInt64 ||| (high.toUInt64 <<< 32), r)

/-- A number below `n`: the high half of `n` times a draw below `size`. A draw whose product has its low
half above `zone` would favour some results and is dropped, except the last one that is allowed. -/
def drawBelow (next : Random → Nat × Random) (size n zone : Nat) : Nat → Random → Nat × Random
  | 0, r => ((next r).1 * n / size, (next r).2)
  | tries + 1, r =>
    let (v, r) := next r
    if v * n % size ≤ zone then (v * n / size, r) else drawBelow next size n zone tries r

/-- How many draws may be dropped before one is taken as it is. Each is kept with a chance of one half
or more. -/
def maxDropped : Nat := 256

/-- A number between two bounds, both included, from draws of 64 bits. -/
def between (low high : Nat) (r : Random) : Nat × Random :=
  let n := high - low + 1
  let zone := (n <<< (63 - n.log2)) - 1
  let next (r : Random) : Nat × Random := ((r.nextLong).1.toNat, (r.nextLong).2)
  let (v, r) := drawBelow next UInt64.size n zone maxDropped r
  (low + v, r)

/-- A number between two bounds of a byte, both included, from draws of 32 bits. -/
def byteBetween (low high : Nat) (r : Random) : Nat × Random :=
  let n := high - low + 1
  let zone := UInt32.size - 1 - (UInt32.size - n) % n
  let next (r : Random) : Nat × Random := ((r.nextWord).1.toNat, (r.nextWord).2)
  let (v, r) := drawBelow next UInt32.size n zone maxDropped r
  (low + v, r)

end Random

end Mercantile
