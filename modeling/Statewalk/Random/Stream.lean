/-! # A seeded stream of random words

The ChaCha stream cipher with eight rounds, used as a generator: the words of block 0, 1, 2, …
under a key that is expanded from a 64-bit seed, with a zero nonce.
-/

namespace Statewalk.Random

/-- Sixteen words: the state of the cipher, and one block of its output. -/
abbrev Block := Vector UInt32 16

/-- Rotates a word to the left. -/
def rotateLeft (x k : UInt32) : UInt32 :=
  (x <<< k) ||| (x >>> (32 - k))

/-- One quarter round on four words. -/
def quarterRound (a b c d : UInt32) : UInt32 × UInt32 × UInt32 × UInt32 :=
  let a := a + b
  let d := rotateLeft (d ^^^ a) 16
  let c := c + d
  let b := rotateLeft (b ^^^ c) 12
  let a := a + b
  let d := rotateLeft (d ^^^ a) 8
  let c := c + d
  let b := rotateLeft (b ^^^ c) 7
  (a, b, c, d)

/-- A quarter round on the words at four places. -/
def mix (s : Block) (i j k l : Fin 16) : Block :=
  let (a, b, c, d) := quarterRound s[i] s[j] s[k] s[l]
  (((s.set i a).set j b).set k c).set l d

/-- Four column rounds and four diagonal rounds. -/
def doubleRound (s : Block) : Block :=
  let s := mix s 0 4 8 12
  let s := mix s 1 5 9 13
  let s := mix s 2 6 10 14
  let s := mix s 3 7 11 15
  let s := mix s 0 5 10 15
  let s := mix s 1 6 11 12
  let s := mix s 2 7 8 13
  mix s 3 4 9 14

/-- The four constant words of the cipher. -/
def constants : Vector UInt32 4 :=
  #v[0x61707865, 0x3320646e, 0x79622d32, 0x6b206574]

/-- The cipher's input: constants, key, block number (low word first), zero nonce. -/
def input (key : Vector UInt32 8) (number : UInt64) : Block :=
  constants ++ key ++ #v[number.toUInt32, (number >>> 32).toUInt32, 0, 0]

/-- One block of the stream: eight rounds on the input, then the input added. -/
def block (key : Vector UInt32 8) (number : UInt64) : Block :=
  let start := input key number
  let mixed := doubleRound (doubleRound (doubleRound (doubleRound start)))
  Vector.zipWith (· + ·) mixed start

/-- A position in the stream of a key. -/
structure Stream where
  key : Vector UInt32 8
  /-- Number of the next block to compute. -/
  next : UInt64
  /-- Words of the current block that are still to come. -/
  pending : List UInt32

/-- One step of the seed expansion. -/
def expand (s : UInt64) : UInt64 :=
  s * 6364136223846793005 + 11634580027462260723

/-- The key word drawn from an expanded seed. -/
def keyWord (s : UInt64) : UInt32 :=
  let x := (((s >>> 18) ^^^ s) >>> 27).toUInt32
  let k := (s >>> 59).toUInt32
  (x >>> k) ||| (x <<< ((32 - k) % 32))

/-- The stream of a seed, from its start. -/
def Stream.ofSeed (seed : UInt64) : Stream :=
  let s1 := expand seed
  let s2 := expand s1
  let s3 := expand s2
  let s4 := expand s3
  let s5 := expand s4
  let s6 := expand s5
  let s7 := expand s6
  let s8 := expand s7
  { key := #v[keyWord s1, keyWord s2, keyWord s3, keyWord s4, keyWord s5, keyWord s6, keyWord s7,
      keyWord s8]
    next := 0
    pending := [] }

/-- The next word. -/
def Stream.word (r : Stream) : UInt32 × Stream :=
  match r.pending with
  | w :: ws => (w, { r with pending := ws })
  | [] =>
    let b := block r.key r.next
    (b[0], { r with next := r.next + 1, pending := b.toList.drop 1 })

/-- The next two words, the low one first. -/
def Stream.doubleWord (r : Stream) : UInt64 × Stream :=
  let (low, r) := r.word
  let (high, r) := r.word
  (high.toUInt64 <<< 32 ||| low.toUInt64, r)

end Statewalk.Random
