/-! SHA-256 of a list of bytes. -/

namespace LimitBook.Sha256

/-- The eight words that a digest is chained through. -/
abbrev State := Vector UInt32 8

/-- The first thirty-two bits of the fractional parts of the square roots of the first eight primes. -/
def initial : State :=
  #v[0x6a09e667, 0xbb67ae85, 0x3c6ef372, 0xa54ff53a, 0x510e527f, 0x9b05688c, 0x1f83d9ab, 0x5be0cd19]

/-- The first thirty-two bits of the fractional parts of the cube roots of the first sixty-four primes. -/
def roundConstants : Vector UInt32 64 := #v[
  0x428a2f98, 0x71374491, 0xb5c0fbcf, 0xe9b5dba5, 0x3956c25b, 0x59f111f1, 0x923f82a4, 0xab1c5ed5,
  0xd807aa98, 0x12835b01, 0x243185be, 0x550c7dc3, 0x72be5d74, 0x80deb1fe, 0x9bdc06a7, 0xc19bf174,
  0xe49b69c1, 0xefbe4786, 0x0fc19dc6, 0x240ca1cc, 0x2de92c6f, 0x4a7484aa, 0x5cb0a9dc, 0x76f988da,
  0x983e5152, 0xa831c66d, 0xb00327c8, 0xbf597fc7, 0xc6e00bf3, 0xd5a79147, 0x06ca6351, 0x14292967,
  0x27b70a85, 0x2e1b2138, 0x4d2c6dfc, 0x53380d13, 0x650a7354, 0x766a0abb, 0x81c2c92e, 0x92722c85,
  0xa2bfe8a1, 0xa81a664b, 0xc24b8b70, 0xc76c51a3, 0xd192e819, 0xd6990624, 0xf40e3585, 0x106aa070,
  0x19a4c116, 0x1e376c08, 0x2748774c, 0x34b0bcb5, 0x391c0cb3, 0x4ed8aa4a, 0x5b9cca4f, 0x682e6ff3,
  0x748f82ee, 0x78a5636f, 0x84c87814, 0x8cc70208, 0x90befffa, 0xa4506ceb, 0xbef9a3f7, 0xc67178f2]

/-- A word turned right by some of its bits. -/
def rotateRight (word count : UInt32) : UInt32 := (word >>> count) ||| (word <<< (32 - count))

/-- A word as four bytes, highest first. -/
def wordBytes (word : UInt32) : List UInt8 :=
  [(word >>> 24).toUInt8, (word >>> 16).toUInt8, (word >>> 8).toUInt8, word.toUInt8]

/-- Four bytes, highest first, as a word. -/
def wordOfBytes (a b c d : UInt8) : UInt32 :=
  (a.toUInt32 <<< 24) ||| (b.toUInt32 <<< 16) ||| (c.toUInt32 <<< 8) ||| d.toUInt32

/-- The words that a list of bytes spells, four bytes each. -/
def wordsOfBytes : List UInt8 → List UInt32
  | a :: b :: c :: d :: rest => wordOfBytes a b c d :: wordsOfBytes rest
  | _ => []

/-- The zeros that bring a message, its end mark and its length to whole blocks of sixty-four bytes. -/
def paddingZeros (length : Nat) : Nat := (119 - length % 64) % 64

/-- The message with a one bit, zeros, and its length in bits as eight bytes. -/
def pad (message : List UInt8) : List UInt8 :=
  -- The end mark is a whole byte, since messages are whole bytes.
  let bits := UInt64.ofNat (8 * message.length)
  message ++ [(0x80 : UInt8)] ++ List.replicate (paddingZeros message.length) (0 : UInt8)
    ++ wordBytes (bits >>> 32).toUInt32 ++ wordBytes bits.toUInt32

/-- The sixty-four words of a block: its own sixteen, then each from four that precede it. -/
def schedule (block : List UInt32) : Array UInt32 :=
  -- When word `i + 16` is due, the array holds exactly the words before it.
  (List.range 48).foldl (fun words i =>
    let w15 := words.getD (i + 1) 0
    let w2 := words.getD (i + 14) 0
    let s0 := rotateRight w15 7 ^^^ rotateRight w15 18 ^^^ (w15 >>> 3)
    let s1 := rotateRight w2 17 ^^^ rotateRight w2 19 ^^^ (w2 >>> 10)
    words.push (words.getD i 0 + s0 + words.getD (i + 9) 0 + s1)) block.toArray

/-- One of the sixty-four rounds, with its constant and its word of the schedule added up. -/
def round (state : State) (input : UInt32) : State :=
  let a := state[0]; let b := state[1]; let c := state[2]
  let e := state[4]; let f := state[5]; let g := state[6]
  -- What comes in is mixed into the first and the fifth word, and the others move on by one place.
  let sum1 := rotateRight e 6 ^^^ rotateRight e 11 ^^^ rotateRight e 25
  let choice := (e &&& f) ^^^ (~~~e &&& g)
  let t1 := state[7] + sum1 + choice + input
  let sum0 := rotateRight a 2 ^^^ rotateRight a 13 ^^^ rotateRight a 22
  let majority := (a &&& b) ^^^ (a &&& c) ^^^ (b &&& c)
  #v[t1 + (sum0 + majority), a, b, c, state[3] + t1, e, f, g]

/-- One block is worked into the state. -/
def compress (state : State) (block : List UInt32) : State :=
  let inputs := (roundConstants.toList.zip (schedule block).toList).map fun (k, w) => k + w
  -- The state before the block is added once more, which makes the step hard to undo.
  (inputs.foldl round state).zipWith (· + ·) state

/-- All blocks are worked into the state, sixteen words each. -/
def absorb (state : State) (words : List UInt32) : State :=
  if words.isEmpty then state else absorb (compress state (words.take 16)) (words.drop 16)
termination_by words.length
decreasing_by
  -- A block that is there takes up at least one word.
  rename_i some_left
  have : words ≠ [] := by simpa using some_left
  have := List.length_pos_iff.mpr this
  simp only [List.length_drop]
  omega

/-- The thirty-two bytes of the digest. -/
def hash (message : List UInt8) : List UInt8 :=
  (absorb initial (wordsOfBytes (pad message))).toList.flatMap wordBytes

end LimitBook.Sha256
