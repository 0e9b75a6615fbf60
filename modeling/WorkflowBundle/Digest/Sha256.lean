/-
This file computes the SHA-256 digest of bytes.
-/

namespace WorkflowBundle.Sha256

/-- The round constants are the first 32 bits of the fractional parts of the cube roots of the first
64 primes. -/
def roundConstants : List UInt32 :=
  [0x428a2f98, 0x71374491, 0xb5c0fbcf, 0xe9b5dba5, 0x3956c25b, 0x59f111f1, 0x923f82a4, 0xab1c5ed5,
   0xd807aa98, 0x12835b01, 0x243185be, 0x550c7dc3, 0x72be5d74, 0x80deb1fe, 0x9bdc06a7, 0xc19bf174,
   0xe49b69c1, 0xefbe4786, 0x0fc19dc6, 0x240ca1cc, 0x2de92c6f, 0x4a7484aa, 0x5cb0a9dc, 0x76f988da,
   0x983e5152, 0xa831c66d, 0xb00327c8, 0xbf597fc7, 0xc6e00bf3, 0xd5a79147, 0x06ca6351, 0x14292967,
   0x27b70a85, 0x2e1b2138, 0x4d2c6dfc, 0x53380d13, 0x650a7354, 0x766a0abb, 0x81c2c92e, 0x92722c85,
   0xa2bfe8a1, 0xa81a664b, 0xc24b8b70, 0xc76c51a3, 0xd192e819, 0xd6990624, 0xf40e3585, 0x106aa070,
   0x19a4c116, 0x1e376c08, 0x2748774c, 0x34b0bcb5, 0x391c0cb3, 0x4ed8aa4a, 0x5b9cca4f, 0x682e6ff3,
   0x748f82ee, 0x78a5636f, 0x84c87814, 0x8cc70208, 0x90befffa, 0xa4506ceb, 0xbef9a3f7, 0xc67178f2]

/-- A state is eight words. -/
structure State where
  a : UInt32
  b : UInt32
  c : UInt32
  d : UInt32
  e : UInt32
  f : UInt32
  g : UInt32
  h : UInt32

/-- The first state is the first 32 bits of the fractional parts of the square roots of the first
eight primes. -/
def initial : State :=
  ⟨0x6a09e667, 0xbb67ae85, 0x3c6ef372, 0xa54ff53a, 0x510e527f, 0x9b05688c, 0x1f83d9ab, 0x5be0cd19⟩

def State.words (state : State) : List UInt32 :=
  [state.a, state.b, state.c, state.d, state.e, state.f, state.g, state.h]

def rotate (word : UInt32) (count : UInt32) : UInt32 :=
  (word >>> count) ||| (word <<< (32 - count))

/-- A later word of the schedule mixes four earlier ones, which are given from the latest back. -/
def nextWord (earlier : List UInt32) : UInt32 :=
  let second := earlier.getD 1 0
  let fifteenth := earlier.getD 14 0
  let low := rotate fifteenth 7 ^^^ rotate fifteenth 18 ^^^ (fifteenth >>> 3)
  let high := rotate second 17 ^^^ rotate second 19 ^^^ (second >>> 10)
  high + earlier.getD 6 0 + low + earlier.getD 15 0

/-- The schedule of a block extends its sixteen words to sixty-four. -/
def schedule (block : List UInt32) : List UInt32 :=
  ((List.range 48).foldl (fun words _ => nextWord words :: words) block.reverse).reverse

/-- A round mixes one word of the schedule and its constant into the state. -/
def mix (state : State) (input : UInt32 × UInt32) : State :=
  let sumE := rotate state.e 6 ^^^ rotate state.e 11 ^^^ rotate state.e 25
  let choice := (state.e &&& state.f) ^^^ (~~~state.e &&& state.g)
  let first := state.h + sumE + choice + input.2 + input.1
  let sumA := rotate state.a 2 ^^^ rotate state.a 13 ^^^ rotate state.a 22
  let majority := (state.a &&& state.b) ^^^ (state.a &&& state.c) ^^^ (state.b &&& state.c)
  ⟨first + (sumA + majority), state.a, state.b, state.c, state.d + first, state.e, state.f, state.g⟩

/-- A block is mixed into a state and added to it. -/
def compress (state : State) (block : List UInt32) : State :=
  let mixed := ((schedule block).zip roundConstants).foldl mix state
  ⟨state.a + mixed.a, state.b + mixed.b, state.c + mixed.c, state.d + mixed.d, state.e + mixed.e,
   state.f + mixed.f, state.g + mixed.g, state.h + mixed.h⟩

/-- The bytes of a number from the highest to the lowest. -/
def bigEndian (count number : Nat) : List UInt8 :=
  (List.range count).reverse.map fun place => (number >>> (8 * place)).toUInt8

/-- A message is padded with a one bit, zeros and its length in bits to whole blocks. -/
def pad (message : List UInt8) : List UInt8 :=
  let zeros := (119 - message.length % 64) % 64
  message ++ 0x80 :: List.replicate zeros 0 ++ bigEndian 8 (8 * message.length)

/-- Four bytes in a row are a word. -/
def words : List UInt8 → List UInt32
  | first :: second :: third :: fourth :: rest =>
    ((first.toUInt32 <<< 24) ||| (second.toUInt32 <<< 16) ||| (third.toUInt32 <<< 8) |||
      fourth.toUInt32) :: words rest
  | _ => []

/-- A number of blocks of sixteen words is mixed into a state one after the other. -/
def compressAll : Nat → State → List UInt32 → State
  | 0, state, _ => state
  | blocks + 1, state, input =>
    compressAll blocks (compress state (input.take 16)) (input.drop 16)

/-- The digest of a message is the words of its last state. -/
def digest (message : List UInt8) : List UInt8 :=
  let input := words (pad message)
  (compressAll (input.length / 16) initial input).words.flatMap fun word =>
    bigEndian 4 word.toNat

def hexadecimal (byte : UInt8) : List Char :=
  let digits := Nat.toDigits 16 byte.toNat
  List.replicate (2 - digits.length) '0' ++ digits

def ofText (text : String) : String :=
  String.ofList ((digest text.toUTF8.toList).flatMap hexadecimal)

end WorkflowBundle.Sha256
