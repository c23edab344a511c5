import DiceHouse.Bytes

/-!
# SHA-256

The message, its padding and its length are cut into blocks of 64 bytes; each block is expanded by
a window of sixteen words that slides once per round and is mixed into eight words of state.
-/

namespace DiceHouse.Sha256

/-- The eight words of state. -/
structure State where
  a : UInt32
  b : UInt32
  c : UInt32
  d : UInt32
  e : UInt32
  f : UInt32
  g : UInt32
  h : UInt32

/-- The state before the first block: fractional parts of square roots of the first primes. -/
def State.start : State :=
  ⟨0x6a09e667, 0xbb67ae85, 0x3c6ef372, 0xa54ff53a, 0x510e527f, 0x9b05688c, 0x1f83d9ab, 0x5be0cd19⟩

/-- The sixteen words that a round may look at. -/
abbrev Window := Vector UInt32 16

/-- What each round adds: fractional parts of cube roots of the first primes. -/
def roundConstants : List UInt32 :=
  [0x428a2f98, 0x71374491, 0xb5c0fbcf, 0xe9b5dba5, 0x3956c25b, 0x59f111f1, 0x923f82a4, 0xab1c5ed5,
    0xd807aa98, 0x12835b01, 0x243185be, 0x550c7dc3, 0x72be5d74, 0x80deb1fe, 0x9bdc06a7, 0xc19bf174,
    0xe49b69c1, 0xefbe4786, 0x0fc19dc6, 0x240ca1cc, 0x2de92c6f, 0x4a7484aa, 0x5cb0a9dc, 0x76f988da,
    0x983e5152, 0xa831c66d, 0xb00327c8, 0xbf597fc7, 0xc6e00bf3, 0xd5a79147, 0x06ca6351, 0x14292967,
    0x27b70a85, 0x2e1b2138, 0x4d2c6dfc, 0x53380d13, 0x650a7354, 0x766a0abb, 0x81c2c92e, 0x92722c85,
    0xa2bfe8a1, 0xa81a664b, 0xc24b8b70, 0xc76c51a3, 0xd192e819, 0xd6990624, 0xf40e3585, 0x106aa070,
    0x19a4c116, 0x1e376c08, 0x2748774c, 0x34b0bcb5, 0x391c0cb3, 0x4ed8aa4a, 0x5b9cca4f, 0x682e6ff3,
    0x748f82ee, 0x78a5636f, 0x84c87814, 0x8cc70208, 0x90befffa, 0xa4506ceb, 0xbef9a3f7, 0xc67178f2]

/-- Turns a word right by more than 0 and less than 32 bits. -/
def turn (w : UInt32) (n : UInt32) : UInt32 := (w >>> n) ||| (w <<< (32 - n))

/-- The window one round later. -/
def slide (w : Window) : Window :=
  let s0 := turn w[1] 7 ^^^ turn w[1] 18 ^^^ (w[1] >>> 3)
  let s1 := turn w[14] 17 ^^^ turn w[14] 19 ^^^ (w[14] >>> 10)
  let fresh := w[0] + s0 + w[9] + s1
  Vector.ofFn fun i => if h : i.val + 1 < 16 then w[i.val + 1] else fresh

/-- One round. -/
def round (p : State × Window) (k : UInt32) : State × Window :=
  let s := p.1
  let s1 := turn s.e 6 ^^^ turn s.e 11 ^^^ turn s.e 25
  let choice := (s.e &&& s.f) ^^^ (~~~s.e &&& s.g)
  let t1 := s.h + s1 + choice + k + p.2[0]
  let s0 := turn s.a 2 ^^^ turn s.a 13 ^^^ turn s.a 22
  let majority := (s.a &&& s.b) ^^^ (s.a &&& s.c) ^^^ (s.b &&& s.c)
  (⟨t1 + (s0 + majority), s.a, s.b, s.c, s.d + t1, s.e, s.f, s.g⟩, slide p.2)

/-- Mixes one block into the state. -/
def compress (s : State) (block : List UInt8) : State :=
  let window : Window := Vector.ofFn fun i =>
    UInt32.ofNat (Bytes.beNat ((block.drop (4 * i)).take 4))
  let t := (roundConstants.foldl round (s, window)).1
  ⟨s.a + t.a, s.b + t.b, s.c + t.c, s.d + t.d, s.e + t.e, s.f + t.f, s.g + t.g, s.h + t.h⟩

/-- What follows a message of this length: a one bit, zeros and the length in bits. -/
def padding (length : Nat) : List UInt8 :=
  0x80 :: (List.replicate ((119 - length % 64) % 64) 0 ++ (Bytes.ofNat 8 (8 * length)).reverse)

/-- The digest of a message. -/
def digest (message : List UInt8) : Bytes32 :=
  let padded := message ++ padding message.length
  let s := (List.range (padded.length / 64)).foldl
    (fun s i => compress s ((padded.drop (64 * i)).take 64)) State.start
  let words : Vector UInt32 8 := #v[s.a, s.b, s.c, s.d, s.e, s.f, s.g, s.h]
  Vector.ofFn fun i => (words[i.val / 4] >>> UInt32.ofNat (24 - 8 * (i % 4))).toUInt8

end DiceHouse.Sha256
