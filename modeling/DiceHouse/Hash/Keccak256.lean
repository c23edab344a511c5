import DiceHouse.Bytes

/-!
# Keccak-256

The sponge over the permutation Keccak-f[1600] with a rate of 136 bytes and the padding
`01 00 … 80` of the first publication, which the later standard changed. A state is five rows of
five lanes of 64 bits. Every lane is named, none is counted, and a lane is the natural number of its
bits, so a digest of given bytes can be evaluated in a proof.
-/

namespace DiceHouse.Keccak256

/-- How many values a lane has. -/
def laneValues : Nat := 0x10000000000000000

/-- Five lanes side by side. -/
structure Row where
  x0 : Nat
  x1 : Nat
  x2 : Nat
  x3 : Nat
  x4 : Nat

/-- The state of the permutation: five rows. -/
structure State where
  y0 : Row
  y1 : Row
  y2 : Row
  y3 : Row
  y4 : Row

/-- Turns a lane left by more than 0 and less than 64 bits. -/
def turn (w n : Nat) : Nat := (w <<< n % laneValues) ||| (w >>> (64 - n))

/-- The sum of two rows, lane by lane and without carries. -/
def Row.add (p q : Row) : Row :=
  ⟨p.x0 ^^^ q.x0, p.x1 ^^^ q.x1, p.x2 ^^^ q.x2, p.x3 ^^^ q.x3, p.x4 ^^^ q.x4⟩

/-- The sum of two states. -/
def State.add (s t : State) : State :=
  ⟨s.y0.add t.y0, s.y1.add t.y1, s.y2.add t.y2, s.y3.add t.y3, s.y4.add t.y4⟩

/-- The sums of the columns. -/
def State.parity (s : State) : Row := (((s.y0.add s.y1).add s.y2).add s.y3).add s.y4

/-- What the columns to the left and to the right add to each lane of a row. -/
def Row.mix (p : Row) : Row :=
  ⟨p.x4 ^^^ turn p.x1 1, p.x0 ^^^ turn p.x2 1, p.x1 ^^^ turn p.x3 1, p.x2 ^^^ turn p.x4 1,
    p.x3 ^^^ turn p.x0 1⟩

/-- Mixes the columns into each other. -/
def theta (s : State) : State :=
  let m := s.parity.mix
  s.add ⟨m, m, m, m, m⟩

/-- Turns every lane and moves it to its new place. -/
def rhoPi (s : State) : State :=
  ⟨⟨s.y0.x0, turn s.y1.x1 44, turn s.y2.x2 43, turn s.y3.x3 21, turn s.y4.x4 14⟩,
    ⟨turn s.y0.x3 28, turn s.y1.x4 20, turn s.y2.x0 3, turn s.y3.x1 45, turn s.y4.x2 61⟩,
    ⟨turn s.y0.x1 1, turn s.y1.x2 6, turn s.y2.x3 25, turn s.y3.x4 8, turn s.y4.x0 18⟩,
    ⟨turn s.y0.x4 27, turn s.y1.x0 36, turn s.y2.x1 10, turn s.y3.x2 15, turn s.y4.x3 56⟩,
    ⟨turn s.y0.x2 62, turn s.y1.x3 55, turn s.y2.x4 39, turn s.y3.x0 41, turn s.y4.x1 2⟩⟩

/-- The bits of the second lane that are not bits of the first. -/
def spare (a b : Nat) : Nat := b ^^^ (a &&& b)

/-- Combines each lane of a row with its two right neighbours. -/
def Row.combine (p : Row) : Row :=
  ⟨p.x0 ^^^ spare p.x1 p.x2, p.x1 ^^^ spare p.x2 p.x3, p.x2 ^^^ spare p.x3 p.x4,
    p.x3 ^^^ spare p.x4 p.x0, p.x4 ^^^ spare p.x0 p.x1⟩

/-- Combines the lanes of each row. -/
def chi (s : State) : State :=
  ⟨s.y0.combine, s.y1.combine, s.y2.combine, s.y3.combine, s.y4.combine⟩

/-- What each round adds to the first lane. -/
def roundConstants : List Nat :=
  [0x0000000000000001, 0x0000000000008082, 0x800000000000808a, 0x8000000080008000,
    0x000000000000808b, 0x0000000080000001, 0x8000000080008081, 0x8000000000008009,
    0x000000000000008a, 0x0000000000000088, 0x0000000080008009, 0x000000008000000a,
    0x000000008000808b, 0x800000000000008b, 0x8000000000008089, 0x8000000000008003,
    0x8000000000008002, 0x8000000000000080, 0x000000000000800a, 0x800000008000000a,
    0x8000000080008081, 0x8000000000008080, 0x0000000080000001, 0x8000000080008008]

/-- One round. -/
def round (s : State) (c : Nat) : State :=
  let t := chi (rhoPi (theta s))
  { t with y0 := { t.y0 with x0 := t.y0.x0 ^^^ c } }

/-- The permutation: 24 rounds. -/
def permute (s : State) : State := roundConstants.foldl round s

/-- How many bytes are taken in between two permutations. -/
def rate : Nat := 136

/-- What follows a message of this length. -/
def padding (length : Nat) : List UInt8 :=
  let missing := rate - length % rate
  if missing = 1 then [0x81] else 0x01 :: (List.replicate (missing - 2) 0 ++ [0x80])

/-- The row in the lowest bits of a number. -/
def Row.ofNat (n : Nat) : Row :=
  ⟨n % laneValues, n >>> 64 % laneValues, n >>> 128 % laneValues, n >>> 192 % laneValues,
    n >>> 256 % laneValues⟩

/-- The state in the lowest bits of a number, row after row. -/
def State.ofNat (n : Nat) : State :=
  ⟨.ofNat n, .ofNat (n >>> 320), .ofNat (n >>> 640), .ofNat (n >>> 960), .ofNat (n >>> 1280)⟩

/-- The state before the first block. -/
def State.start : State := .ofNat 0

/-- Takes in one block. -/
def absorb (s : State) (block : List UInt8) : State := permute (s.add (.ofNat (Bytes.toNat block)))

/-- The digest of a message. -/
def digest (message : List UInt8) : Bytes32 :=
  let padded := message ++ padding message.length
  let final := (List.range (padded.length / rate)).foldl
    (fun s i => absorb s ((padded.drop (rate * i)).take rate)) State.start
  let words := [final.y0.x0, final.y0.x1, final.y0.x2, final.y0.x3]
  Bytes.take32 (words.flatMap fun w => Bytes.ofNat 8 w)

end DiceHouse.Keccak256
