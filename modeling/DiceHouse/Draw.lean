import DiceHouse.Amount
import DiceHouse.Bytes
import DiceHouse.Dice
import DiceHouse.Hash.Keccak256

/-!
# Draws

A draw turns a digest into a number below a bound, each number being hit by equally many 64-bit
words. The first word of the digest counts if it lies below the greatest multiple of the bound that
fits; its remainder is the result. Otherwise the digest is hashed again, up to `maxRetries` times.

The hash is an argument of `draw`, for nothing about a draw depends on which one it is. The two
draws of a round, of the square and of the jackpot's unit of stake, take Keccak-256.
-/

namespace DiceHouse.Draw

/-- How many rejected words are replaced before a draw gives up. -/
def maxRetries : Nat := 16

/-- The first word of a digest, least significant byte first. -/
def firstWord (digest : Bytes32) : Nat := Bytes.toNat (digest.toList.take 8)

/-- Words below this number count: the greatest multiple of the bound that is an amount. -/
def cap (bound : Nat) : Nat := Amount.greatest / bound * bound

/-- A draw that may look at so many words. -/
def drawWithin (hash : Bytes32 → Bytes32) (bound : Nat) : Nat → Bytes32 → Except Fault Nat
  | 0, _ => .error .drawExhausted
  | tries + 1, digest =>
    if firstWord digest < cap bound then .ok (firstWord digest % bound)
    else drawWithin hash bound tries (hash digest)

/-- A number below the bound, drawn from a digest. -/
def draw (hash : Bytes32 → Bytes32) (digest : Bytes32) (bound : Nat) : Except Fault Nat :=
  drawWithin hash bound (maxRetries + 1) digest

/-- The hash between two tries. -/
def rehash (digest : Bytes32) : Bytes32 := Keccak256.digest digest.toList

/-- The square on which a round with this seed and number lands. -/
def square (seed : Bytes32) (round : Nat) : Except Fault Square := do
  let n ← draw rehash (Keccak256.digest (seed.toList ++ Bytes.ofNat 8 round)) squareCount
  return Fin.ofNat squareCount n

/-- The roll of a round with this seed and number. -/
def roll (seed : Bytes32) (round : Nat) : Except Fault Roll := Roll.ofSquare <$> square seed round

/-- What sets the jackpot's digest apart from the square's. -/
def jackpotTag : List UInt8 := "top".toUTF8.toList

/-- The unit, of so many staked on the winning square, whose owner gets the jackpot. -/
def jackpot (seed : Bytes32) (round staked : Nat) : Except Fault Nat :=
  if staked = 0 then .ok 0
  else draw rehash (Keccak256.digest (seed.toList ++ Bytes.ofNat 8 round ++ jackpotTag)) staked

theorem drawWithin_lt {hash : Bytes32 → Bytes32} {bound : Nat} (hb : 0 < bound) :
    ∀ {tries : Nat} {digest : Bytes32} {n : Nat},
      drawWithin hash bound tries digest = .ok n → n < bound
  | 0, _, _, h => by simp [drawWithin] at h
  | tries + 1, digest, n, h => by
    rw [drawWithin] at h
    split at h
    · cases h
      exact Nat.mod_lt _ hb
    · exact drawWithin_lt hb h

end DiceHouse.Draw
