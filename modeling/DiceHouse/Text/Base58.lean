import DiceHouse.Bytes

/-!
# Base 58

A byte string is written as a number in base 58, most significant digit first, over an alphabet
that leaves out the four letters and digits easily mistaken for others. Leading zero bytes, which
the number does not show, are written as leading first letters of the alphabet.
-/

namespace DiceHouse.Base58

/-- The 58 digits, in ascending order. -/
def alphabet : List Char :=
  "123456789ABCDEFGHJKLMNPQRSTUVWXYZabcdefghijkmnopqrstuvwxyz".toList

/-- The digits of a number, least significant first; zero has none. -/
def digits (n : Nat) : List Nat :=
  if n = 0 then [] else n % 58 :: digits (n / 58)
termination_by n
decreasing_by exact Nat.div_lt_self (by omega) (by decide)

/-- A byte string in base 58. -/
def encode (bs : List UInt8) : String :=
  let zeros := (bs.takeWhile (· == 0)).length
  String.ofList (List.replicate zeros '1' ++
    ((digits (Bytes.beNat bs)).reverse.map fun d => alphabet.getD d '1'))

/-- The number that a text in base 58 stands for. -/
def value (s : String) : Nat :=
  s.toList.foldl (fun n c => 58 * n + alphabet.idxOf c) 0

/-- The 32 bytes that a text in base 58 stands for. -/
def decode32 (s : String) : Bytes32 :=
  Bytes.take32 (Bytes.ofNat 32 (value s)).reverse

end DiceHouse.Base58
