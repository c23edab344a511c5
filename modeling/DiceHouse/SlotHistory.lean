import DiceHouse.Bytes
import DiceHouse.Fault

/-!
# The slot history

The recent slots with their hashes come as bytes: a count, then so many entries of a slot number
and a hash, newest first. The hash that seeds a round is that of the first slot produced from its
seed slot on. It is trusted only while an older slot is still there: without one, an earlier slot
might have been dropped.
-/

namespace DiceHouse.SlotHistory

/-- Where a seed slot stands in the history. -/
inductive Lookup where
  /-- The hash of the first slot from the seed slot on. -/
  | found (hash : Bytes32)
  /-- No such slot was produced yet. -/
  | pending
  /-- The history may have lost that slot. -/
  | expired
  deriving DecidableEq, Repr

/-- How many bytes an entry has. -/
def entryLength : Nat := 40

/-- Goes through so many entries, newest first, with the hash of the last one seen. -/
def scan (seedSlot : Nat) : Nat → List UInt8 → Option Bytes32 → Except Fault Lookup
  | 0, _, some _ => .ok .expired
  | 0, _, none => .ok .pending
  | n + 1, data, candidate =>
    let entry := data.take entryLength
    if entry.length < entryLength then .error .seedUnavailable
    else if Bytes.toNat (entry.take 8) < seedSlot then
      match candidate with
      | some hash => .ok (.found hash)
      | none => .ok .pending
    else scan seedSlot n (data.drop entryLength) (some (Bytes.take32 (entry.drop 8)))

/-- Looks up the hash of the first slot from `seedSlot` on. -/
def lookup (data : List UInt8) (seedSlot : Nat) : Except Fault Lookup :=
  let count := data.take 8
  if count.length < 8 then .error .seedUnavailable
  else scan seedSlot (Bytes.toNat count) (data.drop 8) none

end DiceHouse.SlotHistory
