/-!
# Byte strings

Byte strings are lists. `ofNat w n` writes a number in `w` bytes, least significant first, and
`toNat` reads it back: what was written below `256 ^ w` is read as it was, and what was read is
written as it was. `beNat` reads most significant first.

Keys and digests are byte strings of length 32, `Bytes32`.
-/

namespace DiceHouse

/-- A byte string of length 32. -/
abbrev Bytes32 := Vector UInt8 32

namespace Bytes

/-- The number in `w` bytes, least significant first; what does not fit is dropped. -/
def ofNat : Nat → Nat → List UInt8
  | 0, _ => []
  | w + 1, n => UInt8.ofNat (n % 256) :: ofNat w (n / 256)

/-- The number whose bytes these are, least significant first. -/
def toNat : List UInt8 → Nat
  | [] => 0
  | b :: bs => b.toNat + 256 * toNat bs

/-- The number whose bytes these are, most significant first. -/
def beNat (bs : List UInt8) : Nat := bs.foldl (fun n b => 256 * n + b.toNat) 0

/-- Thirty-two equal bytes. -/
def fill32 (b : UInt8) : Bytes32 := Vector.replicate 32 b

/-- The first 32 bytes of a string, zeros standing for those it lacks. -/
def take32 (bs : List UInt8) : Bytes32 :=
  ⟨((bs ++ List.replicate 32 0).take 32).toArray, by simp⟩

@[simp] theorem length_ofNat (w n : Nat) : (ofNat w n).length = w := by
  induction w generalizing n with
  | zero => rfl
  | succ w ih => simp [ofNat, ih]

theorem toNat_ofNat (w n : Nat) : toNat (ofNat w n) = n % Nat.pow 256 w := by
  induction w generalizing n with
  | zero => simp [ofNat, toNat, Nat.mod_one]
  | succ w ih =>
    have h : n % 256 % 2 ^ 8 = n % 256 := Nat.mod_eq_of_lt (Nat.mod_lt n (by decide))
    have hpow : Nat.pow 256 (w + 1) = 256 * Nat.pow 256 w := Nat.pow_succ'
    rw [ofNat, toNat, ih, UInt8.toNat_ofNat', h, hpow, Nat.mod_mul]

theorem toNat_ofNat_of_lt {w n : Nat} (h : n < Nat.pow 256 w) : toNat (ofNat w n) = n := by
  rw [toNat_ofNat, Nat.mod_eq_of_lt h]

theorem toNat_lt (bs : List UInt8) : toNat bs < Nat.pow 256 bs.length := by
  induction bs with
  | nil => simp [toNat]
  | cons b bs ih =>
    have hpow : Nat.pow 256 (bs.length + 1) = Nat.pow 256 bs.length * 256 := rfl
    rw [toNat, List.length_cons, hpow]
    have hb : b.toNat < 256 := b.toNat_lt
    omega

theorem ofNat_toNat (bs : List UInt8) : ofNat bs.length (toNat bs) = bs := by
  induction bs with
  | nil => rfl
  | cons b bs ih =>
    have hb : b.toNat < 256 := b.toNat_lt
    rw [List.length_cons, ofNat, toNat]
    congr 1
    · rw [Nat.add_mul_mod_self_left, Nat.mod_eq_of_lt hb, UInt8.ofNat_toNat]
    · rw [Nat.add_mul_div_left _ _ (by decide), Nat.div_eq_of_lt hb, Nat.zero_add, ih]

theorem toList_take32 {bs : List UInt8} (h : 32 ≤ bs.length) :
    (take32 bs).toList = bs.take 32 :=
  List.take_append_of_le_length h

theorem toList_take32_of_length {bs : List UInt8} (h : bs.length = 32) :
    (take32 bs).toList = bs := by
  rw [toList_take32 (Nat.le_of_eq h.symm), List.take_of_length_le (Nat.le_of_eq h)]

theorem take32_append (k : Bytes32) (bs : List UInt8) : take32 (k.toList ++ bs) = k := by
  have hlen : 32 ≤ (k.toList ++ bs).length := by simp
  rw [← Vector.toList_inj, toList_take32 hlen, List.take_left' k.length_toList]

theorem take32_toList (k : Bytes32) : take32 k.toList = k :=
  Vector.toList_inj.mp (toList_take32_of_length k.length_toList)

end Bytes

end DiceHouse
