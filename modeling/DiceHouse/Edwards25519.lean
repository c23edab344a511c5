import DiceHouse.Bytes

/-!
# Points of the curve edwards25519

The curve is `-x² + y² = 1 + d x² y²` over the integers modulo the prime `2^255 - 19`. A point is
written as the 32 bytes of its `y`, least significant first, with the sign of `x` in the top bit.
Such a string names a point exactly when `x² = (y² - 1) / (d y² + 1)` has a solution, and since
`d y² + 1` is never zero, that is when `(y² - 1) (d y² + 1)` is zero or a square: by Euler's
criterion, when its power to half the order of the field is 0 or 1.
-/

namespace DiceHouse.Edwards25519

/-- The prime of the field. -/
def p : Nat := Nat.pow 2 255 - 19

/-- The constant of the curve, `-121665 / 121666`. -/
def d : Nat := 37095705934669439343138083508754565189542113879843219016388785533085940283555

/-- A power modulo `m`, by repeated squaring. -/
def powMod (m b e : Nat) : Nat :=
  if e = 0 then 1 % m
  else
    let half := powMod m (b * b % m) (e / 2)
    if e % 2 = 1 then b * half % m else half
termination_by e
decreasing_by exact Nat.div_lt_self (by omega) (by decide)

/-- Whether a byte string names a point of the curve. -/
def isPoint (bytes : Bytes32) : Bool :=
  let y := Bytes.toNat bytes.toList % Nat.pow 2 255 % p
  let u := (y * y + (p - 1)) % p
  let v := (d * (y * y) + 1) % p
  powMod p (u * v % p) ((p - 1) / 2) ≤ 1

theorem powMod_eq (m b e : Nat) : powMod m b e = Nat.pow b e % m := by
  change powMod m b e = b ^ e % m
  induction e using Nat.strongRecOn generalizing b with
  | ind e ih =>
    rw [powMod]
    split
    · next h => simp [h]
    · next h =>
      have hlt : e / 2 < e := Nat.div_lt_self (by omega) (by decide)
      have hsq : (b * b % m) ^ (e / 2) % m = b ^ (2 * (e / 2)) % m := by
        rw [← Nat.pow_mod, Nat.pow_mul, Nat.pow_two]
      simp only [ih _ hlt, hsq]
      split
      · next h1 =>
        rw [Nat.mul_mod_mod]
        congr 1
        rw [← Nat.pow_succ']
        congr 1
        omega
      · next h1 =>
        congr 2
        omega

end DiceHouse.Edwards25519
