import DiceHouse.Fault

/-!
# Refusals of the program

A request reaches the game through accounts and bytes, and can be refused before the game has a say:
an account is missing or is not the one that belongs there, a signature is missing, a balance does
not suffice. A `Refusal` is any reason for which an instruction fails; the game's own faults are
among them. Refusals with a number of their own say only that number.
-/

namespace DiceHouse

/-- Why an instruction fails. -/
inductive Refusal where
  /-- The game refuses. -/
  | fault (f : Fault)
  /-- A balance is less than what should leave it. -/
  | insufficient
  /-- A transfer between wallets of different tokens. -/
  | mintMismatch
  /-- A transfer by someone who does not own the wallet. -/
  | ownerMismatch
  /-- A balance or supply would leave its range. -/
  | balanceOverflow
  /-- The bytes of the instruction make no request. -/
  | invalidRequest
  /-- An account holds something else, or is another than it has to be. -/
  | invalidContents
  /-- A record is not kept by this program. -/
  | invalidOwner
  /-- An account is not the derived one that belongs there. -/
  | invalidSeeds
  /-- The instruction is for another program. -/
  | wrongProgram
  /-- An account did not sign, or may not be written. -/
  | missingSignature
  /-- A record is there already. -/
  | alreadyOpened
  /-- A wallet was never opened. -/
  | notOpened
  /-- There are more or fewer accounts than the request takes. -/
  | wrongAccounts
  /-- The lamports of an account would leave their range. -/
  | overflow
  deriving DecidableEq, Repr

namespace Refusal

/-- The number of a refusal that has one of its own. -/
def code? : Refusal → Option Nat
  | fault f => some f.code
  | insufficient => some 1
  | mintMismatch => some 3
  | ownerMismatch => some 4
  | balanceOverflow => some 14
  | _ => none

/-- What a number says. -/
def codeMessage (code : Nat) : String :=
  "Custom program error: 0x" ++ String.ofList (Nat.toDigits 16 code)

/-- The sentence that tells a person what went wrong. -/
def message : Refusal → String
  | fault f => codeMessage f.code
  | insufficient => codeMessage 1
  | mintMismatch => codeMessage 3
  | ownerMismatch => codeMessage 4
  | balanceOverflow => codeMessage 14
  | invalidRequest => "An instruction's data contents was invalid"
  | invalidContents => "An account's data contents was invalid"
  | invalidOwner => "Invalid account owner"
  | invalidSeeds => "Provided seeds do not result in a valid address"
  | wrongProgram => "The account did not have the expected program id"
  | missingSignature => "A signature was required but not found"
  | alreadyOpened =>
    "An initialize instruction was sent to an account that has already been initialized"
  | notOpened => "An attempt to operate on an account that hasn't been initialized"
  | wrongAccounts => "The instruction expected additional account keys"
  | overflow => "Program arithmetic overflowed"

theorem message_of_code {r : Refusal} {code : Nat} (h : r.code? = some code) :
    r.message = codeMessage code := by
  cases r <;> simp_all [code?, message]

end Refusal

/-- A fault of the game refuses the instruction. -/
instance : MonadLift (Except Fault) (Except Refusal) where
  monadLift x := x.mapError .fault

/-- `demand c r` goes on when `c` holds and refuses with `r` otherwise. -/
def demand (c : Prop) [Decidable c] (r : Refusal) : Except Refusal Unit :=
  if c then .ok () else .error r

theorem demand_eq_ok_iff {c : Prop} [Decidable c] {r : Refusal} {u : Unit} :
    demand c r = .ok u ↔ c := by
  unfold demand
  split <;> simp_all

end DiceHouse
